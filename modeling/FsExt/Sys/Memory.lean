import Mathlib.Data.List.Forall2

set_option autoImplicit false

namespace Sys

-- One byte of memory: never written, a known byte, or the `part`-th byte of a
-- pointer to the cell `target` of the same block.
inductive Cell where
  | undef
  | byte (value : UInt8)
  | pointer (target part : Nat)
deriving DecidableEq

abbrev Block := List Cell

def blank (size : Nat) : Block := List.replicate size .undef

def bytes (values : List UInt8) : Block := values.map .byte

def overwrite (block : Block) (offset : Nat) (cells : Block) : Block :=
  block.take offset ++ cells ++ block.drop (offset + cells.length)

theorem bytes_injective (left right : List UInt8) (same : bytes left = bytes right) : left = right :=
  List.map_injective_iff.mpr (fun _ _ equal => by cases equal; rfl) same

@[simp] theorem bytes_length (values : List UInt8) : (bytes values).length = values.length :=
  List.length_map _

theorem overwrite_blank (size : Nat) (values : List UInt8) :
    overwrite (blank size) 0 (bytes values) = bytes values ++ blank (size - values.length) := by
  simp [overwrite, blank]

theorem overwrite_inside (front gap rest cells : Block) (fits : cells.length ≤ gap.length) :
    overwrite (front ++ gap ++ rest) front.length cells = front ++ cells ++ gap.drop cells.length ++ rest := by
  have split : front ++ gap ++ rest = front ++ (gap ++ rest) := List.append_assoc ..
  rw [overwrite, split, List.take_left' rfl, ← List.drop_drop, List.drop_left' rfl,
    List.drop_append_of_le_length fits]
  simp only [List.append_assoc]

theorem bytes_blank_not_bytes (values other : List UInt8) (size : Nat) (some_ : 0 < size) :
    bytes values ++ blank size ≠ bytes other := by
  intro same
  have member : Cell.undef ∈ bytes other := by
    rw [← same, List.mem_append]
    exact .inr (List.mem_replicate.mpr ⟨by omega, rfl⟩)
  obtain ⟨value, _, undef⟩ := List.mem_map.mp member
  cases undef

-- The string that starts at a cell: none if a cell that holds no byte, or the
-- end of the block, comes before its terminator.
def readString : Block → Option (List UInt8)
  | [] => none
  | .byte value :: rest => if value = 0 then some [] else (readString rest).map (value :: ·)
  | .undef :: _ | .pointer _ _ :: _ => none

def strlen (block : Block) : Option Nat := (readString block).map List.length

def pointerSize : Nat := 8

def pointerCells (target : Nat) : Block := (List.range pointerSize).map (.pointer target)

def pointerOf (width target : Nat) : Block := (List.range width).map (.pointer target)

def readPointerOf (width : Nat) (block : Block) : Option Nat :=
  match block with
  | .pointer target _ :: _ => if block.take width = pointerOf width target then some target else none
  | _ => none

-- None: an access beyond the block.
def loadCells (block : Block) (position size : Nat) : Option Block :=
  if position + size ≤ block.length then some ((block.drop position).take size) else none

def storeCells (block : Block) (position : Nat) (cells : Block) : Option Block :=
  if position + cells.length ≤ block.length then some (overwrite block position cells) else none

def readPointer (block : Block) : Option Nat :=
  match block with
  | .pointer target _ :: _ => if block.take pointerSize = pointerCells target then some target else none
  | _ => none

def readTable (block : Block) : (count position : Nat) → Option (List (List UInt8))
  | 0, _ => some []
  | count + 1, position => do
      let target ← readPointer (block.drop position)
      let name ← readString (block.drop target)
      let rest ← readTable block count (position + pointerSize)
      return name :: rest

def resize (block : Block) (size : Nat) : Block := block.take size ++ blank (size - block.length)

theorem resize_more (block : Block) (room : Nat) : resize block (room + block.length) = block ++ blank room := by
  rw [resize, List.take_of_length_le (by omega), Nat.add_sub_cancel]

theorem moved_up (block : Block) (room : Nat) :
    ∃ gap : Block, gap.length = room ∧
      overwrite (resize block (room + block.length)) room (block.take block.length) = gap ++ block := by
  refine ⟨(block ++ blank room).take room, ?_, ?_⟩
  · simp [blank]
  · rw [resize_more, overwrite, List.take_length, List.drop_of_length_le (by simp [blank, Nat.add_comm]), List.append_nil]

theorem moved_up_checked (block : Block) (room : Nat) :
    ∃ gap : Block, gap.length = room ∧
      (loadCells (resize block (room + block.length)) 0 block.length).bind
        (storeCells (resize block (room + block.length)) room) = some (gap ++ block) := by
  obtain ⟨gap, size, moved⟩ := moved_up block room
  have long : (resize block (room + block.length)).length = room + block.length := by
    rw [resize_more, List.length_append, blank, List.length_replicate, Nat.add_comm]
  have loaded : loadCells (resize block (room + block.length)) 0 block.length = some block := by
    rw [loadCells, if_pos (by omega), List.drop_zero, resize_more, List.take_left' rfl]
  rw [List.take_length] at moved
  refine ⟨gap, size, ?_⟩
  rw [loaded, Option.bind_some, storeCells, if_pos (by omega), moved]

theorem read_string_name (name : List UInt8) (rest : Block) (plain : 0 ∉ name) :
    readString (bytes name ++ .byte 0 :: rest) = some name := by
  induction name with
  | nil => simp [bytes, readString]
  | cons value tail ih =>
      have nonzero : value ≠ 0 := fun zero => plain (zero ▸ .head _)
      have later : 0 ∉ tail := fun inside => plain (.tail _ inside)
      have found := ih later
      simp only [bytes] at found
      simp [bytes, readString, nonzero, found]

theorem read_string_bounds (block : Block) (string : List UInt8) (read : readString block = some string) :
    0 ∉ string ∧ string.length < block.length := by
  induction block generalizing string with
  | nil => cases read
  | cons cell block ih =>
      cases cell with
      | undef => cases read
      | pointer => cases read
      | byte value =>
          simp only [readString] at read
          by_cases zero : value = 0
          · rw [if_pos zero] at read
            cases read
            simp
          · rw [if_neg zero] at read
            obtain ⟨rest, found, rfl⟩ := Option.map_eq_some_iff.mp read
            obtain ⟨plain, shorter⟩ := ih rest found
            exact ⟨by simpa [Ne.symm zero] using plain, by simpa using shorter⟩

@[simp] theorem pointer_cells_length (target : Nat) : (pointerCells target).length = pointerSize := by
  simp [pointerCells]

@[simp] theorem pointer_of_length (width target : Nat) : (pointerOf width target).length = width := by
  simp [pointerOf]

theorem read_pointer_of (width target : Nat) (rest : Block) (positive : 0 < width) :
    readPointerOf width (pointerOf width target ++ rest) = some target := by
  have taken : (pointerOf width target ++ rest).take width = pointerOf width target :=
    List.take_left' (pointer_of_length width target)
  obtain ⟨less, rfl⟩ : ∃ less, width = less + 1 := ⟨width - 1, by omega⟩
  have head : pointerOf (less + 1) target ++ rest = .pointer target 0 ::
      ((List.range less).map (fun part => .pointer target (part + 1)) ++ rest) := by
    rw [pointerOf, List.range_succ_eq_map, List.map_cons, List.map_map]
    rfl
  rw [head] at taken ⊢
  exact if_pos taken

theorem read_pointer_cells (target : Nat) (rest : Block) :
    readPointer (pointerCells target ++ rest) = some target :=
  read_pointer_of pointerSize target rest (by decide)

theorem read_table_pointers (block : Block) (targets : List Nat) (names : List (List UInt8)) (position : Nat)
    (rest : Block) (table : block.drop position = targets.flatMap pointerCells ++ rest)
    (strings : targets.map (fun target => readString (block.drop target)) = names.map some) :
    readTable block names.length position = some names := by
  induction targets generalizing names position with
  | nil =>
      cases names with
      | nil => rfl
      | cons => cases strings
  | cons target targets ih =>
      cases names with
      | nil => cases strings
      | cons name names =>
          simp only [List.map_cons, List.cons.injEq] at strings
          simp only [List.flatMap_cons, List.append_assoc] at table
          have later : block.drop (position + pointerSize) = targets.flatMap pointerCells ++ rest := by
            rw [← List.drop_drop, table, List.drop_left' (pointer_cells_length target)]
          simp only [List.length_cons, readTable, table, read_pointer_cells, Option.bind_eq_bind, Option.bind_some,
            strings.1, ih names (position + pointerSize) later strings.2]
          rfl

theorem read_table_strings (block : Block) (targets : List Nat) (names : List (List UInt8)) (position : Nat)
    (rest : Block) (table : block.drop position = targets.flatMap pointerCells ++ rest)
    (read : readTable block targets.length position = some names) :
    targets.map (fun target => readString (block.drop target)) = names.map some := by
  induction targets generalizing names position with
  | nil =>
      cases read
      rfl
  | cons target targets ih =>
      simp only [List.flatMap_cons, List.append_assoc] at table
      have later : block.drop (position + pointerSize) = targets.flatMap pointerCells ++ rest := by
        rw [← List.drop_drop, table, List.drop_left' (pointer_cells_length target)]
      simp only [List.length_cons, readTable, table, read_pointer_cells, Option.bind_eq_bind, Option.bind_some,
        Option.bind_eq_some_iff] at read
      obtain ⟨name, here, tail, onward, made⟩ := read
      obtain rfl := Option.some.inj made
      rw [List.map_cons, List.map_cons, here, ih tail (position + pointerSize) later onward]

theorem read_string_within (name : List UInt8) (rest : Block) (string : List UInt8)
    (read : readString (bytes name ++ .byte 0 :: rest) = some string) : string.length ≤ name.length := by
  induction name generalizing string with
  | nil =>
      cases read
      exact Nat.le_refl 0
  | cons value name ih =>
      simp only [bytes, List.map_cons, List.cons_append, readString] at read
      by_cases zero : value = 0
      · rw [if_pos zero] at read
        cases read
        exact Nat.zero_le _
      · rw [if_neg zero] at read
        obtain ⟨tail, found, rfl⟩ := Option.map_eq_some_iff.mp read
        exact Nat.succ_le_succ (ih tail found)

def Settles (cell cell' : Cell) : Prop := cell = .undef ∨ cell' = cell

def Refines (block block' : Block) : Prop := List.Forall₂ Settles block block'

theorem refines_refl (block : Block) : Refines block block := List.forall₂_same.mpr fun _ _ => .inr rfl

theorem refines_append (block block' rest rest' : Block) (refines : Refines block block') (more : Refines rest rest') :
    Refines (block ++ rest) (block' ++ rest') := List.rel_append refines more

theorem refines_blank (block : Block) : Refines (blank block.length) block := by
  induction block with
  | nil => exact .nil
  | cons cell block ih => exact .cons (.inl rfl) ih

theorem refines_resize (block block' : Block) (size : Nat) (refines : Refines block block') :
    Refines (resize block size) (resize block' size) := by
  rw [resize, resize, refines.length_eq]
  exact refines_append _ _ _ _ (List.forall₂_take size refines) (refines_refl _)

theorem refines_overwrite (block block' cells cells' : Block) (offset : Nat) (refines : Refines block block')
    (laid : Refines cells cells') : Refines (overwrite block offset cells) (overwrite block' offset cells') := by
  rw [overwrite, overwrite, laid.length_eq]
  exact refines_append _ _ _ _ (refines_append _ _ _ _ (List.forall₂_take offset refines) laid)
    (List.forall₂_drop _ refines)

theorem refines_string (block block' : Block) (string : List UInt8) (refines : Refines block block')
    (read : readString block = some string) : readString block' = some string := by
  induction refines generalizing string with
  | nil => cases read
  | cons settles _ ih =>
      rename_i cell cell' rest rest' _
      rcases settles with rfl | rfl
      · cases read
      · cases cell' with
        | undef => cases read
        | pointer => cases read
        | byte value =>
            simp only [readString] at read ⊢
            by_cases zero : value = 0
            · rw [if_pos zero] at read ⊢
              exact read
            · rw [if_neg zero] at read ⊢
              obtain ⟨later, found, rfl⟩ := Option.map_eq_some_iff.mp read
              rw [ih later found]
              rfl

theorem refines_strlen (block block' : Block) (length : Nat) (refines : Refines block block')
    (read : strlen block = some length) : strlen block' = some length := by
  obtain ⟨string, found, rfl⟩ := Option.map_eq_some_iff.mp read
  rw [strlen, refines_string block block' string refines found]
  rfl

theorem refines_pointers (cells block : Block) (some_ : ∀ cell ∈ cells, cell ≠ .undef) (refines : Refines cells block) :
    block = cells := by
  induction refines with
  | nil => rfl
  | cons settles _ ih =>
      rw [settles.resolve_left (some_ _ (.head _)), ih fun cell member => some_ cell (.tail _ member)]

theorem refines_pointer (block block' : Block) (target : Nat) (refines : Refines block block')
    (read : readPointer block = some target) : readPointer block' = some target := by
  cases refines with
  | nil => cases read
  | cons settles rest =>
      rename_i cell cell' cells cells'
      rcases settles with rfl | rfl
      · cases read
      · cases cell' with
        | undef => cases read
        | byte => cases read
        | pointer target' part =>
            simp only [readPointer] at read ⊢
            by_cases whole : (Cell.pointer target' part :: cells).take pointerSize = pointerCells target'
            · have taken : ((Cell.pointer target' part :: cells').take pointerSize) = pointerCells target' := by
                refine refines_pointers _ _ (fun cell member => ?_)
                  (whole ▸ List.forall₂_take pointerSize (.cons (.inr rfl) rest))
                obtain ⟨_, _, rfl⟩ := List.mem_map.mp member
                nofun
              rw [if_pos whole] at read
              rw [if_pos taken]
              exact read
            · rw [if_neg whole] at read
              cases read

theorem refines_table (block block' : Block) (count position : Nat) (list : List (List UInt8))
    (refines : Refines block block') (read : readTable block count position = some list) :
    readTable block' count position = some list := by
  induction count generalizing position list with
  | zero => exact read
  | succ count ih =>
      simp only [readTable, Option.bind_eq_bind, Option.bind_eq_some_iff] at read ⊢
      obtain ⟨target, pointed, name, named, rest, more, whole⟩ := read
      exact ⟨target, refines_pointer _ _ target (List.forall₂_drop position refines) pointed, name,
        refines_string _ _ name (List.forall₂_drop target refines) named, rest, ih _ rest more, whole⟩

end Sys
