import FsExt.Attr.Listing
import FsExt.Attr.Unpack

set_option autoImplicit false

namespace FsExt.Attr.Windows.Passes

open Sys

structure Visit where
  entry : Nat
  name : List UInt16
deriving DecidableEq

structure Measured where
  info : List UInt8
  length : Nat
  namesLen : Nat
  visits : List Visit
  cuts : List Nat

structure Copied where
  names : Block
  visits : List Visit
  pointers : List (Nat × Nat)
  texts : List (Nat × Nat)

section
variable (convert : List UInt16 → List UInt8)

def Measured.measure (measured : Measured) (next : Nat) (name : List UInt16) (last : Nat) : Measured :=
  { measured with
    length := if name = [] then measured.length else measured.length + 1
    namesLen := if name = [] then measured.namesLen else measured.namesLen + (pointerSize + (convert name).length)
    visits := ⟨next, name⟩ :: measured.visits
    cuts := last :: measured.cuts }

-- The two loops of `fs_ext__list_attrs` with any conversion, whose size query is
-- the length of what it gives.
def countPass : (turns : Nat) → (info : List UInt8) → (next : Nat) → Option Measured
  | 0, _, _ => none
  | turns + 1, info, next => do
      let unicodeName := next + nameOffset + 2
      let whole ← readWide (info.drop unicodeName)
      let last := unicodeName + 2 * whole.length - 2 * dataSuffix.length
      let info := store info last [0, 0]
      let name ← readWide (info.drop unicodeName)
      let nextEntryOffset ← readWord 4 next info
      let rest ← if nextEntryOffset = 0 then some ⟨info, 0, 0, [], []⟩ else countPass turns info (next + nextEntryOffset)
      return rest.measure convert next name last

def Copied.visit (copied : Copied) (next : Nat) (name : List UInt16) : Copied :=
  { copied with visits := ⟨next, name⟩ :: copied.visits }

def Copied.write (copied : Copied) (pointer text : Nat × Nat) : Copied :=
  { copied with pointers := pointer :: copied.pointers, texts := text :: copied.texts }

def copyPass (info : List UInt8) (offset : Nat) : (turns : Nat) → (names : Block) → (next i j : Nat) → Option Copied
  | 0, _, _, _, _ => none
  | turns + 1, names, next, i, j => do
      let name ← readWide (info.drop (next + nameOffset + 2))
      let nextEntryOffset ← readWord 4 next info
      let onward := fun names i j =>
        if nextEntryOffset = 0 then some ⟨names, [], [], []⟩
        else copyPass info offset turns names (next + nextEntryOffset) i j
      if name = [] then
        let rest ← onward names i j
        return rest.visit next name
      else
        let copied ← place names (offset + i) (bytes (convert name))
        let pointed ← place copied j (pointerCells (offset + i))
        let rest ← onward pointed (i + (convert name).length) (j + pointerSize)
        return (rest.write (j, j + pointerSize) (offset + i, offset + i + (convert name).length)).visit next name

def listPasses (info : List UInt8) : Option (Measured × Copied) := do
  let measured ← countPass convert info.length info 0
  let copied ← copyPass convert measured.info (measured.length * pointerSize) measured.info.length
    (blank measured.namesLen) 0 0 0
  return (measured, copied)

end

def Measured.numbers (measured : Measured) : List UInt8 × Nat × Nat := (measured.info, measured.length, measured.namesLen)

def numbers (counted : Counted) : List UInt8 × Nat × Nat := (counted.info, counted.length, counted.namesLen)

theorem measure_count (measured : Measured) (counted : Counted) (next last : Nat) (name : List UInt16)
    (touches : List Touch) (same : measured.numbers = numbers counted) :
    (measured.measure wideCharToMultiByte next name last).numbers = numbers (counted.count name touches) := by
  simp only [Measured.numbers, numbers, Prod.mk.injEq] at same
  obtain ⟨info, length, namesLen⟩ := same
  rw [Counted.count]
  split
  · simp [Measured.numbers, Measured.measure, numbers, *]
  · simp [Measured.numbers, Measured.measure, numbers, *]

theorem bind_map_same {α α' β β' γ δ : Type} (left : Option α) (right : Option β) (show_ : α → γ) (show' : β → γ)
    (onto : α → α') (onto' : β → β') (last : α' → δ) (last' : β' → δ) (same : left.map show_ = right.map show')
    (step : ∀ a b, show_ a = show' b → last (onto a) = last' (onto' b)) :
    (left.bind fun a => some (onto a)).map last = (right.bind fun b => some (onto' b)).map last' := by
  cases left with
  | none =>
      cases right with
      | none => rfl
      | some b => cases same
  | some a =>
      cases right with
      | none => cases same
      | some b => exact congrArg some (step a b (Option.some.inj same))

theorem map_bind_congr {α β β' γ : Type} (first : Option α) (next : α → Option β) (next' : α → Option β')
    (last : β → γ) (last' : β' → γ) (same : ∀ a, (next a).map last = (next' a).map last') :
    (first.bind next).map last = (first.bind next').map last' := by
  cases first with
  | none => rfl
  | some a => exact same a

theorem bind_map_congr {α β γ : Type} (first : Option α) (next : α → Option γ) (next' : α → Option β) (last : β → γ)
    (same : ∀ a, next a = (next' a).map last) : first.bind next = (first.bind next').map last := by
  cases first with
  | none => rfl
  | some a => exact same a

theorem count_pass_streams (turns : Nat) (info : List UInt8) (next : Nat) :
    (countPass wideCharToMultiByte turns info next).map Measured.numbers = (countStreams turns info next).map numbers := by
  induction turns generalizing info next with
  | zero => rfl
  | succ turns ih =>
      simp only [countPass, countStreams, Option.bind_eq_bind]
      refine map_bind_congr _ _ _ _ _ fun whole => ?_
      refine map_bind_congr _ _ _ _ _ fun name => ?_
      refine map_bind_congr _ _ _ _ _ fun nextEntryOffset => ?_
      split
      · exact congrArg some (measure_count _ _ _ _ _ _ rfl)
      · exact bind_map_same _ _ _ _ _ _ _ _ (ih _ _) fun measured counted same =>
          measure_count measured counted _ _ _ _ same

theorem copy_pass_streams (info : List UInt8) (offset turns : Nat) (names : Block) (next i j : Nat) :
    (copyPass wideCharToMultiByte info offset turns names next i j).map Copied.names =
      (copyStreams info offset turns names next i j).map Prod.fst := by
  induction turns generalizing names next i j with
  | zero => rfl
  | succ turns ih =>
      simp only [copyPass, copyStreams, Option.bind_eq_bind]
      refine map_bind_congr _ _ _ _ _ fun name => ?_
      refine map_bind_congr _ _ _ _ _ fun nextEntryOffset => ?_
      have onward : ∀ names i j,
          (if nextEntryOffset = 0 then some ⟨names, [], [], []⟩
            else copyPass wideCharToMultiByte info offset turns names (next + nextEntryOffset) i j).map Copied.names =
          (if nextEntryOffset = 0 then some (names, [])
            else copyStreams info offset turns names (next + nextEntryOffset) i j).map Prod.fst := by
        intro names i j
        split
        · rfl
        · exact ih names _ i j
      by_cases unnamed : name = []
      · rw [if_pos unnamed, if_pos unnamed]
        exact bind_map_same _ _ _ _ _ _ _ _ (onward names i j) fun _ _ same => same
      · rw [if_neg unnamed, if_neg unnamed]
        refine map_bind_congr _ _ _ _ _ fun copied => ?_
        refine map_bind_congr _ _ _ _ _ fun pointed => ?_
        exact bind_map_same _ _ _ _ _ _ _ _ (onward pointed _ _) fun _ _ same => same

theorem list_passes_streams (info : List UInt8) :
    (listPasses wideCharToMultiByte info).map (fun passes => (⟨some passes.2.names, passes.1.length⟩ : NameTable)) =
      (listStreams info).map Listing.table := by
  have counted := count_pass_streams info.length info 0
  simp only [listPasses, listStreams, Option.bind_eq_bind]
  cases first : countPass wideCharToMultiByte info.length info 0 with
  | none =>
      rw [first] at counted
      cases second : countStreams info.length info 0 with
      | none => rfl
      | some _ => rw [second] at counted; cases counted
  | some measured =>
      rw [first] at counted
      cases second : countStreams info.length info 0 with
      | none => rw [second] at counted; cases counted
      | some counts =>
          rw [second] at counted
          have same := Option.some.inj counted
          simp only [Measured.numbers, numbers, Prod.mk.injEq] at same
          obtain ⟨info_, length, namesLen⟩ := same
          rw [Option.bind_some, Option.bind_some, info_, length, namesLen]
          exact bind_map_same _ _ _ _ _ _ _ _ (copy_pass_streams _ _ _ _ _ _ _) fun copied listed same => by
            simp only [same, length]

-- The second loop takes two things apart: what it comes to, which depends on the
-- list alone, and what it writes for the names it has seen.
def walk (info : List UInt8) : (turns : Nat) → (next : Nat) → Option (List Visit)
  | 0, _ => none
  | turns + 1, next => do
      let name ← readWide (info.drop (next + nameOffset + 2))
      let nextEntryOffset ← readWord 4 next info
      let rest := if nextEntryOffset = 0 then some [] else walk info turns (next + nextEntryOffset)
      rest.map (⟨next, name⟩ :: ·)

section
variable (convert : List UInt16 → List UInt8) (offset : Nat)

def fill (visits : List Visit) : List (List UInt16) → (names : Block) → (i j : Nat) → Option Copied
  | [], names, _, _ => some ⟨names, visits, [], []⟩
  | name :: later, names, i, j =>
      if name = [] then fill visits later names i j
      else do
        let copied ← place names (offset + i) (bytes (convert name))
        let pointed ← place copied j (pointerCells (offset + i))
        let rest ← fill visits later pointed (i + (convert name).length) (j + pointerSize)
        return rest.write (j, j + pointerSize) (offset + i, offset + i + (convert name).length)

theorem fill_visit (visits : List Visit) (names : List (List UInt16)) (block : Block) (i j next : Nat)
    (name : List UInt16) :
    fill convert offset (⟨next, name⟩ :: visits) names block i j =
      (fill convert offset visits names block i j).map fun copied => copied.visit next name := by
  induction names generalizing block i j with
  | nil => rfl
  | cons other names ih =>
      rw [fill, fill]
      split
      · exact ih block i j
      · simp only [Option.bind_eq_bind, ih]
        refine bind_map_congr _ _ _ _ fun copied => ?_
        refine bind_map_congr _ _ _ _ fun pointed => ?_
        cases fill convert offset visits names pointed (i + (convert other).length) (j + pointerSize) with
        | none => rfl
        | some rest => rfl

theorem copy_pass_fill (info : List UInt8) (turns : Nat) (block : Block) (next i j : Nat) (visits : List Visit)
    (walked : walk info turns next = some visits) :
    copyPass convert info offset turns block next i j =
      fill convert offset visits (visits.map Visit.name) block i j := by
  induction turns generalizing block next i j visits with
  | zero => cases walked
  | succ turns ih =>
      simp only [walk, Option.bind_eq_bind, Option.bind_eq_some_iff, Option.map_eq_some_iff] at walked
      obtain ⟨name, read, nextEntryOffset, word, rest, later, rfl⟩ := walked
      have onward : ∀ block i j,
          (if nextEntryOffset = 0 then some ⟨block, [], [], []⟩
            else copyPass convert info offset turns block (next + nextEntryOffset) i j) =
          fill convert offset rest (rest.map Visit.name) block i j := by
        intro block i j
        split at later
        · rename_i last
          obtain rfl := Option.some.inj later
          rw [if_pos last]
          rfl
        · rename_i more
          rw [if_neg more]
          exact ih block _ i j rest later
      rw [fill_visit]
      simp only [copyPass, read, word, Option.bind_eq_bind, Option.bind_some, onward, List.map_cons, fill]
      split
      · exact Option.map_eq_bind.symm
      · refine bind_map_congr _ _ _ _ fun copied => ?_
        refine bind_map_congr _ _ _ _ fun pointed => ?_
        cases fill convert offset rest (rest.map Visit.name) pointed (i + (convert name).length) (j + pointerSize) with
        | none => rfl
        | some filled => rfl

end

def shown (names : List (List UInt16)) : List (List UInt16) := names.filter (· ≠ [])

def pointerRanges : (start count : Nat) → List (Nat × Nat)
  | _, 0 => []
  | start, count + 1 => (start, start + pointerSize) :: pointerRanges (start + pointerSize) count

theorem pointer_ranges_length (start count : Nat) : (pointerRanges start count).length = count := by
  induction count generalizing start with
  | zero => rfl
  | succ count ih => rw [pointerRanges, List.length_cons, ih]

theorem pointer_ranges_tile (start count : Nat) :
    Tiles (pointerRanges start count) start (start + count * pointerSize) := by
  induction count generalizing start with
  | zero => simp [pointerRanges, Tiles]
  | succ count ih =>
      refine ⟨rfl, Nat.le_add_right _ _, ?_⟩
      have later := ih (start + pointerSize)
      rwa [Nat.add_assoc, Nat.add_comm pointerSize, ← Nat.succ_mul] at later

section
variable (convert : List UInt16 → List UInt8)

def textRanges : (start : Nat) → List (List UInt16) → List (Nat × Nat)
  | _, [] => []
  | start, name :: names =>
      (start, start + (convert name).length) :: textRanges (start + (convert name).length) names

theorem text_ranges_length (start : Nat) (names : List (List UInt16)) :
    (textRanges convert start names).length = names.length := by
  induction names generalizing start with
  | nil => rfl
  | cons name names ih => rw [textRanges, List.length_cons, ih, List.length_cons]

theorem text_ranges_tile (start : Nat) (names : List (List UInt16)) :
    Tiles (textRanges convert start names) start (start + (names.flatMap convert).length) := by
  induction names generalizing start with
  | nil => exact (Nat.add_zero start).symm
  | cons name names ih =>
      refine ⟨rfl, Nat.le_add_right _ _, ?_⟩
      rw [List.flatMap_cons, List.length_append, ← Nat.add_assoc]
      exact ih _

theorem text_ranges_hold (block : Block) (start : Nat) (names : List (List UInt16))
    (placed : block.drop start = bytes (names.flatMap convert)) (k : Nat) (name : List UInt16)
    (here : names[k]? = some name) :
    ∃ target later, (textRanges convert start names)[k]? = some (target, target + (convert name).length) ∧
      block.drop target = bytes (convert name) ++ later := by
  induction names generalizing start k with
  | nil => cases here
  | cons first names ih =>
      have split : block.drop start = bytes (convert first) ++ bytes (names.flatMap convert) := by
        rw [placed]
        simp [bytes]
      cases k with
      | zero =>
          cases here
          exact ⟨start, _, rfl, split⟩
      | succ k =>
          have onward : block.drop (start + (convert first).length) = bytes (names.flatMap convert) := by
            rw [← List.drop_drop, split, List.drop_left' (bytes_length _)]
          exact ih _ onward k here

theorem shown_cons (name : List UInt16) (names : List (List UInt16)) (some_ : name ≠ []) :
    shown (name :: names) = name :: shown names := by
  simp [shown, some_]

theorem fill_filled (offset : Nat) (visits : List Visit) (names : List (List UInt16)) (table gap copied spare : Block)
    (placed : offset = table.length + gap.length) (pointers : gap.length = (shown names).length * pointerSize)
    (room : spare.length = ((shown names).flatMap convert).length) :
    fill convert offset visits names (table ++ gap ++ (copied ++ spare)) copied.length table.length =
      some ⟨table ++ ((textRanges convert (offset + copied.length) (shown names)).map Prod.fst).flatMap pointerCells ++
          (copied ++ bytes ((shown names).flatMap convert)), visits, pointerRanges table.length (shown names).length,
        textRanges convert (offset + copied.length) (shown names)⟩ := by
  induction names generalizing table gap copied spare with
  | nil =>
      obtain rfl : gap = [] := List.length_eq_zero_iff.mp (by simpa [shown] using pointers)
      obtain rfl : spare = [] := List.length_eq_zero_iff.mp (by simpa [shown] using room)
      simp [fill, shown, textRanges, pointerRanges, bytes]
  | cons name names ih =>
      by_cases unnamed : name = []
      · subst unnamed
        rw [fill, if_pos rfl]
        exact ih table gap copied spare placed pointers room
      · rw [shown_cons name names unnamed] at pointers room ⊢
        rw [List.length_cons, Nat.succ_mul] at pointers
        rw [List.flatMap_cons, List.length_append] at room
        have copy : place (table ++ gap ++ (copied ++ spare)) (offset + copied.length) (bytes (convert name)) =
            some (table ++ gap ++ (copied ++ bytes (convert name) ++ spare.drop (convert name).length)) := by
          have put := place_inside (table ++ gap ++ copied) spare [] (bytes (convert name)) (by rw [bytes_length]; omega)
          rw [placed]
          simpa only [List.append_nil, List.append_assoc, List.length_append, Nat.add_assoc, bytes_length] using put
        have point := place_inside table gap (copied ++ bytes (convert name) ++ spare.drop (convert name).length)
          (pointerCells (offset + copied.length)) (by rw [pointer_cells_length]; omega)
        rw [pointer_cells_length] at point
        have later := ih (table ++ pointerCells (offset + copied.length)) (gap.drop pointerSize)
          (copied ++ bytes (convert name)) (spare.drop (convert name).length) (by simp; omega) (by simp; omega)
          (by rw [List.length_drop]; omega)
        simp only [List.length_append, pointer_cells_length, bytes_length] at later
        simp only [fill, if_neg unnamed, copy, point, Option.bind_eq_bind, Option.bind_some, later]
        simp [Copied.write, textRanges, pointerRanges, bytes, Nat.add_assoc]

end

-- An entry of any chain: what its header says beside the offset of the next one,
-- its name up to the suffix, and what the system left behind the name.
structure ChainEntry where
  fields : List UInt8
  front : List UInt16
  slack : List UInt8
  sized : fields.length = 20
  plain : 0 ∉ front
  small : nameOffset + 2 * (front.length + dataSuffix.length) + slack.length < 2 ^ 32

namespace ChainEntry

def streamName (entry : ChainEntry) : List UInt16 := entry.front ++ dataSuffix

def size (entry : ChainEntry) : Nat := nameOffset + 2 * (entry.front.length + dataSuffix.length) + entry.slack.length

def image (entry : ChainEntry) (nextEntryOffset : Nat) : List UInt8 :=
  octets 4 nextEntryOffset ++ entry.fields ++ wideOctets entry.streamName ++ entry.slack

def cutImage (entry : ChainEntry) (d nextEntryOffset : Nat) : List UInt8 :=
  octets 4 nextEntryOffset ++ entry.fields ++ wideOctets (entry.front ++ dataSuffix.take d) ++
    (0 :: 0 :: (wideOctets (dataSuffix.drop (d + 1)) ++ entry.slack))

end ChainEntry

def cutName (front : List UInt16) (d : Nat) : List UInt16 :=
  if front = [] ∧ d = 0 then dataSuffix.tail else (front ++ dataSuffix.take d).tail

def chain : List ChainEntry → List UInt8 → List UInt8
  | [], rest => rest
  | entry :: later, rest => entry.image (if later.isEmpty then 0 else entry.size) ++ chain later rest

def beyond (following : List UInt8) : Option Nat := (readWide following).map List.length

-- Every name has a zero character at most three characters past its end.
def Ended : List ChainEntry → List UInt8 → Prop
  | [], _ => True
  | entry :: later, rest => (∃ d, beyond (entry.slack ++ chain later rest) = some d ∧ d ≤ 3) ∧ Ended later rest

section
variable (entry : ChainEntry) (d offset : Nat) (before following : List UInt8)

theorem ChainEntry.image_length : (entry.image offset).length = entry.size := by
  simp only [ChainEntry.image, ChainEntry.size, ChainEntry.streamName, List.length_append, octets_length,
    wide_octets_length, entry.sized, nameOffset]

theorem ChainEntry.cut_image_length (inside : d < 6) : (entry.cutImage d offset).length = entry.size := by
  have suffix : dataSuffix.length = 6 := rfl
  simp only [ChainEntry.cutImage, ChainEntry.size, List.length_append, octets_length, wide_octets_length,
    List.length_take, List.length_drop, List.length_cons, entry.sized, nameOffset]
  omega

theorem wide_octets_cons (unit : UInt16) (units : List UInt16) :
    wideOctets (unit :: units) = octets 2 unit.toNat ++ wideOctets units := rfl

theorem stream_name_cons : ∃ unit units, entry.streamName = unit :: units ∧ 0 ∉ units ∧
    units.length = entry.front.length + 5 := by
  have plain : 0 ∉ entry.streamName := by
    rw [ChainEntry.streamName, List.mem_append, not_or]
    exact ⟨entry.plain, by decide⟩
  have long : entry.streamName.length = entry.front.length + 6 := List.length_append
  cases name : entry.streamName with
  | nil => rw [name] at long; cases long
  | cons unit units =>
      rw [name, List.length_cons] at long
      rw [name, List.mem_cons, not_or] at plain
      exact ⟨unit, units, rfl, plain.2, by omega⟩

theorem read_whole (extra : List UInt16) (ended : readWide (entry.slack ++ following) = some extra) :
    ∃ whole, readWide ((before ++ (entry.image offset ++ following)).drop (before.length + nameOffset + 2)) =
      some whole ∧ whole.length = entry.front.length + 5 + extra.length := by
  obtain ⟨unit, units, name, plain, long⟩ := stream_name_cons entry
  have shape : before ++ (entry.image offset ++ following) =
      (before ++ octets 4 offset ++ entry.fields ++ octets 2 unit.toNat) ++
        (wideOctets units ++ (entry.slack ++ following)) := by
    simp [ChainEntry.image, name, wide_octets_cons]
  refine ⟨units ++ extra, ?_, by rw [List.length_append, long]⟩
  rw [shape, List.drop_left' (by simp [entry.sized, nameOffset]), read_wide_units units _ plain, ended]
  rfl

theorem wide_octets_append (front units : List UInt16) : wideOctets (front ++ units) = wideOctets front ++ wideOctets units :=
  List.flatMap_append

theorem suffix_split (inside : d < 6) :
    ∃ unit, dataSuffix = dataSuffix.take d ++ unit :: dataSuffix.drop (d + 1) := by
  have within : d < dataSuffix.length := inside
  refine ⟨dataSuffix[d], ?_⟩
  rw [← List.drop_eq_getElem_cons within, List.take_append_drop]

theorem store_cut (inside : d < 6) :
    store (before ++ (entry.image offset ++ following)) (before.length + nameOffset + 2 * (entry.front.length + d)) [0, 0] =
      before ++ (entry.cutImage d offset ++ following) := by
  obtain ⟨unit, split⟩ := suffix_split d inside
  have shape : before ++ (entry.image offset ++ following) =
      (before ++ octets 4 offset ++ entry.fields ++ wideOctets (entry.front ++ dataSuffix.take d)) ++
        (octets 2 unit.toNat ++ (wideOctets (dataSuffix.drop (d + 1)) ++ entry.slack ++ following)) := by
    rw [ChainEntry.image, ChainEntry.streamName]
    nth_rewrite 1 [split]
    simp only [wide_octets_append, wide_octets_cons, List.append_assoc]
  have long : dataSuffix.length = 6 := rfl
  have position : (before ++ octets 4 offset ++ entry.fields ++ wideOctets (entry.front ++ dataSuffix.take d)).length =
      before.length + nameOffset + 2 * (entry.front.length + d) := by
    simp only [List.length_append, octets_length, wide_octets_length, List.length_take, entry.sized, nameOffset]
    omega
  rw [shape, ← position, store_between _ (octets 2 unit.toNat) _ [0, 0] rfl]
  simp [ChainEntry.cutImage]

theorem read_cut
    (ended : entry.front = [] → d = 0 → readWide (entry.slack ++ following) = some []) :
    readWide ((before ++ (entry.cutImage d offset ++ following)).drop (before.length + nameOffset + 2)) =
      some (cutName entry.front d) := by
  by_cases bare : entry.front = [] ∧ d = 0
  · have shape : before ++ (entry.cutImage d offset ++ following) =
        (before ++ octets 4 offset ++ entry.fields ++ [0, 0]) ++ (wideOctets dataSuffix.tail ++ (entry.slack ++ following)) := by
      simp [ChainEntry.cutImage, bare.1, bare.2, wideOctets]
    rw [cutName, if_pos bare, shape, List.drop_left' (by simp [entry.sized, nameOffset]),
      read_wide_units _ _ (by decide), ended bare.1 bare.2]
    rfl
  · have plain : 0 ∉ entry.front ++ dataSuffix.take d := by
      rw [List.mem_append, not_or]
      exact ⟨entry.plain, fun member => absurd (List.mem_of_mem_take member) (by decide)⟩
    rw [cutName, if_neg bare]
    cases name : entry.front ++ dataSuffix.take d with
    | nil =>
        rw [List.append_eq_nil_iff, List.take_eq_nil_iff] at name
        exact absurd ⟨name.1, name.2.resolve_right (by decide)⟩ bare
    | cons unit units =>
        have shape : before ++ (entry.cutImage d offset ++ following) =
            (before ++ octets 4 offset ++ entry.fields ++ octets 2 unit.toNat) ++
              (wideOctets units ++ (0 :: 0 :: (wideOctets (dataSuffix.drop (d + 1)) ++ entry.slack ++ following))) := by
          simp [ChainEntry.cutImage, name, wide_octets_cons]
        rw [name, List.mem_cons, not_or] at plain
        rw [shape, List.drop_left' (by simp [entry.sized, nameOffset]), read_wide_string units _ plain.2]
        rfl

theorem read_offset (small : offset < 2 ^ 32) :
    readWord 4 before.length (before ++ (entry.cutImage d offset ++ following)) = some offset := by
  simp only [ChainEntry.cutImage, List.append_assoc]
  exact read_word 4 offset before _ (by omega)

end

def distance (entry : ChainEntry) (later : List ChainEntry) (rest : List UInt8) : Nat :=
  (beyond (entry.slack ++ chain later rest)).getD 0

def cutChain : List ChainEntry → List UInt8 → List UInt8
  | [], rest => rest
  | entry :: later, rest =>
      entry.cutImage (distance entry later rest) (if later.isEmpty then 0 else entry.size) ++ cutChain later rest

def visited : (start : Nat) → List ChainEntry → List UInt8 → List Visit
  | _, [], _ => []
  | start, entry :: later, rest =>
      ⟨start, cutName entry.front (distance entry later rest)⟩ :: visited (start + entry.size) later rest

def cutAt : (start : Nat) → List ChainEntry → List UInt8 → List Nat
  | _, [], _ => []
  | start, entry :: later, rest =>
      (start + nameOffset + 2 * (entry.front.length + distance entry later rest)) :: cutAt (start + entry.size) later rest

def nameRanges : (start : Nat) → List ChainEntry → List (Nat × Nat)
  | _, [] => []
  | start, entry :: later =>
      (start + nameOffset, start + nameOffset + 2 * entry.streamName.length) :: nameRanges (start + entry.size) later

def namesLen (convert : List UInt16 → List UInt8) (names : List (List UInt16)) : Nat :=
  names.length * pointerSize + (names.flatMap convert).length

section
variable (convert : List UInt16 → List UInt8)

theorem count_turn (entry : ChainEntry) (d offset turns : Nat) (before following : List UInt8)
    (ended : beyond (entry.slack ++ following) = some d) (near : d ≤ 3) (small : offset < 2 ^ 32) :
    countPass convert (turns + 1) (before ++ (entry.image offset ++ following)) before.length =
      (if offset = 0 then some ⟨before ++ (entry.cutImage d offset ++ following), 0, 0, [], []⟩
        else countPass convert turns (before ++ (entry.cutImage d offset ++ following)) (before.length + offset)).map
        fun measured => measured.measure convert before.length (cutName entry.front d)
          (before.length + nameOffset + 2 * (entry.front.length + d)) := by
  obtain ⟨extra, found, rfl⟩ := Option.map_eq_some_iff.mp ended
  obtain ⟨whole, read, long⟩ := read_whole entry offset before following extra found
  have last : before.length + nameOffset + 2 + 2 * whole.length - 2 * dataSuffix.length =
      before.length + nameOffset + 2 * (entry.front.length + extra.length) := by
    have suffix : dataSuffix.length = 6 := rfl
    rw [long, suffix, nameOffset]
    omega
  have cut := read_cut entry extra.length offset before following fun _ none_ => by
    rw [found, List.length_eq_zero_iff.mp none_]
  simp only [countPass, Option.bind_eq_bind, read, Option.bind_some, last,
    store_cut entry extra.length offset before following (by omega), cut,
    read_offset entry extra.length offset before following small]
  split
  · rfl
  · exact Option.map_eq_bind.symm

theorem measure_names (info : List UInt8) (names : List (List UInt16)) (name : List UInt16) (visits : List Visit)
    (cuts : List Nat) (next last : Nat) :
    Measured.measure convert ⟨info, (shown names).length, namesLen convert (shown names), visits, cuts⟩ next name last =
      ⟨info, (shown (name :: names)).length, namesLen convert (shown (name :: names)), ⟨next, name⟩ :: visits,
        last :: cuts⟩ := by
  by_cases unnamed : name = []
  · subst unnamed
    rfl
  · rw [shown_cons name names unnamed]
    simp only [Measured.measure, if_neg unnamed, namesLen, List.flatMap_cons, List.length_append, List.length_cons,
      Nat.succ_mul, Measured.mk.injEq, true_and, and_true]
    omega

theorem count_chain (entries : List ChainEntry) (turns : Nat) (before rest : List UInt8) (any : entries ≠ [])
    (enough : entries.length ≤ turns) (ended : Ended entries rest) :
    countPass convert turns (before ++ chain entries rest) before.length =
      some ⟨before ++ cutChain entries rest, (shown ((visited before.length entries rest).map Visit.name)).length,
        namesLen convert (shown ((visited before.length entries rest).map Visit.name)),
        visited before.length entries rest, cutAt before.length entries rest⟩ := by
  induction entries generalizing turns before with
  | nil => exact absurd rfl any
  | cons entry later ih =>
      obtain ⟨turns, rfl⟩ : ∃ less, turns = less + 1 := ⟨turns - 1, by simp only [List.length_cons] at enough; omega⟩
      obtain ⟨⟨d, here, near⟩, ended⟩ := ended
      have far : distance entry later rest = d := by rw [distance, here]; rfl
      cases later with
      | nil =>
          have turn := count_turn convert entry d 0 turns before rest here near (by decide)
          rw [if_pos rfl, Option.map_some] at turn
          have measured := measure_names convert (before ++ (entry.cutImage d 0 ++ rest)) [] (cutName entry.front d) [] []
            before.length (before.length + nameOffset + 2 * (entry.front.length + d))
          simp only [chain, cutChain, visited, cutAt, far, List.isEmpty_nil, if_true, List.map_cons, List.map_nil]
          rw [turn, ← measured]
          rfl
      | cons next later =>
          have positive : entry.size ≠ 0 := by
            rw [ChainEntry.size, nameOffset]
            omega
          have turn := count_turn convert entry d entry.size turns before (chain (next :: later) rest) here near entry.small
          have onward := ih turns (before ++ entry.cutImage d entry.size) (by simp) (by simpa using enough) ended
          rw [List.length_append, entry.cut_image_length d entry.size (by omega), List.append_assoc] at onward
          rw [if_neg positive, onward, Option.map_some, measure_names] at turn
          rw [chain, cutChain, visited, cutAt, far, List.isEmpty_cons]
          simpa only [Bool.false_eq_true, if_false, List.map_cons, List.append_assoc] using turn

theorem cut_chain_start (later : List ChainEntry) (rest : List UInt8) (n : Nat) (few : n ≤ nameOffset) :
    (cutChain later rest).take n = (chain later rest).take n := by
  cases later with
  | nil => rfl
  | cons entry later =>
      have start : ∀ offset (tail : List UInt8), ((octets 4 offset ++ entry.fields) ++ tail).take n =
          (octets 4 offset ++ entry.fields).take n := fun offset tail =>
        List.take_append_of_le_length (by rw [List.length_append, octets_length, entry.sized]; exact few)
      rw [cutChain, chain, ChainEntry.cutImage, ChainEntry.image]
      generalize (if later.isEmpty then 0 else entry.size) = offset
      have cut := start offset (wideOctets (entry.front ++ dataSuffix.take (distance entry later rest)) ++
        (0 :: 0 :: (wideOctets (dataSuffix.drop (distance entry later rest + 1)) ++ entry.slack)) ++ cutChain later rest)
      have whole := start offset (wideOctets entry.streamName ++ entry.slack ++ chain later rest)
      simp only [List.append_assoc] at cut whole ⊢
      rw [cut, whole]

theorem read_empty (memory : List UInt8) : readWide memory = some [] ↔ memory.take 2 = [0, 0] := by
  match memory with
  | [] => simp [readWide]
  | [low] => simp [readWide]
  | low :: high :: rest =>
      rw [readWide]
      split
      · rename_i zero
        simp [zero]
      · rename_i unit
        simpa using fun low_ high_ => unit ⟨low_, high_⟩

theorem walk_turn (entry : ChainEntry) (d offset turns : Nat) (before following : List UInt8)
    (small : offset < 2 ^ 32) (ended : d = 0 → readWide (entry.slack ++ following) = some []) :
    walk (before ++ (entry.cutImage d offset ++ following)) (turns + 1) before.length =
      (if offset = 0 then some []
        else walk (before ++ (entry.cutImage d offset ++ following)) turns (before.length + offset)).map
        (⟨before.length, cutName entry.front d⟩ :: ·) := by
  have cut := read_cut entry d offset before following fun _ none_ => ended none_
  simp only [walk, Option.bind_eq_bind, cut, Option.bind_some, read_offset entry d offset before following small]

theorem walk_chain (entries : List ChainEntry) (turns : Nat) (before rest : List UInt8) (any : entries ≠ [])
    (enough : entries.length ≤ turns) (ended : Ended entries rest) :
    walk (before ++ cutChain entries rest) turns before.length = some (visited before.length entries rest) := by
  induction entries generalizing turns before with
  | nil => exact absurd rfl any
  | cons entry later ih =>
      obtain ⟨turns, rfl⟩ : ∃ less, turns = less + 1 := ⟨turns - 1, by simp only [List.length_cons] at enough; omega⟩
      obtain ⟨⟨d, here, near⟩, ended⟩ := ended
      have far : distance entry later rest = d := by rw [distance, here]; rfl
      have end_ : d = 0 → readWide (entry.slack ++ cutChain later rest) = some [] := by
        intro none_
        obtain ⟨extra, found, long⟩ := Option.map_eq_some_iff.mp here
        obtain rfl : extra = [] := List.length_eq_zero_iff.mp (long.trans none_)
        rw [read_empty] at found ⊢
        rw [← found, List.take_append, List.take_append,
          cut_chain_start later rest _ (Nat.le_trans (Nat.sub_le _ _) (by decide))]
      cases later with
      | nil =>
          have turn := walk_turn entry d 0 turns before rest (by decide) end_
          rw [if_pos rfl] at turn
          simpa [cutChain, visited, far] using turn
      | cons next later =>
          have positive : entry.size ≠ 0 := by
            rw [ChainEntry.size, nameOffset]
            omega
          have turn := walk_turn entry d entry.size turns before (cutChain (next :: later) rest) entry.small end_
          have onward := ih turns (before ++ entry.cutImage d entry.size) (by simp) (by simpa using enough) ended
          rw [List.length_append, entry.cut_image_length d entry.size (by omega), List.append_assoc] at onward
          rw [if_neg positive, onward, Option.map_some] at turn
          rw [cutChain, visited, far, List.isEmpty_cons]
          simpa only [Bool.false_eq_true, if_false] using turn

end

def seen (measured : Measured) : List (List UInt16) := shown (measured.visits.map Visit.name)

structure Agree (convert : List UInt16 → List UInt8) (entries : List ChainEntry) (rest : List UInt8)
    (measured : Measured) (copied : Copied) : Prop where
  visits : measured.visits = visited 0 entries rest
  again : copied.visits = measured.visits
  cuts : List.Forall₂ (fun cut name => name.1 ≤ cut ∧ cut + 2 ≤ name.2) measured.cuts (nameRanges 0 entries)
  length : measured.length = (seen measured).length
  pointers : copied.pointers.length = measured.length
  table : Tiles copied.pointers 0 (measured.length * pointerSize)
  texts : (copied.texts.map fun text => text.2 - text.1).sum = measured.namesLen - measured.length * pointerSize
  filled : Tiles (copied.pointers ++ copied.texts) 0 measured.namesLen
  block : copied.names.length = measured.namesLen
  names : ∀ k name, (seen measured)[k]? = some name → ∃ target later,
    readPointer (copied.names.drop (k * pointerSize)) = some target ∧
      copied.texts[k]? = some (target, target + (convert name).length) ∧
      copied.names.drop target = bytes (convert name) ++ later ∧
      ∀ text, 0 ∉ text → convert name = text ++ [0] → readString (copied.names.drop target) = some text

section
variable (convert : List UInt16 → List UInt8)

theorem cut_within (entries : List ChainEntry) (start : Nat) (rest : List UInt8) (ended : Ended entries rest) :
    List.Forall₂ (fun cut name => name.1 ≤ cut ∧ cut + 2 ≤ name.2) (cutAt start entries rest) (nameRanges start entries) := by
  induction entries generalizing start with
  | nil => exact .nil
  | cons entry later ih =>
      obtain ⟨⟨d, here, near⟩, ended⟩ := ended
      have far : distance entry later rest = d := by rw [distance, here]; rfl
      have long : entry.streamName.length = entry.front.length + 6 := List.length_append
      rw [cutAt, nameRanges, far]
      exact .cons ⟨by omega, by omega⟩ (ih _ ended)

theorem chain_long (entries : List ChainEntry) (rest : List UInt8) : entries.length ≤ (chain entries rest).length := by
  induction entries with
  | nil => exact Nat.zero_le _
  | cons entry later ih =>
      rw [chain, List.length_append, ChainEntry.image_length, List.length_cons, ChainEntry.size, nameOffset]
      omega

theorem cut_chain_length (entries : List ChainEntry) (rest : List UInt8) (ended : Ended entries rest) :
    (cutChain entries rest).length = (chain entries rest).length := by
  induction entries with
  | nil => rfl
  | cons entry later ih =>
      obtain ⟨⟨d, here, near⟩, ended⟩ := ended
      have far : distance entry later rest = d := by rw [distance, here]; rfl
      rw [cutChain, chain, List.length_append, List.length_append, far, entry.cut_image_length d _ (by omega),
        entry.image_length, ih ended]

def filled (names : List (List UInt16)) : Block :=
  ((textRanges convert (names.length * pointerSize) names).map Prod.fst).flatMap pointerCells ++
    bytes (names.flatMap convert)

theorem list_passes_chain (entries : List ChainEntry) (rest : List UInt8) (any : entries ≠ [])
    (ended : Ended entries rest) :
    listPasses convert (chain entries rest) =
      some (⟨cutChain entries rest, (shown ((visited 0 entries rest).map Visit.name)).length,
          namesLen convert (shown ((visited 0 entries rest).map Visit.name)), visited 0 entries rest,
          cutAt 0 entries rest⟩,
        ⟨filled convert (shown ((visited 0 entries rest).map Visit.name)), visited 0 entries rest,
          pointerRanges 0 (shown ((visited 0 entries rest).map Visit.name)).length,
          textRanges convert ((shown ((visited 0 entries rest).map Visit.name)).length * pointerSize)
            (shown ((visited 0 entries rest).map Visit.name))⟩) := by
  have enough := chain_long entries rest
  have counted := count_chain convert entries (chain entries rest).length [] rest any enough ended
  have walked := walk_chain entries (chain entries rest).length [] rest any enough ended
  simp only [List.nil_append, List.length_nil] at counted walked
  generalize names : (visited 0 entries rest).map Visit.name = visitedNames at counted ⊢
  have copied := fill_filled convert ((shown visitedNames).length * pointerSize) (visited 0 entries rest) visitedNames []
    (blank ((shown visitedNames).length * pointerSize)) [] (blank ((shown visitedNames).flatMap convert).length)
    (by simp [blank]) (by simp [blank]) (by simp [blank])
  have split : blank (namesLen convert (shown visitedNames)) = blank ((shown visitedNames).length * pointerSize) ++
      blank ((shown visitedNames).flatMap convert).length := List.replicate_add ..
  simp only [List.nil_append, List.length_nil, Nat.add_zero] at copied
  rw [listPasses, counted, Option.bind_eq_bind, Option.bind_some, split,
    copy_pass_fill convert _ _ _ _ _ _ _ _ ((cut_chain_length entries rest ended).symm ▸ walked), names, copied]
  rfl

theorem filled_table_length (names : List (List UInt16)) :
    (((textRanges convert (names.length * pointerSize) names).map Prod.fst).flatMap pointerCells).length =
      names.length * pointerSize := by
  have table := pointers_length pointerSize ((textRanges convert (names.length * pointerSize) names).map Prod.fst)
  rw [List.length_map, text_ranges_length] at table
  exact table

theorem filled_names (names : List (List UInt16)) (k : Nat) (name : List UInt16) (here : names[k]? = some name) :
    ∃ target later, readPointer ((filled convert names).drop (k * pointerSize)) = some target ∧
      (textRanges convert (names.length * pointerSize) names)[k]? = some (target, target + (convert name).length) ∧
      (filled convert names).drop target = bytes (convert name) ++ later ∧
      ∀ text, 0 ∉ text → convert name = text ++ [0] → readString ((filled convert names).drop target) = some text := by
  have placed : (filled convert names).drop (names.length * pointerSize) = bytes (names.flatMap convert) :=
    List.drop_left' (filled_table_length convert names)
  obtain ⟨target, later, range, held⟩ := text_ranges_hold convert (filled convert names) _ names placed k name here
  have started : ((textRanges convert (names.length * pointerSize) names).map Prod.fst)[k]? = some target := by
    rw [List.getElem?_map, range]
    rfl
  obtain ⟨more, pointed⟩ := pointers_drop pointerSize _ (bytes (names.flatMap convert)) k target started
  refine ⟨target, later, ?_, range, held, fun text plain whole => ?_⟩
  · have drop : (filled convert names).drop (k * pointerSize) = pointerCells target ++ more := pointed
    rw [drop, read_pointer_cells]
  · rw [held, whole]
    have shape : bytes (text ++ [0]) ++ later = bytes text ++ .byte 0 :: later := by simp [bytes]
    rw [shape, read_string_name text later plain]

end

theorem passes_agree (convert : List UInt16 → List UInt8) (entries : List ChainEntry) (rest : List UInt8)
    (any : entries ≠ []) (ended : Ended entries rest) :
    ∃ measured copied, listPasses convert (chain entries rest) = some (measured, copied) ∧
      Agree convert entries rest measured copied := by
  generalize names : shown ((visited 0 entries rest).map Visit.name) = found
  have table := pointer_ranges_tile 0 found.length
  have texts := text_ranges_tile convert (found.length * pointerSize) found
  rw [Nat.zero_add] at table
  refine ⟨_, _, list_passes_chain convert entries rest any ended, ?_⟩
  rw [names]
  constructor
  case visits => rfl
  case again => rfl
  case cuts => exact cut_within entries 0 rest ended
  case length => exact congrArg List.length names.symm
  case pointers => exact pointer_ranges_length 0 _
  case table => exact table
  case texts => exact tiles_sum _ _ _ texts
  case filled => exact tiles_append _ _ _ _ _ table texts
  case block =>
    rw [filled, List.length_append, filled_table_length, bytes_length]
    rfl
  case names =>
    intro k name here
    exact filled_names convert found k name (names ▸ here)

def gapped : List ChainEntry :=
  [⟨List.replicate 20 0, utf16 ":a".toList, wideOctets (utf16 "xy".toList), rfl, by decide, by decide⟩,
    ⟨List.replicate 20 0, utf16 ":".toList, [], rfl, by decide, by decide⟩]

theorem passes_agree_gapped :
    ∃ measured copied, listPasses wideCharToMultiByte (chain gapped [0, 0]) = some (measured, copied) ∧
      Agree wideCharToMultiByte gapped [0, 0] measured copied :=
  passes_agree wideCharToMultiByte gapped [0, 0] nofun
    ⟨⟨2, by decide, by decide⟩, ⟨0, by decide, by decide⟩, trivial⟩

end FsExt.Attr.Windows.Passes
