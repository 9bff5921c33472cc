import FsExt.Attr.Xattr

set_option autoImplicit false

namespace FsExt.Attr

open Sys

structure NameTable where
  names : Option Block
  length : Nat

def countNames (names : Block) (n i : Nat) : Option Nat :=
  if i < n then
    (strlen (names.drop i)).bind fun length => (countNames names n (i + length + 1)).map (· + 1)
  else some 0
termination_by n - i

def pointNames (names : Block) (offset n i j : Nat) : Option Block :=
  if i < n then
    (strlen (names.drop (offset + i))).bind fun length =>
      pointNames (overwrite names j (pointerCells (offset + i))) offset n (i + length + 1) (j + pointerSize)
  else some names
termination_by n - i

-- None: a scan reads what the second call has not written.
def buildTable (names : Block) (n : Nat) : Option NameTable := do
  let length ← countNames names n 0
  let offset := length * pointerSize
  let moved := overwrite (resize names (offset + n)) offset (names.take n)
  let table ← pointNames moved offset n 0 0
  return ⟨some table, length⟩

def listAttrs (table : NameTable) : XattrProgram (Option (Status × NameTable)) := do
  let size ← flistxattr true 0
  if narrow size.res = -1 then
    return some (translate size.errno, table)
  else
    let names := malloc (narrow size.res)
    let length := (narrow size.res % 2 ^ 64).toNat
    let list ← flistxattr names.isNone length
    let names := names.map fun block => overwrite block 0 (bytes list.written)
    if narrow list.res = -1 then
      return some (translate list.errno, ⟨names, length⟩)
    else
      return (buildTable (names.getD []) length).map fun table => (.ok (), table)

-- The same with every access of the block checked, for pointers and a size_t of
-- `width` bytes.
namespace Checked

def pointNames (width : Nat) (names : Block) (offset n i j : Nat) : Option Block :=
  if i < n then
    (strlen (names.drop (offset + i))).bind fun length =>
      (storeCells names j (pointerOf width (offset + i))).bind fun names =>
        pointNames width names offset n (i + length + 1) (j + width)
  else some names
termination_by n - i

-- There is no memory for more than PTRDIFF_MAX bytes.
def realloc (width : Nat) (names : Block) (size : Nat) : Option Block :=
  if size < 2 ^ (8 * width - 1) then some (resize names size) else none

def buildTable (width : Nat) (names : Block) (n : Nat) : Option NameTable := do
  let length ← countNames names n 0
  let offset := length * width % 2 ^ (8 * width)
  let grown ← realloc width names ((offset + n) % 2 ^ (8 * width))
  let moved ← (loadCells grown 0 n).bind (storeCells grown offset)
  let table ← pointNames width moved offset n 0 0
  return ⟨some table, length⟩

def listAttrs (width : Nat) (table : NameTable) : XattrProgram (Option (Status × NameTable)) := do
  let size ← flistxattr true 0
  if narrow size.res = -1 then
    return some (translate size.errno, table)
  else
    let names := malloc (narrow size.res)
    let length := (narrow size.res % 2 ^ (8 * width)).toNat
    let list ← flistxattr names.isNone length
    let names := names.map fun block => overwrite block 0 (bytes list.written)
    if narrow list.res = -1 then
      return some (translate list.errno, ⟨names, length⟩)
    else
      return (buildTable width (names.getD []) length).map fun table => (.ok (), table)

end Checked

def NameTable.listed (table : NameTable) : Option (List CString) :=
  readTable (table.names.getD []) table.length 0

theorem terminated_cons (name : CString) (names : List CString) :
    terminated (name :: names) = name ++ 0 :: terminated names := by
  simp [terminated]

theorem strlen_name (name : CString) (rest : Block) (plain : 0 ∉ name) :
    strlen (bytes name ++ .byte 0 :: rest) = some name.length := by
  rw [strlen, read_string_name name rest plain]
  rfl

theorem count_names_through (names : List AttrName) (before : List UInt8) (rest : Block) (block : Block) (n : Nat)
    (holds : block = bytes before ++ bytes (terminated (names.map AttrName.name)) ++ rest)
    (within : before.length + (terminated (names.map AttrName.name)).length ≤ n) :
    countNames block n before.length =
      (countNames block n (before.length + (terminated (names.map AttrName.name)).length)).map (· + names.length) := by
  induction names generalizing before with
  | nil => simp [terminated]
  | cons name names ih =>
      simp only [List.map_cons, terminated_cons] at holds within ⊢
      have more : before.length < n := by
        simp only [List.length_append, List.length_cons] at within
        omega
      have here : block.drop before.length = bytes name.name ++ .byte 0 ::
          (bytes (terminated (names.map AttrName.name)) ++ rest) := by
        rw [holds, List.append_assoc, List.drop_left' (bytes_length before)]
        simp [bytes]
      have next := ih (before ++ name.name ++ [0]) (by rw [holds]; simp [bytes])
        (by simp only [List.length_append, List.length_cons, List.length_nil] at within ⊢; omega)
      simp only [List.length_append, List.length_cons, List.length_nil] at next ⊢
      rw [countNames, if_pos more, here, strlen_name name.name _ name.plain, Option.bind_some,
        show before.length + name.name.length + 1 = before.length + name.name.length + (0 + 1) by omega, next,
        Option.map_map]
      congr 2
      omega

def starts (base : Nat) : List AttrName → List Nat
  | [] => []
  | name :: names => base :: starts (base + name.name.length + 1) names

theorem point_names_through (width : Nat) (names : List AttrName) (table gap : Block) (before : List UInt8)
    (offset n : Nat) (room : gap.length = names.length * width) (placed : offset = table.length + gap.length)
    (ends : n = before.length + (terminated (names.map AttrName.name)).length) :
    Checked.pointNames width (table ++ gap ++ (bytes before ++ bytes (terminated (names.map AttrName.name)))) offset n
        before.length table.length =
      some (table ++ (starts (offset + before.length) names).flatMap (pointerOf width) ++
        (bytes before ++ bytes (terminated (names.map AttrName.name)))) := by
  induction names generalizing table gap before with
  | nil =>
      have empty : gap = [] := List.length_eq_zero_iff.mp (by simpa using room)
      rw [Checked.pointNames, if_neg (by simp [ends, terminated]), empty]
      rfl
  | cons name names ih =>
      have more : before.length < n := by
        simp only [ends, List.map_cons, terminated_cons, List.length_append, List.length_cons]
        omega
      have moved : bytes before ++ bytes (terminated ((name :: names).map AttrName.name)) =
          bytes (before ++ name.name ++ [0]) ++ bytes (terminated (names.map AttrName.name)) := by
        simp [terminated_cons, bytes]
      have here : (table ++ gap ++ (bytes before ++ bytes (terminated ((name :: names).map AttrName.name)))).drop
          (offset + before.length) = bytes name.name ++ .byte 0 :: bytes (terminated (names.map AttrName.name)) := by
        rw [← List.drop_drop, List.drop_left' (by simp [placed]), List.drop_left' (bytes_length before)]
        simp [terminated_cons, bytes]
      have spare : gap.length = names.length * width + width := by
        rw [room, List.length_cons, Nat.succ_mul]
      have fits : (pointerOf width (offset + before.length)).length ≤ gap.length := by
        rw [pointer_of_length]
        omega
      have stored : storeCells (table ++ gap ++ (bytes before ++ bytes (terminated ((name :: names).map AttrName.name))))
          table.length (pointerOf width (offset + before.length)) =
          some (table ++ pointerOf width (offset + before.length) ++ gap.drop width ++
            (bytes before ++ bytes (terminated ((name :: names).map AttrName.name)))) := by
        rw [storeCells, if_pos (by simp only [List.length_append]; omega), overwrite_inside table gap _ _ fits,
          pointer_of_length]
      rw [Checked.pointNames, if_pos more, here, strlen_name name.name _ name.plain, Option.bind_some, stored,
        Option.bind_some, moved]
      have next := ih (table ++ pointerOf width (offset + before.length)) (gap.drop width) (before ++ name.name ++ [0])
        (by rw [List.length_drop]; omega)
        (by rw [List.length_append, List.length_drop, pointer_of_length]; omega)
        (by simp only [ends, List.map_cons, terminated_cons, List.length_append, List.length_cons, List.length_nil]
            omega)
      simp only [List.length_append, List.length_cons, List.length_nil, pointer_of_length] at next
      rw [next]
      simp [starts, Nat.add_assoc]

theorem point_names_checked (names : Block) (offset n i j : Nat) (table : Block)
    (made : Checked.pointNames pointerSize names offset n i j = some table) :
    pointNames names offset n i j = some table := by
  induction names, i, j using Checked.pointNames.induct pointerSize n with
  | case1 names i j more ih =>
      rw [Checked.pointNames, if_pos more] at made
      rw [pointNames, if_pos more]
      obtain ⟨length, found, made⟩ := Option.bind_eq_some_iff.mp made
      obtain ⟨stored, inside, made⟩ := Option.bind_eq_some_iff.mp made
      have same : overwrite names j (pointerCells (offset + i)) = stored := by
        rw [storeCells] at inside
        split at inside
        · exact Option.some.inj inside
        · cases inside
      rw [found, Option.bind_some, same]
      exact ih length stored made
  | case2 names i j ended =>
      rw [Checked.pointNames, if_neg ended] at made
      rw [pointNames, if_neg ended, made]

theorem starts_length (names : List AttrName) (base : Nat) : (starts base names).length = names.length := by
  induction names generalizing base with
  | nil => rfl
  | cons name names ih => rw [starts, List.length_cons, ih, List.length_cons]

theorem pointers_length (width : Nat) (targets : List Nat) :
    (targets.flatMap (pointerOf width)).length = targets.length * width := by
  induction targets with
  | nil => simp
  | cons target targets ih =>
      rw [List.flatMap_cons, List.length_append, pointer_of_length, ih, List.length_cons, Nat.succ_mul, Nat.add_comm]

theorem starts_strings (block : Block) (names : List AttrName) (base : Nat)
    (placed : block.drop base = bytes (terminated (names.map AttrName.name))) :
    (starts base names).map (fun start => readString (block.drop start)) = (names.map AttrName.name).map some := by
  induction names generalizing base with
  | nil => rfl
  | cons name names ih =>
      have here : block.drop base = bytes name.name ++ .byte 0 :: bytes (terminated (names.map AttrName.name)) := by
        rw [placed]
        simp [terminated_cons, bytes]
      have later : block.drop (base + name.name.length + 1) = bytes (terminated (names.map AttrName.name)) := by
        rw [Nat.add_assoc, ← List.drop_drop, here, ← List.drop_drop, List.drop_left' (bytes_length name.name)]
        rfl
      simp only [starts, List.map_cons, ih (base + name.name.length + 1) later, here,
        read_string_name name.name _ name.plain]

theorem count_names_whole (names : List AttrName) (rest : Block) :
    countNames (bytes (terminated (names.map AttrName.name)) ++ rest)
      (terminated (names.map AttrName.name)).length 0 = some names.length := by
  have through := count_names_through names [] rest (bytes (terminated (names.map AttrName.name)) ++ rest)
    (terminated (names.map AttrName.name)).length rfl (by simp)
  have ends : ∀ block n, countNames block n n = some 0 := fun block n => by
    rw [countNames, if_neg (Nat.lt_irrefl n)]
  simpa [ends] using through

def unpacked (width : Nat) (names : List AttrName) : Block :=
  (starts (names.length * width) names).flatMap (pointerOf width) ++ bytes (terminated (names.map AttrName.name))

theorem unpacked_drop (width : Nat) (names : List AttrName) :
    (unpacked width names).drop (names.length * width) = bytes (terminated (names.map AttrName.name)) :=
  List.drop_left' (by rw [pointers_length, starts_length])

theorem point_names_whole (width : Nat) (names : List AttrName) (gap : Block) (room : gap.length = names.length * width) :
    Checked.pointNames width (gap ++ bytes (terminated (names.map AttrName.name))) (names.length * width)
      (terminated (names.map AttrName.name)).length 0 0 = some (unpacked width names) := by
  have pointed := point_names_through width names [] gap [] (names.length * width)
    (terminated (names.map AttrName.name)).length room (by simp [room]) (by simp)
  simp only [List.nil_append, List.length_nil, Nat.add_zero, show bytes [] = [] from rfl] at pointed
  exact pointed

theorem build_table_whole (names : List AttrName) :
    ∃ table, buildTable (bytes (terminated (names.map AttrName.name)))
        (terminated (names.map AttrName.name)).length = some table ∧
      table.listed = some (names.map AttrName.name) := by
  have counted := count_names_whole names []
  rw [List.append_nil] at counted
  obtain ⟨gap, room, moved⟩ := moved_up (bytes (terminated (names.map AttrName.name))) (names.length * pointerSize)
  rw [bytes_length] at moved
  have pointed := point_names_checked _ _ _ _ _ _ (point_names_whole pointerSize names gap room)
  refine ⟨⟨some (unpacked pointerSize names), names.length⟩, ?_, ?_⟩
  · simp only [buildTable, counted, Option.bind_eq_bind, Option.bind_some, moved, pointed]
    rfl
  · have placed := starts_strings (unpacked pointerSize names) names (names.length * pointerSize)
      (unpacked_drop pointerSize names)
    have read := read_table_pointers _ _ _ 0 (bytes (terminated (names.map AttrName.name))) List.drop_zero placed
    rwa [List.length_map] at read

theorem build_table_unwritten (names : List AttrName) (rest : Block) (n : Nat) (unwritten : strlen rest = none)
    (short : (terminated (names.map AttrName.name)).length < n) :
    buildTable (bytes (terminated (names.map AttrName.name)) ++ rest) n = none := by
  have through := count_names_through names [] rest (bytes (terminated (names.map AttrName.name)) ++ rest) n rfl
    (by simpa using Nat.le_of_lt short)
  have stuck : countNames (bytes (terminated (names.map AttrName.name)) ++ rest) n
      (terminated (names.map AttrName.name)).length = none := by
    rw [countNames, if_pos short, List.drop_left' (bytes_length _), unwritten]
    rfl
  simp only [List.length_nil, Nat.zero_add, stuck, Option.map_none] at through
  simp only [buildTable, through, Option.bind_eq_bind, Option.bind_none]

end FsExt.Attr
