import FsExt.Attr.Buffers
import FsExt.Attr.Unpack
import FsExt.Sys.Tracks

set_option autoImplicit false

namespace FsExt.Attr.Buffers

open Sys

-- The calls of `XattrOp` among those of `BufferOp`. There is memory for any size
-- but a negative one, the work is queued, and nothing is written behind a buffer.
def xattrPairing : Pairing XattrOp XattrAnswer BufferOp BufferAnswer where
  stands
    | _, .xattr _ => True
    | _, _ => False
  agree
    | .flistxattr _ size, .xattr _, result, result' => result = { result' with written := result'.written.take size }
    | _, .xattr _, result, result' => result = result'
    | _, _, _, _ => False
  allowed
    | .malloc size, base => base = none ↔ size < 0
    | .queue, queued => queued = .ok ()
    | _, _ => True
  met
    | .flistxattr _ _, .xattr _, _, _, _ => ⟨_, rfl⟩
    | .fgetxattr _ _ _, .xattr _, _, _, _ => ⟨_, rfl⟩
    | .fsetxattr _ _, .xattr _, _, _, _ => ⟨_, rfl⟩

def SameGot (got : Status × UvBuf) (got' : Status × Buf) : Prop :=
  got'.1 = got.1 ∧ got'.2.len = got.2.len ∧ (got'.2.base = none ↔ got.2.base = none)

theorem fill_null (buf : UvBuf) (written : List UInt8) : (buf.fill written).base = none ↔ buf.base = none := by
  simp [UvBuf.fill]

theorem malloc_null (size : Int) : Attr.malloc size = none ↔ size < 0 := by
  rw [Attr.malloc]
  split
  · simp_all
  · simp_all

theorem get_attr_tracks (platform : Platform) (name : CString) (path : Option Nat) :
    xattrPairing.Tracks SameGot (Attr.getAttr platform name (uvBufInit none 0)) (getAttr platform path ⟨none, 0⟩) := by
  have one : Attr.getAttr platform name (uvBufInit none 0) =
      getAttrWith (sizeError platform) name (uvBufInit none 0) := by
    cases platform <;> rfl
  rw [one]
  refine .both _ _ _ _ trivial fun size size' same _ => ?_
  obtain rfl : size = size' := same
  by_cases failed : narrow size.res = -1
  · simp only [Program.bind, if_pos failed]
    exact .ret _ _ ⟨rfl, rfl, iff_of_true rfl rfl⟩
  · simp only [Program.bind, if_neg failed]
    refine .own _ _ _ fun base room => ?_
    refine .both _ _ _ _ trivial fun content content' same _ => ?_
    obtain rfl : content = content' := same
    have null := fill_null (uvBufInit (Attr.malloc (narrow size.res)) (narrow size.res)) content.written
    exact .ret _ _ ⟨rfl, rfl, room.trans ((malloc_null _).symm.trans null.symm)⟩

theorem refines_count (block block' : Block) (n i count : Nat) (refines : Refines block block')
    (counted : countNames block n i = some count) : countNames block' n i = some count := by
  fun_induction countNames block n i generalizing count with
  | case1 i more ih =>
      obtain ⟨length, found, rest⟩ := Option.bind_eq_some_iff.mp counted
      obtain ⟨later, onward, rfl⟩ := Option.map_eq_some_iff.mp rest
      rw [countNames, if_pos more, refines_strlen _ _ length (List.forall₂_drop i refines) found, Option.bind_some,
        ih length later onward]
      rfl
  | case2 i done =>
      rw [countNames, if_neg done]
      exact counted

theorem refines_point (block block' table : Block) (offset n i j : Nat) (refines : Refines block block')
    (pointed : pointNames block offset n i j = some table) :
    ∃ table', pointNames block' offset n i j = some table' ∧ Refines table table' := by
  fun_induction pointNames block offset n i j generalizing block' table with
  | case1 block i j more ih =>
      obtain ⟨length, found, rest⟩ := Option.bind_eq_some_iff.mp pointed
      have laid := refines_overwrite block block' _ _ j refines (refines_refl (pointerCells (offset + i)))
      obtain ⟨table', onward, same⟩ := ih length _ table laid rest
      refine ⟨table', ?_, same⟩
      rw [pointNames, if_pos more, refines_strlen _ _ length (List.forall₂_drop _ refines) found, Option.bind_some, onward]
  | case2 block i j done =>
      cases pointed
      exact ⟨block', by rw [pointNames, if_neg done], refines⟩

def SameTable (table table' : NameTable) : Prop :=
  table'.length = table.length ∧ ∀ list, table.listed = some list → table'.listed = some list

theorem same_table_refl (table : NameTable) : SameTable table table := ⟨rfl, fun _ same => same⟩

theorem refines_build (block block' : Block) (n : Nat) (table : NameTable) (refines : Refines block block')
    (built : buildTable block n = some table) :
    ∃ table', buildTable block' n = some table' ∧ SameTable table table' := by
  simp only [buildTable, Option.bind_eq_bind, Option.bind_eq_some_iff] at built
  obtain ⟨count, counted, made, pointed, whole⟩ := built
  cases whole
  have moved := refines_overwrite _ _ _ _ (count * pointerSize)
    (refines_resize block block' (count * pointerSize + n) refines) (List.forall₂_take n refines)
  obtain ⟨made', pointed', same⟩ := refines_point _ _ made _ n 0 0 moved pointed
  refine ⟨⟨some made', count⟩, ?_, rfl, fun list read => ?_⟩
  · simp only [buildTable, refines_count block block' n 0 count refines counted, pointed', Option.bind_eq_bind,
      Option.bind_some]
    rfl
  · exact refines_table made made' count 0 list same read

def SameListed (listed : Option (Status × NameTable)) (listed' : Option (Status × Names)) : Prop :=
  ∀ status table, listed = some (status, table) → ∃ names, listed' = some (status, names) ∧ SameTable table names.table

theorem refines_written (junk : Nat → UInt8) (size : Nat) (written : List UInt8) :
    Refines (overwrite (blank size) 0 (bytes (written.take size)))
      (overwrite (fresh junk size) 0 (bytes (written.take size))) := by
  have sized : (fresh junk size).length = size := by simp [fresh]
  have anything := refines_blank (fresh junk size)
  rw [sized] at anything
  exact refines_overwrite _ _ _ _ 0 anything (refines_refl _)

def listedBlock (size : Int) (written : List UInt8) : Option Block :=
  (Attr.malloc size).map fun block => overwrite block 0 (bytes (written.take (size % 2 ^ 64).toNat))

def listedBlock' (junk : Nat → UInt8) (size : Int) (base : Option Nat) (written : List UInt8) : Option Block :=
  base.map fun _ => overwrite (fresh junk (size % 2 ^ 64).toNat) 0 (bytes (written.take (size % 2 ^ 64).toNat))

theorem listed_block_refines (junk : Nat → UInt8) (res : Int) (base : Option Nat) (written : List UInt8)
    (room : base = none ↔ narrow res < 0) :
    Refines ((listedBlock (narrow res) written).getD []) ((listedBlock' junk (narrow res) base written).getD []) := by
  have bounds := narrow_bounds res
  cases base with
  | none =>
      have memory : Attr.malloc (narrow res) = none := (malloc_null _).mpr (room.mp rfl)
      rw [listedBlock, memory]
      exact refines_refl []
  | some id =>
      have positive : ¬ narrow res < 0 := fun negative => Option.some_ne_none id (room.mpr negative)
      have memory : Attr.malloc (narrow res) = some (blank (narrow res).toNat) := if_neg positive
      have same : (narrow res % 2 ^ 64).toNat = (narrow res).toNat := by omega
      rw [listedBlock, listedBlock', memory, same]
      exact refines_written junk (narrow res).toNat written

theorem tabulate_tracks (junk : Nat → UInt8) (base : Option Nat) (res : Int) (list : XattrResult)
    (room : base = none ↔ narrow res < 0) :
    xattrPairing.Tracks SameListed
      (.ret (if narrow list.res = -1 then
          some (translate list.errno, ⟨listedBlock (narrow res) list.written, (narrow res % 2 ^ 64).toNat⟩)
        else (buildTable ((listedBlock (narrow res) list.written).getD []) (narrow res % 2 ^ 64).toNat).map
          fun table => (.ok (), table)))
      (tabulate junk base (narrow res % 2 ^ 64).toNat list) := by
  have refines := listed_block_refines junk res base list.written room
  rw [tabulate]
  by_cases failed : narrow list.res = -1
  · simp only [if_pos failed]
    refine .ret _ _ fun status table same => ?_
    cases same
    exact ⟨_, rfl, rfl, fun names read => refines_table _ _ _ 0 names refines read⟩
  · simp only [if_neg failed]
    cases built : buildTable ((listedBlock (narrow res) list.written).getD []) (narrow res % 2 ^ 64).toNat with
    | none =>
        split
        · exact .ret _ _ fun _ _ same => by cases same
        · refine .own _ _ _ fun _ _ => .own _ _ _ fun _ _ => .own _ _ _ fun _ _ => .ret _ _ fun _ _ same => by cases same
    | some table =>
        obtain ⟨table', built', same⟩ := refines_build _ _ _ table refines built
        rw [listedBlock'] at built'
        rw [built']
        refine .own _ _ _ fun _ _ => .own _ _ _ fun grown _ => .own _ _ _ fun _ _ => .ret _ _ fun status other found => ?_
        cases found
        exact ⟨_, rfl, same⟩

theorem list_attrs_tracks (junk : Nat → UInt8) (table : NameTable) (names : Names) (same : SameTable table names.table) :
    xattrPairing.Tracks SameListed (Attr.listAttrs table) (listAttrs junk names) := by
  refine .both _ _ _ _ trivial fun size size' read _ => ?_
  obtain rfl : size = { size' with written := size'.written.take 0 } := read
  by_cases failed : narrow size'.res = -1
  · simp only [Program.bind, if_pos failed]
    refine .ret _ _ fun status other found => ?_
    cases found
    exact ⟨names, rfl, same⟩
  · simp only [Program.bind, if_neg failed]
    refine .own _ _ _ fun base room => ?_
    refine .both _ _ _ _ trivial fun list list' read _ => ?_
    have cut : list = { list' with written := list'.written.take (narrow size'.res % 2 ^ 64).toNat } := read
    subst cut
    have onward := tabulate_tracks junk base size'.res list' room
    simp only [Program.bind]
    split
    · rename_i lost
      rw [if_pos lost] at onward
      exact onward
    · rename_i kept
      rw [if_neg kept] at onward
      exact onward

end FsExt.Attr.Buffers

namespace FsExt.Attr.Checked

open Sys

theorem count_bounds (names : Block) (n i count : Nat) (counted : countNames names n i = some count) :
    count ≤ n - i ∧ n ≤ max i names.length := by
  fun_induction countNames names n i generalizing count with
  | case1 i more ih =>
      obtain ⟨length, found, rest⟩ := Option.bind_eq_some_iff.mp counted
      obtain ⟨later, onward, rfl⟩ := Option.map_eq_some_iff.mp rest
      obtain ⟨string, read, rfl⟩ := Option.map_eq_some_iff.mp found
      have within := (read_string_bounds _ string read).2
      rw [List.length_drop] at within
      have bounds := ih string.length later onward
      omega
  | case2 i done =>
      cases counted
      omega

theorem point_names_checked (names table : Block) (offset n i j : Nat)
    (pointed : pointNames 8 names offset n i j = some table) : Attr.pointNames names offset n i j = some table := by
  fun_induction pointNames 8 names offset n i j with
  | case1 names i j more ih =>
      obtain ⟨length, found, rest⟩ := Option.bind_eq_some_iff.mp pointed
      obtain ⟨stored, store, onward⟩ := Option.bind_eq_some_iff.mp rest
      have inside : overwrite names j (pointerOf 8 (offset + i)) = stored := by
        rw [storeCells] at store
        split at store
        · exact Option.some.inj store
        · cases store
      rw [Attr.pointNames, if_pos more, found, Option.bind_some]
      have next := ih length stored onward
      rw [← inside] at next
      exact next
  | case2 names i j done =>
      rw [Attr.pointNames, if_neg done]
      exact pointed

theorem build_table_checked (names : Block) (n : Nat) (table : NameTable) (short : n < 2 ^ 59)
    (built : buildTable 8 names n = some table) : Attr.buildTable names n = some table := by
  simp only [buildTable, Option.bind_eq_bind, Option.bind_eq_some_iff] at built
  obtain ⟨count, counted, grown, resized, moved, copied, made, pointed, whole⟩ := built
  cases whole
  have bounds := count_bounds names n 0 count counted
  have offset : count * 8 % 2 ^ (8 * 8) = count * 8 := Nat.mod_eq_of_lt (by omega)
  have size : (count * 8 + n) % 2 ^ (8 * 8) = count * 8 + n := Nat.mod_eq_of_lt (by omega)
  rw [offset, size, realloc] at resized
  rw [if_pos (by omega)] at resized
  cases resized
  rw [offset] at copied pointed
  obtain ⟨cells, loaded, stored⟩ := copied
  have front : cells = names.take n := by
    rw [loadCells] at loaded
    split at loaded
    · have taken := Option.some.inj loaded
      rw [← taken, List.drop_zero, resize, List.take_append_of_le_length, List.take_take, Nat.min_eq_left (by omega)]
      rw [List.length_take]
      omega
    · cases loaded
  have laid : moved = overwrite (resize names (count * 8 + n)) (count * 8) (names.take n) := by
    rw [storeCells] at stored
    split at stored
    · rw [← front, Option.some.inj stored]
    · cases stored
  have onward := point_names_checked moved made (count * 8) n 0 0 pointed
  rw [laid] at onward
  simp only [Attr.buildTable, counted, Option.bind_eq_bind, Option.bind_some, pointerSize, onward]
  rfl

theorem list_attrs_checked (answers : Nat → (op : XattrOp) → XattrAnswer op) (n : Nat) (table : NameTable)
    (result : Status × NameTable) (ran : (Program.replay answers n (listAttrs 8 table)).2 = some result) :
    (Program.replay answers n (Attr.listAttrs table)).2 = some result := by
  rw [listAttrs, flistxattr, Program.perform_bind, Program.replay] at ran
  rw [Attr.listAttrs, flistxattr, Program.perform_bind, Program.replay]
  by_cases failed : narrow (answers n (.flistxattr true 0)).res = -1
  · simp only [if_pos failed] at ran ⊢
    exact ran
  · simp only [if_neg failed, flistxattr, Program.perform_bind, Program.replay] at ran ⊢
    split at ran
    · rename_i lost
      rw [if_pos lost]
      exact ran
    · rename_i kept
      rw [if_neg kept]
      obtain ⟨built, made, whole⟩ := Option.map_eq_some_iff.mp ran
      have bounds := narrow_bounds (answers n (.flistxattr true 0)).res
      by_cases negative : narrow (answers n (.flistxattr true 0)).res < 0
      · have memory : Attr.malloc (narrow (answers n (.flistxattr true 0)).res) = none := if_pos negative
        rw [memory, Option.map_none, Option.getD_none, build_nothing] at made
        · cases made
        · omega
      · have short : (narrow (answers n (.flistxattr true 0)).res % 2 ^ (8 * 8)).toNat < 2 ^ 59 := by omega
        have plain := build_table_checked _ _ built short made
        exact Option.map_eq_some_iff.mpr ⟨built, plain, whole⟩

end FsExt.Attr.Checked
