import FsExt.Attr.ListAttrs

set_option autoImplicit false

namespace FsExt.Attr

open Sys

-- Every call sees the same names; one that succeeds leaves `errno` as it was.
def lister (platform : Platform) (errno : Option UvError) (names : List CString) :
    Program.Handler XattrOp XattrAnswer Unit
  | .flistxattr null size, world =>
      match transfer platform null size (terminated names) with
      | .ok (res, written) => (⟨res, errno, written⟩, world)
      | .error err => (⟨-1, some err, []⟩, world)
  | _, world => (⟨-1, some .EINVAL, []⟩, world)

structure Unpacked (width : Nat) (names : List CString) (table : NameTable) : Prop where
  length : table.length = names.length
  entries : ∀ k name, names[k]? = some name →
    ∃ target, readPointerOf width ((table.names.getD []).drop (k * width)) = some target ∧
      readString ((table.names.getD []).drop target) = some name
  kept : (table.names.getD []).drop (names.length * width) = bytes (terminated names)

theorem pointers_drop (width : Nat) (targets : List Nat) (rest : Block) (k target : Nat)
    (here : targets[k]? = some target) :
    ∃ later, (targets.flatMap (pointerOf width) ++ rest).drop (k * width) = pointerOf width target ++ later := by
  induction targets generalizing k with
  | nil => cases here
  | cons first targets ih =>
      cases k with
      | zero =>
          cases here
          exact ⟨targets.flatMap (pointerOf width) ++ rest, by simp⟩
      | succ k =>
          obtain ⟨later, found⟩ := ih k here
          refine ⟨later, ?_⟩
          rw [List.flatMap_cons, List.append_assoc, Nat.succ_mul, Nat.add_comm, ← List.drop_drop,
            List.drop_left' (pointer_of_length width first), found]

theorem unpacked_table (width : Nat) (names : List AttrName) (positive : 0 < width) :
    Unpacked width (names.map AttrName.name) ⟨some (unpacked width names), names.length⟩ := by
  have strings := starts_strings (unpacked width names) names (names.length * width) (unpacked_drop width names)
  refine ⟨by rw [List.length_map], fun k name here => ?_, ?_⟩
  · have found := congrArg (·[k]?) strings
    simp only [List.getElem?_map, List.getElem?_map] at found here
    rw [here, Option.map_some] at found
    obtain ⟨target, started, read⟩ := Option.map_eq_some_iff.mp found
    obtain ⟨later, table⟩ := pointers_drop width _ (bytes (terminated (names.map AttrName.name))) k target started
    refine ⟨target, ?_, read⟩
    rw [Option.getD_some, unpacked, table, read_pointer_of width target later positive]
  · rw [List.length_map]
    exact unpacked_drop width names

theorem terminated_length (names : List AttrName) : names.length ≤ (terminated (names.map AttrName.name)).length := by
  induction names with
  | nil => exact Nat.le_refl 0
  | cons name names ih =>
      rw [List.map_cons, terminated_cons, List.length_append, List.length_cons, List.length_cons]
      omega

theorem terminated_length_nonempty (names : List AttrName) (nonempty : ∀ name ∈ names, name.name ≠ []) :
    2 * names.length ≤ (terminated (names.map AttrName.name)).length := by
  induction names with
  | nil => exact Nat.le_refl 0
  | cons name names ih =>
      have more := ih fun other member => nonempty other (.tail _ member)
      have some := List.length_pos_of_ne_nil (nonempty name (.head _))
      rw [List.map_cons, terminated_cons, List.length_append, List.length_cons, List.length_cons]
      omega

namespace Checked

theorem build_table_whole (width : Nat) (names : List AttrName)
    (fits : (terminated (names.map AttrName.name)).length + names.length * width < 2 ^ (8 * width - 1)) :
    buildTable width (bytes (terminated (names.map AttrName.name))) (terminated (names.map AttrName.name)).length =
      some ⟨some (unpacked width names), names.length⟩ := by
  have counted := count_names_whole names []
  rw [List.append_nil] at counted
  obtain ⟨gap, room, moved⟩ := moved_up_checked (bytes (terminated (names.map AttrName.name))) (names.length * width)
  rw [bytes_length] at moved
  have half : 2 ^ (8 * width - 1) ≤ 2 ^ (8 * width) := Nat.pow_le_pow_right (by decide) (Nat.sub_le _ _)
  have offset : names.length * width % 2 ^ (8 * width) = names.length * width := Nat.mod_eq_of_lt (by omega)
  have size : (names.length * width + (terminated (names.map AttrName.name)).length) % 2 ^ (8 * width) =
      names.length * width + (terminated (names.map AttrName.name)).length := Nat.mod_eq_of_lt (by omega)
  have grown : realloc width (bytes (terminated (names.map AttrName.name)))
      (names.length * width + (terminated (names.map AttrName.name)).length) =
      some (resize (bytes (terminated (names.map AttrName.name)))
        (names.length * width + (terminated (names.map AttrName.name)).length)) := if_pos (by omega)
  simp only [buildTable, counted, Option.bind_eq_bind, Option.bind_some, offset, size, grown, moved,
    point_names_whole width names gap room]
  rfl

theorem build_table_length (width : Nat) (names : Block) (n : Nat) (table : NameTable)
    (made : buildTable width names n = some table) : countNames names n 0 = some table.length := by
  simp only [buildTable, Option.bind_eq_bind, Option.bind_eq_some_iff] at made
  obtain ⟨length, counted, _, _, _, _, _, _, whole⟩ := made
  cases whole
  exact counted

end Checked

section
variable (platform : Platform) (errno : Option UvError) (names : List CString) (width : Nat) (table : NameTable)

theorem first_listed :
    lister platform errno names (.flistxattr true 0) () = (⟨(terminated names).length, errno, []⟩, ()) := by
  cases platform with
  | linux => rfl
  | apple => rfl

theorem run_list_lost (lost : narrow (terminated names).length = -1) :
    (Program.run (lister platform errno names) (Checked.listAttrs width table) ()).1 = some (translate errno, table) := by
  rw [Checked.listAttrs, flistxattr, Program.perform_bind, Program.run_call, first_listed, if_pos lost]
  rfl

theorem run_list_onward (list : XattrResult) (goesOn : narrow (terminated names).length ≠ -1)
    (listed : lister platform errno names (.flistxattr (malloc (narrow (terminated names).length)).isNone
      (narrow (terminated names).length % 2 ^ (8 * width)).toNat) () = (list, ())) :
    let length := (narrow (terminated names).length % 2 ^ (8 * width)).toNat
    let block := (malloc (narrow (terminated names).length)).map fun block => overwrite block 0 (bytes list.written)
    (Program.run (lister platform errno names) (Checked.listAttrs width table) ()).1 =
      if narrow list.res = -1 then some (translate list.errno, ⟨block, length⟩)
      else (Checked.buildTable width (block.getD []) length).map fun table => (.ok (), table) := by
  intro length block
  rw [Checked.listAttrs, flistxattr, Program.perform_bind, Program.run_call, first_listed, if_neg goesOn]
  simp only [flistxattr, Program.perform_bind, Program.run_call, listed]
  split
  · rfl
  · rfl

end

def Lists (platform : Platform) (errno : Option UvError) (width : Nat) (names : List CString) : Prop :=
  ∃ table, (Program.run (lister platform errno names) (Checked.listAttrs width ⟨none, 0⟩) ()).1 = some (.ok (), table) ∧
    Unpacked width names table

section
variable (platform : Platform) (errno : Option UvError) (width : Nat) (names : List AttrName)

theorem run_list_small (pointers : width = 4 ∨ width = 8)
    (small : (terminated (names.map AttrName.name)).length < 2 ^ 31) :
    (Program.run (lister platform errno (names.map AttrName.name)) (Checked.listAttrs width ⟨none, 0⟩) ()).1 =
      (Checked.buildTable width (bytes (terminated (names.map AttrName.name)))
        (terminated (names.map AttrName.name)).length).map fun table => (.ok (), table) := by
  have size := narrow_small _ small
  have kept : ((terminated (names.map AttrName.name)).length % 2 ^ (8 * width) : Int).toNat =
      (terminated (names.map AttrName.name)).length := by
    rcases pointers with rfl | rfl
    · omega
    · omega
  have listed : lister platform errno (names.map AttrName.name)
      (.flistxattr (malloc (narrow (terminated (names.map AttrName.name)).length)).isNone
        (narrow (terminated (names.map AttrName.name)).length % 2 ^ (8 * width)).toNat) () =
      (⟨(terminated (names.map AttrName.name)).length, errno, terminated (names.map AttrName.name)⟩, ()) := by
    rw [size, kept, lister, transfer_small platform _ _ _ (by omega) rfl, if_neg (show ¬ _ < _ by omega)]
    by_cases empty : platform = .linux ∧ ((terminated (names.map AttrName.name)).length : Int) = 0
    · rw [if_pos empty, List.length_eq_zero_iff.mp (show (terminated (names.map AttrName.name)).length = 0 by omega)]
    · rw [if_neg empty]
  have block : ((malloc (narrow (terminated (names.map AttrName.name)).length)).map fun block =>
      overwrite block 0 (bytes (terminated (names.map AttrName.name)))) =
      some (bytes (terminated (names.map AttrName.name))) := by
    rw [size, malloc, if_neg (by omega), Option.map_some, Int.toNat_natCast, overwrite_blank, Nat.sub_self]
    exact congrArg some (List.append_nil _)
  have run := run_list_onward platform errno (names.map AttrName.name) width ⟨none, 0⟩ _ (by rw [size]; omega) listed
  simp only at run
  rw [block, size, if_neg (by omega), kept, Option.getD_some] at run
  exact run

theorem build_nothing (n : Nat) (some_ : 0 < n) : Checked.buildTable width [] n = none := by
  have counted : countNames [] n 0 = none := by
    rw [countNames, if_pos some_]
    rfl
  simp only [Checked.buildTable, counted, Option.bind_eq_bind, Option.bind_none]

theorem lists_not_refused (err : UvError) (goesOn : narrow (terminated (names.map AttrName.name)).length ≠ -1)
    (refused : lister platform errno (names.map AttrName.name)
      (.flistxattr (malloc (narrow (terminated (names.map AttrName.name)).length)).isNone
        (narrow (terminated (names.map AttrName.name)).length % 2 ^ (8 * width)).toNat) () =
      (⟨-1, some err, []⟩, ())) : ¬ Lists platform errno width (names.map AttrName.name) := by
  rintro ⟨table, returned, _⟩
  have run := run_list_onward platform errno (names.map AttrName.name) width ⟨none, 0⟩ _ goesOn refused
  simp only [narrow_minus_one, if_true] at run
  cases returned.symm.trans run

theorem lists_not_lost (any : names ≠ []) (lost : narrow (terminated (names.map AttrName.name)).length = -1) :
    ¬ Lists platform errno width (names.map AttrName.name) := by
  rintro ⟨table, returned, listed⟩
  have ended := returned.symm.trans (run_list_lost platform errno _ width ⟨none, 0⟩ lost)
  rw [Option.some_inj, Prod.mk.injEq] at ended
  have count := listed.length
  rw [ended.2, List.length_map] at count
  exact any (List.length_eq_zero_iff.mp count.symm)

theorem terminated_large (large : 2 ^ 31 ≤ (terminated (names.map AttrName.name)).length) :
    names ≠ [] ∧ terminated (names.map AttrName.name) ≠ [] := by
  constructor
  · rintro rfl
    exact absurd large (by decide)
  · intro empty
    rw [empty] at large
    exact absurd large (by decide)

theorem lists_not_negative (pointers : width = 4 ∨ width = 8)
    (large : 2 ^ 31 ≤ (terminated (names.map AttrName.name)).length)
    (negative : narrow (terminated (names.map AttrName.name)).length < 0)
    (goesOn : narrow (terminated (names.map AttrName.name)).length ≠ -1) :
    ¬ Lists platform errno width (names.map AttrName.name) := by
  obtain ⟨low, _⟩ := narrow_bounds ((terminated (names.map AttrName.name)).length : Int)
  obtain ⟨size, sizeEq⟩ : ∃ size, narrow ((terminated (names.map AttrName.name)).length : Int) = size := ⟨_, rfl⟩
  rw [sizeEq] at low negative
  have far : 2 ^ 31 ≤ (size % 2 ^ (8 * width)).toNat := by
    rcases pointers with rfl | rfl
    · omega
    · omega
  have answer := transfer_negative platform size (size % 2 ^ (8 * width)).toNat (terminated (names.map AttrName.name))
    negative (by omega)
  cases platform with
  | apple =>
      have all : lister .apple errno (names.map AttrName.name)
          (.flistxattr (malloc (narrow (terminated (names.map AttrName.name)).length)).isNone
            (narrow (terminated (names.map AttrName.name)).length % 2 ^ (8 * width)).toNat) () =
          (⟨(terminated (names.map AttrName.name)).length, errno, []⟩, ()) := by
        rw [sizeEq, lister, answer, if_pos rfl]
      have run := run_list_onward .apple errno (names.map AttrName.name) width ⟨none, 0⟩ _ goesOn all
      simp only at run
      rw [if_neg goesOn, sizeEq, malloc, if_pos negative, Option.map_none, Option.getD_none,
        build_nothing width _ (by omega)] at run
      rintro ⟨table, returned, _⟩
      cases returned.symm.trans run
  | linux =>
      rw [if_neg (by decide)] at answer
      by_cases less : (size % 2 ^ (8 * width)).toNat < (terminated (names.map AttrName.name)).length
      · rw [if_pos less] at answer
        exact lists_not_refused .linux errno width names .ERANGE goesOn (by rw [sizeEq, lister, answer])
      · rw [if_neg less, if_pos (terminated_large names large).2] at answer
        exact lists_not_refused .linux errno width names .EFAULT goesOn (by rw [sizeEq, lister, answer])

theorem lists_not_short (pointers : width = 4 ∨ width = 8)
    (large : 2 ^ 31 ≤ (terminated (names.map AttrName.name)).length)
    (nonneg : 0 ≤ narrow (terminated (names.map AttrName.name)).length) :
    ¬ Lists platform errno width (names.map AttrName.name) := by
  obtain ⟨_, high⟩ := narrow_bounds ((terminated (names.map AttrName.name)).length : Int)
  obtain ⟨size, sizeEq⟩ : ∃ size, narrow ((terminated (names.map AttrName.name)).length : Int) = size := ⟨_, rfl⟩
  have goesOn : narrow (terminated (names.map AttrName.name)).length ≠ -1 := by omega
  rw [sizeEq] at high nonneg
  have kept : (size % 2 ^ (8 * width)).toNat = size := by
    rcases pointers with rfl | rfl
    · omega
    · omega
  have answer := transfer_small platform size (size % 2 ^ (8 * width)).toNat (terminated (names.map AttrName.name))
    nonneg kept
  by_cases zero : platform = .linux ∧ size = 0
  · rw [if_pos zero] at answer
    have all : lister platform errno (names.map AttrName.name)
        (.flistxattr (malloc (narrow (terminated (names.map AttrName.name)).length)).isNone
          (narrow (terminated (names.map AttrName.name)).length % 2 ^ (8 * width)).toNat) () =
        (⟨(terminated (names.map AttrName.name)).length, errno, []⟩, ()) := by
      rw [sizeEq, lister, answer]
    have run := run_list_onward platform errno (names.map AttrName.name) width ⟨none, 0⟩ _ goesOn all
    simp only at run
    rintro ⟨table, returned, listed⟩
    rw [if_neg goesOn, returned, sizeEq] at run
    obtain ⟨built, made, same⟩ := Option.map_eq_some_iff.mp run.symm
    cases same
    have counted := Checked.build_table_length width _ _ table made
    rw [show (size % 2 ^ (8 * width)).toNat = 0 by omega, countNames, if_neg (Nat.lt_irrefl 0),
      Option.some_inj, listed.length, List.length_map] at counted
    exact (terminated_large names large).1 (List.length_eq_zero_iff.mp counted.symm)
  · rw [if_neg zero, if_pos (by omega)] at answer
    exact lists_not_refused platform errno width names .ERANGE goesOn (by rw [sizeEq, lister, answer])

theorem lists_not_large (pointers : width = 4 ∨ width = 8)
    (large : 2 ^ 31 ≤ (terminated (names.map AttrName.name)).length) :
    ¬ Lists platform errno width (names.map AttrName.name) := by
  by_cases lost : narrow (terminated (names.map AttrName.name)).length = -1
  · exact lists_not_lost platform errno width names (terminated_large names large).1 lost
  · by_cases negative : narrow (terminated (names.map AttrName.name)).length < 0
    · exact lists_not_negative platform errno width names pointers large negative lost
    · exact lists_not_short platform errno width names pointers large (by omega)

theorem build_table_far (nonempty : ∀ name ∈ names, name.name ≠ [])
    (small : (terminated (names.map AttrName.name)).length < 2 ^ 31)
    (far : 2 ^ 31 ≤ (terminated (names.map AttrName.name)).length + names.length * 4) :
    Checked.buildTable 4 (bytes (terminated (names.map AttrName.name))) (terminated (names.map AttrName.name)).length =
      none := by
  have few := terminated_length_nonempty names nonempty
  have counted := count_names_whole names []
  rw [List.append_nil] at counted
  simp only [Checked.buildTable, counted, Option.bind_eq_bind, Option.bind_some]
  rw [Nat.mod_eq_of_lt (show names.length * 4 < 2 ^ (8 * 4) by omega), Checked.realloc]
  by_cases wraps : 2 ^ 32 ≤ names.length * 4 + (terminated (names.map AttrName.name)).length
  · have size : (names.length * 4 + (terminated (names.map AttrName.name)).length) % 2 ^ (8 * 4) =
        names.length * 4 + (terminated (names.map AttrName.name)).length - 2 ^ 32 := by omega
    have short : loadCells (resize (bytes (terminated (names.map AttrName.name)))
        (names.length * 4 + (terminated (names.map AttrName.name)).length - 2 ^ 32)) 0
        (terminated (names.map AttrName.name)).length = none := by
      rw [loadCells, if_neg]
      simp only [resize, blank, List.length_append, List.length_take, bytes_length, List.length_replicate]
      omega
    rw [size, if_pos (by omega), Option.bind_some, short]
    rfl
  · rw [Nat.mod_eq_of_lt (by omega), if_neg (by omega)]
    rfl

theorem list_attrs_unpacks_iff (pointers : width = 4 ∨ width = 8) (nonempty : ∀ name ∈ names, name.name ≠ []) :
    Lists platform errno width (names.map AttrName.name) ↔
      (terminated (names.map AttrName.name)).length < 2 ^ 31 ∧
        (terminated (names.map AttrName.name)).length + names.length * width < 2 ^ (8 * width - 1) := by
  constructor
  · intro lists
    have small : (terminated (names.map AttrName.name)).length < 2 ^ 31 := by
      by_contra large
      exact lists_not_large platform errno width names pointers (by omega) lists
    refine ⟨small, ?_⟩
    rcases pointers with rfl | rfl
    · by_contra far
      obtain ⟨table, returned, _⟩ := lists
      rw [run_list_small platform errno 4 names (.inl rfl) small,
        build_table_far names nonempty small (by omega)] at returned
      cases returned
    · have few := terminated_length names
      omega
  · rintro ⟨small, fits⟩
    refine ⟨_, ?_, unpacked_table width names (by omega)⟩
    rw [run_list_small platform errno width names pointers small, Checked.build_table_whole width names fits]
    rfl

end

def sampleNames : List AttrName := [sampleName, ⟨[0x62, 0x63], by decide⟩]

theorem list_attrs_unpacks_two :
    Lists .linux none 4 (sampleNames.map AttrName.name) ↔
      (terminated (sampleNames.map AttrName.name)).length < 2 ^ 31 ∧
        (terminated (sampleNames.map AttrName.name)).length + sampleNames.length * 4 < 2 ^ (8 * 4 - 1) :=
  list_attrs_unpacks_iff .linux none 4 sampleNames (.inl rfl) (by decide)

theorem terminated_repeated (count : Nat) (name : CString) :
    (terminated (List.replicate count name)).length = count * (name.length + 1) := by
  induction count with
  | zero => rw [Nat.zero_mul]; rfl
  | succ count ih =>
      rw [List.replicate_succ, terminated_cons, List.length_append, List.length_cons, ih, Nat.succ_mul]
      omega

def longName : AttrName where
  name := List.replicate 127 0x61
  plain := fun inside => absurd (List.eq_of_mem_replicate inside) (by decide)

theorem large_list_lost :
    ¬ Lists .apple none 8 ((List.replicate (2 ^ 24) longName).map AttrName.name) := by
  refine lists_not_large .apple none 8 (List.replicate (2 ^ 24) longName) (.inr rfl) ?_
  rw [List.map_replicate, terminated_repeated, longName, List.length_replicate]
  decide

end FsExt.Attr
