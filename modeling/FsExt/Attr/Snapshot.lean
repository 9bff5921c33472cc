import FsExt.Attr.ListAttrs

set_option autoImplicit false

namespace FsExt.Attr

open Sys

def Snapshot (seen : List AttrFile) : Option (Status × NameTable) → Prop
  | none => False
  | some (.error _, _) => True
  | some (.ok (), table) => ∃ file ∈ seen, table.listed = some file.names

structure Listing where
  attrs : List AttrName
  distinct : (attrs.map AttrName.name).Nodup

def Listing.names (listing : Listing) : List CString := listing.attrs.map AttrName.name

inductive ListMet where
  | trouble
  | listing (found : Listing)

def AttrFile.listing (file : AttrFile) : Listing where
  attrs := file.attrs.map Prod.fst
  distinct := by simpa [Function.comp_def] using file.distinct

def AttrFile.listMet (file : AttrFile) : ListMet :=
  match file.trouble with
  | some _ => .trouble
  | none => .listing file.listing

def Listing.size (listing : Listing) : Nat := (terminated listing.names).length

-- When the table is right: the size of the list survives the conversion to
-- `int`, and then the second call fails or finds a list of that very size. With
-- a size that has become negative it fails on Linux only, and only if there is
-- something to copy; with a size of zero it is another size query on Linux.
def ListsWell (platform : Platform) (first second : ListMet) : Prop :=
  match first with
  | .trouble => True
  | .listing before =>
      narrow before.size ≠ -1 ∧
        match second with
        | .trouble => True
        | .listing after =>
            if narrow before.size < 0 then platform = .linux ∧ after.attrs ≠ []
            else narrow before.size ≤ after.size ∧
              (platform = .linux → narrow before.size = 0 → after.attrs = [] ∨ before.attrs = [])

def noNames : NameTable := ⟨none, 0⟩

def afterList (size : Int) (list : XattrResult) : Option (Status × NameTable) :=
  let names := (malloc size).map fun block => overwrite block 0 (bytes list.written)
  let length := (size % 2 ^ 64).toNat
  if narrow list.res = -1 then some (translate list.errno, ⟨names, length⟩)
  else (buildTable (names.getD []) length).map fun table => (.ok (), table)

def afterListSize (size : XattrResult) : XattrProgram (Option (Status × NameTable)) :=
  if narrow size.res = -1 then .ret (some (translate size.errno, noNames))
  else
    .call (.flistxattr (malloc (narrow size.res)).isNone (narrow size.res % 2 ^ 64).toNat) fun list =>
      .ret (afterList (narrow size.res) list)

theorem list_attrs_calls : listAttrs noNames = .call (.flistxattr true 0) afterListSize := by
  simp only [listAttrs, flistxattr, Program.perform_bind]
  congr 1
  funext size
  rw [afterListSize]
  split
  · rfl
  · congr 1
    funext list
    rw [afterList]
    split
    · rfl
    · rfl

theorem after_list_size_failed (size : XattrResult) (failed : narrow size.res = -1) :
    afterListSize size = .ret (some (translate size.errno, noNames)) :=
  if_pos failed

theorem after_list_error (size : Int) (list : XattrResult) (err : UvError) (reports : list.Reports (.error err)) :
    ∃ table, afterList size list = some (.error err, table) := by
  obtain ⟨failed, errno, _⟩ := reports
  refine ⟨⟨(malloc size).map fun block => overwrite block 0 (bytes list.written), (size % 2 ^ 64).toNat⟩, ?_⟩
  simp only [afterList, failed, narrow_minus_one, if_true, errno, translate]

theorem after_list_positive (size : Int) (list : XattrResult) (positive : 0 ≤ size) (small : size < 2 ^ 31)
    (kept : narrow list.res ≠ -1) :
    afterList size list =
      (buildTable (bytes list.written ++ blank (size.toNat - list.written.length)) size.toNat).map
        fun table => (.ok (), table) := by
  have memory : malloc size = some (blank size.toNat) := if_neg (by omega)
  have length : (size % 2 ^ 64).toNat = size.toNat := by omega
  simp only [afterList, if_neg kept, memory, length, Option.map_some, Option.getD_some, overwrite_blank]

theorem after_list_zero (list : XattrResult) (nothing : list.written = []) :
    ∃ table, table.listed = some [] ∧
      (afterList 0 list = some (.ok (), table) ∨
        ∃ err, list.errno = some err ∧ afterList 0 list = some (.error err, table)) := by
  by_cases failed : narrow list.res = -1
  · refine ⟨⟨some [], 0⟩, rfl, ?_⟩
    cases errno : list.errno with
    | none =>
        left
        simp only [afterList, failed, errno, nothing]
        rfl
    | some err =>
        refine .inr ⟨err, rfl, ?_⟩
        simp only [afterList, failed, errno, nothing]
        rfl
  · obtain ⟨table, built, listed⟩ := build_table_whole []
    refine ⟨table, listed, .inl ?_⟩
    rw [after_list_positive 0 list (by decide) (by decide) failed, nothing]
    exact congrArg (Option.map fun table => (Except.ok (), table)) built

theorem after_list_negative (size : Int) (list : XattrResult) (bound : -2 ^ 31 ≤ size) (negative : size < 0)
    (fine : list.errno = none) (seen : List AttrFile) : ¬ Snapshot seen (afterList size list) := by
  have memory : malloc size = none := if_pos negative
  obtain ⟨more, length⟩ : ∃ more, (size % 2 ^ 64).toNat = more + 1 :=
    Nat.exists_eq_succ_of_ne_zero (by omega)
  have unread : (⟨none, more + 1⟩ : NameTable).listed = none := rfl
  have unwritten : buildTable [] (more + 1) = none := build_table_unwritten [] [] (more + 1) rfl (Nat.succ_pos more)
  simp only [afterList, memory, length, fine, translate, Option.map_none, Option.getD_none, unwritten]
  split
  · intro shown
    obtain ⟨_, _, listed⟩ := shown
    rw [unread] at listed
    cases listed
  · exact id

theorem listing_names (file : AttrFile) : file.listing.names = file.names := by
  simp [Listing.names, AttrFile.listing, AttrFile.names]

theorem listing_size (file : AttrFile) : file.listing.size = (terminated file.names).length := by
  rw [Listing.size, listing_names]

theorem no_attrs (file : AttrFile) (empty : file.listing.attrs = []) : file.names = [] := by
  rw [← listing_names, Listing.names, empty, List.map_nil]

theorem terminated_attrs (file : AttrFile) (some_ : file.listing.attrs ≠ []) : terminated file.names ≠ [] := by
  rw [← listing_names, Listing.names]
  cases attrs : file.listing.attrs with
  | nil => exact absurd attrs some_
  | cons name names => simp [terminated_cons]

theorem list_met_cases (file : AttrFile) :
    (∃ trouble, file.trouble = some trouble ∧ file.listMet = .trouble) ∨
      (file.trouble = none ∧ file.listMet = .listing file.listing) := by
  rw [AttrFile.listMet]
  cases trouble : file.trouble with
  | some what => exact .inl ⟨what, rfl, rfl⟩
  | none => exact .inr ⟨rfl, rfl⟩

theorem second_list_snapshot (platform : Platform) (seen : List AttrFile) (file file' : AttrFile)
    (size list : XattrResult) (member : file ∈ seen) (member' : file' ∈ seen) (sized : size.res = file.listing.size)
    (reports : list.Reports (file'.reply platform
      (.flistxattr (malloc (narrow size.res)).isNone (narrow size.res % 2 ^ 64).toNat)))
    (well : ListsWell platform (.listing file.listing) file'.listMet) : Snapshot seen (afterList (narrow size.res) list) := by
  obtain ⟨bound, small⟩ := narrow_bounds size.res
  obtain ⟨_, well⟩ := well
  rw [← sized] at well
  have fails : ∀ err, list.Reports (.error err) → Snapshot seen (afterList (narrow size.res) list) := by
    intro err failed
    obtain ⟨table, outcome⟩ := after_list_error (narrow size.res) list err failed
    rw [outcome]
    exact trivial
  rcases list_met_cases file' with ⟨trouble, inTrouble, _⟩ | ⟨fine, met⟩
  · simp only [AttrFile.reply, inTrouble] at reports
    exact fails _ reports
  · rw [met] at well
    simp only [AttrFile.reply, fine] at reports
    simp only [listing_size] at well
    by_cases negative : narrow size.res < 0
    · rw [if_pos negative] at well
      obtain ⟨rfl, some_⟩ := well
      rw [transfer_negative .linux _ _ _ negative (by omega), if_neg (by decide),
        if_pos (terminated_attrs file' some_)] at reports
      split at reports
      · exact fails _ reports
      · exact fails _ reports
    · rw [if_neg negative] at well
      rw [transfer_small platform _ _ _ (by omega) (by omega)] at reports
      split at reports
      · rename_i query
        obtain ⟨table, listed, outcome | ⟨err, _, outcome⟩⟩ := after_list_zero list reports.2
        · rw [query.2, outcome]
          rcases well.2 query.1 query.2 with empty | empty
          · exact ⟨file', member', by rw [listed, no_attrs file' empty]⟩
          · exact ⟨file, member, by rw [listed, no_attrs file empty]⟩
        · rw [query.2, outcome]
          exact trivial
      · split at reports
        · exact fails _ reports
        · obtain ⟨res, written⟩ := reports
          have exact_ : (terminated file'.names).length = narrow size.res := by omega
          have kept : narrow list.res ≠ -1 := by
            rw [res, narrow_small _ (by omega)]
            omega
          have length : (narrow size.res).toNat = (terminated file'.names).length := by omega
          obtain ⟨table, built, listed⟩ := build_table_whole file'.listing.attrs
          have outcome : afterList (narrow size.res) list = some (.ok (), table) := by
            rw [after_list_positive _ list (by omega) small kept, written, length, Nat.sub_self,
              show blank 0 = [] from rfl, List.append_nil, ← listing_names]
            exact congrArg (Option.map fun table => (Except.ok (), table)) built
          rw [outcome]
          exact ⟨file', member', by rw [listed, ← listing_names]; rfl⟩

theorem run_snapshot (platform : Platform) (first second : ListMet) (start : AttrFile) (asked seen : List AttrFile)
    (outcome : Option (Status × NameTable)) (final : AttrFile)
    (runs : Program.Runs (xattrCalls platform) Others start (listAttrs noNames) asked seen outcome final)
    (meets : asked.map AttrFile.listMet <+: [first, second]) (well : ListsWell platform first second) :
    Snapshot seen outcome := by
  rw [list_attrs_calls] at runs
  obtain ⟨file, size, _, asked', seen', rfl, member, subset, ⟨reports, _⟩, rest⟩ :=
    Program.runs_call _ _ _ _ _ _ _ _ _ runs
  obtain ⟨rfl, meets'⟩ := List.cons_prefix_cons.mp meets
  rcases list_met_cases file with ⟨trouble, inTrouble, _⟩ | ⟨fine, met⟩
  · simp only [AttrFile.reply, inTrouble] at reports
    obtain ⟨res, errno, _⟩ := reports
    rw [after_list_size_failed size (by rw [res]; exact narrow_minus_one), errno] at rest
    obtain ⟨rfl, _⟩ := Program.runs_ret _ _ _ _ _ _ _ _ rest
    exact trivial
  · have sized : size.res = file.listing.size := by
      rw [listing_size]
      cases platform <;> simp only [AttrFile.reply, fine] at reports <;> exact reports.1
    rw [met] at well
    have goesOn : narrow size.res ≠ -1 := by
      rw [sized]
      exact well.1
    rw [afterListSize, if_neg goesOn] at rest
    obtain ⟨file', list, _, asked'', seen'', rfl, member', _, ⟨reports', _⟩, rest'⟩ :=
      Program.runs_call _ _ _ _ _ _ _ _ _ rest
    obtain ⟨rfl, _⟩ := List.cons_prefix_cons.mp meets'
    obtain ⟨rfl, _⟩ := Program.runs_ret _ _ _ _ _ _ _ _ rest'
    exact second_list_snapshot platform seen file file' size list member (subset member') sized reports' well

def Listing.file (listing : Listing) : AttrFile where
  attrs := listing.attrs.map fun name => (name, [])
  distinct := by simpa [Function.comp_def] using listing.distinct
  trouble := none

theorem file_listing (listing : Listing) : listing.file.listing = listing := by
  simp [Listing.file, AttrFile.listing, Function.comp_def]

theorem file_list_met (listing : Listing) : listing.file.listMet = .listing listing := by
  have fine : listing.file.trouble = none := rfl
  simp only [AttrFile.listMet, fine, file_listing]

theorem file_names (listing : Listing) : listing.file.names = listing.names := by
  rw [← listing_names, file_listing]

theorem file_reply (platform : Platform) (listing : Listing) (null : Bool) (size : Nat) :
    listing.file.reply platform (.flistxattr null size) =
      transfer platform null size (terminated listing.names) := by
  have fine : listing.file.trouble = none := rfl
  simp only [AttrFile.reply, fine, file_names]

theorem find_empty_attr (attrs : List AttrName) (name : CString) :
    ((attrs.map fun attr => (attr, ([] : List UInt8))).find? fun attr => attr.1.name = name).map Prod.snd =
      if name ∈ attrs.map AttrName.name then some [] else none := by
  induction attrs with
  | nil => rfl
  | cons attr attrs ih =>
      by_cases same : attr.name = name
      · simp [same]
      · simpa [same, Ne.symm same] using ih

theorem file_lookup (listing : Listing) (name : CString) :
    listing.file.lookup name = if name ∈ listing.names then some [] else none :=
  find_empty_attr listing.attrs name

theorem file_others (before after : Listing) (name : CString)
    (same : ∀ other, other ≠ name → (other ∈ after.names ↔ other ∈ before.names)) : Others before.file after.file :=
  ⟨name, fun other different => by simp only [file_lookup, same other different]⟩

def Passing (kept : AttrFile → Prop) (file file' : AttrFile) : Prop := (Others file file' ∧ kept file) ∧ kept file'

instance (kept : AttrFile → Prop) : Std.Symm (Passing kept) where
  symm _ _ passing :=
    let ⟨name, same⟩ := passing.1.1
    ⟨⟨⟨name, fun other different => (same other different).symm⟩, passing.2⟩, passing.1.2⟩

def Listing.only (anchor : AttrName) : Listing := ⟨[anchor], by simp⟩

theorem passes_to_anchor (kept : AttrFile → Prop) (full : ∀ listing : Listing, listing.attrs ≠ [] → kept listing.file)
    (attrs : List AttrName) (anchor : AttrName) (distinct : ((attrs ++ [anchor]).map AttrName.name).Nodup) :
    Relation.ReflTransGen (Passing kept) (Listing.file ⟨attrs ++ [anchor], distinct⟩) (Listing.only anchor).file := by
  induction attrs with
  | nil => exact .refl
  | cons attr attrs ih =>
      have rest : ((attrs ++ [anchor]).map AttrName.name).Nodup := (List.nodup_cons.mp distinct).2
      refine .head ⟨⟨file_others ⟨attr :: attrs ++ [anchor], distinct⟩ ⟨attrs ++ [anchor], rest⟩ attr.name ?_, ?_⟩, ?_⟩
        (ih rest)
      · intro other different
        simp [Listing.names, different]
      · exact full _ (by simp)
      · exact full _ (by simp)

theorem name_shorter (names : List CString) (name : CString) (listed : name ∈ names) :
    name.length < (terminated names).length := by
  induction names with
  | nil => cases listed
  | cons first names ih =>
      rw [terminated_cons, List.length_append, List.length_cons]
      rcases List.mem_cons.mp listed with rfl | later
      · omega
      · have := ih later
        omega

theorem passes_from (kept : AttrFile → Prop) (full : ∀ listing : Listing, listing.attrs ≠ [] → kept listing.file)
    (listing : Listing) (held : kept listing.file) (anchor : AttrName) (fresh : listing.size ≤ anchor.name.length) :
    Relation.ReflTransGen (Passing kept) listing.file (Listing.only anchor).file := by
  have absent : anchor.name ∉ listing.names := fun listed => by
    have := name_shorter listing.names anchor.name listed
    rw [Listing.size] at fresh
    omega
  have distinct : ((listing.attrs ++ [anchor]).map AttrName.name).Nodup := by
    rw [List.map_append, List.nodup_append]
    refine ⟨listing.distinct, by simp, ?_⟩
    rintro name listed other single rfl
    rw [List.map_singleton, List.mem_singleton] at single
    exact absent (single ▸ listed)
  refine .head ⟨⟨file_others listing ⟨listing.attrs ++ [anchor], distinct⟩ anchor.name ?_, held⟩, full _ (by simp)⟩
    (passes_to_anchor kept full listing.attrs anchor distinct)
  intro other different
  simp [Listing.names, different]

theorem passes_between (kept : AttrFile → Prop) (full : ∀ listing : Listing, listing.attrs ≠ [] → kept listing.file)
    (before after : Listing) (held : kept before.file) (held' : kept after.file) :
    Relation.ReflTransGen (Passing kept) before.file after.file := by
  have plain : 0 ∉ List.replicate (before.size + after.size) (1 : UInt8) := fun inside =>
    absurd (List.eq_of_mem_replicate inside) (by decide)
  have there := passes_from kept full before held ⟨List.replicate (before.size + after.size) 1, plain⟩ (by simp)
  have back := passes_from kept full after held' ⟨List.replicate (before.size + after.size) 1, plain⟩ (by simp)
  exact there.trans (Std.Symm.symm _ _ back)

def Unlisted (platform : Platform) (first second : ListMet) : Prop :=
  ∃ start asked seen outcome final,
    Program.Runs (xattrCalls platform) Others start (listAttrs noNames) asked seen outcome final ∧
      asked.map AttrFile.listMet <+: [first, second] ∧ ¬ Snapshot seen outcome

theorem list_size_reports (platform : Platform) (listing : Listing) (errno : Option UvError) :
    (⟨listing.size, errno, []⟩ : XattrResult).Reports (listing.file.reply platform (.flistxattr true 0)) := by
  rw [file_reply]
  cases platform <;> exact ⟨rfl, rfl⟩

theorem unlisted_two (platform : Platform) (before after : Listing) (list : XattrResult)
    (goesOn : narrow before.size ≠ -1)
    (reports : list.Reports (transfer platform (malloc (narrow before.size)).isNone
      (narrow before.size % 2 ^ 64).toNat (terminated after.names)))
    (wrong : ∀ seen : List AttrFile, (before.attrs ≠ [] → after.attrs ≠ [] → ∀ file ∈ seen, file.attrs ≠ []) →
      ¬ Snapshot seen (afterList (narrow before.size) list)) :
    Unlisted platform (.listing before) (.listing after) := by
  let kept : AttrFile → Prop := fun file => before.attrs ≠ [] → after.attrs ≠ [] → file.attrs ≠ []
  have full : ∀ listing : Listing, listing.attrs ≠ [] → kept listing.file := fun listing some_ _ _ => by
    simpa [Listing.file] using some_
  have held : kept before.file := fun some_ _ => by simpa [Listing.file] using some_
  have held' : kept after.file := fun _ some_ => by simpa [Listing.file] using some_
  have weaker : Passing kept ≤ fun file file' => Others file file' ∧ kept file := fun _ _ passing => passing.1
  have path := Relation.ReflTransGen.mono weaker _ _ (passes_between kept full before after held held')
  have fill : Program.Runs (xattrCalls platform) Others after.file (afterListSize ⟨before.size, none, []⟩)
      [after.file] [after.file, after.file] (afterList (narrow before.size) list) after.file := by
    rw [afterListSize, if_neg goesOn]
    refine .call _ _ _ _ list _ _ _ _ ⟨?_, rfl⟩ (.ret _ _)
    rw [file_reply]
    exact reports
  obtain ⟨seen, rest, all⟩ := Program.runs_after (xattrCalls platform) Others kept _ _ _ _ _ _ _ path fill (by
    simp only [List.mem_cons, List.not_mem_nil, or_false, or_self, forall_eq]
    exact held')
  have run : Program.Runs (xattrCalls platform) Others before.file (listAttrs noNames)
      [before.file, after.file] (before.file :: seen) (afterList (narrow before.size) list) after.file := by
    rw [list_attrs_calls]
    refine .call _ _ _ _ ⟨before.size, none, []⟩ _ _ _ _ ⟨list_size_reports platform before none, rfl⟩ ?_
    exact rest
  refine ⟨_, _, _, _, _, run, by simp [file_list_met], wrong _ fun some_ some_' => ?_⟩
  exact List.forall_mem_cons.mpr ⟨held some_ some_', fun file member => all file member some_ some_'⟩

theorem lost_unlisted (platform : Platform) (before : Listing) (second : ListMet) (lost : narrow before.size = -1) :
    Unlisted platform (.listing before) second := by
  have run : Program.Runs (xattrCalls platform) Others before.file (listAttrs noNames) [before.file]
      [before.file, before.file] (some (.ok (), noNames)) before.file := by
    rw [list_attrs_calls]
    refine .call _ _ _ _ ⟨before.size, none, []⟩ _ _ _ _ ⟨list_size_reports platform before none, rfl⟩ ?_
    rw [after_list_size_failed ⟨before.size, none, []⟩ lost]
    exact .ret _ _
  refine ⟨_, _, _, _, _, run, by simp [file_list_met], ?_⟩
  intro shown
  obtain ⟨file, member, listed⟩ := shown
  have only : file = before.file := by simpa using member
  have empty : [] = before.names := by
    rw [only, file_names] at listed
    exact Option.some.inj listed
  rw [Listing.size, ← empty] at lost
  exact absurd lost (by decide)

theorem short_unlisted (platform : Platform) (before after : Listing) (goesOn : narrow before.size ≠ -1)
    (positive : 0 ≤ narrow before.size) (short : after.size < narrow before.size) :
    Unlisted platform (.listing before) (.listing after) := by
  obtain ⟨_, small⟩ := narrow_bounds before.size
  have kept : narrow after.size ≠ -1 := by
    rw [narrow_small after.size (by omega)]
    omega
  have fits : (terminated after.names).length < (narrow before.size).toNat := by
    rw [Listing.size] at short
    omega
  apply unlisted_two platform before after ⟨after.size, none, terminated after.names⟩ goesOn
  · rw [transfer_small platform (narrow before.size) _ _ positive (by omega), if_neg (by omega), if_neg (by omega)]
    exact ⟨rfl, rfl⟩
  · intro seen _
    obtain ⟨more, rest⟩ : ∃ more, (narrow before.size).toNat - (terminated after.names).length = more + 1 :=
      Nat.exists_eq_succ_of_ne_zero (by omega)
    have stuck : buildTable (bytes (terminated after.names) ++ blank (more + 1)) (narrow before.size).toNat = none :=
      build_table_unwritten after.attrs (blank (more + 1)) (narrow before.size).toNat rfl fits
    rw [after_list_positive (narrow before.size) ⟨after.size, none, terminated after.names⟩ positive small kept, rest,
      stuck]
    exact id

theorem negative_unlisted (platform : Platform) (before after : Listing) (goesOn : narrow before.size ≠ -1)
    (negative : narrow before.size < 0) (accepted : platform = .apple ∨ after.attrs = []) :
    Unlisted platform (.listing before) (.listing after) := by
  obtain ⟨bound, _⟩ := narrow_bounds before.size
  apply unlisted_two platform before after ⟨after.size, none, []⟩ goesOn
  · rw [transfer_negative platform (narrow before.size) _ _ negative (by omega)]
    rcases accepted with rfl | empty
    · rw [if_pos rfl]
      exact ⟨rfl, rfl⟩
    · have nothing : terminated after.names = [] := by simp [Listing.names, empty, terminated]
      rw [Listing.size, nothing]
      simp only [List.length_nil, Nat.not_lt_zero, if_false, ne_eq, not_true_eq_false, ite_self]
      exact ⟨rfl, rfl⟩
  · exact fun seen _ => after_list_negative (narrow before.size) ⟨after.size, none, []⟩ bound negative rfl seen

theorem asked_again_unlisted (before after : Listing) (zero : narrow before.size = 0) (some_ : before.attrs ≠ [])
    (some_' : after.attrs ≠ []) : Unlisted .linux (.listing before) (.listing after) := by
  apply unlisted_two .linux before after ⟨after.size, none, []⟩ (by omega)
  · rw [transfer_small .linux (narrow before.size) _ _ (by omega) (by omega), if_pos ⟨rfl, zero⟩]
    exact ⟨rfl, rfl⟩
  · intro seen full
    rw [zero]
    obtain ⟨table, listed, outcome | ⟨err, errno, _⟩⟩ := after_list_zero ⟨after.size, none, []⟩ rfl
    · rw [outcome]
      intro shown
      obtain ⟨file, member, same⟩ := shown
      rw [listed] at same
      exact full some_ some_' file member (List.map_eq_nil_iff.mp (Option.some.inj same).symm)
    · cases errno

theorem not_listed_well_unlisted (platform : Platform) (first second : ListMet)
    (bad : ¬ ListsWell platform first second) : Unlisted platform first second := by
  cases first with
  | trouble => exact absurd trivial bad
  | listing before =>
      by_cases lost : narrow before.size = -1
      · exact lost_unlisted platform before second lost
      · simp only [ListsWell, lost, ne_eq, not_false_eq_true, true_and] at bad
        cases second with
        | trouble => exact absurd trivial bad
        | listing after =>
            simp only at bad
            split at bad
            · rename_i negative
              apply negative_unlisted platform before after lost negative
              cases platform with
              | apple => exact .inl rfl
              | linux => exact .inr (by simpa using bad)
            · rename_i positive
              by_cases short : after.size < narrow before.size
              · exact short_unlisted platform before after lost (by omega) short
              · have more : narrow before.size ≤ after.size := by omega
                simp only [more, true_and, not_forall, not_or] at bad
                obtain ⟨rfl, zero, some_', some_⟩ := bad
                exact asked_again_unlisted before after zero some_ some_'

theorem list_attrs_snapshot_iff (platform : Platform) (first second : ListMet) :
    (∀ start asked seen outcome final,
      Program.Runs (xattrCalls platform) Others start (listAttrs noNames) asked seen outcome final →
        asked.map AttrFile.listMet <+: [first, second] → Snapshot seen outcome) ↔
      ListsWell platform first second := by
  constructor
  · intro listed
    by_contra bad
    obtain ⟨start, asked, seen, outcome, final, runs, meets, wrong⟩ :=
      not_listed_well_unlisted platform first second bad
    exact wrong (listed start asked seen outcome final runs meets)
  · intro well start asked seen outcome final runs meets
    exact run_snapshot platform first second start asked seen outcome final runs meets well

def secondName : AttrName := ⟨[0x62], by decide⟩

def bothNames : Listing := ⟨[sampleName, secondName], by decide⟩

theorem list_attrs_reads_unwritten :
    ∃ asked seen final,
      Program.Runs (xattrCalls .linux) Others bothNames.file (listAttrs noNames) asked seen none final ∧
        ¬ Snapshot seen none := by
  have removed : Others bothNames.file (Listing.only sampleName).file := by
    refine file_others bothNames (Listing.only sampleName) secondName.name fun other different => ?_
    have absent : other ≠ [0x62] := different
    simp [Listing.names, bothNames, Listing.only, sampleName, secondName, absent]
  have stuck : afterList 4 ⟨2, none, [0x61, 0]⟩ = none := by
    have unwritten := build_table_unwritten [sampleName] (blank 2) 4 rfl (by decide)
    rw [after_list_positive 4 ⟨2, none, [0x61, 0]⟩ (by decide) (by decide) (by decide)]
    exact congrArg (Option.map fun table => (Except.ok (), table)) unwritten
  refine ⟨[bothNames.file, (Listing.only sampleName).file], [bothNames.file, bothNames.file,
    (Listing.only sampleName).file, (Listing.only sampleName).file], (Listing.only sampleName).file, ?_, id⟩
  rw [list_attrs_calls, ← stuck]
  refine .call _ _ _ _ ⟨4, none, []⟩ _ _ _ _ ⟨⟨rfl, rfl⟩, rfl⟩ (.other _ _ _ _ _ _ _ removed ?_)
  rw [afterListSize, if_neg (by decide)]
  exact .call _ _ _ _ ⟨2, none, [0x61, 0]⟩ _ _ _ _ ⟨⟨rfl, rfl⟩, rfl⟩ (.ret _ _)

end FsExt.Attr
