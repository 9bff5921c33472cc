import FsExt.Sys.FileTree

set_option autoImplicit false

namespace Sys

-- The purpose of a swap, without programs or path strings: any number of pairs
-- of places, each exchanged in three relocations through a place of its own.
structure Pairs (ι Name : Type) where
  fst : ι → List Name
  snd : ι → List Name

inductive Phase (Name : Type) where
  | waiting
  | parked (temp : List Name)
  | crossed (temp : List Name)
  | landed

def Phase.temp {Name : Type} : Phase Name → Option (List Name)
  | .waiting => none
  | .parked temp => some temp
  | .crossed temp => some temp
  | .landed => none

section
variable {ι Name Obj : Type}

structure Separate (pairs : Pairs ι Name) : Prop where
  own : ∀ i, Apart (pairs.fst i) (pairs.snd i)
  firsts : ∀ i j, i ≠ j → Apart (pairs.fst i) (pairs.fst j)
  seconds : ∀ i j, i ≠ j → Apart (pairs.snd i) (pairs.snd j)
  mixed : ∀ i j, i ≠ j → Apart (pairs.fst i) (pairs.snd j)

def Beyond (pairs : Pairs ι Name) (place : List Name) : Prop :=
  ∀ i, Apart place (pairs.fst i) ∧ Apart place (pairs.snd i)

def Beside (a b : List Name) : Prop := ∃ folder left right, a = folder ++ [left] ∧ b = folder ++ [right]

def Stands (pairs : Pairs ι Name) (init cur : Tree Name Obj) (i : ι) : Phase Name → Prop
  | .waiting => Holds cur (pairs.fst i) init (pairs.fst i) ∧ Holds cur (pairs.snd i) init (pairs.snd i)
  | .parked temp => Holds cur temp init (pairs.fst i) ∧ Vacant cur (pairs.fst i) ∧
      Holds cur (pairs.snd i) init (pairs.snd i)
  | .crossed temp => Holds cur temp init (pairs.fst i) ∧ Holds cur (pairs.fst i) init (pairs.snd i) ∧
      Vacant cur (pairs.snd i)
  | .landed => Holds cur (pairs.fst i) init (pairs.snd i) ∧ Holds cur (pairs.snd i) init (pairs.fst i)

structure Arranged (pairs : Pairs ι Name) (init : Tree Name Obj) (phase : ι → Phase Name)
    (cur : Tree Name Obj) : Prop where
  stands : ∀ i, Stands pairs init cur i (phase i)
  fresh : ∀ i temp, (phase i).temp = some temp → Vacant init temp ∧ Beyond pairs temp
  beside : ∀ i temp, (phase i).temp = some temp → Beside (pairs.fst i) temp
  distinct : ∀ i j temp temp', i ≠ j → (phase i).temp = some temp → (phase j).temp = some temp' → Apart temp temp'
  elsewhere : ∀ place, (∀ i, ¬ pairs.fst i <+: place ∧ ¬ pairs.snd i <+: place) →
    (∀ i temp, (phase i).temp = some temp → ¬ temp <+: place) → cur place = init place

structure Exchanged (pairs : Pairs ι Name) (init cur : Tree Name Obj) : Prop where
  firsts : ∀ i, Holds cur (pairs.fst i) init (pairs.snd i)
  seconds : ∀ i, Holds cur (pairs.snd i) init (pairs.fst i)
  elsewhere : ∀ place, (∀ i, ¬ pairs.fst i <+: place ∧ ¬ pairs.snd i <+: place) → cur place = init place

theorem arranged_initial (pairs : Pairs ι Name) (init : Tree Name Obj) :
    Arranged pairs init (fun _ => .waiting) init where
  stands i := ⟨holds_refl init _, holds_refl init _⟩
  fresh i temp held := by cases held
  beside i temp held := by cases held
  distinct i j temp temp' _ held _ := by cases held
  elsewhere place _ _ := rfl

theorem arranged_landed (pairs : Pairs ι Name) (init cur : Tree Name Obj) (phase : ι → Phase Name)
    (arranged : Arranged pairs init phase cur) (done : ∀ i, phase i = .landed) : Exchanged pairs init cur where
  firsts i := by
    have stands := arranged.stands i
    rw [done i] at stands
    exact stands.1
  seconds i := by
    have stands := arranged.stands i
    rw [done i] at stands
    exact stands.2
  elsewhere place outside := by
    apply arranged.elsewhere place outside
    intro i temp held
    rw [done i] at held
    cases held

theorem stands_fst (pairs : Pairs ι Name) (init cur : Tree Name Obj) (i : ι) (phase : Phase Name)
    (stands : Stands pairs init cur i phase) : ∃ place, Holds cur place init (pairs.fst i) := by
  cases phase with
  | waiting => exact ⟨_, stands.1⟩
  | parked temp => exact ⟨_, stands.1⟩
  | crossed temp => exact ⟨_, stands.1⟩
  | landed => exact ⟨_, stands.2⟩

theorem stands_snd (pairs : Pairs ι Name) (init cur : Tree Name Obj) (i : ι) (phase : Phase Name)
    (stands : Stands pairs init cur i phase) : ∃ place, Holds cur place init (pairs.snd i) := by
  cases phase with
  | waiting => exact ⟨_, stands.2⟩
  | parked temp => exact ⟨_, stands.2.2⟩
  | crossed temp => exact ⟨_, stands.2.1⟩
  | landed => exact ⟨_, stands.1⟩

theorem arranged_nothing_lost (pairs : Pairs ι Name) (init cur : Tree Name Obj) (phase : ι → Phase Name)
    (arranged : Arranged pairs init phase cur) (place : List Name) (obj : Obj) (present : init place = some obj) :
    ∃ now, cur now = some obj := by
  by_cases inPair : ∃ i, pairs.fst i <+: place ∨ pairs.snd i <+: place
  · obtain ⟨i, ⟨rest, rfl⟩ | ⟨rest, rfl⟩⟩ := inPair
    · obtain ⟨now, held⟩ := stands_fst pairs init cur i (phase i) (arranged.stands i)
      exact ⟨now ++ rest, (held rest).trans present⟩
    · obtain ⟨now, held⟩ := stands_snd pairs init cur i (phase i) (arranged.stands i)
      exact ⟨now ++ rest, (held rest).trans present⟩
  · refine ⟨place, (arranged.elsewhere place ?_ ?_).trans present⟩
    · exact fun i => ⟨fun inside => inPair ⟨i, .inl inside⟩, fun inside => inPair ⟨i, .inr inside⟩⟩
    · rintro i temp held ⟨rest, rfl⟩
      rw [(arranged.fresh i temp held).1 rest] at present
      cases present

theorem separate_others (pairs : Pairs ι Name) (separate : Separate pairs) (i j : ι) (different : j ≠ i) :
    (Apart (pairs.fst i) (pairs.fst j) ∧ Apart (pairs.snd i) (pairs.fst j)) ∧
      (Apart (pairs.fst i) (pairs.snd j) ∧ Apart (pairs.snd i) (pairs.snd j)) :=
  ⟨⟨separate.firsts i j (Ne.symm different), apart_symm _ _ (separate.mixed j i different)⟩,
    ⟨separate.mixed i j (Ne.symm different), separate.seconds i j (Ne.symm different)⟩⟩

theorem separate_fst (pairs : Pairs ι Name) (separate : Separate pairs) (i j : ι) :
    (pairs.fst j <+: pairs.fst i → j = i) ∧ ¬ pairs.snd j <+: pairs.fst i := by
  constructor
  · intro inside
    by_contra different
    exact (separate.firsts j i different).1 inside
  · intro inside
    by_cases same : i = j
    · subst i
      exact (separate.own j).2 inside
    · exact (separate.mixed i j same).2 inside

theorem separate_snd (pairs : Pairs ι Name) (separate : Separate pairs) (i j : ι) :
    ¬ pairs.fst j <+: pairs.snd i ∧ (pairs.snd j <+: pairs.snd i → j = i) := by
  constructor
  · intro inside
    by_cases same : i = j
    · subst i
      exact (separate.own j).1 inside
    · exact (separate.mixed j i (Ne.symm same)).1 inside
  · intro inside
    by_contra different
    exact (separate.seconds j i different).1 inside

theorem arranged_above_fst (pairs : Pairs ι Name) (init cur : Tree Name Obj) (phase : ι → Phase Name)
    (separate : Separate pairs) (arranged : Arranged pairs init phase cur) (i : ι) (folder : List Name)
    (last : Name) (entry : pairs.fst i = folder ++ [last]) : cur folder = init folder := by
  have around : folder <+: pairs.fst i := entry ▸ List.prefix_append folder [last]
  apply arranged.elsewhere
  · intro j
    constructor
    · intro inside
      have same := (separate_fst pairs separate i j).1 (inside.trans around)
      subst j
      exact entry_not_in_folder folder last (entry ▸ inside)
    · exact fun inside => (separate_fst pairs separate i j).2 (inside.trans around)
  · intro j temp held inside
    exact ((arranged.fresh j temp held).2 i).1.1 (inside.trans around)

theorem arranged_above_snd (pairs : Pairs ι Name) (init cur : Tree Name Obj) (phase : ι → Phase Name)
    (separate : Separate pairs) (arranged : Arranged pairs init phase cur) (i : ι) (folder : List Name)
    (last : Name) (entry : pairs.snd i = folder ++ [last]) : cur folder = init folder := by
  have around : folder <+: pairs.snd i := entry ▸ List.prefix_append folder [last]
  apply arranged.elsewhere
  · intro j
    constructor
    · exact fun inside => (separate_snd pairs separate i j).1 (inside.trans around)
    · intro inside
      have same := (separate_snd pairs separate i j).2 (inside.trans around)
      subst j
      exact entry_not_in_folder folder last (entry ▸ inside)
  · intro j temp held inside
    exact ((arranged.fresh j temp held).2 i).2.1 (inside.trans around)

theorem arranged_temp_occupied (pairs : Pairs ι Name) (init cur : Tree Name Obj) (phase : ι → Phase Name)
    (arranged : Arranged pairs init phase cur) (i : ι) (temp : List Name) (held : (phase i).temp = some temp) :
    cur temp = init (pairs.fst i) := by
  have stands := arranged.stands i
  cases at_ : phase i with
  | waiting => rw [at_] at held; cases held
  | landed => rw [at_] at held; cases held
  | parked other =>
      rw [at_] at held stands
      cases held
      exact holds_top cur init _ _ stands.1
  | crossed other =>
      rw [at_] at held stands
      cases held
      exact holds_top cur init _ _ stands.1

end

section
variable {ι Name Obj : Type} (isDir : Obj → Bool)

theorem arranged_claimable (pairs : Pairs ι Name) (init cur : Tree Name Obj) (phase : ι → Phase Name)
    (closed : Closed isDir init) (separate : Separate pairs) (arranged : Arranged pairs init phase cur)
    (existing : ∀ j, init (pairs.fst j) ≠ none ∧ init (pairs.snd j) ≠ none) (i : ι) (temp : List Name)
    (beside : Beside (pairs.fst i) temp) (foreign : ∀ j, temp ≠ pairs.fst j ∧ temp ≠ pairs.snd j)
    (absent : cur temp = none) :
    Vacant init temp ∧ Beyond pairs temp ∧ ∀ j other, (phase j).temp = some other → Apart temp other := by
  obtain ⟨folder, last, name, entry, rfl⟩ := beside
  have around : folder <+: pairs.fst i := entry ▸ List.prefix_append folder [last]
  have notFst : ∀ j, ¬ pairs.fst j <+: folder ++ [name] := by
    intro j
    rw [List.prefix_concat_iff]
    intro within
    rcases within with same | inside
    · exact (foreign j).1 same.symm
    · have same := (separate_fst pairs separate i j).1 (inside.trans around)
      subst j
      exact entry_not_in_folder folder last (entry ▸ inside)
  have notSnd : ∀ j, ¬ pairs.snd j <+: folder ++ [name] := by
    intro j
    rw [List.prefix_concat_iff]
    intro within
    rcases within with same | inside
    · exact (foreign j).2 same.symm
    · exact (separate_fst pairs separate i j).2 (inside.trans around)
  have notTemp : ∀ j other, (phase j).temp = some other → ¬ other <+: folder ++ [name] := by
    intro j other held
    rw [List.prefix_concat_iff]
    intro within
    rcases within with same | inside
    · rw [← same, arranged_temp_occupied pairs init cur phase arranged j other held] at absent
      exact (existing j).1 absent
    · exact ((arranged.fresh j other held).2 i).1.1 (inside.trans around)
  have missing : init (folder ++ [name]) = none := by
    rw [← arranged.elsewhere _ (fun j => ⟨notFst j, notSnd j⟩) notTemp, absent]
  have outside : ∀ place, init place ≠ none → ¬ folder ++ [name] <+: place := fun place present inside =>
    closed_ancestor isDir init closed _ place inside present missing
  refine ⟨closed_vacant isDir init closed _ missing, fun j => ⟨⟨outside _ (existing j).1, notFst j⟩,
    ⟨outside _ (existing j).2, notSnd j⟩⟩, ?_⟩
  intro j other held
  refine ⟨?_, notTemp j other held⟩
  obtain ⟨folder', last', name', entry', rfl⟩ := arranged.beside j other held
  rw [List.prefix_concat_iff]
  intro within
  rcases within with same | inside
  · exact notTemp j _ held (same ▸ List.prefix_refl _)
  · exact outside _ (existing j).1 (inside.trans (entry' ▸ List.prefix_append folder' [last']))

end

section
variable {ι Name Obj : Type} [DecidableEq Name]

theorem stands_frame (pairs : Pairs ι Name) (init cur : Tree Name Obj) (i : ι) (phase : Phase Name)
    (src dst : List Name) (stands : Stands pairs init cur i phase)
    (fst : Apart src (pairs.fst i) ∧ Apart dst (pairs.fst i))
    (snd : Apart src (pairs.snd i) ∧ Apart dst (pairs.snd i))
    (temps : ∀ temp, phase.temp = some temp → Apart src temp ∧ Apart dst temp) :
    Stands pairs init (relocate src dst cur) i phase := by
  cases phase with
  | waiting =>
      exact ⟨relocate_keeps src dst _ _ cur init stands.1 fst.1 fst.2,
        relocate_keeps src dst _ _ cur init stands.2 snd.1 snd.2⟩
  | parked temp =>
      have apart := temps temp rfl
      exact ⟨relocate_keeps src dst _ _ cur init stands.1 apart.1 apart.2,
        relocate_keeps_vacant src dst _ cur stands.2.1 fst.1 fst.2,
        relocate_keeps src dst _ _ cur init stands.2.2 snd.1 snd.2⟩
  | crossed temp =>
      have apart := temps temp rfl
      exact ⟨relocate_keeps src dst _ _ cur init stands.1 apart.1 apart.2,
        relocate_keeps src dst _ _ cur init stands.2.1 fst.1 fst.2,
        relocate_keeps_vacant src dst _ cur stands.2.2 snd.1 snd.2⟩
  | landed =>
      exact ⟨relocate_keeps src dst _ _ cur init stands.1 fst.1 fst.2,
        relocate_keeps src dst _ _ cur init stands.2 snd.1 snd.2⟩

end

section
variable {ι Name : Type} [DecidableEq ι]

theorem update_temp (phase : ι → Phase Name) (i j : ι) (next : Phase Name) (temp : List Name)
    (held : (Function.update phase i next j).temp = some temp) :
    (j = i ∧ next.temp = some temp) ∨ (j ≠ i ∧ (phase j).temp = some temp) := by
  by_cases same : j = i
  · subst j
    exact .inl ⟨rfl, by simpa using held⟩
  · exact .inr ⟨same, by simpa [same] using held⟩

end

section
variable {ι Name Obj : Type} [DecidableEq ι] [DecidableEq Name]

-- The first relocation of a pair claims a place for it; everybody else's
-- places must be apart from it. This is where a shared temporary would break.
theorem arranged_park (pairs : Pairs ι Name) (init cur : Tree Name Obj) (phase : ι → Phase Name)
    (separate : Separate pairs) (arranged : Arranged pairs init phase cur) (i : ι) (temp : List Name)
    (waits : phase i = .waiting) (vacant : Vacant init temp) (beyond : Beyond pairs temp)
    (beside : Beside (pairs.fst i) temp)
    (alone : ∀ j other, (phase j).temp = some other → Apart temp other) :
    Arranged pairs init (Function.update phase i (.parked temp)) (relocate (pairs.fst i) temp cur) where
  stands j := by
    by_cases same : j = i
    · subst j
      have stands := arranged.stands i
      rw [waits] at stands
      rw [Function.update_self]
      exact ⟨relocate_carries _ _ _ cur init stands.1, relocate_vacates _ _ cur (beyond i).1,
        relocate_keeps _ _ _ _ cur init stands.2 (separate.own i) (beyond i).2⟩
    · rw [Function.update_of_ne same]
      obtain ⟨fst, snd⟩ := separate_others pairs separate i j same
      refine stands_frame pairs init cur j (phase j) _ _ (arranged.stands j) ⟨fst.1, (beyond j).1⟩
        ⟨snd.1, (beyond j).2⟩ ?_
      intro other held
      exact ⟨apart_symm _ _ ((arranged.fresh j other held).2 i).1, alone j other held⟩
  fresh j other held := by
    rcases update_temp phase i j _ other held with ⟨_, own⟩ | ⟨_, old⟩
    · cases own
      exact ⟨vacant, beyond⟩
    · exact arranged.fresh j other old
  beside j other held := by
    rcases update_temp phase i j _ other held with ⟨rfl, own⟩ | ⟨_, old⟩
    · cases own
      exact beside
    · exact arranged.beside j other old
  distinct j k left right different heldLeft heldRight := by
    rcases update_temp phase i j _ left heldLeft with ⟨atJ, ownLeft⟩ | ⟨_, oldLeft⟩
    · cases ownLeft
      rcases update_temp phase i k _ right heldRight with ⟨atK, _⟩ | ⟨_, oldRight⟩
      · exact absurd (atJ.trans atK.symm) different
      · exact alone k right oldRight
    · rcases update_temp phase i k _ right heldRight with ⟨_, ownRight⟩ | ⟨_, oldRight⟩
      · cases ownRight
        exact apart_symm _ _ (alone j left oldLeft)
      · exact arranged.distinct j k left right different oldLeft oldRight
  elsewhere place outside temps := by
    have untouched : ¬ temp <+: place := temps i temp (by rw [Function.update_self]; rfl)
    rw [relocate_elsewhere _ _ place cur untouched (outside i).1]
    apply arranged.elsewhere place outside
    intro j other held
    have different : j ≠ i := by
      intro same
      rw [same, waits] at held
      cases held
    exact temps j other (by rw [Function.update_of_ne different]; exact held)

theorem arranged_cross (pairs : Pairs ι Name) (init cur : Tree Name Obj) (phase : ι → Phase Name)
    (separate : Separate pairs) (arranged : Arranged pairs init phase cur) (i : ι) (temp : List Name)
    (parked : phase i = .parked temp) :
    Arranged pairs init (Function.update phase i (.crossed temp))
      (relocate (pairs.snd i) (pairs.fst i) cur) where
  stands j := by
    by_cases same : j = i
    · subst j
      have stands := arranged.stands i
      have beyond := (arranged.fresh i temp (by rw [parked]; rfl)).2 i
      rw [parked] at stands
      rw [Function.update_self]
      exact ⟨relocate_keeps _ _ _ _ cur init stands.1 (apart_symm _ _ beyond.2) (apart_symm _ _ beyond.1),
        relocate_carries _ _ _ cur init stands.2.2, relocate_vacates _ _ cur (separate.own i)⟩
    · rw [Function.update_of_ne same]
      obtain ⟨fst, snd⟩ := separate_others pairs separate i j same
      refine stands_frame pairs init cur j (phase j) _ _ (arranged.stands j) ⟨fst.2, fst.1⟩ ⟨snd.2, snd.1⟩ ?_
      intro other held
      have beyond := (arranged.fresh j other held).2 i
      exact ⟨apart_symm _ _ beyond.2, apart_symm _ _ beyond.1⟩
  fresh j other held := by
    rcases update_temp phase i j _ other held with ⟨_, own⟩ | ⟨_, old⟩
    · exact arranged.fresh i other (by rw [parked]; exact own)
    · exact arranged.fresh j other old
  beside j other held := by
    rcases update_temp phase i j _ other held with ⟨rfl, own⟩ | ⟨_, old⟩
    · exact arranged.beside j other (by rw [parked]; exact own)
    · exact arranged.beside j other old
  distinct j k left right different heldLeft heldRight := by
    have before : ∀ l held, (Function.update phase i (.crossed temp) l).temp = some held →
        (phase l).temp = some held := by
      intro l held now
      rcases update_temp phase i l _ held now with ⟨atI, own⟩ | ⟨_, old⟩
      · rw [atI, parked]
        exact own
      · exact old
    exact arranged.distinct j k left right different (before j left heldLeft) (before k right heldRight)
  elsewhere place outside temps := by
    rw [relocate_elsewhere _ _ place cur (outside i).1 (outside i).2]
    apply arranged.elsewhere place outside
    intro j other held
    by_cases same : j = i
    · subst j
      rw [parked] at held
      exact temps i other (by rw [Function.update_self]; exact held)
    · exact temps j other (by rw [Function.update_of_ne same]; exact held)

theorem arranged_land (pairs : Pairs ι Name) (init cur : Tree Name Obj) (phase : ι → Phase Name)
    (separate : Separate pairs) (arranged : Arranged pairs init phase cur) (i : ι) (temp : List Name)
    (crossed : phase i = .crossed temp) :
    Arranged pairs init (Function.update phase i .landed) (relocate temp (pairs.snd i) cur) where
  stands j := by
    obtain ⟨_, beyond⟩ := arranged.fresh i temp (by rw [crossed]; rfl)
    by_cases same : j = i
    · subst j
      have stands := arranged.stands i
      rw [crossed] at stands
      rw [Function.update_self]
      exact ⟨relocate_keeps _ _ _ _ cur init stands.2.1 (beyond i).1 (apart_symm _ _ (separate.own i)),
        relocate_carries _ _ _ cur init stands.1⟩
    · rw [Function.update_of_ne same]
      obtain ⟨fst, snd⟩ := separate_others pairs separate i j same
      refine stands_frame pairs init cur j (phase j) _ _ (arranged.stands j) ⟨(beyond j).1, fst.2⟩
        ⟨(beyond j).2, snd.2⟩ ?_
      intro other held
      exact ⟨arranged.distinct i j temp other (Ne.symm same) (by rw [crossed]; rfl) held,
        apart_symm _ _ ((arranged.fresh j other held).2 i).2⟩
  fresh j other held := by
    rcases update_temp phase i j _ other held with ⟨_, own⟩ | ⟨_, old⟩
    · cases own
    · exact arranged.fresh j other old
  beside j other held := by
    rcases update_temp phase i j _ other held with ⟨_, own⟩ | ⟨_, old⟩
    · cases own
    · exact arranged.beside j other old
  distinct j k left right different heldLeft heldRight := by
    rcases update_temp phase i j _ left heldLeft with ⟨_, own⟩ | ⟨_, oldLeft⟩
    · cases own
    · rcases update_temp phase i k _ right heldRight with ⟨_, own⟩ | ⟨_, oldRight⟩
      · cases own
      · exact arranged.distinct j k left right different oldLeft oldRight
  elsewhere place outside temps := by
    have kept : ∀ j other, j ≠ i → (phase j).temp = some other → ¬ other <+: place := by
      intro j other different held
      exact temps j other (by rw [Function.update_of_ne different]; exact held)
    by_cases atTemp : temp <+: place
    · obtain ⟨vacant, beyond⟩ := arranged.fresh i temp (by rw [crossed]; rfl)
      obtain ⟨rest, rfl⟩ := atTemp
      rw [relocate_vacates temp _ cur (apart_symm _ _ (beyond i).2) rest, vacant rest]
    · rw [relocate_elsewhere _ _ place cur (outside i).2 atTemp]
      apply arranged.elsewhere place outside
      intro j other held
      by_cases same : j = i
      · subst j
        rw [crossed] at held
        cases held
        exact atTemp
      · exact kept j other same held

end

def pairOf {Name : Type} (a b : List Name) : Pairs Unit Name := ⟨fun _ => a, fun _ => b⟩

section
variable {Name Obj : Type}

theorem exchanged_vacant (a b place : List Name) (init cur : Tree Name Obj)
    (exchanged : Exchanged (pairOf a b) init cur) (vacant : Vacant init place) (fst : Apart a place)
    (snd : Apart b place) : Vacant cur place := by
  intro rest
  rw [exchanged.elsewhere _ fun _ => ⟨apart_outside a place rest fst, apart_outside b place rest snd⟩, vacant rest]

theorem relocate_exchange [DecidableEq Name] (a b temp : List Name) (tree : Tree Name Obj) (apart : Apart a b)
    (first : Apart temp a) (second : Apart temp b) (vacant : Vacant tree temp) :
    Exchanged (pairOf a b) tree (relocate temp b (relocate b a (relocate a temp tree))) where
  firsts _ := by
    have before := relocate_keeps a temp b b tree tree (holds_refl tree b) apart second
    have carried := relocate_carries b a b (relocate a temp tree) tree before
    exact relocate_keeps temp b a b _ tree carried first (apart_symm a b apart)
  seconds _ := by
    have parked := relocate_carries a temp a tree tree (holds_refl tree a)
    have kept := relocate_keeps b a temp a (relocate a temp tree) tree parked (apart_symm temp b second)
      (apart_symm temp a first)
    exact relocate_carries temp b a _ tree kept
  elsewhere place outside := by
    obtain ⟨notFst, notSnd⟩ := outside ()
    by_cases inTemp : temp <+: place
    · obtain ⟨rest, rfl⟩ := inTemp
      rw [relocate_vacates temp b _ (apart_symm temp b second) rest, vacant rest]
    · rw [relocate_elsewhere temp b place _ notSnd inTemp, relocate_elsewhere b a place _ notFst notSnd,
        relocate_elsewhere a temp place tree inTemp notFst]

end

end Sys
