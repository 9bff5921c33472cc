import FsExt.Lock.Api

set_option autoImplicit false

namespace FsExt.Lock

open Sys

section
variable {Op : Type} {Answer : Op → Type} {Own : Type}

-- What the locks of one descriptor amount to is `level`, the strongest lock on
-- each byte. The results of the platform functions in these terms:
def Keeps (top : Nat) (level : Own → Nat → Option LockType) (offset length : UInt64) (mine mine' : Own) : Prop :=
  ∀ byte, ¬ Within top offset length byte → level mine' byte = level mine byte

def Locked (top : Nat) (level : Own → Nat → Option LockType) (offset length : UInt64) (type : LockType)
    (mine : Own) : Status → Own → Prop
  | .ok (), mine' => Keeps top level offset length mine mine' ∧
      ∀ byte, Within top offset length byte → Supports (level mine' byte) (some type)
  | .error _, mine' => mine' = mine

def Downgraded (top : Nat) (level : Own → Nat → Option LockType) (offset length : UInt64) (mine : Own) :
    Status → Own → Prop
  | .ok (), mine' => Keeps top level offset length mine mine' ∧
      ((∀ byte, Within top offset length byte → level mine byte = some .wrlock) →
        ∀ byte, Within top offset length byte → level mine' byte ≠ none)
  | .error _, mine' => Keeps top level offset length mine mine'

def Upgraded (top : Nat) (level : Own → Nat → Option LockType) (offset length : UInt64) (mine : Own) :
    Status → Own → Prop
  | .ok (), mine' => Keeps top level offset length mine mine' ∧
      ∀ byte, Within top offset length byte → level mine' byte = some .wrlock
  | .error _, mine' => Keeps top level offset length mine mine'

def Unlocked (top : Nat) (level : Own → Nat → Option LockType) (offset length : UInt64) (mine : Own)
    (_ : Status) (mine' : Own) : Prop :=
  Keeps top level offset length mine mine'

-- What a backend must meet, function by function. A call that takes a lock
-- changes nothing before it is granted, the others nothing outside their range.
structure Specified (backend : Backend Op Answer) (own : Program.Semantics Op Answer Own)
    (level : Own → Nat → Option LockType) : Prop where
  tryLock : ∀ offset length type mine, backend.Fits offset length →
    Program.Ensures own (fun _ mid => mid = mine) (backend.tryLock offset length type) mine
      (Locked backend.top level offset length type mine)
  waitForLock : ∀ offset length type mine, backend.Fits offset length →
    Program.Ensures own (fun _ mid => mid = mine) (backend.waitForLock offset length type) mine
      (Locked backend.top level offset length type mine)
  tryDowngradeLock : ∀ offset length mine, backend.Fits offset length →
    Program.Ensures own (fun _ => Keeps backend.top level offset length mine) (backend.tryDowngradeLock offset length) mine
      (Downgraded backend.top level offset length mine)
  waitForDowngradeLock : ∀ offset length mine, backend.Fits offset length →
    Program.Ensures own (fun _ => Keeps backend.top level offset length mine) (backend.waitForDowngradeLock offset length) mine
      (Downgraded backend.top level offset length mine)
  tryUpgradeLock : ∀ offset length mine, backend.Fits offset length →
    Program.Ensures own (fun _ => Keeps backend.top level offset length mine) (backend.tryUpgradeLock offset length) mine
      (Upgraded backend.top level offset length mine)
  waitForUpgradeLock : ∀ offset length mine, backend.Fits offset length →
    Program.Ensures own (fun _ => Keeps backend.top level offset length mine) (backend.waitForUpgradeLock offset length) mine
      (Upgraded backend.top level offset length mine)
  unlock : ∀ offset length mine, backend.Fits offset length →
    Program.Ensures own (fun _ => Keeps backend.top level offset length mine) (backend.unlock offset length) mine
      (Unlocked backend.top level offset length mine)

def Backed (level : Own → Nat → Option LockType) (belief : Belief) (mine : Own) : Prop :=
  ∀ byte, Supports (level mine byte) (belief byte)

theorem backed_mark (top : Nat) (level : Own → Nat → Option LockType) (request : Request) (belief : Belief)
    (type : Option LockType) (mine mine' : Own) (backed : Backed level belief mine)
    (keeps : Keeps top level request.offset request.length mine mine')
    (inside : ∀ byte, Within top request.offset request.length byte → Supports (level mine' byte) type) :
    Backed level (request.mark top type belief) mine' := by
  intro byte
  rw [Request.mark]
  by_cases within : Within top request.offset request.length byte
  · rw [if_pos within]
    exact inside byte within
  · rw [if_neg within, keeps byte within]
    exact backed byte

theorem backed_drop (top : Nat) (level : Own → Nat → Option LockType) (request : Request) (belief : Belief)
    (mine mine' : Own) (backed : Backed level belief mine)
    (keeps : Keeps top level request.offset request.length mine mine') :
    Backed level (request.mark top none belief) mine' :=
  backed_mark top level request belief none mine mine' backed keeps fun _ _ => supports_none _

theorem closes_failed (top : Nat) (request : Request) (before : Belief) (result : Outcome)
    (failed : result ≠ .returned true) : request.closes top before result = request.opens top before := by
  cases result with
  | threw err => rfl
  | returned value =>
      cases value with
      | true => exact absurd rfl failed
      | false => rfl

def Tells (shown : Status → Outcome) : Prop :=
  shown (.ok ()) = .returned true ∧ ∀ err, shown (.error err) ≠ .returned true

theorem try_outcome_tells : Tells fun status => tryOutcome (tryStatus status) := by
  refine ⟨rfl, fun err => ?_⟩
  cases err <;> simp [tryStatus, tryOutcome]

theorem outcome_tells : Tells outcome := ⟨rfl, fun err => by simp [outcome]⟩

theorem ensures_shown (top : Nat) (own : Program.Semantics Op Answer Own) (level : Own → Nat → Option LockType)
    (request : Request) (before : Belief) (mine : Own) (platform : Program Op Answer Status)
    (shown : Status → Outcome) (tells : Tells shown) (inv : Op → Own → Prop) (post : Status → Own → Prop)
    (ensured : Program.Ensures own inv platform mine post)
    (asks : ∀ op mid, inv op mid → Backed level (request.opens top before) mid)
    (succeeds : ∀ mine', post (.ok ()) mine' → Backed level (request.closes top before (.returned true)) mine')
    (fails : ∀ err mine', post (.error err) mine' → Backed level (request.opens top before) mine') :
    Program.Ensures own (fun _ => Backed level (request.opens top before)) (do return shown (← platform)) mine
      fun result mine' => Backed level (request.closes top before result) mine' := by
  rw [Program.ensures_bind]
  refine Program.ensures_mono own inv _ platform mine post _ asks ?_ ensured
  intro status mine' holds
  simp only [Program.pure_eq_ret, Program.ensures_ret]
  cases status with
  | ok done =>
      rw [tells.1]
      exact succeeds mine' holds
  | error err =>
      rw [closes_failed top request before _ (tells.2 err)]
      exact fails err mine' holds

theorem lock_sound (backend : Backend Op Answer) (own : Program.Semantics Op Answer Own)
    (level : Own → Nat → Option LockType) (request : Request) (before : Belief) (mine : Own) (shared : Bool)
    (isLock : request.call = .tryLock shared ∨ request.call = .waitForLock shared)
    (backed : Backed level before mine) (platform : Program Op Answer Status) (shown : Status → Outcome)
    (tells : Tells shown)
    (ensured : Program.Ensures own (fun _ mid => mid = mine) platform mine
      (Locked backend.top level request.offset request.length (lockType shared) mine)) :
    Program.Ensures own (fun _ => Backed level (request.opens backend.top before)) (do return shown (← platform)) mine
      fun result mine' => Backed level (request.closes backend.top before result) mine' := by
  have opens : request.opens backend.top before = before := by
    rcases isLock with call | call <;> simp only [Request.opens, call]
  have closes : request.closes backend.top before (.returned true) =
      request.mark backend.top (some (lockType shared)) before := by
    rcases isLock with call | call <;> simp only [Request.closes, call]
  refine ensures_shown backend.top own level request before mine platform shown tells _ _ ensured ?_ ?_ ?_
  · rintro op mid rfl
    rw [opens]
    exact backed
  · intro mine' locked
    obtain ⟨keeps, inside⟩ := locked
    rw [closes]
    exact backed_mark backend.top level request before _ mine mine' backed keeps inside
  · rintro err mine' rfl
    rw [opens]
    exact backed

theorem downgrade_sound (backend : Backend Op Answer) (own : Program.Semantics Op Answer Own)
    (level : Own → Nat → Option LockType) (request : Request) (before : Belief) (mine : Own)
    (isDowngrade : request.call = .tryDowngradeLock ∨ request.call = .waitForDowngradeLock)
    (backed : Backed level before mine) (platform : Program Op Answer Status) (shown : Status → Outcome)
    (tells : Tells shown)
    (ensured : Program.Ensures own (fun _ => Keeps backend.top level request.offset request.length mine) platform mine
      (Downgraded backend.top level request.offset request.length mine)) :
    Program.Ensures own (fun _ => Backed level (request.opens backend.top before)) (do return shown (← platform)) mine
      fun result mine' => Backed level (request.closes backend.top before result) mine' := by
  have opens : request.opens backend.top before = request.mark backend.top none before := by
    rcases isDowngrade with call | call <;> simp only [Request.opens, call]
  refine ensures_shown backend.top own level request before mine platform shown tells _ _ ensured ?_ ?_ ?_
  · intro op mid keeps
    rw [opens]
    exact backed_drop backend.top level request before mine mid backed keeps
  · intro mine' downgraded
    obtain ⟨keeps, shared⟩ := downgraded
    have closes : ∃ type, request.closes backend.top before (.returned true) =
          request.mark backend.top type before ∧ (type = none ∨ type = some .rdlock ∧
            ∀ byte, Within backend.top request.offset request.length byte → before byte = some .wrlock) := by
      by_cases credited : ∀ byte, Within backend.top request.offset request.length byte → before byte = some .wrlock
      · refine ⟨some .rdlock, ?_, .inr ⟨rfl, credited⟩⟩
        rcases isDowngrade with call | call <;> simp only [Request.closes, call, if_pos credited]
      · refine ⟨none, ?_, .inl rfl⟩
        rcases isDowngrade with call | call <;> simp only [Request.closes, call, if_neg credited]
    obtain ⟨type, result, rfl | ⟨rfl, credited⟩⟩ := closes
    · rw [result]
      exact backed_drop backend.top level request before mine mine' backed keeps
    · rw [result]
      refine backed_mark backend.top level request before _ mine mine' backed keeps fun byte within =>
        supports_rdlock _ (shared (fun byte within => ?_) byte within)
      have exclusive := backed byte
      rw [credited byte within] at exclusive
      rcases exclusive with none_ | same | same
      · cases none_
      · exact same
      · exact same
  · intro err mine' keeps
    rw [opens]
    exact backed_drop backend.top level request before mine mine' backed keeps

theorem upgrade_sound (backend : Backend Op Answer) (own : Program.Semantics Op Answer Own)
    (level : Own → Nat → Option LockType) (request : Request) (before : Belief) (mine : Own)
    (isUpgrade : request.call = .tryUpgradeLock ∨ request.call = .waitForUpgradeLock)
    (backed : Backed level before mine) (platform : Program Op Answer Status) (shown : Status → Outcome)
    (tells : Tells shown)
    (ensured : Program.Ensures own (fun _ => Keeps backend.top level request.offset request.length mine) platform mine
      (Upgraded backend.top level request.offset request.length mine)) :
    Program.Ensures own (fun _ => Backed level (request.opens backend.top before)) (do return shown (← platform)) mine
      fun result mine' => Backed level (request.closes backend.top before result) mine' := by
  have opens : request.opens backend.top before = request.mark backend.top none before := by
    rcases isUpgrade with call | call <;> simp only [Request.opens, call]
  refine ensures_shown backend.top own level request before mine platform shown tells _ _ ensured ?_ ?_ ?_
  · intro op mid keeps
    rw [opens]
    exact backed_drop backend.top level request before mine mid backed keeps
  · intro mine' upgraded
    obtain ⟨keeps, exclusive⟩ := upgraded
    obtain ⟨type, closes⟩ : ∃ type, request.closes backend.top before (.returned true) =
        request.mark backend.top type before := by
      rcases isUpgrade with call | call <;> exact ⟨_, by simp only [Request.closes, call]; rfl⟩
    rw [closes]
    exact backed_mark backend.top level request before type mine mine' backed keeps fun byte within =>
      .inr (.inr (exclusive byte within))
  · intro err mine' keeps
    rw [opens]
    exact backed_drop backend.top level request before mine mine' backed keeps

theorem unlock_sound (backend : Backend Op Answer) (own : Program.Semantics Op Answer Own)
    (level : Own → Nat → Option LockType) (request : Request) (before : Belief) (mine : Own)
    (isUnlock : request.call = .unlock) (backed : Backed level before mine) (platform : Program Op Answer Status)
    (ensured : Program.Ensures own (fun _ => Keeps backend.top level request.offset request.length mine) platform mine
      (Unlocked backend.top level request.offset request.length mine)) :
    Program.Ensures own (fun _ => Backed level (request.opens backend.top before)) (do return outcome (← platform)) mine
      fun result mine' => Backed level (request.closes backend.top before result) mine' := by
  have opens : request.opens backend.top before = request.mark backend.top none before := by
    simp only [Request.opens, isUnlock]
  have dropped : ∀ mine', Keeps backend.top level request.offset request.length mine mine' →
      Backed level (request.opens backend.top before) mine' := by
    intro mine' keeps
    rw [opens]
    exact backed_drop backend.top level request before mine mine' backed keeps
  refine ensures_shown backend.top own level request before mine platform outcome outcome_tells _ _ ensured
    (fun _ => dropped) ?_ fun _ => dropped
  intro mine' keeps
  have closes : request.closes backend.top before (.returned true) = request.opens backend.top before := by
    simp only [Request.closes, isUnlock, opens]
  rw [closes]
  exact dropped mine' keeps

theorem request_sound (backend : Backend Op Answer) (own : Program.Semantics Op Answer Own)
    (level : Own → Nat → Option LockType) (specified : Specified backend own level) (request : Request)
    (fits : backend.Fits request.offset request.length) (before : Belief) (mine : Own)
    (backed : Backed level before mine) :
    Program.Ensures own (fun _ => Backed level (request.opens backend.top before)) (request.program backend) mine
      fun result mine' => Backed level (request.closes backend.top before result) mine' := by
  have lock := lock_sound backend own level request before mine
  have downgrade := downgrade_sound backend own level request before mine
  have upgrade := upgrade_sound backend own level request before mine
  rw [Request.program]
  cases call : request.call with
  | tryLock shared =>
      exact lock shared (.inl call) backed _ _ try_outcome_tells (specified.tryLock _ _ _ mine fits)
  | waitForLock shared =>
      exact lock shared (.inr call) backed _ _ outcome_tells (specified.waitForLock _ _ _ mine fits)
  | tryDowngradeLock =>
      exact downgrade (.inl call) backed _ _ try_outcome_tells (specified.tryDowngradeLock _ _ mine fits)
  | waitForDowngradeLock =>
      exact downgrade (.inr call) backed _ _ outcome_tells (specified.waitForDowngradeLock _ _ mine fits)
  | tryUpgradeLock =>
      exact upgrade (.inl call) backed _ _ try_outcome_tells (specified.tryUpgradeLock _ _ mine fits)
  | waitForUpgradeLock =>
      exact upgrade (.inr call) backed _ _ outcome_tells (specified.waitForUpgradeLock _ _ mine fits)
  | unlock => exact unlock_sound backend own level request before mine call backed _ (specified.unlock _ _ mine fits)

end

section
variable {D Own Op : Type} {Answer : Op → Type} [DecidableEq D]

def Compatible (level : Own → Nat → Option LockType) (table : D → Own) : Prop :=
  ∀ d e, d ≠ e → ∀ byte, ¬ Clash (level (table d) byte) (level (table e) byte)

theorem compatible_update (level : Own → Nat → Option LockType) (table : D → Own) (d : D) (mine : Own)
    (compatible : Compatible level table)
    (harmless : ∀ e, e ≠ d → ∀ byte, ¬ Clash (level mine byte) (level (table e) byte)) :
    Compatible level (Function.update table d mine) := by
  intro e f different byte
  by_cases atE : e = d
  · subst e
    rw [Function.update_self, Function.update_of_ne (Ne.symm different)]
    exact harmless f (Ne.symm different) byte
  · by_cases atF : f = d
    · subst f
      rw [Function.update_self, Function.update_of_ne atE]
      exact fun clash => harmless e atE byte (clash_symm _ _ clash)
    · rw [Function.update_of_ne atE, Function.update_of_ne atF]
      exact compatible e f different byte

def fresh (empty : Own) : Service D Own Request Op Answer Outcome Belief where
  table _ := empty
  party _ := .idle fun _ => none

-- Any descriptor that has no call in progress may begin any call whose range
-- does not overflow.
def AnyCall (backend : Backend Op Answer) (_ : Service D Own Request Op Answer Outcome Belief) (_ : D)
    (request : Request) : Prop :=
  backend.Fits request.offset request.length

def BeliefsAgree (backend : Backend Op Answer) (state : Service D Own Request Op Answer Outcome Belief) : Prop :=
  ∀ d e, d ≠ e → ∀ byte,
    ¬ Clash (Service.view (api backend) (state.party d) byte) (Service.view (api backend) (state.party e) byte)

theorem reachable_agree (backend : Backend Op Answer) (own : Program.Semantics Op Answer Own)
    (level : Own → Nat → Option LockType) (specified : Specified backend own level)
    (sem : D → Program.Semantics Op Answer (D → Own)) (owned : Service.Owned sem own)
    (keeps : ∀ d op table answer table', Compatible level table → sem d op table answer table' →
      Compatible level table')
    (empty : Own) (nothing : ∀ byte, level empty byte = none)
    (state : Service D Own Request Op Answer Outcome Belief)
    (reachable : Service.Reachable (api backend) (AnyCall backend) sem (fresh empty) state) :
    BeliefsAgree backend state := by
  have compatible : Compatible level state.table := by
    refine Service.reachable_table (api backend) (AnyCall backend) sem (Compatible level) keeps (fresh empty) state
      ?_ reachable
    intro d e _ byte clash
    exact clash.1 (nothing byte)
  have backed : ∀ d, Backed level (Service.view (api backend) (state.party d)) (state.table d) := by
    intro d
    have follows := Service.reachable_follows (api backend) (AnyCall backend) sem own owned (Backed level)
      (fun request before _ => Backed level (request.opens backend.top before))
      (fun now d request before fits backed => request_sound backend own level specified request fits before _ backed)
      (fresh empty) state (fun d byte => supports_none _) reachable d
    cases at_ : state.party d with
    | idle now =>
        rw [at_] at follows
        exact follows
    | busy request before rest =>
        rw [at_] at follows
        obtain ⟨⟨op, next, rfl⟩, ensured⟩ := follows
        exact ensured.1
  intro d e different byte clash
  exact compatible d e different byte (clash_of_supported _ _ _ _ (backed d byte) (backed e byte) clash)

end

end FsExt.Lock
