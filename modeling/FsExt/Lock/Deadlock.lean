import FsExt.Lock.Linux
import FsExt.Lock.Windows

set_option autoImplicit false

namespace FsExt.Lock

open Sys

section
variable {D Own Op : Type} {Answer : Op → Type}

-- One range for everybody: take a lock when holding nothing, upgrade a shared
-- lock taken once, release with unlock.
def Disciplined (offset length : UInt64) (nothing shared : Own) (state : Service D Own Request Op Answer Outcome Belief)
    (d : D) (request : Request) : Prop :=
  request.offset = offset ∧ request.length = length ∧
    match request.call with
    | .waitForLock _ => state.table d = nothing
    | .waitForUpgradeLock => state.table d = shared
    | .unlock => True
    | _ => False

def Upgrades (request : Request) : Prop := request.call = .waitForUpgradeLock

def UpgradesAlone (state : Service D Own Request Op Answer Outcome Belief) (request : Request) : Prop :=
  Upgrades request → ∀ e, ¬ Service.Busy Upgrades (state.party e)

end

namespace Linux

section
variable {D : Type}

def nothing : Own := fun _ => none

def shared (offset length : UInt64) : Own := (flock offset length (some .rdlock)).apply nothing

def WaitsFor (state : Service D Own Request FcntlOp FcntlAnswer Outcome Belief) (d e : D) : Prop :=
  ∃ request before data next, state.party d = .busy request before (.call (.ofdSetlkw data) next) ∧
    e ≠ d ∧ ∃ byte, data.Covers byte ∧ Clash data.type (state.table e byte)

def asks (request : Request) (_ : Belief) (op : FcntlOp) (own : Own) : Prop :=
  ∀ data, op = .ofdSetlkw data → own = nothing ∨ Upgrades request

theorem waits_iff_not_grantable (state : Service D Own Request FcntlOp FcntlAnswer Outcome Belief) (d : D)
    (request : Request) (before : Belief) (data : Flock)
    (next : FcntlAnswer (.ofdSetlkw data) → Program FcntlOp FcntlAnswer Outcome)
    (busy : state.party d = .busy request before (.call (.ofdSetlkw data) next)) :
    (∃ e, WaitsFor state d e) ↔ ¬ Grantable state.table d data := by
  constructor
  · rintro ⟨e, request', before', data', next', busy', different, byte, covers, clash⟩ grantable
    rw [busy] at busy'
    cases busy'
    exact grantable e different byte covers clash
  · intro refused
    by_contra nobody
    exact refused fun e different byte covers clash =>
      nobody ⟨e, request, before, data, next, busy, different, byte, covers, clash⟩

theorem waits_empty (offset length : UInt64)
    (state : Service D Own Request FcntlOp FcntlAnswer Outcome Belief) (d : D) (request : Request) (before : Belief)
    (disciplined : Disciplined offset length nothing (shared offset length) state d request) :
    Program.Ensures ofdOwn (asks request before) (request.program backend) (state.table d) fun _ _ => True := by
  obtain ⟨_, _, allowed⟩ := disciplined
  cases call : request.call with
  | waitForLock shared =>
      rw [call] at allowed
      simp only [Request.program, call]
      exact ⟨fun _ _ => .inl allowed, fun _ _ _ => trivial⟩
  | waitForUpgradeLock =>
      simp only [Request.program, call]
      exact ⟨fun _ _ => .inr call, fun _ _ _ => trivial⟩
  | unlock =>
      simp only [Request.program, call]
      exact ⟨fun _ waits => (by cases waits), fun _ _ _ => trivial⟩
  | tryLock _ => rw [call] at allowed; exact allowed.elim
  | tryDowngradeLock => rw [call] at allowed; exact allowed.elim
  | waitForDowngradeLock => rw [call] at allowed; exact allowed.elim
  | tryUpgradeLock => rw [call] at allowed; exact allowed.elim

end

section
variable {D : Type} [DecidableEq D]

def Runs (offset length : UInt64) (state : Service D Own Request FcntlOp FcntlAnswer Outcome Belief) : Prop :=
  Service.Reachable (api backend) (Disciplined offset length nothing (shared offset length)) ofd (fresh nothing) state

def RunsAlone (offset length : UInt64) (state : Service D Own Request FcntlOp FcntlAnswer Outcome Belief) : Prop :=
  Service.Reachable (api backend)
    (fun now d request => Disciplined offset length nothing (shared offset length) now d request ∧
      UpgradesAlone now request) ofd (fresh nothing) state

-- Whoever waits for a waiting descriptor waits for one inside an upgrade, and
-- that one waits for another.
theorem not_deadlocked (offset length : UInt64)
    (state : Service D Own Request FcntlOp FcntlAnswer Outcome Belief)
    (reachable : RunsAlone offset length state) (members : D → Prop) : ¬ Deadlocked (WaitsFor state) members := by
  have follows := Service.reachable_follows (api backend) _ ofd ofdOwn ofd_owned (fun _ _ => True) asks
    (fun now d request before may _ => waits_empty offset length now d request before may.1) (fresh nothing) state
    (fun d => trivial) reachable
  have alone := Service.reachable_alone (api backend) _ ofd Upgrades (fun now d request may => may.2) (fresh nothing)
    state (fun d busy => by obtain ⟨_, _, _, idle, _⟩ := busy; cases idle) reachable
  have holder : ∀ d e, members e → WaitsFor state d e → (∀ e, members e → ∃ f, WaitsFor state e f) →
      Service.Busy Upgrades (state.party e) := by
    rintro d e member ⟨_, _, data, _, _, _, byte, _, clash⟩ waiting
    obtain ⟨f, request, before, data', next, busy, _⟩ := waiting e member
    have waits := follows e
    rw [busy] at waits
    rcases Service.follows_asks _ _ _ _ _ _ _ _ _ waits data' rfl with empty | upgrades
    · rw [empty] at clash
      exact absurd rfl clash.2.1
    · exact ⟨request, before, _, busy, upgrades⟩
  intro deadlocked
  obtain ⟨⟨d, member⟩, closed⟩ := deadlocked
  have waiting : ∀ e, members e → ∃ f, WaitsFor state e f := fun e member => (closed e member).1
  obtain ⟨e, first⟩ := waiting d member
  have memberE := (closed d member).2 e first
  obtain ⟨f, second⟩ := waiting e memberE
  have memberF := (closed e memberE).2 f second
  have same := alone e f (holder d e memberE first waiting) (holder e f memberF second waiting)
  obtain ⟨_, _, _, _, _, different, _⟩ := second
  exact different same.symm

end

end Linux

namespace Windows

section
variable {D : Type}

def WaitsFor (state : Service D Own Request LockFileOp LockFileAnswer Outcome Belief) (d e : D) : Prop :=
  ∃ request before exclusive lengthLow lengthHigh data next,
    state.party d = .busy request before (.call (.lockFileEx false exclusive lengthLow lengthHigh data) next) ∧
      ∃ other ∈ state.table e, (rangeLock lengthLow lengthHigh data exclusive).Overlaps other ∧
        (exclusive = true ∨ e ≠ d ∧ other.exclusive = true)

theorem waits_iff_not_grantable (state : Service D Own Request LockFileOp LockFileAnswer Outcome Belief) (d : D)
    (request : Request) (before : Belief) (exclusive : Bool) (lengthLow lengthHigh : UInt32) (data : Overlapped)
    (next : LockFileAnswer (.lockFileEx false exclusive lengthLow lengthHigh data) →
      Program LockFileOp LockFileAnswer Outcome)
    (busy : state.party d =
      .busy request before (.call (.lockFileEx false exclusive lengthLow lengthHigh data) next)) :
    (∃ e, WaitsFor state d e) ↔ ¬ Grantable state.table d (rangeLock lengthLow lengthHigh data exclusive) := by
  constructor
  · rintro ⟨e, _, _, _, _, _, _, _, busy', other, member, overlaps, strong⟩ grantable
    rw [busy] at busy'
    cases busy'
    rw [Grantable] at grantable
    rcases strong with rfl | ⟨different, otherExclusive⟩
    · exact grantable e other member overlaps
    · split at grantable
      · exact grantable e other member overlaps
      · exact grantable e different other member otherExclusive overlaps
  · intro refused
    by_contra nobody
    apply refused
    rw [Grantable]
    split
    · rename_i strong
      exact fun e other member overlaps =>
        nobody ⟨e, request, before, exclusive, _, _, data, next, busy, other, member, overlaps, .inl strong⟩
    · exact fun e different other member otherExclusive overlaps =>
        nobody ⟨e, request, before, exclusive, _, _, data, next, busy, other, member, overlaps,
          .inr ⟨different, otherExclusive⟩⟩

def asks (_ : Request) (_ : Belief) (op : LockFileOp) (own : Own) : Prop :=
  ∀ exclusive lengthLow lengthHigh data, op = .lockFileEx false exclusive lengthLow lengthHigh data → own = []

theorem waits_empty (offset length : UInt64) (state : Service D Own Request LockFileOp LockFileAnswer Outcome Belief)
    (d : D) (request : Request) (before : Belief)
    (disciplined : Disciplined offset length [] [asked offset length false] state d request) :
    Program.Ensures filesOwn (asks request before) (request.program backend) (state.table d) fun _ _ => True := by
  obtain ⟨atOffset, atLength, allowed⟩ := disciplined
  cases call : request.call with
  | waitForLock shared =>
      rw [call] at allowed
      simp only [Request.program, call]
      exact ⟨fun _ _ _ _ _ => allowed, fun _ _ _ => trivial⟩
  | waitForUpgradeLock =>
      rw [call] at allowed
      simp only [Request.program, call]
      rw [Program.ensures_bind]
      change Program.Ensures filesOwn (asks request before)
        (waitForUpgradeLock request.offset request.length) (state.table d) _
      rw [waitForUpgradeLock, Program.ensures_bind, allowed, atOffset, atLength]
      -- the unlock gives up the one shared lock there is before the wait
      refine unlock_ensures offset length _ _ _ (fun _ _ _ _ waits => by cases waits) ?_ ?_ fun _ => trivial
      · intro member
        simp [asked] at member
      · intro _
        have given : [asked offset length false].erase (asked offset length false) = [] := by simp
        rw [given]
        exact ⟨fun _ _ _ _ _ => rfl, fun _ _ _ => trivial⟩
  | unlock =>
      simp only [Request.program, call]
      exact ⟨fun _ _ _ _ waits => (by cases waits), fun _ _ _ => trivial⟩
  | tryLock _ => rw [call] at allowed; exact allowed.elim
  | tryDowngradeLock => rw [call] at allowed; exact allowed.elim
  | waitForDowngradeLock => rw [call] at allowed; exact allowed.elim
  | tryUpgradeLock => rw [call] at allowed; exact allowed.elim

end

section
variable {D : Type} [DecidableEq D]

def Runs (offset length : UInt64) (state : Service D Own Request LockFileOp LockFileAnswer Outcome Belief) : Prop :=
  Service.Reachable (api backend) (Disciplined offset length [] [asked offset length false]) files (fresh []) state

theorem not_deadlocked (offset length : UInt64)
    (state : Service D Own Request LockFileOp LockFileAnswer Outcome Belief)
    (reachable : Runs offset length state) (members : D → Prop) : ¬ Deadlocked (WaitsFor state) members := by
  have follows := Service.reachable_follows (api backend) _ files filesOwn files_owned (fun _ _ => True) asks
    (fun now d request before may _ => waits_empty offset length now d request before may) (fresh []) state
    (fun d => trivial) reachable
  intro deadlocked
  obtain ⟨⟨d, member⟩, closed⟩ := deadlocked
  obtain ⟨e, blocks⟩ := (closed d member).1
  have memberE := (closed d member).2 e blocks
  obtain ⟨_, _, _, _, _, _, _, _, other, held, _⟩ := blocks
  obtain ⟨_, request, before, exclusive, lengthLow, lengthHigh, data, next, busy, _⟩ := (closed e memberE).1
  have waits := follows e
  rw [busy] at waits
  have empty := Service.follows_asks _ _ _ _ _ _ _ _ _ waits exclusive lengthLow lengthHigh data rfl
  rw [empty] at held
  cases held

end

end Windows

theorem waits_never_deadlock {D : Type} [DecidableEq D] (offset length : UInt64)
    (linux : Service D Linux.Own Request Linux.FcntlOp Linux.FcntlAnswer Outcome Belief)
    (windows : Service D Windows.Own Request Windows.LockFileOp Windows.LockFileAnswer Outcome Belief)
    (onLinux : Linux.RunsAlone offset length linux) (onWindows : Windows.Runs offset length windows) :
    (∀ members, ¬ Deadlocked (Linux.WaitsFor linux) members) ∧
      ∀ members, ¬ Deadlocked (Windows.WaitsFor windows) members :=
  ⟨Linux.not_deadlocked offset length linux onLinux, Windows.not_deadlocked offset length windows onWindows⟩

def shareRequest : Request := ⟨.waitForLock true, 0, 10⟩

def upgradeRequest : Request := ⟨.waitForUpgradeLock, 0, 10⟩

theorem upgrading_never_deadlocks :
    ∃ (linux : Service Bool Linux.Own Request Linux.FcntlOp Linux.FcntlAnswer Outcome Belief)
      (windows : Service Bool Windows.Own Request Windows.LockFileOp Windows.LockFileAnswer Outcome Belief),
      Service.Busy Upgrades (linux.party false) ∧ Service.Busy Upgrades (windows.party false) ∧
        (∀ members, ¬ Deadlocked (Linux.WaitsFor linux) members) ∧
        ∀ members, ¬ Deadlocked (Windows.WaitsFor windows) members := by
  have free : Linux.Grantable (fun _ : Bool => Linux.nothing) false (Linux.flock 0 10 (some .rdlock)) :=
    fun e _ byte _ clash => clash.2.1 rfl
  have free' : Windows.Grantable (fun _ : Bool => ([] : Windows.Own)) false
      (Windows.rangeLock 10 0 (Windows.overlapped 0) false) := fun e _ other member => absurd member List.not_mem_nil
  have onLinux := Service.reachable_call (api Linux.backend)
    (fun now d request => Disciplined 0 10 Linux.nothing (Linux.shared 0 10) now d request ∧
      UpgradesAlone now request) Linux.ofd (fresh Linux.nothing) (fresh Linux.nothing) .refl
    false shareRequest (fun _ => none) rfl ⟨⟨rfl, rfl, rfl⟩, fun upgrades => by cases upgrades⟩ _ _ rfl (.ok ()) _
    ⟨free, rfl⟩ _ rfl
  have onWindows := Service.reachable_call (api Windows.backend)
    (Disciplined 0 10 [] [Windows.asked 0 10 false]) Windows.files (fresh []) (fresh []) .refl
    false shareRequest (fun _ => none) rfl ⟨rfl, rfl, rfl⟩ _ _ rfl (.ok ()) _ ⟨free', _, rfl, rfl⟩ _ rfl
  have idle : ∀ e, ¬ Service.Busy Upgrades (Function.update
      (fresh Linux.nothing : Service Bool Linux.Own Request Linux.FcntlOp Linux.FcntlAnswer Outcome Belief).party false
      (.idle ((api Linux.backend).closes shareRequest (fun _ => none) (outcome (.ok ())))) e) := by
    rintro e ⟨_, _, _, busy, _⟩
    cases e <;> cases busy
  have waitsLinux := onLinux.tail (.begins false upgradeRequest _ rfl ⟨⟨rfl, rfl, rfl⟩, fun _ => idle⟩)
  have waitsWindows := onWindows.tail (.begins false upgradeRequest _ rfl ⟨rfl, rfl, rfl⟩)
  refine ⟨_, _, ?_, ?_, waits_never_deadlock 0 10 _ _ waitsLinux waitsWindows⟩
  · exact ⟨upgradeRequest, _, _, rfl, rfl⟩
  · exact ⟨upgradeRequest, _, _, rfl, rfl⟩

noncomputable def upgraders : Service Bool Linux.Own Request Linux.FcntlOp Linux.FcntlAnswer Outcome Belief where
  table _ := Linux.shared 0 10
  party _ := .busy upgradeRequest (shareRequest.mark Linux.offsetEnd (some .rdlock) fun _ => none)
    (.call (.ofdSetlkw (Linux.flock 0 10 (some .wrlock))) fun status => .ret (outcome status))

theorem shares_free :
    Linux.Grantable (fun _ : Bool => Linux.nothing) false (Linux.flock 0 10 (some .rdlock)) ∧
      Linux.Grantable (Function.update (fun _ : Bool => Linux.nothing) false (Linux.shared 0 10)) true
        (Linux.flock 0 10 (some .rdlock)) := by
  refine ⟨fun e _ byte _ clash => clash.2.1 rfl, fun e different byte covers clash => ?_⟩
  cases e with
  | true => exact different rfl
  | false =>
      have shared : Linux.shared 0 10 byte = some .rdlock := if_pos covers
      rw [Function.update_self, shared] at clash
      revert clash
      decide

theorem upgraders_deadlock :
    Linux.Runs 0 10 upgraders ∧ Deadlocked (Linux.WaitsFor upgraders) fun _ => True := by
  constructor
  · obtain ⟨free, free'⟩ := shares_free
    have first := Service.reachable_call (api Linux.backend)
      (Disciplined 0 10 Linux.nothing (Linux.shared 0 10)) Linux.ofd (fresh Linux.nothing) (fresh Linux.nothing) .refl
      false shareRequest (fun _ => none) rfl ⟨rfl, rfl, rfl⟩ _ _ rfl (.ok ()) _ ⟨free, rfl⟩ _ rfl
    have second := Service.reachable_call _ _ _ _ _ first true shareRequest (fun _ => none) rfl ⟨rfl, rfl, rfl⟩ _ _ rfl
      (.ok ()) _ ⟨free', rfl⟩ _ rfl
    have third := second.tail (.begins false upgradeRequest _ rfl ⟨rfl, rfl, rfl⟩)
    have fourth := third.tail (.begins true upgradeRequest _ rfl ⟨rfl, rfl, rfl⟩)
    refine (Service.ext ?_ ?_ : _ = upgraders) ▸ fourth
    · funext d
      cases d <;> rfl
    · funext d
      cases d <;> rfl
  · refine ⟨⟨false, trivial⟩, fun d _ => ⟨?_, fun _ _ => trivial⟩⟩
    have covers : (Linux.flock 0 10 (some .wrlock)).Covers 0 := by decide
    have clash : Clash (some .wrlock) (Linux.shared 0 10 0) := by decide
    exact ⟨!d, upgradeRequest, _, _, _, rfl, by simp, 0, covers, clash⟩

end FsExt.Lock
