import FsExt.Lock.Plans
import FsExt.Sys.Runs

set_option autoImplicit false

namespace FsExt.Lock

open Sys

section
variable {Op View : Type} {Answer : Op → Type} (opens : Request → View → View)
  (closes : Request → View → Outcome → View)

def callsOn (backend : Backend Op Answer) : Interface Request Op Answer Outcome View where
  program := Request.program backend
  opens := opens
  closes := closes

end

def WholeOnly {D Own Op View : Type} {Answer : Op → Type} (_ : Service D Own Request Op Answer Outcome View) (_ : D)
    (request : Request) : Prop :=
  Apple.Whole request

theorem whole_covers (type : Option LockType) (byte : Nat) :
    (Linux.flock 0 0 type).Covers byte ↔ byte < Apple.offsetEnd := by
  have fits : Linux.backend.Fits 0 0 := ⟨by decide, by decide, by decide⟩
  rw [Linux.flock_covers 0 0 type byte fits, Within, if_pos rfl]
  exact ⟨fun within => within.2, fun below => ⟨Nat.zero_le byte, below⟩⟩

theorem apply_whole (type : Option LockType) (own : Apple.Own) :
    (Linux.flock 0 0 type).apply (Apple.level own) = Apple.level type := by
  funext byte
  rw [Linux.Flock.apply, Apple.level, Apple.level]
  by_cases below : byte < Apple.offsetEnd
  · rw [if_pos ((whole_covers type byte).mpr below), if_pos below]
    rfl
  · rw [if_neg (mt (whole_covers type byte).mp below), if_neg below, if_neg below]

theorem grantable_whole {D : Type} (table : D → Apple.Own) (d : D) (type : LockType) :
    Linux.Grantable (fun e => Apple.level (table e)) d (Linux.flock 0 0 (some type)) ↔ Apple.Grantable table d type := by
  constructor
  · intro grantable e different clash
    have start : 0 < Apple.offsetEnd := by decide
    have same : Apple.level (table e) 0 = table e := if_pos start
    refine grantable e different 0 ((whole_covers (some type) 0).mpr start) ?_
    simp only [same]
    exact clash
  · intro grantable e different byte covers clash
    have below := (whole_covers (some type) byte).mp covers
    simp only [Apple.level, if_pos below] at clash
    exact grantable e different clash

section
variable {D : Type} [DecidableEq D] (may : UvError → Prop)

def Mirrored (linux : Program Linux.FcntlOp Linux.FcntlAnswer Outcome)
    (apple : Program Apple.FlockOp Apple.FlockAnswer Outcome) : Prop :=
  ∃ op op' next next', ∃ fate : Status → Apple.FlockAnswer op', linux = .call op next ∧ apple = .call op' next' ∧
    ∀ status, (∃ result, next status = .ret result ∧ next' (fate status) = .ret result) ∧
      ∀ (table : D → Apple.Own) (d : D) (table' : D → Linux.Own),
        Linux.steady may d op (fun e => Apple.level (table e)) status table' →
        ∃ own, table' = Function.update (fun e => Apple.level (table e)) d (Apple.level own) ∧
          Apple.steady may d op' table (fate status) (Function.update table d own)

theorem mirrored_take (type : LockType) (nonblock : Bool) (shown : Status → Outcome) :
    Mirrored (D := D) may
      (.call ((Plan.take type).setlk 0 0 nonblock) fun status => .ret (shown status))
      (Plan.flockThen shown nonblock type) := by
  refine ⟨_, .takes type nonblock, _, _, some, rfl, rfl, fun status => ⟨⟨shown status, rfl, rfl⟩, ?_⟩⟩
  intro table d table' step
  have data := Plan.setlk_data 0 0 nonblock (.take type)
  cases status with
  | ok done =>
      obtain ⟨⟨grantable, changed⟩, _⟩ := step
      rw [data, Plan.wanted] at grantable changed
      rw [apply_whole] at changed
      exact ⟨some type, changed, ⟨(grantable_whole table d type).mp grantable, rfl⟩, trivial⟩
  | error err =>
      obtain ⟨unchanged, excused⟩ := step
      have same : table' = fun e => Apple.level (table e) := unchanged
      refine ⟨table d, same.trans (Function.update_eq_self d _).symm, .inl (Function.update_eq_self d table), ?_⟩
      rcases ((Linux.setlk_excused may d _ 0 0 nonblock (.take type) err).mp excused).2 with
        trouble | ⟨tries, again, refused⟩
      · exact .inl trouble
      · exact .inr ⟨tries, again, mt (grantable_whole table d type).mpr refused⟩

theorem mirrored_release (shown : Status → Outcome) :
    Mirrored (D := D) may (.call (Plan.release.setlk 0 0 false) fun status => .ret (shown status))
      (.call .unlocks fun status => .ret (shown status)) := by
  refine ⟨_, .unlocks, _, _, id, rfl, rfl, fun status => ⟨⟨shown status, rfl, rfl⟩, ?_⟩⟩
  intro table d table' step
  cases status with
  | ok done =>
      obtain ⟨⟨_, changed⟩, _⟩ := step
      rw [Plan.setlk_data, Plan.wanted, apply_whole] at changed
      exact ⟨none, changed, rfl, trivial⟩
  | error err => exact absurd rfl step.2.1

theorem program_mirrored (request : Request) (whole : Apple.Whole request) :
    Mirrored (D := D) may (request.program Linux.backend) (request.program Apple.backend) := by
  rw [linux_plan, apple_plan request whole, whole.1, whole.2]
  obtain ⟨call, offset, length⟩ := request
  cases call with
  | tryLock shared => exact mirrored_take may (lockType shared) true _
  | waitForLock shared => exact mirrored_take may (lockType shared) false _
  | tryDowngradeLock => exact mirrored_take may .rdlock true _
  | waitForDowngradeLock => exact mirrored_take may .rdlock false _
  | tryUpgradeLock => exact mirrored_take may .wrlock true _
  | waitForUpgradeLock => exact mirrored_take may .wrlock false _
  | unlock => exact mirrored_release may _

end

section
variable {D View : Type}

inductive Alongside : Party Request Linux.FcntlOp Linux.FcntlAnswer Outcome View →
    Party Request Apple.FlockOp Apple.FlockAnswer Outcome View → Prop where
  | idle (now : View) : Alongside (.idle now) (.idle now)
  | busy (request : Request) (before : View) (whole : Apple.Whole request) :
      Alongside (.busy request before (request.program Linux.backend))
        (.busy request before (request.program Apple.backend))

structure Mirrors (linux : Service D Linux.Own Request Linux.FcntlOp Linux.FcntlAnswer Outcome View)
    (apple : Service D Apple.Own Request Apple.FlockOp Apple.FlockAnswer Outcome View) : Prop where
  table : linux.table = fun d => Apple.level (apple.table d)
  party : ∀ d, Alongside (linux.party d) (apple.party d)

variable [DecidableEq D]

theorem mirrors_update (linux linux' : Service D Linux.Own Request Linux.FcntlOp Linux.FcntlAnswer Outcome View)
    (apple apple' : Service D Apple.Own Request Apple.FlockOp Apple.FlockAnswer Outcome View) (d : D)
    (mirrors : Mirrors linux apple) (left : Party Request Linux.FcntlOp Linux.FcntlAnswer Outcome View)
    (right : Party Request Apple.FlockOp Apple.FlockAnswer Outcome View) (along : Alongside left right)
    (partyL : linux'.party = Function.update linux.party d left)
    (partyR : apple'.party = Function.update apple.party d right)
    (table : linux'.table = fun e => Apple.level (apple'.table e)) : Mirrors linux' apple' := by
  refine ⟨table, fun e => ?_⟩
  rw [partyL, partyR]
  by_cases same : e = d
  · subst e
    rw [Function.update_self, Function.update_self]
    exact along
  · rw [Function.update_of_ne same, Function.update_of_ne same]
    exact mirrors.party e

variable (may : UvError → Prop) (opens : Request → View → View) (closes : Request → View → Outcome → View)

theorem mirrors_step (linux linux' : Service D Linux.Own Request Linux.FcntlOp Linux.FcntlAnswer Outcome View)
    (apple : Service D Apple.Own Request Apple.FlockOp Apple.FlockAnswer Outcome View) (mirrors : Mirrors linux apple)
    (step : Service.Step (callsOn opens closes Linux.backend) WholeOnly (Linux.steady may) linux linux') :
    ∃ apple', Service.Step (callsOn opens closes Apple.backend) WholeOnly (Apple.steady may) apple apple' ∧
      Mirrors linux' apple' := by
  cases step with
  | begins d request before idle whole =>
      have along := mirrors.party d
      rw [idle] at along
      obtain ⟨op, op', next, next', fate, left, right, _⟩ := program_mirrored (D := D) may request whole
      have idle' : apple.party d = .idle before := by
        generalize at_ : apple.party d = party at along
        cases along
        rfl
      refine ⟨_, .begins d request before idle' whole, ?_⟩
      refine mirrors_update linux _ apple _ d mirrors _ _ (.busy request before whole) ?_ ?_ mirrors.table
      · simp only [callsOn, left, Service.resume]
      · simp only [callsOn, right, Service.resume]
  | asks d request before op next answer table busy answered =>
      have along := mirrors.party d
      rw [busy] at along
      generalize at_ : apple.party d = party at along
      generalize made : Program.call op next = program at along
      cases along with
      | busy _ _ whole =>
          obtain ⟨op₁, op', next₁, next', fate, left, right, each⟩ := program_mirrored (D := D) may request whole
          rw [left] at made
          cases made
          obtain ⟨⟨result, ends, ends'⟩, kernel⟩ := each answer
          rw [mirrors.table] at answered
          obtain ⟨own, changed, allowed⟩ := kernel apple.table d table answered
          rw [right] at at_
          refine ⟨_, .asks d request before op' next' (fate answer) _ at_ allowed, ?_⟩
          refine mirrors_update linux _ apple _ d mirrors _ _ (.idle (closes request before result)) ?_ ?_ ?_
          · simp only [ends, Service.resume, callsOn]
          · simp only [ends', Service.resume, callsOn]
          · rw [changed]
            funext e
            by_cases same : e = d
            · subst e
              simp only [Function.update_self]
            · simp only [Function.update_of_ne same]

theorem whole_file_runs_mirrored (first : View)
    (linux : Service D Linux.Own Request Linux.FcntlOp Linux.FcntlAnswer Outcome View)
    (reachable : Service.Reachable (callsOn opens closes Linux.backend) WholeOnly (Linux.steady may)
      ⟨fun _ _ => none, fun _ => .idle first⟩ linux) :
    ∃ apple, Service.Reachable (callsOn opens closes Apple.backend) WholeOnly (Apple.steady may)
        ⟨fun _ => none, fun _ => .idle first⟩ apple ∧ Mirrors linux apple := by
  refine simulated _ _ Mirrors ?_ _ _ ⟨?_, fun d => .idle first⟩ linux reachable
  · intro now after other mirrors step
    obtain ⟨other', step', mirrors'⟩ := mirrors_step may opens closes now after other mirrors step
    exact ⟨other', .single step', mirrors'⟩
  · funext d byte
    exact (ite_self none).symm

end

def wholeRequest : Request := ⟨.tryLock false, 0, 0⟩

theorem whole_file_lock_mirrored :
    ∃ (linux : Service Bool Linux.Own Request Linux.FcntlOp Linux.FcntlAnswer Outcome (Option LockType))
      (apple : Service Bool Apple.Own Request Apple.FlockOp Apple.FlockAnswer Outcome (Option LockType)),
      linux.party = Function.update (fun _ => .idle none) false (.idle (some .wrlock)) ∧ Mirrors linux apple := by
  let nothing : Bool → Linux.Own := fun _ _ => none
  let taken := Function.update nothing false ((Linux.flock 0 0 (some .wrlock)).apply fun _ => none)
  have free : Linux.Grantable nothing false (Linux.flock 0 0 (some .wrlock)) := fun e _ byte _ clash => clash.2.1 rfl
  have held : ¬ Linux.Grantable taken true (Linux.flock 0 0 (some .wrlock)) := fun grantable =>
    grantable false (by decide) 0 (by decide) (by decide)
  have locked := Service.reachable_call (callsOn Apple.opens Apple.closes Linux.backend) WholeOnly
    (Linux.steady fun _ => False) ⟨nothing, fun _ => .idle none⟩ ⟨nothing, fun _ => .idle none⟩ .refl false wholeRequest
    none rfl ⟨rfl, rfl⟩ (.ofdSetlk (Linux.flock 0 0 (some .wrlock))) _ rfl (.ok ()) taken ⟨⟨free, rfl⟩, trivial⟩ _ rfl
  have refused := Service.reachable_call _ _ _ _ _ locked true wholeRequest none rfl ⟨rfl, rfl⟩
    (.ofdSetlk (Linux.flock 0 0 (some .wrlock))) _ rfl (.error .EAGAIN) taken
    ⟨rfl, Option.some_ne_none _, .inr ⟨rfl, held⟩⟩ _ rfl
  obtain ⟨apple, _, mirrors⟩ := whole_file_runs_mirrored (fun _ => False) Apple.opens Apple.closes none _ refused
  refine ⟨_, apple, ?_, mirrors⟩
  funext d
  cases d <;> rfl

end FsExt.Lock
