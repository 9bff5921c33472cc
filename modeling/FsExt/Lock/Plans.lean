import FsExt.Lock.Apple
import FsExt.Lock.Held

set_option autoImplicit false

namespace FsExt.Lock

open Sys

inductive Plan where
  | take (type : LockType)
  | lower
  | raise
  | release

def LockCall.plan : LockCall → Plan
  | .tryLock shared | .waitForLock shared => .take (lockType shared)
  | .tryDowngradeLock | .waitForDowngradeLock => .lower
  | .tryUpgradeLock | .waitForUpgradeLock => .raise
  | .unlock => .release

def LockCall.tries : LockCall → Bool
  | .tryLock _ | .tryDowngradeLock | .tryUpgradeLock => true
  | _ => false

def LockCall.shown (call : LockCall) (status : Status) : Outcome :=
  if call.tries then tryOutcome (tryStatus status) else outcome status

namespace Plan

section
variable (offset length : UInt64) (shown : Status → Outcome) (nonblock : Bool)

def lockThen (exclusive : Bool) : Program Windows.LockFileOp Windows.LockFileAnswer Outcome :=
  .call (Windows.lockOp nonblock exclusive offset length) fun status => .ret (shown status)

def unlockThen : Program Windows.LockFileOp Windows.LockFileAnswer Outcome :=
  .call (Windows.unlockOp offset length) fun status => .ret (shown status)

def lowerThen : Status → Program Windows.LockFileOp Windows.LockFileAnswer Outcome
  | .error err => .ret (shown (.error err))
  | .ok () => unlockThen offset length shown

def raiseThen : Status → Program Windows.LockFileOp Windows.LockFileAnswer Outcome
  | .error err => .ret (shown (.error err))
  | .ok () => lockThen offset length shown nonblock true

def windows : Plan → Program Windows.LockFileOp Windows.LockFileAnswer Outcome
  | .take type => lockThen offset length shown nonblock (type = .wrlock)
  | .lower => .call (Windows.lockOp nonblock false offset length) (lowerThen offset length shown)
  | .raise => .call (Windows.unlockOp offset length) (raiseThen offset length shown nonblock)
  | .release => unlockThen offset length shown

def wanted : Plan → Option LockType
  | .take type => some type
  | .lower => some .rdlock
  | .raise => some .wrlock
  | .release => none

-- Linux unlocks without waiting in any case.
def setlk : Plan → Linux.FcntlOp
  | .release => .ofdSetlk (Linux.flock offset length none)
  | plan =>
      if nonblock then .ofdSetlk (Linux.flock offset length plan.wanted)
      else .ofdSetlkw (Linux.flock offset length plan.wanted)

def linux (plan : Plan) : Program Linux.FcntlOp Linux.FcntlAnswer Outcome :=
  .call (plan.setlk offset length nonblock) fun status => .ret (shown status)

def retakeThen (type : LockType) : Program Apple.FlockOp Apple.FlockAnswer Outcome :=
  .call (.retakes type nonblock) fun status => .ret (shown status)

def flockThen (type : LockType) : Program Apple.FlockOp Apple.FlockAnswer Outcome :=
  .call (.takes type nonblock) fun answer =>
    match answer with
    | some status => .ret (shown status)
    | none => retakeThen shown nonblock type

def apple : Plan → Program Apple.FlockOp Apple.FlockAnswer Outcome
  | .take type => flockThen shown nonblock type
  | .lower => flockThen shown nonblock .rdlock
  | .raise => flockThen shown nonblock .wrlock
  | .release => .call .unlocks fun status => .ret (shown status)

end

theorem setlk_data (offset length : UInt64) (nonblock : Bool) (plan : Plan) :
    (plan.setlk offset length nonblock).data = Linux.flock offset length plan.wanted := by
  cases plan <;> cases nonblock <;> rfl

end Plan

theorem windows_plan (request : Request) :
    request.program Windows.backend =
      request.call.plan.windows request.offset request.length request.call.shown request.call.tries := by
  obtain ⟨call, offset, length⟩ := request
  cases call with
  | tryLock shared => rfl
  | waitForLock shared => rfl
  | unlock => rfl
  | _ =>
      refine congrArg (Program.call _) (funext fun status => ?_)
      cases status <;> rfl

theorem linux_plan (request : Request) :
    request.program Linux.backend =
      request.call.plan.linux request.offset request.length request.call.shown request.call.tries := by
  obtain ⟨call, offset, length⟩ := request
  cases call <;> rfl

theorem apple_plan (request : Request) (whole : Apple.Whole request) :
    request.program Apple.backend = request.call.plan.apple request.call.shown request.call.tries := by
  obtain ⟨call, offset, length⟩ := request
  obtain ⟨rfl, rfl⟩ : offset = 0 ∧ length = 0 := whole
  cases call with
  | unlock => rfl
  | _ =>
      refine congrArg (Program.call _) (funext fun answer => ?_)
      cases answer <;> rfl

theorem shown_refused (call : LockCall) (tries : call.tries = true) :
    call.shown (.error .EBUSY) = .returned false ∧ call.shown (.error .EAGAIN) = .returned false := by
  rw [LockCall.shown, if_pos tries, LockCall.shown, if_pos tries]
  exact ⟨rfl, rfl⟩

namespace Windows

section
variable {D : Type} [DecidableEq D] (may : UvError → Prop) (d : D)

-- A lock call fails for a reason of its own, or is refused because of the locks
-- there are. What is locked can be unlocked.
def LockFileOp.Excused (table : D → Own) : (op : LockFileOp) → LockFileAnswer op → Prop
  | .lockFileEx failImmediately exclusive lengthLow lengthHigh data, .error err =>
      may err ∨ failImmediately = true ∧ err = .EBUSY ∧
        ¬ Grantable table d (rangeLock lengthLow lengthHigh data exclusive)
  | .unlockFileEx lengthLow lengthHigh data, .error _ => release lengthLow lengthHigh data (table d) = none
  | _, .ok _ => True

def steady : Program.Semantics LockFileOp LockFileAnswer (D → Own) := fun op table answer table' =>
  files d op table answer table' ∧ op.Excused may d table answer

variable (table table' : D → Own) (offset length : UInt64)

theorem lock_answered (nonblock exclusive : Bool) (answer : Status)
    (step : steady may d (lockOp nonblock exclusive offset length) table answer table') :
    (answer = .ok () ∧ Grantable table d (asked offset length exclusive) ∧
      table' = Function.update table d (asked offset length exclusive :: table d)) ∨
      ∃ err, answer = .error err ∧ (may err ∨ nonblock = true ∧ err = .EBUSY ∧
        ¬ Grantable table d (asked offset length exclusive)) ∧ table' = Function.update table d (table d) := by
  cases answer with
  | ok done =>
      obtain ⟨allowed, own, effect, changed⟩ := step.1
      rw [lock_op_effect] at effect
      cases effect
      exact .inl ⟨rfl, (lock_op_may table d nonblock exclusive offset length).mp allowed, changed⟩
  | error err =>
      have excused := step.2
      rw [lockOp, LockFileOp.Excused, range_lock_asked] at excused
      exact .inr ⟨err, rfl, excused, step.1.trans (Function.update_eq_self d table).symm⟩

theorem lock_granted (nonblock exclusive : Bool) (grantable : Grantable table d (asked offset length exclusive)) :
    steady may d (lockOp nonblock exclusive offset length) table (.ok ())
      (Function.update table d (asked offset length exclusive :: table d)) :=
  ⟨⟨(lock_op_may table d nonblock exclusive offset length).mpr grantable, _, lock_op_effect _ _ _ _ _, rfl⟩, trivial⟩

theorem lock_refused (nonblock exclusive : Bool) (err : UvError)
    (excused : may err ∨ nonblock = true ∧ err = .EBUSY ∧ ¬ Grantable table d (asked offset length exclusive)) :
    steady may d (lockOp nonblock exclusive offset length) table (.error err) table := by
  refine ⟨rfl, ?_⟩
  rw [lockOp, LockFileOp.Excused, range_lock_asked]
  exact excused

theorem unlock_granted (own : Own) (effect : (unlockOp offset length).effect (table d) = some own) :
    steady may d (unlockOp offset length) table (.ok ()) (Function.update table d own) :=
  ⟨⟨trivial, own, effect, rfl⟩, trivial⟩

theorem unlock_answered (answer : Status) (own : Own) (effect : (unlockOp offset length).effect (table d) = some own)
    (step : steady may d (unlockOp offset length) table answer table') :
    answer = .ok () ∧ table' = Function.update table d own := by
  cases answer with
  | ok done =>
      obtain ⟨_, own', effect', changed⟩ := step.1
      obtain rfl := Option.some.inj (effect.symm.trans effect')
      exact ⟨rfl, changed⟩
  | error err =>
      have stays : (unlockOp offset length).effect (table d) = none := step.2
      rw [effect] at stays
      cases stays

end

end Windows

namespace Apple

section
variable {D : Type} [DecidableEq D] (may : UvError → Prop) (d : D)

def FlockOp.Excused (table : D → Own) : (op : FlockOp) → FlockAnswer op → Prop
  | .takes type nonblock, some (.error err) =>
      may err ∨ nonblock = true ∧ err = .EAGAIN ∧ ¬ Grantable table d type
  | .retakes type nonblock, .error err => may err ∨ nonblock = true ∧ err = .EAGAIN ∧ ¬ Grantable table d type
  | .unlocks, .error _ => False
  | _, _ => True

-- flock(2) as its manual has it: an unlock does not fail, a refusal has its reason.
def steady : Program.Semantics FlockOp FlockAnswer (D → Own) := fun op table answer table' =>
  flocks d op table answer table' ∧ op.Excused may d table answer

end

end Apple

namespace Linux

section
variable {D : Type} (may : UvError → Prop) (d : D)

def FcntlOp.Excused (table : D → Own) : (op : FcntlOp) → FcntlAnswer op → Prop
  | .ofdSetlk data, .error err => data.type ≠ none ∧ (may err ∨ err = .EAGAIN ∧ ¬ Grantable table d data)
  | .ofdSetlkw data, .error err => data.type ≠ none ∧ may err
  | _, .ok _ => True

theorem setlk_excused (table : D → Own) (offset length : UInt64) (tries : Bool) (plan : Plan) (err : UvError) :
    (plan.setlk offset length tries).Excused may d table (.error err) ↔
      plan.wanted ≠ none ∧ (may err ∨ tries = true ∧ err = .EAGAIN ∧
        ¬ Grantable table d (flock offset length plan.wanted)) := by
  cases plan with
  | release => exact ⟨fun excused => absurd rfl excused.1, fun excused => absurd rfl excused.1⟩
  | _ =>
      cases tries
      · simp [Plan.setlk, FcntlOp.Excused, Plan.wanted, flock]
      · simp [Plan.setlk, FcntlOp.Excused, Plan.wanted, flock]

end

section
variable {D : Type} [DecidableEq D] (may : UvError → Prop) (d : D)

def steady : Program.Semantics FcntlOp FcntlAnswer (D → Own) := fun op table answer table' =>
  ofd d op table answer table' ∧ op.Excused may d table answer

end

end Linux

end FsExt.Lock
