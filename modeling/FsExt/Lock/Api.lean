import FsExt.Uv
import FsExt.Sys.Sessions

set_option autoImplicit false

namespace FsExt.Lock

open Sys

inductive LockType where
  | rdlock
  | wrlock
deriving DecidableEq, Repr

-- The platform functions of `platform.h` that concern locks. A descriptor is a
-- party of its own and not an argument. `top` is where a range of length zero
-- ends and `Fits` what a range needs not to overflow.
structure Backend (Op : Type) (Answer : Op → Type) where
  tryLock : UInt64 → UInt64 → LockType → Program Op Answer Status
  waitForLock : UInt64 → UInt64 → LockType → Program Op Answer Status
  tryDowngradeLock : UInt64 → UInt64 → Program Op Answer Status
  waitForDowngradeLock : UInt64 → UInt64 → Program Op Answer Status
  tryUpgradeLock : UInt64 → UInt64 → Program Op Answer Status
  waitForUpgradeLock : UInt64 → UInt64 → Program Op Answer Status
  unlock : UInt64 → UInt64 → Program Op Answer Status
  top : Nat
  Fits : UInt64 → UInt64 → Prop

-- What `fs_ext_try_lock`, `fs_ext_try_downgrade_lock` and
-- `fs_ext_try_upgrade_lock` make of a result.
def tryStatus : Status → Status
  | .error .EACCES | .error .EAGAIN | .error .EBUSY => .error .EAGAIN
  | status => status

inductive Outcome where
  | returned (value : Bool)
  | threw (err : UvError)

def tryOutcome : Status → Outcome
  | .ok () => .returned true
  | .error .EAGAIN => .returned false
  | .error err => .threw err

def outcome : Status → Outcome
  | .ok () => .returned true
  | .error err => .threw err

inductive LockCall where
  | tryLock (shared : Bool)
  | waitForLock (shared : Bool)
  | tryDowngradeLock
  | waitForDowngradeLock
  | tryUpgradeLock
  | waitForUpgradeLock
  | unlock

structure Request where
  call : LockCall
  offset : UInt64
  length : UInt64

def lockType (shared : Bool) : LockType := if shared then .rdlock else .wrlock

section
variable {Op : Type} {Answer : Op → Type}

def Request.program (backend : Backend Op Answer) (request : Request) : Program Op Answer Outcome :=
  match request.call with
  | .tryLock shared => do
      return tryOutcome (tryStatus (← backend.tryLock request.offset request.length (lockType shared)))
  | .waitForLock shared => do
      return outcome (← backend.waitForLock request.offset request.length (lockType shared))
  | .tryDowngradeLock => do
      return tryOutcome (tryStatus (← backend.tryDowngradeLock request.offset request.length))
  | .waitForDowngradeLock => do return outcome (← backend.waitForDowngradeLock request.offset request.length)
  | .tryUpgradeLock => do
      return tryOutcome (tryStatus (← backend.tryUpgradeLock request.offset request.length))
  | .waitForUpgradeLock => do return outcome (← backend.waitForUpgradeLock request.offset request.length)
  | .unlock => do return outcome (← backend.unlock request.offset request.length)

end

abbrev Belief := Nat → Option LockType

def Within (top : Nat) (offset length : UInt64) (byte : Nat) : Prop :=
  offset.toNat ≤ byte ∧ byte < if length = 0 then top else offset.toNat + length.toNat

instance (top : Nat) (offset length : UInt64) (byte : Nat) : Decidable (Within top offset length byte) :=
  inferInstanceAs (Decidable (_ ∧ _))

def Request.mark (top : Nat) (request : Request) (type : Option LockType) (belief : Belief) : Belief :=
  fun byte => if Within top request.offset request.length byte then type else belief byte

theorem mark_within (top : Nat) (request : Request) (type : Option LockType) (belief : Belief) (byte : Nat)
    (within : Within top request.offset request.length byte) : request.mark top type belief byte = type :=
  if_pos within

-- A call that takes a lock leaves the belief as it is until it succeeds; the
-- others drop it on their range from the start.
def Request.opens (top : Nat) (request : Request) (belief : Belief) : Belief :=
  match request.call with
  | .tryLock _ | .waitForLock _ => belief
  | _ => request.mark top none belief

open Classical in
noncomputable def Request.closes (top : Nat) (request : Request) (before : Belief) : Outcome → Belief
  | .returned true =>
      match request.call with
      | .tryLock shared | .waitForLock shared => request.mark top (some (lockType shared)) before
      | .tryDowngradeLock | .waitForDowngradeLock =>
          request.mark top
            (if ∀ byte, Within top request.offset request.length byte → before byte = some .wrlock then some .rdlock else none) before
      | .tryUpgradeLock | .waitForUpgradeLock =>
          request.mark top
            (if ∀ byte, Within top request.offset request.length byte → before byte ≠ none then some .wrlock else none) before
      | .unlock => request.mark top none before
  | _ => request.opens top before

section
variable {Op : Type} {Answer : Op → Type}

noncomputable def api (backend : Backend Op Answer) : Interface Request Op Answer Outcome Belief where
  program := Request.program backend
  opens := Request.opens backend.top
  closes := Request.closes backend.top

end

def Clash (left right : Option LockType) : Prop :=
  left ≠ none ∧ right ≠ none ∧ (left = some .wrlock ∨ right = some .wrlock)

instance (left right : Option LockType) : Decidable (Clash left right) := inferInstanceAs (Decidable (_ ∧ _))

def Supports (held believed : Option LockType) : Prop :=
  believed = none ∨ held = believed ∨ held = some .wrlock

theorem clash_symm (left right : Option LockType) (clash : Clash left right) : Clash right left :=
  ⟨clash.2.1, clash.1, clash.2.2.symm⟩

theorem clash_of_supported (held held' left right : Option LockType) (first : Supports held left)
    (second : Supports held' right) (clash : Clash left right) : Clash held held' := by
  obtain ⟨some_, some_', exclusive⟩ := clash
  rcases first with none_ | rfl | rfl
  · exact absurd none_ some_
  · rcases second with none_ | rfl | rfl
    · exact absurd none_ some_'
    · exact ⟨some_, some_', exclusive⟩
    · exact ⟨some_, by simp, .inr rfl⟩
  · rcases second with none_ | rfl | rfl
    · exact absurd none_ some_'
    · exact ⟨by simp, some_', .inl rfl⟩
    · exact ⟨by simp, by simp, .inl rfl⟩

theorem supports_none (held : Option LockType) : Supports held none := .inl rfl

theorem supports_rdlock (held : Option LockType) (present : held ≠ none) : Supports held (some .rdlock) := by
  cases held with
  | none => exact absurd rfl present
  | some type =>
      cases type with
      | rdlock => exact .inr (.inl rfl)
      | wrlock => exact .inr (.inr rfl)

end FsExt.Lock
