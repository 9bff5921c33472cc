import FsExt.Lock.Linux
import FsExt.Lock.Windows
import FsExt.Sys.Turns

set_option autoImplicit false

namespace FsExt.Lock

open Sys

def WouldBlock (err : UvError) : Prop := tryStatus (.error err) = .error .EAGAIN

theorem returned_false_iff (status : Status) :
    tryOutcome (tryStatus status) = .returned false ↔ ∃ err, status = .error err ∧ WouldBlock err := by
  cases status with
  | ok done => simp [tryStatus, tryOutcome]
  | error err => cases err <;> simp [tryStatus, tryOutcome, WouldBlock]

theorem returned_true_iff (status : Status) : tryOutcome (tryStatus status) = .returned true ↔ status = .ok () := by
  cases status with
  | ok done => simp [tryStatus, tryOutcome]
  | error err => cases err <;> simp [tryStatus, tryOutcome]

theorem outcome_true_iff (status : Status) : outcome status = .returned true ↔ status = .ok () := by
  cases status with
  | ok done => simp [outcome]
  | error err => simp [outcome]

def shown (wait : Bool) (status : Status) : Outcome := if wait then outcome status else tryOutcome (tryStatus status)

theorem shown_true_iff (wait : Bool) (status : Status) : shown wait status = .returned true ↔ status = .ok () := by
  cases wait with
  | false => exact returned_true_iff status
  | true => exact outcome_true_iff status

namespace Linux

section
variable {D : Type} [DecidableEq D]

structure HoldsShared (table : D → Own) (d : D) (offset length : UInt64) : Prop where
  fits : backend.Fits offset length
  shared : ∀ byte, Within offsetEnd offset length byte → table d byte = some .rdlock

def strict (d : D) : Program.Semantics FcntlOp FcntlAnswer (D → Own) := fun op table answer table' =>
  ofd d op table answer table' ∧ ∀ err, answer = .error err → WouldBlock err → ¬ Grantable table d op.data

theorem strict_owned : Service.Owned (strict (D := D)) ofdOwn where
  changes d op table answer table' step := ofd_owned.changes d op table answer table' step.1
  frame d op table answer table' e step different := ofd_owned.frame d op table answer table' e step.1 different

end

def GrantsExclusive {D : Type} (offset length : UInt64) (event : Event D FcntlOp FcntlAnswer) : Prop :=
  event.answer = .ok () ∧ event.op.data.type = some .wrlock ∧
    ∃ byte, Within offsetEnd offset length byte ∧ event.op.data.Covers byte

theorem fits_within (offset length : UInt64) (fits : backend.Fits offset length) :
    Within offsetEnd offset length offset.toNat := by
  obtain ⟨small, _, _⟩ := fits
  refine ⟨Nat.le_refl _, ?_⟩
  split
  · exact small
  · rename_i nonempty
    have positive : length.toNat ≠ 0 := fun zero => nonempty (UInt64.toNat_inj.mp zero)
    omega

theorem held_excludes {D : Type} [DecidableEq D] (d e : D) (offset length : UInt64) (op : FcntlOp) (answer : Status)
    (table table' : D → Own) (different : e ≠ d)
    (held : ∀ byte, Within offsetEnd offset length byte → table d byte ≠ none)
    (step : ofd e op table answer table') :
    ¬ GrantsExclusive offset length (⟨e, op, answer⟩ : Event D FcntlOp FcntlAnswer) := by
  intro grants
  obtain ⟨granted, exclusive, byte, within, covers⟩ := grants
  simp only at granted exclusive covers
  subst answer
  refine step.1 d (Ne.symm different) byte covers ⟨?_, held byte within, .inl exclusive⟩
  rw [exclusive]
  exact Option.some_ne_none _

end Linux

namespace Windows

def lockOp (failImmediately exclusive : Bool) (offset length : UInt64) : LockFileOp :=
  .lockFileEx failImmediately exclusive (wholeLength length).toUInt32 (high (wholeLength length)) (overlapped offset)

def unlockOp (offset length : UInt64) : LockFileOp :=
  .unlockFileEx (wholeLength length).toUInt32 (high (wholeLength length)) (overlapped offset)

def LockFileOp.taken : LockFileOp → Option RangeLock
  | .lockFileEx _ exclusive lengthLow lengthHigh data => some (rangeLock lengthLow lengthHigh data exclusive)
  | .unlockFileEx _ _ _ => none

section
variable {D : Type}

structure HoldsShared (table : D → Own) (d : D) (offset length : UInt64) : Prop where
  fits : backend.Fits offset length
  shared : asked offset length false ∈ table d

theorem lock_op_may (table : D → Own) (d : D) (failImmediately exclusive : Bool) (offset length : UInt64) :
    (lockOp failImmediately exclusive offset length).May table d ↔ Grantable table d (asked offset length exclusive) := by
  rw [lockOp, LockFileOp.May, range_lock_asked]

theorem lock_op_effect (own : Own) (failImmediately exclusive : Bool) (offset length : UInt64) :
    (lockOp failImmediately exclusive offset length).effect own = some (asked offset length exclusive :: own) := by
  rw [lockOp, LockFileOp.effect, range_lock_asked]

theorem unlock_op_effect (own : Own) (offset length : UInt64) :
    (unlockOp offset length).effect own =
      if asked offset length true ∈ own then some (own.erase (asked offset length true))
      else if asked offset length false ∈ own then some (own.erase (asked offset length false))
      else none := by
  rw [unlockOp, LockFileOp.effect, release, range_lock_asked, range_lock_asked]

theorem fits_within (offset length : UInt64) (fits : backend.Fits offset length) :
    Within sizeMax.toNat offset length offset.toNat := by
  have room : offset.toNat + (wholeLength length).toNat ≤ sizeMax.toNat := fits
  have max : 0 < sizeMax.toNat := by decide
  refine ⟨Nat.le_refl _, ?_⟩
  split
  · rename_i empty
    rw [wholeLength, if_pos empty] at room
    omega
  · rename_i nonempty
    have positive : length.toNat ≠ 0 := fun zero => nonempty (UInt64.toNat_inj.mp zero)
    omega

variable [DecidableEq D]

def strict (d : D) : Program.Semantics LockFileOp LockFileAnswer (D → Own) := fun op table answer table' =>
  files d op table answer table' ∧ ∀ err, answer = .error err → WouldBlock err → ¬ op.May table d

theorem strict_owned : Service.Owned (strict (D := D)) filesOwn where
  changes d op table answer table' step := files_owned.changes d op table answer table' step.1
  frame d op table answer table' e step different := files_owned.frame d op table answer table' e step.1 different

def GrantsExclusive (offset length : UInt64) (event : Event D LockFileOp LockFileAnswer) : Prop :=
  event.answer = .ok () ∧ ∃ lock, event.op.taken = some lock ∧ lock.exclusive = true ∧
    ∃ byte, Within sizeMax.toNat offset length byte ∧ lock.Covers byte

theorem held_excludes (d e : D) (offset length : UInt64) (op : LockFileOp) (answer : Status) (table table' : D → Own)
    (held : ∀ byte, Within sizeMax.toNat offset length byte → level (table d) byte ≠ none)
    (step : files e op table answer table') :
    ¬ GrantsExclusive offset length (⟨e, op, answer⟩ : Event D LockFileOp LockFileAnswer) := by
  intro grants
  obtain ⟨granted, taken, made, exclusive, byte, within, covers⟩ := grants
  simp only at granted made
  subst answer
  cases op with
  | unlockFileEx lengthLow lengthHigh data => cases made
  | lockFileEx failImmediately strong lengthLow lengthHigh data =>
      cases made
      have may : Grantable table e (rangeLock lengthLow lengthHigh data strong) := step.1
      rw [Grantable, if_pos exclusive] at may
      obtain ⟨lock, member, covered⟩ := (level_none (table d) byte).mp (held byte within)
      exact may d lock member (overlaps_of_covers _ _ byte covers covered)

end

end Windows

end FsExt.Lock
