import FsExt.Lock.Beliefs

set_option autoImplicit false

namespace FsExt.Lock.Linux

open Sys

-- `l_type` without a lock type is F_UNLCK; `l_whence` is always SEEK_SET.
structure Flock where
  start : Int
  len : Int
  type : Option LockType

inductive FcntlOp where
  | ofdSetlk (data : Flock)
  | ofdSetlkw (data : Flock)

abbrev FcntlAnswer (_ : FcntlOp) : Type := Status

def fcntl (op : FcntlOp) : Program FcntlOp FcntlAnswer Status := Program.perform op

def flock (offset length : UInt64) (type : Option LockType) : Flock where
  start := offset.toInt64.toInt
  len := length.toInt64.toInt
  type := type

def tryLock (offset length : UInt64) (type : LockType) : Program FcntlOp FcntlAnswer Status :=
  fcntl (.ofdSetlk (flock offset length (some type)))

def waitForLock (offset length : UInt64) (type : LockType) : Program FcntlOp FcntlAnswer Status :=
  fcntl (.ofdSetlkw (flock offset length (some type)))

def unlock (offset length : UInt64) : Program FcntlOp FcntlAnswer Status :=
  fcntl (.ofdSetlk (flock offset length none))

def tryDowngradeLock (offset length : UInt64) : Program FcntlOp FcntlAnswer Status := tryLock offset length .rdlock

def waitForDowngradeLock (offset length : UInt64) : Program FcntlOp FcntlAnswer Status :=
  waitForLock offset length .rdlock

def tryUpgradeLock (offset length : UInt64) : Program FcntlOp FcntlAnswer Status := tryLock offset length .wrlock

def waitForUpgradeLock (offset length : UInt64) : Program FcntlOp FcntlAnswer Status :=
  waitForLock offset length .wrlock

def offsetEnd : Nat := 2 ^ 63

def backend : Backend FcntlOp FcntlAnswer where
  tryLock := tryLock
  waitForLock := waitForLock
  tryDowngradeLock := tryDowngradeLock
  waitForDowngradeLock := waitForDowngradeLock
  tryUpgradeLock := tryUpgradeLock
  waitForUpgradeLock := waitForUpgradeLock
  unlock := unlock
  top := offsetEnd
  Fits offset length :=
    offset.toNat < offsetEnd ∧ length.toNat < offsetEnd ∧ offset.toNat + length.toNat ≤ offsetEnd

-- The open file description locks of one descriptor: one lock on each byte, the
-- latest replacing what was there.
abbrev Own := Nat → Option LockType

def Flock.Covers (data : Flock) (byte : Nat) : Prop :=
  if 0 < data.len then data.start ≤ byte ∧ byte < data.start + data.len
  else if data.len = 0 then data.start ≤ byte ∧ byte < offsetEnd
  else data.start + data.len ≤ byte ∧ byte < data.start

instance (data : Flock) (byte : Nat) : Decidable (data.Covers byte) := inferInstanceAs (Decidable (ite _ _ _))

def Flock.apply (data : Flock) (own : Own) : Own := fun byte => if data.Covers byte then data.type else own byte

def FcntlOp.data : FcntlOp → Flock
  | .ofdSetlk data => data
  | .ofdSetlkw data => data

section
variable {D : Type} [DecidableEq D]

def Grantable (table : D → Own) (d : D) (data : Flock) : Prop :=
  ∀ e, e ≠ d → ∀ byte, data.Covers byte → ¬ Clash data.type (table e byte)

-- A granted call takes effect at once, a failing one has none. F_OFD_SETLKW has
-- no answer while it cannot be granted unless it fails for a reason of its own.
def ofd (d : D) : Program.Semantics FcntlOp FcntlAnswer (D → Own) := fun op table answer table' =>
  match answer with
  | .ok () => Grantable table d op.data ∧ table' = Function.update table d (op.data.apply (table d))
  | .error _ => table' = table

end

def ofdOwn : Program.Semantics FcntlOp FcntlAnswer Own := fun op own answer own' =>
  match answer with
  | .ok () => own' = op.data.apply own
  | .error _ => own' = own

theorem ofd_owned {D : Type} [DecidableEq D] : Service.Owned (ofd (D := D)) ofdOwn where
  changes d op table answer table' step := by
    cases answer with
    | ok done => simp only [ofdOwn, step.2, Function.update_self]
    | error err => exact congrFun step d
  frame d op table answer table' e step different := by
    cases answer with
    | ok done => rw [step.2, Function.update_of_ne different]
    | error err => exact congrFun step e

theorem ofd_compatible {D : Type} [DecidableEq D] (d : D) (op : FcntlOp) (table : D → Own) (answer : Status)
    (table' : D → Own) (compatible : Compatible id table) (step : ofd d op table answer table') :
    Compatible id table' := by
  cases answer with
  | error err =>
      have same : table' = table := step
      rw [same]
      exact compatible
  | ok done =>
      obtain ⟨grantable, changed⟩ := step
      rw [changed]
      refine compatible_update id table d _ compatible fun e different byte => ?_
      simp only [id, Flock.apply]
      by_cases covers : op.data.Covers byte
      · rw [if_pos covers]
        exact grantable e different byte covers
      · rw [if_neg covers]
        exact compatible d e (Ne.symm different) byte

theorem signed_of_small (value : UInt64) (small : value.toNat < offsetEnd) : value.toInt64.toInt = value.toNat := by
  have same : value.toInt64 = Int64.ofNat value.toNat := by
    rw [← UInt64.toInt64_ofNat', UInt64.ofNat_toNat]
  rw [same, Int64.toInt_ofNat_of_lt small]

theorem flock_covers (offset length : UInt64) (type : Option LockType) (byte : Nat)
    (fits : backend.Fits offset length) :
    (flock offset length type).Covers byte ↔ Within offsetEnd offset length byte := by
  obtain ⟨smallOffset, smallLength, _⟩ := fits
  have start : (flock offset length type).start = offset.toNat := signed_of_small offset smallOffset
  have len : (flock offset length type).len = length.toNat := signed_of_small length smallLength
  rw [Flock.Covers, Within]
  rw [start, len]
  by_cases empty : length = 0
  · simp [empty]
  · have positive : 0 < length.toNat := by
      have nonzero : length.toNat ≠ 0 := fun zero => empty (UInt64.toNat_inj.mp zero)
      omega
    rw [if_pos (by omega), if_neg empty]
    omega

theorem fcntl_ensures (op : FcntlOp) (inv : FcntlOp → Own → Prop) (own : Own) (post : Status → Own → Prop)
    (here : inv op own)
    (granted : post (.ok ()) (op.data.apply own)) (refused : ∀ err, post (.error err) own) :
    Program.Ensures ofdOwn inv (fcntl op) own post := by
  refine ⟨here, ?_⟩
  intro answer own' step
  cases answer with
  | ok done =>
      have applied : own' = op.data.apply own := step
      rw [applied]
      exact granted
  | error err =>
      have same : own' = own := step
      rw [same]
      exact refused err

theorem apply_keeps (offset length : UInt64) (type : Option LockType) (own : Own) (fits : backend.Fits offset length) :
    Keeps offsetEnd id offset length own ((flock offset length type).apply own) := by
  intro byte outside
  unfold Flock.apply
  exact if_neg fun covers => outside ((flock_covers offset length type byte fits).mp covers)

theorem apply_within (offset length : UInt64) (type : Option LockType) (own : Own) (byte : Nat)
    (fits : backend.Fits offset length) (within : Within offsetEnd offset length byte) :
    (flock offset length type).apply own byte = type := by
  rw [Flock.apply]
  exact if_pos ((flock_covers offset length type byte fits).mpr within)

theorem keeps_refl (offset length : UInt64) (own : Own) : Keeps offsetEnd id offset length own own := fun _ _ => rfl

theorem lock_ensures (op : FcntlOp) (offset length : UInt64) (type : LockType) (mine : Own)
    (fits : backend.Fits offset length) (data : op.data = flock offset length (some type)) :
    Program.Ensures ofdOwn (fun _ mid => mid = mine) (fcntl op) mine (Locked offsetEnd id offset length type mine) := by
  refine fcntl_ensures op _ mine _ rfl ?_ fun _ => rfl
  rw [data]
  exact ⟨apply_keeps offset length _ mine fits,
    fun byte within => .inr (.inl (apply_within offset length _ mine byte fits within))⟩

theorem downgrade_ensures (op : FcntlOp) (offset length : UInt64) (mine : Own)
    (fits : backend.Fits offset length) (data : op.data = flock offset length (some .rdlock)) :
    Program.Ensures ofdOwn (fun _ => Keeps offsetEnd id offset length mine) (fcntl op) mine
      (Downgraded offsetEnd id offset length mine) := by
  refine fcntl_ensures op _ mine _ (keeps_refl offset length mine) ?_ fun _ => keeps_refl offset length mine
  rw [data]
  refine ⟨apply_keeps offset length _ mine fits, fun _ byte within absent => ?_⟩
  have shared := apply_within offset length (some .rdlock) mine byte fits within
  rw [id, shared] at absent
  cases absent

theorem upgrade_ensures (op : FcntlOp) (offset length : UInt64) (mine : Own)
    (fits : backend.Fits offset length) (data : op.data = flock offset length (some .wrlock)) :
    Program.Ensures ofdOwn (fun _ => Keeps offsetEnd id offset length mine) (fcntl op) mine
      (Upgraded offsetEnd id offset length mine) := by
  refine fcntl_ensures op _ mine _ (keeps_refl offset length mine) ?_ fun _ => keeps_refl offset length mine
  rw [data]
  exact ⟨apply_keeps offset length _ mine fits, fun byte within => apply_within offset length _ mine byte fits within⟩

theorem specified : Specified backend ofdOwn id where
  tryLock offset length type mine fits := lock_ensures _ offset length type mine fits rfl
  waitForLock offset length type mine fits := lock_ensures _ offset length type mine fits rfl
  tryDowngradeLock offset length mine fits := downgrade_ensures _ offset length mine fits rfl
  waitForDowngradeLock offset length mine fits := downgrade_ensures _ offset length mine fits rfl
  tryUpgradeLock offset length mine fits := upgrade_ensures _ offset length mine fits rfl
  waitForUpgradeLock offset length mine fits := upgrade_ensures _ offset length mine fits rfl
  unlock offset length mine fits :=
    fcntl_ensures _ _ mine _ (keeps_refl offset length mine) (apply_keeps offset length _ mine fits)
      fun _ => keeps_refl offset length mine

end FsExt.Lock.Linux
