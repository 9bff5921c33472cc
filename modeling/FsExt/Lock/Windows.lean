import FsExt.Lock.Beliefs

set_option autoImplicit false

namespace FsExt.Lock.Windows

open Sys

structure Overlapped where
  offset : UInt32
  offsetHigh : UInt32

inductive LockFileOp where
  | lockFileEx (failImmediately exclusive : Bool) (lengthLow lengthHigh : UInt32) (data : Overlapped)
  | unlockFileEx (lengthLow lengthHigh : UInt32) (data : Overlapped)

abbrev LockFileAnswer (_ : LockFileOp) : Type := Status

def lockFileEx (failImmediately exclusive : Bool) (lengthLow lengthHigh : UInt32) (data : Overlapped) :
    Program LockFileOp LockFileAnswer Status :=
  Program.perform (LockFileOp.lockFileEx failImmediately exclusive lengthLow lengthHigh data)

def unlockFileEx (lengthLow lengthHigh : UInt32) (data : Overlapped) : Program LockFileOp LockFileAnswer Status :=
  Program.perform (LockFileOp.unlockFileEx lengthLow lengthHigh data)

def sizeMax : UInt64 := 0xFFFFFFFFFFFFFFFF

def wholeLength (length : UInt64) : UInt64 := if length = 0 then sizeMax else length

def high (value : UInt64) : UInt32 := (value >>> 32).toUInt32

def overlapped (offset : UInt64) : Overlapped where
  offset := offset.toUInt32
  offsetHigh := high offset

def tryLock (offset length : UInt64) (type : LockType) : Program LockFileOp LockFileAnswer Status :=
  lockFileEx true (type = .wrlock) (wholeLength length).toUInt32 (high (wholeLength length)) (overlapped offset)

def waitForLock (offset length : UInt64) (type : LockType) : Program LockFileOp LockFileAnswer Status :=
  lockFileEx false (type = .wrlock) (wholeLength length).toUInt32 (high (wholeLength length)) (overlapped offset)

def unlock (offset length : UInt64) : Program LockFileOp LockFileAnswer Status :=
  unlockFileEx (wholeLength length).toUInt32 (high (wholeLength length)) (overlapped offset)

def tryDowngradeLock (offset length : UInt64) : Program LockFileOp LockFileAnswer Status := do
  match ← tryLock offset length .rdlock with
  | .error err => return .error err
  | .ok () => unlock offset length

def waitForDowngradeLock (offset length : UInt64) : Program LockFileOp LockFileAnswer Status := do
  match ← waitForLock offset length .rdlock with
  | .error err => return .error err
  | .ok () => unlock offset length

def tryUpgradeLock (offset length : UInt64) : Program LockFileOp LockFileAnswer Status := do
  match ← unlock offset length with
  | .error err => return .error err
  | .ok () => tryLock offset length .wrlock

def waitForUpgradeLock (offset length : UInt64) : Program LockFileOp LockFileAnswer Status := do
  match ← unlock offset length with
  | .error err => return .error err
  | .ok () => waitForLock offset length .wrlock

def backend : Backend LockFileOp LockFileAnswer where
  tryLock := tryLock
  waitForLock := waitForLock
  tryDowngradeLock := tryDowngradeLock
  waitForDowngradeLock := waitForDowngradeLock
  tryUpgradeLock := tryUpgradeLock
  waitForUpgradeLock := waitForUpgradeLock
  unlock := unlock
  top := sizeMax.toNat
  Fits offset length := offset.toNat + (wholeLength length).toNat ≤ sizeMax.toNat

-- The locks of one handle, each with the range it was asked for. They stack: a
-- shared lock may lie on an exclusive one of the same handle.
structure RangeLock where
  start : Nat
  length : Nat
  exclusive : Bool
deriving DecidableEq

abbrev Own := List RangeLock

def RangeLock.Covers (lock : RangeLock) (byte : Nat) : Prop := lock.start ≤ byte ∧ byte < lock.start + lock.length

instance (lock : RangeLock) (byte : Nat) : Decidable (lock.Covers byte) := inferInstanceAs (Decidable (_ ∧ _))

def RangeLock.Overlaps (lock other : RangeLock) : Prop :=
  lock.start < other.start + other.length ∧ other.start < lock.start + lock.length

def wide (low high : UInt32) : Nat := low.toNat + high.toNat * 2 ^ 32

def rangeLock (lengthLow lengthHigh : UInt32) (data : Overlapped) (exclusive : Bool) : RangeLock where
  start := wide data.offset data.offsetHigh
  length := wide lengthLow lengthHigh
  exclusive := exclusive

-- An exclusive lock may not overlap any lock, a shared one may not overlap an
-- exclusive lock of another handle.
def Grantable {D : Type} (table : D → Own) (d : D) (lock : RangeLock) : Prop :=
  if lock.exclusive then ∀ e, ∀ other ∈ table e, ¬ lock.Overlaps other
  else ∀ e, e ≠ d → ∀ other ∈ table e, other.exclusive = true → ¬ lock.Overlaps other

-- Unlocking takes the very range of a lock, and of two on one range first the
-- exclusive one.
def release (lengthLow lengthHigh : UInt32) (data : Overlapped) (own : Own) : Option Own :=
  if rangeLock lengthLow lengthHigh data true ∈ own then some (own.erase (rangeLock lengthLow lengthHigh data true))
  else if rangeLock lengthLow lengthHigh data false ∈ own then
    some (own.erase (rangeLock lengthLow lengthHigh data false))
  else none

def LockFileOp.effect : LockFileOp → Own → Option Own
  | .lockFileEx _ exclusive lengthLow lengthHigh data, own =>
      some (rangeLock lengthLow lengthHigh data exclusive :: own)
  | .unlockFileEx lengthLow lengthHigh data, own => release lengthLow lengthHigh data own

def LockFileOp.May {D : Type} (table : D → Own) (d : D) : LockFileOp → Prop
  | .lockFileEx _ exclusive lengthLow lengthHigh data => Grantable table d (rangeLock lengthLow lengthHigh data exclusive)
  | .unlockFileEx _ _ _ => True

def files {D : Type} [DecidableEq D] (d : D) : Program.Semantics LockFileOp LockFileAnswer (D → Own) :=
  fun op table answer table' =>
    match answer with
    | .ok () => op.May table d ∧ ∃ own, op.effect (table d) = some own ∧ table' = Function.update table d own
    | .error _ => table' = table

def filesOwn : Program.Semantics LockFileOp LockFileAnswer Own := fun op own answer own' =>
  match answer with
  | .ok () => op.effect own = some own'
  | .error _ => own' = own

def level (own : Own) (byte : Nat) : Option LockType :=
  if ∃ lock ∈ own, lock.exclusive = true ∧ lock.Covers byte then some .wrlock
  else if ∃ lock ∈ own, lock.Covers byte then some .rdlock
  else none

theorem level_wrlock (own : Own) (byte : Nat) :
    level own byte = some .wrlock ↔ ∃ lock ∈ own, lock.exclusive = true ∧ lock.Covers byte := by
  rw [level]
  split
  · simp [*]
  · split <;> simp [*]

theorem level_none (own : Own) (byte : Nat) :
    level own byte ≠ none ↔ ∃ lock ∈ own, lock.Covers byte := by
  rw [level]
  split
  · rename_i exclusive
    obtain ⟨lock, member, _, covers⟩ := exclusive
    simp only [ne_eq, reduceCtorEq, not_false_eq_true, true_iff]
    exact ⟨lock, member, covers⟩
  · split <;> simp [*]

theorem supports_of_subset (own own' : Own) (subset : own' ⊆ own) (byte : Nat) :
    Supports (level own byte) (level own' byte) := by
  cases now : level own' byte with
  | none => exact supports_none _
  | some type =>
      cases type with
      | wrlock =>
          obtain ⟨lock, member, covers⟩ := (level_wrlock own' byte).mp now
          exact .inr (.inr ((level_wrlock own byte).mpr ⟨lock, subset member, covers⟩))
      | rdlock =>
          obtain ⟨lock, member, covers⟩ := (level_none own' byte).mp (by rw [now]; simp)
          exact supports_rdlock _ ((level_none own byte).mpr ⟨lock, subset member, covers⟩)

theorem level_congr (own own' : Own) (byte : Nat)
    (same : ∀ lock : RangeLock, lock.Covers byte → (lock ∈ own' ↔ lock ∈ own)) : level own' byte = level own byte := by
  have exclusive : (∃ lock ∈ own', lock.exclusive = true ∧ lock.Covers byte) ↔
      ∃ lock ∈ own, lock.exclusive = true ∧ lock.Covers byte :=
    exists_congr fun lock => and_congr_left fun covers => same lock covers.2
  have any : (∃ lock ∈ own', lock.Covers byte) ↔ ∃ lock ∈ own, lock.Covers byte :=
    exists_congr fun lock => and_congr_left fun covers => same lock covers
  simp only [level, exclusive, any]

theorem overlaps_of_covers (lock other : RangeLock) (byte : Nat) (covers : lock.Covers byte)
    (covered : other.Covers byte) : lock.Overlaps other := by
  obtain ⟨from_, to_⟩ := covers
  obtain ⟨from', to'⟩ := covered
  exact ⟨by omega, by omega⟩

theorem release_subset (lengthLow lengthHigh : UInt32) (data : Overlapped) (own rest : Own)
    (released : release lengthLow lengthHigh data own = some rest) : rest ⊆ own := by
  rw [release] at released
  split at released
  · cases released
    exact List.erase_subset
  · split at released
    · cases released
      exact List.erase_subset
    · cases released

theorem files_owned {D : Type} [DecidableEq D] : Service.Owned (files (D := D)) filesOwn where
  changes d op table answer table' step := by
    cases answer with
    | ok done =>
        obtain ⟨_, own, effect, changed⟩ := step
        simp only [filesOwn, changed, Function.update_self, effect]
    | error err => exact congrFun step d
  frame d op table answer table' e step different := by
    cases answer with
    | ok done =>
        obtain ⟨_, own, _, changed⟩ := step
        rw [changed, Function.update_of_ne different]
    | error err => exact congrFun step e

theorem granted_harmless {D : Type} (table : D → Own) (d : D) (lock : RangeLock)
    (compatible : Compatible level table) (grantable : Grantable table d lock) (e : D) (different : e ≠ d)
    (byte : Nat) : ¬ Clash (level (lock :: table d) byte) (level (table e) byte) := by
  by_cases covers : lock.Covers byte
  · intro held
    obtain ⟨_, present, exclusive⟩ := held
    obtain ⟨other, member, covered⟩ := (level_none (table e) byte).mp present
    have overlaps := overlaps_of_covers lock other byte covers covered
    rw [Grantable] at grantable
    by_cases strong : lock.exclusive = true
    · rw [if_pos strong] at grantable
      exact grantable e other member overlaps
    · rw [if_neg strong] at grantable
      rcases exclusive with ours | theirs
      · obtain ⟨held, memberHeld, isExclusive, coversHeld⟩ := (level_wrlock _ byte).mp ours
        rcases List.mem_cons.mp memberHeld with rfl | older
        · exact strong isExclusive
        · exact compatible d e (Ne.symm different) byte
            ⟨(level_none _ byte).mpr ⟨held, older, coversHeld⟩, present,
              .inl ((level_wrlock _ byte).mpr ⟨held, older, isExclusive, coversHeld⟩)⟩
      · obtain ⟨held, memberHeld, isExclusive, coversHeld⟩ := (level_wrlock _ byte).mp theirs
        exact grantable e different held memberHeld isExclusive (overlaps_of_covers lock held byte covers coversHeld)
  · have same : level (lock :: table d) byte = level (table d) byte := by
      apply level_congr
      intro other covered
      rw [List.mem_cons]
      constructor
      · rintro (rfl | member)
        · exact absurd covered covers
        · exact member
      · exact .inr
    rw [same]
    exact compatible d e (Ne.symm different) byte

theorem files_compatible {D : Type} [DecidableEq D] (d : D) (op : LockFileOp) (table : D → Own) (answer : Status)
    (table' : D → Own) (compatible : Compatible level table) (step : files d op table answer table') :
    Compatible level table' := by
  cases answer with
  | error err =>
      have same : table' = table := step
      rw [same]
      exact compatible
  | ok done =>
      obtain ⟨may, own, effect, changed⟩ := step
      rw [changed]
      refine compatible_update level table d own compatible fun e different byte => ?_
      cases op with
      | lockFileEx failImmediately exclusive lengthLow lengthHigh data =>
          cases effect
          exact granted_harmless table d _ compatible may e different byte
      | unlockFileEx lengthLow lengthHigh data =>
          intro clash
          have weaker := supports_of_subset (table d) own (release_subset _ _ _ _ _ effect) byte
          exact compatible d e (Ne.symm different) byte
            (clash_of_supported _ _ _ _ weaker (.inr (.inl rfl)) clash)

theorem wide_halves (value : UInt64) : wide value.toUInt32 (high value) = value.toNat := by
  rw [wide, high]
  rw [UInt64.toNat_toUInt32, UInt64.toNat_toUInt32, UInt64.toNat_shiftRight]
  have bound := value.toNat_lt
  simp only [UInt64.reduceToNat, Nat.shiftRight_eq_div_pow, Nat.reduceMod, Nat.reducePow]
  omega

def asked (offset length : UInt64) (exclusive : Bool) : RangeLock :=
  ⟨offset.toNat, (wholeLength length).toNat, exclusive⟩

theorem range_lock_asked (offset length : UInt64) (exclusive : Bool) :
    rangeLock (wholeLength length).toUInt32 (high (wholeLength length)) (overlapped offset) exclusive =
      asked offset length exclusive := by
  rw [rangeLock, overlapped, asked]
  simp only [wide_halves]

theorem asked_covers (offset length : UInt64) (exclusive : Bool) (byte : Nat) (fits : backend.Fits offset length) :
    (asked offset length exclusive).Covers byte ↔ Within sizeMax.toNat offset length byte := by
  have room : offset.toNat + (wholeLength length).toNat ≤ sizeMax.toNat := fits
  rw [RangeLock.Covers, Within, asked]
  by_cases empty : length = 0
  · have whole : wholeLength length = sizeMax := if_pos empty
    rw [whole] at room
    rw [if_pos empty, whole]
    simp only
    omega
  · have whole : wholeLength length = length := if_neg empty
    rw [if_neg empty, whole]

theorem op_ensures (op : LockFileOp) (inv : LockFileOp → Own → Prop) (own : Own) (post : Status → Own → Prop)
    (here : inv op own)
    (granted : ∀ own', op.effect own = some own' → post (.ok ()) own') (refused : ∀ err, post (.error err) own) :
    Program.Ensures filesOwn inv (Program.perform op) own post := by
  refine ⟨here, ?_⟩
  intro answer own' step
  cases answer with
  | ok done => exact granted own' step
  | error err =>
      have same : own' = own := step
      rw [same]
      exact refused err

theorem lock_ensures (failImmediately : Bool) (offset length : UInt64) (type : LockType)
    (inv : LockFileOp → Own → Prop) (own : Own) (post : Status → Own → Prop)
    (here : inv (.lockFileEx failImmediately (type = .wrlock) (wholeLength length).toUInt32
      (high (wholeLength length)) (overlapped offset)) own)
    (granted : post (.ok ()) (asked offset length (type = .wrlock) :: own)) (refused : ∀ err, post (.error err) own) :
    Program.Ensures filesOwn inv (lockFileEx failImmediately (type = .wrlock) (wholeLength length).toUInt32
      (high (wholeLength length)) (overlapped offset)) own post := by
  refine op_ensures _ inv own post here ?_ refused
  intro own' effect
  rw [LockFileOp.effect, range_lock_asked] at effect
  cases effect
  exact granted

theorem unlock_ensures (offset length : UInt64) (inv : LockFileOp → Own → Prop) (own : Own)
    (post : Status → Own → Prop)
    (here : inv (.unlockFileEx (wholeLength length).toUInt32 (high (wholeLength length)) (overlapped offset)) own)
    (exclusive : asked offset length true ∈ own → post (.ok ()) (own.erase (asked offset length true)))
    (shared : asked offset length true ∉ own → post (.ok ()) (own.erase (asked offset length false)))
    (refused : ∀ err, post (.error err) own) : Program.Ensures filesOwn inv (unlock offset length) own post := by
  refine op_ensures _ inv own post here ?_ refused
  intro own' effect
  rw [LockFileOp.effect, release, range_lock_asked, range_lock_asked] at effect
  split at effect
  · rename_i member
    cases effect
    exact exclusive member
  · rename_i absent
    split at effect
    · cases effect
      exact shared absent
    · cases effect

section
variable (offset length : UInt64)

theorem keeps_refl (own : Own) : Keeps sizeMax.toNat level offset length own own := fun _ _ => rfl

theorem keeps_trans (own own' own'' : Own) (first : Keeps sizeMax.toNat level offset length own own')
    (second : Keeps sizeMax.toNat level offset length own' own'') :
    Keeps sizeMax.toNat level offset length own own'' := fun byte outside =>
  (second byte outside).trans (first byte outside)

theorem keeps_lock (fits : backend.Fits offset length) (own : Own) (exclusive : Bool) :
    Keeps sizeMax.toNat level offset length own (asked offset length exclusive :: own) := by
  intro byte outside
  apply level_congr
  intro lock covers
  rw [List.mem_cons]
  constructor
  · rintro (rfl | member)
    · exact absurd ((asked_covers offset length exclusive byte fits).mp covers) outside
    · exact member
  · exact .inr

theorem keeps_erase (fits : backend.Fits offset length) (own : Own) (exclusive : Bool) :
    Keeps sizeMax.toNat level offset length own (own.erase (asked offset length exclusive)) := by
  intro byte outside
  apply level_congr
  intro lock covers
  have other : lock ≠ asked offset length exclusive := by
    rintro rfl
    exact outside ((asked_covers offset length exclusive byte fits).mp covers)
  exact List.mem_erase_of_ne other

theorem level_lock_wrlock (fits : backend.Fits offset length) (own : Own) (byte : Nat)
    (within : Within sizeMax.toNat offset length byte) :
    level (asked offset length true :: own) byte = some .wrlock :=
  (level_wrlock _ byte).mpr ⟨_, .head _, rfl, (asked_covers offset length true byte fits).mpr within⟩

theorem lock_locked (fits : backend.Fits offset length) (own : Own) (type : LockType) :
    Locked sizeMax.toNat level offset length type own (.ok ()) (asked offset length (type = .wrlock) :: own) := by
  refine ⟨keeps_lock offset length fits own _, fun byte within => ?_⟩
  cases type with
  | wrlock => exact .inr (.inl (level_lock_wrlock offset length fits own byte within))
  | rdlock =>
      exact supports_rdlock _ ((level_none _ byte).mpr
        ⟨_, .head _, (asked_covers offset length false byte fits).mpr within⟩)

-- After a downgrade some lock covers what an exclusive one covered before: the
-- shared lock just taken, unless the unlock found no exclusive lock on exactly
-- this range and took it back.
theorem downgrade_ensures (fits : backend.Fits offset length) (failImmediately : Bool) (own : Own) :
    Program.Ensures filesOwn (fun _ => Keeps sizeMax.toNat level offset length own)
      (do
        match ← lockFileEx failImmediately (LockType.rdlock = .wrlock) (wholeLength length).toUInt32
            (high (wholeLength length)) (overlapped offset) with
        | .error err => return .error err
        | .ok () => unlock offset length)
      own (Downgraded sizeMax.toNat level offset length own) := by
  rw [Program.ensures_bind]
  refine lock_ensures failImmediately offset length .rdlock _ own _ (keeps_refl offset length own) ?_
    fun _ => keeps_refl offset length own
  have taken := keeps_lock offset length fits own false
  refine unlock_ensures offset length _ _ _ taken ?_ ?_ fun _ => taken
  · intro _
    refine ⟨keeps_trans offset length _ _ _ taken (keeps_erase offset length fits _ true), fun _ byte within => ?_⟩
    exact (level_none _ byte).mpr ⟨asked offset length false,
      (List.mem_erase_of_ne (by simp [asked])).mpr (.head _), (asked_covers offset length false byte fits).mpr within⟩
  · intro _
    refine ⟨keeps_trans offset length _ _ _ taken (keeps_erase offset length fits _ false),
      fun held byte within => ?_⟩
    obtain ⟨lock, member, exclusive, covers⟩ := (level_wrlock own byte).mp (held byte within)
    have other : lock ≠ asked offset length false := by
      rintro rfl
      cases exclusive
    exact (level_none _ byte).mpr ⟨lock, (List.mem_erase_of_ne other).mpr (.tail _ member), covers⟩

theorem upgrade_ensures (fits : backend.Fits offset length) (failImmediately : Bool) (own : Own) :
    Program.Ensures filesOwn (fun _ => Keeps sizeMax.toNat level offset length own)
      (do
        match ← unlock offset length with
        | .error err => return .error err
        | .ok () =>
            lockFileEx failImmediately (LockType.wrlock = .wrlock) (wholeLength length).toUInt32
              (high (wholeLength length)) (overlapped offset))
      own (Upgraded sizeMax.toNat level offset length own) := by
  have relock : ∀ rest, Keeps sizeMax.toNat level offset length own rest →
      Program.Ensures filesOwn (fun _ => Keeps sizeMax.toNat level offset length own)
        (lockFileEx failImmediately (LockType.wrlock = .wrlock) (wholeLength length).toUInt32
          (high (wholeLength length)) (overlapped offset)) rest (Upgraded sizeMax.toNat level offset length own) := by
    intro rest keeps
    exact lock_ensures failImmediately offset length .wrlock _ rest _ keeps
      ⟨keeps_trans offset length _ _ _ keeps (keeps_lock offset length fits rest true),
        level_lock_wrlock offset length fits rest⟩
      fun _ => keeps
  rw [Program.ensures_bind]
  refine unlock_ensures offset length _ own _ (keeps_refl offset length own) ?_ ?_
    fun _ => keeps_refl offset length own
  · exact fun _ => relock _ (keeps_erase offset length fits own true)
  · exact fun _ => relock _ (keeps_erase offset length fits own false)

end

theorem specified : Specified backend filesOwn level where
  tryLock offset length type own fits :=
    lock_ensures true offset length type _ own _ rfl (lock_locked offset length fits own type) fun _ => rfl
  waitForLock offset length type own fits :=
    lock_ensures false offset length type _ own _ rfl (lock_locked offset length fits own type) fun _ => rfl
  tryDowngradeLock offset length own fits := downgrade_ensures offset length fits true own
  waitForDowngradeLock offset length own fits := downgrade_ensures offset length fits false own
  tryUpgradeLock offset length own fits := upgrade_ensures offset length fits true own
  waitForUpgradeLock offset length own fits := upgrade_ensures offset length fits false own
  unlock offset length own fits :=
    unlock_ensures offset length _ own _ (keeps_refl offset length own)
      (fun _ => keeps_erase offset length fits own true) (fun _ => keeps_erase offset length fits own false)
      fun _ => keeps_refl offset length own

end FsExt.Lock.Windows
