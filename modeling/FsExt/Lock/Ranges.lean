import FsExt.Lock.Windows

set_option autoImplicit false

namespace FsExt.Lock.Windows

open Sys

def handed : LockFileOp → Nat × Nat
  | .lockFileEx _ _ lengthLow lengthHigh data => (wide data.offset data.offsetHigh, wide lengthLow lengthHigh)
  | .unlockFileEx lengthLow lengthHigh data => (wide data.offset data.offsetHigh, wide lengthLow lengthHigh)

def spaceEnd : Nat := 2 ^ 64

-- What libuv makes of ERROR_INVALID_LOCK_RANGE and ERROR_NOT_LOCKED: UV_UNKNOWN.
def unknown : UvError := .other 4094

-- The locks of one handle on a file that no other handle has a lock on. The
-- system rejects a range that runs over the last offset with `invalid`.
def alone (invalid : UvError) : Program.Handler LockFileOp LockFileAnswer Own
  | .lockFileEx _ exclusive lengthLow lengthHigh data, own =>
      let lock := rangeLock lengthLow lengthHigh data exclusive
      if spaceEnd < lock.start + lock.length then (.error invalid, own)
      else if exclusive ∧ ∃ other ∈ own, lock.start < other.start + other.length ∧ other.start < lock.start + lock.length
        then (.error .EBUSY, own)
      else (.ok (), lock :: own)
  | .unlockFileEx lengthLow lengthHigh data, own =>
      match release lengthLow lengthHigh data own with
      | some own' => (.ok (), own')
      | none => (.error unknown, own)

structure Meant (offset length : UInt64) (range : Nat × Nat) : Prop where
  exact : 0 < length.toNat → range = (offset.toNat, length.toNat)
  toEnd : length.toNat = 0 → ∀ byte, offset.toNat ≤ byte → byte ≤ 2 ^ 63 - 1 → range.1 ≤ byte ∧ byte < range.1 + range.2
  valid : range.1 + range.2 ≤ spaceEnd

section
variable (offset length : UInt64)

def Calls (program : Program LockFileOp LockFileAnswer Status) (range : Nat × Nat) : Prop :=
  ∀ answers, (Program.replay answers 0 program).1.map handed = [range]

structure MeansRange (invalid : UvError) (range : Nat × Nat) : Prop where
  meant : Meant offset length range
  tryLock : ∀ type, Calls (tryLock offset length type) range
  waitForLock : ∀ type, Calls (waitForLock offset length type) range
  unlock : Calls (unlock offset length) range
  granted : ∀ type, (Program.run (alone invalid) (Windows.tryLock offset length type) []).1 = .ok () ∧
    (Program.run (alone invalid) (Windows.waitForLock offset length type) []).1 = .ok ()

theorem handed_halves : handed (.unlockFileEx (wholeLength length).toUInt32 (high (wholeLength length)) (overlapped offset)) =
    (offset.toNat, (wholeLength length).toNat) := by
  rw [handed, overlapped]
  simp only [wide_halves]

theorem handed_lock (failImmediately exclusive : Bool) :
    handed (.lockFileEx failImmediately exclusive (wholeLength length).toUInt32 (high (wholeLength length))
      (overlapped offset)) = (offset.toNat, (wholeLength length).toNat) := by
  rw [handed, overlapped]
  simp only [wide_halves]

theorem alone_first (invalid : UvError) (failImmediately exclusive : Bool) (lengthLow lengthHigh : UInt32)
    (data : Overlapped) :
    alone invalid (.lockFileEx failImmediately exclusive lengthLow lengthHigh data) [] =
      if spaceEnd < wide data.offset data.offsetHigh + wide lengthLow lengthHigh then (.error invalid, [])
      else (.ok (), [rangeLock lengthLow lengthHigh data exclusive]) := by
  rw [alone]
  by_cases beyond : spaceEnd < wide data.offset data.offsetHigh + wide lengthLow lengthHigh
  · rw [if_pos beyond]
    exact if_pos beyond
  · rw [if_neg beyond]
    exact (if_neg beyond).trans (if_neg fun ⟨_, other, member, _⟩ => nomatch member)

theorem alone_asked (invalid : UvError) (failImmediately exclusive : Bool) :
    (Program.run (alone invalid) (lockFileEx failImmediately exclusive (wholeLength length).toUInt32
      (high (wholeLength length)) (overlapped offset)) []).1 =
      if spaceEnd < offset.toNat + (wholeLength length).toNat then .error invalid else .ok () := by
  rw [lockFileEx, Program.perform, Program.run_call, Program.run_ret, alone_first, overlapped, wide_halves, wide_halves]
  by_cases beyond : spaceEnd < offset.toNat + (wholeLength length).toNat
  · rw [if_pos beyond, if_pos beyond]
  · rw [if_neg beyond, if_neg beyond]

theorem means_range_iff (invalid : UvError) (offsetNonneg : offset.toNat < 2 ^ 63) (lengthNonneg : length.toNat < 2 ^ 63) :
    (∃ range, MeansRange offset length invalid range) ↔ 0 < length.toNat ∨ offset.toNat ≤ 1 := by
  have whole : sizeMax.toNat = 2 ^ 64 - 1 := rfl
  constructor
  · rintro ⟨range, means⟩
    have made : [(offset.toNat, (wholeLength length).toNat)] = [range] := by
      rw [← means.unlock fun _ _ => .ok (), ← handed_halves]
      rfl
    have valid := means.meant.valid
    rw [← List.singleton_inj.mp made] at valid
    by_cases some : 0 < length.toNat
    · exact .inl some
    · have zero : length = 0 := UInt64.toNat_inj.mp (by rw [UInt64.toNat_zero]; omega)
      rw [wholeLength, if_pos zero, whole, spaceEnd] at valid
      exact .inr (by omega)
  · intro fits
    have room : offset.toNat + (wholeLength length).toNat ≤ spaceEnd := by
      rw [wholeLength, spaceEnd]
      split
      · rename_i zero
        rw [zero, UInt64.toNat_zero] at fits
        omega
      · omega
    refine ⟨(offset.toNat, (wholeLength length).toNat), ⟨fun some => ?_, fun zero byte low high => ?_, room⟩, ?_, ?_, ?_, ?_⟩
    · rw [wholeLength, if_neg fun empty => by rw [empty] at some; exact absurd some (by decide)]
    · have empty : length = 0 := UInt64.toNat_inj.mp zero
      rw [wholeLength, if_pos empty, whole]
      exact ⟨low, by omega⟩
    · exact fun type answers => congrArg (· :: []) (handed_lock offset length true _)
    · exact fun type answers => congrArg (· :: []) (handed_lock offset length false _)
    · exact fun answers => congrArg (· :: []) (handed_halves offset length)
    · intro type
      rw [Windows.tryLock, Windows.waitForLock, alone_asked, alone_asked, if_neg (by omega)]
      exact ⟨rfl, rfl⟩

end

theorem lock_to_end_rejected :
    (Program.run (alone unknown) (tryLock 4096 0 .wrlock) []).1 = .error unknown ∧
      ¬ ∃ range, MeansRange 4096 0 unknown range := by
  have rejected : (Program.run (alone unknown) (tryLock 4096 0 .wrlock) []).1 = .error unknown := by
    rw [tryLock, alone_asked]
    rfl
  refine ⟨rejected, ?_⟩
  rintro ⟨range, means⟩
  cases rejected.symm.trans (means.granted .wrlock).1

theorem means_range_whole : (∃ range, MeansRange 0 0 unknown range) ↔ 0 < (0 : UInt64).toNat ∨ (0 : UInt64).toNat ≤ 1 :=
  means_range_iff 0 0 unknown (by decide) (by decide)

end FsExt.Lock.Windows
