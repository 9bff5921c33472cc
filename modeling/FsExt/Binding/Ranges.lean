import FsExt.Binding.Forms
import FsExt.Lock.Linux
import FsExt.Sys.Words
import FsExt.Trim

set_option autoImplicit false

namespace FsExt.Binding.Ranges

open Sys
open FsExt.Binding.Forms

inductive KernelOp (Handle : Type) where
  | lock (fd : Handle) (op : Lock.Linux.FcntlOp)
  | trim (fd : Handle) (op : Trim.TrimOp)

section
variable {Handle : Type}

abbrev KernelAnswer : KernelOp Handle → Type
  | .lock _ op => Lock.Linux.FcntlAnswer op
  | .trim _ op => Trim.TrimAnswer op

def verdict : (op : KernelOp Handle) → KernelAnswer op → Status
  | .lock _ _, answer => answer
  | .trim _ op, answer => Trim.verdict op answer

def KernelOp.range : KernelOp Handle → Option (Int × Int)
  | .lock _ op => some (op.data.start, op.data.len)
  | .trim _ (.fallocate offset length) => some (offset.toInt64.toInt, length.toInt64.toInt)
  | .trim _ _ => none

-- A lock may end with the last offset, a hole has to be a range before it that
-- is not empty.
def KernelOp.refused : KernelOp Handle → Bool
  | .lock _ op => op.data.start < 0 || 2 ^ 63 < op.data.start + op.data.len || op.data.start + op.data.len < 0
  | .trim _ (.fallocate offset length) =>
      offset.toInt64.toInt < 0 || length.toInt64.toInt ≤ 0 || 2 ^ 63 ≤ offset.toInt64.toInt + length.toInt64.toInt
  | .trim _ _ => false

def onLock (fd : Handle) (program : Program Lock.Linux.FcntlOp Lock.Linux.FcntlAnswer Status) :
    Program (KernelOp Handle) KernelAnswer Status :=
  program.through (KernelOp.lock fd) fun _ answer => answer

def onTrim (fd : Handle) (program : Trim.TrimProgram Status) : Program (KernelOp Handle) KernelAnswer Status :=
  program.through (KernelOp.trim fd) fun _ answer => answer

def linux (rest : Backend Handle (KernelOp Handle) KernelAnswer) : Backend Handle (KernelOp Handle) KernelAnswer :=
  { rest with
    waitForLock := fun fd offset length type => onLock fd (Lock.Linux.waitForLock offset length type)
    waitForDowngradeLock := fun fd offset length => onLock fd (Lock.Linux.waitForDowngradeLock offset length)
    waitForUpgradeLock := fun fd offset length => onLock fd (Lock.Linux.waitForUpgradeLock offset length)
    trim := fun fd offset length => onTrim fd (Trim.Linux.trim offset length) }

end

inductive RangeCall where
  | tryLock (exclusive : Bool)
  | waitForLock (exclusive : Bool)
  | waitForLockSync (exclusive : Bool)
  | tryDowngradeLock
  | waitForDowngradeLock
  | waitForDowngradeLockSync
  | tryUpgradeLock
  | waitForUpgradeLock
  | waitForUpgradeLockSync
  | unlock
  | trim
  | trimSync

section
variable (engine : Engine) (rest : Backend engine.Handle (KernelOp engine.Handle) KernelAnswer)

def jsTryLock (fd : engine.Number) (offset length : Arg engine.Number) (exclusive : Bool) :
    Program (KernelOp engine.Handle) KernelAnswer (Option Returned) :=
  callRange engine offset length fun offset len => do
    return Lock.tryStatus (← onLock (engine.getOsfhandle fd) (Lock.Linux.tryLock offset len (lockType exclusive)))

def jsTryDowngradeLock (fd : engine.Number) (offset length : Arg engine.Number) :
    Program (KernelOp engine.Handle) KernelAnswer (Option Returned) :=
  callRange engine offset length fun offset len => do
    return Lock.tryStatus (← onLock (engine.getOsfhandle fd) (Lock.Linux.tryDowngradeLock offset len))

def jsTryUpgradeLock (fd : engine.Number) (offset length : Arg engine.Number) :
    Program (KernelOp engine.Handle) KernelAnswer (Option Returned) :=
  callRange engine offset length fun offset len => do
    return Lock.tryStatus (← onLock (engine.getOsfhandle fd) (Lock.Linux.tryUpgradeLock offset len))

def jsUnlock (fd : engine.Number) (offset length : Arg engine.Number) :
    Program (KernelOp engine.Handle) KernelAnswer (Option Returned) :=
  callRange engine offset length fun offset len => onLock (engine.getOsfhandle fd) (Lock.Linux.unlock offset len)

def settle {Op : Type} {Answer : Op → Type} (call : Program Op Answer (Option Returned)) :
    Program Op Answer (Option Settled) := do
  return (← call).map Returned.settled

def RangeCall.program (fd offset length : engine.Number) :
    RangeCall → Program (KernelOp engine.Handle) KernelAnswer (Option Settled)
  | .tryLock exclusive => settle (jsTryLock engine fd (.number offset) (.number length) exclusive)
  | .waitForLock exclusive => promise (jsWaitForLock engine (linux rest) fd (.number offset) (.number length) exclusive)
  | .waitForLockSync exclusive =>
      settle (jsWaitForLockSync engine (linux rest) fd (.number offset) (.number length) exclusive)
  | .tryDowngradeLock => settle (jsTryDowngradeLock engine fd (.number offset) (.number length))
  | .waitForDowngradeLock => promise (jsWaitForDowngradeLock engine (linux rest) fd (.number offset) (.number length))
  | .waitForDowngradeLockSync =>
      settle (jsWaitForDowngradeLockSync engine (linux rest) fd (.number offset) (.number length))
  | .tryUpgradeLock => settle (jsTryUpgradeLock engine fd (.number offset) (.number length))
  | .waitForUpgradeLock => promise (jsWaitForUpgradeLock engine (linux rest) fd (.number offset) (.number length))
  | .waitForUpgradeLockSync =>
      settle (jsWaitForUpgradeLockSync engine (linux rest) fd (.number offset) (.number length))
  | .unlock => settle (jsUnlock engine fd (.number offset) (.number length))
  | .trim => promise (jsTrim engine (linux rest) fd (.number offset) (.number length))
  | .trimSync => settle (jsTrimSync engine (linux rest) fd (.number offset) (.number length))

end

def Obeys {Handle : Type} (answers : Nat → (op : KernelOp Handle) → KernelAnswer op) : Prop :=
  ∀ n op, op.refused = true → ∃ err, verdict op (answers n op) = .error err

def Preserved {Handle : Type} (program : Program (KernelOp Handle) KernelAnswer (Option Settled)) (offset length : Int) :
    Prop :=
  ∀ answers, Obeys answers →
    ∃ op, (Program.replay answers 0 program).1 = [op] ∧
      (op.range = some (offset, length) ∨
        ∃ err err', verdict op (answers 0 op) = .error err ∧ (Program.replay answers 0 program).2 = some (.rejected err'))

section
variable {Handle : Type}

def willing : (op : KernelOp Handle) → KernelAnswer op
  | .lock fd op => if (KernelOp.lock fd op).refused then .error .EINVAL else .ok ()
  | .trim fd (.fallocate offset length) =>
      if (KernelOp.trim fd (.fallocate offset length)).refused then .error .EINVAL else .ok ()
  | .trim _ .fstat => .ok 0
  | .trim _ (.pwrite _ _) => .ok 0
  | .trim _ (.punchHole _ _) => .ok ()

theorem verdict_willing (op : KernelOp Handle) :
    verdict op (willing op) = if op.refused then .error .EINVAL else .ok () := by
  cases op with
  | lock fd op => rfl
  | trim fd op =>
      cases op with
      | fallocate offset length => rfl
      | fstat | pwrite buf offset | punchHole offset length => rfl

theorem willing_obeys : Obeys fun _ (op : KernelOp Handle) => willing op := by
  intro n op refused
  exact ⟨.EINVAL, by rw [verdict_willing, if_pos refused]⟩

theorem preserved_one_iff (program : Program (KernelOp Handle) KernelAnswer (Option Settled)) (op : KernelOp Handle)
    (finish : Status → Status) (offset length : Int)
    (made : program = .call op fun answer => .ret (some (thrown (finish (verdict op answer))).settled))
    (fails : ∀ err, ∃ err', finish (.error err) = .error err') :
    Preserved program offset length ↔ op.range = some (offset, length) ∨ op.refused = true := by
  rw [made]
  constructor
  · intro preserved
    obtain ⟨other, asked, found⟩ := preserved (fun _ => willing) willing_obeys
    cases asked
    rcases found with exact | ⟨err, _, failed, _⟩
    · exact .inl exact
    · refine .inr ?_
      by_contra accepted
      rw [verdict_willing, if_neg accepted] at failed
      cases failed
  · intro either answers obeys
    refine ⟨op, rfl, ?_⟩
    rcases either with exact | refused
    · exact .inl exact
    · obtain ⟨err, failed⟩ := obeys 0 op refused
      obtain ⟨err', threw⟩ := fails err
      exact .inr ⟨err, err', failed, by simp only [Program.replay, failed, threw, thrown, Returned.settled]⟩

end

def RangeCall.op {Handle : Type} (fd : Handle) (offset length : UInt64) : RangeCall → KernelOp Handle
  | .tryLock exclusive => .lock fd (.ofdSetlk (Lock.Linux.flock offset length (some (lockType exclusive))))
  | .waitForLock exclusive | .waitForLockSync exclusive =>
      .lock fd (.ofdSetlkw (Lock.Linux.flock offset length (some (lockType exclusive))))
  | .tryDowngradeLock => .lock fd (.ofdSetlk (Lock.Linux.flock offset length (some .rdlock)))
  | .waitForDowngradeLock | .waitForDowngradeLockSync =>
      .lock fd (.ofdSetlkw (Lock.Linux.flock offset length (some .rdlock)))
  | .tryUpgradeLock => .lock fd (.ofdSetlk (Lock.Linux.flock offset length (some .wrlock)))
  | .waitForUpgradeLock | .waitForUpgradeLockSync =>
      .lock fd (.ofdSetlkw (Lock.Linux.flock offset length (some .wrlock)))
  | .unlock => .lock fd (.ofdSetlk (Lock.Linux.flock offset length none))
  | .trim | .trimSync => .trim fd (.fallocate offset length)

def RangeCall.finish : RangeCall → Status → Status
  | .tryLock _ | .tryDowngradeLock | .tryUpgradeLock => Lock.tryStatus
  | _ => id

theorem try_status_fails (err : UvError) : ∃ err', Lock.tryStatus (.error err) = .error err' := by
  cases err <;> exact ⟨_, rfl⟩

theorem finish_fails (call : RangeCall) (err : UvError) : ∃ err', call.finish (.error err) = .error err' := by
  cases call with
  | tryLock exclusive | tryDowngradeLock | tryUpgradeLock => exact try_status_fails err
  | waitForLock exclusive | waitForLockSync exclusive => exact ⟨err, rfl⟩
  | _ => exact ⟨err, rfl⟩

section
variable (engine : Engine) (rest : Backend engine.Handle (KernelOp engine.Handle) KernelAnswer)

theorem program_one (call : RangeCall) (fd offset length : engine.Number) :
    let op := call.op (engine.getOsfhandle fd) (engine.int64 offset).toUInt64 (engine.size (engine.int64 length).toUInt64)
    call.program engine rest fd offset length =
      .call op fun answer => .ret (some (thrown (call.finish (verdict op answer))).settled) := by
  cases call with
  | tryLock exclusive | waitForLockSync exclusive => rfl
  | tryDowngradeLock | waitForDowngradeLockSync | tryUpgradeLock | waitForUpgradeLockSync | unlock | trimSync => rfl
  | waitForLock exclusive =>
      have agrees := wait_for_lock_agrees engine (linux rest) fd (.number offset) (.number length) (.options (!exclusive))
      cases exclusive with
      | false => exact agrees
      | true => exact agrees
  | waitForDowngradeLock =>
      exact wait_for_downgrade_lock_agrees engine (linux rest) fd (.number offset) (.number length)
  | waitForUpgradeLock => exact wait_for_upgrade_lock_agrees engine (linux rest) fd (.number offset) (.number length)
  | trim => exact trim_agrees engine (linux rest) fd (.number offset) (.number length)

end

def RangeCall.Refused (offset length : Int) : RangeCall → Prop
  | .trim | .trimSync => length = 0 ∨ 2 ^ 63 ≤ offset + length
  | _ => 2 ^ 63 < offset + length

section
variable {Handle : Type} (fd : Handle) (offset length : UInt64)

theorem op_range (call : RangeCall) :
    (call.op fd offset length).range = some (offset.toInt64.toInt, length.toInt64.toInt) := by
  cases call with
  | tryLock exclusive | waitForLock exclusive | waitForLockSync exclusive => rfl
  | _ => rfl

theorem lock_refused_iff (op : Lock.Linux.FcntlOp) (start : 0 ≤ op.data.start) (len : 0 ≤ op.data.len) :
    (KernelOp.lock fd op).refused = true ↔ 2 ^ 63 < op.data.start + op.data.len := by
  simp only [KernelOp.refused, Bool.or_eq_true, decide_eq_true_eq]
  omega

theorem trim_refused_iff (start : 0 ≤ offset.toInt64.toInt) (len : 0 ≤ length.toInt64.toInt) :
    (KernelOp.trim fd (.fallocate offset length)).refused = true ↔
      length.toInt64.toInt = 0 ∨ 2 ^ 63 ≤ offset.toInt64.toInt + length.toInt64.toInt := by
  simp only [KernelOp.refused, Bool.or_eq_true, decide_eq_true_eq]
  omega

theorem op_refused_iff (call : RangeCall) (start : 0 ≤ offset.toInt64.toInt) (len : 0 ≤ length.toInt64.toInt) :
    (call.op fd offset length).refused = true ↔ call.Refused offset.toInt64.toInt length.toInt64.toInt := by
  cases call with
  | trim | trimSync => exact trim_refused_iff fd offset length start len
  | tryLock exclusive | waitForLock exclusive | waitForLockSync exclusive => exact lock_refused_iff fd _ start len
  | _ => exact lock_refused_iff fd _ start len

end

theorem size_narrows (engine : Engine) (value : Int64) (nonneg : 0 ≤ value.toInt) :
    (engine.size value.toUInt64).toInt64.toInt = value.toInt % 2 ^ engine.sizeBits := by
  obtain ⟨word, small⟩ := word_of_nonneg value nonneg
  have less := Nat.mod_le value.toUInt64.toNat (2 ^ engine.sizeBits)
  have narrowed : (engine.size value.toUInt64).toNat = value.toUInt64.toNat % 2 ^ engine.sizeBits := by
    rw [Engine.size, UInt64.toNat_ofNat_of_lt' (show _ < 2 ^ 64 by omega)]
  rw [Lock.Linux.signed_of_small _ (by rw [narrowed, Lock.Linux.offsetEnd]; omega), narrowed, Int.natCast_emod, word]
  rw [Int.natCast_pow]
  rfl

theorem range_preserved_iff (engine : Engine) (rest : Backend engine.Handle (KernelOp engine.Handle) KernelAnswer)
    (call : RangeCall) (fd offset length : engine.Number) (offsetNonneg : 0 ≤ (engine.int64 offset).toInt)
    (lengthNonneg : 0 ≤ (engine.int64 length).toInt) :
    Preserved (call.program engine rest fd offset length) (engine.int64 offset).toInt (engine.int64 length).toInt ↔
      (engine.int64 length).toInt < 2 ^ engine.sizeBits ∨
        call.Refused (engine.int64 offset).toInt ((engine.int64 length).toInt % 2 ^ engine.sizeBits) := by
  have narrowed := size_narrows engine (engine.int64 length) lengthNonneg
  have positive : (0 : Int) < 2 ^ engine.sizeBits := Int.pow_pos (by decide)
  have remainder := Int.emod_nonneg (engine.int64 length).toInt (Int.ne_of_gt positive)
  rw [preserved_one_iff _ _ _ _ _ (program_one engine rest call fd offset length) (finish_fails call), op_range,
    op_refused_iff _ _ _ call (by rw [Int64.toInt64_toUInt64]; exact offsetNonneg) (by rw [narrowed]; exact remainder),
    narrowed, Int64.toInt64_toUInt64]
  have kept : some ((engine.int64 offset).toInt, (engine.int64 length).toInt % 2 ^ engine.sizeBits) =
      some ((engine.int64 offset).toInt, (engine.int64 length).toInt) ↔
      (engine.int64 length).toInt < 2 ^ engine.sizeBits := by
    rw [Option.some_inj, Prod.mk.injEq, eq_self, true_and]
    exact ⟨fun same => same ▸ Int.emod_lt_of_pos _ positive, fun less => Int.emod_eq_of_lt lengthNonneg less⟩
  rw [kept]

def narrowEngine : Engine where
  Number := Int64
  zero := 0
  int64 := id
  writer := plainWriter
  string := fun _ => []
  Encoding := Unit
  encode := fun _ _ => ⟨[], 0, 0, by simp, by simp⟩
  Handle := Int32
  osfhandle := id
  sizeBits := 32
  word := by decide
  isWindows := false

def silent : Backend Int32 (KernelOp Int32) KernelAnswer where
  waitForLock := fun _ _ _ _ => .ret (.error .EINVAL)
  waitForDowngradeLock := fun _ _ _ => .ret (.error .EINVAL)
  waitForUpgradeLock := fun _ _ _ => .ret (.error .EINVAL)
  trim := fun _ _ _ => .ret (.error .EINVAL)
  sparse := fun _ => .ret (.error .EINVAL)
  swap := fun _ _ => .ret (.error .EINVAL)
  getAttr := fun _ _ value => .ret (.error .EINVAL, value)
  setAttr := fun _ _ _ => .ret (.error .EINVAL)
  removeAttr := fun _ _ => .ret (.error .EINVAL)
  listAttrs := fun _ table => .ret (some (.error .EINVAL, table))

theorem narrow_lock_reaches_end :
    let program := (RangeCall.tryLock true).program narrowEngine silent (3 : Int64) (0 : Int64) (4294967296 : Int64)
    (Program.replay (fun _ => willing) 0 program).1.map KernelOp.range = [some (0, 0)] ∧
      ¬ Preserved program 0 4294967296 := by
  intro program
  have asked : (Program.replay (fun _ => willing) 0 program).1 =
      [.lock (3 : Int32) (.ofdSetlk (Lock.Linux.flock 0 0 (some .wrlock)))] := rfl
  refine ⟨by rw [asked]; rfl, fun preserved => ?_⟩
  obtain ⟨op, made, found⟩ := preserved (fun _ => willing) willing_obeys
  rw [asked] at made
  cases made
  rcases found with exact | ⟨err, err', failed, _⟩
  · exact absurd exact (by decide)
  · rw [verdict_willing] at failed
    cases failed

theorem narrow_lock_small :
    Preserved ((RangeCall.waitForLock true).program narrowEngine silent (3 : Int64) (7 : Int64) (9 : Int64)) 7 9 ↔
      (9 : Int) < 2 ^ 32 ∨ (RangeCall.waitForLock true).Refused 7 (9 % 2 ^ 32) :=
  range_preserved_iff narrowEngine silent (.waitForLock true) (3 : Int64) (7 : Int64) (9 : Int64) (by decide) (by decide)

end FsExt.Binding.Ranges
