import FsExt.Uv
import FsExt.Sys.Extent
import FsExt.Sys.Program

set_option autoImplicit false

namespace FsExt.Trim

open Sys (wipe fill writeAt)

-- `fallocate` with FALLOC_FL_PUNCH_HOLE and FALLOC_FL_KEEP_SIZE, `punchHole` is
-- `fcntl` with F_PUNCHHOLE. `fstat` answers the block size.
inductive TrimOp where
  | fallocate (offset length : UInt64)
  | fstat
  | pwrite (buf : List UInt8) (offset : UInt64)
  | punchHole (offset length : UInt64)

abbrev TrimAnswer : TrimOp → Type
  | .fallocate _ _ => Status
  | .fstat => Except UvError UInt64
  | .pwrite _ _ => Except UvError Nat
  | .punchHole _ _ => Status

abbrev TrimProgram (α : Type) := Sys.Program TrimOp TrimAnswer α

namespace Linux

def trim (offset length : UInt64) : TrimProgram Status := Sys.Program.perform (TrimOp.fallocate offset length)

end Linux

namespace Apple

def alignUp (n align : UInt64) : UInt64 := (n + (align - 1)) &&& -align

def alignDown (n align : UInt64) : UInt64 := n &&& -align

def min (a b : UInt64) : UInt64 := if a < b then a else b

def calloc (size : UInt64) : List UInt8 := List.replicate size.toNat 0

def pwrite (buf : List UInt8) (offset : UInt64) : TrimProgram (Except UvError Nat) :=
  Sys.Program.perform (TrimOp.pwrite buf offset)

def trimTail (offset length : UInt64) : TrimProgram Status := do
  if 0 < length then
    match ← pwrite (calloc length) offset with
    | .error err => return .error err
    | .ok _ => return .ok ()
  else return .ok ()

def trimHole (align offset length : UInt64) : TrimProgram Status := do
  let alignedLength := alignDown length align
  if align ≤ alignedLength then
    match ← (Sys.Program.perform (TrimOp.punchHole offset alignedLength) : TrimProgram Status) with
    | .error err => return .error err
    | .ok () => trimTail (offset + alignedLength) (length - alignedLength)
  else trimTail offset length

def trimFrom (align offset length : UInt64) : TrimProgram Status := do
  let alignedOffset := alignUp offset align
  if alignedOffset ≠ offset then
    let zeroLength := min length (alignedOffset - offset)
    match ← pwrite (calloc zeroLength) offset with
    | .error err => return .error err
    | .ok _ => trimHole align (offset + zeroLength) (length - zeroLength)
  else trimHole align offset length

def trim (offset length : UInt64) : TrimProgram Status := do
  match ← (Sys.Program.perform TrimOp.fstat : TrimProgram (Except UvError UInt64)) with
  | .error err => return .error err
  | .ok align => trimFrom align offset length

end Apple

def verdict : (op : TrimOp) → TrimAnswer op → Status
  | .fallocate _ _, answer => answer
  | .fstat, answer => answer.map fun _ => ()
  | .pwrite _ _, answer => answer.map fun _ => ()
  | .punchHole _ _, answer => answer

namespace Apple

def headLength (align offset length : UInt64) : UInt64 :=
  if alignUp offset align ≠ offset then min length (alignUp offset align - offset) else 0

def holeLength (align length : UInt64) : UInt64 :=
  if align ≤ alignDown length align then alignDown length align else 0

def headCalls (align offset length : UInt64) : List TrimOp :=
  if alignUp offset align ≠ offset then [.pwrite (calloc (headLength align offset length)) offset] else []

def holeCalls (align offset length : UInt64) : List TrimOp :=
  if align ≤ alignDown length align then [.punchHole offset (holeLength align length)] else []

def tailCalls (offset length : UInt64) : List TrimOp :=
  if 0 < length then [.pwrite (calloc length) offset] else []

def blockCalls (align offset length : UInt64) : List TrimOp :=
  holeCalls align offset length ++ tailCalls (offset + holeLength align length) (length - holeLength align length)

def calls (align offset length : UInt64) : List TrimOp :=
  headCalls align offset length ++
    blockCalls align (offset + headLength align offset length) (length - headLength align offset length)

theorem trim_tail_calls (offset length : UInt64) :
    trimTail offset length = Sys.Program.inOrder verdict (tailCalls offset length) := by
  rw [trimTail, tailCalls]
  by_cases some : 0 < length
  · rw [if_pos some, if_pos some]
    refine congrArg (Sys.Program.call _) (funext fun answer => ?_)
    cases answer with
    | error err => rfl
    | ok count => rfl
  · rw [if_neg some, if_neg some]
    rfl

theorem trim_hole_calls (align offset length : UInt64) :
    trimHole align offset length = Sys.Program.inOrder verdict (blockCalls align offset length) := by
  rw [trimHole, blockCalls, holeCalls, holeLength]
  by_cases whole : align ≤ alignDown length align
  · rw [if_pos whole, if_pos whole, if_pos whole]
    refine congrArg (Sys.Program.call _) (funext fun answer => ?_)
    cases answer with
    | error err => rfl
    | ok done => exact trim_tail_calls _ _
  · rw [if_neg whole, if_neg whole, if_neg whole, trim_tail_calls, UInt64.add_zero, UInt64.sub_zero]
    rfl

theorem trim_from_calls (align offset length : UInt64) :
    trimFrom align offset length = Sys.Program.inOrder verdict (calls align offset length) := by
  rw [trimFrom, calls, headCalls, headLength]
  by_cases moved : alignUp offset align ≠ offset
  · rw [if_pos moved, if_pos moved, if_pos moved]
    refine congrArg (Sys.Program.call _) (funext fun answer => ?_)
    cases answer with
    | error err => rfl
    | ok count => exact trim_hole_calls _ _ _
  · rw [if_neg moved, if_neg moved, if_neg moved, trim_hole_calls, UInt64.add_zero, UInt64.sub_zero]
    rfl

end Apple

-- Every call succeeds, and completely: a write past the end of the file extends
-- it, a write of nothing does not, and no hole changes the size.
def handler (blksize : UInt64) : Sys.Program.Handler TrimOp TrimAnswer (List UInt8)
  | .fallocate offset length, file => (.ok (), wipe 0 offset.toNat (offset.toNat + length.toNat) file)
  | .fstat, file => (.ok blksize, file)
  | .pwrite buf offset, file => (.ok buf.length, if buf = [] then file else writeAt 0 offset.toNat buf file)
  | .punchHole offset length, file => (.ok (), wipe 0 offset.toNat (offset.toNat + length.toNat) file)

theorem align_neg (k : Nat) (align : UInt64) (power : align.toNat = 2 ^ k) :
    (-align).toNat = 2 ^ 64 - 2 ^ k ∧ k < 64 := by
  have positive := Nat.two_pow_pos k
  have bound := align.toNat_lt
  rw [power] at bound
  refine ⟨?_, (Nat.pow_lt_pow_iff_right (by omega)).mp bound⟩
  rw [UInt64.toNat_neg, power]
  exact Nat.mod_eq_of_lt (by simp only [UInt64.size]; omega)

theorem align_down_word (k : Nat) (align n : UInt64) (power : align.toNat = 2 ^ k) :
    (Apple.alignDown n align).toNat = Sys.alignDown n.toNat (2 ^ k) := by
  obtain ⟨mask, fits⟩ := align_neg k align power
  rw [Apple.alignDown, UInt64.toNat_and, mask]
  exact Sys.mask_low n.toNat k 64 (Nat.le_of_lt fits) n.toNat_lt

theorem align_up_word (k : Nat) (align n : UInt64) (power : align.toNat = 2 ^ k) (bound : n.toNat < 2 ^ 63) :
    (Apple.alignUp n align).toNat = Sys.alignUp n.toNat (2 ^ k) := by
  obtain ⟨mask, fits⟩ := align_neg k align power
  have positive := Nat.two_pow_pos k
  have half : 2 ^ k ≤ 2 ^ 63 := Nat.pow_le_pow_right (by omega) (by omega)
  have less : (align - 1).toNat = 2 ^ k - 1 := by
    rw [UInt64.toNat_sub_of_le _ _ (UInt64.le_iff_toNat_le.mpr (by rw [power]; exact positive)), power]
    rfl
  have sum : (n + (align - 1)).toNat = n.toNat + (2 ^ k - 1) := by
    rw [UInt64.toNat_add, less]
    exact Nat.mod_eq_of_lt (by omega)
  rw [Apple.alignUp, UInt64.toNat_and, mask, sum, Sys.mask_low _ k 64 (Nat.le_of_lt fits) (by omega), Sys.alignUp,
    Sys.alignDown]

def headEnd (align start stop : Nat) : Nat := min stop (Sys.alignUp start align)

def holeEnd (align start stop : Nat) : Nat := start + Sys.alignDown (stop - start) align

theorem head_end_bounds (align start stop : Nat) (positive : 0 < align) (forward : start ≤ stop) :
    start ≤ headEnd align start stop ∧ headEnd align start stop ≤ stop := by
  have above := Sys.align_up_ge start align positive
  rw [headEnd]
  omega

theorem hole_end_le (align start stop : Nat) (forward : start ≤ stop) : holeEnd align start stop ≤ stop := by
  have bound := Sys.align_down_le (stop - start) align
  rw [holeEnd]
  omega

theorem moved_iff (k : Nat) (align offset : UInt64) (power : align.toNat = 2 ^ k) (low : offset.toNat < 2 ^ 63) :
    Apple.alignUp offset align ≠ offset ↔ ¬ 2 ^ k ∣ offset.toNat := by
  rw [← Sys.align_up_eq_iff offset.toNat (2 ^ k) (Nat.two_pow_pos k), ← align_up_word k align offset power low,
    UInt64.toNat_inj]

theorem head_length_word (k : Nat) (align offset length : UInt64) (power : align.toNat = 2 ^ k)
    (low : offset.toNat < 2 ^ 63) :
    offset.toNat + (Apple.headLength align offset length).toNat =
      headEnd (2 ^ k) offset.toNat (offset.toNat + length.toNat) := by
  have aligned := align_up_word k align offset power low
  have above := Sys.align_up_ge offset.toNat (2 ^ k) (Nat.two_pow_pos k)
  rw [Apple.headLength, headEnd]
  by_cases moved : Apple.alignUp offset align ≠ offset
  · have gap : (Apple.alignUp offset align - offset).toNat = Sys.alignUp offset.toNat (2 ^ k) - offset.toNat := by
      rw [UInt64.toNat_sub_of_le _ _ (UInt64.le_iff_toNat_le.mpr (by rw [aligned]; exact above)), aligned]
    rw [if_pos moved, Apple.min]
    by_cases less : length < Apple.alignUp offset align - offset
    · have short := UInt64.lt_iff_toNat_lt.mp less
      rw [if_pos less]
      omega
    · have long := Nat.not_lt.mp fun short => less (UInt64.lt_iff_toNat_lt.mpr short)
      rw [if_neg less]
      omega
  · have same : Sys.alignUp offset.toNat (2 ^ k) = offset.toNat := by
      rw [← aligned, not_not.mp moved]
    rw [if_neg moved, same]
    exact (Nat.min_eq_right (Nat.le_add_right _ _)).symm

theorem reaches_iff (k : Nat) (align length : UInt64) (power : align.toNat = 2 ^ k) :
    align ≤ Apple.alignDown length align ↔ 0 < Sys.alignDown length.toNat (2 ^ k) := by
  rw [UInt64.le_iff_toNat_le, align_down_word k align length power, power]
  constructor
  · intro reached
    exact Nat.lt_of_lt_of_le (Nat.two_pow_pos k) reached
  · intro some
    by_contra small
    have zero := Sys.align_down_small length.toNat (2 ^ k) (by omega)
    omega

theorem hole_length_word (k : Nat) (align length : UInt64) (power : align.toNat = 2 ^ k) :
    (Apple.holeLength align length).toNat = Sys.alignDown length.toNat (2 ^ k) := by
  have aligned := align_down_word k align length power
  have reached := reaches_iff k align length power
  rw [Apple.holeLength]
  by_cases whole : align ≤ Apple.alignDown length align
  · rw [if_pos whole, aligned]
  · rw [if_neg whole]
    exact (Nat.eq_zero_of_not_pos fun some => whole (reached.mpr some)).symm

theorem trim_points (k : Nat) (align offset length : UInt64) (stop first last : Nat) (power : align.toNat = 2 ^ k)
    (low : offset.toNat < 2 ^ 63) (bound : stop < 2 ^ 64) (stopEq : stop = offset.toNat + length.toNat)
    (firstEq : first = headEnd (2 ^ k) offset.toNat stop) (lastEq : last = holeEnd (2 ^ k) first stop) :
    let offset' := offset + Apple.headLength align offset length
    let length' := length - Apple.headLength align offset length
    offset.toNat ≤ first ∧ first ≤ last ∧ last ≤ stop ∧ offset'.toNat = first ∧ length'.toNat = stop - first ∧
      (Apple.holeLength align length').toNat = last - first ∧
      (offset' + Apple.holeLength align length').toNat = last ∧
      (length' - Apple.holeLength align length').toNat = stop - last := by
  intro offset' length'
  have head := head_length_word k align offset length power low
  rw [← stopEq, ← firstEq] at head
  have bounds := head_end_bounds (2 ^ k) offset.toNat stop (Nat.two_pow_pos k) (by omega)
  rw [← firstEq] at bounds
  have closed := hole_end_le (2 ^ k) first stop bounds.2
  rw [← lastEq] at closed
  rw [holeEnd] at lastEq
  have advanced : offset'.toNat = first := by
    rw [UInt64.toNat_add, head]
    exact Nat.mod_eq_of_lt (by omega)
  have remaining : length'.toNat = stop - first := by
    rw [UInt64.toNat_sub_of_le _ _ (UInt64.le_iff_toNat_le.mpr (by omega))]
    omega
  have hole : (Apple.holeLength align length').toNat = last - first := by
    rw [hole_length_word k align length' power, remaining]
    omega
  refine ⟨bounds.1, by omega, closed, advanced, remaining, hole, ?_, ?_⟩
  · rw [UInt64.toNat_add, advanced, hole, Nat.mod_eq_of_lt (by omega)]
    omega
  · rw [UInt64.toNat_sub_of_le _ _ (UInt64.le_iff_toNat_le.mpr (by omega)), remaining, hole]
    omega

theorem pwrite_zeros (blksize offset count : UInt64) (file : List UInt8) :
    (handler blksize (.pwrite (Apple.calloc count) offset) file).2 =
      fill 0 offset.toNat (offset.toNat + count.toNat) file := by
  simp only [handler, Apple.calloc, fill, List.replicate_eq_nil_iff]
  by_cases empty : count.toNat = 0
  · rw [if_pos empty, if_neg (by omega)]
  · rw [if_neg empty, if_pos (by omega)]
    congr 2
    omega

theorem run_head (blksize offset length : UInt64) (file : List UInt8) :
    Sys.Program.run (handler blksize) (Sys.Program.inOrder verdict (Apple.headCalls blksize offset length)) file =
      (.ok (), fill 0 offset.toNat (offset.toNat + (Apple.headLength blksize offset length).toNat) file) := by
  rw [Apple.headCalls]
  by_cases moved : Apple.alignUp offset blksize ≠ offset
  · rw [if_pos moved, Sys.Program.run_in_order_one, pwrite_zeros]
    rfl
  · rw [if_neg moved, Apple.headLength, if_neg moved, UInt64.toNat_zero, Nat.add_zero,
      Sys.fill_empty 0 _ _ file (Nat.le_refl _)]
    rfl

theorem run_hole (blksize offset length : UInt64) (file : List UInt8) :
    Sys.Program.run (handler blksize) (Sys.Program.inOrder verdict (Apple.holeCalls blksize offset length)) file =
      (.ok (), wipe 0 offset.toNat (offset.toNat + (Apple.holeLength blksize length).toNat) file) := by
  rw [Apple.holeCalls]
  by_cases whole : blksize ≤ Apple.alignDown length blksize
  · rw [if_pos whole, Sys.Program.run_in_order_one]
    rfl
  · rw [if_neg whole, Apple.holeLength, if_neg whole, UInt64.toNat_zero, Nat.add_zero,
      Sys.wipe_empty 0 _ _ file (Nat.le_refl _)]
    rfl

theorem no_length (length : UInt64) (none : ¬ 0 < length) : length.toNat = 0 :=
  Nat.eq_zero_of_not_pos fun positive => none (UInt64.lt_iff_toNat_lt.mpr positive)

theorem run_tail (blksize offset length : UInt64) (file : List UInt8) :
    Sys.Program.run (handler blksize) (Sys.Program.inOrder verdict (Apple.tailCalls offset length)) file =
      (.ok (), fill 0 offset.toNat (offset.toNat + length.toNat) file) := by
  rw [Apple.tailCalls]
  by_cases some : 0 < length
  · rw [if_pos some, Sys.Program.run_in_order_one, pwrite_zeros]
    rfl
  · have zero := no_length length some
    rw [if_neg some, zero, Nat.add_zero, Sys.fill_empty 0 _ _ file (Nat.le_refl _)]
    rfl

theorem run_trim (k : Nat) (blksize offset length : UInt64) (file : List UInt8) (power : blksize.toNat = 2 ^ k)
    (bound : offset.toNat + length.toNat < 2 ^ 63) :
    let stop := offset.toNat + length.toNat
    let first := headEnd (2 ^ k) offset.toNat stop
    let last := holeEnd (2 ^ k) first stop
    Sys.Program.run (handler blksize) (Apple.trim offset length) file =
      (.ok (), fill 0 last stop (wipe 0 first last (fill 0 offset.toNat first file))) := by
  intro stop first last
  have head := head_length_word k blksize offset length power (by omega)
  obtain ⟨forward, later, closed, advanced, remaining, hole, reached, rest⟩ :=
    trim_points k blksize offset length stop first last power (by omega) (by omega) rfl rfl rfl
  rw [Apple.trim]
  simp only [Sys.Program.perform_bind, Sys.Program.run_call, handler]
  rw [Apple.trim_from_calls, Apple.calls, Sys.Program.run_in_order_ok verdict _ _ _ _ _ (run_head blksize offset length file),
    Apple.blockCalls, Sys.Program.run_in_order_ok verdict _ _ _ _ _ (run_hole blksize _ _ _), run_tail, head, advanced, hole,
    reached, rest, Nat.add_sub_cancel' later, Nat.add_sub_cancel' closed]

-- What makes the writes around the hole stay inside the file: the range ends in
-- it, or ends with a block and has no partial block at its start that leaves it.
def WritesInside (align size offset length : Nat) : Prop :=
  offset + length ≤ size ∨
    align ∣ offset + length ∧ (align ∣ offset ∨ Sys.alignUp offset align ≤ size)

instance (align size offset length : Nat) : Decidable (WritesInside align size offset length) :=
  inferInstanceAs (Decidable (_ ∨ _))

theorem writes_inside_iff (align size offset length : Nat) (positive : 0 < align) (nonempty : 0 < length) :
    let stop := offset + length
    let first := headEnd align offset stop
    (offset < first → first ≤ size) ∧ (holeEnd align first stop < stop → stop ≤ size) ↔
      WritesInside align size offset length := by
  intro stop first
  have above := Sys.align_up_ge offset align positive
  have firstEq : first = min stop (Sys.alignUp offset align) := rfl
  have bounds : offset ≤ first ∧ first ≤ stop := by omega
  -- no tail is written when the range ends with a block
  have whole : holeEnd align first stop = stop ↔ align ∣ stop - first := by
    rw [← Sys.align_down_eq_iff, holeEnd]
    have below := Sys.align_down_le (stop - first) align
    omega
  have ends : first = Sys.alignUp offset align → (align ∣ stop - first ↔ align ∣ stop) := by
    intro atBlock
    have multiple : align ∣ first := atBlock ▸ Sys.align_up_dvd offset align
    exact ⟨fun rest => by simpa [Nat.sub_add_cancel bounds.2] using Nat.dvd_add rest multiple,
      fun all => Nat.dvd_sub all multiple⟩
  constructor
  · intro inside
    obtain ⟨head, tail⟩ := inside
    by_cases fits : stop ≤ size
    · exact .inl fits
    · have closed := hole_end_le align first stop bounds.2
      have noTail : align ∣ stop - first := whole.mp (by omega)
      by_cases aligned : align ∣ offset
      · have same := (Sys.align_up_eq_iff offset align positive).mpr aligned
        exact .inr ⟨(ends (by omega)).mp noTail, .inl aligned⟩
      · have different := mt (Sys.align_up_eq_iff offset align positive).mp aligned
        have kept := head (by omega)
        exact .inr ⟨(ends (by omega)).mp noTail, .inr (by omega)⟩
  · intro inside
    rcases inside with fits | ⟨block, start⟩
    · exact ⟨by omega, fun _ => fits⟩
    · have reached := Sys.align_up_le offset align stop positive block (by omega)
      refine ⟨?_, ?_⟩
      · intro head
        rcases start with aligned | kept
        · have same := (Sys.align_up_eq_iff offset align positive).mpr aligned
          omega
        · omega
      · intro tail
        have noTail := whole.mpr ((ends (by omega)).mpr block)
        omega

theorem trim_agrees_iff (k : Nat) (blksize offset length : UInt64) (file : List UInt8)
    (power : blksize.toNat = 2 ^ k) (nonempty : 0 < length.toNat)
    (bound : offset.toNat + length.toNat < 2 ^ 63) :
    (Sys.Program.run (handler blksize) (Apple.trim offset length) file).2 =
        (Sys.Program.run (handler blksize) (Linux.trim offset length) file).2 ↔
      WritesInside blksize.toNat file.length offset.toNat length.toNat := by
  have positive := Nat.two_pow_pos k
  have above := Sys.align_up_ge offset.toNat (2 ^ k) positive
  have bounds : offset.toNat ≤ headEnd (2 ^ k) offset.toNat (offset.toNat + length.toNat) ∧
      headEnd (2 ^ k) offset.toNat (offset.toNat + length.toNat) ≤ offset.toNat + length.toNat := by
    rw [headEnd]
    omega
  have punched : Sys.Program.run (handler blksize) (Linux.trim offset length) file =
      (.ok (), wipe 0 offset.toNat (offset.toNat + length.toNat) file) := rfl
  rw [run_trim k blksize offset length file power bound, punched,
    Sys.fill_wipe_fill 0 _ _ _ _ file bounds.1 (by rw [holeEnd]; omega) (hole_end_le _ _ _ bounds.2), power]
  exact writes_inside_iff (2 ^ k) file.length offset.toNat length.toNat positive nonempty

theorem trim_agrees_whole_block :
    (Sys.Program.run (handler 4) (Apple.trim 2 6) [1, 2, 3, 4, 5]).2 =
        (Sys.Program.run (handler 4) (Linux.trim 2 6) [1, 2, 3, 4, 5]).2 ↔ WritesInside 4 5 2 6 :=
  trim_agrees_iff 2 4 2 6 [1, 2, 3, 4, 5] (by decide) (by decide) (by decide)

theorem trim_extends_file :
    (4096 : UInt64).toNat = 2 ^ 12 ∧ (Sys.Program.run (handler 4096) (Apple.trim 0 2) [7]).2 = [0, 0] ∧
      (Sys.Program.run (handler 4096) (Linux.trim 0 2) [7]).2 = [0] := by
  decide

end FsExt.Trim
