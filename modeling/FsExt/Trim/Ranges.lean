import FsExt.Trim

set_option autoImplicit false

namespace FsExt.Trim

def touched : TrimOp → Option (Nat × Nat)
  | .fallocate offset length => some (offset.toNat, offset.toNat + length.toNat)
  | .fstat => none
  | .pwrite buf offset => some (offset.toNat, offset.toNat + buf.length)
  | .punchHole offset length => some (offset.toNat, offset.toNat + length.toNat)

def punched : TrimOp → Option (Nat × Nat)
  | .punchHole offset length => some (offset.toNat, offset.toNat + length.toNat)
  | _ => none

structure Splits (align start stop : Nat) (ops : List TrimOp) : Prop where
  ordered : (ops.filterMap touched).Pairwise fun range later => range.2 ≤ later.1
  covered : ∀ i, (∃ range ∈ ops.filterMap touched, range.1 ≤ i ∧ i < range.2) ↔ start ≤ i ∧ i < stop
  single : (ops.filterMap punched).length ≤ 1
  aligned : ∀ hole ∈ ops.filterMap punched, align ∣ hole.1 ∧ align ∣ hole.2 - hole.1 ∧ hole.1 < hole.2
  whole : ∀ block, start ≤ block * align → block * align + align ≤ stop →
    ∃ hole ∈ ops.filterMap punched, hole.1 ≤ block * align ∧ block * align + align ≤ hole.2
  short : ∀ buf offset, TrimOp.pwrite buf offset ∈ ops → buf.length < align ∧ ∀ byte ∈ buf, byte = 0

theorem calloc_length (count : UInt64) : (Apple.calloc count).length = count.toNat := List.length_replicate

theorem head_tiles (align offset length : UInt64) :
    Sys.Tiles ((Apple.headCalls align offset length).filterMap touched) offset.toNat
      (offset.toNat + (Apple.headLength align offset length).toNat) := by
  rw [Apple.headCalls]
  by_cases moved : Apple.alignUp offset align ≠ offset
  · rw [if_pos moved]
    refine ⟨rfl, Nat.le_add_right _ _, ?_⟩
    rw [calloc_length]
    rfl
  · rw [if_neg moved, Apple.headLength, if_neg moved]
    rfl

theorem hole_tiles (align offset length : UInt64) :
    Sys.Tiles ((Apple.holeCalls align offset length).filterMap touched) offset.toNat
      (offset.toNat + (Apple.holeLength align length).toNat) := by
  rw [Apple.holeCalls]
  by_cases whole : align ≤ Apple.alignDown length align
  · rw [if_pos whole]
    exact ⟨rfl, Nat.le_add_right _ _, rfl⟩
  · rw [if_neg whole, Apple.holeLength, if_neg whole]
    rfl

theorem tail_tiles (offset length : UInt64) :
    Sys.Tiles ((Apple.tailCalls offset length).filterMap touched) offset.toNat (offset.toNat + length.toNat) := by
  rw [Apple.tailCalls]
  by_cases some : 0 < length
  · rw [if_pos some]
    refine ⟨rfl, Nat.le_add_right _ _, ?_⟩
    rw [calloc_length]
    rfl
  · have zero := no_length length some
    rw [if_neg some, zero]
    rfl

theorem calls_tile (k : Nat) (align offset length : UInt64) (power : align.toNat = 2 ^ k)
    (low : offset.toNat < 2 ^ 63) (bound : offset.toNat + length.toNat < 2 ^ 64) :
    Sys.Tiles ((Apple.calls align offset length).filterMap touched) offset.toNat (offset.toNat + length.toNat) := by
  have head := head_length_word k align offset length power low
  obtain ⟨_, later, closed, advanced, remaining, hole, reached, rest⟩ :=
    trim_points k align offset length _ _ _ power low bound rfl rfl rfl
  have first := head_tiles align offset length
  have second := hole_tiles align (offset + Apple.headLength align offset length)
    (length - Apple.headLength align offset length)
  have third := tail_tiles
    (offset + Apple.headLength align offset length +
      Apple.holeLength align (length - Apple.headLength align offset length))
    (length - Apple.headLength align offset length -
      Apple.holeLength align (length - Apple.headLength align offset length))
  rw [head] at first
  rw [advanced, hole, Nat.add_sub_cancel' later] at second
  rw [reached, rest, Nat.add_sub_cancel' closed] at third
  rw [Apple.calls, Apple.blockCalls, List.filterMap_append, List.filterMap_append]
  exact Sys.tiles_append _ _ _ _ _ first (Sys.tiles_append _ _ _ _ _ second third)

theorem calls_holes (k : Nat) (align offset length : UInt64) (stop first last : Nat) (power : align.toNat = 2 ^ k)
    (low : offset.toNat < 2 ^ 63) (bound : stop < 2 ^ 64) (stopEq : stop = offset.toNat + length.toNat)
    (firstEq : first = headEnd (2 ^ k) offset.toNat stop) (lastEq : last = holeEnd (2 ^ k) first stop) :
    (Apple.calls align offset length).filterMap punched = if first < last then [(first, last)] else [] := by
  obtain ⟨_, later, _, advanced, remaining, hole, reached, rest⟩ :=
    trim_points k align offset length stop first last power low bound stopEq firstEq lastEq
  have head : (Apple.headCalls align offset length).filterMap punched = [] := by
    rw [Apple.headCalls]
    split
    · rfl
    · rfl
  have tail : ∀ offset' length', (Apple.tailCalls offset' length').filterMap punched = [] := by
    intro offset' length'
    rw [Apple.tailCalls]
    split
    · rfl
    · rfl
  rw [Apple.calls, Apple.blockCalls, List.filterMap_append, List.filterMap_append, head, tail, List.append_nil,
    List.nil_append, Apple.holeCalls]
  have some := reaches_iff k align (length - Apple.headLength align offset length) power
  rw [← hole_length_word k align _ power, hole] at some
  by_cases whole : align ≤ Apple.alignDown (length - Apple.headLength align offset length) align
  · have positive := some.mp whole
    rw [if_pos whole, if_pos (by omega)]
    simp only [List.filterMap_cons, List.filterMap_nil, punched, advanced, hole, Nat.add_sub_cancel' later]
  · have none := mt some.mpr whole
    rw [if_neg whole, if_neg (by omega)]
    rfl

theorem calls_short (k : Nat) (align offset length : UInt64) (power : align.toNat = 2 ^ k)
    (low : offset.toNat < 2 ^ 63) (bound : offset.toNat + length.toNat < 2 ^ 64) (buf : List UInt8) (position : UInt64)
    (made : TrimOp.pwrite buf position ∈ Apple.calls align offset length) :
    ∃ count : UInt64, buf = Apple.calloc count ∧ count.toNat < 2 ^ k := by
  have positive := Nat.two_pow_pos k
  have head := head_length_word k align offset length power low
  obtain ⟨_, later, closed, advanced, remaining, hole, reached, rest⟩ :=
    trim_points k align offset length _ _ _ power low bound rfl rfl rfl
  rw [Apple.calls, Apple.blockCalls, List.mem_append, List.mem_append] at made
  rcases made with inHead | inHole | inTail
  · rw [Apple.headCalls] at inHead
    split at inHead
    · cases List.mem_singleton.mp inHead
      have above := Sys.align_up_lt offset.toNat (2 ^ k) positive
      rw [headEnd] at head
      exact ⟨_, rfl, by omega⟩
    · cases inHead
  · rw [Apple.holeCalls] at inHole
    split at inHole
    · cases List.mem_singleton.mp inHole
    · cases inHole
  · rw [Apple.tailCalls] at inTail
    split at inTail
    · cases List.mem_singleton.mp inTail
      refine ⟨_, rfl, ?_⟩
      rw [rest, holeEnd]
      have below := Sys.align_down_gt
        (offset.toNat + length.toNat - headEnd (2 ^ k) offset.toNat (offset.toNat + length.toNat)) (2 ^ k) positive
      omega
    · cases inTail

theorem calls_split (k : Nat) (align offset length : UInt64) (power : align.toNat = 2 ^ k)
    (low : offset.toNat < 2 ^ 63) (bound : offset.toNat + length.toNat < 2 ^ 64) :
    Splits align.toNat offset.toNat (offset.toNat + length.toNat) (Apple.calls align offset length) := by
  have positive := Nat.two_pow_pos k
  have tiles := calls_tile k align offset length power low bound
  obtain ⟨stop, stopEq⟩ : ∃ stop, stop = offset.toNat + length.toNat := ⟨_, rfl⟩
  obtain ⟨first, firstEq⟩ : ∃ first, first = headEnd (2 ^ k) offset.toNat stop := ⟨_, rfl⟩
  obtain ⟨last, lastEq⟩ : ∃ last, last = holeEnd (2 ^ k) first stop := ⟨_, rfl⟩
  have holes := calls_holes k align offset length stop first last power low (by omega) stopEq firstEq lastEq
  rw [headEnd] at firstEq
  rw [holeEnd] at lastEq
  rw [← stopEq] at tiles ⊢
  rw [power]
  refine ⟨Sys.tiles_ordered _ _ _ tiles, fun i => Sys.tiles_cover _ _ _ i tiles, ?_, ?_, ?_, ?_⟩
  · rw [holes]
    split
    · exact Nat.le_refl _
    · exact Nat.zero_le _
  · intro hole member
    rw [holes] at member
    split at member
    · rename_i some
      cases List.mem_singleton.mp member
      have atBlock : first = Sys.alignUp offset.toNat (2 ^ k) := by
        have nothing := Sys.align_down_le (stop - first) (2 ^ k)
        omega
      refine ⟨atBlock ▸ Sys.align_up_dvd _ _, ?_, some⟩
      rw [show last - first = Sys.alignDown (stop - first) (2 ^ k) by omega]
      exact Sys.align_down_dvd _ _
    · cases member
  · intro block reached inside
    have start := Sys.align_up_le offset.toNat (2 ^ k) (block * 2 ^ k) positive (Nat.dvd_mul_left _ _) reached
    have atBlock : first = Sys.alignUp offset.toNat (2 ^ k) := by omega
    have multiple : 2 ^ k ∣ block * 2 ^ k + 2 ^ k - first :=
      Nat.dvd_sub (Nat.dvd_add (Nat.dvd_mul_left _ _) (Nat.dvd_refl _)) (atBlock ▸ Sys.align_up_dvd _ _)
    have whole := Sys.align_down_ge (stop - first) (2 ^ k) _ positive multiple (by omega)
    rw [holes, if_pos (by omega)]
    exact ⟨_, .head _, by omega, by omega⟩
  · intro buf position made
    obtain ⟨count, rfl, short⟩ := calls_short k align offset length power low (by omega) buf position made
    refine ⟨by rw [calloc_length]; exact short, fun byte member => List.eq_of_mem_replicate member⟩

theorem trim_splits (k : Nat) (blksize offset length : UInt64) (answers : Nat → (op : TrimOp) → TrimAnswer op)
    (power : blksize.toNat = 2 ^ k) (offsetNonneg : offset.toNat < 2 ^ 63) (lengthNonneg : length.toNat < 2 ^ 63)
    (block : ∀ n, answers n .fstat = .ok blksize) (succeed : ∀ n op, verdict op (answers n op) = .ok ()) :
    (Sys.Program.replay answers 0 (Apple.trim offset length)).2 = .ok () ∧
      Splits blksize.toNat offset.toNat (offset.toNat + length.toNat)
        (Sys.Program.replay answers 0 (Apple.trim offset length)).1 := by
  have calls := Sys.Program.replay_in_order verdict answers (Apple.calls blksize offset length) 1 succeed
  have whole : Sys.Program.replay answers 0 (Apple.trim offset length) =
      (.fstat :: Apple.calls blksize offset length, .ok ()) := by
    rw [Apple.trim, Sys.Program.perform_bind, Sys.Program.replay, block]
    simp only [Apple.trim_from_calls, calls]
  have split := calls_split k blksize offset length power offsetNonneg (by omega)
  rw [whole]
  exact ⟨rfl, split.ordered, split.covered, split.single, split.aligned, split.whole, fun buf position made =>
    split.short buf position (by simpa using made)⟩

theorem trim_splits_unaligned :
    (Sys.Program.replay (fun _ op => (handler 4 op []).1) 0 (Apple.trim 3 10)).2 = .ok () ∧
      Splits 4 3 13 (Sys.Program.replay (fun _ op => (handler 4 op []).1) 0 (Apple.trim 3 10)).1 :=
  trim_splits 2 4 3 10 (fun _ op => (handler 4 op []).1) (by decide) (by decide) (by decide) (fun _ => rfl) fun _ op => by
    cases op <;> rfl

end FsExt.Trim
