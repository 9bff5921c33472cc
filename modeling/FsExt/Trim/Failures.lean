import FsExt.Sys.Words
import FsExt.Trim

set_option autoImplicit false

namespace FsExt.Trim

open Sys (content wipe fill)

-- What becomes of a call: it fails and changes nothing, or it is carried out, a
-- write with the first `count` of its bytes at most.
inductive Outcome where
  | fails (err : UvError)
  | done (count : Nat)

def refused : TrimOp → Bool
  | .fallocate offset length => 2 ^ 63 ≤ offset.toNat || 2 ^ 63 ≤ length.toNat
  | .fstat => false
  | .pwrite buf offset => 2 ^ 63 ≤ offset.toNat || 2 ^ 63 ≤ buf.length
  | .punchHole offset length => 2 ^ 63 ≤ offset.toNat || 2 ^ 63 ≤ length.toNat

section
variable (blksize : UInt64) (plan : TrimOp → Outcome)

def outcome (op : TrimOp) : Outcome := if refused op then .fails .EINVAL else plan op

def planned : Sys.Program.Handler TrimOp TrimAnswer (List UInt8)
  | .fallocate offset length, file =>
      match outcome plan (.fallocate offset length) with
      | .fails err => (.error err, file)
      | .done _ => handler blksize (.fallocate offset length) file
  | .fstat, file =>
      match outcome plan .fstat with
      | .fails err => (.error err, file)
      | .done _ => handler blksize .fstat file
  | .pwrite buf offset, file =>
      match outcome plan (.pwrite buf offset) with
      | .fails err => (.error err, file)
      | .done count => handler blksize (.pwrite (buf.take count) offset) file
  | .punchHole offset length, file =>
      match outcome plan (.punchHole offset length) with
      | .fails err => (.error err, file)
      | .done _ => handler blksize (.punchHole offset length) file

def zeroed (offset count : UInt64) : Nat :=
  match outcome plan (.pwrite (Apple.calloc count) offset) with
  | .fails _ => 0
  | .done written => min written count.toNat

theorem zeroed_le (offset count : UInt64) : zeroed plan offset count ≤ count.toNat := by
  rw [zeroed]
  split
  · exact Nat.zero_le _
  · exact Nat.min_le_right _ _

theorem zeroed_fails (offset count : UInt64) (err : UvError)
    (failed : outcome plan (.pwrite (Apple.calloc count) offset) = .fails err) : zeroed plan offset count = 0 := by
  rw [zeroed, failed]

theorem run_fails (op : TrimOp) (rest : List TrimOp) (file : List UInt8) (err : UvError)
    (failed : outcome plan op = .fails err) :
    Sys.Program.run (planned blksize plan) (Sys.Program.inOrder verdict (op :: rest)) file = (.error err, file) := by
  rw [Sys.Program.inOrder, Sys.Program.run_call]
  cases op with
  | fstat | fallocate offset length | pwrite buf offset | punchHole offset length =>
      rw [planned, failed]
      rfl

def Stage (ops : List TrimOp) (file file' : List UInt8) : Prop :=
  (∃ err, Sys.Program.run (planned blksize plan) (Sys.Program.inOrder verdict ops) file = (.error err, file)) ∨
    Sys.Program.run (planned blksize plan) (Sys.Program.inOrder verdict ops) file = (.ok (), file')

theorem pwrite_done (offset count : UInt64) (written : Nat) (file : List UInt8)
    (done : outcome plan (.pwrite (Apple.calloc count) offset) = .done written) :
    Sys.Program.run (planned blksize plan) (Sys.Program.inOrder verdict [.pwrite (Apple.calloc count) offset]) file =
      (.ok (), fill 0 offset.toNat (offset.toNat + zeroed plan offset count) file) := by
  have bound := count.toNat_lt
  have few : (UInt64.ofNat (min written count.toNat)).toNat = min written count.toNat := by
    rw [UInt64.toNat_ofNat']
    exact Nat.mod_eq_of_lt (by omega)
  have part : (Apple.calloc count).take written = Apple.calloc (.ofNat (min written count.toNat)) := by
    rw [Apple.calloc, Apple.calloc, List.take_replicate, few]
  have wrote := pwrite_zeros blksize offset (.ofNat (min written count.toNat)) file
  rw [few, ← part] at wrote
  rw [Sys.Program.run_in_order_one, planned, zeroed, done]
  exact congrArg (Prod.mk _) wrote

theorem punch_done (offset length : UInt64) (count : Nat) (file : List UInt8)
    (done : outcome plan (.punchHole offset length) = .done count) :
    Sys.Program.run (planned blksize plan) (Sys.Program.inOrder verdict [.punchHole offset length]) file =
      (.ok (), wipe 0 offset.toNat (offset.toNat + length.toNat) file) := by
  rw [Sys.Program.run_in_order_one, planned, done]
  rfl

theorem pwrite_stage (offset count : UInt64) (file : List UInt8) :
    Stage blksize plan [.pwrite (Apple.calloc count) offset] file
      (fill 0 offset.toNat (offset.toNat + zeroed plan offset count) file) := by
  cases fate : outcome plan (.pwrite (Apple.calloc count) offset) with
  | fails err => exact .inl ⟨err, run_fails blksize plan _ [] file err fate⟩
  | done written => exact .inr (pwrite_done blksize plan offset count written file fate)

theorem head_stage (offset length : UInt64) (file : List UInt8) :
    Stage blksize plan (Apple.headCalls blksize offset length) file
      (fill 0 offset.toNat (offset.toNat + zeroed plan offset (Apple.headLength blksize offset length)) file) := by
  rw [Apple.headCalls]
  by_cases moved : Apple.alignUp offset blksize ≠ offset
  · rw [if_pos moved]
    exact pwrite_stage blksize plan offset _ file
  · have nothing := zeroed_le plan offset (Apple.headLength blksize offset length)
    rw [Apple.headLength, if_neg moved, UInt64.toNat_zero] at nothing
    rw [if_neg moved, Apple.headLength, if_neg moved, Sys.fill_empty 0 _ _ file (by omega)]
    exact .inr rfl

theorem tail_stage (offset length : UInt64) (file : List UInt8) :
    Stage blksize plan (Apple.tailCalls offset length) file
      (fill 0 offset.toNat (offset.toNat + zeroed plan offset length) file) := by
  rw [Apple.tailCalls]
  by_cases some : 0 < length
  · rw [if_pos some]
    exact pwrite_stage blksize plan offset length file
  · have nothing := zeroed_le plan offset length
    have zero := no_length length some
    rw [if_neg some, Sys.fill_empty 0 _ _ file (by omega)]
    exact .inr rfl

theorem hole_stage (offset length : UInt64) (file : List UInt8) :
    Stage blksize plan (Apple.holeCalls blksize offset length) file
      (wipe 0 offset.toNat (offset.toNat + (Apple.holeLength blksize length).toNat) file) := by
  rw [Apple.holeCalls]
  by_cases whole : blksize ≤ Apple.alignDown length blksize
  · rw [if_pos whole]
    cases fate : outcome plan (.punchHole offset (Apple.holeLength blksize length)) with
    | fails err => exact .inl ⟨err, run_fails blksize plan _ [] file err fate⟩
    | done count => exact .inr (punch_done blksize plan offset _ count file fate)
  · rw [if_neg whole, Apple.holeLength, if_neg whole, UInt64.toNat_zero, Nat.add_zero,
      Sys.wipe_empty 0 _ _ file (Nat.le_refl _)]
    exact .inr rfl

theorem stage_append (front rest : List TrimOp) (file file' : List UInt8) (first : Stage blksize plan front file file') :
    (∃ err, Sys.Program.run (planned blksize plan) (Sys.Program.inOrder verdict (front ++ rest)) file = (.error err, file)) ∨
      Sys.Program.run (planned blksize plan) (Sys.Program.inOrder verdict (front ++ rest)) file =
        Sys.Program.run (planned blksize plan) (Sys.Program.inOrder verdict rest) file' := by
  rcases first with ⟨err, failed⟩ | done
  · exact .inl ⟨err, Sys.Program.run_in_order_error verdict _ front rest file file err failed⟩
  · exact .inr (Sys.Program.run_in_order_ok verdict _ front rest file file' done)

theorem run_refused_stat (offset length : UInt64) (file : List UInt8) (err : UvError)
    (failed : outcome plan .fstat = .fails err) :
    Sys.Program.run (planned blksize plan) (Apple.trim offset length) file = (.error err, file) := by
  rw [Apple.trim, Sys.Program.perform_bind, Sys.Program.run_call, planned, failed]
  rfl

theorem run_planned (offset length : UInt64) (file : List UInt8) (count : Nat)
    (done : outcome plan .fstat = .done count) :
    Sys.Program.run (planned blksize plan) (Apple.trim offset length) file =
      Sys.Program.run (planned blksize plan) (Sys.Program.inOrder verdict (Apple.calls blksize offset length)) file := by
  rw [Apple.trim, Sys.Program.perform_bind, Sys.Program.run_call, planned, done, ← Apple.trim_from_calls]
  rfl

theorem trim_stages (offset length : UInt64) (file : List UInt8) :
    let head := Apple.headLength blksize offset length
    let offset' := offset + head
    let length' := length - head
    let hole := Apple.holeLength blksize length'
    let afterHead := fill 0 offset.toNat (offset.toNat + zeroed plan offset head) file
    let afterHole := wipe 0 offset'.toNat (offset'.toNat + hole.toNat) afterHead
    let afterTail := fill 0 (offset' + hole).toNat
      ((offset' + hole).toNat + zeroed plan (offset' + hole) (length' - hole)) afterHole
    (∃ err, ∃ left ∈ [file, afterHead, afterHole],
      Sys.Program.run (planned blksize plan) (Apple.trim offset length) file = (.error err, left)) ∨
      Sys.Program.run (planned blksize plan) (Apple.trim offset length) file = (.ok (), afterTail) := by
  intro head offset' length' hole afterHead afterHole afterTail
  cases stat : outcome plan .fstat with
  | fails err => exact .inl ⟨err, file, .head _, run_refused_stat blksize plan offset length file err stat⟩
  | done count =>
      rw [run_planned blksize plan offset length file count stat, Apple.calls]
      rcases stage_append blksize plan _ (Apple.blockCalls blksize offset' length') file afterHead
        (head_stage blksize plan offset length file) with ⟨err, failed⟩ | went
      · exact .inl ⟨err, file, .head _, failed⟩
      · rw [went, Apple.blockCalls]
        rcases stage_append blksize plan _ (Apple.tailCalls (offset' + hole) (length' - hole)) afterHead afterHole
          (hole_stage blksize plan offset' length' afterHead) with ⟨err, failed⟩ | went
        · exact .inl ⟨err, afterHead, .tail _ (.head _), failed⟩
        · rw [went]
          rcases tail_stage blksize plan (offset' + hole) (length' - hole) afterHole with ⟨err, failed⟩ | went
          · exact .inl ⟨err, afterHole, .tail _ (.tail _ (.head _)), failed⟩
          · exact .inr went

theorem run_succeeded (k : Nat) (offset length : UInt64) (stop first last : Nat) (file : List UInt8)
    (power : blksize.toNat = 2 ^ k) (low : offset.toNat < 2 ^ 63) (bound : stop < 2 ^ 64)
    (stopEq : stop = offset.toNat + length.toNat) (firstEq : first = headEnd (2 ^ k) offset.toNat stop)
    (lastEq : last = holeEnd (2 ^ k) first stop)
    (returned : (Sys.Program.run (planned blksize plan) (Apple.trim offset length) file).1 = .ok ()) :
    (Sys.Program.run (planned blksize plan) (Apple.trim offset length) file).2 =
      fill 0 last (last + zeroed plan (.ofNat last) (.ofNat (stop - last)))
        (wipe 0 first last
          (fill 0 offset.toNat (offset.toNat + zeroed plan offset (.ofNat (first - offset.toNat))) file)) := by
  obtain ⟨forward, later, closed, advanced, remaining, hole, reached, rest⟩ :=
    trim_points k blksize offset length stop first last power low bound stopEq firstEq lastEq
  have head := head_length_word k blksize offset length power low
  rw [← stopEq, ← firstEq] at head
  have headEq : Apple.headLength blksize offset length = .ofNat (first - offset.toNat) := by
    rw [← head, Nat.add_sub_cancel_left, UInt64.ofNat_toNat]
  have tailOffset : offset + Apple.headLength blksize offset length +
      Apple.holeLength blksize (length - Apple.headLength blksize offset length) = .ofNat last := by
    rw [← reached, UInt64.ofNat_toNat]
  have tailLength : length - Apple.headLength blksize offset length -
      Apple.holeLength blksize (length - Apple.headLength blksize offset length) = .ofNat (stop - last) := by
    rw [← rest, UInt64.ofNat_toNat]
  rcases trim_stages blksize plan offset length file with ⟨err, _, _, failed⟩ | went
  · rw [failed] at returned
    cases returned
  · rw [went, reached, tailOffset, tailLength, hole, advanced, headEq, Nat.add_sub_cancel' later]

end

structure Trimmed (start stop : Nat) (file final : List UInt8) : Prop where
  zero : Sys.Blank 0 start stop final
  kept : ∀ i, i < file.length → ¬ (start ≤ i ∧ i < stop) → final[i]? = file[i]?

theorem trim_succeeded_iff (k : Nat) (blksize : UInt64) (plan : TrimOp → Outcome) (offset length : UInt64)
    (file : List UInt8) (power : blksize.toNat = 2 ^ k) (bound : offset.toNat + length.toNat < 2 ^ 63)
    (returned : (Sys.Program.run (planned blksize plan) (Apple.trim offset length) file).1 = .ok ()) :
    let stop := offset.toNat + length.toNat
    let first := headEnd (2 ^ k) offset.toNat stop
    let last := holeEnd (2 ^ k) first stop
    Trimmed offset.toNat stop file (Sys.Program.run (planned blksize plan) (Apple.trim offset length) file).2 ↔
      Sys.Blank 0 (offset.toNat + zeroed plan offset (.ofNat (first - offset.toNat))) first file ∧
        Sys.Blank 0 (last + zeroed plan (.ofNat last) (.ofNat (stop - last))) stop file := by
  intro stop first last
  obtain ⟨forward, later, closed, _, _, _, _, _⟩ :=
    trim_points k blksize offset length stop first last power (by omega) (by omega) rfl rfl rfl
  have headPart := zeroed_le plan offset (.ofNat (first - offset.toNat))
  have tailPart := zeroed_le plan (.ofNat last) (.ofNat (stop - last))
  have whole : stop < 2 ^ 63 := bound
  rw [UInt64.toNat_ofNat', Nat.mod_eq_of_lt (by omega)] at headPart tailPart
  rw [run_succeeded blksize plan k offset length stop first last file power (by omega) (by omega) rfl rfl rfl returned]
  constructor
  · intro trimmed
    exact (Sys.parts_blank_iff 0 _ _ _ _ _ _ file (by omega) (by omega) later (by omega) (by omega)).mp trimmed.zero
  · intro blanks
    exact ⟨(Sys.parts_blank_iff 0 _ _ _ _ _ _ file (by omega) (by omega) later (by omega) (by omega)).mpr blanks,
      fun i bound outside => Sys.parts_kept 0 _ _ _ _ _ stop file i (by omega) later (by omega) closed forward bound outside⟩

theorem short_write_reported :
    let result := Sys.Program.run (planned 4 fun _ => .done 1) (Apple.trim 1 2) [1, 2, 3, 4]
    result.1 = .ok () ∧ result.2 = [1, 0, 3, 4] ∧ ¬ Trimmed 1 3 [1, 2, 3, 4] result.2 := by
  refine ⟨by decide, by decide, fun trimmed => ?_⟩
  exact absurd (trimmed.zero 2 (by decide) (by decide) (by decide)) (by decide)

theorem trim_succeeded_short :
    Trimmed 1 3 [1, 2, 3, 4] (Sys.Program.run (planned 4 fun _ => .done 1) (Apple.trim 1 2) [1, 2, 3, 4]).2 ↔
      Sys.Blank 0 (1 + zeroed (fun _ => .done 1) 1 2) 3 ([1, 2, 3, 4] : List UInt8) ∧
        Sys.Blank 0 (3 + zeroed (fun _ => .done 1) 3 0) 3 ([1, 2, 3, 4] : List UInt8) :=
  trim_succeeded_iff 2 4 (fun _ => .done 1) 1 2 [1, 2, 3, 4] (by decide) (by decide) (by decide)

section
variable (blksize : UInt64) (plan : TrimOp → Outcome)

theorem run_refused (op : TrimOp) (rest : List TrimOp) (file : List UInt8) (negative : refused op = true) :
    Sys.Program.run (planned blksize plan) (Sys.Program.inOrder verdict (op :: rest)) file = (.error .EINVAL, file) :=
  run_fails blksize plan op rest file .EINVAL (if_pos negative)

theorem pwrite_refused (buf : List UInt8) (offset : UInt64) (beyond : 2 ^ 63 ≤ offset.toNat) :
    refused (.pwrite buf offset) = true := by
  rw [refused, Bool.or_eq_true, decide_eq_true_eq, decide_eq_true_eq]
  exact .inl beyond

theorem punch_refused (offset length : UInt64) (beyond : 2 ^ 63 ≤ offset.toNat ∨ 2 ^ 63 ≤ length.toNat) :
    refused (.punchHole offset length) = true := by
  rw [refused, Bool.or_eq_true, decide_eq_true_eq, decide_eq_true_eq]
  exact beyond

theorem calls_still (offset length : UInt64) (still : ¬ Apple.alignUp offset blksize ≠ offset) :
    Apple.calls blksize offset length = Apple.blockCalls blksize offset length := by
  rw [Apple.calls, Apple.headCalls, Apple.headLength, if_neg still, if_neg still, UInt64.add_zero, UInt64.sub_zero,
    List.nil_append]

theorem block_beyond (offset length : UInt64) (file : List UInt8) (beyond : 2 ^ 63 ≤ offset.toNat) :
    (Sys.Program.run (planned blksize plan)
      (Sys.Program.inOrder verdict (Apple.blockCalls blksize offset length)) file).2 = file := by
  rw [Apple.blockCalls, Apple.holeCalls]
  by_cases whole : blksize ≤ Apple.alignDown length blksize
  · rw [if_pos whole, List.cons_append, run_refused blksize plan _ _ file (punch_refused _ _ (.inl beyond))]
  · rw [if_neg whole, Apple.holeLength, if_neg whole, UInt64.add_zero, UInt64.sub_zero, List.nil_append, Apple.tailCalls]
    by_cases some : 0 < length
    · rw [if_pos some, run_refused blksize plan _ _ file (pwrite_refused _ _ beyond)]
    · rw [if_neg some]
      rfl

theorem trim_beyond (offset length : UInt64) (file : List UInt8) (beyond : 2 ^ 63 ≤ offset.toNat) :
    (Sys.Program.run (planned blksize plan) (Apple.trim offset length) file).2 = file := by
  cases stat : outcome plan .fstat with
  | fails err => rw [run_refused_stat blksize plan offset length file err stat]
  | done count =>
      rw [run_planned blksize plan offset length file count stat]
      by_cases moved : Apple.alignUp offset blksize ≠ offset
      · rw [Apple.calls, Apple.headCalls, if_pos moved, List.cons_append,
          run_refused blksize plan _ _ file (pwrite_refused _ _ beyond)]
      · rw [calls_still blksize offset length moved, block_beyond blksize plan offset length file beyond]

theorem trim_within (k : Nat) (offset length : UInt64) (file : List UInt8) (power : blksize.toNat = 2 ^ k)
    (low : offset.toNat < 2 ^ 63) (bound : offset.toNat + length.toNat < 2 ^ 64) :
    Sys.Within 0 offset.toNat (offset.toNat + length.toNat) file
      (Sys.Program.run (planned blksize plan) (Apple.trim offset length) file).2 := by
  obtain ⟨forward, later, closed, advanced, remaining, hole, reached, rest⟩ :=
    trim_points k blksize offset length _ _ _ power low bound rfl rfl rfl
  have head := head_length_word k blksize offset length power low
  have headPart := zeroed_le plan offset (Apple.headLength blksize offset length)
  have tailPart := zeroed_le plan
    (offset + Apple.headLength blksize offset length +
      Apple.holeLength blksize (length - Apple.headLength blksize offset length))
    (length - Apple.headLength blksize offset length -
      Apple.holeLength blksize (length - Apple.headLength blksize offset length))
  have untouched := Sys.within_refl (0 : UInt8) offset.toNat (offset.toNat + length.toNat) file
  have afterHead := Sys.within_fill (0 : UInt8) _ _ offset.toNat
    (offset.toNat + zeroed plan offset (Apple.headLength blksize offset length)) file file untouched (by omega) (by omega)
  have afterHole := Sys.within_wipe (0 : UInt8) _ _ (offset + Apple.headLength blksize offset length).toNat
    ((offset + Apple.headLength blksize offset length).toNat +
      (Apple.holeLength blksize (length - Apple.headLength blksize offset length)).toNat)
    file _ afterHead (by omega) (by omega)
  rcases trim_stages blksize plan offset length file with ⟨err, left, state, failed⟩ | went
  · rw [failed]
    simp only [List.mem_cons, List.not_mem_nil, or_false] at state
    rcases state with rfl | rfl | rfl
    · exact untouched
    · exact afterHead
    · exact afterHole
  · rw [went]
    exact Sys.within_fill (0 : UInt8) _ _ _ _ file _ afterHole (by omega) (by omega)

def Carried (op : TrimOp) : Prop := ∃ count, outcome plan op = .done count

theorem not_carried (op : TrimOp) (lost : ¬ Carried plan op) : ∃ err, outcome plan op = .fails err := by
  cases fate : outcome plan op with
  | fails err => exact ⟨err, rfl⟩
  | done count => exact absurd ⟨count, fate⟩ lost

theorem block_far (k : Nat) (offset length : UInt64) (file : List UInt8) (power : blksize.toNat = 2 ^ k) (fits : k ≤ 63)
    (far : 2 ^ 63 ≤ length.toNat) :
    Sys.Program.run (planned blksize plan) (Sys.Program.inOrder verdict (Apple.blockCalls blksize offset length)) file =
      (.error .EINVAL, file) := by
  have whole := Sys.align_down_ge length.toNat (2 ^ k) (2 ^ 63) (Nat.two_pow_pos k) (Nat.pow_dvd_pow 2 fits) far
  have made := (reaches_iff k blksize length power).mpr (by omega)
  rw [← hole_length_word k blksize length power] at whole
  rw [Apple.blockCalls, Apple.holeCalls, if_pos made, List.cons_append,
    run_refused blksize plan _ _ file (punch_refused _ _ (.inr whole))]

theorem near_hole (k : Nat) (length : UInt64) (power : blksize.toNat = 2 ^ k) (fits : k ≤ 63)
    (near : length.toNat < 2 ^ 63) (close : 2 ^ 63 < length.toNat + 2 ^ k) :
    Apple.holeLength blksize length = .ofNat (2 ^ 63 - 2 ^ k) ∧ (Apple.holeLength blksize length).toNat = 2 ^ 63 - 2 ^ k := by
  have below : 2 ^ k ≤ 2 ^ 63 := Nat.pow_le_pow_right (by decide) fits
  have word : (Apple.holeLength blksize length).toNat = 2 ^ 63 - 2 ^ k := by
    rw [hole_length_word k blksize length power]
    exact Sys.align_down_eq _ _ _ (Nat.dvd_sub (Nat.pow_dvd_pow 2 fits) (Nat.dvd_refl _))
      (by omega) (by omega)
  exact ⟨by rw [← word, UInt64.ofNat_toNat], word⟩

section
variable (k : Nat) (offset length : UInt64) (file : List UInt8) (power : blksize.toNat = 2 ^ k) (fits : k ≤ 63)
  (later : 2 ^ k ≤ offset.toNat) (low : offset.toNat ≤ 2 ^ 63) (near : length.toNat < 2 ^ 63)
  (close : 2 ^ 63 < length.toNat + 2 ^ k)
include power fits later low near close

theorem near_tail :
    2 ^ 63 ≤ (offset + Apple.holeLength blksize length).toNat ∧ 0 < length - Apple.holeLength blksize length := by
  have below : 2 ^ k ≤ 2 ^ 63 := Nat.pow_le_pow_right (by decide) fits
  have hole := (near_hole blksize k length power fits near close).2
  constructor
  · rw [UInt64.toNat_add, hole, Nat.mod_eq_of_lt (by omega)]
    omega
  · rw [UInt64.lt_iff_toNat_lt, UInt64.toNat_sub_of_le _ _ (UInt64.le_iff_toNat_le.mpr (by omega)), hole,
      UInt64.toNat_zero]
    omega

theorem block_near_fails :
    (Sys.Program.run (planned blksize plan)
      (Sys.Program.inOrder verdict (Apple.blockCalls blksize offset length)) file).1 ≠ .ok () := by
  obtain ⟨beyond, some⟩ := near_tail blksize k offset length power fits later low near close
  rw [Apple.blockCalls]
  rcases stage_append blksize plan _ (Apple.tailCalls _ _) file _ (hole_stage blksize plan offset length file) with
    ⟨err, failed⟩ | went
  · rw [failed]
    intro done
    cases done
  · rw [went, Apple.tailCalls, if_pos some, run_refused blksize plan _ _ _ (pwrite_refused _ _ beyond)]
    intro done
    cases done

theorem block_near (carried : Carried plan (.punchHole offset (.ofNat (2 ^ 63 - 2 ^ k)))) :
    (Sys.Program.run (planned blksize plan)
      (Sys.Program.inOrder verdict (Apple.blockCalls blksize offset length)) file).2 =
      wipe 0 offset.toNat (offset.toNat + (2 ^ 63 - 2 ^ k)) file := by
  obtain ⟨holeEq, holeWord⟩ := near_hole blksize k length power fits near close
  obtain ⟨beyond, some⟩ := near_tail blksize k offset length power fits later low near close
  obtain ⟨count, done⟩ := carried
  have inside : offset.toNat < 2 ^ 63 := by
    by_contra past
    rw [outcome, if_pos (punch_refused _ _ (.inl (by omega)))] at done
    cases done
  have made : blksize ≤ Apple.alignDown length blksize := by
    rw [reaches_iff k blksize length power, ← hole_length_word k blksize length power]
    omega
  rw [← holeEq] at done
  rw [Apple.blockCalls, Apple.holeCalls, if_pos made, Apple.tailCalls, if_pos some,
    Sys.Program.run_in_order_ok verdict _ _ _ _ _ (punch_done blksize plan offset _ count file done),
    run_refused blksize plan _ _ _ (pwrite_refused _ _ beyond), holeWord]

theorem block_near_lost (lost : ¬ Carried plan (.punchHole offset (.ofNat (2 ^ 63 - 2 ^ k)))) :
    (Sys.Program.run (planned blksize plan)
      (Sys.Program.inOrder verdict (Apple.blockCalls blksize offset length)) file).2 = file := by
  obtain ⟨holeEq, holeWord⟩ := near_hole blksize k length power fits near close
  obtain ⟨err, failed⟩ := not_carried plan _ lost
  by_cases beyond : 2 ^ 63 ≤ offset.toNat
  · exact block_beyond blksize plan offset length file beyond
  · have made : blksize ≤ Apple.alignDown length blksize := by
      rw [reaches_iff k blksize length power, ← hole_length_word k blksize length power]
      omega
    rw [Apple.blockCalls, Apple.holeCalls, if_pos made, List.cons_append, holeEq,
      run_fails blksize plan _ _ file err failed]

end

theorem trim_far (k : Nat) (offset length : UInt64) (file : List UInt8) (power : blksize.toNat = 2 ^ k)
    (low : offset.toNat < 2 ^ 63) (far : 2 ^ 63 ≤ length.toNat) (aligned : 2 ^ k ∣ offset.toNat) :
    (Sys.Program.run (planned blksize plan) (Apple.trim offset length) file).2 = file := by
  have fits := (align_neg k blksize power).2
  cases stat : outcome plan .fstat with
  | fails err => rw [run_refused_stat blksize plan offset length file err stat]
  | done count =>
      have still : ¬ Apple.alignUp offset blksize ≠ offset := fun moved =>
        (moved_iff k blksize offset power low).mp moved aligned
      rw [run_planned blksize plan offset length file count stat, calls_still blksize offset length still,
        block_far blksize plan k offset length file power (by omega) far]

end

-- What is asked of a trim that fails: bytes outside the range as they were, those
-- inside as they were or zero. No byte is inside if the offset is negative.
def Undamaged (start length : Int) (file final : List UInt8) : Prop :=
  ∀ i, i < file.length →
    final[i]? = file[i]? ∨ 0 ≤ start ∧ start ≤ i ∧ i < start + length ∧ final[i]? = some 0

theorem undamaged_same (start length : Int) (file : List UInt8) : Undamaged start length file file :=
  fun _ _ => .inl rfl

theorem undamaged_within (start length : Nat) (file final : List UInt8)
    (within : Sys.Within 0 start (start + length) file final) : Undamaged start length file final := by
  intro i bound
  have long := within.long
  rw [Sys.content_some 0 i final (by omega), Sys.content_some 0 i file bound]
  rcases within.kept i with same | ⟨reached, inside, zero⟩
  · exact .inl (congrArg some same)
  · exact .inr ⟨by omega, by omega, by omega, congrArg some zero⟩

theorem undamaged_empty (start length : Int) (file final : List UInt8) (negative : length < 0) :
    Undamaged start length file final ↔ ∀ i, i < file.length → final[i]? = file[i]? := by
  constructor
  · intro kept i bound
    rcases kept i bound with same | ⟨_, reached, inside, _⟩
    · exact same
    · omega
  · exact fun same i bound => .inl (same i bound)

def Harmless (align : Nat) (plan : TrimOp → Outcome) (offset length : Int64) (file : List UInt8) : Prop :=
  let start := offset.toUInt64.toNat
  let first := Sys.alignUp start align
  let zeros := UInt64.ofNat (first - start)
  0 ≤ length.toInt ∨ offset.toInt < 0 ∨ align ∣ start ∨
    (Carried plan .fstat →
      Sys.Blank 0 start (start + zeroed plan offset.toUInt64 zeros) file ∧
        (Carried plan (.pwrite (Apple.calloc zeros) offset.toUInt64) → length.toInt + 2 ^ 63 < first - start →
          Carried plan (.punchHole (.ofNat first) (.ofNat (2 ^ 63 - align))) →
            Sys.Blank 0 first (first + (2 ^ 63 - align)) file))

theorem stray_words (k : Nat) (align offset length : UInt64) (first : Nat) (power : align.toNat = 2 ^ k)
    (low : offset.toNat < 2 ^ 63) (far : 2 ^ 63 ≤ length.toNat) (inside : ¬ 2 ^ k ∣ offset.toNat)
    (firstEq : first = Sys.alignUp offset.toNat (2 ^ k)) :
    k ≤ 63 ∧ first ≤ 2 ^ 63 ∧ 2 ^ k ≤ first ∧ first < offset.toNat + 2 ^ k ∧
      Apple.headLength align offset length = .ofNat (first - offset.toNat) ∧
      (offset + Apple.headLength align offset length).toNat = first ∧
      (length - Apple.headLength align offset length).toNat = length.toNat - (first - offset.toNat) := by
  have positive := Nat.two_pow_pos k
  have fits : k ≤ 63 := by
    have := (align_neg k align power).2
    omega
  have half : 2 ^ k ≤ 2 ^ 63 := Nat.pow_le_pow_right (by decide) fits
  have top := Sys.align_up_le offset.toNat (2 ^ k) (2 ^ 63) positive (Nat.pow_dvd_pow 2 fits) (by omega)
  have close := Sys.align_up_lt offset.toNat (2 ^ k) positive
  have above := Sys.align_up_ge offset.toNat (2 ^ k) positive
  have some : 0 < offset.toNat := Nat.pos_of_ne_zero fun zero => inside (zero ▸ Nat.dvd_zero _)
  have block := Nat.le_of_dvd (by omega) (Sys.align_up_dvd offset.toNat (2 ^ k))
  have head := head_length_word k align offset length power low
  rw [headEnd, Nat.min_eq_right (by omega), ← firstEq] at head
  rw [← firstEq] at top close above block
  refine ⟨fits, top, block, close, ?_, ?_, ?_⟩
  · rw [← head, Nat.add_sub_cancel_left, UInt64.ofNat_toNat]
  · rw [UInt64.toNat_add, head]
    exact Nat.mod_eq_of_lt (by omega)
  · rw [UInt64.toNat_sub_of_le _ _ (UInt64.le_iff_toNat_le.mpr (by omega))]
    omega

theorem stray_fails (k : Nat) (blksize : UInt64) (plan : TrimOp → Outcome) (offset length : UInt64) (file : List UInt8)
    (power : blksize.toNat = 2 ^ k) (low : offset.toNat < 2 ^ 63) (far : 2 ^ 63 ≤ length.toNat)
    (inside : ¬ 2 ^ k ∣ offset.toNat) :
    (Sys.Program.run (planned blksize plan) (Apple.trim offset length) file).1 ≠ .ok () := by
  obtain ⟨fits, top, block, close, headEq, advanced, remaining⟩ :=
    stray_words k blksize offset length _ power low far inside rfl
  have above := Sys.align_up_ge offset.toNat (2 ^ k) (Nat.two_pow_pos k)
  cases stat : outcome plan .fstat with
  | fails err =>
      rw [run_refused_stat blksize plan offset length file err stat]
      intro done
      cases done
  | done count =>
      rw [run_planned blksize plan offset length file count stat, Apple.calls]
      rcases stage_append blksize plan _ (Apple.blockCalls blksize (offset + Apple.headLength blksize offset length)
        (length - Apple.headLength blksize offset length)) file _ (head_stage blksize plan offset length file) with
        ⟨err, failed⟩ | went
      · rw [failed]
        intro done
        cases done
      · rw [went]
        by_cases near : length.toNat < 2 ^ 63 + (Sys.alignUp offset.toNat (2 ^ k) - offset.toNat)
        · exact block_near_fails blksize plan k _ _ _ power fits (by omega) (by omega) (by omega) (by omega)
        · rw [block_far blksize plan k _ _ _ power fits (by omega)]
          intro done
          cases done

theorem stray_kept_iff (k : Nat) (blksize : UInt64) (plan : TrimOp → Outcome) (offset length : UInt64) (first : Nat)
    (file : List UInt8) (power : blksize.toNat = 2 ^ k) (low : offset.toNat < 2 ^ 63) (far : 2 ^ 63 ≤ length.toNat)
    (inside : ¬ 2 ^ k ∣ offset.toNat) (firstEq : first = Sys.alignUp offset.toNat (2 ^ k)) (count : Nat)
    (stat : outcome plan .fstat = .done count) :
    (∀ i, i < file.length →
      (Sys.Program.run (planned blksize plan) (Apple.trim offset length) file).2[i]? = file[i]?) ↔
      Sys.Blank 0 offset.toNat (offset.toNat + zeroed plan offset (.ofNat (first - offset.toNat))) file ∧
        (Carried plan (.pwrite (Apple.calloc (.ofNat (first - offset.toNat))) offset) →
          length.toNat < 2 ^ 63 + (first - offset.toNat) →
          Carried plan (.punchHole (.ofNat first) (.ofNat (2 ^ 63 - 2 ^ k))) →
            Sys.Blank 0 first (first + (2 ^ 63 - 2 ^ k)) file) := by
  obtain ⟨fits, top, block, close, headEq, advanced, remaining⟩ :=
    stray_words k blksize offset length first power low far inside firstEq
  have above := Sys.align_up_ge offset.toNat (2 ^ k) (Nat.two_pow_pos k)
  rw [← firstEq] at above
  have moved := (moved_iff k blksize offset power low).mpr inside
  have offsetEq : UInt64.ofNat first = offset + Apple.headLength blksize offset length := by
    rw [← advanced, UInt64.ofNat_toNat]
  rw [run_planned blksize plan offset length file count stat, Apple.calls, Apple.headCalls, if_pos moved, ← headEq, offsetEq]
  cases fate : outcome plan (.pwrite (Apple.calloc (Apple.headLength blksize offset length)) offset) with
  | fails err =>
      rw [List.cons_append, run_fails blksize plan _ _ file err fate, zeroed_fails plan _ _ err fate]
      refine ⟨fun _ => ⟨fun i reached past => absurd past (by omega), fun carried => ?_⟩, fun _ _ _ => rfl⟩
      obtain ⟨_, done⟩ := carried
      rw [fate] at done
      cases done
  | done written =>
      have carried : Carried plan (.pwrite (Apple.calloc (Apple.headLength blksize offset length)) offset) := ⟨written, fate⟩
      rw [Sys.Program.run_in_order_ok verdict _ _ _ _ _ (pwrite_done blksize plan offset _ written file fate)]
      generalize zeroed plan offset (Apple.headLength blksize offset length) = zeros
      have grown := Sys.fill_grows (0 : UInt8) offset.toNat (offset.toNat + zeros) file
      have headLeft := fun i => Sys.content_fill (0 : UInt8) offset.toNat (offset.toNat + zeros) i file
      have headKept := Sys.kept_iff 0 (fun i => offset.toNat ≤ i ∧ i < offset.toNat + zeros) file _ grown headLeft
      generalize fill 0 offset.toNat (offset.toNat + zeros) file = middle at grown headLeft headKept ⊢
      have headBlank : (∀ i, i < file.length → middle[i]? = file[i]?) ↔
          Sys.Blank 0 offset.toNat (offset.toNat + zeros) file := by
        rw [headKept]
        exact ⟨fun blanks i reached past => blanks i ⟨reached, past⟩, fun blanks i here => blanks i here.1 here.2⟩
      by_cases near : length.toNat < 2 ^ 63 + (first - offset.toNat)
      · by_cases punched : Carried plan (.punchHole (offset + Apple.headLength blksize offset length)
          (.ofNat (2 ^ 63 - 2 ^ k)))
        · rw [block_near blksize plan k _ _ middle power fits (by omega) (by omega) (by omega) (by omega) punched, advanced]
          have left : ∀ i, content 0 i (wipe 0 first (first + (2 ^ 63 - 2 ^ k)) middle) =
              if first ≤ i ∧ i < first + (2 ^ 63 - 2 ^ k) ∨ offset.toNat ≤ i ∧ i < offset.toNat + zeros then 0
              else content 0 i file := by
            intro i
            rw [Sys.content_wipe, headLeft]
            by_cases hole : first ≤ i ∧ i < first + (2 ^ 63 - 2 ^ k)
            · rw [if_pos hole, if_pos (.inl hole)]
            · rw [if_neg hole]
              simp only [hole, false_or]
          rw [Sys.kept_iff 0 _ file _ (by rw [Sys.wipe_length]; exact grown) left]
          constructor
          · intro blanks
            exact ⟨fun i reached past => blanks i (.inr ⟨reached, past⟩),
              fun _ _ _ i reached past => blanks i (.inl ⟨reached, past⟩)⟩
          · rintro ⟨headBlanks, holeBlanks⟩ i (here | here)
            · exact holeBlanks carried near punched i here.1 here.2
            · exact headBlanks i here.1 here.2
        · rw [block_near_lost blksize plan k _ _ middle power fits (by omega) (by omega) (by omega) (by omega) punched,
            headBlank]
          exact ⟨fun blanks => ⟨blanks, fun _ _ done => absurd done punched⟩, fun both => both.1⟩
      · rw [block_far blksize plan k _ _ middle power fits (by omega), headBlank]
        exact ⟨fun blanks => ⟨blanks, fun _ less => absurd less near⟩, fun both => both.1⟩

theorem trim_failed_iff (k : Nat) (blksize : UInt64) (plan : TrimOp → Outcome) (offset length : Int64) (file : List UInt8)
    (power : blksize.toNat = 2 ^ k) :
    ((Sys.Program.run (planned blksize plan) (Apple.trim offset.toUInt64 length.toUInt64) file).1 ≠ .ok () →
      Undamaged offset.toInt length.toInt file
        (Sys.Program.run (planned blksize plan) (Apple.trim offset.toUInt64 length.toUInt64) file).2) ↔
      Harmless (2 ^ k) plan offset length file := by
  by_cases below : offset.toInt < 0
  · have beyond := (Sys.word_of_negative offset below).2
    rw [trim_beyond blksize plan _ _ file beyond]
    exact ⟨fun _ => .inr (.inl below), fun _ _ => undamaged_same _ _ file⟩
  · obtain ⟨offsetWord, low⟩ := Sys.word_of_nonneg offset (by omega)
    by_cases forward : 0 ≤ length.toInt
    · obtain ⟨lengthWord, short⟩ := Sys.word_of_nonneg length forward
      have within := trim_within blksize plan k offset.toUInt64 length.toUInt64 file power low (by omega)
      have kept := undamaged_within _ _ _ _ within
      rw [offsetWord, lengthWord] at kept
      exact ⟨fun _ => .inl forward, fun _ _ => kept⟩
    · obtain ⟨lengthWord, far⟩ := Sys.word_of_negative length (by omega)
      by_cases aligned : 2 ^ k ∣ offset.toUInt64.toNat
      · rw [trim_far blksize plan k _ _ file power low far aligned]
        exact ⟨fun _ => .inr (.inr (.inl aligned)), fun _ _ => undamaged_same _ _ file⟩
      · have fails := stray_fails k blksize plan _ _ file power low far aligned
        rw [undamaged_empty _ _ _ _ (by omega)]
        cases stat : outcome plan .fstat with
        | fails lost =>
            rw [run_refused_stat blksize plan _ _ file lost stat]
            refine ⟨fun _ => .inr (.inr (.inr fun carried => ?_)), fun _ _ _ _ => rfl⟩
            obtain ⟨_, done⟩ := carried
            rw [stat] at done
            cases done
        | done count =>
            have kept := stray_kept_iff k blksize plan offset.toUInt64 length.toUInt64 _ file power low far aligned rfl
              count stat
            have above := Sys.align_up_ge offset.toUInt64.toNat (2 ^ k) (Nat.two_pow_pos k)
            have near : length.toUInt64.toNat < 2 ^ 63 + (Sys.alignUp offset.toUInt64.toNat (2 ^ k) - offset.toUInt64.toNat) ↔
                length.toInt + 2 ^ 63 < (Sys.alignUp offset.toUInt64.toNat (2 ^ k) : Int) - offset.toUInt64.toNat := by
              omega
            rw [near] at kept
            rw [kept]
            constructor
            · exact fun both => .inr (.inr (.inr fun _ => both fails))
            · rintro (nonneg | negative | multiple | both) _
              · exact absurd nonneg forward
              · exact absurd negative below
              · exact absurd multiple aligned
              · exact both ⟨count, stat⟩

theorem negative_trim_wipes :
    let result := Sys.Program.run (planned 4 fun _ => .done 4) (Apple.trim (1 : Int64).toUInt64 (-1 : Int64).toUInt64)
      [1, 2, 3, 4, 5]
    result = (.error .EINVAL, [1, 0, 0, 0, 5]) ∧ ¬ Undamaged 1 (-1) [1, 2, 3, 4, 5] result.2 := by
  have stray : Sys.Program.run (planned 4 fun _ => .done 4) (Apple.trim (1 : Int64).toUInt64 (-1 : Int64).toUInt64)
      [1, 2, 3, 4, 5] = (.error .EINVAL, [1, 0, 0, 0, 5]) := by decide
  intro result
  refine ⟨stray, fun kept => ?_⟩
  rw [show result = (.error .EINVAL, [1, 0, 0, 0, 5]) from stray] at kept
  rcases kept 1 (by decide) with same | ⟨_, _, inside, _⟩
  · exact absurd same (by decide)
  · exact absurd inside (by decide)

theorem trim_failed_negative :
    ((Sys.Program.run (planned 4 fun _ => .done 4) (Apple.trim (1 : Int64).toUInt64 (-1 : Int64).toUInt64)
        [1, 2, 3, 4, 5]).1 ≠ .ok () →
      Undamaged 1 (-1) [1, 2, 3, 4, 5]
        (Sys.Program.run (planned 4 fun _ => .done 4) (Apple.trim (1 : Int64).toUInt64 (-1 : Int64).toUInt64)
          [1, 2, 3, 4, 5]).2) ↔
      Harmless (2 ^ 2) (fun _ => .done 4) 1 (-1) [1, 2, 3, 4, 5] :=
  trim_failed_iff 2 4 (fun _ => .done 4) 1 (-1) [1, 2, 3, 4, 5] (by decide)

end FsExt.Trim
