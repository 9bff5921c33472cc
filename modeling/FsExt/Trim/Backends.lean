import FsExt.Sys.Sweep
import FsExt.Trim.Ranges
import FsExt.Trim.Windows

set_option autoImplicit false

namespace FsExt.Trim

open Sys (Covered Sweeps content wipe fill)

-- fallocate(2) on a file system whose largest file has `limit` bytes.
def Linux.kernel (limit : Nat) : Sys.Program.Handler TrimOp TrimAnswer (List UInt8)
  | .fallocate offset length, file =>
      if offset.toInt64.toInt < 0 ∨ length.toInt64.toInt ≤ 0 then (.error .EINVAL, file)
      else if limit < offset.toInt64.toInt + length.toInt64.toInt then (.error (.other 27), file)
      else (.ok (), wipe 0 offset.toNat (offset.toNat + length.toNat) file)
  | .fstat, file => (.error .EINVAL, file)
  | .pwrite _ _, file => (.error .EINVAL, file)
  | .punchHole _ _, file => (.error .EINVAL, file)

theorem Linux.run_kernel (limit : Nat) (offset length : Int64) (file : List UInt8) :
    Sys.Program.run (Linux.kernel limit) (Linux.trim offset.toUInt64 length.toUInt64) file =
      if offset.toInt < 0 ∨ length.toInt ≤ 0 then (.error .EINVAL, file)
      else if limit < offset.toInt + length.toInt then (.error (.other 27), file)
      else (.ok (), wipe 0 offset.toInt.toNat (offset.toInt + length.toInt).toNat file) := by
  have start : offset.toUInt64.toInt64 = offset := rfl
  have long : length.toUInt64.toInt64 = length := rfl
  rw [Linux.trim, Sys.Program.perform, Sys.Program.run_call, Sys.Program.run_ret]
  simp only [Linux.kernel, start, long]
  by_cases outside : offset.toInt < 0 ∨ length.toInt ≤ 0
  · rw [if_pos outside, if_pos outside]
  · by_cases beyond : limit < offset.toInt + length.toInt
    · rw [if_neg outside, if_pos beyond, if_neg outside, if_pos beyond]
    · rw [if_neg outside, if_neg beyond, if_neg outside, if_neg beyond]
      obtain ⟨offsetWord, _⟩ := Sys.word_of_nonneg offset (by omega)
      obtain ⟨lengthWord, _⟩ := Sys.word_of_nonneg length (by omega)
      have first : offset.toUInt64.toNat = offset.toInt.toNat := by omega
      have last : offset.toInt.toNat + length.toUInt64.toNat = (offset.toInt + length.toInt).toNat := by omega
      rw [first, last]

theorem apple_inside (align size offset length : Nat) (positive : 0 < align)
    (inside : 0 < length → WritesInside align size offset length) :
    let stop := offset + length
    let first := headEnd align offset stop
    (offset < first → first ≤ size) ∧ (holeEnd align first stop < stop → stop ≤ size) := by
  intro stop first
  by_cases nonempty : 0 < length
  · exact (writes_inside_iff align size offset length positive nonempty).mpr (inside nonempty)
  · have bounds := head_end_bounds align offset stop positive (Nat.le_add_right _ _)
    have closed := hole_end_le align first stop bounds.2
    constructor
    · intro head
      omega
    · intro tail
      have forward : first ≤ holeEnd align first stop := Nat.le_add_right _ _
      omega

theorem apple_run (k : Nat) (blksize offset length : UInt64) (file : List UInt8) (power : blksize.toNat = 2 ^ k)
    (bound : offset.toNat + length.toNat < 2 ^ 63)
    (inside : 0 < length.toNat → WritesInside blksize.toNat file.length offset.toNat length.toNat) :
    Sys.Program.run (handler blksize) (Apple.trim offset length) file =
      (.ok (), wipe 0 offset.toNat (offset.toNat + length.toNat) file) := by
  have positive := Nat.two_pow_pos k
  have bounds := head_end_bounds (2 ^ k) offset.toNat (offset.toNat + length.toNat) positive (Nat.le_add_right _ _)
  rw [run_trim k blksize offset length file power bound]
  refine congrArg (Prod.mk _) ?_
  rw [power] at inside
  exact (Sys.fill_wipe_fill 0 _ _ _ _ file bounds.1 (Nat.le_add_right _ _) (hole_end_le _ _ _ bounds.2)).mpr
    (apple_inside (2 ^ k) file.length offset.toNat length.toNat positive inside)

theorem trims_agree (k limit : Nat) (blksize : UInt64) (offset length : Int64) (file : List UInt8)
    (power : blksize.toNat = 2 ^ k) (largest : limit < 2 ^ 63) :
    let linux := Sys.Program.run (Linux.kernel limit) (Linux.trim offset.toUInt64 length.toUInt64) file
    let windows := Sys.Program.run Windows.controls (Windows.trim offset.toUInt64 length.toUInt64) file
    let apple := Sys.Program.run (handler blksize) (Apple.trim offset.toUInt64 length.toUInt64) file
    (offset.toInt + length.toInt ≤ limit → windows.2 = linux.2) ∧
      (linux.1 = .ok () ∨ linux.2 = file) ∧ (windows.1 = .ok () ∨ windows.2 = file) ∧
      (windows.1 = .ok () ↔ linux.1 = .ok () ∨ 0 ≤ offset.toInt ∧ 0 ≤ length.toInt ∧
        offset.toInt + length.toInt < 2 ^ 63 ∧ (length.toInt = 0 ∨ limit < offset.toInt + length.toInt)) ∧
      (windows.1 = .ok () →
        (0 < length.toInt → WritesInside blksize.toNat file.length offset.toInt.toNat length.toInt.toNat) →
        apple = windows) := by
  intro linux windows apple
  have onLinux : linux = _ := Linux.run_kernel limit offset length file
  have onWindows : windows = _ := Windows.run_trim offset length file
  rw [onLinux, onWindows]
  by_cases fine : 0 ≤ offset.toInt ∧ 0 ≤ length.toInt ∧ offset.toInt + length.toInt < 2 ^ 63
  · rw [if_pos fine]
    have swept : (0 < length.toInt → WritesInside blksize.toNat file.length offset.toInt.toNat length.toInt.toNat) →
        apple = (.ok (), wipe 0 offset.toInt.toNat (offset.toInt + length.toInt).toNat file) := by
      intro inside
      obtain ⟨offsetWord, _⟩ := Sys.word_of_nonneg offset fine.1
      obtain ⟨lengthWord, _⟩ := Sys.word_of_nonneg length fine.2.1
      have first : offset.toInt.toNat = offset.toUInt64.toNat := by omega
      have count : length.toInt.toNat = length.toUInt64.toNat := by omega
      have last : (offset.toInt + length.toInt).toNat = offset.toUInt64.toNat + length.toUInt64.toNat := by omega
      rw [first, count] at inside
      rw [first, last]
      exact apple_run k blksize _ _ file power (by omega) fun nonempty => inside (by omega)
    by_cases empty : length.toInt ≤ 0
    · rw [if_pos (.inr empty)]
      refine ⟨fun _ => Sys.wipe_empty 0 _ _ file (by omega), .inr rfl, .inl rfl, ?_, fun _ => swept⟩
      exact ⟨fun _ => .inr ⟨fine.1, fine.2.1, fine.2.2, .inl (by omega)⟩, fun _ => rfl⟩
    · rw [if_neg (by omega)]
      by_cases beyond : limit < offset.toInt + length.toInt
      · rw [if_pos beyond]
        refine ⟨fun within => by omega, .inr rfl, .inl rfl, ?_, fun _ => swept⟩
        exact ⟨fun _ => .inr ⟨fine.1, fine.2.1, fine.2.2, .inr beyond⟩, fun _ => rfl⟩
      · rw [if_neg beyond]
        exact ⟨fun _ => rfl, .inl rfl, .inl rfl, ⟨fun _ => .inl rfl, fun _ => rfl⟩, fun _ => swept⟩
  · rw [if_neg fine]
    have refused : offset.toInt < 0 ∨ length.toInt ≤ 0 ∨ limit < offset.toInt + length.toInt := by omega
    by_cases outside : offset.toInt < 0 ∨ length.toInt ≤ 0
    · rw [if_pos outside]
      refine ⟨fun _ => rfl, .inr rfl, .inr rfl, ⟨fun succeeded => (by cases succeeded), ?_⟩,
        fun succeeded => by cases succeeded⟩
      rintro (succeeded | within)
      · cases succeeded
      · exact absurd ⟨within.1, within.2.1, within.2.2.1⟩ fine
    · rw [if_neg outside, if_pos (by omega)]
      refine ⟨fun _ => rfl, .inr rfl, .inr rfl, ⟨fun succeeded => (by cases succeeded), ?_⟩,
        fun succeeded => by cases succeeded⟩
      rintro (succeeded | within)
      · cases succeeded
      · exact absurd ⟨within.1, within.2.1, within.2.2.1⟩ fine

theorem trims_agree_middle :
    let file : List UInt8 := [1, 2, 3, 4, 5, 6]
    (Sys.Program.run Windows.controls (Windows.trim (2 : Int64).toUInt64 (3 : Int64).toUInt64) file).2 =
        (Sys.Program.run (Linux.kernel 16) (Linux.trim (2 : Int64).toUInt64 (3 : Int64).toUInt64) file).2 ∧
      Sys.Program.run (handler 4) (Apple.trim (2 : Int64).toUInt64 (3 : Int64).toUInt64) file =
        Sys.Program.run Windows.controls (Windows.trim (2 : Int64).toUInt64 (3 : Int64).toUInt64) file :=
  have agree := trims_agree 2 16 4 2 3 [1, 2, 3, 4, 5, 6] (by decide) (by decide)
  ⟨agree.1 (by decide), agree.2.2.2.2 (by decide) fun _ => by decide⟩

theorem pwrite_sweeps (blksize offset count : UInt64) (size : Nat) (file : List UInt8) (length : file.length = size)
    (inside : 0 < count.toNat → offset.toNat + count.toNat ≤ size) :
    handler blksize (.pwrite (Apple.calloc count) offset) file =
      (.ok count.toNat, wipe 0 offset.toNat (offset.toNat + count.toNat) file) := by
  refine Prod.ext (congrArg Except.ok (calloc_length count)) ?_
  rw [pwrite_zeros, Sys.fill_inside]
  intro forward
  rw [length]
  exact inside (by omega)

theorem in_order_sweeps (blksize : UInt64) (size : Nat) (ops : List TrimOp)
    (each : ∀ op ∈ ops, ∃ range answer, touched op = some range ∧ verdict op answer = .ok () ∧
      ∀ file, file.length = size → handler blksize op file = (answer, wipe 0 range.1 range.2 file)) :
    Sweeps (0 : UInt8) (handler blksize) size (.ok ()) (Sys.Program.inOrder verdict ops) (ops.filterMap touched) := by
  induction ops with
  | nil => exact .ret
  | cons op ops ih =>
      obtain ⟨range, answer, touches, succeeds, wipes⟩ := each op (.head _)
      rw [List.filterMap_cons_some touches, Sys.Program.inOrder]
      refine .call op _ range _ answer wipes ?_
      simp only [succeeds]
      exact ih fun later member => each later (.tail _ member)

theorem calls_wipe (k : Nat) (blksize offset length : UInt64) (size : Nat) (power : blksize.toNat = 2 ^ k)
    (bound : offset.toNat + length.toNat < 2 ^ 63)
    (inside : 0 < length.toNat → WritesInside blksize.toNat size offset.toNat length.toNat) (op : TrimOp)
    (member : op ∈ Apple.calls blksize offset length) :
    ∃ range answer, touched op = some range ∧ verdict op answer = .ok () ∧
      ∀ file, file.length = size → handler blksize op file = (answer, wipe 0 range.1 range.2 file) := by
  have head := head_length_word k blksize offset length power (by omega)
  obtain ⟨forward, later, closed, advanced, remaining, hole, reached, rest⟩ :=
    trim_points k blksize offset length _ _ _ power (by omega) (by omega) rfl rfl rfl
  rw [power] at inside
  obtain ⟨early, late⟩ := apple_inside (2 ^ k) size offset.toNat length.toNat (Nat.two_pow_pos k) inside
  have write : ∀ start count : UInt64, (0 < count.toNat → start.toNat + count.toNat ≤ size) →
      ∃ range answer, touched (.pwrite (Apple.calloc count) start) = some range ∧
        verdict (.pwrite (Apple.calloc count) start) answer = .ok () ∧
        ∀ file, file.length = size →
          handler blksize (.pwrite (Apple.calloc count) start) file = (answer, wipe 0 range.1 range.2 file) := by
    intro start count within
    refine ⟨(start.toNat, start.toNat + count.toNat), .ok count.toNat, ?_, rfl, fun file same =>
      pwrite_sweeps blksize start count size file same within⟩
    rw [touched, calloc_length]
  rw [Apple.calls, Apple.blockCalls, List.mem_append, List.mem_append] at member
  rcases member with atHead | atHole | atTail
  · rw [Apple.headCalls] at atHead
    split at atHead
    · rw [List.mem_singleton] at atHead
      subst op
      exact write offset _ fun some => by rw [head]; exact early (by omega)
    · cases atHead
  · rw [Apple.holeCalls] at atHole
    split at atHole
    · rw [List.mem_singleton] at atHole
      subst op
      exact ⟨_, .ok (), rfl, rfl, fun file _ => rfl⟩
    · cases atHole
  · rw [Apple.tailCalls] at atTail
    split at atTail
    · rw [List.mem_singleton] at atTail
      subst op
      exact write _ _ fun some => by rw [reached, rest]; have fits := late (by omega); omega
    · cases atTail

def appleRanges (blksize offset length : UInt64) : List (Nat × Nat) :=
  (0, 0) :: (Apple.calls blksize offset length).filterMap touched

theorem apple_sweeps (k : Nat) (blksize offset length : UInt64) (size : Nat) (power : blksize.toNat = 2 ^ k)
    (bound : offset.toNat + length.toNat < 2 ^ 63)
    (inside : 0 < length.toNat → WritesInside blksize.toNat size offset.toNat length.toNat) :
    Sweeps (0 : UInt8) (handler blksize) size (.ok ()) (Apple.trim offset length) (appleRanges blksize offset length) := by
  rw [Apple.trim]
  refine .call TrimOp.fstat _ (0, 0) _ (Except.ok blksize : Except UvError UInt64) ?_ ?_
  · intro file _
    rw [Sys.wipe_empty 0 0 0 file (Nat.le_refl 0)]
    rfl
  · have rest := in_order_sweeps blksize size _ (calls_wipe k blksize offset length size power bound inside)
    rw [← Apple.trim_from_calls] at rest
    exact rest

theorem apple_covers (k : Nat) (blksize offset length : UInt64) (power : blksize.toNat = 2 ^ k)
    (bound : offset.toNat + length.toNat < 2 ^ 63) (i : Nat) :
    Covered (appleRanges blksize offset length) i ↔ offset.toNat ≤ i ∧ i < offset.toNat + length.toNat := by
  rw [appleRanges, Sys.covered_cons]
  have tiles := Sys.tiles_cover _ _ _ i (calls_tile k blksize offset length power (by omega) (by omega))
  rw [Covered, tiles]
  omega

def wholeRange (offset length : UInt64) : List (Nat × Nat) := [(offset.toNat, offset.toNat + length.toNat)]

theorem whole_covers (offset length : UInt64) (i : Nat) :
    Covered (wholeRange offset length) i ↔ offset.toNat ≤ i ∧ i < offset.toNat + length.toNat := by
  simp only [Covered, wholeRange, List.mem_singleton, exists_eq_left]

theorem signed_small (value : UInt64) (small : value.toNat < 2 ^ 63) : value.toInt64.toInt = value.toNat := by
  have word := Sys.signed_word value.toInt64
  have same : value.toInt64.toUInt64 = value := rfl
  have low := value.toInt64.le_toInt
  rw [same] at word
  split_ifs at word <;> omega

theorem linux_sweeps (limit : Nat) (offset length : UInt64) (size : Nat) (some : 0 < length.toNat)
    (bound : offset.toNat + length.toNat ≤ limit) (largest : limit < 2 ^ 63) :
    Sweeps (0 : UInt8) (Linux.kernel limit) size (.ok ()) (Linux.trim offset length) (wholeRange offset length) := by
  refine .call _ _ _ _ (.ok ()) (fun file _ => ?_) .ret
  have start := signed_small offset (by omega)
  have count := signed_small length (by omega)
  have run := Linux.run_kernel limit offset.toInt64 length.toInt64 file
  rw [start, count, if_neg (by omega), if_neg (by omega)] at run
  exact run

theorem windows_sweeps (offset length : UInt64) (size : Nat) (bound : offset.toNat + length.toNat < 2 ^ 63) :
    Sweeps (0 : UInt8) Windows.controls size (.ok ()) (Windows.trim offset length) (wholeRange offset length) := by
  refine .call _ _ _ _ (.ok ()) (fun file _ => ?_) .ret
  have start := signed_small offset (by omega)
  have count := signed_small length (by omega)
  have run := Windows.run_trim offset.toInt64 length.toInt64 file
  rw [start, count, if_pos (by omega)] at run
  exact run

section
variable {ι Op : Type} {Answer : Op → Type}

def trimming (trim : UInt64 → UInt64 → Sys.Program Op Answer Status) (offset length : ι → UInt64)
    (file : List UInt8) : Sys.Pool ι Op Answer Status (List UInt8) where
  threads i := trim (offset i) (length i)
  world := file

def AllReturned (pool : Sys.Pool ι Op Answer Status (List UInt8)) : Prop := ∀ i, ∃ status, pool.threads i = .ret status

end

theorem concurrent_trims {ι : Type} [DecidableEq ι] (k limit : Nat) (blksize : UInt64) (offset length : ι → UInt64)
    (file : List UInt8) (power : blksize.toNat = 2 ^ k) (largest : limit < 2 ^ 63) (some : ∀ i, 0 < (length i).toNat)
    (bound : ∀ i, (offset i).toNat + (length i).toNat ≤ limit)
    (inside : ∀ i, WritesInside blksize.toNat file.length (offset i).toNat (length i).toNat) (schedule : List ι) :
    let apple := (trimming Apple.trim offset length file).play (handler blksize) schedule
    apple.world.length = file.length ∧
      (∀ j, content 0 j apple.world = content 0 j file ∨
        content 0 j apple.world = 0 ∧ ∃ i, (offset i).toNat ≤ j ∧ j < (offset i).toNat + (length i).toNat) ∧
      (∀ i status, apple.threads i = .ret status → status = .ok () ∧
        ∀ j, (offset i).toNat ≤ j ∧ j < (offset i).toNat + (length i).toNat → content 0 j apple.world = 0) ∧
      ∀ onLinux onWindows : List ι,
        let linux := (trimming Linux.trim offset length file).play (Linux.kernel limit) onLinux
        let windows := (trimming Windows.trim offset length file).play Windows.controls onWindows
        AllReturned apple → AllReturned linux → AllReturned windows →
          apple.world = linux.world ∧ apple.world = windows.world := by
  intro apple
  have small : ∀ i, (offset i).toNat + (length i).toNat < 2 ^ 63 := fun i => Nat.lt_of_le_of_lt (bound i) largest
  have covers := fun i => apple_covers k blksize (offset i) (length i) power (small i)
  have wholes := fun i => whole_covers (offset i) (length i)
  have swept := Sys.swept_play 0 (handler blksize) (.ok ()) (fun i => appleRanges blksize (offset i) (length i)) file
    (trimming Apple.trim offset length file) schedule (Sys.swept_start 0 _ _ _ file _ fun i =>
      apple_sweeps k blksize (offset i) (length i) file.length power (small i) fun _ => inside i)
  refine ⟨swept.length, fun j => ?_, fun i status returned => ?_, ?_⟩
  · rcases swept.kept j with same | ⟨zero, i, covered⟩
    · exact .inl same
    · exact .inr ⟨zero, i, (covers i j).mp covered⟩
  · obtain ⟨succeeded, blanked⟩ := Sys.swept_returned 0 _ _ _ file apple i status swept returned
    exact ⟨succeeded, fun j within => blanked j ((covers i j).mpr within)⟩
  · intro onLinux onWindows linux windows ended ended' ended''
    have onLinux := Sys.swept_play 0 (Linux.kernel limit) (.ok ()) (fun i => wholeRange (offset i) (length i)) file
      (trimming Linux.trim offset length file) onLinux (Sys.swept_start 0 _ _ _ file _ fun i =>
        linux_sweeps limit (offset i) (length i) file.length (some i) (bound i) largest)
    have onWindows := Sys.swept_play 0 Windows.controls (.ok ()) (fun i => wholeRange (offset i) (length i)) file
      (trimming Windows.trim offset length file) onWindows (Sys.swept_start 0 _ _ _ file _ fun i =>
        windows_sweeps (offset i) (length i) file.length (small i))
    have places : ∀ i j, Covered (appleRanges blksize (offset i) (length i)) j ↔
        Covered (wholeRange (offset i) (length i)) j := fun i j => (covers i j).trans (wholes i j).symm
    exact ⟨Sys.swept_same 0 _ _ _ _ _ file apple linux places swept onLinux ended ended',
      Sys.swept_same 0 _ _ _ _ _ file apple windows places swept onWindows ended ended''⟩

def twoOffsets (i : Bool) : UInt64 := if i then 2 else 1

def twoLengths (i : Bool) : UInt64 := if i then 5 else 3

theorem two_trims_at_once :
    ((trimming Apple.trim twoOffsets twoLengths [1, 2, 3, 4, 5, 6, 7, 8]).play (handler 4)
        [false, true, true, false, true]).world =
      ((trimming Linux.trim twoOffsets twoLengths [1, 2, 3, 4, 5, 6, 7, 8]).play (Linux.kernel 16)
        [true, false]).world := by
  have inside : ∀ i, WritesInside (4 : UInt64).toNat [1, 2, 3, 4, 5, 6, 7, 8].length (twoOffsets i).toNat
      (twoLengths i).toNat := by
    decide
  refine ((concurrent_trims 2 16 4 twoOffsets twoLengths [1, 2, 3, 4, 5, 6, 7, 8] (by decide) (by decide) (by decide)
    (by decide) inside [false, true, true, false, true]).2.2.2 [true, false] [true, false] ?_ ?_ ?_).1
  · intro i
    cases i <;> exact ⟨.ok (), rfl⟩
  · intro i
    cases i <;> exact ⟨.ok (), rfl⟩
  · intro i
    cases i <;> exact ⟨.ok (), rfl⟩

end FsExt.Trim
