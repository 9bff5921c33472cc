import FsExt.Swap.Swap
import FsExt.Sys.Exchange

set_option autoImplicit false

namespace FsExt.Swap

open Sys

structure Moved where
  existing : CString
  new : CString
  status : Status

-- Nobody else acts. A move or a temporary name may fail for a reason of its own;
-- `GetFileAttributes` only tells whether the entry is there. The world keeps the
-- moves in the order they were answered.
def Windows.moving (os : Windows) : Program.Semantics SwapOp SwapAnswer (Fs × List Moved)
  | .getTempFileName directory unique, world, answer, world' =>
      (answer = .ok (os.tempFile directory unique) ∨ ∃ err, answer = .error err) ∧ world' = world
  | .getFileAttributes path, world, answer, world' => answer = (world.1 (os.place path)).isSome ∧ world' = world
  | .moveFileEx existing new, world, answer, world' =>
      world'.2 = world.2 ++ [⟨existing, new, answer⟩] ∧
        match answer with
        | .ok () => moveEntry (os.place existing) (os.place new) world.1 = .ok world'.1
        | .error _ => world'.1 = world.1

-- A swap that cannot go on undoes what it did: the moves after a failed one.
def rollback : List Moved → List Moved
  | [] => []
  | ⟨_, _, .ok ()⟩ :: rest => rollback rest
  | ⟨_, _, .error _⟩ :: rest => rest

theorem move_entry_ok (src dst : List CString) (fs fs' : Fs) (moved : moveEntry src dst fs = .ok fs') :
    fs src ≠ none ∧ ((src = dst ∧ fs' = fs) ∨ (¬ src <+: dst ∧ fs' = relocate src dst fs)) := by
  rw [moveEntry] at moved
  split at moved
  · cases moved
  · rename_i present
    refine ⟨present, ?_⟩
    split at moved
    · rename_i same
      exact .inl ⟨same, by simpa using moved.symm⟩
    · split at moved
      · cases moved
      · rename_i outside
        refine .inr ⟨outside, ?_⟩
        split at moved
        · cases moved
        · split at moved
          · cases moved
          · simpa using moved.symm

theorem move_entry_relocates (src dst : List CString) (fs fs' : Fs) (different : src ≠ dst)
    (moved : moveEntry src dst fs = .ok fs') : fs src ≠ none ∧ ¬ src <+: dst ∧ fs' = relocate src dst fs := by
  obtain ⟨present, ⟨same, _⟩ | ⟨outside, result⟩⟩ := move_entry_ok src dst fs fs' moved
  · exact absurd same different
  · exact ⟨present, outside, result⟩

section
variable (os : Windows)

theorem temp_tries_ensures (directory : CString) (unique : UInt32) (tries : List Nat) (world : Fs × List Moved) :
    Program.Ensures os.moving (fun _ _ => True) (tempTries directory unique tries) world fun result world' =>
      world' = world ∧ ∀ path, result = .ok path → world.1 (os.place path) = none := by
  induction tries with
  | nil => exact ⟨rfl, fun path made => by cases made⟩
  | cons i rest ih =>
      refine ⟨trivial, ?_⟩
      intro answer world' step
      obtain ⟨answered, rfl⟩ := step
      cases answer with
      | error err => exact ⟨rfl, fun path made => by cases made⟩
      | ok path =>
          refine ⟨trivial, ?_⟩
          intro present world'' step
          obtain ⟨shown, rfl⟩ := step
          cases present with
          | true => exact ih
          | false =>
              refine ⟨rfl, ?_⟩
              intro path' made
              cases made
              simpa using shown.symm

theorem temp_path_ensures (processId : UInt32) (base : CString) (world : Fs × List Moved) :
    Program.Ensures os.moving (fun _ _ => True) (tempPath processId base) world fun result world' =>
      world' = world ∧ ∀ path, result = .ok path → world.1 (os.place path) = none := by
  rw [tempPath]
  cases tempDirectory base with
  | error err => exact ⟨rfl, fun path made => by cases made⟩
  | ok directory => exact temp_tries_ensures os directory processId (List.range 64) world

theorem move_ensures (existing new : CString) (next : Status → SwapProgram Status) (fs : Fs) (moves : List Moved)
    (post : Status → Fs × List Moved → Prop)
    (goes : ∀ fs', moveEntry (os.place existing) (os.place new) fs = .ok fs' →
      Program.Ensures os.moving (fun _ _ => True) (next (.ok ())) (fs', moves ++ [⟨existing, new, .ok ()⟩]) post)
    (fails : ∀ err,
      Program.Ensures os.moving (fun _ _ => True) (next (.error err)) (fs, moves ++ [⟨existing, new, .error err⟩]) post) :
    Program.Ensures os.moving (fun _ _ => True) (.call (.moveFileEx existing new) next) (fs, moves) post := by
  refine ⟨trivial, ?_⟩
  intro answer world step
  obtain ⟨noted, effect⟩ := step
  obtain ⟨fs', moves'⟩ := world
  simp only at noted
  subst moves'
  cases answer with
  | ok done => exact goes fs' effect
  | error err =>
      simp only at effect
      subst fs'
      exact fails err

end

section
variable (os : Windows) (fs : Fs) (fromPath toPath : CString)

structure Swapped (final : Fs) (moves : List Moved) : Prop where
  existing : fs (os.place fromPath) ≠ none ∧ fs (os.place toPath) ≠ none
  exchanged : Exchanged (pairOf (os.place fromPath) (os.place toPath)) fs final
  cleared : ∀ moved ∈ moves, os.place moved.new ≠ os.place fromPath → os.place moved.new ≠ os.place toPath →
    Vacant final (os.place moved.new)

def AllOrNothing (result : Status) (world : Fs × List Moved) : Prop :=
  match result with
  | .ok () => Swapped os fs fromPath toPath world.1 world.2
  | .error _ => (∀ moved ∈ rollback world.2, moved.status = .ok ()) → world.1 = fs

variable (temporary : CString)

def parkedAt : Fs := relocate (os.place fromPath) (os.place temporary) fs

def crossedAt : Fs := relocate (os.place toPath) (os.place fromPath) (parkedAt os fs fromPath temporary)

structure Parked : Prop where
  origin : fs (os.place fromPath) ≠ none
  apart : Apart (os.place temporary) (os.place fromPath)
  vacant : Vacant fs (os.place temporary)

structure Crossed : Prop extends Parked os fs fromPath temporary where
  target : parkedAt os fs fromPath temporary (os.place toPath) ≠ none
  disjoint : Apart (os.place fromPath) (os.place toPath)

theorem parked_of_move (closed : Closed Object.directory fs) (absent : fs (os.place temporary) = none) (fs' : Fs)
    (moved : moveEntry (os.place fromPath) (os.place temporary) fs = .ok fs') :
    Parked os fs fromPath temporary ∧ fs' = parkedAt os fs fromPath temporary := by
  have present := (move_entry_ok _ _ fs fs' moved).1
  have different : os.place fromPath ≠ os.place temporary := fun same => present (same ▸ absent)
  obtain ⟨_, outside, result⟩ := move_entry_relocates _ _ fs fs' different moved
  refine ⟨⟨present, ⟨?_, outside⟩, closed_vacant Object.directory fs closed _ absent⟩, result⟩
  intro inside
  exact closed_ancestor Object.directory fs closed _ _ inside present absent

theorem parked_origin_vacant (parked : Parked os fs fromPath temporary) :
    Vacant (parkedAt os fs fromPath temporary) (os.place fromPath) :=
  relocate_vacates _ _ fs parked.apart

theorem parked_undone (parked : Parked os fs fromPath temporary) (fs' : Fs)
    (moved : moveEntry (os.place temporary) (os.place fromPath) (parkedAt os fs fromPath temporary) = .ok fs') :
    fs' = fs := by
  have different : os.place temporary ≠ os.place fromPath := by
    intro same
    exact parked.apart.1 (same ▸ List.prefix_refl _)
  obtain ⟨_, _, rfl⟩ := move_entry_relocates _ _ _ fs' different moved
  exact relocate_back _ _ fs parked.apart parked.vacant

-- `from` is gone by now, so neither `to` nor anything around it can be there.
theorem crossed_of_move (parked : Parked os fs fromPath temporary) (fs' : Fs)
    (moved : moveEntry (os.place toPath) (os.place fromPath) (parkedAt os fs fromPath temporary) = .ok fs') :
    Crossed os fs fromPath toPath temporary ∧ fs' = crossedAt os fs fromPath toPath temporary := by
  have emptied := parked_origin_vacant os fs fromPath temporary parked
  have target := (move_entry_ok _ _ _ fs' moved).1
  have outside : ¬ os.place fromPath <+: os.place toPath := by
    intro inside
    obtain ⟨rest, split⟩ := inside
    rw [← split] at target
    exact target (emptied rest)
  have different : os.place toPath ≠ os.place fromPath := by
    intro same
    exact outside (same ▸ List.prefix_refl _)
  obtain ⟨_, around, result⟩ := move_entry_relocates _ _ _ fs' different moved
  exact ⟨⟨parked, target, ⟨outside, around⟩⟩, result⟩

theorem crossed_undone (crossed : Crossed os fs fromPath toPath temporary) (fs' : Fs)
    (moved : moveEntry (os.place fromPath) (os.place toPath) (crossedAt os fs fromPath toPath temporary) = .ok fs') :
    fs' = parkedAt os fs fromPath temporary := by
  have different : os.place fromPath ≠ os.place toPath := by
    intro same
    exact crossed.disjoint.1 (same ▸ List.prefix_refl _)
  obtain ⟨_, _, rfl⟩ := move_entry_relocates _ _ _ fs' different moved
  exact relocate_back _ _ _ crossed.disjoint (parked_origin_vacant os fs fromPath temporary crossed.toParked)

-- The last move goes through only when `to` lies neither in nor around the
-- temporary: the second one has emptied it.
theorem landed_of_move (crossed : Crossed os fs fromPath toPath temporary) (fs' : Fs)
    (moved : moveEntry (os.place temporary) (os.place toPath) (crossedAt os fs fromPath toPath temporary) = .ok fs') :
    Apart (os.place temporary) (os.place toPath) ∧
      fs' = relocate (os.place temporary) (os.place toPath) (crossedAt os fs fromPath toPath temporary) := by
  have emptied : Vacant (crossedAt os fs fromPath toPath temporary) (os.place toPath) :=
    relocate_vacates _ _ _ crossed.disjoint
  have present := (move_entry_ok _ _ _ fs' moved).1
  have outside : ¬ os.place toPath <+: os.place temporary := by
    intro inside
    obtain ⟨rest, split⟩ := inside
    rw [← split] at present
    exact present (emptied rest)
  have different : os.place temporary ≠ os.place toPath := by
    intro same
    exact outside (same ▸ List.prefix_refl _)
  obtain ⟨_, around, result⟩ := move_entry_relocates _ _ _ fs' different moved
  exact ⟨⟨around, outside⟩, result⟩

theorem landed_swapped (crossed : Crossed os fs fromPath toPath temporary)
    (apart : Apart (os.place temporary) (os.place toPath)) (moves : List Moved)
    (only : ∀ moved ∈ moves, moved.new = fromPath ∨ moved.new = toPath ∨ moved.new = temporary) :
    Swapped os fs fromPath toPath
      (relocate (os.place temporary) (os.place toPath) (crossedAt os fs fromPath toPath temporary)) moves := by
  have exchanged := relocate_exchange _ _ _ fs crossed.disjoint crossed.apart apart crossed.vacant
  have kept : parkedAt os fs fromPath temporary (os.place toPath) = fs (os.place toPath) :=
    relocate_elsewhere _ _ _ fs apart.1 crossed.disjoint.1
  refine ⟨⟨crossed.origin, kept ▸ crossed.target⟩, exchanged, ?_⟩
  intro moved member notFrom notTo
  rcases only moved member with same | same | same
  · exact absurd (by rw [same]) notFrom
  · exact absurd (by rw [same]) notTo
  · rw [same]
    exact exchanged_vacant _ _ _ fs _ exchanged crossed.vacant (apart_symm _ _ crossed.apart) (apart_symm _ _ apart)

theorem swap_land_ensures (crossed : Crossed os fs fromPath toPath temporary) :
    Program.Ensures os.moving (fun _ _ => True) (swapLand fromPath toPath temporary)
      (crossedAt os fs fromPath toPath temporary,
        [⟨fromPath, temporary, .ok ()⟩, ⟨toPath, fromPath, .ok ()⟩])
      (AllOrNothing os fs fromPath toPath) := by
  refine move_ensures os temporary toPath _ _ _ _ (fun last moved => ?_) fun err => ?_
  · obtain ⟨apart, rfl⟩ := landed_of_move os fs fromPath toPath temporary crossed last moved
    exact landed_swapped os fs fromPath toPath temporary crossed apart _ (by simp)
  · refine move_ensures os fromPath toPath _ _ _ _ (fun back moved => ?_) fun err' => ?_
    · obtain rfl := crossed_undone os fs fromPath toPath temporary crossed back moved
      refine move_ensures os temporary fromPath _ _ _ _ (fun last moved _ => ?_) fun err' undone => ?_
      · exact parked_undone os fs fromPath temporary crossed.toParked last moved
      · simp [rollback] at undone
    · refine move_ensures os temporary fromPath _ _ _ _ (fun last moved undone => ?_) fun err'' undone => ?_
      · simp [rollback] at undone
      · simp [rollback] at undone

theorem swap_cross_ensures (parked : Parked os fs fromPath temporary) :
    Program.Ensures os.moving (fun _ _ => True) (swapCross fromPath toPath temporary)
      (parkedAt os fs fromPath temporary, [⟨fromPath, temporary, .ok ()⟩]) (AllOrNothing os fs fromPath toPath) := by
  refine move_ensures os toPath fromPath _ _ _ _ (fun fs' moved => ?_) fun err => ?_
  · obtain ⟨crossed, rfl⟩ := crossed_of_move os fs fromPath toPath temporary parked fs' moved
    exact swap_land_ensures os fs fromPath toPath temporary crossed
  · refine move_ensures os temporary fromPath _ _ _ _ (fun last moved _ => ?_) fun err' undone => ?_
    · exact parked_undone os fs fromPath temporary parked last moved
    · simp [rollback] at undone

theorem swap_via_ensures (closed : Closed Object.directory fs) (absent : fs (os.place temporary) = none) :
    Program.Ensures os.moving (fun _ _ => True) (swapVia fromPath toPath temporary) (fs, [])
      (AllOrNothing os fs fromPath toPath) := by
  refine move_ensures os fromPath temporary _ _ _ _ (fun fs' moved => ?_) fun err _ => rfl
  obtain ⟨parked, rfl⟩ := parked_of_move os fs fromPath temporary closed absent fs' moved
  exact swap_cross_ensures os fs fromPath toPath temporary parked

end

theorem swap_all_or_nothing (os : Windows) (processId : UInt32) (fs : Fs) (fromPath toPath : CString)
    (closed : Closed Object.directory fs) :
    Program.Ensures os.moving (fun _ _ => True) (swap processId fromPath toPath) (fs, [])
      (AllOrNothing os fs fromPath toPath) := by
  rw [swap, Program.ensures_bind]
  refine Program.ensures_mono os.moving _ _ _ _ _ _ (fun _ _ held => held) ?_
    (temp_path_ensures os processId fromPath (fs, []))
  intro result world settled
  obtain ⟨rfl, free⟩ := settled
  cases result with
  | error err => exact fun _ => rfl
  | ok temporary => exact swap_via_ensures os fs fromPath toPath temporary closed (free temporary rfl)

theorem swap_all_or_nothing_sample :
    Closed Object.directory sampleFs ∧
      Program.Ensures sampleWindows.moving (fun _ _ => True) (swap 4 [0x61] [0x62]) (sampleFs, [])
        (AllOrNothing sampleWindows sampleFs [0x61] [0x62]) :=
  ⟨sample_closed, swap_all_or_nothing sampleWindows 4 sampleFs [0x61] [0x62] sample_closed⟩

end FsExt.Swap
