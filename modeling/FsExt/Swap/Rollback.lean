import FsExt.Swap.Swap
import FsExt.Sys.Slots
import Mathlib.Data.Fintype.Basic

set_option autoImplicit false

namespace FsExt.Swap

open Sys

def Windows.freeName (os : Windows) (fs : Fs) (directory : CString) (tries : List Nat) : Option CString :=
  (tries.map (os.candidate directory)).find? fun path => (fs (os.place path)).isNone

def Windows.temporary (os : Windows) (fs : Fs) (fromPath : CString) : Option CString :=
  match tempDirectory fromPath with
  | .error _ => none
  | .ok directory => os.freeName fs directory (List.range 64)

theorem run_temp_tries (os : Windows) (faults : Nat → Option UvError) (directory : CString) (tries : List Nat)
    (world : Fs × Nat) :
    Program.run (os.faultyHandler faults) (tempTries directory os.processId tries) world =
      (match os.freeName world.1 directory tries with
        | some path => .ok path
        | none => .error .EEXIST, world) := by
  induction tries with
  | nil => rfl
  | cons i rest ih =>
      simp only [tempTries, getTempFileName, getFileAttributes, Program.perform_bind, Program.run_call,
        Windows.faultyHandler, Windows.handler, Windows.freeName, List.map_cons, Windows.candidate,
        List.find?_cons]
      rcases Option.eq_none_or_eq_some (world.1 (os.place (os.tempFile directory (os.processId + UInt32.ofNat i))))
        with absent | ⟨obj, present⟩
      · simp [absent]
      · simpa [present, Windows.freeName] using ih

theorem run_temp_path_some (os : Windows) (faults : Nat → Option UvError) (fromPath path : CString)
    (world : Fs × Nat) (chosen : os.temporary world.1 fromPath = some path) :
    Program.run (os.faultyHandler faults) (tempPath os.processId fromPath) world = (.ok path, world) := by
  rw [tempPath, Windows.temporary] at *
  cases same : tempDirectory fromPath with
  | error err => simp [same] at chosen
  | ok directory =>
      simp only [same] at chosen
      simp only [run_temp_tries, chosen]

theorem run_temp_path_none (os : Windows) (faults : Nat → Option UvError) (fromPath : CString)
    (world : Fs × Nat) (refused : os.temporary world.1 fromPath = none) :
    ∃ err, Program.run (os.faultyHandler faults) (tempPath os.processId fromPath) world = (.error err, world) := by
  rw [tempPath, Windows.temporary] at *
  cases same : tempDirectory fromPath with
  | error err => exact ⟨err, rfl⟩
  | ok directory =>
      simp only [same] at refused
      exact ⟨.EEXIST, by simp only [run_temp_tries, refused]⟩

theorem temporary_found (os : Windows) (fs : Fs) (fromPath path : CString)
    (chosen : os.temporary fs fromPath = some path) :
    ∃ directory, tempDirectory fromPath = .ok directory ∧ os.freeName fs directory (List.range 64) = some path := by
  rw [Windows.temporary] at chosen
  cases same : tempDirectory fromPath with
  | error err => simp [same] at chosen
  | ok directory => exact ⟨directory, rfl, by simpa only [same] using chosen⟩

theorem temporary_absent (os : Windows) (fs : Fs) (fromPath path : CString)
    (chosen : os.temporary fs fromPath = some path) : fs (os.place path) = none := by
  obtain ⟨directory, _, found⟩ := temporary_found os fs fromPath path chosen
  simpa using List.find?_some found

theorem temporary_beside (os : Windows) (fs : Fs) (fromPath path : CString)
    (chosen : os.temporary fs fromPath = some path) :
    ∃ folder name, os.place path = folder ++ [name] ∧
      ((∃ last, os.place fromPath = folder ++ [last]) ∨ os.place fromPath <+: folder) := by
  obtain ⟨directory, same, found⟩ := temporary_found os fs fromPath path chosen
  obtain ⟨i, _, rfl⟩ := List.mem_map.mp (List.mem_of_find?_eq_some found)
  obtain ⟨folder, entry, beside⟩ :=
    temp_beside os.cwd fromPath directory (os.tempName (os.processId + UInt32.ofNat i)) same
  exact ⟨folder, _, entry, beside⟩

inductive Slot where
  | origin
  | target
  | temporary
deriving DecidableEq

instance : Fintype Slot := ⟨{.origin, .target, .temporary}, fun slot => by cases slot <;> decide⟩

def Windows.slots (os : Windows) (fromPath toPath path : CString) : Slot → List CString
  | .origin => os.place fromPath
  | .target => os.place toPath
  | .temporary => os.place path

structure Setting (os : Windows) (fs : Fs) (fromPath toPath path : CString) : Prop where
  apart : ∀ a b, a ≠ b → Apart (os.slots fromPath toPath path a) (os.slots fromPath toPath path b)
  grounded : ∀ slot, (fs (os.slots fromPath toPath path slot).dropLast).any Object.directory = true
  origin : fs (os.place fromPath) ≠ none
  target : fs (os.place toPath) ≠ none
  temporary : Vacant fs (os.place path)

theorem closed_parent (fs : Fs) (closed : Closed Object.directory fs) (folder : List CString) (name : CString)
    (present : fs (folder ++ [name]) ≠ none) : (fs folder).any Object.directory = true := by
  obtain ⟨obj, found, isDir⟩ := closed folder [name] (by simp) present
  simp [found, isDir]

theorem setting_of_apart (os : Windows) (fs : Fs) (fromPath toPath path : CString)
    (closed : Closed Object.directory fs) (origin : fs (os.place fromPath) ≠ none)
    (target : fs (os.place toPath) ≠ none) (apart : Apart (os.place fromPath) (os.place toPath))
    (chosen : os.temporary fs fromPath = some path) (outside : ¬ os.place fromPath <+: os.place path) :
    Setting os fs fromPath toPath path := by
  have absent := temporary_absent os fs fromPath path chosen
  have missing : ∀ place, fs place ≠ none → ¬ os.place path <+: place := fun place present inside =>
    closed_ancestor Object.directory fs closed (os.place path) place inside present absent
  obtain ⟨folder, name, entry, beside⟩ := temporary_beside os fs fromPath path chosen
  obtain ⟨last, sibling⟩ : ∃ last, os.place fromPath = folder ++ [last] := by
    rcases beside with sibling | around
    · exact sibling
    · exact absurd (around.trans (entry ▸ List.prefix_append folder [name])) outside
  have targetOutside : ¬ os.place toPath <+: os.place path := by
    rw [entry, List.prefix_concat_iff]
    intro within
    rcases within with same | inside
    · exact target (by rw [same, ← entry, absent])
    · exact apart.2 (inside.trans (sibling ▸ List.prefix_append folder [last]))
  have originTemp : Apart (os.place fromPath) (os.place path) := ⟨outside, missing _ origin⟩
  have targetTemp : Apart (os.place toPath) (os.place path) := ⟨targetOutside, missing _ target⟩
  have folderDir : (fs folder).any Object.directory = true := closed_parent fs closed folder last (sibling ▸ origin)
  refine ⟨?_, ?_, origin, target, closed_vacant Object.directory fs closed _ absent⟩
  · intro a b different
    cases a <;> cases b
    case origin.origin | target.target | temporary.temporary => exact absurd rfl different
    case origin.target => exact apart
    case origin.temporary => exact originTemp
    case target.origin => exact apart_symm _ _ apart
    case target.temporary => exact targetTemp
    case temporary.origin => exact apart_symm _ _ originTemp
    case temporary.target => exact apart_symm _ _ targetTemp
  · intro slot
    cases slot with
    | origin => simpa [Windows.slots, sibling] using folderDir
    | temporary => simpa [Windows.slots, entry] using folderDir
    | target =>
        rcases List.eq_nil_or_concat (os.place toPath) with empty | ⟨front, final, parts⟩
        · exact absurd (empty ▸ List.nil_prefix) apart.2
        · rw [List.concat_eq_append] at parts
          simpa [Windows.slots, parts] using closed_parent fs closed front final (parts ▸ target)

section
variable (os : Windows) (fs : Fs) (fromPath toPath path : CString)

theorem setting_not_inside (setting : Setting os fs fromPath toPath path) (a b : Slot) :
    ¬ os.slots fromPath toPath path a <+: (os.slots fromPath toPath path b).dropLast := by
  intro inside
  have whole := inside.trans (List.dropLast_prefix _)
  by_cases same : a = b
  · subst b
    have shorter := inside.length_le
    rw [List.length_dropLast] at shorter
    have empty : os.slots fromPath toPath path a = [] := by
      rw [← List.length_eq_zero_iff]
      omega
    obtain ⟨other, different⟩ : ∃ other, a ≠ other := by
      cases a
      · exact ⟨.target, by simp⟩
      · exact ⟨.origin, by simp⟩
      · exact ⟨.origin, by simp⟩
    exact (setting.apart a other different).1 (empty ▸ List.nil_prefix)
  · exact (setting.apart a b same).1 whole

theorem move_setting (setting : Setting os fs fromPath toPath path) (cur : Fs) (origin : Slot → Option Slot)
    (standing : Standing (os.slots fromPath toPath path) fs cur origin) (src dst : Slot) (different : src ≠ dst) :
    os.slots fromPath toPath path src ≠ os.slots fromPath toPath path dst ∧
      (cur (os.slots fromPath toPath path dst).dropLast).any Object.directory = true := by
  constructor
  · intro same
    exact (setting.apart src dst different).1 (same ▸ List.prefix_refl _)
  · rw [standing.elsewhere _ fun slot => setting_not_inside os fs fromPath toPath path setting slot dst]
    exact setting.grounded dst

theorem move_between (setting : Setting os fs fromPath toPath path) (cur : Fs) (origin : Slot → Option Slot)
    (standing : Standing (os.slots fromPath toPath path) fs cur origin) (src dst : Slot) (different : src ≠ dst)
    (has : cur (os.slots fromPath toPath path src) ≠ none)
    (room : (cur (os.slots fromPath toPath path dst)).any Object.directory = false) :
    moveEntry (os.slots fromPath toPath path src) (os.slots fromPath toPath path dst) cur =
      .ok (relocate (os.slots fromPath toPath path src) (os.slots fromPath toPath path dst) cur) := by
  have outside := (setting.apart src dst different).1
  obtain ⟨elsewhere, parent⟩ := move_setting os fs fromPath toPath path setting cur origin standing src dst different
  simp [moveEntry, has, elsewhere, outside, parent, room]

def Windows.pathOf : Slot → CString
  | .origin => fromPath
  | .target => toPath
  | .temporary => path

theorem place_path_of (slot : Slot) :
    os.place (Windows.pathOf fromPath toPath path slot) = os.slots fromPath toPath path slot := by
  cases slot <;> rfl

theorem faulty_move_fails (faults : Nat → Option UvError) (existing new : CString) (cur : Fs) (n : Nat)
    (err : UvError) (fault : faults n = some err) :
    os.faultyHandler faults (.moveFileEx existing new) (cur, n) = (.error err, (cur, n + 1)) := by
  simp [Windows.faultyHandler, fault]

theorem faulty_move_goes (setting : Setting os fs fromPath toPath path) (faults : Nat → Option UvError)
    (cur : Fs) (origin : Slot → Option Slot)
    (standing : Standing (os.slots fromPath toPath path) fs cur origin) (src dst : Slot) (different : src ≠ dst)
    (n : Nat) (has : cur (os.slots fromPath toPath path src) ≠ none)
    (room : (cur (os.slots fromPath toPath path dst)).any Object.directory = false) (allowed : faults n = none) :
    ∃ next, os.faultyHandler faults (.moveFileEx (Windows.pathOf fromPath toPath path src)
        (Windows.pathOf fromPath toPath path dst)) (cur, n) = (.ok (), (next, n + 1)) ∧
      Standing (os.slots fromPath toPath path) fs next (shift src dst origin) := by
  refine ⟨relocate (os.slots fromPath toPath path src) (os.slots fromPath toPath path dst) cur, ?_,
    standing_relocate _ fs cur origin setting.apart src dst different standing⟩
  have moved := move_between os fs fromPath toPath path setting cur origin standing src dst different has room
  simp [Windows.faultyHandler, Windows.handler, allowed, place_path_of, moved]

theorem faulty_move_refused (setting : Setting os fs fromPath toPath path) (faults : Nat → Option UvError)
    (cur : Fs) (origin : Slot → Option Slot)
    (standing : Standing (os.slots fromPath toPath path) fs cur origin) (src dst : Slot) (different : src ≠ dst)
    (n : Nat) (has : cur (os.slots fromPath toPath path src) ≠ none)
    (solid : (cur (os.slots fromPath toPath path dst)).any Object.directory = true) (allowed : faults n = none) :
    os.faultyHandler faults (.moveFileEx (Windows.pathOf fromPath toPath path src)
      (Windows.pathOf fromPath toPath path dst)) (cur, n) = (.error .EPERM, (cur, n + 1)) := by
  have outside := (setting.apart src dst different).1
  obtain ⟨elsewhere, parent⟩ := move_setting os fs fromPath toPath path setting cur origin standing src dst different
  simp [Windows.faultyHandler, Windows.handler, allowed, place_path_of, moveEntry, has, elsewhere, outside,
    parent, solid]

def atFirst : Slot → Option Slot
  | .origin => some .origin
  | .target => some .target
  | .temporary => none

theorem standing_at_first (setting : Setting os fs fromPath toPath path) :
    Standing (os.slots fromPath toPath path) fs fs atFirst where
  shows slot := by
    cases slot with
    | origin => exact holds_refl fs _
    | target => exact holds_refl fs _
    | temporary => exact setting.temporary
  elsewhere place _ := rfl

theorem standing_has (setting : Setting os fs fromPath toPath path) (cur : Fs) (origin : Slot → Option Slot)
    (standing : Standing (os.slots fromPath toPath path) fs cur origin) (slot source : Slot)
    (shows : origin slot = some source) (real : source ≠ .temporary) :
    cur (os.slots fromPath toPath path slot) ≠ none := by
  rw [standing_top _ fs cur origin standing slot, shows]
  cases source with
  | origin => exact setting.origin
  | target => exact setting.target
  | temporary => exact absurd rfl real

theorem standing_room (cur : Fs) (origin : Slot → Option Slot)
    (standing : Standing (os.slots fromPath toPath path) fs cur origin) (slot : Slot) (empty : origin slot = none) :
    (cur (os.slots fromPath toPath path slot)).any Object.directory = false := by
  rw [standing_top _ fs cur origin standing slot, empty]
  rfl

end

def BothKept (places : List (List CString)) (init cur : Fs) (origin target : List CString) : Prop :=
  ∃ a ∈ places, ∃ b ∈ places, a ≠ b ∧ Holds cur a init origin ∧ Holds cur b init target ∧
    ∀ c ∈ places, c ≠ a → c ≠ b → Vacant cur c

def Windows.swapPlaces (os : Windows) (fs : Fs) (fromPath toPath : CString) : List (List CString) :=
  os.place fromPath :: os.place toPath :: (os.temporary fs fromPath).toList.map os.place

-- The moves that end with the last rollback move replacing a file at `from`:
-- the third forward move and the first rollback move fail and no other does.
structure RollbackOverwrites (os : Windows) (fs : Fs) (fromPath toPath : CString)
    (faults : Nat → Option UvError) : Prop where
  forward : faults 0 = none ∧ faults 1 = none ∧ faults 2 ≠ none
  rollback : faults 3 ≠ none ∧ faults 4 = none
  file : (fs (os.place toPath)).any Object.directory = false
  temporary : ∃ path, os.temporary fs fromPath = some path ∧ ¬ os.place fromPath <+: os.place path

section
variable (os : Windows) (fs : Fs) (fromPath toPath path : CString)

theorem slots_injective (setting : Setting os fs fromPath toPath path) (a b : Slot) (different : a ≠ b) :
    os.slots fromPath toPath path a ≠ os.slots fromPath toPath path b := by
  intro same
  exact (setting.apart a b different).1 (same ▸ List.prefix_refl _)

theorem swap_places_slots (chosen : os.temporary fs fromPath = some path) (place : List CString) :
    place ∈ os.swapPlaces fs fromPath toPath ↔ ∃ slot, place = os.slots fromPath toPath path slot := by
  simp only [Windows.swapPlaces, chosen, Option.toList_some, List.map_cons, List.map_nil, List.mem_cons,
    List.not_mem_nil, or_false]
  constructor
  · rintro (rfl | rfl | rfl)
    · exact ⟨.origin, rfl⟩
    · exact ⟨.target, rfl⟩
    · exact ⟨.temporary, rfl⟩
  · rintro ⟨slot, rfl⟩
    cases slot with
    | origin => exact .inl rfl
    | target => exact .inr (.inl rfl)
    | temporary => exact .inr (.inr rfl)

theorem kept_of_standing (setting : Setting os fs fromPath toPath path)
    (chosen : os.temporary fs fromPath = some path) (cur : Fs) (origin : Slot → Option Slot)
    (standing : Standing (os.slots fromPath toPath path) fs cur origin) (a b : Slot) (different : a ≠ b)
    (first : origin a = some .origin) (second : origin b = some .target)
    (rest : ∀ c, c ≠ a → c ≠ b → origin c = none) :
    BothKept (os.swapPlaces fs fromPath toPath) fs cur (os.place fromPath) (os.place toPath) := by
  have atA := standing.shows a
  have atB := standing.shows b
  rw [first] at atA
  rw [second] at atB
  refine ⟨_, (swap_places_slots os fs fromPath toPath path chosen _).mpr ⟨a, rfl⟩, _,
    (swap_places_slots os fs fromPath toPath path chosen _).mpr ⟨b, rfl⟩,
    slots_injective os fs fromPath toPath path setting a b different, atA, atB, ?_⟩
  intro place member notA notB
  obtain ⟨c, rfl⟩ := (swap_places_slots os fs fromPath toPath path chosen place).mp member
  have empty := rest c (fun same => notA (same ▸ rfl)) (fun same => notB (same ▸ rfl))
  have atC := standing.shows c
  rw [empty] at atC
  exact atC

theorem lost_of_standing (setting : Setting os fs fromPath toPath path)
    (chosen : os.temporary fs fromPath = some path) (cur : Fs) (origin : Slot → Option Slot)
    (standing : Standing (os.slots fromPath toPath path) fs cur origin) (only : Slot)
    (rest : ∀ c, c ≠ only → origin c = none) :
    ¬ BothKept (os.swapPlaces fs fromPath toPath) fs cur (os.place fromPath) (os.place toPath) := by
  rintro ⟨a, memberA, b, memberB, different, heldA, heldB, _⟩
  have occupied : ∀ place ∈ os.swapPlaces fs fromPath toPath, cur place ≠ none →
      place = os.slots fromPath toPath path only := by
    intro place member present
    obtain ⟨c, rfl⟩ := (swap_places_slots os fs fromPath toPath path chosen place).mp member
    by_cases same : c = only
    · rw [same]
    · exact absurd (by rw [standing_top _ fs cur origin standing c, rest c same]; rfl) present
  have atA := occupied a memberA (by rw [holds_top cur fs a _ heldA]; exact setting.origin)
  have atB := occupied b memberB (by rw [holds_top cur fs b _ heldB]; exact setting.target)
  exact different (atA.trans atB.symm)

theorem kept_untouched (apart : Apart (os.place fromPath) (os.place toPath)) (closed : Closed Object.directory fs) :
    BothKept (os.swapPlaces fs fromPath toPath) fs fs (os.place fromPath) (os.place toPath) := by
  refine ⟨_, .head _, _, .tail _ (.head _), ?_, holds_refl fs _, holds_refl fs _, ?_⟩
  · intro same
    exact apart.1 (same ▸ List.prefix_refl _)
  · intro place member notFrom notTo
    cases chosen : os.temporary fs fromPath with
    | none => simp [Windows.swapPlaces, chosen, notFrom, notTo] at member
    | some path =>
        have atTemp : place = os.place path := by
          simpa [Windows.swapPlaces, chosen, notFrom, notTo] using member
        rw [atTemp]
        exact closed_vacant Object.directory fs closed _ (temporary_absent os fs fromPath path chosen)

theorem swap_into_itself (faults : Nat → Option UvError) (chosen : os.temporary fs fromPath = some path)
    (present : fs (os.place fromPath) ≠ none) (inside : os.place fromPath <+: os.place path) :
    (Program.run (os.faultyHandler faults) (swap os.processId fromPath toPath) (fs, 0)).2.1 = fs := by
  have absent := temporary_absent os fs fromPath path chosen
  have elsewhere : os.place fromPath ≠ os.place path := fun same => present (same ▸ absent)
  have stays : ∃ err, os.faultyHandler faults (.moveFileEx fromPath path) (fs, 0) = (.error err, (fs, 1)) := by
    cases fault : faults 0 with
    | some err => exact ⟨err, faulty_move_fails os faults _ _ fs 0 err fault⟩
    | none => exact ⟨.EBUSY, by simp [Windows.faultyHandler, Windows.handler, fault, moveEntry, present, elsewhere, inside]⟩
  obtain ⟨err, refused⟩ := stays
  simp only [swap, swapVia, swapCross, swapLand, Program.run_bind, run_temp_path_some os faults fromPath path (fs, 0) chosen, move,
    Program.perform_bind, Program.run_call, refused, Program.pure_eq_ret, Program.run_ret]

theorem swap_without_temporary (faults : Nat → Option UvError) (refused : os.temporary fs fromPath = none) :
    (Program.run (os.faultyHandler faults) (swap os.processId fromPath toPath) (fs, 0)).2.1 = fs := by
  obtain ⟨err, result⟩ := run_temp_path_none os faults fromPath (fs, 0) refused
  simp only [swap, swapVia, swapCross, swapLand, Program.run_bind, result, Program.pure_eq_ret, Program.run_ret]

def swapPlan (fails0 fails1 fails2 fails3 fails4 solid : Bool) : Slot → Option Slot :=
  let parked := shift .origin .temporary atFirst
  let crossed := shift .target .origin parked
  let returned := if fails3 then crossed else shift .origin .target crossed
  if fails0 then atFirst
  else if fails1 then (if fails2 then parked else shift .temporary .origin parked)
  else if !fails2 then shift .temporary .target crossed
  else if fails4 || (fails3 && solid) then returned
  else shift .temporary .origin returned

theorem swap_stands (faults : Nat → Option UvError) (setting : Setting os fs fromPath toPath path)
    (chosen : os.temporary fs fromPath = some path) :
    Standing (os.slots fromPath toPath path) fs
      (Program.run (os.faultyHandler faults) (swap os.processId fromPath toPath) (fs, 0)).2.1
      (swapPlan (faults 0).isSome (faults 1).isSome (faults 2).isSome (faults 3).isSome (faults 4).isSome
        ((fs (os.place toPath)).any Object.directory)) := by
  have start := run_temp_path_some os faults fromPath path (fs, 0) chosen
  have has := standing_has os fs fromPath toPath path setting
  have room := standing_room os fs fromPath toPath path
  have fails := faulty_move_fails os faults
  have goes := faulty_move_goes os fs fromPath toPath path setting faults
  have s0 := standing_at_first os fs fromPath toPath path setting
  simp only [swap, swapVia, swapCross, swapLand, Program.run_bind, start, move, Program.perform_bind, Program.run_call]
  cases f0 : faults 0 with
  | some err =>
      simp only [fails _ _ fs 0 err f0]
      exact s0
  | none =>
      obtain ⟨fs1, m1, s1⟩ := goes fs _ s0 .origin .temporary (by decide) 0
        (has fs _ s0 _ .origin rfl (by decide)) (room fs _ s0 _ rfl) f0
      simp only [Windows.pathOf, Nat.reduceAdd] at m1
      simp only [m1, Program.run_call]
      cases f1 : faults 1 with
      | some err =>
          simp only [fails _ _ fs1 1 err f1, Program.run_call]
          cases f2 : faults 2 with
          | some err' =>
              simp only [fails _ _ fs1 2 err' f2]
              exact s1
          | none =>
              obtain ⟨fs2, m2, s2⟩ := goes fs1 _ s1 .temporary .origin (by decide) 2
                (has fs1 _ s1 _ .origin rfl (by decide)) (room fs1 _ s1 _ rfl) f2
              simp only [Windows.pathOf, Nat.reduceAdd] at m2
              simp only [m2]
              exact s2
      | none =>
          obtain ⟨fs2, m2, s2⟩ := goes fs1 _ s1 .target .origin (by decide) 1
            (has fs1 _ s1 _ .target rfl (by decide)) (room fs1 _ s1 _ rfl) f1
          simp only [Windows.pathOf, Nat.reduceAdd] at m2
          simp only [m2, Program.run_call]
          cases f2 : faults 2 with
          | none =>
              obtain ⟨fs3, m3, s3⟩ := goes fs2 _ s2 .temporary .target (by decide) 2
                (has fs2 _ s2 _ .origin rfl (by decide)) (room fs2 _ s2 _ rfl) f2
              simp only [Windows.pathOf, Nat.reduceAdd] at m3
              simp only [m3]
              exact s3
          | some err =>
              simp only [fails _ _ fs2 2 err f2, Program.run_call]
              cases f3 : faults 3 with
              | none =>
                  obtain ⟨fs3, m3, s3⟩ := goes fs2 _ s2 .origin .target (by decide) 3
                    (has fs2 _ s2 _ .target rfl (by decide)) (room fs2 _ s2 _ rfl) f3
                  simp only [Windows.pathOf, Nat.reduceAdd] at m3
                  simp only [m3]
                  cases f4 : faults 4 with
                  | some err' =>
                      simp only [fails _ _ fs3 4 err' f4]
                      exact s3
                  | none =>
                      obtain ⟨fs4, m4, s4⟩ := goes fs3 _ s3 .temporary .origin (by decide) 4
                        (has fs3 _ s3 _ .origin rfl (by decide)) (room fs3 _ s3 _ rfl) f4
                      simp only [Windows.pathOf, Nat.reduceAdd] at m4
                      simp only [m4]
                      exact s4
              | some err' =>
                  simp only [fails _ _ fs2 3 err' f3]
                  -- `from` still shows the entry of `to`: the last move replaces
                  -- a file there and is refused by a directory
                  have shown : fs2 (os.place fromPath) = fs (os.place toPath) :=
                    standing_top _ fs fs2 _ s2 .origin
                  have present := has fs2 _ s2 .temporary .origin rfl (by decide)
                  cases f4 : faults 4 with
                  | some err'' =>
                      simp only [fails _ _ fs2 4 err'' f4]
                      exact s2
                  | none =>
                      cases solid : (fs (os.place toPath)).any Object.directory with
                      | false =>
                          obtain ⟨fs3, m3, s3⟩ := goes fs2 _ s2 .temporary .origin (by decide) 4 present
                            (by rw [← solid, ← shown]; rfl) f4
                          simp only [Windows.pathOf, Nat.reduceAdd] at m3
                          simp only [m3]
                          exact s3
                      | true =>
                          have refused := faulty_move_refused os fs fromPath toPath path setting faults fs2 _ s2
                            .temporary .origin (by decide) 4 present (by rw [← solid, ← shown]; rfl) f4
                          simp only [Windows.pathOf, Nat.reduceAdd] at refused
                          simp only [refused]
                          exact s2

def losingPlan (fails0 fails1 fails2 fails3 fails4 solid : Bool) : Bool :=
  !fails0 && !fails1 && fails2 && fails3 && !fails4 && !solid

theorem swap_plan_keeps (fails0 fails1 fails2 fails3 fails4 solid : Bool)
    (keeps : losingPlan fails0 fails1 fails2 fails3 fails4 solid = false) :
    ∃ a b, a ≠ b ∧ swapPlan fails0 fails1 fails2 fails3 fails4 solid a = some .origin ∧
      swapPlan fails0 fails1 fails2 fails3 fails4 solid b = some .target ∧
      ∀ c, c ≠ a → c ≠ b → swapPlan fails0 fails1 fails2 fails3 fails4 solid c = none := by
  revert fails0 fails1 fails2 fails3 fails4 solid
  decide

theorem swap_plan_loses (fails0 fails1 fails2 fails3 fails4 solid : Bool)
    (loses : losingPlan fails0 fails1 fails2 fails3 fails4 solid = true) :
    ∀ c, c ≠ .origin → swapPlan fails0 fails1 fails2 fails3 fails4 solid c = none := by
  revert fails0 fails1 fails2 fails3 fails4 solid
  decide

theorem setting_swap_keeps_both (faults : Nat → Option UvError) (setting : Setting os fs fromPath toPath path)
    (chosen : os.temporary fs fromPath = some path) :
    BothKept (os.swapPlaces fs fromPath toPath) fs
        (Program.run (os.faultyHandler faults) (swap os.processId fromPath toPath) (fs, 0)).2.1
        (os.place fromPath) (os.place toPath) ↔
      losingPlan (faults 0).isSome (faults 1).isSome (faults 2).isSome (faults 3).isSome (faults 4).isSome
        ((fs (os.place toPath)).any Object.directory) = false := by
  have stands := swap_stands os fs fromPath toPath path faults setting chosen
  generalize (fs (os.place toPath)).any Object.directory = solid at stands ⊢
  generalize (faults 0).isSome = fails0, (faults 1).isSome = fails1, (faults 2).isSome = fails2,
    (faults 3).isSome = fails3, (faults 4).isSome = fails4 at stands ⊢
  cases plan : losingPlan fails0 fails1 fails2 fails3 fails4 solid with
  | false =>
      obtain ⟨a, b, different, first, second, rest⟩ := swap_plan_keeps _ _ _ _ _ _ plan
      exact iff_of_true (kept_of_standing os fs fromPath toPath path setting chosen _ _ stands a b different
        first second rest) rfl
  | true =>
      exact iff_of_false (lost_of_standing os fs fromPath toPath path setting chosen _ _ stands .origin
        (swap_plan_loses _ _ _ _ _ _ plan)) (by simp)

end

theorem swap_keeps_both_iff (os : Windows) (fs : Fs) (fromPath toPath : CString)
    (faults : Nat → Option UvError) (closed : Closed Object.directory fs)
    (origin : fs (os.place fromPath) ≠ none) (target : fs (os.place toPath) ≠ none)
    (apart : Apart (os.place fromPath) (os.place toPath)) :
    BothKept (os.swapPlaces fs fromPath toPath) fs
        (Program.run (os.faultyHandler faults) (swap os.processId fromPath toPath) (fs, 0)).2.1
        (os.place fromPath) (os.place toPath) ↔
      ¬ RollbackOverwrites os fs fromPath toPath faults := by
  have untouched := kept_untouched os fs fromPath toPath apart closed
  cases chosen : os.temporary fs fromPath with
  | none =>
      rw [swap_without_temporary os fs fromPath toPath faults chosen]
      refine iff_of_true untouched fun overwrites => ?_
      obtain ⟨path, found, _⟩ := overwrites.temporary
      rw [chosen] at found
      cases found
  | some path =>
      by_cases inside : os.place fromPath <+: os.place path
      · rw [swap_into_itself os fs fromPath toPath path faults chosen origin inside]
        refine iff_of_true untouched fun overwrites => ?_
        obtain ⟨other, found, outside⟩ := overwrites.temporary
        rw [chosen] at found
        cases found
        exact outside inside
      · have setting := setting_of_apart os fs fromPath toPath path closed origin target apart chosen inside
        rw [setting_swap_keeps_both os fs fromPath toPath path faults setting chosen, ← Bool.not_eq_true,
          not_iff_not]
        simp only [losingPlan, Bool.and_eq_true, Bool.not_eq_true', Option.isSome_eq_false_iff,
          Option.isNone_iff_eq_none]
        constructor
        · rintro ⟨⟨⟨⟨⟨f0, f1⟩, f2⟩, f3⟩, f4⟩, file⟩
          exact ⟨⟨f0, f1, Option.isSome_iff_ne_none.mp f2⟩, ⟨Option.isSome_iff_ne_none.mp f3, f4⟩, file,
            path, chosen, inside⟩
        · rintro ⟨⟨f0, f1, f2⟩, ⟨f3, f4⟩, file, _⟩
          exact ⟨⟨⟨⟨⟨f0, f1⟩, Option.isSome_iff_ne_none.mpr f2⟩, Option.isSome_iff_ne_none.mpr f3⟩, f4⟩, file⟩

theorem swap_keeps_both_landing_fails :
    let faults : Nat → Option UvError := fun n => if n = 2 then some .EACCES else none
    BothKept (sampleWindows.swapPlaces sampleFs [0x61] [0x62]) sampleFs
      (Program.run (sampleWindows.faultyHandler faults) (swap 4 [0x61] [0x62]) (sampleFs, 0)).2.1
      [drive, [0x61]] [drive, [0x62]] :=
  (swap_keeps_both_iff sampleWindows sampleFs [0x61] [0x62] _ sample_closed (by decide) (by decide)
    (by unfold Apart; decide)).mpr fun overwrites => overwrites.rollback.1 (by decide)

theorem swap_destroys_source :
    let faults : Nat → Option UvError := fun n => if n = 2 ∨ n = 3 then some .EACCES else none
    Closed Object.directory sampleFs ∧ sampleFs (sampleWindows.place [0x61]) ≠ none ∧
      sampleFs (sampleWindows.place [0x62]) ≠ none ∧
      Apart (sampleWindows.place [0x61]) (sampleWindows.place [0x62]) ∧
      ¬ BothKept (sampleWindows.swapPlaces sampleFs [0x61] [0x62]) sampleFs
        (Program.run (sampleWindows.faultyHandler faults) (swap 4 [0x61] [0x62]) (sampleFs, 0)).2.1
        (sampleWindows.place [0x61]) (sampleWindows.place [0x62]) := by
  intro faults
  have apart : Apart (sampleWindows.place [0x61]) (sampleWindows.place [0x62]) := by
    rw [Apart]
    decide
  have chosen : sampleWindows.temporary sampleFs [0x61] =
      some (joinName [dot] (uniqueName 4)) := by decide
  have setting := setting_of_apart sampleWindows sampleFs [0x61] [0x62] _ sample_closed (by decide) (by decide) apart
    chosen (by decide)
  refine ⟨sample_closed, by decide, by decide, apart, fun kept => ?_⟩
  have kept := (setting_swap_keeps_both sampleWindows sampleFs [0x61] [0x62] _ faults setting chosen).mp kept
  revert kept
  decide

end FsExt.Swap
