import FsExt.Swap.Reading
import Mathlib.Data.List.Nodup

set_option autoImplicit false

namespace FsExt.Swap

open Sys

def IsParent (folder entry : List CString) : Prop := ∃ last, entry = folder ++ [last]

def InsideOf (place entry : List CString) : Prop := ∃ more, more ≠ [] ∧ place = entry ++ more

def Named (raw : Bool) (last : CString) : Prop := (if raw then last else trimEnd last) ≠ []

instance (raw : Bool) (last : CString) : Decidable (Named raw last) := inferInstanceAs (Decidable (_ ≠ _))

-- The last component of `base` names an entry of the folder in front of it, or
-- of the current directory where there is no separator.
def NamesEntry (places : Places) (base : CString) : Prop :=
  (∃ last, (places.route (base.splitOnP isSeparator)).behind.getLast? = some last ∧ Named (isVerbatim base) last) ∧
    (lastSeparator base = none → ∀ parts, splitDrive base = some parts → parts.1 = places.volume)

theorem around_not_child (place entry : List CString) (around : entry <+: place) : ¬ IsParent place entry := by
  rintro ⟨last, rfl⟩
  have longer := around.length_le
  rw [List.length_append, List.length_singleton] at longer
  omega

theorem step_parent_iff (place : List CString) (name : CString) :
    IsParent place (stepName place name) ↔ Ordinary name := by
  constructor
  · intro child
    by_contra special
    refine around_not_child place _ ?_ child
    rw [stepName]
    split
    · exact List.prefix_refl place
    · rename_i inhabited
      rw [not_or] at inhabited
      split
      · split
        · exact List.prefix_refl place
        · exact List.dropLast_prefix place
      · rename_i notUp
        exact absurd ⟨inhabited.1, inhabited.2, notUp⟩ special
  · rintro ⟨notEmpty, notDot, notUp⟩
    exact ⟨name, by simp [stepName, notEmpty, notDot, notUp]⟩

theorem trim_end_ordinary (name : CString) : Ordinary (trimEnd name) ↔ trimEnd name ≠ [] := by
  refine ⟨And.left, fun some_ => ?_⟩
  have ended := List.rdropWhile_last_not _ _ some_
  refine ⟨some_, fun one => ?_, fun two => ?_⟩
  · exact absurd (show ((trimEnd name).getLast some_ == dot || _) = true by simp only [one]; rfl) ended
  · exact absurd (show ((trimEnd name).getLast some_ == dot || _) = true by simp only [two]; rfl) ended

theorem last_parent_iff (raw : Bool) (place : List CString) (last : CString) :
    IsParent place (stepLast raw place last) ↔ Named raw last := by
  cases raw with
  | true =>
      change IsParent place (stepRaw place last) ↔ last ≠ []
      by_cases empty : last = []
      · simp only [empty, step_raw_nil, ne_eq, not_true_eq_false, iff_false]
        exact around_not_child place place (List.prefix_refl place)
      · exact iff_of_true ⟨last, if_neg empty⟩ empty
  | false =>
      change IsParent place (stepName place (if last = [dot, dot] then last else trimEnd last)) ↔ trimEnd last ≠ []
      by_cases up : last = [dot, dot]
      · rw [if_pos up, step_parent_iff, up]
        exact iff_of_false (fun ordinary => ordinary.2.2 rfl) fun some_ => some_ rfl
      · rw [if_neg up, step_parent_iff, trim_end_ordinary]

section
variable (places : Places)

theorem route_only (only : CString) :
    (splitDrive only = none ∧ places.route [only] = ⟨places.current, [only]⟩) ∨
      ∃ drive name, splitDrive only = some (drive, name) ∧ places.route [only] = ⟨places.onDrive drive, [name]⟩ := by
  rcases only with _ | ⟨letter, rest⟩
  · exact .inl ⟨rfl, rfl⟩
  · rw [route_named places _ [] (List.cons_ne_nil letter rest)]
    cases splitDrive (letter :: rest) with
    | none => exact .inl ⟨rfl, rfl⟩
    | some parts => exact .inr ⟨parts.1, parts.2, rfl, if_neg fun both => both.2 rfl⟩

theorem alone_parent_iff (base : CString) (found : lastSeparator base = none) :
    IsParent (places.folder [dot]) (places.entry base) ↔ NamesEntry places base := by
  have here : places.folder [dot] = places.current := rfl
  have parts := List.splitOnP_eq_singleton (last_separator_none base found)
  rw [here, NamesEntry, Places.entry, parts]
  rcases route_only places base with ⟨none_, route⟩ | ⟨drive, name, some_, route⟩
  · rw [route, none_]
    have parent := last_parent_iff (isVerbatim base) places.current base
    simpa [Route.lead] using parent
  · rw [route, some_]
    by_cases same : drive = places.volume
    · have there : places.onDrive drive = places.current := if_pos same
      have parent := last_parent_iff (isVerbatim base) places.current name
      simp only [there]
      simpa [Route.lead, same] using parent
    · have away : places.onDrive drive = drive :: places.others drive := if_neg same
      refine iff_of_false (fun parent => ?_) fun names => same (names.2 found _ rfl)
      obtain ⟨last, entry⟩ := parent
      obtain ⟨rest, begins⟩ := lead_begins (isVerbatim base) drive ⟨places.onDrive drive, [name]⟩ ⟨_, away⟩
      rw [begins, Places.current, List.cons_append] at entry
      exact same (List.cons.inj entry).1

theorem behind_parent_iff (front last directory : CString) (separator : UInt8) (isSep : isSeparator separator = true)
    (plain : Unseparated last) (found : lastSeparator (front ++ separator :: last) ≠ none)
    (before : directory = front ∨ directory = front ++ [separator]) :
    IsParent (places.folder directory) (places.entry (front ++ separator :: last)) ↔
      NamesEntry places (front ++ separator :: last) := by
  have parts : (front ++ separator :: last).splitOnP isSeparator = front.splitOnP isSeparator ++ [last] := by
    rw [List.splitOnP_append_cons front last isSep, List.splitOnP_eq_singleton plain]
  by_cases hosts : Hosts (front.splitOnP isSeparator)
  · obtain ⟨root, bare⟩ := entry_host places front last separator isSep plain hosts
    obtain ⟨_, route⟩ := route_host places _ last hosts
    refine iff_of_false (fun ⟨name, entry⟩ => ?_) fun names => ?_
    · rw [bare] at entry
      have lengths := congrArg List.length entry
      have long := List.length_pos_of_ne_nil (folder_some places directory)
      simp only [List.length_append, List.length_singleton] at lengths
      omega
    · obtain ⟨_, atEnd, _⟩ := names.1
      rw [parts, route] at atEnd
      cases atEnd
  · obtain ⟨start, behind, push⟩ := route_push places _ (List.splitOnP_ne_nil isSeparator front) hosts
    have folder : places.folder directory = places.folder front := by
      rcases before with rfl | rfl
      · rfl
      · exact folder_ended places front separator isSep hosts
    rw [folder, entry_child places front last separator isSep plain hosts, last_parent_iff, NamesEntry, parts, push,
      verbatim_child front last separator plain hosts]
    simp [found]

theorem parent_iff (base directory : CString) (chosen : tempDirectory base = .ok directory) :
    IsParent (places.folder directory) (places.entry base) ↔ NamesEntry places base := by
  cases found : lastSeparator base with
  | none =>
      obtain rfl := temp_directory_alone base directory found chosen
      exact alone_parent_iff places base found
  | some index =>
      obtain ⟨front, separator, last, rfl, length, isSep, plain, _, before⟩ :=
        temp_directory_split base directory index found chosen
      exact behind_parent_iff places front last directory separator isSep plain (by simp [found]) before

end

theorem unique_name_low (left right : UInt32) (same : uniqueName left = uniqueName right) :
    left.toNat % 2 ^ 16 = right.toNat % 2 ^ 16 := by
  have digits : ∀ a b : Fin 16, hexDigit a = hexDigit b → a = b := by decide
  simp only [uniqueName, List.cons.injEq, true_and, and_true] at same
  obtain ⟨third, second, first, zeroth⟩ := same
  have value : ∀ a b : Nat, hexDigit (Fin.ofNat 16 a) = hexDigit (Fin.ofNat 16 b) → a % 16 = b % 16 :=
    fun a b equal => congrArg Fin.val (digits _ _ equal)
  have low := value _ _ zeroth
  have next := value _ _ first
  have high := value _ _ second
  have top := value _ _ third
  omega

theorem join_name_injective (directory left right : CString) (same : joinName directory left = joinName directory right) :
    left = right := by
  rw [joinName, joinName] at same
  split at same
  · exact List.append_cancel_left same
  · exact (List.cons.inj (List.append_cancel_left same)).2

def tempCandidate (directory : CString) (processId : UInt32) (i : Nat) : CString :=
  joinName directory (documentedName (processId + UInt32.ofNat i)).name

theorem candidates_distinct (directory : CString) (processId : UInt32) (count : Nat) (few : count ≤ 2 ^ 16) :
    ((List.range count).map (tempCandidate directory processId)).Nodup := by
  refine List.Nodup.map_on ?_ List.nodup_range
  intro i here j there same
  have low := unique_name_low _ _ (join_name_injective directory _ _ same)
  rw [List.mem_range] at here there
  rw [UInt32.toNat_add, UInt32.toNat_add, UInt32.toNat_ofNat', UInt32.toNat_ofNat'] at low
  omega

def probed (calls : List SwapOp) : List CString :=
  calls.filterMap fun
    | .getFileAttributes path => some path
    | _ => none

def Documented (answers : Nat → (op : SwapOp) → SwapAnswer op) : Prop :=
  ∀ n directory unique path, unique ≠ 0 → answers n (.getTempFileName directory unique) = .ok path →
    path = joinName directory (documentedName unique).name

structure Tries (answers : Nat → (op : SwapOp) → SwapAnswer op) (directory : CString) (processId : UInt32)
    (tries : List Nat) (n : Nat) (ran : List SwapOp × Except UvError CString) : Prop where
  asked : ∀ other unique, .getTempFileName other unique ∈ ran.1 → other = directory
  tried : ∃ count, probed ran.1 = (tries.take count).map (tempCandidate directory processId)
  absent : ∀ path, ran.2 = .ok path → ∃ k, ran.1[k]? = some (.getFileAttributes path) ∧
    answers (n + k) (.getFileAttributes path) = false

section
variable (answers : Nat → (op : SwapOp) → SwapAnswer op) (directory : CString) (processId unique : UInt32)
  (tries : List Nat) (n i : Nat)

theorem tries_failed (err : UvError) :
    Tries answers directory processId tries n ([.getTempFileName directory unique], .error err) := by
  refine ⟨fun other number member => ?_, ⟨0, rfl⟩, nofun⟩
  cases List.mem_singleton.mp member
  rfl

theorem tries_free (free : answers (n + 1) (.getFileAttributes (tempCandidate directory processId i)) = false) :
    Tries answers directory processId (i :: tries) n
      ([.getTempFileName directory unique, .getFileAttributes (tempCandidate directory processId i)],
        .ok (tempCandidate directory processId i)) := by
  refine ⟨fun other number member => ?_, ⟨1, rfl⟩, fun path result => ⟨1, ?_⟩⟩
  · rcases List.mem_cons.mp member with same | later
    · cases same
      rfl
    · cases List.mem_singleton.mp later
  · cases result
    exact ⟨rfl, free⟩

theorem tries_taken (ran : List SwapOp × Except UvError CString)
    (later : Tries answers directory processId tries (n + 2) ran) :
    Tries answers directory processId (i :: tries) n
      (.getTempFileName directory unique :: .getFileAttributes (tempCandidate directory processId i) :: ran.1, ran.2) := by
  refine ⟨fun other number member => ?_, ?_, fun path result => ?_⟩
  · rcases List.mem_cons.mp member with same | member
    · cases same
      rfl
    · rcases List.mem_cons.mp member with same | member
      · cases same
      · exact later.asked other number member
  · obtain ⟨count, tried⟩ := later.tried
    exact ⟨count + 1, congrArg (tempCandidate directory processId i :: ·) tried⟩
  · obtain ⟨k, here, free⟩ := later.absent path result
    exact ⟨k + 2, here, by rwa [Nat.add_right_comm] at free⟩

end

theorem temp_tries_trace (answers : Nat → (op : SwapOp) → SwapAnswer op) (documented : Documented answers)
    (directory : CString) (processId : UInt32) (tries : List Nat) (n : Nat)
    (numbered : ∀ i ∈ tries, processId + UInt32.ofNat i ≠ 0) :
    Tries answers directory processId tries n (Program.replay answers n (tempTries directory processId tries)) := by
  induction tries generalizing n with
  | nil => exact ⟨nofun, ⟨0, rfl⟩, nofun⟩
  | cons i rest ih =>
      rw [tempTries, getTempFileName, Program.perform_bind, Program.replay]
      cases answered : answers n (.getTempFileName directory (processId + UInt32.ofNat i)) with
      | error err => exact tries_failed answers directory processId _ _ n err
      | ok path =>
          obtain rfl := documented _ _ _ _ (numbered i (.head _)) answered
          simp only [getFileAttributes, Program.perform_bind, Program.replay]
          cases there : answers (n + 1) (.getFileAttributes (tempCandidate directory processId i)) with
          | false =>
              have free := tries_free answers directory processId (processId + UInt32.ofNat i) rest n i there
              rw [tempCandidate] at there free
              rw [there]
              exact free
          | true =>
              have later := ih (n + 2) fun j member => numbered j (.tail _ member)
              have taken := tries_taken answers directory processId (processId + UInt32.ofNat i) rest n i _ later
              rw [tempCandidate] at there taken
              rw [there]
              exact taken

def tempTrace (answers : Nat → (op : SwapOp) → SwapAnswer op) (processId : UInt32) (base : CString) :
    List SwapOp × Except UvError CString :=
  Program.replay answers 0 (tempPath processId base)

structure SiblingTemp (places : Places) (answers : Nat → (op : SwapOp) → SwapAnswer op) (processId : UInt32)
    (base : CString) : Prop where
  parent : ∃ directory, tempDirectory base = .ok directory ∧ IsParent (places.folder directory) (places.entry base) ∧
    ∀ other unique, .getTempFileName other unique ∈ (tempTrace answers processId base).1 → other = directory
  outside : ∀ path ∈ probed (tempTrace answers processId base).1, ¬ InsideOf (places.entry path) (places.entry base)
  few : (probed (tempTrace answers processId base).1).length ≤ 64
  distinct : (probed (tempTrace answers processId base).1).Nodup
  absent : ∀ path, (tempTrace answers processId base).2 = .ok path → ∃ k,
    (tempTrace answers processId base).1[k]? = some (.getFileAttributes path) ∧
      answers k (.getFileAttributes path) = false

theorem temp_trace_tries (answers : Nat → (op : SwapOp) → SwapAnswer op) (processId : UInt32) (base directory : CString)
    (documented : Documented answers) (numbered : ∀ i < 64, processId + UInt32.ofNat i ≠ 0)
    (chosen : tempDirectory base = .ok directory) :
    Tries answers directory processId (List.range 64) 0 (tempTrace answers processId base) := by
  rw [tempTrace, tempPath, chosen]
  exact temp_tries_trace answers documented directory processId (List.range 64) 0 fun i member =>
    numbered i (List.mem_range.mp member)

theorem candidate_outside (places : Places) (base directory : CString) (processId : UInt32) (i : Nat)
    (parent : IsParent (places.folder directory) (places.entry base)) :
    ¬ InsideOf (places.entry (tempCandidate directory processId i)) (places.entry base) := by
  rintro ⟨more, some_, inside⟩
  obtain ⟨last, entry⟩ := parent
  have lengths := congrArg List.length inside
  have short := entry_join_length places directory (documentedName (processId + UInt32.ofNat i))
  have long := List.length_pos_of_ne_nil some_
  rw [tempCandidate] at lengths
  simp only [entry, List.length_append, List.length_singleton] at lengths
  omega

def samplePlaces : Places := ⟨drive, [], fun _ => []⟩

def freeAnswers (_ : Nat) : (op : SwapOp) → SwapAnswer op
  | .getTempFileName directory unique => .ok (joinName directory (documentedName unique).name)
  | .getFileAttributes _ => false
  | .moveFileEx _ _ => .ok ()

theorem free_answers_documented : Documented freeAnswers := fun _ _ _ _ _ answered => (Except.ok.inj answered).symm

theorem four_nonzero : ∀ i < 64, (4 : UInt32) + UInt32.ofNat i ≠ 0 := by decide

def nestedPath : CString := [0x61, slash, 0x62]

def trailingPath : CString := [0x61, backslash]

end FsExt.Swap
