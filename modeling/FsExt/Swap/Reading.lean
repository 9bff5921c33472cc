import FsExt.Swap.Swap
import Mathlib.Data.List.DropRight

set_option autoImplicit false

namespace FsExt.Swap

open Sys

def space : UInt8 := 0x20
def question : UInt8 := 0x3F

def upper (letter : UInt8) : UInt8 := if 0x61 ≤ letter ∧ letter ≤ 0x7A then letter - 0x20 else letter

def splitDrive : CString → Option (CString × CString)
  | letter :: mark :: rest => if mark = colon then some ([upper letter, colon], rest) else none
  | _ => none

-- Win32 takes one period off the end of a component, and all periods and spaces
-- off the end of the last one.
def dropPeriod (name : CString) : CString :=
  if name.getLast? = some dot ∧ name.dropLast.getLast? ≠ some dot then name.dropLast else name

def trimEnd (name : CString) : CString := name.rdropWhile fun byte => byte == dot || byte == space

-- Behind this prefix names are taken as they stand.
def verbatim : CString := [backslash, backslash, question, backslash]

def isVerbatim (path : CString) : Bool := verbatim.isPrefixOf path

def stepRaw (place : List CString) (name : CString) : List CString := if name = [] then place else place ++ [name]

def stepWithin (raw : Bool) (place : List CString) (name : CString) : List CString :=
  if raw then stepRaw place name else stepName place (dropPeriod name)

def stepLast (raw : Bool) (place : List CString) (last : CString) : List CString :=
  if raw then stepRaw place last else stepName place (if last = [dot, dot] then last else trimEnd last)

structure Route where
  start : List CString
  behind : List CString

def Route.walk (raw : Bool) (route : Route) : List CString := route.behind.foldl (stepWithin raw) route.start

def Route.lead (raw : Bool) (route : Route) : List CString :=
  match route.behind.getLast? with
  | none => route.start
  | some last => stepLast raw (route.behind.dropLast.foldl (stepWithin raw) route.start) last

def serverRoot (host : CString) : CString := backslash :: backslash :: host

def shareRoot (host share : CString) : CString := serverRoot host ++ backslash :: share

-- The current directory of the process, on its volume, and those it has on the
-- other drives: a path may name a drive without its root.
structure Places where
  volume : CString
  below : List CString
  others : CString → List CString

namespace Places

def current (places : Places) : List CString := places.volume :: places.below

def onDrive (places : Places) (drive : CString) : List CString :=
  if drive = places.volume then places.current else drive :: places.others drive

-- Two separators in front of a server and a share make these two the root.
def route (places : Places) : List CString → Route
  | [[], [], host] => ⟨[serverRoot host], []⟩
  | [] :: [] :: host :: share :: rest => ⟨[shareRoot host share], rest⟩
  | [] :: second :: rest => ⟨[places.volume], second :: rest⟩
  | first :: rest =>
      match splitDrive first with
      | none => ⟨places.current, first :: rest⟩
      | some (drive, name) =>
          if name = [] ∧ rest ≠ [] then ⟨[drive], rest⟩ else ⟨places.onDrive drive, name :: rest⟩
  | [] => ⟨places.current, []⟩

def entry (places : Places) (path : CString) : List CString :=
  (places.route (path.splitOnP isSeparator)).lead (isVerbatim path)

def folder (places : Places) (directory : CString) : List CString := places.entry (joinName directory [])

end Places

theorem step_raw_nil (place : List CString) : stepRaw place [] = place := if_pos rfl

theorem step_name_nil (place : List CString) : stepName place [] = place := if_pos (.inl rfl)

theorem step_within_nil (raw : Bool) (place : List CString) : stepWithin raw place [] = place := by
  cases raw with
  | true => exact step_raw_nil place
  | false => exact step_name_nil place

theorem step_last_nil (raw : Bool) (place : List CString) : stepLast raw place [] = place := by
  cases raw with
  | true => exact step_raw_nil place
  | false => exact step_name_nil place

theorem lead_push (raw : Bool) (start behind : List CString) (last : CString) :
    Route.lead raw ⟨start, behind ++ [last]⟩ = stepLast raw (Route.walk raw ⟨start, behind⟩) last := by
  simp [Route.lead, Route.walk]

def Hosts (parts : List CString) : Prop := parts = [[], []] ∨ ∃ host, parts = [[], [], host]

section
variable (places : Places) (raw : Bool)

theorem route_host (parts : List CString) (last : CString) (hosts : Hosts parts) :
    ∃ root, places.route (parts ++ [last]) = ⟨[root], []⟩ := by
  rcases hosts with rfl | ⟨host, rfl⟩
  · exact ⟨_, rfl⟩
  · exact ⟨_, rfl⟩

theorem route_named (first : CString) (rest : List CString) (named : first ≠ []) :
    places.route (first :: rest) =
      match splitDrive first with
      | none => ⟨places.current, first :: rest⟩
      | some (drive, name) =>
          if name = [] ∧ rest ≠ [] then ⟨[drive], rest⟩ else ⟨places.onDrive drive, name :: rest⟩ := by
  cases first with
  | nil => exact absurd rfl named
  | cons byte bytes => rfl

theorem route_single (first : CString) :
    ∃ start behind, ∀ last, places.route [first, last] = ⟨start, behind ++ [last]⟩ := by
  by_cases named : first = []
  · subst named
    exact ⟨[places.volume], [], fun last => by cases last <;> rfl⟩
  · simp only [route_named places first _ named]
    cases splitDrive first with
    | none => exact ⟨places.current, [first], fun _ => rfl⟩
    | some parts =>
        by_cases bare : parts.2 = []
        · exact ⟨[parts.1], [], fun last => if_pos ⟨bare, List.cons_ne_nil last []⟩⟩
        · exact ⟨places.onDrive parts.1, [parts.2], fun last => if_neg fun both => bare both.1⟩

theorem route_long (first second : CString) (rest : List CString) (last : CString)
    (within : ¬ Hosts (first :: second :: rest)) :
    places.route (first :: second :: rest ++ [last]) =
      ⟨(places.route (first :: second :: rest)).start, (places.route (first :: second :: rest)).behind ++ [last]⟩ := by
  by_cases named : first = []
  · subst named
    cases second with
    | cons byte bytes => rfl
    | nil =>
        rcases rest with _ | ⟨host, _ | ⟨share, rest⟩⟩
        · exact absurd (.inl rfl) within
        · exact absurd (.inr ⟨host, rfl⟩) within
        · rfl
  · rw [List.cons_append, List.cons_append, route_named places first _ named, route_named places first _ named]
    cases splitDrive first with
    | none => rfl
    | some parts =>
        by_cases bare : parts.2 = []
        · simp [bare]
        · simp [bare]

theorem route_push (parts : List CString) (some_ : parts ≠ []) (within : ¬ Hosts parts) :
    ∃ start behind, ∀ last, places.route (parts ++ [last]) = ⟨start, behind ++ [last]⟩ := by
  rcases parts with _ | ⟨first, _ | ⟨second, rest⟩⟩
  · exact absurd rfl some_
  · exact route_single places first
  · exact ⟨_, _, fun last => route_long places first second rest last within⟩

theorem lead_ended (parts : List CString) (some_ : parts ≠ []) :
    (places.route (parts ++ [[]])).lead raw = (places.route (parts ++ [[]])).walk raw := by
  by_cases hosts : Hosts parts
  · obtain ⟨root, bare⟩ := route_host places parts [] hosts
    rw [bare]
    rfl
  · obtain ⟨start, behind, push⟩ := route_push places parts some_ hosts
    rw [push, lead_push, step_last_nil, Route.walk, Route.walk, List.foldl_append, List.foldl_cons, List.foldl_nil,
      step_within_nil]

theorem route_child (parts : List CString) (last : CString) (some_ : parts ≠ []) (within : ¬ Hosts parts) :
    (places.route (parts ++ [last])).lead raw = stepLast raw ((places.route (parts ++ [[]])).lead raw) last := by
  obtain ⟨start, behind, push⟩ := route_push places parts some_ within
  rw [push, push, lead_push, lead_push, step_last_nil]

theorem route_child_ended (parts : List CString) (last : CString) (some_ : parts ≠ [])
    (within : ¬ Hosts (parts ++ [[]])) :
    (places.route (parts ++ [[]] ++ [last])).lead raw = stepLast raw ((places.route (parts ++ [[]])).lead raw) last := by
  have push := route_child places raw (parts ++ [[]]) last (by simp) within
  rw [push]
  congr 1
  rcases parts with _ | ⟨first, rest⟩
  · exact absurd rfl some_
  · obtain ⟨second, more, shape⟩ : ∃ second more, first :: rest ++ [[]] = first :: second :: more := by
      cases rest with
      | nil => exact ⟨[], [], rfl⟩
      | cons second more => exact ⟨second, more ++ [[]], rfl⟩
    rw [lead_ended places raw (first :: rest) some_]
    rw [shape] at within ⊢
    rw [route_long places first second more [] within, lead_push, step_last_nil]

theorem route_start (parts : List CString) : ∃ head more, (places.route parts).start = head :: more := by
  have onDrive : ∀ name, ∃ head more, places.onDrive name = head :: more := fun name => by
    rw [Places.onDrive]
    split
    · exact ⟨_, _, rfl⟩
    · exact ⟨_, _, rfl⟩
  rw [Places.route.eq_def]
  split
  · exact ⟨_, _, rfl⟩
  · exact ⟨_, _, rfl⟩
  · exact ⟨_, _, rfl⟩
  · split
    · exact ⟨_, _, rfl⟩
    · split
      · exact ⟨_, _, rfl⟩
      · exact onDrive _
  · exact ⟨_, _, rfl⟩

end

def Begins (head : CString) (place : List CString) : Prop := ∃ more, place = head :: more

theorem step_raw_begins (head : CString) (place : List CString) (name : CString) (begins : Begins head place) :
    Begins head (stepRaw place name) := by
  obtain ⟨more, rfl⟩ := begins
  rw [stepRaw]
  split
  · exact ⟨more, rfl⟩
  · exact ⟨more ++ [name], rfl⟩

theorem step_name_begins (head : CString) (place : List CString) (name : CString) (begins : Begins head place) :
    Begins head (stepName place name) := by
  obtain ⟨more, rfl⟩ := begins
  rw [stepName]
  split
  · exact ⟨more, rfl⟩
  · split
    · split
      · exact ⟨more, rfl⟩
      · rename_i deep
        cases more with
        | nil => exact absurd (Nat.le_refl 1) deep
        | cons second more => exact ⟨(second :: more).dropLast, rfl⟩
    · exact ⟨more ++ [name], rfl⟩

theorem step_last_begins (raw : Bool) (head : CString) (place : List CString) (last : CString)
    (begins : Begins head place) : Begins head (stepLast raw place last) := by
  cases raw with
  | true => exact step_raw_begins head place last begins
  | false => exact step_name_begins head place _ begins

theorem walk_begins (raw : Bool) (head : CString) (names place : List CString) (begins : Begins head place) :
    Begins head (names.foldl (stepWithin raw) place) := by
  induction names generalizing place with
  | nil => exact begins
  | cons name rest ih =>
      refine ih _ ?_
      cases raw with
      | true => exact step_raw_begins head place name begins
      | false => exact step_name_begins head place _ begins

theorem lead_begins (raw : Bool) (head : CString) (route : Route) (begins : Begins head route.start) :
    Begins head (route.lead raw) := by
  rw [Route.lead]
  split
  · exact begins
  · exact step_last_begins raw head _ _ (walk_begins raw head _ _ begins)

theorem step_last_length (raw : Bool) (place : List CString) (last : CString) :
    (stepLast raw place last).length ≤ place.length + 1 := by
  cases raw with
  | true =>
      change (stepRaw place last).length ≤ place.length + 1
      rw [stepRaw]
      split
      · omega
      · rw [List.length_append, List.length_singleton]
  | false =>
      rcases step_name_cases place (if last = [dot, dot] then last else trimEnd last) with child | around
      · exact (congrArg List.length child).le.trans (by rw [List.length_append, List.length_singleton])
      · exact around.length_le.trans (Nat.le_succ _)

theorem verbatim_child (front last : CString) (separator : UInt8) (plain : Unseparated last)
    (within : ¬ Hosts (front.splitOnP isSeparator)) :
    isVerbatim (front ++ separator :: last) = isVerbatim front := by
  rw [isVerbatim, isVerbatim, Bool.eq_iff_iff, List.isPrefixOf_iff_prefix, List.isPrefixOf_iff_prefix]
  refine ⟨fun before => ?_, fun before => before.trans (List.prefix_append _ _)⟩
  by_cases long : 4 ≤ front.length
  · exact List.prefix_of_prefix_length_le before (List.prefix_append _ _) long
  · obtain ⟨rest, base⟩ := before
    exfalso
    by_cases three : front.length = 3
    · have taken := congrArg (List.take 3) base
      rw [← three, List.take_left, three] at taken
      exact within (.inr ⟨[question], by rw [← taken]; rfl⟩)
    · have fourth : last[3 - front.length - 1]? = some backslash := by
        have here := congrArg (·[3]?) base
        simp only [List.getElem?_append_right (show front.length ≤ 3 by omega)] at here
        rw [List.getElem?_cons, if_neg (by omega)] at here
        exact here.symm
      exact absurd (plain backslash (List.mem_of_getElem? fourth)) (by decide)

theorem join_ended (front : CString) (separator : UInt8) (name : CString) (isSep : isSeparator separator = true) :
    joinName (front ++ [separator]) name = front ++ separator :: name := by
  rw [joinName, if_pos (by simp [isSep]), List.append_assoc, List.singleton_append]

theorem join_apart (directory name : CString) (apart : directory.getLast?.any isSeparator = false) :
    joinName directory name = directory ++ backslash :: name := by
  rw [joinName, if_neg (by simp [apart])]

section
variable (places : Places)

theorem entry_split (front last : CString) (separator : UInt8) (isSep : isSeparator separator = true)
    (plain : Unseparated last) (within : ¬ Hosts (front.splitOnP isSeparator)) :
    places.entry (front ++ separator :: last) =
      (places.route (front.splitOnP isSeparator ++ [last])).lead (isVerbatim front) := by
  rw [Places.entry, List.splitOnP_append_cons front last isSep, List.splitOnP_eq_singleton plain,
    verbatim_child front last separator plain within]

theorem entry_host (front last : CString) (separator : UInt8) (isSep : isSeparator separator = true)
    (plain : Unseparated last) (hosts : Hosts (front.splitOnP isSeparator)) :
    ∃ root, places.entry (front ++ separator :: last) = [root] := by
  obtain ⟨root, bare⟩ := route_host places _ last hosts
  refine ⟨root, ?_⟩
  rw [Places.entry, List.splitOnP_append_cons front last isSep, List.splitOnP_eq_singleton plain, bare]
  rfl

theorem entry_child (front last : CString) (separator : UInt8) (isSep : isSeparator separator = true)
    (plain : Unseparated last) (within : ¬ Hosts (front.splitOnP isSeparator)) :
    places.entry (front ++ separator :: last) = stepLast (isVerbatim front) (places.folder front) last := by
  have some_ := List.splitOnP_ne_nil isSeparator
  rw [entry_split places front last separator isSep plain within, Places.folder]
  cases ended : front.getLast?.any isSeparator with
  | false =>
      rw [join_apart front [] ended, entry_split places front [] backslash (by decide) nofun within]
      exact route_child places _ _ last (some_ front) within
  | true =>
      obtain ⟨final, atEnd, isSep'⟩ := (Option.any_eq_true ..).mp ended
      obtain ⟨before, rfl⟩ := List.getLast?_eq_some_iff.mp atEnd
      have parts : (before ++ [final]).splitOnP isSeparator = before.splitOnP isSeparator ++ [[]] :=
        List.splitOnP_append_cons before [] isSep'
      rw [parts] at within
      rw [join_ended before final [] isSep', Places.entry, parts]
      exact route_child_ended places _ _ last (some_ before) within

theorem folder_ended (front : CString) (separator : UInt8) (isSep : isSeparator separator = true)
    (within : ¬ Hosts (front.splitOnP isSeparator)) : places.folder (front ++ [separator]) = places.folder front := by
  have child := entry_child places front [] separator isSep nofun within
  rw [step_last_nil] at child
  rw [Places.folder, join_ended front separator [] isSep, child]

theorem folder_some (directory : CString) : places.folder directory ≠ [] := by
  obtain ⟨head, more, start⟩ := route_start places ((joinName directory []).splitOnP isSeparator)
  obtain ⟨rest, begins⟩ := lead_begins (isVerbatim (joinName directory [])) head _ ⟨more, start⟩
  intro empty
  exact List.cons_ne_nil head rest (begins.symm.trans empty)

theorem entry_join_length (directory : CString) (name : PlainName) :
    (places.entry (joinName directory name.name)).length ≤ (places.folder directory).length + 1 := by
  have split : ∀ front separator, isSeparator separator = true →
      (Hosts (front.splitOnP isSeparator) ∨ places.folder directory = places.folder front) →
      (places.entry (front ++ separator :: name.name)).length ≤ (places.folder directory).length + 1 := by
    intro front separator isSep place
    by_cases hosts : Hosts (front.splitOnP isSeparator)
    · obtain ⟨root, bare⟩ := entry_host places front name.name separator isSep name.unseparated hosts
      rw [bare, List.length_singleton]
      omega
    · rw [entry_child places front name.name separator isSep name.unseparated hosts, place.resolve_left hosts]
      exact step_last_length _ _ _
  cases ended : directory.getLast?.any isSeparator with
  | false =>
      rw [join_apart directory name.name ended]
      exact split directory backslash (by decide) (.inr rfl)
  | true =>
      obtain ⟨final, atEnd, isSep⟩ := (Option.any_eq_true ..).mp ended
      obtain ⟨front, rfl⟩ := List.getLast?_eq_some_iff.mp atEnd
      rw [join_ended front final name.name isSep]
      refine split front final isSep ?_
      by_cases hosts : Hosts (front.splitOnP isSeparator)
      · exact .inl hosts
      · exact .inr (folder_ended places front final isSep hosts)

end

end FsExt.Swap
