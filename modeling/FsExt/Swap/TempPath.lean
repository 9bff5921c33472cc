import FsExt.Uv
import Mathlib.Data.List.Infix

set_option autoImplicit false

namespace FsExt.Swap

def maxPath : Nat := 260

def backslash : UInt8 := 0x5C
def slash : UInt8 := 0x2F
def dot : UInt8 := 0x2E
def colon : UInt8 := 0x3A

def isSeparator (byte : UInt8) : Bool := byte == backslash || byte == slash

def strrchr (byte : UInt8) : CString → Option Nat
  | [] => none
  | head :: tail =>
      match strrchr byte tail with
      | some index => some (index + 1)
      | none => if head = byte then some 0 else none

-- `backward > forward ? backward : forward` on pointers into one buffer, the
-- null pointer being the smallest.
def laterPointer : Option Nat → Option Nat → Option Nat
  | some backward, some forward => if forward < backward then some backward else some forward
  | some backward, none => some backward
  | none, forward => forward

def lastSeparator (path : CString) : Option Nat :=
  laterPointer (strrchr backslash path) (strrchr slash path)

def tempDirectory (base : CString) : Except UvError CString :=
  if maxPath ≤ base.length then .error .ENAMETOOLONG
  else
    match lastSeparator base with
    | none => .ok [dot]
    | some separator => .ok (base.take (if separator = 0 then separator + 1 else separator))

theorem last_separator_cons (head : UInt8) (tail : CString) :
    lastSeparator (head :: tail) =
      match lastSeparator tail with
      | some index => some (index + 1)
      | none => if isSeparator head then some 0 else none := by
  have distinct : backslash ≠ slash := by decide
  simp only [lastSeparator]
  cases back : strrchr backslash tail with
  | some b =>
      cases front : strrchr slash tail with
      | some f =>
          simp only [strrchr, back, front, laterPointer]
          by_cases less : f < b
          · simp [less]
          · simp [less]
      | none =>
          by_cases same : head = slash
          · simp [strrchr, back, front, laterPointer, same]
          · simp [strrchr, back, front, laterPointer, same]
  | none =>
      cases front : strrchr slash tail with
      | some f =>
          by_cases same : head = backslash
          · simp [strrchr, back, front, laterPointer, same]
          · simp [strrchr, back, front, laterPointer, same]
      | none =>
          by_cases atBack : head = backslash
          · simp [strrchr, back, front, laterPointer, atBack, distinct, isSeparator]
          · by_cases atFront : head = slash
            · simp [strrchr, back, front, laterPointer, atFront, Ne.symm distinct, isSeparator]
            · simp [strrchr, back, front, laterPointer, atBack, atFront, isSeparator]

def Unseparated (name : CString) : Prop := ∀ byte ∈ name, isSeparator byte = false

theorem last_separator_none (path : CString) (absent : lastSeparator path = none) : Unseparated path := by
  induction path with
  | nil => intro byte member; cases member
  | cons head tail ih =>
      rw [last_separator_cons] at absent
      cases inner : lastSeparator tail with
      | some index => simp [inner] at absent
      | none =>
          have plain : isSeparator head = false := by simpa [inner] using absent
          intro byte member
          rcases List.mem_cons.mp member with rfl | later
          · exact plain
          · exact ih inner byte later

theorem last_separator_split (path : CString) (index : Nat) (found : lastSeparator path = some index) :
    ∃ directory separator last, path = directory ++ separator :: last ∧ directory.length = index ∧
      isSeparator separator = true ∧ Unseparated last := by
  induction path generalizing index with
  | nil => cases found
  | cons head tail ih =>
      rw [last_separator_cons] at found
      cases inner : lastSeparator tail with
      | some before =>
          obtain ⟨directory, separator, last, split, length, isSep, plain⟩ := ih before inner
          simp only [inner, Option.some.injEq] at found
          exact ⟨head :: directory, separator, last, by simp [split], by simp [length, found], isSep, plain⟩
      | none =>
          by_cases isSep : isSeparator head = true
          · have first : 0 = index := by simpa [inner, isSep] using found
            exact ⟨[], head, tail, rfl, by simpa using first, isSep, last_separator_none tail inner⟩
          · simp [inner, isSep] at found

theorem temp_directory_of_short (path : CString) (short : path.length < maxPath) :
    ∃ directory, tempDirectory path = .ok directory := by
  rw [tempDirectory, if_neg (by omega)]
  cases lastSeparator path with
  | none => exact ⟨_, rfl⟩
  | some separator => exact ⟨_, rfl⟩

theorem temp_directory_split (base directory : CString) (index : Nat) (found : lastSeparator base = some index)
    (chosen : tempDirectory base = .ok directory) :
    ∃ front separator last, base = front ++ separator :: last ∧ front.length = index ∧ isSeparator separator = true ∧
      Unseparated last ∧ directory ≠ [] ∧ (directory = front ∨ directory = front ++ [separator]) := by
  have short : ¬ maxPath ≤ base.length := fun long => by simp [tempDirectory, long] at chosen
  obtain ⟨front, separator, last, split, length, isSep, plain⟩ := last_separator_split base index found
  refine ⟨front, separator, last, split, length, isSep, plain, ?_⟩
  simp only [tempDirectory, if_neg short, found, Except.ok.injEq] at chosen
  by_cases atStart : index = 0
  · have empty : front = [] := by simpa [atStart] using length
    subst front
    have only : directory = [] ++ [separator] := by simpa [split, atStart] using chosen.symm
    exact ⟨by simp [only], .inr only⟩
  · have only : directory = front := by
      rw [← chosen, if_neg atStart, split, ← length, List.take_left]
    exact ⟨fun empty => atStart (by simpa [← only, empty] using length.symm), .inl only⟩

theorem temp_directory_alone (base directory : CString) (found : lastSeparator base = none)
    (chosen : tempDirectory base = .ok directory) : directory = [dot] := by
  have short : ¬ maxPath ≤ base.length := fun long => by simp [tempDirectory, long] at chosen
  simp only [tempDirectory, if_neg short, found, Except.ok.injEq] at chosen
  exact chosen.symm

-- How the system reads a path string: both separators separate, repeated and
-- final ones and "." do not matter, ".." goes up, a leading separator means the
-- root of the current volume, a leading drive its root, and everything else
-- continues the current directory `cwd` (volume first). A bare drive names the
-- current directory on it.
def isDrive (name : CString) : Bool := name.length == 2 && name[1]? == some colon

def stepName (place : List CString) (name : CString) : List CString :=
  if name = [] ∨ name = [dot] then place
  else if name = [dot, dot] then (if place.length ≤ 1 then place else place.dropLast)
  else place ++ [name]

def startOf (cwd : List CString) (first : CString) : List CString :=
  if first = [] then cwd.take 1
  else if isDrive first then [first]
  else stepName cwd first

def folderOf (cwd : List CString) (directory : CString) : List CString :=
  match directory.splitOnP isSeparator with
  | [] => cwd
  | first :: rest => rest.foldl stepName (startOf cwd first)

def entryOf (cwd : List CString) (path : CString) : List CString :=
  match path.splitOnP isSeparator with
  | [] => cwd
  | [only] => if isDrive only then cwd else stepName cwd only
  | first :: rest => rest.foldl stepName (startOf cwd first)

def Ordinary (name : CString) : Prop := name ≠ [] ∧ name ≠ [dot] ∧ name ≠ [dot, dot]

structure PlainName where
  name : CString
  unseparated : Unseparated name
  ordinary : name ≠ [] ∧ name ≠ [dot] ∧ name ≠ [dot, dot]

def joinName (directory name : CString) : CString :=
  if directory.getLast?.any isSeparator then directory ++ name else directory ++ backslash :: name

theorem step_plain (place : List CString) (name : PlainName) : stepName place name.name = place ++ [name.name] := by
  obtain ⟨notEmpty, notDot, notUp⟩ := name.ordinary
  simp [stepName, notEmpty, notDot, notUp]

theorem step_name_cases (place : List CString) (name : CString) :
    stepName place name = place ++ [name] ∨ stepName place name <+: place := by
  rw [stepName]
  split
  · exact .inr (List.prefix_refl place)
  · split
    · split
      · exact .inr (List.prefix_refl place)
      · exact .inr (List.dropLast_prefix place)
    · exact .inl rfl

def walk (start : CString → List CString) (parts : List CString) : List CString :=
  parts.tail.foldl stepName (start (parts.headD []))

theorem walk_append (start : CString → List CString) (parts more : List CString) (some_ : parts ≠ []) :
    walk start (parts ++ more) = more.foldl stepName (walk start parts) := by
  cases parts with
  | nil => exact absurd rfl some_
  | cons first rest => exact List.foldl_append

theorem folder_of_walk (cwd : List CString) (directory : CString) :
    folderOf cwd directory = walk (startOf cwd) (directory.splitOnP isSeparator) := by
  rw [folderOf]
  cases parts : directory.splitOnP isSeparator with
  | nil => exact absurd parts (List.splitOnP_ne_nil isSeparator directory)
  | cons first rest => rfl

theorem walk_trailing (start : CString → List CString) (directory : CString) (separator : UInt8)
    (isSep : isSeparator separator = true) :
    walk start ((directory ++ [separator]).splitOnP isSeparator) = walk start (directory.splitOnP isSeparator) := by
  have split : (directory ++ [separator]).splitOnP isSeparator = directory.splitOnP isSeparator ++ [[]] :=
    List.splitOnP_append_cons directory [] isSep
  rw [split, walk_append start _ _ (List.splitOnP_ne_nil isSeparator directory), List.foldl_cons, List.foldl_nil, stepName,
    if_pos (.inl rfl)]

theorem walk_child (start : CString → List CString) (directory : CString) (separator : UInt8) (last : CString)
    (isSep : isSeparator separator = true) (plain : Unseparated last) :
    (directory ++ separator :: last).splitOnP isSeparator = directory.splitOnP isSeparator ++ [last] ∧
      walk start (directory.splitOnP isSeparator ++ [last]) =
        stepName (walk start (directory.splitOnP isSeparator)) last := by
  refine ⟨?_, walk_append start _ [last] (List.splitOnP_ne_nil isSeparator directory)⟩
  rw [List.splitOnP_append_cons directory last isSep, List.splitOnP_eq_singleton plain]

theorem entry_of_child (cwd : List CString) (directory : CString) (separator : UInt8) (last : CString)
    (isSep : isSeparator separator = true) (plain : Unseparated last) :
    entryOf cwd (directory ++ separator :: last) = stepName (folderOf cwd directory) last := by
  obtain ⟨split, child⟩ := walk_child (startOf cwd) directory separator last isSep plain
  rw [folder_of_walk, ← child, entryOf, split]
  cases parts : directory.splitOnP isSeparator with
  | nil => exact absurd parts (List.splitOnP_ne_nil isSeparator directory)
  | cons first rest =>
      cases rest with
      | nil => rfl
      | cons second others => rfl

theorem folder_of_trailing (cwd : List CString) (directory : CString) (separator : UInt8)
    (isSep : isSeparator separator = true) :
    folderOf cwd (directory ++ [separator]) = folderOf cwd directory := by
  rw [folder_of_walk, folder_of_walk, walk_trailing (startOf cwd) directory separator isSep]

theorem join_name_read (entry folder : CString → List CString)
    (child : ∀ directory separator last, isSeparator separator = true → Unseparated last →
      entry (directory ++ separator :: last) = stepName (folder directory) last)
    (trailing : ∀ directory separator, isSeparator separator = true →
      folder (directory ++ [separator]) = folder directory)
    (directory : CString) (name : PlainName) (nonempty : directory ≠ []) :
    entry (joinName directory name.name) = folder directory ++ [name.name] := by
  rw [joinName]
  rcases List.eq_nil_or_concat directory with rfl | ⟨front, final, rfl⟩
  · exact absurd rfl nonempty
  · by_cases isSep : isSeparator final = true
    · rw [if_pos (by simp [isSep]), List.concat_eq_append, trailing front final isSep, List.append_assoc,
        List.singleton_append, child front final name.name isSep name.unseparated, step_plain]
    · rw [if_neg (by simp [isSep]), child _ backslash name.name (by decide) name.unseparated, step_plain]

theorem temp_beside (cwd : List CString) (base directory : CString) (name : PlainName)
    (chosen : tempDirectory base = .ok directory) :
    ∃ folder, entryOf cwd (joinName directory name.name) = folder ++ [name.name] ∧
      ((∃ last, entryOf cwd base = folder ++ [last]) ∨ entryOf cwd base <+: folder) := by
  have join := join_name_read (entryOf cwd) (folderOf cwd) (entry_of_child cwd) (folder_of_trailing cwd)
  cases found : lastSeparator base with
  | none =>
      obtain rfl := temp_directory_alone base directory found chosen
      refine ⟨cwd, ?_, ?_⟩
      · rw [join [dot] name (by simp)]
        rfl
      · have parts := List.splitOnP_eq_singleton (last_separator_none base found)
        rw [entryOf, parts]
        by_cases drive : isDrive base = true
        · exact .inr (by simp [drive])
        · rcases step_name_cases cwd base with entry | around
          · exact .inl ⟨base, by simpa [drive] using entry⟩
          · exact .inr (by simpa [drive] using around)
  | some index =>
      obtain ⟨front, separator, last, split, length, isSep, plain, nonempty, before⟩ :=
        temp_directory_split base directory index found chosen
      have folder : folderOf cwd directory = folderOf cwd front := by
        rcases before with rfl | rfl
        · rfl
        · exact folder_of_trailing cwd front separator isSep
      refine ⟨folderOf cwd front, ?_, ?_⟩
      · rw [join directory name nonempty, folder]
      · rw [split, entry_of_child cwd front separator last isSep plain]
        rcases step_name_cases (folderOf cwd front) last with entry | around
        · exact .inl ⟨last, entry⟩
        · exact .inr around

end FsExt.Swap
