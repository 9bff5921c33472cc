import FsExt.Swap.TempPath
import FsExt.Sys.FileTree
import FsExt.Sys.Program

set_option autoImplicit false

namespace FsExt.Swap

open Sys (Tree Closed relocate)

inductive SwapOp where
  | getTempFileName (directory : CString) (unique : UInt32)
  | getFileAttributes (path : CString)
  | moveFileEx (existing new : CString)
deriving DecidableEq

abbrev SwapAnswer : SwapOp → Type
  | .getTempFileName _ _ => Except UvError CString
  | .getFileAttributes _ => Bool
  | .moveFileEx _ _ => Status

abbrev SwapProgram (α : Type) := Sys.Program SwapOp SwapAnswer α

def getTempFileName (directory : CString) (unique : UInt32) : SwapProgram (Except UvError CString) :=
  Sys.Program.perform (SwapOp.getTempFileName directory unique)

def getFileAttributes (path : CString) : SwapProgram Bool := Sys.Program.perform (SwapOp.getFileAttributes path)

def tempTries (directory : CString) (unique : UInt32) : List Nat → SwapProgram (Except UvError CString)
  | [] => return .error .EEXIST
  | i :: rest => do
      match ← getTempFileName directory (unique + UInt32.ofNat i) with
      | .error err => return .error err
      | .ok path =>
          if ← getFileAttributes path then tempTries directory unique rest
          else return .ok path

def tempPath (processId : UInt32) (base : CString) : SwapProgram (Except UvError CString) :=
  match tempDirectory base with
  | .error err => return .error err
  | .ok directory => tempTries directory processId (List.range 64)

def move (fromPath toPath : CString) : SwapProgram Status := Sys.Program.perform (SwapOp.moveFileEx fromPath toPath)

def swapLand (fromPath toPath temporary : CString) : SwapProgram Status := do
  match ← move temporary toPath with
  | .error err => do
      let _ ← move fromPath toPath
      let _ ← move temporary fromPath
      return .error err
  | .ok () => return .ok ()

def swapCross (fromPath toPath temporary : CString) : SwapProgram Status := do
  match ← move toPath fromPath with
  | .error err => do
      let _ ← move temporary fromPath
      return .error err
  | .ok () => swapLand fromPath toPath temporary

def swapVia (fromPath toPath temporary : CString) : SwapProgram Status := do
  match ← move fromPath temporary with
  | .error err => return .error err
  | .ok () => swapCross fromPath toPath temporary

def swap (processId : UInt32) (fromPath toPath : CString) : SwapProgram Status := do
  match ← tempPath processId fromPath with
  | .error err => return .error err
  | .ok temporary => swapVia fromPath toPath temporary

structure Object where
  id : Nat
  directory : Bool
deriving DecidableEq, Repr

abbrev Fs := Tree CString Object

-- `MoveFileEx` with MOVEFILE_REPLACE_EXISTING: the whole entry moves, an
-- existing file at the destination is replaced, a directory there is not.
def moveEntry (src dst : List CString) (fs : Fs) : Except UvError Fs :=
  if fs src = none then .error .ENOENT
  else if src = dst then .ok fs
  else if src <+: dst then .error .EBUSY
  else if (fs dst.dropLast).any Object.directory = false then .error .ENOENT
  else if (fs dst).any Object.directory = true then .error .EPERM
  else .ok (relocate src dst fs)

-- What the process and the system fix: the current directory, the process id
-- and the names `GetTempFileName` makes of a nonzero number.
structure Windows where
  cwd : List CString
  processId : UInt32
  tempName : UInt32 → PlainName

namespace Windows

def place (os : Windows) (path : CString) : List CString := entryOf os.cwd path

def tempFile (os : Windows) (directory : CString) (unique : UInt32) : CString :=
  joinName directory (os.tempName unique).name

def candidate (os : Windows) (directory : CString) (i : Nat) : CString :=
  os.tempFile directory (os.processId + UInt32.ofNat i)

-- Every call atomic, none failing but for the contents of the directories.
def handler (os : Windows) : Sys.Program.Handler SwapOp SwapAnswer Fs
  | .getTempFileName directory unique, fs => (.ok (os.tempFile directory unique), fs)
  | .getFileAttributes path, fs => ((fs (os.place path)).isSome, fs)
  | .moveFileEx existing new, fs =>
      match moveEntry (os.place existing) (os.place new) fs with
      | .ok fs' => (.ok (), fs')
      | .error err => (.error err, fs)

-- The same, but the `n`-th move issued fails without effect where `faults`
-- says so. The world counts the moves.
def faultyHandler (os : Windows) (faults : Nat → Option UvError) :
    Sys.Program.Handler SwapOp SwapAnswer (Fs × Nat)
  | .getTempFileName directory unique, world =>
      ((os.handler (.getTempFileName directory unique) world.1).1, world)
  | .getFileAttributes path, world => ((os.handler (.getFileAttributes path) world.1).1, world)
  | .moveFileEx existing new, world =>
      match faults world.2 with
      | some err => (.error err, (world.1, world.2 + 1))
      | none =>
          let moved := os.handler (.moveFileEx existing new) world.1
          (moved.1, (moved.2, world.2 + 1))

end Windows

-- The documented form of the name: the prefix, the low sixteen bits of the
-- number in hexadecimal, the extension.
def hexDigit (digit : Fin 16) : UInt8 :=
  if digit.val < 10 then 0x30 + UInt8.ofNat digit.val else 0x37 + UInt8.ofNat digit.val

theorem hex_digit_plain (digit : Fin 16) : isSeparator (hexDigit digit) = false := by
  revert digit
  decide

def uniqueName (unique : UInt32) : CString :=
  let digit (shift : Nat) := hexDigit (Fin.ofNat 16 (unique.toNat / 16 ^ shift))
  [0x66, 0x73, 0x65, digit 3, digit 2, digit 1, digit 0, dot, 0x54, 0x4D, 0x50]

def documentedName (unique : UInt32) : PlainName where
  name := uniqueName unique
  unseparated byte member := by
    simp only [uniqueName, List.mem_cons, List.not_mem_nil, or_false] at member
    rcases member with rfl | rfl | rfl | rfl | rfl | rfl | rfl | rfl | rfl | rfl | rfl
    case inr.inr.inr.inl | inr.inr.inr.inr.inl | inr.inr.inr.inr.inr.inl | inr.inr.inr.inr.inr.inr.inl =>
      exact hex_digit_plain _
    all_goals decide
  ordinary := by simp [uniqueName]

def listed (entries : List (List CString × Object)) : Fs := fun place => entries.lookup place

theorem listed_closed (entries : List (List CString × Object))
    (grounded : ∀ entry ∈ entries, ∀ place ∈ entry.1.inits, place ≠ entry.1 →
      (listed entries place).any Object.directory = true) :
    Closed Object.directory (listed entries) := by
  intro place rest nonempty present
  obtain ⟨obj, found⟩ := Option.ne_none_iff_exists'.mp present
  obtain ⟨before, after, split, _⟩ := List.lookup_eq_some_iff.mp found
  have member : (place ++ rest, obj) ∈ entries := by simp [split]
  have above := grounded _ member place (List.mem_inits _ _ |>.mpr (List.prefix_append place rest))
    (by simpa using nonempty)
  simpa [Option.any_eq_true] using above

def drive : CString := [0x43, colon]

def sampleWindows : Windows where
  cwd := [drive]
  processId := 4
  tempName := documentedName

def sampleFs : Fs :=
  listed [([], ⟨0, true⟩), ([drive], ⟨1, true⟩), ([drive, [0x61]], ⟨2, false⟩), ([drive, [0x62]], ⟨3, false⟩),
    ([drive, [0x63]], ⟨4, false⟩), ([drive, [0x64]], ⟨5, false⟩)]

theorem sample_closed : Closed Object.directory sampleFs := listed_closed _ (by decide)

end FsExt.Swap
