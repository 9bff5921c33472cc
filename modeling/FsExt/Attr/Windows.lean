import FsExt.Attr.Xattr
import FsExt.Sys.Text
import Mathlib.Logic.Function.Basic

set_option autoImplicit false

namespace FsExt.Attr.Windows

open Sys

inductive Stream where
  | unnamed
  | named (name : List UInt16)
deriving DecidableEq

def colon : UInt16 := 0x3A

-- What the file system makes of a path relative to the handle of a file. `spells`
-- says which words it reads as the type $DATA.
structure StreamNaming where
  opens : List UInt16 → Option Stream
  spells : List UInt16 → Bool
  data : spells (utf16 "$DATA".toList) = true
  lettered : ∀ name, name ≠ [] → name.length ≤ 255 → (∀ unit ∈ name, 0x61 ≤ unit ∧ unit ≤ 0x7A) →
    ∃ word, opens (colon :: name) = some (.named word)
  main : ∀ type, spells type = true → opens (colon :: colon :: type) = some .unnamed
  only : ∀ path, opens path = some .unnamed → ∃ type, spells type = true ∧ path = colon :: colon :: type

inductive NtError where
  | objectNameNotFound
  | other
deriving DecidableEq

inductive Access where
  | read
  | delete

-- `createFile` is NtCreateFile with FILE_OVERWRITE_IF. A handle stands for the
-- stream it was opened on.
inductive NtOp where
  | openFile (path : List UInt16) (access : Access)
  | createFile (path : List UInt16)
  | queryEndOfFile (handle : Stream)
  | readFile (handle : Stream) (length : Nat)
  | writeFile (handle : Stream) (content : Block)
  | deleteFile (path : List UInt16)
  | close (handle : Stream)

-- Reads return the bytes, writes their number: `status.Information`.
abbrev NtAnswer : NtOp → Type
  | .openFile _ _ | .createFile _ => Except NtError Stream
  | .queryEndOfFile _ => Except NtError Nat
  | .readFile _ _ => Except NtError (List UInt8)
  | .writeFile _ _ => Except NtError Nat
  | .deleteFile _ => Except NtError Unit
  | .close _ => Unit

abbrev NtProgram (α : Type) := Program NtOp NtAnswer α

def maxPath : Nat := 260

def multiByteToWideChar (octets : List UInt8) : Option (List UInt16) := (decodeUtf8 octets).map utf16

-- The terminator is converted too and counts against the buffer, which has one
-- place less for the colon in front.
def streamName (name : CString) : Except UvError (List UInt16) :=
  match multiByteToWideChar name with
  | none => .error .EINVAL
  | some wide => if wide.length + 1 ≤ maxPath - 1 then .ok (colon :: wide) else .error .ENAMETOOLONG

def missingOr : NtError → UvError
  | .objectNameNotFound => .ENODATA
  | .other => UvError.EIO

def getAttr (name : CString) (value : UvBuf) : NtProgram (Status × UvBuf) :=
  match streamName name with
  | .error err => return (.error err, value)
  | .ok path =>
      .call (.openFile path .read) fun
        | .error err => return (.error (missingOr err), value)
        | .ok handle =>
            .call (.queryEndOfFile handle) fun
              | .error _ => .call (.close handle) fun _ => return (.error UvError.EIO, value)
              | .ok length =>
                  let value := uvBufInit (malloc length) length
                  .call (.readFile handle value.len) fun read =>
                    .call (.close handle) fun _ =>
                      match read with
                      | .error _ => return (.error UvError.EIO, value)
                      | .ok content =>
                          return (if content.length ≠ length then .error UvError.EIO else .ok (), value.fill content)

def setAttr (name : CString) (value : UvBuf) : NtProgram Status :=
  match streamName name with
  | .error err => return .error err
  | .ok path =>
      .call (.createFile path) fun
        | .error _ => return .error UvError.EIO
        | .ok handle =>
            .call (.writeFile handle value.contents) fun written =>
              .call (.close handle) fun _ =>
                match written with
                | .error _ => return .error UvError.EIO
                | .ok count => return if count ≠ value.len then .error UvError.EIO else .ok ()

def removeAttr (name : CString) : NtProgram Status :=
  match streamName name with
  | .error err => return .error err
  | .ok path =>
      .call (.openFile path .delete) fun
        | .error err => return .error (missingOr err)
        | .ok handle =>
            .call (.deleteFile path) fun deleted =>
              .call (.close handle) fun _ =>
                match deleted with
                | .error _ => return .error UvError.EIO
                | .ok () => return .ok ()

theorem read_whole (content : List UInt8)
    (whole : (content.take (uvBufInit (malloc content.length) content.length).len).length = content.length) :
    ((uvBufInit (malloc content.length) content.length).fill
      (content.take (uvBufInit (malloc content.length) content.length).len)).contents = bytes content := by
  have small : (content.length : Int) < 2 ^ 32 := by
    have len : (uvBufInit (malloc content.length) content.length).len < 2 ^ 32 := by
      simp only [uvBufInit]
      omega
    rw [List.length_take] at whole
    omega
  have read : content.take (uvBufInit (malloc content.length) content.length).len = content := by
    apply List.take_of_length_le
    rw [List.length_take] at whole
    omega
  rw [read, fill_contents content.length content (Int.natCast_nonneg _) small (by simp)]
  simp [blank]

-- A file and its streams. Deleting the unnamed stream deletes the file.
structure NtFile where
  present : Bool
  main : List UInt8
  streams : List UInt16 → Option (List UInt8)

namespace NtFile

def content (file : NtFile) : Stream → Option (List UInt8)
  | .unnamed => if file.present then some file.main else none
  | .named name => file.streams name

def put (file : NtFile) (stream : Stream) (content : List UInt8) : NtFile :=
  match stream with
  | .unnamed => { file with main := content }
  | .named name => { file with streams := Function.update file.streams name (some content) }

def remove (file : NtFile) : Stream → NtFile
  | .unnamed => { file with present := false }
  | .named name => { file with streams := Function.update file.streams name none }

theorem put_content (file : NtFile) (stream : Stream) (content : List UInt8) (there : file.content stream ≠ none) :
    (file.put stream content).content stream = some content := by
  cases stream with
  | named name => exact Function.update_self ..
  | unnamed =>
      have present : file.present = true := by
        by_contra gone
        exact there (if_neg gone)
      exact if_pos present

theorem put_empty (file : NtFile) (stream : Stream) (old : List UInt8)
    (held : (file.put stream []).content stream = some old) : old = [] := by
  by_cases there : file.content stream = none
  · cases stream with
    | named name =>
        have put : (file.put (.named name) []).content (.named name) = some [] := Function.update_self ..
        exact (Option.some.inj (put.symm.trans held)).symm
    | unnamed =>
        have gone : file.present = false := by simpa [content] using there
        simp [content, put, gone] at held
  · exact (Option.some.inj ((put_content file stream [] there).symm.trans held)).symm

end NtFile

-- Every call may fail. A write that fails may have written anything.
def ntCalls (naming : StreamNaming) : Program.Semantics NtOp NtAnswer NtFile := fun op file answer file' =>
  match op, answer with
  | .openFile path _, .ok handle => naming.opens path = some handle ∧ file.content handle ≠ none ∧ file' = file
  | .openFile path _, .error err =>
      (err = .objectNameNotFound → ∃ stream, naming.opens path = some stream ∧ file.content stream = none) ∧
        file' = file
  | .createFile path, .ok handle => naming.opens path = some handle ∧ file' = file.put handle []
  | .createFile _, .error _ => file' = file
  | .queryEndOfFile handle, .ok length => ∃ content, file.content handle = some content ∧ length = content.length ∧
      file' = file
  | .queryEndOfFile _, .error _ => file' = file
  | .readFile handle length, .ok read => ∃ content, file.content handle = some content ∧ read = content.take length ∧
      file' = file
  | .readFile _ _, .error _ => file' = file
  | .writeFile handle content, .ok count => ∃ old written, file.content handle = some old ∧ content = bytes written ∧
      count = written.length ∧ file' = file.put handle (written ++ old.drop written.length)
  | .writeFile handle _, .error _ => ∃ content, file' = file.put handle content
  | .deleteFile path, .ok () => ∃ stream, naming.opens path = some stream ∧ file.content stream ≠ none ∧
      file' = file.remove stream
  | .deleteFile _, .error _ => file' = file
  | .close _, () => file' = file

def Fails (naming : StreamNaming) : (op : NtOp) → NtAnswer op → Prop
  | .openFile path _, .error .other => naming.opens path ≠ none
  | .createFile path, .error _ => naming.opens path ≠ none
  | .queryEndOfFile _, .error _ => True
  | .readFile _ _, .error _ => True
  | .writeFile _ _, .error _ => True
  | .deleteFile _, .error _ => True
  | _, _ => False

def storeCalls (naming : StreamNaming) (fails : Prop) : Program.Semantics NtOp NtAnswer NtFile :=
  fun op file answer file' => ntCalls naming op file answer file' ∧ (Fails naming op answer → fails)

end FsExt.Attr.Windows
