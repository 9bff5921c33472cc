import FsExt.Uv
import FsExt.Sys.Memory
import FsExt.Sys.Program

set_option autoImplicit false

namespace FsExt.Attr

open Sys

inductive Platform where
  | linux
  | apple
deriving DecidableEq

inductive XattrOp where
  | fgetxattr (name : CString) (null : Bool) (size : Nat)
  | flistxattr (null : Bool) (size : Nat)
  | fsetxattr (name : CString) (content : Block)

structure XattrResult where
  res : Int
  errno : Option UvError
  written : List UInt8

abbrev XattrAnswer (_ : XattrOp) : Type := XattrResult

abbrev XattrProgram (α : Type) := Program XattrOp XattrAnswer α

def fgetxattr (name : CString) (null : Bool) (size : Nat) : XattrProgram XattrResult :=
  Program.perform (XattrOp.fgetxattr name null size)

def flistxattr (null : Bool) (size : Nat) : XattrProgram XattrResult :=
  Program.perform (XattrOp.flistxattr null size)

def fsetxattr (name : CString) (content : Block) : XattrProgram XattrResult :=
  Program.perform (XattrOp.fsetxattr name content)

structure AttrName where
  name : CString
  plain : 0 ∉ name

def sampleName : AttrName := ⟨[0x61], by decide⟩

structure Trouble where
  err : UvError
  unrelated : err ≠ .ENODATA ∧ err ≠ .ENOATTR

structure AttrFile where
  attrs : List (AttrName × List UInt8)
  distinct : (attrs.map fun attr => attr.1.name).Nodup
  trouble : Option Trouble

def AttrFile.lookup (file : AttrFile) (name : CString) : Option (List UInt8) :=
  (file.attrs.find? fun attr => attr.1.name = name).map Prod.snd

def AttrFile.names (file : AttrFile) : List CString := file.attrs.map fun attr => attr.1.name

-- How a value or a list of names gets into a buffer. Linux takes a size of zero
-- for the question how much there is, macOS a null pointer.
def transfer (platform : Platform) (null : Bool) (size : Nat) (content : List UInt8) :
    Except UvError (Nat × List UInt8) :=
  if (platform = .linux ∧ size = 0) ∨ (platform = .apple ∧ null = true) then .ok (content.length, [])
  else if size < content.length then .error .ERANGE
  else if null = true ∧ content ≠ [] then .error .EFAULT
  else .ok (content.length, content)

def missing : Platform → UvError
  | .linux => .ENODATA
  | .apple => .ENOATTR

def terminated (names : List CString) : List UInt8 := names.flatMap fun name => name ++ [0]

def AttrFile.reply (platform : Platform) (file : AttrFile) (op : XattrOp) : Except UvError (Nat × List UInt8) :=
  match file.trouble with
  | some trouble => .error trouble.err
  | none =>
      match op with
      | .fgetxattr name null size =>
          match file.lookup name with
          | none => .error (missing platform)
          | some value => transfer platform null size value
      | .flistxattr null size => transfer platform null size (terminated file.names)
      | .fsetxattr _ _ => .ok (0, [])

def XattrResult.Reports (result : XattrResult) : Except UvError (Nat × List UInt8) → Prop
  | .error err => result.res = -1 ∧ result.errno = some err ∧ result.written = []
  | .ok (size, written) => result.res = size ∧ result.written = written

def AttrFile.Stores (file file' : AttrFile) (name : CString) (content : List UInt8) : Prop :=
  file'.lookup name = some content ∧ ∀ other, other ≠ name → file'.lookup other = file.lookup other

-- A value may be refused for any reason, its size included.
def xattrCalls (platform : Platform) : Program.Semantics XattrOp XattrAnswer AttrFile := fun op file result file' =>
  match op with
  | .fsetxattr name content =>
      (file' = file ∧ ∃ err, result.Reports (.error err)) ∨
        (file.trouble = none ∧ result.Reports (.ok (0, [])) ∧
          ∃ written, content = bytes written ∧ file.Stores file' name written)
  | op => result.Reports (file.reply platform op) ∧ file' = file

def Others (file file' : AttrFile) : Prop :=
  ∃ name, ∀ other, other ≠ name → file'.lookup other = file.lookup other

def narrow (value : Int) : Int := value.bmod (2 ^ 32)

-- `uv_translate_sys_error`, on zero as well.
def translate : Option UvError → Status
  | none => .ok ()
  | some err => .error err

structure UvBuf where
  base : Option Block
  len : Nat

-- A negative size becomes one beyond PTRDIFF_MAX, for which there is no memory.
def malloc (size : Int) : Option Block := if size < 0 then none else some (blank size.toNat)

-- The length parameter is an `unsigned int`.
def uvBufInit (base : Option Block) (len : Int) : UvBuf where
  base := base
  len := (len % 2 ^ 32).toNat

def UvBuf.fill (buf : UvBuf) (written : List UInt8) : UvBuf :=
  { buf with base := buf.base.map fun block => overwrite block 0 (bytes written) }

-- A null base stands for memory nobody has written; the model of the heap ends at
-- a copy from it.
def UvBuf.contents (buf : UvBuf) : Block :=
  match buf.base with
  | none => blank buf.len
  | some block => block.take buf.len

theorem narrow_small (size : Nat) (small : size < 2 ^ 31) : narrow size = size := by
  rw [narrow, Int.bmod_eq_of_le]
  · omega
  · omega

theorem narrow_bounds (value : Int) : -2 ^ 31 ≤ narrow value ∧ narrow value < 2 ^ 31 := by
  rw [narrow]
  have low := Int.le_bmod (x := value) (m := 2 ^ 32) (by decide)
  have high := Int.bmod_lt (x := value) (m := 2 ^ 32) (by decide)
  omega

theorem narrow_minus_one : narrow (-1) = -1 := by decide

theorem fill_contents (size : Int) (written : List UInt8) (positive : 0 ≤ size) (small : size < 2 ^ 32)
    (fits : written.length ≤ size.toNat) :
    ((uvBufInit (malloc size) size).fill written).contents =
      bytes written ++ blank (size.toNat - written.length) := by
  have len : (size % 2 ^ 32).toNat = size.toNat := by
    rw [Int.emod_eq_of_lt positive small]
  have memory : malloc size = some (blank size.toNat) := if_neg (by omega)
  simp only [uvBufInit, UvBuf.fill, UvBuf.contents, memory, Option.map_some, len, overwrite_blank]
  apply List.take_of_length_le
  simp only [List.length_append, bytes_length, blank, List.length_replicate]
  omega

theorem negative_contents (size : Int) (written : List UInt8) (negative : size < 0) :
    ((uvBufInit (malloc size) size).fill written).contents = blank (size % 2 ^ 32).toNat := by
  have memory : malloc size = none := if_pos negative
  simp only [uvBufInit, UvBuf.fill, UvBuf.contents, memory, Option.map_none]

theorem transfer_small (platform : Platform) (size : Int) (len : Nat) (content : List UInt8) (positive : 0 ≤ size)
    (kept : len = size) :
    transfer platform (malloc size).isNone len content =
      if platform = .linux ∧ size = 0 then .ok (content.length, [])
      else if size < content.length then .error .ERANGE
      else .ok (content.length, content) := by
  have memory : malloc size = some (blank size.toNat) := if_neg (by omega)
  have zero : len = 0 ↔ size = 0 := by omega
  have less : len < content.length ↔ size < content.length := by omega
  simp only [transfer, memory, Option.isNone_some, zero, less, Bool.false_eq_true, and_false, or_false, false_and,
    if_false]

theorem transfer_negative (platform : Platform) (size : Int) (len : Nat) (content : List UInt8) (negative : size < 0)
    (some_ : len ≠ 0) :
    transfer platform (malloc size).isNone len content =
      if platform = .apple then .ok (content.length, [])
      else if len < content.length then .error .ERANGE
      else if content ≠ [] then .error .EFAULT
      else .ok (content.length, content) := by
  have memory : malloc size = none := if_pos negative
  simp only [transfer, memory, Option.isNone_none, some_, and_false, false_or, and_true, true_and]

end FsExt.Attr
