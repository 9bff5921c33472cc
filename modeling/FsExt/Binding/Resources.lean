import FsExt.Attr.Buffers
import FsExt.Attr.StreamList
import FsExt.Swap.Histories

set_option autoImplicit false

namespace FsExt.Binding.Resources

open Sys
open FsExt.Attr.Buffers (BufferOp BufferAnswer BufferProgram Buf Names)
open FsExt.Attr.Windows (NtError ListOp ListError)
open FsExt.Swap (SwapOp SwapAnswer ExchangeOp ExchangeAnswer)

inductive Backend where
  | posix (platform : Attr.Platform)
  | windows

inductive Resource where
  | block (id : Nat)
  | handle (id : Nat)
deriving DecidableEq

-- What the functions do to the heap, and the system calls that open, use and close
-- the handles of streams or read the paths of a swap. Null pointers are no blocks.
inductive ResourceOp where
  | buffer (op : BufferOp)
  | openStream
  | stream (handle : Nat) (buffer : Option Nat)
  | deleteFile
  | close (handle : Nat)
  | queryStreams (op : ListOp) (info : Option Nat)
  | swap (op : SwapOp) (paths : List (Option Nat))
  | exchange (op : ExchangeOp) (paths : List (Option Nat))
  | lost

-- `stream` answers with the length of the stream, or how much was read or written.
abbrev ResourceAnswer : ResourceOp → Type
  | .buffer op => BufferAnswer op
  | .openStream => Except NtError Nat
  | .stream _ _ => Except NtError Nat
  | .deleteFile => Except NtError Unit
  | .close _ => Unit
  | .queryStreams _ _ => Except ListError (List UInt8)
  | .swap op _ => SwapAnswer op
  | .exchange op _ => ExchangeAnswer op
  | .lost => Empty

abbrev ResourceProgram (α : Type) := Program ResourceOp ResourceAnswer α

def buffers {α : Type} (program : BufferProgram α) : ResourceProgram α :=
  program.through ResourceOp.buffer fun _ answer => answer

def openStream : ResourceProgram (Except NtError Nat) := Program.perform ResourceOp.openStream

def stream (handle : Nat) (buffer : Option Nat) : ResourceProgram (Except NtError Nat) :=
  Program.perform (ResourceOp.stream handle buffer)

def deleteFile : ResourceProgram (Except NtError Unit) := Program.perform ResourceOp.deleteFile

def close (handle : Nat) : ResourceProgram Unit := Program.perform (ResourceOp.close handle)

def queryStreams (length : Nat) (info : Option Nat) : ResourceProgram (Except ListError (List UInt8)) :=
  Program.perform (ResourceOp.queryStreams (ListOp.queryStreamInformation length) info)

-- A scan has left its block. What the thread does from there on is not followed.
def lost {α : Type} : ResourceProgram α := .call .lost fun answer => answer.elim

namespace Windows

def getAttr (name : CString) (path : Option Nat) (value : Buf) : ResourceProgram (Status × Buf) := do
  buffers (Attr.Buffers.use path)
  match Attr.Windows.streamName name with
  | .error err => return (.error err, value)
  | .ok _ =>
      match ← openStream with
      | .error err => return (.error (Attr.Windows.missingOr err), value)
      | .ok handle =>
          match ← stream handle none with
          | .error _ => do
              close handle
              return (.error UvError.EIO, value)
          | .ok length => do
              let base ← buffers (Attr.Buffers.malloc length)
              let value : Buf := ⟨base, length % 2 ^ 32⟩
              let read ← stream handle base
              close handle
              match read with
              | .error _ => return (.error UvError.EIO, value)
              | .ok count => return (if count ≠ length then .error UvError.EIO else .ok (), value)

def setAttr (name : CString) (len : Nat) (path : Option Nat) : ResourceProgram Status := do
  buffers (Attr.Buffers.use path)
  match Attr.Windows.streamName name with
  | .error err => return .error err
  | .ok _ =>
      match ← openStream with
      | .error _ => return .error UvError.EIO
      | .ok handle => do
          let written ← stream handle none
          close handle
          match written with
          | .error _ => return .error UvError.EIO
          | .ok count => return if count ≠ len then .error UvError.EIO else .ok ()

def removeAttr (name : CString) (path : Option Nat) : ResourceProgram Status := do
  buffers (Attr.Buffers.use path)
  match Attr.Windows.streamName name with
  | .error err => return .error err
  | .ok _ =>
      match ← openStream with
      | .error err => return .error (Attr.Windows.missingOr err)
      | .ok handle => do
          let deleted ← deleteFile
          close handle
          match deleted with
          | .error _ => return .error UvError.EIO
          | .ok () => return .ok ()

def tabulate (info : Option Nat) (content : List UInt8) : ResourceProgram (Status × Names) := do
  buffers (Attr.Buffers.use info)
  match Attr.Windows.listStreams content with
  | none => lost
  | some listing => do
      let base ← buffers (Attr.Buffers.malloc (listing.table.names.getD []).length)
      buffers (Attr.Buffers.use info)
      buffers (Attr.Buffers.use base)
      buffers (Attr.Buffers.free info)
      return (.ok (), ⟨base, listing.table⟩)

def queryInfo (names : Names) : (doublings infoSize : Nat) → (info : Option Nat) → ResourceProgram (Status × Names)
  | 0, _, _ => lost
  | doublings + 1, infoSize, info => do
      match ← queryStreams (infoSize % 2 ^ 32) info with
      | .error .bufferOverflow => do
          let grown ← buffers (Attr.Buffers.realloc info (infoSize * 2))
          buffers (Attr.Buffers.use grown)
          queryInfo names doublings (infoSize * 2) grown
      | .error .other => do
          buffers (Attr.Buffers.free info)
          return (.error UvError.EIO, names)
      | .ok content => tabulate info (store (List.replicate infoSize 0) 0 content)

def listAttrs (names : Names) : ResourceProgram (Status × Names) := do
  let info ← buffers (Attr.Buffers.malloc 64)
  buffers (Attr.Buffers.use info)
  queryInfo names 58 64 info

end Windows

namespace Posix

def setAttr (path : Option Nat) : BufferProgram Status := do
  let result ← Attr.Buffers.xattr [path]
  return if Attr.narrow result.res = -1 then Attr.translate result.errno else .ok ()

def removeAttr (platform : Attr.Platform) (path : Option Nat) : BufferProgram Status := do
  let result ← Attr.Buffers.xattr [path]
  return if Attr.narrow result.res = -1 then Attr.sizeError platform result.errno else .ok ()

end Posix

def unlessLost {α : Type} (program : BufferProgram (Option α)) : ResourceProgram α := do
  match ← buffers program with
  | none => lost
  | some value => return value

def getAttr (backend : Backend) (name : CString) (path : Option Nat) (value : Buf) : ResourceProgram (Status × Buf) :=
  match backend with
  | .posix platform => buffers (Attr.Buffers.getAttr platform path value)
  | .windows => Windows.getAttr name path value

def setAttr (backend : Backend) (name : CString) (len : Nat) (path : Option Nat) : ResourceProgram Status :=
  match backend with
  | .posix _ => buffers (Posix.setAttr path)
  | .windows => Windows.setAttr name len path

def removeAttr (backend : Backend) (name : CString) (path : Option Nat) : ResourceProgram Status :=
  match backend with
  | .posix platform => buffers (Posix.removeAttr platform path)
  | .windows => Windows.removeAttr name path

def listAttrs (backend : Backend) (junk : Nat → UInt8) (names : Names) : ResourceProgram (Status × Names) :=
  match backend with
  | .posix _ => unlessLost (Attr.Buffers.listAttrs junk names)
  | .windows => Windows.listAttrs names

def swap (backend : Backend) (processId : UInt32) (source target : CString) (paths : List (Option Nat)) :
    ResourceProgram Status :=
  match backend with
  | .posix _ => (Swap.Posix.swap source target).through (fun op => .exchange op paths) fun _ answer => answer
  | .windows => (Swap.swap processId source target).through (fun op => .swap op paths) fun _ answer => answer

inductive Work where
  | getAttr (name : CString) (copy : Option Nat)
  | setAttr (name : CString) (len : Nat) (copy : Option Nat)
  | removeAttr (name : CString) (copy : Option Nat)
  | listAttrs
  | swap (source target : CString) (sourceCopy targetCopy : Option Nat)

-- How a function of the binding returns, or the completion of its request: the
-- call has ended and has left a buffer allocated, or there is work in the queue
-- while the function still has buffers to free.
inductive Job where
  | ended (leaked : Option Nat)
  | queued (names : List (Option Nat)) (work : Work)

structure Setting where
  backend : Backend
  processId : UInt32
  junk : Nat → UInt8

def Work.program (setting : Setting) : Work → ResourceProgram Job
  | .getAttr name copy => do
      let (result, value) ← Resources.getAttr setting.backend name copy ⟨none, 0⟩
      let _ ← unlessLost (Attr.Buffers.getAttrAfterWork copy result value)
      return .ended none
  | .setAttr name len copy => do
      let _ ← Resources.setAttr setting.backend name len copy
      buffers (Attr.Buffers.free copy)
      return .ended none
  | .removeAttr name copy => do
      let _ ← Resources.removeAttr setting.backend name copy
      buffers (Attr.Buffers.free copy)
      return .ended none
  | .listAttrs => do
      let (result, names) ← Resources.listAttrs setting.backend setting.junk ⟨none, ⟨none, 0⟩⟩
      let _ ← unlessLost (Attr.Buffers.listAttrsAfterWork result names)
      return .ended none
  | .swap source target sourceCopy targetCopy => do
      let _ ← Resources.swap setting.backend setting.processId source target [sourceCopy, targetCopy]
      buffers (Attr.Buffers.free sourceCopy)
      buffers (Attr.Buffers.free targetCopy)
      return .ended none

def freeing : List (Option Nat) → ResourceProgram Job
  | [] => return .ended none
  | name :: rest => do
      buffers (Attr.Buffers.free name)
      freeing rest

def children (setting : Setting) : Job → List (ResourceProgram Job)
  | .ended _ => []
  | .queued names work => [freeing names, work.program setting]

def filled (name : CString) : ResourceProgram (Option Nat) := do
  let buffer ← buffers (Attr.Buffers.malloc (name.length + 1 : Nat))
  buffers (Attr.Buffers.use buffer)
  return buffer

def submitName (name : CString) (work : Option Nat → Work) : ResourceProgram Job := do
  let buffer ← filled name
  let copy ← buffers (Attr.Buffers.strdup buffer (name.length + 1))
  match ← buffers Attr.Buffers.queue with
  | .error _ => do
      buffers (Attr.Buffers.free copy)
      buffers (Attr.Buffers.free buffer)
      return .ended none
  | .ok () => return .queued [buffer] (work copy)

-- The paths of `fs_ext_js_swap` are on its stack.
def submitSwap (source target : CString) : ResourceProgram Job := do
  let sourceCopy ← buffers (Attr.Buffers.strdup none (source.length + 1))
  let targetCopy ← buffers (Attr.Buffers.strdup none (target.length + 1))
  match ← buffers Attr.Buffers.queue with
  | .error _ => do
      buffers (Attr.Buffers.free sourceCopy)
      buffers (Attr.Buffers.free targetCopy)
      return .ended none
  | .ok () => return .queued [] (.swap source target sourceCopy targetCopy)

def submitList : ResourceProgram Job := do
  match ← buffers Attr.Buffers.queue with
  | .error _ => return .ended none
  | .ok () => return .queued [] .listAttrs

def leakedValue (result : Status) (value : Buf) : Option Nat := if result = .error .ENODATA then value.base else none

def leakedNames (result : Status) (names : Names) : Option Nat := if result = .ok () then none else names.base

def getAttrSync (setting : Setting) (name : CString) : ResourceProgram Job := do
  let buffer ← filled name
  let (result, value) ← getAttr setting.backend name buffer ⟨none, 0⟩
  buffers (Attr.Buffers.free buffer)
  let _ ← unlessLost (Attr.Buffers.returnAttr result value)
  return .ended (leakedValue result value)

def listAttrsSync (setting : Setting) : ResourceProgram Job := do
  let (result, names) ← listAttrs setting.backend setting.junk ⟨none, ⟨none, 0⟩⟩
  let _ ← unlessLost (Attr.Buffers.returnAttrs result names)
  return .ended (leakedNames result names)

def setAttrSync (setting : Setting) (name : CString) (len : Nat) : ResourceProgram Job := do
  let buffer ← filled name
  let _ ← setAttr setting.backend name len buffer
  buffers (Attr.Buffers.free buffer)
  return .ended none

def removeAttrSync (setting : Setting) (name : CString) : ResourceProgram Job := do
  let buffer ← filled name
  let _ ← removeAttr setting.backend name buffer
  buffers (Attr.Buffers.free buffer)
  return .ended none

def swapSync (setting : Setting) (source target : CString) : ResourceProgram Job := do
  let _ ← swap setting.backend setting.processId source target [none, none]
  return .ended none

inductive Call where
  | getAttr (name : CString)
  | getAttrSync (name : CString)
  | setAttr (name : CString) (len : Nat)
  | setAttrSync (name : CString) (len : Nat)
  | removeAttr (name : CString)
  | removeAttrSync (name : CString)
  | listAttrs
  | listAttrsSync
  | swap (source target : CString)
  | swapSync (source target : CString)

def Call.program (setting : Setting) : Call → ResourceProgram Job
  | .getAttr name => submitName name (.getAttr name)
  | .getAttrSync name => Resources.getAttrSync setting name
  | .setAttr name len => submitName name (.setAttr name len)
  | .setAttrSync name len => Resources.setAttrSync setting name len
  | .removeAttr name => submitName name (.removeAttr name)
  | .removeAttrSync name => Resources.removeAttrSync setting name
  | .listAttrs => submitList
  | .listAttrsSync => Resources.listAttrsSync setting
  | .swap source target => submitSwap source target
  | .swapSync source target => Resources.swapSync setting source target

end FsExt.Binding.Resources
