import FsExt.Attr.FailedSet
import FsExt.Sys.Reduction

set_option autoImplicit false

namespace FsExt.Attr.Windows

open Sys

inductive Right where
  | read
  | write
  | delete
deriving DecidableEq

structure Mode where
  access : List Right
  share : List Right
deriving DecidableEq

def Mode.clashes (new old : Mode) : Bool :=
  !(new.access.all old.share.contains && old.access.all new.share.contains)

def getMode : Mode := ⟨[.read], [.read, .write, .delete]⟩

def setMode : Mode := ⟨[.write], []⟩

def removeMode : Mode := ⟨[.delete], [.delete]⟩

def deleteMode : Mode := ⟨[.delete], [.read, .write, .delete]⟩

def openMode : Access → Mode
  | .read => getMode
  | .delete => removeMode

section
variable {ι : Type}

-- A stream that is marked for deletion is gone once its last handle is closed,
-- and cannot be opened until then. A handle of nobody is one that no call opens
-- or closes, as the one the calls are relative to.
structure StreamState (ι : Type) where
  content : Option (List UInt8)
  doomed : Bool
  handles : List (Option ι × Mode)

namespace StreamState

def refuses (state : StreamState ι) (mode : Mode) : Bool :=
  state.doomed || state.handles.any fun held => mode.clashes held.2

def grant (state : StreamState ι) (i : ι) (mode : Mode) : StreamState ι :=
  { state with handles := (some i, mode) :: state.handles }

def delete (state : StreamState ι) : StreamState ι :=
  if state.handles.isEmpty then { state with content := none } else { state with doomed := true }

def close [DecidableEq ι] (state : StreamState ι) (i : ι) : StreamState ι :=
  let handles := state.handles.filter (·.1 ≠ some i)
  if state.doomed && handles.isEmpty then ⟨none, false, handles⟩ else { state with handles := handles }

end StreamState

def target (naming : StreamNaming) : NtOp → Option Stream
  | .openFile path _ | .createFile path | .deleteFile path => naming.opens path
  | .queryEndOfFile handle | .readFile handle _ | .writeFile handle _ | .close handle => some handle

def refusal : (op : NtOp) → NtAnswer op
  | .openFile _ _ | .createFile _ | .queryEndOfFile _ | .readFile _ _ | .writeFile _ _ | .deleteFile _ => .error .other
  | .close _ => ()

def answerOn [DecidableEq ι] (i : ι) (stream : Stream) : (op : NtOp) → StreamState ι → NtAnswer op × StreamState ι
  | .openFile _ access, state =>
      if state.content.isNone then (.error .objectNameNotFound, state)
      else if state.refuses (openMode access) then (.error .other, state)
      else (.ok stream, state.grant i (openMode access))
  | .createFile _, state =>
      if state.refuses setMode then (.error .other, state)
      else (.ok stream, { state.grant i setMode with content := some [] })
  | .queryEndOfFile _, state => (match state.content with
      | none => .error .other
      | some content => .ok content.length, state)
  | .readFile _ length, state => (match state.content with
      | none => .error .other
      | some content => .ok (content.take length), state)
  | .writeFile _ content, state =>
      (.ok content.length, { state with content := some (known content ++ (state.content.getD []).drop content.length) })
  | .deleteFile _, state =>
      if state.content.isNone then (.error .objectNameNotFound, state)
      else if state.refuses deleteMode then (.error .other, state)
      else (.ok (), state.delete)
  | .close _, state => ((), state.close i)

-- Nothing fails but an open that the share modes, a deletion under way or the
-- lack of a stream forbid.
def ntSharing [DecidableEq ι] (naming : StreamNaming) :
    Program.Handler (ι × NtOp) (fun call => NtAnswer call.2) (Stream → StreamState ι) := fun call world =>
  match target naming call.2 with
  | none => (refusal call.2, world)
  | some stream =>
      let result := answerOn call.1 stream call.2 (world stream)
      (result.1, Function.update world stream result.2)

end

inductive AttrCall where
  | get (name : CString) (value : UvBuf)
  | set (name : CString) (view : View)
  | remove (name : CString)

inductive AttrReturn where
  | got (result : Status × UvBuf)
  | done (status : Status)

def AttrCall.program : AttrCall → NtProgram AttrReturn
  | .get name value => do return .got (← getAttr name value)
  | .set name view => do return .done (← setAttr name view.buf)
  | .remove name => do return .done (← removeAttr name)

def wants : NtOp → Option Mode
  | .openFile _ access => some (openMode access)
  | .createFile _ => some setMode
  | _ => none

section
variable {ι : Type}

abbrev AttrPool (ι : Type) :=
  Pool ι (ι × NtOp) (fun call => NtAnswer call.2) AttrReturn (Stream → StreamState ι)

def attrPrograms (calls : ι → AttrCall) (i : ι) : Program (ι × NtOp) (fun call => NtAnswer call.2) AttrReturn :=
  (calls i).program.owned i

def attrPool (calls : ι → AttrCall) (start : Stream → StreamState ι) : AttrPool ι := ⟨attrPrograms calls, start⟩

def Undisturbed [DecidableEq ι] (naming : StreamNaming) (calls : ι → AttrCall) (start : Stream → StreamState ι)
    (schedule : List ι) : Prop :=
  ∀ played i op mode stream, played ++ [i] <+: schedule →
    ((attrPool calls start).play (ntSharing naming) played).request i = some (i, op) →
    wants op = some mode → target naming op = some stream →
    ∀ j held, (some j, held) ∈ (((attrPool calls start).play (ntSharing naming) played).world stream).handles →
      mode = getMode ∧ held = getMode

end

end FsExt.Attr.Windows
