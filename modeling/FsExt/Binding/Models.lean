import FsExt.Attr.Models
import FsExt.Attr.Store
import FsExt.Binding.Forms
import FsExt.Binding.Resources

set_option autoImplicit false

namespace FsExt.Binding.Resources

open Sys
open FsExt.Attr (AttrAnswer AttrOp UvBuf uvBufInit NameTable)
open FsExt.Attr.Buffers (BufferOp BufferAnswer BufferProgram Buf Names SameGot malloc_null fill_null xattrPairing)
open FsExt.Attr.Windows (NtOp NtAnswer NtError ListOp ListAnswer Listing)

def roomy : (op : ResourceOp) → ResourceAnswer op → Prop
  | .buffer (.malloc size), base => base = none ↔ size < 0
  | _, _ => True

def streamPairing : Pairing NtOp NtAnswer ResourceOp ResourceAnswer where
  stands
    | .openFile _ _, .openStream | .createFile _, .openStream => True
    | .queryEndOfFile _, .stream _ _ | .readFile _ _, .stream _ _ | .writeFile _ _, .stream _ _ => True
    | .deleteFile _, .deleteFile => True
    | .close _, .close _ => True
    | _, _ => False
  agree
    | .openFile _ _, .openStream, opened, opened' => opened.map (fun _ => ()) = opened'.map fun _ => ()
    | .createFile _, .openStream, opened, opened' => opened.map (fun _ => ()) = opened'.map fun _ => ()
    | .queryEndOfFile _, .stream _ _, size, size' => size = size'
    | .readFile _ _, .stream _ _, read, count => read.map List.length = count
    | .writeFile _ _, .stream _ _, count, count' => count = count'
    | .deleteFile _, .deleteFile, deleted, deleted' => deleted = deleted'
    | .close _, .close _, _, _ => True
    | _, _, _, _ => False
  allowed := roomy
  met op op' answer' stands _ := by
    cases op <;> cases op' <;> first | exact stands.elim | skip
    · cases answer' with
      | error err => exact ⟨.error err, rfl⟩
      | ok id => exact ⟨.ok .unnamed, rfl⟩
    · cases answer' with
      | error err => exact ⟨.error err, rfl⟩
      | ok id => exact ⟨.ok .unnamed, rfl⟩
    · exact ⟨answer', rfl⟩
    · cases answer' with
      | error err => exact ⟨.error err, rfl⟩
      | ok count => exact ⟨.ok (List.replicate count 0), congrArg Except.ok (List.length_replicate)⟩
    · exact ⟨answer', rfl⟩
    · exact ⟨answer', rfl⟩
    · exact ⟨(), trivial⟩

theorem opened_same {α β : Type} (opened : Except NtError α) (opened' : Except NtError β)
    (same : opened.map (fun _ => ()) = opened'.map fun _ => ()) :
    (∃ err, opened = .error err ∧ opened' = .error err) ∨ ∃ stream handle, opened = .ok stream ∧ opened' = .ok handle := by
  cases opened with
  | error err =>
      cases opened' with
      | error err' =>
          cases same
          exact .inl ⟨err, rfl, rfl⟩
      | ok handle => cases same
  | ok stream =>
      cases opened' with
      | error err => cases same
      | ok handle => exact .inr ⟨stream, handle, rfl, rfl⟩

theorem windows_get_tracks (name : CString) (path : Option Nat) :
    streamPairing.Tracks SameGot (Attr.Windows.getAttr name (uvBufInit none 0)) (Windows.getAttr name path ⟨none, 0⟩) := by
  refine .own _ _ _ fun _ _ => ?_
  rw [Attr.Windows.getAttr]
  cases Attr.Windows.streamName name with
  | error err => exact .ret _ _ ⟨rfl, rfl, iff_of_true rfl rfl⟩
  | ok wide =>
      refine .both _ _ _ _ trivial fun opened opened' same _ => ?_
      obtain ⟨err, rfl, rfl⟩ | ⟨stream, handle, rfl, rfl⟩ := opened_same opened opened' same
      · exact .ret _ _ ⟨rfl, rfl, iff_of_true rfl rfl⟩
      · refine .both _ _ _ _ trivial fun size size' same _ => ?_
        obtain rfl : size = size' := same
        cases size with
        | error err => exact .both _ _ _ _ trivial fun _ _ _ _ => .ret _ _ ⟨rfl, rfl, iff_of_true rfl rfl⟩
        | ok length =>
            refine .own _ _ _ fun base room => ?_
            have null : base = none ↔ Attr.malloc length = none := room.trans (malloc_null _).symm
            refine .both _ _ _ _ trivial fun read count same _ => .both _ _ _ _ trivial fun _ _ _ _ => ?_
            obtain rfl : read.map List.length = count := same
            cases read with
            | error err => exact .ret _ _ ⟨rfl, rfl, null⟩
            | ok content =>
                exact .ret _ _ ⟨rfl, rfl, null.trans (fill_null (uvBufInit (Attr.malloc length) length) content).symm⟩

theorem windows_set_tracks (name : CString) (value : UvBuf) (path : Option Nat) :
    streamPairing.Tracks (· = ·) (Attr.Windows.setAttr name value) (Windows.setAttr name value.len path) := by
  refine .own _ _ _ fun _ _ => ?_
  rw [Attr.Windows.setAttr]
  cases Attr.Windows.streamName name with
  | error err => exact .ret _ _ rfl
  | ok wide =>
      refine .both _ _ _ _ trivial fun opened opened' same _ => ?_
      obtain ⟨err, rfl, rfl⟩ | ⟨stream, handle, rfl, rfl⟩ := opened_same opened opened' same
      · exact .ret _ _ rfl
      · refine .both _ _ _ _ trivial fun written written' same _ => .both _ _ _ _ trivial fun _ _ _ _ => ?_
        obtain rfl : written = written' := same
        cases written with
        | error err => exact .ret _ _ rfl
        | ok count => exact .ret _ _ rfl

theorem windows_remove_tracks (name : CString) (path : Option Nat) :
    streamPairing.Tracks (· = ·) (Attr.Windows.removeAttr name) (Windows.removeAttr name path) := by
  refine .own _ _ _ fun _ _ => ?_
  rw [Attr.Windows.removeAttr]
  cases Attr.Windows.streamName name with
  | error err => exact .ret _ _ rfl
  | ok wide =>
      refine .both _ _ _ _ trivial fun opened opened' same _ => ?_
      obtain ⟨err, rfl, rfl⟩ | ⟨stream, handle, rfl, rfl⟩ := opened_same opened opened' same
      · exact .ret _ _ rfl
      · refine .both _ _ _ _ trivial fun deleted deleted' same _ => .both _ _ _ _ trivial fun _ _ _ _ => ?_
        obtain rfl : deleted = deleted' := same
        cases deleted with
        | error err => exact .ret _ _ rfl
        | ok done => exact .ret _ _ rfl

def listPairing : Pairing ListOp ListAnswer ResourceOp ResourceAnswer where
  stands
    | op, .queryStreams op' _ => op = op'
    | _, _ => False
  agree
    | _, .queryStreams _ _, content, content' => content = content'
    | _, _, _, _ => False
  allowed := roomy
  met op op' answer' stands _ := by
    cases op' <;> first | exact stands.elim | exact ⟨answer', rfl⟩

def SameListing (listing : Option Listing) (listed : Status × Names) : Prop :=
  ∃ touches, listing = some ⟨listed.1, listed.2.table, touches⟩

theorem list_streams_succeeds (info : List UInt8) (listing : Listing) (listed : Attr.Windows.listStreams info = some listing) :
    listing.status = .ok () := by
  simp only [Attr.Windows.listStreams, Option.bind_eq_bind, Option.bind_eq_some_iff] at listed
  obtain ⟨_, _, _, _, whole⟩ := listed
  cases whole
  rfl

theorem windows_tabulate_tracks (info : Option Nat) (content : List UInt8) :
    listPairing.Tracks SameListing (.ret (Attr.Windows.listStreams content)) (Windows.tabulate info content) := by
  refine .own _ _ _ fun _ _ => ?_
  cases listed : Attr.Windows.listStreams content with
  | none => exact .own _ _ _ fun answer => answer.elim
  | some listing =>
      have done := list_streams_succeeds content listing listed
      refine .own _ _ _ fun base _ => .own _ _ _ fun _ _ => .own _ _ _ fun _ _ => .own _ _ _ fun _ _ => .ret _ _ ?_
      exact ⟨listing.touches, by rw [← done]⟩

theorem windows_query_tracks (table : NameTable) (names : Names) (same : names.table = table)
    (doublings infoSize : Nat) (info : Option Nat) :
    listPairing.Tracks SameListing (Attr.Windows.queryStreams table doublings infoSize)
      (Windows.queryInfo names doublings infoSize info) := by
  induction doublings generalizing infoSize info with
  | zero => exact .own _ _ _ fun answer => answer.elim
  | succ doublings ih =>
      refine .both _ _ _ _ rfl fun content content' read _ => ?_
      obtain rfl : content = content' := read
      cases content with
      | ok content => exact windows_tabulate_tracks info _
      | error err =>
          cases err with
          | bufferOverflow => exact .own _ _ _ fun grown _ => .own _ _ _ fun _ _ => ih (infoSize * 2) grown
          | other => exact .own _ _ _ fun _ _ => .ret _ _ ⟨[], by rw [same]⟩

theorem windows_list_tracks (table : NameTable) (names : Names) (same : names.table = table) :
    listPairing.Tracks SameListing (Attr.Windows.listAttrs table) (Windows.listAttrs names) :=
  .own _ _ _ fun info _ => .own _ _ _ fun _ _ => windows_query_tracks table names same 58 64 info

theorem posix_set_tracks (name : CString) (value : UvBuf) (path : Option Nat) :
    xattrPairing.Tracks (· = ·) (Attr.setAttr name value) (Posix.setAttr path) := by
  refine .both _ _ _ _ trivial fun result result' same _ => .ret _ _ ?_
  obtain rfl : result = result' := same
  rfl

def removalPairing : Pairing AttrOp AttrAnswer BufferOp BufferAnswer where
  stands
    | .fremovexattr _, .xattr _ => True
    | _, _ => False
  agree
    | .fremovexattr _, .xattr _, result, result' => result = result'
    | _, _, _, _ => False
  allowed _ _ := True
  met op op' result' stands _ := by
    cases op <;> cases op' <;> first | exact stands.elim | exact ⟨result', rfl⟩

theorem posix_remove_tracks (platform : Attr.Platform) (name : CString) (path : Option Nat) :
    removalPairing.Tracks (· = ·) (Attr.removeAttr platform name) (Posix.removeAttr platform path) := by
  refine .both _ _ _ _ trivial fun result result' same _ => .ret _ _ ?_
  obtain rfl : result = result' := same
  rfl

def heapPairing : Pairing BufferOp BufferAnswer ResourceOp ResourceAnswer where
  stands op op' := op' = .buffer op
  agree
    | op, .buffer op', answer, answer' => ∃ same : op' = op, same ▸ answer' = answer
    | _, _, _, _ => False
  allowed _ _ := True
  met op op' answer' stands _ := by
    subst stands
    exact ⟨answer', rfl, rfl⟩

def SameCalls (_ : Option Attr.Buffers.Received) (_ : Job) : Prop := True

theorem buffers_tracks {α : Type} (program : BufferProgram α) : heapPairing.Tracks (· = ·) program (buffers program) := by
  induction program with
  | ret value => exact .ret _ _ rfl
  | call op next ih =>
      refine .both _ _ _ _ rfl fun answer answer' same _ => ?_
      obtain ⟨_, rfl⟩ := same
      exact ih answer'

theorem buffers_then {α β γ : Type} (related : β → γ → Prop) (program : BufferProgram α) (rest : α → BufferProgram β)
    (rest' : α → ResourceProgram γ) (after : ∀ value, heapPairing.Tracks related (rest value) (rest' value)) :
    heapPairing.Tracks related (program >>= rest) (buffers program >>= rest') :=
  heapPairing.tracks_bind _ _ _ _ _ _ (buffers_tracks program) fun value _ same => same ▸ after value

theorem unless_lost_then {α β γ : Type} (related : β → γ → Prop) (program : BufferProgram (Option α))
    (rest : Option α → BufferProgram β) (rest' : α → ResourceProgram γ)
    (after : ∀ value, heapPairing.Tracks related (rest (some value)) (rest' value)) :
    heapPairing.Tracks related (program >>= rest) (unlessLost program >>= rest') := by
  have taken : (unlessLost program >>= rest') = buffers program >>= fun found =>
      found.elim lost .ret >>= rest' := by
    refine (Program.bind_bind _ _ _).trans (congrArg (buffers program >>= ·) (funext fun found => ?_))
    cases found <;> rfl
  rw [taken]
  refine buffers_then related program rest _ fun found => ?_
  cases found with
  | none => exact .own _ _ _ fun answer => answer.elim
  | some value => exact after value

theorem unless_lost_last (program : BufferProgram (Option Attr.Buffers.Received)) (job : Job) :
    heapPairing.Tracks SameCalls program (unlessLost program >>= fun _ => return job) := by
  have last := unless_lost_then SameCalls program (fun found => .ret found) (fun _ => .ret job) fun _ => .ret _ _ trivial
  rwa [Program.bind_ret] at last

def inTurn (setting : Setting) : Job → ResourceProgram Job
  | .ended leaked => return .ended leaked
  | .queued names work => do
      let _ ← freeing names
      work.program setting

section
variable (platform : Attr.Platform) (processId : UInt32) (junk : Nat → UInt8)

theorem get_sync_tracks (name : CString) :
    heapPairing.Tracks SameCalls (Attr.Buffers.jsGetAttrSync platform name.length)
      (getAttrSync ⟨.posix platform, processId, junk⟩ name) := by
  rw [getAttrSync, filled, Program.bind_bind]
  refine buffers_then SameCalls (Attr.Buffers.malloc (name.length + 1 : Nat)) _ _ fun buffer => ?_
  rw [Program.bind_bind]
  refine buffers_then SameCalls (Attr.Buffers.use buffer) _ _ fun _ => ?_
  refine buffers_then SameCalls (Attr.Buffers.getAttr platform buffer ⟨none, 0⟩) _ _ fun got => ?_
  exact buffers_then SameCalls (Attr.Buffers.free buffer) _ _ fun _ => unless_lost_last _ _

theorem get_tracks (name : CString) :
    heapPairing.Tracks SameCalls (Attr.Buffers.jsGetAttr platform name.length)
      (submitName name (.getAttr name) >>= inTurn ⟨.posix platform, processId, junk⟩) := by
  rw [submitName, filled, Program.bind_bind, Program.bind_bind]
  refine buffers_then SameCalls (Attr.Buffers.malloc (name.length + 1 : Nat)) _ _ fun buffer => ?_
  rw [Program.bind_bind]
  refine buffers_then SameCalls (Attr.Buffers.use buffer) _ _ fun _ => ?_
  change heapPairing.Tracks SameCalls _ ((buffers (Attr.Buffers.strdup buffer (name.length + 1)) >>= _) >>= inTurn _)
  rw [Program.bind_bind]
  refine buffers_then SameCalls (Attr.Buffers.strdup buffer (name.length + 1)) _ _ fun copy => ?_
  rw [Program.bind_bind]
  refine buffers_then SameCalls Attr.Buffers.queue _ _ fun queued => ?_
  cases queued with
  | error err => exact .both _ _ _ _ rfl fun _ _ _ _ => .both _ _ _ _ rfl fun _ _ _ _ => .ret _ _ trivial
  | ok done =>
      refine .both _ _ _ _ rfl fun _ _ _ _ => ?_
      exact buffers_then SameCalls (Attr.Buffers.getAttr platform copy ⟨none, 0⟩) _ _ fun got => unless_lost_last _ _

theorem list_sync_tracks :
    heapPairing.Tracks SameCalls (Attr.Buffers.jsListAttrsSync junk) (listAttrsSync ⟨.posix platform, processId, junk⟩) :=
  unless_lost_then SameCalls (Attr.Buffers.listAttrs junk ⟨none, ⟨none, 0⟩⟩) _ _ fun _ => unless_lost_last _ _

theorem list_tracks :
    heapPairing.Tracks SameCalls (Attr.Buffers.jsListAttrs junk)
      (submitList >>= inTurn ⟨.posix platform, processId, junk⟩) := by
  rw [submitList, Program.bind_bind]
  refine buffers_then SameCalls Attr.Buffers.queue _ _ fun queued => ?_
  cases queued with
  | error err => exact .ret _ _ trivial
  | ok done =>
      exact unless_lost_then SameCalls (Attr.Buffers.listAttrs junk ⟨none, ⟨none, 0⟩⟩) _ _ fun _ => unless_lost_last _ _

end

end FsExt.Binding.Resources

namespace FsExt.Binding

open Sys

inductive PlatformOp where
  | getAttr (name : CString)
  | setAttr (name : CString) (value : Attr.UvBuf)
  | removeAttr (name : CString)
  | swap (source target : CString)

abbrev PlatformAnswer : PlatformOp → Type
  | .getAttr _ => Except UvError (List UInt8)
  | .setAttr _ _ | .removeAttr _ | .swap _ _ => Status

def answering {σ : Type} (octets : Attr.UvBuf → List UInt8) (platform : Platform σ) :
    Program.Handler PlatformOp PlatformAnswer σ
  | .getAttr name, world => platform.getAttr name world
  | .setAttr name value, world => platform.setAttr name (octets value) world
  | .removeAttr name, world => platform.removeAttr name world
  | .swap source target, world => platform.swap source target world

namespace Forms

def fetched (value : Attr.UvBuf) : Except UvError (List UInt8) → Status × Attr.UvBuf
  | .error err => (.error err, value)
  | .ok content => (.ok (), ⟨some (bytes content), content.length⟩)

def handingOn {Handle : Type} (rest : Backend Handle PlatformOp PlatformAnswer) :
    Backend Handle PlatformOp PlatformAnswer :=
  { rest with
    getAttr := fun _ name value => do return fetched value (← Program.perform (PlatformOp.getAttr name))
    setAttr := fun _ name value => Program.perform (PlatformOp.setAttr name value)
    removeAttr := fun _ name => Program.perform (PlatformOp.removeAttr name)
    swap := fun source target => Program.perform (PlatformOp.swap source target) }

def gotten : Except UvError (List UInt8) → Returned
  | .error .ENODATA => .returned .null
  | .error err => .threw err
  | .ok content => .returned (.buffer (bytes content))

def removed (status : Status) : Returned := thrown (if status = .error .ENODATA then .ok () else status)

-- None: the call ends before it gets to the platform.
def ended {α β σ : Type} (outcome : α → β) (world : σ) : Option (α × σ) → Option β × σ
  | none => (none, world)
  | some (result, after) => (some (outcome result), after)

section
variable {σ : Type} (engine : Engine) (platform : Platform σ) (octets : Attr.UvBuf → List UInt8)
  (rest : Backend engine.Handle PlatformOp PlatformAnswer) (fd : engine.Number) (name source target : JsString)
  (value : AttrValue engine.Encoding) (world : σ)

theorem settled_hands_on {α : Type} (sync : Program PlatformOp PlatformAnswer (Option Returned)) (outcome : α → Returned)
    (ran : Option (α × σ)) (ends : Program.run (answering octets platform) sync world = ended outcome world ran) :
    Program.run (answering octets platform) (sync >>= fun returned => .ret (returned.map Returned.settled)) world =
      ended (fun result => (outcome result).settled) world ran := by
  rw [Program.run_bind, ends]
  cases ran <;> rfl

theorem get_attr_sync_hands_on :
    Program.run (answering octets platform) (getAttrSync engine (handingOn rest) fd name) world =
      ended gotten world (Binding.getAttrSync engine.writer platform name world) := by
  rw [getAttrSync, jsGetAttrSync, Binding.getAttrSync, onName]
  cases readString (nameBuffer engine.writer name) with
  | none => rfl
  | some string =>
      change _ = ended gotten world (some (platform.getAttr string world))
      obtain ⟨result, after, got⟩ : ∃ result after, platform.getAttr string world = (result, after) := ⟨_, _, rfl⟩
      have handled : answering octets platform (.getAttr string) world = (result, after) := got
      rw [got]
      refine Program.run_step _ (PlatformOp.getAttr string) _ world after result _ handled ?_
      cases result with
      | error err => cases err <;> rfl
      | ok content =>
          have whole : (Attr.UvBuf.mk (some (bytes content)) content.length).contents = bytes content :=
            List.take_of_length_le (bytes_length content).le
          change (some (Returned.returned (.buffer (Attr.UvBuf.contents _))), after) = _
          rw [whole]
          rfl

theorem get_attr_hands_on :
    Program.run (answering octets platform) (getAttr engine (handingOn rest) fd name) world =
      ended (fun result => (gotten result).settled) world (Binding.getAttr engine.writer platform name world) := by
  rw [get_attr_agrees, Binding.getAttr, queued_name]
  exact settled_hands_on platform octets world _ gotten _ (get_attr_sync_hands_on engine platform octets rest fd name world)

theorem set_attr_sync_hands_on :
    Program.run (answering octets platform) (setAttrSync engine (handingOn rest) fd name value) world =
      ended thrown world
        (Binding.setAttrSync engine.writer platform name (octets (valueView engine value).buf) world) := by
  rw [setAttrSync, jsSetAttrSync, Binding.setAttrSync, onName]
  cases readString (nameBuffer engine.writer name) <;> rfl

theorem set_attr_hands_on :
    Program.run (answering octets platform) (setAttr engine (handingOn rest) fd name value) world =
      ended (fun result => (thrown result).settled) world
        (Binding.setAttr engine.writer platform name (octets (valueView engine value).buf) world) := by
  rw [set_attr_agrees, Binding.setAttr, queued_name]
  exact settled_hands_on platform octets world _ thrown _
    (set_attr_sync_hands_on engine platform octets rest fd name value world)

theorem remove_attr_sync_hands_on :
    Program.run (answering octets platform) (removeAttrSync engine (handingOn rest) fd name) world =
      ended removed world (Binding.removeAttrSync engine.writer platform name world) := by
  rw [removeAttrSync, jsRemoveAttrSync, Binding.removeAttrSync, onName]
  cases readString (nameBuffer engine.writer name) <;> rfl

theorem remove_attr_hands_on :
    Program.run (answering octets platform) (removeAttr engine (handingOn rest) fd name) world =
      ended (fun result => (removed result).settled) world
        (Binding.removeAttr engine.writer platform name world) := by
  rw [remove_attr_agrees, Binding.removeAttr, queued_name]
  exact settled_hands_on platform octets world _ removed _
    (remove_attr_sync_hands_on engine platform octets rest fd name world)

theorem swap_sync_hands_on :
    Program.run (answering octets platform) (swapSync engine (handingOn rest) source target) world =
      ended thrown world (Binding.swapSync engine.writer platform source target world) := by
  rw [swapSync, jsSwapSync, Binding.swapSync]
  cases readString (pathBuffer engine.writer source) with
  | none => rfl
  | some string => cases readString (pathBuffer engine.writer target) <;> rfl

theorem swap_hands_on :
    Program.run (answering octets platform) (swap engine (handingOn rest) source target) world =
      ended (fun result => (thrown result).settled) world
        (Binding.swap engine.writer platform source target world) := by
  rw [swap_agrees, swap_reads]
  exact settled_hands_on platform octets world _ thrown _
    (swap_sync_hands_on engine platform octets rest source target world)

end

end Forms

end FsExt.Binding

namespace FsExt.Binding.Forms

open Sys
open FsExt.Attr (UvBuf uvBufInit NameTable XattrOp XattrAnswer)
open FsExt.Attr.Buffers (BufferOp BufferAnswer BufferProgram Buf Names Received xattrPairing SameGot SameListed
  get_attr_tracks list_attrs_tracks same_table_refl)

def withXattrs {Handle : Type} (platform : Attr.Platform) (rest : Backend Handle XattrOp XattrAnswer) :
    Backend Handle XattrOp XattrAnswer :=
  { rest with
    getAttr := fun _ name value => Attr.getAttr platform name value
    listAttrs := fun _ table => Attr.listAttrs table }

-- What both models of a call hand to JavaScript. Where the model of the heap
-- ends, the other one has an array buffer that nobody has written.
def Shows (engine : Engine) : Option Settled → Option Received → Prop
  | none, _ => True
  | some (.resolved (.arrayBuffer _)), received => received = some .value ∨ received = none
  | some (.resolved .null), received => received = some .null
  | some (.resolved (.array names)), received => ∃ list, received = some (.names list) ∧ names = list.map engine.string
  | some (.rejected err), received => received = some (.error err)
  | _, _ => False

section
variable (engine : Engine) (platform : Attr.Platform) (rest : Backend engine.Handle XattrOp XattrAnswer)
  (junk : Nat → UInt8) (fd : engine.Number) (name : JsString)

theorem nothing_shown (program : BufferProgram (Option Received)) :
    xattrPairing.Tracks (Shows engine) (.ret none) program := by
  induction program with
  | ret received => exact .ret _ _ trivial
  | call op next ih => exact .own _ _ _ fun answer _ => ih answer

def settledAttr (got : Status × UvBuf) : Settled :=
  match got.1 with
  | .error .ENODATA => .resolved .null
  | .error err => .rejected err
  | .ok () => .resolved (.arrayBuffer got.2.contents)

theorem get_attr_sync_settles (string : CString) (read : readString (nameBuffer engine.writer name) = some string) :
    (jsGetAttrSync engine (withXattrs platform rest) fd name >>= fun outcome =>
        .ret (outcome.map Returned.settled)) =
      (Attr.getAttr platform string (uvBufInit none 0) >>= fun got => .ret (some (settledAttr got))) := by
  rw [jsGetAttrSync, read]
  change (Attr.getAttr platform string (uvBufInit none 0) >>= _) >>= _ = _
  rw [Program.bind_bind]
  refine congrArg (Attr.getAttr platform string (uvBufInit none 0) >>= ·) (funext fun got => ?_)
  obtain ⟨result, value⟩ := got
  cases result with
  | error err => cases err <;> rfl
  | ok done => rfl

theorem got_shown (string : CString) (path : Option Nat) (rest' : Status × Buf → BufferProgram (Option Received))
    (failed : ∀ err value value', xattrPairing.Tracks (Shows engine) (.ret (some (settledAttr (.error err, value))))
      (rest' (.error err, value')))
    (copied : ∀ value value', xattrPairing.Tracks (Shows engine) (.ret (some (settledAttr (.ok (), value))))
      (rest' (.ok (), value'))) :
    xattrPairing.Tracks (Shows engine)
      (Attr.getAttr platform string (uvBufInit none 0) >>= fun got => .ret (some (settledAttr got)))
      (Attr.Buffers.getAttr platform path ⟨none, 0⟩ >>= rest') := by
  refine xattrPairing.tracks_bind SameGot _ _ _ _ _ (get_attr_tracks platform string path) fun got got' same => ?_
  obtain ⟨result, value⟩ := got
  obtain ⟨result', value'⟩ := got'
  obtain ⟨rfl, _⟩ := same
  cases result' with
  | error err => exact failed err value value'
  | ok done => exact copied value value'

theorem get_attr_sync_shown :
    xattrPairing.Tracks (Shows engine)
      (jsGetAttrSync engine (withXattrs platform rest) fd name >>= fun outcome => .ret (outcome.map Returned.settled))
      (Attr.Buffers.jsGetAttrSync platform (jsUtf8 name).length) := by
  cases read : readString (nameBuffer engine.writer name) with
  | none =>
      rw [jsGetAttrSync, read]
      exact nothing_shown engine _
  | some string =>
      rw [get_attr_sync_settles engine platform rest fd name string read]
      refine .own _ _ _ fun buffer _ => .own _ _ _ fun _ _ => ?_
      refine got_shown engine platform string buffer _ (fun err value value' => ?_) fun value value' => ?_
      · refine .own _ _ _ fun _ _ => ?_
        cases err <;> first | exact .ret _ _ rfl | exact .own _ _ _ fun _ _ => .ret _ _ rfl
      · refine .own _ _ _ fun _ _ => ?_
        change xattrPairing.Tracks _ _ (Attr.Buffers.memcpy value' >>= _)
        rw [Attr.Buffers.memcpy]
        split
        · exact .ret _ _ (.inr rfl)
        · exact .own _ _ _ fun _ _ => .own _ _ _ fun _ _ => .ret _ _ (.inl rfl)

theorem get_attr_shown :
    xattrPairing.Tracks (Shows engine) (promise (jsGetAttr engine (withXattrs platform rest) fd name))
      (Attr.Buffers.jsGetAttr platform (jsUtf8 name).length) := by
  cases read : readString (nameBuffer engine.writer name) with
  | none =>
      rw [jsGetAttr, strdup, read]
      exact nothing_shown engine _
  | some string =>
      have same := js_get_attr_agrees engine (withXattrs platform rest) fd name
      rw [same, get_attr_sync_settles engine platform rest fd name string read]
      refine .own _ _ _ fun buffer _ => .own _ _ _ fun _ _ => ?_
      refine .own _ _ _ fun _ _ => .own _ _ _ fun copy _ => .own _ _ _ fun _ _ => .own _ _ _ fun queued fine => ?_
      obtain rfl : queued = .ok () := fine
      refine .own _ _ _ fun _ _ => ?_
      refine got_shown engine platform string copy _ (fun err value value' => ?_) fun value value' => ?_
      · cases err <;> exact .own _ _ _ fun _ _ => .own _ _ _ fun _ _ => .ret _ _ rfl
      · change xattrPairing.Tracks _ _ ((Attr.Buffers.memcpy value' >>= _) >>= _)
        rw [Attr.Buffers.memcpy]
        split
        · exact .ret _ _ (.inr rfl)
        · exact .own _ _ _ fun _ _ => .own _ _ _ fun _ _ => .own _ _ _ fun _ _ => .ret _ _ (.inl rfl)

theorem listed_shown (rest' : Option (Status × Names) → BufferProgram (Option Received))
    (failed : ∀ err names, xattrPairing.Tracks (Shows engine) (.ret (some (.rejected err)))
      (rest' (some (.error err, names))))
    (read : ∀ names list, names.table.listed = some list →
      xattrPairing.Tracks (Shows engine) (.ret (some (.resolved (.array (list.map engine.string)))))
        (rest' (some (.ok (), names)))) :
    xattrPairing.Tracks (Shows engine)
      (jsListAttrsSync engine (withXattrs platform rest) fd >>= fun outcome => .ret (outcome.map Returned.settled))
      (Attr.Buffers.listAttrs junk ⟨none, ⟨none, 0⟩⟩ >>= rest') := by
  rw [jsListAttrsSync, Program.bind_bind]
  refine xattrPairing.tracks_bind SameListed _ _ _ _ _
    (list_attrs_tracks junk ⟨none, 0⟩ ⟨none, ⟨none, 0⟩⟩ (same_table_refl _)) fun listed listed' same => ?_
  cases listed with
  | none => exact nothing_shown engine _
  | some listed =>
      obtain ⟨result, table⟩ := listed
      obtain ⟨names, rfl, _, shown⟩ := same result table rfl
      cases result with
      | error err => exact failed err names
      | ok done =>
          change xattrPairing.Tracks _ (.ret ((table.listed.map _).map _)) _
          cases found : table.listed with
          | none => exact nothing_shown engine _
          | some list => exact read names list (shown list found)

theorem list_attrs_sync_shown :
    xattrPairing.Tracks (Shows engine)
      (jsListAttrsSync engine (withXattrs platform rest) fd >>= fun outcome => .ret (outcome.map Returned.settled))
      (Attr.Buffers.jsListAttrsSync junk) := by
  refine listed_shown engine platform rest junk fd _ (fun err names => .ret _ _ rfl) fun names list found => ?_
  refine .own _ _ _ fun _ _ => ?_
  simp only [Program.bind, found]
  exact .own _ _ _ fun _ _ => .ret _ _ ⟨list, rfl, rfl⟩

theorem list_attrs_shown :
    xattrPairing.Tracks (Shows engine) (promise (jsListAttrs engine (withXattrs platform rest) fd))
      (Attr.Buffers.jsListAttrs junk) := by
  have agrees := list_attrs_agrees engine (withXattrs platform rest) fd
  rw [listAttrs, Agrees, listAttrsSync] at agrees
  rw [agrees]
  refine .own _ _ _ fun queued fine => ?_
  obtain rfl : queued = .ok () := fine
  refine listed_shown engine platform rest junk fd _ (fun err names => ?_) fun names list found => ?_
  · exact .own _ _ _ fun _ _ => .ret _ _ rfl
  · refine .own _ _ _ fun _ _ => ?_
    simp only [Program.bind, found]
    exact .own _ _ _ fun _ _ => .ret _ _ ⟨list, rfl, rfl⟩

def shownForm : Attr.Buffers.AttrCall → Program XattrOp XattrAnswer (Option Settled)
  | .getAttr _ => promise (jsGetAttr engine (withXattrs platform rest) fd name)
  | .getAttrSync _ => do
      return (← jsGetAttrSync engine (withXattrs platform rest) fd name).map Returned.settled
  | .listAttrs => promise (jsListAttrs engine (withXattrs platform rest) fd)
  | .listAttrsSync => do return (← jsListAttrsSync engine (withXattrs platform rest) fd).map Returned.settled

def NamedBy (name : JsString) : Attr.Buffers.AttrCall → Prop
  | .getAttr nameLen | .getAttrSync nameLen => nameLen = (jsUtf8 name).length
  | .listAttrs | .listAttrsSync => True

theorem attr_calls_traced (call : Attr.Buffers.AttrCall) (named : NamedBy name call)
    (calls' : List ((op : BufferOp) × BufferAnswer op)) (received : Option Received)
    (traced : Traced xattrPairing.allowed (call.program platform junk) calls' received) :
    ∃ calls settled shared, Traced (fun _ _ => True) (shownForm engine platform rest fd name call) calls settled ∧
      Shows engine settled received ∧ shared.Sublist calls' ∧ List.Forall₂ xattrPairing.Same calls shared := by
  have tracks : xattrPairing.Tracks (Shows engine) (shownForm engine platform rest fd name call)
      (call.program platform junk) := by
    cases call with
    | getAttr nameLen =>
        subst named
        exact get_attr_shown engine platform rest fd name
    | getAttrSync nameLen =>
        subst named
        exact get_attr_sync_shown engine platform rest fd name
    | listAttrs => exact list_attrs_shown engine platform rest junk fd
    | listAttrsSync => exact list_attrs_sync_shown engine platform rest junk fd
  exact xattrPairing.tracks_traced (Shows engine) _ _ calls' received tracks traced

end

end FsExt.Binding.Forms
