import FsExt.Attr.RoundTrip
import FsExt.Attr.ListAttrs
import FsExt.Binding.Strings
import FsExt.Lock.Api

set_option autoImplicit false

namespace FsExt.Binding.Forms

open Sys
open FsExt.Attr (UvBuf uvBufInit NameTable View)
open FsExt.Lock (LockType)

inductive JsValue where
  | undefined
  | null
  | error (err : UvError)
  | arrayBuffer (contents : Block)
  | buffer (contents : Block)
  | array (names : List JsString)

inductive Settled where
  | resolved (value : JsValue)
  | rejected (err : UvError)

inductive Returned where
  | returned (value : JsValue)
  | threw (err : UvError)

def Returned.settled : Returned → Settled
  | .returned value => .resolved value
  | .threw err => .rejected err

-- An argument of a lock function. An object counts by whether its `shared` is
-- true; `other` is what is neither a number nor an object.
inductive Arg (Number : Type) where
  | undefined
  | null
  | number (value : Number)
  | options (shared : Bool)
  | other

inductive AttrValue (Encoding : Type) where
  | bytes (view : View)
  | text (text : JsString) (encoding : Option Encoding)

-- The JavaScript engine, libuv and the compiler: numbers and what they are as
-- int64, strings of C, the encodings `Buffer.from` knows, the handle of a
-- descriptor and the width of size_t.
structure Engine where
  Number : Type
  zero : Number
  int64 : Number → Int64
  writer : Utf8Writer
  string : CString → JsString
  Encoding : Type
  encode : JsString → Option Encoding → View
  Handle : Type
  osfhandle : Int32 → Handle
  sizeBits : Nat
  word : sizeBits ≤ 64
  isWindows : Bool

namespace Engine

def size (engine : Engine) (value : UInt64) : UInt64 := .ofNat (value.toNat % 2 ^ engine.sizeBits)

def getOsfhandle (engine : Engine) (fd : engine.Number) : engine.Handle := engine.osfhandle (engine.int64 fd).toInt32

-- None: `js_get_value_int64` fails, and with it an assertion.
def getInt64 (engine : Engine) : Arg engine.Number → Option Int64
  | .number value => some (engine.int64 value)
  | _ => none

end Engine

structure Backend (Handle Op : Type) (Answer : Op → Type) where
  waitForLock : Handle → UInt64 → UInt64 → LockType → Program Op Answer Status
  waitForDowngradeLock : Handle → UInt64 → UInt64 → Program Op Answer Status
  waitForUpgradeLock : Handle → UInt64 → UInt64 → Program Op Answer Status
  trim : Handle → UInt64 → UInt64 → Program Op Answer Status
  sparse : Handle → Program Op Answer Status
  swap : CString → CString → Program Op Answer Status
  getAttr : Handle → CString → UvBuf → Program Op Answer (Status × UvBuf)
  setAttr : Handle → CString → UvBuf → Program Op Answer Status
  removeAttr : Handle → CString → Program Op Answer Status
  listAttrs : Handle → NameTable → Program Op Answer (Option (Status × NameTable))

structure LockRequest (Handle : Type) where
  fd : Handle
  offset : UInt64
  length : UInt64
  type : LockType
  result : Status

structure TrimRequest (Handle : Type) where
  fd : Handle
  offset : UInt64
  length : UInt64
  result : Status

structure SparseRequest (Handle : Type) where
  fd : Handle
  result : Status

structure SwapRequest where
  source : Block
  target : Block
  result : Status

structure GetAttrRequest (Handle : Type) where
  fd : Handle
  name : Block
  value : UvBuf
  result : Status

structure SetAttrRequest (Handle : Type) where
  fd : Handle
  name : Block
  value : UvBuf
  result : Status

structure RemoveAttrRequest (Handle : Type) where
  fd : Handle
  name : Block
  result : Status

structure ListAttrsRequest (Handle : Type) where
  fd : Handle
  table : NameTable
  result : Status

section
variable {Handle Op : Type} {Answer : Op → Type}

-- None: an assertion fails, or memory is read that nobody has written.
def onlyIf {α β : Type} (found : Option α) (rest : α → Program Op Answer (Option β)) :
    Program Op Answer (Option β) :=
  match found with
  | none => return none
  | some value => rest value

def lockWork (size : UInt64 → UInt64) (backend : Backend Handle Op Answer) (req : LockRequest Handle) :
    Program Op Answer (LockRequest Handle) := do
  let result ← backend.waitForLock req.fd req.offset (size req.length) req.type
  return { req with result := result }

def downgradeLockWork (size : UInt64 → UInt64) (backend : Backend Handle Op Answer) (req : LockRequest Handle) :
    Program Op Answer (LockRequest Handle) := do
  let result ← backend.waitForDowngradeLock req.fd req.offset (size req.length)
  return { req with result := result }

def upgradeLockWork (size : UInt64 → UInt64) (backend : Backend Handle Op Answer) (req : LockRequest Handle) :
    Program Op Answer (LockRequest Handle) := do
  let result ← backend.waitForUpgradeLock req.fd req.offset (size req.length)
  return { req with result := result }

def trimWork (size : UInt64 → UInt64) (backend : Backend Handle Op Answer) (req : TrimRequest Handle) :
    Program Op Answer (TrimRequest Handle) := do
  let result ← backend.trim req.fd req.offset (size req.length)
  return { req with result := result }

def sparseWork (backend : Backend Handle Op Answer) (req : SparseRequest Handle) :
    Program Op Answer (SparseRequest Handle) := do
  let result ← backend.sparse req.fd
  return { req with result := result }

def swapWork (backend : Backend Handle Op Answer) (req : SwapRequest) : Program Op Answer (Option SwapRequest) :=
  onlyIf (readString req.source) fun source => onlyIf (readString req.target) fun target => do
    let result ← backend.swap source target
    return some { req with result := result }

def getAttrWork (backend : Backend Handle Op Answer) (req : GetAttrRequest Handle) :
    Program Op Answer (Option (GetAttrRequest Handle)) :=
  onlyIf (readString req.name) fun name => do
    let got ← backend.getAttr req.fd name req.value
    return some { req with result := got.1, value := got.2 }

def setAttrWork (backend : Backend Handle Op Answer) (req : SetAttrRequest Handle) :
    Program Op Answer (Option (SetAttrRequest Handle)) :=
  onlyIf (readString req.name) fun name => do
    let result ← backend.setAttr req.fd name req.value
    return some { req with result := result }

def removeAttrWork (backend : Backend Handle Op Answer) (req : RemoveAttrRequest Handle) :
    Program Op Answer (Option (RemoveAttrRequest Handle)) :=
  onlyIf (readString req.name) fun name => do
    let result ← backend.removeAttr req.fd name
    return some { req with result := result }

def listAttrsWork (backend : Backend Handle Op Answer) (req : ListAttrsRequest Handle) :
    Program Op Answer (Option (ListAttrsRequest Handle)) := do
  let listed ← backend.listAttrs req.fd req.table
  return listed.map fun listed => { req with result := listed.1, table := listed.2 }

end

def onStatus : Status → List JsValue
  | .error err => [.error err]
  | .ok () => [.null]

def onGetAttr {Handle : Type} (req : GetAttrRequest Handle) : List JsValue :=
  match req.result with
  | .error .ENODATA => [.null, .null]
  | .error err => [.error err, .null]
  | .ok () => [.null, .arrayBuffer req.value.contents]

def onRemoveAttr {Handle : Type} (req : RemoveAttrRequest Handle) : List JsValue :=
  match req.result with
  | .error .ENODATA => [.null]
  | .error err => [.error err]
  | .ok () => [.null]

def onListAttrs (engine : Engine) (req : ListAttrsRequest engine.Handle) : Option (List JsValue) :=
  match req.result with
  | .error err => some [.error err, .null]
  | .ok () => req.table.listed.map fun names => [.null, .array (names.map engine.string)]

-- `onwork` of `index.js`: of the values handed over only an error is truthy.
def onwork : List JsValue → Settled
  | .error err :: _ => .rejected err
  | _ :: result :: _ => .resolved result
  | _ => .resolved .undefined

def bufferFrom : JsValue → JsValue
  | .arrayBuffer contents => .buffer contents
  | value => value

def Settled.then (settled : Settled) (act : JsValue → JsValue) : Settled :=
  match settled with
  | .resolved value => .resolved (act value)
  | .rejected err => .rejected err

def thrown : Status → Returned
  | .error err => .threw err
  | .ok () => .returned .undefined

def lockType (exclusive : Bool) : LockType := if exclusive then .wrlock else .rdlock

section
variable {Op : Type} {Answer : Op → Type} (engine : Engine) (backend : Backend engine.Handle Op Answer)

-- The functions of `binding.c`: those that submit a request, with what its
-- worker and its completion make of it, and those that do not. A request starts
-- out zeroed. The first eight read a range.
def submitRange (offset length : Arg engine.Number) (work : UInt64 → UInt64 → Program Op Answer Status) :
    Program Op Answer (Option (List JsValue)) :=
  onlyIf (engine.getInt64 offset) fun offset => onlyIf (engine.getInt64 length) fun len => do
    let result ← work offset.toUInt64 (engine.size len.toUInt64)
    return some (onStatus result)

def callRange (offset length : Arg engine.Number) (operation : UInt64 → UInt64 → Program Op Answer Status) :
    Program Op Answer (Option Returned) :=
  onlyIf (engine.getInt64 offset) fun offset => onlyIf (engine.getInt64 length) fun len => do
    let err ← operation offset.toUInt64 (engine.size len.toUInt64)
    return some (thrown err)

def jsWaitForLock (fd : engine.Number) (offset length : Arg engine.Number) (exclusive : Bool) :
    Program Op Answer (Option (List JsValue)) :=
  submitRange engine offset length fun offset len => do
    let req ← lockWork engine.size backend ⟨engine.getOsfhandle fd, offset, len, lockType exclusive, .ok ()⟩
    return req.result

def jsWaitForLockSync (fd : engine.Number) (offset length : Arg engine.Number) (exclusive : Bool) :
    Program Op Answer (Option Returned) :=
  callRange engine offset length fun offset len =>
    backend.waitForLock (engine.getOsfhandle fd) offset len (lockType exclusive)

def jsWaitForDowngradeLock (fd : engine.Number) (offset length : Arg engine.Number) :
    Program Op Answer (Option (List JsValue)) :=
  submitRange engine offset length fun offset len => do
    let req ← downgradeLockWork engine.size backend ⟨engine.getOsfhandle fd, offset, len, .rdlock, .ok ()⟩
    return req.result

def jsWaitForDowngradeLockSync (fd : engine.Number) (offset length : Arg engine.Number) :
    Program Op Answer (Option Returned) :=
  callRange engine offset length fun offset len => backend.waitForDowngradeLock (engine.getOsfhandle fd) offset len

def jsWaitForUpgradeLock (fd : engine.Number) (offset length : Arg engine.Number) :
    Program Op Answer (Option (List JsValue)) :=
  submitRange engine offset length fun offset len => do
    let req ← upgradeLockWork engine.size backend ⟨engine.getOsfhandle fd, offset, len, .wrlock, .ok ()⟩
    return req.result

def jsWaitForUpgradeLockSync (fd : engine.Number) (offset length : Arg engine.Number) :
    Program Op Answer (Option Returned) :=
  callRange engine offset length fun offset len => backend.waitForUpgradeLock (engine.getOsfhandle fd) offset len

def jsTrim (fd : engine.Number) (offset length : Arg engine.Number) : Program Op Answer (Option (List JsValue)) :=
  submitRange engine offset length fun offset len => do
    let req ← trimWork engine.size backend ⟨engine.getOsfhandle fd, offset, len, .ok ()⟩
    return req.result

def jsTrimSync (fd : engine.Number) (offset length : Arg engine.Number) : Program Op Answer (Option Returned) :=
  callRange engine offset length fun offset len => backend.trim (engine.getOsfhandle fd) offset len

def jsSparse (fd : engine.Number) : Program Op Answer (Option (List JsValue)) := do
  let req ← sparseWork backend ⟨engine.getOsfhandle fd, .ok ()⟩
  return some (onStatus req.result)

def jsSparseSync (fd : engine.Number) : Program Op Answer (Option Returned) := do
  let err ← backend.sparse (engine.getOsfhandle fd)
  return some (thrown err)

def jsSwap (source target : JsString) : Program Op Answer (Option (List JsValue)) :=
  onlyIf (strdup (pathBuffer engine.writer source)) fun source =>
    onlyIf (strdup (pathBuffer engine.writer target)) fun target => do
      let done ← swapWork backend ⟨source, target, .ok ()⟩
      return done.map fun req => onStatus req.result

def jsSwapSync (source target : JsString) : Program Op Answer (Option Returned) :=
  onlyIf (readString (pathBuffer engine.writer source)) fun source =>
    onlyIf (readString (pathBuffer engine.writer target)) fun target => do
      let err ← backend.swap source target
      return some (thrown err)

def jsGetAttr (fd : engine.Number) (name : JsString) : Program Op Answer (Option (List JsValue)) :=
  onlyIf (strdup (nameBuffer engine.writer name)) fun name => do
    let done ← getAttrWork backend ⟨engine.getOsfhandle fd, name, ⟨none, 0⟩, .ok ()⟩
    return done.map onGetAttr

def jsGetAttrSync (fd : engine.Number) (name : JsString) : Program Op Answer (Option Returned) :=
  onlyIf (readString (nameBuffer engine.writer name)) fun name => do
    let (result, value) ← backend.getAttr (engine.getOsfhandle fd) name (uvBufInit none 0)
    match result with
    | .error .ENODATA => return some (.returned .null)
    | .error err => return some (.threw err)
    | .ok () => return some (.returned (.arrayBuffer value.contents))

def jsSetAttr (fd : engine.Number) (name : JsString) (value : View) : Program Op Answer (Option (List JsValue)) :=
  onlyIf (strdup (nameBuffer engine.writer name)) fun name => do
    let done ← setAttrWork backend ⟨engine.getOsfhandle fd, name, value.buf, .ok ()⟩
    return done.map fun req => onStatus req.result

def jsSetAttrSync (fd : engine.Number) (name : JsString) (value : View) : Program Op Answer (Option Returned) :=
  onlyIf (readString (nameBuffer engine.writer name)) fun name => do
    let result ← backend.setAttr (engine.getOsfhandle fd) name value.buf
    return some (thrown result)

def jsRemoveAttr (fd : engine.Number) (name : JsString) : Program Op Answer (Option (List JsValue)) :=
  onlyIf (strdup (nameBuffer engine.writer name)) fun name => do
    let done ← removeAttrWork backend ⟨engine.getOsfhandle fd, name, .ok ()⟩
    return done.map onRemoveAttr

def jsRemoveAttrSync (fd : engine.Number) (name : JsString) : Program Op Answer (Option Returned) :=
  onlyIf (readString (nameBuffer engine.writer name)) fun name => do
    let result ← backend.removeAttr (engine.getOsfhandle fd) name
    return some (thrown (if result = .error .ENODATA then .ok () else result))

def jsListAttrs (fd : engine.Number) : Program Op Answer (Option (List JsValue)) := do
  let done ← listAttrsWork backend ⟨engine.getOsfhandle fd, ⟨none, 0⟩, .ok ()⟩
  return done.bind (onListAttrs engine)

def jsListAttrsSync (fd : engine.Number) : Program Op Answer (Option Returned) := do
  let listed ← backend.listAttrs (engine.getOsfhandle fd) ⟨none, 0⟩
  onlyIf listed fun (result, table) =>
    match result with
    | .error err => return some (.threw err)
    | .ok () => return table.listed.map fun names => .returned (.array (names.map engine.string))

end

section
variable {Op : Type} {Answer : Op → Type} (engine : Engine) (backend : Backend engine.Handle Op Answer)

def orZero : Arg engine.Number → Arg engine.Number
  | .undefined => .number engine.zero
  | arg => arg

def isObject {Number : Type} : Arg Number → Bool
  | .null | .options _ => true
  | _ => false

def isShared {Number : Type} : Arg Number → Bool
  | .options shared => shared
  | _ => false

def lockArguments (offset length opts : Arg engine.Number) : Arg engine.Number × Arg engine.Number × Bool :=
  let offset := orZero engine offset
  let length := orZero engine length
  let opts := if isObject offset then offset else opts
  let opts := if isObject length then length else opts
  (if isObject offset then .number engine.zero else offset, if isObject length then .number engine.zero else length,
    !isShared opts)

def valueView : AttrValue engine.Encoding → View
  | .bytes view => view
  | .text value encoding => engine.encode value encoding

def promise (work : Program Op Answer (Option (List JsValue))) : Program Op Answer (Option Settled) := do
  return (← work).map onwork

def waitForLock (fd : engine.Number) (offset length opts : Arg engine.Number) : Program Op Answer (Option Settled) :=
  let (offset, length, exclusive) := lockArguments engine offset length opts
  promise (jsWaitForLock engine backend fd offset length exclusive)

def waitForLockSync (fd : engine.Number) (offset length opts : Arg engine.Number) :
    Program Op Answer (Option Returned) :=
  let (offset, length, exclusive) := lockArguments engine offset length opts
  jsWaitForLockSync engine backend fd offset length exclusive

def waitForDowngradeLock (fd : engine.Number) (offset length : Arg engine.Number) :
    Program Op Answer (Option Settled) :=
  promise (jsWaitForDowngradeLock engine backend fd (orZero engine offset) (orZero engine length))

def waitForDowngradeLockSync (fd : engine.Number) (offset length : Arg engine.Number) :
    Program Op Answer (Option Returned) :=
  jsWaitForDowngradeLockSync engine backend fd (orZero engine offset) (orZero engine length)

def waitForUpgradeLock (fd : engine.Number) (offset length : Arg engine.Number) : Program Op Answer (Option Settled) :=
  promise (jsWaitForUpgradeLock engine backend fd (orZero engine offset) (orZero engine length))

def waitForUpgradeLockSync (fd : engine.Number) (offset length : Arg engine.Number) :
    Program Op Answer (Option Returned) :=
  jsWaitForUpgradeLockSync engine backend fd (orZero engine offset) (orZero engine length)

def trim (fd : engine.Number) (offset length : Arg engine.Number) : Program Op Answer (Option Settled) :=
  promise (jsTrim engine backend fd offset length)

def trimSync (fd : engine.Number) (offset length : Arg engine.Number) : Program Op Answer (Option Returned) :=
  jsTrimSync engine backend fd offset length

def sparse (fd : engine.Number) : Program Op Answer (Option Settled) :=
  if engine.isWindows then promise (jsSparse engine backend fd) else return some (.resolved .undefined)

def sparseSync (fd : engine.Number) : Program Op Answer (Option Returned) :=
  if engine.isWindows then jsSparseSync engine backend fd else return some (.returned .undefined)

def swap (source target : JsString) : Program Op Answer (Option Settled) :=
  promise (jsSwap engine backend source target)

def swapSync (source target : JsString) : Program Op Answer (Option Returned) :=
  jsSwapSync engine backend source target

def getAttr (fd : engine.Number) (name : JsString) : Program Op Answer (Option Settled) := do
  return (← promise (jsGetAttr engine backend fd name)).map (·.then bufferFrom)

def getAttrSync (fd : engine.Number) (name : JsString) : Program Op Answer (Option Returned) := do
  let buffer ← jsGetAttrSync engine backend fd name
  return buffer.map fun
    | .returned value => .returned (bufferFrom value)
    | .threw err => .threw err

def setAttr (fd : engine.Number) (name : JsString) (value : AttrValue engine.Encoding) :
    Program Op Answer (Option Settled) :=
  promise (jsSetAttr engine backend fd name (valueView engine value))

def setAttrSync (fd : engine.Number) (name : JsString) (value : AttrValue engine.Encoding) :
    Program Op Answer (Option Returned) :=
  jsSetAttrSync engine backend fd name (valueView engine value)

def removeAttr (fd : engine.Number) (name : JsString) : Program Op Answer (Option Settled) :=
  promise (jsRemoveAttr engine backend fd name)

def removeAttrSync (fd : engine.Number) (name : JsString) : Program Op Answer (Option Returned) :=
  jsRemoveAttrSync engine backend fd name

def listAttrs (fd : engine.Number) : Program Op Answer (Option Settled) := promise (jsListAttrs engine backend fd)

def listAttrsSync (fd : engine.Number) : Program Op Answer (Option Returned) := jsListAttrsSync engine backend fd

end

inductive Call (Number Encoding : Type) where
  | waitForLock (fd : Number) (offset length opts : Arg Number)
  | waitForDowngradeLock (fd : Number) (offset length : Arg Number)
  | waitForUpgradeLock (fd : Number) (offset length : Arg Number)
  | trim (fd : Number) (offset length : Arg Number)
  | sparse (fd : Number)
  | swap (source target : JsString)
  | getAttr (fd : Number) (name : JsString)
  | setAttr (fd : Number) (name : JsString) (value : AttrValue Encoding)
  | removeAttr (fd : Number) (name : JsString)
  | listAttrs (fd : Number)

section
variable {Op : Type} {Answer : Op → Type} (engine : Engine) (backend : Backend engine.Handle Op Answer)

def Call.async : Call engine.Number engine.Encoding → Program Op Answer (Option Settled)
  | .waitForLock fd offset length opts => Forms.waitForLock engine backend fd offset length opts
  | .waitForDowngradeLock fd offset length => Forms.waitForDowngradeLock engine backend fd offset length
  | .waitForUpgradeLock fd offset length => Forms.waitForUpgradeLock engine backend fd offset length
  | .trim fd offset length => Forms.trim engine backend fd offset length
  | .sparse fd => Forms.sparse engine backend fd
  | .swap source target => Forms.swap engine backend source target
  | .getAttr fd name => Forms.getAttr engine backend fd name
  | .setAttr fd name value => Forms.setAttr engine backend fd name value
  | .removeAttr fd name => Forms.removeAttr engine backend fd name
  | .listAttrs fd => Forms.listAttrs engine backend fd

def Call.sync : Call engine.Number engine.Encoding → Program Op Answer (Option Returned)
  | .waitForLock fd offset length opts => waitForLockSync engine backend fd offset length opts
  | .waitForDowngradeLock fd offset length => waitForDowngradeLockSync engine backend fd offset length
  | .waitForUpgradeLock fd offset length => waitForUpgradeLockSync engine backend fd offset length
  | .trim fd offset length => trimSync engine backend fd offset length
  | .sparse fd => sparseSync engine backend fd
  | .swap source target => swapSync engine backend source target
  | .getAttr fd name => getAttrSync engine backend fd name
  | .setAttr fd name value => setAttrSync engine backend fd name value
  | .removeAttr fd name => removeAttrSync engine backend fd name
  | .listAttrs fd => listAttrsSync engine backend fd

end

theorem size_size (engine : Engine) (value : UInt64) : engine.size (engine.size value) = engine.size value := by
  have inside : value.toNat % 2 ^ engine.sizeBits < 2 ^ 64 := Nat.lt_of_le_of_lt (Nat.mod_le _ _) value.toNat_lt
  rw [Engine.size, Engine.size, UInt64.toNat_ofNat_of_lt' inside, Nat.mod_mod]

section
variable {Op : Type} {Answer : Op → Type} {α β : Type}

def Agrees (async : Program Op Answer (Option Settled)) (sync : Program Op Answer (Option Returned)) : Prop :=
  async = sync >>= fun outcome => .ret (outcome.map Returned.settled)

theorem agrees_only_if (found : Option α) (async : α → Program Op Answer (Option (List JsValue)))
    (sync : α → Program Op Answer (Option Returned))
    (each : ∀ value, Agrees (promise (async value)) (sync value)) :
    Agrees (promise (onlyIf found async)) (onlyIf found sync) := by
  cases found with
  | none => rfl
  | some value => exact each value

theorem agrees_copied (block : Block) (async : Block → Program Op Answer (Option (List JsValue)))
    (sync : CString → Program Op Answer (Option Returned))
    (each : ∀ copy string, readString copy = some string → Agrees (promise (async copy)) (sync string)) :
    Agrees (promise (onlyIf (strdup block) async)) (onlyIf (readString block) sync) := by
  have queued := queued_path block
  cases copied : strdup block with
  | none =>
      rw [copied] at queued
      rw [← queued]
      rfl
  | some copy =>
      rw [copied, Option.bind_some] at queued
      cases read : readString block with
      | none => rw [strdup, read] at copied; cases copied
      | some string => exact each copy string (queued.trans read)

theorem agrees_work (work : Program Op Answer α) (fill : α → β) (argv : β → Option (List JsValue))
    (rest : α → Program Op Answer (Option Returned))
    (each : ∀ result, Agrees (.ret ((argv (fill result)).map onwork)) (rest result)) :
    Agrees (promise ((work >>= fun result => .ret (fill result)) >>= fun req => .ret (argv req))) (work >>= rest) := by
  rw [Agrees, promise, Program.bind_bind, Program.bind_bind, Program.bind_bind]
  exact congrArg (work >>= ·) (funext each)

theorem agrees_settled (argv : List JsValue) (outcome : Returned) (same : onwork argv = outcome.settled) :
    Agrees (.ret ((some argv).map onwork) : Program Op Answer (Option Settled)) (.ret (some outcome)) := by
  rw [Agrees, Option.map_some, same]
  rfl

theorem on_status_settled (result : Status) : onwork (onStatus result) = (thrown result).settled := by
  cases result with
  | error err => rfl
  | ok done => rfl

theorem on_remove_attr_settled {Handle : Type} (req : RemoveAttrRequest Handle) :
    onwork (onRemoveAttr req) = (thrown (if req.result = .error .ENODATA then .ok () else req.result)).settled := by
  rw [onRemoveAttr]
  split
  next missing => rw [missing, if_pos rfl]; rfl
  next err failed other => rw [other, if_neg (fun same => failed (Except.error.inj same))]; rfl
  next removed => rw [removed]; rfl

end

section
variable {Op : Type} {Answer : Op → Type} (engine : Engine) (backend : Backend engine.Handle Op Answer)

theorem range_agrees (offset length : Arg engine.Number) (work operation : UInt64 → UInt64 → Program Op Answer Status)
    (same : ∀ offset len, work offset (engine.size len) = operation offset (engine.size len)) :
    Agrees (promise (submitRange engine offset length work)) (callRange engine offset length operation) := by
  refine agrees_only_if _ _ _ fun offset => agrees_only_if _ _ _ fun len => ?_
  rw [same, Agrees, promise, Program.bind_bind, Program.bind_bind]
  refine congrArg (operation _ _ >>= ·) (funext fun result => ?_)
  exact agrees_settled _ _ (on_status_settled result)

theorem wait_for_lock_agrees (fd : engine.Number) (offset length opts : Arg engine.Number) :
    Agrees (waitForLock engine backend fd offset length opts)
      (waitForLockSync engine backend fd offset length opts) := by
  rw [waitForLock, waitForLockSync]
  rcases lockArguments engine offset length opts with ⟨offset, length, exclusive⟩
  refine range_agrees engine _ _ _ _ fun offset len => ?_
  rw [lockWork, size_size]
  exact Program.bind_taken _ _ _ fun result => rfl

theorem wait_for_downgrade_lock_agrees (fd : engine.Number) (offset length : Arg engine.Number) :
    Agrees (waitForDowngradeLock engine backend fd offset length)
      (waitForDowngradeLockSync engine backend fd offset length) := by
  refine range_agrees engine _ _ _ _ fun offset len => ?_
  rw [downgradeLockWork, size_size]
  exact Program.bind_taken _ _ _ fun result => rfl

theorem wait_for_upgrade_lock_agrees (fd : engine.Number) (offset length : Arg engine.Number) :
    Agrees (waitForUpgradeLock engine backend fd offset length)
      (waitForUpgradeLockSync engine backend fd offset length) := by
  refine range_agrees engine _ _ _ _ fun offset len => ?_
  rw [upgradeLockWork, size_size]
  exact Program.bind_taken _ _ _ fun result => rfl

theorem trim_agrees (fd : engine.Number) (offset length : Arg engine.Number) :
    Agrees (trim engine backend fd offset length) (trimSync engine backend fd offset length) := by
  refine range_agrees engine _ _ _ _ fun offset len => ?_
  rw [trimWork, size_size]
  exact Program.bind_taken _ _ _ fun result => rfl

theorem sparse_agrees (fd : engine.Number) : Agrees (sparse engine backend fd) (sparseSync engine backend fd) := by
  rw [sparse, sparseSync]
  by_cases windows : engine.isWindows
  · rw [if_pos windows, if_pos windows]
    exact agrees_work _ _ _ _ fun result => agrees_settled _ _ (on_status_settled result)
  · rw [if_neg windows, if_neg windows]
    rfl

theorem swap_agrees (source target : JsString) :
    Agrees (swap engine backend source target) (swapSync engine backend source target) := by
  refine agrees_copied _ _ _ fun sourceCopy source readSource => ?_
  refine agrees_copied _ _ _ fun targetCopy target readTarget => ?_
  simp only [swapWork, readSource, readTarget, onlyIf]
  exact agrees_work _ _ _ _ fun result => agrees_settled _ _ (on_status_settled result)

theorem js_get_attr_agrees (fd : engine.Number) (name : JsString) :
    Agrees (promise (jsGetAttr engine backend fd name)) (jsGetAttrSync engine backend fd name) := by
  refine agrees_copied _ _ _ fun copy name read => ?_
  simp only [getAttrWork, read, onlyIf]
  refine agrees_work _ _ _ _ fun got => ?_
  obtain ⟨result, value⟩ := got
  cases result with
  | error err => cases err <;> rfl
  | ok done => rfl

theorem get_attr_agrees (fd : engine.Number) (name : JsString) :
    Agrees (getAttr engine backend fd name) (getAttrSync engine backend fd name) := by
  rw [Agrees, getAttr, getAttrSync, js_get_attr_agrees, Program.bind_bind, Program.bind_bind]
  refine congrArg (jsGetAttrSync engine backend fd name >>= ·) (funext fun outcome => ?_)
  cases outcome with
  | none => rfl
  | some outcome =>
      cases outcome with
      | returned value => rfl
      | threw err => rfl

theorem set_attr_agrees (fd : engine.Number) (name : JsString) (value : AttrValue engine.Encoding) :
    Agrees (setAttr engine backend fd name value) (setAttrSync engine backend fd name value) := by
  refine agrees_copied _ _ _ fun copy name read => ?_
  simp only [setAttrWork, read, onlyIf]
  exact agrees_work _ _ _ _ fun result => agrees_settled _ _ (on_status_settled result)

theorem remove_attr_agrees (fd : engine.Number) (name : JsString) :
    Agrees (removeAttr engine backend fd name) (removeAttrSync engine backend fd name) := by
  refine agrees_copied _ _ _ fun copy name read => ?_
  simp only [removeAttrWork, read, onlyIf]
  exact agrees_work _ _ _ _ fun result => agrees_settled _ _ (on_remove_attr_settled _)

theorem list_attrs_agrees (fd : engine.Number) :
    Agrees (listAttrs engine backend fd) (listAttrsSync engine backend fd) := by
  refine agrees_work _ _ _ _ fun listed => ?_
  cases listed with
  | none => rfl
  | some listed =>
      obtain ⟨result, table⟩ := listed
      cases result with
      | error err => rfl
      | ok done =>
          change Agrees (.ret ((table.listed.map _).map onwork)) (.ret (table.listed.map _))
          cases table.listed with
          | none => rfl
          | some names => rfl

end

end FsExt.Binding.Forms
