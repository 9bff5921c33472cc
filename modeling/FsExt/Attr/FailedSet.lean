import FsExt.Attr.RoundTrip

set_option autoImplicit false

namespace FsExt.Attr

open Sys

theorem failed_xattr_set_keeps (platform : Platform) (name : CString) (value : UvBuf) (file : AttrFile) :
    Program.Ensures (xattrCalls platform) (fun _ _ => True) (setAttr name value) file fun status final =>
      status ≠ .ok () → final = file := by
  refine ⟨trivial, fun result final step failed => ?_⟩
  rcases step with ⟨same, _⟩ | ⟨_, stored, _⟩
  · exact same
  · have succeeds : narrow result.res ≠ -1 := by
      rw [stored.1]
      decide
    exact absurd (if_neg succeeds) failed

namespace Windows

-- How the two calls of a set that can fail go: whether the open is refused, how
-- many bytes the write gets to the stream, and whether it then reports a failure.
structure SetPlan where
  refused : Option NtError
  written : Nat
  failure : Option NtError

def known (content : Block) : List UInt8 :=
  content.filterMap fun
    | .byte value => some value
    | _ => none

@[simp] theorem known_bytes (values : List UInt8) : known (bytes values) = values := by
  induction values with
  | nil => rfl
  | cons value rest ih => exact congrArg (value :: ·) ih

section
variable (naming : StreamNaming) (plan : SetPlan)

def granted (path : List UInt16) (file : NtFile) : Option Stream :=
  match plan.refused, naming.opens path with
  | none, some stream => if (file.put stream []).content stream = none then none else some stream
  | _, _ => none

def planned : Program.Handler NtOp NtAnswer NtFile
  | .openFile path _, file =>
      match naming.opens path with
      | none => (.error .other, file)
      | some stream => if file.content stream = none then (.error .objectNameNotFound, file) else (.ok stream, file)
  | .createFile path, file =>
      match granted naming plan path file with
      | none => (.error .other, file)
      | some stream => (.ok stream, file.put stream [])
  | .queryEndOfFile handle, file =>
      match file.content handle with
      | none => (.error .other, file)
      | some content => (.ok content.length, file)
  | .readFile handle length, file =>
      match file.content handle with
      | none => (.error .other, file)
      | some content => (.ok (content.take length), file)
  | .writeFile handle content, file =>
      let stored := (known content).take plan.written
      let left := stored ++ ((file.content handle).getD []).drop stored.length
      (match plan.failure with
        | some err => .error err
        | none => .ok stored.length, file.put handle left)
  | .deleteFile path, file =>
      match naming.opens path with
      | none => (.error .other, file)
      | some stream =>
          if file.content stream = none then (.error .objectNameNotFound, file) else (.ok (), file.remove stream)
  | .close _, file => ((), file)

def readBack (name : CString) (file : NtFile) : AttrOutcome :=
  (Program.run (planned naming plan) (getAttrOutcome name) file).1

def FailedSetKeeps (name : CString) (view : View) (file : NtFile) : Prop :=
  let result := Program.run (planned naming plan) (setAttr name view.buf) file
  result.1 ≠ .ok () → readBack naming plan name result.2 = readBack naming plan name file

def LosesNothing (name : CString) (view : View) (file : NtFile) : Prop :=
  match streamName name with
  | .error _ => True
  | .ok path =>
      match granted naming plan path file with
      | none => True
      | some stream =>
          (plan.failure = none ∧ view.stored.length ≤ plan.written) ∨
            file.content stream = some (view.stored.take plan.written)

end

def shownContent : Option (List UInt8) → AttrOutcome
  | none => .null
  | some content => if content.length < 2 ^ 32 then .buffer (bytes content) else .error UvError.EIO

theorem shown_content_iff (content : Option (List UInt8)) (read : List UInt8) (small : read.length < 2 ^ 32) :
    shownContent (some read) = shownContent content ↔ content = some read := by
  rw [shownContent, if_pos small]
  cases content with
  | none => exact ⟨fun same => (by cases same), fun same => (by cases same)⟩
  | some other =>
      rw [shownContent]
      split
      · rw [AttrOutcome.buffer.injEq, Option.some.injEq]
        exact ⟨fun same => (bytes_injective read other same).symm, fun same => by rw [same]⟩
      · rename_i big
        refine ⟨fun same => (by cases same), fun same => ?_⟩
        rw [Option.some.inj same] at big
        exact absurd small big

section
variable (naming : StreamNaming) (plan : SetPlan) (name : CString) (path : List UInt16) (stream : Stream)

theorem run_get_absent (value : UvBuf) (named : streamName name = .ok path) (opened : naming.opens path = some stream)
    (file : NtFile) (gone : file.content stream = none) :
    Program.run (planned naming plan) (getAttr name value) file = ((.error .ENODATA, value), file) := by
  simp only [getAttr, named]
  have missing : planned naming plan (.openFile path .read) file =
      ((.error .objectNameNotFound : Except NtError Stream), file) := by
    simp only [planned, opened]
    exact if_pos gone
  exact Program.run_step _ _ _ _ _ _ _ missing rfl

theorem run_get_held (value : UvBuf) (named : streamName name = .ok path) (opened : naming.opens path = some stream)
    (file : NtFile) (content : List UInt8) (held : file.content stream = some content) :
    let buf := uvBufInit (malloc content.length) content.length
    Program.run (planned naming plan) (getAttr name value) file =
      ((if (content.take buf.len).length ≠ content.length then .error UvError.EIO else .ok (),
        buf.fill (content.take buf.len)), file) := by
  intro buf
  simp only [getAttr, named]
  have opens : planned naming plan (.openFile path .read) file = ((.ok stream : Except NtError Stream), file) := by
    simp only [planned, opened]
    exact if_neg (by rw [held]; exact Option.some_ne_none content)
  have sized : planned naming plan (.queryEndOfFile stream) file = ((.ok content.length : Except NtError Nat), file) := by
    simp only [planned, held]
  have read : planned naming plan (.readFile stream buf.len) file =
      ((.ok (content.take buf.len) : Except NtError (List UInt8)), file) := by
    simp only [planned, held]
  refine Program.run_step _ _ _ _ _ _ _ opens ?_
  refine Program.run_step _ _ _ _ _ _ _ sized ?_
  refine Program.run_step _ _ _ _ _ _ _ read ?_
  exact Program.run_step _ _ _ _ _ () _ rfl rfl

theorem read_back_content (named : streamName name = .ok path) (opened : naming.opens path = some stream)
    (file : NtFile) : readBack naming plan name file = shownContent (file.content stream) := by
  have shown : readBack naming plan name file =
      shownAttr (Program.run (planned naming plan) (getAttr name (uvBufInit none 0)) file).1 :=
    congrArg Prod.fst (Program.run_bind (planned naming plan) (getAttr name (uvBufInit none 0)) _ file)
  rw [shown]
  cases held : file.content stream with
  | none => rw [run_get_absent naming plan name path stream _ named opened file held]; rfl
  | some content =>
      rw [run_get_held naming plan name path stream _ named opened file content held]
      have len : (uvBufInit (malloc content.length) content.length).len = content.length % 2 ^ 32 := by
        simp only [uvBufInit]
        omega
      by_cases small : content.length < 2 ^ 32
      · have whole : (content.take (uvBufInit (malloc content.length) content.length).len).length = content.length := by
          rw [List.length_take, len, Nat.mod_eq_of_lt small, Nat.min_self]
        rw [shownContent, if_pos small, ← read_whole content whole, if_neg (not_not.mpr whole)]
        rfl
      · have short : (content.take (uvBufInit (malloc content.length) content.length).len).length ≠ content.length := by
          rw [List.length_take, len]
          omega
        rw [shownContent, if_neg small, if_pos short]
        rfl

theorem granted_empty (file : NtFile) (create : granted naming plan path file = some stream) :
    naming.opens path = some stream ∧ (file.put stream []).content stream = some [] := by
  rw [granted] at create
  split at create
  · rename_i opened
    split at create
    · cases create
    · rename_i there
      obtain rfl := Option.some.inj create
      obtain ⟨old, some_⟩ := Option.ne_none_iff_exists'.mp there
      rw [some_, NtFile.put_empty file _ old some_]
      exact ⟨opened, rfl⟩
  · cases create

theorem run_set_granted (view : View) (file : NtFile) (named : streamName name = .ok path)
    (create : granted naming plan path file = some stream) :
    Program.run (planned naming plan) (setAttr name view.buf) file =
      (if plan.failure = none ∧ view.stored.length ≤ plan.written then .ok () else .error UvError.EIO,
        (file.put stream []).put stream (view.stored.take plan.written)) := by
  have held := (granted_empty naming plan path stream file create).2
  have len : view.buf.len = view.stored.length := by
    rw [view_stored_length]
    simp only [View.buf, uvBufInit]
    omega
  have creates : planned naming plan (.createFile path) file =
      ((.ok stream : Except NtError Stream), file.put stream []) := by
    simp only [planned, create]
  have leaves : (planned naming plan (.writeFile stream view.buf.contents) (file.put stream [])).2 =
      (file.put stream []).put stream (view.stored.take plan.written) := by
    simp only [planned, held, view_contents, known_bytes, View.stored, Option.getD_some, List.drop_nil, List.append_nil]
  simp only [setAttr, named]
  refine Program.run_step _ _ _ _ _ _ _ creates ?_
  cases failed : plan.failure with
  | some err =>
      have fails : planned naming plan (.writeFile stream view.buf.contents) (file.put stream []) =
          ((.error err : Except NtError Nat), (file.put stream []).put stream (view.stored.take plan.written)) := by
        rw [← leaves]
        simp only [planned, failed]
      refine Program.run_step _ _ _ _ _ _ _ fails ?_
      rw [if_neg (by simp)]
      exact Program.run_step _ _ _ _ _ () _ rfl rfl
  | none =>
      have counts : planned naming plan (.writeFile stream view.buf.contents) (file.put stream []) =
          ((.ok (view.stored.take plan.written).length : Except NtError Nat),
            (file.put stream []).put stream (view.stored.take plan.written)) := by
        rw [← leaves]
        simp only [planned, failed, view_contents, known_bytes, View.stored]
      refine Program.run_step _ _ _ _ _ _ _ counts ?_
      refine Program.run_step _ _ _ _ _ () _ rfl ?_
      simp only [Program.pure_eq_ret, Program.run_ret, len, List.length_take]
      by_cases all : view.stored.length ≤ plan.written
      · rw [if_neg (by omega), if_pos ⟨trivial, all⟩]
      · rw [if_pos (by omega), if_neg (fun both => all both.2)]

theorem set_keeps_iff (view : View) (file : NtFile) :
    FailedSetKeeps naming plan name view file ↔ LosesNothing naming plan name view file := by
  rw [FailedSetKeeps, LosesNothing]
  cases named : streamName name with
  | error err =>
      have rejected : Program.run (planned naming plan) (setAttr name view.buf) file = (.error err, file) := by
        simp only [setAttr, named]
        rfl
      rw [rejected]
      exact iff_of_true (fun _ => rfl) trivial
  | ok path =>
      cases create : granted naming plan path file with
      | none =>
          simp only [create]
          have creates : planned naming plan (.createFile path) file = ((.error .other : Except NtError Stream), file) := by
            simp only [planned, create]
          have refused : Program.run (planned naming plan) (setAttr name view.buf) file =
              (.error UvError.EIO, file) := by
            simp only [setAttr, named]
            exact Program.run_step _ _ _ _ _ _ _ creates rfl
          rw [refused]
          exact iff_of_true (fun _ => rfl) trivial
      | some stream =>
          simp only [create]
          obtain ⟨opened, emptied⟩ := granted_empty naming plan path stream file create
          have small : (view.stored.take plan.written).length < 2 ^ 32 := by
            rw [List.length_take, view_stored_length]
            have less : view.byteLength % 2 ^ 32 < 2 ^ 32 := Nat.mod_lt _ (by decide)
            omega
          rw [run_set_granted naming plan name path stream view file named create,
            read_back_content naming plan name path stream named opened,
            read_back_content naming plan name path stream named opened,
            NtFile.put_content _ stream _ (by rw [emptied]; exact Option.some_ne_none _),
            shown_content_iff _ _ small]
          by_cases whole : plan.failure = none ∧ view.stored.length ≤ plan.written
          · rw [if_pos whole]
            exact iff_of_true (fun failed => absurd rfl failed) (.inl whole)
          · rw [if_neg whole]
            exact ⟨fun keeps => .inr (keeps fun same => by cases same), fun kept _ => kept.resolve_left whole⟩

end

end Windows

theorem failed_set_keeps_iff (platform : Platform) (naming : Windows.StreamNaming) (plan : Windows.SetPlan)
    (name : CString) (view : View) (attrs : AttrFile) (file : Windows.NtFile) :
    (Program.Ensures (xattrCalls platform) (fun _ _ => True) (setAttr name view.buf) attrs
      fun status final => status ≠ .ok () → final = attrs) ∧
    (Windows.FailedSetKeeps naming plan name view file ↔ Windows.LosesNothing naming plan name view file) :=
  ⟨failed_xattr_set_keeps platform name view.buf attrs, Windows.set_keeps_iff naming plan name view file⟩

theorem failed_set_loses_old_value :
    let file : Windows.NtFile := ⟨true, [], fun _ => some [7]⟩
    ¬ Windows.FailedSetKeeps Windows.documentedNaming ⟨none, 1, some .other⟩ (utf8 "a".toList) twoBytes file := by
  intro file keeps
  have loses := (Windows.set_keeps_iff _ _ _ _ _).mp keeps
  have named : Windows.streamName (utf8 "a".toList) = .ok (Windows.colon :: utf16 "a".toList) := by
    simp only [Windows.streamName, Windows.multiByteToWideChar, decode_utf8]
    decide
  have create : Windows.granted Windows.documentedNaming ⟨none, 1, some .other⟩ (Windows.colon :: utf16 "a".toList)
      file = some (.named (utf16 "a".toList)) := by
    decide
  simp only [Windows.LosesNothing, named, create] at loses
  revert loses
  decide

end FsExt.Attr
