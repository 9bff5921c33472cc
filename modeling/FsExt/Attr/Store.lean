import FsExt.Attr.RoundTrip
import FsExt.Sys.Linear

set_option autoImplicit false

namespace FsExt.Attr

open Sys

inductive Request where
  | get (name : CString)
  | set (name : CString) (view : View)
  | remove (name : CString)

inductive Response where
  | got (outcome : AttrOutcome)
  | done (status : Status)

def Request.name : Request → CString
  | .get name | .set name _ | .remove name => name

def Request.failed : Request → UvError → Response
  | .get _, err => .got (.error err)
  | .set _ _, err | .remove _, err => .done (.error err)

structure Terms (K : Type) where
  key : CString → Except UvError K
  may : UvError → Prop
  spoils : Prop

inductive Serves {K : Type} [DecidableEq K] (terms : Terms K) : Spec Request Response (K → Option (List UInt8)) where
  | found (name : CString) (k : K) (store : K → Option (List UInt8)) (value : List UInt8)
      (keyed : terms.key name = .ok k) (held : store k = some value) :
      Serves terms (.get name) store (.got (.buffer (bytes value))) store
  | absent (name : CString) (k : K) (store : K → Option (List UInt8)) (keyed : terms.key name = .ok k)
      (gone : store k = none) : Serves terms (.get name) store (.got .null) store
  | set (name : CString) (k : K) (view : View) (store : K → Option (List UInt8)) (keyed : terms.key name = .ok k) :
      Serves terms (.set name view) store (.done (.ok ())) (Function.update store k (some view.content))
  | removed (name : CString) (k : K) (store : K → Option (List UInt8)) (keyed : terms.key name = .ok k) :
      Serves terms (.remove name) store (.done (.ok ())) (Function.update store k none)
  | invalid (request : Request) (store : K → Option (List UInt8)) (err : UvError)
      (unkeyed : terms.key request.name = .error err) : Serves terms request store (request.failed err) store
  | failed (request : Request) (store : K → Option (List UInt8)) (err : UvError) (trouble : terms.may err) :
      Serves terms request store (request.failed err) store
  | spoilt (name : CString) (k : K) (view : View) (store : K → Option (List UInt8)) (err : UvError)
      (left : Option (List UInt8)) (keyed : terms.key name = .ok k) (trouble : terms.may err) (spoils : terms.spoils) :
      Serves terms (.set name view) store (.done (.error err)) (Function.update store k left)

def shownRemoval (status : Status) : Status := if status = .error .ENODATA then .ok () else status

inductive AttrOp where
  | xattr (op : XattrOp)
  | fremovexattr (name : CString)

abbrev AttrAnswer (_ : AttrOp) : Type := XattrResult

abbrev AttrProgram (α : Type) := Program AttrOp AttrAnswer α

def fremovexattr (name : CString) : AttrProgram XattrResult := Program.perform (AttrOp.fremovexattr name)

def byXattr {α : Type} (program : XattrProgram α) : AttrProgram α :=
  Program.through AttrOp.xattr (fun _ result => result) program

-- `fs_ext__remove_attr` of both systems. macOS returns UV_ENODATA for ENOATTR, as
-- it does after the size query of a get.
def removeAttr (platform : Platform) (name : CString) : AttrProgram Status := do
  let result ← fremovexattr name
  return if narrow result.res = -1 then sizeError platform result.errno else .ok ()

def Request.program (platform : Platform) : Request → AttrProgram Response
  | .get name => do return .got (← byXattr (getAttrOutcome platform name))
  | .set name view => do return .done (← byXattr (setAttr name view.buf))
  | .remove name => do return .done (shownRemoval (← removeAttr platform name))

def AttrFile.Clears (file file' : AttrFile) (name : CString) : Prop :=
  file'.lookup name = none ∧ ∀ other, other ≠ name → file'.lookup other = file.lookup other

def AttrFile.Bounded (may : UvError → Prop) (file : AttrFile) : Prop :=
  ∀ trouble, file.trouble = some trouble → may trouble.err

def removeCall (platform : Platform) (may : UvError → Prop) (name : CString) (file : AttrFile) (result : XattrResult)
    (file' : AttrFile) : Prop :=
  match file.trouble with
  | some trouble => result.Reports (.error trouble.err) ∧ file' = file
  | none =>
      match file.lookup name with
      | none => result.Reports (.error (missing platform)) ∧ file' = file
      | some _ =>
          (file' = file ∧ ∃ trouble : Trouble, may trouble.err ∧ result.Reports (.error trouble.err)) ∨
            (result.Reports (.ok (0, [])) ∧ file.Clears file' name)

def keptCalls (platform : Platform) (may : UvError → Prop) : Program.Semantics AttrOp AttrAnswer AttrFile :=
  fun op file result file' => file'.Bounded may ∧
    match op with
    | .xattr (.fsetxattr name content) =>
        xattrCalls platform (.fsetxattr name content) file result file' ∧ ∀ err, result.Reports (.error err) → may err
    | .xattr op => xattrCalls platform op file result file'
    | .fremovexattr name => removeCall platform may name file result file'

def AttrOp.Keeps (kept : CString → Prop) : AttrOp → Prop
  | .xattr (.fgetxattr name _ _) | .xattr (.fsetxattr name _) | .fremovexattr name => kept name
  | .xattr (.flistxattr _ _) => True

-- `kept` are the names that the file system stores a value for as it was set. What
-- it does under another one, such as that of an access control list, is its own affair.
def attrCalls (kept : CString → Prop) (platform : Platform) (may : UvError → Prop) :
    Program.Semantics AttrOp AttrAnswer AttrFile :=
  fun op file result file' => (op.Keeps kept → keptCalls platform may op file result file') ∧
    (¬ op.Keeps kept → file'.Bounded may ∧ ∀ name, kept name → file'.lookup name = file.lookup name)

def Drifts (may : UvError → Prop) (file file' : AttrFile) : Prop :=
  (∀ name, file'.lookup name = file.lookup name) ∧ file'.Bounded may

def xattrTerms (may : UvError → Prop) : Terms CString := ⟨.ok, may, False⟩

def Request.Small : Request → Prop
  | .set _ view => view.byteLength < 2 ^ 31
  | _ => True

structure Request.Fits (kept : CString → Prop) (request : Request) : Prop where
  kept : kept request.name
  small : request.Small

def AttrFile.Small (file : AttrFile) : Prop := ∀ name value, file.lookup name = some value → value.length < 2 ^ 31

structure Sound (may : UvError → Prop) (file : AttrFile) : Prop where
  bounded : file.Bounded may
  small : file.Small

def AttrOp.changes : AttrOp → Option CString
  | .xattr (.fsetxattr name _) | .fremovexattr name => some name
  | _ => none

-- To change an attribute while somebody else is between the two calls of a get.
def Disturbs (platform : Platform) (op : AttrOp) (request : Request) (rest : AttrProgram Response) : Prop :=
  ∃ name asked next, request = .get name ∧ op.changes = some name ∧ rest = .call asked next ∧
    rest ≠ request.program platform

def sized (platform : Platform) (name : CString) (size : XattrResult) : AttrProgram Response :=
  byXattr (afterSize platform name size) >>= fun outcome => .ret (.got outcome)

def Stage (kept : CString → Prop) (platform : Platform) (request : Request) (done : Option Response) (rest : AttrProgram Response)
    (file : AttrFile) : Prop :=
  match done with
  | some response => rest = .ret response
  | none =>
      request.Fits kept ∧ (rest = request.program platform ∨
        ∃ name value, ∃ size : XattrResult, request = .get name ∧ file.lookup name = some value ∧
          value.length < 2 ^ 31 ∧ size.res = value.length ∧ rest = sized platform name size)

theorem get_program (platform : Platform) (name : CString) :
    (Request.get name).program platform = .call (.xattr (.fgetxattr name true 0)) (sized platform name) := by
  simp only [Request.program, get_attr_outcome_calls]
  rfl

theorem set_program (platform : Platform) (name : CString) (view : View) :
    (Request.set name view).program platform = .call (.xattr (.fsetxattr name view.buf.contents)) fun result =>
      .ret (.done (if narrow result.res = -1 then translate result.errno else .ok ())) := rfl

theorem remove_program (platform : Platform) (name : CString) :
    (Request.remove name).program platform = .call (.fremovexattr name) fun result =>
      .ret (.done (shownRemoval (if narrow result.res = -1 then sizeError platform result.errno else .ok ()))) := rfl

theorem sized_failed (platform : Platform) (name : CString) (size : XattrResult) (err : UvError)
    (reports : size.Reports (.error err)) :
    sized platform name size = .ret (.got (shownAttr (sizeError platform (some err), uvBufInit none 0))) := by
  obtain ⟨res, errno, _⟩ := reports
  rw [sized, after_size_failed platform name size (by rw [res]; exact narrow_minus_one), errno]
  rfl

theorem sized_value (platform : Platform) (name : CString) (size : XattrResult) (value : List UInt8)
    (small : value.length < 2 ^ 31) (res : size.res = value.length) :
    sized platform name size = .call (.xattr (.fgetxattr name false value.length)) fun content =>
      .ret (.got (afterContent size content)) := by
  have narrowed : narrow size.res = value.length := by rw [res, narrow_small value.length small]
  have goesOn : narrow size.res ≠ -1 := by omega
  have memory : malloc (value.length : Int) = some (blank (value.length : Int).toNat) := if_neg (by omega)
  have len : ((value.length : Int) % 2 ^ 32).toNat = value.length := by omega
  rw [sized, afterSize, if_neg goesOn, narrowed, memory, len]
  rfl

theorem content_whole (platform : Platform) (value : List UInt8) (size content : XattrResult)
    (small : value.length < 2 ^ 31) (res : size.res = value.length)
    (reports : content.Reports (transfer platform false value.length value)) :
    afterContent size content = .buffer (bytes value) := by
  have narrowed : narrow size.res = value.length := by rw [res, narrow_small value.length small]
  have answer : content.res = value.length ∧ (content.written = value ∨ value = [] ∧ content.written = []) := by
    rw [transfer] at reports
    split at reports
    · rename_i query
      have empty : value = [] := by
        rcases query with ⟨_, zero⟩ | ⟨_, null⟩
        · exact List.length_eq_zero_iff.mp zero
        · cases null
      exact ⟨reports.1, .inr ⟨empty, reports.2⟩⟩
    · rw [if_neg (Nat.lt_irrefl _), if_neg (by simp)] at reports
      exact ⟨reports.1, .inl reports.2⟩
  have written : content.written = value := by
    rcases answer.2 with same | ⟨rfl, none_⟩
    · exact same
    · exact none_
  have kept : narrow content.res ≠ -1 := by
    rw [answer.1, narrow_small value.length small]
    omega
  rw [after_content_ok size content kept, narrowed, fill_contents _ _ (by omega) (by omega) (by simp [written]), written]
  simp [blank]

theorem stores_lookup (file file' : AttrFile) (name : CString) (content : List UInt8)
    (stores : file.Stores file' name content) :
    file'.lookup = Function.update file.lookup name (some content) := by
  funext other
  by_cases same : other = name
  · subst other
    rw [stores.1, Function.update_self]
  · rw [stores.2 other same, Function.update_of_ne same]

theorem clears_lookup (file file' : AttrFile) (name : CString) (clears : file.Clears file' name) :
    file'.lookup = Function.update file.lookup name none := by
  funext other
  by_cases same : other = name
  · subst other
    rw [clears.1, Function.update_self]
  · rw [clears.2 other same, Function.update_of_ne same]

theorem small_updated (file file' : AttrFile) (name : CString) (left : Option (List UInt8)) (small : file.Small)
    (less : ∀ value, left = some value → value.length < 2 ^ 31)
    (changed : file'.lookup = Function.update file.lookup name left) : file'.Small := by
  intro other value held
  rw [changed] at held
  by_cases same : other = name
  · subst other
    rw [Function.update_self] at held
    exact less value held
  · rw [Function.update_of_ne same] at held
    exact small other value held

theorem kept_called (kept : CString → Prop) (platform : Platform) (may : UvError → Prop) (op : AttrOp) (file : AttrFile)
    (result : XattrResult) (file' : AttrFile) (keeps : op.Keeps kept)
    (called : keptCalls platform may op file result file') : attrCalls kept platform may op file result file' :=
  ⟨fun _ => called, fun other => absurd keeps other⟩

theorem kept_call_spares (platform : Platform) (may : UvError → Prop) (op : AttrOp) (file : AttrFile)
    (result : XattrResult) (file' : AttrFile) (name : CString) (spares : op.changes ≠ some name)
    (called : keptCalls platform may op file result file') : file'.lookup name = file.lookup name := by
  obtain ⟨_, called⟩ := called
  cases op with
  | xattr op =>
      cases op with
      | fgetxattr other null size => rw [called.2]
      | flistxattr null size => rw [called.2]
      | fsetxattr other content =>
          have different : name ≠ other := fun same => spares (congrArg some same.symm)
          rcases called.1 with ⟨rfl, _⟩ | ⟨_, _, written, _, stores⟩
          · rfl
          · exact stores.2 name different
  | fremovexattr other =>
      have different : name ≠ other := fun same => spares (congrArg some same.symm)
      simp only [removeCall] at called
      split at called
      · rw [called.2]
      · split at called
        · rw [called.2]
        · rcases called with ⟨rfl, _⟩ | ⟨_, clears⟩
          · rfl
          · exact clears.2 name different

theorem attr_call_spares (kept : CString → Prop) (platform : Platform) (may : UvError → Prop) (op : AttrOp)
    (file : AttrFile) (result : XattrResult) (file' : AttrFile) (name : CString) (stored : kept name)
    (spares : op.changes ≠ some name) (called : attrCalls kept platform may op file result file') :
    file'.lookup name = file.lookup name := by
  by_cases keeps : op.Keeps kept
  · exact kept_call_spares platform may op file result file' name spares (called.1 keeps)
  · exact (called.2 keeps).2 name stored

section
variable (kept : CString → Prop) (platform : Platform) (may : UvError → Prop)

def Advances (request : Request) (rest : AttrProgram Response) (file file' : AttrFile) : Prop :=
  Sound may file' ∧
    ((file'.lookup = file.lookup ∧ Stage kept platform request none rest file') ∨
      ∃ response, Serves (xattrTerms may) request file.lookup response file'.lookup ∧
        Stage kept platform request (some response) rest file')

theorem get_size_advances (name : CString) (file file' : AttrFile) (size : XattrResult) (stored : kept name)
    (sound : Sound may file)
    (called : keptCalls platform may (.xattr (.fgetxattr name true 0)) file size file') :
    Advances kept platform may (.get name) (sized platform name size) file file' := by
  obtain ⟨_, reports, rfl⟩ := called
  refine ⟨sound, ?_⟩
  rcases met_cases name file' with ⟨trouble, inTrouble, _⟩ | ⟨fine, gone, _⟩ | ⟨value, fine, held, _⟩
  · simp only [AttrFile.reply, inTrouble] at reports
    have ends := sized_failed platform name size trouble.err reports
    rw [size_error_unrelated platform _ trouble.unrelated, shown_error _ _ trouble.unrelated.1] at ends
    exact .inr ⟨_, .failed (.get name) file'.lookup trouble.err (sound.bounded trouble inTrouble), ends⟩
  · simp only [AttrFile.reply, fine, gone] at reports
    have ends := sized_failed platform name size (missing platform) reports
    rw [size_error_missing platform] at ends
    exact .inr ⟨_, .absent name name file'.lookup rfl gone, ends⟩
  · simp only [AttrFile.reply, fine, held] at reports
    have res : size.res = value.length := by
      cases platform <;> exact reports.1
    exact .inl ⟨rfl, ⟨stored, trivial⟩, .inr ⟨name, value, size, rfl, held, sound.small name value held, res, rfl⟩⟩

theorem get_content_advances (name : CString) (value : List UInt8) (file file' : AttrFile) (size content : XattrResult)
    (sound : Sound may file) (held : file.lookup name = some value) (small : value.length < 2 ^ 31)
    (res : size.res = value.length)
    (called : keptCalls platform may (.xattr (.fgetxattr name false value.length)) file content file') :
    Advances kept platform may (.get name) (.ret (.got (afterContent size content))) file file' := by
  obtain ⟨_, reports, rfl⟩ := called
  refine ⟨sound, .inr ?_⟩
  cases inTrouble : file'.trouble with
  | some trouble =>
      simp only [AttrFile.reply, inTrouble] at reports
      obtain ⟨buf, ends⟩ := after_content_error size content trouble.err reports
      rw [ends, shown_error _ _ trouble.unrelated.1]
      exact ⟨_, .failed (.get name) file'.lookup trouble.err (sound.bounded trouble inTrouble), rfl⟩
  | none =>
      simp only [AttrFile.reply, inTrouble, held] at reports
      rw [content_whole platform value size content small res reports]
      exact ⟨_, .found name name file'.lookup value rfl held, rfl⟩

theorem set_advances (name : CString) (view : View) (file file' : AttrFile) (result : XattrResult)
    (small : view.byteLength < 2 ^ 31) (sound : Sound may file)
    (called : keptCalls platform may (.xattr (.fsetxattr name view.buf.contents)) file result file') :
    Advances kept platform may (.set name view)
      (.ret (.done (if narrow result.res = -1 then translate result.errno else .ok ()))) file file' := by
  obtain ⟨bounded, called, permitted⟩ := called
  rcases called with ⟨rfl, err, reports⟩ | ⟨_, reports, written, contents, stores⟩
  · have fails : (if narrow result.res = -1 then translate result.errno else .ok () : Status) = .error err := by
      rw [reports.1, reports.2.1, if_pos narrow_minus_one]
      rfl
    rw [fails]
    exact ⟨sound, .inr ⟨_, .failed (.set name view) file'.lookup err (permitted err reports), rfl⟩⟩
  · have succeeds : (if narrow result.res = -1 then translate result.errno else .ok () : Status) = .ok () := by
      rw [reports.1]
      exact if_neg (by decide)
    rw [view_contents] at contents
    obtain rfl : view.stored = written := bytes_injective view.stored written contents
    rw [view_stored_whole view (by omega)] at stores
    have changed := stores_lookup file file' name view.content stores
    rw [succeeds]
    refine ⟨⟨bounded, small_updated file file' name _ sound.small ?_ changed⟩, .inr ⟨.done (.ok ()), ?_, rfl⟩⟩
    · intro value same
      rw [← Option.some.inj same, view_content_length]
      exact small
    · rw [changed]
      exact .set name name view file.lookup rfl

theorem remove_advances (name : CString) (file file' : AttrFile) (result : XattrResult) (sound : Sound may file)
    (called : keptCalls platform may (.fremovexattr name) file result file') :
    Advances kept platform may (.remove name)
      (.ret (.done (shownRemoval (if narrow result.res = -1 then sizeError platform result.errno else .ok ()))))
      file file' := by
  obtain ⟨bounded, called⟩ := called
  have failing : ∀ err, result.Reports (.error err) →
      (if narrow result.res = -1 then sizeError platform result.errno else .ok () : Status) =
        sizeError platform (some err) := fun err reports => by
    rw [reports.1, reports.2.1, if_pos narrow_minus_one]
  have troubled : ∀ trouble : Trouble, may trouble.err → result.Reports (.error trouble.err) → file' = file →
      Advances kept platform may (.remove name)
        (.ret (.done (shownRemoval (if narrow result.res = -1 then sizeError platform result.errno else .ok ()))))
        file file' := by
    rintro trouble permitted reports rfl
    rw [failing _ reports, size_error_unrelated platform _ trouble.unrelated, shownRemoval,
      if_neg (by simpa using trouble.unrelated.1)]
    exact ⟨sound, .inr ⟨_, .failed (.remove name) file'.lookup trouble.err permitted, rfl⟩⟩
  simp only [removeCall] at called
  split at called
  · rename_i trouble inTrouble
    exact troubled trouble (sound.bounded trouble inTrouble) called.1 called.2
  · split at called
    · -- There is none: that is what was asked for.
      rename_i gone
      obtain ⟨reports, rfl⟩ := called
      rw [failing _ reports, size_error_missing platform]
      have same : Function.update file'.lookup name none = file'.lookup := by
        rw [← gone]
        exact Function.update_eq_self ..
      refine ⟨sound, .inr ⟨.done (.ok ()), ?_, rfl⟩⟩
      have removed : Serves (xattrTerms may) (.remove name) file'.lookup (.done (.ok ()))
          (Function.update file'.lookup name none) := .removed name name file'.lookup rfl
      rwa [same] at removed
    · rcases called with ⟨same, trouble, permitted, reports⟩ | ⟨reports, clears⟩
      · exact troubled trouble permitted reports same
      · have changed := clears_lookup file file' name clears
        have succeeds : (if narrow result.res = -1 then sizeError platform result.errno else .ok () : Status) = .ok () := by
          rw [reports.1]
          exact if_neg (by decide)
        rw [succeeds]
        refine ⟨⟨bounded, small_updated file file' name none sound.small (fun value same => by cases same) changed⟩,
          .inr ⟨.done (.ok ()), ?_, rfl⟩⟩
        rw [changed]
        exact .removed name name file.lookup rfl

theorem fresh_advances (request : Request) (op : AttrOp) (next : XattrResult → AttrProgram Response)
    (file file' : AttrFile) (answer : XattrResult) (fits : request.Fits kept) (sound : Sound may file)
    (starts : Program.call op next = request.program platform) (called : attrCalls kept platform may op file answer file') :
    Advances kept platform may request (next answer) file file' := by
  cases request with
  | get name =>
      rw [get_program] at starts
      cases starts
      exact get_size_advances kept platform may name file file' answer fits.kept sound (called.1 fits.kept)
  | set name view =>
      rw [set_program] at starts
      cases starts
      exact set_advances kept platform may name view file file' answer fits.small sound (called.1 fits.kept)
  | remove name =>
      rw [remove_program] at starts
      cases starts
      exact remove_advances kept platform may name file file' answer sound (called.1 fits.kept)

theorem sized_advances (name : CString) (value : List UInt8) (size : XattrResult) (op : AttrOp)
    (next : XattrResult → AttrProgram Response) (file file' : AttrFile) (answer : XattrResult) (stored : kept name) (sound : Sound may file)
    (held : file.lookup name = some value) (small : value.length < 2 ^ 31) (res : size.res = value.length)
    (rest : Program.call op next = sized platform name size) (called : attrCalls kept platform may op file answer file') :
    Advances kept platform may (.get name) (next answer) file file' := by
  rw [sized_value platform name size value small res] at rest
  cases rest
  exact get_content_advances kept platform may name value file file' size answer sound held small res (called.1 stored)

theorem sized_different (name : CString) (value : List UInt8) (size : XattrResult) (small : value.length < 2 ^ 31)
    (res : size.res = value.length) : sized platform name size ≠ (Request.get name).program platform := by
  rw [get_program, sized_value platform name size value small res]
  intro same
  cases same

theorem stage_stable (request : Request) (done : Option Response) (rest : AttrProgram Response) (op : AttrOp)
    (file : AttrFile) (answer : XattrResult) (file' : AttrFile) (stage : Stage kept platform request done rest file)
    (called : attrCalls kept platform may op file answer file') (calm : ¬ Disturbs platform op request rest) :
    Stage kept platform request done rest file' := by
  cases done with
  | some response => exact stage
  | none =>
      obtain ⟨fits, starts | ⟨name, value, size, rfl, held, less, res, rfl⟩⟩ := stage
      · exact ⟨fits, .inl starts⟩
      · have spares : op.changes ≠ some name := fun same =>
          calm ⟨name, _, _, rfl, same, sized_value platform name size value less res,
            sized_different platform name value size less res⟩
        refine ⟨fits, .inr ⟨name, value, size, rfl, ?_, less, res, rfl⟩⟩
        rw [attr_call_spares kept platform may op file answer file' name fits.kept spares called, held]

theorem attr_commits : Clients.Commits (Request.program platform) (Request.Fits kept) (attrCalls kept platform may) (Drifts may)
    (Disturbs platform) (Serves (xattrTerms may)) AttrFile.lookup (Sound may) (Stage kept platform) where
  fresh request file fits := ⟨fits, .inl rfl⟩
  silent request response op next file answer file' _ stage _ := by cases stage
  pending request op next file answer file' sound stage called := by
    obtain ⟨fits, starts | ⟨name, value, size, rfl, held, less, res, rest⟩⟩ := stage
    · exact fresh_advances kept platform may request op next file file' answer fits sound starts called
    · exact sized_advances kept platform may name value size op next file file' answer fits.kept sound held less res rest called
  effect request response file stage := by
    obtain ⟨_, starts | ⟨name, value, size, rfl, _, less, res, rest⟩⟩ := stage
    · cases request with
      | get name =>
          rw [get_program] at starts
          cases starts
      | set name view => cases starts
      | remove name => cases starts
    · rw [sized_value platform name size value less res] at rest
      cases rest
  done request response response' file stage := by
    cases stage
    rfl
  stable := stage_stable kept platform may
  drifts file file' sound drift := by
    have same : file'.lookup = file.lookup := funext drift.1
    refine ⟨⟨drift.2, fun name value held => sound.small name value (by rw [← same]; exact held)⟩, same, ?_⟩
    intro request done rest stage
    cases done with
    | some response => exact stage
    | none =>
        obtain ⟨fits, starts | ⟨name, value, size, rfl, held, less, res, rfl⟩⟩ := stage
        · exact ⟨fits, .inl starts⟩
        · exact ⟨fits, .inr ⟨name, value, size, rfl, by rw [same]; exact held, less, res, rfl⟩⟩

end

abbrev AttrRun (D : Type) [DecidableEq D] (kept : CString → Prop) (platform : Platform) (may : UvError → Prop)
    (start : AttrFile) :
    List (Mark D Request Response) → Clients D Request AttrOp AttrAnswer Response AttrFile → Prop :=
  Clients.Run (Request.program platform) (Request.Fits kept) (attrCalls kept platform may) (Drifts may)
    (Disturbs platform) start

theorem attr_store_linearizable {D : Type} [DecidableEq D] (kept : CString → Prop) (platform : Platform)
    (may : UvError → Prop) (start : AttrFile) (history : List (Mark D Request Response))
    (now : Clients D Request AttrOp AttrAnswer Response AttrFile) (sound : Sound may start)
    (run : AttrRun D kept platform may start history now) :
    Linearizable (Serves (xattrTerms may)) start.lookup history now.world.lookup :=
  Clients.run_linearizable (attr_commits kept platform may) start history now sound run

theorem reading_calm (platform : Platform) (op : AttrOp) (request : Request) (rest : AttrProgram Response)
    (reading : op.changes = none) : ¬ Disturbs platform op request rest := by
  rintro ⟨name, _, _, _, changes, _⟩
  rw [reading] at changes
  cases changes

theorem single_sound (may : UvError → Prop) (name : AttrName) (value : List UInt8) (small : value.length < 2 ^ 31) :
    Sound may (single name (some value)) where
  bounded trouble inTrouble := by cases inTrouble
  small other held found := by
    simp only [single, AttrFile.lookup, Option.map_some, Option.toList_some, List.find?_cons, List.find?_nil] at found
    split at found
    · obtain rfl := Option.some.inj found
      exact small
    · cases found

def OneLetter (name : CString) : Prop := name.length = 1

theorem get_beside_remove :
    Linearizable (Serves (xattrTerms fun _ => False)) (single sampleName (some [7])).lookup
      [.invoked true (.get sampleName.name), .invoked false (.remove [0x62]),
        .returned false (.remove [0x62]) (.done (.ok ())),
        .returned true (.get sampleName.name) (.got (.buffer (bytes [7])))]
      (single sampleName (some [7])).lookup := by
  have sound := single_sound (fun _ => False) sampleName [7] (by decide)
  let file := single sampleName (some [7])
  let size : XattrResult := ⟨1, none, []⟩
  have gone : file.lookup [0x62] = none := by decide
  have sizes : attrCalls OneLetter .linux (fun _ => False) (.xattr (.fgetxattr sampleName.name true 0)) file size file :=
    kept_called _ _ _ _ _ _ _ rfl ⟨sound.bounded, by rw [single_reply]; exact ⟨rfl, rfl⟩, rfl⟩
  have reads : attrCalls OneLetter .linux (fun _ => False) (.xattr (.fgetxattr sampleName.name false 1)) file
      ⟨1, none, [7]⟩ file :=
    kept_called _ _ _ _ _ _ _ rfl ⟨sound.bounded, by rw [single_reply]; exact ⟨rfl, rfl⟩, rfl⟩
  have removes : attrCalls OneLetter .linux (fun _ => False) (.fremovexattr [0x62]) file ⟨-1, some .ENODATA, []⟩ file :=
    kept_called _ _ _ _ _ _ _ rfl ⟨sound.bounded, by
      simp only [removeCall, gone]
      exact ⟨⟨rfl, rfl, rfl⟩, trivial⟩⟩
  have one : AttrRun Bool OneLetter .linux (fun _ => False) file _ _ :=
    .invokes [] ⟨file, fun _ => .idle⟩ true (Request.get sampleName.name) .start rfl
      (⟨rfl, trivial⟩ : (Request.get sampleName.name).Fits OneLetter)
  have two : AttrRun Bool OneLetter .linux (fun _ => False) file _ _ :=
    .asks _ _ true (Request.get sampleName.name) (.xattr (.fgetxattr sampleName.name true 0))
      (sized .linux sampleName.name) size file one
      (congrArg (Client.busy (Request.get sampleName.name)) (get_program .linux sampleName.name)) sizes
      fun _ _ _ _ _ => reading_calm .linux _ _ _ rfl
  have three : AttrRun Bool OneLetter .linux (fun _ => False) file _ _ :=
    .invokes _ _ false (Request.remove [0x62]) two rfl (⟨rfl, trivial⟩ : (Request.remove [0x62]).Fits OneLetter)
  have apart : ∀ rest, ¬ Disturbs .linux (.fremovexattr [0x62]) (.get sampleName.name) rest := by
    rintro rest ⟨name, _, _, same, changes, _⟩
    cases same
    cases changes
  have four : AttrRun Bool OneLetter .linux (fun _ => False) file _ _ :=
    .asks _ _ false (Request.remove [0x62]) (.fremovexattr [0x62]) _ ⟨-1, some .ENODATA, []⟩ file three
      (congrArg (Client.busy (Request.remove [0x62])) (remove_program .linux [0x62])) removes
      fun e different call rest busy => by
        obtain rfl : e = true := by simpa using different
        cases busy
        exact apart _
  have five : AttrRun Bool OneLetter .linux (fun _ => False) file _ _ :=
    .returns _ _ false (Request.remove [0x62]) (.done (.ok ())) four rfl
  have six : AttrRun Bool OneLetter .linux (fun _ => False) file _ _ :=
    .asks _ _ true (Request.get sampleName.name) (.xattr (.fgetxattr sampleName.name false 1)) _ ⟨1, none, [7]⟩ file five
      (congrArg (Client.busy (Request.get sampleName.name)) (sized_value .linux sampleName.name size [7] (by decide) rfl))
      reads fun _ _ _ _ _ => reading_calm .linux _ _ _ rfl
  exact attr_store_linearizable OneLetter .linux _ file _ _ sound
    (.returns _ _ true (Request.get sampleName.name) (.got (.buffer (bytes [7]))) six rfl)

end FsExt.Attr
