import FsExt.Attr.GetAttr
import FsExt.Attr.MainStream

set_option autoImplicit false

namespace FsExt.Attr

open Sys

-- A view of an ArrayBuffer. Its numbers are exact in JavaScript and as int64.
structure View where
  buffer : List UInt8
  byteOffset : Nat
  byteLength : Nat
  inside : byteOffset + byteLength ≤ buffer.length
  exact_ : buffer.length < 2 ^ 53

def View.content (view : View) : List UInt8 := (view.buffer.drop view.byteOffset).take view.byteLength

def View.buf (view : View) : UvBuf := uvBufInit (some (bytes (view.buffer.drop view.byteOffset))) view.byteLength

def setAttr (name : CString) (value : UvBuf) : XattrProgram Status := do
  let result ← fsetxattr name value.contents
  return if narrow result.res = -1 then translate result.errno else .ok ()

def setThenGet (platform : Platform) (name : CString) (view : View) : XattrProgram (Status × AttrOutcome) := do
  let status ← setAttr name view.buf
  let outcome ← getAttrOutcome platform name
  return (status, outcome)

namespace Windows

def getAttrOutcome (name : CString) : NtProgram AttrOutcome := do
  return shownAttr (← getAttr name (uvBufInit none 0))

def setThenGet (name : CString) (view : View) : NtProgram (Status × AttrOutcome) := do
  let status ← setAttr name view.buf
  let outcome ← getAttrOutcome name
  return (status, outcome)

def Spares (naming : StreamNaming) (name : CString) (file file' : NtFile) : Prop :=
  ∀ path stream, streamName name = .ok path → naming.opens path = some stream →
    file'.content stream = file.content stream

end Windows

def Spares (name : CString) (file file' : AttrFile) : Prop := file'.lookup name = file.lookup name

def RoundTrips {Op : Type} {Answer : Op → Type} {σ : Type} (sem : Program.Semantics Op Answer σ)
    (other : σ → σ → Prop) (program : Program Op Answer (Status × AttrOutcome)) (content : List UInt8) : Prop :=
  ∀ start asked seen status outcome final, Program.Runs sem other start program asked seen (status, outcome) final →
    status = .ok () → (∀ err, outcome ≠ .error err) → outcome = .buffer (bytes content)

-- Beyond 2 ^ 31 bytes macOS delivers memory that nobody wrote. Linux fails to
-- get what has a negative size as an `int` other than -1; a size beyond 2 ^ 32
-- is stored as its remainder.
def ComesBack : Platform → Nat → Prop
  | .linux, size => size < 2 ^ 31 ∨ 2 ^ 31 ≤ size % 2 ^ 32 ∧ size % 2 ^ 32 ≠ 2 ^ 32 - 1
  | .apple, size => size < 2 ^ 31

theorem view_content_length (view : View) : view.content.length = view.byteLength := by
  have inside := view.inside
  simp only [View.content, List.length_take, List.length_drop]
  omega

theorem view_contents (view : View) :
    view.buf.contents = bytes ((view.buffer.drop view.byteOffset).take (view.byteLength % 2 ^ 32)) := by
  have len : ((view.byteLength : Int) % 2 ^ 32).toNat = view.byteLength % 2 ^ 32 := by omega
  simp only [View.buf, uvBufInit, UvBuf.contents, len, bytes, List.map_take]

def View.stored (view : View) : List UInt8 := (view.buffer.drop view.byteOffset).take (view.byteLength % 2 ^ 32)

theorem view_stored_length (view : View) : view.stored.length = view.byteLength % 2 ^ 32 := by
  have inside := view.inside
  have less := Nat.mod_le view.byteLength (2 ^ 32)
  simp only [View.stored, List.length_take, List.length_drop]
  omega

theorem view_stored_whole (view : View) (small : view.byteLength < 2 ^ 32) : view.stored = view.content := by
  rw [View.stored, Nat.mod_eq_of_lt small]
  rfl

theorem narrow_negative (size : Nat) (small : size < 2 ^ 32) :
    narrow size = if size < 2 ^ 31 then (size : Int) else (size : Int) - 2 ^ 32 := by
  split
  · rename_i below
    exact narrow_small size below
  · rename_i above
    rw [narrow, Int.bmod_def]
    omega

theorem set_then_get_calls (platform : Platform) (name : CString) (view : View) :
    setThenGet platform name view = .call (.fsetxattr name view.buf.contents) fun result =>
      getAttrOutcome platform name >>= fun outcome =>
        .ret ((if narrow result.res = -1 then translate result.errno else .ok () : Status), outcome) := rfl

theorem after_content_buffer (size content : XattrResult) (got : Block) (delivered : afterContent size content = .buffer got) :
    got = ((uvBufInit (malloc (narrow size.res)) (narrow size.res)).fill content.written).contents := by
  rw [afterContent] at delivered
  split at delivered
  · cases errno : content.errno with
    | none =>
        rw [errno] at delivered
        exact (AttrOutcome.buffer.inj delivered).symm
    | some err =>
        rw [errno] at delivered
        cases err <;> cases delivered
  · exact (AttrOutcome.buffer.inj delivered).symm

theorem get_held (platform : Platform) (name : CString) (value : List UInt8) (start : AttrFile)
    (asked seen : List AttrFile) (outcome : AttrOutcome) (final : AttrFile) (held : start.lookup name = some value)
    (runs : Program.Runs (xattrCalls platform) (Spares name) start (getAttrOutcome platform name) asked seen outcome
      final)
    (well : ReadsWell platform (.value value) (.value value)) :
    (∃ err, outcome = .error err) ∨ (outcome = .buffer (bytes value) ∧ 0 ≤ narrow value.length) := by
  have keeps : ∀ file file', Spares name file file' → file.lookup name = some value → file'.lookup name = some value :=
    fun file file' spares holds => spares.trans holds
  rw [get_attr_outcome_calls] at runs
  obtain ⟨_, size, file, _, _, held, rfl, _, _, ⟨reports, rfl⟩, rest⟩ :=
    Program.runs_call_kept _ _ _ _ _ _ _ _ _ _ keeps held runs
  rcases met_cases name file with ⟨trouble, inTrouble, _⟩ | ⟨_, gone, _⟩ | ⟨_, fine, held', _⟩
  · simp only [AttrFile.reply, inTrouble] at reports
    obtain ⟨res, errno, _⟩ := reports
    rw [after_size_failed platform name size (by rw [res]; exact narrow_minus_one), errno,
      size_error_unrelated platform _ trouble.unrelated, shown_error _ _ trouble.unrelated.1] at rest
    exact .inl ⟨_, (Program.runs_ret _ _ _ _ _ _ _ _ rest).1⟩
  · rw [held] at gone
    cases gone
  · have sized : size.res = value.length := by
      cases platform <;> simp only [AttrFile.reply, fine, held] at reports <;> exact reports.1
    have goesOn : narrow size.res ≠ -1 := by
      rw [sized]
      exact well.1
    rw [afterSize, if_neg goesOn] at rest
    obtain ⟨_, content, file', _, _, held', rfl, _, _, ⟨reports', rfl⟩, rest'⟩ :=
      Program.runs_call_kept _ _ _ _ _ _ _ _ _ _ keeps held rest
    obtain ⟨rfl, _⟩ := Program.runs_ret _ _ _ _ _ _ _ _ rest'
    have meets : ReadsWell platform (.value value) (file'.met name) := by
      rcases met_cases name file' with ⟨_, _, met⟩ | ⟨_, gone, _⟩ | ⟨_, _, same, met⟩
      · rw [met]
        exact ⟨well.1, trivial⟩
      · rw [held'] at gone
        cases gone
      · rw [held'] at same
        cases same
        rw [met]
        exact well
    have honest := second_call_honest platform name [file, file'] file file' value size content (by simp) (by simp)
      held sized reports' meets
    cases delivered : afterContent size content with
    | error err => exact .inl ⟨err, rfl⟩
    | null =>
        rw [delivered] at honest
        obtain ⟨one, member, gone⟩ := honest
        simp only [List.mem_cons, List.not_mem_nil, or_false] at member
        rcases member with rfl | rfl
        · rw [held] at gone
          cases gone
        · rw [held'] at gone
          cases gone
    | buffer got =>
        rw [delivered] at honest
        obtain ⟨one, member, other, found, rfl⟩ := honest
        have same : other = value := by
          simp only [List.mem_cons, List.not_mem_nil, or_false] at member
          rcases member with rfl | rfl
          · exact Option.some.inj (found.symm.trans held)
          · exact Option.some.inj (found.symm.trans held')
        refine .inr ⟨by rw [same], ?_⟩
        by_contra below
        have negative : narrow size.res < 0 := by
          rw [sized]
          omega
        have contents := after_content_buffer size content _ delivered
        rw [negative_contents (narrow size.res) _ negative] at contents
        have bounds := narrow_bounds size.res
        exact bytes_blank_not_bytes [] other _ (by omega) contents.symm

theorem stored_reads_well (platform : Platform) (view : View) (back : ComesBack platform view.byteLength) :
    ReadsWell platform (.value view.stored) (.value view.stored) ∧
      (0 ≤ narrow view.stored.length → view.byteLength < 2 ^ 31) := by
  have less : view.byteLength % 2 ^ 32 < 2 ^ 32 := Nat.mod_lt _ (by decide)
  have size := narrow_negative view.stored.length (by rw [view_stored_length]; exact less)
  by_cases small : view.byteLength < 2 ^ 31
  · have same : view.stored.length = view.byteLength := by
      rw [view_stored_length]
      omega
    rw [if_pos (by omega)] at size
    refine ⟨⟨by omega, ?_⟩, fun _ => small⟩
    simp only
    rw [if_neg (by omega)]
    refine ⟨by omega, fun _ zero => .inl (List.length_eq_zero_iff.mp ?_)⟩
    omega
  · cases platform with
    | apple => exact absurd back small
    | linux =>
        obtain ⟨above, last⟩ := back.resolve_left small
        rw [← view_stored_length] at above last less
        rw [if_neg (by omega)] at size
        have some_ : view.stored ≠ [] := fun empty => by
          rw [empty, List.length_nil] at above
          omega
        refine ⟨⟨by omega, ?_⟩, by omega⟩
        simp only
        rw [if_pos (by omega)]
        exact ⟨trivial, some_⟩

theorem stored_round_trips (platform : Platform) (name : CString) (view : View)
    (back : ComesBack platform view.byteLength) :
    RoundTrips (xattrCalls platform) (Spares name) (setThenGet platform name view) view.content := by
  intro start asked seen status outcome final runs ok succeeds
  rw [set_then_get_calls] at runs
  obtain ⟨_, result, file, _, _, _, _, _, set, rest⟩ := Program.runs_call _ _ _ _ _ _ _ _ _ runs
  obtain ⟨got, packed, gets⟩ := (Program.runs_map _ _ _ _ _ _ _ _ _).mp rest
  obtain ⟨rfl, rfl⟩ := Prod.mk.inj packed
  rcases set with ⟨_, err, failed, errno, _⟩ | ⟨_, _, written, stored, held, _⟩
  · rw [failed, if_pos narrow_minus_one, errno] at ok
    cases ok
  · rw [view_contents] at stored
    obtain rfl := bytes_injective view.stored written stored
    obtain ⟨well, small⟩ := stored_reads_well platform view back
    rcases get_held platform name view.stored file _ _ outcome final held gets well with ⟨err, failed⟩ | ⟨whole, positive⟩
    · exact absurd failed (succeeds err)
    · rw [whole, view_stored_whole view (by have := small positive; omega)]

theorem set_run (platform : Platform) (name : AttrName) (view : View) (asked seen : List AttrFile)
    (outcome : AttrOutcome) (final : AttrFile)
    (gets : Program.Runs (xattrCalls platform) (Spares name.name) (single name (some view.stored))
      (getAttrOutcome platform name.name) asked seen outcome final) :
    Program.Runs (xattrCalls platform) (Spares name.name) (single name none) (setThenGet platform name.name view)
      (single name none :: asked) (single name none :: seen) (.ok (), outcome) final := by
  have stores : (single name none).Stores (single name (some view.stored)) name.name view.stored := by
    refine ⟨single_lookup name _, fun other different => ?_⟩
    simp [single, AttrFile.lookup, Ne.symm different]
  rw [set_then_get_calls]
  refine .call _ _ _ _ ⟨0, none, []⟩ _ _ _ _
    (.inr ⟨rfl, ⟨rfl, rfl⟩, view.stored, view_contents view, stores⟩) ?_
  exact (Program.runs_map _ _ _ _ _ _ _ _ _).mpr ⟨outcome, rfl, gets⟩

theorem wrong_get (platform : Platform) (name : AttrName) (view : View) (got : Block)
    (gets : ∃ asked seen final, Program.Runs (xattrCalls platform) (Spares name.name) (single name (some view.stored))
      (getAttrOutcome platform name.name) asked seen (.buffer got) final) (wrong : got ≠ bytes view.content) :
    ¬ RoundTrips (xattrCalls platform) (Spares name.name) (setThenGet platform name.name view) view.content := by
  obtain ⟨asked, seen, final, gets⟩ := gets
  intro trips
  have delivered := trips _ _ _ _ _ _ (set_run platform name view asked seen _ final gets) rfl fun err same => by
    cases same
  exact wrong (AttrOutcome.buffer.inj delivered)

theorem not_back_altered (platform : Platform) (name : AttrName) (view : View)
    (lost : ¬ ComesBack platform view.byteLength) :
    ¬ RoundTrips (xattrCalls platform) (Spares name.name) (setThenGet platform name.name view) view.content := by
  have less : view.byteLength % 2 ^ 32 < 2 ^ 32 := Nat.mod_lt _ (by decide)
  have size := narrow_negative view.stored.length (by rw [view_stored_length]; exact less)
  have big : 2 ^ 31 ≤ view.byteLength := by
    cases platform with
    | linux => exact Nat.le_of_not_lt fun small => lost (.inl small)
    | apple => exact Nat.le_of_not_lt lost
  have some_ : ∀ got : List UInt8, got.length < view.byteLength → bytes got ≠ bytes view.content := by
    intro got shorter same
    have lengths := congrArg List.length (bytes_injective got view.content same)
    rw [view_content_length] at lengths
    omega
  have stays : Spares name.name (single name (some view.stored)) (single name (some view.stored)) := rfl
  rw [← view_stored_length] at less
  by_cases small : view.stored.length < 2 ^ 31
  · -- The remainder is stored and comes back.
    rw [if_pos small] at size
    have reports : (⟨view.stored.length, none, view.stored⟩ : XattrResult).Reports
        ((single name (some view.stored)).reply platform (.fgetxattr name.name (malloc (narrow view.stored.length)).isNone
          (narrow view.stored.length % 2 ^ 32).toNat)) := by
      rw [single_reply, size]
      simp only
      rw [transfer_small platform _ _ _ (by omega) (by omega), if_neg (Int.lt_irrefl _)]
      split
      · rename_i empty
        exact ⟨rfl, List.length_eq_zero_iff.mp (show view.stored.length = 0 by omega)⟩
      · exact ⟨rfl, rfl⟩
    have run := two_call_run platform (Spares name.name) name view.stored (some view.stored) none
      ⟨view.stored.length, none, view.stored⟩ stays (by omega) reports
    have whole : ((uvBufInit (malloc view.stored.length) view.stored.length).fill view.stored).contents =
        bytes view.stored := by
      rw [fill_contents view.stored.length view.stored (by omega) (by omega) (by simp)]
      simp [blank]
    have kept : narrow (⟨view.stored.length, none, view.stored⟩ : XattrResult).res ≠ -1 := by
      simp only [size]
      omega
    rw [after_content_ok ⟨view.stored.length, none, []⟩ ⟨view.stored.length, none, view.stored⟩ kept] at run
    simp only [size, whole] at run
    refine wrong_get platform name view _ ⟨_, _, _, run⟩ (some_ view.stored ?_)
    have stored := view_stored_length view
    omega
  · rw [if_neg small] at size
    by_cases last : narrow view.stored.length = -1
    · exact wrong_get platform name view [] ⟨_, _, _, lost_run platform (Spares name.name) name view.stored last⟩
        (some_ [] (by simp only [List.length_nil]; omega))
    · -- What is left is macOS with a null pointer, which it takes for a size query.
      have mac : platform = .apple := by
        cases platform with
        | apple => rfl
        | linux =>
            have stored := view_stored_length view
            exact absurd (.inr ⟨by omega, by omega⟩) lost
      subst mac
      have negative : narrow view.stored.length < 0 := by omega
      have reports : (⟨view.stored.length, none, []⟩ : XattrResult).Reports
          ((single name (some view.stored)).reply .apple (.fgetxattr name.name (malloc (narrow view.stored.length)).isNone
            (narrow view.stored.length % 2 ^ 32).toNat)) := by
        rw [single_reply]
        simp only
        rw [transfer_negative .apple _ _ _ negative (by omega), if_pos rfl]
        exact ⟨rfl, rfl⟩
      have run := two_call_run .apple (Spares name.name) name view.stored (some view.stored) none
        ⟨view.stored.length, none, []⟩ stays last reports
      rw [after_content_ok ⟨view.stored.length, none, []⟩ ⟨view.stored.length, none, []⟩ last,
        negative_contents (narrow view.stored.length) [] negative] at run
      have unwritten : ∀ size, 0 < size → blank size ≠ bytes view.content := fun size some_ =>
        bytes_blank_not_bytes [] view.content size some_
      exact wrong_get .apple name view _ ⟨_, _, _, run⟩ (unwritten _ (by omega))

namespace Windows

section
variable (naming : StreamNaming) (name : CString) (path : List UInt16) (handle : Stream)

theorem spares_content (named : streamName name = .ok path) (opened : naming.opens path = some handle)
    (holds : Option (List UInt8) → Prop) (file file' : NtFile) (spares : Spares naming name file file')
    (before : holds (file.content handle)) : holds (file'.content handle) := by
  rw [spares path handle named opened]
  exact before

theorem set_leaves {α : Type} (value : UvBuf) (rest : Status → NtProgram α) (start : NtFile) (asked seen : List NtFile)
    (result : α) (final : NtFile)
    (runs : Program.Runs (ntCalls naming) (Spares naming name) start (setAttr name value >>= rest) asked seen result
      final) :
    ∃ status file asked' seen',
      Program.Runs (ntCalls naming) (Spares naming name) file (rest status) asked' seen' result final ∧
        (status = .ok () → ∃ path handle written, streamName name = .ok path ∧ naming.opens path = some handle ∧
          value.contents = bytes written ∧ file.content handle = some written) := by
  cases named : streamName name with
  | error err =>
      simp only [setAttr, named] at runs
      exact ⟨.error err, start, asked, seen, runs, fun ok => by cases ok⟩
  | ok path =>
      simp only [setAttr, named] at runs
      obtain ⟨_, created, file, _, _, _, _, _, create, rest⟩ := Program.runs_call _ _ _ _ _ _ _ _ _ runs
      cases created with
      | error err => exact ⟨.error UvError.EIO, file, _, _, rest, fun ok => by cases ok⟩
      | ok handle =>
          obtain ⟨opened, rfl⟩ := create
          obtain ⟨met, answer, file', _, _, blank_, _, _, _, write, rest⟩ := Program.runs_call_kept _ _
            (fun file => ∀ old, file.content handle = some old → old = []) _ _ _ _ _ _ _
            (spares_content naming name path handle named opened fun held => ∀ old, held = some old → old = [])
            (fun old => NtFile.put_empty _ handle old) rest
          cases answer with
          | error err =>
              obtain ⟨_, _, file'', _, _, _, _, _, _, rest⟩ := Program.runs_call _ _ _ _ _ _ _ _ _ rest
              exact ⟨.error UvError.EIO, file'', _, _, rest, fun ok => by cases ok⟩
          | ok count =>
              obtain ⟨old, written, held, contents, rfl, rfl⟩ := write
              have content : (met.put handle (written ++ old.drop written.length)).content handle = some written := by
                rw [blank_ old held, List.drop_nil, List.append_nil]
                exact NtFile.put_content met handle written (by rw [held]; exact Option.some_ne_none old)
              obtain ⟨_, _, file'', _, _, held', _, _, _, close, rest⟩ := Program.runs_call_kept _ _
                (fun file => file.content handle = some written) _ _ _ _ _ _ _
                (spares_content naming name path handle named opened (· = some written)) content rest
              obtain rfl : file'' = _ := close
              exact ⟨_, _, _, _, rest, fun _ => ⟨path, handle, written, rfl, opened, contents, held'⟩⟩

theorem get_held (content : List UInt8) (start : NtFile) (asked seen : List NtFile) (outcome : AttrOutcome)
    (final : NtFile) (named : streamName name = .ok path) (opened : naming.opens path = some handle)
    (held : start.content handle = some content)
    (runs : Program.Runs (ntCalls naming) (Spares naming name) start (getAttrOutcome name) asked seen outcome final) :
    (∃ err, outcome = .error err) ∨ outcome = .buffer (bytes content) := by
  have keeps := spares_content naming name path handle named opened (· = some content)
  obtain ⟨answer, rfl, gets⟩ := (Program.runs_map _ _ _ _ _ _ _ _ _).mp runs
  simp only [getAttr, named] at gets
  obtain ⟨_, found, file, _, _, held, _, _, _, look, rest⟩ :=
    Program.runs_call_kept _ _ _ _ _ _ _ _ _ _ keeps held gets
  cases found with
  | error err =>
      obtain ⟨missing, rfl⟩ := look
      obtain ⟨rfl, _⟩ := Program.runs_ret _ _ _ _ _ _ _ _ rest
      cases err with
      | other => exact .inl ⟨_, rfl⟩
      | objectNameNotFound =>
          obtain ⟨stream, opened', gone⟩ := missing rfl
          obtain rfl := Option.some.inj (opened.symm.trans opened')
          rw [held] at gone
          cases gone
  | ok stream =>
      obtain ⟨opened', _, rfl⟩ := look
      obtain rfl := Option.some.inj (opened.symm.trans opened')
      obtain ⟨_, queried, file, _, _, held, _, _, _, query, rest⟩ :=
        Program.runs_call_kept _ _ _ _ _ _ _ _ _ _ keeps held rest
      cases queried with
      | error err =>
          obtain ⟨_, _, _, _, _, _, _, _, _, rest⟩ := Program.runs_call _ _ _ _ _ _ _ _ _ rest
          obtain ⟨rfl, _⟩ := Program.runs_ret _ _ _ _ _ _ _ _ rest
          exact .inl ⟨_, rfl⟩
      | ok length =>
          obtain ⟨_, held', rfl, rfl⟩ := query
          obtain rfl := Option.some.inj (held.symm.trans held')
          obtain ⟨_, read, file, _, _, held, _, _, _, reading, rest⟩ :=
            Program.runs_call_kept _ _ _ _ _ _ _ _ _ _ keeps held rest
          obtain ⟨_, _, _, _, _, _, _, _, _, rest⟩ := Program.runs_call _ _ _ _ _ _ _ _ _ rest
          cases read with
          | error err =>
              obtain ⟨rfl, _⟩ := Program.runs_ret _ _ _ _ _ _ _ _ rest
              exact .inl ⟨_, rfl⟩
          | ok data =>
              obtain ⟨rfl, _⟩ := Program.runs_ret _ _ _ _ _ _ _ _ rest
              obtain ⟨_, held', rfl, rfl⟩ := reading
              obtain rfl := Option.some.inj (held.symm.trans held')
              by_cases whole : (content.take (uvBufInit (malloc content.length) content.length).len).length =
                  content.length
              · refine .inr ?_
                rw [if_neg (not_not.mpr whole), shownAttr, read_whole content whole]
              · refine .inl ⟨ UvError.EIO, ?_⟩
                rw [if_pos whole]
                rfl

end

theorem stored_round_trips (naming : StreamNaming) (name : CString) (view : View) (small : view.byteLength < 2 ^ 32) :
    RoundTrips (ntCalls naming) (Spares naming name) (setThenGet name view) view.content := by
  intro start asked seen status outcome final runs ok succeeds
  obtain ⟨status', file, _, _, rest, left⟩ := set_leaves naming name view.buf _ start _ _ _ _ runs
  obtain ⟨got, packed, gets⟩ := (Program.runs_map _ _ _ _ _ _ _ _ _).mp rest
  obtain ⟨rfl, rfl⟩ := Prod.mk.inj packed
  obtain ⟨path, handle, written, named, opened, contents, held⟩ := left ok
  rw [view_contents] at contents
  obtain rfl := bytes_injective view.stored written contents
  rcases get_held naming name path handle view.stored file _ _ outcome final named opened held gets with
    ⟨err, failed⟩ | whole
  · exact absurd failed (succeeds err)
  · rw [whole, view_stored_whole view small]

section
variable (naming : StreamNaming) (other : NtFile → NtFile → Prop) (name : CString) (path word : List UInt16)

theorem set_succeeds (view : View) (file : NtFile) (named : streamName name = .ok path)
    (opened : naming.opens path = some (.named word)) :
    ∃ asked seen, Program.Runs (storeCalls naming False) other file (setAttr name view.buf) asked seen (.ok ())
      ((file.put (.named word) []).put (.named word) view.stored) := by
  let emptied := file.put (.named word) []
  let left := emptied.put (.named word) view.stored
  have less : view.stored.length < 2 ^ 32 := by
    rw [view_stored_length]
    exact Nat.mod_lt _ (by decide)
  have count : ¬ view.stored.length ≠ view.buf.len := by
    rw [view_stored_length, not_not]
    simp only [View.buf, uvBufInit]
    omega
  have creates : storeCalls naming False (.createFile path) file (.ok (.named word) : Except NtError Stream) emptied :=
    ⟨⟨opened, rfl⟩, fun failing => failing⟩
  have writes : storeCalls naming False (.writeFile (.named word) view.buf.contents) emptied
      (.ok view.stored.length : Except NtError Nat) left :=
    ⟨⟨[], view.stored, Function.update_self .., view_contents view, rfl, by
      simp only [left, List.drop_nil, List.append_nil]⟩, fun failing => failing⟩
  have closes : storeCalls naming False (.close (.named word)) left () left := ⟨rfl, fun failing => failing⟩
  simp only [setAttr, named]
  refine ⟨[file, emptied, left], [file, emptied, left, left], .call _ _ _ _ _ _ _ _ _ creates
    (.call _ _ _ _ _ _ _ _ _ writes (.call _ _ _ _ _ _ _ _ _ closes ?_))⟩
  simp only [if_neg count]
  exact .ret _ _

theorem get_succeeds (value : List UInt8) (file : NtFile) (small : value.length < 2 ^ 32)
    (named : streamName name = .ok path) (opened : naming.opens path = some (.named word))
    (held : file.content (.named word) = some value) :
    ∃ asked seen, Program.Runs (storeCalls naming False) other file (getAttrOutcome name) asked seen
      (.buffer (bytes value)) file := by
  have whole : value.take (uvBufInit (malloc value.length) value.length).len = value := by
    refine List.take_of_length_le (Nat.le_of_eq ?_)
    simp only [uvBufInit]
    omega
  have looks : storeCalls naming False (.openFile path .read) file (.ok (.named word) : Except NtError Stream) file :=
    ⟨⟨opened, by rw [held]; exact Option.some_ne_none _, rfl⟩, fun failing => failing⟩
  have sizes : storeCalls naming False (.queryEndOfFile (.named word)) file (.ok value.length : Except NtError Nat) file :=
    ⟨⟨value, held, rfl, rfl⟩, fun failing => failing⟩
  have reads : storeCalls naming False (.readFile (.named word) (uvBufInit (malloc value.length) value.length).len)
      file (.ok value : Except NtError (List UInt8)) file := ⟨⟨value, held, whole.symm, rfl⟩, fun failing => failing⟩
  have closes : storeCalls naming False (.close (.named word)) file () file := ⟨rfl, fun failing => failing⟩
  have contents := read_whole value (by rw [whole])
  rw [whole] at contents
  refine ⟨[file, file, file, file], [file, file, file, file, file], (Program.runs_map _ _ _ _ _ _ _ _ _).mpr
    ⟨(.ok (), (uvBufInit (malloc value.length) value.length).fill value), by rw [shownAttr, contents], ?_⟩⟩
  simp only [getAttr, named]
  refine .call _ _ _ _ _ _ _ _ _ looks
    (.call _ _ _ _ _ _ _ _ _ sizes (.call _ _ _ _ _ _ _ _ _ reads (.call _ _ _ _ _ _ _ _ _ closes ?_)))
  have status : (if value.length ≠ value.length then .error UvError.EIO else .ok () : Status) = .ok () :=
    if_neg (not_not.mpr rfl)
  simp only [status]
  exact .ret _ _

theorem get_absent (file : NtFile) (named : streamName name = .ok path)
    (opened : naming.opens path = some (.named word)) (gone : file.content (.named word) = none) :
    Program.Runs (storeCalls naming False) other file (getAttrOutcome name) [file] [file, file] .null file := by
  have looks : storeCalls naming False (.openFile path .read) file (.error .objectNameNotFound : Except NtError Stream)
      file := ⟨⟨fun _ => ⟨_, opened, gone⟩, rfl⟩, fun failing => failing⟩
  simp only [getAttrOutcome, getAttr, named]
  exact .call _ _ _ _ _ _ _ _ _ looks (.ret _ _)

end

def sampleStream : CString := utf8 "a".toList

def bareFile : NtFile := ⟨true, [], fun _ => none⟩

theorem sample_stream_named : streamName sampleStream = .ok (colon :: utf16 "a".toList) := by
  simp only [streamName, sampleStream, multiByteToWideChar, decode_utf8]
  decide

theorem remainder_run (naming : StreamNaming) (view : View) :
    ∃ asked seen final, Program.Runs (ntCalls naming) (Spares naming sampleStream) bareFile
      (setThenGet sampleStream view) asked seen (.ok (), .buffer (bytes view.stored)) final := by
  have letter : utf16 "a".toList = [0x61] := by decide
  obtain ⟨word, opened⟩ := naming.lettered [0x61] (by decide) (by decide) (List.forall_mem_singleton.mpr (by decide))
  rw [← letter] at opened
  let file := (bareFile.put (.named word) []).put (.named word) view.stored
  have held : file.content (.named word) = some view.stored := Function.update_self ..
  have less : view.stored.length < 2 ^ 32 := by
    rw [view_stored_length]
    exact Nat.mod_lt _ (by decide)
  obtain ⟨asked, seen, sets⟩ := set_succeeds naming (Spares naming sampleStream) sampleStream _ word view bareFile
    sample_stream_named opened
  obtain ⟨asked', seen', gets⟩ := get_succeeds naming (Spares naming sampleStream) sampleStream _ word view.stored file
    less sample_stream_named opened held
  have left := (Program.runs_map _ _ _ _ (fun outcome => ((.ok () : Status), outcome)) _ _ _ _).mpr ⟨_, rfl, gets⟩
  obtain ⟨seen'', whole⟩ := Program.runs_then _ _ _ _ _ _
    (fun status => getAttrOutcome sampleStream >>= fun outcome => .ret (status, outcome)) _ _ _ _ _ _ sets left
  exact ⟨_, seen'', file, Program.runs_mono _ _ _ _ _ _ _ _ _ (fun _ _ _ _ called => called.1) whole⟩

theorem remainder_altered (naming : StreamNaming) (view : View) (big : ¬ view.byteLength < 2 ^ 32) :
    ¬ RoundTrips (ntCalls naming) (Spares naming sampleStream) (setThenGet sampleStream view) view.content := by
  intro trips
  obtain ⟨_, _, _, run⟩ := remainder_run naming view
  have delivered := trips _ _ _ _ _ _ run rfl fun err same => by cases same
  have lengths := congrArg List.length (bytes_injective _ _ (AttrOutcome.buffer.inj delivered))
  rw [view_stored_length, view_content_length] at lengths
  have less : view.byteLength % 2 ^ 32 < 2 ^ 32 := Nat.mod_lt _ (by decide)
  omega

end Windows

theorem values_round_trip_iff (view : View) :
    (∀ platform (name : AttrName),
      RoundTrips (xattrCalls platform) (Spares name.name) (setThenGet platform name.name view) view.content ↔
        ComesBack platform view.byteLength) ∧
      ∀ naming, (∀ name, RoundTrips (Windows.ntCalls naming) (Windows.Spares naming name)
        (Windows.setThenGet name view) view.content) ↔ view.byteLength < 2 ^ 32 := by
  refine ⟨fun platform name => ⟨fun trips => ?_, stored_round_trips platform name.name view⟩,
    fun naming => ⟨fun trips => ?_, fun small name => Windows.stored_round_trips naming name view small⟩⟩
  · by_contra lost
    exact not_back_altered platform name view lost trips
  · by_contra big
    exact Windows.remainder_altered naming view big (trips Windows.sampleStream)

def twoBytes : View where
  buffer := [1, 2]
  byteOffset := 0
  byteLength := 2
  inside := by decide
  exact_ := by decide

def hugeView : View where
  buffer := List.replicate (2 ^ 32) 1
  byteOffset := 0
  byteLength := 2 ^ 32
  inside := by
    rw [List.length_replicate]
    decide
  exact_ := by
    rw [List.length_replicate]
    decide

theorem huge_view_altered :
    ¬ RoundTrips (xattrCalls .linux) (Spares sampleName.name) (setThenGet .linux sampleName.name hugeView)
        hugeView.content ∧
      ¬ RoundTrips (Windows.ntCalls Windows.documentedNaming) (Windows.Spares Windows.documentedNaming
        Windows.sampleStream) (Windows.setThenGet Windows.sampleStream hugeView) hugeView.content := by
  have length : hugeView.byteLength = 2 ^ 32 := rfl
  refine ⟨not_back_altered .linux sampleName hugeView ?_, Windows.remainder_altered _ hugeView ?_⟩
  · rw [length]
    intro passes
    rcases passes with small | ⟨above, _⟩
    · exact absurd small (by decide)
    · exact absurd above (by decide)
  · rw [length]
    exact Nat.lt_irrefl _

end FsExt.Attr
