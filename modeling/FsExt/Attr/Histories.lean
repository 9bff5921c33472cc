import FsExt.Attr.Store

set_option autoImplicit false

namespace FsExt.Attr

open Sys

namespace Windows

def request (asked : Request) : NtProgram Response :=
  match asked with
  | .get name => do return .got (← getAttrOutcome name)
  | .set name view => do return .done (← setAttr name view.buf)
  | .remove name => do return .done (shownRemoval (← removeAttr name))

def streamKey (naming : StreamNaming) (name : CString) : Except UvError Stream :=
  match streamName name with
  | .error err => .error err
  | .ok path =>
      match naming.opens path with
      | none => .error UvError.EIO
      | some stream => .ok stream

-- A set that fails may have emptied the stream or written a part of the value.
def streamTerms (naming : StreamNaming) (fails : Prop) : Terms Stream where
  key := streamKey naming
  may err := fails ∧ err = UvError.EIO
  spoils := True

def Small (fails : Prop) (file : NtFile) : Prop :=
  ∀ stream value, file.content stream = some value → value.length < 2 ^ 32 ∨ fails

structure Permitted (naming : StreamNaming) (asked : Request) : Prop where
  spared : ¬ SpellsMain naming asked.name
  small : ∀ name view, asked = .set name view → view.byteLength < 2 ^ 32

theorem stream_name_refused (name : CString) (err : UvError) (named : streamName name = .error err) :
    err ≠ .ENODATA := by
  rintro rfl
  simp only [streamName] at named
  split at named
  · cases named
  · split at named <;> cases named

theorem put_named (file : NtFile) (word : List UInt16) (value : List UInt8) :
    (file.put (.named word) value).content = Function.update file.content (.named word) (some value) := by
  funext stream
  cases stream with
  | unnamed => rw [Function.update_of_ne (by simp)]; rfl
  | named other =>
      by_cases same : other = word
      · subst other
        rw [Function.update_self]
        exact Function.update_self ..
      · rw [Function.update_of_ne (by simpa using same)]
        exact Function.update_of_ne same ..

theorem remove_named (file : NtFile) (word : List UInt16) :
    (file.remove (.named word)).content = Function.update file.content (.named word) none := by
  funext stream
  cases stream with
  | unnamed => rw [Function.update_of_ne (by simp)]; rfl
  | named other =>
      by_cases same : other = word
      · subst other
        rw [Function.update_self]
        exact Function.update_self ..
      · rw [Function.update_of_ne (by simpa using same)]
        exact Function.update_of_ne same ..

theorem small_updated (fails : Prop) (file file' : NtFile) (stream : Stream) (left : Option (List UInt8))
    (small : Small fails file) (less : ∀ value, left = some value → value.length < 2 ^ 32 ∨ fails)
    (changed : file'.content = Function.update file.content stream left) : Small fails file' := by
  intro other value held
  rw [changed] at held
  by_cases same : other = stream
  · subst other
    rw [Function.update_self] at held
    exact less value held
  · rw [Function.update_of_ne same] at held
    exact small other value held

section
variable (naming : StreamNaming) (fails : Prop)

def Carries (asked : Request) (file : NtFile) (response : Response) (file' : NtFile) : Prop :=
  Small fails file' ∧ Serves (streamTerms naming fails) asked file.content response file'.content

theorem key_opened (name : CString) (path : List UInt16) (stream : Stream) (named : streamName name = .ok path)
    (opened : naming.opens path = some stream) : (streamTerms naming fails).key name = .ok stream := by
  simp only [streamTerms, streamKey, named, opened]

theorem key_unopened (name : CString) (path : List UInt16) (named : streamName name = .ok path)
    (unopened : naming.opens path = none) : (streamTerms naming fails).key name = .error UvError.EIO := by
  simp only [streamTerms, streamKey, named, unopened]

theorem carries_invalid (asked : Request) (file : NtFile) (err : UvError) (small : Small fails file)
    (named : streamName asked.name = .error err) : Carries naming fails asked file (asked.failed err) file :=
  ⟨small, .invalid asked file.content err (by simp only [streamTerms, streamKey, named])⟩

theorem carries_failed (asked : Request) (path : List UInt16) (file : NtFile) (small : Small fails file)
    (named : streamName asked.name = .ok path) (failing : naming.opens path ≠ none → fails) :
    Carries naming fails asked file (asked.failed UvError.EIO) file := by
  refine ⟨small, ?_⟩
  by_cases opened : naming.opens path = none
  · exact .invalid asked file.content _ (key_unopened naming fails asked.name path named opened)
  · exact .failed asked file.content _ ⟨failing opened, rfl⟩

theorem get_carries (name : CString) (file : NtFile) (small : Small fails file) :
    Program.Ensures (storeCalls naming fails) (fun _ _ => True) (request (.get name)) file
      fun response file' => Carries naming fails (.get name) file response file' := by
  cases named : streamName name with
  | error err =>
      simp only [request, getAttrOutcome, getAttr, named]
      have invalid := carries_invalid naming fails (.get name) file err small named
      have shown := shown_error err (uvBufInit none 0) (stream_name_refused name err named)
      show Carries naming fails (.get name) file (.got (shownAttr (.error err, uvBufInit none 0))) file
      rw [shown]
      exact invalid
  | ok path =>
      simp only [request, getAttrOutcome, getAttr, named]
      have failed := carries_failed naming fails (.get name) path file small named
      refine ⟨trivial, fun opened file' look => ?_⟩
      obtain ⟨look, failing⟩ := look
      cases opened with
      | error err =>
          obtain ⟨missing, rfl⟩ := look
          cases err with
          | other => exact failed failing
          | objectNameNotFound =>
              obtain ⟨stream, found, gone⟩ := missing rfl
              exact ⟨small, .absent name stream file'.content (key_opened naming fails name path stream named found) gone⟩
      | ok stream =>
          obtain ⟨found, _, rfl⟩ := look
          have keyed := key_opened naming fails name path stream named found
          refine ⟨trivial, fun queried file'' query => ?_⟩
          obtain ⟨query, failing⟩ := query
          cases queried with
          | error err =>
              obtain rfl : file'' = file' := query
              refine ⟨trivial, fun _ file''' close => ?_⟩
              obtain rfl : file''' = file'' := close.1
              exact failed fun _ => failing trivial
          | ok length =>
              obtain ⟨content, held, rfl, rfl⟩ := query
              refine ⟨trivial, fun read file''' reading => ?_⟩
              obtain ⟨reading, failing⟩ := reading
              cases read with
              | error err =>
                  obtain rfl : file''' = file'' := reading
                  refine ⟨trivial, fun _ last close => ?_⟩
                  obtain rfl : last = file''' := close.1
                  exact failed fun _ => failing trivial
              | ok data =>
                  obtain ⟨content', held', rfl, rfl⟩ := reading
                  obtain rfl := Option.some.inj (held.symm.trans held')
                  refine ⟨trivial, fun _ last close => ?_⟩
                  obtain rfl : last = file''' := close.1
                  let buf := uvBufInit (malloc content.length) content.length
                  have len : buf.len = content.length % 2 ^ 32 := by
                    simp only [buf, uvBufInit]
                    omega
                  show Carries naming fails (.get name) last (.got (shownAttr
                    (if (content.take buf.len).length ≠ content.length then .error UvError.EIO else .ok (),
                      buf.fill (content.take buf.len)))) last
                  by_cases whole : (content.take buf.len).length = content.length
                  · rw [if_neg (not_not.mpr whole), shownAttr, read_whole content whole]
                    exact ⟨small, .found name stream last.content content keyed held⟩
                  · rw [if_pos whole]
                    refine failed fun _ => (small stream content held).resolve_left fun less => whole ?_
                    rw [List.length_take, len, Nat.mod_eq_of_lt less, Nat.min_self]

theorem set_carries (name : CString) (view : View) (spared : ¬ SpellsMain naming name) (less : view.byteLength < 2 ^ 32)
    (file : NtFile) (small : Small fails file) :
    Program.Ensures (storeCalls naming fails) (fun _ _ => True) (request (.set name view)) file
      fun response file' => Carries naming fails (.set name view) file response file' := by
  cases named : streamName name with
  | error err =>
      simp only [request, setAttr, named]
      exact carries_invalid naming fails (.set name view) file err small named
  | ok path =>
      simp only [request, setAttr, named]
      refine ⟨trivial, fun created file' create => ?_⟩
      obtain ⟨create, failing⟩ := create
      cases created with
      | error err =>
          obtain rfl : file' = file := create
          exact carries_failed naming fails (.set name view) path file' small named failing
      | ok stream =>
          obtain ⟨found, rfl⟩ := create
          obtain ⟨word, rfl⟩ := path_opens_named naming name path stream spared named found
          have keyed := key_opened naming fails name path _ named found
          refine ⟨trivial, fun written file'' write => ?_⟩
          obtain ⟨write, failing⟩ := write
          have contents := view_contents view
          cases written with
          | error err =>
              obtain ⟨left, rfl⟩ := write
              refine ⟨trivial, fun _ last close => ?_⟩
              obtain rfl : last = _ := close.1
              have changed : ((file.put (.named word) []).put (.named word) left).content =
                  Function.update file.content (.named word) (some left) := by
                rw [put_named, put_named, Function.update_idem]
              refine ⟨small_updated fails file _ _ _ small (fun value _ => .inr (failing trivial)) changed, ?_⟩
              rw [changed]
              exact .spoilt name _ view file.content UvError.EIO (some left) keyed ⟨failing trivial, rfl⟩ trivial
          | ok count =>
              obtain ⟨old, bytes_, held, known_, rfl, rfl⟩ := write
              refine ⟨trivial, fun _ last close => ?_⟩
              obtain rfl : last = _ := close.1
              rw [put_named, Function.update_self] at held
              obtain rfl := Option.some.inj held
              have written : bytes_ = view.content := by
                rw [← view_stored_whole view less]
                exact bytes_injective _ _ (known_.symm.trans contents)
              have changed : ((file.put (.named word) []).put (.named word) (bytes_ ++ [].drop bytes_.length)).content =
                  Function.update file.content (.named word) (some view.content) := by
                rw [put_named, put_named, Function.update_idem, List.drop_nil, List.append_nil, written]
              have count : ¬ bytes_.length ≠ view.buf.len := by
                rw [written, view_content_length]
                simp only [View.buf, uvBufInit]
                omega
              have status : (if bytes_.length ≠ view.buf.len then .error UvError.EIO else .ok () : Status) = .ok () :=
                if_neg count
              show Carries naming fails (.set name view) file
                (.done (if bytes_.length ≠ view.buf.len then .error UvError.EIO else .ok ())) _
              rw [status]
              refine ⟨small_updated fails file _ _ _ small (fun value same => .inl ?_) changed, ?_⟩
              · rw [← Option.some.inj same, view_content_length]
                exact less
              · rw [changed]
                exact .set name _ view file.content keyed

theorem remove_carries (name : CString) (spared : ¬ SpellsMain naming name) (file : NtFile) (small : Small fails file) :
    Program.Ensures (storeCalls naming fails) (fun _ _ => True) (request (.remove name)) file
      fun response file' => Carries naming fails (.remove name) file response file' := by
  cases named : streamName name with
  | error err =>
      simp only [request, removeAttr, named]
      have present := stream_name_refused name err named
      show Carries naming fails (.remove name) file (.done (shownRemoval (.error err))) file
      rw [shownRemoval, if_neg (by simpa using present)]
      exact carries_invalid naming fails (.remove name) file err small named
  | ok path =>
      simp only [request, removeAttr, named]
      have failed := carries_failed naming fails (.remove name) path file small named
      refine ⟨trivial, fun opened file' look => ?_⟩
      obtain ⟨look, failing⟩ := look
      cases opened with
      | error err =>
          obtain ⟨missing, rfl⟩ := look
          cases err with
          | other => exact failed failing
          | objectNameNotFound =>
              obtain ⟨stream, found, gone⟩ := missing rfl
              have same : Function.update file'.content stream none = file'.content := by
                rw [← gone]
                exact Function.update_eq_self ..
              have removed : Serves (streamTerms naming fails) (.remove name) file'.content (.done (.ok ()))
                  (Function.update file'.content stream none) :=
                .removed name stream file'.content (key_opened naming fails name path stream named found)
              rw [same] at removed
              exact ⟨small, removed⟩
      | ok stream =>
          obtain ⟨found, _, rfl⟩ := look
          obtain ⟨word, rfl⟩ := path_opens_named naming name path stream spared named found
          have keyed := key_opened naming fails name path _ named found
          refine ⟨trivial, fun deleted file'' delete => ?_⟩
          obtain ⟨delete, failing⟩ := delete
          cases deleted with
          | error err =>
              obtain rfl : file'' = file' := delete
              refine ⟨trivial, fun _ last close => ?_⟩
              obtain rfl : last = file'' := close.1
              exact failed fun _ => failing trivial
          | ok done =>
              obtain ⟨stream, found', _, rfl⟩ := delete
              obtain rfl := Option.some.inj (found.symm.trans found')
              refine ⟨trivial, fun _ last close => ?_⟩
              obtain rfl : last = _ := close.1
              have changed := remove_named file' word
              refine ⟨small_updated fails file' _ _ none small (fun value same => by cases same) changed, ?_⟩
              rw [changed]
              exact .removed name _ file'.content keyed

theorem request_carries (asked : Request) (permitted : Permitted naming asked) (file : NtFile)
    (small : Small fails file) :
    Program.Ensures (storeCalls naming fails) (fun _ _ => True) (request asked) file
      fun response file' => Carries naming fails asked file response file' := by
  cases asked with
  | get name => exact get_carries naming fails name file small
  | set name view => exact set_carries naming fails name view permitted.spared (permitted.small name view rfl) file small
  | remove name => exact remove_carries naming fails name permitted.spared file small

end

abbrev AttrHistory (naming : StreamNaming) (fails : Prop) (start : NtFile) : List (Request × Response) → NtFile → Prop :=
  Answered request (Permitted naming) (storeCalls naming fails) (fun _ _ => False) start

theorem history_sequential (naming : StreamNaming) (fails : Prop) (start final : NtFile)
    (calls : List (Request × Response)) (small : Small fails start)
    (history : AttrHistory naming fails start calls final) :
    Small fails final ∧ Sequential (Serves (streamTerms naming fails)) start.content calls final.content :=
  answered_sequential start final calls small
    (fun now asked _ _ response after permitted kept runs =>
      runs_ensured now after (request asked) _ _ response (fun _ _ => True) _
        (request_carries naming fails asked permitted now kept) runs) history

theorem utf16_injective (left right : List Char) (same : utf16 left = utf16 right) : left = right := by
  rw [← scalars_text left '\x00', ← scalars_text right '\x00', same]

-- A name that is one on Windows too and that the file system takes as it is: to
-- NTFS not two of which one is the other in capitals.
structure Portable (naming : StreamNaming) (name : CString) (word : List UInt16) : Prop where
  some_ : word ≠ []
  path : streamName name = .ok (colon :: word)
  opens : naming.opens (colon :: word) = some (.named word)

theorem portable_text (naming : StreamNaming) (name : CString) (word : List UInt16) (portable : Portable naming name word) :
    ∃ text, name = utf8 text ∧ utf16 text = word := by
  have named := portable.path
  simp only [streamName, multiByteToWideChar] at named
  split at named
  · cases named
  · rename_i wide found
    obtain ⟨text, same, rfl⟩ := Option.map_eq_some_iff.mp found
    split at named
    · exact ⟨text, decoded_utf8 name text same, (List.cons.inj (Except.ok.inj named)).2⟩
    · cases named

theorem portable_injective (naming : StreamNaming) (name name' : CString) (word : List UInt16)
    (portable : Portable naming name word) (portable' : Portable naming name' word) : name = name' := by
  obtain ⟨text, rfl, rfl⟩ := portable_text naming name word portable
  obtain ⟨text', rfl, same⟩ := portable_text naming name' _ portable'
  rw [utf16_injective text' text same]

theorem portable_word (naming : StreamNaming) (name : CString) (word word' : List UInt16)
    (portable : Portable naming name word) (portable' : Portable naming name word') : word' = word :=
  (List.cons.inj (Except.ok.inj (portable'.path.symm.trans portable.path))).2

theorem portable_spared (naming : StreamNaming) (name : CString) (word : List UInt16)
    (portable : Portable naming name word) : ¬ SpellsMain naming name := by
  rintro ⟨type, spells, named⟩
  have main := naming.main type spells
  rw [Except.ok.inj (named.symm.trans portable.path), portable.opens] at main
  cases main

theorem portable_key (naming : StreamNaming) (name : CString) (word : List UInt16)
    (portable : Portable naming name word) :
    (streamTerms naming False).key name = .ok (.named word) :=
  key_opened naming False name _ _ portable.path portable.opens

end Windows

def Request.answer : Request → Option (List UInt8) → Response
  | .get _, some value => .got (.buffer (bytes value))
  | .get _, none => .got .null
  | .set _ _, _ | .remove _, _ => .done (.ok ())

def Request.leaves : Request → Option (List UInt8) → Option (List UInt8)
  | .get _, held => held
  | .set _ view, _ => some view.content
  | .remove _, _ => none

theorem serves_smooth {K : Type} [DecidableEq K] (terms : Terms K) (smooth : ∀ err, ¬ terms.may err) (asked : Request)
    (k : K) (keyed : terms.key asked.name = .ok k) (store store' : K → Option (List UInt8)) (response : Response)
    (serves : Serves terms asked store response store') :
    response = asked.answer (store k) ∧ store' = Function.update store k (asked.leaves (store k)) := by
  have same : ∀ k', terms.key asked.name = .ok k' → k' = k := fun k' keyed' =>
    Except.ok.inj (keyed'.symm.trans keyed)
  cases serves with
  | found name k' store value keyed' held =>
      obtain rfl := same k' keyed'
      rw [held]
      refine ⟨rfl, ?_⟩
      rw [Request.leaves, ← held]
      exact (Function.update_eq_self ..).symm
  | absent name k' store keyed' gone =>
      obtain rfl := same k' keyed'
      rw [gone]
      refine ⟨rfl, ?_⟩
      rw [Request.leaves, ← gone]
      exact (Function.update_eq_self ..).symm
  | set name k' view store keyed' =>
      obtain rfl := same k' keyed'
      exact ⟨rfl, rfl⟩
  | removed name k' store keyed' =>
      obtain rfl := same k' keyed'
      exact ⟨rfl, rfl⟩
  | invalid request store err unkeyed => cases unkeyed.symm.trans keyed
  | failed request store err trouble => exact absurd trouble (smooth err)
  | spoilt name k' view store err left keyed' trouble spoils => exact absurd trouble (smooth err)

def Mirrors (naming : Windows.StreamNaming) (store : CString → Option (List UInt8)) (streams : Windows.Stream → Option (List UInt8)) : Prop :=
  ∀ name word, Windows.Portable naming name word → streams (.named word) = store name

theorem mirrors_updated (naming : Windows.StreamNaming) (store : CString → Option (List UInt8)) (streams : Windows.Stream → Option (List UInt8))
    (name : CString) (word : List UInt16) (left : Option (List UInt8)) (portable : Windows.Portable naming name word)
    (mirrors : Mirrors naming store streams) :
    Mirrors naming (Function.update store name left) (Function.update streams (.named word) left) := by
  intro other word' portable'
  by_cases same : other = name
  · subst other
    rw [Windows.portable_word naming name word word' portable portable', Function.update_self, Function.update_self]
  · have different : Windows.Stream.named word' ≠ .named word := by
      intro words
      cases words
      exact same (Windows.portable_injective naming other name word portable' portable)
    rw [Function.update_of_ne different, Function.update_of_ne same]
    exact mirrors other word' portable'

theorem serves_agree (naming : Windows.StreamNaming) (asked : Request) (store store' : CString → Option (List UInt8))
    (streams streams' : Windows.Stream → Option (List UInt8)) (response response' : Response)
    (portable : ∃ word, Windows.Portable naming asked.name word) (mirrors : Mirrors naming store streams)
    (serves : Serves (xattrTerms fun _ => False) asked store response store')
    (serves' : Serves (Windows.streamTerms naming False) asked streams response' streams') :
    response' = response ∧ Mirrors naming store' streams' := by
  obtain ⟨word, portable⟩ := portable
  obtain ⟨rfl, rfl⟩ := serves_smooth _ (fun _ trouble => trouble) asked asked.name rfl store store' response serves
  obtain ⟨rfl, rfl⟩ := serves_smooth _ (fun err (trouble : False ∧ err = UvError.EIO) => trouble.1) asked (.named word)
    (Windows.portable_key naming asked.name word portable) streams streams' response' serves'
  have same := mirrors asked.name word portable
  rw [same]
  exact ⟨rfl, mirrors_updated naming store streams asked.name word _ portable mirrors⟩

abbrev XattrHistory (kept : CString → Prop) (platform : Platform) (may : UvError → Prop) (start : AttrFile) :
    List (Request × Response) → AttrFile → Prop :=
  Answered (Request.program platform) (Request.Fits kept) (attrCalls kept platform may) (Drifts may) start

section
variable (kept : CString → Prop) (platform : Platform) (may : UvError → Prop) (other : AttrFile → AttrFile → Prop)
  (name : CString)

theorem set_succeeds (view : View) (file file' : AttrFile) (stored : kept name) (fine : file.trouble = none)
    (bounded : file'.Bounded may) (stores : file.Stores file' name view.stored) :
    Program.Runs (attrCalls kept platform may) other file ((Request.set name view).program platform) [file]
      [file, file'] (.done (.ok ())) file' := by
  have reports : (⟨0, none, []⟩ : XattrResult).Reports (.ok (0, [])) := ⟨rfl, rfl⟩
  have sets : attrCalls kept platform may (.xattr (.fsetxattr name view.buf.contents)) file ⟨0, none, []⟩ file' :=
    kept_called kept platform may _ _ _ _ stored ⟨bounded, .inr ⟨fine, reports, view.stored, view_contents view, stores⟩,
      fun err failed => by cases failed.1⟩
  rw [set_program]
  exact .call _ _ _ _ _ _ _ _ _ sets (.ret _ _)

theorem get_succeeds (value : List UInt8) (file : AttrFile) (stored : kept name) (fine : file.trouble = none)
    (bounded : file.Bounded may) (small : value.length < 2 ^ 31) (held : file.lookup name = some value) :
    Program.Runs (attrCalls kept platform may) other file ((Request.get name).program platform) [file, file]
      [file, file, file] (.got (.buffer (bytes value))) file := by
  let size : XattrResult := ⟨value.length, none, []⟩
  have sizes : attrCalls kept platform may (.xattr (.fgetxattr name true 0)) file size file := by
    refine kept_called kept platform may _ _ _ _ stored ⟨bounded, ?_, rfl⟩
    simp only [AttrFile.reply, fine, held]
    cases platform <;> exact ⟨rfl, rfl⟩
  obtain ⟨written, reads⟩ : ∃ written, attrCalls kept platform may (.xattr (.fgetxattr name false value.length)) file
      ⟨value.length, none, written⟩ file := by
    by_cases empty : platform = .linux ∧ value.length = 0
    · refine ⟨[], kept_called kept platform may _ _ _ _ stored ⟨bounded, ?_, rfl⟩⟩
      simp only [AttrFile.reply, fine, held, transfer, if_pos (Or.inl empty)]
      exact ⟨rfl, rfl⟩
    · refine ⟨value, kept_called kept platform may _ _ _ _ stored ⟨bounded, ?_, rfl⟩⟩
      simp only [AttrFile.reply, fine, held, transfer]
      rw [if_neg (by simpa using fun linux => not_and.mp empty linux), if_neg (Nat.lt_irrefl _), if_neg (by simp)]
      exact ⟨rfl, rfl⟩
  have reports := (reads.1 stored).2.1
  simp only [AttrFile.reply, fine, held] at reports
  rw [get_program]
  refine .call _ _ _ _ _ _ _ _ _ sizes ?_
  rw [sized_value platform name size value small rfl]
  refine .call _ _ _ _ _ _ _ _ _ reads ?_
  rw [content_whole platform value size _ small rfl reports]
  exact .ret _ _

theorem get_absent (file : AttrFile) (stored : kept name) (fine : file.trouble = none) (bounded : file.Bounded may)
    (gone : file.lookup name = none) :
    Program.Runs (attrCalls kept platform may) other file ((Request.get name).program platform) [file] [file, file]
      (.got .null) file := by
  let size : XattrResult := ⟨-1, some (missing platform), []⟩
  have reports : size.Reports (.error (missing platform)) := ⟨rfl, rfl, rfl⟩
  have looks : attrCalls kept platform may (.xattr (.fgetxattr name true 0)) file size file := by
    refine kept_called kept platform may _ _ _ _ stored ⟨bounded, ?_, rfl⟩
    simp only [AttrFile.reply, fine, gone]
    exact reports
  rw [get_program]
  refine .call _ _ _ _ _ _ _ _ _ looks ?_
  rw [sized_failed platform name size _ reports, size_error_missing platform]
  exact .ret _ _

end

def setThenGot (name : AttrName) : List (Request × Response) :=
  [] ++ [(.set name.name twoBytes, .done (.ok ()))] ++ [(.get name.name, .got (.buffer (bytes [1, 2])))]

theorem absent_sound (name : AttrName) : Sound (fun _ => False) (single name none) where
  bounded trouble inTrouble := by cases inTrouble
  small other held found := by cases found

theorem single_stores (name : AttrName) (value : List UInt8) :
    (single name none).Stores (single name (some value)) name.name value := by
  refine ⟨single_lookup name _, fun other different => ?_⟩
  simp [single, AttrFile.lookup, Ne.symm different]

theorem single_history (kept : CString → Prop) (name : AttrName) (stored : kept name.name) :
    XattrHistory kept .linux (fun _ => False) (single name none) (setThenGot name) (single name (some [1, 2])) := by
  have bounded := (single_sound (fun _ => False) name [1, 2] (by decide)).bounded
  have sets := set_succeeds kept .linux (fun _ => False) (Drifts fun _ => False) name.name twoBytes (single name none)
    (single name (some [1, 2])) stored rfl bounded (single_stores name _)
  have gets := get_succeeds kept .linux (fun _ => False) (Drifts fun _ => False) name.name [1, 2]
    (single name (some [1, 2])) stored rfl bounded (by decide) (single_lookup name _)
  have small : (Request.set name.name twoBytes).Small := show 2 < 2 ^ 31 by decide
  exact .snoc _ _ _ _ _ _ _ (.snoc _ _ _ _ _ _ _ .none ⟨stored, small⟩ sets) ⟨stored, trivial⟩ gets

namespace Windows

theorem sample_portable : Portable documentedNaming sampleName.name (utf16 "a".toList) :=
  ⟨by decide, sample_stream_named, rfl⟩

theorem bare_small : Small False bareFile := by
  intro stream value held
  cases stream with
  | unnamed =>
      obtain rfl := Option.some.inj held
      exact .inl (by decide)
  | named word => cases held

def setFile (word : List UInt16) : NtFile := (bareFile.put (.named word) []).put (.named word) [1, 2]

theorem set_file_content (word other : List UInt16) :
    (setFile word).content (.named other) = if other = word then some [1, 2] else none := by
  rw [setFile, put_named, put_named, Function.update_idem, Function.update_apply]
  simp only [Stream.named.injEq]
  rfl

theorem portable_history (naming : StreamNaming) (name : AttrName) (word : List UInt16)
    (portable : Portable naming name.name word) :
    AttrHistory naming False bareFile (setThenGot name) (setFile word) := by
  have spared := portable_spared naming name.name word portable
  have held : (setFile word).content (.named word) = some [1, 2] := by rw [set_file_content, if_pos rfl]
  obtain ⟨_, _, sets⟩ := set_succeeds naming (fun _ _ => False) name.name _ word twoBytes bareFile portable.path
    portable.opens
  obtain ⟨_, _, gets⟩ := get_succeeds naming (fun _ _ => False) name.name _ word [1, 2] (setFile word) (by decide)
    portable.path portable.opens held
  have sets' := (Program.runs_map _ _ _ _ Response.done _ _ _ _).mpr ⟨_, rfl, sets⟩
  have gets' := (Program.runs_map _ _ _ _ Response.got _ _ _ _).mpr ⟨_, rfl, gets⟩
  refine .snoc _ _ _ _ _ _ _ (.snoc _ _ _ _ _ _ _ .none ⟨spared, fun _ _ same => ?_⟩ sets')
    ⟨spared, fun _ _ same => by cases same⟩ gets'
  cases same
  decide

end Windows

theorem attr_histories_refine :
    (∀ kept platform may start final calls, Sound may start → XattrHistory kept platform may start calls final →
      Sequential (Serves (xattrTerms may)) start.lookup calls final.lookup) ∧
    ∀ naming fails start final calls, Windows.Small fails start → Windows.AttrHistory naming fails start calls final →
      Sequential (Serves (Windows.streamTerms naming fails)) start.content calls final.content :=
  ⟨fun kept platform may start final calls sound history =>
      (commits_answered (attr_commits kept platform may) start final calls sound history).2,
    fun naming fails start final calls small history =>
      (Windows.history_sequential naming fails start final calls small history).2⟩

theorem sample_histories_refine :
    Sequential (Serves (xattrTerms fun _ => False)) (single sampleName none).lookup (setThenGot sampleName)
        (single sampleName (some [1, 2])).lookup ∧
      Sequential (Serves (Windows.streamTerms Windows.documentedNaming False)) Windows.bareFile.content
        (setThenGot sampleName) (Windows.setFile (utf16 "a".toList)).content :=
  ⟨attr_histories_refine.1 OneLetter .linux _ _ _ _ (absent_sound _) (single_history OneLetter sampleName rfl),
    attr_histories_refine.2 _ _ _ _ _ Windows.bare_small
      (Windows.portable_history _ sampleName _ Windows.sample_portable)⟩

theorem attr_histories_portable (kept : CString → Prop) (platform : Platform) (naming : Windows.StreamNaming)
    (start final : AttrFile) (start' final' : Windows.NtFile) (calls calls' : List (Request × Response))
    (sound : Sound (fun _ => False) start) (small : Windows.Small False start')
    (mirrors : Mirrors naming start.lookup start'.content) (same : calls'.map Prod.fst = calls.map Prod.fst)
    (portable : ∀ call ∈ calls, ∃ word, Windows.Portable naming call.1.name word)
    (history : XattrHistory kept platform (fun _ => False) start calls final)
    (history' : Windows.AttrHistory naming False start' calls' final') :
    calls' = calls ∧ Mirrors naming final.lookup final'.content := by
  have sequential := (commits_answered (attr_commits kept platform fun _ => False) start final calls sound history).2
  have sequential' := (Windows.history_sequential naming False start' final' calls' small history').2
  refine sequential_agree _ _ (Mirrors naming) (fun asked => ∃ word, Windows.Portable naming asked.name word) ?_ _ _ _ _
    calls calls' mirrors same portable sequential sequential'
  intro asked store response store' streams response' streams' portable mirrors serves serves'
  exact serves_agree naming asked store store' streams streams' response response' portable mirrors serves serves'

theorem set_then_got_named (name : AttrName) (call : Request × Response) (member : call ∈ setThenGot name) :
    call.1.name = name.name := by
  simp only [setThenGot, List.nil_append, List.cons_append, List.mem_cons, List.not_mem_nil, or_false] at member
  rcases member with rfl | rfl
  · rfl
  · rfl

theorem sample_histories_portable :
    setThenGot sampleName = setThenGot sampleName ∧
      Mirrors Windows.documentedNaming (single sampleName (some [1, 2])).lookup
        (Windows.setFile (utf16 "a".toList)).content :=
  attr_histories_portable OneLetter .linux Windows.documentedNaming _ _ _ _ _ _ (absent_sound _) Windows.bare_small
    (fun _ _ _ => rfl) rfl
    (fun call member => ⟨_, by
      rw [set_then_got_named sampleName call member]
      exact Windows.sample_portable⟩)
    (single_history OneLetter sampleName rfl) (Windows.portable_history _ sampleName _ Windows.sample_portable)

end FsExt.Attr
