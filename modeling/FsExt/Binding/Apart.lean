import FsExt.Attr.Histories
import FsExt.Binding.Strings

set_option autoImplicit false

namespace FsExt.Binding

open Sys
open FsExt.Attr (AttrFile AttrOp Drifts OneLetter Request Response Sound View XattrHistory XattrResult afterSize
  attrCalls attr_call_spares attr_commits get_program kept_called remove_program sampleName set_program single
  single_lookup single_sound single_stores sized twoBytes)
open FsExt.Attr.Windows (Access NtError NtFile NtProgram Spares SpellsMain Stream StreamNaming bareFile colon
  documentedNaming getAttrOutcome get_carries key_opened multiByteToWideChar ntCalls path_opens_named
  portable_spared request sample_portable sample_stream_named storeCalls streamName)

section
variable {Op : Type} {Answer : Op → Type} {σ : Type}

def Asks (writer : Utf8Writer) (ask : CString → Request) (name : JsString) (request : Request) : Prop :=
  onQueuedName writer ask name = some request ∨ onName writer ask name = some request

def Apart (writer : Utf8Writer) (program : Request → Program Op Answer Response) (sem : Program.Semantics Op Answer σ)
    (other : σ → σ → Prop) (name second : JsString) : Prop :=
  ∀ change reading, (Asks writer .remove name change ∨ ∃ view, Asks writer (.set · view) name change) →
    Asks writer .get second reading → ∀ start asked seen final,
      Program.Runs sem other start (program change) asked seen (.done (.ok ())) final → ∀ response,
        Program.Yields sem other final (program reading) response ↔
          Program.Yields sem other start (program reading) response

theorem asks_text (writer : Utf8Writer) (ask : CString → Request) (text : List Char) (request : Request)
    (plain : '\x00' ∉ text) : Asks writer ask (utf16 text) request ↔ request = ask (utf8 text) := by
  rw [Asks, queued_name, on_name_text writer ask text plain, or_self, Option.some.injEq, eq_comm]

end

namespace Xattr

variable (kept : CString → Prop) (platform : FsExt.Attr.Platform) (may : UvError → Prop)

def Alike (name : CString) (file file' : AttrFile) : Prop :=
  file.trouble = file'.trouble ∧ file.lookup name = file'.lookup name

theorem read_alike (name : CString) (null : Bool) (size : Nat) (file other after : AttrFile)
    (answer : XattrResult) (stored : kept name) (alike : Alike name file other)
    (called : attrCalls kept platform may (.xattr (.fgetxattr name null size)) file answer after) :
    ∃ after', attrCalls kept platform may (.xattr (.fgetxattr name null size)) other answer after' ∧
      Alike name after after' := by
  obtain ⟨bounded, reports, rfl⟩ := called.1 stored
  have replies : other.reply platform (.fgetxattr name null size) = after.reply platform (.fgetxattr name null size) := by
    simp only [AttrFile.reply, alike.1, alike.2]
  refine ⟨other, kept_called kept platform may _ _ _ _ stored ⟨fun trouble inTrouble => ?_, ?_, rfl⟩, alike⟩
  · exact bounded trouble (alike.1.trans inTrouble)
  · rw [replies]
    exact reports

theorem get_blind (name : CString) (stored : kept name) :
    Program.Blind (attrCalls kept platform may) (Alike name) ((Request.get name).program platform) := by
  rw [get_program]
  intro file other size after alike called
  refine ⟨read_alike kept platform may name _ _ file other after size stored alike called, ?_⟩
  rw [sized, afterSize]
  split
  · trivial
  · intro file other content after alike called
    exact ⟨read_alike kept platform may name _ _ file other after content stored alike called, trivial⟩

theorem drift_alike (name : CString) (file other after : AttrFile) (alike : Alike name file other)
    (drift : Drifts may file after) :
    ∃ other', Relation.ReflTransGen (Drifts may) other other' ∧ Alike name after other' :=
  ⟨{ other with trouble := after.trouble }, .single ⟨fun _ => rfl, drift.2⟩, rfl, (drift.1 name).trans alike.2⟩

theorem yields_again (name : CString) (stored : kept name) (start final : AttrFile) (response : Response)
    (bounded : start.Bounded may) (same : final.lookup name = start.lookup name)
    (yields : Program.Yields (attrCalls kept platform may) (Drifts may) start ((Request.get name).program platform)
      response) :
    Program.Yields (attrCalls kept platform may) (Drifts may) final ((Request.get name).program platform) response := by
  obtain ⟨_, _, _, runs⟩ := Program.blind_yields _ (Drifts may) (Alike name) start { final with trouble := start.trouble }
    _ response (get_blind kept platform may name stored) (fun file other after => drift_alike may name file other after)
    ⟨rfl, same.symm⟩ yields
  have drift : Drifts may final { final with trouble := start.trouble } := ⟨fun _ => rfl, bounded⟩
  exact ⟨_, _, _, .other _ _ _ _ _ _ _ drift runs⟩

theorem change_spares (op : AttrOp) (last : XattrResult → Response) (name : CString)
    (stored : kept name) (spares : op.changes ≠ some name) (start final : AttrFile) (asked seen : List AttrFile)
    (response : Response)
    (runs : Program.Runs (attrCalls kept platform may) (Drifts may) start (.call op fun result => .ret (last result))
      asked seen response final) : final.lookup name = start.lookup name := by
  have drifts : ∀ file file', Drifts may file file' → file.lookup name = start.lookup name →
      file'.lookup name = start.lookup name := fun file file' drift same => (drift.1 name).trans same
  obtain ⟨met, result, met', asked', seen', same, _, _, _, called, rest⟩ :=
    Program.runs_call_kept _ _ (fun file => file.lookup name = start.lookup name) _ _ _ _ _ _ _ drifts rfl runs
  have spared := attr_call_spares kept platform may op met result met' name stored spares called
  exact Program.runs_ret_kept _ _ (fun file => file.lookup name = start.lookup name) met' _ _ _ _ final drifts
    (spared.trans same) rest

theorem never_null (name : CString) (value : List UInt8) (stored : kept name) (file : AttrFile)
    (sound : Sound may file) (held : file.lookup name = some value) :
    ¬ Program.Yields (attrCalls kept platform may) (Drifts may) file ((Request.get name).program platform)
      (.got .null) := by
  rintro ⟨asked, seen, final, runs⟩
  have history : XattrHistory kept platform may file ([] ++ [(.get name, .got .null)]) final :=
    .snoc _ file final _ _ asked seen .none ⟨stored, trivial⟩ runs
  have sequential := (commits_answered (attr_commits kept platform may) file final _ sound history).2
  obtain ⟨now, first, served⟩ := sequential_last _ _ _ _ _ _ sequential
  rw [sequential_none _ _ now first] at served
  generalize answered : Response.got .null = response at served
  generalize start : file.lookup = store at served
  generalize final.lookup = left at served
  cases served with
  | found _ _ _ _ _ _ => cases answered
  | absent _ k _ keyed gone =>
      cases keyed
      rw [← start, held] at gone
      cases gone
  | invalid _ _ err _ => cases answered
  | failed _ _ err _ => cases answered

end Xattr

abbrev XattrApart (writer : Utf8Writer) (kept : CString → Prop) (platform : FsExt.Attr.Platform) :
    JsString → JsString → Prop :=
  Apart writer (Request.program platform) (attrCalls kept platform fun _ => True) (Drifts fun _ => True)

theorem passable_apart (writer : Utf8Writer) (kept : CString → Prop) (platform : FsExt.Attr.Platform)
    (name second : JsString) (passable : Passable name) (passable' : Passable second) (different : name ≠ second)
    (stored : kept (jsUtf8 second)) : XattrApart writer kept platform name second := by
  obtain ⟨text, rfl, plain⟩ := passable
  obtain ⟨text', rfl, plain'⟩ := passable'
  rw [js_utf8_text] at stored
  have apart : utf8 text ≠ utf8 text' := fun same => different (congrArg utf16 (utf8_injective text text' same))
  have bounded : ∀ file : AttrFile, file.Bounded fun _ => True := fun file trouble _ => trivial
  intro change reading changes reads start asked seen final runs response
  obtain rfl := (asks_text writer .get text' reading plain').mp reads
  have same : final.lookup (utf8 text') = start.lookup (utf8 text') := by
    rcases changes with removes | ⟨view, sets⟩
    · obtain rfl := (asks_text writer .remove text change plain).mp removes
      have spares : (AttrOp.fremovexattr (utf8 text)).changes ≠ some (utf8 text') := fun same =>
        apart (Option.some.inj same)
      rw [remove_program] at runs
      exact Xattr.change_spares kept platform _ _ _ (utf8 text') stored spares start final asked seen _ runs
    · obtain rfl := (asks_text writer (.set · view) text change plain).mp sets
      have spares : (AttrOp.xattr (.fsetxattr (utf8 text) view.buf.contents)).changes ≠ some (utf8 text') :=
        fun same => apart (Option.some.inj same)
      rw [set_program] at runs
      exact Xattr.change_spares kept platform _ _ _ (utf8 text') stored spares start final asked seen _ runs
  exact ⟨Xattr.yields_again kept platform _ (utf8 text') stored final start response (bounded final) same.symm,
    Xattr.yields_again kept platform _ (utf8 text') stored start final response (bounded start) same⟩

namespace Streams

variable (naming : StreamNaming)

theorem open_alike (name : CString) (path : List UInt16) (access : Access) (file other after : NtFile)
    (answer : Except NtError Stream) (named : streamName name = .ok path) (alike : Spares naming name file other)
    (called : ntCalls naming (.openFile path access) file answer after) :
    ntCalls naming (.openFile path access) other answer other ∧ after = file := by
  cases answer with
  | ok handle =>
      obtain ⟨opened, held, rfl⟩ := called
      exact ⟨⟨opened, by rw [alike path handle named opened]; exact held, rfl⟩, rfl⟩
  | error err =>
      obtain ⟨missing, rfl⟩ := called
      refine ⟨⟨fun none_ => ?_, rfl⟩, rfl⟩
      obtain ⟨stream, opened, gone⟩ := missing none_
      exact ⟨stream, opened, by rw [alike path stream named opened]; exact gone⟩

theorem query_alike (handle : Stream) (file other after : NtFile) (answer : Except NtError Nat)
    (alike : other.content handle = file.content handle)
    (called : ntCalls naming (.queryEndOfFile handle) file answer after) :
    ntCalls naming (.queryEndOfFile handle) other answer other ∧ after = file := by
  cases answer with
  | error err => exact ⟨rfl, called⟩
  | ok length =>
      obtain ⟨content, held, count, rfl⟩ := called
      exact ⟨⟨content, alike.trans held, count, rfl⟩, rfl⟩

theorem read_alike (handle : Stream) (length : Nat) (file other after : NtFile) (answer : Except NtError (List UInt8))
    (alike : other.content handle = file.content handle)
    (called : ntCalls naming (.readFile handle length) file answer after) :
    ntCalls naming (.readFile handle length) other answer other ∧ after = file := by
  cases answer with
  | error err => exact ⟨rfl, called⟩
  | ok read =>
      obtain ⟨content, held, part, rfl⟩ := called
      exact ⟨⟨content, alike.trans held, part, rfl⟩, rfl⟩

theorem close_alike (handle : Stream) (file other after : NtFile) (called : ntCalls naming (.close handle) file () after) :
    ntCalls naming (.close handle) other () other ∧ after = file := ⟨rfl, called⟩

theorem get_blind (name : CString) : Program.Blind (ntCalls naming) (Spares naming name) (request (.get name)) := by
  have closes : ∀ (handle : Stream) (next : Unit → NtProgram Response),
      (∀ done, Program.Blind (ntCalls naming) (Spares naming name) (next done)) →
      Program.Blind (ntCalls naming) (Spares naming name) (.call (.close handle) next) := by
    intro handle next rest file other answer after alike called
    obtain ⟨called', rfl⟩ := close_alike naming handle file other after called
    exact ⟨⟨other, called', alike⟩, rest answer⟩
  cases named : streamName name with
  | error err =>
      simp only [request, getAttrOutcome, FsExt.Attr.Windows.getAttr, named]
      trivial
  | ok path =>
      simp only [request, getAttrOutcome, FsExt.Attr.Windows.getAttr, named]
      intro file other opened after alike called
      obtain ⟨called', rfl⟩ := open_alike naming name path _ file other after opened named alike called
      refine ⟨⟨other, called', alike⟩, ?_⟩
      cases opened with
      | error err => trivial
      | ok handle =>
          have found : naming.opens path = some handle := called'.1
          intro file other queried after alike called
          obtain ⟨called', rfl⟩ := query_alike naming handle file other after queried (alike path handle named found) called
          refine ⟨⟨other, called', alike⟩, ?_⟩
          cases queried with
          | error err => exact closes handle _ fun _ => trivial
          | ok length =>
              intro file other read after alike called
              obtain ⟨called', rfl⟩ := read_alike naming handle _ file other after read (alike path handle named found)
                called
              refine ⟨⟨other, called', alike⟩, closes handle _ fun _ => ?_⟩
              cases read with
              | error err => trivial
              | ok content => trivial

theorem put_other (file : NtFile) (handle stream : Stream) (content : List UInt8) (different : handle ≠ stream) :
    (file.put handle content).content stream = file.content stream := by
  cases handle with
  | unnamed =>
      cases stream with
      | unnamed => exact absurd rfl different
      | named word => rfl
  | named word =>
      cases stream with
      | unnamed => rfl
      | named other => exact Function.update_of_ne (fun same : other = word => different (same ▸ rfl)) ..

theorem remove_other (file : NtFile) (handle stream : Stream) (different : handle ≠ stream) :
    (file.remove handle).content stream = file.content stream := by
  cases handle with
  | unnamed =>
      cases stream with
      | unnamed => exact absurd rfl different
      | named word => rfl
  | named word =>
      cases stream with
      | unnamed => rfl
      | named other => exact Function.update_of_ne (fun same : other = word => different (same ▸ rfl)) ..

theorem set_spares_other (name : CString) (view : View) (file : NtFile) (stream : Stream)
    (different : ∀ path, streamName name = .ok path → naming.opens path ≠ some stream) :
    Program.Ensures (ntCalls naming) (fun _ _ => True) (request (.set name view)) file
      fun _ final => final.content stream = file.content stream := by
  cases named : streamName name with
  | error err =>
      simp only [request, FsExt.Attr.Windows.setAttr, named]
      rfl
  | ok path =>
      simp only [request, FsExt.Attr.Windows.setAttr, named]
      refine ⟨trivial, fun created file' create => ?_⟩
      cases created with
      | error err =>
          obtain rfl : file' = file := create
          rfl
      | ok handle =>
          obtain ⟨opened, rfl⟩ := create
          have other : handle ≠ stream := fun same => different path named (same ▸ opened)
          refine ⟨trivial, fun written file'' write => ⟨trivial, fun _ final close => ?_⟩⟩
          obtain rfl : final = file'' := close
          cases written with
          | error err =>
              obtain ⟨content, rfl⟩ := write
              exact (put_other _ _ _ _ other).trans (put_other _ _ _ _ other)
          | ok count =>
              obtain ⟨_, _, _, _, _, rfl⟩ := write
              have kept : ∀ content, ((file.put handle []).put handle content).content stream = file.content stream :=
                fun content => (put_other _ _ _ _ other).trans (put_other _ _ _ _ other)
              simp only
              split
              · exact kept _
              · exact kept _

theorem remove_spares_other (name : CString) (file : NtFile) (stream : Stream)
    (different : ∀ path, streamName name = .ok path → naming.opens path ≠ some stream) :
    Program.Ensures (ntCalls naming) (fun _ _ => True) (request (.remove name)) file
      fun _ final => final.content stream = file.content stream := by
  cases named : streamName name with
  | error err =>
      simp only [request, FsExt.Attr.Windows.removeAttr, named]
      rfl
  | ok path =>
      simp only [request, FsExt.Attr.Windows.removeAttr, named]
      refine ⟨trivial, fun found file' look => ?_⟩
      cases found with
      | error err =>
          obtain rfl : file' = file := look.2
          rfl
      | ok handle =>
          obtain rfl : file' = file := look.2.2
          refine ⟨trivial, fun deleted file'' delete => ⟨trivial, fun _ final close => ?_⟩⟩
          obtain rfl : final = file'' := close
          cases deleted with
          | error err =>
              obtain rfl : final = file' := delete
              rfl
          | ok done =>
              obtain ⟨removed, opened, _, rfl⟩ := delete
              exact remove_other _ _ _ fun same => different path named (same ▸ opened)

theorem never_null (name : CString) (path word : List UInt16) (file : NtFile) (value : List UInt8)
    (named : streamName name = .ok path) (opened : naming.opens path = some (.named word))
    (held : file.content (.named word) = some value) :
    ¬ Program.Yields (ntCalls naming) (fun _ _ => False) file (request (.get name)) (.got .null) := by
  rintro ⟨asked, seen, final, runs⟩
  have runs' := Program.runs_mono _ (storeCalls naming True) _ _ _ _ _ _ _
    (fun _ _ _ _ called => ⟨called, fun _ => trivial⟩) runs
  have served := (runs_ensured _ _ _ _ _ _ _ _ (get_carries naming True name file fun _ _ _ => .inr trivial)
    runs').2
  generalize answered : Response.got .null = response at served
  generalize start : file.content = store at served
  generalize final.content = left at served
  cases served with
  | found _ _ _ _ _ _ => cases answered
  | absent _ stream _ keyed gone =>
      have same := keyed.symm.trans (key_opened naming True name path _ named opened)
      rw [Except.ok.inj same, ← start, held] at gone
      cases gone
  | invalid _ _ err _ => cases answered
  | failed _ _ err _ => cases answered

end Streams

def SameStream (naming : StreamNaming) (name second : CString) : Prop :=
  ∃ path path' stream, streamName name = .ok path ∧ streamName second = .ok path' ∧
    naming.opens path = some stream ∧ naming.opens path' = some stream

abbrev StreamsApart (writer : Utf8Writer) (naming : StreamNaming) : JsString → JsString → Prop :=
  Apart writer request (ntCalls naming) fun _ _ => False

theorem streams_apart (writer : Utf8Writer) (naming : StreamNaming) (name second : JsString)
    (passable : Passable name) (passable' : Passable second)
    (different : ¬ SameStream naming (jsUtf8 name) (jsUtf8 second)) : StreamsApart writer naming name second := by
  obtain ⟨text, rfl, plain⟩ := passable
  obtain ⟨text', rfl, plain'⟩ := passable'
  rw [js_utf8_text, js_utf8_text] at different
  intro change reading changes reads start asked seen final runs response
  obtain rfl := (asks_text writer .get text' reading plain').mp reads
  have apart : ∀ path' stream, streamName (utf8 text') = .ok path' → naming.opens path' = some stream →
      ∀ path, streamName (utf8 text) = .ok path → naming.opens path ≠ some stream :=
    fun path' stream named' opened' path named opened =>
      different ⟨path, path', stream, named, named', opened, opened'⟩
  have spared : Spares naming (utf8 text') start final := by
    intro path' stream named' opened'
    rcases changes with removes | ⟨view, sets⟩
    · obtain rfl := (asks_text writer .remove text change plain).mp removes
      exact runs_ensured start final _ asked seen _ (fun _ _ => True) _
        (Streams.remove_spares_other naming (utf8 text) start stream (apart path' stream named' opened')) runs
    · obtain rfl := (asks_text writer (.set · view) text change plain).mp sets
      exact runs_ensured start final _ asked seen _ (fun _ _ => True) _
        (Streams.set_spares_other naming (utf8 text) view start stream (apart path' stream named' opened')) runs
  have alike : ∀ file other, Spares naming (utf8 text') file other →
      Program.Yields (ntCalls naming) (fun _ _ => False) file (request (.get (utf8 text'))) response →
      Program.Yields (ntCalls naming) (fun _ _ => False) other (request (.get (utf8 text'))) response :=
    fun file other => Program.blind_yields _ _ _ file other _ response (Streams.get_blind naming (utf8 text'))
      (fun _ _ _ _ step => step.elim)
  exact ⟨alike final start fun path stream named opened => (spared path stream named opened).symm,
    alike start final spared⟩

theorem streams_collide (writer : Utf8Writer) (naming : StreamNaming) (name second : JsString)
    (passable : Passable name) (passable' : Passable second) (spared : ¬ SpellsMain naming (jsUtf8 name))
    (same : SameStream naming (jsUtf8 name) (jsUtf8 second)) : ¬ StreamsApart writer naming name second := by
  obtain ⟨text, rfl, plain⟩ := passable
  obtain ⟨text', rfl, plain'⟩ := passable'
  rw [js_utf8_text] at spared
  rw [js_utf8_text, js_utf8_text] at same
  obtain ⟨path, path', stream, named, named', opened, opened'⟩ := same
  obtain ⟨word, rfl⟩ := path_opens_named naming (utf8 text) path stream spared named opened
  intro apart
  obtain ⟨asked, seen, sets⟩ := FsExt.Attr.Windows.set_succeeds naming (fun _ _ => False) (utf8 text) path word
    twoBytes bareFile named opened
  have gets := FsExt.Attr.Windows.get_absent naming (fun _ _ => False) (utf8 text') path' word
    bareFile named' opened' rfl
  have weaker : ∀ op file answer file', storeCalls naming False op file answer file' →
      ntCalls naming op file answer file' := fun _ _ _ _ called => called.1
  have sets' := (Program.runs_map _ _ _ _ Response.done _ _ _ _).mpr ⟨_, rfl, Program.runs_mono _ _ _ _ _ _ _ _ _ weaker sets⟩
  have gets' := (Program.runs_map _ _ _ _ Response.got _ _ _ _).mpr ⟨_, rfl, Program.runs_mono _ _ _ _ _ _ _ _ _ weaker gets⟩
  let left := (bareFile.put (.named word) []).put (.named word) twoBytes.stored
  have held : left.content (.named word) = some twoBytes.stored := Function.update_self ..
  have later := (apart _ _ (.inr ⟨twoBytes, (asks_text writer _ text _ plain).mpr rfl⟩)
    ((asks_text writer .get text' _ plain').mpr rfl) _ _ _ _ sets' (.got .null)).mpr ⟨_, _, _, gets'⟩
  exact Streams.never_null naming (utf8 text') path' word left _ named' opened' held later

theorem other_stream_named : streamName (utf8 "b".toList) = .ok (colon :: utf16 "b".toList) := by
  simp only [streamName, multiByteToWideChar, decode_utf8]
  decide

theorem letters_apart : ¬ SameStream documentedNaming (utf8 "a".toList) (utf8 "b".toList) := by
  rintro ⟨path, path', stream, named, named', opened, opened'⟩
  obtain rfl : colon :: utf16 "a".toList = path := Except.ok.inj (sample_stream_named.symm.trans named)
  obtain rfl : colon :: utf16 "b".toList = path' := Except.ok.inj (other_stream_named.symm.trans named')
  exact absurd (opened.trans opened'.symm) (by decide)

theorem strings_reach_platform_iff (writer : Utf8Writer) :
    (∀ name, NameUnaltered writer name ↔ Passable name) ∧
      (∀ source target, PathsUnaltered writer source target ↔
        (Passable source ∧ Passable target) ∧ Fits source ∧ Fits target) ∧
      (∀ kept platform name second, Passable name → Passable second → name ≠ second → kept (jsUtf8 second) →
        XattrApart writer kept platform name second) ∧
      ∀ naming name second, Passable name → Passable second → ¬ SpellsMain naming (jsUtf8 name) →
        (StreamsApart writer naming name second ↔ ¬ SameStream naming (jsUtf8 name) (jsUtf8 second)) :=
  ⟨fun name => ⟨unaltered_passable writer name, passable_unaltered writer name⟩,
    fun source target => ⟨unaltered_paths_passable writer source target, fun passable =>
      passable_paths_unaltered writer source target passable.1 passable.2⟩,
    passable_apart writer, fun naming name second passable passable' spared =>
      ⟨fun apart same => streams_collide writer naming name second passable passable' spared same apart,
        streams_apart writer naming name second passable passable'⟩⟩

theorem plain_name_unaltered :
    NameUnaltered plainWriter (utf16 "user.a".toList) ∧
      XattrApart plainWriter OneLetter .linux (utf16 "a".toList) (utf16 "b".toList) ∧
      StreamsApart plainWriter documentedNaming (utf16 "a".toList) (utf16 "b".toList) := by
  have first : Passable (utf16 "a".toList) := ⟨"a".toList, rfl, by decide⟩
  have second : Passable (utf16 "b".toList) := ⟨"b".toList, rfl, by decide⟩
  obtain ⟨names, _, xattrs, streams⟩ := strings_reach_platform_iff plainWriter
  refine ⟨(names _).mpr ⟨"user.a".toList, rfl, by decide⟩, xattrs _ _ _ _ first second (by decide) ?_,
    (streams _ _ _ first second ?_).mpr ?_⟩
  · rw [js_utf8_text, OneLetter]
    decide
  · rw [js_utf8_text]
    exact portable_spared _ _ _ sample_portable
  · rw [js_utf8_text, js_utf8_text]
    exact letters_apart

theorem typed_same_stream :
    SameStream documentedNaming (utf8 "a".toList) (utf8 "a:$DATA".toList) := by
  refine ⟨_, colon :: utf16 "a:$DATA".toList, .named (utf16 "a".toList),
    sample_stream_named, ?_, rfl, by decide⟩
  simp only [streamName, multiByteToWideChar, decode_utf8]
  decide

theorem cut_names_collide :
    ¬ NameUnaltered plainWriter [0x61, 0, 0x62] ∧
      ¬ XattrApart plainWriter OneLetter .linux [0x61, 0, 0x62] [0x61, 0, 0x63] ∧
      ¬ StreamsApart plainWriter documentedNaming (utf16 "a".toList) (utf16 "a:$DATA".toList) := by
  refine ⟨?_, ?_, ?_⟩
  · intro unaltered
    obtain ⟨text, whole, plain⟩ := unaltered_passable plainWriter [0x61, 0, 0x62] unaltered
    have decoded := congrArg scalars whole
    rw [scalars_utf16] at decoded
    have zero : some '\x00' ∈ text.map some := by
      rw [decoded]
      decide
    exact plain (by simpa using zero)
  · intro apart
    have bounded : ∀ file : AttrFile, file.Bounded fun _ => True := fun file trouble _ => trivial
    have sets := FsExt.Attr.set_succeeds OneLetter .linux (fun _ => True) (Drifts fun _ => True) [0x61]
      twoBytes _ _ rfl rfl (bounded _) (single_stores sampleName _)
    have gets := FsExt.Attr.get_absent OneLetter .linux (fun _ => True) (Drifts fun _ => True) [0x61]
      (single sampleName none) rfl rfl (bounded _) (single_lookup sampleName _)
    have after := (apart _ _ (.inr ⟨twoBytes, .inl rfl⟩) (.inl rfl) _ _ _ _ sets (.got .null)).mpr
      ⟨_, _, _, gets⟩
    exact Xattr.never_null OneLetter .linux (fun _ => True) [0x61] [1, 2] rfl _
      (single_sound _ sampleName [1, 2] (by decide))
      (single_lookup sampleName _) after
  · have spared := portable_spared _ _ _ sample_portable
    exact streams_collide plainWriter _ _ _ ⟨"a".toList, rfl, by decide⟩ ⟨"a:$DATA".toList, rfl, by decide⟩
      (by rw [js_utf8_text]; exact spared) (by rw [js_utf8_text, js_utf8_text]; exact typed_same_stream)

end FsExt.Binding
