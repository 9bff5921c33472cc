import FsExt.Attr.Sharing
import Mathlib.Data.Fintype.Basic

set_option autoImplicit false

namespace FsExt.Attr.Windows

open Sys

def reads : NtOp → Bool
  | .queryEndOfFile _ | .readFile _ _ | .close _ => true
  | _ => false

def closes : NtOp → Bool
  | .close _ => true
  | _ => false

def handed : (op : NtOp) → NtAnswer op → Option Stream
  | .openFile _ _, .ok stream | .createFile _, .ok stream => some stream
  | _, _ => none

section
variable {ι α : Type} (naming : StreamNaming)

def Holding (stream : Stream) (mode : Mode) : NtProgram α → Prop
  | .ret _ => False
  | .call op next =>
      target naming op = some stream ∧ wants op = none ∧ (mode = getMode → reads op = true) ∧
        ∀ answer, if closes op then ∃ value, next answer = .ret value else Holding stream mode (next answer)

def Opening : NtProgram α → Prop
  | .ret _ => True
  | .call op next =>
      ∃ mode, wants op = some mode ∧
        ∀ answer, match handed op answer with
          | none => ∃ value, next answer = .ret value
          | some stream => target naming op = some stream → Holding naming stream mode (next answer)

theorem get_opening (name : CString) (value : UvBuf) : Opening naming (AttrCall.get name value).program := by
  cases named : streamName name with
  | error err =>
      simp only [AttrCall.program, getAttr, named]
      trivial
  | ok path =>
      simp only [AttrCall.program, getAttr, named]
      refine ⟨getMode, rfl, fun answer => ?_⟩
      cases answer with
      | error err => exact ⟨_, rfl⟩
      | ok stream =>
          intro _
          refine ⟨rfl, rfl, fun _ => rfl, fun length => ?_⟩
          cases length with
          | error err => exact ⟨rfl, rfl, fun _ => rfl, fun _ => ⟨_, rfl⟩⟩
          | ok length =>
              refine ⟨rfl, rfl, fun _ => rfl, fun read => ?_⟩
              cases read with
              | error err => exact ⟨rfl, rfl, fun _ => rfl, fun _ => ⟨_, rfl⟩⟩
              | ok content => exact ⟨rfl, rfl, fun _ => rfl, fun _ => ⟨_, rfl⟩⟩

theorem set_opening (name : CString) (view : View) : Opening naming (AttrCall.set name view).program := by
  cases named : streamName name with
  | error err =>
      simp only [AttrCall.program, setAttr, named]
      trivial
  | ok path =>
      simp only [AttrCall.program, setAttr, named]
      refine ⟨setMode, rfl, fun answer => ?_⟩
      cases answer with
      | error err => exact ⟨_, rfl⟩
      | ok stream =>
          intro _
          refine ⟨rfl, rfl, fun same => absurd same (by decide), fun written => ?_⟩
          cases written with
          | error err => exact ⟨rfl, rfl, fun _ => rfl, fun _ => ⟨_, rfl⟩⟩
          | ok count => exact ⟨rfl, rfl, fun _ => rfl, fun _ => ⟨_, rfl⟩⟩

theorem remove_opening (name : CString) : Opening naming (AttrCall.remove name).program := by
  cases named : streamName name with
  | error err =>
      simp only [AttrCall.program, removeAttr, named]
      trivial
  | ok path =>
      simp only [AttrCall.program, removeAttr, named]
      refine ⟨removeMode, rfl, fun answer => ?_⟩
      cases answer with
      | error err => exact ⟨_, rfl⟩
      | ok stream =>
          intro opened
          refine ⟨opened, rfl, fun same => absurd same (by decide), fun deleted => ?_⟩
          cases deleted with
          | error err => exact ⟨rfl, rfl, fun _ => rfl, fun _ => ⟨_, rfl⟩⟩
          | ok done => exact ⟨rfl, rfl, fun _ => rfl, fun _ => ⟨_, rfl⟩⟩

theorem call_opening (call : AttrCall) : Opening naming call.program := by
  cases call with
  | get name value => exact get_opening naming name value
  | set name view => exact set_opening naming name view
  | remove name => exact remove_opening naming name

end

section
variable {ι : Type} [DecidableEq ι] (naming : StreamNaming)

theorem sharing_at (i : ι) (op : NtOp) (stream : Stream) (world : Stream → StreamState ι)
    (about : target naming op = some stream) :
    ntSharing naming (i, op) world = ((answerOn i stream op (world stream)).1,
      Function.update world stream (answerOn i stream op (world stream)).2) := by
  simp only [ntSharing, about]

theorem sharing_nowhere (i : ι) (op : NtOp) (world : Stream → StreamState ι) (about : target naming op = none) :
    ntSharing naming (i, op) world = (refusal op, world) := by
  simp only [ntSharing, about]

theorem commute_nowhere (i j : ι) (op op' : NtOp) (world : Stream → StreamState ι) (about : target naming op = none) :
    Program.Commute (ntSharing naming) (i, op) (j, op') world := by
  constructor
  · rw [sharing_nowhere naming i op _ about, sharing_nowhere naming i op _ about]
  · rw [sharing_nowhere naming i op _ about]
  · rw [sharing_nowhere naming i op _ about, sharing_nowhere naming i op _ about]

theorem commute_apart (i j : ι) (op op' : NtOp) (stream stream' : Stream) (world : Stream → StreamState ι)
    (about : target naming op = some stream) (about' : target naming op' = some stream')
    (apart : stream ≠ stream') : Program.Commute (ntSharing naming) (i, op) (j, op') world := by
  constructor
  · simp only [sharing_at naming i op stream _ about, sharing_at naming j op' stream' _ about',
      Function.update_of_ne apart]
  · simp only [sharing_at naming i op stream _ about, sharing_at naming j op' stream' _ about',
      Function.update_of_ne (Ne.symm apart)]
  · simp only [sharing_at naming i op stream _ about, sharing_at naming j op' stream' _ about',
      Function.update_of_ne apart, Function.update_of_ne (Ne.symm apart)]
    exact Function.update_comm apart ..

theorem commute_same (i j : ι) (op op' : NtOp) (stream : Stream) (world : Stream → StreamState ι)
    (about : target naming op = some stream) (about' : target naming op' = some stream)
    (later : (answerOn i stream op (answerOn j stream op' (world stream)).2).1 = (answerOn i stream op (world stream)).1)
    (sooner : (answerOn j stream op' (answerOn i stream op (world stream)).2).1 =
      (answerOn j stream op' (world stream)).1)
    (state : (answerOn j stream op' (answerOn i stream op (world stream)).2).2 =
      (answerOn i stream op (answerOn j stream op' (world stream)).2).2) :
    Program.Commute (ntSharing naming) (i, op) (j, op') world := by
  constructor
  · simp only [sharing_at naming i op stream _ about, sharing_at naming j op' stream _ about', Function.update_self, later]
  · simp only [sharing_at naming i op stream _ about, sharing_at naming j op' stream _ about', Function.update_self, sooner]
  · simp only [sharing_at naming i op stream _ about, sharing_at naming j op' stream _ about', Function.update_self,
      Function.update_idem, state]

structure Shared (state : StreamState ι) : Prop where
  kept : state.doomed = false
  reads : ∀ j mode, (some j, mode) ∈ state.handles → mode = getMode

theorem close_shared (state : StreamState ι) (j : ι) (shared : Shared state) :
    state.close j = { state with handles := state.handles.filter (·.1 ≠ some j) } := by
  simp [StreamState.close, shared.kept]

theorem refuses_closed (state : StreamState ι) (j : ι) (shared : Shared state) :
    (state.close j).refuses getMode = state.refuses getMode := by
  rw [close_shared state j shared]
  simp only [StreamState.refuses, shared.kept, Bool.false_or, List.any_filter]
  rw [Bool.eq_iff_iff, List.any_eq_true, List.any_eq_true]
  constructor
  · rintro ⟨held, member, clash⟩
    exact ⟨held, member, (Bool.and_eq_true_iff.mp clash).2⟩
  · rintro ⟨held, member, clash⟩
    refine ⟨held, member, ?_⟩
    by_cases own : held.1 = some j
    · have mode := shared.reads j held.2 (own ▸ member)
      rw [mode] at clash
      exact absurd clash (by decide)
    · rw [clash, Bool.and_true]
      exact decide_eq_true own

theorem close_grant (state : StreamState ι) (i j : ι) (different : i ≠ j) (shared : Shared state) (mode : Mode) :
    (state.grant i mode).close j = (state.close j).grant i mode := by
  have other : (some i : Option ι) ≠ some j := fun same => different (Option.some.inj same)
  rw [close_shared state j shared]
  simp [StreamState.close, StreamState.grant, shared.kept, other]

theorem close_close (state : StreamState ι) (i j : ι) (shared : Shared state) :
    (state.close i).close j = (state.close j).close i := by
  rw [close_shared state i shared, close_shared state j shared]
  simp only [StreamState.close, shared.kept, Bool.false_and, Bool.false_eq_true, if_false, List.filter_filter]
  simp only [Bool.and_comm]

theorem reader_cases (op : NtOp) (reader : reads op = true ∨ wants op = some getMode) :
    (∃ path, op = .openFile path .read) ∨ (∃ handle, op = .queryEndOfFile handle) ∨
      (∃ handle length, op = .readFile handle length) ∨ ∃ handle, op = .close handle := by
  cases op with
  | openFile path access =>
      cases access with
      | read => exact .inl ⟨path, rfl⟩
      | delete => rcases reader with wrong | wrong <;> cases wrong
  | createFile path => rcases reader with wrong | wrong <;> cases wrong
  | queryEndOfFile handle => exact .inr (.inl ⟨handle, rfl⟩)
  | readFile handle length => exact .inr (.inr (.inl ⟨handle, length, rfl⟩))
  | writeFile handle content => rcases reader with wrong | wrong <;> cases wrong
  | deleteFile path => rcases reader with wrong | wrong <;> cases wrong
  | close handle => exact .inr (.inr (.inr ⟨handle, rfl⟩))

theorem reader_content (i : ι) (op : NtOp) (stream : Stream) (state : StreamState ι)
    (reader : reads op = true ∨ wants op = some getMode) (shared : Shared state) :
    (answerOn i stream op state).2.content = state.content := by
  obtain ⟨path, rfl⟩ | ⟨handle, rfl⟩ | ⟨handle, length, rfl⟩ | ⟨handle, rfl⟩ := reader_cases op reader
  · simp only [answerOn]
    split
    · rfl
    · split
      · rfl
      · rfl
  · rfl
  · rfl
  · simp only [answerOn, close_shared _ i shared]

theorem commute_look (i j : ι) (op op' : NtOp) (stream : Stream) (world : Stream → StreamState ι)
    (about : target naming op = some stream) (about' : target naming op' = some stream)
    (looks : ∀ state : StreamState ι, (answerOn j stream op' state).2 = state)
    (same : (answerOn j stream op' (answerOn i stream op (world stream)).2).1 =
      (answerOn j stream op' (world stream)).1) : Program.Commute (ntSharing naming) (i, op) (j, op') world :=
  commute_same naming i j op op' stream world about about' (by rw [looks]) same (by rw [looks, looks])

theorem commute_reader (i j : ι) (different : i ≠ j) (op op' : NtOp) (stream : Stream)
    (world : Stream → StreamState ι) (about : target naming op = some stream)
    (about' : target naming op' = some stream) (reader : reads op = true ∨ wants op = some getMode)
    (reader' : reads op' = true) (shared : Shared (world stream)) :
    Program.Commute (ntSharing naming) (i, op) (j, op') world := by
  have content := reader_content i op stream (world stream) reader shared
  obtain ⟨path, rfl⟩ | ⟨handle, rfl⟩ | ⟨handle, length, rfl⟩ | ⟨handle, rfl⟩ := reader_cases op' (.inl reader')
  · cases reader'
  · refine commute_look naming i j op _ stream world about about' (fun _ => rfl) ?_
    generalize answerOn i stream op (world stream) = after at content
    simp only [answerOn, content]
  · refine commute_look naming i j op _ stream world about about' (fun _ => rfl) ?_
    generalize answerOn i stream op (world stream) = after at content
    simp only [answerOn, content]
  · have kept : ((world stream).close j).content = (world stream).content := by rw [close_shared _ j shared]
    have same := fun op later state => commute_same naming i j op _ stream world later about' state rfl
    obtain ⟨path, rfl⟩ | ⟨handle', rfl⟩ | ⟨handle', length, rfl⟩ | ⟨handle', rfl⟩ := reader_cases op reader
    · by_cases absent : (world stream).content.isNone = true
      · refine same _ about ?_ ?_
        · simp only [answerOn, kept, absent, if_true]
        · simp only [answerOn, kept, absent, if_true]
      · by_cases refused : (world stream).refuses getMode = true
        · refine same _ about ?_ ?_
          · simp only [answerOn, kept, absent, openMode, refuses_closed _ j shared, refused, Bool.false_eq_true, if_true,
              if_false]
          · simp only [answerOn, kept, absent, openMode, refuses_closed _ j shared, refused, Bool.false_eq_true, if_true,
              if_false]
        · refine same _ about ?_ ?_
          · simp only [answerOn, kept, absent, openMode, refuses_closed _ j shared, refused, Bool.false_eq_true, if_false]
          · simp only [answerOn, kept, absent, openMode, refuses_closed _ j shared, refused, Bool.false_eq_true, if_false]
            exact close_grant _ i j different shared getMode
    · exact same _ about (by simp only [answerOn, kept]) rfl
    · exact same _ about (by simp only [answerOn, kept]) rfl
    · exact same _ about rfl (close_close _ i j shared)

theorem reader_kept (j : ι) (op : NtOp) (stream : Stream) (state : StreamState ι) (reader : reads op = true)
    (kept : state.doomed = false) : (answerOn j stream op state).2.doomed = false := by
  obtain ⟨path, rfl⟩ | ⟨handle, rfl⟩ | ⟨handle, length, rfl⟩ | ⟨handle, rfl⟩ := reader_cases op (.inl reader)
  · cases reader
  · exact kept
  · exact kept
  · simp [answerOn, StreamState.close, kept]

theorem reader_shared (j : ι) (op : NtOp) (stream : Stream) (state : StreamState ι) (reader : reads op = true)
    (shared : Shared state) : Shared (answerOn j stream op state).2 := by
  obtain ⟨path, rfl⟩ | ⟨handle, rfl⟩ | ⟨handle, length, rfl⟩ | ⟨handle, rfl⟩ := reader_cases op (.inl reader)
  · cases reader
  · exact shared
  · exact shared
  · simp only [answerOn, close_shared _ j shared]
    exact ⟨shared.kept, fun k mode member => shared.reads k mode (List.mem_of_mem_filter member)⟩

end

-- The streams that calls have open, and how, while `order` lists the calls that
-- have made one: nobody has a stream open that another one opened to change it.
structure Held {ι : Type} (naming : StreamNaming) (order : List ι) (hold : ι → Option (Stream × Mode))
    (pool : AttrPool ι) : Prop where
  holding : ∀ i stream mode, hold i = some (stream, mode) →
    i ∈ order ∧ ∃ program : NtProgram AttrReturn, pool.threads i = program.owned i ∧ Holding naming stream mode program
  returned : ∀ i ∈ order, hold i = none → ∃ value, pool.threads i = .ret value
  handles : ∀ stream i mode, (some i, mode) ∈ (pool.world stream).handles ↔ hold i = some (stream, mode)
  shared : ∀ i j stream mode mode', i ≠ j → hold i = some (stream, mode) → hold j = some (stream, mode') →
    mode = getMode ∧ mode' = getMode
  kept : ∀ i stream, hold i = some (stream, getMode) → (pool.world stream).doomed = false

section
variable {ι : Type} (naming : StreamNaming)

theorem holding_asks {α : Type} (stream : Stream) (mode : Mode) (j : ι) (program : NtProgram α)
    (holding : Holding naming stream mode program) :
    (program.owned j).Asks fun call =>
      call.1 = j ∧ target naming call.2 = some stream ∧ (mode = getMode → reads call.2 = true) := by
  induction program with
  | ret value => exact trivial
  | call op next ih =>
      obtain ⟨about, _, reader, later⟩ := holding
      refine ⟨⟨rfl, about, reader⟩, fun answer => ?_⟩
      have rest := later answer
      split at rest
      · obtain ⟨value, done⟩ := rest
        simp only [done]
        exact trivial
      · exact ih answer rest

theorem held_free {order : List ι} {hold : ι → Option (Stream × Mode)} {pool : AttrPool ι}
    (held : Held naming order hold pool) (i : ι) (new : i ∉ order) : hold i = none := by
  cases holds : hold i with
  | none => rfl
  | some found => exact absurd (held.holding i found.1 found.2 holds).1 new

def OthersRead (hold : ι → Option (Stream × Mode)) (i : ι) (op : NtOp) (world : Stream → StreamState ι) : Prop :=
  ∀ stream, target naming op = some stream → ∀ j, j ≠ i → hold j = some (stream, getMode) → Shared (world stream)

theorem others_read (order : List ι) (hold : ι → Option (Stream × Mode)) (pool : AttrPool ι)
    (held : Held naming order hold pool) (i : ι) (op : NtOp) : OthersRead naming hold i op pool.world := by
  intro stream about j different reading
  refine ⟨held.kept j stream reading, fun k mode member => ?_⟩
  have holds := (held.handles stream k mode).mp member
  by_cases same : k = j
  · subst k
    cases reading.symm.trans holds
    rfl
  · exact (held.shared k j stream mode getMode same holds reading).1

end

section
variable {ι : Type} [DecidableEq ι] (naming : StreamNaming)

theorem others_slide (order : List ι) (hold : ι → Option (Stream × Mode)) (pool : AttrPool ι)
    (held : Held naming order hold pool) (i : ι) (op : NtOp)
    (friendly : ∀ stream, target naming op = some stream → ∀ j mode, j ≠ i → hold j = some (stream, mode) →
      mode = getMode ∧ (reads op = true ∨ wants op = some getMode))
    (j : ι) (member : j ∈ order) (different : j ≠ i) (world : Stream → StreamState ι)
    (reading : OthersRead naming hold i op world) :
    Program.Slides (ntSharing naming) (i, op) (pool.threads j) world ∧
      OthersRead naming hold i op ((pool.threads j).run (ntSharing naming) world).2 := by
  cases holds : hold j with
  | none =>
      obtain ⟨value, done⟩ := held.returned j member holds
      rw [done]
      exact ⟨⟨rfl, rfl, rfl⟩, reading⟩
  | some found =>
      obtain ⟨stream', mode⟩ := found
      obtain ⟨_, program, thread, holding⟩ := held.holding j stream' mode holds
      rw [thread]
      refine Program.slides_program (ntSharing naming) (i, op)
        (fun call => call.1 = j ∧ target naming call.2 = some stream' ∧ (mode = getMode → reads call.2 = true))
        (OthersRead naming hold i op) ?_ _ (holding_asks naming stream' mode j program holding) world reading
      rintro ⟨k, op'⟩ world' ⟨caller, about', reader'⟩ reading'
      obtain rfl : k = j := caller
      cases about : target naming op with
      | none => exact ⟨commute_nowhere naming i k op op' world' about, fun stream found => by
          rw [about] at found
          cases found⟩
      | some stream =>
          by_cases same : stream' = stream
          · subst stream'
            obtain ⟨rfl, reader⟩ := friendly stream about k mode different holds
            have shared := reading' stream about k different holds
            refine ⟨commute_reader naming i k (Ne.symm different) op op' stream world' about about' reader
              (reader' rfl) shared, fun found same other apart others => ?_⟩
            obtain rfl := Option.some.inj (about.symm.trans same)
            rw [sharing_at naming k op' stream _ about']
            simp only [Function.update_self]
            exact reader_shared k op' stream _ (reader' rfl) shared
          · refine ⟨commute_apart naming i k op op' stream stream' world' about about' (Ne.symm same),
              fun found same' other apart others => ?_⟩
            obtain rfl := Option.some.inj (about.symm.trans same')
            rw [sharing_at naming k op' stream' _ about']
            simp only [Function.update_of_ne (Ne.symm same)]
            exact reading' stream about other apart others

end

section
variable {ι : Type} [DecidableEq ι] (naming : StreamNaming)

theorem open_answer (i : ι) (op : NtOp) (mode : Mode) (stream : Stream) (state : StreamState ι)
    (asks : wants op = some mode) :
    (handed op (answerOn i stream op state).1 = none ∧ (answerOn i stream op state).2 = state) ∨
      (handed op (answerOn i stream op state).1 = some stream ∧ (answerOn i stream op state).2.doomed = false ∧
        (answerOn i stream op state).2.handles = (some i, mode) :: state.handles) := by
  have open_ : ∀ mode, ¬ state.refuses mode = true → state.doomed = false := fun mode granted => by
    cases doomed : state.doomed with
    | false => rfl
    | true => exact absurd (by rw [StreamState.refuses, doomed]; rfl) granted
  cases op with
  | openFile path access =>
      obtain rfl := Option.some.inj asks
      by_cases absent : state.content.isNone = true
      · exact .inl (by simp [answerOn, absent, handed])
      · by_cases refused : state.refuses (openMode access) = true
        · exact .inl (by simp [answerOn, absent, refused, handed])
        · exact .inr (by simp [answerOn, absent, refused, handed, StreamState.grant, open_ _ refused])
  | createFile path =>
      obtain rfl := Option.some.inj asks
      by_cases refused : state.refuses setMode = true
      · exact .inl (by simp [answerOn, refused, handed])
      · exact .inr (by simp [answerOn, refused, handed, StreamState.grant, open_ _ refused])
  | queryEndOfFile handle => cases asks
  | readFile handle length => cases asks
  | writeFile handle content => cases asks
  | deleteFile path => cases asks
  | close handle => cases asks

theorem refusal_handed (op : NtOp) : handed op (refusal op) = none := by
  cases op with
  | openFile path access => rfl
  | createFile path => rfl
  | queryEndOfFile handle => rfl
  | readFile handle length => rfl
  | writeFile handle content => rfl
  | deleteFile path => rfl
  | close handle => rfl

theorem use_handles (i : ι) (op : NtOp) (stream : Stream) (state : StreamState ι) (holds : wants op = none) :
    (answerOn i stream op state).2.handles =
      if closes op then state.handles.filter (·.1 ≠ some i) else state.handles := by
  cases op with
  | openFile path access => cases holds
  | createFile path => cases holds
  | queryEndOfFile handle => rfl
  | readFile handle length => rfl
  | writeFile handle content => rfl
  | deleteFile path =>
      simp only [answerOn, closes, StreamState.delete]
      split
      · rfl
      · split
        · rfl
        · split
          · rfl
          · rfl
  | close handle =>
      simp only [answerOn, StreamState.close, closes]
      split
      · rfl
      · rfl

section
variable {order : List ι} {hold : ι → Option (Stream × Mode)} {pool : AttrPool ι} (held : Held naming order hold pool)
include held

theorem held_holding_other (i j : ι) (different : j ≠ i)
    (part : Program (ι × NtOp) (fun call => NtAnswer call.2) AttrReturn) (stream : Stream) (mode : Mode)
    (holds : hold j = some (stream, mode)) :
    j ∈ order ∧ ∃ program, Function.update pool.threads i part j = program.owned j ∧
      Holding naming stream mode program := by
  obtain ⟨member, program, thread, holding⟩ := held.holding j stream mode holds
  exact ⟨member, program, by rw [Function.update_of_ne different, thread], holding⟩

theorem held_returned_other (i j : ι) (different : j ≠ i)
    (part : Program (ι × NtOp) (fun call => NtAnswer call.2) AttrReturn) (member : j ∈ order) (done : hold j = none) :
    ∃ value, Function.update pool.threads i part j = .ret value := by
  obtain ⟨value, thread⟩ := held.returned j member done
  exact ⟨value, by rw [Function.update_of_ne different, thread]⟩

theorem held_refused (i : ι) (new : i ∉ order) (value : AttrReturn) :
    Held naming (order ++ [i]) hold ⟨Function.update pool.threads i (.ret value), pool.world⟩ := by
  have free := held_free naming held i new
  refine ⟨?_, ?_, held.handles, held.shared, held.kept⟩
  · intro j stream mode holds
    have different : j ≠ i := fun same => by
      rw [same, free] at holds
      cases holds
    obtain ⟨member, rest⟩ := held_holding_other naming held i j different (.ret value) stream mode holds
    exact ⟨List.mem_append_left _ member, rest⟩
  · intro j member done
    by_cases own : j = i
    · subst j
      exact ⟨value, by simp only [Function.update_self]⟩
    · exact held_returned_other naming held i j own (.ret value) ((List.mem_append.mp member).resolve_right
        fun last => own (List.mem_singleton.mp last)) done

theorem granted_handles (i : ι) (new : i ∉ order) (stream : Stream) (mode : Mode) (state : StreamState ι)
    (handles : state.handles = (some i, mode) :: (pool.world stream).handles) (stream' : Stream) (j : ι) (mode' : Mode) :
    (some j, mode') ∈ (Function.update pool.world stream state stream').handles ↔
      Function.update hold i (some (stream, mode)) j = some (stream', mode') := by
  have absent : ∀ stream mode, (some i, mode) ∉ (pool.world stream).handles := fun stream mode member => by
    rw [held.handles stream i mode, held_free naming held i new] at member
    cases member
  by_cases here : stream' = stream
  · subst stream'
    simp only [Function.update_self, handles, List.mem_cons, Prod.mk.injEq, Option.some.injEq]
    by_cases own : j = i
    · subst j
      rw [Function.update_self]
      simp only [absent, or_false, true_and, Option.some.injEq, Prod.mk.injEq]
      exact eq_comm
    · rw [Function.update_of_ne own, ← held.handles stream j mode']
      simp [own]
  · by_cases own : j = i
    · subst j
      simp only [Function.update_of_ne here, Function.update_self, absent, false_iff, Option.some.injEq,
        Prod.mk.injEq]
      exact fun same => here same.1.symm
    · simp only [Function.update_of_ne here, Function.update_of_ne own]
      exact held.handles stream' j mode'

theorem granted_shared (i : ι) (stream : Stream) (mode : Mode)
    (only : ∀ j mode', (some j, mode') ∈ (pool.world stream).handles → mode = getMode ∧ mode' = getMode) (j k : ι)
    (stream' : Stream) (mode' mode'' : Mode) (different : j ≠ k)
    (first : Function.update hold i (some (stream, mode)) j = some (stream', mode'))
    (second : Function.update hold i (some (stream, mode)) k = some (stream', mode'')) :
    mode' = getMode ∧ mode'' = getMode := by
  have others : ∀ j mode', hold j = some (stream, mode') → mode = getMode ∧ mode' = getMode :=
    fun j mode' holds => only j mode' ((held.handles stream j mode').mpr holds)
  by_cases own : j = i
  · subst j
    rw [Function.update_self] at first
    rw [Function.update_of_ne (Ne.symm different)] at second
    cases first
    exact others k mode'' second
  · rw [Function.update_of_ne own] at first
    by_cases own' : k = i
    · subst k
      rw [Function.update_self] at second
      cases second
      exact (others j mode' first).symm
    · rw [Function.update_of_ne own'] at second
      exact held.shared j k stream' mode' mode'' different first second

theorem held_granted (i : ι) (new : i ∉ order) (stream : Stream) (mode : Mode) (program : NtProgram AttrReturn)
    (holding : Holding naming stream mode program) (state : StreamState ι) (fresh : state.doomed = false)
    (handles : state.handles = (some i, mode) :: (pool.world stream).handles)
    (only : ∀ j mode', (some j, mode') ∈ (pool.world stream).handles → mode = getMode ∧ mode' = getMode) :
    Held naming (order ++ [i]) (Function.update hold i (some (stream, mode)))
      ⟨Function.update pool.threads i (program.owned i), Function.update pool.world stream state⟩ := by
  refine ⟨?_, ?_, granted_handles naming held i new stream mode state handles,
    granted_shared naming held i stream mode only, ?_⟩
  · intro j stream' mode' holds
    by_cases own : j = i
    · subst j
      rw [Function.update_self] at holds
      cases holds
      exact ⟨List.mem_append_right _ (.head _), program, by simp only [Function.update_self], holding⟩
    · rw [Function.update_of_ne own] at holds
      obtain ⟨member, rest⟩ := held_holding_other naming held i j own (program.owned i) stream' mode' holds
      exact ⟨List.mem_append_left _ member, rest⟩
  · intro j member done
    by_cases own : j = i
    · subst j
      rw [Function.update_self] at done
      cases done
    · rw [Function.update_of_ne own] at done
      exact held_returned_other naming held i j own (program.owned i) ((List.mem_append.mp member).resolve_right
        fun last => own (List.mem_singleton.mp last)) done
  · intro j stream' reading
    by_cases here : stream' = stream
    · subst stream'
      simp only [Function.update_self, fresh]
    · simp only [Function.update_of_ne here]
      by_cases own : j = i
      · subst j
        rw [Function.update_self] at reading
        exact absurd (congrArg Prod.fst (Option.some.inj reading)).symm here
      · rw [Function.update_of_ne own] at reading
        exact held.kept j stream' reading

theorem held_used (i : ι) (stream : Stream) (mode : Mode) (holds : hold i = some (stream, mode))
    (program : NtProgram AttrReturn) (holding : Holding naming stream mode program) (state : StreamState ι)
    (handles : state.handles = (pool.world stream).handles) (kept : mode = getMode → state.doomed = false) :
    Held naming order hold ⟨Function.update pool.threads i (program.owned i), Function.update pool.world stream state⟩ := by
  have member := (held.holding i stream mode holds).1
  refine ⟨?_, ?_, ?_, held.shared, ?_⟩
  · intro j stream' mode' holds'
    by_cases own : j = i
    · subst j
      cases holds.symm.trans holds'
      exact ⟨member, program, by simp only [Function.update_self], holding⟩
    · exact held_holding_other naming held i j own (program.owned i) stream' mode' holds'
  · intro j member' done
    have different : j ≠ i := fun same => by
      rw [same, holds] at done
      cases done
    exact held_returned_other naming held i j different (program.owned i) member' done
  · intro stream' j mode'
    by_cases here : stream' = stream
    · subst stream'
      simp only [Function.update_self, handles]
      exact held.handles stream j mode'
    · simp only [Function.update_of_ne here]
      exact held.handles stream' j mode'
  · intro j stream' reading
    by_cases here : stream' = stream
    · subst stream'
      simp only [Function.update_self]
      by_cases own : j = i
      · subst j
        cases holds.symm.trans reading
        exact kept rfl
      · exact kept (held.shared i j stream mode getMode (Ne.symm own) holds reading).1
    · simp only [Function.update_of_ne here]
      exact held.kept j stream' reading

theorem held_closed (i : ι) (stream : Stream) (mode : Mode) (holds : hold i = some (stream, mode)) (value : AttrReturn)
    (state : StreamState ι) (handles : state.handles = (pool.world stream).handles.filter (·.1 ≠ some i))
    (kept : mode = getMode → state.doomed = false) :
    Held naming order (Function.update hold i none)
      ⟨Function.update pool.threads i (.ret value), Function.update pool.world stream state⟩ := by
  refine ⟨?_, ?_, ?_, ?_, ?_⟩
  · intro j stream' mode' holds'
    by_cases own : j = i
    · subst j
      rw [Function.update_self] at holds'
      cases holds'
    · rw [Function.update_of_ne own] at holds'
      exact held_holding_other naming held i j own (.ret value) stream' mode' holds'
  · intro j member' done
    by_cases own : j = i
    · subst j
      exact ⟨value, by simp only [Function.update_self]⟩
    · rw [Function.update_of_ne own] at done
      exact held_returned_other naming held i j own (.ret value) member' done
  · intro stream' j mode'
    by_cases own : j = i
    · subst j
      rw [Function.update_self]
      refine iff_of_false (fun member => ?_) (fun none_ => by cases none_)
      by_cases here : stream' = stream
      · subst stream'
        simp only [Function.update_self, handles, List.mem_filter] at member
        exact of_decide_eq_true member.2 rfl
      · simp only [Function.update_of_ne here] at member
        have elsewhere := (held.handles stream' i mode').mp member
        exact here (congrArg Prod.fst (Option.some.inj (elsewhere.symm.trans holds)))
    · have other : (some j : Option ι) ≠ some i := fun same => own (Option.some.inj same)
      rw [Function.update_of_ne own, ← held.handles stream' j mode']
      by_cases here : stream' = stream
      · subst stream'
        simp only [Function.update_self, handles, List.mem_filter]
        exact ⟨fun member => member.1, fun member => ⟨member, decide_eq_true other⟩⟩
      · simp only [Function.update_of_ne here]
  · intro j k stream' mode' mode'' different first second
    have own : j ≠ i := fun same => by
      rw [same, Function.update_self] at first
      cases first
    have own' : k ≠ i := fun same => by
      rw [same, Function.update_self] at second
      cases second
    rw [Function.update_of_ne own] at first
    rw [Function.update_of_ne own'] at second
    exact held.shared j k stream' mode' mode'' different first second
  · intro j stream' reading
    have own : j ≠ i := fun same => by
      rw [same, Function.update_self] at reading
      cases reading
    rw [Function.update_of_ne own] at reading
    by_cases here : stream' = stream
    · subst stream'
      simp only [Function.update_self]
      exact kept (held.shared i j stream mode getMode (Ne.symm own) holds reading).1
    · simp only [Function.update_of_ne here]
      exact held.kept j stream' reading

end

theorem held_first {order : List ι} {hold : ι → Option (Stream × Mode)} {pool : AttrPool ι}
    (held : Held naming order hold pool) (i : ι) (new : i ∉ order) (op : NtOp)
    (next : NtAnswer op → NtProgram AttrReturn) (thread : pool.threads i = (Program.call op next).owned i)
    (opening : Opening naming (.call op next))
    (undisturbed : ∀ mode stream, wants op = some mode → target naming op = some stream →
      ∀ j mode', (some j, mode') ∈ (pool.world stream).handles → mode = getMode ∧ mode' = getMode) :
    ∃ hold', Held naming (order ++ [i]) hold' (pool.act (ntSharing naming) i) := by
  obtain ⟨mode, asks, opened⟩ := opening
  cases about : target naming op with
  | none =>
      rw [Pool.act_call (ntSharing naming) pool i (i, op) _ thread _ _ (sharing_nowhere naming i op pool.world about)]
      have done := opened (refusal op)
      simp only [refusal_handed] at done
      obtain ⟨value, done⟩ := done
      refine ⟨hold, ?_⟩
      simp only [done]
      exact held_refused naming held i new value
  | some stream =>
      rw [Pool.act_call (ntSharing naming) pool i (i, op) _ thread _ _ (sharing_at naming i op stream pool.world about)]
      have rest := opened (answerOn i stream op (pool.world stream)).1
      rcases open_answer i op mode stream (pool.world stream) asks with ⟨nothing, same⟩ | ⟨grants, fresh, handles⟩
      · simp only [nothing] at rest
        obtain ⟨value, done⟩ := rest
        refine ⟨hold, ?_⟩
        simp only [done, same, Function.update_eq_self]
        exact held_refused naming held i new value
      · simp only [grants] at rest
        exact ⟨_, held_granted naming held i new stream mode _ (rest about) _ fresh handles
          (undisturbed mode stream asks about)⟩

theorem held_next {order : List ι} {hold : ι → Option (Stream × Mode)} {pool : AttrPool ι}
    (held : Held naming order hold pool) (i : ι) (stream : Stream) (mode : Mode) (holds : hold i = some (stream, mode))
    (op : NtOp) (next : NtAnswer op → NtProgram AttrReturn)
    (thread : pool.threads i = (Program.call op next).owned i) (holding : Holding naming stream mode (.call op next)) :
    ∃ hold', Held naming order hold' (pool.act (ntSharing naming) i) := by
  obtain ⟨about, uses, reader, later⟩ := holding
  rw [Pool.act_call (ntSharing naming) pool i (i, op) _ thread _ _ (sharing_at naming i op stream pool.world about)]
  have rest := later (answerOn i stream op (pool.world stream)).1
  have handles := use_handles i op stream (pool.world stream) uses
  have kept : mode = getMode → (answerOn i stream op (pool.world stream)).2.doomed = false := fun reads => by
    subst mode
    exact reader_kept i op stream (pool.world stream) (reader rfl) (held.kept i stream holds)
  by_cases last : closes op = true
  · rw [if_pos last] at rest handles
    obtain ⟨value, done⟩ := rest
    simp only [done]
    exact ⟨_, held_closed naming held i stream mode holds value _ handles kept⟩
  · rw [if_neg last] at rest handles
    exact ⟨hold, held_used naming held i stream mode holds _ rest _ handles kept⟩

section
variable (calls : ι → AttrCall) (start : Stream → StreamState ι) (schedule : List ι)

def Linear (order : List ι) (pool : AttrPool ι) : Prop :=
  Pool.Serial (ntSharing naming) (attrPrograms calls) start order pool ∧ ∃ hold, Held naming order hold pool

theorem linear_start (nobody : ∀ stream i mode, (some i, mode) ∉ (start stream).handles) :
    Linear naming calls start [] (attrPool calls start) := by
  refine ⟨Pool.serial_start _ _ _, fun _ => none, ?_, ?_, ?_, ?_, ?_⟩
  · exact fun i stream mode holds => by cases holds
  · exact fun i member => by cases member
  · exact fun stream i mode => ⟨fun member => absurd member (nobody stream i mode), fun holds => by cases holds⟩
  · exact fun i j stream mode mode' different first => by cases first
  · exact fun i stream holds => by cases holds

theorem linear_step (undisturbed : Undisturbed naming calls start schedule) (order played : List ι) (i : ι)
    (part : played ++ [i] <+: schedule)
    (linear : Linear naming calls start order ((attrPool calls start).play (ntSharing naming) played)) :
    ∃ order', Linear naming calls start order'
      (((attrPool calls start).play (ntSharing naming) played).act (ntSharing naming) i) := by
  have clear := undisturbed played i
  generalize (attrPool calls start).play (ntSharing naming) played = pool at linear clear
  obtain ⟨serial, hold, held⟩ := linear
  by_cases old : i ∈ order
  · cases holds : hold i with
    | none =>
        obtain ⟨value, done⟩ := held.returned i old holds
        rw [Pool.act_ret (ntSharing naming) pool i value done]
        exact ⟨order, serial, hold, held⟩
    | some found =>
        obtain ⟨stream, mode⟩ := found
        obtain ⟨_, program, thread, holding⟩ := held.holding i stream mode holds
        cases program with
        | ret value => exact absurd holding id
        | call op next =>
            have ⟨about, _, reader, _⟩ := holding
            have slides := others_slide naming order hold pool held i op fun stream' about' j mode' different other => by
              obtain rfl := Option.some.inj (about.symm.trans about')
              obtain ⟨rfl, rfl⟩ := held.shared i j stream mode mode' (Ne.symm different) holds other
              exact ⟨rfl, .inl (reader rfl)⟩
            exact ⟨order, Pool.serial_next (ntSharing naming) i (i, op) _ (OthersRead naming hold i op) serial old thread
              (others_read naming order hold pool held i op) slides,
              held_next naming held i stream mode holds op next thread holding⟩
  · have thread : pool.threads i = (calls i).program.owned i := serial.fresh i old
    have opening := call_opening naming (calls i)
    generalize (calls i).program = program at thread opening
    cases program with
    | ret value =>
        rw [Pool.act_ret (ntSharing naming) pool i value thread]
        exact ⟨order, serial, hold, held⟩
    | call op next =>
        have asked : pool.request i = some (i, op) := Pool.request_call pool i _ _ thread
        have only := fun mode stream asks about => clear op mode stream part asked asks about
        have slides := others_slide naming order hold pool held i op fun stream about j mode different other => by
          obtain ⟨mode', asks, _⟩ := opening
          obtain ⟨rfl, rfl⟩ := only mode' stream asks about j mode ((held.handles stream j mode).mpr other)
          exact ⟨rfl, .inr asks⟩
        have apart : ∀ j ∈ order, j ≠ i := fun j member same => old (same ▸ member)
        exact ⟨order ++ [i], Pool.serial_first (ntSharing naming) i (i, op) _ (OthersRead naming hold i op) serial old
          thread (others_read naming order hold pool held i op) fun j member => slides j member (apart j member),
          held_first naming held i old op next thread opening only⟩

theorem linear_run (nobody : ∀ stream i mode, (some i, mode) ∉ (start stream).handles)
    (undisturbed : Undisturbed naming calls start schedule) (played : List ι) (part : played <+: schedule) :
    ∃ order, Linear naming calls start order ((attrPool calls start).play (ntSharing naming) played) :=
  Pool.play_keeps (ntSharing naming) (attrPool calls start) schedule
    (fun _ pool => ∃ order, Linear naming calls start order pool) ⟨[], linear_start naming calls start nobody⟩
    (fun played i part ⟨order, linear⟩ => linear_step naming calls start schedule undisturbed order played i part linear)
    played part

end

end

def Linearizable {ι : Type} [DecidableEq ι] (naming : StreamNaming) (calls : ι → AttrCall)
    (start : Stream → StreamState ι) (result : ι → AttrReturn) (final : Stream → StreamState ι) : Prop :=
  ∃ order : List ι, order.Nodup ∧ (∀ i, i ∈ order) ∧
    Pool.runAll (ntSharing naming) (attrPrograms calls) order start = (order.map result, final)

theorem attr_calls_linearizable {ι : Type} [DecidableEq ι] [Fintype ι] (naming : StreamNaming) (calls : ι → AttrCall)
    (start : Stream → StreamState ι) (nobody : ∀ stream i mode, (some i, mode) ∉ (start stream).handles)
    (schedule : List ι) (undisturbed : Undisturbed naming calls start schedule) (result : ι → AttrReturn)
    (returned : ∀ i, ((attrPool calls start).play (ntSharing naming) schedule).threads i = .ret (result i)) :
    Linearizable naming calls start result ((attrPool calls start).play (ntSharing naming) schedule).world := by
  obtain ⟨order, serial, _⟩ := linear_run naming calls start schedule nobody undisturbed schedule (List.prefix_refl _)
  refine ⟨order ++ Finset.univ.toList.filter (· ∉ order), ?_, ?_, ?_⟩
  · refine List.nodup_append.mpr ⟨serial.once, (Finset.nodup_toList _).filter _, fun i member j idle same => ?_⟩
    have outside := of_decide_eq_true (List.mem_filter.mp idle).2
    exact outside (same ▸ member)
  · intro i
    rw [List.mem_append, List.mem_filter]
    by_cases made : i ∈ order
    · exact .inl made
    · exact .inr ⟨by simp, decide_eq_true made⟩
  · exact Pool.serial_idle (ntSharing naming) _ start order _ _ result serial returned fun i idle =>
      of_decide_eq_true (List.mem_filter.mp idle).2

def sampleCalls : Fin 3 → AttrCall
  | 0 => .set [0x62] twoBytes
  | 1 | 2 => .get [0x61] ⟨none, 0⟩

def sampleStreams {ι : Type} : Stream → StreamState ι := fun stream =>
  if stream = .named [0x61] then ⟨some [7], false, []⟩ else ⟨none, false, []⟩

def sampleSchedule : List (Fin 3) := [1, 0, 2, 0, 1, 2, 2, 0, 1, 1, 2]

def sampleResult : Fin 3 → AttrReturn
  | 0 => .done (.ok ())
  | 1 | 2 => .got (.ok (), ⟨some [.byte 7], 1⟩)

theorem sample_undisturbed : Undisturbed documentedNaming sampleCalls sampleStreams sampleSchedule := by
  intro played i op mode stream part asked asks about j held member
  obtain ⟨n, less, rfl, at_⟩ := Pool.part_take sampleSchedule played i part
  have meets : ∀ n < 11, ∀ i, sampleSchedule[n]? = some i →
      let pool := (attrPool sampleCalls sampleStreams).play (ntSharing documentedNaming) (sampleSchedule.take n)
      (pool.request i).all fun call => (wants call.2).all fun mode => (target documentedNaming call.2).all fun stream =>
        (pool.world stream).handles.all fun held => held.1.isNone || (mode = getMode && held.2 = getMode) := by
    decide +kernel
  have met := meets n less i at_
  simp only [asked, Option.all_some, asks, about, List.all_eq_true] at met
  simpa using met _ member

theorem sample_linearizable :
    Linearizable documentedNaming sampleCalls sampleStreams sampleResult
      ((attrPool sampleCalls sampleStreams).play (ntSharing documentedNaming) sampleSchedule).world := by
  refine attr_calls_linearizable documentedNaming sampleCalls sampleStreams ?_ sampleSchedule sample_undisturbed
    sampleResult ?_
  · intro stream i mode member
    rw [sampleStreams] at member
    split at member
    · cases member
    · cases member
  · intro i
    match i with
    | 0 => rfl
    | 1 => rfl
    | 2 => rfl

def overlappedCalls : Bool → AttrCall
  | false => .set [0x61] twoBytes
  | true => .get [0x61] ⟨none, 0⟩

theorem set_blocks_get :
    let pool := (attrPool overlappedCalls sampleStreams).play (ntSharing documentedNaming) [false, true, false, false]
    pool.threads false = .ret (.done (.ok ())) ∧ pool.threads true = .ret (.got (.error UvError.EIO, ⟨none, 0⟩)) ∧
      ∀ result, (∀ i, pool.threads i = .ret (result i)) →
        ¬ Linearizable documentedNaming overlappedCalls sampleStreams result pool.world := by
  intro pool
  have set : pool.threads false = .ret (.done (.ok ())) := rfl
  have get : pool.threads true = .ret (.got (.error UvError.EIO, ⟨none, 0⟩)) := rfl
  refine ⟨set, get, fun result returned linearizable => ?_⟩
  have got : result true = .got (.error UvError.EIO, ⟨none, 0⟩) := Program.ret.inj ((returned true).symm.trans get)
  obtain ⟨order, once, all, runs⟩ := linearizable
  have results := congrArg Prod.fst runs
  match order with
  | [] => cases all true
  | [first] =>
      have missing := all (!first)
      cases first <;> simp at missing
  | [false, true] =>
      rw [List.map_cons, List.map_cons, got] at results
      cases (List.cons.inj (List.cons.inj results).2).1
  | [true, false] =>
      rw [List.map_cons, got] at results
      cases (List.cons.inj results).1
  | [false, false] | [true, true] => cases once with | cons apart _ => exact apart _ (.head _) rfl
  | first :: second :: third :: rest =>
      cases first <;> cases second <;> cases third <;> simp at once

end FsExt.Attr.Windows
