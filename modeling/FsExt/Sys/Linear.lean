import FsExt.Sys.Program

set_option autoImplicit false

namespace Sys

abbrev Spec (Call Result α : Type) := Call → α → Result → α → Prop

inductive Sequential {Call Result α : Type} (spec : Spec Call Result α) : α → List (Call × Result) → α → Prop where
  | none (now : α) : Sequential spec now [] now
  | snoc (first now last : α) (calls : List (Call × Result)) (call : Call) (result : Result)
      (before : Sequential spec first calls now) (serves : spec call now result last) :
      Sequential spec first (calls ++ [(call, result)]) last

section
variable {Call Result α β : Type}

theorem sequential_none (spec : Spec Call Result α) (first last : α) (sequential : Sequential spec first [] last) :
    last = first := by
  generalize none_ : ([] : List (Call × Result)) = calls at sequential
  cases sequential with
  | none => rfl
  | snoc => exact absurd none_.symm (by simp)

theorem sequential_last (spec : Spec Call Result α) (first last : α) (calls : List (Call × Result)) (call : Call)
    (result : Result) (sequential : Sequential spec first (calls ++ [(call, result)]) last) :
    ∃ now, Sequential spec first calls now ∧ spec call now result last := by
  generalize whole : calls ++ [(call, result)] = all at sequential
  cases sequential with
  | none => exact absurd whole (by simp)
  | snoc now _ calls' call' result' before serves =>
      obtain ⟨rfl, same⟩ := List.append_inj' whole rfl
      cases same
      exact ⟨now, before, serves⟩

theorem sequential_agree (spec : Spec Call Result α) (spec' : Spec Call Result β) (related : α → β → Prop)
    (allowed : Call → Prop)
    (agree : ∀ call now result after now' result' after', allowed call → related now now' → spec call now result after →
      spec' call now' result' after' → result' = result ∧ related after after')
    (first last : α) (first' last' : β) (calls calls' : List (Call × Result)) (starts : related first first')
    (same : calls'.map Prod.fst = calls.map Prod.fst) (all : ∀ call ∈ calls, allowed call.1)
    (sequential : Sequential spec first calls last) (sequential' : Sequential spec' first' calls' last') :
    calls' = calls ∧ related last last' := by
  induction sequential generalizing calls' last' with
  | none =>
      obtain rfl : calls' = [] := by simpa using same
      rw [sequential_none spec' first' last' sequential']
      exact ⟨rfl, starts⟩
  | snoc now last calls call result _ serves ih =>
      rw [List.map_append] at same
      obtain ⟨before, tail, rfl, front, back⟩ := List.map_eq_append_iff.mp same
      obtain ⟨⟨call', result'⟩, rfl, rfl⟩ : ∃ one, tail = [one] ∧ one.1 = call := by
        simpa [List.map_eq_cons_iff] using back
      obtain ⟨now', served, serves'⟩ := sequential_last spec' first' last' before _ result' sequential'
      obtain ⟨rfl, meets⟩ := ih now' before front (fun one member => all one (List.mem_append_left _ member)) served
      have allowed_ : allowed call' := all (call', result) (List.mem_append_right _ (.head _))
      obtain ⟨rfl, ends⟩ := agree call' now result last now' result' last' allowed_ meets serves serves'
      exact ⟨rfl, ends⟩

theorem sequential_first (spec : Spec Call Result α) (first last : α) (call : Call) (result : Result)
    (rest : List (Call × Result)) (sequential : Sequential spec first ((call, result) :: rest) last) :
    ∃ now, spec call first result now ∧ Sequential spec now rest last := by
  generalize whole : (call, result) :: rest = all at sequential
  induction sequential generalizing rest with
  | none => cases whole
  | snoc now last calls call' result' before serves ih =>
      cases calls with
      | nil =>
          obtain ⟨same, rfl⟩ := List.cons.inj whole
          cases same
          rw [sequential_none spec first now before] at serves
          exact ⟨last, serves, .none last⟩
      | cons one calls =>
          obtain ⟨rfl, rfl⟩ := List.cons.inj whole
          obtain ⟨mid, served, later⟩ := ih calls rfl
          exact ⟨mid, served, .snoc mid now last calls call' result' later serves⟩

theorem sequential_undone (spec : Spec Call Result α) (good : Result → Prop)
    (undo : ∀ call now result mid result' last, good result → good result' → spec call now result mid →
      spec call mid result' last → last = now)
    (first mid last : α) (there back : List (Call × Result)) (reversed : back.map Prod.fst = (there.map Prod.fst).reverse)
    (goodThere : ∀ call ∈ there, good call.2) (goodBack : ∀ call ∈ back, good call.2)
    (sequential : Sequential spec first there mid) (sequential' : Sequential spec mid back last) : last = first := by
  induction sequential generalizing back with
  | none =>
      obtain rfl : back = [] := by simpa using reversed
      exact sequential_none spec _ last sequential'
  | snoc now mid calls call result _ serves ih =>
      rw [List.map_append, List.reverse_append] at reversed
      obtain ⟨⟨call', result'⟩, rest, rfl, rfl, rest_⟩ := List.map_eq_cons_iff.mp reversed
      obtain ⟨after, served, later⟩ := sequential_first spec mid last _ result' rest sequential'
      have same : after = now := undo _ now result mid result' after
        (goodThere _ (List.mem_append_right _ (.head _))) (goodBack _ (.head _)) serves served
      rw [same] at later
      exact ih rest rest_ (fun one member => goodThere one (List.mem_append_left _ member))
        (fun one member => goodBack one (.tail _ member)) later

end

-- What is seen of the calls of several clients, and, with `served`, where each of
-- them takes its effect.
inductive Mark (D Call Result : Type) where
  | invoked (d : D) (call : Call)
  | served (d : D) (call : Call) (result : Result)
  | returned (d : D) (call : Call) (result : Result)

namespace Mark

variable {D Call Result : Type}

def seen : Mark D Call Result → Bool
  | .served _ _ _ => false
  | _ => true

def service : Mark D Call Result → Option (Call × Result)
  | .served _ call result => some (call, result)
  | _ => none

end Mark

inductive CallState (Call Result : Type) where
  | idle
  | pending (call : Call)
  | served (call : Call) (result : Result)

section
variable {D Call Result α : Type} [DecidableEq D]

inductive Marked : List (Mark D Call Result) → (D → CallState Call Result) → Prop where
  | start : Marked [] fun _ => .idle
  | invoked (marks : List (Mark D Call Result)) (phase : D → CallState Call Result) (d : D) (call : Call)
      (before : Marked marks phase) (idle : phase d = .idle) :
      Marked (marks ++ [.invoked d call]) (Function.update phase d (.pending call))
  | served (marks : List (Mark D Call Result)) (phase : D → CallState Call Result) (d : D) (call : Call) (result : Result)
      (before : Marked marks phase) (pending : phase d = .pending call) :
      Marked (marks ++ [.served d call result]) (Function.update phase d (.served call result))
  | returned (marks : List (Mark D Call Result)) (phase : D → CallState Call Result) (d : D) (call : Call) (result : Result)
      (before : Marked marks phase) (served : phase d = .served call result) :
      Marked (marks ++ [.returned d call result]) (Function.update phase d .idle)

def Linearizable (spec : Spec Call Result α) (first : α) (history : List (Mark D Call Result)) (last : α) : Prop :=
  ∃ marks phase, Marked marks phase ∧ marks.filter Mark.seen = history ∧
    Sequential spec first (marks.filterMap Mark.service) last

end

inductive Client (Call Op : Type) (Answer : Op → Type) (Result : Type) where
  | idle
  | busy (call : Call) (rest : Program Op Answer Result)

structure Clients (D Call Op : Type) (Answer : Op → Type) (Result σ : Type) where
  world : σ
  client : D → Client Call Op Answer Result

namespace Clients

section
variable {D Call Op : Type} {Answer : Op → Type} {Result σ : Type} [DecidableEq D]
  (program : Call → Program Op Answer Result) (may : Call → Prop) (sem : Program.Semantics Op Answer σ)
  (other : σ → σ → Prop) (disturbs : Op → Call → Program Op Answer Result → Prop)

-- Clients make calls, any number of them at the same time, and the world may also
-- change by itself. A system call is not made where it disturbs what another
-- client has left of its call.
inductive Run (start : σ) : List (Mark D Call Result) → Clients D Call Op Answer Result σ → Prop where
  | start : Run start [] ⟨start, fun _ => .idle⟩
  | invokes (history : List (Mark D Call Result)) (now : Clients D Call Op Answer Result σ) (d : D) (call : Call)
      (before : Run start history now) (idle : now.client d = .idle) (permitted : may call) :
      Run start (history ++ [.invoked d call])
        { now with client := Function.update now.client d (.busy call (program call)) }
  | asks (history : List (Mark D Call Result)) (now : Clients D Call Op Answer Result σ) (d : D) (call : Call) (op : Op)
      (next : Answer op → Program Op Answer Result) (answer : Answer op) (world : σ) (before : Run start history now)
      (busy : now.client d = .busy call (.call op next)) (answered : sem op now.world answer world)
      (calm : ∀ e, e ≠ d → ∀ call' rest, now.client e = .busy call' rest → ¬ disturbs op call' rest) :
      Run start history ⟨world, Function.update now.client d (.busy call (next answer))⟩
  | returns (history : List (Mark D Call Result)) (now : Clients D Call Op Answer Result σ) (d : D) (call : Call)
      (result : Result) (before : Run start history now) (busy : now.client d = .busy call (.ret result)) :
      Run start (history ++ [.returned d call result]) { now with client := Function.update now.client d .idle }
  | drifts (history : List (Mark D Call Result)) (now : Clients D Call Op Answer Result σ) (world : σ)
      (before : Run start history now) (drift : other now.world world) :
      Run start history { now with world := world }

end

section
variable {D Call Op : Type} {Answer : Op → Type} {Result σ α : Type}

-- How a call is followed to the one system call with which it takes its effect.
-- `stage call done rest world` is what is known when `rest` is left of it, and
-- `done` the result it will have once it took its effect.
structure Commits (program : Call → Program Op Answer Result) (may : Call → Prop)
    (sem : Program.Semantics Op Answer σ) (other : σ → σ → Prop)
    (disturbs : Op → Call → Program Op Answer Result → Prop) (spec : Spec Call Result α) (abs : σ → α)
    (inv : σ → Prop) (stage : Call → Option Result → Program Op Answer Result → σ → Prop) : Prop where
  fresh : ∀ call world, may call → stage call none (program call) world
  silent : ∀ call result op next world answer world', inv world →
    stage call (some result) (.call op next) world → sem op world answer world' →
      inv world' ∧ abs world' = abs world ∧ stage call (some result) (next answer) world'
  pending : ∀ call op next world answer world', inv world → stage call none (.call op next) world →
    sem op world answer world' → inv world' ∧
      ((abs world' = abs world ∧ stage call none (next answer) world') ∨
        ∃ result, spec call (abs world) result (abs world') ∧ stage call (some result) (next answer) world')
  effect : ∀ call result world, ¬ stage call none (.ret result) world
  done : ∀ call result result' world, stage call (some result) (.ret result') world → result' = result
  stable : ∀ call done rest op world answer world', stage call done rest world → sem op world answer world' →
    ¬ disturbs op call rest → stage call done rest world'
  drifts : ∀ world world', inv world → other world world' → inv world' ∧ abs world' = abs world ∧
    ∀ call done rest, stage call done rest world → stage call done rest world'

inductive Follows (stage : Call → Option Result → Program Op Answer Result → σ → Prop) (world : σ) :
    Client Call Op Answer Result → CallState Call Result → Prop where
  | idle : Follows stage world .idle .idle
  | pending (call : Call) (rest : Program Op Answer Result) (holds : stage call none rest world) :
      Follows stage world (.busy call rest) (.pending call)
  | served (call : Call) (result : Result) (rest : Program Op Answer Result) (holds : stage call (some result) rest world) :
      Follows stage world (.busy call rest) (.served call result)

structure Linear (spec : Spec Call Result α) (abs : σ → α) (inv : σ → Prop)
    (stage : Call → Option Result → Program Op Answer Result → σ → Prop) [DecidableEq D] (start : σ)
    (history marks : List (Mark D Call Result)) (phase : D → CallState Call Result)
    (now : Clients D Call Op Answer Result σ) : Prop where
  marked : Marked marks phase
  seen : marks.filter Mark.seen = history
  serves : Sequential spec (abs start) (marks.filterMap Mark.service) (abs now.world)
  holds : inv now.world
  follows : ∀ d, Follows stage now.world (now.client d) (phase d)

theorem follows_updated [DecidableEq D] (stage : Call → Option Result → Program Op Answer Result → σ → Prop)
    (world world' : σ) (client : D → Client Call Op Answer Result) (phase : D → CallState Call Result) (d : D)
    (mine : Client Call Op Answer Result) (my : CallState Call Result) (here : Follows stage world' mine my)
    (there : ∀ e, e ≠ d → Follows stage world (client e) (phase e) → Follows stage world' (client e) (phase e))
    (follows : ∀ e, Follows stage world (client e) (phase e)) (e : D) :
    Follows stage world' (Function.update client d mine e) (Function.update phase d my e) := by
  by_cases same : e = d
  · subst e
    rw [Function.update_self, Function.update_self]
    exact here
  · rw [Function.update_of_ne same, Function.update_of_ne same]
    exact there e same (follows e)

theorem follows_stable (stage : Call → Option Result → Program Op Answer Result → σ → Prop) (world world' : σ)
    (client : Client Call Op Answer Result) (phase : CallState Call Result)
    (stable : ∀ call done rest, client = .busy call rest → stage call done rest world → stage call done rest world')
    (follows : Follows stage world client phase) : Follows stage world' client phase := by
  cases follows with
  | idle => exact .idle
  | pending call rest holds => exact .pending call rest (stable call none rest rfl holds)
  | served call result rest holds => exact .served call result rest (stable call (some result) rest rfl holds)

end

section
variable {D Call Op : Type} {Answer : Op → Type} {Result σ α : Type} [DecidableEq D]
  {program : Call → Program Op Answer Result} {may : Call → Prop} {sem : Program.Semantics Op Answer σ}
  {other : σ → σ → Prop} {disturbs : Op → Call → Program Op Answer Result → Prop} {spec : Spec Call Result α}
  {abs : σ → α} {inv : σ → Prop} {stage : Call → Option Result → Program Op Answer Result → σ → Prop}

theorem linear_invokes (commits : Commits program may sem other disturbs spec abs inv stage) (start : σ)
    (history marks : List (Mark D Call Result)) (phase : D → CallState Call Result) (now : Clients D Call Op Answer Result σ)
    (d : D) (call : Call) (linear : Linear spec abs inv stage start history marks phase now)
    (idle : now.client d = .idle) (permitted : may call) :
    Linear spec abs inv stage start (history ++ [.invoked d call]) (marks ++ [.invoked d call])
      (Function.update phase d (.pending call))
      { now with client := Function.update now.client d (.busy call (program call)) } := by
  have rests : phase d = .idle := by
    have follows := linear.follows d
    rw [idle] at follows
    generalize phase d = mine at follows ⊢
    cases follows with
    | idle => rfl
  refine ⟨.invoked marks phase d call linear.marked rests, ?_, ?_, linear.holds, ?_⟩
  · rw [List.filter_append, linear.seen]
    rfl
  · rw [List.filterMap_append]
    exact (List.append_nil _).symm ▸ linear.serves
  · exact follows_updated stage now.world now.world now.client phase d _ _
      (.pending call _ (commits.fresh call now.world permitted)) (fun _ _ kept => kept) linear.follows

theorem linear_served (start : σ) (history marks : List (Mark D Call Result)) (phase : D → CallState Call Result)
    (client : D → Client Call Op Answer Result) (first last : σ) (d : D) (call : Call) (result : Result)
    (mine : Client Call Op Answer Result)
    (linear : Linear spec abs inv stage start history marks phase ⟨first, client⟩) (pending : phase d = .pending call)
    (serves : spec call (abs first) result (abs last)) (holds : inv last)
    (here : Follows stage last mine (.served call result))
    (there : ∀ e, e ≠ d → Follows stage first (client e) (phase e) → Follows stage last (client e) (phase e)) :
    Linear spec abs inv stage start history (marks ++ [.served d call result])
      (Function.update phase d (.served call result)) ⟨last, Function.update client d mine⟩ := by
  refine ⟨.served marks phase d call result linear.marked pending, ?_, ?_, holds, ?_⟩
  · rw [List.filter_append, linear.seen]
    exact List.append_nil history
  · rw [List.filterMap_append]
    exact .snoc _ _ _ _ call result linear.serves serves
  · exact follows_updated stage first last client phase d mine _ here there linear.follows

theorem linear_silent (start : σ) (history marks : List (Mark D Call Result)) (phase : D → CallState Call Result)
    (client : D → Client Call Op Answer Result) (first last : σ) (d : D) (mine : Client Call Op Answer Result)
    (linear : Linear spec abs inv stage start history marks phase ⟨first, client⟩) (same : abs last = abs first)
    (holds : inv last) (here : Follows stage last mine (phase d))
    (there : ∀ e, e ≠ d → Follows stage first (client e) (phase e) → Follows stage last (client e) (phase e)) :
    Linear spec abs inv stage start history marks phase ⟨last, Function.update client d mine⟩ := by
  refine ⟨linear.marked, linear.seen, ?_, holds, fun e => ?_⟩
  · rw [show abs (Clients.mk last (Function.update client d mine)).world = abs first from same]
    exact linear.serves
  · have kept := follows_updated stage first last client phase d mine (phase d) here there linear.follows e
    rwa [Function.update_eq_self] at kept

theorem linear_asks (commits : Commits program may sem other disturbs spec abs inv stage) (start : σ)
    (history marks : List (Mark D Call Result)) (phase : D → CallState Call Result) (now : Clients D Call Op Answer Result σ)
    (d : D) (call : Call) (op : Op) (next : Answer op → Program Op Answer Result) (answer : Answer op) (world : σ)
    (linear : Linear spec abs inv stage start history marks phase now)
    (busy : now.client d = .busy call (.call op next)) (answered : sem op now.world answer world)
    (calm : ∀ e, e ≠ d → ∀ call' rest, now.client e = .busy call' rest → ¬ disturbs op call' rest) :
    ∃ marks' phase', Linear spec abs inv stage start history marks' phase'
      ⟨world, Function.update now.client d (.busy call (next answer))⟩ := by
  have there : ∀ e, e ≠ d → Follows stage now.world (now.client e) (phase e) →
      Follows stage world (now.client e) (phase e) := fun e different =>
    follows_stable stage now.world world _ _ fun call' done rest same holds =>
      commits.stable call' done rest op now.world answer world holds answered (calm e different call' rest same)
  have follows := linear.follows d
  rw [busy] at follows
  generalize here : phase d = mine at follows
  cases follows with
  | pending _ _ holds =>
      obtain ⟨kept, ⟨same, goes⟩ | ⟨result, serves, goes⟩⟩ :=
        commits.pending call op next now.world answer world linear.holds holds answered
      · refine ⟨marks, phase, linear_silent start history marks phase now.client now.world world d _ linear same kept ?_ there⟩
        rw [here]
        exact .pending call _ goes
      · exact ⟨_, _, linear_served start history marks phase now.client now.world world d call result _ linear here serves
          kept (.served call result _ goes) there⟩
  | served _ result _ holds =>
      obtain ⟨kept, same, goes⟩ := commits.silent call result op next now.world answer world linear.holds holds answered
      refine ⟨marks, phase, linear_silent start history marks phase now.client now.world world d _ linear same kept ?_ there⟩
      rw [here]
      exact .served call result _ goes

theorem linear_returned (start : σ) (history marks : List (Mark D Call Result)) (phase : D → CallState Call Result)
    (now : Clients D Call Op Answer Result σ) (d : D) (call : Call) (result : Result)
    (linear : Linear spec abs inv stage start history marks phase now) (served : phase d = .served call result) :
    Linear spec abs inv stage start (history ++ [.returned d call result]) (marks ++ [.returned d call result])
      (Function.update phase d .idle) { now with client := Function.update now.client d .idle } := by
  refine ⟨.returned marks phase d call result linear.marked served, ?_, ?_, linear.holds, ?_⟩
  · rw [List.filter_append, linear.seen]
    rfl
  · rw [List.filterMap_append]
    exact (List.append_nil _).symm ▸ linear.serves
  · exact follows_updated stage now.world now.world now.client phase d _ _ .idle (fun _ _ kept => kept) linear.follows

theorem linear_returns (commits : Commits program may sem other disturbs spec abs inv stage) (start : σ)
    (history marks : List (Mark D Call Result)) (phase : D → CallState Call Result) (now : Clients D Call Op Answer Result σ)
    (d : D) (call : Call) (result : Result) (linear : Linear spec abs inv stage start history marks phase now)
    (busy : now.client d = .busy call (.ret result)) :
    ∃ marks' phase', Linear spec abs inv stage start (history ++ [.returned d call result]) marks' phase'
      { now with client := Function.update now.client d .idle } := by
  have follows := linear.follows d
  rw [busy] at follows
  generalize here : phase d = mine at follows
  cases follows with
  | pending _ _ holds => exact absurd holds (commits.effect call result now.world)
  | served _ result' _ holds =>
      obtain rfl := commits.done call result' result now.world holds
      exact ⟨_, _, linear_returned start history marks phase now d call result linear here⟩

theorem linear_drifts (commits : Commits program may sem other disturbs spec abs inv stage) (start : σ)
    (history marks : List (Mark D Call Result)) (phase : D → CallState Call Result) (now : Clients D Call Op Answer Result σ)
    (world : σ) (linear : Linear spec abs inv stage start history marks phase now) (drift : other now.world world) :
    Linear spec abs inv stage start history marks phase { now with world := world } := by
  obtain ⟨kept, same, stays⟩ := commits.drifts now.world world linear.holds drift
  refine ⟨linear.marked, linear.seen, ?_, kept, fun d => ?_⟩
  · simp only [same]
    exact linear.serves
  · exact follows_stable stage now.world world _ _ (fun call done rest _ holds => stays call done rest holds)
      (linear.follows d)

theorem run_linearizable (commits : Commits program may sem other disturbs spec abs inv stage) (start : σ)
    (history : List (Mark D Call Result)) (now : Clients D Call Op Answer Result σ) (first : inv start)
    (run : Run program may sem other disturbs start history now) :
    Linearizable spec (abs start) history (abs now.world) := by
  have linear : ∃ marks phase, Linear spec abs inv stage start history marks phase now := by
    induction run with
    | start => exact ⟨[], _, .start, rfl, .none _, first, fun _ => .idle⟩
    | invokes history now d call _ idle permitted ih =>
        obtain ⟨marks, phase, linear⟩ := ih
        exact ⟨_, _, linear_invokes commits start history marks phase now d call linear idle permitted⟩
    | asks history now d call op next answer world _ busy answered calm ih =>
        obtain ⟨marks, phase, linear⟩ := ih
        exact linear_asks commits start history marks phase now d call op next answer world linear busy answered calm
    | returns history now d call result _ busy ih =>
        obtain ⟨marks, phase, linear⟩ := ih
        exact linear_returns commits start history marks phase now d call result linear busy
    | drifts history now world _ drift ih =>
        obtain ⟨marks, phase, linear⟩ := ih
        exact ⟨marks, phase, linear_drifts commits start history marks phase now world linear drift⟩
  obtain ⟨marks, phase, linear⟩ := linear
  exact ⟨marks, phase, linear.marked, linear.seen, linear.serves⟩

end

end Clients

section
variable {Call Op : Type} {Answer : Op → Type} {Result σ α : Type}
  {program : Call → Program Op Answer Result} {may : Call → Prop} {sem : Program.Semantics Op Answer σ}
  {other : σ → σ → Prop} {spec : Spec Call Result α} {abs : σ → α} {inv : σ → Prop}

inductive Answered (program : Call → Program Op Answer Result) (may : Call → Prop) (sem : Program.Semantics Op Answer σ)
    (other : σ → σ → Prop) (start : σ) : List (Call × Result) → σ → Prop where
  | none : Answered program may sem other start [] start
  | snoc (calls : List (Call × Result)) (now final : σ) (call : Call) (result : Result) (asked seen : List σ)
      (before : Answered program may sem other start calls now) (permitted : may call)
      (runs : Program.Runs sem other now (program call) asked seen result final) :
      Answered program may sem other start (calls ++ [(call, result)]) final

theorem runs_ensured (start final : σ) (rest : Program Op Answer Result) (asked seen : List σ) (result : Result)
    (allowed : Op → σ → Prop) (post : Result → σ → Prop) (ensured : Program.Ensures sem allowed rest start post)
    (runs : Program.Runs sem (fun _ _ => False) start rest asked seen result final) : post result final := by
  induction runs with
  | ret world value => exact ensured
  | other _ _ _ _ _ _ _ step => exact step.elim
  | call world world' op next answer asked seen value final step _ ih => exact ih (ensured.2 answer world' step)

theorem answered_sequential (start final : σ) (calls : List (Call × Result)) (first : inv start)
    (serves : ∀ now call asked seen result after, may call → inv now →
      Program.Runs sem other now (program call) asked seen result after →
        inv after ∧ spec call (abs now) result (abs after))
    (answered : Answered program may sem other start calls final) :
    inv final ∧ Sequential spec (abs start) calls (abs final) := by
  induction answered with
  | none => exact ⟨first, .none _⟩
  | snoc calls now after call result asked seen _ permitted runs ih =>
      obtain ⟨holds, sequential⟩ := ih
      obtain ⟨kept, served⟩ := serves now call asked seen result after permitted holds runs
      exact ⟨kept, .snoc _ _ _ calls call result sequential served⟩

variable {disturbs : Op → Call → Program Op Answer Result → Prop}
  {stage : Call → Option Result → Program Op Answer Result → σ → Prop}

theorem commits_runs (commits : Clients.Commits program may sem other disturbs spec abs inv stage) (now final : σ)
    (call : Call) (rest : Program Op Answer Result) (asked seen : List σ) (result : Result) (holds : inv now)
    (runs : Program.Runs sem other now rest asked seen result final) :
    (∀ promised, stage call (some promised) rest now → inv final ∧ abs final = abs now ∧ promised = result) ∧
      (stage call none rest now → inv final ∧ spec call (abs now) result (abs final)) := by
  induction runs with
  | ret world value =>
      exact ⟨fun promised goes => ⟨holds, rfl, (commits.done call promised value world goes).symm⟩,
        fun goes => absurd goes (commits.effect call value world)⟩
  | other world world' program' asked seen value final drift _ ih =>
      obtain ⟨kept, same, stays⟩ := commits.drifts world world' holds drift
      obtain ⟨later, sooner⟩ := ih kept
      refine ⟨fun promised goes => ?_, fun goes => ?_⟩
      · rw [← same]
        exact later promised (stays _ _ _ goes)
      · rw [← same]
        exact sooner (stays _ _ _ goes)
  | call world world' op next answer asked seen value final answered _ ih =>
      refine ⟨fun promised goes => ?_, fun goes => ?_⟩
      · obtain ⟨kept, same, goes⟩ := commits.silent call promised op next world answer world' holds goes answered
        rw [← same]
        exact (ih kept).1 promised goes
      · obtain ⟨kept, ⟨same, goes⟩ | ⟨promised, serves, goes⟩⟩ :=
          commits.pending call op next world answer world' holds goes answered
        · rw [← same]
          exact (ih kept).2 goes
        · obtain ⟨holds, same, rfl⟩ := (ih kept).1 promised goes
          rw [same]
          exact ⟨holds, serves⟩

theorem commits_answered (commits : Clients.Commits program may sem other disturbs spec abs inv stage) (start final : σ)
    (calls : List (Call × Result)) (first : inv start)
    (answered : Answered program may sem other start calls final) :
    inv final ∧ Sequential spec (abs start) calls (abs final) :=
  answered_sequential start final calls first
    (fun now call asked seen result after permitted holds runs =>
      (commits_runs commits now after call _ asked seen result holds runs).2 (commits.fresh call now permitted)) answered

end

end Sys
