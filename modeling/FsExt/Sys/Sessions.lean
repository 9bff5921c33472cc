import FsExt.Sys.Program
import Mathlib.Logic.Relation

set_option autoImplicit false

namespace Sys

-- Parties that use one service through the same calls, each with one call in
-- progress at a time. What a party makes of its calls is its view: `opens` is
-- the view while a call is in progress, `closes` the view after its result,
-- both from the view before it.
structure Interface (Call Op : Type) (Answer : Op → Type) (Result View : Type) where
  program : Call → Program Op Answer Result
  opens : Call → View → View
  closes : Call → View → Result → View

inductive Party (Call Op : Type) (Answer : Op → Type) (Result View : Type) where
  | idle (view : View)
  | busy (call : Call) (before : View) (rest : Program Op Answer Result)

@[ext]
structure Service (D Own Call Op : Type) (Answer : Op → Type) (Result View : Type) where
  table : D → Own
  party : D → Party Call Op Answer Result View

namespace Service

section
variable {D Own Call Op : Type} {Answer : Op → Type} {Result View : Type}

def view (api : Interface Call Op Answer Result View) : Party Call Op Answer Result View → View
  | .idle now => now
  | .busy call before _ => api.opens call before

def resume (api : Interface Call Op Answer Result View) (call : Call) (before : View) :
    Program Op Answer Result → Party Call Op Answer Result View
  | .ret result => .idle (api.closes call before result)
  | .call op next => .busy call before (.call op next)

variable [DecidableEq D]

-- `allowed` says which calls a party may begin in which state, `sem` what the
-- system calls of one party may do to the table.
inductive Step (api : Interface Call Op Answer Result View)
    (allowed : Service D Own Call Op Answer Result View → D → Call → Prop)
    (sem : D → Program.Semantics Op Answer (D → Own)) (state : Service D Own Call Op Answer Result View) :
    Service D Own Call Op Answer Result View → Prop where
  | begins (d : D) (call : Call) (before : View) (idle : state.party d = .idle before) (may : allowed state d call) :
      Step api allowed sem state
        { state with party := Function.update state.party d (resume api call before (api.program call)) }
  | asks (d : D) (call : Call) (before : View) (op : Op) (next : Answer op → Program Op Answer Result)
      (answer : Answer op) (table : D → Own) (busy : state.party d = .busy call before (.call op next))
      (answered : sem d op state.table answer table) :
      Step api allowed sem state
        { table := table, party := Function.update state.party d (resume api call before (next answer)) }

def Reachable (api : Interface Call Op Answer Result View)
    (allowed : Service D Own Call Op Answer Result View → D → Call → Prop)
    (sem : D → Program.Semantics Op Answer (D → Own)) (start state : Service D Own Call Op Answer Result View) :
    Prop :=
  Relation.ReflTransGen (Step api allowed sem) start state

theorem reachable_invariant (api : Interface Call Op Answer Result View)
    (allowed : Service D Own Call Op Answer Result View → D → Call → Prop)
    (sem : D → Program.Semantics Op Answer (D → Own)) (inv : Service D Own Call Op Answer Result View → Prop)
    (start state : Service D Own Call Op Answer Result View) (first : inv start)
    (keeps : ∀ now after, inv now → Step api allowed sem now after → inv after)
    (reachable : Reachable api allowed sem start state) : inv state := by
  induction reachable with
  | refl => exact first
  | tail _ step ih => exact keeps _ _ ih step

theorem reachable_call (api : Interface Call Op Answer Result View)
    (allowed : Service D Own Call Op Answer Result View → D → Call → Prop)
    (sem : D → Program.Semantics Op Answer (D → Own)) (start state : Service D Own Call Op Answer Result View)
    (reachable : Reachable api allowed sem start state) (d : D) (call : Call) (before : View)
    (idle : state.party d = .idle before) (may : allowed state d call) (op : Op)
    (next : Answer op → Program Op Answer Result) (starts : api.program call = .call op next) (answer : Answer op)
    (table : D → Own) (answered : sem d op state.table answer table) (result : Result)
    (ends : next answer = .ret result) :
    Reachable api allowed sem start
      { table := table, party := Function.update state.party d (.idle (api.closes call before result)) } := by
  have begun : Step api allowed sem state
      { state with party := Function.update state.party d (resume api call before (api.program call)) } :=
    .begins d call before idle may
  rw [starts] at begun
  have done : Step api allowed sem
      { state with party := Function.update state.party d (resume api call before (.call op next)) }
      { table := table,
        party := Function.update (Function.update state.party d (resume api call before (.call op next))) d
          (resume api call before (next answer)) } :=
    .asks d call before op next answer table (Function.update_self _ _ _) answered
  rw [ends, Function.update_idem] at done
  exact (reachable.tail begun).tail done

theorem reachable_twice (api : Interface Call Op Answer Result View)
    (allowed : Service D Own Call Op Answer Result View → D → Call → Prop)
    (sem : D → Program.Semantics Op Answer (D → Own)) (state : Service D Own Call Op Answer Result View) (d : D)
    (call : Call) (before : View) (op op' : Op) (next : Answer op → Program Op Answer Result)
    (next' : Answer op' → Program Op Answer Result) (answer : Answer op) (answer' : Answer op') (table table' : D → Own)
    (busy : state.party d = .busy call before (.call op next)) (answered : sem d op state.table answer table)
    (more : next answer = .call op' next') (answered' : sem d op' table answer' table') :
    Reachable api allowed sem state
      { table := table', party := Function.update state.party d (resume api call before (next' answer')) } := by
  have first : Step api allowed sem state
      { table := table, party := Function.update state.party d (.busy call before (.call op' next')) } := by
    have step : Step api allowed sem state
        { table := table, party := Function.update state.party d (resume api call before (next answer)) } :=
      .asks d call before op next answer table busy answered
    rw [more] at step
    exact step
  have last : Step api allowed sem
      { table := table, party := Function.update state.party d (.busy call before (.call op' next')) }
      { table := table',
        party := Function.update (Function.update state.party d (.busy call before (.call op' next'))) d
          (resume api call before (next' answer')) } :=
    .asks d call before op' next' answer' table' (Function.update_self _ _ _) answered'
  rw [Function.update_idem] at last
  exact .tail (.single first) last

-- The system calls of a party change its own part of the table only, as
-- `own` says, which does not mention the others.
structure Owned (sem : D → Program.Semantics Op Answer (D → Own)) (own : Program.Semantics Op Answer Own) : Prop where
  changes : ∀ d op table answer table', sem d op table answer table' → own op (table d) answer (table' d)
  frame : ∀ d op table answer table' e, sem d op table answer table' → e ≠ d → table' e = table e

-- What holds of one party and its part of the table between two steps: of an
-- idle one that its view is backed, of a busy one that `asks` holds of every
-- call it still makes and that its view will be backed in the end.
def Follows (api : Interface Call Op Answer Result View) (own : Program.Semantics Op Answer Own)
    (backed : View → Own → Prop) (asks : Call → View → Op → Own → Prop) (mine : Own) :
    Party Call Op Answer Result View → Prop
  | .idle now => backed now mine
  | .busy call before rest =>
      (∃ op next, rest = .call op next) ∧
        Program.Ensures own (asks call before) rest mine
          fun result mine' => backed (api.closes call before result) mine'

theorem follows_asks (api : Interface Call Op Answer Result View) (own : Program.Semantics Op Answer Own)
    (backed : View → Own → Prop) (asks : Call → View → Op → Own → Prop) (mine : Own) (call : Call) (before : View)
    (op : Op) (next : Answer op → Program Op Answer Result)
    (follows : Follows api own backed asks mine (.busy call before (.call op next))) : asks call before op mine :=
  follows.2.1

theorem follows_resume (api : Interface Call Op Answer Result View) (own : Program.Semantics Op Answer Own)
    (backed : View → Own → Prop) (asks : Call → View → Op → Own → Prop) (mine : Own) (call : Call) (before : View)
    (rest : Program Op Answer Result)
    (ensured : Program.Ensures own (asks call before) rest mine
      fun result mine' => backed (api.closes call before result) mine') :
    Follows api own backed asks mine (resume api call before rest) := by
  cases rest with
  | ret result => exact ensured
  | call op next => exact ⟨⟨op, next, rfl⟩, ensured⟩

theorem reachable_follows (api : Interface Call Op Answer Result View)
    (allowed : Service D Own Call Op Answer Result View → D → Call → Prop)
    (sem : D → Program.Semantics Op Answer (D → Own)) (own : Program.Semantics Op Answer Own)
    (owned : Owned sem own) (backed : View → Own → Prop) (asks : Call → View → Op → Own → Prop)
    (sound : ∀ state d call before, allowed state d call → backed before (state.table d) →
      Program.Ensures own (asks call before) (api.program call) (state.table d)
        fun result mine => backed (api.closes call before result) mine)
    (start state : Service D Own Call Op Answer Result View)
    (first : ∀ d, Follows api own backed asks (start.table d) (start.party d))
    (reachable : Reachable api allowed sem start state) (d : D) :
    Follows api own backed asks (state.table d) (state.party d) := by
  revert d
  refine reachable_invariant api allowed sem
    (fun now => ∀ d, Follows api own backed asks (now.table d) (now.party d)) start state first ?_ reachable
  intro now after ih step e
  cases step with
  | begins d call before idle may =>
      by_cases same : e = d
      · subst e
        have follows := ih d
        rw [idle] at follows
        simp only [Function.update_self]
        exact follows_resume api own backed asks _ call before _ (sound now d call before may follows)
      · simp only [Function.update_of_ne same]
        exact ih e
  | asks d call before op next answer table busy answered =>
      by_cases same : e = d
      · subst e
        have follows := ih d
        rw [busy] at follows
        simp only [Function.update_self]
        exact follows_resume api own backed asks _ call before _
          (follows.2.2 answer _ (owned.changes d op now.table answer table answered))
      · simp only [Function.update_of_ne same]
        rw [owned.frame d op now.table answer table e answered same]
        exact ih e

theorem reachable_table (api : Interface Call Op Answer Result View)
    (allowed : Service D Own Call Op Answer Result View → D → Call → Prop)
    (sem : D → Program.Semantics Op Answer (D → Own)) (safe : (D → Own) → Prop)
    (keeps : ∀ d op table answer table', safe table → sem d op table answer table' → safe table')
    (start state : Service D Own Call Op Answer Result View) (first : safe start.table)
    (reachable : Reachable api allowed sem start state) : safe state.table := by
  refine reachable_invariant api allowed sem (fun now => safe now.table) start state first ?_ reachable
  intro now after ih step
  cases step with
  | begins d call before idle may => exact ih
  | asks d call before op next answer table busy answered => exact keeps d op now.table answer table ih answered

def Busy (kind : Call → Prop) (party : Party Call Op Answer Result View) : Prop :=
  ∃ call before rest, party = .busy call before rest ∧ kind call

theorem busy_resume (api : Interface Call Op Answer Result View) (kind : Call → Prop) (call : Call) (before : View)
    (rest : Program Op Answer Result) (busy : Busy kind (resume api call before rest)) : kind call := by
  obtain ⟨other, before', rest', same, ofKind⟩ := busy
  cases rest with
  | ret result => cases same
  | call op next =>
      cases same
      exact ofKind

theorem reachable_alone (api : Interface Call Op Answer Result View)
    (allowed : Service D Own Call Op Answer Result View → D → Call → Prop)
    (sem : D → Program.Semantics Op Answer (D → Own)) (kind : Call → Prop)
    (alone : ∀ state d call, allowed state d call → kind call → ∀ e, ¬ Busy kind (state.party e))
    (start state : Service D Own Call Op Answer Result View) (first : ∀ d, ¬ Busy kind (start.party d))
    (reachable : Reachable api allowed sem start state) (d e : D) (busyD : Busy kind (state.party d))
    (busyE : Busy kind (state.party e)) : d = e := by
  revert d e
  refine reachable_invariant api allowed sem
    (fun now => ∀ d e, Busy kind (now.party d) → Busy kind (now.party e) → d = e) start state
    (fun d _ busyD => absurd busyD (first d)) ?_ reachable
  intro now after ih step d e busyD busyE
  cases step with
  | begins f call before idle may =>
      by_cases atD : d = f
      · by_cases atE : e = f
        · rw [atD, atE]
        · simp only [atD, Function.update_self] at busyD
          simp only [Function.update_of_ne atE] at busyE
          exact absurd busyE (alone now f call may (busy_resume api kind call before _ busyD) e)
      · simp only [Function.update_of_ne atD] at busyD
        by_cases atE : e = f
        · simp only [atE, Function.update_self] at busyE
          exact absurd busyD (alone now f call may (busy_resume api kind call before _ busyE) d)
        · simp only [Function.update_of_ne atE] at busyE
          exact ih d e busyD busyE
  | asks f call before op next answer table busy answered =>
      have earlier : ∀ x, Busy kind (Function.update now.party f (resume api call before (next answer)) x) →
          Busy kind (now.party x) := by
        intro x later
        by_cases atX : x = f
        · subst x
          rw [Function.update_self] at later
          exact ⟨call, before, _, busy, busy_resume api kind call before _ later⟩
        · rw [Function.update_of_ne atX] at later
          exact later
      exact ih d e (earlier d busyD) (earlier e busyE)

end

end Service

def Deadlocked {D : Type} (waits : D → D → Prop) (members : D → Prop) : Prop :=
  (∃ d, members d) ∧ ∀ d, members d → (∃ e, waits d e) ∧ ∀ e, waits d e → members e

end Sys
