import FsExt.Async.Progress

set_option autoImplicit false

namespace FsExt.Async

open Sys

def Request.pooled (request : Request) : Bool :=
  !request.kind.threaded && (request.worker = .running || request.worker = .stored)

def Request.waiting (request : Request) : Bool := request.kind.threaded && request.worker = .running

namespace Env

-- The pool takes its work in the order of submission, as many at a time as it has
-- threads.
def taken (env : Env) (size r : Nat) : Prop := (env.requests.take r).countP Request.pooled < size

-- The pool has `size` threads, and the waits for locks that `stuck` names never end.
inductive Proceeds (size : Nat) (stuck : Nat → Prop) (env : Env) : Env → Prop where
  | scriptEnds (scripting : env.scripting) : Proceeds size stuck env { env with js := false }
  | act (r : Nat) (action : Action) (request request' : Request) (found : env.requests[r]? = some request)
      (may : env.allows r action) (move : Move action request request') (works : action ≠ .tearDown)
      (taken : action = .work → request.kind.threaded = false → env.taken size r)
      (returns : action = .work → request.kind.threaded = true → ¬ stuck r) :
      Proceeds size stuck env (env.after r action request request')

section
variable (size : Nat) (stuck : Nat → Prop)

theorem proceeds_works (env env' : Env) (proceeds : Proceeds size stuck env env') : Works env env' := by
  cases proceeds with
  | scriptEnds scripting => exact .scriptEnds scripting
  | act r action request request' found may move works _ _ => exact .act r action request request' found may move works

theorem first_pooled_proceeds (env : Env) (positive : 0 < size) (r : Nat) (request : Request)
    (found : env.requests[r]? = some request) (pooled : request.pooled = true) :
    ∃ after, Proceeds size stuck env after := by
  induction r using Nat.strongRecOn generalizing request with
  | ind r ih =>
      by_cases first : ∀ earlier ∈ env.requests.take r, earlier.pooled ≠ true
      · have free : env.taken size r := by
          rw [taken, List.countP_eq_zero.mpr first]
          exact positive
        simp only [Request.pooled, Bool.and_eq_true, Bool.not_eq_true', Bool.or_eq_true, decide_eq_true_eq] at pooled
        obtain ⟨ours, running | stored⟩ := pooled
        · exact ⟨_, .act r .work request _ found trivial (.work request ⟨.ok (), [], []⟩ running)
            (fun same => by cases same) (fun _ _ => free) fun _ threaded => by rw [ours] at threaded; cases threaded⟩
        · exact ⟨_, .act r .stop request _ found trivial (.stop request (by rw [ours]; exact stored))
            (fun same => by cases same) (fun same => by cases same) fun same => by cases same⟩
      · obtain ⟨earlier, member, pooled'⟩ : ∃ earlier ∈ env.requests.take r, earlier.pooled = true := by
          by_contra none
          exact first fun earlier member pooled' => none ⟨earlier, member, pooled'⟩
        obtain ⟨s, found'⟩ := List.mem_iff_getElem?.mp member
        obtain ⟨bound, _⟩ := List.getElem?_eq_some_iff.mp found'
        have less : s < r := by
          rw [List.length_take] at bound
          omega
        rw [List.getElem?_take_of_lt less] at found'
        exact ih s less earlier found' pooled'

def Quiet (env : Env) : Prop :=
  env.idle ∧ ∀ (r : Nat) (request : Request), env.requests[r]? = some request →
    request.stage.settled = true ∨ stuck r ∧ request.stage = .pending ∧ request.waiting = true

theorem unquiet_proceeds (env : Env) (placed : env.Placed) (positive : 0 < size) (unquiet : ¬ Quiet stuck env) :
    ∃ after, Proceeds size stuck env after := by
  rcases acts_or_waits env placed with scripting | acts | ⟨idle, waits⟩
  · exact ⟨_, .scriptEnds scripting⟩
  · obtain ⟨r, action, request, request', found, may, move, works, elsewhere⟩ := acts
    exact ⟨_, .act r action request request' found may move works (fun same => absurd same elsewhere)
      fun same => absurd same elsewhere⟩
  · by_contra still
    refine unquiet ⟨idle, fun r request found => (waits r request found).imp_right fun waiting => ?_⟩
    obtain ⟨pending, running⟩ := waiting
    cases threaded : request.kind.threaded with
    | true =>
        refine ⟨?_, pending, by simp [Request.waiting, threaded, running]⟩
        by_contra free
        refine still ⟨_, .act r .work request _ found trivial (.work request ⟨.ok (), [], []⟩ running)
          (fun same => by cases same) (fun _ ours => ?_) fun _ _ => free⟩
        rw [threaded] at ours
        cases ours
    | false =>
        refine absurd (first_pooled_proceeds size stuck env positive r request found ?_) still
        simp [Request.pooled, threaded, running]

end

end Env

theorem pool_not_starved (size : Nat) (positive : 0 < size) (stuck : Nat → Prop) (env : Env)
    (reachable : Env.Reachable env) :
    (∀ run, List.IsChain (Env.Proceeds size stuck) (env :: run) → run.length ≤ env.left) ∧
      (∃ last, Relation.ReflTransGen (Env.Proceeds size stuck) env last ∧ Env.Quiet stuck last) ∧
      ∀ now, Relation.ReflTransGen (Env.Proceeds size stuck) env now →
        (Env.Quiet stuck now ∨ ∃ after, Env.Proceeds size stuck now after) ∧
          (Env.Quiet stuck now → ∀ (r : Nat) (request : Request), now.requests[r]? = some request →
            Served request ∨ stuck r ∧ request.stage = .pending ∧ request.waiting = true) := by
  have placed := Env.reachable_placed env reachable
  have keeps : ∀ now after, Env.Placed now → Env.Proceeds size stuck now after → Env.Placed after :=
    fun now after holds proceeds =>
      Env.step_placed now after holds (Env.works_step now after (Env.proceeds_works size stuck now after proceeds))
  have drops : ∀ now after, Env.Placed now → Env.Proceeds size stuck now after → after.left < now.left :=
    fun now after holds proceeds => Env.works_drops now after holds (Env.proceeds_works size stuck now after proceeds)
  have moves : ∀ now, Env.Placed now → ¬ Env.Quiet stuck now → ∃ after, Env.Proceeds size stuck now after :=
    fun now holds unquiet => Env.unquiet_proceeds size stuck now holds positive unquiet
  refine ⟨fun run chain => ?_, ?_, fun now run => ?_⟩
  · exact run_bounded _ Env.Placed Env.left keeps drops run env placed chain
  · obtain ⟨last, run, _, quiet⟩ := settles _ Env.Placed (Env.Quiet stuck) Env.left keeps drops moves env placed
    exact ⟨last, run, quiet⟩
  · have holds : now.Placed := by
      induction run with
      | refl => exact placed
      | tail _ proceeds ih => exact keeps _ _ ih proceeds
    refine ⟨?_, fun quiet r request found => (quiet.2 r request found).imp_left fun settled => ?_⟩
    · by_cases quiet : Env.Quiet stuck now
      · exact .inl quiet
      · exact .inr (moves now holds quiet)
    · have member := List.mem_of_getElem? found
      exact settled_served request (holds.sound.requests request member) (holds.answered request member) settled

def begun (kind : Kind) : Request where
  kind := kind
  worker := .running
  outcome := ⟨.ok (), [], []⟩
  env := true
  exiting := false
  teardown := .added
  stage := .pending
  argv := []
  history := [.added, .created .cb, .created .ctx, .started]

theorem wait_then_trim : Env.Reachable ⟨[begun .waitForLock, begun .trim], none, none, false, false⟩ :=
  .head (.script ⟨rfl, rfl, rfl⟩) <|
  .head (.submission .waitForLock ⟨rfl, rfl⟩) <|
  .head (.act 0 (.submit .start) _ _ rfl rfl (.submit _ .start _ rfl)) <|
  .head (.act 0 (.submit .setEnv) _ _ rfl rfl (.submit _ .setEnv _ rfl)) <|
  .head (.act 0 (.submit .setExiting) _ _ rfl rfl (.submit _ .setExiting _ rfl)) <|
  .head (.act 0 (.submit (.createReference .ctx)) _ _ rfl rfl (.submit _ (.createReference .ctx) _ rfl)) <|
  .head (.act 0 (.submit (.createReference .cb)) _ _ rfl rfl (.submit _ (.createReference .cb) _ rfl)) <|
  .head (.act 0 (.submit .addTeardown) _ _ rfl rfl (.submit _ .addTeardown _ rfl)) <|
  .head (.act 0 .submitted _ _ rfl rfl (.submitted _ rfl)) <|
  .head (.submission .trim ⟨rfl, rfl⟩) <|
  .head (.act 1 (.submit .start) _ _ rfl rfl (.submit _ .start _ rfl)) <|
  .head (.act 1 (.submit .setEnv) _ _ rfl rfl (.submit _ .setEnv _ rfl)) <|
  .head (.act 1 (.submit .setExiting) _ _ rfl rfl (.submit _ .setExiting _ rfl)) <|
  .head (.act 1 (.submit (.createReference .ctx)) _ _ rfl rfl (.submit _ (.createReference .ctx) _ rfl)) <|
  .head (.act 1 (.submit (.createReference .cb)) _ _ rfl rfl (.submit _ (.createReference .cb) _ rfl)) <|
  .head (.act 1 (.submit .addTeardown) _ _ rfl rfl (.submit _ .addTeardown _ rfl)) <|
  .head (.act 1 .submitted _ _ rfl rfl (.submitted _ rfl)) <|
  .single (.scriptEnds ⟨rfl, rfl⟩)

theorem trim_served_beside_wait :
    ∃ last, Relation.ReflTransGen (Env.Proceeds 1 (· = 0)) ⟨[begun .waitForLock, begun .trim], none, none, false, false⟩
        last ∧ ∀ request, last.requests[1]? = some request → Served request := by
  obtain ⟨_, ⟨last, run, quiet⟩, each⟩ := pool_not_starved 1 (by decide) (· = 0) _ wait_then_trim
  refine ⟨last, run, fun request found => ((each last run).2 quiet 1 request found).resolve_right fun waits => ?_⟩
  exact absurd waits.1 (by decide)

end FsExt.Async
