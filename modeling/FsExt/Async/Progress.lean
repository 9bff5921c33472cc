import FsExt.Async.LifeCycle
import FsExt.Sys.Runs

set_option autoImplicit false

namespace FsExt.Async

open Sys

def Stage.isSubmitting : Stage → Bool
  | .submitting _ => true
  | _ => false

def Stage.isCompleting : Stage → Bool
  | .completing _ => true
  | _ => false

def Stage.settled : Stage → Bool
  | .refused | .done => true
  | _ => false

structure Answered (request : Request) : Prop where
  closing : request.stage = .closing → request.kind.threaded = true
  signalled : request.worker = .signalled → request.kind.threaded = true
  exiting : request.exiting = true → .tornDown ∈ request.history
  answered : .callUnlessExiting ∉ request.stage.ahead →
    (∃ argv, .called argv ∈ request.history) ∨ .tornDown ∈ request.history

theorem fresh_answered (kind : Kind) : Answered (fresh kind) where
  closing stage := by cases stage
  signalled worker := by cases worker
  exiting set := by cases set
  answered absent := absurd (life_all .callUnlessExiting) absent

theorem exec_signalled (request : Request) (instr : Instr) (signalled : (exec request instr).worker = .signalled) :
    request.worker = .signalled := by
  rw [exec_worker] at signalled
  split at signalled
  · cases signalled
  · exact signalled

theorem exec_torn (request : Request) (instr : Instr) (torn : .tornDown ∈ request.history) :
    .tornDown ∈ (exec request instr).history := by
  rw [exec_history]
  exact List.mem_append_right _ torn

theorem exec_still_exiting (request : Request) (instr : Instr) (answered : Answered request)
    (exiting : (exec request instr).exiting = true) : .tornDown ∈ (exec request instr).history := by
  rw [exec_exiting] at exiting
  split at exiting
  · cases exiting
  · exact exec_torn request instr (answered.exiting exiting)

theorem move_answered (action : Action) (request request' : Request) (answered : Answered request)
    (move : Move action request request') : Answered request' := by
  have kept : ∀ mark : Mark, ((∃ argv, .called argv ∈ request.history) ∨ .tornDown ∈ request.history) →
      (∃ argv, .called argv ∈ mark :: request.history) ∨ .tornDown ∈ mark :: request.history := by
    intro mark before
    rcases before with ⟨argv, called⟩ | torn
    · exact .inl ⟨argv, .tail _ called⟩
    · exact .inr (.tail _ torn)
  have still : Instr.callUnlessExiting ∈ completion := by decide
  cases move with
  | refuse _ rest stage =>
      exact ⟨fun stage => (by cases stage), answered.signalled, answered.exiting,
        fun absent => absurd (life_all .callUnlessExiting) absent⟩
  | submit _ instr rest stage =>
      refine ⟨fun stage => (by cases stage), fun signalled => ?_, exec_still_exiting request instr answered, fun absent => ?_⟩
      · rw [exec_kind]
        exact answered.signalled (exec_signalled request instr signalled)
      · exact absurd (List.mem_append_right rest still) absent
  | submitted _ stage =>
      exact ⟨fun stage => (by cases stage), answered.signalled, answered.exiting, fun absent => absurd still absent⟩
  | tearDown _ added => exact ⟨answered.closing, answered.signalled, fun _ => .head _, fun _ => .inr (.head _)⟩
  | work _ outcome running =>
      exact ⟨answered.closing, fun signalled => (by cases signalled), fun set => .tail _ (answered.exiting set),
        fun absent => kept _ (answered.answered absent)⟩
  | signal _ threaded stored => exact ⟨answered.closing, fun _ => threaded, answered.exiting, answered.answered⟩
  | stop _ ended =>
      exact ⟨answered.closing, fun signalled => (by cases signalled), fun set => .tail _ (answered.exiting set),
        fun absent => kept _ (answered.answered absent)⟩
  | join _ threaded stage exited =>
      exact ⟨fun _ => threaded, answered.signalled, answered.exiting, fun absent => absurd still absent⟩
  | enter _ stage exited =>
      exact ⟨fun stage => (by cases stage), answered.signalled, fun set => .tail _ (answered.exiting set),
        fun absent => absurd still absent⟩
  | complete _ instr rest stage =>
      refine ⟨fun stage => (by cases stage), fun signalled => ?_, exec_still_exiting request instr answered, fun absent => ?_⟩
      · rw [exec_kind]
        exact answered.signalled (exec_signalled request instr signalled)
      · by_cases call : instr = .callUnlessExiting
        · subst instr
          simp only [exec_history, emitted]
          by_cases exiting : request.exiting = true
          · exact .inr (List.mem_append_right _ (answered.exiting exiting))
          · rw [if_neg exiting]
            exact .inl ⟨request.argv, .head _⟩
        · simp only [exec_history]
          have before := answered.answered
          rw [stage] at before
          rcases before fun member => (List.mem_cons.mp member).elim (fun same => call same.symm) absent with
            ⟨argv, called⟩ | torn
          · exact .inl ⟨argv, List.mem_append_right _ called⟩
          · exact .inr (List.mem_append_right _ torn)
  | leave _ stage =>
      have before := answered.answered
      rw [stage] at before
      exact ⟨fun stage => (by cases stage), answered.signalled, fun set => .tail _ (answered.exiting set),
        fun _ => kept _ (before List.not_mem_nil)⟩

def Stage.left : Stage → Nat
  | .refused | .done => 0
  | .submitting rest => rest.length + completion.length + 4
  | .pending => completion.length + 3
  | .closing => completion.length + 2
  | .completing rest => rest.length + 1

def Worker.left : Worker → Nat
  | .idle => 4
  | .running => 3
  | .stored => 2
  | .signalled => 1
  | .exited => 0

def Request.left (request : Request) : Nat := request.stage.left + request.worker.left

theorem exec_left (request : Request) (instr : Instr) (sound : Sound request) (ahead : instr ∈ request.stage.ahead) :
    (exec request instr).worker.left ≤ request.worker.left := by
  rw [exec_worker]
  split
  · rename_i start
    rw [sound.idle.mpr (start ▸ ahead)]
    decide
  · exact Nat.le_refl _

theorem move_left (action : Action) (request request' : Request) (sound : Sound request)
    (move : Move action request request') (works : action ≠ .tearDown) : request'.left < request.left := by
  cases move with
  | refuse _ rest stage =>
      simp only [Request.left, stage, Stage.left]
      omega
  | submit _ instr rest stage =>
      have worker := exec_left request instr sound (by rw [stage]; exact .head _)
      simp only [Request.left, stage, Stage.left, List.length_cons]
      omega
  | submitted _ stage =>
      simp only [Request.left, stage, Stage.left, List.length_nil]
      omega
  | tearDown _ added => exact absurd rfl works
  | work _ outcome running =>
      simp only [Request.left, Request.note, running, Worker.left]
      omega
  | signal _ threaded stored =>
      simp only [Request.left, stored, Worker.left]
      omega
  | stop _ ended =>
      simp only [Request.left, Request.note, ended]
      split <;> simp only [Worker.left] <;> omega
  | join _ threaded stage exited =>
      simp only [Request.left, stage, Stage.left]
      omega
  | enter _ stage exited =>
      simp only [Request.left, Request.note, stage]
      split <;> simp only [Stage.left] <;> omega
  | complete _ instr rest stage =>
      have worker := exec_left request instr sound (by rw [stage]; exact .head _)
      simp only [Request.left, stage, Stage.left, List.length_cons]
      omega
  | leave _ stage =>
      simp only [Request.left, Request.note, stage, Stage.left, List.length_nil]
      omega

def total : List Request → Nat
  | [] => 0
  | request :: rest => request.left + total rest

theorem total_set (requests : List Request) (r : Nat) (request request' : Request)
    (found : requests[r]? = some request) :
    total (requests.set r request') + request.left = total requests + request'.left := by
  induction requests generalizing r with
  | nil => cases found
  | cons first rest ih =>
      cases r with
      | zero =>
          cases found
          simp only [List.set_cons_zero, total]
          omega
      | succ r =>
          have later := ih r found
          simp only [List.set_cons_succ, total]
          omega

namespace Env

structure Placed (env : Env) : Prop where
  sound : env.Sound
  answered : ∀ request ∈ env.requests, Answered request
  submitting : ∀ r, env.submitting = some r ↔
    ∃ request, env.requests[r]? = some request ∧ request.stage.isSubmitting = true
  completing : ∀ r, env.completing = some r ↔
    ∃ request, env.requests[r]? = some request ∧ request.stage.isCompleting = true

theorem flag_set (requests : List Request) (r : Nat) (request request' : Request)
    (found : requests[r]? = some request) (flag : Stage → Bool) (other : Nat) :
    (∃ held, (requests.set r request')[other]? = some held ∧ flag held.stage = true) ↔
      if other = r then flag request'.stage = true
      else ∃ held, requests[other]? = some held ∧ flag held.stage = true := by
  have bound := (List.getElem?_eq_some_iff.mp found).1
  split
  · rename_i same
    subst same
    rw [List.getElem?_set_self bound]
    simp only [Option.some.injEq, exists_eq_left']
  · rename_i different
    rw [List.getElem?_set_ne (Ne.symm different)]

theorem flag_append (requests : List Request) (fresh : Request) (flag : Stage → Bool) (other : Nat) :
    (∃ held, (requests ++ [fresh])[other]? = some held ∧ flag held.stage = true) ↔
      (∃ held, requests[other]? = some held ∧ flag held.stage = true) ∨
        other = requests.length ∧ flag fresh.stage = true := by
  by_cases old : other < requests.length
  · rw [List.getElem?_append_left old]
    exact ⟨.inl, fun either => either.resolve_right fun last => by omega⟩
  · have past : requests[other]? = none := List.getElem?_eq_none (by omega)
    rw [List.getElem?_append_right (by omega), past]
    by_cases last : other = requests.length
    · subst last
      simp
    · have beyond : [fresh][other - requests.length]? = none := List.getElem?_eq_none (by
        simp only [List.length_singleton]
        omega)
      rw [beyond]
      simp [last]

theorem flag_same (requests : List Request) (r : Nat) (request request' : Request)
    (found : requests[r]? = some request) (flag : Stage → Bool) (same : flag request'.stage = flag request.stage)
    (other : Nat) :
    (∃ held, (requests.set r request')[other]? = some held ∧ flag held.stage = true) ↔
      ∃ held, requests[other]? = some held ∧ flag held.stage = true := by
  rw [flag_set requests r request request' found flag other, same]
  split
  · rename_i here
    rw [here, found]
    simp only [Option.some.injEq, exists_eq_left']
  · rfl

theorem placed_ends (current : Option Nat) (requests : List Request) (r : Nat) (request request' : Request)
    (flag : Stage → Bool) (found : requests[r]? = some request) (unset : flag request'.stage = false)
    (at_ : ∀ other, current = some other ↔ ∃ held, requests[other]? = some held ∧ flag held.stage = true)
    (here : current = some r) (other : Nat) :
    none = some other ↔ ∃ held, (requests.set r request')[other]? = some held ∧ flag held.stage = true := by
  rw [flag_set requests r request request' found flag other, unset]
  refine ⟨fun nothing => (by cases nothing), fun claimed => ?_⟩
  split at claimed
  · cases claimed
  · rename_i different
    have elsewhere := (at_ other).mpr claimed
    rw [here] at elsewhere
    exact absurd (Option.some.inj elsewhere).symm different

theorem placed_begins (requests : List Request) (r : Nat) (request request' : Request) (flag : Stage → Bool)
    (found : requests[r]? = some request) (isSet : flag request'.stage = true)
    (nobody : ∀ other : Nat, ¬ ∃ held : Request, requests[other]? = some held ∧ flag held.stage = true) (other : Nat) :
    some r = some other ↔ ∃ held, (requests.set r request')[other]? = some held ∧ flag held.stage = true := by
  rw [flag_set requests r request request' found flag other, isSet]
  split
  · rename_i same
    exact ⟨fun _ => rfl, fun _ => congrArg some same.symm⟩
  · rename_i different
    exact ⟨fun same => absurd (Option.some.inj same).symm different, fun claimed => absurd claimed (nobody other)⟩

theorem act_at (env : Env) (placed : env.Placed) (r : Nat) (action : Action) (request request' : Request)
    (found : env.requests[r]? = some request) (may : env.allows r action) (move : Move action request request') :
    (∀ other, (env.after r action request request').submitting = some other ↔
        ∃ held, (env.requests.set r request')[other]? = some held ∧ held.stage.isSubmitting = true) ∧
      ∀ other, (env.after r action request request').completing = some other ↔
        ∃ held, (env.requests.set r request')[other]? = some held ∧ held.stage.isCompleting = true := by
  have submits := placed.submitting
  have completes := placed.completing
  have keeps : ∀ (flag : Stage → Bool) (current : Option Nat), flag request'.stage = flag request.stage →
      (∀ other, current = some other ↔ ∃ held, env.requests[other]? = some held ∧ flag held.stage = true) →
      ∀ other, current = some other ↔
        ∃ held, (env.requests.set r request')[other]? = some held ∧ flag held.stage = true := by
    intro flag current same at_ other
    rw [flag_same env.requests r request request' found flag same other]
    exact at_ other
  cases move with
  | refuse _ rest stage =>
      refine ⟨?_, keeps _ _ (by rw [stage]; rfl) completes⟩
      exact placed_ends _ env.requests r request _ Stage.isSubmitting found (by rfl) submits may
  | submit _ instr rest stage => exact ⟨keeps _ _ (by rw [stage]; rfl) submits, keeps _ _ (by rw [stage]; rfl) completes⟩
  | submitted _ stage =>
      refine ⟨?_, keeps _ _ (by rw [stage]; rfl) completes⟩
      exact placed_ends _ env.requests r request _ Stage.isSubmitting found (by rfl) submits may
  | tearDown _ added => exact ⟨keeps _ _ rfl submits, keeps _ _ rfl completes⟩
  | work _ outcome running => exact ⟨keeps _ _ rfl submits, keeps _ _ rfl completes⟩
  | signal _ threaded stored => exact ⟨keeps _ _ rfl submits, keeps _ _ rfl completes⟩
  | stop _ ended => exact ⟨keeps _ _ rfl submits, keeps _ _ rfl completes⟩
  | join _ threaded stage exited => exact ⟨keeps _ _ (by rw [stage]; rfl) submits, keeps _ _ (by rw [stage]; rfl) completes⟩
  | enter _ stage exited =>
      refine ⟨keeps _ _ (by rw [stage]; split <;> rfl) submits, ?_⟩
      refine placed_begins env.requests r request _ Stage.isCompleting found (by rfl) fun other claimed => ?_
      have busy := (completes other).mpr claimed
      rw [may.2.1] at busy
      cases busy
  | complete _ instr rest stage =>
      have same : (env.after r (.complete instr) request { exec request instr with stage := .completing rest }).submitting =
            env.submitting ∧
          (env.after r (.complete instr) request { exec request instr with stage := .completing rest }).completing =
            env.completing := by
        cases instr <;> exact ⟨rfl, rfl⟩
      rw [same.1, same.2]
      exact ⟨keeps _ _ (by rw [stage]; rfl) submits, keeps _ _ (by rw [stage]; rfl) completes⟩
  | leave _ stage =>
      refine ⟨keeps _ _ (by rw [stage]; rfl) submits, ?_⟩
      exact placed_ends _ env.requests r request _ Stage.isCompleting found (by rfl) completes may.1

theorem step_placed (env env' : Env) (placed : env.Placed) (step : Step env env') : env'.Placed := by
  have sound := step_sound env env' placed.sound step
  cases step with
  | script => exact ⟨sound, placed.answered, placed.submitting, placed.completing⟩
  | scriptEnds => exact ⟨sound, placed.answered, placed.submitting, placed.completing⟩
  | startTeardown => exact ⟨sound, placed.answered, placed.submitting, placed.completing⟩
  | submission kind scripting =>
      refine ⟨sound, fun request member => ?_, fun other => ?_, fun other => ?_⟩
      · rcases List.mem_append.mp member with old | new
        · exact placed.answered request old
        · obtain rfl := List.mem_singleton.mp new
          exact fresh_answered kind
      · rw [flag_append env.requests (fresh kind) Stage.isSubmitting other, ← placed.submitting other, scripting.2]
        simp [fresh, Stage.isSubmitting, eq_comm]
      · rw [flag_append env.requests (fresh kind) Stage.isCompleting other, ← placed.completing other]
        simp [fresh, Stage.isCompleting]
  | act r action request request' found may move =>
      obtain ⟨submits, completes⟩ := act_at env placed r action request request' found may move
      rw [← after_requests env r action request request'] at submits completes
      refine ⟨sound, fun other member => ?_, submits, completes⟩
      rw [after_requests] at member
      rcases List.mem_or_eq_of_mem_set member with old | same
      · exact placed.answered other old
      · rw [same]
        exact move_answered action request request' (placed.answered request (List.mem_of_getElem? found)) move

theorem reachable_placed (env : Env) (reachable : Reachable env) : env.Placed := by
  induction reachable with
  | refl =>
      have nothing : ∀ (flag : Stage → Bool) (other : Nat),
          ¬ ∃ held : Request, start.requests[other]? = some held ∧ flag held.stage = true := by
        rintro flag other ⟨held, found, _⟩
        cases found
      refine ⟨⟨fun _ member => (by cases member), fun _ _ _ found => by cases found⟩, fun _ member => (by cases member), ?_, ?_⟩
      · exact fun other => ⟨fun found => (by cases found), fun claimed => absurd claimed (nothing _ other)⟩
      · exact fun other => ⟨fun found => (by cases found), fun claimed => absurd claimed (nothing _ other)⟩
  | tail _ step ih => exact step_placed _ _ ih step

-- Everybody who is in the middle of something carries on: the script that runs,
-- the function that submits or completes, the loop and the workers, whose
-- blocking calls return in the end. Nobody submits anything new.
inductive Works (env : Env) : Env → Prop where
  | scriptEnds (scripting : env.scripting) : Works env { env with js := false }
  | act (r : Nat) (action : Action) (request request' : Request) (found : env.requests[r]? = some request)
      (may : env.allows r action) (move : Move action request request') (works : action ≠ .tearDown) :
      Works env (env.after r action request request')

theorem works_step (env env' : Env) (works : Works env env') : Step env env' := by
  cases works with
  | scriptEnds scripting => exact .scriptEnds scripting
  | act r action request request' found may move _ => exact .act r action request request' found may move

def left (env : Env) : Nat := 2 * total env.requests + if env.js then 1 else 0

theorem works_drops (env env' : Env) (placed : env.Placed) (works : Works env env') : env'.left < env.left := by
  cases works with
  | scriptEnds scripting =>
      simp only [left, scripting.1, if_true]
      exact Nat.lt_succ_self _
  | act r action request request' found may move works =>
      have sound := placed.sound.requests request (List.mem_of_getElem? found)
      have less := move_left action request request' sound move works
      have sums := total_set env.requests r request request' found
      have script : (if (env.after r action request request').js then 1 else 0) ≤ 1 := by split <;> decide
      rw [left, left, after_requests]
      omega

def Settled (env : Env) : Prop := env.idle ∧ ∀ request ∈ env.requests, request.stage.settled = true

def CanAct (env : Env) : Prop :=
  ∃ r action request request', env.requests[r]? = some request ∧ env.allows r action ∧
    Move action request request' ∧ action ≠ .tearDown ∧ action ≠ .work

theorem submission_acts (env : Env) (placed : env.Placed) (r : Nat) (busy : env.submitting = some r) : env.CanAct := by
  obtain ⟨request, found, isSubmitting⟩ := (placed.submitting r).mp busy
  cases stage : request.stage with
  | submitting rest =>
      cases rest with
      | nil =>
          exact ⟨r, .submitted, request, _, found, busy, .submitted request stage, fun same => (by cases same),
            fun same => by cases same⟩
      | cons instr rest =>
          exact ⟨r, .submit instr, request, _, found, busy, .submit request instr rest stage, fun same => (by cases same),
            fun same => by cases same⟩
  | _ =>
      rw [stage] at isSubmitting
      cases isSubmitting

theorem completion_acts (env : Env) (placed : env.Placed) (r : Nat) (busy : env.completing = some r)
    (quiet : env.js = false) : env.CanAct := by
  obtain ⟨request, found, isCompleting⟩ := (placed.completing r).mp busy
  cases stage : request.stage with
  | completing rest =>
      cases rest with
      | nil =>
          exact ⟨r, .leave, request, _, found, ⟨busy, quiet⟩, .leave request stage, fun same => (by cases same),
            fun same => by cases same⟩
      | cons instr rest =>
          exact ⟨r, .complete instr, request, _, found, ⟨busy, quiet⟩, .complete request instr rest stage,
            fun same => (by cases same), fun same => by cases same⟩
  | _ =>
      rw [stage] at isCompleting
      cases isCompleting

theorem waiting_acts (env : Env) (placed : env.Placed) (idle : env.idle) (r : Nat) (request : Request)
    (found : env.requests[r]? = some request) (unsettled : request.stage.settled ≠ true) :
    env.CanAct ∨ request.stage = .pending ∧ request.worker = .running := by
  have member := List.mem_of_getElem? found
  have sound := placed.sound.requests request member
  have answered := placed.answered request member
  have act : ∀ action request', Move action request request' → env.allows r action → action ≠ .tearDown →
      action ≠ .work → env.CanAct := fun action request' move may works elsewhere =>
    ⟨r, action, request, request', found, may, move, works, elsewhere⟩
  cases stage : request.stage with
  | refused =>
      rw [stage] at unsettled
      exact absurd rfl unsettled
  | done =>
      rw [stage] at unsettled
      exact absurd rfl unsettled
  | submitting rest =>
      have busy := (placed.submitting r).mpr ⟨request, found, by rw [stage]; rfl⟩
      rw [idle.1] at busy
      cases busy
  | completing rest =>
      have busy := (placed.completing r).mpr ⟨request, found, by rw [stage]; rfl⟩
      rw [idle.2.1] at busy
      cases busy
  | closing =>
      have threaded := answered.closing stage
      have exited := sound.delivered (by rw [stage]; rfl)
      exact .inl (act .enter _ (.enter request (by rw [threaded, if_pos rfl]; exact stage) exited) idle
        (fun same => by cases same) fun same => by cases same)
  | pending =>
      cases worker : request.worker with
      | idle =>
          have ahead := sound.idle.mp worker
          rw [stage] at ahead
          exact absurd ahead (by decide)
      | running => exact .inr ⟨rfl, rfl⟩
      | stored =>
          by_cases threaded : request.kind.threaded = true
          · exact .inl (act .signal _ (.signal request threaded worker) trivial (fun same => by cases same)
              fun same => by cases same)
          · exact .inl (act .stop _ (.stop request (by rw [if_neg threaded]; exact worker)) trivial
              (fun same => by cases same) fun same => by cases same)
      | signalled =>
          have threaded := answered.signalled worker
          exact .inl (act .stop _ (.stop request (by rw [if_pos threaded]; exact worker)) trivial
            (fun same => by cases same) fun same => by cases same)
      | exited =>
          by_cases threaded : request.kind.threaded = true
          · exact .inl (act .join _ (.join request threaded stage worker) idle (fun same => by cases same)
              fun same => by cases same)
          · exact .inl (act .enter _ (.enter request (by rw [if_neg threaded]; exact stage) worker) idle
              (fun same => by cases same) fun same => by cases same)

theorem acts_or_waits (env : Env) (placed : env.Placed) :
    env.scripting ∨ env.CanAct ∨ env.idle ∧ ∀ (r : Nat) (request : Request), env.requests[r]? = some request →
      request.stage.settled = true ∨ request.stage = .pending ∧ request.worker = .running := by
  cases submits : env.submitting with
  | some r => exact .inr (.inl (submission_acts env placed r submits))
  | none =>
      cases js : env.js with
      | true => exact .inl ⟨js, submits⟩
      | false =>
          cases completes : env.completing with
          | some r => exact .inr (.inl (completion_acts env placed r completes js))
          | none =>
              by_cases acts : env.CanAct
              · exact .inr (.inl acts)
              · refine .inr (.inr ⟨⟨submits, completes, js⟩, fun r request found => ?_⟩)
                by_cases settled : request.stage.settled = true
                · exact .inl settled
                · exact .inr ((waiting_acts env placed ⟨submits, completes, js⟩ r request found settled).resolve_left acts)

theorem unsettled_moves (env : Env) (placed : env.Placed) (unsettled : ¬ env.Settled) : ∃ after, Works env after := by
  rcases acts_or_waits env placed with scripting | ⟨r, action, request, request', found, may, move, works, _⟩ | ⟨idle, waits⟩
  · exact ⟨_, .scriptEnds scripting⟩
  · exact ⟨_, .act r action request request' found may move works⟩
  · by_contra stuck
    refine unsettled ⟨idle, fun request member => ?_⟩
    obtain ⟨r, found⟩ := List.mem_iff_getElem?.mp member
    refine (waits r request found).resolve_right fun waiting => ?_
    exact stuck ⟨_, .act r .work request _ found trivial (.work request ⟨.ok (), [], []⟩ waiting.2)
      fun same => by cases same⟩

end Env

def Served (request : Request) : Prop :=
  request.stage = .refused ∧ request.worker = .idle ∧ request.history.countP Mark.isCalled = 0 ∨
    request.stage = .done ∧ request.worker = .exited ∧
      (request.history.countP Mark.isCalled = 1 ∨ .tornDown ∈ request.history)

theorem settled_served (request : Request) (sound : Sound request) (answered : Answered request)
    (settled : request.stage.settled = true) : Served request := by
  cases stage : request.stage with
  | refused =>
      have idle := sound.idle
      have called := sound.called
      rw [stage] at idle called
      refine .inl ⟨stage, idle.mpr (life_all .start), List.countP_eq_zero.mpr fun mark member => ?_⟩
      cases mark with
      | called argv => exact absurd (life_all .callUnlessExiting) (called argv member)
      | _ => simp [Mark.isCalled]
  | done =>
      have made := answered.answered
      rw [stage] at made
      refine .inr ⟨stage, sound.delivered (by rw [stage]; rfl), ?_⟩
      rcases made List.not_mem_nil with ⟨argv, called⟩ | torn
      · have once := (sound_life_cycle request sound).calledOnce
        exact .inl (Nat.le_antisymm once (List.countP_pos_iff.mpr ⟨.called argv, called, rfl⟩))
      · exact .inr torn
  | _ =>
      rw [stage] at settled
      cases settled

theorem requests_settle (env : Env) (reachable : Env.Reachable env) :
    (∀ run, List.IsChain Env.Works (env :: run) → run.length ≤ env.left) ∧
      (∃ last, Relation.ReflTransGen Env.Works env last ∧ last.Settled) ∧
      ∀ now, Relation.ReflTransGen Env.Works env now →
        (now.Settled ∨ ∃ after, Env.Works now after) ∧ (now.Settled → ∀ request ∈ now.requests, Served request) := by
  have placed := Env.reachable_placed env reachable
  have keeps : ∀ now after, Env.Placed now → Env.Works now after → Env.Placed after := fun now after holds works =>
    Env.step_placed now after holds (Env.works_step now after works)
  refine ⟨fun run chain => ?_, ?_, fun now run => ?_⟩
  · exact run_bounded Env.Works Env.Placed Env.left keeps Env.works_drops run env placed chain
  · obtain ⟨last, run, _, settled⟩ :=
      settles Env.Works Env.Placed Env.Settled Env.left keeps Env.works_drops Env.unsettled_moves env placed
    exact ⟨last, run, settled⟩
  · have holds : now.Placed := by
      induction run with
      | refl => exact placed
      | tail _ works ih => exact keeps _ _ ih works
    refine ⟨?_, fun settled request member => ?_⟩
    · by_cases settled : now.Settled
      · exact .inl settled
      · exact .inr (Env.unsettled_moves now holds settled)
    · exact settled_served request (holds.sound.requests request member) (holds.answered request member)
        (settled.2 request member)

theorem early_trim_settles :
    ∃ last, Relation.ReflTransGen Env.Works ⟨[earlyPending], none, none, false, false⟩ last ∧ last.Settled ∧
      ∀ request ∈ last.requests, Served request := by
  obtain ⟨_, ⟨last, run, settled⟩, each⟩ := requests_settle _ early_submitted
  exact ⟨last, run, settled, (each last run).2 settled⟩

end FsExt.Async
