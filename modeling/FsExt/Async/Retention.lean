import FsExt.Async.Progress
import FsExt.Sys.Reach
import Mathlib.Logic.Function.Basic

set_option autoImplicit false

namespace FsExt.Async

open Sys

-- The object `req` of index.js, the ArrayBuffer that is its `handle` and holds the
-- native request, and the buffer that `setAttr` writes from.
inductive Part where
  | request
  | handle
  | value
deriving DecidableEq

-- What keeps the parts of a request from being collected: the frame of the index.js
-- function until it returns, the property `handle` once it is assigned, the reference
-- `ctx`, and the handle scope of the completion function.
structure Memory where
  frame : Bool
  assigned : Bool
  reference : Bool
  scope : Bool
  swept : List Part

namespace Memory

def fresh : Memory := ⟨true, false, false, false, []⟩

def graph (memory : Memory) : Graph Part where
  rooted
    | .request => memory.frame || memory.reference || memory.scope
    | .handle | .value => memory.frame
  holds
    | .request, .handle => memory.assigned
    | .request, .value => True
    | _, _ => False

def exec (memory : Memory) : Instr → Memory
  | .createReference .ctx => { memory with reference := true }
  | .getReference .ctx => { memory with scope := true }
  | .deleteReference .ctx => { memory with reference := false }
  | .closeScope => { memory with scope := false }
  | _ => memory

def after (memory : Memory) : Action → Memory
  | .submit instr | .complete instr => memory.exec instr
  | _ => memory

def Spared (memory : Memory) : Prop := memory.graph.Spared (· ∈ memory.swept)

end Memory

-- The parts that are read or written. `fs_ext__swap_after_work` and its like have
-- what they free in locals, and so has the completion function its teardown.
def Instr.touches : Instr → List Part
  | .createReference .ctx | .getReference .ctx | .callUnlessExiting => [.request, .handle]
  | .start | .setEnv | .setExiting | .createReference .cb | .addTeardown | .loadEnv | .loadTeardown
  | .getReference .cb | .deleteReference _ | .createArguments => [.handle]
  | .openScope | .closeScope | .finishTeardown => []

def Action.touches (kind : Kind) : Action → List Part
  | .submit instr | .complete instr => instr.touches
  | .work => if kind = .setAttr then [.handle, .value] else [.handle]
  | .refuse | .submitted | .tearDown | .signal | .stop | .join | .enter => [.handle]
  | .leave => []

structure World where
  env : Env
  memory : Nat → Memory

namespace World

def start : World := ⟨Env.start, fun _ => ⟨false, false, false, false, []⟩⟩

def returned (world : World) : Prop := ∀ r, (world.memory r).frame = false

-- An index.js function calls the submitting function, assigns what it returns to
-- `req.handle` unless it has thrown, and returns. The collector may sweep at any
-- time what nothing holds.
inductive Step (world : World) : World → Prop where
  | script (idle : world.env.idle) : Step world { world with env := { world.env with js := true } }
  | scriptEnds (scripting : world.env.scripting) (returned : world.returned) :
      Step world { world with env := { world.env with js := false } }
  | submission (kind : Kind) (scripting : world.env.scripting) (returned : world.returned) :
      Step world {
        env := { world.env with
          requests := world.env.requests ++ [Async.fresh kind], submitting := some world.env.requests.length }
        memory := Function.update world.memory world.env.requests.length Memory.fresh }
  | startTeardown (free : world.env.idle ∨ world.env.scripting) :
      Step world { world with env := { world.env with tearing := true } }
  | act (r : Nat) (action : Action) (request request' : Request) (found : world.env.requests[r]? = some request)
      (may : world.env.allows r action) (move : Move action request request') :
      Step world {
        env := world.env.after r action request request'
        memory := Function.update world.memory r ((world.memory r).after action) }
  | assign (r : Nat) (request : Request) (found : world.env.requests[r]? = some request)
      (scripting : world.env.scripting) (framed : (world.memory r).frame = true) (accepted : request.stage ≠ .refused) :
      Step world { world with memory := Function.update world.memory r { world.memory r with assigned := true } }
  | returns (r : Nat) (request : Request) (found : world.env.requests[r]? = some request)
      (scripting : world.env.scripting) (through : (world.memory r).assigned = true ∨ request.stage = .refused) :
      Step world { world with memory := Function.update world.memory r { world.memory r with frame := false } }
  | sweep (r : Nat) (part : Part) (unreached : ¬ (world.memory r).graph.Reached part) :
      Step world { world with
        memory := Function.update world.memory r { world.memory r with swept := part :: (world.memory r).swept } }

def Reachable : World → Prop := Relation.ReflTransGen Step start

end World

structure Held (request : Request) (memory : Memory) : Prop where
  framed : memory.frame = false → memory.assigned = true ∨ request.stage = .refused
  submitting : request.stage.isSubmitting = true → memory.frame = true
  reference : memory.reference = true ↔ Between (.createReference .ctx) (.deleteReference .ctx) request.stage.ahead
  scope : memory.scope = true ↔ Between (.getReference .ctx) .closeScope request.stage.ahead
  adding : request.teardown = .added → .finishTeardown ∈ request.stage.ahead

theorem fresh_held (kind : Kind) : Held (fresh kind) Memory.fresh where
  framed unframed := by cases unframed
  submitting _ := rfl
  reference := ⟨fun set => (by cases set), fun between => absurd (life_all _) between.1⟩
  scope := ⟨fun set => (by cases set), fun between => absurd (life_all _) between.1⟩
  adding added := by cases added

theorem frame_reached (memory : Memory) (framed : memory.frame = true) (part : Part) : memory.graph.Reached part := by
  apply memory.graph.reached_root
  cases part with
  | request => simp only [Memory.graph, framed, Bool.true_or]
  | handle => exact framed
  | value => exact framed

theorem held_reached (request : Request) (memory : Memory) (held : Held request memory)
    (alive : memory.frame = true ∨ (memory.reference = true ∨ memory.scope = true) ∧ request.stage ≠ .refused)
    (part : Part) : memory.graph.Reached part := by
  by_cases framed : memory.frame = true
  · exact frame_reached memory framed part
  · obtain ⟨kept, accepted⟩ := alive.resolve_left framed
    have assigned := (held.framed (Bool.eq_false_iff.mpr framed)).resolve_right accepted
    have root : memory.graph.Reached .request := by
      apply memory.graph.reached_root
      rcases kept with reference | scope
      · simp only [Memory.graph, reference, Bool.or_true, Bool.true_or]
      · simp only [Memory.graph, scope, Bool.or_true]
    cases part with
    | request => exact root
    | handle => exact memory.graph.reached_held _ .handle root assigned
    | value => exact memory.graph.reached_held _ .value root trivial

theorem memory_within (memory memory' : Memory) (framed : memory'.frame = true → memory.frame = true)
    (rooted : memory'.reference = true ∨ memory'.scope = true → memory.graph.Reached .request)
    (assigned : memory'.assigned = true → memory.assigned = true ∨ memory.frame = true) :
    memory'.graph.Within memory.graph := by
  constructor
  · intro part isRooted
    cases part with
    | request =>
        simp only [Memory.graph, Bool.or_eq_true, or_assoc] at isRooted
        exact isRooted.elim (fun frame => frame_reached memory (framed frame) .request) rooted
    | handle => exact frame_reached memory (framed isRooted) .handle
    | value => exact frame_reached memory (framed isRooted) .value
  · intro part held reached holds
    cases part <;> cases held <;> simp only [Memory.graph] at holds
    · rcases assigned holds with before | framed
      · exact memory.graph.reached_held _ .handle reached before
      · exact frame_reached memory framed .handle
    · exact memory.graph.reached_held _ .value reached trivial

theorem exec_flags (memory : Memory) (instr : Instr) :
    (memory.exec instr).frame = memory.frame ∧ (memory.exec instr).assigned = memory.assigned ∧
      (memory.exec instr).swept = memory.swept ∧
      ((memory.exec instr).reference = true ↔
        instr = .createReference .ctx ∨ instr ≠ .deleteReference .ctx ∧ memory.reference = true) ∧
      ((memory.exec instr).scope = true ↔ instr = .getReference .ctx ∨ instr ≠ .closeScope ∧ memory.scope = true) := by
  cases instr with
  | createReference ref => cases ref <;> simp [Memory.exec]
  | getReference ref => cases ref <;> simp [Memory.exec]
  | deleteReference ref => cases ref <;> simp [Memory.exec]
  | _ => simp [Memory.exec]

theorem after_frame (memory : Memory) (action : Action) : (memory.after action).frame = memory.frame := by
  cases action with
  | submit instr => exact (exec_flags memory instr).1
  | complete instr => exact (exec_flags memory instr).1
  | _ => rfl

theorem exec_spared (memory : Memory) (instr : Instr) (spared : memory.Spared)
    (reached : instr.touches ≠ [] → memory.graph.Reached .request) : (memory.exec instr).Spared := by
  obtain ⟨frame, assigned, swept, reference, scope⟩ := exec_flags memory instr
  rw [Memory.Spared, swept]
  refine memory.graph.spared_within _ _ spared (memory_within memory _ (frame ▸ id) (fun rooted => ?_) ?_)
  · rw [reference, scope] at rooted
    rcases rooted with (rfl | ⟨_, before⟩) | rfl | ⟨_, before⟩
    · exact reached (by decide)
    · exact memory.graph.reached_root .request (by simp only [Memory.graph, before, Bool.or_true, Bool.true_or])
    · exact reached (by decide)
    · exact memory.graph.reached_root .request (by simp only [Memory.graph, before, Bool.or_true])
  · rw [assigned]
    exact .inl

theorem exec_held (request : Request) (memory : Memory) (instr : Instr) (rest : List Instr) (stage : Stage)
    (held : Held request memory) (sound : Sound request) (ahead : request.stage.ahead = instr :: rest)
    (ahead' : stage.ahead = rest) (accepted : request.stage ≠ .refused)
    (submitting : stage.isSubmitting = true → request.stage.isSubmitting = true) :
    Held { exec request instr with stage := stage } (memory.exec instr) := by
  obtain ⟨frame, assigned, _, reference, scope⟩ := exec_flags memory instr
  have suffix : instr :: rest <:+ life := ahead ▸ ahead_suffix request.stage sound.placed
  have nodup : (instr :: rest).Nodup := life_nodup.sublist suffix.sublist
  have later : ∀ opening closing : Instr,
      (∀ tail ∈ life.tails, tail.head? = some opening → closing ∈ tail.tail) → instr = opening → closing ∈ rest :=
    fun opening closing order same => order _ ((List.mem_tails _ _).mpr suffix) (congrArg some same)
  refine ⟨fun unframed => ?_, fun within => ?_, ?_, ?_, fun added => ?_⟩
  · rw [frame] at unframed
    rw [assigned]
    exact .inl ((held.framed unframed).resolve_right accepted)
  · rw [frame]
    exact held.submitting (submitting within)
  · rw [reference, held.reference, ahead]
    simp only [ahead']
    exact (between_cons _ _ instr rest nodup (later _ _ (by decide))).symm
  · rw [scope, held.scope, ahead]
    simp only [ahead']
    exact (between_cons _ _ instr rest nodup (later _ _ (by decide))).symm
  · simp only [ahead']
    rcases exec_teardown request instr added with adds | before
    · exact later .addTeardown .finishTeardown (by decide) adds
    · have still := held.adding before
      rw [ahead] at still
      refine (List.mem_cons.mp still).resolve_left fun finishes => ?_
      subst instr
      cases added

theorem restage_held (request request' : Request) (memory : Memory) (held : Held request memory)
    (ahead : request'.stage.ahead = request.stage.ahead)
    (refused : request.stage = .refused → request'.stage = .refused)
    (submitting : request'.stage.isSubmitting = true → request.stage.isSubmitting = true)
    (teardown : request'.teardown = request.teardown) : Held request' memory where
  framed unframed := (held.framed unframed).imp_right refused
  submitting within := held.submitting (submitting within)
  reference := ahead ▸ held.reference
  scope := ahead ▸ held.scope
  adding added := ahead ▸ held.adding (teardown ▸ added)

theorem settled_unreached (request : Request) (memory : Memory) (held : Held request memory)
    (settled : request.stage.settled = true) (returned : memory.frame = false) (part : Part) :
    ¬ memory.graph.Reached part := by
  have ahead : request.stage.ahead = life ∨ request.stage.ahead = [] := by
    cases stage : request.stage <;> rw [stage] at settled <;> first | cases settled; done | exact .inl rfl | exact .inr rfl
  have unheld : ∀ opening closing, ¬ Between opening closing request.stage.ahead := by
    rintro opening closing ⟨behind, still⟩
    rcases ahead with whole | nothing
    · exact behind (whole ▸ life_all opening)
    · rw [nothing] at still
      cases still
  have reference := Bool.eq_false_iff.mpr fun set => unheld _ _ (held.reference.mp set)
  have scope := Bool.eq_false_iff.mpr fun set => unheld _ _ (held.scope.mp set)
  refine memory.graph.reached_closed (fun _ => False) (fun object rooted => ?_) (fun _ _ nowhere _ => nowhere) part
  cases object <;> simp [Memory.graph, returned, reference, scope] at rooted

theorem move_held (action : Action) (request request' : Request) (memory : Memory) (held : Held request memory)
    (sound : Sound request) (move : Move action request request') : Held request' (memory.after action) := by
  cases move with
  | refuse _ rest stage =>
      have placed := sound.placed
      rw [stage] at placed
      have whole : ∀ tail ∈ submission.tails, tail.head? = some .start → tail = submission := by decide
      have all := whole _ ((List.mem_tails _ _).mpr placed) rfl
      refine restage_held request _ memory held ?_ (fun _ => rfl) (fun within => by cases within) rfl
      rw [stage, all]
      rfl
  | submit _ instr rest stage =>
      exact exec_held request memory instr _ (.submitting rest) held sound (by rw [stage]; rfl) rfl
        (by rw [stage]; exact fun same => by cases same) fun _ => by rw [stage]; rfl
  | submitted _ stage =>
      exact restage_held request _ memory held (by rw [stage]; rfl) (fun refused => by rw [stage] at refused; cases refused)
        (fun within => by cases within) rfl
  | tearDown _ added => exact restage_held request _ memory held rfl id id rfl
  | work _ outcome running => exact restage_held request _ memory held rfl id id rfl
  | signal _ threaded stored => exact restage_held request _ memory held rfl id id rfl
  | stop _ ended => exact restage_held request _ memory held rfl id id rfl
  | join _ threaded stage exited =>
      exact restage_held request _ memory held (by rw [stage]; rfl) (fun refused => by rw [stage] at refused; cases refused)
        (fun within => by cases within) rfl
  | enter _ stage exited =>
      refine restage_held request _ memory held ?_ (fun refused => ?_) (fun within => by cases within) rfl
      · rw [stage]
        split <;> rfl
      · rw [stage] at refused
        split at refused <;> cases refused
  | complete _ instr rest stage =>
      exact exec_held request memory instr rest (.completing rest) held sound (by rw [stage]; rfl) rfl
        (by rw [stage]; exact fun same => by cases same) fun within => by cases within
  | leave _ stage =>
      exact restage_held request _ memory held (by rw [stage]; rfl) (fun refused => by rw [stage] at refused; cases refused)
        (fun within => by cases within) rfl

namespace World

structure Retained (world : World) : Prop where
  placed : world.env.Placed
  held : ∀ r request, world.env.requests[r]? = some request → Held request (world.memory r)
  returned : world.env.js = false → world.returned
  calling : ∀ r request, world.env.completing = some r → world.env.js = true → world.env.requests[r]? = some request →
    request.stage = .completing [.closeScope, .finishTeardown]
  spared : ∀ r, (world.memory r).Spared

theorem waiting_alive (request : Request) (memory : Memory) (held : Held request memory) (sound : Sound request)
    (begun : request.worker ≠ .idle) (outside : request.stage.inside = false) :
    memory.frame = true ∨ (memory.reference = true ∨ memory.scope = true) ∧ request.stage ≠ .refused := by
  have reference := held.reference
  cases stage : request.stage with
  | refused =>
      refine absurd (sound.idle.mpr ?_) begun
      rw [stage]
      exact life_all .start
  | submitting rest => exact .inl (held.submitting (by rw [stage]; rfl))
  | pending =>
      rw [stage] at reference
      exact .inr ⟨.inl (reference.mpr (by decide)), fun same => by cases same⟩
  | closing =>
      rw [stage] at reference
      exact .inr ⟨.inl (reference.mpr (by decide)), fun same => by cases same⟩
  | completing rest =>
      rw [stage] at outside
      cases outside
  | done =>
      rw [stage] at outside
      cases outside

theorem completing_alive (request : Request) (memory : Memory) (held : Held request memory) (sound : Sound request)
    (instr : Instr) (rest : List Instr) (stage : request.stage = .completing (instr :: rest))
    (touches : instr.touches ≠ [] ∨ instr = .closeScope) :
    memory.frame = true ∨ (memory.reference = true ∨ memory.scope = true) ∧ request.stage ≠ .refused := by
  have placed := sound.placed
  have reference := held.reference
  have scope := held.scope
  rw [stage] at placed reference scope ⊢
  have kept : ∀ tail ∈ completion.tails, ∀ instr ∈ tail.head?, instr.touches ≠ [] ∨ instr = .closeScope →
      Between (.createReference .ctx) (.deleteReference .ctx) tail ∨ Between (.getReference .ctx) .closeScope tail := by
    decide
  refine .inr ⟨?_, fun same => by cases same⟩
  exact (kept _ ((List.mem_tails _ _).mpr placed) instr rfl touches).imp reference.mpr scope.mpr

theorem unexited_outside (request : Request) (sound : Sound request) (unexited : request.worker ≠ .exited) :
    request.stage.inside = false :=
  Bool.eq_false_iff.mpr fun inside => unexited (inside_exited request sound inside)

theorem touched_alive (world : World) (retained : world.Retained) (r : Nat) (action : Action) (request request' : Request)
    (found : world.env.requests[r]? = some request) (may : world.env.allows r action)
    (move : Move action request request') (touches : action.touches request.kind ≠ []) :
    (world.memory r).frame = true ∨
      ((world.memory r).reference = true ∨ (world.memory r).scope = true) ∧ request.stage ≠ .refused := by
  have held := retained.held r request found
  have sound := retained.placed.sound.requests request (List.mem_of_getElem? found)
  have waiting := waiting_alive request (world.memory r) held sound
  cases move with
  | refuse _ rest stage => exact .inl (held.submitting (by rw [stage]; rfl))
  | submit _ instr rest stage => exact .inl (held.submitting (by rw [stage]; rfl))
  | submitted _ stage => exact .inl (held.submitting (by rw [stage]; rfl))
  | tearDown _ added =>
      -- The callback may run while the script does that the completion function has
      -- called, but not once that function is through.
      have behind := sound.teardown added
      have ahead := held.adding added
      have begun : request.worker ≠ .idle := fun idle => by
        have start := sound.idle.mp idle
        have order : ∀ tail ∈ life.tails, .start ∈ tail → .addTeardown ∈ tail := by decide
        exact behind (order _ ((List.mem_tails _ _).mpr (ahead_suffix request.stage sound.placed)) start)
      cases stage : request.stage with
      | completing rest =>
          have completing := (retained.placed.completing r).mpr ⟨request, found, by rw [stage]; rfl⟩
          rcases may.2 with idle | scripting
          · rw [idle.2.1] at completing
            cases completing
          · have calling := retained.calling r request completing scripting.1 found
            rw [← stage]
            exact completing_alive request _ held sound .closeScope _ calling (.inr rfl)
      | done =>
          rw [stage] at ahead
          cases ahead
      | _ => exact stage ▸ waiting begun (by rw [stage]; rfl)
  | work _ outcome running => exact waiting (by rw [running]; decide) (unexited_outside request sound (by rw [running]; decide))
  | signal _ threaded stored => exact waiting (by rw [stored]; decide) (unexited_outside request sound (by rw [stored]; decide))
  | stop _ ended =>
      refine waiting ?_ (unexited_outside request sound ?_) <;> rw [ended] <;> split <;> decide
  | join _ threaded stage exited => exact waiting (by rw [exited]; decide) (by rw [stage]; rfl)
  | enter _ stage exited => exact waiting (by rw [exited]; decide) (by rw [stage]; split <;> rfl)
  | complete _ instr rest stage => exact completing_alive request _ held sound instr rest stage (.inl touches)
  | leave _ stage => exact absurd rfl touches

theorem touched_reached (world : World) (retained : world.Retained) (r : Nat) (action : Action)
    (request request' : Request) (found : world.env.requests[r]? = some request) (may : world.env.allows r action)
    (move : Move action request request') (touches : action.touches request.kind ≠ []) (part : Part) :
    (world.memory r).graph.Reached part :=
  held_reached request _ (retained.held r request found)
    (touched_alive world retained r action request request' found may move touches) part

theorem act_spared (world : World) (retained : world.Retained) (r : Nat) (action : Action) (request request' : Request)
    (found : world.env.requests[r]? = some request) (may : world.env.allows r action)
    (move : Move action request request') : ((world.memory r).after action).Spared := by
  have reached := touched_reached world retained r action request request' found may move
  have spared := retained.spared r
  cases action with
  | submit instr => exact exec_spared _ instr spared fun touches => reached touches .request
  | complete instr => exact exec_spared _ instr spared fun touches => reached touches .request
  | _ => exact spared

theorem after_flags (env : Env) (r : Nat) (action : Action) (request request' : Request) :
    ((env.after r action request request').js = env.js ∨ action = .complete .callUnlessExiting) ∧
      ((env.after r action request request').completing = env.completing ∨
        action = .enter ∧ (env.after r action request request').js = env.js ∨
        (env.after r action request request').completing = none) := by
  cases action with
  | complete instr => cases instr <;> simp [Env.after]
  | _ => simp [Env.after]

theorem move_stays (action : Action) (request request' : Request) (rest : List Instr) (move : Move action request request')
    (stage : request.stage = .completing rest) :
    request'.stage = .completing rest ∨ action = .leave ∨ ∃ instr, action = .complete instr := by
  cases move with
  | refuse _ _ other => rw [stage] at other; cases other
  | submit _ _ _ other => rw [stage] at other; cases other
  | submitted _ other => rw [stage] at other; cases other
  | join _ _ other => rw [stage] at other; cases other
  | enter _ other => rw [stage] at other; split at other <;> cases other
  | complete _ instr => exact .inr (.inr ⟨instr, rfl⟩)
  | leave => exact .inr (.inl rfl)
  | _ => exact .inl stage

theorem act_calling (world : World) (retained : world.Retained) (r : Nat) (action : Action) (request request' : Request)
    (found : world.env.requests[r]? = some request) (may : world.env.allows r action)
    (move : Move action request request') (other : Nat) (held : Request)
    (completing : (world.env.after r action request request').completing = some other)
    (js : (world.env.after r action request request').js = true)
    (found' : (world.env.after r action request request').requests[other]? = some held) :
    held.stage = .completing [.closeScope, .finishTeardown] := by
  have sound := retained.placed.sound.requests request (List.mem_of_getElem? found)
  have bound := (List.getElem?_eq_some_iff.mp found).1
  rw [Env.after_requests] at found'
  obtain ⟨script, current⟩ := after_flags world.env r action request request'
  by_cases call : action = .complete .callUnlessExiting
  · subst call
    have same : other = r := Option.some.inj (completing.symm.trans may.1)
    subst same
    rw [List.getElem?_set_self bound] at found'
    obtain rfl := Option.some.inj found'
    cases move with
    | complete _ _ rest stage =>
        have placed := sound.placed
        rw [stage] at placed
        have order : ∀ tail ∈ completion.tails, tail.head? = some .callUnlessExiting →
            tail.tail = [.closeScope, .finishTeardown] := by decide
        exact congrArg Stage.completing (order _ ((List.mem_tails _ _).mpr placed) rfl)
  · have running : world.env.js = true := (script.resolve_right call) ▸ js
    have before : world.env.completing = some other := by
      rcases current with same | ⟨rfl, _⟩ | nobody
      · exact same ▸ completing
      · have quiet := may.2.2
        rw [running] at quiet
        cases quiet
      · rw [nobody] at completing
        cases completing
    by_cases same : r = other
    · subst same
      rw [List.getElem?_set_self bound] at found'
      obtain rfl := Option.some.inj found'
      have stage := retained.calling r request before running found
      rcases move_stays action request _ _ move stage with stays | rfl | ⟨instr, rfl⟩
      · exact stays
      · have quiet := may.2
        rw [running] at quiet
        cases quiet
      · have quiet := may.2
        rw [running] at quiet
        cases quiet
    · rw [List.getElem?_set_ne same] at found'
      exact retained.calling other held before running found'

theorem memory_retained (world : World) (retained : world.Retained) (r : Nat) (memory : Memory)
    (held : ∀ request, world.env.requests[r]? = some request → Held request memory)
    (framed : memory.frame = true → (world.memory r).frame = true) (spared : memory.Spared) :
    Retained { world with memory := Function.update world.memory r memory } where
  placed := retained.placed
  held other request found := by
    by_cases same : other = r
    · subst same
      simp only [Function.update_self]
      exact held request found
    · simp only [Function.update_of_ne same]
      exact retained.held other request found
  returned quiet other := by
    have before := retained.returned quiet
    by_cases same : other = r
    · subst same
      simp only [Function.update_self]
      refine Bool.eq_false_iff.mpr fun still => ?_
      rw [before other] at framed
      cases framed still
    · simp only [Function.update_of_ne same]
      exact before other
  calling := retained.calling
  spared other := by
    by_cases same : other = r
    · subst same
      simp only [Function.update_self]
      exact spared
    · simp only [Function.update_of_ne same]
      exact retained.spared other

theorem act_retained (world : World) (retained : world.Retained) (r : Nat) (action : Action) (request request' : Request)
    (found : world.env.requests[r]? = some request) (may : world.env.allows r action)
    (move : Move action request request') :
    Retained {
      env := world.env.after r action request request'
      memory := Function.update world.memory r ((world.memory r).after action) } where
  placed := Env.step_placed world.env _ retained.placed (.act r action request request' found may move)
  held other held found' := by
    have bound := (List.getElem?_eq_some_iff.mp found).1
    simp only [Env.after_requests] at found'
    by_cases same : r = other
    · subst same
      rw [List.getElem?_set_self bound] at found'
      obtain rfl := Option.some.inj found'
      simp only [Function.update_self]
      exact move_held action request _ _ (retained.held r request found)
        (retained.placed.sound.requests request (List.mem_of_getElem? found)) move
    · rw [List.getElem?_set_ne same] at found'
      simp only [Function.update_of_ne (Ne.symm same)]
      exact retained.held other held found'
  returned quiet other := by
    have before : world.env.js = false := by
      rcases (after_flags world.env r action request request').1 with same | rfl
      · exact same ▸ quiet
      · exact may.2
    by_cases same : other = r
    · subst same
      simp only [Function.update_self]
      rw [after_frame]
      exact retained.returned before other
    · simp only [Function.update_of_ne same]
      exact retained.returned before other
  calling := act_calling world retained r action request request' found may move
  spared other := by
    by_cases same : other = r
    · subst same
      simp only [Function.update_self]
      exact act_spared world retained other action request request' found may move
    · simp only [Function.update_of_ne same]
      exact retained.spared other

theorem submission_retained (world : World) (retained : world.Retained) (kind : Kind) (scripting : world.env.scripting) :
    Retained {
      env := { world.env with
        requests := world.env.requests ++ [Async.fresh kind], submitting := some world.env.requests.length }
      memory := Function.update world.memory world.env.requests.length Memory.fresh } where
  placed := Env.step_placed world.env _ retained.placed (.submission kind scripting)
  held other held found := by
    by_cases old : other < world.env.requests.length
    · rw [List.getElem?_append_left old] at found
      simp only [Function.update_of_ne (Nat.ne_of_lt old)]
      exact retained.held other held found
    · have bound := (List.getElem?_eq_some_iff.mp found).1
      rw [List.length_append, List.length_singleton] at bound
      obtain rfl : other = world.env.requests.length := by omega
      rw [List.getElem?_concat_length] at found
      obtain rfl := Option.some.inj found
      simp only [Function.update_self]
      exact fresh_held kind
  returned quiet := by
    rw [scripting.1] at quiet
    cases quiet
  calling other held completing js found := by
    obtain ⟨request, before, _⟩ := (retained.placed.completing other).mp completing
    rw [List.getElem?_append_left (List.getElem?_eq_some_iff.mp before).1] at found
    exact retained.calling other held completing js found
  spared other := by
    by_cases same : other = world.env.requests.length
    · subst same
      simp only [Function.update_self]
      exact fun _ _ swept => by cases swept
    · simp only [Function.update_of_ne same]
      exact retained.spared other

theorem step_retained (world world' : World) (retained : world.Retained) (step : Step world world') : world'.Retained := by
  cases step with
  | script idle =>
      exact ⟨Env.step_placed world.env _ retained.placed (.script idle), retained.held, fun quiet => (by cases quiet),
        fun r _ completing => (by rw [idle.2.1] at completing; cases completing), retained.spared⟩
  | scriptEnds scripting returned =>
      exact ⟨Env.step_placed world.env _ retained.placed (.scriptEnds scripting), retained.held, fun _ => returned,
        fun _ _ _ js => (by cases js), retained.spared⟩
  | submission kind scripting returned => exact submission_retained world retained kind scripting
  | startTeardown free =>
      exact ⟨Env.step_placed world.env _ retained.placed (.startTeardown free), retained.held, retained.returned,
        retained.calling, retained.spared⟩
  | act r action request request' found may move => exact act_retained world retained r action request request' found may move
  | assign r request found scripting framed accepted =>
      refine memory_retained world retained r _ (fun other found' => ?_) id ?_
      · have held := retained.held r other found'
        exact ⟨fun _ => .inl rfl, held.submitting, held.reference, held.scope, held.adding⟩
      · refine Graph.spared_within _ _ _ (retained.spared r) (memory_within _ _ id (fun rooted => ?_) fun _ => .inr framed)
        exact frame_reached _ framed .request
  | returns r request found scripting through =>
      refine memory_retained world retained r _ (fun other found' => ?_) (fun still => by cases still) ?_
      · have held := retained.held r other found'
        obtain rfl := Option.some.inj (found.symm.trans found')
        refine ⟨fun _ => through, fun within => ?_, held.reference, held.scope, held.adding⟩
        have submitting := (retained.placed.submitting r).mpr ⟨request, found, within⟩
        rw [scripting.2] at submitting
        cases submitting
      · refine Graph.spared_within _ _ _ (retained.spared r)
          (memory_within _ _ (fun still => by cases still) (fun rooted => ?_) .inl)
        apply Graph.reached_root
        simp only [Memory.graph, Bool.or_eq_true, or_assoc]
        exact .inr rooted
  | sweep r part unreached =>
      refine memory_retained world retained r _ (fun other found => ?_) id ?_
      · have held := retained.held r other found
        exact ⟨held.framed, held.submitting, held.reference, held.scope, held.adding⟩
      · have swept := Graph.spared_sweep _ _ part (retained.spared r) unreached
        exact fun other reached member => swept other reached (List.mem_cons.mp member)

theorem reachable_retained (world : World) (reachable : Reachable world) : world.Retained := by
  induction reachable with
  | refl =>
      exact ⟨Env.reachable_placed Env.start .refl, fun _ _ found => (by cases found), fun _ _ => rfl,
        fun _ _ completing => (by cases completing), fun _ _ _ swept => by cases swept⟩
  | tail _ step ih => exact step_retained _ _ ih step

end World

theorem requests_retained (world : World) (reachable : World.Reachable world) (r : Nat) (request : Request)
    (found : world.env.requests[r]? = some request) :
    (∀ action request', world.env.allows r action → Move action request request' →
      ∀ part ∈ action.touches request.kind, (world.memory r).graph.Reached part ∧ part ∉ (world.memory r).swept) ∧
      (world.env.js = false → request.stage.settled = true → ∀ part, ¬ (world.memory r).graph.Reached part) := by
  have retained := World.reachable_retained world reachable
  refine ⟨fun action request' may move part touched => ?_, fun quiet settled part => ?_⟩
  · have reached := World.touched_reached world retained r action request request' found may move
      (List.ne_nil_of_mem touched) part
    exact ⟨reached, retained.spared r part reached⟩
  · have held := retained.held r request found
    refine settled_unreached request _ held settled (retained.returned quiet r) part

def pendingSet : Request where
  kind := .setAttr
  worker := .running
  outcome := ⟨.ok (), [], []⟩
  env := true
  exiting := false
  teardown := .added
  stage := .pending
  argv := []
  history := [.added, .created .cb, .created .ctx, .started]

theorem set_pending : ∃ memory, World.Reachable ⟨⟨[pendingSet], none, none, false, false⟩, memory⟩ :=
  ⟨_, .head (.script ⟨rfl, rfl, rfl⟩) <|
  .head (.submission .setAttr ⟨rfl, rfl⟩ fun _ => rfl) <|
  .head (.act 0 (.submit .start) _ _ rfl rfl (.submit _ .start _ rfl)) <|
  .head (.act 0 (.submit .setEnv) _ _ rfl rfl (.submit _ .setEnv _ rfl)) <|
  .head (.act 0 (.submit .setExiting) _ _ rfl rfl (.submit _ .setExiting _ rfl)) <|
  .head (.act 0 (.submit (.createReference .ctx)) _ _ rfl rfl (.submit _ (.createReference .ctx) _ rfl)) <|
  .head (.act 0 (.submit (.createReference .cb)) _ _ rfl rfl (.submit _ (.createReference .cb) _ rfl)) <|
  .head (.act 0 (.submit .addTeardown) _ _ rfl rfl (.submit _ .addTeardown _ rfl)) <|
  .head (.act 0 .submitted _ _ rfl rfl (.submitted _ rfl)) <|
  .head (.assign 0 _ rfl ⟨rfl, rfl⟩ rfl fun same => by cases same) <|
  .head (.returns 0 _ rfl ⟨rfl, rfl⟩ (.inl rfl)) <|
  .single (.scriptEnds ⟨rfl, rfl⟩ fun r => by cases r <;> rfl)⟩

theorem pending_set_retained :
    ∃ memory, World.Reachable ⟨⟨[pendingSet], none, none, false, false⟩, memory⟩ ∧
      (memory 0).graph.Reached .value ∧ .value ∉ (memory 0).swept := by
  obtain ⟨memory, reachable⟩ := set_pending
  obtain ⟨touched, _⟩ := requests_retained _ reachable 0 pendingSet rfl
  exact ⟨memory, reachable, touched .work _ trivial (.work _ ⟨.ok (), [], []⟩ rfl) .value (by decide)⟩

end FsExt.Async
