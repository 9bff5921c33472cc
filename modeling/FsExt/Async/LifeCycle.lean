import FsExt.Async.Requests
import Mathlib.Data.List.Infix

set_option autoImplicit false

namespace FsExt.Async

open Sys

def life : List Instr := submission ++ completion

def Stage.ahead : Stage → List Instr
  | .refused => life
  | .submitting rest => rest ++ completion
  | .pending | .closing => completion
  | .completing rest => rest
  | .done => []

def Stage.inside : Stage → Bool
  | .completing _ | .done => true
  | _ => false

def Stage.ended : Stage → Bool
  | .done => true
  | _ => false

def Stage.delivered : Stage → Bool
  | .closing | .completing _ | .done => true
  | _ => false

def Stage.Placed : Stage → Prop
  | .submitting rest => rest <:+ submission
  | .completing rest => rest <:+ completion
  | _ => True

def Instr.mark : Instr → Option Mark
  | .start => some .started
  | .createReference ref => some (.created ref)
  | .addTeardown => some .added
  | .deleteReference ref => some (.deleted ref)
  | .finishTeardown => some .finished
  | _ => none

def Worker.isDone : Worker → Bool
  | .stored | .signalled | .exited => true
  | _ => false

def Permitted (kind : Kind) (before : List Mark) : Mark → Prop
  | .started => True
  | .created _ => True
  | .added => True
  | .stored _ => ∀ outcome, .stored outcome ∉ before
  | .stopped => True
  | .tornDown => .added ∈ before
  | .entered => .added ∈ before ∧ .stopped ∈ before ∧ .entered ∉ before
  | .deleted ref => .deleted ref ∉ before ∧ .created ref ∈ before ∧ .entered ∈ before ∧ .left ∉ before
  | .called argv => (∀ other, .called other ∉ before) ∧ .tornDown ∉ before ∧ .entered ∈ before ∧ .left ∉ before ∧
      ∃ outcome, .stored outcome ∈ before ∧ argv = arguments kind outcome
  | .finished => .finished ∉ before ∧ .added ∈ before ∧ .stopped ∈ before
  | .left => (∀ ref, .deleted ref ∈ before) ∧ .finished ∈ before

structure Sound (request : Request) : Prop where
  lawful : Lawful (Permitted request.kind) request.history
  placed : request.stage.Placed
  executed : ∀ instr mark, instr.mark = some mark → (mark ∈ request.history ↔ instr ∉ request.stage.ahead)
  called : ∀ argv, .called argv ∈ request.history → .callUnlessExiting ∉ request.stage.ahead
  argv : .createArguments ∉ request.stage.ahead → request.argv = arguments request.kind request.outcome
  idle : request.worker = .idle ↔ .start ∈ request.stage.ahead
  stored : ∀ outcome, .stored outcome ∈ request.history ↔ request.worker.isDone = true ∧ request.outcome = outcome
  stopped : .stopped ∈ request.history ↔ request.worker = .exited
  delivered : request.stage.delivered = true → request.worker = .exited
  entered : .entered ∈ request.history ↔ request.stage.inside = true
  left : .left ∈ request.history ↔ request.stage.ended = true
  tornDown : .tornDown ∈ request.history → request.exiting = true ∧ .addTeardown ∉ request.stage.ahead
  teardown : request.teardown = .added → .addTeardown ∉ request.stage.ahead

theorem life_all (instr : Instr) : instr ∈ life := by
  cases instr with
  | createReference ref => cases ref <;> decide
  | getReference ref => cases ref <;> decide
  | deleteReference ref => cases ref <;> decide
  | _ => decide

theorem life_nodup : life.Nodup := by decide

theorem fresh_sound (kind : Kind) : Sound (fresh kind) where
  lawful := trivial
  placed := List.suffix_refl _
  executed instr mark _ := ⟨fun inside => (by cases inside), fun absent => absurd (life_all instr) absent⟩
  called _ inside := by cases inside
  argv absent := absurd (life_all .createArguments) absent
  idle := ⟨fun _ => life_all .start, fun _ => rfl⟩
  stored outcome := by simp [fresh, Worker.isDone]
  stopped := by simp [fresh]
  delivered isDelivered := by cases isDelivered
  entered := by simp [fresh, Stage.inside]
  left := by simp [fresh, Stage.ended]
  tornDown inside := by cases inside
  teardown added := by cases added

theorem ahead_suffix (stage : Stage) (placed : stage.Placed) : stage.ahead <:+ life := by
  cases stage with
  | refused => exact List.suffix_refl _
  | submitting rest => exact List.suffix_append_self_iff.mpr placed
  | pending => exact List.suffix_append submission completion
  | closing => exact List.suffix_append submission completion
  | completing rest => exact placed.trans (List.suffix_append submission completion)
  | done => exact List.nil_suffix

theorem earlier_behind (earlier instr : Instr) (rest : List Instr) (placed : instr :: rest <:+ life)
    (order : ∀ tail ∈ life.tails, tail.head? = some instr → earlier ∉ tail) : earlier ∉ instr :: rest :=
  order _ (List.mem_tails _ _ |>.mpr placed) rfl

theorem mark_injective (left right : Instr) (mark : Mark) (marks : left.mark = some mark)
    (marks' : right.mark = some mark) : left = right := by
  cases left <;> cases right <;> cases marks <;> cases marks' <;> rfl

def emitted (request : Request) : Instr → List Mark
  | .callUnlessExiting => if request.exiting then [] else [.called request.argv]
  | instr => instr.mark.toList

theorem exec_call (request : Request) :
    exec request .callUnlessExiting =
      { request with history := emitted request .callUnlessExiting ++ request.history } := by
  rw [exec, emitted]
  split
  · rfl
  · rfl

theorem exec_history (request : Request) (instr : Instr) :
    (exec request instr).history = emitted request instr ++ request.history := by
  cases instr with
  | callUnlessExiting => rw [exec_call]
  | _ => rfl

@[simp] theorem exec_kind (request : Request) (instr : Instr) : (exec request instr).kind = request.kind := by
  cases instr with
  | callUnlessExiting => rw [exec_call]
  | _ => rfl

@[simp] theorem exec_outcome (request : Request) (instr : Instr) : (exec request instr).outcome = request.outcome := by
  cases instr with
  | callUnlessExiting => rw [exec_call]
  | _ => rfl

theorem exec_worker (request : Request) (instr : Instr) :
    (exec request instr).worker = if instr = .start then .running else request.worker := by
  cases instr with
  | callUnlessExiting =>
      rw [exec_call]
      rfl
  | _ => rfl

theorem exec_exiting (request : Request) (instr : Instr) :
    (exec request instr).exiting = if instr = .setExiting then false else request.exiting := by
  cases instr with
  | callUnlessExiting =>
      rw [exec_call]
      rfl
  | _ => rfl

theorem exec_argv (request : Request) (instr : Instr) :
    (exec request instr).argv =
      if instr = .createArguments then arguments request.kind request.outcome else request.argv := by
  cases instr with
  | callUnlessExiting =>
      rw [exec_call]
      rfl
  | _ => rfl

theorem exec_teardown (request : Request) (instr : Instr) (added : (exec request instr).teardown = .added) :
    instr = .addTeardown ∨ request.teardown = .added := by
  cases instr with
  | addTeardown => exact .inl rfl
  | finishTeardown => cases added
  | callUnlessExiting =>
      rw [exec_call] at added
      exact .inr added
  | _ => exact .inr added

theorem emitted_mark (request : Request) (instr other : Instr) (mark : Mark) (marks : other.mark = some mark) :
    mark ∈ emitted request instr ↔ other = instr := by
  constructor
  · intro member
    cases instr with
    | callUnlessExiting =>
        cases exiting : request.exiting <;> simp only [emitted, exiting] at member
        · obtain rfl := List.mem_singleton.mp member
          cases other <;> cases marks
        · cases member
    | _ => exact mark_injective _ _ mark marks (by simpa [emitted] using member)
  · rintro rfl
    cases other <;> first | cases marks; done | simp_all [emitted]

theorem emitted_other (request : Request) (instr : Instr) (mark : Mark) (member : mark ∈ emitted request instr) :
    instr.mark = some mark ∨ instr = .callUnlessExiting ∧ request.exiting = false ∧ mark = .called request.argv := by
  cases instr with
  | callUnlessExiting =>
      cases exiting : request.exiting
      · exact .inr ⟨rfl, rfl, by simpa [emitted, exiting] using member⟩
      · simp [emitted, exiting] at member
  | _ => exact .inl (by simpa [emitted] using member)

theorem emitted_lawful (request : Request) (instr : Instr) (permitted : List Mark → Mark → Prop)
    (lawful : Lawful permitted request.history)
    (permits : ∀ mark ∈ emitted request instr, permitted request.history mark) :
    Lawful permitted (emitted request instr ++ request.history) := by
  cases instr with
  | callUnlessExiting =>
      cases exiting : request.exiting
      · simp only [emitted, exiting] at permits ⊢
        exact ⟨permits _ (.head _), lawful⟩
      · simpa only [emitted, exiting, if_true, List.nil_append] using lawful
  | start => exact ⟨permits _ (.head _), lawful⟩
  | createReference ref => exact ⟨permits _ (.head _), lawful⟩
  | addTeardown => exact ⟨permits _ (.head _), lawful⟩
  | deleteReference ref => exact ⟨permits _ (.head _), lawful⟩
  | finishTeardown => exact ⟨permits _ (.head _), lawful⟩
  | _ => exact lawful

theorem inside_exited (request : Request) (sound : Sound request) (inside : request.stage.inside = true) :
    request.worker = .exited := by
  apply sound.delivered
  cases stage : request.stage <;> rw [stage] at inside <;> first | rfl | cases inside

theorem emitted_permitted (request : Request) (instr : Instr) (rest : List Instr) (sound : Sound request)
    (ahead : request.stage.ahead = instr :: rest) (placed : instr :: rest <:+ life)
    (inside : instr ∈ completion → request.stage.inside = true ∧ request.stage.ended = false) :
    ∀ mark ∈ emitted request instr, Permitted request.kind request.history mark := by
  have behind : ∀ earlier mark, earlier.mark = some mark →
      (∀ tail ∈ life.tails, tail.head? = some instr → earlier ∉ tail) → mark ∈ request.history := by
    intro earlier mark marks order
    rw [sound.executed earlier mark marks, ahead]
    exact earlier_behind earlier instr rest placed order
  intro mark member
  rcases emitted_other request instr mark member with marks | ⟨rfl, exiting, rfl⟩
  · cases instr with
    | start => cases marks; trivial
    | createReference ref => cases marks; trivial
    | addTeardown => cases marks; trivial
    | deleteReference ref =>
        cases marks
        obtain ⟨entered, ended⟩ := inside (by cases ref <;> decide)
        refine ⟨fun deleted => ?_, behind (.createReference ref) _ rfl (by cases ref <;> decide),
          sound.entered.mpr entered, fun left => ?_⟩
        · rw [sound.executed (.deleteReference ref) _ rfl, ahead] at deleted
          exact deleted (.head _)
        · rw [sound.left, ended] at left
          cases left
    | finishTeardown =>
        cases marks
        obtain ⟨entered, _⟩ := inside (by decide)
        refine ⟨fun finished => ?_, behind .addTeardown _ rfl (by decide),
          sound.stopped.mpr (inside_exited request sound entered)⟩
        rw [sound.executed .finishTeardown _ rfl, ahead] at finished
        exact finished (.head _)
    | _ => cases marks
  · obtain ⟨entered, ended⟩ := inside (by decide)
    have exited := inside_exited request sound entered
    refine ⟨fun other called => ?_, fun tornDown => ?_, sound.entered.mpr entered, fun left => ?_,
      request.outcome, (sound.stored _).mpr ⟨by rw [exited]; rfl, rfl⟩, sound.argv ?_⟩
    · exact sound.called other called (ahead ▸ .head _)
    · rw [(sound.tornDown tornDown).1] at exiting
      cases exiting
    · rw [sound.left, ended] at left
      cases left
    · rw [ahead]
      exact earlier_behind .createArguments _ rest placed (by decide)

theorem exec_sound (request : Request) (instr : Instr) (rest : List Instr) (before stage : Stage)
    (sound : Sound request) (now : request.stage = before) (ahead : before.ahead = instr :: rest)
    (ahead' : stage.ahead = rest) (placed : stage.Placed) (delivered : stage.delivered = before.delivered)
    (inside : stage.inside = before.inside) (ended : stage.ended = before.ended)
    (within : instr ∈ completion → before.inside = true ∧ before.ended = false) :
    Sound { exec request instr with stage := stage } := by
  subst before
  have suffix : instr :: rest <:+ life := ahead ▸ ahead_suffix request.stage sound.placed
  have once : instr ∉ rest := (List.nodup_cons.mp (life_nodup.sublist suffix.sublist)).1
  have behind : ∀ other, other ∉ request.stage.ahead → other ∉ rest := fun other absent inside =>
    absent (ahead ▸ .tail _ inside)
  have plain : ∀ mark, (∀ other : Instr, other.mark ≠ some mark) → (∀ argv, mark ≠ .called argv) →
      (mark ∈ (exec request instr).history ↔ mark ∈ request.history) := by
    intro mark unmarked uncalled
    rw [exec_history, List.mem_append]
    refine ⟨fun member => member.resolve_left fun new => ?_, .inr⟩
    rcases emitted_other request instr mark new with marks | ⟨_, _, called⟩
    · exact unmarked instr marks
    · exact uncalled _ called
  have unmarked : ∀ mark : Mark, (mark = .stopped ∨ mark = .tornDown ∨ mark = .entered ∨ mark = .left) →
      ∀ other : Instr, other.mark ≠ some mark := by
    rintro mark (rfl | rfl | rfl | rfl) other <;> cases other <;> simp [Instr.mark]
  exact {
    lawful := by
      simp only [exec_kind, exec_history]
      exact emitted_lawful request instr _ sound.lawful
        (emitted_permitted request instr rest sound ahead suffix within)
    placed := placed
    executed := by
      intro other mark marks
      simp only [exec_history, List.mem_append, emitted_mark request instr other mark marks, ahead',
        sound.executed other mark marks, ahead, List.mem_cons, not_or]
      by_cases same : other = instr
      · simp [same, once]
      · simp [same]
    called := by
      intro argv member
      simp only [exec_history, List.mem_append] at member
      rw [ahead']
      rcases member with new | old
      · rcases emitted_other request instr _ new with marks | ⟨rfl, _, _⟩
        · cases instr <;> cases marks
        · exact once
      · exact behind _ (sound.called argv old)
    argv := by
      intro absent
      simp only [exec_argv, exec_kind, exec_outcome]
      split
      · rfl
      · rename_i different
        apply sound.argv
        rw [ahead, List.mem_cons, not_or]
        exact ⟨Ne.symm different, ahead' ▸ absent⟩
    idle := by
      simp only [exec_worker, ahead']
      split
      · rename_i same
        simp [← same, once]
      · rename_i different
        rw [sound.idle, ahead, List.mem_cons]
        exact ⟨fun member => member.resolve_left (Ne.symm different), .inr⟩
    stored := by
      intro outcome
      have same := plain (.stored outcome) (fun other => by cases other <;> simp [Instr.mark]) (fun _ equal => by cases equal)
      simp only [same, exec_worker, exec_outcome, sound.stored]
      split
      · rename_i start
        have idle := sound.idle.mpr (by rw [ahead, start]; exact .head _)
        simp [idle, Worker.isDone]
      · rfl
    stopped := by
      have same := plain .stopped (unmarked _ (.inl rfl)) (fun _ equal => by cases equal)
      simp only [same, exec_worker, sound.stopped]
      split
      · rename_i start
        have idle := sound.idle.mpr (by rw [ahead, start]; exact .head _)
        simp [idle]
      · rfl
    delivered := by
      intro isDelivered
      rw [delivered] at isDelivered
      have exited := sound.delivered isDelivered
      simp only [exec_worker]
      split
      · rename_i start
        have idle := sound.idle.mpr (by rw [ahead, start]; exact .head _)
        rw [exited] at idle
        cases idle
      · exact exited
    entered := by
      have same := plain .entered (unmarked _ (.inr (.inr (.inl rfl)))) (fun _ equal => by cases equal)
      simp only [same, sound.entered, inside]
    left := by
      have same := plain .left (unmarked _ (.inr (.inr (.inr rfl)))) (fun _ equal => by cases equal)
      simp only [same, sound.left, ended]
    tornDown := by
      have same := plain .tornDown (unmarked _ (.inr (.inl rfl))) (fun _ equal => by cases equal)
      intro torn
      obtain ⟨exiting, absent⟩ := sound.tornDown (same.mp torn)
      refine ⟨?_, ahead' ▸ behind _ absent⟩
      simp only [exec_exiting]
      split
      · -- Nothing is torn down before `exiting` has been set to false.
        rename_i reset
        subst reset
        have later : ∀ tail ∈ life.tails, tail.head? = some .setExiting → .addTeardown ∈ tail := by decide
        have still := later _ ((List.mem_tails _ _).mpr suffix) rfl
        exact absurd still (ahead ▸ absent)
      · exact exiting
    teardown := by
      intro added
      rw [ahead']
      rcases exec_teardown request instr added with rfl | before
      · exact once
      · exact behind _ (sound.teardown before) }

theorem restage_sound (request : Request) (before stage : Stage) (sound : Sound request)
    (now : request.stage = before) (ahead : stage.ahead = before.ahead) (placed : stage.Placed)
    (delivered : stage.delivered = true → request.worker = .exited) (inside : stage.inside = before.inside)
    (ended : stage.ended = before.ended) : Sound { request with stage := stage } := by
  subst before
  exact {
    lawful := sound.lawful
    placed := placed
    executed := fun instr mark marks => by
      simp only [ahead]
      exact sound.executed instr mark marks
    called := fun argv member => ahead ▸ sound.called argv member
    argv := fun absent => sound.argv (ahead ▸ absent)
    idle := by
      simp only [ahead]
      exact sound.idle
    stored := sound.stored
    stopped := sound.stopped
    delivered := delivered
    entered := sound.entered.trans (by simp only [inside])
    left := sound.left.trans (by simp only [ended])
    tornDown := fun member => ahead ▸ sound.tornDown member
    teardown := fun added => ahead ▸ sound.teardown added }

theorem note_executed (request : Request) (mark : Mark) (sound : Sound request)
    (unmarked : ∀ instr : Instr, instr.mark ≠ some mark) :
    ∀ instr other, instr.mark = some other → (other ∈ mark :: request.history ↔ instr ∉ request.stage.ahead) := by
  intro instr other marks
  have different : other ≠ mark := fun same => unmarked instr (same ▸ marks)
  rw [List.mem_cons, or_iff_right different]
  exact sound.executed instr other marks

theorem tear_down_sound (request : Request) (sound : Sound request) (added : request.teardown = .added) :
    Sound ({ request with exiting := true }.note .tornDown) := by
  have absent := sound.teardown added
  exact {
    lawful := ⟨(sound.executed .addTeardown .added rfl).mpr absent, sound.lawful⟩
    placed := sound.placed
    executed := note_executed request .tornDown sound fun instr => by cases instr <;> simp [Instr.mark]
    called := fun argv member => sound.called argv (by simpa [Request.note] using member)
    argv := sound.argv
    idle := sound.idle
    stored := fun outcome => by simpa [Request.note] using sound.stored outcome
    stopped := by simpa [Request.note] using sound.stopped
    delivered := sound.delivered
    entered := by simpa [Request.note] using sound.entered
    left := by simpa [Request.note] using sound.left
    tornDown := fun _ => ⟨rfl, absent⟩
    teardown := fun _ => absent }

theorem work_sound (request : Request) (outcome : Outcome) (sound : Sound request)
    (running : request.worker = .running) :
    Sound ({ request with worker := .stored, outcome := outcome }.note (.stored outcome)) := by
  have outside : request.stage.delivered ≠ true := fun delivered => by
    have exited := sound.delivered delivered
    rw [running] at exited
    cases exited
  have ahead : .createArguments ∈ request.stage.ahead := by
    cases stage : request.stage <;> rw [stage] at outside <;> simp [Stage.delivered] at outside <;>
      simp [Stage.ahead, life, completion]
  have unstored : ∀ other, .stored other ∉ request.history := fun other member => by
    have stored := ((sound.stored other).mp member).1
    rw [running] at stored
    cases stored
  exact {
    lawful := ⟨unstored, sound.lawful⟩
    placed := sound.placed
    executed := note_executed request (.stored outcome) sound fun instr => by cases instr <;> simp [Instr.mark]
    called := fun argv member => sound.called argv (by simpa [Request.note] using member)
    argv := fun absent => absurd ahead absent
    idle := by
      have started : .start ∉ request.stage.ahead := fun start => by
        have idle := sound.idle.mpr start
        rw [running] at idle
        cases idle
      simpa [Request.note] using started
    stored := fun other => by simp [Request.note, Worker.isDone, unstored, eq_comm]
    stopped := by
      have unstopped : .stopped ∉ request.history := fun stopped => by
        have exited := sound.stopped.mp stopped
        rw [running] at exited
        cases exited
      simpa [Request.note] using unstopped
    delivered := fun delivered => absurd delivered outside
    entered := by simpa [Request.note] using sound.entered
    left := by simpa [Request.note] using sound.left
    tornDown := fun member => sound.tornDown (by simpa [Request.note] using member)
    teardown := sound.teardown }

theorem signal_sound (request : Request) (sound : Sound request) (stored : request.worker = .stored) :
    Sound { request with worker := .signalled } where
  lawful := sound.lawful
  placed := sound.placed
  executed := sound.executed
  called := sound.called
  argv := sound.argv
  idle := by
    have idle := sound.idle
    rw [stored] at idle
    simpa using idle
  stored outcome := by
    have same := sound.stored outcome
    rw [stored] at same
    exact same
  stopped := by
    have stopped := sound.stopped
    rw [stored] at stopped
    simpa using stopped
  delivered delivered := by
    have exited := sound.delivered delivered
    rw [stored] at exited
    cases exited
  entered := sound.entered
  left := sound.left
  tornDown := sound.tornDown
  teardown := sound.teardown

theorem stop_sound (request : Request) (sound : Sound request)
    (ended : request.worker = .signalled ∨ request.worker = .stored) :
    Sound ({ request with worker := .exited }.note .stopped) where
  lawful := ⟨trivial, sound.lawful⟩
  placed := sound.placed
  executed := note_executed request .stopped sound fun instr => by cases instr <;> simp [Instr.mark]
  called argv member := sound.called argv (by simpa [Request.note] using member)
  argv := sound.argv
  idle := by
    have idle := sound.idle
    rcases ended with ended | ended <;> rw [ended] at idle <;> simpa [Request.note] using idle
  stored outcome := by
    have same := sound.stored outcome
    rcases ended with ended | ended <;> rw [ended] at same <;> simpa [Request.note, Worker.isDone] using same
  stopped := by simp [Request.note]
  delivered _ := rfl
  entered := by simpa [Request.note] using sound.entered
  left := by simpa [Request.note] using sound.left
  tornDown member := sound.tornDown (by simpa [Request.note] using member)
  teardown := sound.teardown

theorem enter_sound (request : Request) (sound : Sound request)
    (stage : request.stage = .closing ∨ request.stage = .pending) (exited : request.worker = .exited) :
    Sound ({ request with stage := .completing completion }.note .entered) := by
  have ahead : request.stage.ahead = completion := by rcases stage with stage | stage <;> rw [stage] <;> rfl
  have outside : request.stage.inside = false := by rcases stage with stage | stage <;> rw [stage] <;> rfl
  have under : request.stage.ended = false := by rcases stage with stage | stage <;> rw [stage] <;> rfl
  have unentered : .entered ∉ request.history := fun entered => by
    have inside := sound.entered.mp entered
    rw [outside] at inside
    cases inside
  have executed := note_executed request .entered sound fun instr => by cases instr <;> simp [Instr.mark]
  have added : .added ∈ request.history := (sound.executed .addTeardown .added rfl).mpr (by rw [ahead]; decide)
  have idle := sound.idle
  have torn := sound.tornDown
  have teardown := sound.teardown
  have called := sound.called
  have argv := sound.argv
  have left := sound.left
  rw [ahead] at executed idle torn teardown called argv
  rw [under] at left
  exact {
    lawful := ⟨⟨added, sound.stopped.mpr exited, unentered⟩, sound.lawful⟩
    placed := List.suffix_refl _
    executed := executed
    called := fun argv member => called argv (by simpa [Request.note] using member)
    argv := argv
    idle := idle
    stored := fun outcome => by simpa [Request.note] using sound.stored outcome
    stopped := by simpa [Request.note] using sound.stopped
    delivered := fun _ => exited
    entered := by simp [Request.note, Stage.inside]
    left := by simpa [Request.note, Stage.ended] using left
    tornDown := fun member => torn (by simpa [Request.note] using member)
    teardown := teardown }

theorem leave_sound (request : Request) (sound : Sound request) (stage : request.stage = .completing []) :
    Sound ({ request with stage := .done }.note .left) := by
  have executed := note_executed request .left sound fun instr => by cases instr <;> simp [Instr.mark]
  have behind := sound.executed
  have idle := sound.idle
  have torn := sound.tornDown
  have argv := sound.argv
  have entered := sound.entered
  have delivered := sound.delivered
  rw [stage] at executed behind idle torn argv entered delivered
  have gone : ∀ (instr : Instr) (mark : Mark), instr.mark = some mark → mark ∈ request.history := fun instr mark marks =>
    (behind instr mark marks).mpr List.not_mem_nil
  exact {
    lawful := ⟨⟨fun ref => gone (.deleteReference ref) _ rfl, gone .finishTeardown _ rfl⟩, sound.lawful⟩
    placed := trivial
    executed := executed
    called := fun _ _ => List.not_mem_nil
    argv := argv
    idle := idle
    stored := fun outcome => by simpa [Request.note] using sound.stored outcome
    stopped := by simpa [Request.note] using sound.stopped
    delivered := fun _ => delivered rfl
    entered := by simpa [Request.note, Stage.inside] using entered
    left := by simp [Request.note, Stage.ended]
    tornDown := fun member => ⟨(torn (by simpa [Request.note] using member)).1, List.not_mem_nil⟩
    teardown := fun _ => List.not_mem_nil }

theorem move_sound (action : Action) (request request' : Request) (sound : Sound request)
    (move : Move action request request') : Sound request' := by
  have placed := sound.placed
  cases move with
  | refuse _ rest stage =>
      rw [stage] at placed
      have whole : ∀ tail ∈ submission.tails, tail.head? = some .start → tail = submission := by decide
      have all := whole _ ((List.mem_tails _ _).mpr placed) rfl
      rw [all] at stage
      exact restage_sound request _ .refused sound stage rfl trivial (fun delivered => by cases delivered) rfl rfl
  | submit _ instr rest stage =>
      rw [stage] at placed
      have apart : ∀ instr ∈ submission, instr ∉ completion := by decide
      have member : instr ∈ submission := placed.subset (.head _)
      exact exec_sound request instr (rest ++ completion) _ (.submitting rest) sound stage rfl rfl
        ((List.suffix_cons instr rest).trans placed) rfl rfl rfl fun inside => absurd inside (apart instr member)
  | submitted _ stage =>
      exact restage_sound request _ .pending sound stage rfl trivial (fun delivered => by cases delivered) rfl rfl
  | tearDown _ added => exact tear_down_sound request sound added
  | work _ outcome running => exact work_sound request outcome sound running
  | signal _ threaded stored => exact signal_sound request sound stored
  | stop _ ended =>
      apply stop_sound request sound
      split at ended
      · exact .inl ended
      · exact .inr ended
  | join _ threaded stage exited =>
      exact restage_sound request _ .closing sound stage rfl trivial (fun _ => exited) rfl rfl
  | enter _ stage exited =>
      refine enter_sound request sound ?_ exited
      split at stage
      · exact .inl stage
      · exact .inr stage
  | complete _ instr rest stage =>
      rw [stage] at placed
      exact exec_sound request instr rest _ (.completing rest) sound stage rfl rfl
        ((List.suffix_cons instr rest).trans placed) rfl rfl rfl fun _ => ⟨rfl, rfl⟩
  | leave _ stage => exact leave_sound request sound stage

def Mark.isStored : Mark → Bool
  | .stored _ => true
  | _ => false

def Mark.isCalled : Mark → Bool
  | .called _ => true
  | _ => false

def Mark.isDeleted (ref : Reference) : Mark → Bool
  | .deleted other => other = ref
  | _ => false

def Mark.isFinished : Mark → Bool
  | .finished => true
  | _ => false

-- An attribute that is not there is read as null and needs no removing.
def Kind.Forgives (kind : Kind) (err : UvError) : Prop := err = .ENODATA ∧ (kind = .getAttr ∨ kind = .removeAttr)

-- What a result has to tell its caller, whatever `arguments` makes of it.
structure Delivers (kind : Kind) (outcome : Outcome) (argv : List JsValue) : Prop where
  failed : ∀ err, argv[0]? = some (.error err) ↔ outcome.result = .error err ∧ ¬ kind.Forgives err
  succeeded : argv[0]? = some .null ↔
    outcome.result = .ok () ∨ ∃ err, outcome.result = .error err ∧ kind.Forgives err
  value : ∀ contents, argv[1]? = some (.buffer contents) ↔
    kind = .getAttr ∧ outcome.result = .ok () ∧ contents = outcome.value
  names : ∀ names, argv[1]? = some (.array names) ↔
    kind = .listAttrs ∧ outcome.result = .ok () ∧ names = outcome.names

theorem arguments_deliver (kind : Kind) (outcome : Outcome) : Delivers kind outcome (arguments kind outcome) := by
  obtain ⟨result, value, names⟩ := outcome
  cases result with
  | ok done =>
      refine ⟨fun err => ?_, ?_, fun contents => ?_, fun names => ?_⟩ <;>
        cases kind <;> simp [arguments, eq_comm]
  | error err =>
      by_cases missing : err = .ENODATA
      · subst missing
        refine ⟨fun err => ?_, ?_, fun contents => ?_, fun names => ?_⟩ <;>
          cases kind <;> simp +contextual [arguments, Kind.Forgives, eq_comm]
      · have shown : ∀ other, (.error err : Status) = .error other ∧ ¬ kind.Forgives other ↔ err = other := fun other =>
          ⟨fun same => by cases same.1; rfl, fun same => ⟨by rw [same], fun forgiven => missing (same.trans forgiven.1)⟩⟩
        refine ⟨fun other => ?_, ?_, fun contents => ?_, fun names => ?_⟩
        · rw [shown]
          cases kind <;> simp [arguments, missing]
        · cases kind <;> simp [arguments, Kind.Forgives, missing]
        · cases kind <;> simp [arguments, missing]
        · cases kind <;> simp [arguments, missing]

-- The callback is called at most once, with the one result its worker stored,
-- and not after the teardown callback; the references and the deferred teardown
-- are given up once, by the completion function, before it returns.
structure LifeCycle (request : Request) : Prop where
  storedOnce : request.history.countP Mark.isStored ≤ 1
  calledOnce : request.history.countP Mark.isCalled ≤ 1
  calledWith : ∀ after argv before, request.history = after ++ .called argv :: before →
    .tornDown ∉ before ∧ ∃ outcome, .stored outcome ∈ before ∧ Delivers request.kind outcome argv
  deletedOnce : ∀ ref, request.history.countP (Mark.isDeleted ref) ≤ 1
  deletedInside : ∀ after ref before, request.history = after ++ .deleted ref :: before →
    .entered ∈ before ∧ .left ∉ before
  finishedOnce : request.history.countP Mark.isFinished ≤ 1
  complete : .left ∈ request.history →
    (∀ ref, request.history.countP (Mark.isDeleted ref) = 1) ∧ request.history.countP Mark.isFinished = 1

theorem sound_life_cycle (request : Request) (sound : Sound request) : LifeCycle request := by
  have deletedOnce : ∀ ref, request.history.countP (Mark.isDeleted ref) ≤ 1 := fun ref =>
    lawful_once _ (Mark.isDeleted ref) _ (fun before mark permitted deletes earlier member => by
      cases mark <;> simp only [Mark.isDeleted, decide_eq_true_eq, Bool.false_eq_true] at deletes
      subst deletes
      cases earlier <;> simp only [Mark.isDeleted, decide_eq_false_iff_not]
      rintro rfl
      exact permitted.1 member) sound.lawful
  have finishedOnce : request.history.countP Mark.isFinished ≤ 1 :=
    lawful_once _ Mark.isFinished _ (fun before mark permitted finishes earlier member => by
      cases mark <;> simp only [Mark.isFinished, Bool.false_eq_true] at finishes
      cases earlier <;> simp only [Mark.isFinished]
      exact absurd member permitted.1) sound.lawful
  refine ⟨?_, ?_, ?_, deletedOnce, ?_, finishedOnce, ?_⟩
  · exact lawful_once _ Mark.isStored _ (fun before mark permitted stores earlier member => by
      cases mark <;> simp only [Mark.isStored, Bool.false_eq_true] at stores
      cases earlier <;> simp only [Mark.isStored]
      exact absurd member (permitted _)) sound.lawful
  · exact lawful_once _ Mark.isCalled _ (fun before mark permitted calls earlier member => by
      cases mark <;> simp only [Mark.isCalled, Bool.false_eq_true] at calls
      cases earlier <;> simp only [Mark.isCalled]
      exact absurd member (permitted.1 _)) sound.lawful
  · intro after argv before split
    have permitted := lawful_at _ after before _ (split ▸ sound.lawful)
    obtain ⟨outcome, stored, rfl⟩ := permitted.2.2.2.2
    exact ⟨permitted.2.1, outcome, stored, arguments_deliver request.kind outcome⟩
  · intro after ref before split
    have permitted := lawful_at _ after before _ (split ▸ sound.lawful)
    exact permitted.2.2
  · intro left
    obtain ⟨after, before, split⟩ := List.append_of_mem left
    have permitted := lawful_at _ after before _ (split ▸ sound.lawful)
    have kept : ∀ mark, mark ∈ before → mark ∈ request.history := fun mark member => by
      rw [split]
      exact List.mem_append_right _ (.tail _ member)
    refine ⟨fun ref => Nat.le_antisymm (deletedOnce ref) ?_, Nat.le_antisymm finishedOnce ?_⟩
    · exact List.countP_pos_iff.mpr ⟨.deleted ref, kept _ (permitted.1 ref), by simp [Mark.isDeleted]⟩
    · exact List.countP_pos_iff.mpr ⟨.finished, kept _ permitted.2, rfl⟩

namespace Env

structure Sound (env : Env) : Prop where
  requests : ∀ request ∈ env.requests, Async.Sound request
  submitting : ∀ r request rest, env.requests[r]? = some request → request.stage = .submitting rest →
    env.submitting = some r

@[simp] theorem after_requests (env : Env) (r : Nat) (action : Action) (request request' : Request) :
    (env.after r action request request').requests = env.requests.set r request' := by
  cases action with
  | complete instr => cases instr <;> rfl
  | _ => rfl

theorem after_submitting (env : Env) (r : Nat) (action : Action) (request request' : Request) :
    (env.after r action request request').submitting = env.submitting ∨
      (action = .refuse ∨ action = .submitted) ∧ (env.after r action request request').submitting = none := by
  cases action with
  | refuse => exact .inr ⟨.inl rfl, rfl⟩
  | submitted => exact .inr ⟨.inr rfl, rfl⟩
  | complete instr => cases instr <;> exact .inl rfl
  | _ => exact .inl rfl

theorem move_submitting (action : Action) (request request' : Request) (rest : List Instr)
    (move : Move action request request') (stage : request'.stage = .submitting rest) :
    (∃ before, request.stage = .submitting before) ∧ action ≠ .refuse ∧ action ≠ .submitted := by
  cases move with
  | submit _ instr rest before => exact ⟨⟨_, before⟩, by simp, by simp⟩
  | tearDown => exact ⟨⟨rest, stage⟩, by simp, by simp⟩
  | work => exact ⟨⟨rest, stage⟩, by simp, by simp⟩
  | signal => exact ⟨⟨rest, stage⟩, by simp, by simp⟩
  | stop => exact ⟨⟨rest, stage⟩, by simp, by simp⟩
  | _ => cases stage

theorem step_sound (env env' : Env) (sound : env.Sound) (step : Step env env') : env'.Sound := by
  cases step with
  | script => exact ⟨sound.requests, sound.submitting⟩
  | scriptEnds => exact ⟨sound.requests, sound.submitting⟩
  | startTeardown => exact ⟨sound.requests, sound.submitting⟩
  | submission kind scripting =>
      refine ⟨fun request member => ?_, fun r request rest found stage => ?_⟩
      · rcases List.mem_append.mp member with old | new
        · exact sound.requests request old
        · obtain rfl := List.mem_singleton.mp new
          exact fresh_sound kind
      · by_cases old : r < env.requests.length
        · rw [List.getElem?_append_left old] at found
          have busy := sound.submitting r request rest found stage
          rw [scripting.2] at busy
          cases busy
        · have bound := (List.getElem?_eq_some_iff.mp found).1
          rw [List.length_append, List.length_singleton] at bound
          have last : env.requests.length = r := by omega
          exact congrArg some last
  | act r action request request' found may move =>
      have held := sound.requests request (List.mem_of_getElem? found)
      refine ⟨fun other member => ?_, fun r' other rest found' stage => ?_⟩
      · rw [after_requests] at member
        rcases List.mem_or_eq_of_mem_set member with old | rfl
        · exact sound.requests other old
        · exact move_sound action request other held move
      · rw [after_requests] at found'
        have busy : env.submitting = some r' ∧ (r' = r → action ≠ .refuse ∧ action ≠ .submitted) := by
          by_cases same : r = r'
          · subst same
            have bound := (List.getElem?_eq_some_iff.mp found).1
            rw [List.getElem?_set_self bound] at found'
            obtain rfl := Option.some.inj found'
            obtain ⟨⟨before, was⟩, ends⟩ := move_submitting action request request' rest move stage
            exact ⟨sound.submitting r request before found was, fun _ => ends⟩
          · rw [List.getElem?_set_ne same] at found'
            exact ⟨sound.submitting r' other rest found' stage, fun equal => absurd equal.symm same⟩
        rcases after_submitting env r action request request' with kept | ⟨ends, _⟩
        · rw [kept]
          exact busy.1
        · have own : env.submitting = some r := by rcases ends with rfl | rfl <;> exact may
          have same : r' = r := Option.some.inj (busy.1.symm.trans own)
          rcases ends with rfl | rfl
          · exact absurd rfl (busy.2 same).1
          · exact absurd rfl (busy.2 same).2

theorem reachable_sound (env : Env) (reachable : Reachable env) : env.Sound := by
  induction reachable with
  | refl => exact ⟨fun _ member => (by cases member), fun _ _ _ found => by cases found⟩
  | tail _ step ih => exact step_sound _ _ ih step

end Env

theorem finished_exited (request : Request) (sound : Sound request) (finished : .finished ∈ request.history) :
    request.worker = .exited := by
  apply sound.delivered
  have behind := (sound.executed .finishTeardown .finished rfl).mp finished
  cases stage : request.stage with
  | closing => rfl
  | completing rest => rfl
  | done => rfl
  | refused =>
      rw [stage] at behind
      exact absurd (by decide) behind
  | submitting rest =>
      rw [stage] at behind
      exact absurd (List.mem_append_right rest (by decide)) behind
  | pending =>
      rw [stage] at behind
      exact absurd (by decide) behind

theorem requests_keep_life_cycle (env : Env) (reachable : Env.Reachable env) :
    (∀ request ∈ env.requests, LifeCycle request) ∧
      ((∀ request ∈ env.requests, .started ∈ request.history → .finished ∈ request.history) →
        ∀ request ∈ env.requests, request.worker = .idle ∨ request.worker = .exited) ∧
      (env.submitting = none →
        (∀ request ∈ env.requests, .added ∈ request.history → .finished ∈ request.history) →
        ∀ request ∈ env.requests, request.worker = .idle ∨ request.worker = .exited) := by
  have sound := Env.reachable_sound env reachable
  refine ⟨fun request member => sound_life_cycle request (sound.requests request member), ?_, ?_⟩
  · intro finished request member
    have held := sound.requests request member
    by_cases idle : request.worker = .idle
    · exact .inl idle
    · have started := (held.executed .start .started rfl).mpr fun ahead => idle (held.idle.mpr ahead)
      exact .inr (finished_exited request held (finished request member started))
  · intro quiet finished request member
    have held := sound.requests request member
    by_cases added : .added ∈ request.history
    · exact .inr (finished_exited request held (finished request member added))
    · have ahead : .addTeardown ∈ request.stage.ahead := by
        by_contra behind
        exact added ((held.executed .addTeardown .added rfl).mpr behind)
      cases stage : request.stage with
      | refused => exact .inl (held.idle.mpr (by rw [stage]; decide))
      | submitting rest =>
          obtain ⟨r, found⟩ := List.mem_iff_getElem?.mp member
          have busy := sound.submitting r request rest found stage
          rw [quiet] at busy
          cases busy
      | pending =>
          rw [stage] at ahead
          exact absurd ahead (by decide)
      | closing => exact .inr (held.delivered (by rw [stage]; rfl))
      | completing rest => exact .inr (held.delivered (by rw [stage]; rfl))
      | done => exact .inr (held.delivered (by rw [stage]; rfl))

def earlyTrim : Request where
  kind := .trim
  worker := .exited
  outcome := ⟨.ok (), [], []⟩
  env := true
  exiting := false
  teardown := .finished
  stage := .done
  argv := [.null]
  history := [.left, .finished, .called [.null], .deleted .ctx, .deleted .cb, .entered, .added, .created .cb,
    .created .ctx, .stopped, .stored ⟨.ok (), [], []⟩, .started]

def earlyPending : Request :=
  { earlyTrim with teardown := .added, stage := .pending, argv := [], history := earlyTrim.history.drop 6 }

theorem early_submitted : Env.Reachable ⟨[earlyPending], none, none, false, false⟩ :=
  .head (.script ⟨rfl, rfl, rfl⟩) <|
  .head (.submission .trim ⟨rfl, rfl⟩) <|
  .head (.act 0 (.submit .start) _ _ rfl rfl (.submit _ .start _ rfl)) <|
  .head (.act 0 .work _ _ rfl trivial (.work _ ⟨.ok (), [], []⟩ rfl)) <|
  .head (.act 0 .stop _ _ rfl trivial (.stop _ rfl)) <|
  .head (.act 0 (.submit .setEnv) _ _ rfl rfl (.submit _ .setEnv _ rfl)) <|
  .head (.act 0 (.submit .setExiting) _ _ rfl rfl (.submit _ .setExiting _ rfl)) <|
  .head (.act 0 (.submit (.createReference .ctx)) _ _ rfl rfl (.submit _ (.createReference .ctx) _ rfl)) <|
  .head (.act 0 (.submit (.createReference .cb)) _ _ rfl rfl (.submit _ (.createReference .cb) _ rfl)) <|
  .head (.act 0 (.submit .addTeardown) _ _ rfl rfl (.submit _ .addTeardown _ rfl)) <|
  .head (.act 0 .submitted _ _ rfl rfl (.submitted _ rfl)) <|
  .single (.scriptEnds ⟨rfl, rfl⟩)

theorem early_completed : Env.Reachable ⟨[earlyTrim], none, none, false, false⟩ :=
  early_submitted.trans <|
  .head (.act 0 .enter _ _ rfl ⟨rfl, rfl, rfl⟩ (.enter _ rfl rfl)) <|
  .head (.act 0 (.complete .loadEnv) _ _ rfl ⟨rfl, rfl⟩ (.complete _ .loadEnv _ rfl)) <|
  .head (.act 0 (.complete .loadTeardown) _ _ rfl ⟨rfl, rfl⟩ (.complete _ .loadTeardown _ rfl)) <|
  .head (.act 0 (.complete .openScope) _ _ rfl ⟨rfl, rfl⟩ (.complete _ .openScope _ rfl)) <|
  .head (.act 0 (.complete (.getReference .ctx)) _ _ rfl ⟨rfl, rfl⟩ (.complete _ (.getReference .ctx) _ rfl)) <|
  .head (.act 0 (.complete (.getReference .cb)) _ _ rfl ⟨rfl, rfl⟩ (.complete _ (.getReference .cb) _ rfl)) <|
  .head (.act 0 (.complete (.deleteReference .cb)) _ _ rfl ⟨rfl, rfl⟩ (.complete _ (.deleteReference .cb) _ rfl)) <|
  .head (.act 0 (.complete (.deleteReference .ctx)) _ _ rfl ⟨rfl, rfl⟩ (.complete _ (.deleteReference .ctx) _ rfl)) <|
  .head (.act 0 (.complete .createArguments) _ _ rfl ⟨rfl, rfl⟩ (.complete _ .createArguments _ rfl)) <|
  .head (.act 0 (.complete .callUnlessExiting) _ _ rfl ⟨rfl, rfl⟩ (.complete _ .callUnlessExiting _ rfl)) <|
  .head (.scriptEnds ⟨rfl, rfl⟩) <|
  .head (.act 0 (.complete .closeScope) _ _ rfl ⟨rfl, rfl⟩ (.complete _ .closeScope _ rfl)) <|
  .head (.act 0 (.complete .finishTeardown) _ _ rfl ⟨rfl, rfl⟩ (.complete _ .finishTeardown _ rfl)) <|
  .single (.act 0 .leave _ _ rfl ⟨rfl, rfl⟩ (.leave _ rfl))

theorem early_trim_life_cycle : LifeCycle earlyTrim ∧ earlyTrim.worker = .exited := by
  obtain ⟨lives, finished, _⟩ := requests_keep_life_cycle _ early_completed
  refine ⟨lives earlyTrim (.head _), ?_⟩
  have ended := finished (fun request member _ => by
    obtain rfl := List.mem_singleton.mp member
    exact .tail _ (.head _)) earlyTrim (.head _)
  exact ended.resolve_left fun idle => by cases idle

end FsExt.Async
