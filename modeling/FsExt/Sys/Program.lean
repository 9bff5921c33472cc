import Mathlib.Logic.Function.Basic
import Mathlib.Logic.Relation

set_option autoImplicit false

namespace Sys

-- A program is what one thread still has to do: return, or ask the operating
-- system for `op` and continue with its answer. What an answer may be is left
-- to the semantics a theorem picks, so one program serves the sequential runs,
-- the runs with interference and the pools of threads below.
inductive Program (Op : Type) (Answer : Op → Type) (α : Type) where
  | ret (value : α)
  | call (op : Op) (next : Answer op → Program Op Answer α)

namespace Program

section
variable {Op : Type} {Answer : Op → Type} {α β γ : Type}

def bind : Program Op Answer α → (α → Program Op Answer β) → Program Op Answer β
  | .ret value, rest => rest value
  | .call op next, rest => .call op fun answer => bind (next answer) rest

def perform (op : Op) : Program Op Answer (Answer op) := .call op .ret

instance : Monad (Program Op Answer) where
  pure := .ret
  bind := bind

@[simp] theorem pure_eq_ret (value : α) : (pure value : Program Op Answer α) = .ret value := rfl

@[simp] theorem call_bind (op : Op) (next : Answer op → Program Op Answer α) (rest : α → Program Op Answer β) :
    (Program.call op next >>= rest) = .call op fun answer => next answer >>= rest := rfl

theorem bind_bind (program : Program Op Answer α) (rest : α → Program Op Answer β) (last : β → Program Op Answer γ) :
    (program >>= rest >>= last) = (program >>= fun value => rest value >>= last) := by
  induction program with
  | ret value => rfl
  | call op next ih => exact congrArg (Program.call op) (funext ih)

theorem bind_taken (program : Program Op Answer α) (fill : α → β) (take : β → α)
    (same : ∀ value, take (fill value) = value) :
    ((program >>= fun value => .ret (fill value)) >>= fun filled => .ret (take filled)) = program := by
  induction program with
  | ret value => exact congrArg Program.ret (same value)
  | call op next ih => exact congrArg (Program.call op) (funext ih)

def through {Op' : Type} {Answer' : Op' → Type} (inject : Op → Op') (read : (op : Op) → Answer' (inject op) → Answer op) :
    Program Op Answer α → Program Op' Answer' α
  | .ret value => .ret value
  | .call op next => .call (inject op) fun answer => through inject read (next (read op answer))

def interp {Op' : Type} {Answer' : Op' → Type} (implement : (op : Op) → Program Op' Answer' (Answer op)) :
    Program Op Answer α → Program Op' Answer' α
  | .ret value => .ret value
  | .call op next => implement op >>= fun answer => interp implement (next answer)

theorem bind_ret (program : Program Op Answer α) : (program >>= fun value => .ret value) = program := by
  induction program with
  | ret value => rfl
  | call op next ih => exact congrArg (Program.call op) (funext ih)

@[simp] theorem perform_bind (op : Op) (rest : Answer op → Program Op Answer β) :
    ((perform op : Program Op Answer (Answer op)) >>= rest) = .call op rest := rfl

end

section
variable {Op : Type} {Answer : Op → Type} {α β σ : Type}

abbrev Handler (Op : Type) (Answer : Op → Type) (σ : Type) := (op : Op) → σ → Answer op × σ

def run (handler : Handler Op Answer σ) : Program Op Answer α → σ → α × σ
  | .ret value, world => (value, world)
  | .call op next, world => run handler (next (handler op world).1) (handler op world).2

@[simp] theorem run_ret (handler : Handler Op Answer σ) (value : α) (world : σ) :
    run handler (.ret value) world = (value, world) := rfl

@[simp] theorem run_call (handler : Handler Op Answer σ) (op : Op) (next : Answer op → Program Op Answer α)
    (world : σ) :
    run handler (.call op next) world = run handler (next (handler op world).1) (handler op world).2 := rfl

theorem run_step (handler : Handler Op Answer σ) (op : Op) (next : Answer op → Program Op Answer α) (world world' : σ)
    (answer : Answer op) (result : α × σ) (handled : handler op world = (answer, world'))
    (rest : run handler (next answer) world' = result) : run handler (.call op next) world = result := by
  rw [run_call, handled]
  exact rest

theorem run_bind (handler : Handler Op Answer σ) (program : Program Op Answer α)
    (rest : α → Program Op Answer β) (world : σ) :
    run handler (program >>= rest) world =
      run handler (rest (run handler program world).1) (run handler program world).2 := by
  induction program generalizing world with
  | ret value => rfl
  | call op next ih => exact ih _ _

def replay (answers : Nat → (op : Op) → Answer op) : Nat → Program Op Answer α → List Op × α
  | _, .ret value => ([], value)
  | n, .call op next =>
      let rest := replay answers (n + 1) (next (answers n op))
      (op :: rest.1, rest.2)

theorem replay_map (answers : Nat → (op : Op) → Answer op) (program : Program Op Answer α) (pack : α → β) (n : Nat) :
    replay answers n (program >>= fun value => .ret (pack value)) =
      ((replay answers n program).1, pack (replay answers n program).2) := by
  induction program generalizing n with
  | ret value => rfl
  | call op next ih =>
      rw [call_bind, replay, ih]
      rfl

-- A semantics relates a call and the world before it to every answer the
-- system may give and the world it leaves. No related answer: the call blocks.
abbrev Semantics (Op : Type) (Answer : Op → Type) (σ : Type) :=
  (op : Op) → σ → Answer op → σ → Prop

def Ensures (sem : Semantics Op Answer σ) (inv : Op → σ → Prop) :
    Program Op Answer α → σ → (α → σ → Prop) → Prop
  | .ret value, world, post => post value world
  | .call op next, world, post =>
      inv op world ∧ ∀ answer world', sem op world answer world' → Ensures sem inv (next answer) world' post

@[simp] theorem ensures_ret (sem : Semantics Op Answer σ) (inv : Op → σ → Prop) (value : α) (world : σ)
    (post : α → σ → Prop) : Ensures sem inv (.ret value) world post ↔ post value world := Iff.rfl

theorem ensures_call (sem : Semantics Op Answer σ) (inv : Op → σ → Prop) (op : Op)
    (next : Answer op → Program Op Answer α) (world : σ) (post : α → σ → Prop) :
    Ensures sem inv (.call op next) world post ↔
      inv op world ∧ ∀ answer world', sem op world answer world' →
        Ensures sem inv (next answer) world' post := Iff.rfl

theorem ensures_bind (sem : Semantics Op Answer σ) (inv : Op → σ → Prop) (program : Program Op Answer α)
    (rest : α → Program Op Answer β) (world : σ) (post : β → σ → Prop) :
    Ensures sem inv (program >>= rest) world post ↔
      Ensures sem inv program world (fun value world' => Ensures sem inv (rest value) world' post) := by
  induction program generalizing world with
  | ret value => exact Iff.rfl
  | call op next ih => simp only [call_bind, ensures_call, ih]

theorem ensures_mono (sem : Semantics Op Answer σ) (inv inv' : Op → σ → Prop) (program : Program Op Answer α)
    (world : σ) (post post' : α → σ → Prop) (weakerInv : ∀ op world', inv op world' → inv' op world')
    (weakerPost : ∀ value world', post value world' → post' value world')
    (ensured : Ensures sem inv program world post) : Ensures sem inv' program world post' := by
  induction program generalizing world with
  | ret value => exact weakerPost value world ensured
  | call op next ih =>
      exact ⟨weakerInv op world ensured.1, fun answer world' step => ih answer world' (ensured.2 answer world' step)⟩

def Preserves (sem : Semantics Op Answer σ) (safe : σ → Prop) (program : Program Op Answer α) : Prop :=
  ∀ world, safe world → Ensures sem (fun _ => safe) program world fun _ => safe

theorem preserves_ret (sem : Semantics Op Answer σ) (safe : σ → Prop) (value : α) :
    Preserves sem safe (.ret value : Program Op Answer α) := fun _ holds => holds

theorem preserves_call (sem : Semantics Op Answer σ) (safe : σ → Prop) (op : Op)
    (next : Answer op → Program Op Answer α)
    (keeps : ∀ world answer world', safe world → sem op world answer world' → safe world')
    (rest : ∀ answer, Preserves sem safe (next answer)) : Preserves sem safe (.call op next) := fun world holds =>
  ⟨holds, fun answer world' step => rest answer world' (keeps world answer world' holds step)⟩

theorem preserves_bind (sem : Semantics Op Answer σ) (safe : σ → Prop) (program : Program Op Answer α)
    (rest : α → Program Op Answer β) (first : Preserves sem safe program)
    (second : ∀ value, Preserves sem safe (rest value)) : Preserves sem safe (program >>= rest) := by
  intro world holds
  rw [ensures_bind]
  exact ensures_mono sem _ _ program world _ _ (fun _ _ here => here) second (first world holds)

-- A run of one thread while others act: between two of its calls the world may
-- change by `other` any number of times. `asked` lists the worlds its calls met,
-- `seen` all the worlds it passed.
inductive Runs (sem : Semantics Op Answer σ) (other : σ → σ → Prop) :
    σ → Program Op Answer α → List σ → List σ → α → σ → Prop where
  | ret (world : σ) (value : α) : Runs sem other world (.ret value) [] [world] value world
  | other (world world' : σ) (program : Program Op Answer α) (asked seen : List σ) (value : α) (final : σ)
      (step : other world world') (rest : Runs sem other world' program asked seen value final) :
      Runs sem other world program asked (world :: seen) value final
  | call (world world' : σ) (op : Op) (next : Answer op → Program Op Answer α) (answer : Answer op)
      (asked seen : List σ) (value : α) (final : σ) (step : sem op world answer world')
      (rest : Runs sem other world' (next answer) asked seen value final) :
      Runs sem other world (.call op next) (world :: asked) (world :: seen) value final

theorem runs_ret (sem : Semantics Op Answer σ) (other : σ → σ → Prop) (start : σ) (value result : α)
    (asked seen : List σ) (final : σ) (runs : Runs sem other start (.ret value) asked seen result final) :
    result = value ∧ asked = [] := by
  generalize made : (Program.ret value : Program Op Answer α) = program at runs
  induction runs with
  | ret world value' => cases made; exact ⟨rfl, rfl⟩
  | other _ _ _ _ _ _ _ _ _ ih => exact ih made
  | call => cases made

theorem runs_call_kept (sem : Semantics Op Answer σ) (other : σ → σ → Prop) (kept : σ → Prop) (start : σ) (op : Op)
    (next : Answer op → Program Op Answer α) (asked seen : List σ) (result : α) (final : σ)
    (others : ∀ world world', other world world' → kept world → kept world') (holds : kept start)
    (runs : Runs sem other start (.call op next) asked seen result final) :
    ∃ met answer met' asked' seen', kept met ∧ asked = met :: asked' ∧ met ∈ seen ∧ seen' ⊆ seen ∧
      sem op met answer met' ∧ Runs sem other met' (next answer) asked' seen' result final := by
  generalize made : Program.call op next = program at runs
  induction runs with
  | ret => cases made
  | other world world' _ _ _ _ _ step _ ih =>
      obtain ⟨met, answer, met', asked', seen', held, rfl, member, subset, rest⟩ := ih (others world world' step holds) made
      exact ⟨met, answer, met', asked', seen', held, rfl, .tail _ member, fun _ inside => .tail _ (subset inside), rest⟩
  | call world world' op' next' answer asked seen value final step rest =>
      cases made
      exact ⟨world, answer, world', asked, seen, holds, rfl, .head _, fun _ inside => .tail _ inside, step, rest⟩

theorem runs_call (sem : Semantics Op Answer σ) (other : σ → σ → Prop) (start : σ) (op : Op)
    (next : Answer op → Program Op Answer α) (asked seen : List σ) (result : α) (final : σ)
    (runs : Runs sem other start (.call op next) asked seen result final) :
    ∃ met answer met' asked' seen', asked = met :: asked' ∧ met ∈ seen ∧ seen' ⊆ seen ∧
      sem op met answer met' ∧ Runs sem other met' (next answer) asked' seen' result final := by
  obtain ⟨met, answer, met', asked', seen', _, rest⟩ :=
    runs_call_kept sem other (fun _ => True) start op next asked seen result final (fun _ _ _ _ => trivial) trivial runs
  exact ⟨met, answer, met', asked', seen', rest⟩

theorem runs_map (sem : Semantics Op Answer σ) (other : σ → σ → Prop) (start : σ) (program : Program Op Answer α)
    (pack : α → β) (asked seen : List σ) (result : β) (final : σ) :
    Runs sem other start (program >>= fun value => .ret (pack value)) asked seen result final ↔
      ∃ value, result = pack value ∧ Runs sem other start program asked seen value final := by
  constructor
  · intro runs
    generalize made : (program >>= fun value => .ret (pack value)) = whole at runs
    induction runs generalizing program with
    | ret world result =>
        cases program with
        | ret value =>
            cases made
            exact ⟨value, rfl, .ret world value⟩
        | call op next => cases made
    | other world world' _ asked seen result final step _ ih =>
        obtain ⟨value, packed, rest⟩ := ih program made
        exact ⟨value, packed, .other _ _ _ _ _ _ _ step rest⟩
    | call world world' op next answer asked seen result final step _ ih =>
        cases program with
        | ret value => cases made
        | call op' next' =>
            cases made
            obtain ⟨value, packed, rest⟩ := ih (next' answer) rfl
            exact ⟨value, packed, .call _ _ _ _ _ _ _ _ _ step rest⟩
  · rintro ⟨value, rfl, runs⟩
    induction runs with
    | ret world value => exact .ret world (pack value)
    | other _ _ _ _ _ _ _ step _ ih => exact .other _ _ _ _ _ _ _ step ih
    | call _ _ _ _ _ _ _ _ _ step _ ih => exact .call _ _ _ _ _ _ _ _ _ step ih

theorem runs_after (sem : Semantics Op Answer σ) (other : σ → σ → Prop) (kept : σ → Prop) (start met : σ)
    (program : Program Op Answer α) (asked seen : List σ) (value : α) (final : σ)
    (path : Relation.ReflTransGen (fun world world' => other world world' ∧ kept world) start met)
    (runs : Runs sem other met program asked seen value final) (later : ∀ world ∈ seen, kept world) :
    ∃ seen', Runs sem other start program asked seen' value final ∧ ∀ world ∈ seen', kept world := by
  induction path using Relation.ReflTransGen.head_induction_on with
  | refl => exact ⟨seen, runs, later⟩
  | head step _ ih =>
      obtain ⟨seen', rest, all⟩ := ih
      exact ⟨_, .other _ _ _ _ _ _ _ step.1 rest, List.forall_mem_cons.mpr ⟨step.2, all⟩⟩

theorem runs_then (sem : Semantics Op Answer σ) (other : σ → σ → Prop) (start mid final : σ)
    (program : Program Op Answer α) (rest : α → Program Op Answer β) (asked asked' seen seen' : List σ) (value : α)
    (result : β) (first : Runs sem other start program asked seen value mid)
    (second : Runs sem other mid (rest value) asked' seen' result final) :
    ∃ seen'', Runs sem other start (program >>= rest) (asked ++ asked') seen'' result final := by
  induction first with
  | ret world value => exact ⟨seen', second⟩
  | other _ _ _ _ _ _ _ step _ ih =>
      obtain ⟨seen'', later⟩ := ih second
      exact ⟨_, .other _ _ _ _ _ _ _ step later⟩
  | call _ _ _ _ _ _ _ _ _ step _ ih =>
      obtain ⟨seen'', later⟩ := ih second
      exact ⟨_, .call _ _ _ _ _ _ _ _ _ step later⟩

theorem runs_ret_kept (sem : Semantics Op Answer σ) (other : σ → σ → Prop) (kept : σ → Prop) (start : σ)
    (value result : α) (asked seen : List σ) (final : σ)
    (others : ∀ world world', other world world' → kept world → kept world') (holds : kept start)
    (runs : Runs sem other start (.ret value) asked seen result final) : kept final := by
  generalize made : (Program.ret value : Program Op Answer α) = program at runs
  induction runs with
  | ret => exact holds
  | other world world' _ _ _ _ _ step _ ih => exact ih (others world world' step holds) made
  | call => cases made

theorem runs_mono (sem sem' : Semantics Op Answer σ) (other : σ → σ → Prop) (start : σ) (program : Program Op Answer α)
    (asked seen : List σ) (value : α) (final : σ)
    (weaker : ∀ op world answer world', sem op world answer world' → sem' op world answer world')
    (runs : Runs sem other start program asked seen value final) : Runs sem' other start program asked seen value final := by
  induction runs with
  | ret world value => exact .ret world value
  | other _ _ _ _ _ _ _ step _ ih => exact .other _ _ _ _ _ _ _ step ih
  | call _ _ _ _ _ _ _ _ _ step _ ih => exact .call _ _ _ _ _ _ _ _ _ (weaker _ _ _ _ step) ih

def Yields (sem : Semantics Op Answer σ) (other : σ → σ → Prop) (world : σ) (program : Program Op Answer α)
    (result : α) : Prop := ∃ asked seen final, Runs sem other world program asked seen result final

def Blind (sem : Semantics Op Answer σ) (same : σ → σ → Prop) : Program Op Answer α → Prop
  | .ret _ => True
  | .call op next => ∀ world world' answer after, same world world' → sem op world answer after →
      (∃ after', sem op world' answer after' ∧ same after after') ∧ Blind sem same (next answer)

theorem blind_yields (sem : Semantics Op Answer σ) (other same : σ → σ → Prop) (world world' : σ)
    (program : Program Op Answer α) (result : α) (blind : Blind sem same program)
    (others : ∀ world world' after, same world world' → other world after →
      ∃ after', Relation.ReflTransGen other world' after' ∧ same after after')
    (alike : same world world') (yields : Yields sem other world program result) :
    Yields sem other world' program result := by
  obtain ⟨asked, seen, final, runs⟩ := yields
  induction runs generalizing world' with
  | ret world value => exact ⟨_, _, _, .ret world' value⟩
  | other world after program asked seen value final step _ ih =>
      obtain ⟨after', path, alike'⟩ := others world world' after alike step
      obtain ⟨asked', seen', final', rest⟩ := ih after' blind alike'
      obtain ⟨seen'', whole, _⟩ := runs_after sem other (fun _ => True) world' after' program asked' seen' value final'
        (path.lift id fun _ _ step => ⟨step, trivial⟩) rest fun _ _ => trivial
      exact ⟨_, _, _, whole⟩
  | call world after op next answer asked seen value final step _ ih =>
      obtain ⟨⟨after', step', alike'⟩, later⟩ := blind world world' answer after alike step
      obtain ⟨asked', seen', final', rest⟩ := ih after' later alike'
      exact ⟨_, _, _, .call _ _ _ _ _ _ _ _ _ step' rest⟩

end

section
variable {Op : Type} {Answer : Op → Type} {σ ε : Type} (verdict : (op : Op) → Answer op → Except ε Unit)

def onSuccess (rest : Program Op Answer (Except ε Unit)) : Except ε Unit → Program Op Answer (Except ε Unit)
  | .error err => .ret (.error err)
  | .ok () => rest

def inOrder : List Op → Program Op Answer (Except ε Unit)
  | [] => .ret (.ok ())
  | op :: rest => .call op fun answer => onSuccess (inOrder rest) (verdict op answer)

theorem in_order_append (front rest : List Op) :
    inOrder verdict (front ++ rest) = (inOrder verdict front >>= onSuccess (inOrder verdict rest)) := by
  induction front with
  | nil => rfl
  | cons op front ih =>
      rw [List.cons_append, inOrder, inOrder, call_bind, ih]
      refine congrArg (Program.call op) (funext fun answer => ?_)
      cases verdict op answer with
      | error err => rfl
      | ok done => rfl

theorem run_in_order_ok (handler : Handler Op Answer σ) (front rest : List Op) (world world' : σ)
    (done : run handler (inOrder verdict front) world = (.ok (), world')) :
    run handler (inOrder verdict (front ++ rest)) world = run handler (inOrder verdict rest) world' := by
  rw [in_order_append, run_bind, done, onSuccess]

theorem run_in_order_error (handler : Handler Op Answer σ) (front rest : List Op) (world world' : σ) (err : ε)
    (failed : run handler (inOrder verdict front) world = (.error err, world')) :
    run handler (inOrder verdict (front ++ rest)) world = (.error err, world') := by
  rw [in_order_append, run_bind, failed, onSuccess, run_ret]

theorem run_in_order_one (handler : Handler Op Answer σ) (op : Op) (world : σ) :
    run handler (inOrder verdict [op]) world = (verdict op (handler op world).1, (handler op world).2) := by
  rw [inOrder, run_call]
  cases verdict op (handler op world).1 with
  | error err => rfl
  | ok done => rfl

theorem replay_in_order (answers : Nat → (op : Op) → Answer op) (ops : List Op) (n : Nat)
    (succeed : ∀ n op, verdict op (answers n op) = .ok ()) :
    replay answers n (inOrder verdict ops) = (ops, .ok ()) := by
  induction ops generalizing n with
  | nil => rfl
  | cons op rest ih => rw [inOrder, replay, succeed, onSuccess, ih]

end

end Program

end Sys
