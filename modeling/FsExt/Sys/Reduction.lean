import FsExt.Sys.Pool

set_option autoImplicit false

namespace Sys

namespace Program

section
variable {Op : Type} {Answer : Op → Type} {α σ : Type}

def owned {ι : Type} (i : ι) : Program Op Answer α → Program (ι × Op) (fun call => Answer call.2) α
  | .ret value => .ret value
  | .call op next => .call (i, op) fun answer => owned i (next answer)

def Asks (allowed : Op → Prop) : Program Op Answer α → Prop
  | .ret _ => True
  | .call op next => allowed op ∧ ∀ answer, Asks allowed (next answer)

structure Commute (handler : Handler Op Answer σ) (op op' : Op) (world : σ) : Prop where
  later : (handler op (handler op' world).2).1 = (handler op world).1
  sooner : (handler op' (handler op world).2).1 = (handler op' world).1
  world : (handler op' (handler op world).2).2 = (handler op (handler op' world).2).2

structure Slides (handler : Handler Op Answer σ) (op : Op) (program : Program Op Answer α) (world : σ) : Prop where
  answer : (handler op (run handler program world).2).1 = (handler op world).1
  result : (run handler program (handler op world).2).1 = (run handler program world).1
  world : (run handler program (handler op world).2).2 = (handler op (run handler program world).2).2

theorem slides_program (handler : Handler Op Answer σ) (op : Op) (allowed : Op → Prop) (safe : σ → Prop)
    (step : ∀ op' world, allowed op' → safe world → Commute handler op op' world ∧ safe (handler op' world).2)
    (program : Program Op Answer α) (asks : Asks allowed program) (world : σ) (holds : safe world) :
    Slides handler op program world ∧ safe (run handler program world).2 := by
  induction program generalizing world with
  | ret value => exact ⟨⟨rfl, rfl, rfl⟩, holds⟩
  | call op' next ih =>
      obtain ⟨commute, kept⟩ := step op' world asks.1 holds
      obtain ⟨slides, safe_⟩ := ih _ (asks.2 _) _ kept
      refine ⟨⟨?_, ?_, ?_⟩, safe_⟩
      · rw [run_call, slides.answer, commute.later]
      · rw [run_call, run_call, commute.sooner, commute.world, slides.result]
      · rw [run_call, run_call, commute.sooner, commute.world, slides.world]

end

end Program

namespace Pool

section
variable {ι Op : Type} {Answer : Op → Type} {α σ : Type} (handler : Program.Handler Op Answer σ)

def runAll (threads : ι → Program Op Answer α) : List ι → σ → List α × σ
  | [], world => ([], world)
  | i :: order, world =>
      let first := (threads i).run handler world
      let rest := runAll threads order first.2
      (first.1 :: rest.1, rest.2)

theorem run_all_append (threads : ι → Program Op Answer α) (before after : List ι) (world : σ) :
    runAll handler threads (before ++ after) world =
      ((runAll handler threads before world).1 ++ (runAll handler threads after (runAll handler threads before world).2).1,
        (runAll handler threads after (runAll handler threads before world).2).2) := by
  induction before generalizing world with
  | nil => rfl
  | cons i before ih => simp only [List.cons_append, runAll, ih]

theorem run_all_congr (threads threads' : ι → Program Op Answer α) (order : List ι) (world : σ)
    (same : ∀ i ∈ order, threads i = threads' i) :
    runAll handler threads order world = runAll handler threads' order world := by
  induction order generalizing world with
  | nil => rfl
  | cons i order ih =>
      simp only [runAll, same i (.head _), ih _ fun j member => same j (.tail _ member)]

theorem run_all_returned (threads : ι → Program Op Answer α) (result : ι → α) (order : List ι) (world : σ)
    (returned : ∀ i, threads i = .ret (result i)) : runAll handler threads order world = (order.map result, world) := by
  induction order generalizing world with
  | nil => rfl
  | cons i order ih => simp only [runAll, returned i, Program.run_ret, ih, List.map_cons]

theorem slides_all (op : Op) (safe : σ → Prop) (threads : ι → Program Op Answer α) (order : List ι)
    (slides : ∀ j ∈ order, ∀ world, safe world →
      Program.Slides handler op (threads j) world ∧ safe ((threads j).run handler world).2)
    (world : σ) (holds : safe world) :
    (handler op (runAll handler threads order world).2).1 = (handler op world).1 ∧
      runAll handler threads order (handler op world).2 =
        ((runAll handler threads order world).1, (handler op (runAll handler threads order world).2).2) := by
  induction order generalizing world with
  | nil => exact ⟨rfl, rfl⟩
  | cons j order ih =>
      obtain ⟨here, kept⟩ := slides j (.head _) world holds
      obtain ⟨answer, rest⟩ := ih (fun i member => slides i (.tail _ member)) _ kept
      refine ⟨?_, ?_⟩
      · rw [runAll, answer, here.answer]
      · simp only [runAll, here.result, here.world, rest]

end

section
variable {ι Op : Type} {Answer : Op → Type} {α σ : Type} (handler : Program.Handler Op Answer σ)

-- `order` lists the threads that have made a call, by their first one. To finish
-- them now, one after the other, ends as it would have if each had run alone.
structure Serial (programs : ι → Program Op Answer α) (start : σ) (order : List ι) (pool : Pool ι Op Answer α σ) :
    Prop where
  once : order.Nodup
  fresh : ∀ i, i ∉ order → pool.threads i = programs i
  same : runAll handler pool.threads order pool.world = runAll handler programs order start

theorem serial_start (programs : ι → Program Op Answer α) (start : σ) :
    Serial handler programs start [] ⟨programs, start⟩ :=
  ⟨List.nodup_nil, fun _ _ => rfl, rfl⟩

theorem serial_returned (programs : ι → Program Op Answer α) (start : σ) (order : List ι) (pool : Pool ι Op Answer α σ)
    (result : ι → α) (serial : Serial handler programs start order pool)
    (returned : ∀ i, pool.threads i = .ret (result i)) :
    runAll handler programs order start = (order.map result, pool.world) := by
  rw [← serial.same, run_all_returned handler pool.threads result order pool.world returned]

theorem serial_idle (programs : ι → Program Op Answer α) (start : σ) (order idle : List ι)
    (pool : Pool ι Op Answer α σ) (result : ι → α) (serial : Serial handler programs start order pool)
    (returned : ∀ i, pool.threads i = .ret (result i)) (apart : ∀ i ∈ idle, i ∉ order) :
    runAll handler programs (order ++ idle) start = ((order ++ idle).map result, pool.world) := by
  have rest : runAll handler programs idle pool.world = runAll handler pool.threads idle pool.world :=
    run_all_congr handler _ _ idle _ fun i member => (serial.fresh i (apart i member)).symm
  rw [run_all_append, serial_returned handler programs start order pool result serial returned, rest,
    run_all_returned handler pool.threads result idle pool.world returned, List.map_append]

end

section
variable {ι Op : Type} {Answer : Op → Type} {α σ : Type} [DecidableEq ι] (handler : Program.Handler Op Answer σ)
  {programs : ι → Program Op Answer α} {start : σ} {order : List ι} {pool : Pool ι Op Answer α σ}
  (i : ι) (op : Op) (next : Answer op → Program Op Answer α) (safe : σ → Prop)

theorem serial_first (serial : Serial handler programs start order pool) (new : i ∉ order)
    (calls : pool.threads i = .call op next) (holds : safe pool.world)
    (slides : ∀ j ∈ order, ∀ world, safe world →
      Program.Slides handler op (pool.threads j) world ∧ safe ((pool.threads j).run handler world).2) :
    Serial handler programs start (order ++ [i]) (pool.act handler i) := by
  rw [act_call handler pool i op next calls _ _ rfl]
  refine ⟨?_, ?_, ?_⟩
  · exact List.nodup_append.mpr ⟨serial.once, List.pairwise_singleton _ i, fun j member k here same => new
      (List.mem_singleton.mp here ▸ same ▸ member)⟩
  · intro j outside
    rw [List.mem_append, List.mem_singleton, not_or] at outside
    simp only [Function.update_of_ne outside.2]
    exact serial.fresh j outside.1
  · have others : ∀ j ∈ order, Function.update pool.threads i (next (handler op pool.world).1) j = pool.threads j :=
      fun j member => Function.update_of_ne (fun same : j = i => new (same ▸ member)) _ _
    obtain ⟨answer, moved⟩ := slides_all handler op safe pool.threads order slides pool.world holds
    have whole : programs i = .call op next := by rw [← serial.fresh i new, calls]
    simp only [run_all_append, run_all_congr handler _ _ order _ others, moved, ← serial.same, runAll,
      Function.update_self, whole, Program.run_call, answer]

theorem serial_next (serial : Serial handler programs start order pool) (old : i ∈ order)
    (calls : pool.threads i = .call op next) (holds : safe pool.world)
    (slides : ∀ j ∈ order, j ≠ i → ∀ world, safe world →
      Program.Slides handler op (pool.threads j) world ∧ safe ((pool.threads j).run handler world).2) :
    Serial handler programs start order (pool.act handler i) := by
  rw [act_call handler pool i op next calls _ _ rfl]
  refine ⟨serial.once, ?_, ?_⟩
  · intro j outside
    have different : j ≠ i := fun same => outside (same ▸ old)
    simp only [Function.update_of_ne different]
    exact serial.fresh j outside
  · obtain ⟨before, after, rfl⟩ := List.append_of_mem old
    obtain ⟨_, _, apart⟩ := List.nodup_append.mp serial.once
    have behind : i ∉ after := (List.nodup_cons.mp (List.nodup_append.mp serial.once).2.1).1
    have first : ∀ j ∈ before, j ≠ i := fun j member => apart j member i (.head _)
    have others : ∀ j, j ≠ i → Function.update pool.threads i (next (handler op pool.world).1) j = pool.threads j :=
      fun j different => Function.update_of_ne different _ _
    obtain ⟨answer, moved⟩ := slides_all handler op safe pool.threads before
      (fun j member => slides j (List.mem_append_left _ member) (first j member)) pool.world holds
    rw [← serial.same]
    simp only [run_all_append, run_all_congr handler _ _ before _ fun j member => others j (first j member), moved,
      runAll, Function.update_self, calls, Program.run_call, answer,
      run_all_congr handler _ _ after _ fun j member => others j fun same => behind (same ▸ member)]

end

end Pool

end Sys
