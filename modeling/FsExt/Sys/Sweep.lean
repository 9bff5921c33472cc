import FsExt.Sys.Extent
import FsExt.Sys.Pool

set_option autoImplicit false

namespace Sys

section
variable {Op : Type} {Answer : Op → Type} {α β : Type} (blank : β)

-- A program each of whose calls wipes one range of a file of the given size,
-- whatever the file holds, and that returns `result`.
inductive Sweeps (handler : Program.Handler Op Answer (List β)) (size : Nat) (result : α) :
    Program Op Answer α → List (Nat × Nat) → Prop where
  | ret : Sweeps handler size result (.ret result) []
  | call (op : Op) (next : Answer op → Program Op Answer α) (range : Nat × Nat) (rest : List (Nat × Nat))
      (answer : Answer op)
      (wipes : ∀ file, file.length = size → handler op file = (answer, wipe blank range.1 range.2 file))
      (later : Sweeps handler size result (next answer) rest) :
      Sweeps handler size result (.call op next) (range :: rest)

def Covered (ranges : List (Nat × Nat)) (i : Nat) : Prop := ∃ range ∈ ranges, range.1 ≤ i ∧ i < range.2

theorem covered_append (front rest : List (Nat × Nat)) (i : Nat) :
    Covered (front ++ rest) i ↔ Covered front i ∨ Covered rest i := by
  simp only [Covered, List.mem_append, or_and_right, exists_or]

theorem covered_cons (range : Nat × Nat) (rest : List (Nat × Nat)) (i : Nat) :
    Covered (range :: rest) i ↔ (range.1 ≤ i ∧ i < range.2) ∨ Covered rest i := by
  simp only [Covered, List.mem_cons, or_and_right, exists_or, exists_eq_left]

end

section
variable {ι Op : Type} {Answer : Op → Type} {α β : Type} (blank : β)
  (handler : Program.Handler Op Answer (List β)) (result : α) (ranges : ι → List (Nat × Nat)) (file : List β)

structure Swept (pool : Pool ι Op Answer α (List β)) : Prop where
  length : pool.world.length = file.length
  kept : ∀ j, content blank j pool.world = content blank j file ∨
    content blank j pool.world = blank ∧ ∃ i, Covered (ranges i) j
  threads : ∀ i, ∃ swept left, ranges i = swept ++ left ∧
    Sweeps blank handler file.length result (pool.threads i) left ∧
    ∀ j, Covered swept j → content blank j pool.world = blank

theorem swept_start (threads : ι → Program Op Answer α)
    (sweeps : ∀ i, Sweeps blank handler file.length result (threads i) (ranges i)) :
    Swept blank handler result ranges file ⟨threads, file⟩ where
  length := rfl
  kept _ := .inl rfl
  threads i := ⟨[], ranges i, rfl, sweeps i, fun _ covered => by obtain ⟨_, member, _⟩ := covered; cases member⟩

theorem swept_act [DecidableEq ι] (pool : Pool ι Op Answer α (List β)) (i : ι)
    (swept : Swept blank handler result ranges file pool) :
    Swept blank handler result ranges file (pool.act handler i) := by
  obtain ⟨done, left, split, sweeps, blanked⟩ := swept.threads i
  generalize at_ : pool.threads i = thread at sweeps
  cases sweeps with
  | ret =>
      rw [Pool.act_ret handler pool i result at_]
      exact swept
  | call op next range rest answer wipes later =>
      rw [Pool.act_call handler pool i op next at_ answer _ (wipes pool.world swept.length)]
      refine ⟨?_, fun j => ?_, fun e => ?_⟩
      · exact (wipe_length blank range.1 range.2 pool.world).trans swept.length
      · simp only [content_wipe]
        by_cases inside : range.1 ≤ j ∧ j < range.2
        · rw [if_pos inside]
          refine .inr ⟨rfl, i, ?_⟩
          rw [split, covered_append, covered_cons]
          exact .inr (.inl inside)
        · rw [if_neg inside]
          exact swept.kept j
      · -- what is blank stays blank, whoever wipes
        have stays : ∀ j, content blank j pool.world = blank →
            content blank j (wipe blank range.1 range.2 pool.world) = blank := by
          intro j was
          rw [content_wipe]
          split
          · rfl
          · exact was
        by_cases same : e = i
        · subst e
          simp only [Function.update_self]
          refine ⟨done ++ [range], rest, ?_, later, fun j covered => ?_⟩
          · rw [split, List.append_assoc, List.singleton_append]
          · rw [covered_append, covered_cons] at covered
            rcases covered with before | inside | none_
            · exact stays j (blanked j before)
            · rw [content_wipe, if_pos inside]
            · obtain ⟨_, member, _⟩ := none_
              cases member
        · simp only [Function.update_of_ne same]
          obtain ⟨done', left', split', sweeps', blanked'⟩ := swept.threads e
          exact ⟨done', left', split', sweeps', fun j covered => stays j (blanked' j covered)⟩

theorem swept_play [DecidableEq ι] (pool : Pool ι Op Answer α (List β)) (schedule : List ι)
    (swept : Swept blank handler result ranges file pool) :
    Swept blank handler result ranges file (pool.play handler schedule) := by
  induction schedule generalizing pool with
  | nil => exact swept
  | cons i rest ih => exact ih (pool.act handler i) (swept_act blank handler result ranges file pool i swept)

theorem swept_returned (pool : Pool ι Op Answer α (List β)) (i : ι) (value : α)
    (swept : Swept blank handler result ranges file pool) (returned : pool.threads i = .ret value) :
    value = result ∧ ∀ j, Covered (ranges i) j → content blank j pool.world = blank := by
  obtain ⟨done, left, split, sweeps, blanked⟩ := swept.threads i
  rw [returned] at sweeps
  cases sweeps with
  | ret =>
      rw [List.append_nil] at split
      rw [split]
      exact ⟨rfl, blanked⟩

theorem swept_content (pool : Pool ι Op Answer α (List β)) (swept : Swept blank handler result ranges file pool)
    (returned : ∀ i, ∃ value, pool.threads i = .ret value) (j : Nat) :
    ((∃ i, Covered (ranges i) j) → content blank j pool.world = blank) ∧
      ((¬ ∃ i, Covered (ranges i) j) → content blank j pool.world = content blank j file) := by
  constructor
  · rintro ⟨i, covered⟩
    obtain ⟨value, ended⟩ := returned i
    exact (swept_returned blank handler result ranges file pool i value swept ended).2 j covered
  · intro outside
    rcases swept.kept j with same | ⟨_, covered⟩
    · exact same
    · exact absurd covered outside

theorem same_content (left right : List β) (lengths : left.length = right.length)
    (same : ∀ j, content blank j left = content blank j right) : left = right := by
  refine List.ext_getElem? fun j => ?_
  by_cases bound : j < left.length
  · rw [content_some blank j left bound, content_some blank j right (lengths ▸ bound), same j]
  · rw [List.getElem?_eq_none (by omega), List.getElem?_eq_none (by omega)]

end

section
variable {ι Op Op' : Type} {Answer : Op → Type} {Answer' : Op' → Type} {α β : Type} (blank : β)

theorem swept_same (handler : Program.Handler Op Answer (List β)) (handler' : Program.Handler Op' Answer' (List β))
    (result : α) (ranges ranges' : ι → List (Nat × Nat)) (file : List β) (pool : Pool ι Op Answer α (List β))
    (pool' : Pool ι Op' Answer' α (List β)) (places : ∀ i j, Covered (ranges i) j ↔ Covered (ranges' i) j)
    (swept : Swept blank handler result ranges file pool) (swept' : Swept blank handler' result ranges' file pool')
    (returned : ∀ i, ∃ value, pool.threads i = .ret value) (returned' : ∀ i, ∃ value, pool'.threads i = .ret value) :
    pool.world = pool'.world := by
  refine same_content blank _ _ (swept.length.trans swept'.length.symm) fun j => ?_
  obtain ⟨inside, outside⟩ := swept_content blank handler result ranges file pool swept returned j
  obtain ⟨inside', outside'⟩ := swept_content blank handler' result ranges' file pool' swept' returned' j
  simp only [places] at inside outside
  by_cases covered : ∃ i, Covered (ranges' i) j
  · rw [inside covered, inside' covered]
  · rw [outside covered, outside' covered]

end

end Sys
