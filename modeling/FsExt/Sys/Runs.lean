import Mathlib.Data.List.Basic
import Mathlib.Logic.Function.Basic
import Mathlib.Logic.Relation

set_option autoImplicit false

namespace Sys

theorem simulated {A B : Type} (step : A → A → Prop) (step' : B → B → Prop) (related : A → B → Prop)
    (answers : ∀ now after other, related now other → step now after →
      ∃ other', Relation.ReflTransGen step' other other' ∧ related after other')
    (start : A) (start' : B) (first : related start start') (state : A) (run : Relation.ReflTransGen step start state) :
    ∃ state', Relation.ReflTransGen step' start' state' ∧ related state state' := by
  induction run with
  | refl => exact ⟨start', .refl, first⟩
  | tail _ last ih =>
      obtain ⟨other, reached, same⟩ := ih
      obtain ⟨other', more, same'⟩ := answers _ _ other same last
      exact ⟨other', reached.trans more, same'⟩

theorem related_update {D A B A' B' : Type} [DecidableEq D] (related : A → B → A' → B' → Prop) (table : D → A)
    (party : D → B) (table' : D → A') (party' : D → B') (all : ∀ d, related (table d) (party d) (table' d) (party' d))
    (d : D) (own : A) (mine : B) (own' : A') (mine' : B') (here : related own mine own' mine') (e : D) :
    related (Function.update table d own e) (Function.update party d mine e) (Function.update table' d own' e)
      (Function.update party' d mine' e) := by
  by_cases same : e = d
  · subst e
    simp only [Function.update_self]
    exact here
  · simp only [Function.update_of_ne same]
    exact all e

section
variable {A : Type} (step : A → A → Prop) (good settled : A → Prop) (left : A → Nat)

theorem settles (keeps : ∀ now after, good now → step now after → good after)
    (drops : ∀ now after, good now → step now after → left after < left now)
    (moves : ∀ now, good now → ¬ settled now → ∃ after, step now after) (start : A) (holds : good start) :
    ∃ last, Relation.ReflTransGen step start last ∧ good last ∧ settled last := by
  generalize bound : left start = n
  induction n using Nat.strongRecOn generalizing start with
  | ind n ih =>
      by_cases done : settled start
      · exact ⟨start, .refl, holds, done⟩
      · obtain ⟨after, first⟩ := moves start holds done
        have less := drops start after holds first
        obtain ⟨last, run, rest⟩ := ih (left after) (bound ▸ less) after (keeps start after holds first) rfl
        exact ⟨last, .head first run, rest⟩

theorem run_bounded (keeps : ∀ now after, good now → step now after → good after)
    (drops : ∀ now after, good now → step now after → left after < left now) (run : List A) (start : A)
    (holds : good start) (chain : List.IsChain step (start :: run)) : run.length ≤ left start := by
  induction run generalizing start with
  | nil => exact Nat.zero_le _
  | cons after rest ih =>
      obtain ⟨first, later⟩ := List.isChain_cons_cons.mp chain
      have less := drops start after holds first
      have short := ih after (keeps start after holds first) later
      rw [List.length_cons]
      omega

end

end Sys
