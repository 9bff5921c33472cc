import Mathlib.Data.List.Basic

set_option autoImplicit false

namespace Sys

section
variable {ε : Type}

def Lawful (permitted : List ε → ε → Prop) : List ε → Prop
  | [] => True
  | event :: before => permitted before event ∧ Lawful permitted before

theorem lawful_at (permitted : List ε → ε → Prop) (after before : List ε) (event : ε)
    (lawful : Lawful permitted (after ++ event :: before)) : permitted before event := by
  induction after with
  | nil => exact lawful.1
  | cons _ after ih => exact ih lawful.2

theorem lawful_once (permitted : List ε → ε → Prop) (kind : ε → Bool) (history : List ε)
    (once : ∀ before event, permitted before event → kind event = true → ∀ earlier ∈ before, kind earlier = false)
    (lawful : Lawful permitted history) : history.countP kind ≤ 1 := by
  induction history with
  | nil => exact Nat.zero_le 1
  | cons event before ih =>
      by_cases counts : kind event = true
      · have none_ : before.countP kind = 0 :=
          List.countP_eq_zero.mpr fun earlier member => by simp [once before event lawful.1 counts earlier member]
        have one : (event :: before).countP kind = 1 := by rw [List.countP_cons, none_, if_pos counts]
        exact Nat.le_of_eq one
      · rw [List.countP_cons, if_neg counts]
        exact ih lawful.2

end

end Sys
