import FsExt.Sys.Program
import Mathlib.Data.List.Forall2

set_option autoImplicit false

namespace Sys

-- How the calls of a model show in those of a program that has calls of its own
-- besides: which call of the program stands for which of the model, which answers
-- to the two are the same, and what the program may be answered at all.
structure Pairing (Op : Type) (Answer : Op → Type) (Op' : Type) (Answer' : Op' → Type) where
  stands : Op → Op' → Prop
  agree : (op : Op) → (op' : Op') → Answer op → Answer' op' → Prop
  allowed : (op' : Op') → Answer' op' → Prop
  met : ∀ op op' answer', stands op op' → allowed op' answer' → ∃ answer, agree op op' answer answer'

namespace Pairing

section
variable {Op Op' : Type} {Answer : Op → Type} {Answer' : Op' → Type} {α β γ δ : Type}
  (pairing : Pairing Op Answer Op' Answer')

inductive Tracks (related : α → β → Prop) : Program Op Answer α → Program Op' Answer' β → Prop where
  | ret (value : α) (value' : β) (holds : related value value') : Tracks related (.ret value) (.ret value')
  | own (model : Program Op Answer α) (op' : Op') (next' : Answer' op' → Program Op' Answer' β)
      (after : ∀ answer', pairing.allowed op' answer' → Tracks related model (next' answer')) :
      Tracks related model (.call op' next')
  | both (op : Op) (op' : Op') (next : Answer op → Program Op Answer α) (next' : Answer' op' → Program Op' Answer' β)
      (stands : pairing.stands op op')
      (after : ∀ answer answer', pairing.agree op op' answer answer' → pairing.allowed op' answer' →
        Tracks related (next answer) (next' answer')) :
      Tracks related (.call op next) (.call op' next')

theorem tracks_bind (related : α → β → Prop) (related' : γ → δ → Prop) (model : Program Op Answer α)
    (program : Program Op' Answer' β) (rest : α → Program Op Answer γ) (rest' : β → Program Op' Answer' δ)
    (tracks : pairing.Tracks related model program)
    (after : ∀ value value', related value value' → pairing.Tracks related' (rest value) (rest' value')) :
    pairing.Tracks related' (model >>= rest) (program >>= rest') := by
  induction tracks with
  | ret value value' holds => exact after value value' holds
  | own model op' next' _ ih => exact .own _ op' _ fun answer' may => ih answer' may
  | both op op' next next' stands _ ih =>
      exact .both op op' _ _ stands fun answer answer' agree may => ih answer answer' agree may

end

end Pairing

inductive Traced {Op : Type} {Answer : Op → Type} {α : Type} (allowed : (op : Op) → Answer op → Prop) :
    Program Op Answer α → List ((op : Op) × Answer op) → α → Prop where
  | ret (value : α) : Traced allowed (.ret value) [] value
  | call (op : Op) (next : Answer op → Program Op Answer α) (answer : Answer op) (calls : List ((op : Op) × Answer op))
      (value : α) (may : allowed op answer) (rest : Traced allowed (next answer) calls value) :
      Traced allowed (.call op next) (⟨op, answer⟩ :: calls) value

namespace Pairing

section
variable {Op Op' : Type} {Answer : Op → Type} {Answer' : Op' → Type} {α β : Type} (pairing : Pairing Op Answer Op' Answer')

def Same (call : (op : Op) × Answer op) (call' : (op' : Op') × Answer' op') : Prop :=
  pairing.stands call.1 call'.1 ∧ pairing.agree call.1 call'.1 call.2 call'.2

theorem tracks_traced (related : α → β → Prop) (model : Program Op Answer α) (program : Program Op' Answer' β)
    (calls' : List ((op' : Op') × Answer' op')) (value' : β) (tracks : pairing.Tracks related model program)
    (traced : Traced pairing.allowed program calls' value') :
    ∃ calls value shared, Traced (fun _ _ => True) model calls value ∧ related value value' ∧
      shared.Sublist calls' ∧ List.Forall₂ pairing.Same calls shared := by
  induction tracks generalizing calls' value' with
  | ret value value' holds =>
      cases traced
      exact ⟨[], value, [], .ret value, holds, .slnil, .nil⟩
  | own model op' next' _ ih =>
      cases traced with
      | call _ _ answer' rest _ may traced =>
          obtain ⟨calls, value, shared, model_, holds, sub, same⟩ := ih answer' may rest value' traced
          exact ⟨calls, value, shared, model_, holds, sub.cons _, same⟩
  | both op op' next next' stands _ ih =>
      cases traced with
      | call _ _ answer' rest _ may traced =>
          obtain ⟨answer, agree⟩ := pairing.met op op' answer' stands may
          obtain ⟨calls, value, shared, model_, holds, sub, same⟩ := ih answer answer' agree may rest value' traced
          exact ⟨⟨op, answer⟩ :: calls, value, ⟨op', answer'⟩ :: shared, .call op next answer calls value trivial model_,
            holds, sub.cons_cons _, .cons ⟨stands, agree⟩ same⟩

end

end Pairing

end Sys
