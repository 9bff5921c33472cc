import FsExt.Sys.Exchange
import Mathlib.Logic.Equiv.Basic

set_option autoImplicit false

namespace Sys

section
variable {Name Obj : Type} [DecidableEq Name] (a b : List Name)

def trade (place : List Name) : List Name :=
  if a <+: place then b ++ place.drop a.length
  else if b <+: place then a ++ place.drop b.length
  else place

theorem trade_first (rest : List Name) : trade a b (a ++ rest) = b ++ rest := by
  rw [trade, if_pos (List.prefix_append a rest), List.drop_left]

theorem trade_second (rest : List Name) (apart : Apart a b) : trade a b (b ++ rest) = a ++ rest := by
  rw [trade, if_neg (apart_outside a b rest apart), if_pos (List.prefix_append b rest), List.drop_left]

theorem trade_elsewhere (place : List Name) (outside : ¬ a <+: place ∧ ¬ b <+: place) : trade a b place = place := by
  rw [trade, if_neg outside.1, if_neg outside.2]

theorem place_cases (place : List Name) :
    (∃ rest, place = a ++ rest) ∨ (∃ rest, place = b ++ rest) ∨ (¬ a <+: place ∧ ¬ b <+: place) := by
  by_cases inFirst : a <+: place
  · obtain ⟨rest, rfl⟩ := inFirst
    exact .inl ⟨rest, rfl⟩
  · by_cases inSecond : b <+: place
    · obtain ⟨rest, rfl⟩ := inSecond
      exact .inr (.inl ⟨rest, rfl⟩)
    · exact .inr (.inr ⟨inFirst, inSecond⟩)

theorem trade_trade (apart : Apart a b) (place : List Name) : trade a b (trade a b place) = place := by
  obtain ⟨rest, rfl⟩ | ⟨rest, rfl⟩ | outside := place_cases a b place
  · rw [trade_first, trade_second a b rest apart]
  · rw [trade_second a b rest apart, trade_first]
  · rw [trade_elsewhere a b place outside, trade_elsewhere a b place outside]

def traded (apart : Apart a b) : Equiv.Perm (List Name) where
  toFun := trade a b
  invFun := trade a b
  left_inv := trade_trade a b apart
  right_inv := trade_trade a b apart

theorem exchanged_trade (init cur : Tree Name Obj) (apart : Apart a b) (exchanged : Exchanged (pairOf a b) init cur) :
    cur = fun place => init (trade a b place) := by
  funext place
  obtain ⟨rest, rfl⟩ | ⟨rest, rfl⟩ | outside := place_cases a b place
  · rw [trade_first]
    exact exchanged.firsts () rest
  · rw [trade_second a b rest apart]
    exact exchanged.seconds () rest
  · rw [trade_elsewhere a b place outside]
    exact exchanged.elsewhere place fun _ => outside

theorem trade_exchanges (init : Tree Name Obj) (apart : Apart a b) :
    Exchanged (pairOf a b) init fun place => init (trade a b place) where
  firsts _ rest := congrArg init (trade_first a b rest)
  seconds _ rest := congrArg init (trade_second a b rest apart)
  elsewhere place outside := congrArg init (trade_elsewhere a b place (outside ()))

theorem exchanged_twice (init mid cur : Tree Name Obj) (apart : Apart a b) (there : Exchanged (pairOf a b) init mid)
    (back : Exchanged (pairOf a b) mid cur) : cur = init := by
  rw [exchanged_trade a b mid cur apart back, exchanged_trade a b init mid apart there]
  funext place
  exact congrArg init (trade_trade a b apart place)

theorem exchanged_closed (isDir : Obj → Bool) (init cur : Tree Name Obj) (apart : Apart a b)
    (closed : Closed isDir init) (existing : init a ≠ none ∧ init b ≠ none)
    (exchanged : Exchanged (pairOf a b) init cur) : Closed isDir cur := by
  intro place rest some_ there
  rw [exchanged_trade a b init cur apart exchanged] at there ⊢
  simp only at there ⊢
  obtain ⟨inner, rfl⟩ | ⟨inner, rfl⟩ | outside := place_cases a b place
  · rw [List.append_assoc, trade_first] at there
    rw [trade_first]
    exact closed (b ++ inner) rest some_ (by rwa [List.append_assoc])
  · rw [List.append_assoc, trade_second a b _ apart] at there
    rw [trade_second a b _ apart]
    exact closed (a ++ inner) rest some_ (by rwa [List.append_assoc])
  · rw [trade_elsewhere a b place outside]
    have above : ∀ target inner, place ++ rest = target ++ inner → ¬ target <+: place → init target ≠ none →
        ∃ obj, init place = some obj ∧ isDir obj = true := by
      intro target inner same around present
      obtain ⟨tail, rfl⟩ := (List.prefix_or_prefix_of_prefix (List.prefix_append place rest)
        (same ▸ List.prefix_append target inner)).resolve_right around
      refine closed place tail ?_ present
      rintro rfl
      exact around (by rw [List.append_nil])
    obtain ⟨inner, same⟩ | ⟨inner, same⟩ | apart_ := place_cases a b (place ++ rest)
    · exact above a inner same outside.1 existing.1
    · exact above b inner same outside.2 existing.2
    · rw [trade_elsewhere a b _ apart_] at there
      exact closed place rest some_ there

end

end Sys
