import FsExt.Sys.FileTree
import Mathlib.Logic.Function.Basic

set_option autoImplicit false

namespace Sys

section
variable {κ Name Obj : Type}

def Shows (slots : κ → List Name) (init cur : Tree Name Obj) (place : List Name) : Option κ → Prop
  | some source => Holds cur place init (slots source)
  | none => Vacant cur place

structure Standing (slots : κ → List Name) (init cur : Tree Name Obj) (origin : κ → Option κ) : Prop where
  shows : ∀ slot, Shows slots init cur (slots slot) (origin slot)
  elsewhere : ∀ place, (∀ slot, ¬ slots slot <+: place) → cur place = init place

theorem standing_top (slots : κ → List Name) (init cur : Tree Name Obj) (origin : κ → Option κ)
    (standing : Standing slots init cur origin) (slot : κ) :
    cur (slots slot) = (origin slot).bind fun source => init (slots source) := by
  have shows := standing.shows slot
  cases found : origin slot with
  | some source =>
      rw [found] at shows
      exact holds_top cur init _ _ shows
  | none =>
      rw [found] at shows
      exact vacant_top cur _ shows

end

section
variable {κ Name Obj : Type} [DecidableEq κ] [DecidableEq Name]

def shift (src dst : κ) (origin : κ → Option κ) : κ → Option κ :=
  Function.update (Function.update origin dst (origin src)) src none

theorem standing_relocate (slots : κ → List Name) (init cur : Tree Name Obj) (origin : κ → Option κ)
    (apart : ∀ a b, a ≠ b → Apart (slots a) (slots b)) (src dst : κ) (different : src ≠ dst)
    (standing : Standing slots init cur origin) :
    Standing slots init (relocate (slots src) (slots dst) cur) (shift src dst origin) where
  shows slot := by
    by_cases atSrc : slot = src
    · subst slot
      rw [shift, Function.update_self]
      exact relocate_vacates (slots src) (slots dst) cur (apart dst src (Ne.symm different))
    · by_cases atDst : slot = dst
      · subst slot
        have shows := standing.shows src
        rw [shift, Function.update_of_ne atSrc, Function.update_self]
        cases found : origin src with
        | some source =>
            rw [found] at shows
            exact relocate_carries (slots src) (slots dst) _ cur init shows
        | none =>
            rw [found] at shows
            intro rest
            rw [relocate_at_destination, shows rest]
      · have shows := standing.shows slot
        rw [shift, Function.update_of_ne atSrc, Function.update_of_ne atDst]
        cases found : origin slot with
        | some source =>
            rw [found] at shows
            exact relocate_keeps _ _ _ _ cur init shows (apart src slot (Ne.symm atSrc)) (apart dst slot (Ne.symm atDst))
        | none =>
            rw [found] at shows
            exact relocate_keeps_vacant _ _ _ cur shows (apart src slot (Ne.symm atSrc)) (apart dst slot (Ne.symm atDst))
  elsewhere place outside := by
    rw [relocate_elsewhere _ _ place cur (outside dst) (outside src)]
    exact standing.elsewhere place outside

end

end Sys
