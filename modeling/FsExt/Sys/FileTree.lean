import Mathlib.Data.List.Infix

set_option autoImplicit false

namespace Sys

section
variable {Name Obj : Type}

-- A file system as a partial map from places to objects. A place is the list
-- of names from the root, so what lies inside `p` are the places `p ++ rest`.
abbrev Tree (Name Obj : Type) := List Name → Option Obj

def Apart (a b : List Name) : Prop := ¬ a <+: b ∧ ¬ b <+: a

def Holds (tree : Tree Name Obj) (place : List Name) (old : Tree Name Obj) (source : List Name) : Prop :=
  ∀ rest, tree (place ++ rest) = old (source ++ rest)

def Vacant (tree : Tree Name Obj) (place : List Name) : Prop := ∀ rest, tree (place ++ rest) = none

def Closed (isDir : Obj → Bool) (tree : Tree Name Obj) : Prop :=
  ∀ place rest, rest ≠ [] → tree (place ++ rest) ≠ none → ∃ obj, tree place = some obj ∧ isDir obj = true

theorem apart_symm (a b : List Name) (apart : Apart a b) : Apart b a := ⟨apart.2, apart.1⟩

theorem apart_outside (a b rest : List Name) (apart : Apart a b) : ¬ a <+: b ++ rest := by
  intro inside
  rcases List.prefix_or_prefix_of_prefix inside (List.prefix_append b rest) with left | right
  · exact apart.1 left
  · exact apart.2 right

theorem entry_not_in_folder (folder : List Name) (last : Name) : ¬ folder ++ [last] <+: folder := by
  intro inside
  have shorter := inside.length_le
  simp only [List.length_append, List.length_singleton] at shorter
  omega

theorem holds_refl (tree : Tree Name Obj) (place : List Name) : Holds tree place tree place := fun _ => rfl

theorem holds_top (tree old : Tree Name Obj) (place source : List Name) (held : Holds tree place old source) :
    tree place = old source := by
  simpa using held []

theorem holds_present (tree old : Tree Name Obj) (place source : List Name) (held : Holds tree place old source)
    (present : old source ≠ none) : tree place ≠ none := by
  rw [holds_top tree old place source held]
  exact present

theorem vacant_top (tree : Tree Name Obj) (place : List Name) (vacant : Vacant tree place) :
    tree place = none := by
  simpa using vacant []

theorem closed_ancestor (isDir : Obj → Bool) (tree : Tree Name Obj) (closed : Closed isDir tree)
    (place inner : List Name) (inside : place <+: inner) (present : tree inner ≠ none) : tree place ≠ none := by
  obtain ⟨rest, rfl⟩ := inside
  cases rest with
  | nil => simpa using present
  | cons name tail =>
      obtain ⟨obj, found, _⟩ := closed place (name :: tail) (by simp) present
      simp [found]

theorem closed_vacant (isDir : Obj → Bool) (tree : Tree Name Obj) (closed : Closed isDir tree)
    (place : List Name) (absent : tree place = none) : Vacant tree place := by
  intro rest
  by_contra present
  exact closed_ancestor isDir tree closed place (place ++ rest) (List.prefix_append place rest) present absent

end

section
variable {Name Obj : Type} [DecidableEq Name]

def relocate (src dst : List Name) (tree : Tree Name Obj) : Tree Name Obj := fun place =>
  if dst <+: place then tree (src ++ place.drop dst.length)
  else if src <+: place then none
  else tree place

@[simp] theorem relocate_at_destination (src dst rest : List Name) (tree : Tree Name Obj) :
    relocate src dst tree (dst ++ rest) = tree (src ++ rest) := by
  rw [relocate, if_pos (List.prefix_append dst rest), List.drop_left]

theorem relocate_elsewhere (src dst place : List Name) (tree : Tree Name Obj)
    (outsideDst : ¬ dst <+: place) (outsideSrc : ¬ src <+: place) :
    relocate src dst tree place = tree place := by
  rw [relocate, if_neg outsideDst, if_neg outsideSrc]

theorem relocate_vacates (src dst : List Name) (tree : Tree Name Obj) (apart : Apart dst src) :
    Vacant (relocate src dst tree) src := by
  intro rest
  rw [relocate, if_neg (apart_outside dst src rest apart), if_pos (List.prefix_append src rest)]

theorem relocate_carries (src dst source : List Name) (tree old : Tree Name Obj)
    (held : Holds tree src old source) : Holds (relocate src dst tree) dst old source := by
  intro rest
  rw [relocate_at_destination, held rest]

theorem relocate_keeps (src dst place source : List Name) (tree old : Tree Name Obj)
    (held : Holds tree place old source) (apartSrc : Apart src place) (apartDst : Apart dst place) :
    Holds (relocate src dst tree) place old source := by
  intro rest
  rw [relocate_elsewhere src dst _ tree (apart_outside dst place rest apartDst)
    (apart_outside src place rest apartSrc), held rest]

theorem relocate_keeps_vacant (src dst place : List Name) (tree : Tree Name Obj)
    (vacant : Vacant tree place) (apartSrc : Apart src place) (apartDst : Apart dst place) :
    Vacant (relocate src dst tree) place := by
  intro rest
  rw [relocate_elsewhere src dst _ tree (apart_outside dst place rest apartDst)
    (apart_outside src place rest apartSrc), vacant rest]

theorem relocate_back (src dst : List Name) (tree : Tree Name Obj) (apart : Apart dst src)
    (vacant : Vacant tree dst) : relocate dst src (relocate src dst tree) = tree := by
  funext place
  by_cases inSrc : src <+: place
  · obtain ⟨rest, rfl⟩ := inSrc
    rw [relocate_at_destination, relocate_at_destination]
  · by_cases inDst : dst <+: place
    · obtain ⟨rest, rfl⟩ := inDst
      rw [relocate_vacates dst src (relocate src dst tree) (apart_symm dst src apart) rest, vacant rest]
    · rw [relocate_elsewhere dst src place _ inSrc inDst, relocate_elsewhere src dst place tree inDst inSrc]

theorem relocate_only (src dst : List Name) (tree : Tree Name Obj) (obj : Obj)
    (only : ∀ place, tree place = some obj → place = src) (place : List Name)
    (found : relocate src dst tree place = some obj) : place = dst := by
  by_cases inDst : dst <+: place
  · obtain ⟨rest, rfl⟩ := inDst
    rw [relocate_at_destination] at found
    simpa using only _ found
  · by_cases inSrc : src <+: place
    · simp [relocate, inDst, inSrc] at found
    · rw [relocate_elsewhere src dst place tree inDst inSrc] at found
      exact absurd (only place found ▸ List.prefix_refl _) inSrc

theorem relocate_destroys (src dst : List Name) (tree : Tree Name Obj) (obj : Obj)
    (only : ∀ place, tree place = some obj → place = dst) (outside : ¬ src <+: dst) (place : List Name) :
    relocate src dst tree place ≠ some obj := by
  intro found
  by_cases inDst : dst <+: place
  · obtain ⟨rest, rfl⟩ := inDst
    rw [relocate_at_destination] at found
    exact outside (only _ found ▸ List.prefix_append src rest)
  · by_cases inSrc : src <+: place
    · simp [relocate, inDst, inSrc] at found
    · rw [relocate_elsewhere src dst place tree inDst inSrc] at found
      exact inDst (only place found ▸ List.prefix_refl _)

end

end Sys
