import Mathlib.Logic.Relation

set_option autoImplicit false

namespace Sys

-- What a collector sees of the objects: those in use of themselves and which one
-- holds which.
structure Graph (Object : Type) where
  rooted : Object → Prop
  holds : Object → Object → Prop

namespace Graph

variable {Object : Type}

def Reached (graph : Graph Object) (object : Object) : Prop :=
  ∃ root, graph.rooted root ∧ Relation.ReflTransGen graph.holds root object

theorem reached_root (graph : Graph Object) (object : Object) (rooted : graph.rooted object) : graph.Reached object :=
  ⟨object, rooted, .refl⟩

theorem reached_held (graph : Graph Object) (object held : Object) (reached : graph.Reached object)
    (holds : graph.holds object held) : graph.Reached held := by
  obtain ⟨root, rooted, path⟩ := reached
  exact ⟨root, rooted, path.tail holds⟩

theorem reached_closed (graph : Graph Object) (within : Object → Prop)
    (roots : ∀ object, graph.rooted object → within object)
    (closed : ∀ object held, within object → graph.holds object held → within held) (object : Object)
    (reached : graph.Reached object) : within object := by
  obtain ⟨root, rooted, path⟩ := reached
  induction path with
  | refl => exact roots root rooted
  | tail _ holds ih => exact closed _ _ ih holds

def Within (graph' graph : Graph Object) : Prop :=
  (∀ object, graph'.rooted object → graph.Reached object) ∧
    ∀ object held, graph.Reached object → graph'.holds object held → graph.Reached held

theorem within_refl (graph : Graph Object) : graph.Within graph :=
  ⟨graph.reached_root, graph.reached_held⟩

theorem within_reached (graph graph' : Graph Object) (within : graph'.Within graph) (object : Object)
    (reached : graph'.Reached object) : graph.Reached object :=
  graph'.reached_closed graph.Reached within.1 within.2 object reached

def Spared (graph : Graph Object) (swept : Object → Prop) : Prop := ∀ object, graph.Reached object → ¬ swept object

theorem spared_within (graph graph' : Graph Object) (swept : Object → Prop) (spared : graph.Spared swept)
    (within : graph'.Within graph) : graph'.Spared swept := fun object reached =>
  spared object (graph.within_reached graph' within object reached)

theorem spared_sweep (graph : Graph Object) (swept : Object → Prop) (victim : Object) (spared : graph.Spared swept)
    (unreached : ¬ graph.Reached victim) : graph.Spared fun object => object = victim ∨ swept object := by
  rintro object reached (rfl | before)
  · exact unreached reached
  · exact spared object reached before

end Graph

def Between {Instr : Type} (opening closing : Instr) (ahead : List Instr) : Prop :=
  opening ∉ ahead ∧ closing ∈ ahead

instance {Instr : Type} [DecidableEq Instr] (opening closing : Instr) (ahead : List Instr) :
    Decidable (Between opening closing ahead) :=
  inferInstanceAs (Decidable (_ ∧ _))

theorem between_cons {Instr : Type} (opening closing instr : Instr) (rest : List Instr) (nodup : (instr :: rest).Nodup)
    (order : instr = opening → closing ∈ rest) :
    Between opening closing rest ↔ instr = opening ∨ instr ≠ closing ∧ Between opening closing (instr :: rest) := by
  have once : instr ∉ rest := (List.nodup_cons.mp nodup).1
  constructor
  · rintro ⟨behind, ahead⟩
    by_cases opens : instr = opening
    · exact .inl opens
    · refine .inr ⟨fun closes => once (closes ▸ ahead), fun member => ?_, .tail _ ahead⟩
      exact (List.mem_cons.mp member).elim (fun same => opens same.symm) behind
  · rintro (opens | ⟨open_, behind, ahead⟩)
    · exact ⟨opens ▸ once, order opens⟩
    · exact ⟨fun member => behind (.tail _ member), (List.mem_cons.mp ahead).resolve_left (Ne.symm open_)⟩

end Sys
