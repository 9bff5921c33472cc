import Mathlib.Data.List.Basic

set_option autoImplicit false

namespace Sys

inductive Fault where
  | free (buffer : Nat)
  | use (buffer : Nat)

-- The buffers that are live. Those given out so far are the numbers below
-- `next`, and none is given out again.
structure Heap where
  live : List Nat
  next : Nat
  faults : List Fault

namespace Heap

def empty : Heap := ⟨[], 0, []⟩

def allocate (heap : Heap) : Heap := { heap with live := heap.next :: heap.live, next := heap.next + 1 }

def release (heap : Heap) : Option Nat → Heap
  | none => heap
  | some buffer =>
      if buffer ∈ heap.live then { heap with live := heap.live.erase buffer }
      else { heap with faults := .free buffer :: heap.faults }

def touch (heap : Heap) : Option Nat → Heap
  | none => heap
  | some buffer => if buffer ∈ heap.live then heap else { heap with faults := .use buffer :: heap.faults }

def Clean (heap : Heap) : Prop := heap.live = [] ∧ heap.faults = []

structure Owns (heap : Heap) (buffers : List Nat) : Prop where
  live : heap.live.Perm buffers
  sound : heap.faults = []

theorem owns_empty : Owns empty [] := ⟨.nil, rfl⟩

theorem owns_perm (heap : Heap) (buffers buffers' : List Nat) (owns : heap.Owns buffers)
    (same : buffers.Perm buffers') : heap.Owns buffers' :=
  ⟨owns.live.trans same, owns.sound⟩

theorem owns_allocate (heap : Heap) (buffers : List Nat) (owns : heap.Owns buffers) :
    heap.allocate.Owns (heap.next :: buffers) :=
  ⟨owns.live.cons heap.next, owns.sound⟩

theorem owns_release (heap : Heap) (buffer : Option Nat) (buffers : List Nat)
    (owns : heap.Owns (buffer.toList ++ buffers)) : (heap.release buffer).Owns buffers := by
  cases buffer with
  | none => exact owns
  | some buffer =>
      have held : buffer ∈ heap.live := owns.live.mem_iff.mpr (.head _)
      have erased := owns.live.erase buffer
      rw [Option.toList_some, List.singleton_append, List.erase_cons_head] at erased
      rw [release, if_pos held]
      exact ⟨erased, owns.sound⟩

theorem touch_owned (heap : Heap) (buffer : Option Nat) (buffers : List Nat) (owns : heap.Owns buffers)
    (held : ∀ b, buffer = some b → b ∈ buffers) : heap.touch buffer = heap := by
  cases buffer with
  | none => rfl
  | some buffer => exact if_pos (owns.live.mem_iff.mpr (held buffer rfl))

theorem touch_first (heap : Heap) (buffer : Option Nat) (buffers : List Nat)
    (owns : heap.Owns (buffer.toList ++ buffers)) : heap.touch buffer = heap :=
  touch_owned heap buffer _ owns fun _ here => List.mem_append_left buffers (Option.mem_toList.mpr here)

theorem clean_iff (heap : Heap) (buffers : List Nat) (owns : heap.Owns buffers) : heap.Clean ↔ buffers = [] := by
  constructor
  · rintro ⟨none_live, _⟩
    exact List.nil_perm.mp (none_live ▸ owns.live)
  · rintro rfl
    exact ⟨List.perm_nil.mp owns.live, owns.sound⟩

theorem clean_release (heap : Heap) (buffer : Option Nat) (owns : heap.Owns buffer.toList) :
    (heap.release buffer).Clean :=
  (clean_iff _ [] (owns_release heap buffer [] (by rwa [List.append_nil]))).mpr rfl

end Heap

end Sys
