import FsExt.Sys.Program
import Mathlib.Data.List.Infix

set_option autoImplicit false

namespace Sys

-- Threads that share a world. Every system call is one atomic step; a thread
-- that has returned stays as it is.
structure Pool (ι Op : Type) (Answer : Op → Type) (α σ : Type) where
  threads : ι → Program Op Answer α
  world : σ

namespace Pool

section
variable {ι Op : Type} {Answer : Op → Type} {α σ : Type}

def request (pool : Pool ι Op Answer α σ) (i : ι) : Option Op :=
  match pool.threads i with
  | .ret _ => none
  | .call op _ => some op

theorem request_call (pool : Pool ι Op Answer α σ) (i : ι) (op : Op) (next : Answer op → Program Op Answer α)
    (calls : pool.threads i = .call op next) : pool.request i = some op := by
  rw [request, calls]

theorem part_take (schedule played : List ι) (i : ι) (part : played ++ [i] <+: schedule) :
    ∃ n, n < schedule.length ∧ played = schedule.take n ∧ schedule[n]? = some i := by
  obtain ⟨rest, rfl⟩ := part
  refine ⟨played.length, ?_, ?_, ?_⟩
  · simp only [List.append_assoc, List.length_append, List.length_singleton]
    omega
  · simp
  · simp

end

section
variable {ι Op : Type} {Answer : Op → Type} {α σ : Type} [DecidableEq ι]

def act (handler : Program.Handler Op Answer σ) (pool : Pool ι Op Answer α σ) (i : ι) : Pool ι Op Answer α σ :=
  match pool.threads i with
  | .ret _ => pool
  | .call op next =>
      { threads := Function.update pool.threads i (next (handler op pool.world).1)
        world := (handler op pool.world).2 }

def play (handler : Program.Handler Op Answer σ) (pool : Pool ι Op Answer α σ) (schedule : List ι) :
    Pool ι Op Answer α σ :=
  schedule.foldl (act handler) pool

theorem act_ret (handler : Program.Handler Op Answer σ) (pool : Pool ι Op Answer α σ) (i : ι) (value : α)
    (returned : pool.threads i = .ret value) : act handler pool i = pool := by
  rw [act, returned]

theorem act_call (handler : Program.Handler Op Answer σ) (pool : Pool ι Op Answer α σ) (i : ι) (op : Op)
    (next : Answer op → Program Op Answer α) (calls : pool.threads i = .call op next) (answer : Answer op)
    (world : σ) (handled : handler op pool.world = (answer, world)) :
    act handler pool i = { threads := Function.update pool.threads i (next answer), world := world } := by
  rw [act, calls]
  simp only [handled]

theorem play_snoc (handler : Program.Handler Op Answer σ) (pool : Pool ι Op Answer α σ) (schedule : List ι) (i : ι) :
    play handler pool (schedule ++ [i]) = act handler (play handler pool schedule) i := by
  simp [play]

theorem play_keeps (handler : Program.Handler Op Answer σ) (start : Pool ι Op Answer α σ) (schedule : List ι)
    (inv : List ι → Pool ι Op Answer α σ → Prop) (first : inv [] start)
    (step : ∀ played i, played ++ [i] <+: schedule → inv played (play handler start played) →
      inv (played ++ [i]) (act handler (play handler start played) i))
    (played : List ι) (part : played <+: schedule) : inv played (play handler start played) := by
  induction played using List.reverseRecOn with
  | nil => exact first
  | append_singleton played i ih =>
      rw [play_snoc]
      exact step played i part (ih ((List.prefix_append played [i]).trans part))

end

end Pool

end Sys
