import FsExt.Sys.Program
import Mathlib.Algebra.Order.Group.Multiset

set_option autoImplicit false

namespace Sys

-- How system calls deal with resources: those a call must find live, the one it
-- gives up, the one its answer brings, and the answers there may be.
structure Custody (Op : Type) (Answer : Op → Type) (R : Type) where
  uses : Op → List R
  frees : Op → Option R
  gains : (op : Op) → Answer op → Option R
  replies : (op : Op) → Answer op → Prop

def adding {R : Type} : Option R → Multiset R → Multiset R
  | none, held => held
  | some resource, held => resource ::ₘ held

def without {R : Type} [DecidableEq R] : Option R → Multiset R → Multiset R
  | none, live => live
  | some resource, live => live.erase resource

theorem adding_add {R : Type} (gained : Option R) (held other : Multiset R) :
    adding gained held + other = adding gained (held + other) := by
  cases gained with
  | none => rfl
  | some resource => exact Multiset.cons_add resource held other

theorem without_adding {R : Type} [DecidableEq R] (freed : Option R) (held : Multiset R) :
    without freed (adding freed held) = held := by
  cases freed with
  | none => rfl
  | some resource => exact Multiset.erase_cons_head resource held

theorem mem_adding {R : Type} (gained : Option R) (held : Multiset R) (resource : R) :
    resource ∈ adding gained held ↔ gained = some resource ∨ resource ∈ held := by
  cases gained with
  | none => simp [adding]
  | some other => simp [adding, eq_comm]

theorem nodup_adding {R : Type} (gained : Option R) (held : Multiset R) (nodup : held.Nodup)
    (fresh : ∀ resource, gained = some resource → resource ∉ held) : (adding gained held).Nodup := by
  cases gained with
  | none => exact nodup
  | some resource => exact Multiset.nodup_cons.mpr ⟨fresh resource rfl, nodup⟩

theorem nodup_rest {R : Type} (freed : Option R) (held : Multiset R) (nodup : (adding freed held).Nodup) : held.Nodup := by
  cases freed with
  | none => exact nodup
  | some resource => exact (Multiset.nodup_cons.mp nodup).2

namespace Custody

section
variable {Op : Type} {Answer : Op → Type} {R β γ : Type} (custody : Custody Op Answer R)

def Touches (op : Op) (resource : R) : Prop := resource ∈ custody.uses op ∨ custody.frees op = some resource

-- A program that is handed `held` uses and gives up only what it has, and ends
-- with a value and a rest that satisfy `post`.
def Yields : Program Op Answer β → Multiset R → (β → Multiset R → Prop) → Prop
  | .ret value, held, post => post value held
  | .call op next, held, post =>
      (∀ resource ∈ custody.uses op, resource ∈ held) ∧ ∃ rest, held = adding (custody.frees op) rest ∧
        ∀ answer, custody.replies op answer → Yields (next answer) (adding (custody.gains op answer) rest) post

theorem yields_mono (program : Program Op Answer β) (held : Multiset R) (post post' : β → Multiset R → Prop)
    (weaker : ∀ value rest, post value rest → post' value rest) (yields : custody.Yields program held post) :
    custody.Yields program held post' := by
  induction program generalizing held with
  | ret value => exact weaker value held yields
  | call op next ih =>
      obtain ⟨used, rest, owned, onward⟩ := yields
      exact ⟨used, rest, owned, fun answer replies => ih answer _ (onward answer replies)⟩

theorem yields_bind (program : Program Op Answer β) (rest : β → Program Op Answer γ) (held : Multiset R)
    (between : β → Multiset R → Prop) (post : γ → Multiset R → Prop) (first : custody.Yields program held between)
    (second : ∀ value left, between value left → custody.Yields (rest value) left post) :
    custody.Yields (program >>= rest) held post := by
  induction program generalizing held with
  | ret value => exact second value held first
  | call op next ih =>
      obtain ⟨used, remains, owned, onward⟩ := first
      exact ⟨used, remains, owned, fun answer replies => ih answer _ (onward answer replies)⟩

theorem yields_use (op : Op) (next : Answer op → Program Op Answer β) (held : Multiset R)
    (post : β → Multiset R → Prop) (used : ∀ resource ∈ custody.uses op, resource ∈ held)
    (frees : custody.frees op = none) (gains : ∀ answer, custody.gains op answer = none)
    (onward : ∀ answer, custody.replies op answer → custody.Yields (next answer) held post) :
    custody.Yields (.call op next) held post := by
  refine ⟨used, held, by rw [frees]; rfl, fun answer replies => ?_⟩
  rw [gains]
  exact onward answer replies

theorem yields_through {Op' : Type} {Answer' : Op' → Type} (wider : Custody Op' Answer' R) (inject : Op → Op')
    (read : (op : Op) → Answer' (inject op) → Answer op)
    (uses : ∀ op, wider.uses (inject op) = custody.uses op) (frees : ∀ op, wider.frees (inject op) = custody.frees op)
    (gains : ∀ op answer, wider.gains (inject op) answer = custody.gains op (read op answer))
    (replies : ∀ op answer, wider.replies (inject op) answer → custody.replies op (read op answer))
    (program : Program Op Answer β) (held : Multiset R) (post : β → Multiset R → Prop)
    (yields : custody.Yields program held post) : wider.Yields (program.through inject read) held post := by
  induction program generalizing held with
  | ret value => exact yields
  | call op next ih =>
      obtain ⟨used, rest, owned, onward⟩ := yields
      refine ⟨uses op ▸ used, rest, frees op ▸ owned, fun answer replied => ?_⟩
      rw [gains]
      exact ih _ _ (onward _ (replies op answer replied))

theorem yields_reading {Op' : Type} {Answer' : Op' → Type} (inject : Op' → Op)
    (read : (op : Op') → Answer (inject op) → Answer' op) (program : Program Op' Answer' β) (held : Multiset R)
    (used : ∀ op, ∀ resource ∈ custody.uses (inject op), resource ∈ held)
    (frees : ∀ op, custody.frees (inject op) = none) (gains : ∀ op answer, custody.gains (inject op) answer = none) :
    custody.Yields (program.through inject read) held fun _ rest => rest = held := by
  induction program with
  | ret value => rfl
  | call op next ih => exact custody.yields_use _ _ held _ (used op) (frees op) (gains op) fun _ _ => ih _

theorem touched_held (op : Op) (next : Answer op → Program Op Answer β) (held : Multiset R)
    (post : β → Multiset R → Prop) (yields : custody.Yields (.call op next) held post) (resource : R)
    (touches : custody.Touches op resource) : resource ∈ held := by
  obtain ⟨used, rest, rfl, _⟩ := yields
  exact touches.elim (used resource) fun freed => (mem_adding _ rest resource).mpr (.inl freed)

end

end Custody

-- Threads that share what is live. `left` is what has been given up to nobody by
-- those that are through.
structure Crew (Op : Type) (Answer : Op → Type) (α R : Type) where
  threads : List (Program Op Answer α)
  live : Multiset R
  left : Multiset R

namespace Crew

abbrev Share (Op : Type) (Answer : Op → Type) (α R : Type) := Program Op Answer α × Multiset R

section
variable {Op : Type} {Answer : Op → Type} {α R : Type} (custody : Custody Op Answer R)

def total (shares : List (Share Op Answer α R)) : Multiset R := (shares.map Prod.snd).sum

def Shared (good : α → Multiset R → Prop) (programs : List (Program Op Answer α)) (shares : List (Share Op Answer α R)) :
    Prop :=
  programs = shares.map Prod.fst ∧ ∀ share ∈ shares, custody.Yields share.1 share.2 good

structure Kept (good : α → Multiset R → Prop) (crew : Crew Op Answer α R) (shares : List (Share Op Answer α R)) : Prop where
  nodup : crew.live.Nodup
  shared : Shared custody good crew.threads shares
  live : crew.live = crew.left + total shares

theorem total_append (shares shares' : List (Share Op Answer α R)) :
    total (shares ++ shares') = total shares + total shares' := by
  simp only [total, List.map_append, List.sum_append]

theorem total_cons (share : Share Op Answer α R) (shares : List (Share Op Answer α R)) :
    total (share :: shares) = share.2 + total shares := by
  simp only [total, List.map_cons, List.sum_cons]

theorem shared_append (good : α → Multiset R → Prop) (programs programs' : List (Program Op Answer α))
    (shares shares' : List (Share Op Answer α R)) (shared : Shared custody good programs shares)
    (shared' : Shared custody good programs' shares') :
    Shared custody good (programs ++ programs') (shares ++ shares') := by
  refine ⟨by rw [shared.1, shared'.1, List.map_append], fun share member => ?_⟩
  exact (List.mem_append.mp member).elim (shared.2 share) (shared'.2 share)

theorem shared_cons (good : α → Multiset R → Prop) (program : Program Op Answer α) (held : Multiset R)
    (programs : List (Program Op Answer α)) (shares : List (Share Op Answer α R))
    (yields : custody.Yields program held good) (shared : Shared custody good programs shares) :
    Shared custody good (program :: programs) ((program, held) :: shares) := by
  refine ⟨by rw [shared.1, List.map_cons], fun share member => ?_⟩
  rcases List.mem_cons.mp member with rfl | later
  · exact yields
  · exact shared.2 share later

theorem shared_split (good : α → Multiset R → Prop) (before after : List (Program Op Answer α))
    (program : Program Op Answer α) (shares : List (Share Op Answer α R))
    (shared : Shared custody good (before ++ program :: after) shares) :
    ∃ sharesBefore held sharesAfter, shares = sharesBefore ++ (program, held) :: sharesAfter ∧
      Shared custody good before sharesBefore ∧ custody.Yields program held good ∧
      Shared custody good after sharesAfter := by
  obtain ⟨programs, each⟩ := shared
  obtain ⟨front, rest, rfl, fronts, rests⟩ := List.map_eq_append_iff.mp programs.symm
  obtain ⟨share, back, rfl, same, backs⟩ := List.map_eq_cons_iff.mp rests
  obtain ⟨first, held⟩ := share
  cases same
  refine ⟨front, held, back, rfl, ⟨fronts.symm, fun share member => ?_⟩, ?_, backs.symm, fun share member => ?_⟩
  · exact each share (List.mem_append_left _ member)
  · exact each _ (List.mem_append_right _ (.head _))
  · exact each share (List.mem_append_right _ (.tail _ member))

end

section
variable {Op : Type} {Answer : Op → Type} {α R : Type} (custody : Custody Op Answer R)
  (children : α → List (Program Op Answer α)) (keeps : α → Multiset R) (starts : Program Op Answer α → Prop)

structure Fair (good : α → Multiset R → Prop) : Prop where
  begins : ∀ program, starts program → custody.Yields program 0 good
  divides : ∀ value held, good value held →
    ∃ shares, Shared custody good (children value) shares ∧ held = keeps value + total shares

theorem ret_kept (good : α → Multiset R → Prop) (fair : Fair custody children keeps starts good)
    (crew : Crew Op Answer α R) (shares : List (Share Op Answer α R)) (kept : Kept custody good crew shares)
    (before after : List (Program Op Answer α)) (value : α) (threads : crew.threads = before ++ .ret value :: after) :
    ∃ shares', Kept custody good
      { crew with threads := before ++ (children value ++ after), left := keeps value + crew.left } shares' := by
  obtain ⟨front, held, back, rfl, fronts, done, backs⟩ :=
    shared_split custody good before after _ shares (threads ▸ kept.shared)
  obtain ⟨inherited, shared, rfl⟩ := fair.divides value held done
  refine ⟨front ++ (inherited ++ back), kept.nodup, ?_, ?_⟩
  · exact shared_append custody good before _ front _ fronts (shared_append custody good _ after _ _ shared backs)
  · simp only [kept.live, total_append, total_cons]
    ac_rfl

end

section
variable {Op : Type} {Answer : Op → Type} {α R : Type} [DecidableEq R] (custody : Custody Op Answer R)
  (children : α → List (Program Op Answer α)) (keeps : α → Multiset R) (starts : Program Op Answer α → Prop)

-- New threads come at any time. A thread that returns leaves children behind, and
-- what its value keeps. An answer brings only what is not live.
inductive Step (crew : Crew Op Answer α R) : Crew Op Answer α R → Prop where
  | start (program : Program Op Answer α) (may : starts program) :
      Step crew { crew with threads := program :: crew.threads }
  | call (before after : List (Program Op Answer α)) (op : Op) (next : Answer op → Program Op Answer α)
      (answer : Answer op) (threads : crew.threads = before ++ .call op next :: after)
      (replies : custody.replies op answer)
      (fresh : ∀ resource, custody.gains op answer = some resource → resource ∉ without (custody.frees op) crew.live) :
      Step crew { crew with
        threads := before ++ next answer :: after
        live := adding (custody.gains op answer) (without (custody.frees op) crew.live) }
  | ret (before after : List (Program Op Answer α)) (value : α) (threads : crew.threads = before ++ .ret value :: after) :
      Step crew { crew with threads := before ++ (children value ++ after), left := keeps value + crew.left }

def Reachable : Crew Op Answer α R → Prop := Relation.ReflTransGen (Step custody children keeps starts) ⟨[], 0, 0⟩

theorem call_kept (good : α → Multiset R → Prop) (crew : Crew Op Answer α R) (shares : List (Share Op Answer α R))
    (kept : Kept custody good crew shares)
    (before after : List (Program Op Answer α)) (op : Op) (next : Answer op → Program Op Answer α) (answer : Answer op)
    (threads : crew.threads = before ++ .call op next :: after) (replies : custody.replies op answer)
    (fresh : ∀ resource, custody.gains op answer = some resource → resource ∉ without (custody.frees op) crew.live) :
    ∃ shares', Kept custody good { crew with
      threads := before ++ next answer :: after
      live := adding (custody.gains op answer) (without (custody.frees op) crew.live) } shares' := by
  obtain ⟨front, held, back, rfl, fronts, ⟨_, rest, rfl, onward⟩, backs⟩ :=
    shared_split custody good before after _ shares (threads ▸ kept.shared)
  have apart : crew.live = adding (custody.frees op) (rest + (crew.left + total front + total back)) := by
    rw [kept.live, total_append, total_cons, ← adding_add]
    ac_rfl
  rw [apart, without_adding] at fresh
  rw [apart, without_adding]
  refine ⟨front ++ (next answer, adding (custody.gains op answer) rest) :: back, ?_, ?_, ?_⟩
  · exact nodup_adding _ _ (nodup_rest _ _ (apart ▸ kept.nodup)) fresh
  · exact shared_append custody good before _ front _ fronts
      (shared_cons custody good _ _ after back (onward answer replies) backs)
  · simp only [total_append, total_cons]
    rw [← adding_add]
    ac_rfl

theorem reachable_kept (good : α → Multiset R → Prop) (fair : Fair custody children keeps starts good)
    (crew : Crew Op Answer α R) (reachable : Reachable custody children keeps starts crew) :
    ∃ shares, Kept custody good crew shares := by
  induction reachable with
  | refl => exact ⟨[], Multiset.nodup_zero, ⟨rfl, fun _ member => by cases member⟩, rfl⟩
  | tail _ step ih =>
      obtain ⟨shares, kept⟩ := ih
      cases step with
      | start program may =>
          refine ⟨(program, 0) :: shares, kept.nodup, ?_, ?_⟩
          · exact shared_cons custody good program 0 _ shares (fair.begins program may) kept.shared
          · rw [total_cons, zero_add]
            exact kept.live
      | call before after op next answer threads replies fresh =>
          exact call_kept custody good _ shares kept before after op next answer threads replies fresh
      | ret before after value threads =>
          exact ret_kept custody children keeps starts good fair _ shares kept before after value threads

theorem crew_live (good : α → Multiset R → Prop) (fair : Fair custody children keeps starts good)
    (crew : Crew Op Answer α R) (reachable : Reachable custody children keeps starts crew)
    (before after : List (Program Op Answer α)) (op : Op) (next : Answer op → Program Op Answer α)
    (threads : crew.threads = before ++ .call op next :: after) (resource : R)
    (touches : custody.Touches op resource) : resource ∈ crew.live := by
  obtain ⟨shares, kept⟩ := reachable_kept custody children keeps starts good fair crew reachable
  obtain ⟨front, held, back, rfl, _, yields, _⟩ := shared_split custody good before after _ shares (threads ▸ kept.shared)
  rw [kept.live, total_append, total_cons]
  have mine := custody.touched_held op next held good yields resource touches
  simp only [Multiset.mem_add]
  exact .inr (.inr (.inl mine))

theorem crew_apart (good : α → Multiset R → Prop) (fair : Fair custody children keeps starts good)
    (crew : Crew Op Answer α R) (reachable : Reachable custody children keeps starts crew)
    (before between after : List (Program Op Answer α)) (op op' : Op) (next : Answer op → Program Op Answer α)
    (next' : Answer op' → Program Op Answer α)
    (threads : crew.threads = before ++ .call op next :: (between ++ .call op' next' :: after)) (resource : R)
    (touches : custody.Touches op resource) : ¬ custody.Touches op' resource := by
  obtain ⟨shares, kept⟩ := reachable_kept custody children keeps starts good fair crew reachable
  obtain ⟨front, held, rest, rfl, _, yields, shared⟩ :=
    shared_split custody good before _ _ shares (threads ▸ kept.shared)
  obtain ⟨middle, held', back, rfl, _, yields', _⟩ := shared_split custody good between after _ rest shared
  intro touches'
  have nodup := kept.nodup
  have apart : crew.live = (crew.left + total front + total middle + total back) + (held + held') := by
    rw [kept.live, total_append, total_cons, total_append, total_cons]
    ac_rfl
  rw [apart] at nodup
  have disjoint := (Multiset.nodup_add.mp (Multiset.nodup_add.mp nodup).2.1).2.2
  exact Multiset.disjoint_left.mp disjoint (custody.touched_held op next held good yields resource touches)
    (custody.touched_held op' next' held' good yields' resource touches')

theorem crew_within (good : α → Multiset R → Prop) (fair : Fair custody children keeps starts good) (within : R → Prop)
    (keeping : ∀ value held, good value held → ∀ resource ∈ keeps value, within resource) (crew : Crew Op Answer α R)
    (reachable : Reachable custody children keeps starts crew) : ∀ resource ∈ crew.left, within resource := by
  induction reachable with
  | refl => exact fun _ member => absurd member (Multiset.notMem_zero _)
  | tail reachable step ih =>
      cases step with
      | start program may => exact ih
      | call before after op next answer threads replies fresh => exact ih
      | ret before after value threads =>
          obtain ⟨shares, kept⟩ := reachable_kept custody children keeps starts good fair _ reachable
          obtain ⟨_, held, _, _, _, done, _⟩ := shared_split custody good before after _ shares (threads ▸ kept.shared)
          intro resource member
          rcases Multiset.mem_add.mp member with new | old
          · exact keeping value held done resource new
          · exact ih resource old

theorem crew_left (good : α → Multiset R → Prop) (fair : Fair custody children keeps starts good)
    (crew : Crew Op Answer α R) (reachable : Reachable custody children keeps starts crew)
    (idle : crew.threads = []) : crew.live = crew.left := by
  obtain ⟨shares, kept⟩ := reachable_kept custody children keeps starts good fair crew reachable
  have nobody := kept.shared.1
  rw [idle] at nobody
  rw [kept.live, List.map_eq_nil_iff.mp nobody.symm]
  exact add_zero _

end

end Crew

end Sys
