import FsExt.Lock.Plans
import FsExt.Lock.WholeFile

set_option autoImplicit false

namespace FsExt.Lock

open Sys

abbrev Ledger := List Windows.RangeLock

namespace Ledger

-- A range that both systems have: one that ends below 2 ^ 63, or the whole file.
structure Usable (offset length : UInt64) : Prop where
  fits : Linux.backend.Fits offset length
  whole : length = 0 → offset = 0

structure Kept (held : Ledger) : Prop where
  usable : ∀ lock ∈ held, ∃ offset length, Usable offset length ∧ lock = Windows.asked offset length lock.exclusive
  apart : held.Pairwise fun lock other => ¬ lock.Overlaps other

section
variable (offset length : UInt64)

def drop (held : Ledger) : Ledger :=
  if Windows.asked offset length true ∈ held then held.erase (Windows.asked offset length true)
  else held.erase (Windows.asked offset length false)

def lower (held : Ledger) : Ledger :=
  if Windows.asked offset length true ∈ held then
    Windows.asked offset length false :: held.erase (Windows.asked offset length true)
  else held

def note (held : Ledger) : Plan → Ledger
  | .take type => Windows.asked offset length (type = .wrlock) :: held
  | .lower => lower offset length held
  | .raise => held
  | .release => drop offset length held

def Has (held : Ledger) : Prop := ∃ exclusive, Windows.asked offset length exclusive ∈ held

-- Nothing is locked twice, and what is lowered or unlocked is a lock on that very
-- range.
def Proper (held : Ledger) : Plan → Prop
  | .take _ => ∀ lock ∈ held, ¬ (Windows.asked offset length true).Overlaps lock
  | .lower | .release => Has offset length held
  | .raise => False

end

def level (held : Ledger) : Linux.Own := fun byte => if byte < Linux.offsetEnd then Windows.level held byte else none

section
variable (offset length : UInt64)

theorem usable_windows (usable : Usable offset length) : Windows.backend.Fits offset length := by
  obtain ⟨⟨small, short, room⟩, whole⟩ := usable
  show offset.toNat + (Windows.wholeLength length).toNat ≤ Windows.sizeMax.toNat
  have max : Windows.sizeMax.toNat = 2 ^ 64 - 1 := by decide
  have limit : Linux.offsetEnd = 2 ^ 63 := rfl
  by_cases empty : length = 0
  · rw [whole empty, Windows.wholeLength, if_pos empty]
    decide
  · rw [Windows.wholeLength, if_neg empty]
    omega

theorem covers_within (usable : Usable offset length) (exclusive : Bool) (byte : Nat) (below : byte < Linux.offsetEnd) :
    (Windows.asked offset length exclusive).Covers byte ↔ Within Linux.offsetEnd offset length byte := by
  rw [Windows.asked_covers offset length exclusive byte (usable_windows offset length usable), Within, Within]
  have max : Windows.sizeMax.toNat = 2 ^ 64 - 1 := by decide
  have limit : Linux.offsetEnd = 2 ^ 63 := rfl
  by_cases empty : length = 0
  · rw [if_pos empty, if_pos empty]
    omega
  · rw [if_neg empty, if_neg empty]

theorem within_below (usable : Usable offset length) (byte : Nat) (within : Within Linux.offsetEnd offset length byte) :
    byte < Linux.offsetEnd := by
  obtain ⟨⟨_, _, room⟩, _⟩ := usable
  obtain ⟨_, ends⟩ := within
  split at ends
  · exact ends
  · omega

theorem asked_start (usable : Usable offset length) (exclusive : Bool) :
    (Windows.asked offset length exclusive).Covers offset.toNat := by
  have fits := usable_windows offset length usable
  exact (Windows.asked_covers offset length exclusive _ fits).mpr (Windows.fits_within offset length fits)

theorem overlap_byte (offset' length' : UInt64) (exclusive exclusive' : Bool) (usable : Usable offset length)
    (usable' : Usable offset' length')
    (overlaps : (Windows.asked offset length exclusive).Overlaps (Windows.asked offset' length' exclusive')) :
    ∃ byte, byte < Linux.offsetEnd ∧ (Windows.asked offset length exclusive).Covers byte ∧
      (Windows.asked offset' length' exclusive').Covers byte := by
  obtain ⟨first, second⟩ := overlaps
  rcases Nat.le_total offset.toNat offset'.toNat with before | after
  · exact ⟨offset'.toNat, usable'.fits.1, ⟨before, second⟩, asked_start offset' length' usable' exclusive'⟩
  · exact ⟨offset.toNat, usable.fits.1, asked_start offset length usable exclusive, ⟨after, first⟩⟩

theorem flock_covers (usable : Usable offset length) (type : Option LockType) (exclusive : Bool) (byte : Nat)
    (below : byte < Linux.offsetEnd) :
    (Linux.flock offset length type).Covers byte ↔ (Windows.asked offset length exclusive).Covers byte := by
  rw [Linux.flock_covers offset length type byte usable.fits, covers_within offset length usable exclusive byte below]

theorem level_below (held : Ledger) (byte : Nat) (below : byte < Linux.offsetEnd) :
    level held byte = Windows.level held byte :=
  if_pos below

theorem level_congr (held held' : Ledger) (same : ∀ lock : Windows.RangeLock, lock ∈ held' ↔ lock ∈ held) :
    level held' = level held := by
  funext byte
  rw [level, level, Windows.level_congr held held' byte fun lock _ => same lock]

theorem level_placed (rest : Ledger) (type : Option LockType) (byte : Nat)
    (covers : (Windows.asked offset length true).Covers byte) (free : ∀ lock ∈ rest, ¬ lock.Covers byte) :
    Windows.level ((type.map fun mode => Windows.asked offset length (mode = .wrlock)).toList ++ rest) byte = type := by
  cases type with
  | none =>
      by_contra held
      obtain ⟨lock, member, covered⟩ := (Windows.level_none _ byte).mp held
      exact free lock member covered
  | some mode =>
      have placed : Windows.asked offset length (mode = .wrlock) ∈
          ((some mode).map fun mode => Windows.asked offset length (mode = .wrlock)).toList ++ rest := .head _
      cases mode with
      | wrlock => exact (Windows.level_wrlock _ byte).mpr ⟨_, placed, rfl, covers⟩
      | rdlock =>
          have held := (Windows.level_none _ byte).mpr ⟨_, placed, covers⟩
          cases now : Windows.level _ byte with
          | none => exact absurd now held
          | some mode =>
              cases mode with
              | rdlock => rfl
              | wrlock =>
                  obtain ⟨lock, member, exclusive, covered⟩ := (Windows.level_wrlock _ byte).mp now
                  rcases List.mem_cons.mp member with rfl | older
                  · cases exclusive
                  · exact absurd covered (free lock older)

theorem applied (usable : Usable offset length) (held rest : Ledger) (type : Option LockType)
    (outside : ∀ lock : Windows.RangeLock, lock ≠ Windows.asked offset length lock.exclusive → (lock ∈ rest ↔ lock ∈ held))
    (inside : ∀ lock ∈ rest, ¬ (Windows.asked offset length true).Overlaps lock) :
    (Linux.flock offset length type).apply (level held) =
      level ((type.map fun mode => Windows.asked offset length (mode = .wrlock)).toList ++ rest) := by
  funext byte
  rw [Linux.Flock.apply]
  by_cases below : byte < Linux.offsetEnd
  · rw [level_below _ byte below, level_below _ byte below]
    by_cases covers : (Windows.asked offset length true).Covers byte
    · rw [if_pos ((flock_covers offset length usable type true byte below).mpr covers)]
      have free : ∀ lock ∈ rest, ¬ lock.Covers byte := fun lock member covered =>
        inside lock member (Windows.overlaps_of_covers _ lock byte covers covered)
      exact (level_placed offset length rest type byte covers free).symm
    · rw [if_neg (mt (flock_covers offset length usable type true byte below).mp covers)]
      refine (Windows.level_congr held _ byte fun lock covered => ?_).symm
      have other : lock ≠ Windows.asked offset length lock.exclusive := by
        intro same
        rw [same] at covered
        exact covers covered
      rw [List.mem_append, outside lock other]
      refine or_iff_right fun placed => other ?_
      obtain ⟨mode, _, same⟩ := Option.map_eq_some_iff.mp (Option.mem_toList.mp placed)
      rw [← same]
      rfl
  · rw [if_neg fun covers => ?_, level, level, if_neg below, if_neg below]
    exact below (within_below offset length usable byte ((Linux.flock_covers offset length type byte usable.fits).mp covers))

theorem overlaps_symm (lock other : Windows.RangeLock) (overlaps : lock.Overlaps other) : other.Overlaps lock :=
  ⟨overlaps.2, overlaps.1⟩

theorem kept_placed (usable : Usable offset length) (exclusive : Bool) (rest : Ledger) (kept : Kept rest)
    (inside : ∀ lock ∈ rest, ¬ (Windows.asked offset length true).Overlaps lock) :
    Kept (Windows.asked offset length exclusive :: rest) where
  usable := List.forall_mem_cons.mpr ⟨⟨offset, length, usable, rfl⟩, kept.usable⟩
  apart := List.pairwise_cons.mpr ⟨inside, kept.apart⟩

structure Erased (held rest : Ledger) : Prop where
  kept : Kept rest
  inside : ∀ lock ∈ rest, ¬ (Windows.asked offset length true).Overlaps lock
  outside : ∀ lock : Windows.RangeLock, lock ≠ Windows.asked offset length lock.exclusive → (lock ∈ rest ↔ lock ∈ held)

theorem erased (held : Ledger) (kept : Kept held) (exclusive : Bool) (member : Windows.asked offset length exclusive ∈ held) :
    Erased offset length held (held.erase (Windows.asked offset length exclusive)) := by
  have sublist := List.erase_sublist (a := Windows.asked offset length exclusive) (l := held)
  have front : (Windows.asked offset length exclusive :: held.erase (Windows.asked offset length exclusive)).Pairwise
      fun lock other => ¬ lock.Overlaps other := by
    refine (List.Perm.pairwise_iff ?_ (List.perm_cons_erase member)).mp kept.apart
    exact fun apart overlaps => apart (overlaps_symm _ _ overlaps)
  refine ⟨⟨fun lock there => kept.usable lock (sublist.subset there), kept.apart.sublist sublist⟩,
    (List.pairwise_cons.mp front).1, fun lock other => ?_⟩
  refine List.mem_erase_of_ne ?_
  rintro rfl
  exact other rfl

theorem noted (usable : Usable offset length) (held : Ledger) (kept : Kept held) (plan : Plan)
    (proper : Proper offset length held plan) :
    Kept (note offset length held plan) ∧
      (Linux.flock offset length plan.wanted).apply (level held) = level (note offset length held plan) := by
  cases plan with
  | take mode =>
      exact ⟨kept_placed offset length usable _ held kept proper,
        applied offset length usable held held (some mode) (fun _ _ => Iff.rfl) proper⟩
  | lower =>
      obtain ⟨exclusive, member⟩ := proper
      rw [note, lower]
      by_cases strong : Windows.asked offset length true ∈ held
      · have rest := erased offset length held kept true strong
        rw [if_pos strong]
        exact ⟨kept_placed offset length usable false _ rest.kept rest.inside,
          applied offset length usable held _ (some .rdlock) rest.outside rest.inside⟩
      · have weak : Windows.asked offset length false ∈ held := by
          cases exclusive with
          | true => exact absurd member strong
          | false => exact member
        have rest := erased offset length held kept false weak
        rw [if_neg strong]
        refine ⟨kept, (applied offset length usable held _ (some .rdlock) rest.outside rest.inside).trans ?_⟩
        exact level_congr held _ fun lock => ((List.perm_cons_erase weak).mem_iff).symm
  | raise => exact proper.elim
  | release =>
      obtain ⟨exclusive, member⟩ := proper
      rw [note, drop]
      by_cases strong : Windows.asked offset length true ∈ held
      · have rest := erased offset length held kept true strong
        rw [if_pos strong]
        exact ⟨rest.kept, applied offset length usable held _ none rest.outside rest.inside⟩
      · have weak : Windows.asked offset length false ∈ held := by
          cases exclusive with
          | true => exact absurd member strong
          | false => exact member
        have rest := erased offset length held kept false weak
        rw [if_neg strong]
        exact ⟨rest.kept, applied offset length usable held _ none rest.outside rest.inside⟩

theorem unlock_effect (held : Ledger) (has : Has offset length held) :
    (Windows.unlockOp offset length).effect held = some (drop offset length held) := by
  obtain ⟨exclusive, member⟩ := has
  rw [Windows.unlock_op_effect, drop]
  split
  · rfl
  · rename_i weak
    cases exclusive with
    | true => exact absurd member weak
    | false => exact if_pos member

theorem stacked_effect (held : Ledger) :
    (Windows.unlockOp offset length).effect (Windows.asked offset length false :: held) =
      some (lower offset length held) := by
  have different : Windows.asked offset length true ≠ Windows.asked offset length false := by simp [Windows.asked]
  rw [Windows.unlock_op_effect, lower]
  by_cases strong : Windows.asked offset length true ∈ held
  · rw [if_pos strong, if_pos (List.mem_cons_of_mem _ strong), List.erase_cons_tail (by simpa using different.symm)]
  · have weak : Windows.asked offset length true ∉ Windows.asked offset length false :: held := by
      rw [List.mem_cons]
      exact fun either => either.elim different strong
    rw [if_neg strong, if_neg weak, if_pos List.mem_cons_self, List.erase_cons_head]

end

section
variable {D : Type} (windows : D → Windows.Own) (linux : D → Linux.Own) (d : D) (offset length : UInt64)

theorem unlock_grants : Linux.Grantable linux d (Linux.flock offset length none) := fun _ _ _ _ clash => clash.1 rfl

theorem linux_grants (usable : Usable offset length) (type : LockType)
    (fewer : ∀ e, ∃ held, held ⊆ windows e ∧ linux e = level held)
    (grantable : Windows.Grantable windows d (Windows.asked offset length (type = .wrlock))) :
    Linux.Grantable linux d (Linux.flock offset length (some type)) := by
  intro e different byte covers clash
  obtain ⟨held, subset, same⟩ := fewer e
  have below := within_below offset length usable byte ((Linux.flock_covers offset length _ byte usable.fits).mp covers)
  have covered := (flock_covers offset length usable _ (type = .wrlock) byte below).mp covers
  rw [same, level_below held byte below] at clash
  obtain ⟨_, locked, strong⟩ := clash
  rw [Windows.Grantable] at grantable
  cases type with
  | wrlock =>
      obtain ⟨lock, member, covered'⟩ := (Windows.level_none held byte).mp locked
      exact grantable e lock (subset member) (Windows.overlaps_of_covers _ lock byte covered covered')
  | rdlock =>
      have theirs : Windows.level held byte = some .wrlock := strong.resolve_left fun ours => by cases ours
      obtain ⟨lock, member, exclusive, covered'⟩ := (Windows.level_wrlock held byte).mp theirs
      exact grantable e different lock (subset member) exclusive (Windows.overlaps_of_covers _ lock byte covered covered')

def Stands (held own : Ledger) : Prop :=
  ∀ lock ∈ own, ∃ other ∈ held, other.start = lock.start ∧ other.length = lock.length ∧
    (lock.exclusive = true → other.exclusive = true)

theorem windows_grants (usable : Usable offset length) (type : LockType)
    (stands : ∀ e, ∃ held, Kept held ∧ linux e = level held ∧ Stands held (windows e))
    (own : type = .wrlock → ∀ lock ∈ windows d, ¬ (Windows.asked offset length true).Overlaps lock)
    (grantable : Linux.Grantable linux d (Linux.flock offset length (some type))) :
    Windows.Grantable windows d (Windows.asked offset length (type = .wrlock)) := by
  have meets : ∀ e lock, lock ∈ windows e → (Windows.asked offset length (type = .wrlock)).Overlaps lock →
      ∃ byte, (Linux.flock offset length (some type)).Covers byte ∧ linux e byte ≠ none ∧
        (lock.exclusive = true → linux e byte = some .wrlock) := by
    intro e lock member overlaps
    obtain ⟨held, kept, same, stands⟩ := stands e
    obtain ⟨other, member', start, length_, strong⟩ := stands lock member
    obtain ⟨offset', length', usable', asked⟩ := kept.usable other member'
    have overlaps' : (Windows.asked offset length (type = .wrlock)).Overlaps other := by
      rw [Windows.RangeLock.Overlaps, start, length_]
      exact overlaps
    rw [asked] at overlaps'
    obtain ⟨byte, below, ours, theirs⟩ := overlap_byte offset length offset' length' _ _ usable usable' overlaps'
    rw [← asked] at theirs
    refine ⟨byte, (flock_covers offset length usable _ _ byte below).mpr ours, ?_, fun exclusive => ?_⟩
    · rw [same, level_below _ byte below]
      exact (Windows.level_none _ byte).mpr ⟨other, member', theirs⟩
    · rw [same, level_below _ byte below]
      exact (Windows.level_wrlock _ byte).mpr ⟨other, member', strong exclusive, theirs⟩
  rw [Windows.Grantable]
  cases type with
  | wrlock =>
      intro e lock member overlaps
      by_cases here : e = d
      · exact own rfl lock (here ▸ member) overlaps
      · obtain ⟨byte, covers, locked, _⟩ := meets e lock member overlaps
        exact grantable e here byte covers ⟨Option.some_ne_none _, locked, .inl rfl⟩
  | rdlock =>
      intro e different lock member exclusive overlaps
      obtain ⟨byte, covers, locked, strong⟩ := meets e lock member overlaps
      exact grantable e different byte covers ⟨Option.some_ne_none _, locked, .inr (strong exclusive)⟩

end

def after (request : Request) (held : Ledger) : Outcome → Ledger
  | .returned true => note request.offset request.length held request.call.plan
  | _ => held

structure Allowed (request : Request) (held : Ledger) : Prop where
  usable : Usable request.offset request.length
  proper : Proper request.offset request.length held request.call.plan

theorem after_ok (request : Request) (held : Ledger) :
    after request held (request.call.shown (.ok ())) = note request.offset request.length held request.call.plan := by
  have shown : request.call.shown (.ok ()) = .returned true := by
    rw [LockCall.shown]
    split
    · exact try_outcome_tells.1
    · exact outcome_tells.1
  rw [shown]
  rfl

theorem after_error (request : Request) (held : Ledger) (err : UvError) :
    after request held (request.call.shown (.error err)) = held := by
  have failed : request.call.shown (.error err) ≠ .returned true := by
    rw [LockCall.shown]
    split
    · exact try_outcome_tells.2 err
    · exact outcome_tells.2 err
  generalize request.call.shown (.error err) = result at failed
  cases result with
  | threw err => rfl
  | returned value =>
      cases value with
      | true => exact absurd rfl failed
      | false => rfl

section
variable {Op V : Type} {Answer : Op → Type} (opens : Request → V → V) (closes : Request → V → Outcome → V)

def calls (backend : Backend Op Answer) : Interface Request Op Answer Outcome (Ledger × V) :=
  callsOn (fun request before => (before.1, opens request before.2))
    (fun request before result => (after request before.1 result, closes request before.2 result)) backend

end

def OnLedger {D Own Op V : Type} {Answer : Op → Type} (state : Service D Own Request Op Answer Outcome (Ledger × V))
    (d : D) (request : Request) : Prop :=
  ∃ now, state.party d = .idle now ∧ Allowed request now.1

def windowsProgram (request : Request) : Program Windows.LockFileOp Windows.LockFileAnswer Outcome :=
  request.call.plan.windows request.offset request.length request.call.shown request.call.tries

def linuxProgram (request : Request) : Program Linux.FcntlOp Linux.FcntlAnswer Outcome :=
  request.call.plan.linux request.offset request.length request.call.shown request.call.tries

section
variable {V : Type}

inductive Together : Windows.Own → Party Request Windows.LockFileOp Windows.LockFileAnswer Outcome (Ledger × V) →
    Linux.Own → Party Request Linux.FcntlOp Linux.FcntlAnswer Outcome (Ledger × V) → Prop where
  | idle (now : Ledger × V) (kept : Kept now.1) : Together now.1 (.idle now) (level now.1) (.idle now)
  | fresh (request : Request) (before : Ledger × V) (kept : Kept before.1) (allowed : Allowed request before.1) :
      Together before.1 (.busy request before (windowsProgram request)) (level before.1)
        (.busy request before (linuxProgram request))

inductive Halfway : Windows.Own → Party Request Windows.LockFileOp Windows.LockFileAnswer Outcome (Ledger × V) →
    Linux.Own → Party Request Linux.FcntlOp Linux.FcntlAnswer Outcome (Ledger × V) → Prop where
  | together (own : Windows.Own) (left : Party Request Windows.LockFileOp Windows.LockFileAnswer Outcome (Ledger × V))
      (own' : Linux.Own) (right : Party Request Linux.FcntlOp Linux.FcntlAnswer Outcome (Ledger × V))
      (both : Together own left own' right) : Halfway own left own' right
  | lowering (request : Request) (before : Ledger × V) (kept : Kept before.1) (allowed : Allowed request before.1)
      (lowers : request.call.plan = .lower) :
      Halfway (Windows.asked request.offset request.length false :: before.1)
        (.busy request before (Plan.unlockThen request.offset request.length request.call.shown)) (level before.1)
        (.busy request before (linuxProgram request))

theorem together_kept (own : Windows.Own) (left : Party Request Windows.LockFileOp Windows.LockFileAnswer Outcome (Ledger × V))
    (own' : Linux.Own) (right : Party Request Linux.FcntlOp Linux.FcntlAnswer Outcome (Ledger × V))
    (both : Together own left own' right) : Kept own ∧ own' = level own := by
  cases both with
  | idle now kept => exact ⟨kept, rfl⟩
  | fresh request before kept => exact ⟨kept, rfl⟩

theorem stands_self (held : Ledger) : Stands held held := fun lock member => ⟨lock, member, rfl, rfl, fun strong => strong⟩

theorem halfway_stands (own : Windows.Own) (left : Party Request Windows.LockFileOp Windows.LockFileAnswer Outcome (Ledger × V))
    (own' : Linux.Own) (right : Party Request Linux.FcntlOp Linux.FcntlAnswer Outcome (Ledger × V))
    (halfway : Halfway own left own' right) :
    ∃ held, Kept held ∧ own' = level held ∧ held ⊆ own ∧ Stands held own := by
  cases halfway with
  | together _ _ _ _ both =>
      obtain ⟨kept, same⟩ := together_kept own left own' right both
      exact ⟨own, kept, same, fun _ member => member, stands_self own⟩
  | lowering request before kept allowed lowers =>
      have proper := allowed.proper
      rw [lowers] at proper
      obtain ⟨exclusive, member⟩ := proper
      refine ⟨before.1, kept, rfl, List.subset_cons_self _ _, List.forall_mem_cons.mpr ⟨?_, stands_self before.1⟩⟩
      exact ⟨_, member, rfl, rfl, fun strong => by cases strong⟩

theorem together_idle (own : Windows.Own)
    (left : Party Request Windows.LockFileOp Windows.LockFileAnswer Outcome (Ledger × V)) (own' : Linux.Own)
    (now : Ledger × V) (together : Together own left own' (.idle now)) :
    Kept now.1 ∧ own = now.1 ∧ own' = level now.1 ∧ left = .idle now := by
  cases together with
  | idle _ kept => exact ⟨kept, rfl, rfl, rfl⟩

theorem together_busy (own : Windows.Own)
    (left : Party Request Windows.LockFileOp Windows.LockFileAnswer Outcome (Ledger × V)) (own' : Linux.Own)
    (request : Request) (before : Ledger × V) (rest : Program Linux.FcntlOp Linux.FcntlAnswer Outcome)
    (together : Together own left own' (.busy request before rest)) :
    Kept before.1 ∧ Allowed request before.1 ∧ own = before.1 ∧
      left = .busy request before (windowsProgram request) ∧ own' = level before.1 ∧ rest = linuxProgram request := by
  cases together with
  | fresh _ _ kept allowed => exact ⟨kept, allowed, rfl, rfl, rfl, rfl⟩

theorem halfway_idle (own : Windows.Own) (now : Ledger × V) (own' : Linux.Own)
    (right : Party Request Linux.FcntlOp Linux.FcntlAnswer Outcome (Ledger × V))
    (halfway : Halfway own (.idle now) own' right) :
    Kept now.1 ∧ own = now.1 ∧ own' = level now.1 ∧ right = .idle now := by
  cases halfway with
  | together _ _ _ _ both =>
      cases both with
      | idle _ kept => exact ⟨kept, rfl, rfl, rfl⟩

theorem halfway_busy (own : Windows.Own) (request : Request) (before : Ledger × V)
    (rest : Program Windows.LockFileOp Windows.LockFileAnswer Outcome) (own' : Linux.Own)
    (right : Party Request Linux.FcntlOp Linux.FcntlAnswer Outcome (Ledger × V))
    (halfway : Halfway own (.busy request before rest) own' right) :
    Kept before.1 ∧ Allowed request before.1 ∧ own' = level before.1 ∧
      right = .busy request before (linuxProgram request) ∧
      (own = before.1 ∧ rest = windowsProgram request ∨
        request.call.plan = .lower ∧ own = Windows.asked request.offset request.length false :: before.1 ∧
          rest = Plan.unlockThen request.offset request.length request.call.shown) := by
  cases halfway with
  | together _ _ _ _ both =>
      cases both with
      | fresh _ _ kept allowed => exact ⟨kept, allowed, rfl, rfl, .inl ⟨rfl, rfl⟩⟩
  | lowering _ _ kept allowed lowers => exact ⟨kept, allowed, rfl, rfl, .inr ⟨lowers, rfl, rfl⟩⟩

variable (opens : Request → V → V) (closes : Request → V → Outcome → V) (request : Request) (before : Ledger × V)

theorem finished_ok (kept : Kept before.1) (allowed : Allowed request before.1) :
    Together (note request.offset request.length before.1 request.call.plan)
      (Service.resume (calls opens closes Windows.backend) request before (.ret (request.call.shown (.ok ()))))
      (level (note request.offset request.length before.1 request.call.plan))
      (Service.resume (calls opens closes Linux.backend) request before (.ret (request.call.shown (.ok ())))) := by
  have after := after_ok request before.1
  have kept' := (noted request.offset request.length allowed.usable before.1 kept request.call.plan allowed.proper).1
  rw [← after] at kept' ⊢
  exact .idle (_, _) kept'

theorem finished_error (kept : Kept before.1) (err : UvError) :
    Together before.1
      (Service.resume (calls opens closes Windows.backend) request before (.ret (request.call.shown (.error err))))
      (level before.1)
      (Service.resume (calls opens closes Linux.backend) request before (.ret (request.call.shown (.error err)))) := by
  show Together before.1 (.idle (after request before.1 (request.call.shown (.error err)), _)) (level before.1)
    (.idle (after request before.1 (request.call.shown (.error err)), _))
  rw [after_error]
  exact .idle (before.1, closes request before.2 (request.call.shown (.error err))) kept

end

section
variable {D V : Type} [DecidableEq D] (may : UvError → Prop) (opens : Request → V → V)
  (closes : Request → V → Outcome → V)

abbrev WindowsState (D V : Type) := Service D Windows.Own Request Windows.LockFileOp Windows.LockFileAnswer Outcome (Ledger × V)

abbrev LinuxState (D V : Type) := Service D Linux.Own Request Linux.FcntlOp Linux.FcntlAnswer Outcome (Ledger × V)

abbrev LinuxStep : LinuxState D V → LinuxState D V → Prop :=
  Service.Step (calls opens closes Linux.backend) OnLedger (Linux.steady may)

abbrev WindowsStep : WindowsState D V → WindowsState D V → Prop :=
  Service.Step (calls opens closes Windows.backend) OnLedger (Windows.steady may)

structure Follows (windows : WindowsState D V) (linux : LinuxState D V) : Prop where
  halfway : ∀ d, Halfway (windows.table d) (windows.party d) (linux.table d) (linux.party d)
  compatible : Compatible id linux.table

variable (windows : WindowsState D V) (linux : LinuxState D V) (d : D) (request : Request) (before : Ledger × V)

theorem linux_ok (kept : Kept before.1) (allowed : Allowed request before.1) (same : linux.table d = level before.1)
    (busy : linux.party d = .busy request before (linuxProgram request))
    (grantable : Linux.Grantable linux.table d (Linux.flock request.offset request.length request.call.plan.wanted)) :
    LinuxStep may opens closes linux
      { table := Function.update linux.table d (level (note request.offset request.length before.1 request.call.plan))
        party := Function.update linux.party d
          (Service.resume (calls opens closes Linux.backend) request before (.ret (request.call.shown (.ok ())))) } := by
  have data := Plan.setlk_data request.offset request.length request.call.tries request.call.plan
  have effect := (noted request.offset request.length allowed.usable before.1 kept request.call.plan allowed.proper).2
  have answered : Linux.steady may d (request.call.plan.setlk request.offset request.length request.call.tries) linux.table
      (.ok ()) (Function.update linux.table d (level (note request.offset request.length before.1 request.call.plan))) := by
    refine ⟨⟨?_, ?_⟩, ?_⟩
    · rw [data]
      exact grantable
    · rw [data, same, effect]
    · cases request.call.plan.setlk request.offset request.length request.call.tries <;> trivial
  exact .asks d request before _ _ _ _ busy answered

theorem linux_error (busy : linux.party d = .busy request before (linuxProgram request)) (err : UvError)
    (wants : request.call.plan.wanted ≠ none)
    (excused : may err ∨ request.call.tries = true ∧ err = .EAGAIN ∧
      ¬ Linux.Grantable linux.table d (Linux.flock request.offset request.length request.call.plan.wanted)) :
    LinuxStep may opens closes linux
      { table := linux.table
        party := Function.update linux.party d
          (Service.resume (calls opens closes Linux.backend) request before (.ret (request.call.shown (.error err)))) } := by
  have answered : Linux.steady may d (request.call.plan.setlk request.offset request.length request.call.tries) linux.table
      (.error err) linux.table :=
    ⟨rfl, (Linux.setlk_excused may d linux.table _ _ _ _ err).mpr ⟨wants, excused⟩⟩
  exact .asks d request before _ _ _ _ busy answered

def Answered (table : D → Windows.Own)
    (party : Party Request Windows.LockFileOp Windows.LockFileAnswer Outcome (Ledger × V)) : Prop :=
  ∃ own own' mine, table = Function.update windows.table d own ∧
    Relation.ReflTransGen (LinuxStep may opens closes) linux
      ⟨Function.update linux.table d own', Function.update linux.party d mine⟩ ∧
    Halfway own party own' mine

variable (table : D → Windows.Own)

theorem granted_answered (kept : Kept before.1) (allowed : Allowed request before.1)
    (same : linux.table d = level before.1) (busy : linux.party d = .busy request before (linuxProgram request))
    (grantable : Linux.Grantable linux.table d (Linux.flock request.offset request.length request.call.plan.wanted))
    (changed : table = Function.update windows.table d
      (note request.offset request.length before.1 request.call.plan)) :
    Answered may opens closes windows linux d table
      (Service.resume (calls opens closes Windows.backend) request before (.ret (request.call.shown (.ok ())))) :=
  ⟨_, _, _, changed, .single (linux_ok may opens closes linux d request before kept allowed same busy grantable),
    .together _ _ _ _ (finished_ok opens closes request before kept allowed)⟩

theorem failed_answered (follows : Follows windows linux) (kept : Kept before.1) (allowed : Allowed request before.1)
    (same : linux.table d = level before.1) (same' : windows.table d = before.1)
    (busy : linux.party d = .busy request before (linuxProgram request)) (type : LockType)
    (wanted : request.call.plan.wanted = some type)
    (own : type = .wrlock → ∀ lock ∈ before.1, ¬ (Windows.asked request.offset request.length true).Overlaps lock)
    (err : UvError)
    (excused : may err ∨ request.call.tries = true ∧ err = .EBUSY ∧
      ¬ Windows.Grantable windows.table d (Windows.asked request.offset request.length (type = .wrlock)))
    (unchanged : table = Function.update windows.table d (windows.table d)) :
    Answered may opens closes windows linux d table
      (Service.resume (calls opens closes Windows.backend) request before (.ret (request.call.shown (.error err)))) := by
  have wants : request.call.plan.wanted ≠ none := by simp [wanted]
  obtain ⟨err', shown, excused'⟩ : ∃ err', request.call.shown (.error err') = request.call.shown (.error err) ∧
      (may err' ∨ request.call.tries = true ∧ err' = .EAGAIN ∧
        ¬ Linux.Grantable linux.table d (Linux.flock request.offset request.length request.call.plan.wanted)) := by
    rcases excused with trouble | ⟨tries, rfl, refused⟩
    · exact ⟨err, rfl, .inl trouble⟩
    · obtain ⟨isBusy, again⟩ := shown_refused request.call tries
      refine ⟨.EAGAIN, again.trans isBusy.symm, .inr ⟨tries, rfl, fun grantable => refused ?_⟩⟩
      rw [wanted] at grantable
      refine windows_grants windows.table linux.table d request.offset request.length allowed.usable type
        (fun e => ?_) (fun strong => by rw [same']; exact own strong) grantable
      obtain ⟨held, keptHeld, sameHeld, _, stands⟩ := halfway_stands _ _ _ _ (follows.halfway e)
      exact ⟨held, keptHeld, sameHeld, stands⟩
  refine ⟨_, linux.table d,
    Service.resume (calls opens closes Linux.backend) request before (.ret (request.call.shown (.error err'))),
    unchanged, ?_, ?_⟩
  · rw [Function.update_eq_self]
    exact .single (linux_error may opens closes linux d request before busy err' wants excused')
  · rw [same, same', ← shown]
    exact .together _ _ _ _ (finished_error opens closes request before kept err')

theorem take_answered (follows : Follows windows linux) (kept : Kept before.1) (allowed : Allowed request before.1)
    (same : linux.table d = level before.1) (same' : windows.table d = before.1)
    (busy : linux.party d = .busy request before (linuxProgram request)) (type : LockType)
    (plan : request.call.plan = .take type) (answer : Status)
    (step : Windows.steady may d
      (Windows.lockOp request.call.tries (type = .wrlock) request.offset request.length) windows.table answer table) :
    Answered may opens closes windows linux d table
      (Service.resume (calls opens closes Windows.backend) request before (.ret (request.call.shown answer))) := by
  have wanted : request.call.plan.wanted = some type := by rw [plan, Plan.wanted]
  have proper := allowed.proper
  rw [plan] at proper
  rcases Windows.lock_answered may d _ _ _ _ _ _ answer step with
    ⟨rfl, grantable, changed⟩ | ⟨err, rfl, excused, unchanged⟩
  · have fewer : ∀ e, ∃ held, held ⊆ windows.table e ∧ linux.table e = level held := fun e => by
      obtain ⟨held, _, sameHeld, subset, _⟩ := halfway_stands _ _ _ _ (follows.halfway e)
      exact ⟨held, subset, sameHeld⟩
    have grants := linux_grants windows.table linux.table d request.offset request.length allowed.usable type fewer grantable
    refine granted_answered may opens closes windows linux d request before table kept allowed same busy ?_ ?_
    · rw [wanted]
      exact grants
    · rw [changed, plan, same', note]
  · exact failed_answered may opens closes windows linux d request before table follows kept allowed same same' busy type
      wanted (fun _ => proper) err excused unchanged

theorem lower_answered (follows : Follows windows linux) (kept : Kept before.1) (allowed : Allowed request before.1)
    (same : linux.table d = level before.1) (same' : windows.table d = before.1)
    (busy : linux.party d = .busy request before (linuxProgram request)) (plan : request.call.plan = .lower)
    (answer : Status)
    (step : Windows.steady may d (Windows.lockOp request.call.tries false request.offset request.length) windows.table
      answer table) :
    Answered may opens closes windows linux d table
      (Service.resume (calls opens closes Windows.backend) request before
        (Plan.lowerThen request.offset request.length request.call.shown answer)) := by
  have wanted : request.call.plan.wanted = some .rdlock := by rw [plan, Plan.wanted]
  rcases Windows.lock_answered may d _ _ _ _ _ _ answer step with ⟨rfl, _, changed⟩ | ⟨err, rfl, excused, unchanged⟩
  · refine ⟨_, linux.table d, linux.party d, changed, ?_, ?_⟩
    · rw [Function.update_eq_self, Function.update_eq_self]
    · rw [same, same', busy]
      exact .lowering request before kept allowed plan
  · exact failed_answered may opens closes windows linux d request before table follows kept allowed same same' busy
      .rdlock wanted (fun strong => by cases strong) err excused unchanged

theorem release_answered (kept : Kept before.1) (allowed : Allowed request before.1)
    (same : linux.table d = level before.1) (same' : windows.table d = before.1)
    (busy : linux.party d = .busy request before (linuxProgram request)) (plan : request.call.plan = .release)
    (answer : Status)
    (step : Windows.steady may d (Windows.unlockOp request.offset request.length) windows.table answer table) :
    Answered may opens closes windows linux d table
      (Service.resume (calls opens closes Windows.backend) request before (.ret (request.call.shown answer))) := by
  have proper := allowed.proper
  rw [plan] at proper
  have released := unlock_effect request.offset request.length before.1 proper
  rw [← same'] at released
  obtain ⟨rfl, changed⟩ := Windows.unlock_answered may d _ _ _ _ answer _ released step
  refine granted_answered may opens closes windows linux d request before table kept allowed same busy ?_ ?_
  · rw [plan]
    exact unlock_grants linux.table d request.offset request.length
  · rw [changed, plan, same', note]

theorem lowering_answered (follows : Follows windows linux) (kept : Kept before.1) (allowed : Allowed request before.1)
    (same : linux.table d = level before.1)
    (stacked : windows.table d = Windows.asked request.offset request.length false :: before.1)
    (busy : linux.party d = .busy request before (linuxProgram request)) (plan : request.call.plan = .lower)
    (answer : Status)
    (step : Windows.steady may d (Windows.unlockOp request.offset request.length) windows.table answer table) :
    Answered may opens closes windows linux d table
      (Service.resume (calls opens closes Windows.backend) request before (.ret (request.call.shown answer))) := by
  have released := stacked_effect request.offset request.length before.1
  rw [← stacked] at released
  obtain ⟨rfl, changed⟩ := Windows.unlock_answered may d _ _ _ _ answer _ released step
  have proper := allowed.proper
  rw [plan] at proper
  obtain ⟨exclusive, member⟩ := proper
  refine granted_answered may opens closes windows linux d request before table kept allowed same busy ?_ ?_
  · rw [plan, Plan.wanted]
    intro e different byte covers clash
    have below := within_below request.offset request.length allowed.usable byte
      ((Linux.flock_covers request.offset request.length _ byte allowed.usable.fits).mp covers)
    have covered := (flock_covers request.offset request.length allowed.usable _ exclusive byte below).mp covers
    have locked : linux.table d byte ≠ none := by
      rw [same, level_below before.1 byte below]
      exact (Windows.level_none before.1 byte).mpr ⟨_, member, covered⟩
    exact follows.compatible d e (Ne.symm different) byte
      ⟨locked, clash.2.1, .inr (clash.2.2.resolve_left fun ours => by cases ours)⟩
  · rw [changed, plan, note]

theorem call_answered (follows : Follows windows linux) (op : Windows.LockFileOp)
    (next : Windows.LockFileAnswer op → Program Windows.LockFileOp Windows.LockFileAnswer Outcome)
    (busy : windows.party d = .busy request before (.call op next)) (answer : Windows.LockFileAnswer op)
    (step : Windows.steady may d op windows.table answer table) :
    Answered may opens closes windows linux d table
      (Service.resume (calls opens closes Windows.backend) request before (next answer)) := by
  have halfway := follows.halfway d
  rw [busy] at halfway
  obtain ⟨kept, allowed, same, busy', ⟨same', made⟩ | ⟨plan, stacked, made⟩⟩ := halfway_busy _ _ _ _ _ _ halfway
  · rw [windowsProgram] at made
    cases plan : request.call.plan with
    | take type =>
        rw [plan] at made
        cases made
        exact take_answered may opens closes windows linux d request before table follows kept allowed same same' busy' type
          plan answer step
    | lower =>
        rw [plan] at made
        cases made
        exact lower_answered may opens closes windows linux d request before table follows kept allowed same same' busy' plan
          answer step
    | raise =>
        have proper := allowed.proper
        rw [plan] at proper
        exact proper.elim
    | release =>
        rw [plan] at made
        cases made
        exact release_answered may opens closes windows linux d request before table kept allowed same same' busy' plan
          answer step
  · cases made
    exact lowering_answered may opens closes windows linux d request before table follows kept allowed same stacked busy' plan
      answer step

theorem windows_begins : Service.resume (calls opens closes Windows.backend) request before
    (request.program Windows.backend) = .busy request before (windowsProgram request) := by
  rw [windows_plan, windowsProgram]
  cases request.call.plan <;> rfl

theorem linux_begins : Service.resume (calls opens closes Linux.backend) request before
    (request.program Linux.backend) = .busy request before (linuxProgram request) := by
  rw [linux_plan, linuxProgram]
  rfl

theorem compatible_kept (other : LinuxState D V) (compatible : Compatible id linux.table)
    (reached : Relation.ReflTransGen (LinuxStep may opens closes) linux other) : Compatible id other.table :=
  Service.reachable_table _ _ _ (Compatible id) (fun d op table answer table' holds step =>
    Linux.ofd_compatible d op table answer table' holds step.1) linux other compatible reached

theorem windows_step (windows' : WindowsState D V) (follows : Follows windows linux)
    (step : WindowsStep may opens closes windows windows') :
    ∃ linux', Relation.ReflTransGen (LinuxStep may opens closes) linux linux' ∧ Follows windows' linux' := by
  cases step with
  | begins d request before idle may =>
      have halfway := follows.halfway d
      rw [idle] at halfway
      obtain ⟨kept, same, same', idle'⟩ := halfway_idle _ _ _ _ halfway
      obtain ⟨now, idle'', allowed⟩ := may
      obtain rfl : before = now := Party.idle.inj (idle.symm.trans idle'')
      refine ⟨_, .single (.begins d request before idle' ⟨before, idle', allowed⟩), fun e => ?_, follows.compatible⟩
      have all := related_update Halfway _ _ _ _ follows.halfway d _ _ _ _
        (.together _ _ _ _ (.fresh request before kept allowed)) e
      rw [← same', ← same, Function.update_eq_self, Function.update_eq_self] at all
      rw [← windows_begins opens closes, ← linux_begins opens closes] at all
      exact all
  | asks d request before op next answer table busy answered =>
      obtain ⟨own, own', mine, rfl, reached, halfway⟩ :=
        call_answered may opens closes windows linux d request before table follows op next busy answer answered
      exact ⟨_, reached, related_update Halfway _ _ _ _ follows.halfway d _ _ _ _ halfway,
        compatible_kept may opens closes linux _ follows.compatible reached⟩

def Served (table : D → Linux.Own) (party : Party Request Linux.FcntlOp Linux.FcntlAnswer Outcome (Ledger × V)) :
    Prop :=
  ∃ own own' mine, table = Function.update linux.table d own' ∧
    Relation.ReflTransGen (WindowsStep may opens closes) windows
      ⟨Function.update windows.table d own, Function.update windows.party d mine⟩ ∧
    Together own mine own' party

variable (table' : D → Linux.Own)

theorem take_served (kept : Kept before.1) (allowed : Allowed request before.1) (same : windows.table d = before.1)
    (busy : windows.party d = .busy request before (windowsProgram request)) (type : LockType)
    (plan : request.call.plan = .take type)
    (grantable : Windows.Grantable windows.table d
      (Windows.asked request.offset request.length (type = .wrlock)))
    (changed : table' = Function.update linux.table d
      (level (note request.offset request.length before.1 request.call.plan))) :
    Served may opens closes windows linux d table'
      (Service.resume (calls opens closes Linux.backend) request before (.ret (request.call.shown (.ok ())))) := by
  have granted := Windows.lock_granted may d windows.table request.offset request.length request.call.tries _ grantable
  have noted : note request.offset request.length before.1 request.call.plan =
      Windows.asked request.offset request.length (type = .wrlock) :: windows.table d := by
    rw [plan, same, note]
  rw [windowsProgram, plan] at busy
  rw [← noted] at granted
  exact ⟨_, _, _, changed, .single (.asks d request before _ _ _ _ busy granted),
    finished_ok opens closes request before kept allowed⟩

theorem release_served (kept : Kept before.1) (allowed : Allowed request before.1) (same : windows.table d = before.1)
    (busy : windows.party d = .busy request before (windowsProgram request)) (plan : request.call.plan = .release)
    (changed : table' = Function.update linux.table d
      (level (note request.offset request.length before.1 request.call.plan))) :
    Served may opens closes windows linux d table'
      (Service.resume (calls opens closes Linux.backend) request before (.ret (request.call.shown (.ok ())))) := by
  have proper := allowed.proper
  rw [plan] at proper
  have released : (Windows.unlockOp request.offset request.length).effect (windows.table d) =
      some (note request.offset request.length before.1 request.call.plan) := by
    rw [plan, same, note]
    exact unlock_effect request.offset request.length before.1 proper
  rw [windowsProgram, plan] at busy
  exact ⟨_, _, _, changed, .single (.asks d request before _ _ _ _ busy (Windows.unlock_granted may d _ _ _ _ released)),
    finished_ok opens closes request before kept allowed⟩

theorem lower_served (kept : Kept before.1) (allowed : Allowed request before.1) (same : windows.table d = before.1)
    (busy : windows.party d = .busy request before (windowsProgram request)) (plan : request.call.plan = .lower)
    (grantable : Windows.Grantable windows.table d (Windows.asked request.offset request.length false))
    (changed : table' = Function.update linux.table d
      (level (note request.offset request.length before.1 request.call.plan))) :
    Served may opens closes windows linux d table'
      (Service.resume (calls opens closes Linux.backend) request before (.ret (request.call.shown (.ok ())))) := by
  rw [windowsProgram, plan] at busy
  have granted := Windows.lock_granted may d windows.table request.offset request.length request.call.tries _ grantable
  have released : (Windows.unlockOp request.offset request.length).effect
      (Function.update windows.table d (Windows.asked request.offset request.length false :: windows.table d) d) =
        some (note request.offset request.length before.1 request.call.plan) := by
    rw [Function.update_self, plan, same, note]
    exact stacked_effect request.offset request.length before.1
  have unlocked := Windows.unlock_granted may d _ request.offset request.length _ released
  rw [Function.update_idem] at unlocked
  exact ⟨_, _, _, changed, Service.reachable_twice _ _ _ windows d request before _ _ _ _ _ _ _ _ busy granted rfl unlocked,
    finished_ok opens closes request before kept allowed⟩

def AllTogether (windows : WindowsState D V) (linux : LinuxState D V) : Prop :=
  ∀ e, Together (windows.table e) (windows.party e) (linux.table e) (linux.party e)

theorem failed_served (all : AllTogether windows linux) (kept : Kept before.1) (allowed : Allowed request before.1)
    (same : windows.table d = before.1) (same' : linux.table d = level before.1)
    (busy : windows.party d = .busy request before (windowsProgram request)) (err : UvError)
    (wants : request.call.plan.wanted ≠ none)
    (excused : may err ∨ request.call.tries = true ∧ err = .EAGAIN ∧
      ¬ Linux.Grantable linux.table d (Linux.flock request.offset request.length request.call.plan.wanted)) :
    Served may opens closes windows linux d linux.table
      (Service.resume (calls opens closes Linux.backend) request before (.ret (request.call.shown (.error err)))) := by
  have fewer : ∀ e, ∃ held, held ⊆ windows.table e ∧ linux.table e = level held := fun e =>
    ⟨_, fun _ member => member, (together_kept _ _ _ _ (all e)).2⟩
  obtain ⟨err', shown, excused'⟩ : ∃ err', request.call.shown (.error err') = request.call.shown (.error err) ∧
      ∀ type, request.call.plan.wanted = some type → (may err' ∨ request.call.tries = true ∧ err' = .EBUSY ∧
        ¬ Windows.Grantable windows.table d (Windows.asked request.offset request.length (type = .wrlock))) := by
    rcases excused with trouble | ⟨tries, rfl, refused⟩
    · exact ⟨err, rfl, fun _ _ => .inl trouble⟩
    · obtain ⟨isBusy, again⟩ := shown_refused request.call tries
      refine ⟨.EBUSY, isBusy.trans again.symm, fun type wanted => .inr ⟨tries, rfl, fun grantable => refused ?_⟩⟩
      rw [wanted]
      exact linux_grants windows.table linux.table d request.offset request.length allowed.usable type fewer grantable
  refine ⟨windows.table d, linux.table d,
    Service.resume (calls opens closes Windows.backend) request before (.ret (request.call.shown (.error err'))),
    (Function.update_eq_self d _).symm, ?_, ?_⟩
  · rw [Function.update_eq_self]
    rw [windowsProgram] at busy
    cases plan : request.call.plan with
    | take type =>
        rw [plan] at busy
        have refused := Windows.lock_refused may d windows.table request.offset request.length request.call.tries _ err'
          (excused' type (by rw [plan, Plan.wanted]))
        exact .single (.asks d request before _ _ _ _ busy refused)
    | lower =>
        rw [plan] at busy
        have refused := Windows.lock_refused may d windows.table request.offset request.length request.call.tries false err'
          (excused' .rdlock (by rw [plan, Plan.wanted]))
        have step : WindowsStep may opens closes windows ⟨windows.table, Function.update windows.party d
            (Service.resume (calls opens closes Windows.backend) request before
              (Plan.lowerThen request.offset request.length request.call.shown (.error err')))⟩ :=
          .asks d request before _ _ _ _ busy refused
        exact .single step
    | raise =>
        have proper := allowed.proper
        rw [plan] at proper
        exact proper.elim
    | release =>
        rw [plan] at wants
        exact absurd rfl wants
  · rw [same, same', ← shown]
    exact finished_error opens closes request before kept err'

theorem granted_served (all : AllTogether windows linux) (kept : Kept before.1) (allowed : Allowed request before.1)
    (same : windows.table d = before.1) (busy : windows.party d = .busy request before (windowsProgram request))
    (grantable : Linux.Grantable linux.table d (Linux.flock request.offset request.length request.call.plan.wanted))
    (changed : table' = Function.update linux.table d
      (level (note request.offset request.length before.1 request.call.plan))) :
    Served may opens closes windows linux d table'
      (Service.resume (calls opens closes Linux.backend) request before (.ret (request.call.shown (.ok ())))) := by
  have keeps : ∀ e, ∃ held, Kept held ∧ linux.table e = level held ∧ Stands held (windows.table e) := fun e => by
    obtain ⟨keptHere, sameHere⟩ := together_kept _ _ _ _ (all e)
    exact ⟨_, keptHere, sameHere, stands_self _⟩
  have proper := allowed.proper
  have grants := windows_grants windows.table linux.table d request.offset request.length allowed.usable
  cases plan : request.call.plan with
  | take type =>
      rw [plan] at grantable proper
      have free : ∀ lock ∈ windows.table d, ¬ (Windows.asked request.offset request.length true).Overlaps lock := by
        rw [same]
        exact proper
      exact take_served may opens closes windows linux d request before table' kept allowed same busy type plan
        (grants type keeps (fun _ => free) grantable) changed
  | lower =>
      rw [plan] at grantable
      exact lower_served may opens closes windows linux d request before table' kept allowed same busy plan
        (grants .rdlock keeps (fun exclusive => by cases exclusive) grantable) changed
  | raise =>
      rw [plan] at proper
      exact proper.elim
  | release => exact release_served may opens closes windows linux d request before table' kept allowed same busy plan changed

theorem call_served (all : AllTogether windows linux) (op : Linux.FcntlOp)
    (next : Linux.FcntlAnswer op → Program Linux.FcntlOp Linux.FcntlAnswer Outcome)
    (busy : linux.party d = .busy request before (.call op next)) (answer : Linux.FcntlAnswer op)
    (step : Linux.steady may d op linux.table answer table') :
    Served may opens closes windows linux d table'
      (Service.resume (calls opens closes Linux.backend) request before (next answer)) := by
  have together := all d
  rw [busy] at together
  obtain ⟨kept, allowed, same, busy', same', made⟩ := together_busy _ _ _ _ _ _ together
  cases made
  cases answer with
  | ok done =>
      obtain ⟨⟨grantable, changed⟩, _⟩ := step
      have effect := (noted request.offset request.length allowed.usable before.1 kept request.call.plan allowed.proper).2
      rw [Plan.setlk_data] at grantable
      rw [Plan.setlk_data, same', effect] at changed
      exact granted_served may opens closes windows linux d request before table' all kept allowed same busy' grantable
        changed
  | error err =>
      obtain ⟨unchanged, excused⟩ := step
      obtain rfl : table' = linux.table := unchanged
      obtain ⟨wants, excused⟩ := (Linux.setlk_excused may d linux.table _ _ _ _ err).mp excused
      exact failed_served may opens closes windows linux d request before all kept allowed same same' busy' err wants
        excused

theorem linux_step (linux' : LinuxState D V) (all : AllTogether windows linux)
    (step : LinuxStep may opens closes linux linux') :
    ∃ windows', Relation.ReflTransGen (WindowsStep may opens closes) windows windows' ∧ AllTogether windows' linux' := by
  cases step with
  | begins d request before idle may =>
      have together := all d
      rw [idle] at together
      obtain ⟨kept, same, same', idle'⟩ := together_idle _ _ _ _ together
      obtain ⟨now, idle'', allowed⟩ := may
      obtain rfl : before = now := Party.idle.inj (idle.symm.trans idle'')
      refine ⟨_, .single (.begins d request before idle' ⟨before, idle', allowed⟩), fun e => ?_⟩
      have each := related_update Together _ _ _ _ all d _ _ _ _ (.fresh request before kept allowed) e
      rw [← same', ← same, Function.update_eq_self, Function.update_eq_self] at each
      rw [← windows_begins opens closes, ← linux_begins opens closes] at each
      exact each
  | asks d request before op next answer table busy answered =>
      obtain ⟨own, own', mine, rfl, reached, together⟩ :=
        call_served may opens closes windows linux d request before table all op next busy answer answered
      exact ⟨_, reached, related_update Together _ _ _ _ all d _ _ _ _ together⟩

end

section
variable {D V : Type} [DecidableEq D] (may : UvError → Prop) (opens : Request → V → V)
  (closes : Request → V → Outcome → V)

theorem halfway_view (own : Windows.Own) (left : Party Request Windows.LockFileOp Windows.LockFileAnswer Outcome (Ledger × V))
    (own' : Linux.Own) (right : Party Request Linux.FcntlOp Linux.FcntlAnswer Outcome (Ledger × V))
    (halfway : Halfway own left own' right) :
    Service.view (calls opens closes Windows.backend) left = Service.view (calls opens closes Linux.backend) right := by
  cases halfway with
  | together _ _ _ _ both =>
      cases both with
      | idle => rfl
      | fresh => rfl
  | lowering => rfl

theorem level_nothing : level [] = fun _ => none := by
  funext byte
  rw [level]
  split
  · rfl
  · rfl

theorem range_locks_agree (first : V) (views : D → Ledger × V) :
    (∃ windows : WindowsState D V,
      Service.Reachable (calls opens closes Windows.backend) OnLedger (Windows.steady may)
        ⟨fun _ => [], fun _ => .idle ([], first)⟩ windows ∧
      ∀ d, Service.view (calls opens closes Windows.backend) (windows.party d) = views d) ↔
    ∃ linux : LinuxState D V,
      Service.Reachable (calls opens closes Linux.backend) OnLedger (Linux.steady may)
        ⟨fun _ _ => none, fun _ => .idle ([], first)⟩ linux ∧
      ∀ d, Service.view (calls opens closes Linux.backend) (linux.party d) = views d := by
  have nothing : Kept [] := ⟨fun _ member => absurd member List.not_mem_nil, .nil⟩
  have start : Together [] (.idle ([], first)) (fun _ => none) (.idle ([], first)) := by
    rw [← level_nothing]
    exact .idle ([], first) nothing
  constructor
  · rintro ⟨windows, reachable, seen⟩
    have free : Compatible id (fun _ _ => none : D → Linux.Own) := fun _ _ _ _ clash => clash.1 rfl
    obtain ⟨linux, reached, follows⟩ := simulated _ _ Follows
      (fun now after other related step => windows_step may opens closes now other after related step) _
      ⟨fun _ _ => none, fun _ => .idle ([], first)⟩ ⟨fun _ => .together _ _ _ _ start, free⟩ windows reachable
    exact ⟨linux, reached, fun d => (halfway_view opens closes _ _ _ _ (follows.halfway d)).symm.trans (seen d)⟩
  · rintro ⟨linux, reachable, seen⟩
    obtain ⟨windows, reached, all⟩ := simulated _ _ (fun linux windows => AllTogether windows linux)
      (fun now after other related step => linux_step may opens closes other now after related step) _
      ⟨fun _ => [], fun _ => .idle ([], first)⟩ (fun _ => start) linux reachable
    exact ⟨windows, reached,
      fun d => (halfway_view opens closes _ _ _ _ (.together _ _ _ _ (all d))).trans (seen d)⟩

end

end Ledger

end FsExt.Lock
