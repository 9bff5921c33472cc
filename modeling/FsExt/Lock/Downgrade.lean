import FsExt.Lock.Held
import FsExt.Lock.Soundness

set_option autoImplicit false

namespace FsExt.Lock

open Sys

def downgradeCall (wait : Bool) : LockCall := if wait then .waitForDowngradeLock else .tryDowngradeLock

namespace Windows

section
variable {D : Type}

-- What no step of anybody breaks: an exclusive lock overlaps no other exclusive
-- lock of its handle and no lock of another one.
structure Sound (table : D → Own) : Prop where
  own : ∀ d, (table d).Pairwise fun lock other => lock.exclusive = true → other.exclusive = true → ¬ lock.Overlaps other
  others : ∀ d e, d ≠ e → ∀ lock ∈ table d, ∀ other ∈ table e, lock.exclusive = true → ¬ lock.Overlaps other

theorem overlaps_symm (lock other : RangeLock) (overlaps : lock.Overlaps other) : other.Overlaps lock :=
  ⟨overlaps.2, overlaps.1⟩

theorem shared_grantable (table : D → Own) (d : D) (offset length : UInt64) (sound : Sound table)
    (exclusive : asked offset length true ∈ table d) : Grantable table d (asked offset length false) := by
  intro e different other member _ overlaps
  exact sound.others d e (Ne.symm different) _ exclusive other member rfl overlaps

theorem covered_excludes (table : D → Own) (d e : D) (offset length : UInt64) (lock : RangeLock)
    (covered : ∀ byte, Within sizeMax.toNat offset length byte → level (table d) byte ≠ none)
    (exclusive : lock.exclusive = true) (byte : Nat) (within : Within sizeMax.toNat offset length byte)
    (covers : lock.Covers byte) : ¬ Grantable table e lock := by
  intro grantable
  rw [Grantable, if_pos exclusive] at grantable
  obtain ⟨held, member, covers'⟩ := (level_none (table d) byte).mp (covered byte within)
  exact grantable d held member (overlaps_of_covers _ _ byte covers covers')

end

section
variable {D : Type} [DecidableEq D]

theorem sound_smaller (table : D → Own) (d : D) (own : Own) (sound : Sound table) (fewer : own.Sublist (table d)) :
    Sound (Function.update table d own) where
  own e := by
    by_cases same : e = d
    · subst e
      rw [Function.update_self]
      exact (sound.own d).sublist fewer
    · rw [Function.update_of_ne same]
      exact sound.own e
  others e f different lock member other member' exclusive := by
    have earlier : ∀ g held, held ∈ Function.update table d own g → held ∈ table g := by
      intro g held inside
      by_cases same : g = d
      · subst g
        rw [Function.update_self] at inside
        exact fewer.subset inside
      · rw [Function.update_of_ne same] at inside
        exact inside
    exact sound.others e f different lock (earlier e lock member) other (earlier f other member') exclusive

theorem sound_granted (table : D → Own) (d : D) (lock : RangeLock) (sound : Sound table)
    (grantable : Grantable table d lock) : Sound (Function.update table d (lock :: table d)) where
  own e := by
    by_cases same : e = d
    · subst e
      rw [Function.update_self]
      refine List.pairwise_cons.mpr ⟨fun other member exclusive _ => ?_, sound.own d⟩
      rw [Grantable, if_pos exclusive] at grantable
      exact grantable d other member
    · rw [Function.update_of_ne same]
      exact sound.own e
  others e f different held member other member' exclusive := by
    have stays : ∀ g, g ≠ d → Function.update table d (lock :: table d) g = table g := fun g other =>
      Function.update_of_ne other _ _
    have against : ∀ g, g ≠ d → ∀ other ∈ table g, lock.exclusive = true ∨ other.exclusive = true →
        ¬ lock.Overlaps other := by
      intro g elsewhere other inside strong
      rw [Grantable] at grantable
      by_cases exclusive : lock.exclusive = true
      · rw [if_pos exclusive] at grantable
        exact grantable g other inside
      · rw [if_neg exclusive] at grantable
        exact grantable g elsewhere other inside (strong.resolve_left exclusive)
    by_cases first : e = d
    · subst e
      rw [Function.update_self] at member
      rw [stays f (Ne.symm different)] at member'
      rcases List.mem_cons.mp member with rfl | older
      · exact against f (Ne.symm different) other member' (.inl exclusive)
      · exact sound.others d f different held older other member' exclusive
    · rw [stays e first] at member
      by_cases second : f = d
      · subst f
        rw [Function.update_self] at member'
        rcases List.mem_cons.mp member' with rfl | older
        · exact fun overlaps => against e first held member (.inr exclusive) (overlaps_symm _ _ overlaps)
        · exact sound.others e d different held member other older exclusive
      · rw [stays f second] at member'
        exact sound.others e f different held member other member' exclusive

theorem release_sublist (lengthLow lengthHigh : UInt32) (data : Overlapped) (own rest : Own)
    (released : release lengthLow lengthHigh data own = some rest) : rest.Sublist own := by
  rw [release] at released
  split at released
  · cases released
    exact List.erase_sublist
  · split at released
    · cases released
      exact List.erase_sublist
    · cases released

theorem files_sound (d : D) (op : LockFileOp) (table : D → Own) (answer : Status) (table' : D → Own)
    (sound : Sound table) (step : files d op table answer table') : Sound table' := by
  cases answer with
  | error err =>
      obtain rfl : table' = table := step
      exact sound
  | ok done =>
      obtain ⟨may, own, effect, rfl⟩ := step
      cases op with
      | lockFileEx failImmediately exclusive lengthLow lengthHigh data =>
          cases effect
          exact sound_granted table d _ sound may
      | unlockFileEx lengthLow lengthHigh data =>
          exact sound_smaller table d own sound (release_sublist _ _ _ _ _ effect)

theorem reaches_sound (state : Service D Own Request LockFileOp LockFileAnswer Outcome Belief) (reached : Reaches state) :
    Sound state.table := by
  refine Service.reachable_table (api backend) (AnyCall backend) files Sound files_sound (fresh []) state ?_ reached
  exact ⟨fun _ => List.Pairwise.nil, fun _ _ _ _ member => absurd member List.not_mem_nil⟩

def Positive (own : Own) : Prop := ∀ lock ∈ own, 0 < lock.length

theorem whole_length_positive (length : UInt64) : 0 < (wholeLength length).toNat := by
  rw [wholeLength]
  split
  · decide
  · rename_i nonempty
    exact Nat.pos_of_ne_zero fun zero => nonempty (UInt64.toNat_inj.mp zero)

theorem lock_keeps_positive (failImmediately exclusive : Bool) (offset length : UInt64) (own : Own) (answer : Status)
    (own' : Own) (positive : Positive own)
    (step : filesOwn (lockOp failImmediately exclusive offset length) own answer own') :
    Positive own' := by
  cases answer with
  | error err =>
      obtain rfl : own' = own := step
      exact positive
  | ok done =>
      have taken := (lock_op_effect own failImmediately exclusive offset length).symm.trans step
      cases taken
      exact List.forall_mem_cons.mpr ⟨whole_length_positive length, positive⟩

theorem unlock_keeps_positive (offset length : UInt64) (own : Own) (answer : Status) (own' : Own)
    (positive : Positive own) (step : filesOwn (unlockOp offset length) own answer own') : Positive own' := by
  cases answer with
  | error err =>
      obtain rfl : own' = own := step
      exact positive
  | ok done => exact fun lock member => positive lock ((release_sublist _ _ _ _ _ step).subset member)

theorem request_keeps_positive (request : Request) :
    Program.Preserves filesOwn Positive (request.program backend) := by
  have lock : ∀ failImmediately exclusive,
      Program.Preserves filesOwn Positive
        (Program.perform (lockOp failImmediately exclusive request.offset request.length)) :=
    fun failImmediately exclusive => Program.preserves_call filesOwn Positive _ _
      (lock_keeps_positive failImmediately exclusive request.offset request.length)
      fun _ => Program.preserves_ret filesOwn Positive _
  have unlock : Program.Preserves filesOwn Positive (Program.perform (unlockOp request.offset request.length)) :=
    Program.preserves_call filesOwn Positive _ _ (unlock_keeps_positive request.offset request.length)
      fun _ => Program.preserves_ret filesOwn Positive _
  have both : ∀ (first : Program LockFileOp LockFileAnswer Status)
      (second : Status → Program LockFileOp LockFileAnswer Status), Program.Preserves filesOwn Positive first →
      (∀ err, second (.error err) = .ret (.error err)) → Program.Preserves filesOwn Positive (second (.ok ())) →
      Program.Preserves filesOwn Positive (first >>= second) := by
    intro first second keepsFirst fails keepsSecond
    refine Program.preserves_bind filesOwn Positive first second keepsFirst fun status => ?_
    cases status with
    | error err => rw [fails]; exact Program.preserves_ret filesOwn Positive _
    | ok done => exact keepsSecond
  have shows : ∀ (platform : Program LockFileOp LockFileAnswer Status) (shown : Status → Outcome),
      Program.Preserves filesOwn Positive platform →
      Program.Preserves filesOwn Positive (do return shown (← platform)) := fun platform shown keeps =>
    Program.preserves_bind filesOwn Positive platform _ keeps fun _ => Program.preserves_ret filesOwn Positive _
  rw [Request.program]
  cases request.call with
  | tryLock shared => exact shows _ _ (lock true _)
  | waitForLock shared => exact shows _ _ (lock false _)
  | tryDowngradeLock => exact shows _ _ (both _ _ (lock true _) (fun _ => rfl) unlock)
  | waitForDowngradeLock => exact shows _ _ (both _ _ (lock false _) (fun _ => rfl) unlock)
  | tryUpgradeLock => exact shows _ _ (both _ _ unlock (fun _ => rfl) (lock true _))
  | waitForUpgradeLock => exact shows _ _ (both _ _ unlock (fun _ => rfl) (lock false _))
  | unlock => exact shows _ _ unlock

theorem reaches_positive (state : Service D Own Request LockFileOp LockFileAnswer Outcome Belief)
    (reached : Reaches state) (d : D) : Positive (state.table d) := by
  have follows := Service.reachable_follows (api backend) (AnyCall backend) files filesOwn files_owned
    (fun _ => Positive) (fun _ _ _ => Positive)
    (fun now d request before _ positive => request_keeps_positive request _ positive) (fresh []) state
    (fun _ _ member => absurd member List.not_mem_nil) reached d
  cases at_ : state.party d with
  | idle now =>
      rw [at_] at follows
      exact follows
  | busy request before rest =>
      rw [at_] at follows
      obtain ⟨⟨op, next, rfl⟩, ensured⟩ := follows
      exact ensured.1

structure HoldsExclusive (table : D → Own) (d : D) (offset length : UInt64) : Prop where
  fits : backend.Fits offset length
  exclusive : asked offset length true ∈ table d

def platformDowngrade (wait : Bool) (offset length : UInt64) : Program LockFileOp LockFileAnswer Status :=
  if wait then waitForDowngradeLock offset length else tryDowngradeLock offset length

theorem downgrade_program (wait : Bool) (offset length : UInt64) :
    platformDowngrade wait offset length = .call (lockOp (!wait) false offset length) fun taken =>
      match taken with
      | .error err => .ret (.error err)
      | .ok () => .call (unlockOp offset length) .ret := by
  cases wait with
  | false =>
      rw [platformDowngrade, if_neg (by decide), tryDowngradeLock, tryLock, lockFileEx, Program.perform_bind]
      refine congrArg (Program.call (lockOp true false offset length)) (funext fun taken => ?_)
      cases taken <;> rfl
  | true =>
      rw [platformDowngrade, if_pos rfl, waitForDowngradeLock, waitForLock, lockFileEx, Program.perform_bind]
      refine congrArg (Program.call (lockOp false false offset length)) (funext fun taken => ?_)
      cases taken <;> rfl

def lowered (own : Own) (offset length : UInt64) : Own :=
  asked offset length false :: own.erase (asked offset length true)

theorem unlock_lowers (own : Own) (offset length : UInt64) (exclusive : asked offset length true ∈ own) :
    (unlockOp offset length).effect (asked offset length false :: own) = some (lowered own offset length) := by
  have differ : ¬ (asked offset length false == asked offset length true) = true := by
    rw [beq_iff_eq]
    simp [asked]
  rw [unlock_op_effect, if_pos (.tail _ exclusive), List.erase_cons_tail differ, lowered]

theorem erased_apart (own : Own) (offset length : UInt64)
    (alone : own.Pairwise fun lock other => lock.exclusive = true → other.exclusive = true → ¬ lock.Overlaps other)
    (exclusive : asked offset length true ∈ own) (lock : RangeLock) (member : lock ∈ own.erase (asked offset length true))
    (strong : lock.exclusive = true) : ¬ (asked offset length true).Overlaps lock := by
  have symm : ∀ {lock other : RangeLock}, (lock.exclusive = true → other.exclusive = true → ¬ lock.Overlaps other) →
      other.exclusive = true → lock.exclusive = true → ¬ other.Overlaps lock :=
    fun apart second first overlaps => apart first second (overlaps_symm _ _ overlaps)
  have split := (List.perm_cons_erase exclusive).pairwise_iff symm |>.mp alone
  exact List.rel_of_pairwise_cons split member rfl strong

theorem lowered_shared (own : Own) (offset length : UInt64) (fits : backend.Fits offset length)
    (alone : own.Pairwise fun lock other => lock.exclusive = true → other.exclusive = true → ¬ lock.Overlaps other)
    (exclusive : asked offset length true ∈ own) (byte : Nat) (within : Within sizeMax.toNat offset length byte) :
    level (lowered own offset length) byte = some .rdlock := by
  have present : level (lowered own offset length) byte ≠ none :=
    (level_none _ byte).mpr ⟨_, .head _, (asked_covers offset length false byte fits).mpr within⟩
  have weak : level (lowered own offset length) byte ≠ some .wrlock := by
    intro strong
    obtain ⟨lock, member, isExclusive, covers⟩ := (level_wrlock _ byte).mp strong
    rcases List.mem_cons.mp member with rfl | rest
    · cases isExclusive
    · exact erased_apart own offset length alone exclusive lock rest isExclusive
        (overlaps_of_covers _ _ byte ((asked_covers offset length true byte fits).mpr within) covers)
  cases held : level (lowered own offset length) byte with
  | none => exact absurd held present
  | some type =>
      cases type with
      | rdlock => rfl
      | wrlock => exact absurd held weak

-- A refusal has its reason: an immediate request is not grantable, an unlock
-- finds nothing. A request that waits has no answer until it is granted.
def LockFileOp.Refused (table : D → Own) (d : D) : LockFileOp → Prop
  | .lockFileEx failImmediately exclusive lengthLow lengthHigh data =>
      failImmediately = true ∧ ¬ Grantable table d (rangeLock lengthLow lengthHigh data exclusive)
  | .unlockFileEx lengthLow lengthHigh data => release lengthLow lengthHigh data (table d) = none

def settled (d : D) : Program.Semantics LockFileOp LockFileAnswer (D → Own) := fun op table answer table' =>
  files d op table answer table' ∧ ∀ err, answer = .error err → op.Refused table d

theorem settled_owned : Service.Owned (settled (D := D)) filesOwn where
  changes d op table answer table' step := files_owned.changes d op table answer table' step.1
  frame d op table answer table' e step different := files_owned.frame d op table answer table' e step.1 different

def Immediate (table : D → Own) (d : D) (op : LockFileOp) : Prop :=
  (∃ table', settled d op table (.ok ()) table') ∧
    ∀ answer table', settled d op table answer table' → answer = .ok ()

theorem immediate_of_may (table : D → Own) (d : D) (op : LockFileOp) (own : Own) (may : op.May table d)
    (effect : op.effect (table d) = some own) : Immediate table d op := by
  refine ⟨⟨_, ⟨may, own, effect, rfl⟩, fun _ same => by cases same⟩, ?_⟩
  intro answer table' step
  cases answer with
  | ok done => rfl
  | error err =>
      have refused := step.2 err rfl
      cases op with
      | lockFileEx failImmediately exclusive lengthLow lengthHigh data => exact absurd may refused.2
      | unlockFileEx lengthLow lengthHigh data =>
          have nothing : release lengthLow lengthHigh data (table d) = none := refused
          have released : release lengthLow lengthHigh data (table d) = some own := effect
          rw [nothing] at released
          cases released

structure Lowering (d : D) (offset length : UInt64) (rest : Program LockFileOp LockFileAnswer Status) (table : D → Own) :
    Prop where
  covered : ∀ byte, Within sizeMax.toNat offset length byte → level (table d) byte ≠ none
  excludes : ∀ e lock, lock.exclusive = true →
    (∃ byte, Within sizeMax.toNat offset length byte ∧ lock.Covers byte) → ¬ Grantable table e lock
  goesOn : ∀ op next, rest = .call op next → Immediate table d op
  returns : ∀ status, rest = .ret status →
    status = .ok () ∧ ∀ byte, Within sizeMax.toNat offset length byte → level (table d) byte = some .rdlock

theorem lowering_of_covered (d : D) (offset length : UInt64) (rest : Program LockFileOp LockFileAnswer Status)
    (table : D → Own) (lock : RangeLock) (member : lock ∈ table d)
    (covers : ∀ byte, Within sizeMax.toNat offset length byte → lock.Covers byte)
    (goesOn : ∀ op next, rest = .call op next → Immediate table d op)
    (returns : ∀ status, rest = .ret status →
      status = .ok () ∧ ∀ byte, Within sizeMax.toNat offset length byte → level (table d) byte = some .rdlock) :
    Lowering d offset length rest table := by
  have covered : ∀ byte, Within sizeMax.toNat offset length byte → level (table d) byte ≠ none :=
    fun byte within => (level_none _ byte).mpr ⟨lock, member, covers byte within⟩
  refine ⟨covered, fun e wanted exclusive reach => ?_, goesOn, returns⟩
  obtain ⟨byte, within, meets⟩ := reach
  exact covered_excludes table d e offset length wanted covered exclusive byte within meets

theorem share_immediate (d : D) (offset length : UInt64) (wait : Bool) (table : D → Own) (sound : Sound table)
    (member : asked offset length true ∈ table d) : Immediate table d (lockOp (!wait) false offset length) := by
  have may := (lock_op_may table d (!wait) false _ _).mpr (shared_grantable table d offset length sound member)
  exact immediate_of_may table d _ _ may (lock_op_effect _ _ _ _ _)

theorem release_immediate (d : D) (offset length : UInt64) (table : D → Own) (own : Own)
    (held : table d = asked offset length false :: own) (exclusive : asked offset length true ∈ own) :
    Immediate table d (unlockOp offset length) := by
  refine immediate_of_may table d _ (lowered own offset length) trivial ?_
  rw [held]
  exact unlock_lowers own offset length exclusive

theorem lowering_shared (d : D) (offset length : UInt64) (fits : backend.Fits offset length) (own : Own)
    (alone : own.Pairwise fun lock other => lock.exclusive = true → other.exclusive = true → ¬ lock.Overlaps other)
    (exclusive : asked offset length true ∈ own) (start : D → Own) (held : start d = asked offset length false :: own)
    (events : List (Event D LockFileOp LockFileAnswer)) (rest : Program LockFileOp LockFileAnswer Status)
    (table : D → Own) (turns : Turns settled d (.call (unlockOp offset length) .ret) start events rest table) :
    Lowering d offset length rest table := by
  have covers := fun byte within => (asked_covers offset length false byte fits).mpr within
  rcases turns_call settled d filesOwn settled_owned _ _ _ _ _ _ turns with ⟨rfl, _, kept⟩ |
    ⟨before, met, answer, met', later, _, _, _, kept, step, after⟩
  · -- both locks are held, the exclusive one is still to be released
    rw [held] at kept
    have shared : asked offset length false ∈ table d := by
      rw [kept]
      exact .head _
    refine lowering_of_covered d offset length _ table _ shared covers ?_ fun status same => by cases same
    intro op next same
    cases same
    exact release_immediate d offset length table own kept exclusive
  · rw [held] at kept
    have released := (release_immediate d offset length met own kept exclusive).2 answer met' step
    subst answer
    obtain ⟨_, own', effect, rfl⟩ := step.1
    rw [kept, unlock_lowers own offset length exclusive] at effect
    cases effect
    obtain ⟨rfl, _, last⟩ := turns_ret settled d filesOwn settled_owned _ _ _ _ _ after
    rw [Function.update_self] at last
    have shared : asked offset length false ∈ table d := by
      rw [last]
      exact .head _
    refine lowering_of_covered d offset length _ table _ shared covers (fun op next same => by cases same) ?_
    intro status same
    cases same
    refine ⟨rfl, fun byte within => ?_⟩
    rw [last]
    exact lowered_shared own offset length fits alone exclusive byte within

theorem downgrade_atomic (d : D) (offset length : UInt64)
    (state : Service D Own Request LockFileOp LockFileAnswer Outcome Belief) (reached : Reaches state)
    (holds : HoldsExclusive state.table d offset length) (wait : Bool)
    (events : List (Event D LockFileOp LockFileAnswer)) (rest : Program LockFileOp LockFileAnswer Status)
    (table : D → Own)
    (turns : Turns settled d (platformDowngrade wait offset length) state.table events rest table) :
    Lowering d offset length rest table := by
  have sound := reaches_sound state reached
  have keeps : ∀ (e : D) op table answer table', Sound table → settled e op table answer table' → Sound table' :=
    fun e op table answer table' sound step => files_sound e op table answer table' sound step.1
  have covers := fun byte within => (asked_covers offset length true byte holds.fits).mpr within
  have soundNow := turns_table settled d Sound keeps _ _ _ _ _ turns sound
  rw [downgrade_program] at turns
  rcases turns_call settled d filesOwn settled_owned _ _ _ _ _ _ turns with ⟨rfl, _, kept⟩ |
    ⟨before, met, answer, met', later, _, _, path, kept, step, after⟩
  · -- the shared lock is still to be taken
    have member : asked offset length true ∈ table d := by
      rw [kept]
      exact holds.exclusive
    refine lowering_of_covered d offset length _ table _ member covers ?_ fun status same => by cases same
    intro op next same
    cases same
    exact share_immediate d offset length wait table soundNow member
  · have soundMet := turns_table settled d Sound keeps _ _ _ _ _ path sound
    have member : asked offset length true ∈ met d := by
      rw [kept]
      exact holds.exclusive
    have granted := (share_immediate d offset length wait met soundMet member).2 answer met' step
    subst answer
    obtain ⟨_, own, effect, rfl⟩ := step.1
    rw [lock_op_effect] at effect
    cases effect
    exact lowering_shared d offset length holds.fits (met d) (soundMet.own d) member _
      (Function.update_self _ _ _) later rest table after

theorem downgrade_call_program (wait : Bool) (offset length : UInt64) :
    Request.program backend ⟨downgradeCall wait, offset, length⟩ =
      .call (lockOp (!wait) false offset length) fun taken =>
        match taken with
        | .error err => .ret (shown wait (.error err))
        | .ok () => .call (unlockOp offset length) fun status => .ret (shown wait status) := by
  have shows : Request.program backend ⟨downgradeCall wait, offset, length⟩ =
      platformDowngrade wait offset length >>= fun status => .ret (shown wait status) := by
    cases wait <;> rfl
  rw [shows, downgrade_program, Program.call_bind]
  refine congrArg (Program.call (lockOp (!wait) false offset length)) (funext fun taken => ?_)
  cases taken <;> rfl

end

end Windows

section
variable {D Own Op : Type} {Answer : Op → Type}

structure Lowers (backend : Backend Op Answer) (sem : D → Program.Semantics Op Answer (D → Own))
    (level : Own → Nat → Option LockType) (mayShare : (D → Own) → D → Prop) (d : D) (wait : Bool) (offset length : UInt64)
    (start : D → Own) : Prop where
  shared : ∀ events final,
    Turns sem d (Request.program backend ⟨downgradeCall wait, offset, length⟩) start events (.ret (.returned true)) final →
    ∀ byte, Within backend.top offset length byte → level (final d) byte = some .rdlock
  admits : ∀ events final,
    Turns sem d (Request.program backend ⟨downgradeCall wait, offset, length⟩) start events (.ret (.returned true)) final →
    ∀ e, e ≠ d → mayShare final e

end

namespace Linux

section
variable {D : Type} [DecidableEq D]

theorem downgrade_program (wait : Bool) (offset length : UInt64) :
    ∃ op : FcntlOp, op.data = flock offset length (some .rdlock) ∧
      Request.program backend ⟨downgradeCall wait, offset, length⟩ = .call op fun status => .ret (shown wait status) := by
  cases wait with
  | false => exact ⟨.ofdSetlk (flock offset length (some .rdlock)), rfl, rfl⟩
  | true => exact ⟨.ofdSetlkw (flock offset length (some .rdlock)), rfl, rfl⟩

def MayShare (offset length : UInt64) (table : D → Own) (e : D) : Prop :=
  Grantable table e (flock offset length (some .rdlock))

theorem downgrade_shares (d : D) (offset length : UInt64) (start final : D → Own) (fits : backend.Fits offset length)
    (wait : Bool) (events : List (Event D FcntlOp FcntlAnswer))
    (turns : Turns ofd d (Request.program backend ⟨downgradeCall wait, offset, length⟩) start events
      (.ret (.returned true)) final) :
    ∀ byte, Within offsetEnd offset length byte → final d byte = some .rdlock := by
  obtain ⟨op, data, program⟩ := downgrade_program wait offset length
  rw [program] at turns
  rcases turns_call ofd d ofdOwn ofd_owned _ _ _ _ _ _ turns with ⟨waits, _⟩ |
    ⟨before, met, answer, met', after, _, _, _, _, step, rest⟩
  · cases waits
  · obtain ⟨ended, _, kept⟩ := turns_ret ofd d ofdOwn ofd_owned _ _ _ _ _ rest
    obtain rfl := (shown_true_iff wait answer).mp (Program.ret.inj ended).symm
    intro byte within
    rw [kept, step.2, Function.update_self, data]
    exact apply_within offset length (some .rdlock) (met d) byte fits within

theorem downgrade_lowers (d : D) (offset length : UInt64)
    (state : Service D Own Request FcntlOp FcntlAnswer Outcome Belief) (reached : Reaches state)
    (fits : backend.Fits offset length) (wait : Bool) :
    Lowers backend ofd id (MayShare offset length) d wait offset length state.table where
  shared events final := downgrade_shares d offset length state.table final fits wait events
  admits events final turns e different f other byte covers clash := by
    have shared := downgrade_shares d offset length state.table final fits wait events turns byte
      ((flock_covers offset length _ byte fits).mp covers)
    have compatible : Compatible id state.table := by
      refine Service.reachable_table (api backend) (AnyCall backend) ofd (Compatible id) ofd_compatible _ state ?_ reached
      exact fun _ _ _ _ clash => clash.1 rfl
    have now := turns_table ofd d (Compatible id) ofd_compatible _ _ _ _ _ turns compatible
    have exclusive : final f byte = some .wrlock := clash.2.2.resolve_left (by rw [flock]; simp)
    by_cases same : f = d
    · rw [same, shared] at exclusive
      cases exclusive
    · refine now f d same byte ⟨?_, ?_, .inl exclusive⟩
      · rw [id, exclusive]
        exact Option.some_ne_none _
      · rw [id, shared]
        exact Option.some_ne_none _

end

end Linux

namespace Windows

section
variable {D : Type}

structure CoveredExclusively (table : D → Own) (d : D) (offset length : UInt64) : Prop where
  fits : backend.Fits offset length
  exclusive : ∀ byte, Within sizeMax.toNat offset length byte → level (table d) byte = some .wrlock

theorem covered_grantable (table : D → Own) (d : D) (offset length : UInt64) (sound : Sound table)
    (positive : ∀ e, Positive (table e)) (covered : CoveredExclusively table d offset length) :
    Grantable table d (asked offset length false) := by
  intro e different other member exclusive overlaps
  have some_ := positive e other member
  have room := whole_length_positive length
  obtain ⟨left, right⟩ := overlaps
  have within : (asked offset length false).Covers (max offset.toNat other.start) := by
    simp only [asked] at left right
    simp only [RangeLock.Covers, asked]
    omega
  have covers : other.Covers (max offset.toNat other.start) := by
    simp only [asked] at left right
    simp only [RangeLock.Covers]
    omega
  obtain ⟨lock, held, strong, covers'⟩ := (level_wrlock _ _).mp
    (covered.exclusive _ ((asked_covers offset length false _ covered.fits).mp within))
  exact sound.others d e (Ne.symm different) lock held other member strong (overlaps_of_covers _ _ _ covers' covers)

end

section
variable {D : Type} [DecidableEq D]

def MayShare (offset length : UInt64) (table : D → Own) (e : D) : Prop :=
  Grantable table e (asked offset length false)

theorem exact_lowers (d : D) (offset length : UInt64)
    (state : Service D Own Request LockFileOp LockFileAnswer Outcome Belief)
    (holds : HoldsExclusive state.table d offset length) (wait : Bool) (events : List (Event D LockFileOp LockFileAnswer))
    (final : D → Own)
    (turns : Turns files d (Request.program backend ⟨downgradeCall wait, offset, length⟩) state.table events
      (.ret (.returned true)) final) :
    final d = lowered (state.table d) offset length := by
  rw [downgrade_call_program] at turns
  rcases turns_call files d filesOwn files_owned _ _ _ _ _ _ turns with ⟨waits, _⟩ |
    ⟨_, met, taken, met', _, _, _, _, kept, step, rest⟩
  · cases waits
  · cases taken with
    | error err =>
        obtain ⟨ended, _, _⟩ := turns_ret files d filesOwn files_owned _ _ _ _ _ rest
        cases (shown_true_iff wait _).mp (Program.ret.inj ended).symm
    | ok done =>
        obtain ⟨_, own, effect, rfl⟩ := step
        rw [lock_op_effect, kept] at effect
        cases effect
        rcases turns_call files d filesOwn files_owned _ _ _ _ _ _ rest with ⟨waits, _⟩ |
          ⟨_, now, answer, now', _, _, _, _, kept', step', rest'⟩
        · cases waits
        · obtain ⟨ended, _, kept''⟩ := turns_ret files d filesOwn files_owned _ _ _ _ _ rest'
          obtain rfl := (shown_true_iff wait answer).mp (Program.ret.inj ended).symm
          obtain ⟨_, own, effect, rfl⟩ := step'
          rw [kept', Function.update_self, unlock_lowers _ _ _ holds.exclusive] at effect
          cases effect
          rw [kept'', Function.update_self]

theorem covered_not_lowered (d : D) (offset length : UInt64)
    (state : Service D Own Request LockFileOp LockFileAnswer Outcome Belief) (reached : Reaches state)
    (covered : CoveredExclusively state.table d offset length) (absent : asked offset length true ∉ state.table d)
    (wait : Bool) : ¬ Lowers backend files level (MayShare offset length) d wait offset length state.table := by
  intro lowers
  let both := Function.update state.table d (asked offset length false :: state.table d)
  have here : both d = asked offset length false :: state.table d := Function.update_self ..
  have differ : asked offset length true ≠ asked offset length false := by simp [asked]
  have takes : files d (lockOp (!wait) false offset length) state.table (.ok ()) both :=
    ⟨(lock_op_may _ _ _ _ _ _).mpr (covered_grantable state.table d offset length (reaches_sound state reached)
      (reaches_positive state reached) covered), _, lock_op_effect _ _ _ _ _, rfl⟩
  have releases : files d (unlockOp offset length) both (.ok ()) (Function.update both d (state.table d)) := by
    refine ⟨trivial, state.table d, ?_, rfl⟩
    rw [here, unlock_op_effect, if_neg (fun member => absent ((List.mem_cons.mp member).resolve_left differ)),
      if_pos (.head _), List.erase_cons_head]
  have turns : Turns files d (Request.program backend ⟨downgradeCall wait, offset, length⟩) state.table
      [⟨d, lockOp (!wait) false offset length, .ok ()⟩, ⟨d, unlockOp offset length, .ok ()⟩] (.ret (.returned true))
      (Function.update both d (state.table d)) := by
    rw [downgrade_call_program]
    refine .own _ _ _ _ _ _ _ _ takes (.own _ _ _ _ _ _ _ _ releases ?_)
    rw [(shown_true_iff wait (.ok ())).mpr rfl]
    exact .here _ _
  have shared := lowers.shared _ _ turns offset.toNat (fits_within offset length covered.fits)
  rw [Function.update_self, covered.exclusive _ (fits_within offset length covered.fits)] at shared
  cases shared

theorem downgrade_lowers_iff (d : D) (offset length : UInt64)
    (state : Service D Own Request LockFileOp LockFileAnswer Outcome Belief) (reached : Reaches state)
    (covered : CoveredExclusively state.table d offset length) (wait : Bool) :
    Lowers backend files level (MayShare offset length) d wait offset length state.table ↔
      asked offset length true ∈ state.table d := by
  constructor
  · intro lowers
    by_contra absent
    exact covered_not_lowered d offset length state reached covered absent wait lowers
  · intro exclusive
    have holds : HoldsExclusive state.table d offset length := ⟨covered.fits, exclusive⟩
    have sound := reaches_sound state reached
    refine ⟨fun events final turns byte within => ?_, fun events final turns e _ f _ lock member strong overlaps => ?_⟩
    · rw [exact_lowers d offset length state holds wait events final turns]
      exact lowered_shared _ offset length covered.fits (sound.own d) exclusive byte within
    · have ours := exact_lowers d offset length state holds wait events final turns
      by_cases same : f = d
      · rw [same, ours] at member
        rcases List.mem_cons.mp member with rfl | rest
        · cases strong
        · exact erased_apart _ offset length (sound.own d) exclusive lock rest strong overlaps
      · have soundNow := turns_table files d Sound files_sound _ _ _ _ _ turns sound
        have shared : asked offset length false ∈ final d := by
          rw [ours]
          exact .head _
        exact soundNow.others f d same lock member _ shared strong (overlaps_symm _ _ overlaps)

end

end Windows

theorem successful_downgrade_lowers_iff {D : Type} [DecidableEq D] (d : D) (offset length : UInt64) :
    (∀ state : Service D Linux.Own Request Linux.FcntlOp Linux.FcntlAnswer Outcome Belief,
      Linux.Reaches state → Linux.backend.Fits offset length → ∀ wait,
        Lowers Linux.backend Linux.ofd id (Linux.MayShare offset length) d wait offset length state.table) ∧
      ∀ state : Service D Windows.Own Request Windows.LockFileOp Windows.LockFileAnswer Outcome Belief,
        Windows.Reaches state → Windows.CoveredExclusively state.table d offset length → ∀ wait,
          (Lowers Windows.backend Windows.files Windows.level (Windows.MayShare offset length) d wait offset length
              state.table ↔
            Windows.asked offset length true ∈ state.table d) :=
  ⟨fun state reached fits wait => Linux.downgrade_lowers d offset length state reached fits wait,
    fun state reached covered wait => Windows.downgrade_lowers_iff d offset length state reached covered wait⟩

def exclusiveHandle (offset length : UInt64) : Bool → Windows.Own :=
  Function.update (fun _ => []) false [Windows.asked offset length true]

theorem exclusive_handle_reached (offset length : UInt64) (fits : Windows.backend.Fits offset length) :
    ∃ state : Service Bool Windows.Own Request Windows.LockFileOp Windows.LockFileAnswer Outcome Belief,
      Windows.Reaches state ∧ state.table = exclusiveHandle offset length := by
  have free : (Windows.lockOp true true offset length).May (fun _ : Bool => ([] : Windows.Own)) false := by
    rw [Windows.lock_op_may]
    exact fun e other member => absurd member List.not_mem_nil
  have first := Service.reachable_call (api Windows.backend) (AnyCall Windows.backend) Windows.files (fresh [])
    (fresh []) .refl false ⟨.tryLock false, offset, length⟩ (fun _ => none) rfl fits
    (Windows.lockOp true true offset length) _ rfl (.ok ()) _ ⟨free, _, Windows.lock_op_effect _ _ _ _ _, rfl⟩ _ rfl
  exact ⟨_, first, rfl⟩

theorem ten_fit : Linux.backend.Fits 0 10 ∧ Windows.backend.Fits 0 10 ∧ Windows.backend.Fits 0 20 := by
  refine ⟨⟨by decide, by decide, by decide⟩, ?_, ?_⟩
  · rw [Windows.backend]
    decide
  · rw [Windows.backend]
    decide

theorem handle_covers (offset length inner : UInt64) (table : Bool → Windows.Own)
    (held : table = exclusiveHandle offset length) (fits : Windows.backend.Fits offset length)
    (innerFits : Windows.backend.Fits offset inner)
    (inside : ∀ byte, Within Windows.sizeMax.toNat offset inner byte → Within Windows.sizeMax.toNat offset length byte) :
    Windows.CoveredExclusively table false offset inner := by
  refine ⟨innerFits, fun byte within => ?_⟩
  rw [held]
  exact Windows.level_lock_wrlock offset length fits [] byte (inside byte within)

theorem exclusive_reached (offset length : UInt64) (fits : Linux.backend.Fits offset length) :
    ∃ state : Service Bool Linux.Own Request Linux.FcntlOp Linux.FcntlAnswer Outcome Belief,
      Linux.Reaches state ∧ ∀ byte, Within Linux.offsetEnd offset length byte → state.table false byte = some .wrlock := by
  have free : Linux.Grantable (fun _ : Bool => (fun _ => none : Linux.Own)) false
      (Linux.flock offset length (some .wrlock)) := fun e _ byte _ clash => clash.2.1 rfl
  have first := Service.reachable_call (api Linux.backend) (AnyCall Linux.backend) Linux.ofd (fresh fun _ => none)
    (fresh fun _ => none) .refl false ⟨.tryLock false, offset, length⟩ (fun _ => none) rfl fits
    (.ofdSetlk (Linux.flock offset length (some .wrlock))) _ rfl (.ok ()) _ ⟨free, rfl⟩ _ rfl
  refine ⟨_, first, fun byte within => ?_⟩
  simp only [Function.update_self]
  exact Linux.apply_within offset length (some .wrlock) (fun _ => none) byte fits within

theorem downgrade_lowers_once :
    ∃ (linux : Service Bool Linux.Own Request Linux.FcntlOp Linux.FcntlAnswer Outcome Belief)
      (windows : Service Bool Windows.Own Request Windows.LockFileOp Windows.LockFileAnswer Outcome Belief),
      (∀ byte, Within Linux.offsetEnd 4096 0 byte → linux.table false byte = some .wrlock) ∧
      (∀ wait, Lowers Linux.backend Linux.ofd id (Linux.MayShare 4096 0) false wait 4096 0 linux.table) ∧
      windows.table = exclusiveHandle 0 10 ∧
      ∀ wait, Lowers Windows.backend Windows.files Windows.level (Windows.MayShare 0 10) false wait 0 10 windows.table ↔
        Windows.asked 0 10 true ∈ windows.table false := by
  have fits : Linux.backend.Fits 4096 0 := ⟨by decide, by decide, by decide⟩
  obtain ⟨linux, onLinux, locked⟩ := exclusive_reached 4096 0 fits
  obtain ⟨windows, onWindows, table⟩ := exclusive_handle_reached 0 10 ten_fit.2.1
  exact ⟨linux, windows, locked, (successful_downgrade_lowers_iff false 4096 0).1 linux onLinux fits, table,
    (successful_downgrade_lowers_iff false 0 10).2 windows onWindows
      (handle_covers 0 10 10 windows.table table ten_fit.2.1 ten_fit.2.1 fun _ within => within)⟩

theorem larger_lock_not_lowered :
    ∃ state : Service Bool Windows.Own Request Windows.LockFileOp Windows.LockFileAnswer Outcome Belief,
      Windows.Reaches state ∧ state.table = exclusiveHandle 0 20 ∧ Windows.CoveredExclusively state.table false 0 10 ∧
      ∀ wait, ¬ Lowers Windows.backend Windows.files Windows.level (Windows.MayShare 0 10) false wait 0 10 state.table := by
  obtain ⟨state, reached, table⟩ := exclusive_handle_reached 0 20 ten_fit.2.2
  have covered := handle_covers 0 20 10 state.table table ten_fit.2.2 ten_fit.2.1 fun byte within => by
    simp only [Within] at within ⊢
    simp at within ⊢
    omega
  refine ⟨state, reached, table, covered, fun wait => Windows.covered_not_lowered false 0 10 state reached covered ?_ wait⟩
  rw [table]
  decide

theorem downgrade_atomic_once :
    ∃ (state : Service Bool Windows.Own Request Windows.LockFileOp Windows.LockFileAnswer Outcome Belief)
      (events : List (Event Bool Windows.LockFileOp Windows.LockFileAnswer)) (table : Bool → Windows.Own),
      Turns Windows.settled false (Windows.platformDowngrade true 0 10) state.table events (.ret (.ok ())) table ∧
        Windows.Lowering false 0 10 (.ret (.ok ())) table := by
  obtain ⟨state, reached, held⟩ := exclusive_handle_reached 0 10 ten_fit.2.1
  have exclusive : Windows.asked 0 10 true ∈ state.table false := by
    rw [held]
    exact .head _
  have sound := Windows.reaches_sound state reached
  obtain ⟨⟨both, takes⟩, _⟩ := Windows.immediate_of_may state.table false (Windows.lockOp false false 0 10) _
    ((Windows.lock_op_may _ _ _ _ _ _).mpr (Windows.shared_grantable state.table false 0 10 sound exclusive))
    (Windows.lock_op_effect _ _ _ _ _)
  have here : both false = Windows.asked 0 10 false :: state.table false := by
    obtain ⟨_, own, effect, rfl⟩ := takes.1
    rw [Windows.lock_op_effect] at effect
    cases effect
    exact Function.update_self ..
  obtain ⟨⟨table, releases⟩, _⟩ := Windows.immediate_of_may both false (Windows.unlockOp 0 10) _ trivial
    (by rw [here]; exact Windows.unlock_lowers _ _ _ exclusive)
  have turns : Turns Windows.settled false (Windows.platformDowngrade true 0 10) state.table
      [⟨false, Windows.lockOp false false 0 10, .ok ()⟩, ⟨false, Windows.unlockOp 0 10, .ok ()⟩] (.ret (.ok ())) table := by
    rw [Windows.downgrade_program]
    exact .own _ _ _ _ _ _ _ _ takes (.own _ _ _ _ _ _ _ _ releases (.here _ _))
  have holds : Windows.HoldsExclusive state.table false 0 10 := ⟨ten_fit.2.1, exclusive⟩
  exact ⟨state, _, table, turns, Windows.downgrade_atomic false 0 10 state reached holds true _ _ _ turns⟩

end FsExt.Lock
