import FsExt.Lock.Held
import FsExt.Lock.Soundness
import FsExt.Lock.Deadlock

set_option autoImplicit false

namespace FsExt.Lock

open Sys

section
variable {D Own Op : Type} {Answer : Op → Type}

-- What the README promises of `tryUpgradeLock`: all or nothing, whatever the
-- others do before it returns. `start` is what its first system call meets.
structure UpgradeContract (backend : Backend Op Answer) (sem : D → Program.Semantics Op Answer (D → Own))
    (level : Own → Nat → Option LockType) (d : D) (offset length : UInt64) (start : D → Own) : Prop where
  returns : ∀ rest mid events result final,
    Begins sem d (Request.program backend ⟨.tryUpgradeLock, offset, length⟩) start rest mid →
    Turns sem d rest mid events (.ret result) final →
    (result = .returned true → ∀ byte, Within backend.top offset length byte → level (final d) byte = some .wrlock) ∧
      (result = .returned false → ∀ byte, Within backend.top offset length byte → level (final d) byte = none)
  spares : ∀ op table answer table' e, sem d op table answer table' → e ≠ d → table' e = table e

end

namespace Linux

section
variable {D : Type} [DecidableEq D]

theorem try_upgrade_program (offset length : UInt64) :
    Request.program backend ⟨.tryUpgradeLock, offset, length⟩ =
      .call (.ofdSetlk (flock offset length (some .wrlock))) fun status => .ret (tryOutcome (tryStatus status)) := rfl

theorem upgrade_contract (d : D) (offset length : UInt64) (start : D → Own)
    (holds : HoldsShared start d offset length) :
    UpgradeContract backend strict id d offset length start ↔
      Grantable start d (flock offset length (some .wrlock)) := by
  constructor
  · intro contract
    by_contra blocked
    have refused : strict d (.ofdSetlk (flock offset length (some .wrlock))) start (.error UvError.EAGAIN) start :=
      ⟨rfl, fun _ _ _ => blocked⟩
    have lost := (contract.returns _ start [] (.returned false) start ⟨_, refused, rfl⟩ (.here _ _)).2 rfl offset.toNat
      (fits_within offset length holds.fits)
    rw [id, holds.shared _ (fits_within offset length holds.fits)] at lost
    cases lost
  · intro free
    refine ⟨fun rest mid events result final begins turns => ?_, strict_owned.frame d⟩
    obtain ⟨answer, step, rfl⟩ : ∃ answer, strict d (.ofdSetlk (flock offset length (some .wrlock))) start answer mid ∧
      rest = .ret (tryOutcome (tryStatus answer)) := begins
    obtain ⟨ended, _, kept⟩ := turns_ret strict d ofdOwn strict_owned _ _ _ _ _ turns
    cases ended
    cases answer with
    | ok done =>
        refine ⟨fun _ byte within => ?_, fun refused => by cases refused⟩
        rw [kept, step.1.2, Function.update_self, id]
        exact apply_within offset length (some .wrlock) (start d) byte holds.fits within
    | error err =>
        constructor
        · intro granted
          cases (returned_true_iff _).mp granted
        · intro refused
          obtain ⟨other, same, blocks⟩ := (returned_false_iff _).mp refused
          exact absurd free (step.2 other same blocks)

end

end Linux

namespace Windows

def OnlyShared (own : Own) (offset length : UInt64) : Prop :=
  ∀ lock ∈ own.erase (asked offset length false), ∀ byte, Within sizeMax.toNat offset length byte → ¬ lock.Covers byte

theorem asked_differ (offset length : UInt64) : asked offset length true ≠ asked offset length false := by
  simp [asked]

theorem released_leaves (own rest : Own) (offset length : UInt64) (shared : asked offset length false ∈ own)
    (released : (unlockOp offset length).effect own = some rest) :
    (asked offset length true ∈ own ∧ rest = own.erase (asked offset length true)) ∨
      (asked offset length true ∉ own ∧ rest = own.erase (asked offset length false)) := by
  rw [unlock_op_effect] at released
  by_cases exclusive : asked offset length true ∈ own
  · rw [if_pos exclusive] at released
    exact .inl ⟨exclusive, (Option.some.inj released).symm⟩
  · rw [if_neg exclusive, if_pos shared] at released
    exact .inr ⟨exclusive, (Option.some.inj released).symm⟩

theorem blocked_by_own {D : Type} (d : D) (offset length : UInt64) (start : D → Own)
    (holds : HoldsShared start d offset length) (more : ¬ OnlyShared (start d) offset length) :
    ∃ rest lock byte, (unlockOp offset length).effect (start d) = some rest ∧ lock ∈ rest ∧
      Within sizeMax.toNat offset length byte ∧ lock.Covers byte := by
  by_cases exclusive : asked offset length true ∈ start d
  · refine ⟨_, asked offset length false, offset.toNat, by rw [unlock_op_effect, if_pos exclusive], ?_,
      fits_within offset length holds.fits, ?_⟩
    · exact (List.mem_erase_of_ne (Ne.symm (asked_differ offset length))).mpr holds.shared
    · exact (asked_covers offset length false _ holds.fits).mpr (fits_within offset length holds.fits)
  · simp only [OnlyShared, not_forall, not_not] at more
    obtain ⟨lock, member, byte, within, covers⟩ := more
    exact ⟨_, lock, byte, by rw [unlock_op_effect, if_neg exclusive, if_pos holds.shared], member, within, covers⟩

section
variable {D : Type} [DecidableEq D]

theorem try_upgrade_program (offset length : UInt64) :
    Request.program backend ⟨.tryUpgradeLock, offset, length⟩ =
      .call (unlockOp offset length) fun released =>
        match released with
        | .error err => .ret (tryOutcome (tryStatus (.error err)))
        | .ok () => .call (lockOp true true offset length) fun status => .ret (tryOutcome (tryStatus status)) := by
  rw [Request.program]
  simp only [backend, tryUpgradeLock, unlock, unlockFileEx, Program.perform_bind, Program.call_bind]
  rw [unlockOp]
  congr 1
  funext released
  cases released <;> rfl

theorem only_shared_of_contract (d : D) (offset length : UInt64) (start : D → Own)
    (holds : HoldsShared start d offset length)
    (contract : UpgradeContract backend strict level d offset length start) : OnlyShared (start d) offset length := by
  by_contra more
  obtain ⟨rest, lock, byte, released, member, within, covers⟩ := blocked_by_own d offset length start holds more
  have left : Function.update start d rest d = rest := Function.update_self ..
  have unlocks : strict d (unlockOp offset length) start (.ok ()) (Function.update start d rest) :=
    ⟨⟨trivial, rest, released, rfl⟩, fun _ failed _ => by cases failed⟩
  have refused : strict d (lockOp true true offset length) (Function.update start d rest) (.error UvError.EBUSY)
      (Function.update start d rest) := by
    refine ⟨rfl, fun _ _ _ may => ?_⟩
    rw [lock_op_may, Grantable, if_pos (show (asked offset length true).exclusive = true from rfl)] at may
    exact may d lock (by rw [left]; exact member)
      (overlaps_of_covers _ _ byte ((asked_covers offset length true byte holds.fits).mpr within) covers)
  have turns : Turns strict d (.call (lockOp true true offset length) fun status =>
      .ret (tryOutcome (tryStatus status))) (Function.update start d rest) [⟨d, _, .error UvError.EBUSY⟩]
      (.ret (.returned false)) (Function.update start d rest) :=
    .own _ _ _ _ _ _ _ _ refused (.here _ _)
  have begins : Begins strict d (Request.program backend ⟨.tryUpgradeLock, offset, length⟩) start
      (.call (lockOp true true offset length) fun status => .ret (tryOutcome (tryStatus status)))
      (Function.update start d rest) := by
    rw [try_upgrade_program]
    exact ⟨.ok (), unlocks, rfl⟩
  have lost := (contract.returns _ _ _ _ _ begins turns).2 rfl byte within
  exact (level_none _ byte).mpr ⟨lock, by rw [left]; exact member, covers⟩ lost

theorem only_shared_released (own rest : Own) (offset length : UInt64) (fits : backend.Fits offset length)
    (shared : asked offset length false ∈ own) (only : OnlyShared own offset length)
    (released : (unlockOp offset length).effect own = some rest) :
    ∀ lock ∈ rest, ∀ byte, Within sizeMax.toNat offset length byte → ¬ lock.Covers byte := by
  rcases released_leaves _ _ _ _ shared released with ⟨exclusive, _⟩ | ⟨_, rfl⟩
  · have member := (List.mem_erase_of_ne (asked_differ offset length)).mpr exclusive
    have covers := (asked_covers offset length true _ fits).mpr (fits_within offset length fits)
    exact absurd covers (only _ member _ (fits_within offset length fits))
  · exact only

theorem contract_of_only_shared (d : D) (offset length : UInt64) (start : D → Own)
    (holds : HoldsShared start d offset length) (only : OnlyShared (start d) offset length) :
    UpgradeContract backend strict level d offset length start := by
  refine ⟨fun rest mid events result final begins turns => ?_, strict_owned.frame d⟩
  rw [try_upgrade_program] at begins
  obtain ⟨released, step, rfl⟩ := begins
  cases released with
  | error err =>
      -- nothing is refused to an unlock as held by somebody else
      obtain ⟨ended, _, _⟩ := turns_ret strict d filesOwn strict_owned _ _ _ _ _ turns
      cases ended
      constructor
      · intro granted
        cases (returned_true_iff _).mp granted
      · intro refused
        obtain ⟨other, same, blocks⟩ := (returned_false_iff _).mp refused
        exact absurd trivial (step.2 other same blocks)
  | ok done =>
      obtain ⟨_, own, effect, rfl⟩ := step.1
      have bare := only_shared_released (start d) own offset length holds.fits holds.shared only effect
      have ensured : Program.Ensures filesOwn (fun _ _ => True)
          (Program.call (lockOp true true offset length) fun status => .ret (tryOutcome (tryStatus status)))
          (Function.update start d own d) fun result mine =>
            (result = .returned true →
              ∀ byte, Within sizeMax.toNat offset length byte → level mine byte = some .wrlock) ∧
            (result = .returned false →
              ∀ byte, Within sizeMax.toNat offset length byte → level mine byte = none) := by
        rw [Function.update_self]
        refine ⟨trivial, fun answer mine step => ?_⟩
        cases answer with
        | ok done =>
            have taken : some (asked offset length true :: own) = some mine :=
              (lock_op_effect own true true offset length).symm.trans step
            cases taken
            exact ⟨fun _ byte within => level_lock_wrlock offset length holds.fits own byte within,
              fun refused => by cases refused⟩
        | error err =>
            obtain rfl : mine = own := step
            refine ⟨fun granted => ?_, fun _ byte within => ?_⟩
            · cases (returned_true_iff _).mp granted
            · by_contra covered
              obtain ⟨lock, member, covers⟩ := (level_none _ byte).mp covered
              exact bare lock member byte within covers
      exact turns_ensures strict d filesOwn strict_owned _ _ _ _ _ _ _ turns ensured

theorem upgrade_contract (d : D) (offset length : UInt64) (start : D → Own)
    (holds : HoldsShared start d offset length) :
    UpgradeContract backend strict level d offset length start ↔ OnlyShared (start d) offset length :=
  ⟨only_shared_of_contract d offset length start holds, contract_of_only_shared d offset length start holds⟩

end

end Windows

theorem try_upgrade_contract_iff {D : Type} [DecidableEq D] (d : D) (offset length : UInt64) :
    (∀ table : D → Linux.Own, Linux.HoldsShared table d offset length →
      (UpgradeContract Linux.backend Linux.strict id d offset length table ↔
        Linux.Grantable table d (Linux.flock offset length (some .wrlock)))) ∧
      ∀ table : D → Windows.Own, Windows.HoldsShared table d offset length →
        (UpgradeContract Windows.backend Windows.strict Windows.level d offset length table ↔
          Windows.OnlyShared (table d) offset length) :=
  ⟨fun table holds => Linux.upgrade_contract d offset length table holds,
    fun table holds => Windows.upgrade_contract d offset length table holds⟩

theorem linux_shared_held {D : Type} (table : D → Linux.Own) (d : D) (offset length : UInt64)
    (fits : Linux.backend.Fits offset length) (held : table d = Linux.shared offset length) :
    Linux.HoldsShared table d offset length := by
  refine ⟨fits, fun byte within => ?_⟩
  rw [held]
  exact Linux.apply_within offset length (some .rdlock) Linux.nothing byte fits within

theorem sample_fits : Linux.backend.Fits 0 10 ∧ Windows.backend.Fits 0 10 := by
  refine ⟨⟨by decide, by decide, by decide⟩, ?_⟩
  rw [Windows.backend]
  decide

def lastSharer : Bool → Linux.Own := Function.update (fun _ => Linux.nothing) false (Linux.shared 4096 0)

def oneHandle : Bool → Windows.Own := Function.update (fun _ => []) false [Windows.asked 0 10 false]

theorem lone_sharer_upgrades :
    (UpgradeContract Linux.backend Linux.strict id false 4096 0 lastSharer ↔
        Linux.Grantable lastSharer false (Linux.flock 4096 0 (some .wrlock))) ∧
      (UpgradeContract Windows.backend Windows.strict Windows.level false 0 10 oneHandle ↔
        Windows.OnlyShared (oneHandle false) 0 10) :=
  ⟨(try_upgrade_contract_iff false 4096 0).1 lastSharer (linux_shared_held _ _ _ _ ⟨by decide, by decide, by decide⟩ rfl),
    (try_upgrade_contract_iff false 0 10).2 oneHandle ⟨sample_fits.2, .head _⟩⟩

def twoSharers : Bool → Linux.Own := fun _ => Linux.shared 0 10

def twiceShared : Bool → Windows.Own :=
  Function.update (fun _ => []) false [Windows.asked 0 10 false, Windows.asked 0 10 false]

theorem two_sharers_reached :
    ∃ state : Service Bool Linux.Own Request Linux.FcntlOp Linux.FcntlAnswer Outcome Belief,
      Linux.Reaches state ∧ state.table = twoSharers := by
  obtain ⟨free, free'⟩ := shares_free
  have first := Service.reachable_call (api Linux.backend) (AnyCall Linux.backend) Linux.ofd (fresh Linux.nothing)
    (fresh Linux.nothing) .refl false shareRequest (fun _ => none) rfl sample_fits.1 _ _ rfl (.ok ()) _ ⟨free, rfl⟩ _ rfl
  have second := Service.reachable_call _ _ _ _ _ first true shareRequest (fun _ => none) rfl sample_fits.1 _ _ rfl
    (.ok ()) _ ⟨free', rfl⟩ _ rfl
  refine ⟨_, second, ?_⟩
  funext d
  cases d <;> rfl

theorem handle_shares_free (table : Bool → Windows.Own) (empty : table true = []) :
    Windows.Grantable table false (Windows.rangeLock 10 0 (Windows.overlapped 0) false) := by
  intro e different other member
  cases e with
  | false => exact absurd rfl different
  | true =>
      rw [empty] at member
      cases member

theorem one_handle_reached :
    ∃ state : Service Bool Windows.Own Request Windows.LockFileOp Windows.LockFileAnswer Outcome Belief,
      Windows.Reaches state ∧ state.table = oneHandle ∧ ∃ belief, state.party false = .idle belief := by
  have first := Service.reachable_call (api Windows.backend) (AnyCall Windows.backend) Windows.files (fresh [])
    (fresh []) .refl false shareRequest (fun _ => none) rfl sample_fits.2 _ _ rfl (.ok ()) _
    ⟨handle_shares_free _ rfl, _, rfl, rfl⟩ _ rfl
  refine ⟨_, first, ?_, _, rfl⟩
  funext d
  cases d <;> rfl

theorem twice_shared_reached :
    ∃ state : Service Bool Windows.Own Request Windows.LockFileOp Windows.LockFileAnswer Outcome Belief,
      Windows.Reaches state ∧ state.table = twiceShared := by
  obtain ⟨state, reached, table, belief, idle⟩ := one_handle_reached
  have free := handle_shares_free state.table (by rw [table]; rfl)
  have second := Service.reachable_call _ _ _ _ _ reached false shareRequest belief idle sample_fits.2 _ _ rfl
    (.ok ()) _ ⟨free, _, rfl, rfl⟩ _ rfl
  refine ⟨_, second, ?_⟩
  simp only [table]
  funext d
  cases d <;> rfl

theorem refused_upgrade_keeps_lock :
    ((∃ state : Service Bool Linux.Own Request Linux.FcntlOp Linux.FcntlAnswer Outcome Belief,
        Linux.Reaches state ∧ state.table = twoSharers) ∧ Linux.HoldsShared twoSharers false 0 10 ∧
        ¬ UpgradeContract Linux.backend Linux.strict id false 0 10 twoSharers) ∧
      (∃ state : Service Bool Windows.Own Request Windows.LockFileOp Windows.LockFileAnswer Outcome Belief,
        Windows.Reaches state ∧ state.table = twiceShared) ∧ Windows.HoldsShared twiceShared false 0 10 ∧
        ¬ UpgradeContract Windows.backend Windows.strict Windows.level false 0 10 twiceShared := by
  have onLinux := linux_shared_held twoSharers false 0 10 sample_fits.1 rfl
  have onWindows : Windows.HoldsShared twiceShared false 0 10 := ⟨sample_fits.2, .head _⟩
  refine ⟨⟨two_sharers_reached, onLinux, fun contract => ?_⟩, twice_shared_reached, onWindows, fun contract => ?_⟩
  · have free := (Linux.upgrade_contract false 0 10 twoSharers onLinux).mp contract
    have covers : (Linux.flock 0 10 (some .wrlock)).Covers 0 := by decide
    have clash : Clash (some .wrlock) (Linux.shared 0 10 0) := by decide
    exact free true (by decide) 0 covers clash
  · have only := (Windows.upgrade_contract false 0 10 twiceShared onWindows).mp contract
    exact only (Windows.asked 0 10 false) (by decide) 0 (by decide) (by decide)

def upgradeCall (wait : Bool) : LockCall := if wait then .waitForUpgradeLock else .tryUpgradeLock

namespace Linux

section
variable {D : Type} [DecidableEq D]

theorem upgrade_program (wait : Bool) (offset length : UInt64) :
    ∃ op : FcntlOp, op.data = flock offset length (some .wrlock) ∧
      Request.program backend ⟨upgradeCall wait, offset, length⟩ = .call op fun status => .ret (shown wait status) := by
  cases wait with
  | false => exact ⟨.ofdSetlk (flock offset length (some .wrlock)), rfl, rfl⟩
  | true => exact ⟨.ofdSetlkw (flock offset length (some .wrlock)), rfl, rfl⟩

theorem upgrade_uninterrupted (d : D) (offset length : UInt64) (start final : D → Own)
    (holds : HoldsShared start d offset length) (wait : Bool) (events : List (Event D FcntlOp FcntlAnswer))
    (turns : Turns ofd d (Request.program backend ⟨upgradeCall wait, offset, length⟩) start events
      (.ret (.returned true)) final) :
    ∀ event ∈ events, event.party ≠ d → ¬ GrantsExclusive offset length event := by
  obtain ⟨op, data, program⟩ := upgrade_program wait offset length
  rw [program] at turns
  have excludes : ∀ table : D → Own, (∀ byte, Within offsetEnd offset length byte → table d byte ≠ none) →
      ∀ e op now answer after, e ≠ d → now d = table d → ofd e op now answer after →
        ¬ GrantsExclusive offset length (⟨e, op, answer⟩ : Event D FcntlOp FcntlAnswer) := by
    intro table held e op now answer after different same step
    exact held_excludes d e offset length op answer now after different (by rw [same]; exact held) step
  rcases turns_call ofd d ofdOwn ofd_owned _ _ _ _ _ _ turns with ⟨waits, _⟩ |
    ⟨before, met, answer, met', after, rfl, others, path, kept, step, rest⟩
  · cases waits
  · obtain ⟨ended, others', _⟩ := turns_ret ofd d ofdOwn ofd_owned _ _ _ _ _ rest
    obtain rfl := (shown_true_iff wait answer).mp (Program.ret.inj ended).symm
    have first := turns_others ofd d ofdOwn ofd_owned (fun event => ¬ GrantsExclusive offset length event) _ _ _ _ _ path
      others (excludes start fun byte within => by rw [holds.shared byte within]; exact Option.some_ne_none _)
    have last := turns_others ofd d ofdOwn ofd_owned (fun event => ¬ GrantsExclusive offset length event) _ _ _ _ _ rest
      others' (excludes met' fun byte within => by
        rw [step.2, Function.update_self, data, apply_within offset length _ _ byte holds.fits within]
        exact Option.some_ne_none _)
    intro event member different
    rcases List.mem_append.mp member with early | late
    · exact first event early
    · rcases List.mem_cons.mp late with rfl | late
      · exact absurd rfl different
      · exact last event late

end

end Linux

namespace Windows

-- Between the release of the shared lock and the grant of the exclusive one the
-- handle holds nothing; nobody gets an exclusive lock before or after that.
def InterruptedInGap {D : Type} (d : D) (wait : Bool) (offset length : UInt64)
    (events : List (Event D LockFileOp LockFileAnswer)) : Prop :=
  ∃ before gap after, events = before ++ ⟨d, unlockOp offset length, .ok ()⟩ ::
      (gap ++ ⟨d, lockOp (!wait) true offset length, .ok ()⟩ :: after) ∧
    ByOthers d before ∧ ByOthers d gap ∧ ByOthers d after ∧
    ∀ event ∈ before ++ after, ¬ GrantsExclusive offset length event

section
variable {D : Type} [DecidableEq D]

theorem upgrade_program (wait : Bool) (offset length : UInt64) :
    Request.program backend ⟨upgradeCall wait, offset, length⟩ =
      .call (unlockOp offset length) fun released =>
        match released with
        | .error err => .ret (shown wait (.error err))
        | .ok () => .call (lockOp (!wait) true offset length) fun status => .ret (shown wait status) := by
  cases wait with
  | false => exact try_upgrade_program offset length
  | true =>
      rw [Request.program]
      simp only [upgradeCall, backend, waitForUpgradeLock, unlock, unlockFileEx, Program.perform_bind, Program.call_bind,
        if_true]
      rw [unlockOp]
      congr 1
      funext released
      cases released <;> rfl

theorem upgrade_interrupted_in_gap (d : D) (offset length : UInt64) (start final : D → Own)
    (holds : HoldsShared start d offset length) (wait : Bool) (events : List (Event D LockFileOp LockFileAnswer))
    (turns : Turns files d (Request.program backend ⟨upgradeCall wait, offset, length⟩) start events
      (.ret (.returned true)) final) : InterruptedInGap d wait offset length events := by
  rw [upgrade_program] at turns
  have excludes : ∀ table : D → Own, (∀ byte, Within sizeMax.toNat offset length byte → level (table d) byte ≠ none) →
      ∀ e op now answer after, e ≠ d → now d = table d → files e op now answer after →
        ¬ GrantsExclusive offset length (⟨e, op, answer⟩ : Event D LockFileOp LockFileAnswer) := by
    intro table held e op now answer after _ same step
    exact held_excludes d e offset length op answer now after (by rw [same]; exact held) step
  rcases turns_call files d filesOwn files_owned _ _ _ _ _ _ turns with ⟨waits, _⟩ |
    ⟨before, met, released, met', later, rfl, others, path, _, _, rest⟩
  · cases waits
  · cases released with
    | error err =>
        obtain ⟨ended, _, _⟩ := turns_ret files d filesOwn files_owned _ _ _ _ _ rest
        cases (shown_true_iff wait _).mp (Program.ret.inj ended).symm
    | ok done =>
        rcases turns_call files d filesOwn files_owned _ _ _ _ _ _ rest with ⟨waits, _⟩ |
          ⟨gap, now, answer, now', after, rfl, others', _, _, step, rest'⟩
        · cases waits
        · obtain ⟨ended, others'', _⟩ := turns_ret files d filesOwn files_owned _ _ _ _ _ rest'
          obtain rfl := (shown_true_iff wait answer).mp (Program.ret.inj ended).symm
          have first := turns_others files d filesOwn files_owned (fun event => ¬ GrantsExclusive offset length event)
            _ _ _ _ _ path others (excludes start fun byte within => (level_none _ byte).mpr
              ⟨_, holds.shared, (asked_covers offset length false byte holds.fits).mpr within⟩)
          obtain ⟨_, own, effect, rfl⟩ := step
          rw [lock_op_effect] at effect
          cases effect
          have last := turns_others files d filesOwn files_owned (fun event => ¬ GrantsExclusive offset length event)
            _ _ _ _ _ rest' others'' (excludes _ fun byte within => by
              rw [Function.update_self, level_lock_wrlock offset length holds.fits _ byte within]
              exact Option.some_ne_none _)
          refine ⟨before, gap, after, rfl, others, others', others'', fun event member => ?_⟩
          rcases List.mem_append.mp member with early | late
          · exact first event early
          · exact last event late

end

end Windows

theorem granted_upgrade_interrupted_in_gap {D : Type} [DecidableEq D] (d : D) (offset length : UInt64) :
    (∀ table : D → Linux.Own, Linux.HoldsShared table d offset length → ∀ wait events final,
      Turns Linux.ofd d (Request.program Linux.backend ⟨upgradeCall wait, offset, length⟩) table events
        (.ret (.returned true)) final →
      ∀ event ∈ events, event.party ≠ d → ¬ Linux.GrantsExclusive offset length event) ∧
      ∀ table : D → Windows.Own, Windows.HoldsShared table d offset length → ∀ wait events final,
        Turns Windows.files d (Request.program Windows.backend ⟨upgradeCall wait, offset, length⟩) table events
          (.ret (.returned true)) final →
        Windows.InterruptedInGap d wait offset length events :=
  ⟨fun table holds wait events final => Linux.upgrade_uninterrupted d offset length table final holds wait events,
    fun table holds wait events final => Windows.upgrade_interrupted_in_gap d offset length table final holds wait events⟩

theorem lone_upgrade_interrupted_in_gap :
    (∀ wait events final,
      Turns Linux.ofd false (Request.program Linux.backend ⟨upgradeCall wait, 4096, 0⟩) lastSharer events
        (.ret (.returned true)) final →
      ∀ event ∈ events, event.party ≠ false → ¬ Linux.GrantsExclusive 4096 0 event) ∧
      ∀ wait events final, Turns Windows.files false (Request.program Windows.backend ⟨upgradeCall wait, 0, 10⟩) oneHandle
          events (.ret (.returned true)) final →
        Windows.InterruptedInGap false wait 0 10 events :=
  ⟨(granted_upgrade_interrupted_in_gap false 4096 0).1 lastSharer
      (linux_shared_held _ _ _ _ ⟨by decide, by decide, by decide⟩ rfl),
    (granted_upgrade_interrupted_in_gap false 0 10).2 oneHandle ⟨sample_fits.2, .head _⟩⟩

theorem upgrade_interrupted :
    (∃ state : Service Bool Windows.Own Request Windows.LockFileOp Windows.LockFileAnswer Outcome Belief,
      Windows.Reaches state ∧ state.table = oneHandle) ∧ Windows.HoldsShared oneHandle false 0 10 ∧
      ∃ events final, Turns Windows.files false (Request.program Windows.backend ⟨.tryUpgradeLock, 0, 10⟩) oneHandle events
          (.ret (.returned true)) final ∧
        ∃ event ∈ events, event.party ≠ false ∧ Windows.GrantsExclusive 0 10 event := by
  obtain ⟨state, reached, table, _⟩ := one_handle_reached
  refine ⟨⟨state, reached, table⟩, ⟨sample_fits.2, .head _⟩, ?_⟩
  let free : Bool → Windows.Own := Function.update oneHandle false []
  let taken : Bool → Windows.Own := Function.update free true [Windows.asked 0 10 true]
  let final : Bool → Windows.Own := Function.update (Function.update taken true []) false [Windows.asked 0 10 true]
  have nobody : ∀ table : Bool → Windows.Own, (∀ e, table e = []) → ∀ d,
      (Windows.lockOp true true 0 10).May table d := by
    intro table empty d
    rw [Windows.lock_op_may]
    intro e other member
    rw [empty] at member
    cases member
  have releases : Windows.files false (Windows.unlockOp 0 10) oneHandle (.ok ()) free := ⟨trivial, [], by decide, rfl⟩
  have grants : Windows.files true (Windows.lockOp true true 0 10) free (.ok ()) taken :=
    ⟨nobody free (by decide) true, _, Windows.lock_op_effect _ _ _ _ _, rfl⟩
  have withdraws : Windows.files true (Windows.unlockOp 0 10) taken (.ok ()) (Function.update taken true []) :=
    ⟨trivial, [], by decide, rfl⟩
  have upgrades : Windows.files false (Windows.lockOp true true 0 10) (Function.update taken true []) (.ok ()) final :=
    ⟨nobody _ (by decide) false, _, Windows.lock_op_effect _ _ _ _ _, rfl⟩
  rw [Windows.try_upgrade_program]
  refine ⟨_, final, .own _ _ _ _ _ _ _ _ releases (.other _ _ _ _ _ _ _ _ _ (by decide) grants
    (.other _ _ _ _ _ _ _ _ _ (by decide) withdraws (.own _ _ _ _ _ _ _ _ upgrades (.here _ _)))),
    ⟨true, Windows.lockOp true true 0 10, .ok ()⟩, .tail _ (.head _), by decide, rfl, Windows.asked 0 10 true, ?_, rfl, 0,
    by decide, by decide⟩
  exact congrArg some (Windows.range_lock_asked 0 10 true)

end FsExt.Lock
