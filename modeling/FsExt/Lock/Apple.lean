import FsExt.Lock.Beliefs

set_option autoImplicit false

namespace FsExt.Lock.Apple

open Sys

-- One call of flock(2) that asks for a lock is up to two steps of the kernel.
-- The first takes the lock, fails, or gives up the previous lock of the
-- descriptor; in the last case `retakes` is what is left of the call, and others
-- may come in between.
inductive FlockOp where
  | takes (type : LockType) (nonblock : Bool)
  | retakes (type : LockType) (nonblock : Bool)
  | unlocks

abbrev FlockAnswer : FlockOp → Type
  | .takes _ _ => Option Status
  | .retakes _ _ => Status
  | .unlocks => Status

def flock (type : LockType) (nonblock : Bool) : Program FlockOp FlockAnswer Status :=
  .call (.takes type nonblock) fun answer =>
    match answer with
    | some status => .ret status
    | none => .call (.retakes type nonblock) fun status => .ret status

def tryLock (offset length : UInt64) (type : LockType) : Program FlockOp FlockAnswer Status :=
  if offset ≠ 0 ∨ length ≠ 0 then .ret (.error .EINVAL) else flock type true

def waitForLock (offset length : UInt64) (type : LockType) : Program FlockOp FlockAnswer Status :=
  if offset ≠ 0 ∨ length ≠ 0 then .ret (.error .EINVAL) else flock type false

def unlock (offset length : UInt64) : Program FlockOp FlockAnswer Status :=
  if offset ≠ 0 ∨ length ≠ 0 then .ret (.error .EINVAL) else .call .unlocks fun status => .ret status

def tryDowngradeLock (offset length : UInt64) : Program FlockOp FlockAnswer Status := tryLock offset length .rdlock

def waitForDowngradeLock (offset length : UInt64) : Program FlockOp FlockAnswer Status :=
  waitForLock offset length .rdlock

def tryUpgradeLock (offset length : UInt64) : Program FlockOp FlockAnswer Status := tryLock offset length .wrlock

def waitForUpgradeLock (offset length : UInt64) : Program FlockOp FlockAnswer Status :=
  waitForLock offset length .wrlock

def offsetEnd : Nat := 2 ^ 63

-- Every range is fine: what is not the whole file is refused.
def backend : Backend FlockOp FlockAnswer where
  tryLock := tryLock
  waitForLock := waitForLock
  tryDowngradeLock := tryDowngradeLock
  waitForDowngradeLock := waitForDowngradeLock
  tryUpgradeLock := tryUpgradeLock
  waitForUpgradeLock := waitForUpgradeLock
  unlock := unlock
  top := offsetEnd
  Fits _ _ := True

abbrev Own := Option LockType

def level (own : Own) (byte : Nat) : Option LockType := if byte < offsetEnd then own else none

section
variable {D : Type}

def Grantable (table : D → Own) (d : D) (type : LockType) : Prop := ∀ e, e ≠ d → ¬ Clash (some type) (table e)

variable [DecidableEq D]

-- Whether a refused or failed conversion has already cost the previous lock is
-- left open.
def flocks (d : D) : Program.Semantics FlockOp FlockAnswer (D → Own)
  | .takes type _, table, some (.ok ()), table' =>
      Grantable table d type ∧ table' = Function.update table d (some type)
  | .takes _ _, table, some (.error _), table' => table' = table ∨ table' = Function.update table d none
  | .takes _ _, table, none, table' => table' = Function.update table d none
  | .retakes type _, table, .ok (), table' =>
      Grantable table d type ∧ table' = Function.update table d (some type)
  | .retakes _ _, table, .error _, table' => table' = table
  | .unlocks, table, .ok (), table' => table' = Function.update table d none
  | .unlocks, table, .error _, table' => table' = table

end

def flocksOwn : Program.Semantics FlockOp FlockAnswer Own
  | .takes type _, _, some (.ok ()), own' => own' = some type
  | .takes _ _, own, some (.error _), own' => own' = own ∨ own' = none
  | .takes _ _, _, none, own' => own' = none
  | .retakes type _, _, .ok (), own' => own' = some type
  | .retakes _ _, own, .error _, own' => own' = own
  | .unlocks, _, .ok (), own' => own' = none
  | .unlocks, own, .error _, own' => own' = own

theorem flocks_cases {D : Type} [DecidableEq D] (d : D) (op : FlockOp) (table : D → Own) (answer : FlockAnswer op)
    (table' : D → Own) (step : flocks d op table answer table') :
    ∃ own, table' = Function.update table d own ∧ flocksOwn op (table d) answer own ∧
      (own = table d ∨ own = none ∨ ∃ type, own = some type ∧ Grantable table d type) := by
  have stays : table = Function.update table d (table d) := (Function.update_eq_self d table).symm
  cases op with
  | takes type nonblock =>
      cases answer with
      | none => exact ⟨none, step, rfl, .inr (.inl rfl)⟩
      | some status =>
          cases status with
          | ok done => exact ⟨some type, step.2, rfl, .inr (.inr ⟨type, rfl, step.1⟩)⟩
          | error err =>
              rcases step with same | lost
              · exact ⟨table d, same.trans stays, .inl rfl, .inl rfl⟩
              · exact ⟨none, lost, .inr rfl, .inr (.inl rfl)⟩
  | retakes type nonblock =>
      cases answer with
      | ok done => exact ⟨some type, step.2, rfl, .inr (.inr ⟨type, rfl, step.1⟩)⟩
      | error err => exact ⟨table d, step.trans stays, rfl, .inl rfl⟩
  | unlocks =>
      cases answer with
      | ok done => exact ⟨none, step, rfl, .inr (.inl rfl)⟩
      | error err => exact ⟨table d, step.trans stays, rfl, .inl rfl⟩

theorem flocks_owned {D : Type} [DecidableEq D] : Service.Owned (flocks (D := D)) flocksOwn where
  changes d op table answer table' step := by
    obtain ⟨own, rfl, changed, _⟩ := flocks_cases d op table answer table' step
    rw [Function.update_self]
    exact changed
  frame d op table answer table' e step different := by
    obtain ⟨own, rfl, _, _⟩ := flocks_cases d op table answer table' step
    exact Function.update_of_ne different _ _

theorem level_clash (left right : Own) (byte : Nat) (clash : Clash (level left byte) (level right byte)) :
    Clash left right := by
  by_cases below : byte < offsetEnd
  · rw [level, level, if_pos below, if_pos below] at clash
    exact clash
  · rw [level, if_neg below] at clash
    exact absurd rfl clash.1

theorem flocks_compatible {D : Type} [DecidableEq D] (d : D) (op : FlockOp) (table : D → Own)
    (answer : FlockAnswer op) (table' : D → Own) (compatible : Compatible level table)
    (step : flocks d op table answer table') : Compatible level table' := by
  obtain ⟨own, rfl, _, kinds⟩ := flocks_cases d op table answer table' step
  refine compatible_update level table d own compatible fun e different byte clash => ?_
  rcases kinds with rfl | rfl | ⟨type, rfl, grantable⟩
  · exact compatible d e (Ne.symm different) byte clash
  · exact (level_clash _ _ byte clash).1 rfl
  · exact grantable e different (level_clash _ _ byte clash)

def Whole (request : Request) : Prop := request.offset = 0 ∧ request.length = 0

instance (request : Request) : Decidable (Whole request) := inferInstanceAs (Decidable (_ ∧ _))

-- The lock a descriptor believes it has. Here `tryLock` and `waitForLock` convert
-- too, so every call that is not refused gives up the belief from its start.
def opens (request : Request) (before : Option LockType) : Option LockType := if Whole request then none else before

def closes (request : Request) (before : Option LockType) : Outcome → Option LockType
  | .returned true =>
      match request.call with
      | .tryLock shared | .waitForLock shared => some (lockType shared)
      | .tryDowngradeLock | .waitForDowngradeLock => some .rdlock
      | .tryUpgradeLock | .waitForUpgradeLock => some .wrlock
      | .unlock => none
  | _ => opens request before

def api : Interface Request FlockOp FlockAnswer Outcome (Option LockType) where
  program := Request.program backend
  opens := opens
  closes := closes

def Backed (believed : Option LockType) (own : Own) : Prop := believed = none ∨ own = believed

def asks (request : Request) (_ : Option LockType) (op : FlockOp) (own : Own) : Prop :=
  Whole request ∧ ∀ type nonblock, op = .retakes type nonblock → own = none

theorem flock_ensures (type : LockType) (nonblock : Bool) (inv : FlockOp → Own → Prop) (mine : Own)
    (post : Status → Own → Prop) (here : inv (.takes type nonblock) mine) (lost : inv (.retakes type nonblock) none)
    (granted : post (.ok ()) (some type)) (kept : ∀ err, post (.error err) mine)
    (dropped : ∀ err, post (.error err) none) :
    Program.Ensures flocksOwn inv (flock type nonblock) mine post := by
  refine ⟨here, fun answer own step => ?_⟩
  cases answer with
  | none =>
      have gone : own = none := step
      subst own
      refine ⟨lost, fun status own step => ?_⟩
      cases status with
      | ok done =>
          have taken : own = some type := step
          subst own
          exact granted
      | error err =>
          have same : own = none := step
          subst own
          exact dropped err
  | some status =>
      cases status with
      | ok done =>
          have taken : own = some type := step
          subst own
          exact granted
      | error err =>
          have either : own = mine ∨ own = none := step
          rcases either with rfl | rfl
          · exact kept err
          · exact dropped err

theorem unlock_ensures (inv : FlockOp → Own → Prop) (mine : Own) (post : Status → Own → Prop)
    (here : inv .unlocks mine) (released : post (.ok ()) none) (failed : ∀ err, post (.error err) mine) :
    Program.Ensures flocksOwn inv (.call .unlocks fun status => .ret status) mine post := by
  refine ⟨here, fun status own step => ?_⟩
  cases status with
  | ok done =>
      have gone : own = none := step
      subst own
      exact released
  | error err =>
      have same : own = mine := step
      subst own
      exact failed err

theorem closes_failed (request : Request) (before : Option LockType) (result : Outcome)
    (failed : result ≠ .returned true) : closes request before result = opens request before := by
  cases result with
  | threw err => rfl
  | returned value =>
      cases value with
      | true => exact absurd rfl failed
      | false => rfl

theorem shown_ensures (request : Request) (before : Option LockType) (mine : Own)
    (platform : Program FlockOp FlockAnswer Status) (shown : Status → Outcome) (tells : Tells shown)
    (whole : Whole request)
    (ensured : Program.Ensures flocksOwn (asks request before) platform mine fun status own =>
      status = .ok () → Backed (closes request before (.returned true)) own) :
    Program.Ensures flocksOwn (asks request before) (do return shown (← platform)) mine
      fun result own => Backed (closes request before result) own := by
  rw [Program.ensures_bind]
  refine Program.ensures_mono flocksOwn _ _ platform mine _ _ (fun _ _ here => here) ?_ ensured
  intro status own holds
  simp only [Program.pure_eq_ret, Program.ensures_ret]
  cases status with
  | ok done =>
      rw [tells.1]
      exact holds rfl
  | error err =>
      rw [closes_failed request before _ (tells.2 err), opens, if_pos whole]
      exact .inl rfl

theorem taken_ensures (request : Request) (before : Option LockType) (mine : Own) (type : LockType) (nonblock : Bool)
    (shown : Status → Outcome) (tells : Tells shown) (whole : Whole request)
    (closed : closes request before (.returned true) = some type) :
    Program.Ensures flocksOwn (asks request before) (do return shown (← flock type nonblock)) mine
      fun result own => Backed (closes request before result) own := by
  refine shown_ensures request before mine _ shown tells whole ?_
  refine flock_ensures type nonblock _ mine _ ⟨whole, ?_⟩ ⟨whole, fun _ _ _ => rfl⟩ ?_ ?_ ?_
  · intro _ _ other
    cases other
  · intro _
    exact .inr closed.symm
  · intro err refused
    cases refused
  · intro err refused
    cases refused

theorem program_refused (request : Request) (part : ¬ Whole request) :
    request.program backend = .ret (.threw .EINVAL) := by
  have outside : request.offset ≠ 0 ∨ request.length ≠ 0 := by
    rw [← not_and_or]
    exact part
  have refused : ∀ shared, tryLock request.offset request.length shared = .ret (.error .EINVAL) :=
    fun _ => if_pos outside
  have refused' : ∀ shared, waitForLock request.offset request.length shared = .ret (.error .EINVAL) :=
    fun _ => if_pos outside
  have refused'' : unlock request.offset request.length = .ret (.error .EINVAL) := if_pos outside
  cases call : request.call with
  | tryLock shared => simp only [Request.program, call, backend, refused]; rfl
  | waitForLock shared => simp only [Request.program, call, backend, refused']; rfl
  | tryDowngradeLock => simp only [Request.program, call, backend, tryDowngradeLock, refused]; rfl
  | waitForDowngradeLock => simp only [Request.program, call, backend, waitForDowngradeLock, refused']; rfl
  | tryUpgradeLock => simp only [Request.program, call, backend, tryUpgradeLock, refused]; rfl
  | waitForUpgradeLock => simp only [Request.program, call, backend, waitForUpgradeLock, refused']; rfl
  | unlock => simp only [Request.program, call, backend, refused'']; rfl

theorem program_ensures (request : Request) (before : Option LockType) (mine : Own) (backed : Backed before mine) :
    Program.Ensures flocksOwn (asks request before) (request.program backend) mine
      fun result own => Backed (closes request before result) own := by
  by_cases whole : Whole request
  · have tries : ∀ type, tryLock request.offset request.length type = flock type true := by
      intro type
      rw [tryLock, whole.1, whole.2]
      rfl
    have waits : ∀ type, waitForLock request.offset request.length type = flock type false := by
      intro type
      rw [waitForLock, whole.1, whole.2]
      rfl
    have releases : unlock request.offset request.length = .call .unlocks fun status => .ret status := by
      rw [unlock, whole.1, whole.2]
      rfl
    have takes := taken_ensures request before mine
    rw [Request.program]
    cases call : request.call with
    | tryLock shared =>
        simp only [backend, tries]
        exact takes _ true _ try_outcome_tells whole (by simp only [closes, call])
    | waitForLock shared =>
        simp only [backend, waits]
        exact takes _ false _ outcome_tells whole (by simp only [closes, call])
    | tryDowngradeLock =>
        simp only [backend, tryDowngradeLock, tries]
        exact takes _ true _ try_outcome_tells whole (by simp only [closes, call])
    | waitForDowngradeLock =>
        simp only [backend, waitForDowngradeLock, waits]
        exact takes _ false _ outcome_tells whole (by simp only [closes, call])
    | tryUpgradeLock =>
        simp only [backend, tryUpgradeLock, tries]
        exact takes _ true _ try_outcome_tells whole (by simp only [closes, call])
    | waitForUpgradeLock =>
        simp only [backend, waitForUpgradeLock, waits]
        exact takes _ false _ outcome_tells whole (by simp only [closes, call])
    | unlock =>
        simp only [backend, releases]
        refine shown_ensures request before mine _ outcome outcome_tells whole ?_
        refine unlock_ensures _ mine _ ⟨whole, ?_⟩ ?_ ?_
        · intro _ _ other
          cases other
        · intro _
          exact .inl (by simp only [closes, call])
        · intro err refused
          cases refused
  · rw [program_refused request whole, Program.ensures_ret, closes_failed request before _ (by simp), opens, if_neg whole]
    exact backed

section
variable {D : Type} [DecidableEq D]

def unlocked : Service D Own Request FlockOp FlockAnswer Outcome (Option LockType) where
  table _ := none
  party _ := .idle none

def Reaches (state : Service D Own Request FlockOp FlockAnswer Outcome (Option LockType)) : Prop :=
  Service.Reachable api (fun _ _ _ => True) flocks unlocked state

theorem reaches_follows (state : Service D Own Request FlockOp FlockAnswer Outcome (Option LockType))
    (reachable : Reaches state) (d : D) : Service.Follows api flocksOwn Backed asks (state.table d) (state.party d) :=
  Service.reachable_follows api _ flocks flocksOwn flocks_owned Backed asks
    (fun now d request before _ backed => program_ensures request before (now.table d) backed) unlocked state
    (fun _ => .inl rfl) reachable d

theorem reaches_backed (state : Service D Own Request FlockOp FlockAnswer Outcome (Option LockType))
    (reachable : Reaches state) (d : D) : Backed (Service.view api (state.party d)) (state.table d) := by
  have follows := reaches_follows state reachable d
  cases at_ : state.party d with
  | idle now =>
      rw [at_] at follows
      exact follows
  | busy request before rest =>
      rw [at_] at follows
      obtain ⟨⟨op, next, rfl⟩, asked, _⟩ := follows
      exact .inl (if_pos asked.1)

theorem reaches_compatible (state : Service D Own Request FlockOp FlockAnswer Outcome (Option LockType))
    (reachable : Reaches state) : Compatible level state.table :=
  Service.reachable_table api _ flocks (Compatible level) flocks_compatible unlocked state
    (fun _ _ _ byte clash => (level_clash none none byte clash).1 rfl) reachable

theorem reaches_held (state : Service D Own Request FlockOp FlockAnswer Outcome (Option LockType))
    (reachable : Reaches state) (d : D) (type : LockType) (believed : Service.view api (state.party d) = some type) :
    state.table d = some type := by
  rcases reaches_backed state reachable d with nothing | same
  · rw [believed] at nothing
    cases nothing
  · rw [same, believed]

theorem reaches_agree (state : Service D Own Request FlockOp FlockAnswer Outcome (Option LockType))
    (reachable : Reaches state) (d e : D) (different : d ≠ e) :
    ¬ Clash (Service.view api (state.party d)) (Service.view api (state.party e)) := by
  intro clash
  obtain ⟨left, atD⟩ := Option.ne_none_iff_exists'.mp clash.1
  obtain ⟨right, atE⟩ := Option.ne_none_iff_exists'.mp clash.2.1
  refine reaches_compatible state reachable d e different 0 ?_
  have start : (0 : Nat) < offsetEnd := by decide
  rw [level, level, if_pos start, if_pos start, reaches_held state reachable d left atD,
    reaches_held state reachable e right atE, ← atD, ← atE]
  exact clash

theorem flock_beliefs_agree (state : Service D Own Request FlockOp FlockAnswer Outcome (Option LockType))
    (reachable : Reaches state) :
    (∀ d type, Service.view api (state.party d) = some type → state.table d = some type) ∧
      ∀ d e, d ≠ e → ¬ Clash (Service.view api (state.party d)) (Service.view api (state.party e)) :=
  ⟨reaches_held state reachable, reaches_agree state reachable⟩

-- `d` has given up its lock inside a call that may wait, and a lock of `e` is in
-- the way of the new one.
def WaitsFor (state : Service D Own Request FlockOp FlockAnswer Outcome (Option LockType)) (d e : D) : Prop :=
  ∃ request before type next, state.party d = .busy request before (.call (.retakes type false) next) ∧
    e ≠ d ∧ Clash (some type) (state.table e)

theorem waits_for_holder (state : Service D Own Request FlockOp FlockAnswer Outcome (Option LockType))
    (reachable : Reaches state) (d e : D) (waits : WaitsFor state d e) :
    state.table d = none ∧ ¬ ∃ f, WaitsFor state e f := by
  have empty : ∀ x y, WaitsFor state x y → state.table x = none := by
    rintro x y ⟨request, before, type, next, busy, _, _⟩
    have follows := reaches_follows state reachable x
    rw [busy] at follows
    exact (Service.follows_asks _ _ _ _ _ _ _ _ _ follows).2 type false rfl
  refine ⟨empty d e waits, ?_⟩
  rintro ⟨f, waiting⟩
  obtain ⟨_, _, _, _, _, _, clash⟩ := waits
  exact clash.2.1 (empty e f waiting)

theorem granted_or_waits (state : Service D Own Request FlockOp FlockAnswer Outcome (Option LockType)) (d : D)
    (request : Request) (before : Option LockType) (type : LockType)
    (next : FlockAnswer (.retakes type false) → Program FlockOp FlockAnswer Outcome)
    (busy : state.party d = .busy request before (.call (.retakes type false) next)) :
    flocks d (.retakes type false) state.table (.ok ()) (Function.update state.table d (some type)) ∨
      ∃ e, WaitsFor state d e := by
  by_cases grantable : Grantable state.table d type
  · exact .inl ⟨grantable, rfl⟩
  · right
    by_contra nobody
    exact grantable fun e different clash => nobody ⟨e, request, before, type, next, busy, different, clash⟩

theorem flock_never_deadlocks (state : Service D Own Request FlockOp FlockAnswer Outcome (Option LockType))
    (reachable : Reaches state) :
    (∀ d request before type next, state.party d = .busy request before (.call (.retakes type false) next) →
        flocks d (.retakes type false) state.table (.ok ()) (Function.update state.table d (some type)) ∨
          ∃ e, WaitsFor state d e) ∧
      (∀ d e, WaitsFor state d e → state.table d = none ∧ ¬ ∃ f, WaitsFor state e f) ∧
      ∀ members, ¬ Deadlocked (WaitsFor state) members := by
  refine ⟨granted_or_waits state, waits_for_holder state reachable, fun members deadlocked => ?_⟩
  obtain ⟨⟨d, member⟩, closed⟩ := deadlocked
  obtain ⟨e, waits⟩ := (closed d member).1
  exact (waits_for_holder state reachable d e waits).2 (closed e ((closed d member).2 e waits)).1

end

def shareRequest : Request := ⟨.waitForLock true, 0, 0⟩

def upgradeRequest : Request := ⟨.waitForUpgradeLock, 0, 0⟩

def sharing : Service Bool Own Request FlockOp FlockAnswer Outcome (Option LockType) where
  table _ := some .rdlock
  party _ := .idle (some .rdlock)

theorem reaches_sharing : Reaches sharing := by
  have free : flocks false (.takes .rdlock false) (fun _ => none) (some (.ok ()))
      (Function.update (fun _ : Bool => none) false (some .rdlock)) := ⟨fun e _ clash => clash.2.1 rfl, rfl⟩
  have free' : flocks true (.takes .rdlock false) (Function.update (fun _ : Bool => none) false (some .rdlock))
      (some (.ok ())) (Function.update (Function.update (fun _ : Bool => none) false (some .rdlock)) true (some .rdlock)) := by
    refine ⟨fun e different clash => ?_, rfl⟩
    cases e with
    | true => exact different rfl
    | false =>
        rw [Function.update_self] at clash
        revert clash
        decide
  have first := Service.reachable_call api (fun _ _ _ => True) flocks unlocked unlocked .refl false shareRequest none rfl
    trivial _ _ rfl (some (.ok ())) _ free _ rfl
  have second := Service.reachable_call _ _ _ _ _ first true shareRequest none rfl trivial _ _ rfl (some (.ok ())) _
    free' _ rfl
  refine (Service.ext ?_ ?_ : _ = sharing) ▸ second
  · funext d
    cases d <;> rfl
  · funext d
    cases d <;> rfl

theorem sharing_beliefs_agree :
    Service.view api (sharing.party false) = some .rdlock ∧ Service.view api (sharing.party true) = some .rdlock ∧
      ¬ Clash (Service.view api (sharing.party false)) (Service.view api (sharing.party true)) :=
  ⟨rfl, rfl, (flock_beliefs_agree sharing reaches_sharing).2 false true (by decide)⟩

theorem upgrading_waits :
    ∃ state : Service Bool Own Request FlockOp FlockAnswer Outcome (Option LockType),
      Service.Busy (fun request => request = upgradeRequest) (state.party false) ∧
        Service.Busy (fun request => request = upgradeRequest) (state.party true) ∧ WaitsFor state false true ∧
        ∀ members, ¬ Deadlocked (WaitsFor state) members := by
  have first := reaches_sharing.tail (.begins false upgradeRequest _ rfl trivial)
  have second := first.tail (.begins true upgradeRequest _ rfl trivial)
  have released : flocks false (.takes .wrlock false) (fun _ => some .rdlock) none
      (Function.update (fun _ : Bool => some .rdlock) false none) := rfl
  have third := second.tail (.asks false upgradeRequest _ (.takes .wrlock false) _ (none : Option Status)
    (Function.update (fun _ : Bool => some .rdlock) false none) rfl released)
  refine ⟨_, ?_, ?_, ?_, (flock_never_deadlocks _ third).2.2⟩
  · exact ⟨upgradeRequest, _, _, rfl, rfl⟩
  · exact ⟨upgradeRequest, _, _, rfl, rfl⟩
  · exact ⟨upgradeRequest, _, .wrlock, _, rfl, by decide, by decide⟩

end FsExt.Lock.Apple
