import FsExt.Lock.Plans
import FsExt.Lock.WholeFile

set_option autoImplicit false

namespace FsExt.Lock

open Sys

namespace Windows

def lockOf : Option LockType → Own
  | none => []
  | some .rdlock => [asked 0 0 false]
  | some .wrlock => [asked 0 0 true]

-- Whoever takes a lock has none, and all other calls are for a lock that is there.
def OneLock {D View : Type} (state : Service D Own Request LockFileOp LockFileAnswer Outcome View) (d : D)
    (request : Request) : Prop :=
  Apple.Whole request ∧
    match request.call with
    | .tryLock _ | .waitForLock _ => state.table d = []
    | _ => state.table d ≠ []

theorem whole_overlaps (exclusive exclusive' : Bool) : (asked 0 0 exclusive).Overlaps (asked 0 0 exclusive') := by
  have positive : 0 < sizeMax.toNat := by decide
  exact ⟨by simpa [asked, wholeLength] using positive, by simpa [asked, wholeLength] using positive⟩

end Windows

def Plan.May (own : Apple.Own) : Plan → Prop
  | .take _ => own = none
  | .lower | .raise | .release => own ≠ none

section
variable {View : Type}

-- One descriptor on both systems: idle, at the start of a call, or halfway through
-- one that on Windows lowers its lock by stacking another, or raises it by giving it
-- up first.
inductive Abreast : Windows.Own → Party Request Windows.LockFileOp Windows.LockFileAnswer Outcome View →
    Apple.Own → Party Request Apple.FlockOp Apple.FlockAnswer Outcome View → Prop where
  | idle (own : Apple.Own) (now : View) : Abreast (Windows.lockOf own) (.idle now) own (.idle now)
  | fresh (own : Apple.Own) (request : Request) (before : View) (may : request.call.plan.May own) :
      Abreast (Windows.lockOf own)
        (.busy request before (request.call.plan.windows 0 0 request.call.shown request.call.tries)) own
        (.busy request before (request.call.plan.apple request.call.shown request.call.tries))
  | lowering (own : Apple.Own) (request : Request) (before : View) (held : own ≠ none) :
      Abreast (Windows.asked 0 0 false :: Windows.lockOf own)
        (.busy request before (Plan.unlockThen 0 0 request.call.shown)) own
        (.busy request before (Plan.flockThen request.call.shown request.call.tries .rdlock))
  | raising (request : Request) (before : View) :
      Abreast [] (.busy request before (Plan.lockThen 0 0 request.call.shown request.call.tries true)) none
        (.busy request before (Plan.retakeThen request.call.shown request.call.tries .wrlock))

theorem abreast_locked (own : Windows.Own) (own' : Apple.Own)
    (left : Party Request Windows.LockFileOp Windows.LockFileAnswer Outcome View)
    (right : Party Request Apple.FlockOp Apple.FlockAnswer Outcome View) (abreast : Abreast own left own' right)
    (type : LockType) (held : own' = some type) : Windows.asked 0 0 (type = .wrlock) ∈ own := by
  have listed : Windows.asked 0 0 (type = .wrlock) ∈ Windows.lockOf (some type) := by
    cases type <;> exact .head _
  cases abreast with
  | idle => exact held ▸ listed
  | fresh => exact held ▸ listed
  | lowering => exact .tail _ (held ▸ listed)
  | raising => cases held

theorem lock_of_listed (own : Apple.Own) (lock : Windows.RangeLock) (listed : lock ∈ Windows.lockOf own) :
    ∃ type, own = some type ∧ (lock.exclusive = true → type = .wrlock) := by
  cases own with
  | none => cases listed
  | some type =>
      refine ⟨type, rfl, fun exclusive => ?_⟩
      cases type with
      | wrlock => rfl
      | rdlock =>
          obtain rfl := List.mem_singleton.mp listed
          cases exclusive

theorem abreast_listed (own : Windows.Own) (own' : Apple.Own)
    (left : Party Request Windows.LockFileOp Windows.LockFileAnswer Outcome View)
    (right : Party Request Apple.FlockOp Apple.FlockAnswer Outcome View) (abreast : Abreast own left own' right)
    (lock : Windows.RangeLock) (listed : lock ∈ own) :
    ∃ type, own' = some type ∧ (lock.exclusive = true → type = .wrlock) := by
  cases abreast with
  | idle => exact lock_of_listed own' lock listed
  | fresh => exact lock_of_listed own' lock listed
  | lowering _ _ _ held =>
      rcases List.mem_cons.mp listed with rfl | older
      · obtain ⟨type, some_⟩ := Option.ne_none_iff_exists'.mp held
        exact ⟨type, some_, fun exclusive => by cases exclusive⟩
      · exact lock_of_listed own' lock older
  | raising => cases listed

end

section
variable {D View : Type}
  (windows : Service D Windows.Own Request Windows.LockFileOp Windows.LockFileAnswer Outcome View)
  (apple : Service D Apple.Own Request Apple.FlockOp Apple.FlockAnswer Outcome View)
  (abreast : ∀ d, Abreast (windows.table d) (windows.party d) (apple.table d) (apple.party d)) (d : D) (type : LockType)

include abreast

theorem grantable_abreast (grantable : Windows.Grantable windows.table d (Windows.asked 0 0 (type = .wrlock))) :
    Apple.Grantable apple.table d type := by
  intro e different clash
  cases held : apple.table e with
  | none => exact clash.2.1 held
  | some other =>
      have locked := abreast_locked _ _ _ _ (abreast e) other held
      rw [Windows.Grantable] at grantable
      cases type with
      | wrlock => exact grantable e _ locked (Windows.whole_overlaps _ _)
      | rdlock =>
          obtain ⟨_, _, exclusive⟩ := clash
          have strong : other = .wrlock := by
            rcases exclusive with ours | theirs
            · cases ours
            · exact Option.some.inj (held.symm.trans theirs)
          subst strong
          exact grantable e different _ locked rfl (Windows.whole_overlaps _ _)

theorem refused_abreast (bare : type = .wrlock → windows.table d = [])
    (refused : ¬ Windows.Grantable windows.table d (Windows.asked 0 0 (type = .wrlock))) :
    ¬ Apple.Grantable apple.table d type := by
  intro grantable
  apply refused
  rw [Windows.Grantable]
  cases type with
  | wrlock =>
      intro e lock listed _
      have different : e ≠ d := by
        rintro rfl
        rw [bare rfl] at listed
        cases listed
      obtain ⟨other, held, _⟩ := abreast_listed _ _ _ _ (abreast e) lock listed
      refine grantable e different ⟨Option.some_ne_none _, ?_, .inl rfl⟩
      rw [held]
      exact Option.some_ne_none _
  | rdlock =>
      intro e different lock listed exclusive _
      obtain ⟨other, held, strong⟩ := abreast_listed _ _ _ _ (abreast e) lock listed
      rw [strong exclusive] at held
      exact grantable e different ⟨Option.some_ne_none _, by rw [held]; exact Option.some_ne_none _, .inr held⟩

end

theorem may_of_one_lock {D View : Type} (own : Apple.Own) (request : Request)
    (windows : Service D Windows.Own Request Windows.LockFileOp Windows.LockFileAnswer Outcome View) (d : D)
    (one : Windows.OneLock windows d request) (same : windows.table d = Windows.lockOf own) :
    request.call.plan.May own := by
  obtain ⟨_, may⟩ := one
  rw [same] at may
  obtain ⟨call, offset, length⟩ := request
  have free : Windows.lockOf own = [] ↔ own = none := by
    cases own with
    | none => exact ⟨fun _ => rfl, fun _ => rfl⟩
    | some type => cases type <;> simp [Windows.lockOf]
  cases call with
  | tryLock shared => exact free.mp may
  | waitForLock shared => exact free.mp may
  | _ => exact mt free.mpr may

namespace Windows

theorem release_whole (own : Option LockType) (held : own ≠ none) : (unlockOp 0 0).effect (lockOf own) = some [] := by
  rw [unlock_op_effect]
  cases own with
  | none => exact absurd rfl held
  | some type => cases type <;> decide

theorem release_stacked (own : Option LockType) (held : own ≠ none) :
    (unlockOp 0 0).effect (asked 0 0 false :: lockOf own) = some (lockOf (some .rdlock)) := by
  rw [unlock_op_effect]
  cases own with
  | none => exact absurd rfl held
  | some type => cases type <;> decide

end Windows

section
variable {D View : Type} (may : UvError → Prop)

structure MirrorsWindows (windows : Service D Windows.Own Request Windows.LockFileOp Windows.LockFileAnswer Outcome View)
    (apple : Service D Apple.Own Request Apple.FlockOp Apple.FlockAnswer Outcome View) : Prop where
  abreast : ∀ d, Abreast (windows.table d) (windows.party d) (apple.table d) (apple.party d)
  compatible : Compatible Apple.level apple.table

theorem refusal_shown
    (windows : Service D Windows.Own Request Windows.LockFileOp Windows.LockFileAnswer Outcome View)
    (apple : Service D Apple.Own Request Apple.FlockOp Apple.FlockAnswer Outcome View) (d : D) (request : Request)
    (mirrors : MirrorsWindows windows apple) (type : LockType) (err : UvError)
    (bare : type = .wrlock → windows.table d = [])
    (excused : may err ∨ request.call.tries = true ∧ err = .EBUSY ∧
      ¬ Windows.Grantable windows.table d (Windows.asked 0 0 (type = .wrlock))) :
    ∃ err', request.call.shown (.error err') = request.call.shown (.error err) ∧
      (may err' ∨ request.call.tries = true ∧ err' = .EAGAIN ∧ ¬ Apple.Grantable apple.table d type) := by
  rcases excused with trouble | ⟨tries, rfl, refused⟩
  · exact ⟨err, rfl, .inl trouble⟩
  · obtain ⟨busy, again⟩ := shown_refused request.call tries
    exact ⟨.EAGAIN, again.trans busy.symm,
      .inr ⟨tries, rfl, refused_abreast windows apple mirrors.abreast d type bare refused⟩⟩

variable [DecidableEq D] (opens : Request → View → View) (closes : Request → View → Outcome → View)

def Answered (windows : Service D Windows.Own Request Windows.LockFileOp Windows.LockFileAnswer Outcome View)
    (apple : Service D Apple.Own Request Apple.FlockOp Apple.FlockAnswer Outcome View) (d : D) (request : Request)
    (before : View) (rest : Program Windows.LockFileOp Windows.LockFileAnswer Outcome) (table : D → Windows.Own) :
    Prop :=
  ∃ own, table = Function.update windows.table d own ∧
    (Abreast own (Service.resume (callsOn opens closes Windows.backend) request before rest) (apple.table d)
        (apple.party d) ∨
      ∃ op next answer own', apple.party d = .busy request before (.call op next) ∧
        Apple.steady may d op apple.table answer (Function.update apple.table d own') ∧
        Abreast own (Service.resume (callsOn opens closes Windows.backend) request before rest) own'
          (Service.resume (callsOn opens closes Apple.backend) request before (next answer)))

theorem abreast_busy (own : Windows.Own) (own' : Apple.Own) (request : Request) (before : View)
    (rest : Program Windows.LockFileOp Windows.LockFileAnswer Outcome)
    (party : Party Request Apple.FlockOp Apple.FlockAnswer Outcome View)
    (abreast : Abreast own (.busy request before rest) own' party) :
    (request.call.plan.May own' ∧ own = Windows.lockOf own' ∧
        rest = request.call.plan.windows 0 0 request.call.shown request.call.tries ∧
        party = .busy request before (request.call.plan.apple request.call.shown request.call.tries)) ∨
      (own' ≠ none ∧ own = Windows.asked 0 0 false :: Windows.lockOf own' ∧
        rest = Plan.unlockThen 0 0 request.call.shown ∧
        party = .busy request before (Plan.flockThen request.call.shown request.call.tries .rdlock)) ∨
      own = [] ∧ own' = none ∧ rest = Plan.lockThen 0 0 request.call.shown request.call.tries true ∧
        party = .busy request before (Plan.retakeThen request.call.shown request.call.tries .wrlock) := by
  cases abreast with
  | fresh _ _ _ may => exact .inl ⟨may, rfl, rfl, rfl⟩
  | lowering _ _ _ held => exact .inr (.inl ⟨held, rfl, rfl, rfl⟩)
  | raising _ _ => exact .inr (.inr ⟨rfl, rfl, rfl, rfl⟩)

variable (windows : Service D Windows.Own Request Windows.LockFileOp Windows.LockFileAnswer Outcome View)
  (apple : Service D Apple.Own Request Apple.FlockOp Apple.FlockAnswer Outcome View) (d : D) (request : Request)
  (before : View) (table : D → Windows.Own)

theorem failed_answered (mirrors : MirrorsWindows windows apple)
    (same : windows.table d = Windows.lockOf (apple.table d)) (type : LockType) (err : UvError)
    (bare : type = .wrlock → windows.table d = [])
    (excused : may err ∨ request.call.tries = true ∧ err = .EBUSY ∧
      ¬ Windows.Grantable windows.table d (Windows.asked 0 0 (type = .wrlock)))
    (busy : apple.party d = .busy request before (Plan.flockThen request.call.shown request.call.tries type))
    (unchanged : table = Function.update windows.table d (windows.table d)) :
    Answered may opens closes windows apple d request before (.ret (request.call.shown (.error err))) table := by
  obtain ⟨err', shown, excused'⟩ := refusal_shown may windows apple d request mirrors type err bare excused
  refine ⟨_, unchanged, .inr ⟨.takes type request.call.tries, _, some (.error err'), apple.table d, busy,
    ⟨.inl (Function.update_eq_self d apple.table), excused'⟩, ?_⟩⟩
  rw [same, ← shown]
  exact .idle (apple.table d) _

theorem take_answered (mirrors : MirrorsWindows windows apple) (same : windows.table d = Windows.lockOf (apple.table d))
    (free : apple.table d = none) (type : LockType)
    (busy : apple.party d = .busy request before (Plan.flockThen request.call.shown request.call.tries type))
    (answer : Status)
    (step : Windows.steady may d (Windows.lockOp request.call.tries (type = .wrlock) 0 0) windows.table answer table) :
    Answered may opens closes windows apple d request before (.ret (request.call.shown answer)) table := by
  rcases Windows.lock_answered may d _ _ 0 0 _ _ answer step with
    ⟨rfl, grantable, changed⟩ | ⟨err, rfl, excused, unchanged⟩
  · have granted := grantable_abreast windows apple mirrors.abreast d type grantable
    refine ⟨_, changed, .inr ⟨.takes type request.call.tries, _, some (.ok ()), some type, busy,
      ⟨⟨granted, rfl⟩, trivial⟩, ?_⟩⟩
    rw [same, free]
    cases type
    · exact .idle (some .rdlock) _
    · exact .idle (some .wrlock) _
  · refine failed_answered may opens closes windows apple d request before table mirrors same type err (fun _ => ?_)
      excused busy unchanged
    rw [same, free]
    rfl

theorem release_answered (same : windows.table d = Windows.lockOf (apple.table d)) (held : apple.table d ≠ none)
    (busy : apple.party d = .busy request before (.call .unlocks fun status => .ret (request.call.shown status)))
    (answer : Status) (step : Windows.steady may d (Windows.unlockOp 0 0) windows.table answer table) :
    Answered may opens closes windows apple d request before (.ret (request.call.shown answer)) table := by
  have released := Windows.release_whole (apple.table d) held
  rw [← same] at released
  obtain ⟨rfl, changed⟩ := Windows.unlock_answered may d _ _ 0 0 answer [] released step
  exact ⟨_, changed, .inr ⟨.unlocks, _, .ok (), none, busy, ⟨rfl, trivial⟩, .idle none _⟩⟩

theorem lower_answered (mirrors : MirrorsWindows windows apple)
    (same : windows.table d = Windows.lockOf (apple.table d)) (held : apple.table d ≠ none)
    (busy : apple.party d = .busy request before (Plan.flockThen request.call.shown request.call.tries .rdlock))
    (answer : Status)
    (step : Windows.steady may d (Windows.lockOp request.call.tries false 0 0) windows.table answer table) :
    Answered may opens closes windows apple d request before (Plan.lowerThen 0 0 request.call.shown answer) table := by
  rcases Windows.lock_answered may d _ _ 0 0 _ _ answer step with ⟨rfl, _, changed⟩ | ⟨err, rfl, excused, unchanged⟩
  · refine ⟨_, changed, .inl ?_⟩
    rw [same, busy]
    exact .lowering (apple.table d) request before held
  · exact failed_answered may opens closes windows apple d request before table mirrors same .rdlock err
      (fun exclusive => by cases exclusive) excused busy unchanged

theorem lowering_answered (mirrors : MirrorsWindows windows apple)
    (stacked : windows.table d = Windows.asked 0 0 false :: Windows.lockOf (apple.table d))
    (held : apple.table d ≠ none)
    (busy : apple.party d = .busy request before (Plan.flockThen request.call.shown request.call.tries .rdlock))
    (answer : Status) (step : Windows.steady may d (Windows.unlockOp 0 0) windows.table answer table) :
    Answered may opens closes windows apple d request before (.ret (request.call.shown answer)) table := by
  have released := Windows.release_stacked (apple.table d) held
  rw [← stacked] at released
  obtain ⟨rfl, changed⟩ := Windows.unlock_answered may d _ _ 0 0 answer _ released step
  refine ⟨_, changed, .inr ⟨.takes .rdlock request.call.tries, _, some (.ok ()), some .rdlock, busy,
    ⟨⟨fun e different clash => ?_, rfl⟩, trivial⟩, .idle (some .rdlock) _⟩⟩
  have start : 0 < Apple.offsetEnd := by decide
  refine mirrors.compatible d e (Ne.symm different) 0 ?_
  rw [Apple.level, Apple.level, if_pos start, if_pos start]
  exact ⟨held, clash.2.1, .inr (clash.2.2.resolve_left fun weak => by cases weak)⟩

theorem raise_answered (same : windows.table d = Windows.lockOf (apple.table d)) (held : apple.table d ≠ none)
    (busy : apple.party d = .busy request before (Plan.flockThen request.call.shown request.call.tries .wrlock))
    (answer : Status) (step : Windows.steady may d (Windows.unlockOp 0 0) windows.table answer table) :
    Answered may opens closes windows apple d request before
      (Plan.raiseThen 0 0 request.call.shown request.call.tries answer) table := by
  have released := Windows.release_whole (apple.table d) held
  rw [← same] at released
  obtain ⟨rfl, changed⟩ := Windows.unlock_answered may d _ _ 0 0 answer [] released step
  exact ⟨_, changed, .inr ⟨.takes .wrlock request.call.tries, _, none, none, busy, ⟨rfl, trivial⟩,
    .raising request before⟩⟩

theorem raising_answered (mirrors : MirrorsWindows windows apple) (nothing : windows.table d = [])
    (nothing' : apple.table d = none)
    (busy : apple.party d = .busy request before (Plan.retakeThen request.call.shown request.call.tries .wrlock))
    (answer : Status)
    (step : Windows.steady may d (Windows.lockOp request.call.tries true 0 0) windows.table answer table) :
    Answered may opens closes windows apple d request before (.ret (request.call.shown answer)) table := by
  rcases Windows.lock_answered may d _ _ 0 0 _ _ answer step with
    ⟨rfl, grantable, changed⟩ | ⟨err, rfl, excused, unchanged⟩
  · have granted := grantable_abreast windows apple mirrors.abreast d .wrlock grantable
    refine ⟨_, changed, .inr ⟨.retakes .wrlock request.call.tries, _, .ok (), some .wrlock, busy,
      ⟨⟨granted, rfl⟩, trivial⟩, ?_⟩⟩
    rw [nothing]
    exact .idle (some .wrlock) _
  · obtain ⟨err', shown, excused'⟩ :=
      refusal_shown may windows apple d request mirrors .wrlock err (fun _ => nothing) excused
    refine ⟨_, unchanged, .inr ⟨.retakes .wrlock request.call.tries, _, .error err', none, busy, ⟨?_, excused'⟩, ?_⟩⟩
    · rw [← nothing']
      exact Function.update_eq_self d apple.table
    · rw [nothing, ← shown]
      exact .idle none _

theorem call_answered (mirrors : MirrorsWindows windows apple) (op : Windows.LockFileOp)
    (next : Windows.LockFileAnswer op → Program Windows.LockFileOp Windows.LockFileAnswer Outcome)
    (busy : windows.party d = .busy request before (.call op next)) (answer : Windows.LockFileAnswer op)
    (step : Windows.steady may d op windows.table answer table) :
    Answered may opens closes windows apple d request before (next answer) table := by
  have abreast := mirrors.abreast d
  rw [busy] at abreast
  rcases abreast_busy _ _ request before _ _ abreast with
    ⟨held, same, made, busy'⟩ | ⟨held, stacked, made, busy'⟩ | ⟨nothing, nothing', made, busy'⟩
  · cases plan : request.call.plan with
    | take type =>
        rw [plan] at held made busy'
        cases made
        exact take_answered may opens closes windows apple d request before table mirrors same held type busy' answer step
    | lower =>
        rw [plan] at held made busy'
        cases made
        exact lower_answered may opens closes windows apple d request before table mirrors same held busy' answer step
    | raise =>
        rw [plan] at held made busy'
        cases made
        exact raise_answered may opens closes windows apple d request before table same held busy' answer step
    | release =>
        rw [plan] at held made busy'
        cases made
        exact release_answered may opens closes windows apple d request before table same held busy' answer step
  · cases made
    exact lowering_answered may opens closes windows apple d request before table mirrors stacked held busy' answer step
  · cases made
    exact raising_answered may opens closes windows apple d request before table mirrors nothing nothing' busy' answer step

end

section
variable {D View : Type} [DecidableEq D]

theorem abreast_idle (own : Windows.Own) (own' : Apple.Own) (now : View)
    (party : Party Request Apple.FlockOp Apple.FlockAnswer Outcome View)
    (abreast : Abreast own (.idle now) own' party) : own = Windows.lockOf own' ∧ party = .idle now := by
  cases abreast
  exact ⟨rfl, rfl⟩

variable (may : UvError → Prop) (opens : Request → View → View) (closes : Request → View → Outcome → View)

theorem windows_begins (request : Request) (before : View) (whole : Apple.Whole request) :
    Service.resume (callsOn opens closes Windows.backend) request before (request.program Windows.backend) =
      .busy request before (request.call.plan.windows 0 0 request.call.shown request.call.tries) := by
  rw [windows_plan request, whole.1, whole.2]
  cases request.call.plan <;> rfl

theorem apple_begins (request : Request) (before : View) (whole : Apple.Whole request) :
    Service.resume (callsOn opens closes Apple.backend) request before (request.program Apple.backend) =
      .busy request before (request.call.plan.apple request.call.shown request.call.tries) := by
  rw [apple_plan request whole]
  cases request.call.plan <;> rfl

theorem windows_step
    (windows windows' : Service D Windows.Own Request Windows.LockFileOp Windows.LockFileAnswer Outcome View)
    (apple : Service D Apple.Own Request Apple.FlockOp Apple.FlockAnswer Outcome View)
    (mirrors : MirrorsWindows windows apple)
    (step : Service.Step (callsOn opens closes Windows.backend) Windows.OneLock (Windows.steady may) windows windows') :
    ∃ apple', Service.Reachable (callsOn opens closes Apple.backend) WholeOnly (Apple.steady may) apple apple' ∧
      MirrorsWindows windows' apple' := by
  cases step with
  | begins d request before idle one =>
      have abreast := mirrors.abreast d
      rw [idle] at abreast
      obtain ⟨same, idle'⟩ := abreast_idle _ _ before _ abreast
      have fresh := Abreast.fresh _ request before (may_of_one_lock _ request windows d one same)
      refine ⟨_, .single (.begins d request before idle' one.1), fun e => ?_, mirrors.compatible⟩
      have all := related_update Abreast _ _ _ _ mirrors.abreast d _ _ _ _ fresh e
      rw [← same, Function.update_eq_self, Function.update_eq_self] at all
      rw [← windows_begins opens closes request before one.1, ← apple_begins opens closes request before one.1] at all
      exact all
  | asks d request before op next answer table busy answered =>
      obtain ⟨own, rfl, kept | ⟨op', next', answer', own', busy', allowed, changed⟩⟩ :=
        call_answered may opens closes windows apple d request before table mirrors op next busy answer answered
      · refine ⟨apple, .refl, fun e => ?_, mirrors.compatible⟩
        have all := related_update Abreast _ _ _ _ mirrors.abreast d own _ _ _ kept e
        rw [Function.update_eq_self, Function.update_eq_self] at all
        exact all
      · refine ⟨_, .single (.asks d request before op' next' answer' _ busy' allowed), fun e => ?_, ?_⟩
        · exact related_update Abreast _ _ _ _ mirrors.abreast d own _ own' _ changed e
        · exact Apple.flocks_compatible d op' apple.table answer' _ mirrors.compatible allowed.1

theorem whole_file_windows_mirrored (first : View)
    (windows : Service D Windows.Own Request Windows.LockFileOp Windows.LockFileAnswer Outcome View)
    (reachable : Service.Reachable (callsOn opens closes Windows.backend) Windows.OneLock (Windows.steady may)
      ⟨fun _ => [], fun _ => .idle first⟩ windows) :
    ∃ apple, Service.Reachable (callsOn opens closes Apple.backend) WholeOnly (Apple.steady may)
        ⟨fun _ => none, fun _ => .idle first⟩ apple ∧ MirrorsWindows windows apple := by
  refine simulated _ _ MirrorsWindows ?_ _ _ ⟨fun d => .idle none first, ?_⟩ windows reachable
  · intro now after other mirrors step
    exact windows_step may opens closes now after other mirrors step
  · exact fun _ _ _ byte clash => (Apple.level_clash none none byte clash).1 rfl

end

theorem whole_file_windows_lock_mirrored :
    ∃ (windows : Service Bool Windows.Own Request Windows.LockFileOp Windows.LockFileAnswer Outcome (Option LockType))
      (apple : Service Bool Apple.Own Request Apple.FlockOp Apple.FlockAnswer Outcome (Option LockType)),
      windows.party = Function.update (fun _ => .idle none) false (.idle (some .wrlock)) ∧
        MirrorsWindows windows apple := by
  let nothing : Bool → Windows.Own := fun _ => []
  let taken := Function.update nothing false [Windows.asked 0 0 true]
  have free : Windows.Grantable nothing false (Windows.asked 0 0 true) := fun e lock listed _ => List.not_mem_nil listed
  have held : ¬ Windows.Grantable taken true (Windows.asked 0 0 true) := fun grantable =>
    grantable false _ (.head _) (Windows.whole_overlaps true true)
  have locked := Service.reachable_call (callsOn Apple.opens Apple.closes Windows.backend) Windows.OneLock
    (Windows.steady fun _ => False) ⟨nothing, fun _ => .idle none⟩ ⟨nothing, fun _ => .idle none⟩ .refl false wholeRequest
    none rfl ⟨⟨rfl, rfl⟩, rfl⟩ (Windows.lockOp true true 0 0) _ (windows_plan wholeRequest) (.ok ()) taken
    (Windows.lock_granted _ false nothing 0 0 true true free) _ rfl
  have refused := Service.reachable_call _ _ _ _ _ locked true wholeRequest none rfl ⟨⟨rfl, rfl⟩, rfl⟩
    (Windows.lockOp true true 0 0) _ (windows_plan wholeRequest) (.error .EBUSY) taken
    (Windows.lock_refused _ true taken 0 0 true true .EBUSY (.inr ⟨rfl, rfl, held⟩)) _ rfl
  obtain ⟨apple, _, mirrors⟩ := whole_file_windows_mirrored (fun _ => False) Apple.opens Apple.closes none _ refused
  refine ⟨_, apple, ?_, mirrors⟩
  funext d
  cases d <;> rfl

end FsExt.Lock
