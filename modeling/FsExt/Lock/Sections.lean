import FsExt.Lock.Apple
import FsExt.Lock.Linux
import FsExt.Lock.Windows
import FsExt.Sys.Sections

set_option autoImplicit false

namespace FsExt.Lock

open Sys

-- What a caller that agrees with all others on one byte of the file asks of his
-- belief before he writes under the lock, and before he reads under it.
def MayEnter (believed : Option LockType) (writes : Bool) : Prop :=
  if writes then believed = some .wrlock else believed ≠ none

theorem may_enter_clash (left right : Option LockType) (writes : Bool) (first : MayEnter left true)
    (second : MayEnter right writes) : Clash left right := by
  have exclusive : left = some .wrlock := first
  have present : right ≠ none := by
    intro nothing
    subst right
    cases writes with
    | true => exact absurd second (by simp [MayEnter])
    | false => exact second rfl
  exact ⟨by rw [exclusive]; exact Option.some_ne_none _, present, .inl exclusive⟩

section
variable {D Own Op : Type} {Answer : Op → Type} [DecidableEq D]

theorem agreeing_exclude (backend : Backend Op Answer) (sem : D → Program.Semantics Op Answer (D → Own)) (byte : Nat)
    (start : Service D Own Request Op Answer Outcome Belief)
    (agree : ∀ state, Service.Reachable (api backend) (AnyCall backend) sem start state → BeliefsAgree backend state) :
    Site.Excludes (api backend) (AnyCall backend) sem (fun belief => MayEnter (belief byte)) start := by
  intro service reachable d e different view view' writes idle idle' first second
  have apart := agree service reachable d e different byte
  rw [idle, idle'] at apart
  exact apart (may_enter_clash (view byte) (view' byte) writes first second)

end

section
variable {D : Type} [DecidableEq D]

theorem linux_excludes (byte : Nat) :
    Site.Excludes (api Linux.backend) (AnyCall Linux.backend) (Linux.ofd (D := D))
      (fun belief => MayEnter (belief byte)) (fresh fun _ => none) :=
  agreeing_exclude Linux.backend Linux.ofd byte (fresh fun _ => none) fun state reachable =>
    reachable_agree Linux.backend Linux.ofdOwn id Linux.specified Linux.ofd Linux.ofd_owned Linux.ofd_compatible
      (fun _ => none) (fun _ => rfl) state reachable

theorem windows_excludes (byte : Nat) :
    Site.Excludes (api Windows.backend) (AnyCall Windows.backend) (Windows.files (D := D))
      (fun belief => MayEnter (belief byte)) (fresh []) :=
  agreeing_exclude Windows.backend Windows.files byte (fresh []) fun state reachable =>
    reachable_agree Windows.backend Windows.filesOwn Windows.level Windows.specified Windows.files Windows.files_owned
      Windows.files_compatible [] (fun _ => rfl) state reachable

theorem apple_excludes :
    Site.Excludes Apple.api (fun _ _ _ => True) (Apple.flocks (D := D)) MayEnter Apple.unlocked := by
  intro service reachable d e different view view' writes idle idle' first second
  have apart := Apple.reaches_agree service reachable d e different
  rw [idle, idle'] at apart
  exact apart (may_enter_clash view view' writes first second)

variable {WorkOp : Type} {WorkAnswer : WorkOp → Type} {α σ : Type}

theorem locked_sections_serial (work : Program.Semantics WorkOp WorkAnswer σ) (store : σ) (byte : Nat)
    (linux : Site D Linux.Own Request Linux.FcntlOp Linux.FcntlAnswer Outcome Belief WorkOp WorkAnswer α σ)
    (windows : Site D Windows.Own Request Windows.LockFileOp Windows.LockFileAnswer Outcome Belief WorkOp WorkAnswer α σ)
    (apple : Site D Apple.Own Request Apple.FlockOp Apple.FlockAnswer Outcome (Option LockType) WorkOp WorkAnswer α σ)
    (onLinux : Site.Reachable (api Linux.backend) (AnyCall Linux.backend) Linux.ofd work
      (fun belief => MayEnter (belief byte)) (Site.opened (fresh fun _ => none) store) linux)
    (onWindows : Site.Reachable (api Windows.backend) (AnyCall Windows.backend) Windows.files work
      (fun belief => MayEnter (belief byte)) (Site.opened (fresh []) store) windows)
    (onApple : Site.Reachable Apple.api (fun _ _ _ => True) Apple.flocks work MayEnter
      (Site.opened Apple.unlocked store) apple) :
    Site.Serialised work store linux ∧ Site.Serialised work store windows ∧ Site.Serialised work store apple :=
  ⟨Site.opened_serialised _ _ _ work _ _ store (linux_excludes byte) linux onLinux,
    Site.opened_serialised _ _ _ work _ _ store (windows_excludes byte) windows onWindows,
    Site.opened_serialised _ _ _ work _ _ store apple_excludes apple onApple⟩

end

def bump : Program Unit (fun _ => Unit) Unit := .call () .ret

def counts : Program.Semantics Unit (fun _ => Unit) Nat := fun _ now _ later => later = now + 1

section
variable {D Own Call Op Result View : Type} {Answer : Op → Type} [DecidableEq D]
  (api : Interface Call Op Answer Result View) (allowed : Service D Own Call Op Answer Result View → D → Call → Prop)
  (sem : D → Program.Semantics Op Answer (D → Own)) (may : View → Bool → Prop)

theorem bump_once (start site : Site D Own Call Op Answer Result View Unit (fun _ => Unit) Unit Nat)
    (reachable : Site.Reachable api allowed sem counts may start site) (outside : ∀ d, site.inside d = none) (d : D)
    (view : View) (idle : site.service.party d = .idle view) (entitled : may view true) :
    Site.Reachable api allowed sem counts may start
      { site with store := site.store + 1, finished := site.finished ++ [(bump, ())] } := by
  have entered := reachable.tail (.enters d view true bump idle (outside d) entitled (fun reads => by cases reads))
  have worked := entered.tail (.works d true bump site.store () .ret () _ (Function.update_self _ _ _) rfl)
  have left := worked.tail (.leaves d true bump site.store () (Function.update_self _ _ _))
  have nobody : Function.update site.inside d none = site.inside := by
    rw [← outside d, Function.update_eq_self]
  simp only [Function.update_idem, nobody] at left
  exact left

def Passes (start : Service D Own Call Op Answer Result View) (d e : D) : Prop :=
  ∃ first second view view', Service.Reachable api allowed sem start first ∧
    Service.Reachable api allowed sem first second ∧ (first.party d = .idle view ∧ may view true) ∧
    second.party e = .idle view' ∧ may view' true

theorem bump_twice (start : Service D Own Call Op Answer Result View) (d e : D)
    (passes : Passes api allowed sem may start d e) :
    ∃ site : Site D Own Call Op Answer Result View Unit (fun _ => Unit) Unit Nat,
      Site.Reachable api allowed sem counts may (Site.opened start 0) site ∧
        site.finished = [(bump, ()), (bump, ())] ∧ site.store = 2 := by
  obtain ⟨first, second, view, view', reachable, onward, ⟨idle, entitled⟩, idle', entitled'⟩ := passes
  have locked := Site.reachable_serves (α := Unit) api allowed sem counts may (Site.opened start 0) _ .refl
    (fun _ => rfl) first reachable
  have bumped := bump_once api allowed sem may _ _ locked (fun _ => rfl) d view idle entitled
  have passed := Site.reachable_serves api allowed sem counts may _ _ bumped (fun _ => rfl) second onward
  exact ⟨_, bump_once api allowed sem may _ _ passed (fun _ => rfl) e view' idle' entitled', rfl, rfl⟩

theorem passes_calls (start : Service D Own Call Op Answer Result View) (d e : D) (different : d ≠ e) (view : View)
    (idle : ∀ d, start.party d = .idle view) (lock unlock : Call) (any : ∀ service d, allowed service d lock)
    (any' : ∀ service d, allowed service d unlock) (op op' : Op) (next : Answer op → Program Op Answer Result) (next' : Answer op' → Program Op Answer Result)
    (locks : api.program lock = .call op next) (unlocks : api.program unlock = .call op' next') (answer : Answer op)
    (answer' : Answer op') (result result' : Result) (ends : next answer = .ret result)
    (ends' : next' answer' = .ret result') (first second third : D → Own) (taken : sem d op start.table answer first)
    (given : sem d op' first answer' second) (taken' : sem e op second answer third)
    (entitled : may (api.closes lock view result) true) : Passes api allowed sem may start d e := by
  have locked := Service.reachable_call api allowed sem start start .refl d lock view (idle d) (any _ _) op next locks
    answer first taken result ends
  have unlocked := Service.reachable_call api allowed sem _
    ⟨first, Function.update start.party d (.idle (api.closes lock view result))⟩ .refl d unlock
    (api.closes lock view result) (Function.update_self _ _ _) (any' _ _) op' next' unlocks answer' second given result'
    ends'
  have waiting : (Function.update (Function.update start.party d (.idle (api.closes lock view result))) d
      (.idle (api.closes unlock (api.closes lock view result) result'))) e = .idle view := by
    rw [Function.update_of_ne different.symm, Function.update_of_ne different.symm, idle]
  have passed := Service.reachable_call api allowed sem _ _ unlocked e lock view waiting (any _ _) op next locks answer
    third taken' result ends
  exact ⟨_, _, _, _, locked, passed, ⟨Function.update_self _ _ _, entitled⟩, Function.update_self _ _ _, entitled⟩

end

theorem linux_passes :
    Passes (api Linux.backend) (AnyCall Linux.backend) (Linux.ofd (D := Bool)) (fun belief => MayEnter (belief 7))
      (fresh fun _ => none) false true := by
  have fits : Linux.backend.Fits 0 10 := ⟨by decide, by decide, by decide⟩
  have within : Within Linux.backend.top 0 10 7 := by
    rw [Linux.backend]
    decide
  refine passes_calls (api Linux.backend) (AnyCall Linux.backend) Linux.ofd (fun belief => MayEnter (belief 7))
    (fresh fun _ => none) false true Bool.false_ne_true (fun _ => none) (fun _ => rfl) ⟨.tryLock false, 0, 10⟩
    ⟨.unlock, 0, 10⟩ (fun _ _ => fits) (fun _ _ => fits) _ _ _ _ rfl rfl (.ok ()) (.ok ()) _ _ rfl rfl _ _ _
    ⟨fun e _ byte _ clash => clash.2.1 rfl, rfl⟩ ⟨fun e _ byte _ clash => clash.1 rfl, rfl⟩
    ⟨fun e other byte covers clash => ?_, rfl⟩
    (mark_within _ ⟨.tryLock false, 0, 10⟩ (some .wrlock) (fun _ => none) 7 within)
  obtain rfl : e = false := Bool.eq_false_iff.mpr other
  exact clash.2.1 (if_pos covers)

theorem windows_passes :
    Passes (api Windows.backend) (AnyCall Windows.backend) (Windows.files (D := Bool)) (fun belief => MayEnter (belief 7))
      (fresh []) false true := by
  have fits : Windows.backend.Fits 0 10 := by
    rw [Windows.backend]
    decide
  have within : Within Windows.backend.top 0 10 7 := by
    rw [Windows.backend]
    decide
  refine passes_calls (api Windows.backend) (AnyCall Windows.backend) Windows.files (fun belief => MayEnter (belief 7))
    (fresh []) false true Bool.false_ne_true (fun _ => none) (fun _ => rfl) ⟨.tryLock false, 0, 10⟩ ⟨.unlock, 0, 10⟩
    (fun _ _ => fits) (fun _ _ => fits) _ _ _ _ rfl rfl (.ok ()) (.ok ()) _ _ rfl rfl _ _ _
    ⟨fun e other member => absurd member List.not_mem_nil, _, rfl, rfl⟩ ⟨trivial, [], by decide, rfl⟩
    ⟨fun e other member => ?_, _, rfl, rfl⟩
    (mark_within _ ⟨.tryLock false, 0, 10⟩ (some .wrlock) (fun _ => none) 7 within)
  cases e with
  | false => exact absurd member List.not_mem_nil
  | true => exact absurd member List.not_mem_nil

theorem apple_passes :
    Passes Apple.api (fun _ _ _ => True) (Apple.flocks (D := Bool)) MayEnter Apple.unlocked false true := by
  refine passes_calls Apple.api (fun _ _ _ => True) Apple.flocks MayEnter Apple.unlocked false true Bool.false_ne_true none
    (fun _ => rfl) ⟨.tryLock false, 0, 0⟩ ⟨.unlock, 0, 0⟩ (fun _ _ => trivial) (fun _ _ => trivial) _ _ _ _ rfl rfl
    (some (.ok ())) (.ok ()) _ _ rfl rfl _ _ _ ⟨fun e _ clash => clash.2.1 rfl, rfl⟩ rfl
    ⟨fun e other clash => ?_, rfl⟩ rfl
  obtain rfl : e = false := Bool.eq_false_iff.mpr other
  exact clash.2.1 rfl

theorem bumped_serial :
    ∃ (linux : Site Bool Linux.Own Request Linux.FcntlOp Linux.FcntlAnswer Outcome Belief Unit (fun _ => Unit) Unit Nat)
      (windows : Site Bool Windows.Own Request Windows.LockFileOp Windows.LockFileAnswer Outcome Belief Unit
        (fun _ => Unit) Unit Nat)
      (apple : Site Bool Apple.Own Request Apple.FlockOp Apple.FlockAnswer Outcome (Option LockType) Unit
        (fun _ => Unit) Unit Nat),
      linux.finished.length = 2 ∧ windows.finished.length = 2 ∧ apple.finished.length = 2 ∧
        Site.Serialised counts 0 linux ∧ Site.Serialised counts 0 windows ∧ Site.Serialised counts 0 apple := by
  obtain ⟨linux, reachedLinux, ranLinux, _⟩ := bump_twice _ _ _ _ _ false true linux_passes
  obtain ⟨windows, reachedWindows, ranWindows, _⟩ := bump_twice _ _ _ _ _ false true windows_passes
  obtain ⟨apple, reachedApple, ranApple, _⟩ := bump_twice _ _ _ _ _ false true apple_passes
  exact ⟨linux, windows, apple, congrArg List.length ranLinux, congrArg List.length ranWindows,
    congrArg List.length ranApple,
    locked_sections_serial counts 0 7 linux windows apple reachedLinux reachedWindows reachedApple⟩

end FsExt.Lock
