import FsExt.Lock.Linux
import FsExt.Lock.Windows

set_option autoImplicit false

namespace FsExt.Lock

open Sys

section
variable {D : Type} [DecidableEq D]

def Linux.Reaches (state : Service D Linux.Own Request Linux.FcntlOp Linux.FcntlAnswer Outcome Belief) : Prop :=
  Service.Reachable (api Linux.backend) (AnyCall Linux.backend) Linux.ofd (fresh fun _ => none) state

def Windows.Reaches (state : Service D Windows.Own Request Windows.LockFileOp Windows.LockFileAnswer Outcome Belief) :
    Prop :=
  Service.Reachable (api Windows.backend) (AnyCall Windows.backend) Windows.files (fresh []) state

end

theorem lock_beliefs_agree {D : Type} [DecidableEq D]
    (linux : Service D Linux.Own Request Linux.FcntlOp Linux.FcntlAnswer Outcome Belief)
    (windows : Service D Windows.Own Request Windows.LockFileOp Windows.LockFileAnswer Outcome Belief)
    (onLinux : Linux.Reaches linux) (onWindows : Windows.Reaches windows) :
    BeliefsAgree Linux.backend linux ∧ BeliefsAgree Windows.backend windows := by
  constructor
  · exact reachable_agree Linux.backend Linux.ofdOwn id Linux.specified Linux.ofd Linux.ofd_owned Linux.ofd_compatible
      (fun _ => none) (fun _ => rfl) linux onLinux
  · exact reachable_agree Windows.backend Windows.filesOwn Windows.level Windows.specified Windows.files
      Windows.files_owned Windows.files_compatible [] (fun _ => rfl) windows onWindows

def sampleRequest : Request := ⟨.tryLock false, 0, 10⟩

def besideRequest : Request := ⟨.waitForLock true, 20, 10⟩

theorem linux_locks_twice :
    ∃ state : Service Bool Linux.Own Request Linux.FcntlOp Linux.FcntlAnswer Outcome Belief,
      Linux.Reaches state ∧ Service.view (api Linux.backend) (state.party false) 7 = some .wrlock ∧
        Service.view (api Linux.backend) (state.party true) 27 = some .rdlock := by
  have fits : Linux.backend.Fits 0 10 := ⟨by decide, by decide, by decide⟩
  have fits' : Linux.backend.Fits 20 10 := ⟨by decide, by decide, by decide⟩
  have free : Linux.Grantable (fun _ : Bool => (fun _ => none : Linux.Own)) false (Linux.flock 0 10 (some .wrlock)) :=
    fun e _ byte _ clash => clash.2.1 rfl
  have first := Service.reachable_call (api Linux.backend) (AnyCall Linux.backend) Linux.ofd (fresh fun _ => none)
    (fresh fun _ => none) .refl false sampleRequest (fun _ => none) rfl fits _ _ rfl (.ok ()) _ ⟨free, rfl⟩ _ rfl
  have beside : Linux.Grantable (Function.update (fun _ : Bool => (fun _ => none : Linux.Own)) false
      ((Linux.flock 0 10 (some .wrlock)).apply fun _ => none)) true (Linux.flock 20 10 (some .rdlock)) := by
    intro e different byte covers clash
    obtain rfl : e = false := by simpa using different
    have within := (Linux.flock_covers 20 10 (some .rdlock) byte fits').mp covers
    refine clash.2.1 ?_
    rw [Function.update_self, Linux.Flock.apply, if_neg]
    intro covers'
    have within' := (Linux.flock_covers 0 10 (some .wrlock) byte fits).mp covers'
    simp [Within] at within within'
    omega
  have second := Service.reachable_call _ _ _ _ _ first true besideRequest (fun _ => none) rfl fits' _ _ rfl (.ok ()) _
    ⟨beside, rfl⟩ _ rfl
  have within : Within Linux.backend.top 0 10 7 ∧ Within Linux.backend.top 20 10 27 := by
    rw [Linux.backend]
    decide
  exact ⟨_, second, mark_within _ sampleRequest (some .wrlock) (fun _ => none) 7 within.1,
    mark_within _ besideRequest (some .rdlock) (fun _ => none) 27 within.2⟩

theorem windows_locks_twice :
    ∃ state : Service Bool Windows.Own Request Windows.LockFileOp Windows.LockFileAnswer Outcome Belief,
      Windows.Reaches state ∧ Service.view (api Windows.backend) (state.party false) 7 = some .wrlock ∧
        Service.view (api Windows.backend) (state.party true) 27 = some .rdlock := by
  have fits : Windows.backend.Fits 0 10 ∧ Windows.backend.Fits 20 10 := by
    rw [Windows.backend]
    decide
  have free : Windows.Grantable (fun _ : Bool => ([] : Windows.Own)) false
      (Windows.rangeLock 10 0 (Windows.overlapped 0) true) := fun e other member => absurd member List.not_mem_nil
  have first := Service.reachable_call (api Windows.backend) (AnyCall Windows.backend) Windows.files (fresh [])
    (fresh []) .refl false sampleRequest (fun _ => none) rfl fits.1 _ _ rfl (.ok ()) _ ⟨free, _, rfl, rfl⟩ _ rfl
  have beside : Windows.Grantable (Function.update (fun _ : Bool => ([] : Windows.Own)) false
      [Windows.rangeLock 10 0 (Windows.overlapped 0) true]) true
        (Windows.rangeLock 10 0 (Windows.overlapped 20) false) := by
    intro e different other member _
    obtain rfl : e = false := by simpa using different
    rw [Function.update_self] at member
    obtain rfl := List.mem_singleton.mp member
    exact fun overlaps => absurd overlaps.1 (by decide)
  have second := Service.reachable_call _ _ _ _ _ first true besideRequest (fun _ => none) rfl fits.2 _ _ rfl (.ok ()) _
    ⟨beside, _, rfl, rfl⟩ _ rfl
  have within : Within Windows.backend.top 0 10 7 ∧ Within Windows.backend.top 20 10 27 := by
    rw [Windows.backend]
    decide
  exact ⟨_, second, mark_within _ sampleRequest (some .wrlock) (fun _ => none) 7 within.1,
    mark_within _ besideRequest (some .rdlock) (fun _ => none) 27 within.2⟩

theorem locked_beliefs_agree :
    ∃ (linux : Service Bool Linux.Own Request Linux.FcntlOp Linux.FcntlAnswer Outcome Belief)
      (windows : Service Bool Windows.Own Request Windows.LockFileOp Windows.LockFileAnswer Outcome Belief),
      (Service.view (api Linux.backend) (linux.party false) 7 = some .wrlock ∧
        Service.view (api Linux.backend) (linux.party true) 27 = some .rdlock) ∧
      (Service.view (api Windows.backend) (windows.party false) 7 = some .wrlock ∧
        Service.view (api Windows.backend) (windows.party true) 27 = some .rdlock) ∧
      BeliefsAgree Linux.backend linux ∧ BeliefsAgree Windows.backend windows := by
  obtain ⟨linux, onLinux, believesLinux⟩ := linux_locks_twice
  obtain ⟨windows, onWindows, believesWindows⟩ := windows_locks_twice
  exact ⟨linux, windows, believesLinux, believesWindows, lock_beliefs_agree linux windows onLinux onWindows⟩

end FsExt.Lock
