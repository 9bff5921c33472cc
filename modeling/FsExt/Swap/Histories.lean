import FsExt.Swap.AllOrNothing
import FsExt.Swap.Lookups
import FsExt.Sys.Linear

set_option autoImplicit false

namespace FsExt.Swap

open Sys

-- A swap exchanges two entries, or it fails and leaves everything as it was. Two
-- names for one entry are nothing to exchange.
inductive Swaps (place : CString → List CString) : Spec SwapCall Status Fs where
  | exchanged (call : SwapCall) (fs final : Fs)
      (existing : fs (place call.fromPath) ≠ none ∧ fs (place call.toPath) ≠ none)
      (apart : Apart (place call.fromPath) (place call.toPath))
      (exchanged : Exchanged (pairOf (place call.fromPath) (place call.toPath)) fs final) :
      Swaps place call fs (.ok ()) final
  | same (call : SwapCall) (fs : Fs) (existing : fs (place call.fromPath) ≠ none)
      (same : place call.fromPath = place call.toPath) : Swaps place call fs (.ok ()) fs
  | failed (call : SwapCall) (fs : Fs) (err : UvError) : Swaps place call fs (.error err) fs

section
variable (place : CString → List CString)

theorem apart_different (a : List CString) (apart : Apart a a) : False := apart.1 (List.prefix_refl a)

theorem swaps_closed (call : SwapCall) (fs final : Fs) (status : Status) (closed : Closed Object.directory fs)
    (swaps : Swaps place call fs status final) : Closed Object.directory final := by
  cases swaps with
  | exchanged call fs final existing apart exchanged =>
      exact exchanged_closed _ _ Object.directory fs final apart closed existing exchanged
  | same call fs existing same => exact closed
  | failed call fs err => exact closed

theorem swaps_permute (call : SwapCall) (fs final : Fs) (status : Status) (swaps : Swaps place call fs status final) :
    ∃ journey : Equiv.Perm (List CString), final = fun at_ => fs (journey at_) := by
  cases swaps with
  | exchanged call fs final existing apart exchanged =>
      exact ⟨traded _ _ apart, exchanged_trade _ _ fs final apart exchanged⟩
  | same call fs existing same => exact ⟨Equiv.refl _, rfl⟩
  | failed call fs err => exact ⟨Equiv.refl _, rfl⟩

theorem swaps_undo (call : SwapCall) (fs mid final : Fs) (there : Swaps place call fs (.ok ()) mid)
    (back : Swaps place call mid (.ok ()) final) : final = fs := by
  cases there with
  | exchanged _ _ _ existing apart exchanged =>
      cases back with
      | exchanged _ _ _ _ _ exchanged' => exact exchanged_twice _ _ fs mid final apart exchanged exchanged'
      | same _ _ _ same => exact (apart_different _ (same ▸ apart)).elim
  | same _ _ existing same =>
      cases back with
      | exchanged _ _ _ _ apart _ => exact (apart_different _ (same ▸ apart)).elim
      | same _ _ _ _ => rfl

theorem sequential_swaps_permute (start final : Fs) (calls : List (SwapCall × Status))
    (sequential : Sequential (Swaps place) start calls final) :
    ∃ journey : Equiv.Perm (List CString), final = fun at_ => start (journey at_) := by
  induction sequential with
  | none => exact ⟨Equiv.refl _, rfl⟩
  | snoc now last calls call status _ serves ih =>
      obtain ⟨before, rfl⟩ := ih
      obtain ⟨step, rfl⟩ := swaps_permute place call _ last status serves
      exact ⟨step.trans before, rfl⟩

theorem sequential_swaps_closed (start final : Fs) (calls : List (SwapCall × Status))
    (closed : Closed Object.directory start) (sequential : Sequential (Swaps place) start calls final) :
    Closed Object.directory final := by
  induction sequential with
  | none => exact closed
  | snoc now last calls call status _ serves ih => exact swaps_closed place call now last status ih serves

theorem sequential_swaps_undone (start mid final : Fs) (there back : List (SwapCall × Status))
    (reversed : back.map Prod.fst = (there.map Prod.fst).reverse) (went : ∀ call ∈ there, call.2 = .ok ())
    (came : ∀ call ∈ back, call.2 = .ok ()) (sequential : Sequential (Swaps place) start there mid)
    (sequential' : Sequential (Swaps place) mid back final) : final = start :=
  sequential_undone (Swaps place) (· = .ok ())
    (fun call now result mid result' last good good' there back => by
      subst good good'
      exact swaps_undo place call now mid last there back)
    start mid final there back reversed went came sequential sequential'

end

namespace Process

section
variable (process : Process) (may : SwapCall → Prop) (start fs fs' : Fs)

theorem walks_call (path : CString) (next : Except UvError Nat → Posix.KernelProgram Status)
    (rest : Posix.KernelProgram Status) (walks : process.Walks start path next rest) :
    ∃ op later, rest = .call op later := by
  cases walks with
  | starts => exact ⟨_, _, rfl⟩
  | enters walked left name folder split here => exact ⟨_, _, rfl⟩

theorem pending_call (call : SwapCall) (rest : Posix.KernelProgram Status) (pending : process.Pending start call rest) :
    ∃ op later, rest = .call op later := by
  cases pending with
  | walks _ walks => exact process.walks_call start _ _ rest walks
  | walksOn _ _ _ walks => exact process.walks_call start _ _ rest walks
  | exchanges fromFolder toFolder origin target => exact ⟨_, _, rfl⟩

theorem exchange_served (steady : process.Steady may) (call : SwapCall) (permitted : may call) (fromFolder toFolder : Nat)
    (answer : Status) (origin : process.At start call.fromPath fromFolder) (target : process.At start call.toPath toFolder)
    (unmoved : process.Unmoved may start fs)
    (asked : Posix.kernel process.cwd
      (.exchange fromFolder (Posix.lastName call.fromPath) toFolder (Posix.lastName call.toPath)) fs answer fs') :
    process.Unmoved may start fs' ∧ Swaps process.place call fs answer fs' := by
  cases answer with
  | error err =>
      obtain rfl : fs' = fs := asked
      exact ⟨unmoved, .failed call fs' err⟩
  | ok done =>
      obtain ⟨left, right, leftHere, rightHere, _, _, leftThere, rightThere, how⟩ := asked
      have known : ∀ path folder place, (path = call.fromPath ∨ path = call.toPath) → process.At start path folder →
          fs place = some ⟨folder, true⟩ → place = process.folderPlace path := by
        intro path folder place mine at_ found
        have there : fs (process.folderPlace path) = start (process.folderPlace path) :=
          unmoved.ways call permitted path mine _ ⟨Posix.above path, List.prefix_refl _, rfl⟩
        exact unmoved.unique _ _ folder found (there.trans at_)
      obtain rfl := known _ _ left (.inl rfl) origin leftHere
      obtain rfl := known _ _ right (.inr rfl) target rightHere
      obtain ⟨same, rfl⟩ | ⟨apart, exchanged⟩ := how
      · exact ⟨unmoved, .same call fs' leftThere same⟩
      · exact ⟨process.unmoved_exchanged may start fs fs' steady call permitted apart exchanged unmoved,
          .exchanged call fs fs' ⟨leftThere, rightThere⟩ apart exchanged⟩

theorem pending_step (steady : process.Steady may) (call : SwapCall) (permitted : may call) (op : Posix.KernelOp)
    (next : Posix.KernelAnswer op → Posix.KernelProgram Status) (answer : Posix.KernelAnswer op)
    (unmoved : process.Unmoved may start fs) (pending : process.Pending start call (.call op next))
    (asked : Posix.kernel process.cwd op fs answer fs') :
    process.Unmoved may start fs' ∧ ((fs' = fs ∧ process.Pending start call (next answer)) ∨
      ∃ status, Swaps process.place call fs status fs' ∧ next answer = .ret status) := by
  generalize whole : Program.call op next = rest at pending
  cases pending with
  | walks _ walks =>
      subst whole
      obtain ⟨rfl, ⟨err, failed⟩ | walks | ⟨folder, origin, there⟩⟩ :=
        process.walk_step may start fs fs' call call.fromPath _ op next answer permitted (.inl rfl) unmoved walks asked
      · exact ⟨unmoved, .inr ⟨.error err, .failed call fs' err, failed⟩⟩
      · exact ⟨unmoved, .inl ⟨rfl, .walks _ walks⟩⟩
      · exact ⟨unmoved, .inl ⟨rfl, there ▸ .walksOn folder _ origin .starts⟩⟩
  | walksOn fromFolder _ origin walks =>
      subst whole
      obtain ⟨rfl, ⟨err, failed⟩ | walks | ⟨folder, target, there⟩⟩ :=
        process.walk_step may start fs fs' call call.toPath _ op next answer permitted (.inr rfl) unmoved walks asked
      · exact ⟨unmoved, .inr ⟨.error err, .failed call fs' err, failed⟩⟩
      · exact ⟨unmoved, .inl ⟨rfl, .walksOn fromFolder _ origin walks⟩⟩
      · exact ⟨unmoved, .inl ⟨rfl, there ▸ .exchanges fromFolder folder origin target⟩⟩
  | exchanges fromFolder toFolder origin target =>
      cases whole
      obtain ⟨kept, swaps⟩ := process.exchange_served may start fs fs' steady call permitted fromFolder toFolder answer
        origin target unmoved asked
      exact ⟨kept, .inr ⟨answer, swaps, rfl⟩⟩

theorem posix_commits (steady : process.Steady may) :
    Clients.Commits Posix.call may (Posix.kernel process.cwd) (fun _ _ => False) (fun _ _ _ => False)
      (Swaps process.place) id (process.Unmoved may start) (process.Stage may start) where
  fresh call fs permitted := ⟨permitted, .walks _ (Posix.call_walks call ▸ .starts)⟩
  silent call status op next fs answer fs' _ stage _ := by cases stage
  pending call op next fs answer fs' unmoved stage asked := by
    obtain ⟨permitted, pending⟩ := stage
    obtain ⟨kept, ⟨same, left⟩ | ⟨status, swaps, done⟩⟩ :=
      process.pending_step may start fs fs' steady call permitted op next answer unmoved pending asked
    · exact ⟨kept, .inl ⟨same, permitted, left⟩⟩
    · exact ⟨kept, .inr ⟨status, swaps, done⟩⟩
  effect call status fs stage := by
    obtain ⟨op, later, whole⟩ := process.pending_call start call _ stage.2
    cases whole
  done call status status' fs stage := by
    cases stage
    rfl
  stable call done rest op fs answer fs' stage _ _ := stage
  drifts fs fs' _ drift := drift.elim

end

end Process

section
variable (os : Windows) (fs : Fs) (fromPath toPath : CString)

def Disjoint (result : Status) (_ : Fs × List Moved) : Prop :=
  result = .ok () → Apart (os.place fromPath) (os.place toPath)

theorem move_disjoint (existing new : CString) (next : Status → SwapProgram Status) (world : Fs × List Moved)
    (rest : ∀ answer world', Program.Ensures os.moving (fun _ _ => True) (next answer) world'
      (Disjoint os fromPath toPath)) :
    Program.Ensures os.moving (fun _ _ => True) (.call (.moveFileEx existing new) next) world
      (Disjoint os fromPath toPath) := ⟨trivial, fun answer world' _ => rest answer world'⟩

theorem failed_disjoint (err : UvError) (world : Fs × List Moved) : Disjoint os fromPath toPath (.error err) world :=
  fun succeeded => by cases succeeded

theorem swap_cross_disjoint (temporary : CString) (moves : List Moved) (parked : Parked os fs fromPath temporary) :
    Program.Ensures os.moving (fun _ _ => True) (swapCross fromPath toPath temporary)
      (parkedAt os fs fromPath temporary, moves) (Disjoint os fromPath toPath) := by
  refine move_ensures os toPath fromPath _ _ _ _ (fun fs' moved => ?_) fun err => ?_
  · obtain ⟨crossed, _⟩ := crossed_of_move os fs fromPath toPath temporary parked fs' moved
    have apart : ∀ status world, Disjoint os fromPath toPath status world := fun _ _ _ => crossed.disjoint
    refine move_disjoint os fromPath toPath temporary toPath _ _ fun landed world => ?_
    cases landed with
    | ok done => exact apart _ _
    | error err =>
        refine move_disjoint os fromPath toPath fromPath toPath _ _ fun _ world => ?_
        exact move_disjoint os fromPath toPath temporary fromPath _ _ fun _ world => apart _ _
  · exact move_disjoint os fromPath toPath temporary fromPath _ _ fun _ world =>
      failed_disjoint os fromPath toPath err world

theorem swap_via_disjoint (temporary : CString) (moves : List Moved) (closed : Closed Object.directory fs)
    (absent : fs (os.place temporary) = none) :
    Program.Ensures os.moving (fun _ _ => True) (swapVia fromPath toPath temporary) (fs, moves)
      (Disjoint os fromPath toPath) := by
  refine move_ensures os fromPath temporary _ _ _ _ (fun fs' moved => ?_) fun err =>
    failed_disjoint os fromPath toPath err _
  obtain ⟨parked, rfl⟩ := parked_of_move os fs fromPath temporary closed absent fs' moved
  exact swap_cross_disjoint os fs fromPath toPath temporary _ parked

theorem swap_by_via (processId : UInt32) (post : Status → Fs × List Moved → Prop)
    (unnamed : ∀ err, post (.error err) (fs, []))
    (via : ∀ temporary, fs (os.place temporary) = none →
      Program.Ensures os.moving (fun _ _ => True) (swapVia fromPath toPath temporary) (fs, []) post) :
    Program.Ensures os.moving (fun _ _ => True) (swap processId fromPath toPath) (fs, []) post := by
  rw [swap, Program.ensures_bind]
  refine Program.ensures_mono os.moving _ _ _ _ _ _ (fun _ _ held => held) ?_
    (temp_path_ensures os processId fromPath (fs, []))
  intro result world settled
  obtain ⟨rfl, free⟩ := settled
  cases result with
  | error err => exact unnamed err
  | ok temporary => exact via temporary (free temporary rfl)

end

inductive SwapHistory (os : Windows) (start : Fs) : List (SwapCall × Status) → Fs → Prop where
  | none : SwapHistory os start [] start
  | snoc (calls : List (SwapCall × Status)) (now final : Fs) (call : SwapCall) (status : Status)
      (asked seen : List (Fs × List Moved)) (moves : List Moved) (before : SwapHistory os start calls now)
      (runs : Program.Runs os.moving (fun _ _ => False) (now, [])
        (swap os.processId call.fromPath call.toPath) asked seen status (final, moves))
      (undone : ∀ moved ∈ rollback moves, moved.status = .ok ()) :
      SwapHistory os start (calls ++ [(call, status)]) final

theorem swap_served (os : Windows) (call : SwapCall) (fs final : Fs) (status : Status)
    (asked seen : List (Fs × List Moved)) (moves : List Moved) (closed : Closed Object.directory fs)
    (runs : Program.Runs os.moving (fun _ _ => False) (fs, [])
      (swap os.processId call.fromPath call.toPath) asked seen status (final, moves))
    (undone : ∀ moved ∈ rollback moves, moved.status = .ok ()) : Swaps os.place call fs status final := by
  have whole := runs_ensured _ _ _ asked seen status (fun _ _ => True) _
    (swap_by_via os fs call.fromPath call.toPath os.processId (AllOrNothing os fs call.fromPath call.toPath)
      (fun _ _ => rfl) fun temporary => swap_via_ensures os fs call.fromPath call.toPath temporary closed) runs
  have apart := runs_ensured _ _ _ asked seen status (fun _ _ => True) _
    (swap_by_via os fs call.fromPath call.toPath os.processId (Disjoint os call.fromPath call.toPath)
      (fun err => failed_disjoint os call.fromPath call.toPath err _) fun temporary =>
        swap_via_disjoint os fs call.fromPath call.toPath temporary [] closed) runs
  cases status with
  | ok done => exact .exchanged call fs final whole.existing (apart rfl) whole.exchanged
  | error err =>
      obtain rfl : final = fs := whole undone
      exact .failed call final err

theorem swap_history_sequential (os : Windows) (start final : Fs) (calls : List (SwapCall × Status))
    (closed : Closed Object.directory start) (history : SwapHistory os start calls final) :
    Sequential (Swaps os.place) start calls final := by
  induction history with
  | none => exact .none start
  | snoc calls now final call status asked seen moves _ runs undone ih =>
      have kept := sequential_swaps_closed os.place start now calls closed ih
      exact .snoc start now final calls call status ih (swap_served os call now final status asked seen moves kept runs undone)

abbrev PosixRun (D : Type) [DecidableEq D] (process : Process) (may : SwapCall → Prop) (start : Fs) :
    List (Mark D SwapCall Status) → Clients D SwapCall Posix.KernelOp Posix.KernelAnswer Status Fs → Prop :=
  Clients.Run Posix.call may (Posix.kernel process.cwd) (fun _ _ => False) (fun _ _ _ => False) start

abbrev PosixHistory (process : Process) (may : SwapCall → Prop) (start : Fs) : List (SwapCall × Status) → Fs → Prop :=
  Answered Posix.call may (Posix.kernel process.cwd) (fun _ _ => False) start

def Windows.noting (os : Windows) : Program.Handler SwapOp SwapAnswer (Fs × List Moved)
  | .getTempFileName directory unique, world => ((os.handler (.getTempFileName directory unique) world.1).1, world)
  | .getFileAttributes path, world => ((os.handler (.getFileAttributes path) world.1).1, world)
  | .moveFileEx existing new, world =>
      let moved := os.handler (.moveFileEx existing new) world.1
      (moved.1, (moved.2, world.2 ++ [⟨existing, new, moved.1⟩]))

theorem noting_moves (os : Windows) (op : SwapOp) (world : Fs × List Moved) :
    os.moving op world (os.noting op world).1 (os.noting op world).2 := by
  cases op with
  | getTempFileName directory unique => exact ⟨.inl rfl, rfl⟩
  | getFileAttributes path => exact ⟨rfl, rfl⟩
  | moveFileEx existing new =>
      refine ⟨rfl, ?_⟩
      simp only [Windows.noting, Windows.handler]
      cases moved : moveEntry (os.place existing) (os.place new) world.1 with
      | error err => rfl
      | ok fs => rfl

theorem noting_runs {α : Type} (os : Windows) (program : SwapProgram α) (world : Fs × List Moved) :
    ∃ asked seen, Program.Runs os.moving (fun _ _ => False) world program asked seen
      (Program.run os.noting program world).1 (Program.run os.noting program world).2 := by
  induction program generalizing world with
  | ret value => exact ⟨_, _, .ret world value⟩
  | call op next ih =>
      obtain ⟨asked, seen, rest⟩ := ih (os.noting op world).1 (os.noting op world).2
      exact ⟨_, _, .call world _ op next _ asked seen _ _ (noting_moves os op world) rest⟩

theorem noting_history (os : Windows) (start now : Fs) (calls : List (SwapCall × Status)) (call : SwapCall)
    (status : Status) (before : SwapHistory os start calls now)
    (answered : (Program.run os.noting (swap os.processId call.fromPath call.toPath) (now, [])).1 = status)
    (undone : rollback (Program.run os.noting (swap os.processId call.fromPath call.toPath) (now, [])).2.2 = []) :
    SwapHistory os start (calls ++ [(call, status)])
      (Program.run os.noting (swap os.processId call.fromPath call.toPath) (now, [])).2.1 := by
  obtain ⟨asked, seen, runs⟩ := noting_runs os (swap os.processId call.fromPath call.toPath) (now, [])
  rw [answered] at runs
  refine .snoc calls now _ call status asked seen _ before runs fun moved member => ?_
  rw [undone] at member
  cases member

theorem swap_histories_exchange :
    (∀ (D : Type) [DecidableEq D] (process : Process) may start (history : List (Mark D SwapCall Status)) now,
      process.Grounded start → process.Steady may → PosixRun D process may start history now →
        Linearizable (Swaps process.place) start history now.world ∧
          ∃ journey : Equiv.Perm (List CString), now.world = fun at_ => start (journey at_)) ∧
    ∀ os start final calls, Closed Object.directory start → SwapHistory os start calls final →
      Sequential (Swaps os.place) start calls final ∧ Closed Object.directory final ∧
        ∃ journey : Equiv.Perm (List CString), final = fun at_ => start (journey at_) := by
  refine ⟨fun D _ process may start history now grounded steady run => ?_, fun os start final calls closed history => ?_⟩
  · obtain ⟨marks, phase, marked, seen, sequential⟩ :=
      Clients.run_linearizable (process.posix_commits may start steady) start history now
        (process.unmoved_start may start grounded) run
    exact ⟨⟨marks, phase, marked, seen, sequential⟩,
      sequential_swaps_permute process.place start now.world _ sequential⟩
  · have sequential := swap_history_sequential os start final calls closed history
    exact ⟨sequential, sequential_swaps_closed os.place start final calls closed sequential,
      sequential_swaps_permute os.place start final calls sequential⟩

def sampleSwap : SwapCall := ⟨[0x61], [0x62]⟩

def swappedOnce : Fs :=
  (Program.run sampleWindows.noting (swap sampleWindows.processId sampleSwap.fromPath sampleSwap.toPath) (sampleFs, [])).2.1

def swappedTwice : Fs :=
  (Program.run sampleWindows.noting (swap sampleWindows.processId sampleSwap.fromPath sampleSwap.toPath)
    (swappedOnce, [])).2.1

theorem swapped_once : SwapHistory sampleWindows sampleFs [(sampleSwap, .ok ())] swappedOnce :=
  noting_history sampleWindows sampleFs sampleFs [] sampleSwap (.ok ()) .none rfl rfl

theorem swapped_back : SwapHistory sampleWindows swappedOnce [(sampleSwap, .ok ())] swappedTwice :=
  noting_history sampleWindows swappedOnce swappedOnce [] sampleSwap (.ok ()) .none rfl rfl

def sampleProcess : Process := ⟨1, [drive]⟩

theorem listed_unique (entries : List (List CString × Object))
    (unique : ∀ left ∈ entries, ∀ right ∈ entries, left.2 = right.2 → left.1 = right.1) (a b : List CString)
    (object : Object) (first : listed entries a = some object) (second : listed entries b = some object) : a = b := by
  obtain ⟨_, _, left, _⟩ := List.lookup_eq_some_iff.mp first
  obtain ⟨_, _, right, _⟩ := List.lookup_eq_some_iff.mp second
  exact unique (a, object) (by simp [left]) (b, object) (by simp [right]) rfl

theorem sample_grounded : sampleProcess.Grounded sampleFs where
  unique a b id := listed_unique _ (by decide) a b ⟨id, true⟩
  current := rfl

theorem sample_passes (path : CString) (places : List CString)
    (alone : Posix.above path = []) (relative : Posix.isAbsolute path = false)
    (passes : sampleProcess.Passes path places) : places = [drive] := by
  obtain ⟨before, inside, rfl⟩ := passes
  rw [alone, List.prefix_nil] at inside
  rw [inside, Process.startPlace, relative]
  rfl

theorem sample_steady : sampleProcess.Steady (· = sampleSwap) where
  ways call other permitted allowed apart path mine passed passes := by
    subst permitted allowed
    have here : passed = [drive] := by
      rcases mine with rfl | rfl
      · exact sample_passes _ passed rfl rfl passes
      · exact sample_passes _ passed rfl rfl passes
    subst here
    decide
  current call permitted apart := by
    subst permitted
    decide

def exchangedOnce : Fs := fun place => sampleFs (trade [drive, [0x61]] [drive, [0x62]] place)

def exchangedTwice : Fs := fun place => exchangedOnce (trade [drive, [0x61]] [drive, [0x62]] place)

theorem sample_apart : Apart ([drive, [0x61]] : List CString) [drive, [0x62]] := ⟨by decide, by decide⟩

def bothSwap : List (Mark Bool SwapCall Status) :=
  [.invoked true sampleSwap, .invoked false sampleSwap, .returned true sampleSwap (.ok ()),
    .returned false sampleSwap (.ok ())]

abbrev SampleRun : List (Mark Bool SwapCall Status) →
    Clients Bool SwapCall Posix.KernelOp Posix.KernelAnswer Status Fs → Prop :=
  PosixRun Bool sampleProcess (· = sampleSwap) sampleFs

theorem sample_walks (history : List (Mark Bool SwapCall Status))
    (now : Clients Bool SwapCall Posix.KernelOp Posix.KernelAnswer Status Fs) (d : Bool) (path : CString)
    (next : Except UvError Nat → Posix.KernelProgram Status) (relative : Posix.isAbsolute path = false)
    (before : SampleRun history now) (busy : now.client d = .busy sampleSwap (.call (.start path) next)) :
    SampleRun history ⟨now.world, Function.update now.client d (.busy sampleSwap (next (.ok 1)))⟩ := by
  refine .asks history now d sampleSwap (.start path) next (.ok 1) now.world before busy ⟨rfl, fun folder same => ?_⟩
    fun _ _ _ _ _ impossible => impossible
  rw [relative]
  exact (Except.ok.inj same).symm

theorem sample_exchanges (history : List (Mark Bool SwapCall Status))
    (now : Clients Bool SwapCall Posix.KernelOp Posix.KernelAnswer Status Fs) (d : Bool)
    (next : Status → Posix.KernelProgram Status) (folder : now.world [drive] = some ⟨1, true⟩)
    (there : now.world [drive, [0x61]] ≠ none ∧ now.world [drive, [0x62]] ≠ none) (before : SampleRun history now)
    (busy : now.client d = .busy sampleSwap (.call (.exchange 1 [0x61] 1 [0x62]) next)) :
    SampleRun history ⟨fun place => now.world (trade [drive, [0x61]] [drive, [0x62]] place),
      Function.update now.client d (.busy sampleSwap (next (.ok ())))⟩ := by
  refine .asks history now d sampleSwap (.exchange 1 [0x61] 1 [0x62]) next (.ok ()) _ before busy ?_
    fun _ _ _ _ _ impossible => impossible
  have ordinary : Ordinary [0x61] ∧ Ordinary [0x62] := ⟨⟨by decide, by decide, by decide⟩, by decide, by decide, by decide⟩
  exact ⟨[drive], [drive], folder, folder, ordinary.1, ordinary.2, there.1, there.2,
    .inr ⟨sample_apart, trade_exchanges _ _ now.world sample_apart⟩⟩

theorem both_swap_run : ∃ now, SampleRun bothSwap now ∧ now.world = exchangedTwice := by
  have first : SampleRun [] _ := .start
  have both := (first.invokes [] _ true sampleSwap rfl rfl).invokes _ _ false sampleSwap rfl rfl
  have walked := sample_walks _ _ false _ _ rfl (sample_walks _ _ true _ _ rfl both rfl) rfl
  have went := sample_exchanges _ _ true _ rfl (by decide) (sample_walks _ _ true _ _ rfl walked rfl) rfl
  have last := sample_exchanges _ _ false _ rfl (by decide) (sample_walks _ _ false _ _ rfl went rfl) rfl
  have ended := (last.returns _ _ true sampleSwap (.ok ()) rfl).returns _ _ false sampleSwap (.ok ()) rfl
  exact ⟨_, ended, rfl⟩

theorem sample_swap_exchanges :
    (Linearizable (Swaps sampleProcess.place) sampleFs bothSwap exchangedTwice ∧
      ∃ journey : Equiv.Perm (List CString), exchangedTwice = fun at_ => sampleFs (journey at_)) ∧
    Sequential (Swaps sampleWindows.place) sampleFs [(sampleSwap, .ok ())] swappedOnce ∧
      Closed Object.directory swappedOnce ∧
        ∃ journey : Equiv.Perm (List CString), swappedOnce = fun at_ => sampleFs (journey at_) := by
  refine ⟨?_, swap_histories_exchange.2 sampleWindows sampleFs swappedOnce [(sampleSwap, .ok ())] sample_closed
    swapped_once⟩
  obtain ⟨now, run, world⟩ := both_swap_run
  rw [← world]
  exact swap_histories_exchange.1 Bool sampleProcess _ sampleFs bothSwap now sample_grounded sample_steady run

theorem swap_histories_undone (there back : List (SwapCall × Status))
    (reversed : back.map Prod.fst = (there.map Prod.fst).reverse) (went : ∀ call ∈ there, call.2 = .ok ())
    (came : ∀ call ∈ back, call.2 = .ok ()) :
    (∀ (process : Process) may start mid final, process.Grounded start → process.Steady may →
      PosixHistory process may start there mid → PosixHistory process may mid back final → final = start) ∧
    ∀ os start mid final, Closed Object.directory start → SwapHistory os start there mid → SwapHistory os mid back final →
      final = start := by
  refine ⟨fun process may start mid final grounded steady history history' => ?_,
    fun os start mid final closed history history' => ?_⟩
  · obtain ⟨unmoved, gone⟩ := commits_answered (process.posix_commits may start steady) start mid there
      (process.unmoved_start may start grounded) history
    have come := (commits_answered (process.posix_commits may mid steady) mid final back
      (process.unmoved_start may mid unmoved.toGrounded) history').2
    exact sequential_swaps_undone process.place start mid final there back reversed went came gone come
  · have sequential := swap_history_sequential os start mid there closed history
    have kept := sequential_swaps_closed os.place start mid there closed sequential
    exact sequential_swaps_undone os.place start mid final there back reversed went came sequential
      (swap_history_sequential os mid final back kept history')

theorem sample_swap_undone : swappedTwice = sampleFs :=
  (swap_histories_undone [(sampleSwap, .ok ())] [(sampleSwap, .ok ())] rfl (by simp) (by simp)).2 sampleWindows sampleFs
    swappedOnce swappedTwice sample_closed swapped_once swapped_back

end FsExt.Swap
