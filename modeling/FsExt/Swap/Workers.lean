import FsExt.Swap.Swap
import FsExt.Sys.Exchange
import FsExt.Sys.Pool

set_option autoImplicit false

namespace FsExt.Swap

open Sys

structure SwapCall where
  fromPath : CString
  toPath : CString

section
variable {ι : Type}

def Windows.pairs (os : Windows) (calls : ι → SwapCall) : Pairs ι CString where
  fst i := os.place (calls i).fromPath
  snd i := os.place (calls i).toPath

def Windows.workers (os : Windows) (calls : ι → SwapCall) (fs : Fs) : Pool ι SwapOp SwapAnswer Status Fs where
  threads i := swap os.processId (calls i).fromPath (calls i).toPath
  world := fs

structure Concurrent (os : Windows) (calls : ι → SwapCall) (fs : Fs) : Prop where
  closed : Closed Object.directory fs
  existing : ∀ i, fs (os.place (calls i).fromPath) ≠ none ∧ fs (os.place (calls i).toPath) ≠ none
  separate : Separate (os.pairs calls)
  foreign : ∀ i directory k, tempDirectory (calls i).fromPath = .ok directory → k < 64 → ∀ j,
    os.place (os.candidate directory k) ≠ os.place (calls j).fromPath ∧
      os.place (os.candidate directory k) ≠ os.place (calls j).toPath

-- Where a call stands: about to make or to probe its `k`-th candidate, or about
-- to make one of the three moves with the `k`-th candidate as its temporary.
inductive Stage where
  | naming (k : Nat)
  | probing (k : Nat)
  | leaving (k : Nat)
  | crossing (k : Nat)
  | landing (k : Nat)
  | finished

def Stage.phase (os : Windows) (directory : CString) : Stage → Phase CString
  | .naming _ | .probing _ | .leaving _ => .waiting
  | .crossing k => .parked (os.place (os.candidate directory k))
  | .landing k => .crossed (os.place (os.candidate directory k))
  | .finished => .landed

def Stage.Spent : Stage → Nat → Prop
  | .naming k, steps => steps = 2 * k ∧ k < 64
  | .probing k, steps => steps = 2 * k + 1 ∧ k < 64
  | .leaving k, steps => steps ≤ 128 ∧ k < 64
  | .crossing _, steps => steps ≤ 129
  | .landing _, steps => steps ≤ 130
  | .finished, _ => True

def triesFrom (k : Nat) : List Nat := List.range' k (64 - k)

def afterTemp (call : SwapCall) : Except UvError CString → SwapProgram Status
  | .error err => return .error err
  | .ok temporary => swapVia call.fromPath call.toPath temporary

def afterProbe (os : Windows) (directory : CString) (k : Nat) (taken : Bool) : SwapProgram (Except UvError CString) :=
  if taken then tempTries directory os.processId (triesFrom (k + 1)) else return .ok (os.candidate directory k)

def Stage.program (os : Windows) (call : SwapCall) (directory : CString) : Stage → SwapProgram Status
  | .naming k => tempTries directory os.processId (triesFrom k) >>= afterTemp call
  | .probing k => getFileAttributes (os.candidate directory k) >>= afterProbe os directory k >>= afterTemp call
  | .leaving k => swapVia call.fromPath call.toPath (os.candidate directory k)
  | .crossing k => swapCross call.fromPath call.toPath (os.candidate directory k)
  | .landing k => swapLand call.fromPath call.toPath (os.candidate directory k)
  | .finished => return .ok ()

theorem tries_from_lt (k : Nat) (less : k < 64) : triesFrom k = k :: triesFrom (k + 1) := by
  have count : 64 - k = (64 - (k + 1)) + 1 := by omega
  rw [triesFrom, count, List.range'_succ, triesFrom]

theorem swap_starts (os : Windows) (call : SwapCall) (directory : CString)
    (named : tempDirectory call.fromPath = .ok directory) :
    swap os.processId call.fromPath call.toPath = (Stage.naming 0).program os call directory := by
  have tries : tempPath os.processId call.fromPath = tempTries directory os.processId (triesFrom 0) := by
    rw [tempPath, named]
    rfl
  rw [swap, tries]
  rfl

theorem naming_program (os : Windows) (call : SwapCall) (directory : CString) (k : Nat) (less : k < 64) :
    ∃ next, (Stage.naming k).program os call directory =
        .call (.getTempFileName directory (os.processId + UInt32.ofNat k)) next ∧
      next (.ok (os.candidate directory k)) = (Stage.probing k).program os call directory := by
  rw [Stage.program, tries_from_lt k less]
  exact ⟨_, rfl, rfl⟩

theorem probing_program (os : Windows) (call : SwapCall) (directory : CString) (k : Nat) :
    ∃ next, (Stage.probing k).program os call directory = .call (.getFileAttributes (os.candidate directory k)) next ∧
      next true = (Stage.naming (k + 1)).program os call directory ∧
      next false = (Stage.leaving k).program os call directory :=
  ⟨_, rfl, rfl, rfl⟩

theorem leaving_program (os : Windows) (call : SwapCall) (directory : CString) (k : Nat) :
    ∃ next, (Stage.leaving k).program os call directory =
        .call (.moveFileEx call.fromPath (os.candidate directory k)) next ∧
      next (.ok ()) = (Stage.crossing k).program os call directory :=
  ⟨_, rfl, rfl⟩

theorem crossing_program (os : Windows) (call : SwapCall) (directory : CString) (k : Nat) :
    ∃ next, (Stage.crossing k).program os call directory = .call (.moveFileEx call.toPath call.fromPath) next ∧
      next (.ok ()) = (Stage.landing k).program os call directory :=
  ⟨_, rfl, rfl⟩

theorem landing_program (os : Windows) (call : SwapCall) (directory : CString) (k : Nat) :
    ∃ next, (Stage.landing k).program os call directory =
        .call (.moveFileEx (os.candidate directory k) call.toPath) next ∧
      next (.ok ()) = Stage.finished.program os call directory :=
  ⟨_, rfl, rfl⟩

theorem move_onto_nothing (os : Windows) (existing new : CString) (cur : Fs)
    (present : cur (os.place existing) ≠ none) (outside : ¬ os.place existing <+: os.place new)
    (grounded : (cur (os.place new).dropLast).any Object.directory = true) (absent : cur (os.place new) = none) :
    os.handler (.moveFileEx existing new) cur =
      (.ok (), relocate (os.place existing) (os.place new) cur) := by
  have elsewhere : os.place existing ≠ os.place new := by
    intro same
    exact outside (same ▸ List.prefix_refl _)
  simp [Windows.handler, moveEntry, present, elsewhere, outside, grounded, absent]

theorem candidate_beside (os : Windows) (path directory : CString) (k : Nat)
    (named : tempDirectory path = .ok directory)
    (outside : ¬ os.place path <+: os.place (os.candidate directory k)) :
    Beside (os.place path) (os.place (os.candidate directory k)) := by
  obtain ⟨folder, entry, beside⟩ :=
    temp_beside os.cwd path directory (os.tempName (os.processId + UInt32.ofNat k)) named
  rcases beside with ⟨last, sibling⟩ | around
  · exact ⟨folder, last, _, sibling, entry⟩
  · refine absurd (around.trans ?_) outside
    rw [Windows.candidate, Windows.tempFile, Windows.place, entry]
    exact List.prefix_append folder _

theorem pair_grounded (os : Windows) (calls : ι → SwapCall) (fs : Fs) (concurrent : Concurrent os calls fs)
    (phase : ι → Phase CString) (cur : Fs)
    (arranged : Arranged (os.pairs calls) fs phase cur) (i : ι) (folder : List CString) (last : CString)
    (entry : os.place (calls i).fromPath = folder ++ [last] ∨ os.place (calls i).toPath = folder ++ [last]) :
    (cur folder).any Object.directory = true := by
  rcases entry with atFrom | atTo
  · obtain ⟨obj, found, isDir⟩ := concurrent.closed folder [last] (by simp) (atFrom ▸ (concurrent.existing i).1)
    have same := arranged_above_fst (os.pairs calls) fs cur phase concurrent.separate arranged i folder last atFrom
    simp [same, found, isDir]
  · obtain ⟨obj, found, isDir⟩ := concurrent.closed folder [last] (by simp) (atTo ▸ (concurrent.existing i).2)
    have same := arranged_above_snd (os.pairs calls) fs cur phase concurrent.separate arranged i folder last atTo
    simp [same, found, isDir]

theorem entry_of_apart (a b : List CString) (apart : Apart a b) : ∃ folder last, a = folder ++ [last] := by
  rcases List.eq_nil_or_concat a with rfl | ⟨folder, last, split⟩
  · exact absurd List.nil_prefix apart.1
  · exact ⟨folder, last, by rw [split, List.concat_eq_append]⟩

end

section
variable {ι : Type} [DecidableEq ι] (os : Windows) (calls : ι → SwapCall) (fs : Fs)

-- What a run must meet: the paths fit the buffer, the last probe finds its name
-- free, and so does the move that relies on a probe, which must not lead into
-- the entry that is moved.
structure Clear (schedule : List ι) : Prop where
  short : ∀ i, (calls i).fromPath.length < maxPath
  probe : ∀ played i path, played ++ [i] <+: schedule → played.count i = 127 →
    ((os.workers calls fs).play os.handler played).request i = some (.getFileAttributes path) →
    ((os.workers calls fs).play os.handler played).world (os.place path) = none
  claim : ∀ played i new, played ++ [i] <+: schedule → new ≠ (calls i).toPath →
    ((os.workers calls fs).play os.handler played).request i = some (.moveFileEx (calls i).fromPath new) →
    ((os.workers calls fs).play os.handler played).world (os.place new) = none ∧
      ¬ os.place (calls i).fromPath <+: os.place new

structure Follows (directory : ι → CString) (stage : ι → Stage) (played : List ι)
    (pool : Pool ι SwapOp SwapAnswer Status Fs) : Prop where
  threads : ∀ i, pool.threads i = (stage i).program os (calls i) (directory i)
  spent : ∀ i, (stage i).Spent (played.count i)
  arranged : Arranged (os.pairs calls) fs (fun i => (stage i).phase os (directory i)) pool.world

theorem follows_start (directory : ι → CString)
    (named : ∀ i, tempDirectory (calls i).fromPath = .ok (directory i)) :
    Follows os calls fs directory (fun _ => .naming 0) [] (os.workers calls fs) where
  threads i := swap_starts os (calls i) (directory i) (named i)
  spent i := by simp [Stage.Spent]
  arranged := arranged_initial (os.pairs calls) fs

theorem follows_call (directory : ι → CString) (stage : ι → Stage) (played : List ι)
    (pool : Pool ι SwapOp SwapAnswer Status Fs) (follows : Follows os calls fs directory stage played pool)
    (i : ι) (now after : Stage) (at_ : stage i = now) (op : SwapOp) (next : SwapAnswer op → SwapProgram Status)
    (answer : SwapAnswer op) (world : Fs) (makes : now.program os (calls i) (directory i) = .call op next)
    (handled : os.handler op pool.world = (answer, world))
    (reaches : next answer = after.program os (calls i) (directory i))
    (spent : after.Spent (played.count i + 1))
    (arranged : Arranged (os.pairs calls) fs
      (Function.update (fun j => (stage j).phase os (directory j)) i (after.phase os (directory i))) world) :
    Follows os calls fs directory (Function.update stage i after) (played ++ [i]) (pool.act os.handler i) := by
  have thread : pool.threads i = .call op next := by rw [follows.threads, at_, makes]
  rw [Pool.act_call os.handler pool i op next thread answer world handled]
  refine ⟨?_, ?_, ?_⟩
  · intro j
    by_cases same : j = i
    · subst j
      simp [reaches]
    · simp [same, follows.threads j]
  · intro j
    by_cases same : j = i
    · subst j
      simpa using spent
    · have others : (played ++ [i]).count j = played.count j := by
        simp [Ne.symm same]
      rw [Function.update_of_ne same, others]
      exact follows.spent j
  · have phases : (fun j => (Function.update stage i after j).phase os (directory j)) =
        Function.update (fun j => (stage j).phase os (directory j)) i (after.phase os (directory i)) :=
      funext fun j => Function.apply_update (fun j (at_ : Stage) => at_.phase os (directory j)) stage i after j
    rw [phases]
    exact arranged

theorem follows_look (directory : ι → CString) (stage : ι → Stage) (played : List ι)
    (pool : Pool ι SwapOp SwapAnswer Status Fs) (follows : Follows os calls fs directory stage played pool)
    (i : ι) (now after : Stage) (at_ : stage i = now) (op : SwapOp) (next : SwapAnswer op → SwapProgram Status)
    (answer : SwapAnswer op) (makes : now.program os (calls i) (directory i) = .call op next)
    (handled : os.handler op pool.world = (answer, pool.world))
    (reaches : next answer = after.program os (calls i) (directory i))
    (spent : after.Spent (played.count i + 1))
    (still : after.phase os (directory i) = now.phase os (directory i)) :
    Follows os calls fs directory (Function.update stage i after) (played ++ [i]) (pool.act os.handler i) := by
  refine follows_call os calls fs directory stage played pool follows i now after at_ op next answer pool.world
    makes handled reaches spent ?_
  have same : Function.update (fun j => (stage j).phase os (directory j)) i (after.phase os (directory i)) =
      fun j => (stage j).phase os (directory j) := by
    rw [still, ← at_]
    exact Function.update_eq_self i fun j => (stage j).phase os (directory j)
  rw [same]
  exact follows.arranged

theorem follows_leaving (concurrent : Concurrent os calls fs) (directory : ι → CString)
    (named : ∀ i, tempDirectory (calls i).fromPath = .ok (directory i)) (stage : ι → Stage) (played : List ι)
    (pool : Pool ι SwapOp SwapAnswer Status Fs) (follows : Follows os calls fs directory stage played pool)
    (i : ι) (k : Nat) (at_ : stage i = .leaving k)
    (absent : pool.world (os.place (os.candidate (directory i) k)) = none)
    (outside : ¬ os.place (calls i).fromPath <+: os.place (os.candidate (directory i) k)) :
    Follows os calls fs directory (Function.update stage i (.crossing k)) (played ++ [i])
      (pool.act os.handler i) := by
  have spent := follows.spent i
  have stands := follows.arranged.stands i
  simp only [at_] at spent stands
  have beside := candidate_beside os (calls i).fromPath (directory i) k (named i) outside
  obtain ⟨vacant, beyond, alone⟩ := arranged_claimable Object.directory (os.pairs calls) fs pool.world _
    concurrent.closed concurrent.separate follows.arranged concurrent.existing i _ beside
    (concurrent.foreign i (directory i) k (named i) spent.2) absent
  have present : pool.world (os.place (calls i).fromPath) ≠ none :=
    holds_present pool.world fs _ _ stands.1 (concurrent.existing i).1
  obtain ⟨folder, last, name, entry, split⟩ := beside
  have grounded : (pool.world (os.place (os.candidate (directory i) k)).dropLast).any Object.directory = true := by
    rw [split, List.dropLast_concat]
    exact pair_grounded os calls fs concurrent _ pool.world follows.arranged i folder last (.inl entry)
  obtain ⟨next, makes, reaches⟩ := leaving_program os (calls i) (directory i) k
  refine follows_call os calls fs directory stage played pool follows i _ _ at_ _ next _ _ makes
    (move_onto_nothing os _ _ pool.world present outside grounded absent) reaches (Nat.succ_le_succ spent.1) ?_
  exact arranged_park (os.pairs calls) fs pool.world _ concurrent.separate follows.arranged i _
    (by rw [at_]; rfl) vacant beyond ⟨folder, last, name, entry, split⟩ alone

theorem follows_crossing (concurrent : Concurrent os calls fs) (directory : ι → CString) (stage : ι → Stage)
    (played : List ι) (pool : Pool ι SwapOp SwapAnswer Status Fs)
    (follows : Follows os calls fs directory stage played pool) (i : ι) (k : Nat) (at_ : stage i = .crossing k) :
    Follows os calls fs directory (Function.update stage i (.landing k)) (played ++ [i])
      (pool.act os.handler i) := by
  have spent := follows.spent i
  have stands := follows.arranged.stands i
  simp only [at_] at spent stands
  obtain ⟨_, vacant, rests⟩ := stands
  have apart := apart_symm _ _ (concurrent.separate.own i)
  have present : pool.world (os.place (calls i).toPath) ≠ none :=
    holds_present pool.world fs _ _ rests (concurrent.existing i).2
  obtain ⟨folder, last, entry⟩ := entry_of_apart _ _ (concurrent.separate.own i)
  have grounded : (pool.world (os.place (calls i).fromPath).dropLast).any Object.directory = true := by
    have split : os.place (calls i).fromPath = folder ++ [last] := entry
    rw [split, List.dropLast_concat]
    exact pair_grounded os calls fs concurrent _ pool.world follows.arranged i folder last (.inl split)
  obtain ⟨next, makes, reaches⟩ := crossing_program os (calls i) (directory i) k
  refine follows_call os calls fs directory stage played pool follows i _ _ at_ _ next _ _ makes
    (move_onto_nothing os _ _ pool.world present apart.1 grounded (vacant_top _ _ vacant)) reaches
    (Nat.succ_le_succ spent) ?_
  exact arranged_cross (os.pairs calls) fs pool.world _ concurrent.separate follows.arranged i _ (by rw [at_]; rfl)

theorem follows_landing (concurrent : Concurrent os calls fs) (directory : ι → CString) (stage : ι → Stage)
    (played : List ι) (pool : Pool ι SwapOp SwapAnswer Status Fs)
    (follows : Follows os calls fs directory stage played pool) (i : ι) (k : Nat) (at_ : stage i = .landing k) :
    Follows os calls fs directory (Function.update stage i .finished) (played ++ [i])
      (pool.act os.handler i) := by
  have stands := follows.arranged.stands i
  obtain ⟨_, beyond⟩ := follows.arranged.fresh i (os.place (os.candidate (directory i) k)) (by rw [at_]; rfl)
  simp only [at_] at stands
  obtain ⟨carried, _, vacant⟩ := stands
  have present : pool.world (os.place (os.candidate (directory i) k)) ≠ none :=
    holds_present pool.world fs _ _ carried (concurrent.existing i).1
  obtain ⟨folder, last, entry⟩ := entry_of_apart _ _ (apart_symm _ _ (concurrent.separate.own i))
  have grounded : (pool.world (os.place (calls i).toPath).dropLast).any Object.directory = true := by
    have split : os.place (calls i).toPath = folder ++ [last] := entry
    rw [split, List.dropLast_concat]
    exact pair_grounded os calls fs concurrent _ pool.world follows.arranged i folder last (.inr split)
  obtain ⟨next, makes, reaches⟩ := landing_program os (calls i) (directory i) k
  refine follows_call os calls fs directory stage played pool follows i _ _ at_ _ next _ _ makes
    (move_onto_nothing os _ _ pool.world present (beyond i).2.1 grounded (vacant_top _ _ vacant)) reaches trivial ?_
  exact arranged_land (os.pairs calls) fs pool.world _ concurrent.separate follows.arranged i _ (by rw [at_]; rfl)

theorem follows_step (concurrent : Concurrent os calls fs) (directory : ι → CString)
    (named : ∀ i, tempDirectory (calls i).fromPath = .ok (directory i)) (schedule : List ι)
    (clear : Clear os calls fs schedule) (stage : ι → Stage) (played : List ι) (i : ι)
    (part : played ++ [i] <+: schedule)
    (follows : Follows os calls fs directory stage played ((os.workers calls fs).play os.handler played)) :
    ∃ after, Follows os calls fs directory after (played ++ [i])
      (((os.workers calls fs).play os.handler played).act os.handler i) := by
  have spent := follows.spent i
  have thread := follows.threads i
  cases at_ : stage i with
  | naming k =>
      simp only [at_] at spent
      obtain ⟨next, makes, reaches⟩ := naming_program os (calls i) (directory i) k spent.2
      exact ⟨_, follows_look os calls fs directory stage played _ follows i _ (.probing k) at_ _ next _ makes rfl
        reaches ⟨by rw [spent.1], spent.2⟩ rfl⟩
  | probing k =>
      simp only [at_, Stage.Spent] at spent
      obtain ⟨next, makes, goesOn, leaves⟩ := probing_program os (calls i) (directory i) k
      rw [at_, makes] at thread
      cases taken : ((os.workers calls fs).play os.handler played).world
          (os.place (os.candidate (directory i) k)) with
      | none =>
          exact ⟨_, follows_look os calls fs directory stage played _ follows i _ (.leaving k) at_ _ next false makes
            (by simp [Windows.handler, taken]) leaves ⟨by omega, spent.2⟩ rfl⟩
      | some obj =>
          have more : k + 1 < 64 := by
            by_contra last
            have free := clear.probe played i _ part (by omega) (Pool.request_call _ i _ next thread)
            rw [taken] at free
            cases free
          exact ⟨_, follows_look os calls fs directory stage played _ follows i _ (.naming (k + 1)) at_ _ next true
            makes (by simp [Windows.handler, taken]) goesOn ⟨by omega, more⟩ rfl⟩
  | leaving k =>
      simp only [at_] at spent
      obtain ⟨next, makes, _⟩ := leaving_program os (calls i) (directory i) k
      rw [at_, makes] at thread
      have elsewhere : os.candidate (directory i) k ≠ (calls i).toPath := fun same =>
        (concurrent.foreign i (directory i) k (named i) spent.2 i).2 (by rw [same])
      obtain ⟨absent, outside⟩ := clear.claim played i _ part elsewhere (Pool.request_call _ i _ next thread)
      exact ⟨_, follows_leaving os calls fs concurrent directory named stage played _ follows i k at_ absent outside⟩
  | crossing k => exact ⟨_, follows_crossing os calls fs concurrent directory stage played _ follows i k at_⟩
  | landing k => exact ⟨_, follows_landing os calls fs concurrent directory stage played _ follows i k at_⟩
  | finished =>
      rw [at_] at thread
      rw [Pool.act_ret os.handler _ i _ thread]
      refine ⟨stage, follows.threads, ?_, follows.arranged⟩
      intro j
      by_cases same : j = i
      · subst j
        rw [at_]
        trivial
      · have others : (played ++ [i]).count j = played.count j := by
          simp [Ne.symm same]
        rw [others]
        exact follows.spent j

theorem follows_run (concurrent : Concurrent os calls fs) (schedule : List ι)
    (clear : Clear os calls fs schedule) :
    ∃ directory, ∀ played, played <+: schedule →
      ∃ stage, Follows os calls fs directory stage played ((os.workers calls fs).play os.handler played) := by
  choose directory named using fun i => temp_directory_of_short (calls i).fromPath (clear.short i)
  refine ⟨directory, Pool.play_keeps os.handler (os.workers calls fs) schedule
    (fun played pool => ∃ stage, Follows os calls fs directory stage played pool)
    ⟨_, follows_start os calls fs directory named⟩ ?_⟩
  intro played i part reached
  obtain ⟨stage, follows⟩ := reached
  exact follows_step os calls fs concurrent directory named schedule clear stage played i part follows

theorem finished_of_returned (directory : ι → CString) (stage : ι → Stage) (played : List ι)
    (pool : Pool ι SwapOp SwapAnswer Status Fs) (follows : Follows os calls fs directory stage played pool)
    (i : ι) (result : Status) (returned : pool.threads i = .ret result) : stage i = .finished := by
  have thread := follows.threads i
  have spent := follows.spent i
  rw [returned] at thread
  cases at_ : stage i with
  | finished => rfl
  | naming k =>
      rw [at_] at thread spent
      obtain ⟨next, makes, _⟩ := naming_program os (calls i) (directory i) k spent.2
      rw [makes] at thread
      cases thread
  | probing k => rw [at_] at thread; cases thread
  | leaving k => rw [at_] at thread; cases thread
  | crossing k => rw [at_] at thread; cases thread
  | landing k => rw [at_] at thread; cases thread

theorem finished_of_spent (stage : Stage) (steps : Nat) (spent : stage.Spent steps) (enough : 131 ≤ steps) :
    stage = .finished := by
  cases stage with
  | finished => rfl
  | naming k => simp only [Stage.Spent] at spent; omega
  | probing k => simp only [Stage.Spent] at spent; omega
  | leaving k => simp only [Stage.Spent] at spent; omega
  | crossing k => simp only [Stage.Spent] at spent; omega
  | landing k => simp only [Stage.Spent] at spent; omega

end

theorem concurrent_swaps_exchange {ι : Type} [DecidableEq ι] (os : Windows) (calls : ι → SwapCall) (fs : Fs)
    (concurrent : Concurrent os calls fs) (schedule : List ι) (clear : Clear os calls fs schedule)
    (played : List ι) (part : played <+: schedule) :
    (∀ place obj, fs place = some obj →
        ∃ now, ((os.workers calls fs).play os.handler played).world now = some obj) ∧
      (∀ i result, ((os.workers calls fs).play os.handler played).threads i = .ret result → result = .ok ()) ∧
      (∀ i, 131 ≤ played.count i → ∃ result,
        ((os.workers calls fs).play os.handler played).threads i = .ret result) ∧
      ((∀ i, ∃ result, ((os.workers calls fs).play os.handler played).threads i = .ret result) →
        Exchanged (os.pairs calls) fs ((os.workers calls fs).play os.handler played).world) := by
  obtain ⟨directory, run⟩ := follows_run os calls fs concurrent schedule clear
  obtain ⟨stage, follows⟩ := run played part
  refine ⟨arranged_nothing_lost (os.pairs calls) fs _ _ follows.arranged, ?_, ?_, ?_⟩
  · intro i result returned
    have finished := finished_of_returned os calls fs directory stage played _ follows i result returned
    have thread := follows.threads i
    rw [returned, finished] at thread
    cases thread
    rfl
  · intro i enough
    have thread := follows.threads i
    rw [finished_of_spent (stage i) _ (follows.spent i) enough] at thread
    exact ⟨_, thread⟩
  · intro returned
    apply arranged_landed (os.pairs calls) fs _ _ follows.arranged
    intro i
    obtain ⟨result, done⟩ := returned i
    rw [finished_of_returned os calls fs directory stage played _ follows i result done]
    rfl

def sampleCalls : Bool → SwapCall
  | false => ⟨[0x61], [0x62]⟩
  | true => ⟨[0x63], [0x64]⟩

def overlapping : List Bool :=
  [false, false, false, true, true, true, true, true, false, true, false, true]

def racing : List Bool := [false, false, true, true, false, true]

theorem sample_concurrent : Concurrent sampleWindows sampleCalls sampleFs where
  closed := sample_closed
  existing := by decide
  separate := by
    constructor
    all_goals
      simp only [Apart]
      decide
  foreign i directory k named less j := by
    have here : directory = [dot] := by
      cases i <;> exact (Except.ok.inj named).symm
    subst here
    revert k i j
    decide

theorem overlapping_clear : Clear sampleWindows sampleCalls sampleFs overlapping where
  short := by decide
  probe played i path part many _ := by
    have short := part.length_le
    have within := List.count_le_length (a := i) (l := played)
    simp only [List.length_append, overlapping, List.length_cons, List.length_nil] at short
    omega
  claim played i new part elsewhere asks := by
    obtain ⟨n, less, rfl, at_⟩ := Pool.part_take overlapping played i part
    have meets : ∀ n < 12, ∀ i, overlapping[n]? = some i →
        (((sampleWindows.workers sampleCalls sampleFs).play sampleWindows.handler
          (overlapping.take n)).request i).all fun
        | .moveFileEx existing new => existing ≠ (sampleCalls i).fromPath ∨ new = (sampleCalls i).toPath ∨
            (((sampleWindows.workers sampleCalls sampleFs).play sampleWindows.handler
              (overlapping.take n)).world (sampleWindows.place new) = none ∧
              ¬ sampleWindows.place (sampleCalls i).fromPath <+: sampleWindows.place new)
        | _ => true := by decide
    have met := meets n less i at_
    rw [asks] at met
    simpa [elsewhere] using met

theorem overlapping_swaps_exchange :
    Exchanged (sampleWindows.pairs sampleCalls) sampleFs
      ((sampleWindows.workers sampleCalls sampleFs).play sampleWindows.handler overlapping).world :=
  (concurrent_swaps_exchange sampleWindows sampleCalls sampleFs sample_concurrent overlapping overlapping_clear
    overlapping (List.prefix_refl _)).2.2.2 fun i => by
      cases i
      · exact ⟨_, rfl⟩
      · exact ⟨_, rfl⟩

theorem racing_swaps_destroy :
    Concurrent sampleWindows sampleCalls sampleFs ∧
      sampleFs (sampleWindows.place [0x61]) = some ⟨2, false⟩ ∧
      ∀ now, ((sampleWindows.workers sampleCalls sampleFs).play sampleWindows.handler racing).world now ≠
        some ⟨2, false⟩ := by
  refine ⟨sample_concurrent, by decide, ?_⟩
  have only : ∀ place, sampleFs place = some ⟨2, false⟩ → place = [drive, [0x61]] := by
    intro place found
    obtain ⟨before, after, split, _⟩ := List.lookup_eq_some_iff.mp found
    have member : (place, (⟨2, false⟩ : Object)) ∈ before ++ (place, ⟨2, false⟩) :: after := by simp
    rw [← split] at member
    simpa using member
  exact relocate_destroys [drive, [0x63]] [drive, uniqueName 4] _ _
    (relocate_only [drive, [0x61]] [drive, uniqueName 4] sampleFs _ only) (by decide)

end FsExt.Swap
