import FsExt.Swap.Workers
import FsExt.Sys.Places

set_option autoImplicit false

namespace FsExt.Swap

open Sys

inductive ExchangeOp where
  | rename (fromPath toPath : CString)

abbrev ExchangeAnswer (_ : ExchangeOp) : Type := Status

namespace Posix

def swap (fromPath toPath : CString) : Program ExchangeOp ExchangeAnswer Status := do
  let res ← Program.perform (ExchangeOp.rename fromPath toPath)
  return res

-- What the kernel does for that call, other calls in between: it walks both
-- paths, from one directory to the next, and exchanges two names in the two
-- directories it came to. Directories are held by their identity, not by where
-- they are.
inductive KernelOp where
  | start (path : CString)
  | enter (folder : Nat) (name : CString)
  | exchange (fromFolder : Nat) (fromName : CString) (toFolder : Nat) (toName : CString)

abbrev KernelAnswer : KernelOp → Type
  | .start _ => Except UvError Nat
  | .enter _ _ => Except UvError Nat
  | .exchange _ _ _ _ => Status

abbrev KernelProgram (α : Type) := Program KernelOp KernelAnswer α

def isAbsolute (path : CString) : Bool := path.head? == some slash

def names (path : CString) : List CString := (path.splitOnP (· == slash)).filter (· ≠ [])

def above (path : CString) : List CString := (names path).dropLast

def lastName (path : CString) : CString := (names path).getLast?.getD []

def walkThrough (folder : Nat) : List CString → KernelProgram (Except UvError Nat)
  | [] => return .ok folder
  | name :: rest => do
      match ← Program.perform (KernelOp.enter folder name) with
      | .error err => return .error err
      | .ok inner => walkThrough inner rest

def walkTo (path : CString) : KernelProgram (Except UvError Nat) := do
  match ← Program.perform (KernelOp.start path) with
  | .error err => return .error err
  | .ok folder => walkThrough folder (above path)

def exchangeIn (call : SwapCall) (fromFolder : Nat) : Except UvError Nat → KernelProgram Status
  | .error err => return .error err
  | .ok toFolder =>
      Program.perform (KernelOp.exchange fromFolder (lastName call.fromPath) toFolder (lastName call.toPath))

def walkOn (call : SwapCall) : Except UvError Nat → KernelProgram Status
  | .error err => return .error err
  | .ok fromFolder => walkTo call.toPath >>= exchangeIn call fromFolder

def renameat2 : (op : ExchangeOp) → KernelProgram (ExchangeAnswer op)
  | .rename fromPath toPath => walkTo fromPath >>= walkOn ⟨fromPath, toPath⟩

def call (call : SwapCall) : KernelProgram Status := (swap call.fromPath call.toPath).interp renameat2

theorem call_walks (swapCall : SwapCall) : call swapCall = (walkTo swapCall.fromPath >>= walkOn swapCall) :=
  Program.bind_ret _

def step (place : List CString) (name : CString) : List CString :=
  if name = [dot] then place else if name = [dot, dot] then place.dropLast else place ++ [name]

-- Directories are entered where no symbolic link stands in between. Any step may
-- fail. An entry is never exchanged with one inside it.
def kernel (cwd : Nat) : Program.Semantics KernelOp KernelAnswer Fs
  | .start path, fs, answer, fs' => fs' = fs ∧ ∀ folder, answer = .ok folder →
      if isAbsolute path then fs [] = some ⟨folder, true⟩ else folder = cwd
  | .enter folder name, fs, answer, fs' => fs' = fs ∧ ∀ inner, answer = .ok inner →
      ∃ place, fs place = some ⟨folder, true⟩ ∧ fs (step place name) = some ⟨inner, true⟩
  | .exchange fromFolder fromName toFolder toName, fs, answer, fs' =>
      match answer with
      | .error _ => fs' = fs
      | .ok () => ∃ origin target, fs origin = some ⟨fromFolder, true⟩ ∧ fs target = some ⟨toFolder, true⟩ ∧
          Ordinary fromName ∧ Ordinary toName ∧ fs (origin ++ [fromName]) ≠ none ∧ fs (target ++ [toName]) ≠ none ∧
            ((origin ++ [fromName] = target ++ [toName] ∧ fs' = fs) ∨
              (Apart (origin ++ [fromName]) (target ++ [toName]) ∧
                Exchanged (pairOf (origin ++ [fromName]) (target ++ [toName])) fs fs'))

end Posix

structure Process where
  cwd : Nat
  below : List CString

namespace Process

variable (process : Process)

def startPlace (path : CString) : List CString := if Posix.isAbsolute path then [] else process.below

def folderPlace (path : CString) : List CString := (Posix.above path).foldl Posix.step (process.startPlace path)

def place (path : CString) : List CString := process.folderPlace path ++ [Posix.lastName path]

def Passes (path : CString) (passed : List CString) : Prop :=
  ∃ before, before <+: Posix.above path ∧ passed = before.foldl Posix.step (process.startPlace path)

-- No swap exchanges what another one, or itself, walks through, nor a directory
-- that the current one lies in.
structure Steady (may : SwapCall → Prop) : Prop where
  ways : ∀ call other, may call → may other → Apart (process.place call.fromPath) (process.place call.toPath) →
    ∀ path, path = other.fromPath ∨ path = other.toPath → ∀ passed, process.Passes path passed →
      ¬ process.place call.fromPath <+: passed ∧ ¬ process.place call.toPath <+: passed
  current : ∀ call, may call → Apart (process.place call.fromPath) (process.place call.toPath) →
    ¬ process.place call.fromPath <+: process.below ∧ ¬ process.place call.toPath <+: process.below

structure Grounded (fs : Fs) : Prop where
  unique : ∀ a b id, fs a = some ⟨id, true⟩ → fs b = some ⟨id, true⟩ → a = b
  current : fs process.below = some ⟨process.cwd, true⟩

structure Unmoved (may : SwapCall → Prop) (start fs : Fs) : Prop extends process.Grounded fs where
  ways : ∀ call, may call → ∀ path, path = call.fromPath ∨ path = call.toPath → ∀ passed, process.Passes path passed →
    fs passed = start passed

inductive Walks (start : Fs) (path : CString) (next : Except UvError Nat → Posix.KernelProgram Status) :
    Posix.KernelProgram Status → Prop where
  | starts : Walks start path next (Posix.walkTo path >>= next)
  | enters (walked left : List CString) (name : CString) (folder : Nat) (split : Posix.above path = walked ++ name :: left)
      (here : start (walked.foldl Posix.step (process.startPlace path)) = some ⟨folder, true⟩) :
      Walks start path next (Posix.walkThrough folder (name :: left) >>= next)

def At (start : Fs) (path : CString) (folder : Nat) : Prop := start (process.folderPlace path) = some ⟨folder, true⟩

inductive Pending (start : Fs) (call : SwapCall) : Posix.KernelProgram Status → Prop where
  | walks (rest : Posix.KernelProgram Status)
      (walks : process.Walks start call.fromPath (Posix.walkOn call) rest) : Pending start call rest
  | walksOn (fromFolder : Nat) (rest : Posix.KernelProgram Status) (origin : process.At start call.fromPath fromFolder)
      (walks : process.Walks start call.toPath (Posix.exchangeIn call fromFolder) rest) : Pending start call rest
  | exchanges (fromFolder toFolder : Nat) (origin : process.At start call.fromPath fromFolder)
      (target : process.At start call.toPath toFolder) :
      Pending start call (Posix.exchangeIn call fromFolder (.ok toFolder))

def Stage (may : SwapCall → Prop) (start : Fs) (call : SwapCall) (done : Option Status)
    (rest : Posix.KernelProgram Status) (_ : Fs) : Prop :=
  match done with
  | none => may call ∧ process.Pending start call rest
  | some status => rest = .ret status

section
variable (may : SwapCall → Prop) (start fs fs' : Fs)

theorem unmoved_start (grounded : process.Grounded start) : process.Unmoved may start start where
  toGrounded := grounded
  ways _ _ _ _ _ _ := rfl

theorem passes_start (path : CString) : process.Passes path (process.startPlace path) := ⟨[], List.nil_prefix, rfl⟩

theorem passes_walked (path name : CString) (walked left : List CString)
    (split : Posix.above path = walked ++ name :: left) :
    process.Passes path ((walked ++ [name]).foldl Posix.step (process.startPlace path)) :=
  ⟨walked ++ [name], ⟨left, by rw [split, List.append_assoc, List.singleton_append]⟩, rfl⟩

theorem walks_or_there (path : CString) (next : Except UvError Nat → Posix.KernelProgram Status)
    (walked left : List CString) (folder : Nat) (split : Posix.above path = walked ++ left)
    (here : start (walked.foldl Posix.step (process.startPlace path)) = some ⟨folder, true⟩) :
    process.Walks start path next (Posix.walkThrough folder left >>= next) ∨
      (process.At start path folder ∧ (Posix.walkThrough folder left >>= next) = next (.ok folder)) := by
  cases left with
  | cons name left => exact .inl (.enters walked left name folder split here)
  | nil =>
      rw [List.append_nil] at split
      exact .inr ⟨by rwa [At, folderPlace, split], rfl⟩

theorem walk_step (call : SwapCall) (path : CString) (next : Except UvError Nat → Posix.KernelProgram Status)
    (op : Posix.KernelOp) (rest : Posix.KernelAnswer op → Posix.KernelProgram Status) (answer : Posix.KernelAnswer op)
    (permitted : may call) (mine : path = call.fromPath ∨ path = call.toPath) (unmoved : process.Unmoved may start fs)
    (walks : process.Walks start path next (.call op rest)) (asked : Posix.kernel process.cwd op fs answer fs') :
    fs' = fs ∧ ((∃ err, rest answer = next (.error err)) ∨ process.Walks start path next (rest answer) ∨
      ∃ folder, process.At start path folder ∧ rest answer = next (.ok folder)) := by
  generalize whole : Program.call op rest = program at walks
  cases walks with
  | starts =>
      cases whole
      obtain ⟨rfl, started⟩ := asked
      refine ⟨rfl, ?_⟩
      cases answer with
      | error err => exact .inl ⟨err, rfl⟩
      | ok folder =>
          have here : start (process.startPlace path) = some ⟨folder, true⟩ := by
            rw [← unmoved.ways call permitted path mine _ (process.passes_start path), startPlace]
            have found := started folder rfl
            by_cases absolute : Posix.isAbsolute path = true
            · rw [if_pos absolute] at found ⊢
              exact found
            · rw [if_neg absolute] at found ⊢
              rw [found]
              exact unmoved.current
          exact .inr ((process.walks_or_there start path next [] _ folder rfl here).imp_right fun there => ⟨folder, there⟩)
  | enters walked left name folder split here =>
      cases whole
      obtain ⟨rfl, entered⟩ := asked
      refine ⟨rfl, ?_⟩
      cases answer with
      | error err => exact .inl ⟨err, rfl⟩
      | ok inner =>
          obtain ⟨place, found, child⟩ := entered inner rfl
          have same : place = walked.foldl Posix.step (process.startPlace path) := by
            refine unmoved.unique _ _ folder found ?_
            rw [unmoved.ways call permitted path mine _ ⟨walked, ⟨_, split.symm⟩, rfl⟩]
            exact here
          have there : start ((walked ++ [name]).foldl Posix.step (process.startPlace path)) = some ⟨inner, true⟩ := by
            rw [← unmoved.ways call permitted path mine _ (process.passes_walked path name walked left split),
              List.foldl_append]
            rw [same] at child
            exact child
          exact .inr ((process.walks_or_there start path next (walked ++ [name]) left inner
            (by rw [split, List.append_assoc, List.singleton_append]) there).imp_right fun at_ => ⟨inner, at_⟩)

theorem exchanged_unique (a b : List CString) (apart : Apart a b) (exchanged : Exchanged (pairOf a b) fs fs')
    (unique : ∀ a b id, fs a = some ⟨id, true⟩ → fs b = some ⟨id, true⟩ → a = b) (c d : List CString) (id : Nat)
    (first : fs' c = some ⟨id, true⟩) (second : fs' d = some ⟨id, true⟩) : c = d := by
  rw [exchanged_trade a b fs fs' apart exchanged] at first second
  have same := unique _ _ id first second
  rw [← trade_trade a b apart c, same, trade_trade a b apart d]

theorem unmoved_exchanged (steady : process.Steady may) (call : SwapCall) (permitted : may call)
    (apart : Apart (process.place call.fromPath) (process.place call.toPath))
    (exchanged : Exchanged (pairOf (process.place call.fromPath) (process.place call.toPath)) fs fs')
    (unmoved : process.Unmoved may start fs) : process.Unmoved may start fs' where
  unique := exchanged_unique fs fs' _ _ apart exchanged unmoved.unique
  current := by
    rw [exchanged.elsewhere _ fun _ => steady.current call permitted apart]
    exact unmoved.current
  ways other allowed path mine passed passes := by
    rw [exchanged.elsewhere _ fun _ => steady.ways call other permitted allowed apart path mine passed passes]
    exact unmoved.ways other allowed path mine passed passes

end

end Process

end FsExt.Swap
