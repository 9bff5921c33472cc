import FsExt.Uv
import FsExt.Sys.History
import Mathlib.Logic.Relation

set_option autoImplicit false

namespace FsExt.Async

open Sys

inductive Kind where
  | waitForLock
  | waitForDowngradeLock
  | waitForUpgradeLock
  | trim
  | sparse
  | swap
  | getAttr
  | setAttr
  | removeAttr
  | listAttrs
deriving DecidableEq

def Kind.threaded : Kind → Bool
  | .waitForLock | .waitForDowngradeLock | .waitForUpgradeLock => true
  | _ => false

structure Outcome where
  result : Status
  value : List UInt8
  names : List CString

inductive JsValue where
  | null
  | error (err : UvError)
  | buffer (contents : List UInt8)
  | array (names : List CString)
deriving DecidableEq

def arguments : Kind → Outcome → List JsValue
  | .getAttr, ⟨.error .ENODATA, _, _⟩ => [.null, .null]
  | .getAttr, ⟨.error err, _, _⟩ => [.error err, .null]
  | .getAttr, ⟨.ok (), value, _⟩ => [.null, .buffer value]
  | .removeAttr, ⟨.error .ENODATA, _, _⟩ => [.null]
  | .listAttrs, ⟨.error err, _, _⟩ => [.error err, .null]
  | .listAttrs, ⟨.ok (), _, names⟩ => [.null, .array names]
  | _, ⟨.error err, _, _⟩ => [.error err]
  | _, ⟨.ok (), _, _⟩ => [.null]

inductive Reference where
  | ctx
  | cb
deriving DecidableEq

inductive Instr where
  | start
  | setEnv
  | setExiting
  | createReference (ref : Reference)
  | addTeardown
  | loadEnv
  | loadTeardown
  | openScope
  | getReference (ref : Reference)
  | deleteReference (ref : Reference)
  | createArguments
  | callUnlessExiting
  | closeScope
  | finishTeardown
deriving DecidableEq

-- What the ten submitting functions do once they have their arguments, from
-- `fs_ext_js_wait_for_lock` to `fs_ext_js_list_attrs`.
def submission : List Instr :=
  [.start, .setEnv, .setExiting, .createReference .ctx, .createReference .cb, .addTeardown]

-- The eight completion functions, from `fs_ext_js__on_lock` to
-- `fs_ext_js__on_list_attrs`; they differ in their arguments only.
def completion : List Instr :=
  [.loadEnv, .loadTeardown, .openScope, .getReference .ctx, .getReference .cb, .deleteReference .cb,
    .deleteReference .ctx, .createArguments, .callUnlessExiting, .closeScope, .finishTeardown]

inductive Mark where
  | started
  | created (ref : Reference)
  | added
  | stored (outcome : Outcome)
  | stopped
  | tornDown
  | entered
  | deleted (ref : Reference)
  | called (argv : List JsValue)
  | finished
  | left

-- A thread signals the loop before it exits.
inductive Worker where
  | idle
  | running
  | stored
  | signalled
  | exited
deriving DecidableEq

-- `refused`: the submitting function threw. `closing`: the thread of a lock is
-- joined and its signal on its way to be closed.
inductive Stage where
  | refused
  | submitting (rest : List Instr)
  | pending
  | closing
  | completing (rest : List Instr)
  | done

inductive Teardown where
  | absent
  | added
  | finished
deriving DecidableEq

-- The request as the ArrayBuffer holds it, zeroed at first, the position of the
-- function that works on it with its local `argv`, and what has happened.
structure Request where
  kind : Kind
  worker : Worker
  outcome : Outcome
  env : Bool
  exiting : Bool
  teardown : Teardown
  stage : Stage
  argv : List JsValue
  history : List Mark

def fresh (kind : Kind) : Request where
  kind := kind
  worker := .idle
  outcome := ⟨.ok (), [], []⟩
  env := false
  exiting := false
  teardown := .absent
  stage := .submitting submission
  argv := []
  history := []

def Request.note (request : Request) (mark : Mark) : Request :=
  { request with history := mark :: request.history }

def exec (request : Request) : Instr → Request
  | .start => { request with worker := .running }.note .started
  | .setEnv => { request with env := true }
  | .setExiting => { request with exiting := false }
  | .createReference ref => request.note (.created ref)
  | .addTeardown => { request with teardown := .added }.note .added
  | .loadEnv | .loadTeardown | .openScope | .getReference _ | .closeScope => request
  | .deleteReference ref => request.note (.deleted ref)
  | .createArguments => { request with argv := arguments request.kind request.outcome }
  | .callUnlessExiting => if request.exiting then request else request.note (.called request.argv)
  | .finishTeardown => { request with teardown := .finished }.note .finished

inductive Action where
  | refuse
  | submit (instr : Instr)
  | submitted
  | tearDown
  | work
  | signal
  | stop
  | join
  | enter
  | complete (instr : Instr)
  | leave

inductive Move : Action → Request → Request → Prop where
  | refuse (request : Request) (rest : List Instr) (stage : request.stage = .submitting (.start :: rest)) :
      Move .refuse request { request with stage := .refused }
  | submit (request : Request) (instr : Instr) (rest : List Instr)
      (stage : request.stage = .submitting (instr :: rest)) :
      Move (.submit instr) request { exec request instr with stage := .submitting rest }
  | submitted (request : Request) (stage : request.stage = .submitting []) :
      Move .submitted request { request with stage := .pending }
  | tearDown (request : Request) (added : request.teardown = .added) :
      Move .tearDown request ({ request with exiting := true }.note .tornDown)
  | work (request : Request) (outcome : Outcome) (running : request.worker = .running) :
      Move .work request ({ request with worker := .stored, outcome := outcome }.note (.stored outcome))
  | signal (request : Request) (threaded : request.kind.threaded = true) (stored : request.worker = .stored) :
      Move .signal request { request with worker := .signalled }
  | stop (request : Request) (ended : request.worker = if request.kind.threaded then .signalled else .stored) :
      Move .stop request ({ request with worker := .exited }.note .stopped)
  | join (request : Request) (threaded : request.kind.threaded = true) (stage : request.stage = .pending)
      (exited : request.worker = .exited) :
      Move .join request { request with stage := .closing }
  | enter (request : Request) (stage : request.stage = if request.kind.threaded then .closing else .pending)
      (exited : request.worker = .exited) :
      Move .enter request ({ request with stage := .completing completion }.note .entered)
  | complete (request : Request) (instr : Instr) (rest : List Instr)
      (stage : request.stage = .completing (instr :: rest)) :
      Move (.complete instr) request { exec request instr with stage := .completing rest }
  | leave (request : Request) (stage : request.stage = .completing []) :
      Move .leave request ({ request with stage := .done }.note .left)

structure Env where
  requests : List Request
  submitting : Option Nat
  completing : Option Nat
  js : Bool
  tearing : Bool

namespace Env

def start : Env := ⟨[], none, none, false, false⟩

def idle (env : Env) : Prop := env.submitting = none ∧ env.completing = none ∧ env.js = false

def scripting (env : Env) : Prop := env.js = true ∧ env.submitting = none

-- Who may act on request `r`. Workers act at any time, the loop and teardown
-- callbacks only where no native function is running.
def allows (env : Env) (r : Nat) : Action → Prop
  | .refuse | .submit _ | .submitted => env.submitting = some r
  | .tearDown => env.tearing = true ∧ (env.idle ∨ env.scripting)
  | .work | .signal | .stop => True
  | .join | .enter => env.idle
  | .complete _ | .leave => env.completing = some r ∧ env.js = false

def after (env : Env) (r : Nat) (action : Action) (request request' : Request) : Env :=
  let env := { env with requests := env.requests.set r request' }
  match action with
  | .refuse | .submitted => { env with submitting := none }
  | .enter => { env with completing := some r }
  | .complete .callUnlessExiting => { env with js := !request.exiting }
  | .leave => { env with completing := none }
  | _ => env

inductive Step (env : Env) : Env → Prop where
  | script (idle : env.idle) : Step env { env with js := true }
  | scriptEnds (scripting : env.scripting) : Step env { env with js := false }
  | submission (kind : Kind) (scripting : env.scripting) :
      Step env { env with requests := env.requests ++ [fresh kind], submitting := some env.requests.length }
  | startTeardown (free : env.idle ∨ env.scripting) : Step env { env with tearing := true }
  | act (r : Nat) (action : Action) (request request' : Request) (found : env.requests[r]? = some request)
      (may : env.allows r action) (move : Move action request request') :
      Step env (env.after r action request request')

def Reachable : Env → Prop := Relation.ReflTransGen Step start

end Env

end FsExt.Async
