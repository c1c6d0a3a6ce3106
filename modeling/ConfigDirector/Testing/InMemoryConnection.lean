/-
The in-memory server behind a test client. Its values change under the state lock, its updates are queued under
the delivery lock, and one of the calls at a time takes them from the queue and hands them to the client; the
steps are the sections of its methods, in any interleaving.
-/
import ConfigDirector.Client.NativeValues
import ConfigDirector.Client.Operations
import ConfigDirector.Machine.Transition
import Mathlib.Logic.Function.Basic

namespace ConfigDirector.Testing

open Python Evaluation Client

/-! ## Configs and updates -/

section Configs

variable [Unicode]

/-- `_test_config`. -/
def testConfig (key value : PyValue) : Except ClientError (Config PyFloat) :=
  unconditionalConfig key value (lit "test-config:" ++ key.toText) (some (lit "test-value:" ++ key.toText))

/-- `_test_configs`. -/
def testConfigs (values : Dict Text PyValue) : Except ClientError (Dict Text (Config PyFloat)) :=
  values.entries.foldlM (fun configs p => do return configs.set p.1 (← testConfig (.str p.1) p.2)) ∅

end Configs

/-- `_bundle`. -/
def testBundle (configs : Dict Text (Config PyFloat)) (kind : BundleKind) : ConfigBundle where
  configs := configs
  segments := ∅
  kind := kind
  unreadableKeys := []
  environmentId := some (lit "test-environment")
  projectId := some (lit "test-project")
  timestamp := none

def deltaUpdate (key : Text) (definition : Config PyFloat) : ConfigBundle :=
  testBundle ((∅ : Dict Text (Config PyFloat)).set key definition) .delta

/-! ## State -/

inductive Armed
  | hold
  | failure
deriving DecidableEq

inductive Outcome
  | completed
  | failed
  | ended
deriving DecidableEq

/-- Where `_deliver` is. -/
inductive Stage
  /-- Before the locked section that queues the update. -/
  | enqueueing (update : ConfigBundle)
  /-- Before the locked section that takes the next update. -/
  | popping
  /-- Before `_on_bundle`. -/
  | applying (update : ConfigBundle)
  /-- `_on_bundle` has left the client's lock; it calls handlers and watchers. -/
  | notifying

/-- Where a call is. A call made by a handler or a watcher is a call next to the one that has called it. -/
inductive Call
  | idle
  /-- `_connect`, between its two locked sections. -/
  | connecting
  /-- `_await_held`. -/
  | waiting (attempt : ℕ)
  /-- `_deliver`, and the attempt that is completed afterwards. -/
  | delivering (stage : Stage) (completes : Option ℕ)
  /-- Before `attempt.settle("completed")`. -/
  | completing (attempt : ℕ)

structure InMemoryConnection where
  configs : Dict Text (Config PyFloat)
  armed : Option Armed
  held : Option ℕ
  /-- The held attempts so far, with the outcomes of those that are settled. -/
  attempts : List (Option Outcome)
  connected : Bool
  pending : List ConfigBundle
  delivering : Bool
  client : ClientState
  calls : ℕ → Call
  /-- For the record: the updates that have been computed and are not queued yet, oldest first, with their calls. -/
  unqueued : List (ℕ × ConfigBundle)

namespace InMemoryConnection

def init (configs : Dict Text (Config PyFloat)) (handlers : ClientEvent → List ℕ) : InMemoryConnection where
  configs := configs
  armed := none
  held := none
  attempts := []
  connected := false
  pending := []
  delivering := false
  client := .init handlers
  calls := fun _ => .idle
  unqueued := []

def setCall (s : InMemoryConnection) (i : ℕ) (call : Call) : InMemoryConnection :=
  { s with calls := Function.update s.calls i call }

@[simp] theorem setCall_self (s : InMemoryConnection) (i : ℕ) (call : Call) : (s.setCall i call).calls i = call := by
  simp only [setCall, Function.update_self]

theorem setCall_of_ne (s : InMemoryConnection) {i j : ℕ} (h : j ≠ i) (call : Call) :
    (s.setCall i call).calls j = s.calls j := by
  simp only [setCall, Function.update_of_ne h]

def fullUpdate (s : InMemoryConnection) : ConfigBundle := testBundle s.configs .full

/-- `_HeldAttempt.settle`. -/
def settle (s : InMemoryConnection) (attempt : Option ℕ) (outcome : Outcome) : InMemoryConnection :=
  match attempt with
  | some a => { s with attempts := s.attempts.modify a fun settled => settled.or (some outcome) }
  | none => s

/-- A call goes on to deliver the update it has computed. -/
def dispatch (s : InMemoryConnection) (i : ℕ) (update : ConfigBundle) (completes : Option ℕ) : InMemoryConnection :=
  { s.setCall i (.delivering (.enqueueing update) completes) with unqueued := s.unqueued ++ [(i, update)] }

/-- `_deliver_if_any`, for an update that is computed `if self._connected`. -/
def dispatchIfConnected (s : InMemoryConnection) (i : ℕ) (update : ConfigBundle) : InMemoryConnection :=
  if s.connected then s.dispatch i update none else s

/-- `_deliver` returns. -/
def delivered (s : InMemoryConnection) (i : ℕ) (completes : Option ℕ) : InMemoryConnection :=
  match completes with
  | some attempt => s.setCall i (.completing attempt)
  | none => s.setCall i .idle

/-! ## Calls -/

section Calls

variable [Unicode]

/-- `set_value`; it raises before anything is stored if the key or the value is refused. -/
def setValue (s : InMemoryConnection) (i : ℕ) (key value : PyValue) : InMemoryConnection :=
  match testConfig key value with
  | .ok definition =>
    { s with configs := s.configs.set definition.key definition }.dispatchIfConnected i
      (deltaUpdate definition.key definition)
  | .error _ => s

/-- `remove_value`. -/
def removeValue (s : InMemoryConnection) (i : ℕ) (key : PyValue) : InMemoryConnection :=
  match validateConfigKey key with
  | .ok key =>
    let s := { s with configs := s.configs.erase key }
    s.dispatchIfConnected i s.fullUpdate
  | .error _ => s

/-- `replace_values`. -/
def replaceValues (s : InMemoryConnection) (i : ℕ) (values : Dict Text PyValue) : InMemoryConnection :=
  match testConfigs values with
  | .ok configs =>
    let s := { s with configs, armed := none }
    s.dispatchIfConnected i s.fullUpdate
  | .error _ => s

end Calls

/-- `complete_initialization`. -/
def completeInitialization (s : InMemoryConnection) (i : ℕ) : InMemoryConnection :=
  match s.held with
  | some attempt => { s with held := none, connected := true }.dispatch i s.fullUpdate (some attempt)
  | none => if s.armed = some .hold then { s with armed := none } else s

/-- `fail_initialization`. -/
def failInitialization (s : InMemoryConnection) : InMemoryConnection :=
  match s.held with
  | some attempt => { s with held := none }.settle (some attempt) .failed
  | none => { s with armed := some .failure }

/-- `_connect`, up to where it waits, raises or takes the lock again. -/
def connect (s : InMemoryConnection) (i : ℕ) : InMemoryConnection :=
  let disconnected := { s with connected := false, held := none, armed := none }.settle s.held .ended
  match s.armed with
  | some .hold =>
    { disconnected with
      held := some disconnected.attempts.length
      attempts := disconnected.attempts ++ [none] }.setCall i (.waiting disconnected.attempts.length)
  | some .failure => disconnected
  | none => disconnected.setCall i .connecting

/-- `_end`, when the time for an attempt is over. -/
def endAttempt (s : InMemoryConnection) (attempt : ℕ) : InMemoryConnection :=
  if s.held = some attempt then { s with held := none }.settle (some attempt) .ended else s

/-- The next step of a call, if it is not idle and does not wait. -/
def go (s : InMemoryConnection) (i : ℕ) : Option InMemoryConnection :=
  match s.calls i with
  | .idle => none
  | .connecting => some ({ s with connected := true }.dispatch i s.fullUpdate none)
  | .waiting attempt => if (s.attempts[attempt]?.join).isSome then some (s.setCall i .idle) else none
  | .delivering (.enqueueing update) completes =>
    let queued := { s with pending := s.pending ++ [update], unqueued := s.unqueued.filter fun p => p.1 ≠ i }
    if s.delivering then some (queued.delivered i completes)
    else some ({ queued with delivering := true }.setCall i (.delivering .popping completes))
  | .delivering .popping completes =>
    match s.pending with
    | [] => some ({ s with delivering := false }.delivered i completes)
    | update :: pending => some ({ s with pending }.setCall i (.delivering (.applying update) completes))
  | .delivering (.applying update) completes =>
    match s.client.onBundle update with
    | some (client, _) => some ({ s with client }.setCall i (.delivering .notifying completes))
    | none => some (s.setCall i (.delivering .popping completes))
  | .delivering .notifying completes => some (s.setCall i (.delivering .popping completes))
  | .completing attempt => some ((s.settle (some attempt) .completed).setCall i .idle)

end InMemoryConnection

/-! ## Steps -/

inductive ConnectionStep
  | setValue (i : ℕ) (key value : PyValue)
  | removeValue (i : ℕ) (key : PyValue)
  | replaceValues (i : ℕ) (values : Dict Text PyValue)
  | holdInitialization
  | completeInitialization (i : ℕ)
  | failInitialization
  /-- `initialize` of the client, up to where `_connect` waits, raises or takes the lock again. -/
  | connect (i : ℕ)
  | go (i : ℕ)
  | timeOut (i : ℕ)
  /-- A handler or a watcher lets a `BaseException` escape, which ends the call that delivers. -/
  | escape (i : ℕ)
  /-- Another call on the client. -/
  | perform (op : ClientOp)

namespace InMemoryConnection

/-- A call begins where none is in progress. -/
def begin (s : InMemoryConnection) (i : ℕ) (called : InMemoryConnection) : Option InMemoryConnection :=
  match s.calls i with
  | .idle => some called
  | _ => none

def step [Unicode] (s : InMemoryConnection) : ConnectionStep → Option InMemoryConnection
  | .setValue i key value => s.begin i (s.setValue i key value)
  | .removeValue i key => s.begin i (s.removeValue i key)
  | .replaceValues i values => s.begin i (s.replaceValues i values)
  | .holdInitialization => some { s with armed := some .hold }
  | .completeInitialization i => s.begin i (s.completeInitialization i)
  | .failInitialization => some s.failInitialization
  | .connect i => s.begin i (s.connect i)
  | .go i => s.go i
  | .timeOut i =>
    match s.calls i with
    | .waiting attempt => some ((s.endAttempt attempt).setCall i .idle)
    | _ => none
  | .escape i =>
    match s.calls i with
    | .delivering .notifying _ => some (s.setCall i .idle)
    | _ => none
  | .perform op =>
    match op with
    | .bundle _ | .close => none
    | op => some { s with client := s.client.perform op }

end InMemoryConnection

end ConfigDirector.Testing
