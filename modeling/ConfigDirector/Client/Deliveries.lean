/-
Deliveries of bundles as runs of `_on_bundle` that interleave: a locked step, then the event handlers
and the watchers, one call at a time, outside the lock. A run may start inside a handler or a watcher
of another one; operations of other threads come in between. A handler or watcher that raises is logged.
-/
import ConfigDirector.Client.GetValue
import ConfigDirector.Client.Silent
import ConfigDirector.Machine.Transition

namespace ConfigDirector.Client

open Python Evaluation

/-! ## Model -/

/-- A run of `_on_bundle` after its locked step, before each of the others. -/
inductive Phase
  | emitting (event : ClientEvent)
  /-- The handlers left of those registered when the event was emitted. -/
  | handling (event : ClientEvent) (handlers : List ℕ)
  | notifying (calls : List (Text × Watcher))
  /-- The first watcher's value is known; handlers of `config_evaluated` are left before its own. -/
  | evaluated (key : Text) (watcher : Watcher) (value : PyValue) (handlers : List ℕ) (calls : List (Text × Watcher))
  | done

/-- What a run has done: an event it emitted, or a watcher it called. -/
inductive RunEntry
  | emitted (event : ClientEvent)
  | called (key : Text) (watcher : Watcher)

/-- A run, with the state and the bundle of its locked step and what it has done so far. -/
structure Run where
  before : ClientState
  bundle : ConfigBundle
  phase : Phase
  log : List RunEntry

/-- What the locked step left to the run. -/
def Run.delivery (r : Run) : Delivery := r.before.delivery r.bundle

/-- A watcher's call, with the run that made it. -/
structure WatchCall where
  run : ℕ
  key : Text
  watcher : Watcher
  value : PyValue

/-- What the client logs when it is raised. -/
inductive Raised
  | handler (event : ClientEvent) (handler : ℕ)
  | watcher (key : Text)

/-- The client with the runs that have taken their locked step, in the order they did, and the calls of
watchers so far, the last first. -/
structure Deliveries where
  store : ClientState
  runs : List Run
  /-- The watchers created. -/
  created : ℕ
  errors : List Raised
  calls : List WatchCall

/-- An operation under the lock, or the next step of a run, in which what it calls may raise. -/
inductive DeliveryStep
  | perform (op : ClientOp)
  | go (i : ℕ) (raises : Bool)

namespace Deliveries

def init (handlers : ClientEvent → List ℕ) : Deliveries := ⟨.init handlers, [], 0, [], []⟩

def setRun (s : Deliveries) (i : ℕ) (r : Run) : Deliveries := { s with runs := s.runs.set i r }

/-- What a handler or watcher raises is logged. -/
def logs (s : Deliveries) (raises : Bool) (error : Raised) : Deliveries :=
  if raises then { s with errors := s.errors ++ [error] } else s

/-- An operation: a bundle begins a run, and a watcher is a new object. -/
def performStep (s : Deliveries) (op : ClientOp) : Option Deliveries :=
  match op with
  | .bundle bundle =>
    match s.store.onBundle bundle with
    | some (store, _) =>
      some { s with store := store, runs := s.runs ++ [⟨s.store, bundle, .emitting .configsUpdated, []⟩] }
    | none => some s
  | .watch key watcher =>
    if watcher.ident = s.created then some { s with store := s.store.watch key watcher, created := s.created + 1 }
    else none
  | op => some { s with store := s.store.perform op }

/-- What follows the handlers of an event. -/
def afterHandlers (r : Run) : ClientEvent → Phase
  | .configsUpdated => .notifying r.delivery.calls
  | _ => .done

section Step

variable [Unicode] (lib : Library) (metadata : Metadata)

/-- The value a watcher is called with. -/
def watched (ready : Bool) (key : Text) (definition : Option (Config PyFloat)) (watcher : Watcher) (segments : Segments) :
    Except Exc PyValue :=
  Evaluated.value <$> evaluateFor lib metadata ready key definition watcher.default watcher.context segments

/-- The next step of the run `r`, which is the run `i`. -/
def runStep (s : Deliveries) (i : ℕ) (r : Run) (raises : Bool) : Option (Deliveries × Run) :=
  match r.phase with
  | .emitting event =>
    some (s, { r with phase := .handling event (s.store.handlers event), log := r.log ++ [.emitted event] })
  | .handling event (handler :: handlers) =>
    some (s.logs raises (.handler event handler), { r with phase := .handling event handlers })
  | .handling event [] => some (s, { r with phase := afterHandlers r event })
  | .notifying ((key, watcher) :: calls) =>
    match watched lib metadata s.store.ready key (r.delivery.definitions key) watcher r.delivery.segments with
    | .ok value =>
      some (s, { r with phase := .evaluated key watcher value (s.store.handlers .configEvaluated) calls })
    | .error _ => some (s.logs true (.watcher key), { r with phase := .notifying calls })
  | .notifying [] =>
    some (s, { r with phase := if r.delivery.firstBundle then .emitting .clientReady else .done })
  | .evaluated key watcher value (handler :: handlers) calls =>
    some (s.logs raises (.handler .configEvaluated handler),
      { r with phase := .evaluated key watcher value handlers calls })
  | .evaluated key watcher value [] calls =>
    some ({ s with calls := ⟨i, key, watcher, value⟩ :: s.calls }.logs raises (.watcher key),
      { r with phase := .notifying calls, log := r.log ++ [.called key watcher] })
  | .done => none

def step (s : Deliveries) : DeliveryStep → Option Deliveries
  | .perform op => s.performStep op
  | .go i raises =>
    match s.runs[i]? with
    | some r => (s.runStep lib metadata i r raises).map fun p => p.1.setRun i p.2
    | none => none

/-- What a client comes to. -/
abbrev run : Deliveries → List DeliveryStep → Option Deliveries := Transition.run (step lib metadata)

end Step

/-! ## What each step does -/

/-- A step of a run leaves everything but the calls and what is logged. -/
structure Keeps (s s' : Deliveries) : Prop where
  store : s'.store = s.store
  runs : s'.runs = s.runs
  created : s'.created = s.created

theorem Keeps.refl (s : Deliveries) : Keeps s s := ⟨rfl, rfl, rfl⟩

theorem keeps_logs (s : Deliveries) (raises : Bool) (error : Raised) :
    Keeps s (s.logs raises error) ∧ (s.logs raises error).calls = s.calls := by
  cases raises <;> exact ⟨⟨rfl, rfl, rfl⟩, rfl⟩

/-- An operation begins a run, is a watcher registered, or another operation. -/
theorem performStep_cases {s s' : Deliveries} {op : ClientOp} (h : s.performStep op = some s') :
    (∃ bundle, op = .bundle bundle ∧ s.store.closed = false ∧
      s' = { s with
        store := s.store.applied bundle
        runs := s.runs ++ [⟨s.store, bundle, .emitting .configsUpdated, []⟩] }) ∨
    (∃ bundle, op = .bundle bundle ∧ s.store.closed = true ∧ s' = s) ∨
    (∃ key watcher, op = .watch key watcher ∧ watcher.ident = s.created ∧
      s' = { s with store := s.store.watch key watcher, created := s.created + 1 }) ∨
    (∀ bundle, op ≠ .bundle bundle) ∧ (∀ key watcher, op ≠ .watch key watcher) ∧
      s' = { s with store := s.store.perform op } := by
  cases op with
  | bundle bundle =>
    simp only [performStep] at h
    cases hclosed : s.store.closed with
    | false =>
      rw [onBundle_open hclosed] at h
      cases h
      exact .inl ⟨bundle, rfl, rfl, rfl⟩
    | true =>
      rw [ClientState.onBundle, hclosed] at h
      cases h
      exact .inr (.inl ⟨bundle, rfl, rfl, rfl⟩)
  | watch key watcher =>
    simp only [performStep] at h
    split at h
    · rename_i hident
      cases h
      exact .inr (.inr (.inl ⟨key, watcher, rfl, hident, rfl⟩))
    · cases h
  | unwatch key callback =>
    cases h
    exact .inr (.inr (.inr ⟨nofun, nofun, rfl⟩))
  | unwatchAll =>
    cases h
    exact .inr (.inr (.inr ⟨nofun, nofun, rfl⟩))
  | removeWatcher key ident =>
    cases h
    exact .inr (.inr (.inr ⟨nofun, nofun, rfl⟩))
  | on event handler =>
    cases h
    exact .inr (.inr (.inr ⟨nofun, nofun, rfl⟩))
  | removeHandler event handler =>
    cases h
    exact .inr (.inr (.inr ⟨nofun, nofun, rfl⟩))
  | off event handler =>
    cases h
    exact .inr (.inr (.inr ⟨nofun, nofun, rfl⟩))
  | close =>
    cases h
    exact .inr (.inr (.inr ⟨nofun, nofun, rfl⟩))

end Deliveries

namespace Run

/-- The watchers a run has still to call. -/
def remaining (r : Run) : List (Text × Watcher) :=
  match r.phase with
  | .emitting .configsUpdated | .handling .configsUpdated _ => r.delivery.calls
  | .notifying calls => calls
  | .evaluated key watcher _ _ calls => (key, watcher) :: calls
  | _ => []

/-- What a run emits at its end. -/
def ending (r : Run) : List RunEntry := if r.delivery.firstBundle then [.emitted .clientReady] else []

/-- The entries of some calls. -/
def entries (calls : List (Text × Watcher)) : List RunEntry := calls.map fun p => .called p.1 p.2

/-- What a run has still to do. -/
def rest (r : Run) : List RunEntry :=
  match r.phase with
  | .emitting .configsUpdated => .emitted .configsUpdated :: (entries r.delivery.calls ++ r.ending)
  | .handling .configsUpdated _ => entries r.delivery.calls ++ r.ending
  | .emitting event => [.emitted event]
  | .handling _ _ => []
  | .notifying calls => entries calls ++ r.ending
  | .evaluated key watcher _ _ calls => .called key watcher :: (entries calls ++ r.ending)
  | .done => []

variable [Unicode] (lib : Library) (metadata : Metadata)

/-- The value of a watcher as the run's locked step left its key. -/
def valueOf (r : Run) (key : Text) (watcher : Watcher) : Except Exc PyValue :=
  Deliveries.watched lib metadata true key (r.delivery.definitions key) watcher r.delivery.segments

/-- The value a run is about to call a watcher with is the one its locked step left. -/
def Computed (r : Run) : Prop :=
  match r.phase with
  | .evaluated key watcher value _ _ => r.valueOf lib metadata key watcher = .ok value
  | _ => True

end Run

namespace Deliveries

variable [Unicode] {lib : Library} {metadata : Metadata}

/-- What a watcher is called with does not depend on the client being ready. -/
theorem watched_ready (ready : Bool) (key : Text) (definition : Option (Config PyFloat)) (watcher : Watcher)
    (segments : Segments) : watched lib metadata ready key definition watcher segments =
      watched lib metadata true key definition watcher segments := by
  cases definition with
  | some definition => rfl
  | none =>
    unfold watched evaluateFor
    cases Telemetry.valueIdFor lib.sha256 watcher.default .none <;> rfl

/-- A step of a run goes through what the run has still to do. -/
inductive Went (i : ℕ) (lib : Library) (metadata : Metadata) (s : Deliveries) (r : Run) (s' : Deliveries) (r' : Run) :
    Prop
  /-- It calls no watcher. -/
  | on (calls : s'.calls = s.calls) (remaining : r'.remaining = r.remaining)
      (log : r'.log ++ r'.rest = r.log ++ r.rest)
  /-- The evaluation for a watcher raises, and the watcher is passed over. -/
  | passed (key : Text) (watcher : Watcher) (calls : List (Text × Watcher))
      (phase : r.phase = .notifying ((key, watcher) :: calls))
      (raised : ∃ e, r.valueOf lib metadata key watcher = .error e)
  | called (key : Text) (watcher : Watcher) (value : PyValue) (calls : List (Text × Watcher))
      (phase : r.phase = .evaluated key watcher value [] calls)
      (remaining : r'.remaining = calls) (called : s'.calls = ⟨i, key, watcher, value⟩ :: s.calls)
      (log : r'.log ++ r'.rest = r.log ++ r.rest)

theorem runStep_cases {s s' : Deliveries} {i : ℕ} {r r' : Run} {raises : Bool}
    (h : s.runStep lib metadata i r raises = some (s', r')) :
    Keeps s s' ∧ r'.before = r.before ∧ r'.bundle = r.bundle ∧ (r.Computed lib metadata → r'.Computed lib metadata) ∧
      Went i lib metadata s r s' r' := by
  obtain ⟨before, bundle, phase, log⟩ := r
  cases phase with
  | emitting event =>
    cases h
    refine ⟨.refl s, rfl, rfl, fun _ => trivial, .on rfl ?_ ?_⟩
    · cases event <;> rfl
    · cases event <;> exact List.append_assoc log [_] _
  | handling event handlers =>
    cases handlers with
    | nil =>
      cases h
      refine ⟨.refl s, rfl, rfl, fun _ => ?_, .on rfl ?_ ?_⟩
      · cases event <;> trivial
      · cases event <;> rfl
      · cases event <;> rfl
    | cons handler handlers =>
      cases h
      refine ⟨(keeps_logs s _ _).1, rfl, rfl, fun _ => trivial, .on (keeps_logs s _ _).2 ?_ ?_⟩
      · cases event <;> rfl
      · cases event <;> rfl
  | notifying calls =>
    cases calls with
    | nil =>
      cases h
      -- the run that applied the first bundle goes on to announce the client
      cases hfirst : (before.delivery bundle).firstBundle with
      | false =>
        have hphase : (if (Run.delivery ⟨before, bundle, .notifying [], log⟩).firstBundle = true
            then Phase.emitting .clientReady else .done) = .done := by
          rw [Run.delivery, hfirst]
          rfl
        rw [hphase]
        refine ⟨.refl s, rfl, rfl, fun _ => trivial, .on rfl rfl ?_⟩
        simp only [Run.rest, Run.ending, Run.delivery, hfirst]
        rfl
      | true =>
        have hphase : (if (Run.delivery ⟨before, bundle, .notifying [], log⟩).firstBundle = true
            then Phase.emitting .clientReady else .done) = .emitting .clientReady := by
          rw [Run.delivery, hfirst]
          rfl
        rw [hphase]
        refine ⟨.refl s, rfl, rfl, fun _ => trivial, .on rfl rfl ?_⟩
        simp only [Run.rest, Run.ending, Run.delivery, hfirst]
        rfl
    | cons p calls =>
      obtain ⟨key, watcher⟩ := p
      simp only [runStep] at h
      split at h
      · rename_i value hvalue
        cases h
        rw [watched_ready] at hvalue
        exact ⟨.refl s, rfl, rfl, fun _ => hvalue, .on rfl rfl rfl⟩
      · rename_i e hraised
        cases h
        rw [watched_ready] at hraised
        exact ⟨(keeps_logs s _ _).1, rfl, rfl, fun _ => trivial, .passed key watcher calls rfl ⟨e, hraised⟩⟩
  | evaluated key watcher value handlers calls =>
    cases handlers with
    | cons handler handlers =>
      cases h
      exact ⟨(keeps_logs s _ _).1, rfl, rfl, fun hcomputed => hcomputed, .on (keeps_logs s _ _).2 rfl rfl⟩
    | nil =>
      cases h
      have hkeeps := keeps_logs { s with calls := ⟨i, key, watcher, value⟩ :: s.calls } raises (.watcher key)
      refine ⟨⟨hkeeps.1.store, hkeeps.1.runs, hkeeps.1.created⟩, rfl, rfl, fun _ => trivial,
        .called key watcher value calls rfl rfl hkeeps.2 ?_⟩
      exact List.append_assoc log [_] _
  | done => cases h

end Deliveries

end ConfigDirector.Client
