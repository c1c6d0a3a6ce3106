/-
Contexts of an invalid kind. A client and what its collector has recorded are run on calls that carry
contexts; two runs that differ in contexts that are ignored, or not there, differ in the counts of invalid
contexts and in what is logged of them only.
-/
import ConfigDirector.Client.GetValue
import ConfigDirector.Machine.Unwinding
import ConfigDirector.Telemetry.Collector

namespace ConfigDirector.Client

open Python Evaluation Telemetry

/-! ## Supplied contexts -/

/-- The kind an application passes. Its annotation is not enforced: an object of another class is what
`_text_of` makes of it. -/
inductive SuppliedKind
  | none
  | str (kind : Text)
  | other (text : Text)

structure SuppliedContext where
  id : Option Text
  name : Option Text
  traits : Option (List (Text × PyValue))
  anonymous : Bool
  kind : SuppliedKind

namespace SuppliedContext

/-- `_context_to_evaluate`, with the sample of a kind that is not valid. -/
def evaluatedAs (c : SuppliedContext) : Option Context × Option Text :=
  match c.kind with
  | .none => contextToEvaluate (some ⟨c.id, c.name, c.traits, c.anonymous, .none⟩)
  | .str kind => contextToEvaluate (some ⟨c.id, c.name, c.traits, c.anonymous, some kind⟩)
  | .other text => (.none, some (kindSample text))

/-- It has a kind, and one that is not valid. -/
def Invalid (c : SuppliedContext) : Prop :=
  match c.kind with
  | .none => False
  | .str kind => isValidKind kind = false
  | .other _ => True

theorem evaluatedAs_invalid {c : SuppliedContext} (h : c.Invalid) : c.evaluatedAs.1 = none := by
  unfold Invalid at h
  unfold evaluatedAs
  cases hkind : c.kind with
  | none =>
    rw [hkind] at h
    exact h.elim
  | str kind =>
    rw [hkind] at h
    have hcontext : contextToEvaluate (some ⟨c.id, c.name, c.traits, c.anonymous, some kind⟩) =
        if isValidKind kind then (some ⟨c.id, c.name, c.traits, c.anonymous, some kind⟩, none)
        else (none, some (kindSample kind)) := rfl
    simp only [hcontext, show isValidKind kind = false from h]
    rfl
  | other text => rfl

end SuppliedContext

/-- The context a supplied one is evaluated as, and the sample of a kind that is not valid. -/
def contextOf (supplied : Option SuppliedContext) : Option Context × Option Text :=
  match supplied with
  | some c => c.evaluatedAs
  | none => (none, none)

/-- Two supplied contexts that are one, or that are both of an invalid kind or not there. -/
def AlikeContexts (supplied supplied' : Option SuppliedContext) : Prop :=
  supplied = supplied' ∨ (∀ c ∈ supplied, c.Invalid) ∧ ∀ c ∈ supplied', c.Invalid

theorem contextOf_ignored {supplied : Option SuppliedContext} (h : ∀ c ∈ supplied, c.Invalid) :
    (contextOf supplied).1 = none := by
  cases supplied with
  | none => rfl
  | some c => exact SuppliedContext.evaluatedAs_invalid (h c rfl)

/-- Alike contexts are evaluated as one. -/
theorem AlikeContexts.contextOf_eq {supplied supplied' : Option SuppliedContext} (h : AlikeContexts supplied supplied') :
    (contextOf supplied).1 = (contextOf supplied').1 := by
  rcases h with rfl | ⟨hleft, hright⟩
  · rfl
  · rw [contextOf_ignored hleft, contextOf_ignored hright]

/-! ## What the collector has recorded -/

/-- What a collector records into, and whether it is collecting. -/
structure Recorded (limit : ℕ) where
  events : EventQueue (evaluationLimit limit)
  contexts : ContextRegistry (contextLimit limit)
  invalidContexts : InvalidContextSubmissions
  invalidContextsAfterStopping : InvalidContextSubmissions
  collecting : Bool

namespace Recorded

variable {limit : ℕ}

section Render

variable [Unicode]

/-- `record_evaluation`. -/
def recordEvaluation (c : Recorded limit) (r : Recording) (now : Instant) : Recorded limit :=
  if c.collecting then
    { c with
      contexts :=
        match r.contextKey, r.context with
        | some key, some context => c.contexts.add key context
        | _, _ => c.contexts
      events := c.events.push r.event now }
  else c

end Render

/-- `record_invalid_context`. -/
def recordInvalidContext (c : Recorded limit) (kindSample : Text) (now : Instant) :
    Recorded limit × InvalidContextRecording :=
  if c.collecting then
    let recorded := c.invalidContexts.record kindSample now
    ({ c with invalidContexts := recorded.1 }, recorded.2)
  else
    let recorded := c.invalidContextsAfterStopping.record kindSample now
    ({ c with invalidContextsAfterStopping := recorded.1 }, recorded.2)

end Recorded

/-! ## Model -/

/-- The client with the contexts its watchers were registered with, by watcher, and its collector. -/
structure Instrumented (limit : ℕ) where
  store : ClientState
  created : ℕ
  supplied : ℕ → Option SuppliedContext
  recorded : Recorded limit

inductive ClientCall
  | getValue (key default : PyValue) (context : Option SuppliedContext) (now : Instant)
  | getAllConfigs (context : Option SuppliedContext) (configKeys : Option (List Text)) (now : Instant)
  | watch (key : Text) (handler : ℕ) (default : PyValue) (context : Option SuppliedContext)
  | bundle (bundle : ConfigBundle) (now : Instant)
  | perform (op : ClientOp)

/-- What comes out of a call. -/
inductive Observation
  | returned (result : Except ClientError PyValue)
  | configs (states : List (Text × ConfigState))
  /-- The handlers of `config_evaluated` are called. -/
  | emitted (evaluation : ConfigEvaluation)
  /-- A watcher is called. -/
  | passed (key : Text) (ident : ℕ) (value : PyValue)
  /-- The evaluation for a watcher has raised. -/
  | raised (key : Text) (ident : ℕ)
  /-- An error line about an ignored context. -/
  | ignored (message : Text)

/-- Everything but the error lines about ignored contexts. -/
def Observation.seen : Observation → Bool
  | .ignored _ => false
  | _ => true

/-- `_log_invalid_context`. -/
def logInvalidContext (recording : InvalidContextRecording) (sample : Text) : List Observation :=
  match recording with
  | .newKindSample =>
    [.ignored (lit "Ignored a context with the invalid kind '" ++ sample ++ lit ("' and evaluated as if no context was " ++
      "supplied. A context kind has 1 to 64 characters, using only lowercase letters, digits, '-' and '_'."))]
  | .firstBeyondSampleLimit =>
    [.ignored (lit "Ignored a context with another invalid kind and evaluated as if no context was supplied. " ++
      natText kindSampleLimit ++ lit (" different invalid kinds were logged recently, so further invalid kinds are not " ++
      "logged individually."))]
  | .knownKindSample | .beyondSampleLimit => []

/-- The configs `get_all_configs` evaluates. -/
def requested (configs : Dict Text (Config PyFloat)) (configKeys : Option (List Text)) : List (Text × Config PyFloat) :=
  match configKeys with
  | none => configs.entries
  | some keys => configs.entries.filter fun p => keys.contains p.1

namespace Instrumented

variable {limit : ℕ}

/-- The end of `_context_to_evaluate`, for an invalid kind. -/
def ignoreContext (s : Instrumented limit) (sample : Option Text) (now : Instant) : Instrumented limit × List Observation :=
  match sample with
  | some sample =>
    let (recorded, recording) := s.recorded.recordInvalidContext sample now
    ({ s with recorded }, logInvalidContext recording sample)
  | none => (s, [])

section Step

variable [Unicode] (lib : Library) (metadata : Metadata)

/-- `_evaluate`. -/
def evaluate (s : Instrumented limit) (key : Text) (definition : Option (Config PyFloat)) (default : PyValue)
    (supplied : Option SuppliedContext) (segments : Segments) (now : Instant) :
    Except Exc PyValue × Instrumented limit × List Observation :=
  let (s', shown) := s.ignoreContext (contextOf supplied).2 now
  match evaluateFor lib metadata s.store.ready key definition default (contextOf supplied).1 segments with
  | .ok evaluated =>
    (.ok evaluated.value, { s' with recorded := s'.recorded.recordEvaluation evaluated.recording now },
      shown ++ [.emitted evaluated.evaluation])
  | .error e => (.error e, s', shown)

/-- `get_value`. -/
def getValue (s : Instrumented limit) (key default : PyValue) (supplied : Option SuppliedContext) (now : Instant) :
    Instrumented limit × List Observation :=
  match validateConfigKey key, validateDefault default with
  | .error e, _ => (s, [.returned (.error e)])
  | .ok _, .error e => (s, [.returned (.error e)])
  | .ok key, .ok _ =>
    match s.evaluate lib metadata key (s.store.held key) default supplied s.store.segments now with
    | (.ok value, s', shown) => (s', shown ++ [.returned (.ok value)])
    | (.error e, s', shown) => (s', shown ++ [.returned (.error (.raised e))])

/-- `get_all_configs`. -/
def getAllConfigs (s : Instrumented limit) (supplied : Option SuppliedContext) (configKeys : Option (List Text))
    (now : Instant) : Instrumented limit × List Observation :=
  let (s', shown) := s.ignoreContext (contextOf supplied).2 now
  match s.store.ready, s.store.configs with
  | true, some configs =>
    let states := (requested configs configKeys).map fun p =>
      (p.1, Evaluation.evaluate p.2 (some ⟨(contextOf supplied).1, some metadata⟩) (some s.store.segments))
    (s', shown ++ [.configs states])
  | _, _ => (s', shown ++ [.configs []])

/-- `_notify_watchers`. -/
def notifyWatchers (d : Delivery) (now : Instant) : Instrumented limit → List (Text × Watcher) →
    Instrumented limit × List Observation
  | s, [] => (s, [])
  | s, (key, watcher) :: calls =>
    let (s₁, shown) :=
      match s.evaluate lib metadata key (d.definitions key) watcher.default (s.supplied watcher.ident) d.segments now with
      | (.ok value, s₁, shown) => (s₁, shown ++ [.passed key watcher.ident value])
      | (.error _, s₁, shown) => (s₁, shown ++ [.raised key watcher.ident])
    let (s', rest) := notifyWatchers d now s₁ calls
    (s', shown ++ rest)

/-- One call, and what comes out of it. -/
def step (s : Instrumented limit) : ClientCall → Instrumented limit × List Observation
  | .getValue key default context now => s.getValue lib metadata key default context now
  | .getAllConfigs context configKeys now => s.getAllConfigs metadata context configKeys now
  | .watch key handler default context =>
    ({ s with
      store := s.store.watch key ⟨s.created, handler, default, none⟩
      created := s.created + 1
      supplied := fun ident => if ident = s.created then context else s.supplied ident }, [])
  | .bundle bundle now =>
    match s.store.onBundle bundle with
    | some (store, delivery) => notifyWatchers lib metadata delivery now { s with store := store } delivery.calls
    | none => (s, [])
  | .perform op => ({ s with store := s.store.perform op }, [])

end Step

end Instrumented

/-! ## The model below -/

/-- A context that has been let through is let through again. -/
theorem contextToEvaluate_idem (supplied : Option Context) :
    contextToEvaluate (contextToEvaluate supplied).1 = ((contextToEvaluate supplied).1, none) := by
  unfold contextToEvaluate
  cases hkind : supplied.bind Context.kind with
  | none => simp only [hkind]
  | some kind =>
    by_cases hvalid : isValidKind kind = true
    · simp only [hkind, hvalid, if_true]
    · simp only [if_neg hvalid]
      rfl

/-- Evaluating the context that was let through is evaluating the one supplied, but for the sample. -/
theorem evaluateFor_contextToEvaluate [Unicode] (lib : Library) (metadata : Metadata) (ready : Bool) (key : Text)
    (definition : Option (Config PyFloat)) (default : PyValue) (supplied : Option Context) (segments : Segments) :
    (fun e : Evaluated => { e with kindSample := (contextToEvaluate supplied).2 }) <$>
        evaluateFor lib metadata ready key definition default (contextToEvaluate supplied).1 segments =
      evaluateFor lib metadata ready key definition default supplied segments := by
  have hevaluated : ∀ result configType valueId,
      { evaluated key default result configType valueId (contextToEvaluate supplied).1 with
        kindSample := (contextToEvaluate supplied).2 } = evaluated key default result configType valueId supplied := by
    intro result configType valueId
    simp only [evaluated, contextToEvaluate_idem]
  cases definition with
  | none =>
    simp only [evaluateFor]
    cases valueIdFor lib.sha256 default .none with
    | error e => rfl
    | ok valueId => exact congrArg Except.ok (hevaluated _ _ _)
  | some definition =>
    have hstate : selectedState metadata definition (contextToEvaluate supplied).1 segments =
        selectedState metadata definition supplied segments := by
      unfold selectedState
      rw [contextToEvaluate_idem]
    simp only [evaluateFor, hstate]
    cases parseConfigValue lib.toJsonLoads (selectedState metadata definition supplied segments) default with
    | error e => rfl
    | ok result =>
      show _ <$> (idOr lib result.valueId result.value (selectedState metadata definition supplied segments).type >>= _) =
        (idOr lib result.valueId result.value (selectedState metadata definition supplied segments).type >>= _)
      cases idOr lib result.valueId result.value (selectedState metadata definition supplied segments).type with
      | error e => rfl
      | ok valueId => exact congrArg Except.ok (hevaluated _ _ _)

namespace Recorded

variable {limit : ℕ}

/-- What a collector with its threads has recorded. -/
def ofCollector (c : Collector limit) : Recorded limit :=
  ⟨c.events, c.contexts, c.invalidContexts, c.invalidContextsAfterStopping, c.collecting⟩

variable [Unicode] (sha256 : Bytes → Bytes)

/-- The steps a recorder takes for one evaluation, with nothing in between. -/
def recorderSteps (c : Collector limit) (i : ℕ) (r : Recording) (now : Instant) : List CollectorStep :=
  if c.collecting then
    match r.contextKey, r.context with
    | some _, some _ => [.record i r, .addContext i, .push i now]
    | _, _ => [.record i r, .push i now]
  else [.record i r]

/-- They record what `recordEvaluation` records, and leave the recorder as it was. -/
theorem recordEvaluation_steps {c : Collector limit} {i : ℕ} (hidle : c.recorders i = .idle) (r : Recording)
    (now : Instant) :
    ∃ c', Collector.run sha256 c (recorderSteps c i r now) = some c' ∧ c'.recorders i = .idle ∧
      ofCollector c' = (ofCollector c).recordEvaluation r now := by
  unfold recorderSteps recordEvaluation
  by_cases hcollecting : c.collecting = true
  · rw [if_pos hcollecting, if_pos (show (ofCollector c).collecting = true from hcollecting)]
    have hself : ∀ (c : Collector limit) (recorder : Recorder), (c.setRecorder i recorder).recorders i = recorder :=
      fun c recorder => if_pos rfl
    have hpush : ∀ {c₁ : Collector limit}, c₁.recorders i = .pushing r →
        ∃ c', Collector.step sha256 c₁ (.push i now) = some c' ∧ c'.recorders i = .idle ∧
          ofCollector c' = { ofCollector c₁ with events := c₁.events.push r.event now } := by
      intro c₁ hpushing
      simp only [Collector.step, hpushing]
      exact ⟨_, rfl, hself _ _, rfl⟩
    cases hkey : r.contextKey with
    | none =>
      have hrecord : Collector.step sha256 c (.record i r) = some (c.setRecorder i (.pushing r)) := by
        simp only [Collector.step, hidle, hcollecting, hkey, if_true]
      obtain ⟨c', hlast, hidle', hstores⟩ := hpush (hself c (.pushing r))
      refine ⟨c', ?_, hidle', hstores⟩
      simp only [Collector.run, Transition.run, hrecord, hlast]
    | some key =>
      obtain ⟨context, hcontext, -, -⟩ := Collector.contextKey_eq_some hkey
      rw [hcontext]
      have hrecord : Collector.step sha256 c (.record i r) = some (c.setRecorder i (.adding r key context)) := by
        simp only [Collector.step, hidle, hcollecting, hkey, hcontext, if_true]
      obtain ⟨c₁, hadd, hpushing, hstores₁⟩ : ∃ c₁,
          Collector.step sha256 (c.setRecorder i (.adding r key context)) (.addContext i) = some c₁ ∧
            c₁.recorders i = .pushing r ∧
            ofCollector c₁ = { ofCollector c with contexts := c.contexts.add key context } := by
        simp only [Collector.step, hself]
        exact ⟨_, rfl, hself _ _, rfl⟩
      obtain ⟨c', hlast, hidle', hstores⟩ := hpush hpushing
      refine ⟨c', ?_, hidle', ?_⟩
      · simp only [Collector.run, Transition.run, hrecord, hadd, hlast]
      · have hevents : c₁.events = c.events := congrArg Recorded.events hstores₁
        rw [hstores, hstores₁, hevents]
        rfl
  · rw [if_neg hcollecting, if_neg (show ¬ (ofCollector c).collecting = true from hcollecting)]
    have hrecord : Collector.step sha256 c (.record i r) = some c := by
      simp only [Collector.step, hidle, hcollecting]
      rfl
    refine ⟨c, ?_, hidle, rfl⟩
    simp only [Collector.run, Transition.run, hrecord]

/-- The step that records an invalid context. -/
theorem recordInvalidContext_step (c : Collector limit) (sample : Text) (now : Instant) :
    ∃ c', Collector.step sha256 c (.recordInvalidContext sample now) = some c' ∧
      ofCollector c' = ((ofCollector c).recordInvalidContext sample now).1 := by
  by_cases hcollecting : c.collecting = true
  · refine ⟨{ c with invalidContexts := (c.invalidContexts.record sample now).1 }, ?_, ?_⟩
    · simp only [Collector.step, hcollecting, if_true]
    · unfold recordInvalidContext
      rw [if_pos (show (ofCollector c).collecting = true from hcollecting)]
      rfl
  · refine ⟨{ c with invalidContextsAfterStopping := (c.invalidContextsAfterStopping.record sample now).1 }, ?_, ?_⟩
    · simp only [Collector.step, hcollecting]
      rfl
    · unfold recordInvalidContext
      rw [if_neg (show ¬ (ofCollector c).collecting = true from hcollecting)]
      rfl

end Recorded

/-! ## Two runs -/

namespace Recorded

variable {limit : ℕ}

/-- The same but for the counts of invalid contexts. -/
structure Alike (c c' : Recorded limit) : Prop where
  events : c.events = c'.events
  contexts : c.contexts = c'.contexts
  collecting : c.collecting = c'.collecting

theorem alike_recordInvalidContext (c : Recorded limit) (sample : Text) (now : Instant) :
    Alike c (c.recordInvalidContext sample now).1 := by
  unfold recordInvalidContext
  split
  · exact ⟨rfl, rfl, rfl⟩
  · exact ⟨rfl, rfl, rfl⟩

theorem Alike.recordEvaluation [Unicode] {c c' : Recorded limit} (h : Alike c c') (r : Recording) (now : Instant) :
    Alike (c.recordEvaluation r now) (c'.recordEvaluation r now) := by
  unfold Recorded.recordEvaluation
  by_cases hcollecting : c.collecting = true
  · rw [if_pos hcollecting, if_pos (h.collecting ▸ hcollecting), h.events, h.contexts]
    exact ⟨rfl, rfl, h.collecting⟩
  · rw [if_neg hcollecting, if_neg (h.collecting ▸ hcollecting)]
    exact h

end Recorded

namespace Instrumented

variable {limit : ℕ}

/-- The same but for contexts that are ignored or not there, and the counts of invalid contexts. -/
structure Alike (s s' : Instrumented limit) : Prop where
  store : s.store = s'.store
  created : s.created = s'.created
  supplied : ∀ ident, AlikeContexts (s.supplied ident) (s'.supplied ident)
  recorded : Recorded.Alike s.recorded s'.recorded

/-- One call, with alike contexts. -/
inductive AlikeCalls : ClientCall → ClientCall → Prop
  | getValue (key default : PyValue) (now : Instant) {context context' : Option SuppliedContext}
      (h : AlikeContexts context context') :
      AlikeCalls (.getValue key default context now) (.getValue key default context' now)
  | getAllConfigs (configKeys : Option (List Text)) (now : Instant) {context context' : Option SuppliedContext}
      (h : AlikeContexts context context') :
      AlikeCalls (.getAllConfigs context configKeys now) (.getAllConfigs context' configKeys now)
  | watch (key : Text) (handler : ℕ) (default : PyValue) {context context' : Option SuppliedContext}
      (h : AlikeContexts context context') :
      AlikeCalls (.watch key handler default context) (.watch key handler default context')
  | bundle (bundle : ConfigBundle) (now : Instant) : AlikeCalls (.bundle bundle now) (.bundle bundle now)
  | perform (op : ClientOp) : AlikeCalls (.perform op) (.perform op)

/-- The states are alike, and what came out is the same but for the error lines about ignored contexts. -/
abbrev Agree (r r' : Instrumented limit × List Observation) : Prop := Unwinding.Agree Alike Observation.seen r r'

theorem seen_logInvalidContext (recording : InvalidContextRecording) (sample : Text) :
    (logInvalidContext recording sample).filter Observation.seen = [] := by
  cases recording <;> rfl

/-- An ignored context leaves its count and its line. -/
theorem agree_ignoreContext {s s' : Instrumented limit} (h : Alike s s') (sample sample' : Option Text) (now : Instant) :
    Agree (s.ignoreContext sample now) (s'.ignoreContext sample' now) := by
  have hone : ∀ (s : Instrumented limit) (sample : Option Text), (s.ignoreContext sample now).1.store = s.store ∧
      (s.ignoreContext sample now).1.created = s.created ∧ (s.ignoreContext sample now).1.supplied = s.supplied ∧
      Recorded.Alike s.recorded (s.ignoreContext sample now).1.recorded ∧
      (s.ignoreContext sample now).2.filter Observation.seen = [] := by
    intro s sample
    cases sample with
    | none => exact ⟨rfl, rfl, rfl, ⟨rfl, rfl, rfl⟩, rfl⟩
    | some sample => exact ⟨rfl, rfl, rfl, Recorded.alike_recordInvalidContext _ _ _, seen_logInvalidContext _ _⟩
  obtain ⟨hstore, hcreated, hsupplied, hrecorded, hshown⟩ := hone s sample
  obtain ⟨hstore', hcreated', hsupplied', hrecorded', hshown'⟩ := hone s' sample'
  refine ⟨⟨?_, ?_, ?_, ?_⟩, hshown.trans hshown'.symm⟩
  · rw [hstore, hstore', h.store]
  · rw [hcreated, hcreated', h.created]
  · rw [hsupplied, hsupplied']
    exact h.supplied
  · exact ⟨hrecorded.events.symm.trans (h.recorded.events.trans hrecorded'.events),
      hrecorded.contexts.symm.trans (h.recorded.contexts.trans hrecorded'.contexts),
      hrecorded.collecting.symm.trans (h.recorded.collecting.trans hrecorded'.collecting)⟩

/-- What comes out the same may follow. -/
theorem Agree.show {r r' : Instrumented limit × List Observation} (h : Agree r r') (shown : List Observation) :
    Agree (r.1, r.2 ++ shown) (r'.1, r'.2 ++ shown) :=
  h.andThen (⟨h.state, rfl⟩ : Agree (r.1, shown) (r'.1, shown))

section Step

variable [Unicode] (lib : Library) (metadata : Metadata)

/-- An evaluation sees the context it is evaluated as only. -/
theorem agree_evaluate {s s' : Instrumented limit} (h : Alike s s') (key : Text) (definition : Option (Config PyFloat))
    (default : PyValue) {supplied supplied' : Option SuppliedContext} (hsupplied : AlikeContexts supplied supplied')
    (segments : Segments) (now : Instant) :
    (s.evaluate lib metadata key definition default supplied segments now).1 =
        (s'.evaluate lib metadata key definition default supplied' segments now).1 ∧
      Agree (s.evaluate lib metadata key definition default supplied segments now).2
        (s'.evaluate lib metadata key definition default supplied' segments now).2 := by
  have hignored := agree_ignoreContext h (contextOf supplied).2 (contextOf supplied').2 now
  unfold evaluate
  simp only [← hsupplied.contextOf_eq, ← h.store]
  generalize s.ignoreContext (contextOf supplied).2 now = r at hignored
  generalize s'.ignoreContext (contextOf supplied').2 now = r' at hignored
  cases evaluateFor lib metadata s.store.ready key definition default (contextOf supplied).1 segments with
  | error e => exact ⟨rfl, hignored⟩
  | ok evaluated =>
    refine ⟨rfl, ⟨⟨hignored.state.store, hignored.state.created, hignored.state.supplied, ?_⟩, ?_⟩⟩
    · exact hignored.state.recorded.recordEvaluation _ now
    · exact (hignored.show _).shown

theorem agree_getValue {s s' : Instrumented limit} (h : Alike s s') (key default : PyValue)
    {supplied supplied' : Option SuppliedContext} (hsupplied : AlikeContexts supplied supplied') (now : Instant) :
    Agree (s.getValue lib metadata key default supplied now) (s'.getValue lib metadata key default supplied' now) := by
  unfold getValue
  cases validateConfigKey key with
  | error e => exact ⟨h, rfl⟩
  | ok key =>
    cases validateDefault default with
    | error e => exact ⟨h, rfl⟩
    | ok _ =>
      have hheld : s.store.held key = s'.store.held key := by rw [h.store]
      have hsegments : s.store.segments = s'.store.segments := by rw [h.store]
      obtain ⟨hresult, hagree⟩ := agree_evaluate lib metadata h key (s.store.held key) default
        hsupplied s.store.segments now
      rw [hheld, hsegments] at hresult hagree
      simp only [hheld, hsegments]
      generalize s.evaluate lib metadata key (s'.store.held key) default supplied s'.store.segments now = r
        at hresult hagree
      generalize s'.evaluate lib metadata key (s'.store.held key) default supplied' s'.store.segments now = r'
        at hresult hagree
      obtain ⟨result, r⟩ := r
      obtain ⟨result', r'⟩ := r'
      cases hresult
      cases result with
      | ok value => exact hagree.show _
      | error e => exact hagree.show _

omit [Unicode] in
theorem agree_getAllConfigs {s s' : Instrumented limit} (h : Alike s s') {supplied supplied' : Option SuppliedContext}
    (hsupplied : AlikeContexts supplied supplied') (configKeys : Option (List Text)) (now : Instant) :
    Agree (s.getAllConfigs metadata supplied configKeys now) (s'.getAllConfigs metadata supplied' configKeys now) := by
  have hignored := agree_ignoreContext h (contextOf supplied).2 (contextOf supplied').2 now
  unfold getAllConfigs
  simp only [← hsupplied.contextOf_eq, ← h.store]
  cases s.store.ready with
  | false => exact hignored.show _
  | true =>
    cases s.store.configs with
    | none => exact hignored.show _
    | some configs => exact hignored.show _

theorem agree_notifyWatchers (d : Delivery) (now : Instant) :
    ∀ (calls : List (Text × Watcher)) {s s' : Instrumented limit},
    Alike s s' → Agree (notifyWatchers lib metadata d now s calls) (notifyWatchers lib metadata d now s' calls)
  | [], _, _, h => ⟨h, rfl⟩
  | (key, watcher) :: calls, s, s', h => by
    obtain ⟨hresult, hagree⟩ := agree_evaluate lib metadata h key (d.definitions key) watcher.default
      (h.supplied watcher.ident) d.segments now
    unfold notifyWatchers
    generalize s.evaluate lib metadata key (d.definitions key) watcher.default (s.supplied watcher.ident) d.segments
        now =
      r at hresult hagree
    generalize s'.evaluate lib metadata key (d.definitions key) watcher.default (s'.supplied watcher.ident) d.segments
        now =
      r' at hresult hagree
    obtain ⟨result, r⟩ := r
    obtain ⟨result', r'⟩ := r'
    cases hresult
    cases result with
    | ok value =>
      exact (hagree.show [.passed key watcher.ident value]).andThen (agree_notifyWatchers d now calls hagree.state)
    | error e => exact (hagree.show [.raised key watcher.ident]).andThen (agree_notifyWatchers d now calls hagree.state)

/-- Alike calls on alike clients. -/
theorem agree_step (s s' : Instrumented limit) (call call' : ClientCall) (h : Alike s s') (hcall : AlikeCalls call call') :
    Agree (s.step lib metadata call) (s'.step lib metadata call') := by
  cases hcall with
  | getValue key default now hcontext => exact agree_getValue lib metadata h key default hcontext now
  | getAllConfigs configKeys now hcontext => exact agree_getAllConfigs metadata h hcontext configKeys now
  | watch key handler default hcontext =>
    refine ⟨⟨?_, ?_, fun ident => ?_, h.recorded⟩, rfl⟩
    · show s.store.watch key ⟨s.created, handler, default, none⟩ = s'.store.watch key ⟨s'.created, handler, default, none⟩
      rw [h.store, h.created]
    · exact congrArg (· + 1) h.created
    · show AlikeContexts (if ident = s.created then _ else s.supplied ident)
        (if ident = s'.created then _ else s'.supplied ident)
      rw [← h.created]
      split
      · exact hcontext
      · exact h.supplied ident
  | bundle bundle now =>
    simp only [step, ← h.store]
    cases s.store.onBundle bundle with
    | none => exact ⟨h, rfl⟩
    | some p => exact agree_notifyWatchers lib metadata p.2 now p.2.calls ⟨rfl, h.created, h.supplied, h.recorded⟩
  | perform op => exact ⟨⟨congrArg (ClientState.perform · op) h.store, h.created, h.supplied, h.recorded⟩, rfl⟩

/-- A context of an invalid kind leaves no trace beyond its kind: over any calls from any state of the client, with
any other ignored contexts in the place of those ignored or with none, the same is returned, emitted and passed to
watchers, and the collector records the same evaluations and contexts. -/
theorem invalid_kind_leaves_no_trace (calls calls' : List ClientCall) (hcalls : List.Forall₂ AlikeCalls calls calls')
    (s s' : Instrumented limit) (h : Alike s s') :
    Agree (Unwinding.execute (step lib metadata) s calls) (Unwinding.execute (step lib metadata) s' calls') :=
  Unwinding.execute_agree (agree_step lib metadata) hcalls h

end Step

/-- A client that has just been built, and its collector. -/
def init (limit : ℕ) (handlers : ClientEvent → List ℕ) : Instrumented limit where
  store := .init handlers
  created := 0
  supplied := fun _ => none
  recorded := ⟨.empty, .empty, .empty, .empty, true⟩

/-- A context with an identifier and the kind `user!`. -/
def misspelt : SuppliedContext where
  id := some (lit "u-1")
  name := some (lit "Ada")
  traits := none
  anonymous := false
  kind := .str (lit "user!")

/-- A flag that half of the contexts get. -/
def halfFlag : Config PyFloat where
  id := lit "1"
  key := lit "flag"
  type := .str (lit "boolean")
  target :=
    { defaultValue := lit "false"
      rules := [.percentage
        { id := lit "r"
          order := none
          percentages := [⟨lit "p", .ofRat 50, some (.str (lit "true")), none⟩] }]
      defaultValueId := none }
  variations := []
  typeConstraints := none

def halfBundle : ConfigBundle := { ConfigBundle.empty with configs := Dict.empty.set (lit "flag") halfFlag }

/-- It is watched and asked for with a context of the kind `user!` in one run, and with none in the other. -/
theorem misspelt_leaves_no_trace :
    let _ : Unicode := .ascii
    Agree
      (Unwinding.execute (step .refusing .empty) (init 100 fun _ => [])
        [.watch (lit "flag") 0 (.bool true) (some misspelt), .bundle halfBundle 0,
          .getValue (.str (lit "flag")) (.bool true) (some misspelt) 1])
      (Unwinding.execute (step .refusing .empty) (init 100 fun _ => [])
        [.watch (lit "flag") 0 (.bool true) none, .bundle halfBundle 0,
          .getValue (.str (lit "flag")) (.bool true) none 1]) := by
  intro unicode
  have hcontexts : AlikeContexts (some misspelt) none := by
    refine .inr ⟨fun c hc => ?_, fun c hc => by cases hc⟩
    cases hc
    show isValidKind (lit "user!") = false
    decide
  exact invalid_kind_leaves_no_trace .refusing .empty _ _
    (.cons (.watch _ _ _ hcontexts) (.cons (.bundle _ _) (.cons (.getValue _ _ _ hcontexts) .nil))) _ _
    ⟨rfl, rfl, fun _ => .inl rfl, ⟨rfl, rfl, rfl⟩⟩

end Instrumented

end ConfigDirector.Client
