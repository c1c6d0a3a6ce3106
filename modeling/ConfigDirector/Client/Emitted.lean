/-
What a client tells of its evaluations. Whatever calls it gets while it is open, each value it returns or passes to
a watcher is told to the handlers of `config_evaluated` first, and what they are told is what the collector records.
-/
import ConfigDirector.Client.InvalidKinds
import ConfigDirector.Client.Once

namespace ConfigDirector.Client

open Python Evaluation Telemetry

/-! ## What is told -/

/-- The evaluation the handlers are told of. -/
def Observation.emitted? : Observation → Option ConfigEvaluation
  | .emitted evaluation => some evaluation
  | _ => none

/-- The value that a caller or a watcher gets. -/
def Observation.given? : Observation → Option PyValue
  | .returned (.ok value) => some value
  | .passed _ _ value => some value
  | _ => none

/-- The event and the recording say the same of an evaluation. -/
structure SaysSame (e : ConfigEvaluation) (r : Recording) : Prop where
  key : r.key = e.key
  value : r.value = e.value
  usedDefault : r.usedDefault = e.isDefault
  reason : r.reason = e.reason
  valueId : r.valueId = e.valueId
  context : r.context = e.context

/-- The telemetry event of an evaluation. -/
def ReportedAs [Unicode] (e : ConfigEvaluation) (event : EvaluatedConfigEvent) : Prop :=
  ∃ r : Recording, SaysSame e r ∧ event = r.event

/-- Nothing closes the client, and bundles and watchers come by calls of their own. -/
def ClientCall.Plain : ClientCall → Prop
  | .perform (.bundle _) | .perform (.watch _ _) | .perform .close => False
  | _ => True

namespace Instrumented

variable {limit : ℕ} [Unicode]

/-- Between two states all evaluations were recorded that were told of, and told of all that were given. -/
structure Reports (s s' : Instrumented limit) (shown : List Observation) : Prop where
  recorded : ∀ pushed, s.recorded.events.Holds pushed → s.recorded.collecting = true → ∃ more,
    s'.recorded.events.Holds (pushed ++ more) ∧ List.Forall₂ ReportedAs (shown.filterMap Observation.emitted?) more
  collecting : s'.recorded.collecting = s.recorded.collecting
  closed : s'.store.closed = s.store.closed
  given : shown.filterMap Observation.given? = (shown.filterMap Observation.emitted?).map ConfigEvaluation.value

/-! ## Steps -/

theorem Reports.trans {s s' s'' : Instrumented limit} {shown shown' : List Observation} (h : Reports s s' shown)
    (h' : Reports s' s'' shown') : Reports s s'' (shown ++ shown') := by
  refine ⟨fun pushed hpushed hcollecting => ?_, h'.collecting.trans h.collecting,
    h'.closed.trans h.closed, ?_⟩
  · obtain ⟨more, hmore, hreported⟩ := h.recorded pushed hpushed hcollecting
    obtain ⟨more', hmore', hreported'⟩ := h'.recorded _ hmore (h.collecting.trans hcollecting)
    refine ⟨more ++ more', by rw [← List.append_assoc]; exact hmore', ?_⟩
    rw [List.filterMap_append]
    exact List.rel_append hreported hreported'
  · rw [List.filterMap_append, List.filterMap_append, List.map_append, h.given, h'.given]

/-- Nothing is recorded, and nothing told or given. -/
theorem reports_silent {s s' : Instrumented limit} {shown : List Observation}
    (hevents : s'.recorded.events = s.recorded.events) (hcollecting : s'.recorded.collecting = s.recorded.collecting)
    (hclosed : s'.store.closed = s.store.closed)
    (hsilent : ∀ o ∈ shown, o.emitted? = none ∧ o.given? = none) : Reports s s' shown := by
  have hemitted : shown.filterMap Observation.emitted? = [] :=
    List.filterMap_eq_nil_iff.2 fun o ho => (hsilent o ho).1
  have hgiven : shown.filterMap Observation.given? = [] := List.filterMap_eq_nil_iff.2 fun o ho => (hsilent o ho).2
  refine ⟨fun pushed hpushed _ => ⟨[], ?_, ?_⟩, hcollecting, hclosed, ?_⟩
  · rw [hevents, List.append_nil]
    exact hpushed
  · rw [hemitted]
    exact .nil
  · rw [hemitted, hgiven]
    rfl

theorem reports_nil (s : Instrumented limit) : Reports s s [] :=
  reports_silent rfl rfl rfl fun _ ho => absurd ho List.not_mem_nil

theorem reports_one (s : Instrumented limit) {o : Observation} (h : o.emitted? = none ∧ o.given? = none) :
    Reports s s [o] := by
  refine reports_silent rfl rfl rfl fun o' ho' => ?_
  rw [List.mem_singleton.1 ho']
  exact h

omit [Unicode] in
theorem silent_logInvalidContext (recording : InvalidContextRecording) (sample : Text) :
    ∀ o ∈ logInvalidContext recording sample, o.emitted? = none ∧ o.given? = none := by
  intro o ho
  cases recording with
  | newKindSample =>
    rw [List.mem_singleton.1 ho]
    exact ⟨rfl, rfl⟩
  | firstBeyondSampleLimit =>
    rw [List.mem_singleton.1 ho]
    exact ⟨rfl, rfl⟩
  | knownKindSample => exact absurd ho List.not_mem_nil
  | beyondSampleLimit => exact absurd ho List.not_mem_nil

theorem reports_ignoreContext (s : Instrumented limit) (sample : Option Text) (now : Instant) :
    Reports s (s.ignoreContext sample now).1 (s.ignoreContext sample now).2 := by
  cases sample with
  | none => exact reports_nil s
  | some sample =>
    have halike := Recorded.alike_recordInvalidContext s.recorded sample now
    exact reports_silent halike.events.symm halike.collecting.symm rfl (silent_logInvalidContext _ sample)

/-- A recording is pushed, and the same is told and given. -/
theorem reports_recordEvaluation (s : Instrumented limit) {e : ConfigEvaluation} {r : Recording} (h : SaysSame e r)
    (now : Instant) {given : Observation} (hemitted : given.emitted? = none) (hgiven : given.given? = some e.value) :
    Reports s { s with recorded := s.recorded.recordEvaluation r now } [.emitted e, given] := by
  have htold : (Observation.emitted e).emitted? = some e ∧ (Observation.emitted e).given? = none := ⟨rfl, rfl⟩
  have hemittedAll : [Observation.emitted e, given].filterMap Observation.emitted? = [e] := by
    rw [List.filterMap_cons_some htold.1, List.filterMap_cons_none hemitted, List.filterMap_nil]
  have hgivenAll : [Observation.emitted e, given].filterMap Observation.given? = [e.value] := by
    rw [List.filterMap_cons_none htold.2, List.filterMap_cons_some hgiven, List.filterMap_nil]
  refine ⟨fun pushed hpushed hcollecting => ⟨[r.event], ?_, ?_⟩, ?_, rfl, ?_⟩
  · show (s.recorded.recordEvaluation r now).events.Holds _
    unfold Recorded.recordEvaluation
    rw [if_pos hcollecting]
    exact hpushed.push r.event now
  · rw [hemittedAll]
    exact .cons ⟨r, h, rfl⟩ .nil
  · show (s.recorded.recordEvaluation r now).collecting = _
    unfold Recorded.recordEvaluation
    split <;> rfl
  · rw [hemittedAll, hgivenAll]
    rfl

section Step

variable (lib : Library) (metadata : Metadata)

omit [Unicode] in
theorem evaluated_saysSame (key : Text) (default : PyValue) (result : ParseResult) (configType : PyValue)
    (valueId : Text) (supplied : Option Context) :
    SaysSame (evaluated key default result configType valueId supplied).evaluation
      (evaluated key default result configType valueId supplied).recording ∧
    (evaluated key default result configType valueId supplied).evaluation.value =
      (evaluated key default result configType valueId supplied).value :=
  ⟨⟨rfl, rfl, rfl, rfl, rfl, rfl⟩, rfl⟩

/-- What is told of an evaluation is what is recorded of it, and its value is the one that is returned. -/
theorem evaluateFor_saysSame {ready : Bool} {key : Text} {definition : Option (Config PyFloat)} {default : PyValue}
    {supplied : Option Context} {segments : Segments} {e : Evaluated}
    (h : evaluateFor lib metadata ready key definition default supplied segments = .ok e) :
    SaysSame e.evaluation e.recording ∧ e.evaluation.value = e.value := by
  cases definition with
  | none =>
    obtain ⟨id, -, he⟩ := bind_eq_ok_iff.1 h
    cases he
    exact evaluated_saysSame ..
  | some definition =>
    obtain ⟨result, -, h⟩ := bind_eq_ok_iff.1 h
    obtain ⟨id, -, he⟩ := bind_eq_ok_iff.1 h
    cases he
    exact evaluated_saysSame ..

/-- An evaluation, and then what its caller makes of its value or of what it raises. -/
theorem reports_evaluate (s : Instrumented limit) (key : Text) (definition : Option (Config PyFloat))
    (default : PyValue) (supplied : Option SuppliedContext) (segments : Segments) (now : Instant)
    (give : PyValue → Observation) (fail : Exc → Observation)
    (hgive : ∀ v, (give v).emitted? = none ∧ (give v).given? = some v)
    (hfail : ∀ e, (fail e).emitted? = none ∧ (fail e).given? = none) :
    (∀ v s' shown, s.evaluate lib metadata key definition default supplied segments now = (.ok v, s', shown) →
      Reports s s' (shown ++ [give v])) ∧
    ∀ e s' shown, s.evaluate lib metadata key definition default supplied segments now = (.error e, s', shown) →
      Reports s s' (shown ++ [fail e]) := by
  have hignored := reports_ignoreContext s (contextOf supplied).2 now
  unfold evaluate
  generalize s.ignoreContext (contextOf supplied).2 now = ignored at hignored
  obtain ⟨s₁, shown₁⟩ := ignored
  dsimp only
  cases hevaluate : evaluateFor lib metadata s.store.ready key definition default (contextOf supplied).1 segments with
  | error e =>
    refine ⟨fun v s' shown h => (by cases h), fun e' s' shown h => ?_⟩
    cases h
    -- `_evaluate` raised before it recorded or emitted anything
    exact hignored.trans (reports_one s₁ (hfail e))
  | ok evaluated =>
    refine ⟨fun v s' shown h => ?_, fun e' s' shown h => (by cases h)⟩
    cases h
    obtain ⟨hsame, hvalue⟩ := evaluateFor_saysSame lib metadata hevaluate
    rw [List.append_assoc]
    refine hignored.trans (reports_recordEvaluation s₁ hsame now (hgive evaluated.value).1 ?_)
    rw [hvalue]
    exact (hgive evaluated.value).2

theorem reports_getValue (s : Instrumented limit) (key default : PyValue) (supplied : Option SuppliedContext)
    (now : Instant) : Reports s (s.getValue lib metadata key default supplied now).1
      (s.getValue lib metadata key default supplied now).2 := by
  have hrefused : ∀ e : ClientError, Reports s s [.returned (.error e)] := fun e => reports_one s ⟨rfl, rfl⟩
  unfold getValue
  cases validateConfigKey key with
  | error e => exact hrefused e
  | ok key =>
    cases validateDefault default with
    | error e => exact hrefused e
    | ok _ =>
      have hevaluate := reports_evaluate lib metadata s key (s.store.held key) default supplied s.store.segments now
        (fun v => .returned (.ok v)) (fun e => .returned (.error (.raised e))) (fun v => ⟨rfl, rfl⟩)
        (fun e => ⟨rfl, rfl⟩)
      dsimp only
      generalize s.evaluate lib metadata key (s.store.held key) default supplied s.store.segments now = outcome
        at hevaluate
      obtain ⟨result, s', shown⟩ := outcome
      cases result with
      | ok v => exact hevaluate.1 v s' shown rfl
      | error e => exact hevaluate.2 e s' shown rfl

theorem reports_notifyWatchers (d : Delivery) (now : Instant) :
    ∀ (calls : List (Text × Watcher)) (s : Instrumented limit), Reports s (notifyWatchers lib metadata d now s calls).1
      (notifyWatchers lib metadata d now s calls).2
  | [], s => reports_nil s
  | (key, watcher) :: calls, s => by
    have hevaluate := reports_evaluate lib metadata s key (d.definitions key) watcher.default (s.supplied watcher.ident)
      d.segments now (fun v => .passed key watcher.ident v) (fun _ => .raised key watcher.ident)
      (fun v => ⟨rfl, rfl⟩) (fun e => ⟨rfl, rfl⟩)
    rw [notifyWatchers]
    generalize s.evaluate lib metadata key (d.definitions key) watcher.default (s.supplied watcher.ident) d.segments
      now = outcome at hevaluate
    obtain ⟨result, s', shown⟩ := outcome
    cases result with
    | ok v => exact (hevaluate.1 v s' shown rfl).trans (reports_notifyWatchers d now calls s')
    | error e => exact (hevaluate.2 e s' shown rfl).trans (reports_notifyWatchers d now calls s')

omit [Unicode] in
theorem closed_perform (s : ClientState) {op : ClientOp} (h : (ClientCall.perform op).Plain) :
    (s.perform op).closed = s.closed := by
  have hbundle : ∀ bundle, op ≠ .bundle bundle := by
    rintro bundle rfl
    exact h
  have hclose : op ≠ .close := by
    rintro rfl
    exact h
  exact (s.kept_perform hbundle hclose).1

theorem reports_step (s : Instrumented limit) {call : ClientCall} (hplain : call.Plain) :
    Reports s (s.step lib metadata call).1 (s.step lib metadata call).2 := by
  have hnone : ∀ {s' : Instrumented limit}, s'.recorded = s.recorded → s'.store.closed = s.store.closed →
      Reports s s' [] := fun h hclosed =>
    reports_silent (congrArg _ h) (congrArg _ h) hclosed fun _ ho => absurd ho List.not_mem_nil
  cases call with
  | getValue key default context now => exact reports_getValue lib metadata s key default context now
  | getAllConfigs context configKeys now =>
    have hlisted : ∀ states, Reports (s.ignoreContext (contextOf context).2 now).1
        (s.ignoreContext (contextOf context).2 now).1 [.configs states] := fun states => reports_one _ ⟨rfl, rfl⟩
    show Reports s (s.getAllConfigs metadata context configKeys now).1
      (s.getAllConfigs metadata context configKeys now).2
    unfold getAllConfigs
    have hignored := reports_ignoreContext s (contextOf context).2 now
    dsimp only
    split <;> exact hignored.trans (hlisted _)
  | watch key handler default context => exact hnone rfl rfl
  | bundle bundle now =>
    simp only [step]
    cases hbundle : s.store.onBundle bundle with
    | none => exact reports_nil s
    | some p =>
      have hclosed : p.1.closed = s.store.closed := by
        unfold ClientState.onBundle at hbundle
        split at hbundle
        · cases hbundle
        · cases hbundle
          rfl
      -- storing the bundle is silent; what is told comes from the watchers
      have hstored : Reports s { s with store := p.1 } [] := hnone rfl hclosed
      exact hstored.trans (reports_notifyWatchers lib metadata p.2 now p.2.calls _)
  | perform op => exact hnone rfl (closed_perform s.store hplain)

/-! ## Runs -/

theorem reports_execute : ∀ (calls : List ClientCall) (s : Instrumented limit), (∀ call ∈ calls, call.Plain) →
    Reports s (Unwinding.execute (step lib metadata) s calls).1 (Unwinding.execute (step lib metadata) s calls).2
  | [], s, _ => reports_nil s
  | call :: calls, s, hplain => by
    rw [List.forall_mem_cons] at hplain
    exact (reports_step lib metadata s hplain.1).trans (reports_execute calls _ hplain.2)

/-- In every run of an open client the values that callers and watchers get are those the handlers of
`config_evaluated` are told of, one by one and in order, and telemetry has recorded the same evaluations: it holds the
newest and counts the rest. -/
theorem emitted_as_recorded (handlers : ClientEvent → List ℕ) {calls : List ClientCall}
    (hplain : ∀ call ∈ calls, call.Plain) :
    let after := Unwinding.execute (step lib metadata) (init limit handlers) calls
    after.1.store.closed = false ∧
      after.2.filterMap Observation.given? = (after.2.filterMap Observation.emitted?).map ConfigEvaluation.value ∧
      ∃ recorded, List.Forall₂ ReportedAs (after.2.filterMap Observation.emitted?) recorded ∧
        after.1.recorded.events.Holds recorded := by
  intro after
  have hreports := reports_execute lib metadata calls (init limit handlers) hplain
  obtain ⟨recorded, hholds, hreported⟩ := hreports.recorded [] EventQueue.holds_empty rfl
  exact ⟨hreports.closed, hreports.given, recorded, hreported, hholds⟩

end Step

/-- A watcher, a bundle with the config it watches, and a call with a context that is ignored. -/
def watchedCalls : List ClientCall :=
  [.watch (lit "flag") 0 (.bool true) none, .bundle halfBundle 0, .perform (.on .configEvaluated 1),
    .getValue (.str (lit "flag")) (.bool true) (some misspelt) 1]

omit [Unicode] in
theorem emitted_as_recorded_watched : ∃ _ : Unicode,
    let after := Unwinding.execute (step .refusing .empty) (init 100 fun _ => []) watchedCalls
    after.1.store.closed = false ∧
      after.2.filterMap Observation.given? = (after.2.filterMap Observation.emitted?).map ConfigEvaluation.value ∧
      ∃ recorded, List.Forall₂ ReportedAs (after.2.filterMap Observation.emitted?) recorded ∧
        after.1.recorded.events.Holds recorded :=
  ⟨.ascii, @emitted_as_recorded 100 .ascii .refusing .empty _ watchedCalls (by
    simp only [watchedCalls, List.forall_mem_cons]
    exact ⟨trivial, trivial, trivial, trivial, fun call hcall => absurd hcall List.not_mem_nil⟩)⟩

end Instrumented

end ConfigDirector.Client
