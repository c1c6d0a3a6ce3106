/-
The start of the OpenFeature provider. `initialize` fails when no config has arrived in time, OpenFeature records
the failure, and a late config is announced by the readiness check or by the `client_ready` callback, whichever
finds that both the failure and the config are there.
-/
import ConfigDirector.Client.Store
import ConfigDirector.Machine.Rendezvous

namespace ConfigDirector.OpenFeature

open Client

/-! ## Model -/

/-- `_Startup`. -/
inductive Startup
  | initializing
  | awaitingRecordedFailure
  | awaitingConfig
  | ready
deriving DecidableEq

/-- Where `initialize` is. -/
inductive Initialization
  /-- In `_client.initialize()`. -/
  | connecting
  /-- Before its locked section. -/
  | connected
  | returned
  | raised
deriving DecidableEq

/-- Where a call of `_report_ready_if_config_arrived` is. -/
inductive Report
  /-- Before its locked section. -/
  | checking
  /-- Before `emit_provider_ready`. -/
  | announcing
  | finished
deriving DecidableEq

/-- Where `_report_ready_once_the_failure_is_recorded` is. -/
inductive ReadinessCheck
  | polling
  /-- It has observed the status `ERROR`. -/
  | observed
  | reporting (report : Report)
deriving DecidableEq

/-- The provider, with the threads that run its methods. -/
structure Provider where
  client : ClientState
  startup : Startup
  initialization : Initialization
  readinessCheck : Option ReadinessCheck
  /-- The calls of `_on_client_ready`, from the bundle that makes the client ready on. -/
  callbacks : List Report
  /-- OpenFeature has recorded the status `ERROR`. -/
  failureRecorded : Bool
  /-- How often `emit_provider_ready` has been called. -/
  readyEvents : ℕ

/-- The next step of one of the threads. -/
inductive ProviderStep
  /-- `_client.initialize()` returns, or raises. -/
  | connect (raises : Bool)
  /-- The locked section of `initialize`. -/
  | decide
  | recordFailure
  /-- The readiness check looks at the status. -/
  | poll
  /-- Its locked change. -/
  | awaitConfig
  /-- Its locked check. -/
  | check
  /-- It announces. -/
  | announce
  /-- The locked section of the client's `_on_bundle`. -/
  | bundle (bundle : ConfigBundle)
  /-- The locked check of a callback. -/
  | callbackCheck (i : ℕ)
  | callbackAnnounce (i : ℕ)

/-- The provider's own handlers, as the client tells them apart. -/
def onClientReady : ℕ := 0
def onConfigsUpdated : ℕ := 1
def onConfigEvaluated : ℕ := 2

/-- The hooks of the client. -/
def hooks : ClientEvent → List ℕ
  | .clientReady => [onClientReady]
  | .configsUpdated => [onConfigsUpdated]
  | .configEvaluated => [onConfigEvaluated]

/-- The locked section of `_report_ready_if_config_arrived`. -/
def reportReadyIfConfigArrived (startup : Startup) (clientReady : Bool) : Startup × Report :=
  if startup ≠ .awaitingConfig ∨ clientReady = false then (startup, .finished) else (.ready, .announcing)

namespace Provider

def init : Provider where
  client := .init hooks
  startup := .initializing
  initialization := .connecting
  readinessCheck := none
  callbacks := []
  failureRecorded := false
  readyEvents := 0

def step (s : Provider) : ProviderStep → Option Provider
  | .connect raises =>
    if s.initialization = .connecting then some { s with initialization := if raises then .raised else .connected } else none
  | .decide =>
    if s.initialization = .connected then
      if s.client.ready then some { s with initialization := .returned, startup := .ready }
      else some { s with
        initialization := .raised
        startup := .awaitingRecordedFailure
        readinessCheck := some .polling }
    else none
  | .recordFailure => if s.initialization = .raised then some { s with failureRecorded := true } else none
  | .poll =>
    if s.readinessCheck = some .polling then
      if s.failureRecorded then some { s with readinessCheck := some .observed } else some s
    else none
  | .awaitConfig =>
    if s.readinessCheck = some .observed then
      some { s with startup := .awaitingConfig, readinessCheck := some (.reporting .checking) }
    else none
  | .check =>
    if s.readinessCheck = some (.reporting .checking) then
      let checked := reportReadyIfConfigArrived s.startup s.client.ready
      some { s with startup := checked.1, readinessCheck := some (.reporting checked.2) }
    else none
  | .announce =>
    if s.readinessCheck = some (.reporting .announcing) then
      some { s with readinessCheck := some (.reporting .finished), readyEvents := s.readyEvents + 1 }
    else none
  | .bundle bundle =>
    match s.client.onBundle bundle with
    | some (client, delivery) =>
      -- `_emit("client_ready")` at the end of the first delivery; nobody takes a hook off the provider's client.
      let called := if delivery.firstBundle then (client.handlers .clientReady).filter (· = onClientReady) else []
      some { s with client, callbacks := s.callbacks ++ called.map fun _ => .checking }
    | none => some s
  | .callbackCheck i =>
    if s.callbacks[i]? = some .checking then
      let checked := reportReadyIfConfigArrived s.startup s.client.ready
      some { s with startup := checked.1, callbacks := s.callbacks.set i checked.2 }
    else none
  | .callbackAnnounce i =>
    if s.callbacks[i]? = some .announcing then
      some { s with callbacks := s.callbacks.set i .finished, readyEvents := s.readyEvents + 1 }
    else none

/-- The readiness check has observed the status `ERROR`. -/
def ErrorObserved (s : Provider) : Prop := s.readinessCheck.isSome ∧ s.readinessCheck ≠ some .polling

/-- The readiness check and the callbacks have finished. -/
def Finished (s : Provider) : Prop :=
  s.readinessCheck = some (.reporting .finished) ∧ ∀ c ∈ s.callbacks, c = .finished

end Provider

/-! ## The meeting of the failure and the config -/

/-- What must be there before the provider is announced. -/
inductive Party
  | failure
  | config
deriving DecidableEq

instance : Fintype Party where
  elems := {.failure, .config}
  complete party := by cases party <;> decide

namespace Provider

/-- Calls of `emit_provider_ready`, made and about to be made. -/
def announcements (s : Provider) : ℕ :=
  s.readyEvents + s.callbacks.count .announcing + if s.readinessCheck = some (.reporting .announcing) then 1 else 0

/-- The readiness check brings the failure to the meeting and the client's first bundle the config; each checks. -/
def meeting (s : Provider) : Rendezvous Party where
  arrived
    | .failure => match s.readinessCheck with
      | some (.reporting _) => true
      | _ => false
    | .config => s.client.ready
  checking
    | .failure => s.readinessCheck = some (.reporting .checking)
    | .config => s.callbacks.contains .checking
  claims := s.announcements

/-- How far `initialize`, the readiness check, the startup and the announcements are from one another. -/
inductive Stage : Initialization → Option ReadinessCheck → Startup → ℕ → Prop
  | connecting : Stage .connecting none .initializing 0
  | connected : Stage .connected none .initializing 0
  | refused : Stage .raised none .initializing 0
  | returned : Stage .returned none .ready 0
  | polling : Stage .raised (some .polling) .awaitingRecordedFailure 0
  | observed : Stage .raised (some .observed) .awaitingRecordedFailure 0
  | awaiting (report : Report) : Stage .raised (some (.reporting report)) .awaitingConfig 0
  | announced (report : Report) : Stage .raised (some (.reporting report)) .ready 1

/-- What holds in every state. -/
structure Inv (s : Provider) : Prop where
  stage : Stage s.initialization s.readinessCheck s.startup s.announcements
  opened : s.client.closed = false
  hooked : s.client.handlers .clientReady = [onClientReady]
  called : (s.client.ready = false ∧ s.callbacks = []) ∨ s.client.ready = true ∧ ∃ c, s.callbacks = [c]

theorem inv_init : Inv init := ⟨.connecting, rfl, rfl, .inl ⟨rfl, rfl⟩⟩

namespace Stage

variable {i : Initialization} {check : Option ReadinessCheck} {startup : Startup} {n : ℕ}

theorem of_connecting (h : Stage .connecting check startup n) : check = none ∧ startup = .initializing ∧ n = 0 := by
  cases h
  exact ⟨rfl, rfl, rfl⟩

theorem of_connected (h : Stage .connected check startup n) : check = none ∧ startup = .initializing ∧ n = 0 := by
  cases h
  exact ⟨rfl, rfl, rfl⟩

theorem of_returned (h : Stage .returned check startup n) : check = none ∧ n = 0 := by
  cases h
  exact ⟨rfl, rfl⟩

theorem of_polling (h : Stage i (some .polling) startup n) :
    i = .raised ∧ startup = .awaitingRecordedFailure ∧ n = 0 := by
  cases h
  exact ⟨rfl, rfl, rfl⟩

theorem of_observed (h : Stage i (some .observed) startup n) :
    i = .raised ∧ startup = .awaitingRecordedFailure ∧ n = 0 := by
  cases h
  exact ⟨rfl, rfl, rfl⟩

theorem of_reporting {report : Report} (h : Stage i (some (.reporting report)) startup n) : i = .raised := by
  cases h <;> rfl

/-- Another report of the readiness check leaves the rest in place. -/
theorem setReport {report : Report} (h : Stage i (some (.reporting report)) startup n) (report' : Report) :
    Stage i (some (.reporting report')) startup n := by
  cases h with
  | awaiting => exact .awaiting report'
  | announced => exact .announced report'

/-- The startup says whether a check will announce. -/
theorem awaiting_iff (h : Stage i check startup n) :
    startup = .awaitingConfig ↔ (∃ report, check = some (.reporting report)) ∧ n = 0 := by
  cases h <;> simp

end Stage

/-- Two states of a meeting, party by party. -/
theorem meeting_ext {r r' : Rendezvous Party} (hfailure : r.arrived .failure = r'.arrived .failure)
    (hconfig : r.arrived .config = r'.arrived .config) (hcheckFailure : r.checking .failure = r'.checking .failure)
    (hcheckConfig : r.checking .config = r'.checking .config) (hclaims : r.claims = r'.claims) : r = r' := by
  refine Rendezvous.ext (funext fun party => ?_) (funext fun party => ?_) hclaims
  · cases party with
    | failure => exact hfailure
    | config => exact hconfig
  · cases party with
    | failure => exact hcheckFailure
    | config => exact hcheckConfig

theorem checking_failure (s : Provider) :
    s.meeting.checking .failure = decide (s.readinessCheck = some (.reporting .checking)) := rfl

theorem checking_config (s : Provider) : s.meeting.checking .config = s.callbacks.contains .checking := rfl

theorem arrived_config (s : Provider) : s.meeting.arrived .config = s.client.ready := rfl

theorem arrived_failure_iff (s : Provider) :
    s.meeting.arrived .failure = true ↔ ∃ report, s.readinessCheck = some (.reporting report) := by
  show (match s.readinessCheck with
    | some (.reporting _) => true
    | _ => false) = true ↔ _
  rcases s.readinessCheck with _ | _ | _ | report <;> simp

/-- A check announces when all have arrived at the meeting and nobody has claimed it. -/
theorem Inv.reportReadyIfConfigArrived_eq {s : Provider} (h : Inv s) :
    reportReadyIfConfigArrived s.startup s.client.ready =
    if (∀ party, s.meeting.arrived party) ∧ s.meeting.claims = 0 then (.ready, .announcing)
      else (s.startup, .finished) := by
  have hall : (∀ party, s.meeting.arrived party) ∧ s.meeting.claims = 0 ↔
      ¬ (s.startup ≠ .awaitingConfig ∨ s.client.ready = false) := by
    rw [not_or, not_not, Bool.not_eq_false, h.stage.awaiting_iff, ← arrived_failure_iff]
    constructor
    · exact fun ⟨harrived, hclaims⟩ => ⟨⟨harrived .failure, hclaims⟩, harrived .config⟩
    · rintro ⟨⟨hfailure, hclaims⟩, hconfig⟩
      refine ⟨fun party => ?_, hclaims⟩
      cases party with
      | failure => exact hfailure
      | config => exact hconfig
  unfold reportReadyIfConfigArrived
  by_cases hmissing : s.startup ≠ .awaitingConfig ∨ s.client.ready = false
  · rw [if_pos hmissing, if_neg (fun h => hall.1 h hmissing)]
  · rw [if_neg hmissing, if_pos (hall.2 hmissing)]

/-- The meeting knows the readiness check by its report only. -/
theorem meeting_congr {s s' : Provider} (hclient : s'.client = s.client) (hcallbacks : s'.callbacks = s.callbacks)
    (hevents : s'.readyEvents = s.readyEvents)
    (hcheck : ∀ report, s'.readinessCheck = some (.reporting report) ↔ s.readinessCheck = some (.reporting report)) :
    s'.meeting = s.meeting := by
  have hclaims : s'.announcements = s.announcements := by
    unfold announcements
    simp only [hcallbacks, hevents, hcheck]
  refine meeting_ext ?_ (congrArg ClientState.ready hclient) (decide_eq_decide.2 (hcheck .checking)) ?_ hclaims
  · rw [Bool.eq_iff_iff, arrived_failure_iff, arrived_failure_iff, exists_congr hcheck]
  · rw [checking_config, checking_config, hcallbacks]

/-- A step keeps the invariant, and is a step of the meeting or none. -/
def Meets (s s' : Provider) : Prop := Inv s' ∧ (s'.meeting = s.meeting ∨ ∃ e, s.meeting.step e = some s'.meeting)

/-- A step that touches neither the client nor a report. -/
theorem Inv.meets_of_congr {s s' : Provider} (h : Inv s) (hclient : s'.client = s.client)
    (hcallbacks : s'.callbacks = s.callbacks)
    (hevents : s'.readyEvents = s.readyEvents)
    (hcheck : ∀ report, s'.readinessCheck = some (.reporting report) ↔ s.readinessCheck = some (.reporting report))
    (hstage : Stage s'.initialization s'.readinessCheck s'.startup s.announcements) : Meets s s' := by
  have hmeeting := meeting_congr hclient hcallbacks hevents hcheck
  refine ⟨⟨?_, ?_, ?_, ?_⟩, .inl hmeeting⟩
  · rw [show s'.announcements = s.announcements from congrArg Rendezvous.claims hmeeting]
    exact hstage
  · rw [hclient]
    exact h.opened
  · rw [hclient]
    exact h.hooked
  · rw [hclient, hcallbacks]
    exact h.called

theorem meets_connect {s s' : Provider} {raises : Bool} (h : Inv s) (hs : s.step (.connect raises) = some s') :
    Meets s s' := by
  simp only [step, Option.ite_none_right_eq_some, Option.some.injEq] at hs
  obtain ⟨hconnecting, rfl⟩ := hs
  obtain ⟨hcheck, hstartup, hzero⟩ := (hconnecting ▸ h.stage).of_connecting
  refine h.meets_of_congr rfl rfl rfl (fun _ => Iff.rfl) ?_
  rw [hcheck, hstartup, hzero]
  cases raises with
  | false => exact .connected
  | true => exact .refused

theorem meets_decide {s s' : Provider} (h : Inv s) (hs : s.step .decide = some s') : Meets s s' := by
  simp only [step, Option.ite_none_right_eq_some] at hs
  obtain ⟨hconnected, hs⟩ := hs
  obtain ⟨hcheck, -, hzero⟩ := (hconnected ▸ h.stage).of_connected
  by_cases hready : s.client.ready = true
  · rw [if_pos hready] at hs
    cases hs
    refine h.meets_of_congr rfl rfl rfl (fun _ => Iff.rfl) ?_
    rw [hcheck, hzero]
    exact .returned
  · rw [if_neg hready] at hs
    cases hs
    refine h.meets_of_congr rfl rfl rfl (fun report => ?_) ?_
    · simp only [hcheck, Option.some.injEq, reduceCtorEq]
    · rw [hzero]
      exact .polling

theorem meets_recordFailure {s s' : Provider} (h : Inv s) (hs : s.step .recordFailure = some s') : Meets s s' := by
  simp only [step, Option.ite_none_right_eq_some, Option.some.injEq] at hs
  obtain ⟨-, rfl⟩ := hs
  exact h.meets_of_congr rfl rfl rfl (fun _ => Iff.rfl) h.stage

theorem meets_poll {s s' : Provider} (h : Inv s) (hs : s.step .poll = some s') : Meets s s' := by
  simp only [step, Option.ite_none_right_eq_some] at hs
  obtain ⟨hpolling, hs⟩ := hs
  obtain ⟨hraised, hstartup, hzero⟩ := (hpolling ▸ h.stage).of_polling
  by_cases hrecorded : s.failureRecorded = true
  · rw [if_pos hrecorded] at hs
    cases hs
    refine h.meets_of_congr rfl rfl rfl (fun report => ?_) ?_
    · simp only [hpolling, Option.some.injEq, reduceCtorEq]
    · rw [hraised, hstartup, hzero]
      exact .observed
  · rw [if_neg hrecorded] at hs
    cases hs
    exact h.meets_of_congr rfl rfl rfl (fun _ => Iff.rfl) h.stage

/-- The failure arrives. -/
theorem meets_awaitConfig {s s' : Provider} (h : Inv s) (hs : s.step .awaitConfig = some s') : Meets s s' := by
  simp only [step, Option.ite_none_right_eq_some, Option.some.injEq] at hs
  obtain ⟨hobserved, rfl⟩ := hs
  obtain ⟨hraised, -, hzero⟩ := (hobserved ▸ h.stage).of_observed
  have hclaims : announcements { s with
      startup := .awaitingConfig, readinessCheck := some (.reporting .checking) } = s.announcements := by
    unfold announcements
    simp only [hobserved, Option.some.injEq, ReadinessCheck.reporting.injEq, reduceCtorEq]
  refine ⟨⟨?_, h.opened, h.hooked, h.called⟩, .inr ⟨.arrive .failure, ?_⟩⟩
  · rw [hclaims, hraised, hzero]
    exact .awaiting .checking
  · have harrived : ¬ s.meeting.arrived .failure = true := by
      rw [arrived_failure_iff, hobserved]
      rintro ⟨report, hreport⟩
      cases hreport
    rw [Rendezvous.step, if_neg harrived]
    exact congrArg some (meeting_ext rfl rfl rfl rfl hclaims.symm)

/-- What a check leaves: it announces when it has claimed the meeting. -/
theorem Inv.checked {s : Provider} (h : Inv s) : ∃ startup report,
    reportReadyIfConfigArrived s.startup s.client.ready = (startup, report) ∧ report ≠ .checking ∧
    (s.announcements + if report = .announcing then 1 else 0) =
      (if (∀ party, s.meeting.arrived party) ∧ s.meeting.claims = 0 then s.meeting.claims + 1 else s.meeting.claims) ∧
    Stage s.initialization s.readinessCheck startup (s.announcements + if report = .announcing then 1 else 0) := by
  rw [h.reportReadyIfConfigArrived_eq]
  by_cases hall : (∀ party, s.meeting.arrived party) ∧ s.meeting.claims = 0
  · refine ⟨.ready, .announcing, if_pos hall, by decide, (if_pos hall).symm, ?_⟩
    obtain ⟨report, hreport⟩ := (arrived_failure_iff s).1 (hall.1 .failure)
    have hzero : s.announcements = 0 := hall.2
    have hstage := h.stage
    rw [hreport] at hstage
    rw [hzero, hreport, hstage.of_reporting]
    exact .announced report
  · exact ⟨s.startup, .finished, if_neg hall, by decide, (if_neg hall).symm, h.stage⟩

/-- The locked check of the readiness check. -/
theorem meets_check {s s' : Provider} (h : Inv s) (hs : s.step .check = some s') : Meets s s' := by
  simp only [step, Option.ite_none_right_eq_some, Option.some.injEq] at hs
  obtain ⟨hchecking, rfl⟩ := hs
  obtain ⟨startup, report, hreport, hleft, hclaims, hstage⟩ := h.checked
  simp only [hreport]
  have hannounced : announcements { s with startup, readinessCheck := some (.reporting report) } =
      s.announcements + if report = .announcing then 1 else 0 := by
    simp only [announcements, hchecking, Option.some.injEq, ReadinessCheck.reporting.injEq, reduceCtorEq,
      if_false, add_zero]
  refine ⟨⟨?_, h.opened, h.hooked, h.called⟩, .inr ⟨.check .failure, ?_⟩⟩
  · rw [hannounced]
    exact (hchecking ▸ hstage).setReport report
  · rw [Rendezvous.step, if_pos (show s.meeting.checking .failure = true from decide_eq_true hchecking)]
    have hdone : decide (some (ReadinessCheck.reporting report) = some (.reporting .checking)) = false :=
      decide_eq_false fun heq => hleft (ReadinessCheck.reporting.inj (Option.some.inj heq))
    exact congrArg some (meeting_ext ((arrived_failure_iff s).2 ⟨_, hchecking⟩) rfl hdone.symm rfl
      (hannounced.trans hclaims).symm)

/-- The readiness check announces what it has claimed. -/
theorem meets_announce {s s' : Provider} (h : Inv s) (hs : s.step .announce = some s') : Meets s s' := by
  simp only [step, Option.ite_none_right_eq_some, Option.some.injEq] at hs
  obtain ⟨hannouncing, rfl⟩ := hs
  have hannounced : announcements { s with
      readinessCheck := some (.reporting .finished), readyEvents := s.readyEvents + 1 } = s.announcements := by
    simp only [announcements, hannouncing, Option.some.injEq, ReadinessCheck.reporting.injEq, reduceCtorEq,
      if_true, if_false]
    omega
  refine ⟨⟨?_, h.opened, h.hooked, h.called⟩, .inl ?_⟩
  · rw [hannounced]
    exact (hannouncing ▸ h.stage).setReport .finished
  · refine meeting_ext ((arrived_failure_iff s).2 ⟨_, hannouncing⟩).symm rfl ?_ rfl hannounced
    rw [checking_failure, checking_failure, hannouncing]
    rfl

/-- There is one callback, from the bundle that has made the client ready. -/
theorem Inv.callback {s : Provider} (h : Inv s) {i : ℕ} {report : Report} (hi : s.callbacks[i]? = some report) :
    i = 0 ∧ s.callbacks = [report] ∧ s.client.ready = true := by
  rcases h.called with ⟨-, hnone⟩ | ⟨hready, c, hone⟩
  · rw [hnone] at hi
    cases hi
  · rw [hone] at hi
    cases i with
    | zero =>
      cases hi
      exact ⟨rfl, hone, hready⟩
    | succ i => cases hi

/-- The first bundle lets the config arrive. -/
theorem meets_bundle {s s' : Provider} {bundle : ConfigBundle} (h : Inv s) (hs : s.step (.bundle bundle) = some s') :
    Meets s s' := by
  have hhooked : (s.client.applied bundle).handlers .clientReady = [onClientReady] := h.hooked
  have hfirst : (s.client.delivery bundle).firstBundle = !s.client.ready := rfl
  simp only [step, onBundle_open h.opened, hfirst, hhooked, Option.some.injEq] at hs
  rcases h.called with ⟨hready, hnone⟩ | ⟨hready, c, hone⟩
  · have hcalled : s' = { s with client := s.client.applied bundle, callbacks := [.checking] } := by
      rw [← hs, hready, hnone]
      rfl
    subst hcalled
    have hannounced : announcements { s with client := s.client.applied bundle, callbacks := [.checking] } =
        s.announcements := by
      simp only [announcements, hnone]
      rfl
    refine ⟨⟨?_, h.opened, hhooked, .inr ⟨rfl, _, rfl⟩⟩, .inr ⟨.arrive .config, ?_⟩⟩
    · rw [hannounced]
      exact h.stage
    · have harrived : ¬ s.meeting.arrived .config = true := by
        rw [arrived_config, hready]
        decide
      rw [Rendezvous.step, if_neg harrived]
      exact congrArg some (meeting_ext rfl rfl rfl rfl hannounced.symm)
  · have hcalled : s' = { s with client := s.client.applied bundle } := by
      rw [← hs, hready]
      simp only [Bool.not_true, Bool.false_eq_true, if_false, List.map_nil, List.append_nil]
    subst hcalled
    exact ⟨⟨h.stage, h.opened, hhooked, .inr ⟨rfl, c, hone⟩⟩, .inl (meeting_ext rfl hready.symm rfl rfl rfl)⟩

/-- The locked check of the callback. -/
theorem meets_callbackCheck {s s' : Provider} {i : ℕ} (h : Inv s) (hs : s.step (.callbackCheck i) = some s') :
    Meets s s' := by
  simp only [step, Option.ite_none_right_eq_some, Option.some.injEq] at hs
  obtain ⟨hchecking, rfl⟩ := hs
  obtain ⟨rfl, hone, hready⟩ := h.callback hchecking
  obtain ⟨startup, report, hreport, hleft, hclaims, hstage⟩ := h.checked
  simp only [hreport, hone, List.set_cons_zero]
  have hannounced : announcements { s with startup, callbacks := [report] } =
      s.announcements + if report = .announcing then 1 else 0 := by
    simp only [announcements, hone, List.count_singleton, beq_iff_eq, reduceCtorEq, if_false]
    omega
  refine ⟨⟨?_, h.opened, h.hooked, .inr ⟨hready, _, rfl⟩⟩, .inr ⟨.check .config, ?_⟩⟩
  · rw [hannounced]
    exact hstage
  · have hcheck : s.meeting.checking .config = true := by
      rw [checking_config, hone]
      rfl
    rw [Rendezvous.step, if_pos hcheck]
    refine congrArg some (meeting_ext rfl rfl rfl ?_ (hannounced.trans hclaims).symm)
    rw [checking_config]
    simpa using hleft.symm

/-- The callback announces what it has claimed. -/
theorem meets_callbackAnnounce {s s' : Provider} {i : ℕ} (h : Inv s) (hs : s.step (.callbackAnnounce i) = some s') :
    Meets s s' := by
  simp only [step, Option.ite_none_right_eq_some, Option.some.injEq] at hs
  obtain ⟨hannouncing, rfl⟩ := hs
  obtain ⟨rfl, hone, hready⟩ := h.callback hannouncing
  simp only [hone, List.set_cons_zero]
  have hannounced : announcements { s with callbacks := [.finished], readyEvents := s.readyEvents + 1 } =
      s.announcements := by
    simp only [announcements, hone, List.count_singleton, beq_iff_eq, reduceCtorEq, if_true, if_false]
  refine ⟨⟨?_, h.opened, h.hooked, .inr ⟨hready, _, rfl⟩⟩, .inl ?_⟩
  · rw [hannounced]
    exact h.stage
  · refine meeting_ext rfl rfl rfl ?_ hannounced
    rw [checking_config, checking_config, hone]
    rfl

theorem meets_step {s s' : Provider} {e : ProviderStep} (h : Inv s) (hs : s.step e = some s') : Meets s s' := by
  cases e with
  | connect raises => exact meets_connect h hs
  | decide => exact meets_decide h hs
  | recordFailure => exact meets_recordFailure h hs
  | poll => exact meets_poll h hs
  | awaitConfig => exact meets_awaitConfig h hs
  | check => exact meets_check h hs
  | announce => exact meets_announce h hs
  | bundle bundle => exact meets_bundle h hs
  | callbackCheck i => exact meets_callbackCheck h hs
  | callbackAnnounce i => exact meets_callbackAnnounce h hs

/-! ## Runs -/

/-- A provider, from its construction on. -/
abbrev run : List ProviderStep → Option Provider := Transition.run step init

theorem sound_run {es : List ProviderStep} {s : Provider} (h : run es = some s) : Inv s ∧ s.meeting.Sound := by
  have hinit : init.meeting = Rendezvous.init := meeting_ext rfl rfl rfl rfl rfl
  have : Nonempty Party := ⟨.config⟩
  refine Transition.invariant_of_step (P := fun s => Inv s ∧ s.meeting.Sound) (fun s e s' hsound hs => ?_)
    ⟨inv_init, hinit ▸ Rendezvous.sound_init⟩ h
  obtain ⟨hinv, hsame | ⟨e, hmeets⟩⟩ := meets_step hsound.1 hs
  · exact ⟨hinv, hsame ▸ hsound.2⟩
  · exact ⟨hinv, Rendezvous.sound_step hsound.2 hmeets⟩

/-- However `initialize`, the readiness check and the client interleave, `emit_provider_ready` is called once at most;
it is not called when `initialize` has returned, nor before `ERROR` was observed; and when `initialize` has raised,
`ERROR` was observed, the client is ready, and the readiness check and the callback have finished, it has been called. -/
theorem late_start_announced_once (es : List ProviderStep) (s : Provider) (h : run es = some s) :
    s.readyEvents ≤ 1 ∧ (s.initialization = .returned → s.readyEvents = 0) ∧ (0 < s.readyEvents → s.ErrorObserved) ∧
      (s.initialization = .raised → s.ErrorObserved → s.client.ready = true → s.Finished → s.readyEvents = 1) := by
  obtain ⟨hinv, hsound⟩ := sound_run h
  have hle : s.readyEvents ≤ s.announcements := by
    unfold announcements
    omega
  refine ⟨hle.trans hsound.once, fun hreturned => ?_, fun hpos => ?_, fun _ _ hready hfinished => ?_⟩
  · obtain ⟨-, hzero⟩ := (hreturned ▸ hinv.stage).of_returned
    omega
  · obtain ⟨report, hreport⟩ := (arrived_failure_iff s).1 (hsound.complete (hpos.trans_le hle) .failure)
    rw [ErrorObserved, hreport]
    exact ⟨rfl, fun heq => by cases heq⟩
  · obtain ⟨hcheck, hcallbacks⟩ := hfinished
    have harrived : ∀ party, s.meeting.arrived party = true := by
      intro party
      cases party with
      | failure => exact (arrived_failure_iff s).2 ⟨_, hcheck⟩
      | config => exact hready
    have hchecked : ∀ party, s.meeting.checking party = false := by
      intro party
      cases party with
      | failure =>
        rw [checking_failure, hcheck]
        rfl
      | config =>
        rw [checking_config, List.contains_eq_mem, decide_eq_false_iff_not]
        intro hmem
        cases hcallbacks _ hmem
    have hannouncing : s.callbacks.count .announcing = 0 :=
      List.count_eq_zero.2 fun hmem => by cases hcallbacks _ hmem
    have hone : s.announcements = 1 := hsound.claims_eq_one harrived hchecked
    rw [announcements, hannouncing, hcheck] at hone
    simpa using hone

/-- A start whose config arrives while OpenFeature records the failure. -/
def lateStart : List ProviderStep :=
  [.connect false, .decide, .poll, .bundle .empty, .callbackCheck 0, .recordFailure, .poll, .awaitConfig, .check, .announce]

theorem late_start_announced : ∃ s, run lateStart = some s ∧ s.initialization = .raised ∧
    s.Finished ∧ s.readyEvents = 1 := by
  obtain ⟨s, hrun, hraised, hobserved, hready, hfinished⟩ : ∃ s, run lateStart = some s ∧ s.initialization = .raised ∧
      s.ErrorObserved ∧ s.client.ready = true ∧ s.Finished :=
    ⟨_, rfl, rfl, ⟨rfl, by decide⟩, rfl, rfl, by decide⟩
  exact ⟨s, hrun, hraised, hfinished, (late_start_announced_once _ s hrun).2.2.2 hraised hobserved hready hfinished⟩

end Provider

end ConfigDirector.OpenFeature
