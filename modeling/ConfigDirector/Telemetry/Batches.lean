/-
Batches: what a flush takes from the queue, and what becomes of it. As long as it takes reportable events
it builds its report, and the report accounts for everything pushed since the snapshot before.
-/
import ConfigDirector.Telemetry.Collector

namespace ConfigDirector.Telemetry

open Python

/-- The report aggregates, as compacted, the last events pushed since the snapshot before, up to the
limit, and counts the others as dropped. -/
structure Reported.Accounts (sha256 : Bytes → Bytes) (limit : ℕ) (d : Reported) : Prop where
  events : d.events = lastItems (evaluationLimit limit) d.window
  aggregated : ∃ compacted, d.events.mapM (EvaluatedConfigEvent.compacted sha256) = .ok compacted ∧
    Aggregates compacted d.report.evaluations
  dropped : d.report.droppedEvaluations = d.window.length - evaluationLimit limit

theorem Reported.Accounts.total {sha256 : Bytes → Bytes} {limit : ℕ} {d : Reported} (h : d.Accounts sha256 limit) :
    d.report.total = d.window.length := by
  obtain ⟨compacted, hcompacted, haggregates⟩ := h.aggregated
  rw [EventReport.total, haggregates.sum, mapM_length hcompacted, h.events, h.dropped, length_lastItems]
  omega

namespace Collector

variable {limit : ℕ}

/-- The snapshot of a flush under way, and the events pushed before it. -/
def taken (s : Collector limit) : Option (EventQueueSnapshot × List EvaluatedConfigEvent) :=
  match s.flush with
  | some (_, .events snapshot window) => some (snapshot, window)
  | some (_, .contexts snapshot window _ _ _) => some (snapshot, window)
  | _ => none

/-- What a flush has taken is reportable, and what is left of the events pushed before. -/
def Flight (limit : ℕ) : Option (EventQueueSnapshot × List EvaluatedConfigEvent) → Prop
  | none => True
  | some (snapshot, window) => snapshot.events = lastItems (evaluationLimit limit) window ∧
    snapshot.droppedCount = window.length - evaluationLimit limit ∧ ∀ event ∈ snapshot.events, event.Reportable

/-- A flush that takes the events takes reportable ones only. -/
def TakesReportable (s : Collector limit) : CollectorStep → Prop
  | .takeEvents _ => ∀ event ∈ s.events.events.items, event.Reportable
  | _ => True

/-- The queue, the flush under way and the reports built hold what was pushed. -/
structure Flowing (sha256 : Bytes → Bytes) (s : Collector limit) : Prop where
  queue : s.events.Holds s.history.window
  flight : Flight limit s.taken
  reports : ∀ d ∈ s.history.reports, d.Accounts sha256 limit

variable {sha256 : Bytes → Bytes}

theorem flowing_init : Flowing sha256 (init : Collector limit) where
  queue := EventQueue.holds_empty
  flight := trivial
  reports := fun _ h => by cases h

theorem Flowing.returned {s : Collector limit} (h : Flowing sha256 s) (f : Flusher) :
    Flowing sha256 (s.returned f) := by
  cases f <;> exact ⟨h.queue, h.flight, h.reports⟩

theorem Flowing.clear {s : Collector limit} (h : Flowing sha256 s) : Flowing sha256 s.clear :=
  ⟨EventQueue.holds_empty, h.flight, h.reports⟩

theorem Flowing.setStopping {s : Collector limit} (h : Flowing sha256 s) (f : Flusher) (stopping : Stopping) :
    Flowing sha256 (s.setStopping f stopping) := ⟨h.queue, h.flight, h.reports⟩

theorem Flowing.setCloser {s : Collector limit} (h : Flowing sha256 s) (i : ℕ) (closer : Closer) :
    Flowing sha256 (s.setCloser i closer) := ⟨h.queue, h.flight, h.reports⟩

/-- The report of a flush that has taken reportable events is built. -/
theorem Flowing.report {s : Collector limit} (h : Flowing sha256 s) {f : Flusher} {snapshot : EventQueueSnapshot}
    {window : List EvaluatedConfigEvent} {contexts : List Context} {dropped : ℕ} {evicted : List ContextKey}
    (hflush : s.flush = some (f, .contexts snapshot window contexts dropped evicted)) (reply : Reply) (now : Instant) :
    ∃ report : EventReport,
      let reported : Reported := ⟨f, window, snapshot.events, s.history.added, evicted, report⟩
      let kept : Collector limit := { s with
        flush := none
        invalidContexts := .empty
        history := { s.history with reports := s.history.reports ++ [reported] } }
      reported.Accounts sha256 limit ∧ report.contexts = contexts ∧ report.droppedContexts = dropped ∧
        (s.reportStep sha256 f snapshot window contexts dropped evicted reply now = kept.returned f ∨
          reply = .responds true ∧ s.reportStep sha256 f snapshot window contexts dropped evicted reply now =
            { kept with history := { kept.history with fatal := true } }.setStopping f .locking) := by
  have hflight := h.flight
  rw [show s.taken = some (snapshot, window) by simp only [taken, hflush]] at hflight
  obtain ⟨hevents, hdropped, hall⟩ := hflight
  rcases reportStep_cases f snapshot window contexts dropped evicted reply now with
    ⟨e, hbuild, -⟩ | ⟨report, hbuild, hstep⟩
  · obtain ⟨report, hok⟩ := (EventReport.build_ok_iff sha256 snapshot contexts dropped _).2 hall
    rw [hok] at hbuild
    cases hbuild
  · obtain ⟨haggregates, hdroppedReport, hcontexts, hdroppedContexts⟩ := EventReport.build_aggregates hbuild
    exact ⟨report, ⟨hevents, haggregates, by rw [hdroppedReport, hdropped]⟩, hcontexts, hdroppedContexts, hstep⟩

variable [Unicode]

theorem Flowing.step {s s' : Collector limit} {e : CollectorStep} (h : Flowing sha256 s)
    (hreportable : s.TakesReportable e) (hstep : step sha256 s e = some s') : Flowing sha256 s' := by
  cases e with
  | record i r =>
    rcases record_cases hstep with rfl | ⟨-, ⟨key, context, -, -, rfl⟩ | ⟨-, rfl⟩⟩
    · exact h
    · exact ⟨h.queue, h.flight, h.reports⟩
    · exact ⟨h.queue, h.flight, h.reports⟩
  | addContext i =>
    obtain ⟨r, key, context, -, rfl⟩ := addContext_cases hstep
    exact ⟨h.queue, h.flight, h.reports⟩
  | push i now =>
    obtain ⟨r, -, rfl⟩ := push_cases hstep
    exact ⟨h.queue.push r.event now, h.flight, h.reports⟩
  | recordInvalidContext kindSample now =>
    obtain ⟨invalidContexts, afterStopping, rfl⟩ := recordInvalidContext_cases hstep
    exact ⟨h.queue, h.flight, h.reports⟩
  | acquire f =>
    obtain ⟨-, -, rfl⟩ := acquire_cases hstep
    exact { queue := h.queue, flight := trivial, reports := h.reports }
  | takeEvents now =>
    obtain ⟨f, hflush, rfl⟩ := takeEvents_cases hstep
    exact ⟨EventQueue.holds_empty, ⟨h.queue.events, h.queue.dropped, hreportable⟩, h.reports⟩
  | takeContexts =>
    obtain ⟨f, snapshot, window, hflush, rfl⟩ := takeContexts_cases hstep
    have hflight := h.flight
    rw [show s.taken = some (snapshot, window) by simp only [taken, hflush]] at hflight
    exact ⟨h.queue, hflight, h.reports⟩
  | report reply now =>
    obtain ⟨f, snapshot, window, contexts, dropped, evicted, hflush, rfl⟩ := report_cases hstep
    obtain ⟨report, haccounts, -, -, hnext⟩ := h.report hflush reply now
    have hreports : ∀ d ∈ s.history.reports ++ [⟨f, window, snapshot.events, s.history.added, evicted, report⟩],
        Reported.Accounts sha256 limit d := by
      intro d hd
      rcases List.mem_append.1 hd with hd | hd
      · exact h.reports d hd
      · rw [List.mem_singleton.1 hd]
        exact haccounts
    rcases hnext with hnext | ⟨-, hnext⟩
    · rw [hnext]
      apply Flowing.returned
      exact ⟨h.queue, trivial, hreports⟩
    · rw [hnext]
      exact ⟨h.queue, trivial, hreports⟩
  | stopCollecting f =>
    rcases stopCollecting_cases hstep with ⟨-, -, rfl⟩ | ⟨-, -, rfl⟩ | ⟨-, rfl⟩ | ⟨-, rfl⟩
    · exact ⟨h.queue, h.flight, h.reports⟩
    · exact (h.setStopping f .no).returned f
    · exact ⟨h.queue, h.flight, h.reports⟩
    · exact (h.clear.setStopping f .no).returned f
  | loopWakes =>
    obtain ⟨-, rfl⟩ := loopWakes_cases hstep
    exact ⟨h.queue, h.flight, h.reports⟩
  | loopChecks =>
    obtain ⟨-, rfl⟩ := loopChecks_cases hstep
    exact ⟨h.queue, h.flight, h.reports⟩
  | closer i =>
    rcases closer_cases hstep with ⟨-, -, rfl⟩ | ⟨-, -, rfl⟩ | ⟨was, -, rfl⟩ | ⟨was, -, rfl⟩ | ⟨flushed, -, rfl⟩
    · exact h.setCloser i _
    · exact ⟨h.queue, h.flight, h.reports⟩
    · exact ⟨h.queue, h.flight, h.reports⟩
    · exact h.setCloser i _
    · exact h.clear.setCloser i _

/-! ## One evaluation -/

/-- An evaluation without a context and a declared type that gives the default. -/
def defaulted (default : PyValue) : Recording where
  key := lit "key"
  default := default
  value := default
  usedDefault := true
  reason := .configStateMissing
  context := none
  configType := .none
  valueId := none

/-- A dictionary with a lone surrogate, which has no id. -/
def unencodable : PyValue := .dict [(lit "k", .str [0xD800])]

/-- One evaluation, recorded and flushed. -/
def recordAndFlush (f : Flusher) (default : PyValue) : List CollectorStep :=
  [.record 0 (defaulted default), .push 0 0, .acquire f, .takeEvents 1, .takeContexts, .report (.responds false) 2]

theorem reportable_plain : (defaulted (.str (lit "on"))).event.Reportable := by
  have hjson : (PyValue.str (lit "on")).IsJson := by simp [PyValue.IsJson]
  have hshort : ¬ (isJson (.str (lit "on")) .none = true ∨
      configValueMaxLength < (renderValue (.str (lit "on")) .none).length) := by
    rw [show renderValue (.str (lit "on")) .none = lit "on" from rfl]
    decide
  rw [reportable_event_iff hjson hjson]
  exact ⟨fun h => absurd h hshort, fun _ h => absurd h hshort, by simp [PyValue.IsCollection, defaulted]⟩

end Collector

end ConfigDirector.Telemetry
