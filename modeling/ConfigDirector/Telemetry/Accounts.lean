/-
Every recorded evaluation is reported or counted as dropped, once. It holds as long as a flush takes
reportable events: one that raises has emptied the queue before it builds the report.
-/
import ConfigDirector.Telemetry.Batches

namespace ConfigDirector.Telemetry

open Python

namespace Collector

variable {limit : ℕ}

/-- The evaluations in a flush under way. -/
def inFlight (s : Collector limit) : ℕ :=
  match s.taken with
  | some (snapshot, _) => snapshot.events.length + snapshot.droppedCount
  | none => 0

/-- The events pushed before the snapshot of a flush under way. -/
def takenWindow (s : Collector limit) : List EvaluatedConfigEvent :=
  match s.taken with
  | some (_, window) => window
  | none => []

/-- Every evaluation recorded is counted in one report or dropped by it, in a flush under way, queued, or
a drop not yet taken; the windows of the reports are the stretches between the snapshots. -/
structure Accounted (sha256 : Bytes → Bytes) (s : Collector limit) : Prop where
  count : s.history.recorded.length = (s.history.reports.map fun d => d.report.total).sum + s.inFlight +
    s.events.events.items.length + s.events.droppedCount
  windows : s.history.recorded =
    (s.history.reports.map Reported.window).flatten ++ s.takenWindow ++ s.history.window
  reports : ∀ d ∈ s.history.reports, d.Accounts sha256 limit

/-! ## Runs without `close` and without a fatal response -/

/-- Neither `close` nor a fatal response. -/
def Undisturbed : CollectorStep → Prop
  | .closer _ => False
  | .report (.responds true) _ => False
  | _ => True

/-- Nobody closes or stops collecting. -/
structure Open (s : Collector limit) : Prop where
  stopping : ∀ f, s.stopping f = .no
  closers : ∀ i, s.closers i = .uncalled
  holder : ∀ i, s.flush.map Prod.fst ≠ some (.closer i)

/-- The events recorded are those of the reports, of the flush under way and of the queue. -/
def Windowed (s : Collector limit) : Prop :=
  s.history.recorded = (s.history.reports.map Reported.window).flatten ++ s.takenWindow ++ s.history.window

variable {sha256 : Bytes → Bytes}

/-- What the windows hold makes the count. -/
theorem Flowing.accounted {s : Collector limit} (h : Flowing sha256 s) (hwindows : s.Windowed) :
    Accounted sha256 s where
  count := by
    have hreports : (s.history.reports.map fun d => d.report.total) =
        s.history.reports.map fun d => d.window.length :=
      List.map_congr_left fun d hd => (h.reports d hd).total
    have hflatten : ((s.history.reports.map Reported.window).flatten).length =
        (s.history.reports.map fun d => d.window.length).sum := by
      rw [List.length_flatten, List.map_map]
      rfl
    have hflight : s.inFlight = s.takenWindow.length := by
      unfold inFlight takenWindow
      cases htaken : s.taken with
      | none => rfl
      | some p =>
        obtain ⟨snapshot, window⟩ := p
        have hflight := h.flight
        rw [htaken] at hflight
        obtain ⟨hevents, hdropped, -⟩ := hflight
        dsimp only
        rw [hevents, hdropped, length_lastItems]
        omega
    have hqueue := h.queue.accounts
    rw [hwindows, List.length_append, List.length_append, hflatten, hreports, hflight]
    omega
  windows := hwindows
  reports := h.reports

variable [Unicode]

theorem Open.step {s s' : Collector limit} {e : CollectorStep} (h : Open s) (hundisturbed : Undisturbed e)
    (hstep : step sha256 s e = some s') : Open s' := by
  cases e with
  | record i r =>
    rcases record_cases hstep with rfl | ⟨-, ⟨key, context, -, -, rfl⟩ | ⟨-, rfl⟩⟩
    · exact h
    · exact ⟨h.stopping, h.closers, h.holder⟩
    · exact ⟨h.stopping, h.closers, h.holder⟩
  | addContext i =>
    obtain ⟨r, key, context, -, rfl⟩ := addContext_cases hstep
    exact ⟨h.stopping, h.closers, h.holder⟩
  | push i now =>
    obtain ⟨r, -, rfl⟩ := push_cases hstep
    exact ⟨h.stopping, h.closers, h.holder⟩
  | recordInvalidContext kindSample now =>
    obtain ⟨invalidContexts, afterStopping, rfl⟩ := recordInvalidContext_cases hstep
    exact ⟨h.stopping, h.closers, h.holder⟩
  | acquire f =>
    obtain ⟨-, hwants, rfl⟩ := acquire_cases hstep
    refine ⟨h.stopping, h.closers, ?_⟩
    rintro i ⟨⟩
    -- a closer that flushes has been called
    simp only [wantsFlush, h.closers i, Bool.and_eq_true] at hwants
    exact absurd hwants.1 (by decide)
  | takeEvents now =>
    obtain ⟨f, hflush, rfl⟩ := takeEvents_cases hstep
    have hholder := h.holder
    rw [hflush] at hholder
    exact ⟨h.stopping, h.closers, hholder⟩
  | takeContexts =>
    obtain ⟨f, snapshot, window, hflush, rfl⟩ := takeContexts_cases hstep
    have hholder := h.holder
    rw [hflush] at hholder
    exact ⟨h.stopping, h.closers, hholder⟩
  | report reply now =>
    obtain ⟨f, snapshot, window, contexts, dropped, evicted, hflush, rfl⟩ := report_cases hstep
    have hcloser : ∀ i, f ≠ .closer i := by
      rintro i rfl
      exact h.holder i (by rw [hflush]; rfl)
    rcases reportStep_cases f snapshot window contexts dropped evicted reply now with
      ⟨e, -, hnext⟩ | ⟨report, -, hnext | ⟨rfl, -⟩⟩
    · rw [hnext]
      cases f with
      | loop => exact ⟨h.stopping, h.closers, fun _ h => by cases h⟩
      | caller i => exact ⟨h.stopping, h.closers, fun _ h => by cases h⟩
      | closer i => exact absurd rfl (hcloser i)
    · rw [hnext]
      cases f with
      | loop => exact ⟨h.stopping, h.closers, fun _ h => by cases h⟩
      | caller i => exact ⟨h.stopping, h.closers, fun _ h => by cases h⟩
      | closer i => exact absurd rfl (hcloser i)
    · exact hundisturbed.elim
  | stopCollecting f =>
    simp only [Collector.step, stopCollectingStep, h.stopping f] at hstep
    cases hstep
  | loopWakes =>
    obtain ⟨-, rfl⟩ := loopWakes_cases hstep
    exact ⟨h.stopping, h.closers, h.holder⟩
  | loopChecks =>
    obtain ⟨-, rfl⟩ := loopChecks_cases hstep
    exact ⟨h.stopping, h.closers, h.holder⟩
  | closer i => exact hundisturbed.elim

omit [Unicode] in
theorem Windowed.returned {s : Collector limit} (h : s.Windowed) (f : Flusher) : (s.returned f).Windowed := by
  cases f <;> exact h

theorem Windowed.step {s s' : Collector limit} {e : CollectorStep} (h : s.Windowed) (hopen : Open s)
    (hflowing : Flowing sha256 s) (hundisturbed : Undisturbed e) (hstep : step sha256 s e = some s') : s'.Windowed := by
  cases e with
  | record i r =>
    rcases record_cases hstep with rfl | ⟨-, ⟨key, context, -, -, rfl⟩ | ⟨-, rfl⟩⟩
    · exact h
    · exact h
    · exact h
  | addContext i =>
    obtain ⟨r, key, context, -, rfl⟩ := addContext_cases hstep
    exact h
  | push i now =>
    obtain ⟨r, -, rfl⟩ := push_cases hstep
    show s.history.recorded ++ [r.event] = _ ++ s.takenWindow ++ (s.history.window ++ [r.event])
    rw [h, List.append_assoc]
    rfl
  | recordInvalidContext kindSample now =>
    obtain ⟨invalidContexts, afterStopping, rfl⟩ := recordInvalidContext_cases hstep
    exact h
  | acquire f =>
    obtain ⟨hflush, -, rfl⟩ := acquire_cases hstep
    rw [Windowed, show s.takenWindow = [] by simp only [takenWindow, taken, hflush]] at h
    exact h
  | takeEvents now =>
    obtain ⟨f, hflush, rfl⟩ := takeEvents_cases hstep
    rw [Windowed, show s.takenWindow = [] by simp only [takenWindow, taken, hflush], List.append_nil] at h
    show s.history.recorded = _ ++ s.history.window ++ []
    rw [List.append_nil]
    exact h
  | takeContexts =>
    obtain ⟨f, snapshot, window, hflush, rfl⟩ := takeContexts_cases hstep
    rw [Windowed, show s.takenWindow = window by simp only [takenWindow, taken, hflush]] at h
    exact h
  | report reply now =>
    obtain ⟨f, snapshot, window, contexts, dropped, evicted, hflush, rfl⟩ := report_cases hstep
    obtain ⟨report, -, -, -, hnext | ⟨rfl, -⟩⟩ := hflowing.report hflush reply now
    · rw [hnext]
      apply Windowed.returned
      -- the window of the flush becomes the window of its report
      rw [Windowed, show s.takenWindow = window by simp only [takenWindow, taken, hflush]] at h
      let reported : Reported := ⟨f, window, snapshot.events, s.history.added, evicted, report⟩
      show s.history.recorded =
        ((s.history.reports ++ [reported]).map Reported.window).flatten ++ [] ++ s.history.window
      rw [h, List.map_append, List.flatten_append, List.append_nil]
      simp [reported]
    · exact hundisturbed.elim
  | stopCollecting f =>
    simp only [Collector.step, stopCollectingStep, hopen.stopping f] at hstep
    cases hstep
  | loopWakes =>
    obtain ⟨-, rfl⟩ := loopWakes_cases hstep
    exact h
  | loopChecks =>
    obtain ⟨-, rfl⟩ := loopChecks_cases hstep
    exact h
  | closer i => exact hundisturbed.elim

/-- What every step of a quiet run keeps. -/
structure Balanced (sha256 : Bytes → Bytes) (s : Collector limit) : Prop where
  isOpen : Open s
  flowing : Flowing sha256 s
  windowed : s.Windowed

omit [Unicode] in
theorem balanced_init : Balanced sha256 (init : Collector limit) where
  isOpen := ⟨fun _ => rfl, fun _ => rfl, fun _ h => by cases h⟩
  flowing := flowing_init
  windowed := rfl

theorem Balanced.step {s s' : Collector limit} {e : CollectorStep} (h : Balanced sha256 s) (hundisturbed : Undisturbed e)
    (hreportable : s.TakesReportable e) (hstep : step sha256 s e = some s') : Balanced sha256 s' :=
  ⟨h.isOpen.step hundisturbed hstep, h.flowing.step hreportable hstep,
    h.windowed.step h.isOpen h.flowing hundisturbed hstep⟩

/-- The condition: no flush takes an event it cannot report. -/
def Quiet (s : Collector limit) (e : CollectorStep) : Prop := Undisturbed e ∧ s.TakesReportable e

/-- As long as a flush takes reportable events only, every evaluation recorded is reported or counted as
dropped, once, whatever the interleaving. -/
theorem all_accounted (trace : List CollectorStep) (s : Collector limit)
    (hquiet : Transition.Obeys (step sha256) Quiet (init : Collector limit) trace)
    (hrun : run sha256 init trace = some s) : Accounted sha256 s := by
  have hbalanced : Balanced sha256 s :=
    Transition.invariant (fun _ _ _ h hquiet hstep => h.step hquiet.1 hquiet.2 hstep) balanced_init hquiet hrun
  exact hbalanced.flowing.accounted hbalanced.windowed

omit [Unicode] in
/-- A plain value is reported. -/
theorem all_accounted_plain : ∃ (_ : Unicode) (s : Collector 100),
    run (fun _ => []) init (recordAndFlush (.caller 0) (.str (lit "on"))) = some s ∧ Accounted (fun _ => []) s := by
  let _ : Unicode := .ascii
  have hquiet : Transition.Obeys (step fun _ => []) Quiet (init : Collector 100) (recordAndFlush (.caller 0) (.str (lit "on"))) := by
    refine .cons ⟨trivial, trivial⟩ rfl (.cons ⟨trivial, trivial⟩ rfl (.cons ⟨trivial, trivial⟩ rfl
      (.cons ⟨trivial, ?_⟩ rfl (.cons ⟨trivial, trivial⟩ rfl (.cons ⟨trivial, trivial⟩ rfl trivial)))))
    intro event hevent
    rw [List.mem_singleton.1 hevent]
    exact reportable_plain
  cases hrun : run (fun _ => []) (init : Collector 100) (recordAndFlush (.caller 0) (.str (lit "on"))) with
  | none => cases hrun
  | some s => exact ⟨_, s, hrun, all_accounted _ s hquiet hrun⟩

omit [Unicode] in
/-- A dictionary with a lone surrogate is lost with its batch. -/
theorem batch_lost : ¬ ∀ (_ : Unicode) (trace : List CollectorStep) (s : Collector 100),
    Transition.Obeys (step fun _ => []) (fun _ e => Undisturbed e) (init : Collector 100) trace →
    run (fun _ => []) init trace = some s → Accounted (fun _ => []) s := by
  intro h
  let _ : Unicode := .ascii
  let trace := recordAndFlush (.caller 0) unencodable
  have hundisturbed : ∀ e ∈ trace, Undisturbed e := by simp [trace, recordAndFlush, Undisturbed]
  cases hrun : run (fun _ => []) (init : Collector 100) trace with
  | none => cases hrun
  | some s =>
    have hs : some s = run (fun _ => []) (init : Collector 100) trace := hrun.symm
    have hcount := (h _ trace s (Transition.obeys_of_forall _ hundisturbed) hrun).count
    have hrecorded : s.history.recorded.length = 1 := by cases hs; rfl
    have hreports : s.history.reports = [] := by cases hs; rfl
    have hflight : s.inFlight = 0 := by cases hs; rfl
    have hqueue : s.events.events.items.length + s.events.droppedCount = 0 := by cases hs; rfl
    rw [hrecorded, hreports, hflight] at hcount
    simp at hcount
    omega

end Collector

end ConfigDirector.Telemetry
