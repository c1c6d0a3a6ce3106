/-
Flushing never kills the flush thread, as long as a flush takes reportable events: the loop ends only
after `close` or a fatal response, and `close` reports what is left. Threads, reporter and interleaving
are arbitrary.
-/
import ConfigDirector.Telemetry.Batches

namespace ConfigDirector.Telemetry

open Python

namespace Collector

variable {limit : ℕ} {sha256 : Bytes → Bytes}

/-- The collector has been closed or has seen a fatal response. -/
def Over (s : Collector limit) : Prop := s.closed = true ∨ s.history.fatal = true

/-- The report of the closer's flush has been built, and accounts for what was left. -/
def HasReported (sha256 : Bytes → Bytes) (s : Collector limit) (i : ℕ) : Prop :=
  ∃ d ∈ s.history.reports, d.flusher = .closer i ∧ d.Accounts sha256 limit

/-- No flush has raised, the loop runs unless the collector is over, and a `close` that had to report has
reported. -/
structure Alive (sha256 : Bytes → Bytes) (s : Collector limit) : Prop where
  raised : s.history.raised = []
  loop : s.loop ≠ .died
  closers : ∀ i, s.closers i ≠ .raised
  ended : s.loop = .ended → s.Over
  reported : ∀ i, s.closers i = .returned true → s.HasReported sha256 i

/-! ## What keeps the thread alive -/

/-- The flush of the closer has returned, or is about to. -/
def HasFlushed (s : Collector limit) (i : ℕ) : Prop :=
  s.closers i = .clearing true ∨ s.closers i = .returned true ∨ s.stopping (.closer i) ≠ .no

structure Surviving (sha256 : Bytes → Bytes) (s : Collector limit) : Prop where
  raised : s.history.raised = []
  loop : s.loop ≠ .died
  closers : ∀ i, s.closers i ≠ .raised
  stop : s.stop = true → s.Over
  notCollecting : s.collecting = false → s.Over
  ended : s.loop = .ended → s.Over
  stopping : ∀ f, s.stopping f ≠ .no → s.history.fatal = true
  closing : ∀ i was, s.closers i = .settingStop was → s.closed = true
  reported : ∀ i, s.HasFlushed i → s.HasReported sha256 i

theorem Surviving.alive {s : Collector limit} (h : Surviving sha256 s) : Alive sha256 s :=
  ⟨h.raised, h.loop, h.closers, h.ended, fun i hi => h.reported i (.inr (.inl hi))⟩

theorem surviving_init : Surviving sha256 (init : Collector limit) where
  raised := rfl
  loop := fun h => by cases h
  closers := fun _ h => by cases h
  stop := fun h => by cases h
  notCollecting := fun h => by cases h
  ended := fun h => by cases h
  stopping := fun _ h => absurd rfl h
  closing := fun _ _ h => by cases h
  reported := fun _ h => by
    rcases h with h | h | h
    · cases h
    · cases h
    · exact absurd rfl h

theorem Surviving.setCloser {s : Collector limit} (h : Surviving sha256 s) (i : ℕ) {closer : Closer}
    (hraised : closer ≠ .raised) (hclosing : ∀ was, closer = .settingStop was → s.closed = true)
    (hreported : closer = .clearing true ∨ closer = .returned true → s.HasReported sha256 i) :
    Surviving sha256 (s.setCloser i closer) := by
  refine ⟨h.raised, h.loop, ?_, h.stop, h.notCollecting, h.ended, h.stopping, ?_, ?_⟩
  · intro j
    show (if j = i then closer else s.closers j) ≠ .raised
    split
    · exact hraised
    · exact h.closers j
  · intro j was
    show (if j = i then closer else s.closers j) = _ → _
    split
    · exact hclosing was
    · exact h.closing j was
  · intro j hj
    by_cases hji : j = i
    · subst hji
      have hcloser : (s.setCloser j closer).closers j = closer := if_pos rfl
      rw [HasFlushed, hcloser, ← or_assoc] at hj
      rcases hj with hj | hj
      · exact hreported hj
      · exact h.reported j (.inr (.inr hj))
    · have hcloser : (s.setCloser i closer).closers j = s.closers j := if_neg hji
      rw [HasFlushed, hcloser] at hj
      exact h.reported j hj

theorem Surviving.setStopping {s : Collector limit} (h : Surviving sha256 s) (f : Flusher) {stopping : Stopping}
    (hfatal : stopping ≠ .no → s.history.fatal = true)
    (hreported : ∀ i, f = .closer i → stopping ≠ .no → s.HasReported sha256 i) :
    Surviving sha256 (s.setStopping f stopping) := by
  refine ⟨h.raised, h.loop, h.closers, h.stop, h.notCollecting, h.ended, ?_, h.closing, ?_⟩
  · intro g
    show (if g = f then stopping else s.stopping g) ≠ .no → _
    split
    · exact hfatal
    · exact h.stopping g
  · intro i hi
    by_cases hif : Flusher.closer i = f
    · have hstopping : (s.setStopping f stopping).stopping (.closer i) = stopping := if_pos hif
      rw [HasFlushed, hstopping] at hi
      rcases hi with hi | hi | hi
      · exact h.reported i (.inl hi)
      · exact h.reported i (.inr (.inl hi))
      · exact hreported i hif.symm hi
    · have hstopping : (s.setStopping f stopping).stopping (.closer i) = s.stopping (.closer i) := if_neg hif
      rw [HasFlushed, hstopping] at hi
      exact h.reported i hi

theorem Surviving.clear {s : Collector limit} (h : Surviving sha256 s) : Surviving sha256 s.clear :=
  ⟨h.raised, h.loop, h.closers, h.stop, h.notCollecting, h.ended, h.stopping, h.closing, h.reported⟩

/-- A flush that has reported returns. -/
theorem Surviving.returned {s : Collector limit} (h : Surviving sha256 s) (f : Flusher)
    (hreported : ∀ i, f = .closer i → s.HasReported sha256 i) : Surviving sha256 (s.returned f) := by
  cases f with
  | loop =>
    exact ⟨h.raised, (fun h => by cases h), h.closers, h.stop, h.notCollecting, (fun h => by cases h), h.stopping,
      h.closing, h.reported⟩
  | caller i => exact h
  | closer i => exact h.setCloser i (fun h => by cases h) (fun _ h => by cases h) fun _ => hreported i rfl

/-- What is true of a state is true of one where more has been reported. -/
theorem Surviving.report {s : Collector limit} (h : Surviving sha256 s) (d : Reported)
    (invalidContexts : InvalidContextSubmissions) :
    Surviving sha256 { s with
      flush := none
      invalidContexts := invalidContexts
      history := { s.history with reports := s.history.reports ++ [d] } } := by
  refine ⟨h.raised, h.loop, h.closers, h.stop, h.notCollecting, h.ended, h.stopping, h.closing, ?_⟩
  intro i hi
  obtain ⟨d', hd', hd⟩ := h.reported i hi
  exact ⟨d', List.mem_append_left _ hd', hd⟩

/-- A fatal response. -/
theorem Surviving.setFatal {s : Collector limit} (h : Surviving sha256 s) :
    Surviving sha256 { s with history := { s.history with fatal := true } } :=
  ⟨h.raised, h.loop, h.closers, fun _ => .inr rfl, fun _ => .inr rfl, fun _ => .inr rfl, fun _ _ => rfl, h.closing,
    h.reported⟩

variable [Unicode]

/-- A fatal response stops the collector, and the flush that got it has reported. -/
theorem Surviving.stopCollecting {s s' : Collector limit} (h : Surviving sha256 s) {f : Flusher}
    (hstep : Collector.step sha256 s (.stopCollecting f) = some s') : Surviving sha256 s' := by
  have hfatal : s.stopping f ≠ .no → s.history.fatal = true := h.stopping f
  have hreported : s.stopping f ≠ .no → ∀ i, f = .closer i → s.HasReported sha256 i := by
    rintro hf i rfl
    exact h.reported i (.inr (.inr hf))
  rcases stopCollecting_cases hstep with ⟨hf, -, rfl⟩ | ⟨hf, -, rfl⟩ | ⟨hf, rfl⟩ | ⟨hf, rfl⟩
  · have hno : s.stopping f ≠ .no := by rw [hf]; decide
    have hcollecting : Surviving sha256 { s with collecting := false } :=
      ⟨h.raised, h.loop, h.closers, h.stop, fun _ => .inr (hfatal hno), h.ended, h.stopping, h.closing, h.reported⟩
    exact hcollecting.setStopping f (fun _ => hfatal hno) fun i hi _ => hreported hno i hi
  · have hno : s.stopping f ≠ .no := by rw [hf]; decide
    exact (h.setStopping f (fun h => absurd rfl h) fun _ _ h => absurd rfl h).returned f (hreported hno)
  · have hno : s.stopping f ≠ .no := by rw [hf]; decide
    have hstop : Surviving sha256 { s with stop := true } :=
      ⟨h.raised, h.loop, h.closers, fun _ => .inr (hfatal hno), h.notCollecting, h.ended, h.stopping, h.closing,
        h.reported⟩
    exact hstop.setStopping f (fun _ => hfatal hno) fun i hi _ => hreported hno i hi
  · have hno : s.stopping f ≠ .no := by rw [hf]; decide
    exact (h.clear.setStopping f (fun h => absurd rfl h) fun _ _ h => absurd rfl h).returned f (hreported hno)

theorem Surviving.loopWakes {s s' : Collector limit} (h : Surviving sha256 s)
    (hstep : Collector.step sha256 s .loopWakes = some s') : Surviving sha256 s' := by
  obtain ⟨-, rfl⟩ := loopWakes_cases hstep
  refine ⟨h.raised, ?_, h.closers, h.stop, h.notCollecting, ?_, h.stopping, h.closing, h.reported⟩
  · show (if s.stop then Loop.ended else Loop.flushing) ≠ .died
    split <;> decide
  · show (if s.stop then Loop.ended else Loop.flushing) = .ended → _
    split
    · rename_i hstop
      exact fun _ => h.stop hstop
    · intro hloop
      cases hloop

theorem Surviving.loopChecks {s s' : Collector limit} (h : Surviving sha256 s)
    (hstep : Collector.step sha256 s .loopChecks = some s') : Surviving sha256 s' := by
  obtain ⟨-, rfl⟩ := loopChecks_cases hstep
  refine ⟨h.raised, ?_, h.closers, h.stop, h.notCollecting, ?_, h.stopping, h.closing, h.reported⟩
  · show (if s.collecting then Loop.waiting else Loop.ended) ≠ .died
    split <;> decide
  · show (if s.collecting then Loop.waiting else Loop.ended) = .ended → _
    split
    · intro hloop
      cases hloop
    · rename_i hcollecting
      exact fun _ => h.notCollecting (by simpa using hcollecting)

theorem Surviving.closer {s s' : Collector limit} (h : Surviving sha256 s) {i : ℕ}
    (hstep : Collector.step sha256 s (.closer i) = some s') : Surviving sha256 s' := by
  rcases closer_cases hstep with ⟨-, -, rfl⟩ | ⟨-, -, rfl⟩ | ⟨was, hcloser, rfl⟩ | ⟨was, -, rfl⟩ | ⟨flushed, hcloser, rfl⟩
  · exact h.setCloser i (by decide) (fun _ h => by cases h) (by rintro (h | h) <;> cases h)
  · have hclosed : Surviving sha256 { s with closed := true, collecting := false } :=
      ⟨h.raised, h.loop, h.closers, fun _ => .inl rfl, fun _ => .inl rfl, fun _ => .inl rfl, h.stopping, fun _ _ _ => rfl,
        h.reported⟩
    exact hclosed.setCloser i (fun h => by cases h) (fun _ _ => rfl) (by rintro (h | h) <;> cases h)
  · have hstop : Surviving sha256 { s with stop := true } :=
      ⟨h.raised, h.loop, h.closers, fun _ => .inl (h.closing i was hcloser), h.notCollecting, h.ended, h.stopping,
        h.closing, h.reported⟩
    exact hstop.setCloser i (fun h => by cases h) (fun _ h => by cases h) (by rintro (h | h) <;> cases h)
  · cases was with
    | true => exact h.setCloser i (by decide) (fun _ h => by cases h) (by rintro (h | h) <;> cases h)
    | false => exact h.setCloser i (by decide) (fun _ h => by cases h) (by rintro (h | h) <;> cases h)
  · refine h.clear.setCloser i (fun h => by cases h) (fun _ h => by cases h) ?_
    rintro (hflushed | hflushed)
    · cases hflushed
    · cases hflushed
      exact h.reported i (.inl hcloser)

theorem Surviving.step {s s' : Collector limit} {e : CollectorStep} (h : Surviving sha256 s)
    (hflowing : Flowing sha256 s) (hstep : step sha256 s e = some s') : Surviving sha256 s' := by
  cases e with
  | record i r =>
    rcases record_cases hstep with rfl | ⟨-, ⟨key, context, -, -, rfl⟩ | ⟨-, rfl⟩⟩
    · exact h
    · exact ⟨h.raised, h.loop, h.closers, h.stop, h.notCollecting, h.ended, h.stopping, h.closing, h.reported⟩
    · exact ⟨h.raised, h.loop, h.closers, h.stop, h.notCollecting, h.ended, h.stopping, h.closing, h.reported⟩
  | addContext i =>
    obtain ⟨r, key, context, -, rfl⟩ := addContext_cases hstep
    exact ⟨h.raised, h.loop, h.closers, h.stop, h.notCollecting, h.ended, h.stopping, h.closing, h.reported⟩
  | push i now =>
    obtain ⟨r, -, rfl⟩ := push_cases hstep
    exact ⟨h.raised, h.loop, h.closers, h.stop, h.notCollecting, h.ended, h.stopping, h.closing, h.reported⟩
  | recordInvalidContext kindSample now =>
    obtain ⟨invalidContexts, afterStopping, rfl⟩ := recordInvalidContext_cases hstep
    exact ⟨h.raised, h.loop, h.closers, h.stop, h.notCollecting, h.ended, h.stopping, h.closing, h.reported⟩
  | acquire f =>
    obtain ⟨-, -, rfl⟩ := acquire_cases hstep
    exact ⟨h.raised, h.loop, h.closers, h.stop, h.notCollecting, h.ended, h.stopping, h.closing, h.reported⟩
  | takeEvents now =>
    obtain ⟨f, -, rfl⟩ := takeEvents_cases hstep
    exact ⟨h.raised, h.loop, h.closers, h.stop, h.notCollecting, h.ended, h.stopping, h.closing, h.reported⟩
  | takeContexts =>
    obtain ⟨f, snapshot, window, -, rfl⟩ := takeContexts_cases hstep
    exact ⟨h.raised, h.loop, h.closers, h.stop, h.notCollecting, h.ended, h.stopping, h.closing, h.reported⟩
  | report reply now =>
    obtain ⟨f, snapshot, window, contexts, dropped, evicted, hflush, rfl⟩ := report_cases hstep
    obtain ⟨report, haccounts, -, -, hnext⟩ := hflowing.report hflush reply now
    have hkept := h.report ⟨f, window, snapshot.events, s.history.added, evicted, report⟩ .empty
    have hreported : ∀ i, f = .closer i → ∃ d ∈ s.history.reports ++ [⟨f, window, snapshot.events, s.history.added, evicted, report⟩],
        d.flusher = .closer i ∧ Reported.Accounts sha256 limit d :=
      fun i hi => ⟨_, List.mem_append_right _ (List.mem_singleton_self _), hi, haccounts⟩
    rcases hnext with hnext | ⟨-, hnext⟩
    · rw [hnext]
      exact hkept.returned f hreported
    · rw [hnext]
      exact hkept.setFatal.setStopping f (fun _ => rfl) fun i hi _ => hreported i hi
  | stopCollecting f => exact h.stopCollecting hstep
  | loopWakes => exact h.loopWakes hstep
  | loopChecks => exact h.loopChecks hstep
  | closer i => exact h.closer hstep

/-- As long as a flush takes reportable events only, no flush raises, whatever the reporter does: the loop
ends only after `close` or a fatal response, and what `close` has to report is reported. -/
theorem flush_thread_survives (trace : List CollectorStep) (s : Collector limit)
    (hreportable : Transition.Obeys (step sha256) TakesReportable (init : Collector limit) trace)
    (hrun : run sha256 init trace = some s) : Alive sha256 s := by
  have hinv : Flowing sha256 s ∧ Surviving sha256 s :=
    Transition.invariant (P := fun s => Flowing sha256 s ∧ Surviving sha256 s)
      (fun _ _ _ h hreportable hstep => ⟨h.1.step hreportable hstep, h.2.step h.1 hstep⟩)
      ⟨flowing_init, surviving_init⟩ hreportable hrun
  exact hinv.2.alive

omit [Unicode] in
/-- A plain value is reported by the loop. -/
theorem flush_thread_survives_plain : ∃ (_ : Unicode) (s : Collector 100),
    run (fun _ => []) init (.loopWakes :: recordAndFlush .loop (.str (lit "on"))) = some s ∧
      Alive (fun _ => []) s := by
  let _ : Unicode := .ascii
  let trace := CollectorStep.loopWakes :: recordAndFlush .loop (.str (lit "on"))
  have hreportable : Transition.Obeys (step fun _ => []) TakesReportable (init : Collector 100) trace := by
    refine .cons trivial rfl (.cons trivial rfl (.cons trivial rfl (.cons trivial rfl
      (.cons ?_ rfl (.cons trivial rfl (.cons trivial rfl trivial))))))
    intro event hevent
    rw [List.mem_singleton.1 hevent]
    exact reportable_plain
  cases hrun : run (fun _ => []) (init : Collector 100) trace with
  | none => cases hrun
  | some s => exact ⟨_, s, hrun, flush_thread_survives trace s hreportable hrun⟩

omit [Unicode] in
/-- A default with a lone surrogate ends the loop. -/
theorem flush_thread_dies : ¬ ∀ (_ : Unicode) (trace : List CollectorStep) (s : Collector 100),
    run (fun _ => []) init trace = some s → Alive (fun _ => []) s := by
  intro h
  let _ : Unicode := .ascii
  cases hrun : run (fun _ => []) (init : Collector 100) (.loopWakes :: recordAndFlush .loop unencodable) with
  | none => cases hrun
  | some s =>
    have hs : some s = run (fun _ => []) (init : Collector 100) (.loopWakes :: recordAndFlush .loop unencodable) :=
      hrun.symm
    have hloop : s.loop = .died := by cases hs; rfl
    exact (h _ _ s hrun).loop hloop

end Collector

end ConfigDirector.Telemetry
