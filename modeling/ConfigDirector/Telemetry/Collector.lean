/-
The collector (`_telemetry.collector`) as threads that interleave: recorders, the flush thread, callers
of `flush` and of `close`. They are cut at the locked sections; a flush holds the flush lock, so there is
one at a time. Waits and joins may end at any time, and the reporter may answer anything or raise.
-/
import ConfigDirector.Machine.Transition
import ConfigDirector.Telemetry.Queue

namespace ConfigDirector.Telemetry

open Python

/-! ## Threads -/

/-- The share of the limit that events get: `_EVALUATION_SHARE` tenths. -/
def evaluationLimit (limit : ℕ) : ℕ := limit * 7 / 10

def contextLimit (limit : ℕ) : ℕ := limit - evaluationLimit limit

/-- `record_evaluation`, before each of its steps. -/
inductive Recorder
  | idle
  | adding (r : Recording) (key : ContextKey) (context : Context)
  | pushing (r : Recording)

/-- Who runs `flush`. -/
inductive Flusher
  | loop
  | closer (i : ℕ)
  | caller (i : ℕ)
deriving DecidableEq

/-- `flush` under its lock, before each of its steps. The events pushed since the snapshot before, and the
keys evicted since the contexts were taken last, are kept for what is said of a report. -/
inductive Flush
  | locked
  | events (snapshot : EventQueueSnapshot) (window : List EvaluatedConfigEvent)
  | contexts (snapshot : EventQueueSnapshot) (window : List EvaluatedConfigEvent) (contexts : List Context)
      (dropped : ℕ) (evicted : List ContextKey)

/-- `_stop_collecting`, before each of its steps; the three clears are one. -/
inductive Stopping
  | no
  | locking
  | settingStop
  | clearing
deriving DecidableEq

/-- `_run`, before each of its steps. -/
inductive Loop
  | waiting
  | flushing
  | checking
  | ended
  /-- A flush has raised. -/
  | died
deriving DecidableEq

/-- `close`, before each of its steps; `was` is whether it was collecting, `flushed` whether it has flushed. -/
inductive Closer
  | uncalled
  | settingStop (was : Bool)
  | joining (was : Bool)
  | flushing
  | clearing (flushed : Bool)
  | returned (flushed : Bool)
  | raised
deriving DecidableEq

/-- What the reporter does: it raises, or returns a response. -/
inductive Reply
  | raises
  | responds (fatal : Bool)
deriving DecidableEq

/-! ## History -/

/-- A report that was built, handed to the reporter unless it was empty. -/
structure Reported where
  flusher : Flusher
  window : List EvaluatedConfigEvent
  events : List EvaluatedConfigEvent
  /-- The keys added to the registry before, and those evicted from it for this report. -/
  added : List ContextKey
  evicted : List ContextKey
  report : EventReport

/-- What has happened: the program does not keep it. -/
structure History where
  recorded : List EvaluatedConfigEvent
  /-- The events pushed since the last snapshot. -/
  window : List EvaluatedConfigEvent
  added : List ContextKey
  /-- The keys evicted since the contexts were taken. -/
  evicted : List ContextKey
  reports : List Reported
  raised : List Flusher
  fatal : Bool

/-! ## Model -/

structure Collector (limit : ℕ) where
  events : EventQueue (evaluationLimit limit)
  contexts : ContextRegistry (contextLimit limit)
  invalidContexts : InvalidContextSubmissions
  invalidContextsAfterStopping : InvalidContextSubmissions
  collecting : Bool
  closed : Bool
  stop : Bool
  recorders : ℕ → Recorder
  /-- The holder of the flush lock. -/
  flush : Option (Flusher × Flush)
  stopping : Flusher → Stopping
  loop : Loop
  closers : ℕ → Closer
  history : History

/-- The next step of one of the threads. -/
inductive CollectorStep
  | record (i : ℕ) (r : Recording)
  | addContext (i : ℕ)
  | push (i : ℕ) (now : Instant)
  | recordInvalidContext (kindSample : Text) (now : Instant)
  | acquire (f : Flusher)
  | takeEvents (now : Instant)
  | takeContexts
  | report (reply : Reply) (now : Instant)
  | stopCollecting (f : Flusher)
  | loopWakes
  | loopChecks
  | closer (i : ℕ)

namespace Collector

variable {limit : ℕ}

/-- A collector that has just been built: its thread waits. -/
def init : Collector limit where
  events := .empty
  contexts := .empty
  invalidContexts := .empty
  invalidContextsAfterStopping := .empty
  collecting := true
  closed := false
  stop := false
  recorders := fun _ => .idle
  flush := none
  stopping := fun _ => .no
  loop := .waiting
  closers := fun _ => .uncalled
  history := ⟨[], [], [], [], [], [], false⟩

def setRecorder (s : Collector limit) (i : ℕ) (recorder : Recorder) : Collector limit :=
  { s with recorders := fun j => if j = i then recorder else s.recorders j }

def setCloser (s : Collector limit) (i : ℕ) (closer : Closer) : Collector limit :=
  { s with closers := fun j => if j = i then closer else s.closers j }

def setStopping (s : Collector limit) (f : Flusher) (stopping : Stopping) : Collector limit :=
  { s with stopping := fun g => if g = f then stopping else s.stopping g }

/-- The events, the contexts and the invalid contexts are cleared. -/
def clear (s : Collector limit) : Collector limit :=
  { s with
    events := .empty
    contexts := .empty
    invalidContexts := .empty
    history := { s.history with window := [], evicted := [] } }

/-- Whether it is the flusher's turn to flush. -/
def wantsFlush (s : Collector limit) : Flusher → Bool
  | .loop => s.loop == .flushing && s.stopping .loop == .no
  | .closer i => s.closers i == .flushing && s.stopping (.closer i) == .no
  | .caller i => s.stopping (.caller i) == .no

/-- `flush` has returned to who called it. -/
def returned (s : Collector limit) : Flusher → Collector limit
  | .loop => { s with loop := .checking }
  | .closer i => s.setCloser i (.clearing true)
  | .caller _ => s

/-- `flush` has raised, and releases its lock. -/
def raise (s : Collector limit) (f : Flusher) : Collector limit :=
  let s := { s with history := { s.history with raised := f :: s.history.raised } }
  match f with
  | .loop => { s with loop := .died }
  | .closer i => s.setCloser i .raised
  | .caller _ => s

/-- `_stop_collecting`. -/
def stopCollectingStep (s : Collector limit) (f : Flusher) : Option (Collector limit) :=
  match s.stopping f with
  | .no => none
  | .locking =>
    if s.collecting then some ({ s with collecting := false }.setStopping f .settingStop)
    else some ((s.setStopping f .no).returned f)
  | .settingStop => some ({ s with stop := true }.setStopping f .clearing)
  | .clearing => some ((s.clear.setStopping f .no).returned f)

/-- `close`, apart from its flush. -/
def closerStep (s : Collector limit) (i : ℕ) : Option (Collector limit) :=
  match s.closers i with
  | .uncalled =>
    if s.closed then some (s.setCloser i (.returned false))
    else some ({ s with closed := true, collecting := false }.setCloser i (.settingStop s.collecting))
  | .settingStop was => some ({ s with stop := true }.setCloser i (.joining was))
  | .joining was => some (s.setCloser i (if was then .flushing else .clearing false))
  | .clearing flushed => some (s.clear.setCloser i (.returned flushed))
  | .flushing | .returned _ | .raised => none

/-- The report is built and handed over. -/
def reportStep (sha256 : Bytes → Bytes) (s : Collector limit) (f : Flusher) (snapshot : EventQueueSnapshot)
    (window : List EvaluatedConfigEvent) (contexts : List Context) (dropped : ℕ) (evicted : List ContextKey)
    (reply : Reply) (now : Instant) : Collector limit :=
  let s := { s with flush := none }
  match EventReport.build sha256 snapshot contexts dropped (s.invalidContexts.snapshot now) with
  | .error _ => s.raise f
  | .ok report =>
    let reported : Reported := ⟨f, window, snapshot.events, s.history.added, evicted, report⟩
    let s := { s with
      invalidContexts := .empty
      history := { s.history with reports := s.history.reports ++ [reported] } }
    if report.isEmpty then s.returned f
    else
      match reply with
      | .responds true => { s with history := { s.history with fatal := true } }.setStopping f .locking
      | _ => s.returned f

variable [Unicode]

def step (sha256 : Bytes → Bytes) (s : Collector limit) : CollectorStep → Option (Collector limit)
  | .record i r =>
    match s.recorders i with
    | .idle =>
      if s.collecting then
        match r.contextKey, r.context with
        | some key, some context => some (s.setRecorder i (.adding r key context))
        | _, _ => some (s.setRecorder i (.pushing r))
      else some s
    | _ => none
  | .addContext i =>
    match s.recorders i with
    | .adding r key context =>
      some ({ s with
        contexts := s.contexts.add key context
        history := { s.history with
          added := key :: s.history.added
          evicted := s.history.evicted ++ s.contexts.evicted key context } }.setRecorder i (.pushing r))
    | _ => none
  | .push i now =>
    match s.recorders i with
    | .pushing r =>
      some ({ s with
        events := s.events.push r.event now
        history := { s.history with
          recorded := s.history.recorded ++ [r.event]
          window := s.history.window ++ [r.event] } }.setRecorder i .idle)
    | _ => none
  | .recordInvalidContext kindSample now =>
    if s.collecting then some { s with invalidContexts := (s.invalidContexts.record kindSample now).1 }
    else some { s with invalidContextsAfterStopping := (s.invalidContextsAfterStopping.record kindSample now).1 }
  | .acquire f =>
    if s.flush.isNone && s.wantsFlush f then some { s with flush := some (f, .locked) } else none
  | .takeEvents now =>
    match s.flush with
    | some (f, .locked) =>
      some { s with
        events := .empty
        flush := some (f, .events (s.events.snapshot now) s.history.window)
        history := { s.history with window := [] } }
    | _ => none
  | .takeContexts =>
    match s.flush with
    | some (f, .events snapshot window) =>
      some { s with
        contexts := .empty
        flush := some (f, .contexts snapshot window s.contexts.listed s.contexts.droppedCount s.history.evicted)
        history := { s.history with evicted := [] } }
    | _ => none
  | .report reply now =>
    match s.flush with
    | some (f, .contexts snapshot window contexts dropped evicted) =>
      some (s.reportStep sha256 f snapshot window contexts dropped evicted reply now)
    | _ => none
  | .stopCollecting f => s.stopCollectingStep f
  | .loopWakes =>
    match s.loop with
    | .waiting => some { s with loop := if s.stop then .ended else .flushing }
    | _ => none
  | .loopChecks =>
    match s.loop with
    | .checking => some { s with loop := if s.collecting then .waiting else .ended }
    | _ => none
  | .closer i => s.closerStep i

/-- What a collector comes to. -/
abbrev run (sha256 : Bytes → Bytes) : Collector limit → List CollectorStep → Option (Collector limit) :=
  Transition.run (step sha256)

/-! ## What each step does -/

variable {sha256 : Bytes → Bytes} {s s' : Collector limit}

omit [Unicode] in
/-- A recording with a key is one with a context of that kind and id. -/
theorem contextKey_eq_some {r : Recording} {key : ContextKey}
    (h : r.contextKey = some key) :
    ∃ context, r.context = some context ∧ context.id = some key.2 ∧ effectiveKind (some context) = key.1 := by
  unfold Recording.contextKey at h
  cases hcontext : r.context with
  | none => rw [hcontext] at h; cases h
  | some context =>
    rw [hcontext] at h
    dsimp only at h
    cases hid : context.id with
    | none => rw [hid] at h; cases h
    | some id =>
      rw [hid] at h
      dsimp only at h
      split at h
      · cases h
        exact ⟨context, rfl, hid, rfl⟩
      · cases h

theorem record_cases {i : ℕ} {r : Recording} (h : step sha256 s (.record i r) = some s') :
    s' = s ∨ s.collecting = true ∧
      ((∃ key context, r.contextKey = some key ∧ r.context = some context ∧
        s' = s.setRecorder i (.adding r key context)) ∨
      r.contextKey = none ∧ s' = s.setRecorder i (.pushing r)) := by
  simp only [step] at h
  split at h
  · split at h
    · rename_i hcollecting
      cases hkey : r.contextKey with
      | none =>
        rw [hkey] at h
        cases h
        exact .inr ⟨hcollecting, .inr ⟨rfl, rfl⟩⟩
      | some key =>
        obtain ⟨context, hcontext, -⟩ := contextKey_eq_some hkey
        rw [hkey, hcontext] at h
        cases h
        exact .inr ⟨hcollecting, .inl ⟨key, context, rfl, hcontext, rfl⟩⟩
    · cases h
      exact .inl rfl
  · cases h

theorem addContext_cases {i : ℕ} (h : step sha256 s (.addContext i) = some s') :
    ∃ r key context, s.recorders i = .adding r key context ∧
      s' = { s with
        contexts := s.contexts.add key context
        history := { s.history with
          added := key :: s.history.added
          evicted := s.history.evicted ++ s.contexts.evicted key context } }.setRecorder i (.pushing r) := by
  simp only [step] at h
  split at h
  · rename_i r key context hrecorder
    cases h
    exact ⟨r, key, context, hrecorder, rfl⟩
  · cases h

theorem push_cases {i : ℕ} {now : Instant} (h : step sha256 s (.push i now) = some s') :
    ∃ r, s.recorders i = .pushing r ∧
      s' = { s with
        events := s.events.push r.event now
        history := { s.history with
          recorded := s.history.recorded ++ [r.event]
          window := s.history.window ++ [r.event] } }.setRecorder i .idle := by
  simp only [step] at h
  split at h
  · rename_i r hrecorder
    cases h
    exact ⟨r, hrecorder, rfl⟩
  · cases h

/-- Only the submissions of invalid contexts change. -/
theorem recordInvalidContext_cases {kindSample : Text} {now : Instant}
    (h : step sha256 s (.recordInvalidContext kindSample now) = some s') :
    ∃ invalidContexts afterStopping,
      s' = { s with invalidContexts := invalidContexts, invalidContextsAfterStopping := afterStopping } := by
  simp only [step] at h
  split at h
  · cases h
    exact ⟨_, _, rfl⟩
  · cases h
    exact ⟨_, _, rfl⟩

theorem acquire_cases {f : Flusher} (h : step sha256 s (.acquire f) = some s') :
    s.flush = none ∧ s.wantsFlush f = true ∧ s' = { s with flush := some (f, .locked) } := by
  simp only [step, Bool.and_eq_true, Option.isNone_iff_eq_none] at h
  split at h
  · rename_i hturn
    cases h
    exact ⟨hturn.1, hturn.2, rfl⟩
  · cases h

theorem takeEvents_cases {now : Instant} (h : step sha256 s (.takeEvents now) = some s') :
    ∃ f, s.flush = some (f, .locked) ∧
      s' = { s with
        events := .empty
        flush := some (f, .events (s.events.snapshot now) s.history.window)
        history := { s.history with window := [] } } := by
  simp only [step] at h
  split at h
  · rename_i f hflush
    cases h
    exact ⟨f, hflush, rfl⟩
  · cases h

theorem takeContexts_cases (h : step sha256 s .takeContexts = some s') :
    ∃ f snapshot window, s.flush = some (f, .events snapshot window) ∧
      s' = { s with
        contexts := .empty
        flush := some (f, .contexts snapshot window s.contexts.listed s.contexts.droppedCount s.history.evicted)
        history := { s.history with evicted := [] } } := by
  simp only [step] at h
  split at h
  · rename_i f snapshot window hflush
    cases h
    exact ⟨f, snapshot, window, hflush, rfl⟩
  · cases h

theorem report_cases {reply : Reply} {now : Instant} (h : step sha256 s (.report reply now) = some s') :
    ∃ f snapshot window contexts dropped evicted,
      s.flush = some (f, .contexts snapshot window contexts dropped evicted) ∧
      s' = s.reportStep sha256 f snapshot window contexts dropped evicted reply now := by
  simp only [step] at h
  split at h
  · rename_i f snapshot window contexts dropped evicted hflush
    cases h
    exact ⟨f, snapshot, window, contexts, dropped, evicted, hflush, rfl⟩
  · cases h

theorem loopWakes_cases (h : step sha256 s .loopWakes = some s') :
    s.loop = .waiting ∧ s' = { s with loop := if s.stop then .ended else .flushing } := by
  simp only [step] at h
  split at h
  · rename_i hloop
    cases h
    exact ⟨hloop, rfl⟩
  · cases h

theorem loopChecks_cases (h : step sha256 s .loopChecks = some s') :
    s.loop = .checking ∧ s' = { s with loop := if s.collecting then .waiting else .ended } := by
  simp only [step] at h
  split at h
  · rename_i hloop
    cases h
    exact ⟨hloop, rfl⟩
  · cases h

omit [Unicode] in
/-- A report that is built is kept, and `flush` returns or goes on to stop collecting. -/
theorem reportStep_cases (f : Flusher) (snapshot : EventQueueSnapshot) (window : List EvaluatedConfigEvent)
    (contexts : List Context) (dropped : ℕ) (evicted : List ContextKey) (reply : Reply) (now : Instant) :
    (∃ e, EventReport.build sha256 snapshot contexts dropped (s.invalidContexts.snapshot now) = .error e ∧
      s.reportStep sha256 f snapshot window contexts dropped evicted reply now = { s with flush := none }.raise f) ∨
    ∃ report : EventReport,
      EventReport.build sha256 snapshot contexts dropped (s.invalidContexts.snapshot now) = .ok report ∧
      let reported : Reported := ⟨f, window, snapshot.events, s.history.added, evicted, report⟩
      let kept : Collector limit := { s with
        flush := none
        invalidContexts := .empty
        history := { s.history with reports := s.history.reports ++ [reported] } }
      (s.reportStep sha256 f snapshot window contexts dropped evicted reply now = kept.returned f ∨
        reply = .responds true ∧ s.reportStep sha256 f snapshot window contexts dropped evicted reply now =
          { kept with history := { kept.history with fatal := true } }.setStopping f .locking) := by
  unfold reportStep
  cases hbuild : EventReport.build sha256 snapshot contexts dropped (s.invalidContexts.snapshot now) with
  | error e => exact .inl ⟨e, rfl, by simp only [hbuild]⟩
  | ok report =>
    refine .inr ⟨report, rfl, ?_⟩
    simp only [hbuild]
    cases report.isEmpty with
    | true => exact .inl rfl
    | false =>
      cases reply with
      | raises => exact .inl rfl
      | responds fatal =>
        cases fatal with
        | false => exact .inl rfl
        | true => exact .inr ⟨rfl, rfl⟩

theorem stopCollecting_cases {f : Flusher} (h : step sha256 s (.stopCollecting f) = some s') :
    (s.stopping f = .locking ∧ s.collecting = true ∧ s' = { s with collecting := false }.setStopping f .settingStop) ∨
    (s.stopping f = .locking ∧ s.collecting = false ∧ s' = (s.setStopping f .no).returned f) ∨
    (s.stopping f = .settingStop ∧ s' = { s with stop := true }.setStopping f .clearing) ∨
    (s.stopping f = .clearing ∧ s' = (s.clear.setStopping f .no).returned f) := by
  simp only [step, stopCollectingStep] at h
  split at h
  · cases h
  · rename_i hstopping
    split at h
    · rename_i hcollecting
      cases h
      exact .inl ⟨hstopping, hcollecting, rfl⟩
    · rename_i hcollecting
      cases h
      exact .inr (.inl ⟨hstopping, by simpa using hcollecting, rfl⟩)
  · rename_i hstopping
    cases h
    exact .inr (.inr (.inl ⟨hstopping, rfl⟩))
  · rename_i hstopping
    cases h
    exact .inr (.inr (.inr ⟨hstopping, rfl⟩))

theorem closer_cases {i : ℕ} (h : step sha256 s (.closer i) = some s') :
    (s.closers i = .uncalled ∧ s.closed = true ∧ s' = s.setCloser i (.returned false)) ∨
    (s.closers i = .uncalled ∧ s.closed = false ∧
      s' = { s with closed := true, collecting := false }.setCloser i (.settingStop s.collecting)) ∨
    (∃ was, s.closers i = .settingStop was ∧ s' = { s with stop := true }.setCloser i (.joining was)) ∨
    (∃ was, s.closers i = .joining was ∧ s' = s.setCloser i (if was then .flushing else .clearing false)) ∨
    ∃ flushed, s.closers i = .clearing flushed ∧ s' = s.clear.setCloser i (.returned flushed) := by
  simp only [step, closerStep] at h
  split at h
  · rename_i hcloser
    split at h
    · rename_i hclosed
      cases h
      exact .inl ⟨hcloser, hclosed, rfl⟩
    · rename_i hclosed
      cases h
      exact .inr (.inl ⟨hcloser, by simpa using hclosed, rfl⟩)
  · rename_i was hcloser
    cases h
    exact .inr (.inr (.inl ⟨was, hcloser, rfl⟩))
  · rename_i was hcloser
    cases h
    exact .inr (.inr (.inr (.inl ⟨was, hcloser, rfl⟩)))
  · rename_i flushed hcloser
    cases h
    exact .inr (.inr (.inr (.inr ⟨flushed, hcloser, rfl⟩)))
  · cases h
  · cases h
  · cases h

end Collector

end ConfigDirector.Telemetry
