/-
`close()` is final, as long as no worker is caught between a look at the stop event and what it does
without looking again: writing the state, or calling a handler. Such a worker is there whenever `close`
is called inside a handler with calls of the same chunk left.
-/
import ConfigDirector.EventSource.Connection
import ConfigDirector.EventSource.Unbroken

namespace ConfigDirector.EventSource

open Python

/-! ## Workers that do not look again -/

/-- One of the calls reaches a handler before one of them raises. -/
def reachesHandler : List Call → Bool
  | [] => false
  | .retry milliseconds :: calls => (PyFloat.ofInt? milliseconds).isSome && reachesHandler calls
  | .event _ :: _ | .comment _ :: _ => true

namespace Worker

/-- The worker calls `on_connect`, `on_message` or `on_comment` before it looks at the stop event. -/
def Committed : Worker → Bool
  | .settingState state | .writingState state => state = .opened
  | .connected => true
  | .feeding calls _ _ => reachesHandler calls
  | .handling _ next => next.Committed
  | _ => false

/-- The calls of `close` that are under way on the worker's thread. -/
def closings : Worker → List Closing
  | .handling closing next => closing.toList ++ next.closings
  | _ => []

end Worker

namespace EventSourceClient

/-- A `close` that returns, without a `connect` meanwhile, leaves no worker committed. -/
def ClosesCleanly (s : EventSourceClient) : Closing → Prop
  | .settingStop _ => True
  | .joining event => event = s.stop → ∀ w ∈ s.workers, w.Committed = false

/-- A `close` on the worker's thread returns cleanly, and the worker does not write the state after one. -/
def WritesCleanly (s : EventSourceClient) : Worker → Prop
  | .handling (some closing) _ => s.ClosesCleanly closing
  | .writingState _ => s.history.closing = false
  | _ => True

/-- The condition: a `close` leaves no worker committed, and no worker writes the state after one. -/
def Unraced (s : EventSourceClient) : ClientStep → Prop
  | .connect => True
  | .closer i => ∀ closing ∈ s.closers i, s.ClosesCleanly closing
  | .worker i _ => ∀ w ∈ s.workers[i]?, s.WritesCleanly w

instance (s : EventSourceClient) : ∀ closing, Decidable (s.ClosesCleanly closing)
  | .settingStop _ => .isTrue trivial
  | .joining event => inferInstanceAs (Decidable (event = s.stop → _))

instance (s : EventSourceClient) (w : Worker) : Decidable (s.WritesCleanly w) := by
  unfold WritesCleanly
  split <;> infer_instance

instance (s : EventSourceClient) : ∀ e, Decidable (s.Unraced e)
  | .connect => .isTrue trivial
  | .closer i => inferInstanceAs (Decidable (∀ closing ∈ s.closers i, s.ClosesCleanly closing))
  | .worker i _ => inferInstanceAs (Decidable (∀ w ∈ s.workers[i]?, s.WritesCleanly w))

/-- From the return of `close` to the next `connect` the state is closed, and no call begins. -/
structure Final (s : EventSourceClient) : Prop where
  readyState : s.history.closed = true → s.readyState = .closed
  late : s.history.late = []

/-! ## What a worker's step does -/

/-- Nothing but the fields of the session changes, unless the state is closed or a stop event set. -/
structure Keeps (s s' : EventSourceClient) : Prop where
  readyState : s'.readyState = s.readyState ∨ s'.readyState = .closed
  stop : s'.stop = s.stop
  stopSet : ∀ event, s.stopSet event = true → s'.stopSet event = true
  created : s'.created = s.created
  workers : s'.workers = s.workers
  closers : s'.closers = s.closers
  history : s'.history = s.history

theorem Keeps.refl (s : EventSourceClient) : Keeps s s := ⟨.inl rfl, rfl, fun _ h => h, rfl, rfl, rfl, rfl⟩

/-- A step that only commits a worker that has looked, and closes nothing. -/
def Quiet (s : EventSourceClient) (w : Worker) (s' : EventSourceClient) (w' : Worker) : Prop :=
  Keeps s s' ∧ (w'.Committed = true → w.Committed = true ∨ s.stopped = false) ∧ w'.closings ⊆ w.closings

theorem Keeps.refl_session {s : EventSourceClient} (attempt : ℕ) (serverDelay : PyFloat) (lastEventId : Option Text) :
    Keeps s { s with attempt := attempt, serverDelay := serverDelay, lastEventId := lastEventId } :=
  ⟨.inl rfl, rfl, fun _ h => h, rfl, rfl, rfl, rfl⟩

theorem Keeps.setStop (s : EventSourceClient) (event : ℕ) : Keeps s (s.setStop event) := by
  refine ⟨.inl rfl, rfl, ?_, rfl, rfl, rfl, rfl⟩
  intro i hi
  show (if i = event then true else s.stopSet i) = true
  split
  · rfl
  · exact hi

theorem Keeps.ends (s : EventSourceClient) : Keeps s { s with readyState := .closed } :=
  ⟨.inr rfl, rfl, fun _ h => h, rfl, rfl, rfl, rfl⟩

/-- A worker that moves on without calling a handler. -/
theorem quiet_of_idle {s s' : EventSourceClient} (h : Keeps s s') (w : Worker) {w' : Worker}
    (hcommitted : w'.Committed = false) (hclosings : w'.closings = []) : Quiet s w s' w' := by
  refine ⟨h, ?_, ?_⟩
  · rw [hcommitted]
    exact fun h => by cases h
  · rw [hclosings]
    exact List.nil_subset _

/-- A look at the stop event: only a worker that finds it unset may be committed. -/
theorem quiet_of_look (s : EventSourceClient) (w : Worker) {w₁ w₂ : Worker} (hcommitted : w₁.Committed = false)
    (hclosings₁ : w₁.closings = []) (hclosings₂ : w₂.closings = []) :
    Quiet s w s (if s.stopped = true then w₁ else w₂) := by
  split
  · exact quiet_of_idle (.refl s) w hcommitted hclosings₁
  · rename_i hstopped
    refine ⟨.refl s, fun _ => .inr (by simpa using hstopped), ?_⟩
    rw [hclosings₂]
    exact List.nil_subset _

/-- A worker that feeds the parser, unless it finds the stop event set. -/
theorem quiet_of_feed {s s' : EventSourceClient} {w w' w₁ w₂ : Worker}
    (h : (if s.stopped = true then some (s, w₁) else some (s, w₂)) = some (s', w')) (hcommitted : w₁.Committed = false)
    (hclosings₁ : w₁.closings = []) (hclosings₂ : w₂.closings = []) : Quiet s w s' w' := by
  have hlook := quiet_of_look s w hcommitted hclosings₁ hclosings₂
  split at h
  · rename_i hstopped
    cases h
    rw [if_pos hstopped] at hlook
    exact hlook
  · rename_i hstopped
    cases h
    rw [if_neg hstopped] at hlook
    exact hlook

/-- A call of the parser is a call of a handler, by a worker that was committed, or sets the delay. -/
theorem callStep_cases (s : EventSourceClient) (calls : List Call) (result : Except StreamError Parser)
    (decoder : Option Decoder) (call : Call) :
    Quiet s (.feeding (call :: calls) result decoder) (s.callStep calls result decoder call).1
        (s.callStep calls result decoder call).2 ∨
      ∃ notice s₀, Keeps s s₀ ∧ (Worker.feeding (call :: calls) result decoder).Committed = true ∧
        s.callStep calls result decoder call = (s₀.begins notice, .handling none (.feeding calls result decoder)) := by
  cases call with
  | event message =>
    refine .inr ⟨.message message, _, ?_, rfl, rfl⟩
    cases message.id with
    | none => exact .refl s
    | some id => exact ⟨.inl rfl, rfl, fun _ h => h, rfl, rfl, rfl, rfl⟩
  | comment text => exact .inr ⟨.comment text, s, .refl s, rfl, rfl⟩
  | retry milliseconds =>
    left
    unfold callStep
    simp only
    cases hx : PyFloat.ofInt? milliseconds with
    | none =>
      simp only
      exact quiet_of_idle (.refl s) _ rfl rfl
    | some x =>
      simp only
      refine ⟨.refl_session _ _ _, fun h => .inl ?_, List.Subset.refl _⟩
      have hsome : (PyFloat.ofInt? milliseconds).isSome = true := by rw [hx]; rfl
      show ((PyFloat.ofInt? milliseconds).isSome && reachesHandler calls) = true
      rw [hsome]
      exact h

/-- A worker makes the calls of the parser, and then looks at what the parser came to. -/
theorem goStep_feeding {o : Options} {s s' : EventSourceClient} {calls : List Call} {result : Except StreamError Parser}
    {decoder : Option Decoder} {w' : Worker} (h : s.goStep o (.feeding calls result decoder) = some (s', w')) :
    Quiet s (.feeding calls result decoder) s' w' ∨
      ∃ notice s₀, Keeps s s₀ ∧ (Worker.feeding calls result decoder).Committed = true ∧ s' = s₀.begins notice ∧
        w'.closings = [] := by
  cases calls with
  | cons call calls =>
    simp only [goStep, Option.some.injEq] at h
    rcases callStep_cases s calls result decoder call with hquiet | ⟨notice, s₀, hkeeps, hcommitted, hstep⟩
    · rw [h] at hquiet
      exact .inl hquiet
    · rw [hstep] at h
      cases h
      exact .inr ⟨notice, s₀, hkeeps, hcommitted, rfl, rfl⟩
  | nil =>
    cases result with
    | error e =>
      cases h
      exact .inl (quiet_of_idle (.refl s) _ rfl rfl)
    | ok parser =>
      cases decoder with
      | none =>
        cases h
        exact .inl (quiet_of_idle (.refl s) _ rfl rfl)
      | some decoder =>
        cases h
        exact .inl (quiet_of_idle (.refl s) _ rfl rfl)

theorem goStep_cases {o : Options} {s s' : EventSourceClient} {w w' : Worker} (h : s.goStep o w = some (s', w')) :
    Quiet s w s' w' ∨
    (∃ notice s₀, Keeps s s₀ ∧ w.Committed = true ∧ s' = s₀.begins notice ∧ w'.closings ⊆ w.closings) ∨
    (∃ state, w = .writingState state ∧ s' = { s with readyState := state } ∧ w' = afterState state) ∨
    ∃ closing next, w = .handling (some closing) next ∧ s' = (s.closeStep closing).1 ∧
      w' = .handling (s.closeStep closing).2 next := by
  cases w with
  | responding status =>
    cases h
    exact .inl (quiet_of_look s _ rfl rfl rfl)
  | unopened =>
    cases h
    exact .inl (quiet_of_look s _ rfl rfl rfl)
  | responded status =>
    cases h
    refine .inl (quiet_of_idle (.refl s) _ ?_ ?_)
    · split
      · rfl
      · split <;> rfl
    · split
      · rfl
      · split <;> rfl
  | published =>
    cases h
    exact .inl (quiet_of_look s _ rfl rfl rfl)
  | settingState state =>
    cases h
    -- a worker that is to open calls `on_connect` whatever it finds
    cases state with
    | opened =>
      refine .inl ⟨.refl s, fun _ => .inl rfl, ?_⟩
      split <;> exact List.nil_subset _
    | connecting => exact .inl (quiet_of_look s _ rfl rfl rfl)
    | closed => exact .inl (quiet_of_look s _ rfl rfl rfl)
  | writingState state =>
    cases h
    exact .inr (.inr (.inl ⟨state, rfl, rfl, rfl⟩))
  | connected =>
    cases h
    exact .inr (.inl ⟨.connect, _, .refl_session 0 _ _, rfl, rfl, List.nil_subset _⟩)
  | received chunk decoder parser =>
    simp only [goStep] at h
    exact .inl (quiet_of_feed h rfl rfl rfl)
  | ending decoder parser =>
    simp only [goStep] at h
    exact .inl (quiet_of_feed h rfl rfl rfl)
  | feeding calls result decoder =>
    rcases goStep_feeding h with hquiet | ⟨notice, s₀, hkeeps, hcommitted, hbegins, hclosings⟩
    · exact .inl hquiet
    · refine .inr (.inl ⟨notice, s₀, hkeeps, hcommitted, hbegins, ?_⟩)
      rw [hclosings]
      exact List.nil_subset _
  | broken =>
    cases h
    exact .inl (quiet_of_look s _ rfl rfl rfl)
  | readDone =>
    cases h
    exact .inl (quiet_of_look s _ rfl rfl rfl)
  | delaying =>
    cases h
    exact .inl (quiet_of_idle (.refl s) _ rfl rfl)
  | waiting event =>
    cases h
    refine .inl (quiet_of_idle (.refl s) _ ?_ ?_)
    · split <;> rfl
    · split <;> rfl
  | disconnecting =>
    cases h
    exact .inl (quiet_of_idle (.ends s) _ rfl rfl)
  | disconnected =>
    cases h
    exact .inl (quiet_of_idle (.setStop s s.stop) _ rfl rfl)
  | handling closing next =>
    cases closing with
    | none => cases h
    | some closing =>
      cases h
      exact .inr (.inr (.inr ⟨closing, next, rfl, rfl, rfl⟩))
  | opening => cases h
  | reading decoder parser => cases h
  | failed => cases h
  | ended => cases h

theorem workerStep_cases {o : Options} {s s' : EventSourceClient} {w w' : Worker} {e : WorkerStep}
    (h : s.workerStep o w e = some (s', w')) :
    Quiet s w s' w' ∨
    (∃ notice s₀, Keeps s s₀ ∧ w.Committed = true ∧ s' = s₀.begins notice ∧ w'.closings ⊆ w.closings) ∨
    (∃ state, w = .writingState state ∧ s' = { s with readyState := state } ∧ w' = afterState state) ∨
    (∃ closing next, w = .handling (some closing) next ∧ s' = (s.closeStep closing).1 ∧
      w' = .handling (s.closeStep closing).2 next) ∨
    ∃ next, w = .handling none next ∧ s' = s.closeLocked ∧ w' = .handling (some (.settingStop s.stop)) next := by
  unfold workerStep at h
  split at h
  · rcases goStep_cases h with h | h | h | h
    · exact .inl h
    · exact .inr (.inl h)
    · exact .inr (.inr (.inl h))
    · exact .inr (.inr (.inr (.inl h)))
  · cases h
    exact .inl (quiet_of_idle (.refl s) _ rfl rfl)
  · cases h
    exact .inl (quiet_of_idle (.refl s) _ rfl rfl)
  · cases h
    exact .inl (quiet_of_idle (.refl s) _ rfl rfl)
  · cases h
    exact .inl (quiet_of_idle (.refl s) _ rfl rfl)
  · cases h
    exact .inl (quiet_of_idle (.refl s) _ rfl rfl)
  · rename_i reconnect
    split at h
    · cases h
      exact .inl (quiet_of_idle (.refl s) _ rfl rfl)
    · cases h
      cases reconnect with
      | true => exact .inl (quiet_of_idle (.refl_session _ _ _) _ rfl rfl)
      | false => exact .inl (quiet_of_idle (.refl_session _ _ _) _ rfl rfl)
  · rename_i next
    cases h
    exact .inr (.inr (.inr (.inr ⟨next, rfl, rfl, rfl⟩)))
  · rename_i next
    cases h
    exact .inl ⟨.refl s, fun hcommitted => .inl hcommitted, List.Subset.refl _⟩
  · cases h
    exact .inl (quiet_of_idle (.ends s) _ rfl rfl)
  · cases h

/-! ## What stays true -/

/-- A `close` under way holds a stop event there is; as long as it is the one in place, there was no
`connect` since, and it is set before the join. -/
structure Underway (s : EventSourceClient) (closing : Closing) : Prop where
  created : closing.event < s.created
  current : closing.event = s.stop → s.history.closing = true
  joining : ∀ event, closing = .joining event → s.stopSet event = true

structure Finality (s : EventSourceClient) : Prop where
  stop : s.stop < s.created
  closing : s.history.closing = true → s.readyState = .closed
  closed : s.history.closed = true → s.history.closing = true ∧ s.stopped = true
  committed : s.history.closed = true → ∀ w ∈ s.workers, w.Committed = false
  late : s.history.late = []
  closers : ∀ i closing, s.closers i = some closing → s.Underway closing
  closings : ∀ w ∈ s.workers, ∀ closing ∈ w.closings, s.Underway closing

theorem finality_init : Finality init where
  stop := Nat.zero_lt_one
  closing := fun h => by cases h
  closed := fun h => by cases h
  committed := fun h => by cases h
  late := rfl
  closers := fun _ _ h => by cases h
  closings := fun _ h => by cases h

theorem Finality.final {s : EventSourceClient} (h : Finality s) : Final s :=
  ⟨fun hclosed => h.closing (h.closed hclosed).1, h.late⟩

theorem Underway.keeps {s s' : EventSourceClient} {closing : Closing} (h : s.Underway closing) (hkeeps : Keeps s s') :
    s'.Underway closing where
  created := by rw [hkeeps.created]; exact h.created
  current := by rw [hkeeps.stop, hkeeps.history]; exact h.current
  joining := fun event he => hkeeps.stopSet event (h.joining event he)

theorem Finality.keeps {s s' : EventSourceClient} (h : Finality s) (hkeeps : Keeps s s') : Finality s' where
  stop := by rw [hkeeps.stop, hkeeps.created]; exact h.stop
  closing := by
    rw [hkeeps.history]
    intro hclosing
    rcases hkeeps.readyState with hstate | hstate
    · rw [hstate]
      exact h.closing hclosing
    · exact hstate
  closed := by
    rw [hkeeps.history]
    intro hclosed
    refine ⟨(h.closed hclosed).1, ?_⟩
    unfold stopped
    rw [hkeeps.stop]
    exact hkeeps.stopSet _ (h.closed hclosed).2
  committed := by
    rw [hkeeps.history, hkeeps.workers]
    exact h.committed
  late := by rw [hkeeps.history]; exact h.late
  closers := by
    rw [hkeeps.closers]
    exact fun i closing hi => (h.closers i closing hi).keeps hkeeps
  closings := by
    rw [hkeeps.workers]
    exact fun w hw closing hclosing => (h.closings w hw closing hclosing).keeps hkeeps

/-- A worker goes on: it may be committed only if nothing is closed. -/
theorem Finality.setWorker {s : EventSourceClient} (h : Finality s) (i : ℕ) {w : Worker}
    (hcommitted : s.history.closed = true → w.Committed = false) (hclosings : ∀ closing ∈ w.closings, s.Underway closing) :
    Finality (s.setWorker i w) where
  stop := h.stop
  closing := h.closing
  closed := h.closed
  committed := by
    intro hclosed w' hw'
    rcases List.mem_or_eq_of_mem_set hw' with hw' | rfl
    · exact h.committed hclosed w' hw'
    · exact hcommitted hclosed
  late := h.late
  closers := fun j closing hj => ⟨(h.closers j closing hj).created, (h.closers j closing hj).current,
    (h.closers j closing hj).joining⟩
  closings := by
    intro w' hw' closing hclosing
    rcases List.mem_or_eq_of_mem_set hw' with hw' | rfl
    · exact ⟨(h.closings w' hw' closing hclosing).created, (h.closings w' hw' closing hclosing).current,
        (h.closings w' hw' closing hclosing).joining⟩
    · exact ⟨(hclosings closing hclosing).created, (hclosings closing hclosing).current,
        (hclosings closing hclosing).joining⟩

/-- A `close` on another thread goes on. -/
theorem Finality.setCloser {s : EventSourceClient} (h : Finality s) (i : ℕ) {closing : Option Closing}
    (hclosing : ∀ c, closing = some c → s.Underway c) : Finality (s.setCloser i closing) where
  stop := h.stop
  closing := h.closing
  closed := h.closed
  committed := h.committed
  late := h.late
  closers := by
    intro j c hj
    have hunderway : s.Underway c := by
      change (if j = i then closing else s.closers j) = some c at hj
      split at hj
      · exact hclosing c hj
      · exact h.closers j c hj
    exact ⟨hunderway.created, hunderway.current, hunderway.joining⟩
  closings := fun w hw c hc => ⟨(h.closings w hw c hc).created, (h.closings w hw c hc).current,
    (h.closings w hw c hc).joining⟩

theorem Finality.closeLocked {s : EventSourceClient} (h : Finality s) :
    Finality s.closeLocked ∧ s.closeLocked.Underway (.settingStop s.stop) := by
  have hunderway : ∀ c, s.Underway c → s.closeLocked.Underway c := fun c hc => ⟨hc.created, fun _ => rfl, hc.joining⟩
  refine ⟨⟨h.stop, fun _ => rfl, fun hclosed => ⟨rfl, (h.closed hclosed).2⟩, h.committed, h.late, ?_, ?_⟩,
    ⟨h.stop, fun _ => rfl, ?_⟩⟩
  · exact fun i c hi => hunderway c (h.closers i c hi)
  · exact fun w hw c hc => hunderway c (h.closings w hw c hc)
  · intro event he
    cases he

/-- A step of a `close` under way, which returns only where no worker is committed. -/
theorem Finality.closeStep {s : EventSourceClient} (h : Finality s) {closing : Closing} (hunderway : s.Underway closing)
    (hclean : s.ClosesCleanly closing) :
    Finality (s.closeStep closing).1 ∧
      ∀ c, (s.closeStep closing).2 = some c → (s.closeStep closing).1.Underway c := by
  cases closing with
  | settingStop event =>
    refine ⟨h.keeps (.setStop s event), ?_⟩
    rintro c ⟨⟩
    refine ⟨hunderway.created, hunderway.current, ?_⟩
    rintro _ ⟨⟩
    exact if_pos rfl
  | joining event =>
    refine ⟨?_, fun c hc => by cases hc⟩
    show Finality (if event = s.stop then { s with history := { s.history with closed := true } } else s)
    split
    · rename_i hcurrent
      have hclosing : s.history.closing = true := hunderway.current hcurrent
      have hstopped : s.stopSet s.stop = true := by
        rw [← hcurrent]
        exact hunderway.joining event rfl
      exact ⟨h.stop, h.closing, fun _ => ⟨hclosing, hstopped⟩, fun _ => hclean hcurrent, h.late,
        fun i c hi => ⟨(h.closers i c hi).created, (h.closers i c hi).current, (h.closers i c hi).joining⟩,
        fun w hw c hc => ⟨(h.closings w hw c hc).created, (h.closings w hw c hc).current,
          (h.closings w hw c hc).joining⟩⟩
    · exact h

theorem workers_closeStep (s : EventSourceClient) (closing : Closing) : (s.closeStep closing).1.workers = s.workers := by
  cases closing with
  | settingStop event => rfl
  | joining event =>
    show (if event = s.stop then _ else s).workers = s.workers
    split <;> rfl

/-- `connect` puts a stop event in place that no `close` under way holds. -/
theorem Finality.connectStep {s : EventSourceClient} (h : Finality s) : Finality s.connectStep := by
  unfold EventSourceClient.connectStep
  split
  · have hunderway : ∀ c, s.Underway c → ({ s with
        readyState := .connecting
        attempt := 0
        stop := s.created
        created := s.created + 1
        workers := s.workers ++ [.opening]
        history := { s.history with closing := false, closed := false } } : EventSourceClient).Underway c :=
      fun c hc => ⟨Nat.lt_succ_of_lt hc.created, fun hcurrent => absurd hcurrent (Nat.ne_of_lt hc.created), hc.joining⟩
    refine ⟨Nat.lt_succ_self _, ?_, ?_, ?_, h.late, fun i c hi => hunderway c (h.closers i c hi), ?_⟩
    · intro hclosing
      cases hclosing
    · intro hclosed
      cases hclosed
    · intro hclosed
      cases hclosed
    · intro w hw c hc
      rcases List.mem_append.1 hw with hw | hw
      · exact hunderway c (h.closings w hw c hc)
      · rw [List.mem_singleton.1 hw] at hc
        cases hc
  · exact h

/-- A worker that moves on without calling a handler. -/
theorem Finality.quiet {s s' : EventSourceClient} (h : Finality s) (i : ℕ) {w w' : Worker} (hw : w ∈ s.workers)
    (hquiet : Quiet s w s' w') : Finality (s'.setWorker i w') := by
  obtain ⟨hkeeps, hcommitted, hclosings⟩ := hquiet
  refine (h.keeps hkeeps).setWorker i ?_ ?_
  · intro hclosed
    rw [hkeeps.history] at hclosed
    by_contra hw'
    -- it would have been committed already, or have found the stop event unset
    rcases hcommitted (by simpa using hw') with hcommitted | hstopped
    · rw [h.committed hclosed w hw] at hcommitted
      cases hcommitted
    · rw [(h.closed hclosed).2] at hstopped
      cases hstopped
  · exact fun c hc => (h.closings w hw c (hclosings hc)).keeps hkeeps

/-- A committed worker that calls a handler: nothing is closed. -/
theorem Finality.begins {s s₀ : EventSourceClient} (h : Finality s) (i : ℕ) {w w' : Worker} (hw : w ∈ s.workers)
    (notice : Notice) (hkeeps : Keeps s s₀) (hcommitted : w.Committed = true) (hclosings : w'.closings ⊆ w.closings) :
    Finality ((s₀.begins notice).setWorker i w') := by
  have hclosed : s₀.history.closed = false := by
    rw [hkeeps.history]
    by_contra hclosed
    rw [h.committed (by simpa using hclosed) w hw] at hcommitted
    cases hcommitted
  have hbegins : s₀.begins notice = s₀ := by
    unfold EventSourceClient.begins
    rw [hclosed]
    rfl
  rw [hbegins]
  refine (h.keeps hkeeps).setWorker i ?_ ?_
  · rw [hclosed]
    exact fun hf => by cases hf
  · exact fun c hc => (h.closings w hw c (hclosings hc)).keeps hkeeps

/-- A worker that writes the state, when no `close` has taken the lock since the last `connect`. -/
theorem Finality.writes {s : EventSourceClient} (h : Finality s) (i : ℕ) (state : ReadyState)
    (hclosing : s.history.closing = false) : Finality (({ s with readyState := state }).setWorker i (afterState state)) := by
  have hclosed : s.history.closed = false := by
    by_contra hclosed
    rw [(h.closed (by simpa using hclosed)).1] at hclosing
    cases hclosing
  have hwrites : Finality { s with readyState := state } := by
    refine ⟨h.stop, ?_, ?_, h.committed, h.late, fun j c hj => ⟨(h.closers j c hj).created,
      (h.closers j c hj).current, (h.closers j c hj).joining⟩, fun v hv c hc => ⟨(h.closings v hv c hc).created,
      (h.closings v hv c hc).current, (h.closings v hv c hc).joining⟩⟩
    · show s.history.closing = true → _
      rw [hclosing]
      exact fun hf => by cases hf
    · show s.history.closed = true → _
      rw [hclosed]
      exact fun hf => by cases hf
  refine hwrites.setWorker i ?_ ?_
  · show s.history.closed = true → _
    rw [hclosed]
    exact fun hf => by cases hf
  · cases state <;> exact fun c hc => by cases hc

/-- A step of the `close` that a handler has called. -/
theorem Finality.closesOn {s : EventSourceClient} (h : Finality s) (i : ℕ) {closing : Closing} {next : Worker}
    (hw : .handling (some closing) next ∈ s.workers) (hclean : s.ClosesCleanly closing) :
    Finality ((s.closeStep closing).1.setWorker i (.handling (s.closeStep closing).2 next)) := by
  have hclosing : closing ∈ (Worker.handling (some closing) next).closings := List.mem_cons_self ..
  obtain ⟨hfinality, hunderway⟩ := h.closeStep (h.closings _ hw closing hclosing) hclean
  rw [← workers_closeStep s closing] at hw
  have hnext : (s.closeStep closing).1.history.closed = true → next.Committed = false := fun hclosed =>
    hfinality.committed hclosed (.handling (some closing) next) hw
  refine hfinality.setWorker i hnext ?_
  intro c hc
  rcases List.mem_append.1 hc with hc | hc
  · exact hunderway c (Option.mem_toList.1 hc)
  · exact hfinality.closings _ hw c (List.mem_cons_of_mem _ hc)

/-- A handler that calls `close`. -/
theorem Finality.closesFirst {s : EventSourceClient} (h : Finality s) (i : ℕ) {next : Worker}
    (hw : .handling none next ∈ s.workers) :
    Finality (s.closeLocked.setWorker i (.handling (some (.settingStop s.stop)) next)) := by
  obtain ⟨hfinality, hunderway⟩ := h.closeLocked
  have hnext : s.closeLocked.history.closed = true → next.Committed = false := fun hclosed =>
    hfinality.committed hclosed (.handling none next) hw
  refine hfinality.setWorker i hnext ?_
  intro c hc
  rcases List.mem_cons.1 hc with rfl | hc
  · exact hunderway
  · exact hfinality.closings _ hw c hc

theorem Finality.step {o : Options} {s s' : EventSourceClient} {e : ClientStep} (h : Finality s) (hguard : s.Unraced e)
    (hstep : step o s e = some s') : Finality s' := by
  cases e with
  | connect =>
    cases hstep
    exact h.connectStep
  | closer i =>
    simp only [EventSourceClient.step] at hstep
    cases hi : s.closers i with
    | none =>
      rw [hi] at hstep
      cases hstep
      refine h.closeLocked.1.setCloser i ?_
      rintro c ⟨⟩
      exact h.closeLocked.2
    | some closing =>
      rw [hi] at hstep
      cases hstep
      have hclean : s.ClosesCleanly closing := hguard closing hi
      obtain ⟨hfinality, hunderway⟩ := h.closeStep (h.closers i closing hi) hclean
      exact hfinality.setCloser i hunderway
  | worker i e =>
    simp only [EventSourceClient.step] at hstep
    cases hi : s.workers[i]? with
    | none =>
      rw [hi] at hstep
      cases hstep
    | some w =>
      rw [hi] at hstep
      obtain ⟨⟨s₁, w'⟩, hworker, rfl⟩ := Option.map_eq_some_iff.1 hstep
      have hw : w ∈ s.workers := List.mem_of_getElem? hi
      rcases workerStep_cases hworker with hquiet | ⟨notice, s₀, hkeeps, hcommitted, rfl, hclosings⟩ |
        ⟨state, rfl, rfl, rfl⟩ | ⟨closing, next, rfl, rfl, rfl⟩ | ⟨next, rfl, rfl, rfl⟩
      · exact h.quiet i hw hquiet
      · exact h.begins i hw notice hkeeps hcommitted hclosings
      · exact h.writes i state (hguard _ hi)
      · exact h.closesOn i hw (hguard _ hi)
      · exact h.closesFirst i hw

/-- As long as a `close` leaves no worker committed and none writes the state after one, `close` is final:
from its return to the next `connect` the state is closed and no handler is called. -/
theorem close_is_final (o : Options) (trace : List ClientStep) (s : EventSourceClient)
    (hguard : Transition.Obeys (step o) Unraced init trace) (hrun : run o init trace = some s) : Final s := by
  have hfinality : Finality s :=
    Transition.invariant (fun _ _ _ h hguard hstep => h.step hguard hstep) finality_init hguard hrun
  exact hfinality.final

/-! ## One connection -/

/-- `connect`, and a response that opens the stream. -/
def opensStream : List ClientStep :=
  [.connect, .worker 0 (.opens (some 200)), .worker 0 .goes, .worker 0 .goes, .worker 0 .goes, .worker 0 .goes,
    .worker 0 .goes, .worker 0 .goes, .worker 0 .returns]

/-- A chunk, and `close` in the handler of its first event. -/
def closesInHandler (chunk : Bytes) : List ClientStep :=
  [.worker 0 (.receives chunk), .worker 0 .goes, .worker 0 .goes, .worker 0 .closes, .worker 0 .goes, .worker 0 .goes,
    .worker 0 .returns]

/-- A `close` in the handler of the last event of its chunk; the chunk after it is not fed. -/
theorem close_is_final_last : ∃ s, run (clientOptions 10 10 10) init
    (opensStream ++ closesInHandler sampleEvent ++ [.worker 0 .goes, .worker 0 (.receives sampleEvent), .worker 0 .goes]) =
      some s ∧ Final s := by
  let trace := opensStream ++ closesInHandler sampleEvent ++
    [.worker 0 .goes, .worker 0 (.receives sampleEvent), .worker 0 .goes]
  obtain ⟨s, hrun⟩ : ∃ s, run (clientOptions 10 10 10) init trace = some s := Option.isSome_iff_exists.1 (by decide)
  exact ⟨s, hrun, close_is_final _ trace s (by decide) hrun⟩

/-- The second event of a chunk is delivered after the `close` in the handler of the first. -/
theorem close_overtaken : ¬ ∀ (trace : List ClientStep) (s : EventSourceClient),
    run (clientOptions (2 ^ 20) (2 ^ 24) 4300) init trace = some s → Final s := by
  intro h
  let trace := opensStream ++ closesInHandler (sampleEvent ++ sampleEvent) ++ [.worker 0 .goes]
  cases hrun : run (clientOptions (2 ^ 20) (2 ^ 24) 4300) init trace with
  | none => exact absurd (congrArg Option.isSome hrun) (by decide)
  | some s =>
    have hlate : (run (clientOptions (2 ^ 20) (2 ^ 24) 4300) init trace).map (fun s => s.history.late) =
        some [.message ⟨lit "x", none, none⟩] := by decide
    rw [hrun, Option.map_some, (h trace s hrun).late] at hlate
    cases hlate

end EventSourceClient

end ConfigDirector.EventSource
