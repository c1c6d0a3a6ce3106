/-
A reported evaluation never refers to a context the server has not been told about. A recorder adds its
context before it pushes its event, and a flush takes the events before it takes the contexts; a flush
that raises in between would lose contexts that later events refer to.
-/
import ConfigDirector.Telemetry.Accounts

namespace ConfigDirector.Telemetry

open Python

/-! ## Contexts -/

/-- The kind and id of the context an event refers to. -/
def EvaluatedConfigEvent.contextKey? (event : EvaluatedConfigEvent) : Option ContextKey :=
  match event.contextKind, event.contextId with
  | some kind, some id => some (kind, id)
  | _, _ => none

theorem contextKey?_event [Unicode] (r : Recording) : r.event.contextKey? = r.contextKey := by
  have hkind : r.event.contextKind = r.contextKey.map Prod.fst := rfl
  have hid : r.event.contextId = r.contextKey.map Prod.snd := rfl
  unfold EvaluatedConfigEvent.contextKey?
  rw [hkind, hid]
  cases r.contextKey <;> rfl

theorem contextKey?_compacted {sha256 : Bytes → Bytes} {event compacted : EvaluatedConfigEvent}
    (h : event.compacted sha256 = .ok compacted) : compacted.contextKey? = event.contextKey? := by
  obtain ⟨-, hkind, hid⟩ := compacted_keeps h
  unfold EvaluatedConfigEvent.contextKey?
  rw [hkind, hid]

/-- The context has this kind and id. -/
def IsKeyed (context : Context) (key : ContextKey) : Prop :=
  context.id = some key.2 ∧ effectiveKind (some context) = key.1

/-- The contexts, or the evictions counted as dropped, tell of the key. -/
def Tell (contexts : List Context) (dropped : ℕ) (evicted : List ContextKey) (key : ContextKey) : Prop :=
  (∃ context ∈ contexts, IsKeyed context key) ∨ key ∈ evicted ∧ dropped = evicted.length

def Reported.Tells (d : Reported) (key : ContextKey) : Prop :=
  Tell d.report.contexts d.report.droppedContexts d.evicted key

namespace Collector

variable {limit : ℕ}

/-- Every context a reported event refers to was added before, and this report or an earlier one has it,
or counts its eviction. -/
def Told (s : Collector limit) : Prop :=
  ∀ before d after, s.history.reports = before ++ d :: after → ∀ evaluation ∈ d.report.evaluations, ∀ key,
    evaluation.event.contextKey? = some key → key ∈ d.added ∧ ∃ d' ∈ before ++ [d], d'.Tells key

/-! ## What is known of a context -/

/-- A flush under way tells of the key. -/
def FlightTells (s : Collector limit) (key : ContextKey) : Prop :=
  match s.flush with
  | some (_, .contexts _ _ contexts dropped evicted) => Tell contexts dropped evicted key
  | _ => False

def ReportsTell (s : Collector limit) (key : ContextKey) : Prop := ∃ d ∈ s.history.reports, d.Tells key

/-- The key was added, and is in the registry or evicted from it, in a flush under way or reported. -/
structure Known (s : Collector limit) (key : ContextKey) : Prop where
  added : key ∈ s.history.added
  known : key ∈ s.contexts.contexts.keys ∨ key ∈ s.history.evicted ∨ s.FlightTells key ∨ s.ReportsTell key

/-- The key was added, and this flush or a report tells of it. -/
structure AlmostTold (s : Collector limit) (key : ContextKey) : Prop where
  added : key ∈ s.history.added
  told : s.FlightTells key ∨ s.ReportsTell key

/-- The events a flush has taken, by whether it has taken the contexts. -/
def FlightKnown (s : Collector limit) : Prop :=
  match s.flush with
  | some (_, .events snapshot _) => ∀ event ∈ snapshot.events, ∀ key, event.contextKey? = some key → s.Known key
  | some (_, .contexts snapshot _ _ _ _) =>
    ∀ event ∈ snapshot.events, ∀ key, event.contextKey? = some key → s.AlmostTold key
  | _ => True

structure Telling (s : Collector limit) : Prop where
  keyed : s.contexts.Keyed
  dropped : s.contexts.droppedCount = s.history.evicted.length
  adding : ∀ i r key context, s.recorders i = .adding r key context → r.contextKey = some key ∧ IsKeyed context key
  pushing : ∀ i r key, s.recorders i = .pushing r → r.contextKey = some key → s.Known key
  queued : ∀ event ∈ s.events.events.items, ∀ key, event.contextKey? = some key → s.Known key
  flight : s.FlightKnown
  told : s.Told

theorem telling_init : Telling (init : Collector limit) where
  keyed := ContextRegistry.keyed_empty
  dropped := rfl
  adding := fun _ _ _ _ h => by cases h
  pushing := fun _ _ _ h => by cases h
  queued := fun _ h => by cases h
  flight := trivial
  told := fun before _ _ h => by cases before <;> cases h

/-- Unless the flush under way tells of it, a known key is held, evicted or reported. -/
theorem Known.settled {s : Collector limit} {key : ContextKey} (h : s.Known key) (hflight : ¬ s.FlightTells key) :
    key ∈ s.contexts.contexts.keys ∨ key ∈ s.history.evicted ∨ s.ReportsTell key := by
  rcases h.known with hheld | hevicted | htells | hreports
  · exact .inl hheld
  · exact .inr (.inl hevicted)
  · exact absurd htells hflight
  · exact .inr (.inr hreports)

theorem Known.returned {s : Collector limit} {key : ContextKey} (h : s.Known key) (f : Flusher) :
    (s.returned f).Known key := by
  cases f <;> exact ⟨h.added, h.known⟩

theorem Known.of_returned {s : Collector limit} {f : Flusher} {key : ContextKey} (h : (s.returned f).Known key) :
    s.Known key := by
  cases f <;> exact ⟨h.added, h.known⟩

/-- A step that leaves the flush and the reports alone leaves what is known of the events taken. -/
theorem FlightKnown.mono {s s' : Collector limit} (h : s.FlightKnown) (hflush : s'.flush = s.flush)
    (hreports : s'.history.reports = s.history.reports) (hadded : ∀ key ∈ s.history.added, key ∈ s'.history.added)
    (hknown : ∀ key, s.Known key → s'.Known key) : s'.FlightKnown := by
  have halmost : ∀ key, s.AlmostTold key → s'.AlmostTold key := by
    intro key hkey
    refine ⟨hadded key hkey.added, ?_⟩
    rw [FlightTells, ReportsTell, hflush, hreports]
    exact hkey.told
  unfold FlightKnown at h ⊢
  rw [hflush]
  split at h
  · exact fun event he key hkey => hknown key (h event he key hkey)
  · exact fun event he key hkey => halmost key (h event he key hkey)
  · trivial

theorem Telling.returned {s : Collector limit} (h : Telling s) (f : Flusher) : Telling (s.returned f) := by
  have hpushing : ∀ i r key, s.recorders i = .pushing r → r.contextKey = some key → (s.returned f).Known key :=
    fun i r key hi hkey => (h.pushing i r key hi hkey).returned f
  have hqueued : ∀ event ∈ s.events.events.items, ∀ key, event.contextKey? = some key → (s.returned f).Known key :=
    fun event he key hkey => (h.queued event he key hkey).returned f
  have hflight : (s.returned f).FlightKnown := by
    refine h.flight.mono ?_ ?_ ?_ fun key hkey => hkey.returned f
    · cases f <;> rfl
    · cases f <;> rfl
    · cases f <;> exact fun _ h => h
  cases f with
  | loop => exact ⟨h.keyed, h.dropped, h.adding, hpushing, hqueued, hflight, h.told⟩
  | closer i => exact ⟨h.keyed, h.dropped, h.adding, hpushing, hqueued, hflight, h.told⟩
  | caller i => exact h

/-- One more report, each event of which is told of by then. -/
theorem told_concat {s : Collector limit} (h : s.Told) {d : Reported}
    (hd : ∀ evaluation ∈ d.report.evaluations, ∀ key, evaluation.event.contextKey? = some key →
      key ∈ d.added ∧ ∃ d' ∈ s.history.reports ++ [d], d'.Tells key) :
    ∀ before d' after, s.history.reports ++ [d] = before ++ d' :: after → ∀ evaluation ∈ d'.report.evaluations, ∀ key,
      evaluation.event.contextKey? = some key → key ∈ d'.added ∧ ∃ d'' ∈ before ++ [d'], d''.Tells key := by
  intro before d' after hsplit
  rcases List.eq_nil_or_concat after with rfl | ⟨after, last, rfl⟩
  · obtain ⟨hbefore, hlast⟩ := List.append_inj' hsplit rfl
    cases hlast
    rw [← hbefore]
    exact hd
  · have hsplit' : s.history.reports ++ [d] = (before ++ d' :: after) ++ [last] := by
      rw [hsplit, List.append_assoc, List.cons_append, List.concat_eq_append]
    exact h before d' after (List.append_inj' hsplit' rfl).1

variable {sha256 : Bytes → Bytes} [Unicode]

/-- What is known of a key is not lost. -/
theorem Known.step {s s' : Collector limit} {e : CollectorStep} {key : ContextKey} (h : s.Known key)
    (htelling : Telling s) (hopen : Open s) (hflowing : Flowing sha256 s) (hundisturbed : Undisturbed e)
    (hstep : step sha256 s e = some s') : s'.Known key := by
  cases e with
  | record i r =>
    rcases record_cases hstep with rfl | ⟨-, ⟨key, context, -, -, rfl⟩ | ⟨-, rfl⟩⟩
    · exact h
    · exact ⟨h.added, h.known⟩
    · exact ⟨h.added, h.known⟩
  | addContext i =>
    obtain ⟨r, key', context, -, rfl⟩ := addContext_cases hstep
    refine ⟨List.mem_cons_of_mem _ h.added, ?_⟩
    rcases h.known with hheld | hevicted | hflight | hreports
    · rcases ContextRegistry.mem_add (r := s.contexts) context (.inl hheld) with hheld | hevicted
      · exact .inl hheld
      · exact .inr (.inl (List.mem_append_right _ hevicted))
    · exact .inr (.inl (List.mem_append_left _ hevicted))
    · exact .inr (.inr (.inl hflight))
    · exact .inr (.inr (.inr hreports))
  | push i now =>
    obtain ⟨r, -, rfl⟩ := push_cases hstep
    exact ⟨h.added, h.known⟩
  | recordInvalidContext kindSample now =>
    obtain ⟨invalidContexts, afterStopping, rfl⟩ := recordInvalidContext_cases hstep
    exact ⟨h.added, h.known⟩
  | acquire f =>
    obtain ⟨hflush, -, rfl⟩ := acquire_cases hstep
    refine ⟨h.added, ?_⟩
    rcases h.settled (by rw [FlightTells, hflush]; exact id) with hheld | hevicted | hreports
    · exact .inl hheld
    · exact .inr (.inl hevicted)
    · exact .inr (.inr (.inr hreports))
  | takeEvents now =>
    obtain ⟨f, hflush, rfl⟩ := takeEvents_cases hstep
    refine ⟨h.added, ?_⟩
    rcases h.settled (by rw [FlightTells, hflush]; exact id) with hheld | hevicted | hreports
    · exact .inl hheld
    · exact .inr (.inl hevicted)
    · exact .inr (.inr (.inr hreports))
  | takeContexts =>
    obtain ⟨f, snapshot, window, hflush, rfl⟩ := takeContexts_cases hstep
    refine ⟨h.added, ?_⟩
    rcases h.settled (by rw [FlightTells, hflush]; exact id) with hheld | hevicted | hreports
    · exact .inr (.inr (.inl (.inl (htelling.keyed.mem_listed hheld))))
    · exact .inr (.inr (.inl (.inr ⟨hevicted, htelling.dropped⟩)))
    · exact .inr (.inr (.inr hreports))
  | report reply now =>
    obtain ⟨f, snapshot, window, contexts, dropped, evicted, hflush, rfl⟩ := report_cases hstep
    obtain ⟨report, -, hcontexts, hdropped, hnext | ⟨rfl, -⟩⟩ := hflowing.report hflush reply now
    · rw [hnext]
      apply Known.returned
      refine ⟨h.added, ?_⟩
      rcases h.known with hheld | hevicted | hflight | ⟨d, hd, htells⟩
      · exact .inl hheld
      · exact .inr (.inl hevicted)
      · -- what the flush was to tell, its report tells
        rw [FlightTells, hflush] at hflight
        refine .inr (.inr (.inr ⟨_, List.mem_append_right _ (List.mem_singleton_self _), ?_⟩))
        show Tell report.contexts report.droppedContexts evicted key
        rw [hcontexts, hdropped]
        exact hflight
      · exact .inr (.inr (.inr ⟨d, List.mem_append_left _ hd, htells⟩))
    · exact hundisturbed.elim
  | stopCollecting f =>
    simp only [Collector.step, stopCollectingStep, hopen.stopping f] at hstep
    cases hstep
  | loopWakes =>
    obtain ⟨-, rfl⟩ := loopWakes_cases hstep
    exact ⟨h.added, h.known⟩
  | loopChecks =>
    obtain ⟨-, rfl⟩ := loopChecks_cases hstep
    exact ⟨h.added, h.known⟩
  | closer i => exact hundisturbed.elim

omit [Unicode] in
theorem Telling.pushing_mono {s s' : Collector limit} (h : Telling s) (hknown : ∀ key, s.Known key → s'.Known key) :
    ∀ i r key, s.recorders i = .pushing r → r.contextKey = some key → s'.Known key :=
  fun i r key hi hkey => hknown key (h.pushing i r key hi hkey)

omit [Unicode] in
theorem Telling.queued_mono {s s' : Collector limit} (h : Telling s) (hknown : ∀ key, s.Known key → s'.Known key) :
    ∀ event ∈ s.events.events.items, ∀ key, event.contextKey? = some key → s'.Known key :=
  fun event he key hkey => hknown key (h.queued event he key hkey)

omit [Unicode] in
/-- The recorders after a step of one of them, if that has none to add or one that is keyed. -/
theorem Telling.adding_update {s : Collector limit} (h : Telling s) (i : ℕ) {recorder : Recorder}
    (hrecorder : ∀ r key context, recorder = .adding r key context → r.contextKey = some key ∧ IsKeyed context key) :
    ∀ j r key context, (if j = i then recorder else s.recorders j) = .adding r key context →
      r.contextKey = some key ∧ IsKeyed context key := by
  intro j r key context hj
  split at hj
  · exact hrecorder r key context hj
  · exact h.adding j r key context hj

omit [Unicode] in
/-- The recorders after a step of one of them, if that has no event to push or one whose context is known. -/
theorem Telling.pushing_update {s s' : Collector limit} (h : Telling s) (hknown : ∀ key, s.Known key → s'.Known key)
    (i : ℕ) {recorder : Recorder} (hrecorder : ∀ r key, recorder = .pushing r → r.contextKey = some key → s'.Known key) :
    ∀ j r key, (if j = i then recorder else s.recorders j) = .pushing r → r.contextKey = some key → s'.Known key := by
  intro j r key hj
  split at hj
  · exact hrecorder r key hj
  · exact h.pushing_mono hknown j r key hj

/-- A thread that begins to record has a context to add, or nothing to add. -/
theorem Telling.record {s s' : Collector limit} (h : Telling s) (hknown : ∀ key, s.Known key → s'.Known key) {i : ℕ}
    {r : Recording} (hstep : Collector.step sha256 s (.record i r) = some s') : Telling s' := by
  have hqueued := h.queued_mono hknown
  have hflight : s'.flush = s.flush → s'.history = s.history → s'.FlightKnown := fun hflush hhistory =>
    h.flight.mono hflush (by rw [hhistory]) (by rw [hhistory]; exact fun _ h => h) hknown
  rcases record_cases hstep with rfl | ⟨-, ⟨key, context, hkey, hcontext, rfl⟩ | ⟨hkey, rfl⟩⟩
  · exact h
  · refine ⟨h.keyed, h.dropped, h.adding_update i ?_, h.pushing_update hknown i ?_, hqueued, hflight rfl rfl, h.told⟩
    · intro r' key' context' hadding
      obtain ⟨context'', hcontext'', hkeyed⟩ := contextKey_eq_some hkey
      rw [hcontext] at hcontext''
      cases hcontext''
      cases hadding
      exact ⟨hkey, hkeyed⟩
    · intro r' key' hpushing
      cases hpushing
  · refine ⟨h.keyed, h.dropped, h.adding_update i ?_, h.pushing_update hknown i ?_, hqueued, hflight rfl rfl, h.told⟩
    · intro r' key' context' hadding
      cases hadding
    · intro r' key' hpushing hkey'
      cases hpushing
      rw [hkey] at hkey'
      cases hkey'

/-- The context of a recording is known once it is added: it is held then, or evicted. -/
theorem Telling.addContext {s s' : Collector limit} (h : Telling s) (hknown : ∀ key, s.Known key → s'.Known key) {i : ℕ}
    (hstep : Collector.step sha256 s (.addContext i) = some s') : Telling s' := by
  obtain ⟨r, key, context, hrecorder, rfl⟩ := addContext_cases hstep
  -- the key a thread adds is that of its own recording
  obtain ⟨hkey, hid, hkind⟩ := h.adding i r key context hrecorder
  refine ⟨h.keyed.add hid hkind, ?_, h.adding_update i ?_, h.pushing_update hknown i ?_, h.queued_mono hknown, ?_, h.told⟩
  · show (s.contexts.add key context).droppedCount = (s.history.evicted ++ s.contexts.evicted key context).length
    rw [ContextRegistry.droppedCount_add, h.dropped, List.length_append]
  · intro r' key' context' hadding
    cases hadding
  · intro r' key' hpushing hkey'
    cases hpushing
    rw [hkey] at hkey'
    cases hkey'
    refine ⟨List.mem_cons_self .., ?_⟩
    rcases ContextRegistry.mem_add (r := s.contexts) context (.inr rfl) with hheld | hevicted
    · exact .inl hheld
    · exact .inr (.inl (List.mem_append_right _ hevicted))
  · exact h.flight.mono rfl rfl (fun _ h => List.mem_cons_of_mem _ h) hknown

/-- The context of an event is known before the event is queued. -/
theorem Telling.push {s s' : Collector limit} (h : Telling s) (hknown : ∀ key, s.Known key → s'.Known key) {i : ℕ}
    {now : Instant} (hstep : Collector.step sha256 s (.push i now) = some s') : Telling s' := by
  obtain ⟨r, hrecorder, rfl⟩ := push_cases hstep
  refine ⟨h.keyed, h.dropped, h.adding_update i ?_, h.pushing_update hknown i ?_, ?_,
    h.flight.mono rfl rfl (fun _ h => h) hknown, h.told⟩
  · intro r' key' context' hadding
    cases hadding
  · intro r' key' hpushing
    cases hpushing
  · intro event hevent key hkey
    rcases Deque.mem_append hevent with hevent | rfl
    · exact h.queued_mono hknown event hevent key hkey
    · rw [contextKey?_event] at hkey
      exact h.pushing_mono hknown i r key hrecorder hkey

/-- What was known of the events that a flush took is told by the contexts that it takes. -/
theorem Telling.takeContexts {s s' : Collector limit} (h : Telling s) (hknown : ∀ key, s.Known key → s'.Known key)
    (hstep : Collector.step sha256 s .takeContexts = some s') : Telling s' := by
  obtain ⟨f, snapshot, window, hflush, rfl⟩ := takeContexts_cases hstep
  have hflight := h.flight
  rw [FlightKnown, hflush] at hflight
  refine ⟨ContextRegistry.keyed_empty, rfl, h.adding, h.pushing_mono hknown, h.queued_mono hknown, ?_, h.told⟩
  intro event hevent key hkey
  have hkey' := hknown key (hflight event hevent key hkey)
  refine ⟨hkey'.added, ?_⟩
  -- the registry and the evicted keys are empty now, so the flush or a report tells of it
  rcases hkey'.known with hheld | hevicted | htells
  · cases hheld
  · cases hevicted
  · exact htells

/-- A report tells of the contexts of its events, or an earlier one has. -/
theorem Telling.report {s s' : Collector limit} (h : Telling s) (hknown : ∀ key, s.Known key → s'.Known key)
    (hflowing : Flowing sha256 s) {reply : Reply} {now : Instant} (hundisturbed : Undisturbed (.report reply now))
    (hstep : Collector.step sha256 s (.report reply now) = some s') : Telling s' := by
  have hpushing := h.pushing_mono hknown
  have hqueued := h.queued_mono hknown
  obtain ⟨f, snapshot, window, contexts, dropped, evicted, hflush, rfl⟩ := report_cases hstep
  obtain ⟨report, haccounts, hcontexts, hdropped, hnext | ⟨rfl, -⟩⟩ := hflowing.report hflush reply now
  · rw [hnext] at hpushing hqueued ⊢
    apply Telling.returned
    refine ⟨h.keyed, h.dropped, h.adding, ?_, ?_, trivial, told_concat h.told ?_⟩
    · exact fun i r key hi hkey => (hpushing i r key hi hkey).of_returned
    · exact fun event he key hkey => (hqueued event he key hkey).of_returned
    · intro evaluation hevaluation key hkey
      -- the event is a compacted one of the snapshot
      obtain ⟨compacted, hcompacted, haggregates⟩ := haccounts.aggregated
      obtain ⟨event, hevent, hevent'⟩ := exists_of_mem_mapM hcompacted (haggregates.mem hevaluation)
      rw [contextKey?_compacted hevent'] at hkey
      have hflight := h.flight
      rw [FlightKnown, hflush] at hflight
      obtain ⟨hadded, htells | ⟨d, hd, htells⟩⟩ := hflight event hevent key hkey
      · refine ⟨hadded, _, List.mem_append_right _ (List.mem_singleton_self _), ?_⟩
        rw [FlightTells, hflush] at htells
        show Tell report.contexts report.droppedContexts evicted key
        rw [hcontexts, hdropped]
        exact htells
      · exact ⟨hadded, d, List.mem_append_left _ hd, htells⟩
  · exact hundisturbed.elim

theorem Telling.step {s s' : Collector limit} {e : CollectorStep} (h : Telling s) (hopen : Open s)
    (hflowing : Flowing sha256 s) (hundisturbed : Undisturbed e) (hstep : step sha256 s e = some s') : Telling s' := by
  have hknown : ∀ key, s.Known key → s'.Known key := fun key hkey => hkey.step h hopen hflowing hundisturbed hstep
  have hpushing := h.pushing_mono hknown
  have hqueued := h.queued_mono hknown
  cases e with
  | record i r => exact h.record hknown hstep
  | addContext i => exact h.addContext hknown hstep
  | push i now => exact h.push hknown hstep
  | recordInvalidContext kindSample now =>
    obtain ⟨invalidContexts, afterStopping, rfl⟩ := recordInvalidContext_cases hstep
    exact ⟨h.keyed, h.dropped, h.adding, hpushing, hqueued, h.flight.mono rfl rfl (fun _ h => h) hknown, h.told⟩
  | acquire f =>
    obtain ⟨-, -, rfl⟩ := acquire_cases hstep
    exact ⟨h.keyed, h.dropped, h.adding, hpushing, hqueued, trivial, h.told⟩
  | takeEvents now =>
    obtain ⟨f, -, rfl⟩ := takeEvents_cases hstep
    exact ⟨h.keyed, h.dropped, h.adding, hpushing, (fun _ he => by cases he), hqueued, h.told⟩
  | takeContexts => exact h.takeContexts hknown hstep
  | report reply now => exact h.report hknown hflowing hundisturbed hstep
  | stopCollecting f =>
    simp only [Collector.step, stopCollectingStep, hopen.stopping f] at hstep
    cases hstep
  | loopWakes =>
    obtain ⟨-, rfl⟩ := loopWakes_cases hstep
    exact ⟨h.keyed, h.dropped, h.adding, hpushing, hqueued, h.flight.mono rfl rfl (fun _ h => h) hknown, h.told⟩
  | loopChecks =>
    obtain ⟨-, rfl⟩ := loopChecks_cases hstep
    exact ⟨h.keyed, h.dropped, h.adding, hpushing, hqueued, h.flight.mono rfl rfl (fun _ h => h) hknown, h.told⟩
  | closer i => exact hundisturbed.elim

/-! ## Runs -/

/-- What every step of a quiet run keeps. -/
structure Informed (sha256 : Bytes → Bytes) (s : Collector limit) : Prop where
  isOpen : Open s
  flowing : Flowing sha256 s
  telling : Telling s

omit [Unicode] in
theorem informed_init : Informed sha256 (init : Collector limit) where
  isOpen := ⟨fun _ => rfl, fun _ => rfl, fun _ h => by cases h⟩
  flowing := flowing_init
  telling := telling_init

theorem Informed.step {s s' : Collector limit} {e : CollectorStep} (h : Informed sha256 s) (hquiet : s.Quiet e)
    (hstep : step sha256 s e = some s') : Informed sha256 s' :=
  ⟨h.isOpen.step hquiet.1 hstep, h.flowing.step hquiet.2 hstep, h.telling.step h.isOpen h.flowing hquiet.1 hstep⟩

/-- As long as a flush takes reportable events only, no report refers to a context the server has not been
told about, whatever the interleaving. -/
theorem contexts_told (trace : List CollectorStep) (s : Collector limit)
    (hquiet : Transition.Obeys (step sha256) Quiet (init : Collector limit) trace)
    (hrun : run sha256 init trace = some s) : s.Told := by
  have hinformed : Informed sha256 s :=
    Transition.invariant (fun _ _ _ h hquiet hstep => h.step hquiet hstep) informed_init hquiet hrun
  exact hinformed.telling.told

/-! ## One context -/

/-- A context with an id. -/
def identified : Context := { Context.empty with id := some (lit "c1") }

/-- The first recorder adds its context. -/
def addIdentified : List CollectorStep :=
  [.record 1 { defaulted (.str (lit "on")) with context := some identified }, .addContext 1]

/-- One flush by the caller. -/
def flushOnce : List CollectorStep := [.acquire (.caller 0), .takeEvents 1, .takeContexts, .report (.responds false) 2]

omit [Unicode] in
/-- One evaluation with a context is reported with it. -/
theorem contexts_told_identified : ∃ (_ : Unicode) (s : Collector 100),
    run (fun _ => []) init (addIdentified ++ [.push 1 0] ++ flushOnce) = some s ∧ s.Told := by
  let _ : Unicode := .ascii
  let trace : List CollectorStep := addIdentified ++ [.push 1 0] ++ flushOnce
  have hquiet : Transition.Obeys (step fun _ => []) Quiet (init : Collector 100) trace := by
    refine .cons ⟨trivial, trivial⟩ rfl (.cons ⟨trivial, trivial⟩ rfl (.cons ⟨trivial, trivial⟩ rfl
      (.cons ⟨trivial, trivial⟩ rfl (.cons ⟨trivial, ?_⟩ rfl (.cons ⟨trivial, trivial⟩ rfl
        (.cons ⟨trivial, trivial⟩ rfl trivial))))))
    intro event hevent
    rw [List.mem_singleton.1 hevent]
    exact reportable_plain
  cases hrun : run (fun _ => []) (init : Collector 100) trace with
  | none => cases hrun
  | some s => exact ⟨_, s, hrun, contexts_told trace s hquiet hrun⟩

omit [Unicode] in
/-- A flush that raises between a recorder's two steps loses its context, and the next report refers to it. -/
theorem context_untold : ¬ ∀ (_ : Unicode) (trace : List CollectorStep) (s : Collector 100),
    Transition.Obeys (step fun _ => []) (fun _ e => Undisturbed e) (init : Collector 100) trace →
    run (fun _ => []) init trace = some s → s.Told := by
  intro h
  let _ : Unicode := .ascii
  let trace := addIdentified ++ recordAndFlush (.caller 0) unencodable ++ [.push 1 0] ++ flushOnce
  have hundisturbed : ∀ e ∈ trace, Undisturbed e := by
    simp [trace, addIdentified, recordAndFlush, flushOnce, Undisturbed]
  cases hrun : run (fun _ => []) (init : Collector 100) trace with
  | none => cases hrun
  | some s =>
    have hs : some s = run (fun _ => []) (init : Collector 100) trace := hrun.symm
    have htold := h _ trace s (Transition.obeys_of_forall _ hundisturbed) hrun
    obtain ⟨d, hreports, evaluation, hevaluations, hkey, hcontexts, hevicted⟩ : ∃ d, s.history.reports = [d] ∧
        ∃ evaluation, d.report.evaluations = [evaluation] ∧
          evaluation.event.contextKey? = some (defaultKind, lit "c1") ∧ d.report.contexts = [] ∧ d.evicted = [] := by
      cases hs
      exact ⟨_, rfl, _, rfl, rfl, rfl, rfl⟩
    obtain ⟨-, d', hd', htells⟩ := htold [] d [] hreports evaluation (by rw [hevaluations]; exact List.mem_singleton_self _)
      _ hkey
    rw [List.mem_singleton.1 hd', Reported.Tells, hcontexts, hevicted] at htells
    rcases htells with ⟨context, hcontext, -⟩ | ⟨hevicted, -⟩
    · cases hcontext
    · cases hevicted

end Collector

end ConfigDirector.Telemetry
