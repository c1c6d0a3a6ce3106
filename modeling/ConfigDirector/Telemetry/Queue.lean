/-
What a collector collects into (`_telemetry.queue`): the bounded queue of events, the registry of the
contexts they refer to, the invalid contexts submitted, and the aggregation of a batch of events.
-/
import ConfigDirector.Python.Collections
import ConfigDirector.Telemetry.Values

namespace ConfigDirector.Telemetry

open Python

/-- `datetime.now(timezone.utc)`, in microseconds. -/
abbrev Instant := ℤ

/-! ## `EventQueue` -/

structure EventQueueSnapshot where
  startTime : Instant
  endTime : Instant
  events : List EvaluatedConfigEvent
  droppedCount : ℕ

structure EventQueue (limit : ℕ) where
  events : Deque EvaluatedConfigEvent limit
  startTime : Option Instant
  droppedCount : ℕ

namespace EventQueue

variable {limit : ℕ}

/-- An empty queue, and `_reset`. -/
def empty : EventQueue limit := ⟨.empty, none, 0⟩

def push (q : EventQueue limit) (event : EvaluatedConfigEvent) (now : Instant) : EventQueue limit where
  events := q.events.append event
  startTime := some (q.startTime.getD now)
  droppedCount := if q.events.items.length = limit then q.droppedCount + 1 else q.droppedCount

/-- `take_snapshot`, which leaves the queue empty. -/
def snapshot (q : EventQueue limit) (now : Instant) : EventQueueSnapshot :=
  ⟨q.startTime.getD now, now, q.events.items, q.droppedCount⟩

/-- The queue holds what is left of the events pushed since it was empty, and counts the others. -/
structure Holds (q : EventQueue limit) (pushed : List EvaluatedConfigEvent) : Prop where
  events : q.events.items = lastItems limit pushed
  dropped : q.droppedCount = pushed.length - limit

theorem holds_empty : Holds (empty : EventQueue limit) [] := ⟨by simp [empty, Deque.empty, lastItems], by simp [empty]⟩

theorem Holds.push {q : EventQueue limit} {pushed : List EvaluatedConfigEvent} (h : q.Holds pushed)
    (event : EvaluatedConfigEvent) (now : Instant) : (q.push event now).Holds (pushed ++ [event]) := by
  refine ⟨Deque.append_items h.events event, ?_⟩
  have hlength : q.events.items.length = min pushed.length limit := by rw [h.events, length_lastItems]
  show (if q.events.items.length = limit then q.droppedCount + 1 else q.droppedCount) = _
  rw [h.dropped, hlength, List.length_append, List.length_singleton]
  split <;> omega

/-- No event pushed is neither held nor counted. -/
theorem Holds.accounts {q : EventQueue limit} {pushed : List EvaluatedConfigEvent} (h : q.Holds pushed) :
    q.events.items.length + q.droppedCount = pushed.length := by
  rw [h.events, h.dropped, length_lastItems]
  omega

end EventQueue

/-! ## `ContextRegistry` -/

/-- The kind and id of a context. -/
abbrev ContextKey := Text × Text

structure ContextRegistry (limit : ℕ) where
  contexts : Dict ContextKey Context
  droppedCount : ℕ

namespace ContextRegistry

variable {limit : ℕ}

/-- An empty registry, and `_reset`. -/
def empty : ContextRegistry limit := ⟨∅, 0⟩

/-- The keys evicted by `add`: the oldest ones, as long as there are too many. -/
def evicted (r : ContextRegistry limit) (key : ContextKey) (context : Context) : List ContextKey :=
  let contexts := r.contexts.set key context
  contexts.keys.take (contexts.keys.length - limit)

def add (r : ContextRegistry limit) (key : ContextKey) (context : Context) : ContextRegistry limit :=
  let contexts := r.contexts.set key context
  let excess := contexts.keys.length - limit
  ⟨contexts.drop excess, r.droppedCount + excess⟩

/-- The contexts as `take_snapshot` lists them. -/
def listed (r : ContextRegistry limit) : List Context := r.contexts.entries.map Prod.snd

/-- The contexts are filed under their own kind and id. -/
def Keyed (r : ContextRegistry limit) : Prop :=
  ∀ p ∈ r.contexts.entries, p.2.id = some p.1.2 ∧ effectiveKind (some p.2) = p.1.1

theorem keyed_empty : Keyed (empty : ContextRegistry limit) := by
  intro p hp
  cases hp

theorem Keyed.add {r : ContextRegistry limit} (h : r.Keyed) {key : ContextKey} {context : Context}
    (hid : context.id = some key.2) (hkind : effectiveKind (some context) = key.1) : (r.add key context).Keyed := by
  intro p hp
  rcases Dict.mem_setEntries (List.mem_of_mem_drop hp) with rfl | hp
  · exact ⟨hid, hkind⟩
  · exact h p hp

/-- A key is held after `add`, or evicted by it. -/
theorem mem_add {r : ContextRegistry limit} {key k : ContextKey} (context : Context)
    (h : k ∈ r.contexts.keys ∨ k = key) : k ∈ (r.add key context).contexts.keys ∨ k ∈ r.evicted key context := by
  have hmem : k ∈ (r.contexts.set key context).keys := (Dict.mem_keys_set _ _ _ _).2 h
  rw [← List.take_append_drop ((r.contexts.set key context).keys.length - limit) (r.contexts.set key context).keys,
    List.mem_append] at hmem
  rcases hmem with hmem | hmem
  · exact .inr hmem
  · left
    rw [Dict.keys, ← List.map_drop] at hmem
    exact hmem

theorem droppedCount_add (r : ContextRegistry limit) (key : ContextKey) (context : Context) :
    (r.add key context).droppedCount = r.droppedCount + (r.evicted key context).length := by
  unfold add evicted
  rw [List.length_take]
  dsimp only
  omega

/-- What is held is among the contexts listed. -/
theorem Keyed.mem_listed {r : ContextRegistry limit} (h : r.Keyed) {key : ContextKey} (hkey : key ∈ r.contexts.keys) :
    ∃ context ∈ r.listed, context.id = some key.2 ∧ effectiveKind (some context) = key.1 := by
  obtain ⟨p, hp, rfl⟩ := List.mem_map.1 hkey
  exact ⟨p.2, List.mem_map_of_mem hp, h p hp⟩

end ContextRegistry

/-! ## `InvalidContextSubmissions` -/

/-- `KIND_SAMPLE_LIMIT`. -/
def kindSampleLimit : ℕ := 20

inductive InvalidContextRecording
  | newKindSample
  | knownKindSample
  | firstBeyondSampleLimit
  | beyondSampleLimit
deriving DecidableEq

structure InvalidContextEntry where
  startTime : Instant
  endTime : Instant
  count : ℕ
  kindSample : Option Text

structure InvalidContextSubmissions where
  countsByKindSample : Dict Text ℕ
  countBeyondSampleLimit : ℕ
  startTime : Option Instant

namespace InvalidContextSubmissions

/-- Without submissions, and `_reset`. -/
def empty : InvalidContextSubmissions := ⟨∅, 0, none⟩

def record (s : InvalidContextSubmissions) (kindSample : Text) (now : Instant) :
    InvalidContextSubmissions × InvalidContextRecording :=
  let s := { s with startTime := some (s.startTime.getD now) }
  match s.countsByKindSample.get? kindSample with
  | some count => ({ s with countsByKindSample := s.countsByKindSample.set kindSample (count + 1) }, .knownKindSample)
  | none =>
    if s.countsByKindSample.keys.length < kindSampleLimit then
      ({ s with countsByKindSample := s.countsByKindSample.set kindSample 1 }, .newKindSample)
    else
      ({ s with countBeyondSampleLimit := s.countBeyondSampleLimit + 1 },
        if s.countBeyondSampleLimit = 0 then .firstBeyondSampleLimit else .beyondSampleLimit)

/-- `take_snapshot`, which leaves no submissions. -/
def snapshot (s : InvalidContextSubmissions) (now : Instant) : List InvalidContextEntry :=
  let startTime := s.startTime.getD now
  let entries := s.countsByKindSample.entries.map fun p => ⟨startTime, now, p.2, some p.1⟩
  if 0 < s.countBeyondSampleLimit then entries ++ [⟨startTime, now, s.countBeyondSampleLimit, none⟩] else entries

end InvalidContextSubmissions

/-! ## `aggregate` -/

/-- What `==` and `hash` of an event see: its fields, the declared type up to equality. -/
structure EventKey where
  key : Text
  defaultValue : TelemetryValue
  evaluatedValue : TelemetryValue
  requestedType : Text
  usedDefault : Bool
  evaluationReason : EvaluationReason
  contextId : Option Text
  contextKind : Option Text
  type : HashKey
  evaluatedValueId : Option Text
deriving DecidableEq

/-- `hash(event)`. -/
def EvaluatedConfigEvent.hashKey (event : EvaluatedConfigEvent) : Except Exc EventKey := do
  let type ← event.type.hashKey
  return ⟨event.key, event.defaultValue, event.evaluatedValue, event.requestedType, event.usedDefault,
    event.evaluationReason, event.contextId, event.contextKind, type, event.evaluatedValueId⟩

structure AggregatedEvent where
  startTime : Instant
  endTime : Instant
  count : ℕ
  event : EvaluatedConfigEvent

/-- `aggregate`: the `Counter` hashes one event after the other. -/
def aggregate (events : List EvaluatedConfigEvent) (startTime endTime : Instant) :
    Except Exc (List AggregatedEvent) := do
  let _ ← events.mapM EvaluatedConfigEvent.hashKey
  return (tally EvaluatedConfigEvent.hashKey events).map fun p => ⟨startTime, endTime, p.2, p.1⟩

/-- The aggregated events are pairwise different, in the order first seen, and each counts the events
equal to it. -/
def Aggregates (events : List EvaluatedConfigEvent) (evaluations : List AggregatedEvent) : Prop :=
  Tallies EvaluatedConfigEvent.hashKey events (evaluations.map fun a => (a.event, a.count))

theorem hashKey_ok_iff (event : EvaluatedConfigEvent) :
    (∃ k, event.hashKey = .ok k) ↔ ¬ event.type.IsCollection := by
  rw [← PyValue.hashKey_ok_iff]
  constructor
  · rintro ⟨k, hk⟩
    obtain ⟨type, htype, -⟩ := bind_eq_ok_iff.1 hk
    exact ⟨type, htype⟩
  · rintro ⟨type, htype⟩
    exact ⟨_, bind_eq_ok_iff.2 ⟨type, htype, rfl⟩⟩

theorem aggregate_ok_iff (events : List EvaluatedConfigEvent) (startTime endTime : Instant) :
    (∃ evaluations, aggregate events startTime endTime = .ok evaluations) ↔
      ∀ event ∈ events, ¬ event.type.IsCollection := by
  simp only [← hashKey_ok_iff]
  rw [← mapM_ok_iff]
  constructor
  · rintro ⟨evaluations, h⟩
    obtain ⟨keys, hkeys, -⟩ := bind_eq_ok_iff.1 h
    exact ⟨keys, hkeys⟩
  · rintro ⟨keys, hkeys⟩
    exact ⟨_, bind_eq_ok_iff.2 ⟨keys, hkeys, rfl⟩⟩

theorem aggregates_of_aggregate {events : List EvaluatedConfigEvent} {startTime endTime : Instant}
    {evaluations : List AggregatedEvent} (h : aggregate events startTime endTime = .ok evaluations) :
    Aggregates events evaluations := by
  obtain ⟨keys, -, h⟩ := bind_eq_ok_iff.1 h
  cases h
  have hpairs : ((tally EvaluatedConfigEvent.hashKey events).map fun p => AggregatedEvent.mk startTime endTime p.2 p.1).map
      (fun a => (a.event, a.count)) = tally EvaluatedConfigEvent.hashKey events := by
    rw [List.map_map]
    exact List.map_id _
  rw [Aggregates, hpairs]
  exact tallies_tally _ _

/-- The counts of a report add up to the events aggregated. -/
theorem Aggregates.sum {events : List EvaluatedConfigEvent} {evaluations : List AggregatedEvent}
    (h : Aggregates events evaluations) : (evaluations.map AggregatedEvent.count).sum = events.length := by
  have hsum := Tallies.sum _ h
  rw [List.map_map] at hsum
  exact hsum

/-- Every aggregated event is one of the events. -/
theorem Aggregates.mem {events : List EvaluatedConfigEvent} {evaluations : List AggregatedEvent}
    (h : Aggregates events evaluations) {a : AggregatedEvent} (ha : a ∈ evaluations) : a.event ∈ events :=
  List.mem_of_find?_eq_some (h.counted _ (List.mem_map_of_mem ha)).1

/-! ## `EventReport` -/

structure EventReport where
  evaluations : List AggregatedEvent
  droppedEvaluations : ℕ
  contexts : List Context
  droppedContexts : ℕ
  invalidContexts : List InvalidContextEntry

namespace EventReport

def isEmpty (r : EventReport) : Bool :=
  r.evaluations.isEmpty && r.contexts.isEmpty && r.invalidContexts.isEmpty && r.droppedEvaluations == 0 &&
    r.droppedContexts == 0

/-- The evaluations a report accounts for: counted in it or counted as dropped. -/
def total (r : EventReport) : ℕ := (r.evaluations.map AggregatedEvent.count).sum + r.droppedEvaluations

/-- The report `flush` builds from its snapshots. -/
def build (sha256 : Bytes → Bytes) (snapshot : EventQueueSnapshot) (contexts : List Context) (droppedContexts : ℕ)
    (invalidContexts : List InvalidContextEntry) : Except Exc EventReport := do
  let compacted ← snapshot.events.mapM (EvaluatedConfigEvent.compacted sha256)
  let evaluations ← aggregate compacted snapshot.startTime snapshot.endTime
  return ⟨evaluations, snapshot.droppedCount, contexts, droppedContexts, invalidContexts⟩

end EventReport

/-- What compaction hashes of the event can be encoded, and the event itself can be hashed. -/
def EvaluatedConfigEvent.Reportable (event : EvaluatedConfigEvent) : Prop :=
  event.defaultValue.Compactable ∧ event.evaluatedValue.Compactable ∧ ¬ event.type.IsCollection

theorem compacted_ok_iff (sha256 : Bytes → Bytes) (event : EvaluatedConfigEvent) :
    (∃ compacted, event.compacted sha256 = .ok compacted) ↔
      event.defaultValue.Compactable ∧ event.evaluatedValue.Compactable := by
  rw [← TelemetryValue.compacted_ok_iff sha256, ← TelemetryValue.compacted_ok_iff sha256]
  constructor
  · rintro ⟨compacted, h⟩
    obtain ⟨v, hv, h⟩ := bind_eq_ok_iff.1 h
    obtain ⟨w, hw, -⟩ := bind_eq_ok_iff.1 h
    exact ⟨⟨v, hv⟩, w, hw⟩
  · rintro ⟨⟨v, hv⟩, w, hw⟩
    exact ⟨_, bind_eq_ok_iff.2 ⟨v, hv, bind_eq_ok_iff.2 ⟨w, hw, rfl⟩⟩⟩

/-- Compaction leaves everything but the values. -/
theorem compacted_keeps {sha256 : Bytes → Bytes} {event compacted : EvaluatedConfigEvent}
    (h : event.compacted sha256 = .ok compacted) :
    compacted.type = event.type ∧ compacted.contextKind = event.contextKind ∧
      compacted.contextId = event.contextId := by
  obtain ⟨v, -, h⟩ := bind_eq_ok_iff.1 h
  obtain ⟨w, -, h⟩ := bind_eq_ok_iff.1 h
  cases h
  exact ⟨rfl, rfl, rfl⟩

/-- A report can be built if and only if every event of the snapshot is reportable. -/
theorem EventReport.build_ok_iff (sha256 : Bytes → Bytes) (snapshot : EventQueueSnapshot) (contexts : List Context)
    (droppedContexts : ℕ) (invalidContexts : List InvalidContextEntry) :
    (∃ report, build sha256 snapshot contexts droppedContexts invalidContexts = .ok report) ↔
      ∀ event ∈ snapshot.events, event.Reportable := by
  constructor
  · rintro ⟨report, h⟩ event hevent
    obtain ⟨compacted, hcompacted, h⟩ := bind_eq_ok_iff.1 h
    obtain ⟨evaluations, haggregate, -⟩ := bind_eq_ok_iff.1 h
    obtain ⟨event', hmem, hevent'⟩ := mem_mapM_of_mem hcompacted hevent
    obtain ⟨hdefault, hevaluated⟩ := (compacted_ok_iff sha256 event).1 ⟨event', hevent'⟩
    have htype := (aggregate_ok_iff _ _ _).1 ⟨evaluations, haggregate⟩ event' hmem
    rw [(compacted_keeps hevent').1] at htype
    exact ⟨hdefault, hevaluated, htype⟩
  · intro h
    obtain ⟨compacted, hcompacted⟩ := (mapM_ok_iff (f := EvaluatedConfigEvent.compacted sha256)).2 fun event hevent =>
      (compacted_ok_iff sha256 event).2 ⟨(h event hevent).1, (h event hevent).2.1⟩
    obtain ⟨evaluations, haggregate⟩ := (aggregate_ok_iff compacted snapshot.startTime snapshot.endTime).2 fun event' hmem => by
      obtain ⟨event, hevent, hevent'⟩ := exists_of_mem_mapM hcompacted hmem
      rw [(compacted_keeps hevent').1]
      exact (h event hevent).2.2
    exact ⟨_, bind_eq_ok_iff.2 ⟨compacted, hcompacted, bind_eq_ok_iff.2 ⟨evaluations, haggregate, rfl⟩⟩⟩

/-- What a report says of the events of its snapshot: it aggregates them as compacted. -/
theorem EventReport.build_aggregates {sha256 : Bytes → Bytes} {snapshot : EventQueueSnapshot} {contexts : List Context}
    {droppedContexts : ℕ} {invalidContexts : List InvalidContextEntry} {report : EventReport}
    (h : build sha256 snapshot contexts droppedContexts invalidContexts = .ok report) :
    (∃ compacted, snapshot.events.mapM (EvaluatedConfigEvent.compacted sha256) = .ok compacted ∧
      Aggregates compacted report.evaluations) ∧ report.droppedEvaluations = snapshot.droppedCount ∧
      report.contexts = contexts ∧ report.droppedContexts = droppedContexts := by
  obtain ⟨compacted, hcompacted, h⟩ := bind_eq_ok_iff.1 h
  obtain ⟨evaluations, haggregate, h⟩ := bind_eq_ok_iff.1 h
  cases h
  exact ⟨⟨compacted, hcompacted, aggregates_of_aggregate haggregate⟩, rfl, rfl, rfl⟩

/-! ## What evaluations can be reported -/

section Reportable

variable [Unicode]

/-- The value of an event can be compacted if the server named it, if it is reported inline, or if its
text has an id. -/
theorem compactable_of_iff {v : PyValue} (h : v.IsJson) (valueId : Option Text) (configType : PyValue) :
    (TelemetryValue.of v valueId configType).Compactable ↔
      (valueId = none → isJson v configType = true ∨ configValueMaxLength < (renderValue v configType).length →
        Identifiable v configType) := by
  rw [← encodable_renderValue_iff h]
  unfold TelemetryValue.of TelemetryValue.Compactable
  cases isJson v configType with
  | true =>
    cases valueId with
    | some id => simp
    | none => simp
  | false =>
    simp only [Bool.false_eq_true, if_false, false_or]
    split
    · rename_i hshort
      simp only [Option.some.injEq, forall_eq', true_imp_iff, reduceCtorEq, false_or]
      exact ⟨fun h _ => h, fun h hlong => absurd hshort (Nat.not_le.2 hlong)⟩
    · cases valueId with
      | some id => simp
      | none => simp

/-- Which evaluations can be reported. -/
theorem reportable_event_iff {r : Recording} (hdefault : r.default.IsJson) (hvalue : r.value.IsJson) :
    r.event.Reportable ↔
      (isJson r.default r.configType = true ∨ configValueMaxLength < (renderValue r.default r.configType).length →
        Identifiable r.default r.configType) ∧
      (r.valueId = none →
        isJson r.value r.configType = true ∨ configValueMaxLength < (renderValue r.value r.configType).length →
        Identifiable r.value r.configType) ∧
      ¬ r.configType.IsCollection := by
  unfold EvaluatedConfigEvent.Reportable
  show (TelemetryValue.of r.default none r.configType).Compactable ∧
    (TelemetryValue.of r.value r.valueId r.configType).Compactable ∧ ¬ r.configType.IsCollection ↔ _
  rw [compactable_of_iff hdefault, compactable_of_iff hvalue]
  simp only [true_imp_iff]

end Reportable

end ConfigDirector.Telemetry
