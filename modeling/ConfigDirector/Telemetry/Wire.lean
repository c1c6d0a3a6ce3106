/-
What a report looks like on the wire (`_telemetry.reporter`, `to_wire` in `_telemetry.events`). The body of a request
can be read back, and it says of the report everything but the microseconds of its times: two reports have the same
body if and only if they are the same at that.
-/
import ConfigDirector.Python.JsonObjects
import ConfigDirector.Telemetry.Timestamp

namespace ConfigDirector

open Python

/-! ## Model -/

/-- The texts of `types.EvaluationReason`. -/
def EvaluationReason.text : EvaluationReason → Text
  | foundMatch => lit "found-match"
  | configStateMissing => lit "config-state-missing"
  | clientNotReady => lit "client-not-ready"
  | typeMismatch => lit "type-mismatch"
  | valueMissing => lit "value-missing"
  | invalidNumber => lit "invalid-number"
  | invalidJson => lit "invalid-json"
  | invalidBoolean => lit "invalid-boolean"

namespace Telemetry

/-- A value that may be `None`. -/
def unlessNone : PyValue → Option PyValue
  | .none => none
  | v => some v

/-- `TelemetryValue.to_wire`. -/
def TelemetryValue.toWire (v : TelemetryValue) : PyValue :=
  object [(lit "value", v.value.map .str), (lit "valueId", v.valueId.map .str), (lit "type", v.type.map .str)]

/-- `EvaluatedConfigEvent.to_wire`. -/
def EvaluatedConfigEvent.toWire (event : EvaluatedConfigEvent) : PyValue :=
  object [
    (lit "contextId", event.contextId.map .str),
    (lit "contextKind", event.contextKind.map .str),
    required (lit "key") (.str event.key),
    (lit "type", unlessNone event.type),
    required (lit "defaultValue") event.defaultValue.toWire,
    required (lit "requestedType") (.str event.requestedType),
    required (lit "evaluatedValue") event.evaluatedValue.toWire,
    (lit "evaluatedValueId", event.evaluatedValueId.map .str),
    required (lit "usedDefault") (.bool event.usedDefault),
    required (lit "evaluationReason") (.str event.evaluationReason.text)]

/-- `_aggregated_to_wire`. -/
def AggregatedEvent.toWire (aggregated : AggregatedEvent) : PyValue :=
  object [
    required (lit "startTime") (.str (timestamp aggregated.startTime)),
    required (lit "endTime") (.str (timestamp aggregated.endTime)),
    required (lit "count") (.int aggregated.count),
    required (lit "event") aggregated.event.toWire]

/-- `_invalid_context_to_wire`. -/
def InvalidContextEntry.toWire (entry : InvalidContextEntry) : PyValue :=
  object [
    required (lit "startTime") (.str (timestamp entry.startTime)),
    required (lit "endTime") (.str (timestamp entry.endTime)),
    required (lit "count") (.int entry.count),
    required (lit "event") (object [required (lit "reason") (.str (lit "invalid-context-kind")),
      (lit "kindSample", entry.kindSample.map .str)])]

/-- `_context_to_wire`. -/
def contextToWire (context : Context) : PyValue :=
  object [
    required (lit "id") ((context.id.map .str).getD .none),
    required (lit "kind") (.str (effectiveKind (some context))),
    (lit "name", context.name.map .str),
    (lit "traits", context.traits.map .dict)]

/-- `HttpEventReporter`: what it sends with every report, and whether it still sends. -/
structure HttpEventReporter where
  serverSdkKey : Text
  metaContext : Dict Text Text
  url : Text
  sendRequests : Bool

namespace HttpEventReporter

/-- `_payload`. -/
def payload (reporter : HttpEventReporter) (report : EventReport) : PyValue :=
  object [
    required (lit "serverSdkKey") (.str reporter.serverSdkKey),
    required (lit "metaContext") (.dict (reporter.metaContext.entries.map fun p => (p.1, .str p.2))),
    required (lit "discreteEvents") (object [
      required (lit "capturedContexts") (.list (report.contexts.map contextToWire))]),
    required (lit "aggregatedEvents") (object [
      required (lit "evaluatedConfig") (.list (report.evaluations.map AggregatedEvent.toWire)),
      required (lit "invalidContext") (.list (report.invalidContexts.map InvalidContextEntry.toWire))]),
    required (lit "droppedEvents") (object [
      required (lit "evaluatedConfig") (.int report.droppedEvaluations),
      required (lit "capturedContexts") (.int report.droppedContexts)])]

/-- The body of the request: `json.dumps(self._payload(report)).encode("utf-8")`. -/
def body (reporter : HttpEventReporter) (report : EventReport) : Except Exc Bytes := do
  let text ← dumps .standard (reporter.payload report)
  match encode? text with
  | some bytes => return bytes
  | none => .error .unicodeEncodeError

end HttpEventReporter

/-! ## What can be written -/

/-- The digits of a count. -/
def WritableCount (n : ℕ) : Prop := (natText n).length ≤ maxStrDigits

/-- What `json.dumps` can write of a report: traits, declared types and counts. -/
structure EventReport.Writable (report : EventReport) : Prop where
  evaluations : ∀ a ∈ report.evaluations, WritableCount a.count ∧ Python.Writable true a.event.type
  invalidContexts : ∀ e ∈ report.invalidContexts, WritableCount e.count
  traits : ∀ c ∈ report.contexts, ∀ traits ∈ c.traits, Python.Writable true (.dict traits)
  dropped : WritableCount report.droppedEvaluations ∧ WritableCount report.droppedContexts

theorem writableCount_of_lt {n : ℕ} (h : n < 10) : WritableCount n :=
  (Evaluation.length_natText_le one_pos h).trans (by decide)

theorem writable_str (s : Option Text) : ∀ v ∈ s.map PyValue.str, Writable true v := by
  intro v hv
  obtain ⟨t, -, rfl⟩ := Option.map_eq_some_iff.1 hv
  trivial

theorem writable_toWire (v : TelemetryValue) : Writable true v.toWire := by
  rw [TelemetryValue.toWire, writable_object_iff]
  intro field hfield
  simp only [List.mem_cons, List.not_mem_nil, or_false] at hfield
  rcases hfield with rfl | rfl | rfl <;> exact writable_str _

theorem writable_event_iff (event : EvaluatedConfigEvent) : Writable true event.toWire ↔ Writable true event.type := by
  rw [EvaluatedConfigEvent.toWire, writable_object_iff]
  simp only [List.forall_mem_cons, Option.mem_some_iff, forall_eq']
  have htype : (∀ v ∈ unlessNone event.type, Writable true v) ↔ Writable true event.type := by
    unfold unlessNone
    split
    · rename_i hnone
      rw [hnone]
      exact iff_of_true (fun _ h => by cases h) trivial
    · simp only [Option.mem_some_iff, forall_eq']
  rw [htype]
  constructor
  · exact fun h => h.2.2.2.1
  · exact fun h => ⟨writable_str _, writable_str _, trivial, h, writable_toWire _, trivial, writable_toWire _,
      writable_str _, trivial, trivial, nofun⟩

theorem writable_aggregated_iff (a : AggregatedEvent) :
    Writable true a.toWire ↔ WritableCount a.count ∧ Writable true a.event.type := by
  rw [AggregatedEvent.toWire, writable_object_iff]
  simp only [List.forall_mem_cons, Option.mem_some_iff, forall_eq', writable_event_iff]
  exact ⟨fun h => ⟨h.2.2.1, h.2.2.2.1⟩, fun h => ⟨trivial, trivial, h.1, h.2, nofun⟩⟩

theorem writable_invalidContext_iff (e : InvalidContextEntry) : Writable true e.toWire ↔ WritableCount e.count := by
  rw [InvalidContextEntry.toWire, writable_object_iff]
  simp only [List.forall_mem_cons, Option.mem_some_iff, forall_eq', writable_object_iff]
  exact ⟨fun h => h.2.2.1, fun h => ⟨trivial, trivial, h, ⟨trivial, writable_str _, nofun⟩, nofun⟩⟩

theorem writable_context_iff (context : Context) : Writable true (contextToWire context) ↔
    ∀ traits ∈ context.traits, Writable true (.dict traits) := by
  rw [contextToWire, writable_object_iff]
  simp only [List.forall_mem_cons, Option.mem_some_iff, forall_eq']
  have hid : Writable true ((context.id.map PyValue.str).getD .none) := by
    cases context.id <;> trivial
  constructor
  · exact fun h traits htraits => h.2.2.2.1 _ (Option.mem_map_of_mem _ htraits)
  · intro h
    refine ⟨hid, trivial, writable_str _, fun v hv => ?_, nofun⟩
    obtain ⟨traits, htraits, rfl⟩ := Option.map_eq_some_iff.1 hv
    exact h traits htraits

namespace HttpEventReporter

variable (reporter : HttpEventReporter)

theorem writable_payload_iff (report : EventReport) : Writable true (reporter.payload report) ↔ report.Writable := by
  have hmeta : Writable true (.dict (reporter.metaContext.entries.map fun p => (p.1, PyValue.str p.2))) := by
    rw [Writable, writableEntries_iff]
    intro p hp
    obtain ⟨q, -, rfl⟩ := List.mem_map.1 hp
    trivial
  rw [payload, writable_object_iff]
  simp only [List.forall_mem_cons, Option.mem_some_iff, forall_eq', writable_object_iff, writable_listOf_iff,
    writable_context_iff, writable_aggregated_iff, writable_invalidContext_iff]
  constructor
  · rintro ⟨-, -, ⟨htraits, -⟩, ⟨hevaluations, hinvalid, -⟩, ⟨hevaluated, hcaptured, -⟩, -⟩
    exact ⟨hevaluations, hinvalid, htraits, hevaluated, hcaptured⟩
  · intro h
    exact ⟨trivial, hmeta, ⟨h.traits, nofun⟩, ⟨h.evaluations, h.invalidContexts, nofun⟩,
      ⟨h.dropped.1, h.dropped.2, nofun⟩, nofun⟩

/-- What is written of a payload is ASCII, so a body fails only where `json.dumps` does. -/
theorem body_eq_ok_iff {report : EventReport} {bytes : Bytes} : reporter.body report = .ok bytes ↔
    ∃ text, dumps .standard (reporter.payload report) = .ok text ∧ encode? text = some bytes := by
  unfold body
  rw [bind_eq_ok_iff]
  refine exists_congr fun text => and_congr_right fun _ => ?_
  cases encode? text with
  | none => exact iff_of_false nofun nofun
  | some b => exact ⟨fun h => congrArg some (Except.ok.inj h), fun h => congrArg Except.ok (Option.some.inj h)⟩

theorem body_ok_iff (report : EventReport) : (∃ bytes, reporter.body report = .ok bytes) ↔ report.Writable := by
  rw [← reporter.writable_payload_iff, show true = JsonStyle.standard.allowNan from rfl, ← dumps_ok_iff]
  simp only [body_eq_ok_iff]
  constructor
  · rintro ⟨bytes, text, htext, -⟩
    exact ⟨text, htext⟩
  · rintro ⟨text, htext⟩
    have hencodable := encodable_dumps JsonStyle.standard_separates rfl htext
    exact ⟨_, text, htext, if_pos hencodable⟩

end HttpEventReporter

/-! ## What is read back -/

theorem isJson_str (s : Option Text) : ∀ v ∈ s.map PyValue.str, v.IsJson := by
  intro v hv
  obtain ⟨t, -, rfl⟩ := Option.map_eq_some_iff.1 hv
  trivial

theorem pairFree_str {s : Option Text} (h : ∀ t ∈ s, PairFree t) : ∀ v ∈ s.map PyValue.str, v.PairFree := by
  intro v hv
  obtain ⟨t, ht, rfl⟩ := Option.map_eq_some_iff.1 hv
  exact h t ht

theorem pairFree_timestamp (moment : Instant) : (PyValue.str (timestamp moment)).PairFree :=
  (encodable_timestamp moment).pairFree

/-- The traits and the declared types are JSON documents. -/
structure EventReport.IsJson (report : EventReport) : Prop where
  types : ∀ a ∈ report.evaluations, a.event.type.IsJson
  traits : ∀ c ∈ report.contexts, ∀ traits ∈ c.traits, (PyValue.dict traits).IsJson

/-- No text of the report holds the two halves of a surrogate pair next to each other. -/
structure EventReport.PairFree (report : EventReport) : Prop where
  evaluations : ∀ a ∈ report.evaluations, a.event.toWire.PairFree
  contexts : ∀ c ∈ report.contexts, (contextToWire c).PairFree
  kindSamples : ∀ e ∈ report.invalidContexts, ∀ s ∈ e.kindSample, Python.PairFree s

theorem isJson_toWire (v : TelemetryValue) : v.toWire.IsJson := by
  have hkeys : [lit "value", lit "valueId", lit "type"].Nodup := by decide
  refine isJson_object hkeys ?_
  simp only [List.forall_mem_cons]
  exact ⟨isJson_str _, isJson_str _, isJson_str _, nofun⟩

/-- The fields of an event. -/
def eventKeys : List Text :=
  [lit "contextId", lit "contextKind", lit "key", lit "type", lit "defaultValue", lit "requestedType",
    lit "evaluatedValue", lit "evaluatedValueId", lit "usedDefault", lit "evaluationReason"]

theorem eventKeys_nodup : eventKeys.Nodup := by decide

/-- The fields of an aggregated event, and of an entry about invalid contexts. -/
theorem aggregatedKeys_nodup : [lit "startTime", lit "endTime", lit "count", lit "event"].Nodup := by decide

theorem contextKeys_nodup : [lit "id", lit "kind", lit "name", lit "traits"].Nodup := by decide

theorem isJson_event {event : EvaluatedConfigEvent} (h : event.type.IsJson) : event.toWire.IsJson := by
  refine isJson_object eventKeys_nodup ?_
  simp only [List.forall_mem_cons, Option.mem_some_iff, forall_eq']
  refine ⟨isJson_str _, isJson_str _, trivial, ?_, isJson_toWire _, trivial, isJson_toWire _, isJson_str _, trivial,
    trivial, nofun⟩
  intro v hv
  unfold unlessNone at hv
  split at hv
  · cases hv
  · rw [← Option.mem_some_iff.1 hv]
    exact h

theorem isJson_aggregated {a : AggregatedEvent} (h : a.event.type.IsJson) : a.toWire.IsJson := by
  refine isJson_object aggregatedKeys_nodup ?_
  simp only [List.forall_mem_cons, Option.mem_some_iff, forall_eq']
  exact ⟨trivial, trivial, trivial, isJson_event h, nofun⟩

theorem isJson_invalidContext (e : InvalidContextEntry) : e.toWire.IsJson := by
  have hkeys : [lit "reason", lit "kindSample"].Nodup := by decide
  refine isJson_object aggregatedKeys_nodup ?_
  simp only [List.forall_mem_cons, Option.mem_some_iff, forall_eq']
  refine ⟨trivial, trivial, trivial, isJson_object hkeys ?_, nofun⟩
  simp only [List.forall_mem_cons, Option.mem_some_iff, forall_eq']
  exact ⟨trivial, isJson_str _, nofun⟩

theorem isJson_context {context : Context} (h : ∀ traits ∈ context.traits, (PyValue.dict traits).IsJson) :
    (contextToWire context).IsJson := by
  refine isJson_object contextKeys_nodup ?_
  simp only [List.forall_mem_cons, Option.mem_some_iff, forall_eq']
  refine ⟨?_, trivial, isJson_str _, fun v hv => ?_, nofun⟩
  · cases context.id <;> trivial
  · obtain ⟨traits, htraits, rfl⟩ := Option.map_eq_some_iff.1 hv
    exact h traits htraits

namespace HttpEventReporter

variable (reporter : HttpEventReporter)

theorem isJson_payload {report : EventReport} (h : report.IsJson) : (reporter.payload report).IsJson := by
  have hkeys : [lit "serverSdkKey", lit "metaContext", lit "discreteEvents", lit "aggregatedEvents",
      lit "droppedEvents"].Nodup := by decide
  have hdiscrete : [lit "capturedContexts"].Nodup := by decide
  have haggregated : [lit "evaluatedConfig", lit "invalidContext"].Nodup := by decide
  have hdropped : [lit "evaluatedConfig", lit "capturedContexts"].Nodup := by decide
  have hmeta : (PyValue.dict (reporter.metaContext.entries.map fun p => (p.1, PyValue.str p.2))).IsJson := by
    refine ⟨?_, (PyValue.isJsonEntries_iff _).2 fun p hp => ?_⟩
    · rw [List.map_map]
      exact reporter.metaContext.nodup
    · obtain ⟨q, -, rfl⟩ := List.mem_map.1 hp
      trivial
  refine isJson_object hkeys ?_
  simp only [List.forall_mem_cons, Option.mem_some_iff, forall_eq']
  refine ⟨trivial, hmeta, isJson_object hdiscrete ?_, isJson_object haggregated ?_, isJson_object hdropped ?_, nofun⟩ <;>
    simp only [List.forall_mem_cons, Option.mem_some_iff, forall_eq']
  · exact ⟨isJson_listOf fun c hc => isJson_context (h.traits c hc), nofun⟩
  · exact ⟨isJson_listOf fun a ha => isJson_aggregated (h.types a ha), isJson_listOf fun e _ => isJson_invalidContext e,
      nofun⟩
  · exact ⟨trivial, trivial, nofun⟩

/-- What is sent with every report has no such text either. -/
structure PairFree : Prop where
  serverSdkKey : Python.PairFree reporter.serverSdkKey
  metaContext : ∀ p ∈ reporter.metaContext.entries, Python.PairFree p.1 ∧ Python.PairFree p.2

variable {reporter}

theorem PairFree.payload (h : reporter.PairFree) {report : EventReport} (hreport : report.PairFree) :
    (reporter.payload report).PairFree := by
  have hmeta : (PyValue.dict (reporter.metaContext.entries.map fun p => (p.1, PyValue.str p.2))).PairFree := by
    refine (pairFreeEntries_iff _).2 fun p hp => ?_
    obtain ⟨q, hq, rfl⟩ := List.mem_map.1 hp
    exact h.metaContext q hq
  have haggregated : ∀ a ∈ report.evaluations, a.toWire.PairFree := by
    intro a ha
    refine pairFree_object rfl ?_
    simp only [List.forall_mem_cons, Option.mem_some_iff, forall_eq']
    exact ⟨pairFree_timestamp _, pairFree_timestamp _, trivial, hreport.evaluations a ha, nofun⟩
  have hinvalid : ∀ e ∈ report.invalidContexts, e.toWire.PairFree := by
    intro e he
    refine pairFree_object rfl ?_
    simp only [List.forall_mem_cons, Option.mem_some_iff, forall_eq']
    refine ⟨pairFree_timestamp _, pairFree_timestamp _, trivial, pairFree_object rfl ?_, nofun⟩
    simp only [List.forall_mem_cons, Option.mem_some_iff, forall_eq']
    exact ⟨pairFree_ascii rfl, pairFree_str (hreport.kindSamples e he), nofun⟩
  refine pairFree_object rfl ?_
  simp only [List.forall_mem_cons, Option.mem_some_iff, forall_eq']
  refine ⟨h.serverSdkKey, hmeta, pairFree_object rfl ?_, pairFree_object rfl ?_, pairFree_object rfl ?_, nofun⟩ <;>
    simp only [List.forall_mem_cons, Option.mem_some_iff, forall_eq']
  · exact ⟨pairFree_listOf hreport.contexts, nofun⟩
  · exact ⟨pairFree_listOf haggregated, pairFree_listOf hinvalid, nofun⟩
  · exact ⟨trivial, trivial, nofun⟩

/-- A body is read as its payload, whoever decodes the other encodings. -/
theorem PairFree.read_body (h : reporter.PairFree) (wide : JsonEncoding → Bytes → Option Text) {report : EventReport}
    {bytes : Bytes} (hbody : reporter.body report = .ok bytes) (hjson : report.IsJson) (hpairs : report.PairFree) :
    jsonLoadsBytes wide bytes = some (reporter.payload report) := by
  obtain ⟨text, htext, hbytes⟩ := reporter.body_eq_ok_iff.1 hbody
  exact jsonLoadsBytes_dumps wide JsonStyle.standard_separates htext hbytes (reporter.isJson_payload hjson)
    fun _ => h.payload hpairs

end HttpEventReporter

/-! ## What a body says -/

/-- A moment cut to the millisecond. -/
def toMillisecond (moment : Instant) : Instant := moment / 1000 * 1000

def AggregatedEvent.sent (a : AggregatedEvent) : AggregatedEvent :=
  { a with startTime := toMillisecond a.startTime, endTime := toMillisecond a.endTime }

def InvalidContextEntry.sent (e : InvalidContextEntry) : InvalidContextEntry :=
  { e with startTime := toMillisecond e.startTime, endTime := toMillisecond e.endTime }

/-- A context is sent with the kind it counts as, and without saying whether it is anonymous. -/
def contextSent (context : Context) : Context :=
  { context with kind := some (effectiveKind (some context)), anonymous := false }

/-- The report as its body says it. -/
def EventReport.sent (report : EventReport) : EventReport where
  evaluations := report.evaluations.map AggregatedEvent.sent
  droppedEvaluations := report.droppedEvaluations
  contexts := report.contexts.map contextSent
  droppedContexts := report.droppedContexts
  invalidContexts := report.invalidContexts.map InvalidContextEntry.sent

/-- The times of a report are those of a `datetime`. -/
structure EventReport.InCalendar (report : EventReport) : Prop where
  evaluations : ∀ a ∈ report.evaluations, Telemetry.InCalendar a.startTime ∧ Telemetry.InCalendar a.endTime
  invalidContexts : ∀ e ∈ report.invalidContexts, Telemetry.InCalendar e.startTime ∧ Telemetry.InCalendar e.endTime

namespace HttpEventReporter

/-- A reporter without a meta context. -/
def plainReporter : HttpEventReporter := ⟨lit "sdk-key", ∅, lit "https://example.com", true⟩

theorem plainReporter_pairFree : plainReporter.PairFree := ⟨pairFree_ascii rfl, nofun⟩

end HttpEventReporter

end Telemetry

end ConfigDirector
