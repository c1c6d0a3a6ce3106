/-
What is reported of an evaluation (`_telemetry.events`, `compact_json`, `value_id`): values as text,
the id a text gets, and the event of a recorded evaluation. Text that UTF-8 cannot encode has no id.
-/
import ConfigDirector.Bundle.Parse
import ConfigDirector.Evaluation.Condition
import ConfigDirector.Python.Encodable
import ConfigDirector.Python.Utf8

namespace ConfigDirector.Telemetry

open Python Evaluation

/-! ## Compact JSON -/

mutual
/-- `to_compact_json`. -/
def toCompactJson : PyValue → Except Exc Text
  | .none => .ok (lit "null")
  | .bool b => .ok (if b then lit "true" else lit "false")
  | .int n => .ok (intText n)
  | .float x => .ok (if x.isFinite then floatToJsonString x else lit "null")
  | .str s => .ok (jsonString false s)
  | .list items => do
    let parts ← toCompactJsonList items
    return lit "[" ++ join (lit ",") parts ++ lit "]"
  | .dict entries => do
    let members ← toCompactJsonEntries entries
    return lit "\x7b" ++ join (lit ",") members ++ lit "\x7d"
  | .other _ => .error .typeError

def toCompactJsonList : List PyValue → Except Exc (List Text)
  | [] => .ok []
  | item :: items => do
    let part ← toCompactJson item
    let parts ← toCompactJsonList items
    return part :: parts

def toCompactJsonEntries : List (Text × PyValue) → Except Exc (List Text)
  | [] => .ok []
  | (key, member) :: entries => do
    let text ← toCompactJson member
    let members ← toCompactJsonEntries entries
    return (jsonString false key ++ lit ":" ++ text) :: members
end

theorem encodable_floatToJsonString (x : PyFloat) : Encodable (floatToJsonString x) := by
  unfold floatToJsonString
  split
  · exact encodable_ascii rfl
  · split <;> exact encodable_ascii rfl
  · split
    · exact encodable_intText _
    · exact encodable_floatRepr _

mutual
/-- A JSON document has a compact form; the texts in it are the only ones it takes from outside. -/
theorem toCompactJson_spec : ∀ v : PyValue, v.IsJson →
    ∃ text, toCompactJson v = .ok text ∧ (Encodable text ↔ v.Clean)
  | .none, _ => ⟨_, rfl, iff_of_true (encodable_ascii rfl) trivial⟩
  | .bool b, _ => ⟨_, rfl, iff_of_true (by cases b <;> exact encodable_ascii rfl) trivial⟩
  | .int n, _ => ⟨_, rfl, iff_of_true (encodable_intText n) trivial⟩
  | .float x, _ => by
    refine ⟨_, rfl, iff_of_true ?_ trivial⟩
    split
    · exact encodable_floatToJsonString x
    · exact encodable_ascii rfl
  | .str s, _ => ⟨_, rfl, encodable_jsonString_iff s⟩
  | .list items, h => by
    rw [PyValue.IsJson] at h
    obtain ⟨parts, hparts, hclean⟩ := toCompactJsonList_spec items h
    refine ⟨lit "[" ++ join (lit ",") parts ++ lit "]", by rw [toCompactJson, hparts]; rfl, ?_⟩
    rw [encodable_append, encodable_append, encodable_join (encodable_ascii rfl), PyValue.Clean, ← hclean]
    exact ⟨fun h => h.1.2, fun h => ⟨⟨encodable_ascii rfl, h⟩, encodable_ascii rfl⟩⟩
  | .dict entries, h => by
    rw [PyValue.IsJson] at h
    obtain ⟨members, hmembers, hclean⟩ := toCompactJsonEntries_spec entries h.2
    refine ⟨lit "\x7b" ++ join (lit ",") members ++ lit "\x7d", by rw [toCompactJson, hmembers]; rfl, ?_⟩
    rw [encodable_append, encodable_append, encodable_join (encodable_ascii rfl), PyValue.Clean, ← hclean]
    exact ⟨fun h => h.1.2, fun h => ⟨⟨encodable_ascii rfl, h⟩, encodable_ascii rfl⟩⟩
  | .other _, h => by simp [PyValue.IsJson] at h

theorem toCompactJsonList_spec : ∀ vs : List PyValue, PyValue.IsJsonList vs →
    ∃ parts, toCompactJsonList vs = .ok parts ∧ ((∀ t ∈ parts, Encodable t) ↔ PyValue.CleanList vs)
  | [], _ => ⟨[], rfl, iff_of_true (fun _ ht => (List.not_mem_nil ht).elim) trivial⟩
  | v :: vs, h => by
    rw [PyValue.IsJsonList] at h
    obtain ⟨part, hpart, hv⟩ := toCompactJson_spec v h.1
    obtain ⟨parts, hparts, hvs⟩ := toCompactJsonList_spec vs h.2
    refine ⟨part :: parts, by rw [toCompactJsonList, hpart, hparts]; rfl, ?_⟩
    rw [List.forall_mem_cons, hv, hvs, PyValue.CleanList]

theorem toCompactJsonEntries_spec : ∀ es : List (Text × PyValue), PyValue.IsJsonEntries es →
    ∃ members, toCompactJsonEntries es = .ok members ∧ ((∀ t ∈ members, Encodable t) ↔ PyValue.CleanEntries es)
  | [], _ => ⟨[], rfl, iff_of_true (fun _ ht => (List.not_mem_nil ht).elim) trivial⟩
  | (k, v) :: es, h => by
    rw [PyValue.IsJsonEntries] at h
    obtain ⟨text, htext, hv⟩ := toCompactJson_spec v h.1
    obtain ⟨members, hmembers, hes⟩ := toCompactJsonEntries_spec es h.2
    refine ⟨(jsonString false k ++ lit ":" ++ text) :: members, by
      rw [toCompactJsonEntries, htext, hmembers]; rfl, ?_⟩
    rw [List.forall_mem_cons, encodable_append, encodable_append, encodable_jsonString_iff, hv, hes,
      PyValue.CleanEntries, and_iff_left (encodable_ascii rfl), and_assoc]
end

/-! ## Value ids -/

/-- `_DIGEST_BYTES`. -/
def digestBytes : ℕ := 16

/-- `VALUE_ID_LENGTH`. -/
def valueIdLength : ℕ := 22

/-- `_BASE62`. -/
def base62 : Text := lit "0123456789ABCDEFGHIJKLMNOPQRSTUVWXYZabcdefghijklmnopqrstuvwxyz"

/-- `_to_base62`. -/
def toBase62 (number : ℕ) : Text :=
  let digits := (Nat.digits 62 number).reverse.map fun remainder => base62.getD remainder 0x30
  List.replicate (valueIdLength - digits.length) 0x30 ++ digits

/-- `int.from_bytes(digest, "big")`. -/
def bigEndian (digest : Bytes) : ℕ := digest.foldl (fun n byte => 256 * n + byte.toNat) 0

/-- `generate_value_id`, the hash function a parameter. -/
def generateValueId (sha256 : Bytes → Bytes) (value : Text) : Except Exc Text :=
  match encode? value with
  | some bytes => .ok (toBase62 (bigEndian ((sha256 bytes).take digestBytes)))
  | none => .error .unicodeEncodeError

theorem generateValueId_ok_iff (sha256 : Bytes → Bytes) (value : Text) :
    (∃ id, generateValueId sha256 value = .ok id) ↔ Encodable value := by
  rw [← encode?_isSome]
  unfold generateValueId
  cases encode? value with
  | none => simp
  | some bytes => simp

/-! ## Values as text -/

section Render

variable [Unicode]

/-- `to_json_string` of a value of any class. -/
def jsonText (value : PyValue) : Text :=
  match scalar? value with
  | some scalar => toJsonString scalar
  | none => value.toText

/-- `_is_json`; the declared type is carried as the server sent it, `None` without one. -/
def isJson (value configType : PyValue) : Bool :=
  match configType with
  | .str type => type = lit "json"
  | .none => match value with | .list _ | .dict _ => true | _ => false
  | _ => false

def renderValue (value configType : PyValue) : Text :=
  if isJson value configType then
    match toCompactJson value with
    | .ok text => text
    | .error _ => value.toText
  else jsonText value

def valueIdFor (sha256 : Bytes → Bytes) (value configType : PyValue) : Except Exc Text :=
  generateValueId sha256 (renderValue value configType)

/-- A text UTF-8 can encode, or a value of another class. -/
def OwnTextEncodable : PyValue → Prop
  | .str s => Encodable s
  | _ => True

/-- What a value must be for its text to have an id: as JSON, every text in it must be encodable, else
only the value itself if it is one. -/
def Identifiable (value configType : PyValue) : Prop :=
  if isJson value configType then value.Clean else OwnTextEncodable value

theorem encodable_jsonText_iff {v : PyValue} (h : v.IsJson) : Encodable (jsonText v) ↔ OwnTextEncodable v := by
  cases v with
  | bool b => exact iff_of_true (by cases b <;> exact encodable_ascii rfl) trivial
  | int n => exact iff_of_true (encodable_intText n) trivial
  | float x => exact iff_of_true (encodable_floatToJsonString x) trivial
  | str s => exact Iff.rfl
  | none => exact iff_of_true (encodable_repr _ h) trivial
  | list items => exact iff_of_true (encodable_repr _ h) trivial
  | dict entries => exact iff_of_true (encodable_repr _ h) trivial
  | other text => simp [PyValue.IsJson] at h

theorem encodable_renderValue_iff {v : PyValue} (h : v.IsJson) (configType : PyValue) :
    Encodable (renderValue v configType) ↔ Identifiable v configType := by
  unfold renderValue Identifiable
  split
  · obtain ⟨text, htext, hclean⟩ := toCompactJson_spec v h
    rw [htext]
    exact hclean
  · exact encodable_jsonText_iff h

/-- A JSON document has an id if and only if it is identifiable. -/
theorem valueIdFor_ok_iff (sha256 : Bytes → Bytes) {v : PyValue} (h : v.IsJson) (configType : PyValue) :
    (∃ id, valueIdFor sha256 v configType = .ok id) ↔ Identifiable v configType :=
  (generateValueId_ok_iff sha256 _).trans (encodable_renderValue_iff h configType)

/-! ## Events -/

/-- `CONFIG_VALUE_MAX_LENGTH`. -/
def configValueMaxLength : ℕ := 500

structure TelemetryValue where
  value : Option Text
  valueId : Option Text
  type : Option Text
deriving DecidableEq

/-- `TelemetryValue.of`. -/
def TelemetryValue.of (value : PyValue) (valueId : Option Text) (configType : PyValue) : TelemetryValue :=
  let rendered := renderValue value configType
  if isJson value configType then
    match valueId with
    | some valueId => ⟨none, some valueId, some (lit "json")⟩
    | none => ⟨some rendered, none, some (lit "json")⟩
  else if rendered.length ≤ configValueMaxLength then ⟨some rendered, none, none⟩
  else
    match valueId with
    | some valueId => ⟨none, some valueId, none⟩
    | none => ⟨some rendered, none, none⟩

/-- `TelemetryValue.compacted`. -/
def TelemetryValue.compacted (sha256 : Bytes → Bytes) (v : TelemetryValue) : Except Exc TelemetryValue :=
  match v.valueId, v.value with
  | some valueId, _ => .ok ⟨none, some valueId, none⟩
  | none, some value =>
    if !value.isEmpty && (v.type = some (lit "json") || configValueMaxLength < value.length) then
      return ⟨none, some (← generateValueId sha256 value), none⟩
    else .ok ⟨some value, none, none⟩
  | none, none => .ok ⟨none, none, none⟩

/-- What compaction hashes can be encoded. -/
def TelemetryValue.Compactable (v : TelemetryValue) : Prop :=
  ∀ value, v.valueId = none → v.value = some value →
    v.type = some (lit "json") ∨ configValueMaxLength < value.length → Encodable value

omit [Unicode] in
theorem TelemetryValue.compacted_ok_iff (sha256 : Bytes → Bytes) (v : TelemetryValue) :
    (∃ w, v.compacted sha256 = .ok w) ↔ v.Compactable := by
  obtain ⟨value, valueId, type⟩ := v
  unfold Compactable compacted
  cases valueId with
  | some valueId => simp
  | none =>
    cases value with
    | none => simp
    | some value =>
      simp only [Option.some.injEq, forall_eq', true_imp_iff]
      cases value with
      | nil => simp [encodable_nil]
      | cons c s =>
        simp only [List.isEmpty_cons, Bool.not_false, Bool.true_and, Bool.or_eq_true, decide_eq_true_eq]
        split
        · rename_i hhashed
          rw [imp_iff_right hhashed, ← generateValueId_ok_iff sha256]
          constructor
          · rintro ⟨w, h⟩
            obtain ⟨id, hid, -⟩ := bind_eq_ok_iff.1 h
            exact ⟨id, hid⟩
          · rintro ⟨id, hid⟩
            exact ⟨_, bind_eq_ok_iff.2 ⟨id, hid, rfl⟩⟩
        · rename_i hhashed
          exact iff_of_true ⟨_, rfl⟩ fun h => absurd h hhashed

/-- The arguments of `record_evaluation`. -/
structure Recording where
  key : Text
  default : PyValue
  value : PyValue
  usedDefault : Bool
  reason : EvaluationReason
  context : Option Context
  configType : PyValue
  valueId : Option Text

structure EvaluatedConfigEvent where
  key : Text
  defaultValue : TelemetryValue
  evaluatedValue : TelemetryValue
  requestedType : Text
  usedDefault : Bool
  evaluationReason : EvaluationReason
  contextId : Option Text
  contextKind : Option Text
  type : PyValue
  evaluatedValueId : Option Text

/-- `EvaluatedConfigEvent.compacted`. -/
def EvaluatedConfigEvent.compacted (sha256 : Bytes → Bytes) (event : EvaluatedConfigEvent) :
    Except Exc EvaluatedConfigEvent := do
  let defaultValue ← event.defaultValue.compacted sha256
  let evaluatedValue ← event.evaluatedValue.compacted sha256
  return { event with defaultValue, evaluatedValue }

namespace Recording

/-- The kind and id the context is reported under: an anonymous one is not identified. -/
def contextKey (r : Recording) : Option (Text × Text) :=
  match r.context with
  | none => none
  | some context =>
    match context.id with
    | none => none
    | some id => if !id.isEmpty && !context.anonymous then some (effectiveKind (some context), id) else none

/-- `EvaluatedConfigEvent.of`, as `record_evaluation` calls it. -/
def event (r : Recording) : EvaluatedConfigEvent where
  key := r.key
  defaultValue := .of r.default none r.configType
  evaluatedValue := .of r.value r.valueId r.configType
  requestedType := Bundle.typeName r.default
  usedDefault := r.usedDefault
  evaluationReason := r.reason
  contextId := r.contextKey.map Prod.snd
  contextKind := r.contextKey.map Prod.fst
  type := r.configType
  evaluatedValueId := r.valueId

end Recording

end Render

end ConfigDirector.Telemetry
