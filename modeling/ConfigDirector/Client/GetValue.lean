/-
`get_value` of the client: validation, evaluation, reading, and what is emitted and recorded on the
way. Naming a value hashes its text, and a text with a lone surrogate cannot be encoded; the declared
type is hashed when a `str` is asked for, and a list or a dictionary cannot be.
-/
import ConfigDirector.Client.Operations
import ConfigDirector.Client.ValueParser
import ConfigDirector.Telemetry.Values

namespace ConfigDirector

open Python Evaluation Telemetry

/-! ## `_context_kind` -/

/-- `_KIND_CHARACTERS`. -/
def kindCharacters : Text := lit "abcdefghijklmnopqrstuvwxyz0123456789-_"

/-- `_MAXIMUM_KIND_LENGTH`. -/
def maximumKindLength : ℕ := 64

/-- `_MAXIMUM_KIND_SAMPLE_LENGTH`. -/
def maximumKindSampleLength : ℕ := 128

def isValidKind (kind : Text) : Bool :=
  0 < kind.length && kind.length ≤ maximumKindLength && kind.all kindCharacters.contains

def kindSample (kind : Text) : Text := kind.take maximumKindSampleLength

namespace Client

/-! ## Model -/

/-- What the client takes from the language: `json.loads` and `hashlib.sha256`. -/
structure Library extends JsonLoads where
  sha256 : Bytes → Bytes

/-- The library that reads no JSON and hashes everything to nothing. -/
def Library.refusing : Library := ⟨.refusing, fun _ => []⟩

inductive ClientError
  /-- `ConfigDirectorValidationError`. -/
  | validation (message : Text)
  /-- `ConfigDirectorTypeError`. -/
  | type (message : Text)
  | raised (e : Exc)

/-- `types.ConfigEvaluation`. -/
structure ConfigEvaluation where
  key : Text
  value : PyValue
  isDefault : Bool
  reason : EvaluationReason
  valueId : Option Text
  context : Option Context

/-- What one evaluation returns, emits to the handlers and records for telemetry, and the sample of
an invalid context kind it records. -/
structure Evaluated where
  value : PyValue
  evaluation : ConfigEvaluation
  recording : Recording
  kindSample : Option Text

/-- `validate_config_key`. -/
def validateConfigKey (configKey : PyValue) : Except ClientError Text :=
  let invalid : ClientError := .validation (lit "Invalid config key. The config key must be a non-empty string.")
  match configKey with
  | .str key => if (strip key).isEmpty then .error invalid else .ok key
  | _ => .error invalid

def validateDefault (default : PyValue) : Except ClientError Unit :=
  match default with
  | .none => .error (.type (lit "Invalid default value. The default value for a config must not be None."))
  | .other _ => .error (.type (lit "Invalid default value of type '" ++ Bundle.typeName default ++
      lit "'. The default value for a config must be a str, int, float, bool, dict, or list."))
  | _ => .ok ()

/-- The context a supplied one is evaluated as, and the sample of a kind that is not valid. -/
def contextToEvaluate (suppliedContext : Option Context) : Option Context × Option Text :=
  match suppliedContext.bind Context.kind with
  | none => (suppliedContext, none)
  | some kind => if isValidKind kind then (suppliedContext, none) else (none, some (kindSample kind))

section Evaluate

variable [Unicode] (lib : Library) (metadata : Metadata)

/-- `value_id or value_id_for(value, type)`. -/
def idOr (valueId : Option Text) (value configType : PyValue) : Except Exc Text :=
  match valueId with
  | some (c :: id) => .ok (c :: id)
  | _ => valueIdFor lib.sha256 value configType

/-- The end of `_evaluate`: one result is returned, emitted and recorded. -/
def evaluated (configKey : Text) (default : PyValue) (result : ParseResult) (configType : PyValue) (valueId : Text)
    (supplied : Option Context) : Evaluated :=
  let (context, sample) := contextToEvaluate supplied
  { value := result.value
    evaluation := ⟨configKey, result.value, result.usedDefault, result.reason, some valueId, context⟩
    recording := ⟨configKey, default, result.value, result.usedDefault, result.reason, context, configType,
      some valueId⟩
    kindSample := sample }

/-- The state the evaluator selects. -/
def selectedState (definition : Config PyFloat) (supplied : Option Context) (segments : Segments) : ConfigState :=
  evaluate definition (some ⟨(contextToEvaluate supplied).1, some metadata⟩) (some segments)

/-- `_evaluate`. -/
def evaluateFor (ready : Bool) (configKey : Text) (definition : Option (Config PyFloat)) (default : PyValue)
    (supplied : Option Context) (segments : Segments) : Except Exc Evaluated :=
  match definition with
  | none => do
    let reason : EvaluationReason := if ready then .configStateMissing else .clientNotReady
    let valueId ← valueIdFor lib.sha256 default .none
    return evaluated configKey default (defaulted default reason) .none valueId supplied
  | some definition => do
    let state := selectedState metadata definition supplied segments
    let result ← parseConfigValue lib.toJsonLoads state default
    let valueId ← idOr lib result.valueId result.value state.type
    return evaluated configKey default result state.type valueId supplied

/-- `get_value`. -/
def getValue (s : ClientState) (configKey default : PyValue) (context : Option Context) :
    Except ClientError Evaluated := do
  let key ← validateConfigKey configKey
  validateDefault default
  match evaluateFor lib metadata s.ready key (s.held key) default context s.segments with
  | .ok evaluated => return evaluated
  | .error e => .error (.raised e)

end Evaluate

/-! ## Requests -/

/-- A call `get_value` promises to answer: a key that is not blank, and a default of an accepted
class that holds JSON values only. -/
structure Request where
  key : Text
  default : PyValue
  context : Option Context
  key_content : (strip key).isEmpty = false
  default_class : (valueClass default).isSome
  default_json : default.IsJson

section Answers

variable [Unicode] (lib : Library) (metadata : Metadata)

/-- `get_value` returns the default, or the value it reads in the state selected for the key. -/
def Answers (s : ClientState) (r : Request) : Prop :=
  ∃ e, getValue lib metadata s (.str r.key) r.default r.context = .ok e ∧
    (e.value = r.default ∨ ∃ definition result, s.held r.key = some definition ∧
      parseConfigValue lib.toJsonLoads (selectedState metadata definition r.context s.segments) r.default = .ok result ∧
      result.reason = .foundMatch ∧ e.value = result.value)

/-- A value that comes with an id, or that can be given one. -/
def Named (valueId : Option Text) (value configType : PyValue) : Prop :=
  (∃ c id, valueId = some (c :: id)) ∨ Identifiable value configType

/-- When the text selected for a key can be read under a default and the result named. A `bool`, an
`int` or a `float` always can: no text of theirs has a lone surrogate. -/
def Readable (json : JsonLoads) (default configType : PyValue) (raw : Text) (valueId : Option Text) : Prop :=
  match default with
  | .str _ =>
    if raw.isEmpty then Identifiable default configType
    else isHashable configType ∧
      if isNotReadableAsString configType then Identifiable default configType
      else Named valueId (.str raw) configType
  | .list _ | .dict _ =>
    if raw.isEmpty then Identifiable default configType
    else
      match parseJson json raw default with
      | some document => Named valueId document configType
      | none => Identifiable default configType
  | _ => True

/-- What is held for the key is readable; where nothing is, the default can be named. -/
def Answerable (s : ClientState) (r : Request) : Prop :=
  match s.held r.key with
  | none => Identifiable r.default .none
  | some definition =>
    let selected := getConfigValue definition (some ⟨(contextToEvaluate r.context).1, some metadata⟩) (some s.segments)
    Readable lib.toJsonLoads r.default definition.type selected.1 selected.2

/-! ## Naming -/

omit [Unicode] in
theorem identifiable_scalar {v : PyValue} (hclean : v.Clean) (hown : OwnTextEncodable v) (configType : PyValue) :
    Identifiable v configType := by
  unfold Identifiable
  split
  · exact hclean
  · exact hown

theorem idOr_ok_iff (valueId : Option Text) {v : PyValue} (h : v.IsJson) (configType : PyValue) :
    (∃ id, idOr lib valueId v configType = .ok id) ↔ Named valueId v configType := by
  have hnamed := valueIdFor_ok_iff lib.sha256 h configType
  unfold Named
  match valueId with
  | none => simpa [idOr] using hnamed
  | some [] => simpa [idOr] using hnamed
  | some (c :: id) => exact iff_of_true ⟨_, rfl⟩ (.inl ⟨c, id, rfl⟩)

omit [Unicode] in
theorem named_none_iff {v configType : PyValue} : Named none v configType ↔ Identifiable v configType := by
  unfold Named
  constructor
  · rintro (⟨c, id, h⟩ | h)
    · cases h
    · exact h
  · exact .inr

omit [Unicode] in
theorem named_matchedOr_iff (parsed : Option PyValue) (default : PyValue) (reason : EvaluationReason)
    (state : ConfigState) :
    Named (matchedOr parsed default reason state).valueId (matchedOr parsed default reason state).value state.type ↔
      match parsed with
      | some v => Named state.valueId v state.type
      | none => Identifiable default state.type := by
  cases parsed with
  | some v => exact Iff.rfl
  | none => exact named_none_iff

/-! ## Reading and naming -/

/-- The state can be read and the result named. -/
def Nameable (json : JsonLoads) (state : ConfigState) (default : PyValue) : Prop :=
  ∃ result, parseConfigValue json state default = .ok result ∧ Named result.valueId result.value state.type

omit [Unicode] in
theorem nameable_of_ok {json : JsonLoads} {state : ConfigState} {default : PyValue} {result : ParseResult}
    (h : parseConfigValue json state default = .ok result) :
    Nameable json state default ↔ Named result.valueId result.value state.type := by
  constructor
  · rintro ⟨result', h', hnamed⟩
    rw [h] at h'
    cases h'
    exact hnamed
  · intro hnamed
    exact ⟨result, h, hnamed⟩

section Cases

variable {json : JsonLoads} {state : ConfigState} {raw : Text}

omit [Unicode] in
theorem nameable_empty_iff (hraw : state.value = some raw) (h : raw.isEmpty = true) (default : PyValue) :
    Nameable json state default ↔ Identifiable default state.type := by
  rw [nameable_of_ok (parseConfigValue_empty hraw h default)]
  exact named_none_iff

omit [Unicode] in
theorem nameable_str_iff (hraw : state.value = some raw) (h : raw.isEmpty = false) (s : Text) :
    Nameable json state (.str s) ↔ isHashable state.type ∧
      if isNotReadableAsString state.type then Identifiable (.str s) state.type
      else Named state.valueId (.str raw) state.type := by
  have hparse : parseConfigValue json state (.str s) = _ := parseConfigValue_str hraw h s
  by_cases hhash : isHashable state.type
  · rw [if_pos hhash] at hparse
    rw [nameable_of_ok hparse, and_iff_right hhash]
    split
    · exact named_none_iff
    · exact Iff.rfl
  · -- the declared type is a list or a dictionary, and the lookup raises
    rw [if_neg hhash] at hparse
    constructor
    · rintro ⟨result, hok, -⟩
      rw [hparse] at hok
      cases hok
    · rintro ⟨h, -⟩
      exact absurd h hhash

omit [Unicode] in
theorem nameable_readAs_iff (hraw : state.value = some raw) (h : raw.isEmpty = false) {default : PyValue}
    (hstr : ∀ s, default ≠ .str s) : Nameable json state default ↔
      match (readAs json raw default).1 with
      | some v => Named state.valueId v state.type
      | none => Identifiable default state.type := by
  rw [nameable_of_ok (parseConfigValue_readAs hraw h hstr)]
  exact named_matchedOr_iff ..

omit [Unicode] in
/-- What is read under a scalar default can be named. -/
theorem nameable_scalar {β : Type} {f : β → PyValue} (hf : ∀ b t, Identifiable (f b) t) (hstr : ∀ b s, f b ≠ .str s)
    (hraw : state.value = some raw) {parsed : Option β} {b : β} (hread : (readAs json raw (f b)).1 = parsed.map f) :
    Nameable json state (f b) := by
  cases h : raw.isEmpty with
  | true => exact (nameable_empty_iff hraw h _).2 (hf b _)
  | false =>
    rw [nameable_readAs_iff hraw h (hstr b), hread]
    cases parsed with
    | none => exact hf b _
    | some c => exact .inr (hf c _)

omit [Unicode] in
/-- The result of reading a state under a default of each class can be named as far as `Readable` says. -/
theorem nameable_iff (hraw : state.value = some raw) {default : PyValue} (hclass : (valueClass default).isSome) :
    Nameable json state default ↔ Readable json default state.type raw state.valueId := by
  have hbool : ∀ b t, Identifiable (.bool b) t := fun b => identifiable_scalar (v := .bool b) trivial trivial
  have hint : ∀ n t, Identifiable (.int n) t := fun n => identifiable_scalar (v := .int n) trivial trivial
  have hfloat : ∀ x t, Identifiable (.float x) t := fun x => identifiable_scalar (v := .float x) trivial trivial
  cases default with
  | bool b => exact iff_of_true (nameable_scalar hbool (by simp) hraw rfl) trivial
  | int n => exact iff_of_true (nameable_scalar hint (by simp) hraw rfl) trivial
  | float x => exact iff_of_true (nameable_scalar hfloat (by simp) hraw rfl) trivial
  | str s =>
    show _ ↔ if raw.isEmpty then _ else _
    split
    · next h => exact nameable_empty_iff hraw h _
    · next h => exact nameable_str_iff hraw (Bool.eq_false_iff.2 h) s
  | list items =>
    show _ ↔ if raw.isEmpty then _ else _
    split
    · next h => exact nameable_empty_iff hraw h _
    · next h => exact nameable_readAs_iff hraw (Bool.eq_false_iff.2 h) (by simp)
  | dict entries =>
    show _ ↔ if raw.isEmpty then _ else _
    split
    · next h => exact nameable_empty_iff hraw h _
    · next h => exact nameable_readAs_iff hraw (Bool.eq_false_iff.2 h) (by simp)
  | none => cases hclass
  | other text => cases hclass

end Cases

/-! ## Answers -/

theorem evaluateFor_missing_ok {ready : Bool} {configKey : Text} {default : PyValue} {supplied : Option Context}
    {segments : Segments} {e : Evaluated}
    (h : evaluateFor lib metadata ready configKey none default supplied segments = .ok e) :
    (∃ id, valueIdFor lib.sha256 default .none = .ok id) ∧ e.value = default := by
  obtain ⟨id, hid, he⟩ := bind_eq_ok_iff.1 h
  cases he
  exact ⟨⟨id, hid⟩, rfl⟩

theorem evaluateFor_held_ok {ready : Bool} {configKey : Text} {definition : Config PyFloat} {default : PyValue}
    {supplied : Option Context} {segments : Segments} {e : Evaluated}
    (h : evaluateFor lib metadata ready configKey (some definition) default supplied segments = .ok e) :
    ∃ result, parseConfigValue lib.toJsonLoads (selectedState metadata definition supplied segments) default = .ok result ∧
      (∃ id, idOr lib result.valueId result.value definition.type = .ok id) ∧ e.value = result.value := by
  obtain ⟨result, hresult, h⟩ := bind_eq_ok_iff.1 h
  obtain ⟨id, hid, he⟩ := bind_eq_ok_iff.1 h
  cases he
  exact ⟨result, hresult, ⟨id, hid⟩, rfl⟩

/-- A request passes validation, so that only the evaluation can raise. -/
theorem getValue_eq_ok_iff (s : ClientState) (r : Request) (e : Evaluated) :
    getValue lib metadata s (.str r.key) r.default r.context = .ok e ↔
      evaluateFor lib metadata s.ready r.key (s.held r.key) r.default r.context s.segments = .ok e := by
  have hkey : validateConfigKey (.str r.key) = .ok r.key := by
    simp [validateConfigKey, r.key_content]
  have hdefault : validateDefault r.default = .ok () := by
    have hclass := r.default_class
    cases hd : r.default with
    | none => rw [hd] at hclass; cases hclass
    | other text => rw [hd] at hclass; cases hclass
    | _ => rfl
  unfold getValue
  rw [hkey, hdefault]
  show (match evaluateFor lib metadata s.ready r.key (s.held r.key) r.default r.context s.segments with
    | .ok evaluated => (Except.ok evaluated : Except ClientError Evaluated)
    | .error e => .error (.raised e)) = .ok e ↔ _
  cases evaluateFor lib metadata s.ready r.key (s.held r.key) r.default r.context s.segments with
  | ok e' => simp
  | error e' => simp

/-- In every state, `get_value` answers a request if and only if what it has to read and to name for it
can be read and named. -/
theorem getValue_answers_iff (s : ClientState) (r : Request) :
    Answers lib metadata s r ↔ Answerable lib metadata s r := by
  unfold Answers Answerable
  simp only [getValue_eq_ok_iff]
  cases s.held r.key with
  | none =>
    show _ ↔ Identifiable r.default .none
    rw [← valueIdFor_ok_iff lib.sha256 r.default_json]
    constructor
    · rintro ⟨e, he, -⟩
      exact (evaluateFor_missing_ok lib metadata he).1
    · rintro ⟨id, hid⟩
      exact ⟨_, bind_eq_ok_iff.2 ⟨id, hid, rfl⟩, .inl rfl⟩
  | some definition =>
    let state := selectedState metadata definition r.context s.segments
    have hread : ∀ result, parseConfigValue lib.toJsonLoads state r.default = .ok result →
        Read state r.default result := fun result h => parseConfigValue_read r.default_class h
    have hjson : ∀ result, Read state r.default result → result.value.IsJson := by
      rintro _ (_ | ⟨v, hv, -⟩)
      · exact r.default_json
      · exact hv
    have hnameable : Nameable lib.toJsonLoads state r.default ↔
        Readable lib.toJsonLoads r.default state.type _ state.valueId := nameable_iff rfl r.default_class
    refine Iff.trans ?_ hnameable
    constructor
    · rintro ⟨e, he, -⟩
      obtain ⟨result, hresult, hid, -⟩ := evaluateFor_held_ok lib metadata he
      exact ⟨result, hresult, (idOr_ok_iff lib _ (hjson result (hread result hresult)) _).1 hid⟩
    · rintro ⟨result, hresult, hnamed⟩
      obtain ⟨id, hid⟩ := (idOr_ok_iff lib _ (hjson result (hread result hresult)) _).2 hnamed
      refine ⟨_, bind_eq_ok_iff.2 ⟨result, hresult, bind_eq_ok_iff.2 ⟨id, hid, rfl⟩⟩, ?_⟩
      rcases hread result hresult with _ | _
      · exact .inl rfl
      · exact .inr ⟨definition, _, rfl, hresult, rfl, rfl⟩

end Answers

/-! ## What raises -/

/-- The states that bundles bring a client to. -/
inductive Received [Unicode] : ClientState → Prop
  | init (handlers : ClientEvent → List ℕ) : Received (.init handlers)
  | bundle {s : ClientState} {document : PyValue} {bundle : ConfigBundle} (h : Received s) (hjson : document.IsJson)
      (hparse : Bundle.parseDocument document = .ok bundle) : Received (s.perform (.bundle bundle))

/-- A document with one config, of the given type and default value. -/
def configDocument (type defaultValue : PyValue) : PyValue := .dict
  [(lit "configs", .dict [(lit "k", .dict
    [(lit "id", .str (lit "1")), (lit "key", .str (lit "k")), (lit "type", type),
      (lit "target", .dict [(lit "defaultValue", defaultValue)])])])]

/-- The text a JSON document spells as one `\ud800` escape. -/
def loneSurrogate : Text := [0xD800]

def textRequest : Request where
  key := lit "k"
  default := .str (lit "d")
  context := none
  key_content := by decide
  default_class := rfl
  default_json := trivial

/-- A config whose text has a lone surrogate makes `get_value` raise. -/
theorem getValue_raises : ¬ ∀ [Unicode] (lib : Library) (metadata : Metadata) (s : ClientState), Received s →
    ∀ r : Request, Answers lib metadata s r := by
  intro h
  let _ : Unicode := .ascii
  let document := configDocument (.str (lit "string")) (.str loneSurrogate)
  have hjson : document.IsJson := by
    simp [document, configDocument, PyValue.IsJson, PyValue.IsJsonEntries]
    decide
  have hreceived := Received.bundle (.init fun _ => []) hjson rfl
  obtain ⟨e, he, -⟩ := h .refusing .empty _ hreceived textRequest
  cases he

end Client

end ConfigDirector
