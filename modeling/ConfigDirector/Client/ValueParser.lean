/-
Reading a selected value as the type of the caller's default (`_value_parser`). The declared type is
looked up in a `frozenset`, which hashes it.
-/
import ConfigDirector.Evaluation.Comparison
import ConfigDirector.Python.Raise

namespace ConfigDirector.Client

open Python Evaluation

/-! ## Model -/

structure ParseResult where
  value : PyValue
  reason : EvaluationReason
  usedDefault : Bool
  valueId : Option Text

/-- `_matched`. -/
def matched (value : PyValue) (state : ConfigState) : ParseResult := ⟨value, .foundMatch, false, state.valueId⟩

/-- `ParseResult(value=default, reason=reason, used_default=True)`. -/
def defaulted (default : PyValue) (reason : EvaluationReason) : ParseResult := ⟨default, reason, true, none⟩

/-- The parsed value, or the default where there is none. -/
def matchedOr (parsed : Option PyValue) (default : PyValue) (reason : EvaluationReason) (state : ConfigState) :
    ParseResult :=
  match parsed with
  | some value => matched value state
  | none => defaulted default reason

def parseBoolean (value : Text) : Option Bool :=
  let lowered := lower value
  if lowered = lit "true" ∨ lowered = lit "false" then some (lowered == lit "true") else none

def parseFloat (value : Text) : Option PyFloat :=
  if !isDecimalText value then none
  else
    match floatOfText value with
    | some parsed => if parsed.isFinite then some parsed else none
    | none => none

/-- A whole number may be written with a decimal point, such as `26.0`. -/
def parseInteger (value : Text) : Option ℤ :=
  if !isDecimalText value then none
  else
    match intOfText value with
    | some n => some n
    | none =>
      match parseFloat value with
      | some (.finite x) => if (PyFloat.finite x).isInteger then some (truncate x.toRat) else none
      | _ => none

/-- `_CONFIG_TYPES_NOT_READABLE_AS_STRING`. -/
def configTypesNotReadableAsString : List Text := [lit "boolean", lit "integer", lit "float"]

/-- `hash(v)` does not raise. -/
def isHashable : PyValue → Bool
  | .list _ | .dict _ => false
  | _ => true

/-- The declared type is one of `_CONFIG_TYPES_NOT_READABLE_AS_STRING`. -/
def isNotReadableAsString : PyValue → Bool
  | .str t => configTypesNotReadableAsString.contains t
  | _ => false

/-- `type in _CONFIG_TYPES_NOT_READABLE_AS_STRING`. -/
def notReadableAsString (type : PyValue) : Except Exc Bool :=
  if isHashable type then .ok (isNotReadableAsString type) else .error .typeError

/-- `isinstance(parsed, required_shape)`. -/
def hasShape (default parsed : PyValue) : Bool :=
  match default, parsed with
  | .dict _, .dict _ => true
  | .dict _, _ => false
  | _, .list _ => true
  | _, _ => false

/-- The JSON document a text holds, if it has the shape of the default. -/
def parseJson (json : JsonLoads) (raw : Text) (default : PyValue) : Option PyValue :=
  (json.loads raw).filter (hasShape default)

def parseConfigValue (json : JsonLoads) (state : ConfigState) (default : PyValue) : Except Exc ParseResult :=
  match state.value with
  | none => .ok (defaulted default .valueMissing)
  | some raw =>
    if raw.isEmpty then .ok (defaulted default .valueMissing)
    else
      match default with
      | .bool _ => .ok (matchedOr ((parseBoolean raw).map .bool) default .invalidBoolean state)
      | .str _ => do
        if ← notReadableAsString state.type then return defaulted default .typeMismatch
        else return matched (.str raw) state
      | .int _ => .ok (matchedOr ((parseInteger raw).map .int) default .invalidNumber state)
      | .float _ => .ok (matchedOr ((parseFloat raw).map .float) default .invalidNumber state)
      | default => .ok (matchedOr (parseJson json raw default) default .invalidJson state)

/-! ## One equation for each class -/

section Equations

variable {json : JsonLoads} {state : ConfigState} {raw : Text}

theorem parseConfigValue_empty (hraw : state.value = some raw) (h : raw.isEmpty = true) (default : PyValue) :
    parseConfigValue json state default = .ok (defaulted default .valueMissing) := by
  unfold parseConfigValue
  rw [hraw]
  simp [h]

/-- Under a `str` default the declared type is hashed first. -/
theorem parseConfigValue_str (hraw : state.value = some raw) (h : raw.isEmpty = false) (s : Text) :
    parseConfigValue json state (.str s) =
      if isHashable state.type then
        .ok (if isNotReadableAsString state.type then defaulted (.str s) .typeMismatch else matched (.str raw) state)
      else .error .typeError := by
  unfold parseConfigValue notReadableAsString
  rw [hraw]
  simp only [h, Bool.false_eq_true, if_false]
  cases isHashable state.type with
  | false => rfl
  | true => cases isNotReadableAsString state.type <;> rfl

example : parseConfigValue .refusing ⟨lit "1", lit "k", .list [], some (lit "a"), none⟩ (.str (lit "d")) =
    .error .typeError := rfl

/-- How the other classes are read. -/
def readAs (json : JsonLoads) (raw : Text) (default : PyValue) : Option PyValue × EvaluationReason :=
  match default with
  | .bool _ => ((parseBoolean raw).map .bool, .invalidBoolean)
  | .int _ => ((parseInteger raw).map .int, .invalidNumber)
  | .float _ => ((parseFloat raw).map .float, .invalidNumber)
  | default => (parseJson json raw default, .invalidJson)

theorem parseConfigValue_readAs (hraw : state.value = some raw) (h : raw.isEmpty = false) {default : PyValue}
    (hclass : ∀ s, default ≠ .str s) : parseConfigValue json state default =
      .ok (matchedOr (readAs json raw default).1 default (readAs json raw default).2 state) := by
  unfold parseConfigValue
  rw [hraw]
  simp only [h, Bool.false_eq_true, if_false]
  cases default with
  | str s => exact absurd rfl (hclass s)
  | _ => rfl

end Equations

/-! ## What is read -/

/-- The classes a value can be read as. -/
inductive ValueClass
  | bool
  | str
  | int
  | float
  | dict
  | list
deriving DecidableEq

/-- The class of a value, if it is one that configs have. -/
def valueClass : PyValue → Option ValueClass
  | .bool _ => some .bool
  | .str _ => some .str
  | .int _ => some .int
  | .float _ => some .float
  | .dict _ => some .dict
  | .list _ => some .list
  | _ => none

theorem parseJson_eq_some {json : JsonLoads} {raw : Text} {default value : PyValue}
    (h : parseJson json raw default = some value) : value.IsJson ∧ hasShape default value = true := by
  obtain ⟨hloads, hshape⟩ := Option.filter_eq_some_iff.1 h
  exact ⟨json.loads_json raw value hloads, hshape⟩

/-- What a result is: the default, or a value found in the state with the id of the state. -/
inductive Read (state : ConfigState) (default : PyValue) : ParseResult → Prop
  | default (reason : EvaluationReason) (h : reason ≠ .foundMatch) : Read state default (defaulted default reason)
  | found (value : PyValue) (hjson : value.IsJson) (hclass : valueClass value = valueClass default) :
      Read state default (matched value state)

theorem read_matchedOr {state : ConfigState} {default : PyValue} {parsed : Option PyValue} {reason : EvaluationReason}
    (hreason : reason ≠ .foundMatch)
    (h : ∀ v, parsed = some v → v.IsJson ∧ valueClass v = valueClass default) :
    Read state default (matchedOr parsed default reason state) := by
  cases parsed with
  | none => exact .default reason hreason
  | some v => exact .found v (h v rfl).1 (h v rfl).2

theorem readAs_json {json : JsonLoads} {raw : Text} {default : PyValue} (hclass : (valueClass default).isSome)
    (hstr : ∀ s, default ≠ .str s) {v : PyValue} (h : (readAs json raw default).1 = some v) :
    v.IsJson ∧ valueClass v = valueClass default := by
  cases default with
  | bool b =>
    obtain ⟨b', -, rfl⟩ := Option.map_eq_some_iff.1 h
    exact ⟨trivial, rfl⟩
  | int n =>
    obtain ⟨n', -, rfl⟩ := Option.map_eq_some_iff.1 h
    exact ⟨trivial, rfl⟩
  | float x =>
    obtain ⟨x', -, rfl⟩ := Option.map_eq_some_iff.1 h
    exact ⟨trivial, rfl⟩
  | str s => exact absurd rfl (hstr s)
  | list items =>
    obtain ⟨hjson, hshape⟩ := parseJson_eq_some h
    cases v <;> first | exact ⟨hjson, rfl⟩ | cases hshape
  | dict entries =>
    obtain ⟨hjson, hshape⟩ := parseJson_eq_some h
    cases v <;> first | exact ⟨hjson, rfl⟩ | cases hshape
  | none => cases hclass
  | other text => cases hclass

theorem readAs_reason (json : JsonLoads) (raw : Text) (default : PyValue) :
    (readAs json raw default).2 ≠ .foundMatch := by
  cases default <;> exact EvaluationReason.noConfusion

/-- Reading under a default gives that default or a JSON value of its class. -/
theorem parseConfigValue_read {json : JsonLoads} {state : ConfigState} {default : PyValue} {result : ParseResult}
    (hclass : (valueClass default).isSome) (h : parseConfigValue json state default = .ok result) :
    Read state default result := by
  cases hraw : state.value with
  | none =>
    simp only [parseConfigValue, hraw] at h
    cases h
    exact .default _ (by decide)
  | some raw =>
    cases hempty : raw.isEmpty with
    | true =>
      rw [parseConfigValue_empty hraw hempty] at h
      cases h
      exact .default _ (by decide)
    | false =>
      by_cases hstr : ∃ s, default = .str s
      · obtain ⟨s, rfl⟩ := hstr
        rw [parseConfigValue_str hraw hempty] at h
        split at h
        · cases h
          split
          · exact .default _ (by decide)
          · exact .found _ trivial rfl
        · cases h
      · have hstr' : ∀ s, default ≠ .str s := fun s hs => hstr ⟨s, hs⟩
        rw [parseConfigValue_readAs hraw hempty hstr'] at h
        cases h
        exact read_matchedOr (readAs_reason json raw default) fun v hv => readAs_json hclass hstr' hv

end ConfigDirector.Client
