/-
The bundle parser (`_bundle`), on the document `json.loads` returned. A config or segment whose
definition cannot be read is skipped; which exceptions count as that is what the two `except`
clauses list.
-/
import ConfigDirector.Evaluation.Comparison
import ConfigDirector.Python.Raise

namespace ConfigDirector

open Python Evaluation

/-! ## Model -/

inductive BundleKind
  | full
  | delta
deriving DecidableEq

structure ConfigBundle where
  configs : Dict Text (Config PyFloat)
  segments : Segments
  kind : BundleKind
  unreadableKeys : List Text
  environmentId : Option Text
  projectId : Option Text
  /-- Echoed back on the next poll so the server can answer with a delta. -/
  timestamp : Option Text

namespace ConfigBundle

/-- `ConfigBundle()`. -/
def empty : ConfigBundle := ⟨∅, ∅, .full, [], none, none, none⟩

theorem kind_cases (bundle : ConfigBundle) : bundle.kind = .full ∨ bundle.kind = .delta := by
  cases bundle.kind
  · exact .inl rfl
  · exact .inr rfl

/-- No key is both read and listed as unreadable. -/
def Disjoint (bundle : ConfigBundle) : Prop := ∀ key ∈ bundle.unreadableKeys, bundle.configs.get? key = none

end ConfigBundle

/-- What `parse_bundle` raises: the two errors of its own, with their messages, or an exception of
the language. -/
inductive BundleError
  | valueError (message : Text)
  | notAConfigBundle (message : Text)
  | raised (e : Exc)
deriving DecidableEq

/-- `isinstance(error, ValueError)`: `NotAConfigBundleError` is one. -/
def BundleError.isValueError : BundleError → Bool
  | raised e => e.isValueError
  | _ => true

namespace Bundle

variable [Unicode]

/-! ## Fields -/

/-- `_optional_string`. -/
def optionalString : PyValue → Option Text
  | .str s => some s
  | _ => none

/-- `_rule_value`. -/
def ruleValue (v : PyValue) : Except Exc RuleValue :=
  match v with
  | .none => .ok none
  | .bool b => .ok (some (.bool b))
  | .int n => .ok (some (.int n))
  | .float x => .ok (some (.float x))
  | .str s => .ok (some (.str s))
  | v => return some (.str (← jsonDumps v))

/-- `_as_string`. -/
def asString (v : PyValue) : Except Exc Text :=
  match v with
  | .str s => .ok s
  | .none => .ok []
  | .bool b => .ok (toJsonString (.bool b))
  | .int n => .ok (toJsonString (.int n))
  | .float x => .ok (toJsonString (.float x))
  | v => jsonDumps v

/-- `_optional_int`. -/
def optionalInt (v : PyValue) : Except Exc (Option ℤ) :=
  match v with
  | .int n => .ok (some n)
  | .float x => return some (← x.toInt)
  | _ => .ok none

/-- `[parse(item) for item in raw.get(field) or []]`. -/
def parseItems {β : Type} (raw : PyValue) (field : Text) (parse : PyValue → Except Exc β) :
    Except Exc (List β) := do
  let items ← (← raw.get field).orEmpty.iter
  items.mapM parse

/-- `str(raw[field])`. -/
def textField (raw : PyValue) (field : Text) : Except Exc Text := return (← raw.subscript field).toText

/-! ## Conditions and segments -/

def conditionKind (raw : PyValue) : Except Exc Text :=
  return (← raw.getD (lit "kind") (.str (lit "attribute"))).toText

def parseAttributeCondition (raw : PyValue) : Except Exc AttributeCondition := do
  let kind ← conditionKind raw
  if kind ≠ lit "attribute" then .error .valueError
  else
    let id ← textField raw (lit "id")
    let attributeName ← textField raw (lit "attribute")
    let operator ← textField raw (lit "operator")
    let targetType ← textField raw (lit "targetType")
    let targetValues ← parseItems raw (lit "targetValues") asString
    let trait := optionalString (← raw.get (lit "trait"))
    return { id, attributeName, operator, targetType, targetValues, trait }

def parseCondition (raw : PyValue) : Except Exc Condition := do
  let kind ← conditionKind raw
  if kind = lit "attribute" then return .ofAttribute (← parseAttributeCondition raw)
  else if kind = lit "segment" then
    let id ← textField raw (lit "id")
    let operator ← textField raw (lit "operator")
    let segmentId ← textField raw (lit "segmentId")
    return .ofSegment { id, operator, segmentId }
  else .error .valueError

def parseSegment (raw : PyValue) : Except Exc Segment := do
  let groups ← (← raw.subscript (lit "groups")).iter
  return ⟨← groups.mapM fun group => do (← group.iter).mapM parseAttributeCondition⟩

/-! ## Rules -/

def parsePercentage (raw : PyValue) : Except Exc (Percentage PyFloat) := do
  let id ← textField raw (lit "id")
  let percentage ← (← raw.subscript (lit "percentage")).toFloat
  let value ← ruleValue (← raw.get (lit "value"))
  let valueId := optionalString (← raw.get (lit "valueId"))
  return { id, percentage, value, valueId }

/-- `raw.get("type") == "percentage"`. -/
def isPercentageKind : PyValue → Bool
  | .str s => s = lit "percentage"
  | _ => false

/-- What `_parse_rule` returns for the wire type `percentage`. -/
def parsePercentageRule (raw : PyValue) (percentages : List (Percentage PyFloat)) : Except Exc (Rule PyFloat) := do
  let id ← textField raw (lit "id")
  let order ← optionalInt (← raw.get (lit "order"))
  return .percentage { id, order, percentages }

/-- What `_parse_rule` returns for any other wire type, which it carries as it is. -/
def parseConditionalRule (raw kind : PyValue) (percentages : List (Percentage PyFloat)) :
    Except Exc (Rule PyFloat) := do
  let id ← textField raw (lit "id")
  let order ← optionalInt (← raw.get (lit "order"))
  let value ← ruleValue (← raw.get (lit "value"))
  let conditions ← parseItems raw (lit "conditions") parseCondition
  let target ← raw.get (lit "target")
  let target := if target.truthy then target.toText else lit "value"
  let type := match kind with | .none => lit "conditional" | kind => kind.toText
  let valueId := optionalString (← raw.get (lit "valueId"))
  return .conditional { id, order, value, conditions, percentages, target, type, valueId }

def parseRule (raw : PyValue) : Except Exc (Rule PyFloat) := do
  let kind ← raw.get (lit "type")
  let percentages ← parseItems raw (lit "percentages") parsePercentage
  if isPercentageKind kind then parsePercentageRule raw percentages
  else parseConditionalRule raw kind percentages

/-! ## Configs -/

/-- `value if isinstance(value, (str, int, float, bool)) else _as_string(value)`. -/
def variationValue (value : PyValue) : Except Exc Scalar :=
  match scalar? value with
  | some scalar => .ok scalar
  | none => Scalar.str <$> asString value

def parseVariation (raw : PyValue) : Except Exc Variation := do
  let value ← variationValue (← raw.get (lit "value"))
  let name := optionalString (← raw.get (lit "name"))
  return { value, name }

def isNumberType : PyValue → Bool
  | .str s => s = lit "number"
  | _ => false

def parseTypeConstraints (raw : PyValue) : Except Exc (Option TypeConstraints) :=
  match raw with
  | .dict entries =>
    match entries.lookup (lit "valueType") with
    | some valueType => do
      let values ← parseItems raw (lit "values") asString
      return some (.enum (isNumberType valueType) values)
    | none => do
      let min ← raw.get (lit "min")
      let max ← raw.get (lit "max")
      return some (.numeric min max)
  | _ => .ok none

def parseTarget (target : PyValue) : Except Exc (TargetingRules PyFloat) := do
  let defaultValue ← asString (← target.get (lit "defaultValue"))
  let rules ← parseItems target (lit "rules") parseRule
  let defaultValueId := optionalString (← target.get (lit "defaultValueId"))
  return { defaultValue, rules, defaultValueId }

def parseConfig (raw : PyValue) : Except Exc (Config PyFloat) := do
  let target ← raw.subscript (lit "target")
  let id ← textField raw (lit "id")
  let key ← textField raw (lit "key")
  let type ← raw.subscript (lit "type")
  let target ← parseTarget target
  let variations ← parseItems raw (lit "variations") parseVariation
  let typeConstraints ← parseTypeConstraints (← raw.get (lit "typeConstraints"))
  return { id, key, type, target, variations, typeConstraints }

/-! ## Bundles -/

/-- What `except (AttributeError, KeyError, TypeError, ValueError)` catches. -/
def isUnreadable : Exc → Bool
  | .attributeError | .keyError | .typeError => true
  | e => e.isValueError

/-- The loop of `_parse_configs` and of `_parse_segments`: the definitions that can be read, and the
keys of those that cannot. -/
def readEntries {β : Type} (parse : PyValue → Except Exc β) : List (Text × PyValue) → Dict Text β × List Text →
    Except Exc (Dict Text β × List Text)
  | [], acc => .ok acc
  | (key, definition) :: rest, (read, unreadable) =>
    match parse definition with
    | .ok b => readEntries parse rest (read.set key b, unreadable)
    | .error e => if isUnreadable e then readEntries parse rest (read, unreadable ++ [key]) else .error e

def parseConfigs (raw : List (Text × PyValue)) : Except Exc (Dict Text (Config PyFloat) × List Text) :=
  readEntries parseConfig raw (∅, [])

/-- The segments that cannot be read are logged only. -/
def parseSegments (raw : PyValue) : Except Exc Segments :=
  match raw with
  | .dict entries => return (← readEntries parseSegment entries (∅, [])).1
  | _ => .ok ∅

/-- `type(v).__name__`. -/
def typeName : PyValue → Text
  | .none => lit "NoneType"
  | .bool _ => lit "bool"
  | .int _ => lit "int"
  | .float _ => lit "float"
  | .str _ => lit "str"
  | .list _ => lit "list"
  | .dict _ => lit "dict"
  | .other _ => lit "object"

def isDelta : PyValue → Bool
  | .str s => s = lit "delta"
  | _ => false

def raise {β : Type} : Except Exc β → Except BundleError β
  | .ok b => .ok b
  | .error e => .error (.raised e)

/-- `document.get(field)`. -/
def fieldOf (entries : List (Text × PyValue)) (field : Text) : PyValue := (entries.lookup field).getD .none

/-- `parse_bundle` from the document on. -/
def parseDocument (document : PyValue) : Except BundleError ConfigBundle :=
  match document with
  | .dict entries =>
    match fieldOf entries (lit "configs") with
    | .dict rawConfigs => do
      let (configs, unreadableKeys) ← raise (parseConfigs rawConfigs)
      let segments ← raise (parseSegments (fieldOf entries (lit "segments")))
      return {
        configs
        segments
        kind := if isDelta (fieldOf entries (lit "kind")) then .delta else .full
        unreadableKeys
        environmentId := optionalString (fieldOf entries (lit "environmentId"))
        projectId := optionalString (fieldOf entries (lit "projectId"))
        timestamp := optionalString (fieldOf entries (lit "timestamp")) }
    | v => .error (.notAConfigBundle
        (lit "Expected the config bundle to carry a 'configs' object, got " ++ typeName v))
  | v => .error (.valueError (lit "Expected the config bundle to be a JSON object, got " ++ typeName v))

/-- `parse_bundle`, with `json.loads` a parameter: it raises a `ValueError` or returns a document. -/
def parseBundle (loads : Text → Option PyValue) (payload : Text) : Except BundleError ConfigBundle :=
  match loads payload with
  | some document => parseDocument document
  | none => .error (.raised .valueError)

end Bundle

end ConfigDirector
