/-
The data model of the evaluation: configs with their targeting rules, segments, and the context an
evaluation is for. The percentage of a bucket has a type of its own: the program computes with
`float`, and the rollout properties that are about exact shares take the rationals.
-/
import ConfigDirector.Python.Value
import ConfigDirector.Python.Dict

namespace ConfigDirector

open Python

/-- The user's context (`types.Context`). -/
structure Context where
  id : Option Text
  name : Option Text
  traits : Option (List (Text × PyValue))
  anonymous : Bool
  kind : Option Text

/-- `Context()`. -/
def Context.empty : Context := ⟨none, none, none, false, none⟩

/-- `types.Metadata`. -/
structure Metadata where
  appName : Option Text
  appVersion : Option Text
deriving DecidableEq

def Metadata.empty : Metadata := ⟨none, none⟩

/-- `types.ConfigState`: the state selected for a config, before it is read as a type. The declared
type is carried as the server sent it. -/
structure ConfigState where
  id : Text
  key : Text
  type : PyValue
  value : Option Text
  valueId : Option Text

/-- `types.EvaluationReason`. -/
inductive EvaluationReason
  | foundMatch
  | configStateMissing
  | clientNotReady
  | typeMismatch
  | valueMissing
  | invalidNumber
  | invalidJson
  | invalidBoolean
deriving DecidableEq

namespace Evaluation

/-- The values of `RuleValue` and `Variation.value` that are not `None`. -/
inductive Scalar
  | str (s : Text)
  | int (n : ℤ)
  | float (x : PyFloat)
  | bool (b : Bool)
deriving DecidableEq

/-- The value a rule or percentage bucket resolves to, before it is rendered to a string. -/
abbrev RuleValue := Option Scalar

/-- The field `attribute` of the source is `attributeName`. -/
structure AttributeCondition where
  id : Text
  attributeName : Text
  operator : Text
  targetType : Text
  targetValues : List Text
  trait : Option Text
deriving DecidableEq

structure SegmentCondition where
  id : Text
  operator : Text
  segmentId : Text
deriving DecidableEq

inductive Condition
  | ofAttribute (c : AttributeCondition)
  | ofSegment (c : SegmentCondition)
deriving DecidableEq

/-- A context is in a segment when it meets every condition of one of its groups. -/
structure Segment where
  groups : List (List AttributeCondition)
deriving DecidableEq

abbrev Segments := Dict Text Segment

/-- What `_evaluate_percentage` computes with: `0.0`, the quotient `n / 10.0`, `+` and `<`. -/
class PercentageArith (α : Type) where
  zero : α
  tenths : ℕ → α
  add : α → α → α
  lt : α → α → Bool

instance : PercentageArith PyFloat where
  zero := .finite (.zero false)
  tenths n := (PyFloat.ofRat n).divTen
  add := PyFloat.add
  lt := PyFloat.lt

instance : PercentageArith ℚ where
  zero := 0
  tenths n := n / 10
  add := (· + ·)
  lt x y := decide (x < y)

structure Percentage (α : Type) where
  id : Text
  percentage : α
  value : RuleValue
  valueId : Option Text
deriving DecidableEq

structure ConditionalRule (α : Type) where
  id : Text
  order : Option ℤ
  value : RuleValue
  conditions : List Condition
  percentages : List (Percentage α)
  target : Text
  type : Text
  valueId : Option Text
deriving DecidableEq

/-- Its `type` and `target` are always `percentage`. -/
structure PercentageRule (α : Type) where
  id : Text
  order : Option ℤ
  percentages : List (Percentage α)
deriving DecidableEq

inductive Rule (α : Type)
  | conditional (r : ConditionalRule α)
  | percentage (r : PercentageRule α)
deriving DecidableEq

namespace Rule

variable {α : Type}

def id : Rule α → Text
  | conditional r => r.id
  | percentage r => r.id

def order : Rule α → Option ℤ
  | conditional r => r.order
  | percentage r => r.order

end Rule

structure TargetingRules (α : Type) where
  defaultValue : Text
  rules : List (Rule α)
  defaultValueId : Option Text
deriving DecidableEq

structure Variation where
  value : Scalar
  name : Option Text
deriving DecidableEq

inductive TypeConstraints
  | numeric (min max : PyValue)
  | enum (isNumber : Bool) (values : List Text)

structure Config (α : Type) where
  id : Text
  key : Text
  type : PyValue
  target : TargetingRules α
  variations : List Variation
  typeConstraints : Option TypeConstraints

structure EvaluationContext where
  context : Option Context
  metadata : Option Metadata

end Evaluation

end ConfigDirector
