/-
Targeting conditions: what a condition reads from the context (`_json_pointer`, `_context_kind`,
`condition_evaluator`), and membership in a segment (`segment_evaluator`).
-/
import ConfigDirector.Evaluation.Comparison

namespace ConfigDirector

open Python

/-! ## `_context_kind` -/

def defaultKind : Text := lit "user"

def effectiveKind (context : Option Context) : Text :=
  match context with
  | none => defaultKind
  | some c => c.kind.getD defaultKind

namespace Evaluation

/-! ## `_json_pointer` -/

/-- `_ARRAY_INDEX`. -/
def arrayIndexPattern : Regex :=
  .alt (char '0') (.seq (.chars fun c => 0x31 ≤ c.val && c.val ≤ 0x39) (.rep CodePoint.isAsciiDigit 0 none))

/-- `_INVALID_ESCAPE.search`: a `~` that neither `0` nor `1` follows. -/
def invalidEscape : Text → Bool
  | [] => false
  | c :: s => (c = 0x7E && !(s.head? = some 0x30 || s.head? = some 0x31)) || invalidEscape s

/-- `_step`; none for `_MISSING`. `int` refuses an index of too many digits. -/
def pointerStep (current : PyValue) (token : Text) : Except Exc (Option PyValue) :=
  match current with
  | .dict entries => .ok (entries.lookup token)
  | .list items =>
    if (arrayIndexPattern.fullMatch token).isSome then
      if maxStrDigits < token.length then .error .valueError else .ok items[digitsToNat token]?
    else .ok none
  | _ => .ok none

def unescape (rawToken : Text) : Text :=
  replacePair 0x7E 0x30 (lit "~") (replacePair 0x7E 0x31 (lit "/") rawToken)

def pointerWalk (current : PyValue) : List Text → Except Exc PyValue
  | [] => .ok current
  | rawToken :: rest =>
    if invalidEscape rawToken then .ok .none
    else do
      match ← pointerStep current (unescape rawToken) with
      | some next => pointerWalk next rest
      | none => return .none

def findByPointer (pointer : Text) (document : PyValue) : Except Exc PyValue :=
  match pointer with
  | c :: rest => if c = 0x2F then pointerWalk document (splitOn 0x2F rest) else .ok .none
  | [] => .ok .none

/-! ## `condition_evaluator` -/

/-- What a condition compares: an attribute the context does not carry is compared as empty text, an
attribute this version does not know about is not compared at all. -/
inductive Resolved
  | absent
  | unknownAttribute
  | value (v : PyValue)

def contextOf (context : Option EvaluationContext) : Context :=
  (context.bind EvaluationContext.context).getD Context.empty

def metadataOf (context : Option EvaluationContext) : Metadata :=
  (context.bind EvaluationContext.metadata).getD Metadata.empty

/-- `_or_absent`. -/
def orAbsent (v : PyValue) : Resolved :=
  match v with
  | .none => .absent
  | v => .value v

def textOrAbsent (s : Option Text) : Resolved :=
  match s with
  | none => .absent
  | some s => .value (.str s)

/-- `context.traits`. -/
def Context.traitsValue (c : Context) : PyValue :=
  match c.traits with
  | none => .none
  | some entries => .dict entries

def resolve (condition : AttributeCondition) (context : Option EvaluationContext) : Except Exc Resolved :=
  let name := condition.attributeName
  if name = lit "identifier" then .ok (textOrAbsent (contextOf context).id)
  else if name = lit "name" then .ok (textOrAbsent (contextOf context).name)
  else if name = lit "kind" then .ok (.value (.str (effectiveKind (some (contextOf context)))))
  else if name = lit "appName" then .ok (textOrAbsent (metadataOf context).appName)
  else if name = lit "appVersion" then .ok (textOrAbsent (metadataOf context).appVersion)
  else if name = lit "traits" then
    match condition.trait with
    | none => .ok .absent
    | some trait =>
      if trait.isEmpty then .ok .absent
      else return orAbsent (← findByPointer trait (Context.traitsValue (contextOf context)))
  else .ok .unknownAttribute

/-- `_unwrap`. -/
def unwrap : Resolved → PyValue
  | .value v => v
  | _ => .none

/-- `_render`. -/
def render (r : Resolved) : Except Exc Text :=
  match r with
  | .value v =>
    match scalar? v with
    | some s => renderScalar s
    | none => .ok []
  | _ => .ok []

/-- The `match` of `evaluate_condition` on the target type. -/
def compareAs (type : Text) (value : Resolved) (operator : Text) (targets : List Text) : Except Exc Bool :=
  if type = lit "text" then return compareText (← render value) operator targets
  else if type = lit "number" then compareNumeric (unwrap value) operator targets
  else if type = lit "datetime" then do compareDate (← render value) operator targets
  else if type = lit "semver" then return compareSemver (← render value) operator targets
  else if type = lit "array" then compareArray (unwrap value) operator targets
  else return false

def evaluateCondition (condition : AttributeCondition) (context : Option EvaluationContext) : Except Exc Bool := do
  match ← resolve condition context with
  | .unknownAttribute => return false
  | value => compareAs condition.targetType value condition.operator condition.targetValues

/-! ## `segment_evaluator` -/

/-- `_in_segment`: both `any` and `all` stop at the first item that decides them. -/
def inSegment (segment : Segment) (context : Option EvaluationContext) : Except Exc Bool :=
  segment.groups.anyM fun group => group.allM fun condition => evaluateCondition condition context

def evaluateSegmentCondition (condition : SegmentCondition) (segments : Option Segments)
    (context : Option EvaluationContext) : Except Exc Bool :=
  match (segments.getD ∅).get? condition.segmentId with
  | none => .ok false
  | some segment => do
    let member ← inSegment segment context
    let op := lower condition.operator
    if op = lit "in" then return member
    else if op = lit "not in" then return !member
    else return false

/-- `_condition_holds`. -/
def conditionHolds (condition : Condition) (context : Option EvaluationContext)
    (segments : Option Segments) : Except Exc Bool :=
  match condition with
  | .ofSegment c => evaluateSegmentCondition c segments context
  | .ofAttribute c => evaluateCondition c context

/-! ## Dependence on segments -/

/-- The segment a condition refers to. -/
def Condition.segmentId? : Condition → Option Text
  | .ofSegment c => some c.segmentId
  | .ofAttribute _ => none

/-- A condition depends on the segment it refers to only. -/
theorem conditionHolds_congr (condition : Condition) (context : Option EvaluationContext)
    {segments segments' : Segments}
    (h : ∀ id, condition.segmentId? = some id → segments.get? id = segments'.get? id) :
    conditionHolds condition context (some segments) = conditionHolds condition context (some segments') := by
  cases condition with
  | ofAttribute c => rfl
  | ofSegment c =>
    simp only [conditionHolds, evaluateSegmentCondition, Option.getD_some, h c.segmentId rfl]

end Evaluation

end ConfigDirector
