/-
The evaluator: rules in order, the bucket of a percentage, and the value with the id that belongs to
it (`percent_hashing`, `config_evaluator`). A rule whose evaluation raises is disregarded.
-/
import ConfigDirector.Evaluation.Condition
import ConfigDirector.Evaluation.Rapidhash
import Mathlib.Data.Int.ConditionallyCompleteOrder

namespace ConfigDirector.Evaluation

open Python

variable {α : Type} [PercentageArith α]

/-! ## `percent_hashing` -/

/-- `_SEED`. -/
def hashSeed : ℕ := 0x397832987

def hashInput (configId contextIdentifier contextKind : Text) : Text :=
  let userKindInput := contextIdentifier ++ lit "-" ++ configId
  if contextKind = defaultKind then userKindInput else userKindInput ++ lit ":" ++ contextKind

def assignPercentage (configId contextIdentifier contextKind : Text) : Except Exc α :=
  match encode? (hashInput configId contextIdentifier contextKind) with
  | some value => .ok (PercentageArith.tenths (rapidhash value hashSeed % 1000))
  | none => .error .unicodeEncodeError

/-! ## `config_evaluator` -/

/-- `_RuleResult`: the value and the id that belongs to it, where the rule matched. -/
abbrev RuleResult := Option (Text × Option Text)

/-- `_RuleResult(matched=True, value=to_json_string(value), value_id=…)`, where there is a value. -/
def ruleResult (value : RuleValue) (valueId : Option Text) : Except Exc RuleResult :=
  match value with
  | none => .ok none
  | some value => return some (← renderScalar value, valueId)

/-- The loop of `_evaluate_percentage`: a bucket spans `[total, total + percentage)`. -/
def selectBucket (assigned total : α) : List (Percentage α) → Option (Percentage α)
  | [] => none
  | percentage :: rest =>
    if PercentageArith.lt assigned (PercentageArith.add percentage.percentage total) then some percentage
    else selectBucket assigned (PercentageArith.add total percentage.percentage) rest

/-- `assigned`: the slot of the context's identifier, or the one of a context without identifier. -/
def assignedPercentage (config : Config α) (context : Option EvaluationContext) : Except Exc α :=
  let supplied := context.bind EvaluationContext.context
  match supplied.bind Context.id with
  | none => .ok PercentageArith.zero
  | some identifier => assignPercentage config.id identifier (effectiveKind supplied)

def evaluatePercentage (percentages : List (Percentage α)) (config : Config α)
    (context : Option EvaluationContext) : Except Exc RuleResult := do
  let assigned ← assignedPercentage config context
  match selectBucket assigned PercentageArith.zero percentages with
  | some bucket => ruleResult bucket.value bucket.valueId
  | none => return none

def evaluateConditionalRule (rule : ConditionalRule α) (config : Config α)
    (context : Option EvaluationContext) (segments : Option Segments) : Except Exc RuleResult := do
  if !(← rule.conditions.allM fun condition => conditionHolds condition context segments) then
    return none
  if rule.target = lit "value" then ruleResult rule.value rule.valueId
  else if rule.target = lit "percentage" then evaluatePercentage rule.percentages config context
  else return none

/-- What the `try` of `_evaluate_rule` runs. A rule of an unknown wire type is no match. -/
def tryRule (rule : Rule α) (config : Config α) (context : Option EvaluationContext)
    (segments : Option Segments) : Except Exc RuleResult :=
  match rule with
  | .percentage r => evaluatePercentage r.percentages config context
  | .conditional r =>
    if r.type = lit "conditional" then evaluateConditionalRule r config context segments else .ok none

def evaluateRule (rule : Rule α) (config : Config α) (context : Option EvaluationContext)
    (segments : Option Segments) : RuleResult :=
  match tryRule rule config context segments with
  | .ok result => result
  | .error _ => none

/-- The key rules are sorted by: those without an order are last. -/
def Rule.sortKey (rule : Rule α) : WithTop ℤ :=
  match rule.order with
  | some order => (order : WithTop ℤ)
  | none => ⊤

/-- `sorted(rules, key=…)`, which keeps the order of rules with equal keys. -/
def sortedRules (rules : List (Rule α)) : List (Rule α) :=
  rules.insertionSort fun a b => a.sortKey ≤ b.sortKey

def getConfigValue (config : Config α) (context : Option EvaluationContext)
    (segments : Option Segments) : Text × Option Text :=
  match (sortedRules config.target.rules).findSome? fun rule => evaluateRule rule config context segments with
  | some result => result
  | none => (config.target.defaultValue, config.target.defaultValueId)

def evaluate (config : Config α) (context : Option EvaluationContext)
    (segments : Option Segments) : ConfigState :=
  let (value, valueId) := getConfigValue config context segments
  { id := config.id, key := config.key, type := config.type, value := some value, valueId := valueId }

/-! ## Dependence on the config and on segments -/

/-- A rule knows its config by the id only. -/
theorem evaluateRule_id (rule : Rule α) {config config' : Config α} (h : config.id = config'.id)
    (context : Option EvaluationContext) (segments : Option Segments) :
    evaluateRule rule config context segments = evaluateRule rule config' context segments := by
  have hassigned : assignedPercentage config context = assignedPercentage config' context := by
    unfold assignedPercentage
    rw [h]
  have hpercentage : ∀ percentages, evaluatePercentage percentages config context =
      evaluatePercentage percentages config' context := by
    intro percentages
    unfold evaluatePercentage
    rw [hassigned]
  cases rule with
  | percentage r => simp only [evaluateRule, tryRule, hpercentage]
  | conditional r => simp only [evaluateRule, tryRule, evaluateConditionalRule, hpercentage]

/-- The conditions of a rule: a percentage rule has none. -/
def Rule.conditions : Rule α → List Condition
  | .conditional r => r.conditions
  | .percentage _ => []

/-- The segments the rules of a config refer to. -/
def Config.segmentIds (config : Config α) : List Text :=
  config.target.rules.flatMap fun rule => rule.conditions.filterMap Condition.segmentId?

omit [PercentageArith α] in
theorem Config.mem_segmentIds (config : Config α) (id : Text) :
    id ∈ config.segmentIds ↔
      ∃ rule ∈ config.target.rules, ∃ condition ∈ rule.conditions, condition.segmentId? = some id := by
  simp only [Config.segmentIds, List.mem_flatMap, List.mem_filterMap]

theorem allM_congr {β : Type} {f g : β → Except Exc Bool} :
    ∀ {l : List β}, (∀ x ∈ l, f x = g x) → l.allM f = l.allM g
  | [], _ => rfl
  | x :: l, h => by
    have hx : f x = g x := h x (List.mem_cons_self ..)
    have hl : l.allM f = l.allM g := allM_congr fun y hy => h y (List.mem_cons_of_mem _ hy)
    simp only [List.allM, hx, hl]

/-- A rule depends on the segments its conditions refer to only. -/
theorem evaluateRule_congr (rule : Rule α) (config : Config α) (context : Option EvaluationContext)
    {segments segments' : Segments}
    (h : ∀ condition ∈ rule.conditions, ∀ id, condition.segmentId? = some id →
      segments.get? id = segments'.get? id) :
    evaluateRule rule config context (some segments) = evaluateRule rule config context (some segments') := by
  cases rule with
  | percentage r => rfl
  | conditional r =>
    have hall : (r.conditions.allM fun c => conditionHolds c context (some segments)) =
        r.conditions.allM fun c => conditionHolds c context (some segments') :=
      allM_congr fun c hc => conditionHolds_congr c context (h c hc)
    simp only [evaluateRule, tryRule, evaluateConditionalRule, hall]

theorem findSome?_congr {β γ : Type} {f g : β → Option γ} :
    ∀ {l : List β}, (∀ x ∈ l, f x = g x) → l.findSome? f = l.findSome? g
  | [], _ => rfl
  | x :: l, h => by
    rw [List.findSome?_cons, List.findSome?_cons, h x (List.mem_cons_self ..),
      findSome?_congr fun y hy => h y (List.mem_cons_of_mem _ hy)]

/-- An evaluation depends on the segments the rules of its config refer to only. -/
theorem evaluate_congr (config : Config α) (context : Option EvaluationContext)
    {segments segments' : Segments}
    (h : ∀ id ∈ config.segmentIds, segments.get? id = segments'.get? id) :
    evaluate config context (some segments) = evaluate config context (some segments') := by
  have hrules : ∀ rule ∈ sortedRules config.target.rules,
      evaluateRule rule config context (some segments) = evaluateRule rule config context (some segments') := by
    intro rule hrule
    apply evaluateRule_congr
    intro condition hcondition id hid
    apply h
    rw [Config.mem_segmentIds]
    exact ⟨rule, (List.mem_insertionSort _).1 hrule, condition, hcondition, hid⟩
  unfold evaluate getConfigValue
  rw [findSome?_congr hrules]

end ConfigDirector.Evaluation
