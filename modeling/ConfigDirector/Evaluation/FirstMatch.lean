/-
The rules of a config as its author reads them: those with an order by ascending order, then the
others, and among equals by position; the first that matches gives the value and the id together.
What does not match may as well not be there.
-/
import ConfigDirector.Evaluation.Evaluator
import ConfigDirector.Python.Reorder

namespace ConfigDirector.Evaluation

open Python

variable {α : Type}

/-! ## What a rule selects from -/

/-- The values a rule can resolve to, each with the id that belongs to it: its own, or a bucket's. -/
def Rule.offers : Rule α → List (RuleValue × Option Text)
  | .conditional r => (r.value, r.valueId) :: r.percentages.map fun bucket => (bucket.value, bucket.valueId)
  | .percentage r => r.percentages.map fun bucket => (bucket.value, bucket.valueId)

/-- `result` is one of the offers, rendered, with its own id. -/
def Taken (offers : List (RuleValue × Option Text)) (result : Text × Option Text) : Prop :=
  ∃ value, (some value, result.2) ∈ offers ∧ renderScalar value = .ok result.1

theorem ruleResult_taken {value : RuleValue} {valueId : Option Text} {result : Text × Option Text}
    (h : ruleResult value valueId = .ok (some result)) : Taken [(value, valueId)] result := by
  cases value with
  | none => cases h
  | some value =>
    obtain ⟨text, htext, h⟩ := bind_eq_ok_iff.1 h
    cases h
    exact ⟨value, List.mem_singleton.2 rfl, htext⟩

theorem Taken.mono {offers offers' : List (RuleValue × Option Text)} {result : Text × Option Text}
    (h : Taken offers result) (hsub : ∀ o ∈ offers, o ∈ offers') : Taken offers' result := by
  obtain ⟨value, hmem, hvalue⟩ := h
  exact ⟨value, hsub _ hmem, hvalue⟩

variable [PercentageArith α]

theorem mem_of_selectBucket (assigned : α) : ∀ {total : α} {buckets : List (Percentage α)} {bucket : Percentage α},
    selectBucket assigned total buckets = some bucket → bucket ∈ buckets
  | _, [], _, h => by cases h
  | total, b :: rest, bucket, h => by
    rw [selectBucket] at h
    split at h
    · cases h
      exact List.mem_cons_self ..
    · exact List.mem_cons_of_mem _ (mem_of_selectBucket assigned h)

theorem evaluatePercentage_taken {buckets : List (Percentage α)} {config : Config α} {context : Option EvaluationContext}
    {result : Text × Option Text} (h : evaluatePercentage buckets config context = .ok (some result)) :
    Taken (buckets.map fun bucket => (bucket.value, bucket.valueId)) result := by
  obtain ⟨assigned, -, h⟩ := bind_eq_ok_iff.1 h
  cases hbucket : selectBucket assigned PercentageArith.zero buckets with
  | none =>
    rw [hbucket] at h
    cases h
  | some bucket =>
    rw [hbucket] at h
    refine (ruleResult_taken h).mono fun o ho => ?_
    rw [List.mem_singleton.1 ho]
    exact List.mem_map.2 ⟨bucket, mem_of_selectBucket assigned hbucket, rfl⟩

theorem evaluateConditionalRule_taken {r : ConditionalRule α} {config : Config α} {context : Option EvaluationContext}
    {segments : Option Segments} {result : Text × Option Text}
    (h : evaluateConditionalRule r config context segments = .ok (some result)) :
    Taken (Rule.conditional r).offers result := by
  obtain ⟨holds, -, h⟩ := bind_eq_ok_iff.1 h
  cases holds with
  | false => cases h
  | true =>
    rw [Bool.not_true, if_neg Bool.false_ne_true] at h
    split_ifs at h with hvalue hpercentage
    · refine (ruleResult_taken h).mono fun o ho => ?_
      rw [List.mem_singleton.1 ho]
      exact List.mem_cons_self ..
    · exact (evaluatePercentage_taken h).mono fun o ho => List.mem_cons_of_mem _ ho
    · cases h

/-- The value and the id of a match are one offer of the rule. -/
theorem evaluateRule_taken {rule : Rule α} {config : Config α} {context : Option EvaluationContext}
    {segments : Option Segments} {result : Text × Option Text}
    (h : evaluateRule rule config context segments = some result) : Taken rule.offers result := by
  have htry : tryRule rule config context segments = .ok (some result) := by
    unfold evaluateRule at h
    split at h
    · rename_i r hr
      rw [hr, h]
    · cases h
  cases rule with
  | percentage r => exact evaluatePercentage_taken htry
  | conditional r =>
    rw [tryRule] at htry
    split at htry
    · exact evaluateConditionalRule_taken htry
    · cases htry

/-! ## The order rules are tried in -/

/-- Rules with an order come by ascending order, and before the rules without one. -/
def ComesBefore : Option ℤ → Option ℤ → Prop
  | some m, some n => m < n
  | some _, none => True
  | none, _ => False

omit [PercentageArith α] in
theorem sortKey_lt_iff (a b : Rule α) : a.sortKey < b.sortKey ↔ ComesBefore a.order b.order := by
  unfold Rule.sortKey
  cases a.order with
  | none => simp [ComesBefore]
  | some m =>
    cases b.order with
    | none => simp [ComesBefore, WithTop.coe_lt_top]
    | some n => simp [ComesBefore]

omit [PercentageArith α] in
theorem sortKey_eq_iff (a b : Rule α) : a.sortKey = b.sortKey ↔ a.order = b.order := by
  unfold Rule.sortKey
  cases a.order with
  | none => cases b.order <;> simp
  | some m => cases b.order <;> simp

omit [PercentageArith α] in
/-- Among rules with distinct orders at most one has a given order. -/
theorem filter_order_eq {n : ℤ} {rules rules' : List (Rule α)} (hperm : rules.Perm rules')
    (hnodup : (rules.filterMap Rule.order).Nodup) :
    rules.filter (·.order = some n) = rules'.filter (·.order = some n) := by
  have hfilter := hperm.filter (·.order = some n)
  have hlength : (rules.filter (·.order = some n)).length ≤ 1 := by
    have hcount : (rules.filter (·.order = some n)).length = (rules.filterMap Rule.order).count n := by
      rw [List.count, List.countP_filterMap, ← List.countP_eq_length_filter]
      refine List.countP_congr fun rule _ => ?_
      cases rule.order <;> simp
    rw [hcount]
    exact List.nodup_iff_count_le_one.1 hnodup n
  cases hone : rules.filter (·.order = some n) with
  | nil =>
    rw [hone] at hfilter
    exact (List.nil_perm.1 hfilter).symm
  | cons rule rest =>
    rw [hone, List.length_cons] at hlength
    have hrest : rest = [] := List.eq_nil_of_length_eq_zero (by omega)
    rw [hone, hrest] at hfilter
    rw [hrest]
    exact List.singleton_perm.1 hfilter

omit [PercentageArith α] in
/-- The order of the list matters among rules without an order only. -/
theorem sortedRules_perm {rules rules' : List (Rule α)} (hperm : rules.Perm rules')
    (hnodup : (rules.filterMap Rule.order).Nodup)
    (hlast : rules.filter (·.order = none) = rules'.filter (·.order = none)) : sortedRules rules = sortedRules rules' := by
  refine insertionSort_eq_of_filter_key Rule.sortKey fun k => ?_
  cases k with
  | top =>
    have hkey : ∀ rule : Rule α, decide (rule.sortKey = ⊤) = decide (rule.order = none) := fun rule => by
      unfold Rule.sortKey
      cases rule.order <;> simp
    simp only [hkey]
    exact hlast
  | coe n =>
    have hkey : ∀ rule : Rule α, decide (rule.sortKey = (n : WithTop ℤ)) = decide (rule.order = some n) := fun rule => by
      unfold Rule.sortKey
      cases rule.order <;> simp
    simp only [hkey]
    exact filter_order_eq hperm hnodup

/-! ## First match -/

variable (config : Config α) (context : Option EvaluationContext) (segments : Option Segments)

/-- The same config with other rules. -/
def Config.withRules (config : Config α) (rules : List (Rule α)) : Config α :=
  { config with target := { config.target with rules := rules } }

/-- What an evaluation that selected a value and its id returns. -/
def Config.selected (config : Config α) (result : Text × Option Text) : ConfigState where
  id := config.id
  key := config.key
  type := config.type
  value := some result.1
  valueId := result.2

/-- The rule is the first that matches: it does, and neither a rule that comes before it by order nor an
earlier one with the same order, or likewise without one, does. -/
def FirstMatch (before : List (Rule α)) (rule : Rule α) (after : List (Rule α)) (result : Text × Option Text) : Prop :=
  config.target.rules = before ++ rule :: after ∧
    evaluateRule rule config context segments = some result ∧
    (∀ other ∈ config.target.rules, ComesBefore other.order rule.order →
      evaluateRule other config context segments = none) ∧
    ∀ other ∈ before, other.order = rule.order → evaluateRule other config context segments = none

theorem evaluate_eq : evaluate config context segments = config.selected
    (((sortedRules config.target.rules).findSome? fun rule => evaluateRule rule config context segments).getD
      (config.target.defaultValue, config.target.defaultValueId)) := by
  unfold evaluate getConfigValue
  cases (sortedRules config.target.rules).findSome? fun rule => evaluateRule rule config context segments <;> rfl

/-- Rules that match and are otherwise the same list select the same. -/
theorem evaluate_withRules_filter (rules : List (Rule α)) :
    evaluate (config.withRules rules) context segments = config.selected
      (((sortedRules (rules.filter fun rule => (evaluateRule rule config context segments).isSome)).findSome?
        fun rule => evaluateRule rule config context segments).getD
        (config.target.defaultValue, config.target.defaultValueId)) := by
  have hrule : ∀ rule, evaluateRule rule (config.withRules rules) context segments =
      evaluateRule rule config context segments := fun rule => evaluateRule_id rule rfl context segments
  rw [evaluate_eq]
  simp only [hrule]
  show config.selected _ = _
  rw [Config.withRules, sortedRules, findSome?_insertionSort_filter Rule.sortKey]
  rfl

/-- A rule that does not match can be left out. -/
theorem evaluate_withRules_remove (before after : List (Rule α)) {rule : Rule α}
    (hnone : evaluateRule rule config context segments = none) :
    evaluate (config.withRules (before ++ rule :: after)) context segments =
      evaluate (config.withRules (before ++ after)) context segments := by
  rw [evaluate_withRules_filter, evaluate_withRules_filter, List.filter_append, List.filter_append,
    List.filter_cons_of_neg (by simp [hnone])]

/-- Rules are tried in order and the first that matches gives value and id together; without one the
default is returned. So how rules are listed matters among those without an order only, and a rule that
does not match can be left out. -/
theorem rules_in_order_first_match :
    ((∃ before rule after result, FirstMatch config context segments before rule after result ∧
        Taken rule.offers result ∧ evaluate config context segments = config.selected result) ∨
      ((∀ rule ∈ config.target.rules, evaluateRule rule config context segments = none) ∧
        evaluate config context segments = config.selected (config.target.defaultValue, config.target.defaultValueId))) ∧
    (∀ rules, config.target.rules.Perm rules → (config.target.rules.filterMap Rule.order).Nodup →
      config.target.rules.filter (·.order = none) = rules.filter (·.order = none) →
      evaluate (config.withRules rules) context segments = evaluate config context segments) ∧
    ∀ before rule after, config.target.rules = before ++ rule :: after →
      evaluateRule rule config context segments = none →
      evaluate (config.withRules (before ++ after)) context segments = evaluate config context segments := by
  refine ⟨?_, fun rules hperm hnodup hlast => ?_, fun before rule after hrules hnone => ?_⟩
  · rw [evaluate_eq]
    cases hfound : (sortedRules config.target.rules).findSome? fun rule => evaluateRule rule config context segments with
    | none =>
      refine .inr ⟨fun rule hrule => ?_, rfl⟩
      exact List.findSome?_eq_none_iff.1 hfound rule ((List.mem_insertionSort _).2 hrule)
    | some result =>
      obtain ⟨before, rule, after, hrules, hresult, hless, hsame⟩ := findSome?_insertionSort Rule.sortKey hfound
      refine .inl ⟨before, rule, after, result, ⟨hrules, hresult, fun other hother hcomes => ?_,
        fun other hother heq => ?_⟩, evaluateRule_taken hresult, rfl⟩
      · exact hless other hother ((sortKey_lt_iff other rule).2 hcomes)
      · exact hsame other hother ((sortKey_eq_iff other rule).2 heq)
  · have hrule : ∀ rule, evaluateRule rule (config.withRules rules) context segments =
        evaluateRule rule config context segments := fun rule => evaluateRule_id rule rfl context segments
    rw [evaluate_eq, evaluate_eq, sortedRules_perm hperm hnodup hlast]
    simp only [hrule]
    rfl
  · rw [← evaluate_withRules_remove config context segments before after hnone, ← hrules]
    rfl

end ConfigDirector.Evaluation
