/-
The order of the conditions of a rule, of the groups of a segment and of the conditions of a group.
A condition that raises discards the rule that asks for it, and whether it is asked depends on the
order: this says which conditions raise, and for which segments the order decides nothing.
-/
import ConfigDirector.Evaluation.Evaluator
import ConfigDirector.Python.Reorder

namespace ConfigDirector.Evaluation

open Python

/-! ## Conditions that raise -/

/-- `str` refuses the integer. -/
def TooLong (n : ℤ) : Prop := maxStrDigits < (natText n.natAbs).length

/-- The minutes of the offset a date is written with. -/
def offsetMinutes (offset : Text) : ℤ :=
  intOfDigits ((offset.drop 1).take 2) * 60 + intOfDigits ((offset.drop 4).take 2)

/-- A date whose offset is a whole day or more. -/
def OffsetTooLarge (s : Text) : Prop :=
  ∃ m, isoPattern.matchStart s = some m ∧ 1440 ≤ |offsetMinutes ((m.group 8).getD [])|

/-- The path of a trait leads to a list and reads it at an index `int` refuses. -/
def IndexTooLong (document : PyValue) (tokens : List Text) : Prop :=
  ∃ before rawToken after items, tokens = before ++ rawToken :: after ∧
    pointerWalk document before = .ok (.list items) ∧ invalidEscape rawToken = false ∧
    (arrayIndexPattern.fullMatch (unescape rawToken)).isSome ∧ maxStrDigits < (unescape rawToken).length

/-- The attribute of the condition cannot be read. -/
def ReadRaises (condition : AttributeCondition) (context : Option EvaluationContext) : Prop :=
  condition.attributeName = lit "traits" ∧ ∃ path, condition.trait = some (0x2F :: path) ∧
    IndexTooLong (Context.traitsValue (contextOf context)) (splitOn 0x2F path)

/-- The value is an integer whose text is asked for and that `str` refuses. -/
def Unwritable (value : Resolved) : Prop := ∃ n, value = .value (.int n) ∧ TooLong n

/-- The value read cannot be compared with the targets as this type. -/
def CompareRaises (type : Text) (value : Resolved) (targets : List Text) : Prop :=
  (type = lit "text" ∨ type = lit "semver") ∧ Unwritable value ∨
  type = lit "number" ∧ (∃ n, value = .value (.int n) ∧ PyFloat.ofInt? n = none) ∨
  type = lit "datetime" ∧ (Unwritable value ∨ ∃ text first rest, render value = .ok text ∧
    targets = first :: rest ∧ (OffsetTooLarge text ∨ OffsetTooLarge first)) ∨
  type = lit "array" ∧ ∃ items n, value = .value (.list items) ∧ .int n ∈ items ∧ TooLong n

/-- The condition raises for the context. -/
def Raises (condition : AttributeCondition) (context : Option EvaluationContext) : Prop :=
  ReadRaises condition context ∨ ∃ value, resolve condition context = .ok value ∧ value ≠ .unknownAttribute ∧
    CompareRaises condition.targetType value condition.targetValues

/-! ## What each step of a condition raises for -/

theorem renderScalar_raises_iff (s : Scalar) : (∃ e, renderScalar s = .error e) ↔ ∃ n, s = .int n ∧ TooLong n := by
  cases s with
  | int n =>
    simp only [renderScalar, TooLong, Scalar.int.injEq, exists_eq_left']
    split
    · rename_i h
      exact iff_of_true ⟨_, rfl⟩ h
    · rename_i h
      refine iff_of_false ?_ h
      rintro ⟨e, he⟩
      cases he
  | _ => simp [renderScalar]

theorem render_raises_iff (value : Resolved) : (∃ e, render value = .error e) ↔ Unwritable value := by
  unfold Unwritable
  cases value with
  | value v =>
    cases v with
    | int n => exact (renderScalar_raises_iff (.int n)).trans (by simp)
    | _ => simp [render, scalar?, renderScalar]
  | _ => simp [render]

theorem timezoneMinutes_raises_iff (offset : Text) :
    (∃ e, timezoneMinutes offset = .error e) ↔ 1440 ≤ |offsetMinutes offset| := by
  refine ite_error_iff.trans ?_
  show ¬ (-1440 < _ * offsetMinutes offset ∧ _ * offsetMinutes offset < 1440) ↔ _
  rw [le_abs]
  split <;> omega

theorem parseDate_raises_iff (s : Text) : (∃ e, parseDate s = .error e) ↔ OffsetTooLarge s := by
  unfold parseDate OffsetTooLarge
  cases isoPattern.matchStart s with
  | none => simp
  | some m =>
    simp only [Option.some.injEq, exists_eq_left']
    generalize (m.group 8).getD [] = offset
    by_cases hutc : (offset.isEmpty || offset = lit "Z" || offset = lit "z") = true
    · rw [if_pos hutc]
      refine iff_of_false (by rintro ⟨e, he⟩; cases he) ?_
      simp only [Bool.or_eq_true, List.isEmpty_iff, decide_eq_true_eq] at hutc
      -- without hours and minutes the offset is zero
      have hzero : offsetMinutes offset = 0 := by
        rcases hutc with (rfl | rfl) | rfl <;> rfl
      rw [hzero]
      decide
    · rw [if_neg hutc, exists_bind_eq_error, timezoneMinutes_raises_iff]
      apply or_iff_left
      rintro ⟨minutes, -, e, he⟩
      cases he

theorem compareDate_raises_iff (value operator : Text) (targets : List Text) :
    (∃ e, compareDate value operator targets = .error e) ↔
      ∃ first rest, targets = first :: rest ∧ (OffsetTooLarge value ∨ OffsetTooLarge first) := by
  cases targets with
  | nil => simp [compareDate]
  | cons first rest =>
    have hsplit : (∃ e, compareDate value operator (first :: rest) = .error e) ↔
        OffsetTooLarge value ∨ OffsetTooLarge first := by
      rw [← parseDate_raises_iff, ← parseDate_raises_iff]
      unfold compareDate
      rw [exists_bind_eq_error]
      constructor
      · rintro (h | ⟨parsedValue, -, h⟩)
        · exact .inl h
        · rcases exists_bind_eq_error.1 h with h | ⟨parsedTarget, -, e, h⟩
          · exact .inr h
          · split at h
            · split at h
              · cases h
              · split at h <;> cases h
            · cases h
      · rintro (h | h)
        · exact .inl h
        · cases hvalue : parseDate value with
          | error e => exact .inl ⟨e, rfl⟩
          | ok parsedValue => exact .inr ⟨parsedValue, rfl, exists_bind_eq_error.2 (.inl h)⟩
    rw [hsplit]
    constructor
    · intro h
      exact ⟨first, rest, rfl, h⟩
    · rintro ⟨_, _, heq, h⟩
      cases heq
      exact h

theorem parseFinite_raises_iff (value : PyValue) :
    (∃ e, parseFinite value = .error e) ↔ ∃ n, value = .int n ∧ PyFloat.ofInt? n = none := by
  cases value with
  | int n =>
    simp only [parseFinite, PyValue.int.injEq, exists_eq_left']
    cases PyFloat.ofInt? n <;> simp
  | str s =>
    simp only [parseFinite]
    refine iff_of_false ?_ (by simp)
    rintro ⟨e, he⟩
    split at he
    · cases he
    · cases hs : floatOfText s <;> rw [hs] at he <;> cases he
  | _ => simp [parseFinite]

theorem compareNumeric_raises_iff (value : PyValue) (operator : Text) (targets : List Text) :
    (∃ e, compareNumeric value operator targets = .error e) ↔ ∃ n, value = .int n ∧ PyFloat.ofInt? n = none := by
  unfold compareNumeric
  rw [← parseFinite_raises_iff, exists_bind_eq_error]
  apply or_iff_left
  rintro ⟨parsed, -, e, he⟩
  cases parsed with
  | none => cases he
  | some parsed =>
    cases targets with
    | nil => cases he
    | cons first rest =>
      -- a target text is read or not, but never raises
      obtain ⟨target, htarget⟩ : ∃ target, parseFinite (.str first) = .ok target := by
        cases hfirst : parseFinite (.str first) with
        | ok target => exact ⟨target, rfl⟩
        | error e =>
          obtain ⟨n, hn, -⟩ := (parseFinite_raises_iff _).1 ⟨e, hfirst⟩
          cases hn
      simp only [htarget] at he
      cases target with
      | none => cases he
      | some target =>
        simp only [bind, Except.bind] at he
        repeat' split at he
        all_goals cases he

theorem scalar?_eq_int_iff {v : PyValue} {n : ℤ} : scalar? v = some (.int n) ↔ v = .int n := by
  cases v <;> simp [scalar?]

theorem elements_raise_iff (items : List PyValue) :
    (∃ e, (items.filterMap scalar?).mapM renderScalar = .error e) ↔ ∃ n, .int n ∈ items ∧ TooLong n := by
  rw [exists_mapM_eq_error]
  constructor
  · rintro ⟨s, hs, hraise⟩
    obtain ⟨n, rfl, hlong⟩ := (renderScalar_raises_iff s).1 hraise
    obtain ⟨v, hv, hscalar⟩ := List.mem_filterMap.1 hs
    rw [scalar?_eq_int_iff] at hscalar
    exact ⟨n, hscalar ▸ hv, hlong⟩
  · rintro ⟨n, hn, hlong⟩
    exact ⟨.int n, List.mem_filterMap.2 ⟨.int n, hn, rfl⟩, (renderScalar_raises_iff _).2 ⟨n, rfl, hlong⟩⟩

theorem compareArray_raises_iff (value : PyValue) (operator : Text) (targets : List Text) :
    (∃ e, compareArray value operator targets = .error e) ↔
      ∃ items n, value = .list items ∧ .int n ∈ items ∧ TooLong n := by
  cases value with
  | list items =>
    have hsplit : (∃ e, compareArray (.list items) operator targets = .error e) ↔
        ∃ n, .int n ∈ items ∧ TooLong n := by
      rw [← elements_raise_iff]
      unfold compareArray
      rw [exists_bind_eq_error]
      apply or_iff_left
      rintro ⟨elements, -, e, he⟩
      split at he
      · cases he
      · split at he <;> cases he
    rw [hsplit]
    simp only [PyValue.list.injEq, exists_and_left, exists_eq_left']
  | _ => simp [compareArray]

theorem compareAs_raises_iff (type : Text) (value : Resolved) (operator : Text) (targets : List Text) :
    (∃ e, compareAs type value operator targets = .error e) ↔ CompareRaises type value targets := by
  have hrender : ∀ f : Text → Bool, (∃ e, (do return f (← render value) : Except Exc Bool) = .error e) ↔
      Unwritable value := by
    intro f
    rw [exists_bind_eq_error, render_raises_iff]
    apply or_iff_left
    rintro ⟨text, -, e, he⟩
    cases he
  have hint : ∀ n, unwrap value = .int n ↔ value = .value (.int n) := by
    intro n
    cases value <;> simp [unwrap]
  have hlist : ∀ items, unwrap value = .list items ↔ value = .value (.list items) := by
    intro items
    cases value <;> simp [unwrap]
  unfold compareAs
  by_cases htext : type = lit "text"
  · rw [if_pos htext, hrender]
    subst htext
    simp +decide [CompareRaises]
  rw [if_neg htext]
  by_cases hnumber : type = lit "number"
  · rw [if_pos hnumber, compareNumeric_raises_iff]
    subst hnumber
    simp +decide [CompareRaises, hint]
  rw [if_neg hnumber]
  by_cases hdate : type = lit "datetime"
  · rw [if_pos hdate, exists_bind_eq_error, render_raises_iff]
    subst hdate
    simp +decide [CompareRaises, compareDate_raises_iff]
  rw [if_neg hdate]
  by_cases hsemver : type = lit "semver"
  · rw [if_pos hsemver, hrender]
    subst hsemver
    simp +decide [CompareRaises]
  rw [if_neg hsemver]
  by_cases harray : type = lit "array"
  · rw [if_pos harray, compareArray_raises_iff]
    subst harray
    simp +decide [CompareRaises, hlist]
  rw [if_neg harray]
  simp [CompareRaises, htext, hnumber, hdate, hsemver, harray, pure, Except.pure]

theorem pointerStep_raises_iff (current : PyValue) (token : Text) :
    (∃ e, pointerStep current token = .error e) ↔ (∃ items, current = .list items) ∧
      (arrayIndexPattern.fullMatch token).isSome ∧ maxStrDigits < token.length := by
  cases current with
  | list items =>
    simp only [pointerStep]
    split
    · rename_i hindex
      split
      · rename_i hlong
        exact iff_of_true ⟨_, rfl⟩ ⟨⟨items, rfl⟩, hindex, hlong⟩
      · rename_i hlong
        refine iff_of_false (by rintro ⟨e, he⟩; cases he) fun h => hlong h.2.2
    · rename_i hindex
      refine iff_of_false (by rintro ⟨e, he⟩; cases he) fun h => hindex h.2.1
  | _ => simp [pointerStep]

theorem pointerWalk_cons {rawToken : Text} (h : invalidEscape rawToken = false) (current : PyValue)
    (rest : List Text) :
    pointerWalk current (rawToken :: rest) = pointerStep current (unescape rawToken) >>= fun next =>
      match next with
      | some next => pointerWalk next rest
      | none => .ok .none := by
  rw [pointerWalk, h]
  rfl

theorem pointerWalk_raises_iff : ∀ (tokens : List Text) (current : PyValue),
    (∃ e, pointerWalk current tokens = .error e) ↔ IndexTooLong current tokens
  | [], current => by
    refine iff_of_false (by rintro ⟨e, he⟩; cases he) ?_
    rintro ⟨before, rawToken, after, items, h, -⟩
    cases before <;> cases h
  | rawToken :: rest, current => by
    cases hescape : invalidEscape rawToken with
    | true =>
      have hwalk : ∀ rest', pointerWalk current (rawToken :: rest') = .ok .none := by
        intro rest'
        rw [pointerWalk, hescape]
        rfl
      refine iff_of_false (by rw [hwalk]; rintro ⟨e, he⟩; cases he) ?_
      rintro ⟨before, raw, after, items, h, hreached, hraw, -⟩
      cases before with
      | nil =>
        cases h
        rw [hescape] at hraw
        cases hraw
      | cons raw' before =>
        cases h
        rw [hwalk] at hreached
        cases hreached
    | false =>
      rw [pointerWalk_cons hescape, exists_bind_eq_error, pointerStep_raises_iff]
      constructor
      · rintro (⟨⟨items, rfl⟩, hindex, hlong⟩ | ⟨next, hstep, e, he⟩)
        · exact ⟨[], rawToken, rest, items, rfl, rfl, hescape, hindex, hlong⟩
        · cases next with
          | none => cases he
          | some next =>
            obtain ⟨before, raw, after, items, rfl, hreached, h⟩ := (pointerWalk_raises_iff rest next).1 ⟨e, he⟩
            refine ⟨rawToken :: before, raw, after, items, rfl, ?_, h⟩
            rw [pointerWalk_cons hescape, hstep]
            exact hreached
      · rintro ⟨before, raw, after, items, h, hreached, hraw, hindex, hlong⟩
        cases before with
        | nil =>
          cases h
          cases hreached
          exact .inl ⟨⟨items, rfl⟩, hindex, hlong⟩
        | cons raw' before =>
          cases h
          rw [pointerWalk_cons hescape] at hreached
          obtain ⟨next, hstep, hreached⟩ := bind_eq_ok_iff.1 hreached
          cases next with
          | none => cases hreached
          | some next =>
            obtain ⟨e, he⟩ := (pointerWalk_raises_iff (before ++ raw :: after) next).2
              ⟨before, raw, after, items, rfl, hreached, hraw, hindex, hlong⟩
            exact .inr ⟨some next, hstep, e, he⟩

theorem resolve_raises_iff (condition : AttributeCondition) (context : Option EvaluationContext) :
    (∃ e, resolve condition context = .error e) ↔ ReadRaises condition context := by
  unfold ReadRaises
  by_cases htraits : condition.attributeName = lit "traits"
  · unfold resolve
    simp +decide only [htraits, if_true, if_false, true_and]
    cases condition.trait with
    | none => simp
    | some trait =>
      cases trait with
      | nil => simp
      | cons c path =>
        simp only [List.isEmpty_cons, Bool.false_eq_true, if_false, Option.some.injEq, List.cons.injEq]
        rw [exists_bind_eq_error]
        have hpure : ¬ ∃ v, findByPointer (c :: path) (Context.traitsValue (contextOf context)) = .ok v ∧
            ∃ e, (pure (orAbsent v) : Except Exc Resolved) = .error e := by
          rintro ⟨v, -, e, he⟩
          cases he
        rw [or_iff_left hpure, findByPointer]
        split
        · rename_i hslash
          rw [pointerWalk_raises_iff]
          simp [hslash]
        · rename_i hslash
          simp [hslash]
  · refine iff_of_false ?_ fun h => htraits h.1
    rintro ⟨e, he⟩
    unfold resolve at he
    simp only [if_neg htraits] at he
    repeat' split at he
    all_goals cases he

/-- A condition raises exactly where its attribute cannot be read or not be compared. -/
theorem evaluateCondition_raises_iff (condition : AttributeCondition) (context : Option EvaluationContext) :
    (∃ e, evaluateCondition condition context = .error e) ↔ Raises condition context := by
  unfold evaluateCondition Raises
  rw [exists_bind_eq_error, resolve_raises_iff]
  refine or_congr_right (exists_congr fun value => and_congr_right fun _ => ?_)
  cases value with
  | unknownAttribute => simp [pure, Except.pure]
  | absent => simp [compareAs_raises_iff]
  | value v => simp [compareAs_raises_iff]

/-! ## Reordered configs and segments -/

section Reordered

variable {α : Type}

/-- The same rule, its conditions in any order. -/
inductive Rule.Reordered : Rule α → Rule α → Prop
  | percentage (r : PercentageRule α) : Rule.Reordered (.percentage r) (.percentage r)
  | conditional (r : ConditionalRule α) (conditions : List Condition) (h : r.conditions.Perm conditions) :
      Rule.Reordered (.conditional r) (.conditional { r with conditions := conditions })

def Config.Reordered (config config' : Config α) : Prop :=
  ∃ rules, List.Forall₂ Rule.Reordered config.target.rules rules ∧
    config' = { config with target := { config.target with rules := rules } }

/-- The same segments, the groups of each and their conditions in any order. -/
def SegmentsReordered (segments segments' : Option Segments) : Prop :=
  ∀ id, Option.Rel (fun s s' : Segment => Regrouped s.groups s'.groups)
    ((segments.getD ∅).get? id) ((segments'.getD ∅).get? id)

theorem Config.Reordered.refl (config : Config α) : Config.Reordered config config := by
  refine ⟨config.target.rules, List.forall₂_same.2 fun rule _ => ?_, rfl⟩
  cases rule with
  | percentage r => exact .percentage r
  | conditional r => exact .conditional r r.conditions (List.Perm.refl _)

theorem SegmentsReordered.refl (segments : Option Segments) : SegmentsReordered segments segments := by
  intro id
  cases (segments.getD ∅).get? id with
  | none => exact .none
  | some segment => exact .some (Regrouped.refl _)

theorem SegmentsReordered.set {segments : Option Segments} {id : Text} {segment segment' : Segment}
    (h : (segments.getD ∅).get? id = some segment) (hgroups : Regrouped segment.groups segment'.groups) :
    SegmentsReordered segments (some ((segments.getD ∅).set id segment')) := by
  intro id'
  rw [Option.getD_some, Dict.get?_set]
  split
  · rename_i heq
    subst heq
    rw [h]
    exact .some hgroups
  · exact SegmentsReordered.refl segments id'

/-- For the context, the order of the groups of a segment and of their conditions decides nothing: where a condition
raises, no group holds as a whole, and some group has no condition that is false. -/
def Segment.OrderFree (segment : Segment) (context : Option EvaluationContext) : Prop :=
  (∃ group ∈ segment.groups, ∃ condition ∈ group, Raises condition context) →
    ¬ SomeHolds (evaluateCondition · context) segment.groups ∧ ¬ EachFails (evaluateCondition · context) segment.groups

theorem Segment.orderFree_iff (segment : Segment) (context : Option EvaluationContext) :
    segment.OrderFree context ↔ Python.OrderFree (evaluateCondition · context) segment.groups := by
  unfold Segment.OrderFree Python.OrderFree SomeRaises
  simp only [evaluateCondition_raises_iff]

end Reordered

instance (condition : AttributeCondition) (context : Option EvaluationContext) : Decidable (Raises condition context) :=
  match h : evaluateCondition condition context with
  | .error e => .isTrue ((evaluateCondition_raises_iff condition context).1 ⟨e, h⟩)
  | .ok _ => .isFalse fun hraises => by
    obtain ⟨e, he⟩ := (evaluateCondition_raises_iff condition context).2 hraises
    rw [h] at he
    cases he

instance (segment : Segment) (context : Option EvaluationContext) : Decidable (segment.OrderFree context) :=
  inferInstanceAs (Decidable ((∃ group ∈ segment.groups, ∃ condition ∈ group, Raises condition context) →
    ¬ (∃ group ∈ segment.groups, ∀ condition ∈ group, evaluateCondition condition context = .ok true) ∧
      ¬ ∀ group ∈ segment.groups, ∃ condition ∈ group, evaluateCondition condition context = .ok false))

/-! ## What a rule selects, whatever the order -/

section Selected

variable {α : Type} [PercentageArith α]

/-- The condition holds, a segment being the disjunction of its groups: each group the conjunction of its conditions. -/
def Condition.Holds (condition : Condition) (context : Option EvaluationContext) (segments : Option Segments) : Prop :=
  match condition with
  | .ofAttribute c => evaluateCondition c context = .ok true
  | .ofSegment c => ∃ segment ∈ (segments.getD ∅).get? c.segmentId,
      lower c.operator = lit "in" ∧ SomeHolds (evaluateCondition · context) segment.groups ∨
        lower c.operator = lit "not in" ∧ EachFails (evaluateCondition · context) segment.groups

instance (condition : Condition) (context : Option EvaluationContext) (segments : Option Segments) :
    Decidable (condition.Holds context segments) :=
  match condition with
  | .ofAttribute c => inferInstanceAs (Decidable (evaluateCondition c context = .ok true))
  | .ofSegment c => inferInstanceAs (Decidable (∃ segment ∈ (segments.getD ∅).get? c.segmentId,
      lower c.operator = lit "in" ∧
        (∃ group ∈ segment.groups, ∀ condition ∈ group, evaluateCondition condition context = .ok true) ∨
      lower c.operator = lit "not in" ∧
        ∀ group ∈ segment.groups, ∃ condition ∈ group, evaluateCondition condition context = .ok false))

/-- The segments the conditions of a rule refer to for which the order decides whether they raise. -/
def Rule.hinges (rule : Rule α) (context : Option EvaluationContext) (segments : Option Segments) : List Text :=
  (rule.conditions.filterMap Condition.segmentId?).filter fun id =>
    ∃ segment ∈ (segments.getD ∅).get? id, ¬ segment.OrderFree context

/-- What a conditional rule yields when its conditions hold. -/
def ConditionalRule.selected (rule : ConditionalRule α) (config : Config α)
    (context : Option EvaluationContext) : Except Exc RuleResult :=
  if rule.target = lit "value" then ruleResult rule.value rule.valueId
  else if rule.target = lit "percentage" then evaluatePercentage rule.percentages config context
  else .ok none

/-- What a rule yields when its conditions hold. -/
def Rule.selected (rule : Rule α) (config : Config α) (context : Option EvaluationContext) : RuleResult :=
  match rule with
  | .percentage r => ((evaluatePercentage r.percentages config context).toOption).getD none
  | .conditional r =>
    if r.type = lit "conditional" then ((r.selected config context).toOption).getD none else none

/-- What the rules select if of the segments that hinge on the order only these answer, and the others raise. -/
def selectedWhere (config : Config α) (context : Option EvaluationContext) (segments : Option Segments)
    (answering : List Text) : Text × Option Text :=
  ((sortedRules config.target.rules).findSome? fun rule =>
    if rule.hinges context segments ⊆ answering then
      if ∀ condition ∈ rule.conditions, condition.Holds context segments then rule.selected config context else none
    else none).getD (config.target.defaultValue, config.target.defaultValueId)

/-! ## What a segment answers, in some order -/

/-- The segment is there, and is not asked for a condition that raises before it is decided. -/
def Answers (segments : Option Segments) (context : Option EvaluationContext) (id : Text) : Prop :=
  ∃ segment ∈ (segments.getD ∅).get? id, (inSegment segment context).isOk = true

omit [PercentageArith α] in
theorem Rule.mem_hinges {rule : Rule α} {context : Option EvaluationContext} {segments : Option Segments} {id : Text} :
    id ∈ rule.hinges context segments ↔ (∃ condition ∈ rule.conditions, condition.segmentId? = some id) ∧
      ∃ segment ∈ (segments.getD ∅).get? id, ¬ segment.OrderFree context := by
  rw [Rule.hinges, List.mem_filter, decide_eq_true_eq, List.mem_filterMap]

theorem evaluateSegmentCondition_eq_true_iff (condition : SegmentCondition) (segments : Option Segments)
    (context : Option EvaluationContext) : evaluateSegmentCondition condition segments context = .ok true ↔
      ∃ segment ∈ (segments.getD ∅).get? condition.segmentId,
        lower condition.operator = lit "in" ∧ inSegment segment context = .ok true ∨
          lower condition.operator = lit "not in" ∧ inSegment segment context = .ok false := by
  unfold evaluateSegmentCondition
  cases (segments.getD ∅).get? condition.segmentId with
  | none => simp
  | some segment =>
    simp only [Option.mem_def, Option.some.injEq, exists_eq_left']
    cases hmember : inSegment segment context with
    | error e => simp [bind, Except.bind]
    | ok member =>
      simp only [bind, Except.bind]
      by_cases hin : lower condition.operator = lit "in"
      · have hne : ¬ lit "in" = lit "not in" := by decide
        simp [hin, hne, pure, Except.pure]
      · by_cases hnotIn : lower condition.operator = lit "not in"
        · have hne : ¬ lit "not in" = lit "in" := by decide
          simp [hnotIn, hne, pure, Except.pure]
        · simp [hin, hnotIn, pure, Except.pure]

/-- In a reordering a segment holds, or fails, if it answers and its groups do. -/
theorem inSegment_regrouped {segment segment' : Segment} (h : Regrouped segment.groups segment'.groups)
    (context : Option EvaluationContext) :
    (inSegment segment' context = .ok true ↔
      (inSegment segment' context).isOk = true ∧ SomeHolds (evaluateCondition · context) segment.groups) ∧
    (inSegment segment' context = .ok false ↔
      (inSegment segment' context).isOk = true ∧ EachFails (evaluateCondition · context) segment.groups) := by
  rw [h.someHolds_iff, h.eachFails_iff]
  exact ⟨anyAll_eq_true_iff, anyAll_eq_false_iff⟩

section Reordering

variable {context : Option EvaluationContext} {segments segments' : Option Segments}

theorem SegmentsReordered.cases (h : SegmentsReordered segments segments') (id : Text) :
    ((segments.getD ∅).get? id = none ∧ (segments'.getD ∅).get? id = none) ∨
    ∃ segment segment', (segments.getD ∅).get? id = some segment ∧ (segments'.getD ∅).get? id = some segment' ∧
      Regrouped segment.groups segment'.groups := by
  have hid := h id
  cases hsegment : (segments.getD ∅).get? id with
  | none =>
    rw [hsegment] at hid
    cases hsegment' : (segments'.getD ∅).get? id with
    | none => exact .inl ⟨rfl, rfl⟩
    | some segment' => rw [hsegment'] at hid; cases hid
  | some segment =>
    rw [hsegment] at hid
    cases hsegment' : (segments'.getD ∅).get? id with
    | none => rw [hsegment'] at hid; cases hid
    | some segment' =>
      rw [hsegment'] at hid
      cases hid with
      | some hgroups => exact .inr ⟨segment, segment', rfl, rfl, hgroups⟩

/-- In a reordering a condition holds if it does whatever the order, and the segment it may hinge on answers. -/
theorem conditionHolds_reordered (h : SegmentsReordered segments segments') (condition : Condition) :
    conditionHolds condition context segments' = .ok true ↔ condition.Holds context segments ∧
      ∀ id, condition.segmentId? = some id →
        (∃ segment ∈ (segments.getD ∅).get? id, ¬ segment.OrderFree context) → Answers segments' context id := by
  cases condition with
  | ofAttribute c =>
    rw [conditionHolds, Condition.Holds, and_iff_left]
    intro id hid
    cases hid
  | ofSegment c =>
    rw [conditionHolds, evaluateSegmentCondition_eq_true_iff, Condition.Holds]
    simp only [Condition.segmentId?, Option.some.injEq, forall_eq']
    rcases h.cases c.segmentId with ⟨hnone, hnone'⟩ | ⟨segment, segment', hsegment, hsegment', hgroups⟩
    · simp [hnone, hnone']
    · unfold Answers
      obtain ⟨htrue, hfalse⟩ := inSegment_regrouped hgroups context
      simp only [hsegment, hsegment', Option.mem_def, Option.some.injEq, exists_eq_left']
      rw [htrue, hfalse]
      constructor
      · rintro (⟨hop, hok, hholds⟩ | ⟨hop, hok, hfails⟩)
        · exact ⟨.inl ⟨hop, hholds⟩, fun _ => hok⟩
        · exact ⟨.inr ⟨hop, hfails⟩, fun _ => hok⟩
      · rintro ⟨hsettled, hanswers⟩
        -- a segment that does not hinge on the order answers in every order
        have hok : (inSegment segment' context).isOk = true := by
          by_cases hfree : segment.OrderFree context
          · refine (((segment.orderFree_iff context).1 hfree).regrouped hgroups).isOk ?_
            rw [← hgroups.someHolds_iff, ← hgroups.eachFails_iff]
            exact hsettled.imp And.right And.right
          · exact hanswers hfree
        exact hsettled.imp (fun h => ⟨h.1, hok, h.2⟩) fun h => ⟨h.1, hok, h.2⟩

end Reordering

/-- A rule with a condition that is false or raises yields nothing. -/
theorem evaluateRule_conditional (rule : ConditionalRule α) (config : Config α)
    (context : Option EvaluationContext) (segments : Option Segments) :
    evaluateRule (.conditional rule) config context segments =
      if rule.type = lit "conditional" ∧
          (rule.conditions.allM fun condition => conditionHolds condition context segments) = .ok true then
        ((rule.selected config context).toOption).getD none
      else none := by
  by_cases htype : rule.type = lit "conditional"
  · simp only [evaluateRule, tryRule, htype, if_true, true_and]
    cases hall : rule.conditions.allM fun condition => conditionHolds condition context segments with
    | error e => simp [evaluateConditionalRule, hall, bind, Except.bind]
    | ok b =>
      cases b with
      | false => simp [evaluateConditionalRule, hall, bind, Except.bind, pure, Except.pure]
      | true =>
        have hselected : evaluateConditionalRule rule config context segments = rule.selected config context := by
          unfold evaluateConditionalRule
          rw [hall]
          rfl
        rw [if_pos rfl, hselected]
        cases rule.selected config context <;> rfl
  · rw [if_neg fun h => htype h.1]
    simp only [evaluateRule, tryRule, if_neg htype]

theorem evaluateRule_eq (rule : Rule α) (config : Config α) (context : Option EvaluationContext)
    (segments : Option Segments) : evaluateRule rule config context segments =
      if ∀ condition ∈ rule.conditions, conditionHolds condition context segments = .ok true then
        rule.selected config context
      else none := by
  cases rule with
  | percentage r =>
    rw [if_pos (show ∀ condition ∈ (Rule.percentage r).conditions, _ from List.forall_mem_nil _)]
    unfold evaluateRule tryRule Rule.selected
    dsimp only
    cases evaluatePercentage r.percentages config context <;> rfl
  | conditional r =>
    rw [evaluateRule_conditional]
    simp only [Rule.conditions, Rule.selected, allM_eq_true_iff]
    by_cases htype : r.type = lit "conditional"
    · simp [htype]
    · simp [htype]

/-- A rule as it is in a reordering: it yields what it selects where its conditions hold, whatever the order, and the
segments it hinges on answer. -/
theorem evaluateRule_reordered {context : Option EvaluationContext} {segments segments' : Option Segments}
    (h : SegmentsReordered segments segments') {rule rule' : Rule α} (hrule : Rule.Reordered rule rule')
    {config config' : Config α} (hid : config'.id = config.id) {answering : List Text}
    (hanswering : ∀ id ∈ rule.hinges context segments, id ∈ answering ↔ Answers segments' context id) :
    evaluateRule rule' config' context segments' =
      if rule.hinges context segments ⊆ answering then
        if ∀ condition ∈ rule.conditions, condition.Holds context segments then rule.selected config context else none
      else none := by
  have hperm : ∀ condition, condition ∈ rule'.conditions ↔ condition ∈ rule.conditions := by
    cases hrule with
    | percentage r => exact fun condition => Iff.rfl
    | conditional r conditions hconditions => exact fun condition => hconditions.mem_iff.symm
  have hselected : rule'.selected config context = rule.selected config context := by
    cases hrule <;> rfl
  have hall : (∀ condition ∈ rule'.conditions, conditionHolds condition context segments' = .ok true) ↔
      rule.hinges context segments ⊆ answering ∧ ∀ condition ∈ rule.conditions, condition.Holds context segments := by
    simp only [hperm, conditionHolds_reordered h]
    constructor
    · intro hholds
      refine ⟨fun id hmem => (hanswering id hmem).2 ?_, fun condition hcondition => (hholds condition hcondition).1⟩
      obtain ⟨⟨condition, hcondition, hsegment⟩, hfree⟩ := Rule.mem_hinges.1 hmem
      exact (hholds condition hcondition).2 id hsegment hfree
    · rintro ⟨hsubset, hholds⟩ condition hcondition
      refine ⟨hholds condition hcondition, fun id hsegment hfree => ?_⟩
      have hmem : id ∈ rule.hinges context segments := Rule.mem_hinges.2 ⟨⟨condition, hcondition, hsegment⟩, hfree⟩
      exact (hanswering id hmem).1 (hsubset hmem)
  rw [evaluateRule_id rule' hid, evaluateRule_eq, hselected]
  by_cases hsubset : rule.hinges context segments ⊆ answering
  · by_cases hholds : ∀ condition ∈ rule.conditions, condition.Holds context segments
    · rw [if_pos (hall.2 ⟨hsubset, hholds⟩), if_pos hsubset, if_pos hholds]
    · rw [if_neg fun h => hholds (hall.1 h).2, if_pos hsubset, if_neg hholds]
  · rw [if_neg fun h => hsubset (hall.1 h).1, if_neg hsubset]

omit [PercentageArith α] in
theorem Rule.Reordered.sortKey_eq {rule rule' : Rule α} (h : Rule.Reordered rule rule') :
    rule.sortKey = rule'.sortKey := by
  cases h <;> rfl

theorem findSome?_forall₂ {β γ : Type} {R : β → β → Prop} {f g : β → Option γ} {l l' : List β}
    (h : List.Forall₂ R l l') (hR : ∀ x ∈ l, ∀ y, R x y → g y = f x) : l'.findSome? g = l.findSome? f := by
  induction h with
  | nil => rfl
  | cons hxy _ ih =>
    rw [List.findSome?_cons, List.findSome?_cons, hR _ List.mem_cons_self _ hxy,
      ih fun x hx => hR x (List.mem_cons_of_mem _ hx)]

section

variable {config config' : Config α} {context : Option EvaluationContext} {segments segments' : Option Segments}

/-- What a reordering selects is what is selected where the segments answer that do there. -/
theorem getConfigValue_reordered (hconfig : Config.Reordered config config') (h : SegmentsReordered segments segments')
    {answering : List Text} (hanswering : ∀ rule ∈ config.target.rules, ∀ id ∈ rule.hinges context segments,
      id ∈ answering ↔ Answers segments' context id) :
    getConfigValue config' context segments' = selectedWhere config context segments answering := by
  obtain ⟨rules, hrules, rfl⟩ := hconfig
  have hsorted := forall₂_insertionSort Rule.sortKey (fun _ _ => Rule.Reordered.sortKey_eq) hrules
  let config' : Config α := { config with target := { config.target with rules := rules } }
  have hfind : (sortedRules rules).findSome? (fun rule => evaluateRule rule config' context segments') = _ :=
    findSome?_forall₂ hsorted fun rule hrule rule' hreordered => evaluateRule_reordered h hreordered
      (show config'.id = config.id from rfl) (hanswering rule ((List.mem_insertionSort _).1 hrule))
  show getConfigValue config' context segments' = Option.getD _ _
  rw [sortedRules, ← hfind]
  unfold getConfigValue
  cases (sortedRules config'.target.rules).findSome? fun rule => evaluateRule rule config' context segments' <;> rfl

omit [PercentageArith α] in
/-- Of the segments the rules hinge on, any can be made to answer and the others to raise. -/
theorem exists_reordered (context : Option EvaluationContext) (segments : Option Segments) (answering : List Text) :
    ∃ segments', SegmentsReordered segments segments' ∧ ∀ (rule : Rule α), ∀ id ∈ rule.hinges context segments,
      id ∈ answering ↔ Answers segments' context id := by
  have hsegment : ∀ (id : Text) (segment : Segment), ∃ segment' : Segment, Regrouped segment.groups segment'.groups ∧
      (¬ segment.OrderFree context → ((inSegment segment' context).isOk = true ↔ id ∈ answering)) := by
    intro id segment
    by_cases hfree : segment.OrderFree context
    · exact ⟨segment, Regrouped.refl _, fun h => absurd hfree h⟩
    · rw [segment.orderFree_iff] at hfree
      obtain ⟨groups, hgroups, hok⟩ := exists_regrouped_isOk hfree (decide (id ∈ answering))
      refine ⟨⟨groups⟩, hgroups, fun _ => ?_⟩
      change (anyAll _ groups).isOk = true ↔ _
      rw [hok, decide_eq_true_eq]
  choose reorder hreorder using hsegment
  refine ⟨some ((segments.getD ∅).mapValues reorder), fun id => ?_, fun rule id hmem => ?_⟩
  · rw [Option.getD_some, Dict.get?_mapValues]
    cases (segments.getD ∅).get? id with
    | none => exact .none
    | some segment => exact .some (hreorder id segment).1
  · obtain ⟨-, segment, hsegment, hfree⟩ := Rule.mem_hinges.1 hmem
    rw [Option.mem_def] at hsegment
    rw [Answers, Option.getD_some, Dict.get?_mapValues, hsegment, Option.map_some]
    simp only [Option.mem_def, Option.some.injEq, exists_eq_left']
    exact ((hreorder id segment).2 hfree).symm

/-- No reordering of the config's conditions and of the segments changes what the config evaluates to. -/
def OrderIrrelevant (config : Config α) (context : Option EvaluationContext) (segments : Option Segments) : Prop :=
  ∀ config' segments', Config.Reordered config config' → SegmentsReordered segments segments' →
    evaluate config' context segments' = evaluate config context segments

end

/-- The order never matters if and only if for every rule the same is selected where the segments answer that this rule
hinges on as where none does: the conditions of a rule never matter, nor does a segment in which none raises. -/
theorem orderIrrelevant_iff (config : Config α) (context : Option EvaluationContext) (segments : Option Segments) :
    OrderIrrelevant config context segments ↔ ∀ rule ∈ config.target.rules,
      selectedWhere config context segments (rule.hinges context segments) =
        selectedWhere config context segments [] := by
  constructor
  · intro h rule _
    -- each of the two is what some reordering selects
    have hattained : ∀ answering, selectedWhere config context segments answering =
        getConfigValue config context segments := by
      intro answering
      obtain ⟨segments', hsegments, hanswering⟩ := exists_reordered (α := α) context segments answering
      have hsame := h config segments' (Config.Reordered.refl _) hsegments
      rw [← getConfigValue_reordered (Config.Reordered.refl _) hsegments fun rule _ => hanswering rule]
      unfold evaluate at hsame
      simp only [ConfigState.mk.injEq, Option.some.injEq, true_and] at hsame
      exact Prod.ext hsame.1 hsame.2
    rw [hattained, hattained]
  · intro h config' segments' hconfig hsegments
    -- the first rule to yield yields where its own segments answer
    have hany : ∀ answering, selectedWhere config context segments answering = selectedWhere config context segments [] := by
      intro answering
      rcases findSome?_needing (fun rule : Rule α => rule.hinges context segments)
        (fun rule => if ∀ condition ∈ rule.conditions, condition.Holds context segments then rule.selected config context
          else none) answering (sortedRules config.target.rules) with hnone | ⟨rule, hrule, hfirst⟩
      · exact congrArg (Option.getD · _) hnone
      · rw [← h rule ((List.mem_insertionSort _).1 hrule)]
        exact congrArg (Option.getD · _) hfirst
    have hselected : ∀ {config' : Config α} {segments' : Option Segments}, Config.Reordered config config' →
        SegmentsReordered segments segments' →
        getConfigValue config' context segments' = selectedWhere config context segments [] := by
      intro config' segments' hconfig hsegments
      -- of all the segments the config refers to, those that answer in this reordering
      classical
      let answering := config.segmentIds.filter fun id => decide (Answers segments' context id)
      rw [← hany answering]
      refine getConfigValue_reordered hconfig hsegments fun rule hrule id hmem => ?_
      obtain ⟨⟨condition, hcondition, hid⟩, -⟩ := Rule.mem_hinges.1 hmem
      have hrefers : id ∈ config.segmentIds := (config.mem_segmentIds id).2 ⟨rule, hrule, condition, hcondition, hid⟩
      simp only [answering, List.mem_filter, decide_eq_true_eq, hrefers, true_and]
    have hvalue := (hselected hconfig hsegments).trans
      (hselected (Config.Reordered.refl config) (SegmentsReordered.refl segments)).symm
    obtain ⟨rules, -, rfl⟩ := hconfig
    unfold evaluate
    rw [hvalue]

end Selected

/-! ## Where the order matters -/

/-- A date with an offset of 24 hours. -/
def offsetOfADay : AttributeCondition :=
  ⟨lit "date", lit "identifier", lit "is after", lit "datetime", [lit "2024-01-01T00:00+24:00"], none⟩

def ofUsers : AttributeCondition := ⟨lit "users", lit "kind", lit "equals", lit "text", [lit "user"], none⟩

/-- A config that gives its value to a segment. -/
def segmentConfig : Config PyFloat where
  id := lit "id"
  key := lit "key"
  type := .str (lit "string")
  variations := []
  typeConstraints := none
  target := {
    defaultValue := lit "default"
    defaultValueId := none
    rules := [.conditional ⟨lit "rule", none, some (.str (lit "value")),
      [.ofSegment ⟨lit "condition", lit "in", lit "segment"⟩], [], lit "value", lit "conditional", none⟩] }

/-- Asked before a group that holds, a date that raises discards the rule. -/
theorem order_matters : ¬ ∀ (config : Config PyFloat) (context : Option EvaluationContext) (segments : Option Segments),
    OrderIrrelevant config context segments := by
  intro h
  let segments : Segments := (∅ : Segments).set (lit "segment") ⟨[[ofUsers], [offsetOfADay]]⟩
  let segments' : Segments := segments.set (lit "segment") ⟨[[offsetOfADay], [ofUsers]]⟩
  have hgroups : Regrouped [[ofUsers], [offsetOfADay]] [[offsetOfADay], [ofUsers]] :=
    ⟨[[offsetOfADay], [ofUsers]], List.Perm.swap .., List.forall₂_same.2 fun _ _ => List.Perm.refl _⟩
  have hsame := h segmentConfig none (some segments) segmentConfig (some segments') (Config.Reordered.refl _)
    (.set (Dict.get?_set_self _ _ _) hgroups)
  have hvalue : (evaluate segmentConfig none (some segments)).value = some (lit "value") := by decide +kernel
  have hvalue' : (evaluate segmentConfig none (some segments')).value = some (lit "default") := by decide +kernel
  rw [hsame, hvalue] at hvalue'
  exact absurd hvalue' (by decide)

end ConfigDirector.Evaluation
