/-
Rollouts are sticky: moving the boundary between two percentage buckets moves the contexts between
the old boundary and the new one, and no others. Percentages and their sums are exact rationals here.
-/
import ConfigDirector.Evaluation.Evaluator
import ConfigDirector.Python.Reorder
import Mathlib.Tactic.Linarith
import Mathlib.Tactic.Ring

namespace ConfigDirector.Evaluation

open Python

/-! ## The loop over exact percentages -/

/-- What the buckets take up together. -/
def share (buckets : List (Percentage ℚ)) : ℚ := (buckets.map Percentage.percentage).sum

theorem share_cons (bucket : Percentage ℚ) (rest : List (Percentage ℚ)) :
    share (bucket :: rest) = bucket.percentage + share rest := by
  simp [share]

theorem share_nonneg {buckets : List (Percentage ℚ)} (h : ∀ bucket ∈ buckets, 0 ≤ bucket.percentage) :
    0 ≤ share buckets := by
  apply List.sum_nonneg
  intro q hq
  obtain ⟨bucket, hbucket, rfl⟩ := List.mem_map.1 hq
  exact h bucket hbucket

theorem selectBucket_cons (assigned total : ℚ) (bucket : Percentage ℚ) (rest : List (Percentage ℚ)) :
    selectBucket assigned total (bucket :: rest) =
      if assigned < total + bucket.percentage then some bucket
      else selectBucket assigned (total + bucket.percentage) rest := by
  rw [selectBucket, add_comm total]
  simp only [PercentageArith.lt, PercentageArith.add, decide_eq_true_eq, add_comm total]

/-- Buckets that end at or below the slot are passed. -/
theorem selectBucket_pass (assigned : ℚ) (rest : List (Percentage ℚ)) :
    ∀ (total : ℚ) (passed : List (Percentage ℚ)), (∀ bucket ∈ passed, 0 ≤ bucket.percentage) →
      total + share passed ≤ assigned →
      selectBucket assigned total (passed ++ rest) = selectBucket assigned (total + share passed) rest
  | total, [], _, _ => by simp [share]
  | total, bucket :: passed, h, hle => by
    rw [List.forall_mem_cons] at h
    rw [share_cons, ← add_assoc] at hle ⊢
    have hnonneg : 0 ≤ share passed := share_nonneg h.2
    rw [List.cons_append, selectBucket_cons, if_neg (by linarith)]
    exact selectBucket_pass assigned rest _ passed h.2 hle

/-- Buckets that end above the slot hold the one selected, whatever follows them. -/
theorem selectBucket_within (assigned : ℚ) (rest rest' : List (Percentage ℚ)) :
    ∀ (total : ℚ) (buckets : List (Percentage ℚ)), total ≤ assigned → assigned < total + share buckets →
      selectBucket assigned total (buckets ++ rest) = selectBucket assigned total (buckets ++ rest')
  | total, [], hle, hlt => by
    simp only [share, List.map_nil, List.sum_nil, add_zero] at hlt
    linarith
  | total, bucket :: buckets, hle, hlt => by
    rw [share_cons, ← add_assoc] at hlt
    rw [List.cons_append, List.cons_append, selectBucket_cons, selectBucket_cons]
    split
    · rfl
    · rename_i hnot
      exact selectBucket_within assigned rest rest' _ buckets (not_lt.1 hnot) hlt

/-! ## Moving a boundary -/

/-- A bucket with `d` more. -/
def Percentage.grow (bucket : Percentage ℚ) (d : ℚ) : Percentage ℚ :=
  { bucket with percentage := bucket.percentage + d }

/-- The buckets after the one that grows: the first of them gives up what it gains. -/
def shrinkHead (d : ℚ) : List (Percentage ℚ) → List (Percentage ℚ)
  | [] => []
  | next :: rest => next.grow (-d) :: rest

/-- What a rule yields for a bucket; none where the bucket has no value. -/
def Percentage.result (bucket : Percentage ℚ) : RuleResult :=
  match ruleResult bucket.value bucket.valueId with
  | .ok result => result
  | .error _ => none

@[simp] theorem Percentage.grow_result (bucket : Percentage ℚ) (d : ℚ) :
    (bucket.grow d).result = bucket.result := rfl

@[simp] theorem Percentage.grow_percentage (bucket : Percentage ℚ) (d : ℚ) :
    (bucket.grow d).percentage = bucket.percentage + d := rfl

section Move

variable {head tail : List (Percentage ℚ)} {bucket : Percentage ℚ} {d assigned : ℚ}

/-- Below the old boundary and from the new one on, the same bucket is selected. -/
theorem selectBucket_outside (hd : 0 < d) (hhead : ∀ b ∈ head, 0 ≤ b.percentage) (hassigned : 0 ≤ assigned)
    (h : ¬ (share head + bucket.percentage ≤ assigned ∧ assigned < share head + bucket.percentage + d)) :
    (selectBucket assigned 0 (head ++ bucket.grow d :: shrinkHead d tail)).bind Percentage.result =
      (selectBucket assigned 0 (head ++ bucket :: tail)).bind Percentage.result := by
  rcases lt_or_ge assigned (share head) with hlt | hge
  · rw [selectBucket_within assigned (bucket.grow d :: shrinkHead d tail) (bucket :: tail) 0 head hassigned
      (by linarith)]
  · rw [selectBucket_pass assigned _ 0 head hhead (by linarith), selectBucket_pass assigned _ 0 head hhead
      (by linarith), zero_add, selectBucket_cons, selectBucket_cons, Percentage.grow_percentage]
    rcases lt_or_ge assigned (share head + bucket.percentage) with hbelow | habove
    · rw [if_pos (by linarith), if_pos hbelow]
      rfl
    · have hnew : share head + bucket.percentage + d ≤ assigned := by
        by_contra hcontra
        exact h ⟨habove, not_le.1 hcontra⟩
      rw [if_neg (by linarith), if_neg (by linarith)]
      cases tail with
      | nil => rfl
      | cons next rest =>
        -- what the one bucket gained and the other gave up cancel
        have htotal : share head + (bucket.percentage + d) + (next.grow (-d)).percentage =
            share head + bucket.percentage + next.percentage := by
          rw [Percentage.grow_percentage]
          ring
        rw [shrinkHead, selectBucket_cons, selectBucket_cons, htotal]
        split
        · rfl
        · rfl

/-- Between the two boundaries the bucket after it, or none, was selected before the move. -/
theorem selectBucket_inside_old (hhead : ∀ b ∈ head, 0 ≤ b.percentage) (hbucket : 0 ≤ bucket.percentage)
    (hshrunk : ∀ b ∈ shrinkHead d tail, 0 ≤ b.percentage)
    (hle : share head + bucket.percentage ≤ assigned) (hlt : assigned < share head + bucket.percentage + d) :
    selectBucket assigned 0 (head ++ bucket :: tail) = tail.head? := by
  rw [selectBucket_pass assigned _ 0 head hhead (by linarith), zero_add, selectBucket_cons, if_neg (by linarith)]
  cases tail with
  | nil => rfl
  | cons next rest =>
    have hnext : 0 ≤ next.percentage + -d := hshrunk _ (List.mem_cons_self ..)
    rw [selectBucket_cons, if_pos (by linarith)]
    rfl

/-- After the move it is the bucket that grew. -/
theorem selectBucket_inside_new (hhead : ∀ b ∈ head, 0 ≤ b.percentage) (hbucket : 0 ≤ bucket.percentage)
    (hle : share head + bucket.percentage ≤ assigned) (hlt : assigned < share head + bucket.percentage + d) :
    selectBucket assigned 0 (head ++ bucket.grow d :: shrinkHead d tail) = some (bucket.grow d) := by
  rw [selectBucket_pass assigned _ 0 head hhead (by linarith), zero_add, selectBucket_cons,
    Percentage.grow_percentage, if_pos (by linarith)]

end Move

/-! ## The rule in its config -/

/-- What a percentage rule yields for the slot of the context. -/
theorem evaluateRule_percentage (rule : PercentageRule ℚ) (config : Config ℚ)
    (context : Option EvaluationContext) (segments : Option Segments) :
    evaluateRule (.percentage rule) config context segments =
      match assignedPercentage config context with
      | .ok assigned => (selectBucket assigned 0 rule.percentages).bind Percentage.result
      | .error _ => none := by
  simp only [evaluateRule, tryRule, evaluatePercentage]
  cases assignedPercentage config context with
  | error e => rfl
  | ok assigned =>
    have hzero : (PercentageArith.zero : ℚ) = 0 := rfl
    simp only [bind, Except.bind, hzero]
    cases selectBucket assigned 0 rule.percentages with
    | none => rfl
    | some bucket => rfl

theorem assignedPercentage_nonneg {config : Config ℚ} {context : Option EvaluationContext} {assigned : ℚ}
    (h : assignedPercentage config context = .ok assigned) : 0 ≤ assigned := by
  simp only [assignedPercentage] at h
  split at h
  · cases h
    exact le_rfl
  · unfold assignPercentage at h
    split at h
    · cases h
      show (0 : ℚ) ≤ ((_ : ℕ) : ℚ) / 10
      positivity
    · cases h

/-- The config with a percentage rule of these buckets between its other rules. -/
def Config.withRollout (config : Config ℚ) (before after : List (Rule ℚ)) (rule : PercentageRule ℚ)
    (buckets : List (Percentage ℚ)) : Config ℚ :=
  { config with target :=
    { config.target with rules := before ++ .percentage { rule with percentages := buckets } :: after } }

/-- The assigned percentage of the context lies in `[low, high)`. -/
def AssignedWithin (config : Config ℚ) (context : Option EvaluationContext) (low high : ℚ) : Prop :=
  ∃ assigned, assignedPercentage config context = .ok assigned ∧ low ≤ assigned ∧ assigned < high

/-- What the rules that come later, or else the default, select. -/
def selectLater (later : List (Rule ℚ)) (config : Config ℚ) (context : Option EvaluationContext)
    (segments : Option Segments) : Text × Option Text :=
  (later.findSome? fun rule => evaluateRule rule config context segments).getD
    (config.target.defaultValue, config.target.defaultValueId)

theorem getConfigValue_eq (config : Config ℚ) (context : Option EvaluationContext) (segments : Option Segments) :
    getConfigValue config context segments = selectLater (sortedRules config.target.rules) config context segments := by
  unfold getConfigValue selectLater
  cases (sortedRules config.target.rules).findSome? fun rule => evaluateRule rule config context segments <;> rfl

/-- The value selected around one rule. -/
theorem selectLater_split (earlier later : List (Rule ℚ)) (rule : Rule ℚ) (config : Config ℚ)
    (context : Option EvaluationContext) (segments : Option Segments) :
    selectLater (earlier ++ rule :: later) config context segments =
      ((earlier.findSome? fun rule => evaluateRule rule config context segments).or
        (evaluateRule rule config context segments)).getD (selectLater later config context segments) := by
  unfold selectLater
  rw [List.findSome?_append, List.findSome?_cons]
  cases earlier.findSome? fun rule => evaluateRule rule config context segments with
  | some result => rfl
  | none =>
    cases evaluateRule rule config context segments with
    | some result => rfl
    | none => rfl

section Rollout

variable (config : Config ℚ) (context : Option EvaluationContext) (segments : Option Segments)
  (before after : List (Rule ℚ)) (rule : PercentageRule ℚ) (head tail : List (Percentage ℚ))
  (bucket : Percentage ℚ) (d : ℚ)

/-- The value a config with the rule selects, by the rules that come earlier and later. -/
theorem getConfigValue_rollout {buckets : List (Percentage ℚ)} {earlier later : List (Rule ℚ)}
    (h : sortedRules (config.withRollout before after rule buckets).target.rules =
      earlier ++ .percentage { rule with percentages := buckets } :: later) :
    getConfigValue (config.withRollout before after rule buckets) context segments =
      ((earlier.findSome? fun r => evaluateRule r config context segments).or
        (evaluateRule (.percentage { rule with percentages := buckets }) config context segments)).getD
        (selectLater later config context segments) := by
  have hrule : ∀ r, evaluateRule r (config.withRollout before after rule buckets) context segments =
      evaluateRule r config context segments := fun r => evaluateRule_id r rfl context segments
  rw [getConfigValue_eq, h, selectLater_split]
  simp only [selectLater, hrule]
  rfl

/-- When bucket `i` grows by `d` at the expense of the one after it, the contexts outside
`[S, S + d)` keep their value and value id, `S` being the old end of bucket `i`. Inside, and when no
rule that comes earlier matches, a context moves to bucket `i` from the one after it, or from none. -/
theorem rollout_sticky (hd : 0 < d) (hold : ∀ b ∈ head ++ bucket :: tail, 0 ≤ b.percentage)
    (hnew : ∀ b ∈ head ++ bucket.grow d :: shrinkHead d tail, 0 ≤ b.percentage) :
    let old := config.withRollout before after rule (head ++ bucket :: tail)
    let new := config.withRollout before after rule (head ++ bucket.grow d :: shrinkHead d tail)
    let low := share head + bucket.percentage
    (¬ AssignedWithin config context low (low + d) →
      evaluate new context segments = evaluate old context segments) ∧
    ∃ earlier later,
      sortedRules old.target.rules =
        earlier ++ .percentage { rule with percentages := head ++ bucket :: tail } :: later ∧
      sortedRules new.target.rules =
        earlier ++ .percentage { rule with percentages := head ++ bucket.grow d :: shrinkHead d tail } :: later ∧
      (AssignedWithin config context low (low + d) →
        (∀ r ∈ earlier, evaluateRule r config context segments = none) →
        getConfigValue old context segments =
          ((tail.head?).bind Percentage.result).getD (selectLater later config context segments) ∧
        getConfigValue new context segments =
          bucket.result.getD (selectLater later config context segments)) := by
  intro old new low
  rw [List.forall_mem_append, List.forall_mem_cons] at hold hnew
  obtain ⟨earlier, later, hsortedOld, hsortedNew⟩ := insertionSort_replace (Rule.sortKey (α := ℚ)) before after
    (x := .percentage { rule with percentages := head ++ bucket :: tail })
    (y := .percentage { rule with percentages := head ++ bucket.grow d :: shrinkHead d tail }) rfl
  have hvalueOld := getConfigValue_rollout config context segments before after rule hsortedOld
  have hvalueNew := getConfigValue_rollout config context segments before after rule hsortedNew
  rw [evaluateRule_percentage] at hvalueOld hvalueNew
  refine ⟨fun houtside => ?_, earlier, later, hsortedOld, hsortedNew, ?_⟩
  · have hsame : getConfigValue new context segments = getConfigValue old context segments := by
      rw [hvalueOld, hvalueNew]
      cases hassigned : assignedPercentage config context with
      | error e => rfl
      | ok assigned =>
        have hnot : ¬ (low ≤ assigned ∧ assigned < low + d) := fun h => houtside ⟨assigned, hassigned, h⟩
        simp only [selectBucket_outside hd hold.1 (assignedPercentage_nonneg hassigned) hnot]
    simp only [evaluate, hsame]
    rfl
  · rintro ⟨assigned, hassigned, hle, hlt⟩ hearlier
    have hnone : (earlier.findSome? fun r => evaluateRule r config context segments) = none :=
      List.findSome?_eq_none_iff.2 hearlier
    rw [hvalueOld, hvalueNew, hnone, hassigned]
    constructor
    · simp only [selectBucket_inside_old hold.1 hold.2.1 hnew.2.2 hle hlt, Option.none_or]
    · simp only [selectBucket_inside_new hold.1 hold.2.1 hle hlt, Option.none_or, Option.bind_some,
        Percentage.grow_result]

/-- A context without identifier is at 0%: it moves to the first bucket when that gets its first 10%. -/
theorem rollout_sticky_first :
    let config : Config ℚ := ⟨lit "id", lit "key", .str (lit "string"), ⟨lit "off", [], none⟩, [], none⟩
    let first : Percentage ℚ := ⟨lit "1", 0, some (.str (lit "new")), none⟩
    let second : Percentage ℚ := ⟨lit "2", 100, some (.str (lit "old")), none⟩
    let old := config.withRollout [] [] ⟨lit "rule", none, []⟩ [first, second]
    let new := config.withRollout [] [] ⟨lit "rule", none, []⟩ [first.grow 10, second.grow (-10)]
    getConfigValue old none none = (lit "old", none) ∧ getConfigValue new none none = (lit "new", none) := by
  intro config first second old new
  obtain ⟨-, earlier, later, hsorted, -, hmove⟩ := rollout_sticky config none none [] [] ⟨lit "rule", none, []⟩
    [] [second] first 10 (by norm_num) (by simp [first, second])
    (by simp [first, second, Percentage.grow, shrinkHead]; norm_num)
  have hlength : 1 = earlier.length + (later.length + 1) := by
    have := congrArg List.length hsorted
    rw [List.length_append, List.length_cons] at this
    exact this
  have hearlier : earlier = [] := List.eq_nil_of_length_eq_zero (by omega)
  subst hearlier
  exact hmove ⟨0, rfl, by simp [share, first], by simp [share, first]⟩ (by simp)

end Rollout

end ConfigDirector.Evaluation
