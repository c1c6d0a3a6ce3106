/-
What an evaluation reads of its context: the fields that the conditions of its rules name, those that the segments
they refer to name, and the identifier and the kind where a rule has percentages. Two contexts that agree on these
are served alike, whatever else they hold.
-/
import ConfigDirector.Evaluation.Evaluator
import ConfigDirector.Python.Splitting

namespace ConfigDirector.Evaluation

open Python

/-! ## The fields of a context -/

/-- A part of a context or of the metadata; of the traits, one by its key. -/
inductive ContextField
  | identifier
  | name
  | kind
  | appName
  | appVersion
  | trait (key : Text)
deriving DecidableEq

/-- Two contexts have the same under a field. -/
def ContextField.Same (context context' : Option EvaluationContext) : ContextField → Prop
  | identifier => (contextOf context).id = (contextOf context').id
  | name => (contextOf context).name = (contextOf context').name
  | kind => effectiveKind (some (contextOf context)) = effectiveKind (some (contextOf context'))
  | appName => (metadataOf context).appName = (metadataOf context').appName
  | appVersion => (metadataOf context).appVersion = (metadataOf context').appVersion
  | trait key => ((contextOf context).traits.bind (·.lookup key)) = (contextOf context').traits.bind (·.lookup key)

/-- The trait that a pointer starts from, unless it finds nothing in any context. -/
def traitKey? : Text → Option Text
  | [] => none
  | c :: rest => if c = 0x2F then (splitOn 0x2F rest).head?.map unescape else none

/-- The field that a condition reads, if it reads any. -/
def AttributeCondition.field? (condition : AttributeCondition) : Option ContextField :=
  if condition.attributeName = lit "identifier" then some .identifier
  else if condition.attributeName = lit "name" then some .name
  else if condition.attributeName = lit "kind" then some .kind
  else if condition.attributeName = lit "appName" then some .appName
  else if condition.attributeName = lit "appVersion" then some .appVersion
  else if condition.attributeName = lit "traits" then (condition.trait.bind traitKey?).map .trait
  else none

def Segment.fields (segment : Segment) : List ContextField :=
  segment.groups.flatMap fun group => group.filterMap AttributeCondition.field?

/-- The fields that a condition reads, with what is known about segments. -/
def Condition.fields (segments : Option Segments) : Condition → List ContextField
  | .ofAttribute c => c.field?.toList
  | .ofSegment c => (((segments.getD ∅).get? c.segmentId).map Segment.fields).getD []

variable {α : Type}

/-- The fields that a rule reads; one of an unknown wire type is passed over. -/
def Rule.fields (segments : Option Segments) : Rule α → List ContextField
  | .percentage _ => [.identifier, .kind]
  | .conditional r =>
    if r.type = lit "conditional" then
      r.conditions.flatMap (Condition.fields segments) ++
        if r.target = lit "percentage" then [.identifier, .kind] else []
    else []

def Config.fields (config : Config α) (segments : Option Segments) : List ContextField :=
  config.target.rules.flatMap (Rule.fields segments)

/-! ## Conditions -/

section
variable {context context' : Option EvaluationContext}

theorem traits_lookup (c : Context) (token : Text) :
    pointerStep (Context.traitsValue c) token = .ok (c.traits.bind (·.lookup token)) := by
  unfold Context.traitsValue
  cases c.traits <;> rfl

/-- A pointer reads the trait it starts from only. -/
theorem findByPointer_same (trait : Text) {c c' : Context}
    (h : ∀ key, traitKey? trait = some key → c.traits.bind (·.lookup key) = c'.traits.bind (·.lookup key)) :
    findByPointer trait (Context.traitsValue c) = findByPointer trait (Context.traitsValue c') := by
  cases trait with
  | nil => rfl
  | cons first rest =>
    by_cases hslash : first = 0x2F
    · rw [findByPointer, findByPointer, if_pos hslash, if_pos hslash]
      rw [traitKey?, if_pos hslash] at h
      cases hsplit : splitOn 0x2F rest with
      | nil => exact absurd hsplit (splitOn_ne_nil _ _)
      | cons token tokens =>
        have hkey : c.traits.bind (·.lookup (unescape token)) = c'.traits.bind (·.lookup (unescape token)) :=
          h (unescape token) (by rw [hsplit]; rfl)
        rw [pointerWalk, pointerWalk, traits_lookup, traits_lookup, hkey]
    · rw [findByPointer, findByPointer, if_neg hslash, if_neg hslash]

theorem resolve_same {condition : AttributeCondition} (h : ∀ field ∈ condition.field?, field.Same context context') :
    resolve condition context = resolve condition context' := by
  unfold AttributeCondition.field? at h
  unfold resolve
  dsimp only
  split_ifs at h ⊢ with hid hname hkind happName happVersion htraits
  · rw [show (contextOf context).id = (contextOf context').id from h _ rfl]
  · rw [show (contextOf context).name = (contextOf context').name from h _ rfl]
  · rw [show effectiveKind (some (contextOf context)) = effectiveKind (some (contextOf context')) from h _ rfl]
  · rw [show (metadataOf context).appName = (metadataOf context').appName from h _ rfl]
  · rw [show (metadataOf context).appVersion = (metadataOf context').appVersion from h _ rfl]
  · cases htrait : condition.trait with
    | none => rfl
    | some trait =>
      rw [htrait, Option.bind_some] at h
      have hfind := findByPointer_same trait fun key hkey => h (.trait key) (by rw [hkey]; rfl)
      simp only [hfind]
  · rfl

theorem evaluateCondition_same {condition : AttributeCondition}
    (h : ∀ field ∈ condition.field?, field.Same context context') :
    evaluateCondition condition context = evaluateCondition condition context' := by
  unfold evaluateCondition
  rw [resolve_same h]

theorem inSegment_same {segment : Segment} (h : ∀ field ∈ segment.fields, field.Same context context') :
    inSegment segment context = inSegment segment context' := by
  unfold inSegment
  have hgroups : ∀ group ∈ segment.groups, (group.allM fun condition => evaluateCondition condition context) =
      group.allM fun condition => evaluateCondition condition context' := by
    intro group hgroup
    refine allM_congr fun condition hcondition => evaluateCondition_same fun field hfield => h field ?_
    exact List.mem_flatMap.2 ⟨group, hgroup, List.mem_filterMap.2 ⟨condition, hcondition, hfield⟩⟩
  -- `anyM` stops at the first group that holds
  generalize segment.groups = groups at hgroups
  induction groups with
  | nil => rfl
  | cons group groups ih =>
    rw [List.forall_mem_cons] at hgroups
    rw [List.anyM, List.anyM, hgroups.1, ih hgroups.2]

theorem conditionHolds_same {segments : Option Segments} {condition : Condition}
    (h : ∀ field ∈ condition.fields segments, field.Same context context') :
    conditionHolds condition context segments = conditionHolds condition context' segments := by
  cases condition with
  | ofAttribute c =>
    rw [Condition.fields] at h
    exact evaluateCondition_same fun field hfield => h field (Option.mem_toList.2 hfield)
  | ofSegment c =>
    rw [Condition.fields] at h
    cases hsegment : (segments.getD ∅).get? c.segmentId with
    | none => simp only [conditionHolds, evaluateSegmentCondition, hsegment]
    | some segment =>
      rw [hsegment, Option.map_some, Option.getD_some] at h
      simp only [conditionHolds, evaluateSegmentCondition, hsegment, inSegment_same h]

/-! ## Rules -/

variable [PercentageArith α] {config : Config α} {segments : Option Segments}

theorem assignedPercentage_same (hid : ContextField.Same context context' .identifier)
    (hkind : ContextField.Same context context' .kind) :
    assignedPercentage config context = assignedPercentage config context' := by
  have hsupplied : ∀ c : Option EvaluationContext,
      (c.bind EvaluationContext.context).bind Context.id = (contextOf c).id ∧
      effectiveKind (c.bind EvaluationContext.context) = effectiveKind (some (contextOf c)) := by
    intro c
    unfold contextOf
    cases c.bind EvaluationContext.context with
    | none => exact ⟨rfl, rfl⟩
    | some c => exact ⟨rfl, rfl⟩
  unfold assignedPercentage
  simp only [hsupplied, show (contextOf context).id = (contextOf context').id from hid,
    show effectiveKind (some (contextOf context)) = effectiveKind (some (contextOf context')) from hkind]

theorem evaluateRule_same {rule : Rule α} (h : ∀ field ∈ rule.fields segments, field.Same context context') :
    evaluateRule rule config context segments = evaluateRule rule config context' segments := by
  cases rule with
  | percentage r =>
    have hassigned : assignedPercentage config context = assignedPercentage config context' :=
      assignedPercentage_same (h .identifier (by simp [Rule.fields])) (h .kind (by simp [Rule.fields]))
    simp only [evaluateRule, tryRule, evaluatePercentage, hassigned]
  | conditional r =>
    rw [Rule.fields] at h
    by_cases htype : r.type = lit "conditional"
    · rw [if_pos htype, List.forall_mem_append] at h
      have hconditions : (r.conditions.allM fun c => conditionHolds c context segments) =
          r.conditions.allM fun c => conditionHolds c context' segments :=
        allM_congr fun c hc => conditionHolds_same fun field hfield => h.1 field (List.mem_flatMap.2 ⟨c, hc, hfield⟩)
      by_cases htarget : r.target = lit "percentage"
      · have hassigned : assignedPercentage config context = assignedPercentage config context' := by
          rw [if_pos htarget] at h
          exact assignedPercentage_same (h.2 .identifier (by simp)) (h.2 .kind (by simp))
        simp only [evaluateRule, tryRule, evaluateConditionalRule, evaluatePercentage, hconditions, hassigned]
      · simp only [evaluateRule, tryRule, evaluateConditionalRule, hconditions, htarget, if_false]
    · simp only [evaluateRule, tryRule, htype, if_false]

/-- Two contexts that agree on the fields a config reads are served alike. -/
theorem evaluate_same (h : ∀ field ∈ config.fields segments, field.Same context context') :
    evaluate config context segments = evaluate config context' segments := by
  have hrules : ∀ rule ∈ sortedRules config.target.rules,
      evaluateRule rule config context segments = evaluateRule rule config context' segments := by
    intro rule hrule
    refine evaluateRule_same fun field hfield => h field ?_
    exact List.mem_flatMap.2 ⟨rule, (List.mem_insertionSort _).1 hrule, hfield⟩
  unfold evaluate getConfigValue
  rw [findSome?_congr hrules]

end

end ConfigDirector.Evaluation
