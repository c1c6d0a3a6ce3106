/-
Rules of a kind this version does not know. The evaluator skips them wherever they stand, but the
parser reads them as it reads a conditional rule before it gets there, so they have to be readable as
one.
-/
import ConfigDirector.Bundle.Isolation
import ConfigDirector.Evaluation.FirstMatch

namespace ConfigDirector.Bundle

open Python Evaluation

variable [Unicode]

/-! ## Readable rules -/

/-- The object has each of the fields. -/
def HasFields (raw : PyValue) (fields : List Text) : Prop := ∀ field ∈ fields, ∃ v, raw.subscript field = .ok v

/-- What the field holds, or nothing if that is falsy, can be gone through, and every item is such. -/
def ItemsAre (P : PyValue → Prop) (raw : PyValue) (field : Text) : Prop :=
  ∃ items, itemsOf raw field = .ok items ∧ ∀ item ∈ items, P item

/-- A bucket with an id and a percentage that `float` takes. -/
def ReadableBucket (raw : PyValue) : Prop :=
  HasFields raw [lit "id"] ∧
    ∃ percentage x, raw.subscript (lit "percentage") = .ok percentage ∧ percentage.toFloat = .ok x

/-- A condition of a known kind, `attribute` where it names none, with the fields of that kind. -/
def ReadableCondition (raw : PyValue) : Prop :=
  ∃ kind, raw.getD (lit "kind") (.str (lit "attribute")) = .ok kind ∧
    (kind.toText = lit "attribute" ∧ HasFields raw [lit "id", lit "attribute", lit "operator", lit "targetType"] ∧
        ItemsAre (fun _ => True) raw (lit "targetValues") ∨
      kind.toText = lit "segment" ∧ HasFields raw [lit "id", lit "operator", lit "segmentId"])

/-- What a rule of an unknown kind needs to be read: an id, an order that is no infinity and no NaN, and
readable buckets and conditions. -/
structure ReadableRule (raw : PyValue) : Prop where
  id : HasFields raw [lit "id"]
  order : ∀ x, raw.get (lit "order") = .ok (.float x) → ∃ y, x = .finite y
  buckets : ItemsAre ReadableBucket raw (lit "percentages")
  conditions : ItemsAre ReadableCondition raw (lit "conditions")

omit [Unicode] in
theorem isJson_of_itemsOf {raw : PyValue} (h : raw.IsJson) {field : Text} {items : List PyValue}
    (hitems : itemsOf raw field = .ok items) : ∀ item ∈ items, item.IsJson := by
  obtain ⟨v, hv, hiter⟩ := bind_eq_ok_iff.1 hitems
  have hjson : v.orEmpty.IsJson := by
    unfold PyValue.orEmpty
    split
    · exact isJson_of_get h hv
    · exact trivial
  intro item hitem
  cases hor : v.orEmpty with
  | list items' =>
    rw [hor] at hiter hjson
    cases hiter
    rw [PyValue.IsJson, PyValue.isJsonList_iff] at hjson
    exact hjson item hitem
  | dict entries =>
    rw [hor] at hiter
    cases hiter
    obtain ⟨p, -, rfl⟩ := List.mem_map.1 hitem
    exact trivial
  | str s =>
    rw [hor] at hiter
    cases hiter
    obtain ⟨c, -, rfl⟩ := List.mem_map.1 hitem
    exact trivial
  | _ =>
    rw [hor] at hiter
    cases hiter

omit [Unicode] in
theorem parseItems_readable_iff {β : Type} {parse : PyValue → Except Exc β} {P : PyValue → Prop} {raw : PyValue}
    (hraw : raw.IsJson) (field : Text) (h : ∀ v : PyValue, v.IsJson → ((∃ b, parse v = .ok b) ↔ P v)) :
    (∃ bs, parseItems raw field parse = .ok bs) ↔ ItemsAre P raw field := by
  rw [parseItems_ok_iff]
  refine exists_congr fun items => and_congr_right fun hitems => forall₂_congr fun item hitem => ?_
  exact h item (isJson_of_itemsOf hraw hitems item hitem)

omit [Unicode] in
theorem ruleValue_ok {v : PyValue} (h : v.IsJson) : ∃ b, ruleValue v = .ok b := by
  cases v with
  | list items =>
    obtain ⟨t, ht⟩ := jsonDumps_ok h
    exact ⟨_, bind_eq_ok_iff.2 ⟨t, ht, rfl⟩⟩
  | dict entries =>
    obtain ⟨t, ht⟩ := jsonDumps_ok h
    exact ⟨_, bind_eq_ok_iff.2 ⟨t, ht, rfl⟩⟩
  | other text => exact h.elim
  | _ => exact ⟨_, rfl⟩

omit [Unicode] in
/-- A value field that is there to get can be read. -/
theorem ruleValueField_ok {β : Type} {raw : PyValue} (hraw : raw.IsJson) {field : Text} {v : PyValue}
    {rest : RuleValue → Except Exc β} {p : Prop} (hv : raw.get field = .ok v)
    (h : ∀ value, (∃ b, rest value = .ok b) ↔ p) :
    (∃ b, (raw.get field >>= fun v => ruleValue v >>= rest) = .ok b) ↔ p := by
  rw [hv, ok_bind, exists_bind_eq_ok h]
  exact and_iff_right (ruleValue_ok (isJson_of_get hraw hv))

theorem textFields_iff (raw : PyValue) (field : Text) : (∃ t, textField raw field = .ok t) ↔ HasFields raw [field] := by
  rw [textField_ok_iff]
  simp [HasFields]

theorem parsePercentage_ok_iff {raw : PyValue} (hraw : raw.IsJson) :
    (∃ b, parsePercentage raw = .ok b) ↔ ReadableBucket raw := by
  unfold parsePercentage ReadableBucket
  rw [exists_bind_eq_ok
    (p := ∃ percentage x, raw.subscript (lit "percentage") = .ok percentage ∧ percentage.toFloat = .ok x), textFields_iff]
  intro id
  constructor
  · rintro ⟨b, h⟩
    obtain ⟨percentage, hpercentage, h⟩ := bind_eq_ok_iff.1 h
    obtain ⟨x, hx, -⟩ := bind_eq_ok_iff.1 h
    exact ⟨percentage, x, hpercentage, hx⟩
  · rintro ⟨percentage, x, hpercentage, hx⟩
    rw [hpercentage, ok_bind, hx, ok_bind]
    cases raw with
    | dict entries => exact (ruleValueField_ok hraw rfl fun value => iff_true_intro ⟨_, rfl⟩).2 trivial
    | _ => cases hpercentage

/-- Reading text fields one after another. -/
theorem textFields_cons {β : Type} (raw : PyValue) (field : Text) (fields : List Text)
    {rest : Text → Except Exc β} {p : Prop} (h : ∀ t, (∃ b, rest t = .ok b) ↔ HasFields raw fields ∧ p) :
    (∃ b, (textField raw field >>= rest) = .ok b) ↔ HasFields raw (field :: fields) ∧ p := by
  rw [exists_bind_eq_ok h, textField_ok_iff, ← and_assoc]
  unfold HasFields
  rw [List.forall_mem_cons]

omit [Unicode] in
theorem hasFields_nil (raw : PyValue) : HasFields raw [] ↔ True := by simp [HasFields]

/-- What is read of an attribute condition once its kind is known. -/
theorem attributeFields_ok_iff {raw kind : PyValue} (hraw : raw.IsJson)
    (hkind : raw.getD (lit "kind") (.str (lit "attribute")) = .ok kind) (hattribute : kind.toText = lit "attribute") :
    (∃ b, parseAttributeCondition raw = .ok b) ↔
      HasFields raw [lit "id", lit "attribute", lit "operator", lit "targetType"] ∧
        ItemsAre (fun _ => True) raw (lit "targetValues") := by
  have hconditionKind : conditionKind raw = .ok (lit "attribute") := by
    rw [conditionKind, hkind, ← hattribute]
    rfl
  unfold parseAttributeCondition
  rw [hconditionKind, ok_bind, if_neg (not_not.2 rfl)]
  refine textFields_cons raw _ _ fun id => textFields_cons raw _ _ fun attributeName => ?_
  refine textFields_cons raw _ _ fun operator => textFields_cons raw _ _ fun targetType => ?_
  rw [hasFields_nil, true_and, ← parseItems_readable_iff hraw _ fun v hv => iff_true_intro (asString_ok hv)]
  refine (exists_bind_eq_ok (p := True) fun targetValues => iff_true_intro ?_).trans (and_iff_left trivial)
  cases raw with
  | dict entries => exact ⟨_, rfl⟩
  | _ => cases hkind

theorem parseCondition_ok_iff {raw : PyValue} (hraw : raw.IsJson) :
    (∃ b, parseCondition raw = .ok b) ↔ ReadableCondition raw := by
  unfold ReadableCondition
  cases hkind : raw.getD (lit "kind") (.str (lit "attribute")) with
  | error e =>
    have hraise : parseCondition raw = .error e := by
      unfold parseCondition conditionKind
      rw [hkind]
      rfl
    simp [hraise]
  | ok kind =>
    have hconditionKind : conditionKind raw = .ok kind.toText := by
      rw [conditionKind, hkind]
      rfl
    simp only [Except.ok.injEq, exists_eq_left']
    unfold parseCondition
    rw [hconditionKind, ok_bind]
    by_cases hattribute : kind.toText = lit "attribute"
    · have hsegment : kind.toText ≠ lit "segment" := by
        rw [hattribute]
        decide
      rw [if_pos hattribute, exists_bind_pure_eq_ok, attributeFields_ok_iff hraw hkind hattribute]
      simp only [hattribute, true_and, (hattribute ▸ hsegment : lit "attribute" ≠ lit "segment"), false_and, or_false]
    · rw [if_neg hattribute]
      by_cases hsegment : kind.toText = lit "segment"
      · rw [if_pos hsegment]
        rw [iff_false_intro hattribute, false_and, false_or, and_iff_right hsegment, ← and_true (HasFields raw _)]
        refine textFields_cons raw _ _ fun id => textFields_cons raw _ _ fun operator => ?_
        refine textFields_cons raw _ _ fun segmentId => ?_
        exact iff_of_true ⟨_, rfl⟩ ⟨(hasFields_nil raw).2 trivial, trivial⟩
      · rw [if_neg hsegment]
        simp [hattribute, hsegment]

omit [Unicode] in
theorem optionalInt_ok_iff (v : PyValue) : (∃ n, optionalInt v = .ok n) ↔ ∀ x, v = .float x → ∃ y, x = .finite y := by
  cases v with
  | float x => cases x <;> simp [optionalInt, PyFloat.toInt, bind, Except.bind, pure, Except.pure]
  | _ => simp [optionalInt]

/-- A rule of any kind but `percentage` is read as far as what it needs goes. -/
theorem parseConditionalRule_ok_iff {raw kind : PyValue} (hraw : raw.IsJson) (percentages : List (Percentage PyFloat))
    {entries : List (Text × PyValue)} (hentries : raw = .dict entries) :
    (∃ r, parseConditionalRule raw kind percentages = .ok r) ↔
      HasFields raw [lit "id"] ∧ (∀ x, raw.get (lit "order") = .ok (.float x) → ∃ y, x = .finite y) ∧
        ItemsAre ReadableCondition raw (lit "conditions") := by
  have hget : ∀ field, ∃ v, raw.get field = .ok v := fun field => by
    rw [hentries]
    exact ⟨_, rfl⟩
  unfold parseConditionalRule
  refine textFields_cons raw _ _ fun id => ?_
  rw [hasFields_nil, true_and]
  obtain ⟨order, horder⟩ := hget (lit "order")
  obtain ⟨value, hvalue⟩ := hget (lit "value")
  rw [horder, ok_bind, exists_bind_eq_ok (p := ItemsAre ReadableCondition raw (lit "conditions")), optionalInt_ok_iff]
  · simp only [Except.ok.injEq]
  · intro n
    refine ruleValueField_ok hraw hvalue fun v => ?_
    rw [← parseItems_readable_iff hraw _ fun v hv => parseCondition_ok_iff hv]
    refine (exists_bind_eq_ok (p := True) fun conditions => iff_true_intro ?_).trans (and_iff_left trivial)
    subst hentries
    exact ⟨_, rfl⟩

/-- A rule of a kind this version does not know is read exactly when it is readable. -/
theorem parseRule_ok_iff {entries : List (Text × PyValue)} (hjson : (PyValue.dict entries).IsJson) {kind : Text}
    (hkind : entries.lookup (lit "type") = some (.str kind)) (hne : kind ≠ lit "percentage") :
    (∃ r, parseRule (.dict entries) = .ok r) ↔ ReadableRule (.dict entries) := by
  have htype : (PyValue.dict entries).get (lit "type") = .ok (.str kind) := by
    rw [PyValue.get, PyValue.getD, hkind]
    rfl
  unfold parseRule
  rw [htype, ok_bind]
  simp only [isPercentageKind, hne, decide_false, Bool.false_eq_true, if_false]
  rw [exists_bind_eq_ok fun percentages => parseConditionalRule_ok_iff hjson percentages rfl,
    parseItems_readable_iff hjson _ fun v hv => parsePercentage_ok_iff hv]
  constructor
  · rintro ⟨hbuckets, hid, horder, hconditions⟩
    exact ⟨hid, horder, hbuckets, hconditions⟩
  · rintro ⟨hid, horder, hbuckets, hconditions⟩
    exact ⟨hbuckets, hid, horder, hconditions⟩

/-! ## Inserting a rule -/

omit [Unicode] in
theorem get_setEntries (entries : List (Text × PyValue)) (key field : Text) (v : PyValue) :
    (PyValue.dict (Dict.setEntries key v entries)).get field =
      if field = key then .ok v else (PyValue.dict entries).get field := by
  rw [PyValue.get, PyValue.getD, Dict.lookup_setEntries]
  split <;> rfl

omit [Unicode] in
theorem subscript_setEntries (entries : List (Text × PyValue)) (key field : Text) (v : PyValue) :
    (PyValue.dict (Dict.setEntries key v entries)).subscript field =
      if field = key then .ok v else (PyValue.dict entries).subscript field := by
  rw [PyValue.subscript, Dict.lookup_setEntries]
  by_cases h : field = key
  · rw [if_pos h, if_pos h]
  · rw [if_neg h, if_neg h]
    rfl

/-- A rule of a kind this version does not know, to be inserted into the rules of a config. -/
structure Insertion (d : Document) (key : Text) where
  definition : List (Text × PyValue)
  target : List (Text × PyValue)
  before : List PyValue
  after : List PyValue
  rule : List (Text × PyValue)
  kind : Text
  definition_eq : d.configs.lookup key = some (.dict definition)
  target_eq : definition.lookup (lit "target") = some (.dict target)
  rules_eq : itemsOf (.dict target) (lit "rules") = .ok (before ++ after)
  json : (PyValue.dict rule).IsJson
  kind_eq : rule.lookup (lit "type") = some (.str kind)
  not_percentage : kind ≠ lit "percentage"
  not_conditional : kind ≠ lit "conditional"

namespace Insertion

variable {d : Document} {key : Text} (ins : Insertion d key)

def newTarget : PyValue :=
  .dict (Dict.setEntries (lit "rules") (.list (ins.before ++ .dict ins.rule :: ins.after)) ins.target)

def newDefinition : PyValue := .dict (Dict.setEntries (lit "target") ins.newTarget ins.definition)

omit [Unicode] in
theorem definition_json : (PyValue.dict ins.definition).IsJson := isJson_of_lookup d.configs_json ins.definition_eq

omit [Unicode] in
theorem newDefinition_json : ins.newDefinition.IsJson := by
  have htarget : (PyValue.dict ins.target).IsJson := isJson_of_lookup ins.definition_json ins.target_eq
  have hitems := isJson_of_itemsOf htarget ins.rules_eq
  refine isJson_setEntries ins.definition_json _ (isJson_setEntries htarget _ ?_)
  rw [PyValue.IsJson, PyValue.isJsonList_iff]
  intro v hv
  rcases List.mem_append.1 hv with hv | hv
  · exact hitems v (List.mem_append_left _ hv)
  · rcases List.mem_cons.1 hv with rfl | hv
    · exact ins.json
    · exact hitems v (List.mem_append_right _ hv)

/-- The document with the rule inserted. -/
def document : Document := d.setConfig key ins.newDefinition ins.newDefinition_json

omit [Unicode] in
theorem itemsOf_newTarget :
    itemsOf ins.newTarget (lit "rules") = .ok (ins.before ++ .dict ins.rule :: ins.after) := by
  unfold itemsOf newTarget
  rw [get_setEntries, if_pos rfl, ok_bind]
  unfold PyValue.orEmpty PyValue.truthy
  rw [if_pos (by simp)]
  rfl

/-- The rules are read with the inserted one in its place. -/
theorem parseTarget_newTarget {target : TargetingRules PyFloat} (h : parseTarget (.dict ins.target) = .ok target)
    {rule : Rule PyFloat} (hrule : parseRule (.dict ins.rule) = .ok rule) :
    ∃ before after, target.rules = before ++ after ∧
      parseTarget ins.newTarget = .ok { target with rules := before ++ rule :: after } := by
  obtain ⟨raw, hraw, h⟩ := bind_eq_ok_iff.1 h
  obtain ⟨defaultValue, hdefault, h⟩ := bind_eq_ok_iff.1 h
  obtain ⟨rules, hrules, h⟩ := bind_eq_ok_iff.1 h
  obtain ⟨rawId, hid, h⟩ := bind_eq_ok_iff.1 h
  cases h
  rw [parseItems_eq, ins.rules_eq, ok_bind, List.mapM_append] at hrules
  obtain ⟨before, hbefore, hrules⟩ := bind_eq_ok_iff.1 hrules
  obtain ⟨after, hafter, hrules⟩ := bind_eq_ok_iff.1 hrules
  cases hrules
  refine ⟨before, after, rfl, ?_⟩
  have hget : ∀ field, field ≠ lit "rules" → ins.newTarget.get field = (PyValue.dict ins.target).get field :=
    fun field hne => by rw [newTarget, get_setEntries, if_neg hne]
  unfold parseTarget
  rw [hget _ (by decide), hraw, ok_bind, hdefault, ok_bind, parseItems_eq, ins.itemsOf_newTarget, ok_bind,
    List.mapM_append, hbefore, ok_bind, List.mapM_cons, hrule, ok_bind, hafter, hget _ (by decide), hid]
  rfl

/-- Without the inserted rule being read the config is not. -/
theorem readable_of_parseConfig {config : Config PyFloat} (h : parseConfig ins.newDefinition = .ok config) :
    ∃ rule, parseRule (.dict ins.rule) = .ok rule := by
  obtain ⟨target, htarget, h⟩ := bind_eq_ok_iff.1 h
  obtain ⟨_, _, h⟩ := bind_eq_ok_iff.1 h
  obtain ⟨_, _, h⟩ := bind_eq_ok_iff.1 h
  obtain ⟨_, _, h⟩ := bind_eq_ok_iff.1 h
  obtain ⟨target', htarget', -⟩ := bind_eq_ok_iff.1 h
  rw [newDefinition, subscript_setEntries, if_pos rfl] at htarget
  cases htarget
  obtain ⟨_, _, h⟩ := bind_eq_ok_iff.1 htarget'
  obtain ⟨_, _, h⟩ := bind_eq_ok_iff.1 h
  obtain ⟨rules, hrules, -⟩ := bind_eq_ok_iff.1 h
  rw [parseItems_eq, ins.itemsOf_newTarget, ok_bind] at hrules
  exact mapM_ok_iff.1 ⟨rules, hrules⟩ _ (by simp)

/-- A config is read with the inserted rule in its place. -/
theorem parseConfig_newDefinition {config : Config PyFloat} (h : parseConfig (.dict ins.definition) = .ok config)
    {rule : Rule PyFloat} (hrule : parseRule (.dict ins.rule) = .ok rule) :
    ∃ before after, config.target.rules = before ++ after ∧
      parseConfig ins.newDefinition = .ok (config.withRules (before ++ rule :: after)) := by
  obtain ⟨rawTarget, hrawTarget, h⟩ := bind_eq_ok_iff.1 h
  obtain ⟨id, hid, h⟩ := bind_eq_ok_iff.1 h
  obtain ⟨k, hk, h⟩ := bind_eq_ok_iff.1 h
  obtain ⟨type, htype, h⟩ := bind_eq_ok_iff.1 h
  obtain ⟨target, htarget, h⟩ := bind_eq_ok_iff.1 h
  obtain ⟨variations, hvariations, h⟩ := bind_eq_ok_iff.1 h
  obtain ⟨rawConstraints, hrawConstraints, h⟩ := bind_eq_ok_iff.1 h
  obtain ⟨constraints, hconstraints, h⟩ := bind_eq_ok_iff.1 h
  cases h
  rw [PyValue.subscript, ins.target_eq] at hrawTarget
  cases hrawTarget
  obtain ⟨before, after, hrules, hnew⟩ := ins.parseTarget_newTarget htarget hrule
  refine ⟨before, after, hrules, ?_⟩
  have hsubscript : ∀ field, field ≠ lit "target" →
      ins.newDefinition.subscript field = (PyValue.dict ins.definition).subscript field :=
    fun field hne => by rw [newDefinition, subscript_setEntries, if_neg hne]
  have hget : ∀ field, field ≠ lit "target" → ins.newDefinition.get field = (PyValue.dict ins.definition).get field :=
    fun field hne => by rw [newDefinition, get_setEntries, if_neg hne]
  have htextField : ∀ field, field ≠ lit "target" →
      textField ins.newDefinition field = textField (.dict ins.definition) field :=
    fun field hne => by rw [textField, textField, hsubscript field hne]
  have hvariations' : parseItems ins.newDefinition (lit "variations") parseVariation = .ok variations := by
    rw [← hvariations, parseItems, parseItems, hget _ (by decide)]
  have htarget' : ins.newDefinition.subscript (lit "target") = .ok ins.newTarget := by
    rw [newDefinition, subscript_setEntries, if_pos rfl]
  unfold parseConfig
  rw [htarget', ok_bind, htextField _ (by decide), hid, ok_bind, htextField _ (by decide), hk, ok_bind,
    hsubscript _ (by decide), htype, ok_bind, hnew, ok_bind, hvariations', ok_bind, hget _ (by decide), hrawConstraints,
    ok_bind, hconstraints, ok_bind]
  rfl

/-- The rule that is read keeps its kind. -/
theorem type_of_parseRule {rule : Rule PyFloat} (hrule : parseRule (.dict ins.rule) = .ok rule) :
    ∃ r, rule = .conditional r ∧ r.type = ins.kind := by
  obtain ⟨kind, hkind, h⟩ := bind_eq_ok_iff.1 hrule
  rw [PyValue.get, PyValue.getD, ins.kind_eq] at hkind
  cases hkind
  obtain ⟨percentages, _, h⟩ := bind_eq_ok_iff.1 h
  have hpercentage : isPercentageKind (.str ins.kind) = false := decide_eq_false ins.not_percentage
  simp only [Option.getD_some, hpercentage, Bool.false_eq_true, if_false] at h
  obtain ⟨id, _, h⟩ := bind_eq_ok_iff.1 h
  obtain ⟨_, _, h⟩ := bind_eq_ok_iff.1 h
  obtain ⟨order, _, h⟩ := bind_eq_ok_iff.1 h
  obtain ⟨_, _, h⟩ := bind_eq_ok_iff.1 h
  obtain ⟨value, _, h⟩ := bind_eq_ok_iff.1 h
  obtain ⟨conditions, _, h⟩ := bind_eq_ok_iff.1 h
  obtain ⟨_, _, h⟩ := bind_eq_ok_iff.1 h
  obtain ⟨_, _, h⟩ := bind_eq_ok_iff.1 h
  cases h
  exact ⟨_, rfl, rfl⟩

/-- So it never matches. -/
theorem evaluateRule_none {rule : Rule PyFloat} (hrule : parseRule (.dict ins.rule) = .ok rule) (config : Config PyFloat)
    (context : Option EvaluationContext) (segments : Option Segments) :
    evaluateRule rule config context segments = none := by
  obtain ⟨r, rfl, htype⟩ := ins.type_of_parseRule hrule
  have hne : r.type ≠ lit "conditional" := by
    rw [htype]
    exact ins.not_conditional
  unfold evaluateRule tryRule
  simp only [if_neg hne]

/-- The config is still read, and evaluates for every context to the value and the id it had. -/
def Skipped (config : Config PyFloat) : Prop :=
  ∃ b' config', parse ins.document = .ok b' ∧ b'.configs.get? key = some config' ∧ ∀ context segments,
    (evaluate config' context segments).value = (evaluate config context segments).value ∧
      (evaluate config' context segments).valueId = (evaluate config context segments).valueId

/-- The inserted definition is read when the config is. -/
theorem parse_document {b : ConfigBundle} (hb : parse d = .ok b) {config : Config PyFloat}
    (hconfig : parseConfig ins.newDefinition = .ok config) :
    ∃ b', parse ins.document = .ok b' ∧ b'.configs.get? key = some config := by
  have hfits : Fits d.configs ∧ ¬ Overflows ins.newDefinition := by
    refine ⟨(parse_ok_iff d).1 ⟨b, hb⟩, fun h => ?_⟩
    rw [(parseConfig_overflow_iff ins.newDefinition_json).2 h] at hconfig
    cases hconfig
  obtain ⟨b', hb'⟩ := (parse_ok_iff ins.document).2 ((fits_setConfig_iff d ins.newDefinition_json).2 hfits).2
  refine ⟨b', hb', ?_⟩
  rw [(parse_result hb').1]
  show (List.lookup key (Dict.setEntries key ins.newDefinition d.configs)).bind _ = _
  rw [Dict.lookup_setEntries, if_pos rfl, Option.bind_some, hconfig]
  rfl

/-- A rule of an unknown kind is skipped exactly when it can be read as a conditional rule. -/
theorem skipped_iff {b : ConfigBundle} (hb : parse d = .ok b) {config : Config PyFloat}
    (hconfig : b.configs.get? key = some config) : ins.Skipped config ↔ ReadableRule (.dict ins.rule) := by
  rw [← parseRule_ok_iff ins.json ins.kind_eq ins.not_percentage]
  constructor
  · rintro ⟨b', config', hb', hconfig', -⟩
    rw [(parse_result hb').1] at hconfig'
    have hlookup : ins.document.configs.lookup key = some ins.newDefinition := by
      show List.lookup key (Dict.setEntries key ins.newDefinition d.configs) = _
      rw [Dict.lookup_setEntries, if_pos rfl]
    rw [hlookup, Option.bind_some, toOption_eq_some_iff] at hconfig'
    exact ins.readable_of_parseConfig hconfig'
  · rintro ⟨rule, hrule⟩
    rw [(parse_result hb).1, ins.definition_eq, Option.bind_some, toOption_eq_some_iff] at hconfig
    obtain ⟨before, after, hrules, hnew⟩ := ins.parseConfig_newDefinition hconfig hrule
    obtain ⟨b', hb', hconfig'⟩ := ins.parse_document hb hnew
    refine ⟨b', _, hb', hconfig', fun context segments => ?_⟩
    have hsame := evaluate_withRules_remove config context segments before after
      (ins.evaluateRule_none hrule config context segments)
    rw [hsame, ← hrules]
    exact ⟨rfl, rfl⟩

end Insertion

/-! ## A condition of an unknown kind -/

def plainConfig : PyValue := .dict
  [(lit "id", .str (lit "1")), (lit "key", .str (lit "k")), (lit "type", .str (lit "string")),
    (lit "target", .dict [(lit "defaultValue", .str (lit "a"))])]

def plainDocument : Document where
  entries := [(lit "configs", .dict [(lit "k", plainConfig)])]
  configs := [(lit "k", plainConfig)]
  json := by simp [PyValue.IsJson, PyValue.IsJsonEntries, plainConfig]; decide
  configs_eq := rfl

/-- `{"id": "r", "type": "from-the-future", "conditions": conditions}`, inserted as the only rule. -/
def futureRule (conditions : List PyValue) (h : PyValue.IsJsonList conditions) : Insertion plainDocument (lit "k") where
  definition := [(lit "id", .str (lit "1")), (lit "key", .str (lit "k")), (lit "type", .str (lit "string")),
    (lit "target", .dict [(lit "defaultValue", .str (lit "a"))])]
  target := [(lit "defaultValue", .str (lit "a"))]
  before := []
  after := []
  rule := [(lit "id", .str (lit "r")), (lit "type", .str (lit "from-the-future")), (lit "conditions", .list conditions)]
  kind := lit "from-the-future"
  definition_eq := rfl
  target_eq := rfl
  rules_eq := rfl
  json := by simp [PyValue.IsJson, PyValue.IsJsonEntries, h]; decide
  kind_eq := rfl
  not_percentage := by decide
  not_conditional := by decide

theorem readableRule_futureRule : ReadableRule (.dict (futureRule [] trivial).rule) where
  id := fun field h => by
    rw [List.mem_singleton.1 h]
    exact ⟨_, rfl⟩
  order := fun x h => by cases h
  buckets := ⟨[], rfl, fun item h => absurd h List.not_mem_nil⟩
  conditions := ⟨[], rfl, fun item h => absurd h List.not_mem_nil⟩

omit [Unicode] in
/-- Without conditions it is read and skipped. -/
theorem skipped_iff_futureRule : ∃ (_ : Unicode) (b : ConfigBundle) (config : Config PyFloat),
    parse plainDocument = .ok b ∧ b.configs.get? (lit "k") = some config ∧ (futureRule [] trivial).Skipped config := by
  let _ : Unicode := .ascii
  exact ⟨.ascii, _, _, rfl, rfl, ((futureRule [] trivial).skipped_iff rfl rfl).2 readableRule_futureRule⟩

omit [Unicode] in
/-- A condition of a kind from the future costs the config its definition. -/
theorem not_skipped : ¬ ∀ (_ : Unicode) (d : Document) (b : ConfigBundle) (key : Text) (config : Config PyFloat),
    parse d = .ok b → b.configs.get? key = some config → ∀ ins : Insertion d key, ins.Skipped config := by
  intro h
  let _ : Unicode := .ascii
  have hjson : PyValue.IsJsonList [.dict [(lit "kind", .str (lit "geo"))]] := by
    simp [PyValue.IsJson, PyValue.IsJsonList, PyValue.IsJsonEntries]
  obtain ⟨b', config', hb', hconfig', -⟩ := h .ascii plainDocument _ (lit "k") _ rfl rfl (futureRule _ hjson)
  have hraised : parseConfig (futureRule _ hjson).newDefinition = .error .valueError := rfl
  have hget : b'.configs.get? (lit "k") = (parseConfig (futureRule _ hjson).newDefinition).toOption :=
    (parse_result hb').1 _
  rw [hget, hraised] at hconfig'
  cases hconfig'

end ConfigDirector.Bundle
