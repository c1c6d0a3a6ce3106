/-
Bundles as documents. A bundle is written field by field, and the parser reads it back as it was; the bundles that
can be written so are the ones that the parser makes of any document at all.
-/
import ConfigDirector.Bundle.FutureRules
import ConfigDirector.Python.JsonObjects

namespace ConfigDirector.Bundle

open Python Evaluation

/-! ## Writing -/

/-- A text or `null`. -/
def writeOptional : Option Text → PyValue
  | some s => .str s
  | none => .none

def writeScalar : Scalar → PyValue
  | .str s => .str s
  | .int n => .int n
  | .float x => .float x
  | .bool b => .bool b

def writeRuleValue : RuleValue → PyValue
  | some scalar => writeScalar scalar
  | none => .none

def writeOrder : Option ℤ → PyValue
  | some n => .int n
  | none => .none

def writeTexts (texts : List Text) : PyValue := .list (texts.map .str)

def writeAttributeCondition (c : AttributeCondition) : PyValue :=
  .dict [
    (lit "kind", .str (lit "attribute")),
    (lit "id", .str c.id),
    (lit "attribute", .str c.attributeName),
    (lit "operator", .str c.operator),
    (lit "targetType", .str c.targetType),
    (lit "targetValues", writeTexts c.targetValues),
    (lit "trait", writeOptional c.trait)]

def writeCondition : Condition → PyValue
  | .ofAttribute c => writeAttributeCondition c
  | .ofSegment c =>
    .dict [
      (lit "kind", .str (lit "segment")),
      (lit "id", .str c.id),
      (lit "operator", .str c.operator),
      (lit "segmentId", .str c.segmentId)]

def writeSegment (s : Segment) : PyValue :=
  .dict [(lit "groups", .list (s.groups.map fun group => .list (group.map writeAttributeCondition)))]

def writePercentage (p : Percentage PyFloat) : PyValue :=
  .dict [
    (lit "id", .str p.id),
    (lit "percentage", .float p.percentage),
    (lit "value", writeRuleValue p.value),
    (lit "valueId", writeOptional p.valueId)]

def writeRule : Rule PyFloat → PyValue
  | .percentage r =>
    .dict [
      (lit "type", .str (lit "percentage")),
      (lit "id", .str r.id),
      (lit "order", writeOrder r.order),
      (lit "percentages", .list (r.percentages.map writePercentage))]
  | .conditional r =>
    .dict [
      (lit "type", .str r.type),
      (lit "id", .str r.id),
      (lit "order", writeOrder r.order),
      (lit "percentages", .list (r.percentages.map writePercentage)),
      (lit "value", writeRuleValue r.value),
      (lit "conditions", .list (r.conditions.map writeCondition)),
      (lit "target", .str r.target),
      (lit "valueId", writeOptional r.valueId)]

def writeVariation (v : Variation) : PyValue :=
  .dict [(lit "value", writeScalar v.value), (lit "name", writeOptional v.name)]

def writeTypeConstraints : Option TypeConstraints → PyValue
  | some (.enum isNumber values) =>
    .dict [(lit "valueType", .str (if isNumber then lit "number" else lit "string")), (lit "values", writeTexts values)]
  | some (.numeric min max) => .dict [(lit "min", min), (lit "max", max)]
  | none => .none

def writeTarget (target : TargetingRules PyFloat) : PyValue :=
  .dict [
    (lit "defaultValue", .str target.defaultValue),
    (lit "rules", .list (target.rules.map writeRule)),
    (lit "defaultValueId", writeOptional target.defaultValueId)]

def writeConfig (c : Config PyFloat) : PyValue :=
  .dict [
    (lit "id", .str c.id),
    (lit "key", .str c.key),
    (lit "type", c.type),
    (lit "target", writeTarget c.target),
    (lit "variations", .list (c.variations.map writeVariation)),
    (lit "typeConstraints", writeTypeConstraints c.typeConstraints)]

def writeKind : BundleKind → PyValue
  | .full => .str (lit "full")
  | .delta => .str (lit "delta")

/-- The configs of a bundle; a key that is unreadable has no definition. -/
def writeConfigs (b : ConfigBundle) : List (Text × PyValue) :=
  (b.configs.entries.map fun p => (p.1, writeConfig p.2)) ++ b.unreadableKeys.map fun key => (key, .none)

def writeBundle (b : ConfigBundle) : PyValue :=
  .dict [
    (lit "configs", .dict (writeConfigs b)),
    (lit "segments", .dict (b.segments.entries.map fun p => (p.1, writeSegment p.2))),
    (lit "kind", writeKind b.kind),
    (lit "environmentId", writeOptional b.environmentId),
    (lit "projectId", writeOptional b.projectId),
    (lit "timestamp", writeOptional b.timestamp)]

/-! ## What is read -/

/-- Any other rule kind is carried as a conditional rule, and an empty target is taken as `value`. -/
def WellFormedRule : Rule PyFloat → Prop
  | .conditional r => r.type ≠ lit "percentage" ∧ r.target ≠ []
  | .percentage _ => True

structure WellFormedConfig (c : Config PyFloat) : Prop where
  type : c.type.IsJson
  rules : ∀ rule ∈ c.target.rules, WellFormedRule rule
  constraints : ∀ min max, c.typeConstraints = some (.numeric min max) → min.IsJson ∧ max.IsJson

structure WellFormedBundle (b : ConfigBundle) : Prop where
  configs : ∀ p ∈ b.configs.entries, WellFormedConfig p.2
  unreadable : b.unreadableKeys.Nodup
  disjoint : b.Disjoint

/-! ## Reading back -/

@[simp] theorem optionalString_writeOptional (s : Option Text) : optionalString (writeOptional s) = s := by
  cases s <;> rfl

@[simp] theorem ruleValue_writeRuleValue (v : RuleValue) : ruleValue (writeRuleValue v) = .ok v := by
  rcases v with _ | _ | _ | _ | _ <;> rfl

@[simp] theorem optionalInt_writeOrder (order : Option ℤ) : optionalInt (writeOrder order) = .ok order := by
  cases order <;> rfl

@[simp] theorem variationValue_writeScalar (scalar : Scalar) : variationValue (writeScalar scalar) = .ok scalar := by
  cases scalar <;> rfl

theorem mapM_map {β : Type} {parse : PyValue → Except Exc β} {write : β → PyValue} {l : List β}
    (h : ∀ b ∈ l, parse (write b) = .ok b) : (l.map write).mapM parse = .ok l := by
  induction l with
  | nil => rfl
  | cons b l ih =>
    rw [List.forall_mem_cons] at h
    rw [List.map_cons, List.mapM_cons, h.1, ih h.2]
    rfl

/-- The items that are written under a field. -/
theorem parseItems_written {β : Type} {parse : PyValue → Except Exc β} {write : β → PyValue} {l : List β} {raw : PyValue}
    {field : Text} (hraw : raw.get field = .ok (.list (l.map write))) (h : ∀ b ∈ l, parse (write b) = .ok b) :
    parseItems raw field parse = .ok l := by
  have hempty : (PyValue.list (l.map write)).orEmpty = .list (l.map write) := by
    cases l <;> rfl
  rw [parseItems, hraw, ok_bind, hempty, PyValue.iter, ok_bind]
  exact mapM_map h

theorem parseItems_texts {texts : List Text} {raw : PyValue} {field : Text} (hraw : raw.get field = .ok (writeTexts texts)) :
    parseItems raw field asString = .ok texts := parseItems_written hraw fun _ _ => rfl

section
variable [Unicode]

theorem parseAttributeCondition_written (c : AttributeCondition) :
    parseAttributeCondition (writeAttributeCondition c) = .ok c := by
  have htexts : parseItems (writeAttributeCondition c) (lit "targetValues") asString = .ok c.targetValues :=
    parseItems_texts rfl
  have htrait : (writeAttributeCondition c).get (lit "trait") = .ok (writeOptional c.trait) := rfl
  have hkind : conditionKind (writeAttributeCondition c) = .ok (lit "attribute") := rfl
  have hid : textField (writeAttributeCondition c) (lit "id") = .ok c.id := rfl
  have hattribute : textField (writeAttributeCondition c) (lit "attribute") = .ok c.attributeName := rfl
  have hoperator : textField (writeAttributeCondition c) (lit "operator") = .ok c.operator := rfl
  have htargetType : textField (writeAttributeCondition c) (lit "targetType") = .ok c.targetType := rfl
  unfold parseAttributeCondition
  simp only [hkind, htexts, htrait, hid, hattribute, hoperator, htargetType, ok_bind, optionalString_writeOptional,
    ne_eq, not_true_eq_false, if_false]
  rfl

theorem parseCondition_written (c : Condition) : parseCondition (writeCondition c) = .ok c := by
  cases c with
  | ofAttribute c =>
    have hkind : conditionKind (writeCondition (.ofAttribute c)) = .ok (lit "attribute") := rfl
    unfold parseCondition
    simp only [hkind, ok_bind, if_true]
    rw [writeCondition, parseAttributeCondition_written]
    rfl
  | ofSegment c =>
    have hkind : conditionKind (writeCondition (.ofSegment c)) = .ok (lit "segment") := rfl
    have hid : textField (writeCondition (.ofSegment c)) (lit "id") = .ok c.id := rfl
    have hoperator : textField (writeCondition (.ofSegment c)) (lit "operator") = .ok c.operator := rfl
    have hsegmentId : textField (writeCondition (.ofSegment c)) (lit "segmentId") = .ok c.segmentId := rfl
    have hother : lit "segment" ≠ lit "attribute" := by decide
    unfold parseCondition
    simp only [hkind, hid, hoperator, hsegmentId, ok_bind, hother, if_false, if_true]
    rfl

theorem parseSegment_written (s : Segment) : parseSegment (writeSegment s) = .ok s := by
  have hgroups : (writeSegment s).subscript (lit "groups") =
      .ok (.list (s.groups.map fun group => .list (group.map writeAttributeCondition))) := rfl
  have hread : (s.groups.map fun group => PyValue.list (group.map writeAttributeCondition)).mapM
      (fun group => do (← group.iter).mapM parseAttributeCondition) = .ok s.groups := by
    refine mapM_map fun group _ => ?_
    rw [PyValue.iter, ok_bind]
    exact mapM_map fun c _ => parseAttributeCondition_written c
  unfold parseSegment
  rw [hgroups, ok_bind, PyValue.iter, ok_bind, hread]
  rfl

theorem parsePercentage_written (p : Percentage PyFloat) : parsePercentage (writePercentage p) = .ok p := by
  have hid : textField (writePercentage p) (lit "id") = .ok p.id := rfl
  have hpercentage : (writePercentage p).subscript (lit "percentage") = .ok (.float p.percentage) := rfl
  have hfloat : (PyValue.float p.percentage).toFloat = .ok p.percentage := rfl
  have hvalue : (writePercentage p).get (lit "value") = .ok (writeRuleValue p.value) := rfl
  have hvalueId : (writePercentage p).get (lit "valueId") = .ok (writeOptional p.valueId) := rfl
  unfold parsePercentage
  simp only [hid, hpercentage, hfloat, hvalue, hvalueId, ok_bind, ruleValue_writeRuleValue, optionalString_writeOptional]
  rfl

theorem parseRule_written {rule : Rule PyFloat} (h : WellFormedRule rule) : parseRule (writeRule rule) = .ok rule := by
  cases rule with
  | percentage r =>
    have hkind : (writeRule (.percentage r)).get (lit "type") = .ok (.str (lit "percentage")) := rfl
    have hpercentages : parseItems (writeRule (.percentage r)) (lit "percentages") parsePercentage = .ok r.percentages :=
      parseItems_written rfl fun p _ => parsePercentage_written p
    have hid : textField (writeRule (.percentage r)) (lit "id") = .ok r.id := rfl
    have horder : (writeRule (.percentage r)).get (lit "order") = .ok (writeOrder r.order) := rfl
    unfold parseRule parsePercentageRule
    simp only [hkind, hpercentages, hid, horder, ok_bind, optionalInt_writeOrder, isPercentageKind, decide_true, if_true]
    rfl
  | conditional r =>
    obtain ⟨htype, htarget⟩ := h
    have hkind : (writeRule (.conditional r)).get (lit "type") = .ok (.str r.type) := rfl
    have hpercentages : parseItems (writeRule (.conditional r)) (lit "percentages") parsePercentage = .ok r.percentages :=
      parseItems_written rfl fun p _ => parsePercentage_written p
    have hid : textField (writeRule (.conditional r)) (lit "id") = .ok r.id := rfl
    have horder : (writeRule (.conditional r)).get (lit "order") = .ok (writeOrder r.order) := rfl
    have hvalue : (writeRule (.conditional r)).get (lit "value") = .ok (writeRuleValue r.value) := rfl
    have hconditions : parseItems (writeRule (.conditional r)) (lit "conditions") parseCondition = .ok r.conditions :=
      parseItems_written rfl fun c _ => parseCondition_written c
    have hget : (writeRule (.conditional r)).get (lit "target") = .ok (.str r.target) := rfl
    have htruthy : (PyValue.str r.target).truthy = true := by
      rw [PyValue.truthy, Bool.not_eq_true', List.isEmpty_eq_false_iff]
      exact htarget
    have hvalueId : (writeRule (.conditional r)).get (lit "valueId") = .ok (writeOptional r.valueId) := rfl
    unfold parseRule parseConditionalRule
    simp only [hkind, hpercentages, hid, horder, hvalue, hconditions, hget, hvalueId, ok_bind, optionalInt_writeOrder,
      ruleValue_writeRuleValue, optionalString_writeOptional, isPercentageKind, htype, decide_false, Bool.false_eq_true,
      if_false, htruthy, if_true]
    rfl

omit [Unicode] in
theorem parseVariation_written (v : Variation) : parseVariation (writeVariation v) = .ok v := by
  have hvalue : (writeVariation v).get (lit "value") = .ok (writeScalar v.value) := rfl
  have hname : (writeVariation v).get (lit "name") = .ok (writeOptional v.name) := rfl
  unfold parseVariation
  simp only [hvalue, hname, ok_bind, variationValue_writeScalar, optionalString_writeOptional]
  rfl

omit [Unicode] in
theorem parseTypeConstraints_written (c : Option TypeConstraints) :
    parseTypeConstraints (writeTypeConstraints c) = .ok c := by
  match c with
  | none => rfl
  | some (.numeric min max) => rfl
  | some (.enum isNumber values) =>
    have hvalues : parseItems (writeTypeConstraints (some (.enum isNumber values))) (lit "values") asString = .ok values :=
      parseItems_texts rfl
    have hnumber : isNumberType (.str (if isNumber then lit "number" else lit "string")) = isNumber := by
      cases isNumber <;> rfl
    rw [writeTypeConstraints] at hvalues ⊢
    have hlookup : ([(lit "valueType", .str (if isNumber then lit "number" else lit "string")),
        (lit "values", writeTexts values)] : List (Text × PyValue)).lookup (lit "valueType") =
        some (.str (if isNumber then lit "number" else lit "string")) := rfl
    rw [parseTypeConstraints, hlookup]
    simp only [hvalues, hnumber, ok_bind]
    rfl

theorem parseTarget_written {target : TargetingRules PyFloat} (h : ∀ rule ∈ target.rules, WellFormedRule rule) :
    parseTarget (writeTarget target) = .ok target := by
  have hdefault : (writeTarget target).get (lit "defaultValue") = .ok (.str target.defaultValue) := rfl
  have hrules : parseItems (writeTarget target) (lit "rules") parseRule = .ok target.rules :=
    parseItems_written rfl fun rule hrule => parseRule_written (h rule hrule)
  have hid : (writeTarget target).get (lit "defaultValueId") = .ok (writeOptional target.defaultValueId) := rfl
  unfold parseTarget
  simp only [hdefault, hrules, hid, ok_bind, asString, optionalString_writeOptional]
  rfl

theorem parseConfig_written {c : Config PyFloat} (h : WellFormedConfig c) : parseConfig (writeConfig c) = .ok c := by
  have htarget : (writeConfig c).subscript (lit "target") = .ok (writeTarget c.target) := rfl
  have hid : textField (writeConfig c) (lit "id") = .ok c.id := rfl
  have hkey : textField (writeConfig c) (lit "key") = .ok c.key := rfl
  have htype : (writeConfig c).subscript (lit "type") = .ok c.type := rfl
  have hvariations : parseItems (writeConfig c) (lit "variations") parseVariation = .ok c.variations :=
    parseItems_written rfl fun v _ => parseVariation_written v
  have hconstraints : (writeConfig c).get (lit "typeConstraints") = .ok (writeTypeConstraints c.typeConstraints) := rfl
  unfold parseConfig
  simp only [htarget, hid, hkey, htype, hvariations, hconstraints, ok_bind, parseTarget_written h.rules,
    parseTypeConstraints_written]
  rfl

/-! ## The entries of a bundle -/

section
variable {β : Type} {parse : PyValue → Except Exc β} {write : β → PyValue}

omit [Unicode] in
theorem readEntries_written (rest : List (Text × PyValue)) {items : List (Text × β)}
    (h : ∀ p ∈ items, parse (write p.2) = .ok p.2) (read : Dict Text β) (unreadable : List Text) :
    readEntries parse (items.map (fun p => (p.1, write p.2)) ++ rest) (read, unreadable) =
      readEntries parse rest (items.foldl (fun d p => d.set p.1 p.2) read, unreadable) := by
  induction items generalizing read with
  | nil => rfl
  | cons p items ih =>
    rw [List.forall_mem_cons] at h
    rw [List.map_cons, List.cons_append, readEntries, h.1]
    exact ih h.2 _

omit [Unicode] in
theorem readEntries_unreadable {v : PyValue} {e : Exc} (hparse : parse v = .error e) (he : isUnreadable e = true)
    (keys : List Text) (read : Dict Text β) (unreadable : List Text) :
    readEntries parse (keys.map fun key => (key, v)) (read, unreadable) = .ok (read, unreadable ++ keys) := by
  induction keys generalizing unreadable with
  | nil => rw [List.append_nil]; rfl
  | cons key keys ih =>
    rw [List.map_cons, readEntries, hparse]
    simp only [he, if_true]
    rw [ih, List.append_assoc, List.singleton_append]

omit [Unicode] in
theorem foldl_set_entries (d : Dict Text β) : d.entries.foldl (fun d p => d.set p.1 p.2) ∅ = d := by
  obtain ⟨entries, hnodup⟩ := d
  have hentries := Dict.entries_foldl_set hnodup
  generalize entries.foldl (fun d p => d.set p.1 p.2) (∅ : Dict Text β) = d at hentries
  obtain ⟨entries', hnodup'⟩ := d
  obtain rfl : entries' = entries := hentries
  rfl

end

theorem parseConfigs_written {b : ConfigBundle} (h : ∀ p ∈ b.configs.entries, WellFormedConfig p.2) :
    parseConfigs (writeConfigs b) = .ok (b.configs, b.unreadableKeys) := by
  have hnone : parseConfig .none = .error .typeError := rfl
  rw [parseConfigs, writeConfigs, readEntries_written _ fun p hp => parseConfig_written (h p hp), foldl_set_entries,
    readEntries_unreadable hnone rfl, List.nil_append]

theorem parseSegments_written (segments : Segments) :
    parseSegments (.dict (segments.entries.map fun p => (p.1, writeSegment p.2))) = .ok segments := by
  have hread := readEntries_written [] (fun p (_ : p ∈ segments.entries) => parseSegment_written p.2) ∅ []
  rw [List.append_nil, foldl_set_entries] at hread
  rw [parseSegments, hread]
  rfl

theorem parseDocument_fields {entries raw : List (Text × PyValue)} {b : ConfigBundle}
    (hraw : fieldOf entries (lit "configs") = .dict raw) (hconfigs : parseConfigs raw = .ok (b.configs, b.unreadableKeys))
    (hsegments : parseSegments (fieldOf entries (lit "segments")) = .ok b.segments)
    (hkind : (if isDelta (fieldOf entries (lit "kind")) then BundleKind.delta else .full) = b.kind)
    (henvironmentId : optionalString (fieldOf entries (lit "environmentId")) = b.environmentId)
    (hprojectId : optionalString (fieldOf entries (lit "projectId")) = b.projectId)
    (htimestamp : optionalString (fieldOf entries (lit "timestamp")) = b.timestamp) :
    parseDocument (.dict entries) = .ok b := by
  unfold parseDocument
  simp only [hraw, hconfigs, hsegments, hkind, henvironmentId, hprojectId, htimestamp]
  rfl

/-- A bundle that is written is read as it was. -/
theorem parseDocument_written {b : ConfigBundle} (h : ∀ p ∈ b.configs.entries, WellFormedConfig p.2) :
    parseDocument (writeBundle b) = .ok b := by
  have hkind : (if isDelta (writeKind b.kind) then BundleKind.delta else .full) = b.kind := by
    cases b.kind <;> rfl
  exact parseDocument_fields rfl (parseConfigs_written h) (parseSegments_written b.segments) hkind
    (optionalString_writeOptional b.environmentId) (optionalString_writeOptional b.projectId)
    (optionalString_writeOptional b.timestamp)

/-! ## What is written is JSON -/

omit [Unicode] in
theorem isJson_writeOptional (s : Option Text) : (writeOptional s).IsJson := by
  cases s <;> trivial

omit [Unicode] in
theorem isJson_writeRuleValue (v : RuleValue) : (writeRuleValue v).IsJson := by
  rcases v with _ | _ | _ | _ | _ <;> trivial

omit [Unicode] in
theorem isJson_writeScalar (scalar : Scalar) : (writeScalar scalar).IsJson := isJson_writeRuleValue (some scalar)

omit [Unicode] in
theorem isJson_writeOrder (order : Option ℤ) : (writeOrder order).IsJson := by
  cases order <;> trivial

omit [Unicode] in
theorem isJson_writeTexts (texts : List Text) : (writeTexts texts).IsJson := isJson_listOf fun _ _ => trivial

omit [Unicode] in
theorem isJson_dict {entries : List (Text × PyValue)} (hnodup : (entries.map Prod.fst).Nodup)
    (h : ∀ p ∈ entries, p.2.IsJson) : (PyValue.dict entries).IsJson := by
  rw [PyValue.IsJson, PyValue.isJsonEntries_iff]
  exact ⟨hnodup, h⟩

omit [Unicode] in
theorem isJson_writeAttributeCondition (c : AttributeCondition) : (writeAttributeCondition c).IsJson := by
  have hkeys : [lit "kind", lit "id", lit "attribute", lit "operator", lit "targetType", lit "targetValues", lit "trait"].Nodup := by decide
  refine isJson_dict hkeys ?_
  simp only [List.forall_mem_cons]
  exact ⟨trivial, trivial, trivial, trivial, trivial, isJson_writeTexts _, isJson_writeOptional _, nofun⟩

omit [Unicode] in
theorem isJson_writeCondition (c : Condition) : (writeCondition c).IsJson := by
  cases c with
  | ofAttribute c => exact isJson_writeAttributeCondition c
  | ofSegment c =>
    have hkeys : [lit "kind", lit "id", lit "operator", lit "segmentId"].Nodup := by decide
    refine isJson_dict hkeys ?_
    simp only [List.forall_mem_cons]
    exact ⟨trivial, trivial, trivial, trivial, nofun⟩

omit [Unicode] in
theorem isJson_writeSegment (s : Segment) : (writeSegment s).IsJson := by
  refine isJson_dict (List.nodup_singleton (lit "groups")) ?_
  simp only [List.forall_mem_cons]
  exact ⟨isJson_listOf fun group _ => isJson_listOf fun c _ => isJson_writeAttributeCondition c, nofun⟩

omit [Unicode] in
theorem isJson_writePercentage (p : Percentage PyFloat) : (writePercentage p).IsJson := by
  have hkeys : [lit "id", lit "percentage", lit "value", lit "valueId"].Nodup := by decide
  refine isJson_dict hkeys ?_
  simp only [List.forall_mem_cons]
  exact ⟨trivial, trivial, isJson_writeRuleValue _, isJson_writeOptional _, nofun⟩

omit [Unicode] in
theorem isJson_writeRule (rule : Rule PyFloat) : (writeRule rule).IsJson := by
  cases rule with
  | percentage r =>
    have hkeys : [lit "type", lit "id", lit "order", lit "percentages"].Nodup := by decide
    refine isJson_dict hkeys ?_
    simp only [List.forall_mem_cons]
    exact ⟨trivial, trivial, isJson_writeOrder _, isJson_listOf fun p _ => isJson_writePercentage p, nofun⟩
  | conditional r =>
    have hkeys : [lit "type", lit "id", lit "order", lit "percentages", lit "value", lit "conditions", lit "target", lit "valueId"].Nodup := by decide
    refine isJson_dict hkeys ?_
    simp only [List.forall_mem_cons]
    exact ⟨trivial, trivial, isJson_writeOrder _, isJson_listOf fun p _ => isJson_writePercentage p,
      isJson_writeRuleValue _, isJson_listOf fun c _ => isJson_writeCondition c, trivial, isJson_writeOptional _, nofun⟩

omit [Unicode] in
theorem isJson_writeTypeConstraints {c : Option TypeConstraints}
    (h : ∀ min max, c = some (.numeric min max) → min.IsJson ∧ max.IsJson) : (writeTypeConstraints c).IsJson := by
  match c with
  | none => trivial
  | some (.numeric min max) =>
    obtain ⟨hmin, hmax⟩ := h min max rfl
    have hkeys : [lit "min", lit "max"].Nodup := by decide
    refine isJson_dict hkeys ?_
    simp only [List.forall_mem_cons]
    exact ⟨hmin, hmax, nofun⟩
  | some (.enum isNumber values) =>
    have hkeys : [lit "valueType", lit "values"].Nodup := by decide
    refine isJson_dict hkeys ?_
    simp only [List.forall_mem_cons]
    exact ⟨trivial, isJson_writeTexts _, nofun⟩

omit [Unicode] in
theorem isJson_writeConfig {c : Config PyFloat} (h : WellFormedConfig c) : (writeConfig c).IsJson := by
  have htarget : (writeTarget c.target).IsJson := by
    have hkeys : [lit "defaultValue", lit "rules", lit "defaultValueId"].Nodup := by decide
    refine isJson_dict hkeys ?_
    simp only [List.forall_mem_cons]
    exact ⟨trivial, isJson_listOf fun rule _ => isJson_writeRule rule, isJson_writeOptional _, nofun⟩
  have hvariations : (PyValue.list (c.variations.map writeVariation)).IsJson := by
    have hkeys : [lit "value", lit "name"].Nodup := by decide
    refine isJson_listOf fun v _ => isJson_dict hkeys ?_
    simp only [List.forall_mem_cons]
    exact ⟨isJson_writeScalar _, isJson_writeOptional _, nofun⟩
  have hkeys : [lit "id", lit "key", lit "type", lit "target", lit "variations", lit "typeConstraints"].Nodup := by decide
  refine isJson_dict hkeys ?_
  simp only [List.forall_mem_cons]
  exact ⟨trivial, trivial, h.type, htarget, hvariations, isJson_writeTypeConstraints h.constraints, nofun⟩

omit [Unicode] in
theorem isJson_writeBundle {b : ConfigBundle} (h : WellFormedBundle b) : (writeBundle b).IsJson := by
  have hconfigs : (PyValue.dict (writeConfigs b)).IsJson := by
    have hkeys : (writeConfigs b).map Prod.fst = b.configs.keys ++ b.unreadableKeys := by
      rw [writeConfigs, List.map_append, List.map_map, List.map_map]
      exact congrArg (b.configs.keys ++ ·) (List.map_id _)
    refine isJson_dict ?_ ?_
    · rw [hkeys, List.nodup_append]
      refine ⟨b.configs.keys_nodup, h.unreadable, ?_⟩
      rintro key hkey _ hunreadable rfl
      rw [Dict.mem_keys, h.disjoint key hunreadable] at hkey
      cases hkey
    · rw [writeConfigs, List.forall_mem_append, List.forall_mem_map, List.forall_mem_map]
      exact ⟨fun p hp => isJson_writeConfig (h.configs p hp), fun _ _ => trivial⟩
  have hsegments : (PyValue.dict (b.segments.entries.map fun p => (p.1, writeSegment p.2))).IsJson := by
    refine isJson_dict ?_ ?_
    · rw [List.map_map]
      exact b.segments.nodup
    · rw [List.forall_mem_map]
      exact fun p _ => isJson_writeSegment p.2
  have hkind : (writeKind b.kind).IsJson := by
    cases b.kind <;> trivial
  have hkeys : [lit "configs", lit "segments", lit "kind", lit "environmentId", lit "projectId", lit "timestamp"].Nodup := by decide
  refine isJson_dict hkeys ?_
  simp only [List.forall_mem_cons]
  exact ⟨hconfigs, hsegments, hkind, isJson_writeOptional _, isJson_writeOptional _, isJson_writeOptional _, nofun⟩

/-! ## What is read is well formed -/

omit [Unicode] in
/-- A number starts with its sign or with a digit. -/
theorem head_signed (neg : Bool) {digits : Text} (h : ∃ c rest, digits = c :: rest ∧ c.isAsciiDigit = true) :
    ∃ c rest, signText neg ++ digits = c :: rest ∧ c ≠ 0x70 := by
  obtain ⟨c, rest, rfl, hc⟩ := h
  cases neg with
  | true => exact ⟨_, _, rfl, by decide⟩
  | false =>
    refine ⟨c, rest, rfl, ?_⟩
    rintro rfl
    exact absurd hc (by decide)

/-- The text of a value that is none itself is not empty, and does not start like `percentage`. -/
theorem head_toText {v : PyValue} (hjson : v.IsJson) (hstr : ∀ s, v ≠ .str s) :
    ∃ c rest, v.toText = c :: rest ∧ c ≠ 0x70 := by
  cases v with
  | none => exact ⟨_, _, rfl, by decide⟩
  | bool b => cases b <;> exact ⟨_, _, rfl, by decide⟩
  | int n =>
    show ∃ c rest, intText n = c :: rest ∧ _
    rw [intText_sign]
    obtain ⟨c, rest, hdigits, hc⟩ := natText_head n.natAbs []
    rw [List.append_nil] at hdigits
    exact head_signed _ ⟨c, rest, hdigits, hc⟩
  | float x =>
    cases x with
    | nan => exact ⟨_, _, rfl, by decide⟩
    | inf neg => cases neg <;> exact ⟨_, _, rfl, by decide⟩
    | finite x =>
      obtain ⟨whole, fraction, exponent, htext, hwritten⟩ := floatRepr_notation x
      show ∃ c rest, (PyFloat.finite x).repr = c :: rest ∧ _
      rw [htext]
      exact head_signed _ (hwritten.isWhole.head _)
  | str s => exact absurd rfl (hstr s)
  | list items => exact ⟨_, _, rfl, by decide⟩
  | dict entries => exact ⟨_, _, rfl, by decide⟩
  | other text => exact hjson.elim

theorem toText_ne_percentage {v : PyValue} (hjson : v.IsJson) (h : isPercentageKind v = false) :
    v.toText ≠ lit "percentage" := by
  by_cases hstr : ∃ s, v = .str s
  · obtain ⟨s, rfl⟩ := hstr
    exact of_decide_eq_false h
  · obtain ⟨c, rest, htext, hc⟩ := head_toText hjson (not_exists.1 hstr)
    rw [htext]
    exact fun heq => hc (List.cons.inj heq).1

theorem toText_ne_nil {v : PyValue} (hjson : v.IsJson) (h : v.truthy = true) : v.toText ≠ [] := by
  by_cases hstr : ∃ s, v = .str s
  · obtain ⟨s, rfl⟩ := hstr
    rintro hnil
    rw [PyValue.truthy, show s = [] from hnil] at h
    cases h
  · obtain ⟨c, rest, htext, -⟩ := head_toText hjson (not_exists.1 hstr)
    rw [htext]
    exact List.cons_ne_nil _ _

theorem wellFormed_parseRule {raw : PyValue} {rule : Rule PyFloat} (hjson : raw.IsJson) (h : parseRule raw = .ok rule) :
    WellFormedRule rule := by
  unfold parseRule at h
  obtain ⟨kind, hkind, h⟩ := bind_eq_ok_iff.1 h
  obtain ⟨percentages, -, h⟩ := bind_eq_ok_iff.1 h
  by_cases hpercentage : isPercentageKind kind = true
  · rw [if_pos hpercentage] at h
    unfold parsePercentageRule at h
    obtain ⟨id, -, h⟩ := bind_eq_ok_iff.1 h
    obtain ⟨rawOrder, -, h⟩ := bind_eq_ok_iff.1 h
    obtain ⟨order, -, h⟩ := bind_eq_ok_iff.1 h
    cases h
    trivial
  · rw [if_neg hpercentage] at h
    unfold parseConditionalRule at h
    obtain ⟨id, -, h⟩ := bind_eq_ok_iff.1 h
    obtain ⟨rawOrder, -, h⟩ := bind_eq_ok_iff.1 h
    obtain ⟨order, -, h⟩ := bind_eq_ok_iff.1 h
    obtain ⟨rawValue, -, h⟩ := bind_eq_ok_iff.1 h
    obtain ⟨value, -, h⟩ := bind_eq_ok_iff.1 h
    obtain ⟨conditions, -, h⟩ := bind_eq_ok_iff.1 h
    obtain ⟨target, htarget, h⟩ := bind_eq_ok_iff.1 h
    obtain ⟨valueId, -, h⟩ := bind_eq_ok_iff.1 h
    cases h
    refine ⟨?_, ?_⟩
    · have hjsonKind := isJson_of_get hjson hkind
      rw [Bool.not_eq_true] at hpercentage
      cases kind with
      | none => exact show lit "conditional" ≠ lit "percentage" by decide
      | _ => exact toText_ne_percentage hjsonKind hpercentage
    · show (if target.truthy then target.toText else lit "value") ≠ []
      by_cases htruthy : target.truthy = true
      · rw [if_pos htruthy]
        exact toText_ne_nil (isJson_of_get hjson htarget) htruthy
      · rw [if_neg htruthy]
        decide

omit [Unicode] in
theorem isJson_parseTypeConstraints {raw : PyValue} {c : Option TypeConstraints} (hjson : raw.IsJson)
    (h : parseTypeConstraints raw = .ok c) : ∀ min max, c = some (.numeric min max) → min.IsJson ∧ max.IsJson := by
  rintro min max rfl
  unfold parseTypeConstraints at h
  split at h
  · split at h
    · obtain ⟨values, -, h⟩ := bind_eq_ok_iff.1 h
      cases h
    · obtain ⟨min', hmin, h⟩ := bind_eq_ok_iff.1 h
      obtain ⟨max', hmax, h⟩ := bind_eq_ok_iff.1 h
      cases h
      exact ⟨isJson_of_get hjson hmin, isJson_of_get hjson hmax⟩
  · cases h

omit [Unicode] in
/-- What is parsed of the items under a field is parsed of JSON. -/
theorem isJson_of_parseItems {β : Type} {raw : PyValue} {field : Text} {parse : PyValue → Except Exc β} {items : List β}
    (hjson : raw.IsJson) (h : parseItems raw field parse = .ok items) :
    ∀ b ∈ items, ∃ v : PyValue, v.IsJson ∧ parse v = .ok b := by
  rw [parseItems_eq] at h
  obtain ⟨values, hvalues, h⟩ := bind_eq_ok_iff.1 h
  intro b hb
  obtain ⟨v, hv, hparse⟩ := exists_of_mem_mapM h hb
  exact ⟨v, isJson_of_itemsOf hjson hvalues v hv, hparse⟩

theorem wellFormed_parseConfig {raw : PyValue} {c : Config PyFloat} (hjson : raw.IsJson) (h : parseConfig raw = .ok c) :
    WellFormedConfig c := by
  unfold parseConfig at h
  obtain ⟨rawTarget, hrawTarget, h⟩ := bind_eq_ok_iff.1 h
  obtain ⟨id, -, h⟩ := bind_eq_ok_iff.1 h
  obtain ⟨key, -, h⟩ := bind_eq_ok_iff.1 h
  obtain ⟨type, htype, h⟩ := bind_eq_ok_iff.1 h
  obtain ⟨target, htarget, h⟩ := bind_eq_ok_iff.1 h
  obtain ⟨variations, -, h⟩ := bind_eq_ok_iff.1 h
  obtain ⟨rawConstraints, hrawConstraints, h⟩ := bind_eq_ok_iff.1 h
  obtain ⟨constraints, hconstraints, h⟩ := bind_eq_ok_iff.1 h
  cases h
  refine ⟨isJson_of_subscript hjson htype, ?_, ?_⟩
  · unfold parseTarget at htarget
    obtain ⟨rawDefault, -, htarget⟩ := bind_eq_ok_iff.1 htarget
    obtain ⟨defaultValue, -, htarget⟩ := bind_eq_ok_iff.1 htarget
    obtain ⟨rules, hrules, htarget⟩ := bind_eq_ok_iff.1 htarget
    obtain ⟨defaultValueId, -, htarget⟩ := bind_eq_ok_iff.1 htarget
    cases htarget
    intro rule hrule
    obtain ⟨v, hv, hparse⟩ := isJson_of_parseItems (isJson_of_subscript hjson hrawTarget) hrules rule hrule
    exact wellFormed_parseRule hv hparse
  · exact isJson_parseTypeConstraints (isJson_of_get hjson hrawConstraints) hconstraints

omit [Unicode] in
/-- The keys that are listed are those of the document, in its order. -/
theorem readEntries_sublist {β : Type} {parse : PyValue → Except Exc β} {raw : List (Text × PyValue)}
    {read read' : Dict Text β} {unreadable unreadable' : List Text}
    (h : readEntries parse raw (read, unreadable) = .ok (read', unreadable')) :
    ∃ keys, unreadable' = unreadable ++ keys ∧ keys.Sublist (raw.map Prod.fst) := by
  induction raw generalizing read unreadable with
  | nil =>
    cases h
    exact ⟨[], (List.append_nil _).symm, .slnil⟩
  | cons p raw ih =>
    obtain ⟨key, definition⟩ := p
    rw [readEntries] at h
    split at h
    · obtain ⟨keys, hkeys, hsublist⟩ := ih h
      exact ⟨keys, hkeys, hsublist.cons key⟩
    · split at h
      · obtain ⟨keys, hkeys, hsublist⟩ := ih h
        exact ⟨key :: keys, by rw [hkeys, List.append_assoc, List.singleton_append], hsublist.cons_cons key⟩
      · cases h

theorem wellFormed_parse {d : Document} {b : ConfigBundle} (h : parse d = .ok b) : WellFormedBundle b := by
  obtain ⟨hconfigs, -, -⟩ := parse_result h
  refine ⟨fun p hp => ?_, ?_, parse_disjoint h⟩
  · obtain ⟨key, c⟩ := p
    have hheld := hconfigs key
    rw [(b.configs.get?_eq_some_iff key c).2 hp] at hheld
    obtain ⟨v, hv, hparse⟩ := Option.bind_eq_some_iff.1 hheld.symm
    have hmem : (key, v) ∈ d.configs := (Dict.lookup_eq_some_iff d.configs_nodup key v).1 hv
    exact wellFormed_parseConfig (d.isJson_of_mem hmem) (toOption_eq_some_iff.1 hparse)
  · unfold parse parseDocument at h
    simp only [d.configs_eq] at h
    obtain ⟨⟨configs, unreadable⟩, hread, h⟩ := bind_eq_ok_iff.1 h
    obtain ⟨segments, -, h⟩ := bind_eq_ok_iff.1 h
    cases h
    cases hconfigs' : parseConfigs d.configs with
    | error e =>
      rw [hconfigs'] at hread
      cases hread
    | ok r =>
      rw [hconfigs'] at hread
      cases hread
      obtain ⟨keys, hkeys, hsublist⟩ := readEntries_sublist hconfigs'
      rw [List.nil_append] at hkeys
      exact hkeys ▸ hsublist.nodup d.configs_nodup

/-- The bundles that are parsed of any document are the well formed ones, and each is parsed of the document that it
is written as. -/
theorem parsed_iff_wellFormed (b : ConfigBundle) :
    ((∃ document : PyValue, document.IsJson ∧ parseDocument document = .ok b) ↔ WellFormedBundle b) ∧
      (WellFormedBundle b → (writeBundle b).IsJson ∧ parseDocument (writeBundle b) = .ok b) := by
  have hback : WellFormedBundle b → (writeBundle b).IsJson ∧ parseDocument (writeBundle b) = .ok b :=
    fun h => ⟨isJson_writeBundle h, parseDocument_written h.configs⟩
  refine ⟨⟨?_, fun h => ⟨writeBundle b, hback h⟩⟩, hback⟩
  rintro ⟨document, hjson, hparse⟩
  cases document with
  | dict entries =>
    cases hconfigs : fieldOf entries (lit "configs") with
    | dict configs => exact wellFormed_parse (d := ⟨entries, configs, hjson, hconfigs⟩) hparse
    | _ =>
      simp only [parseDocument, hconfigs] at hparse
      cases hparse
  | _ => cases hparse

end

end ConfigDirector.Bundle
