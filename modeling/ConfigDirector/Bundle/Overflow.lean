/-
Which definitions raise what the parser does not catch. Of the exceptions a conversion can raise only
`OverflowError` is missing from its `except` clauses, and only two conversions raise it: `float` of an
integer too large and `int` of an infinity.
-/
import ConfigDirector.Bundle.Parse

namespace ConfigDirector.Bundle

open Python Evaluation

/-! ## Conversions that cannot overflow -/

theorem subscript_no_overflow (v : PyValue) (key : Text) : v.subscript key ≠ .error .overflowError := by
  unfold PyValue.subscript
  split
  · split <;> simp
  · simp

theorem getD_no_overflow (v : PyValue) (key : Text) (default : PyValue) :
    v.getD key default ≠ .error .overflowError := by
  unfold PyValue.getD
  split <;> simp

theorem get_no_overflow (v : PyValue) (key : Text) : v.get key ≠ .error .overflowError :=
  getD_no_overflow v key .none

theorem iter_no_overflow (v : PyValue) : v.iter ≠ .error .overflowError := by
  cases v <;> simp [PyValue.iter]

section Dumps

variable {writeInt : ℤ → Except Exc Text} {style : JsonStyle}

mutual
/-- Where every integer and every float can be written, `json.dumps` refuses objects of another class only. -/
theorem dumpsWith_error (hint : ∀ n e, writeInt n ≠ .error e) (hnan : style.allowNan = true) :
    ∀ (v : PyValue) {e : Exc}, dumpsWith writeInt style v = .error e → e = .typeError ∧ ¬ v.IsJson
  | .none, _, h | .bool _, _, h | .str _, _, h => by cases h
  | .int n, e, h => absurd h (hint n e)
  | .float x, _, h => by
    rw [dumpsWith, hnan, Bool.true_or, if_pos rfl] at h
    cases h
  | .list items, _, h => by
    rw [dumpsWith] at h
    rcases bind_eq_error_iff.1 h with h | ⟨parts, -, h⟩
    · exact dumpsListWith_error hint hnan items h
    · cases h
  | .dict entries, _, h => by
    rw [dumpsWith] at h
    rcases bind_eq_error_iff.1 h with h | ⟨parts, -, h⟩
    · obtain ⟨he, hjson⟩ := dumpsEntriesWith_error hint hnan entries h
      exact ⟨he, fun hdict => hjson hdict.2⟩
    · cases h
  | .other _, _, h => by
    cases h
    exact ⟨rfl, id⟩

theorem dumpsListWith_error (hint : ∀ n e, writeInt n ≠ .error e) (hnan : style.allowNan = true) :
    ∀ (vs : List PyValue) {e : Exc}, dumpsListWith writeInt style vs = .error e → e = .typeError ∧ ¬ PyValue.IsJsonList vs
  | [], _, h => by cases h
  | v :: vs, _, h => by
    rw [dumpsListWith] at h
    rcases bind_eq_error_iff.1 h with h | ⟨t, -, h⟩
    · exact (dumpsWith_error hint hnan v h).imp_right fun hjson hlist => hjson hlist.1
    · rcases bind_eq_error_iff.1 h with h | ⟨ts, -, h⟩
      · exact (dumpsListWith_error hint hnan vs h).imp_right fun hjson hlist => hjson hlist.2
      · cases h

theorem dumpsEntriesWith_error (hint : ∀ n e, writeInt n ≠ .error e) (hnan : style.allowNan = true) :
    ∀ (es : List (Text × PyValue)) {e : Exc}, dumpsEntriesWith writeInt style es = .error e → e = .typeError ∧ ¬ PyValue.IsJsonEntries es
  | [], _, h => by cases h
  | (k, v) :: es, _, h => by
    rw [dumpsEntriesWith] at h
    rcases bind_eq_error_iff.1 h with h | ⟨t, -, h⟩
    · exact (dumpsWith_error hint hnan v h).imp_right fun hjson hentries => hjson hentries.1
    · rcases bind_eq_error_iff.1 h with h | ⟨ts, -, h⟩
      · exact (dumpsEntriesWith_error hint hnan es h).imp_right fun hjson hentries => hjson hentries.2
      · cases h
end

end Dumps

theorem jsonDumps_error {v : PyValue} {e : Exc} (h : jsonDumps v = .error e) : e = .typeError ∧ ¬ v.IsJson :=
  dumpsWith_error (fun n e hn => by cases hn) rfl v h

theorem jsonDumps_no_overflow (v : PyValue) : jsonDumps v ≠ .error .overflowError := fun h => by
  cases (jsonDumps_error h).1

theorem jsonDumps_ok {v : PyValue} (h : v.IsJson) : ∃ t, jsonDumps v = .ok t := by
  cases ht : jsonDumps v with
  | ok t => exact ⟨t, rfl⟩
  | error e => exact absurd h (jsonDumps_error ht).2

theorem asString_no_overflow (v : PyValue) : asString v ≠ .error .overflowError := by
  cases v with
  | list items => exact jsonDumps_no_overflow (.list items)
  | dict entries => exact jsonDumps_no_overflow (.dict entries)
  | other text => exact jsonDumps_no_overflow (.other text)
  | _ => intro h; cases h

theorem ruleValue_no_overflow (v : PyValue) : ruleValue v ≠ .error .overflowError := by
  cases v with
  | list items => exact mt map_eq_error_iff.1 (jsonDumps_no_overflow (.list items))
  | dict entries => exact mt map_eq_error_iff.1 (jsonDumps_no_overflow (.dict entries))
  | _ => intro h; cases h

theorem parseItems_no_overflow {β : Type} (raw : PyValue) (field : Text) {parse : PyValue → Except Exc β}
    (h : ∀ v, parse v ≠ .error .overflowError) : parseItems raw field parse ≠ .error .overflowError := by
  refine bind_ne_error (get_no_overflow raw field) fun v => ?_
  exact bind_ne_error (iter_no_overflow _) fun items => mapM_ne_error fun x _ => h x

theorem parseVariation_no_overflow (raw : PyValue) : parseVariation raw ≠ .error .overflowError := by
  refine bind_ne_error (get_no_overflow raw _) fun value => ?_
  refine bind_ne_error ?_ fun _ => bind_ne_error (get_no_overflow raw _) fun _ h => by cases h
  unfold variationValue
  split
  · intro h; cases h
  · exact mt map_eq_error_iff.1 (asString_no_overflow value)

theorem parseTypeConstraints_no_overflow (raw : PyValue) : parseTypeConstraints raw ≠ .error .overflowError := by
  unfold parseTypeConstraints
  split
  · split
    · exact bind_ne_error (parseItems_no_overflow _ _ asString_no_overflow) fun _ h => by cases h
    · refine bind_ne_error (get_no_overflow _ _) fun _ => ?_
      exact bind_ne_error (get_no_overflow _ _) fun _ h => by cases h
  · intro h; cases h

/-! ## Conversions that can -/

theorem toFloat_overflow_iff (v : PyValue) :
    v.toFloat = .error .overflowError ↔ ∃ n, v = .int n ∧ PyFloat.ofInt? n = none := by
  cases v with
  | int n =>
    simp only [PyValue.toFloat, PyValue.int.injEq]
    cases h : PyFloat.ofInt? n <;> simp [h]
  | str s =>
    simp only [PyValue.toFloat]
    cases floatOfText s <;> simp
  | _ => simp [PyValue.toFloat]

theorem optionalInt_overflow_iff (v : PyValue) :
    optionalInt v = .error .overflowError ↔ ∃ neg, v = .float (.inf neg) := by
  cases v with
  | float x => cases x <;> simp [optionalInt, PyFloat.toInt, bind, Except.bind, pure, Except.pure]
  | _ => simp [optionalInt]

/-- `raw.get(field) or []` as the items the loop goes through. -/
def itemsOf (raw : PyValue) (field : Text) : Except Exc (List PyValue) := do
  (← raw.get field).orEmpty.iter

/-- The first item that cannot be read is such an item. -/
def FirstUnreadable {β : Type} (parse : PyValue → Except Exc β) (P : PyValue → Prop) (items : List PyValue) : Prop :=
  ∃ before x after, items = before ++ x :: after ∧ (∀ y ∈ before, ∃ b, parse y = .ok b) ∧ P x

theorem parseItems_eq {β : Type} (raw : PyValue) (field : Text) (parse : PyValue → Except Exc β) :
    parseItems raw field parse = itemsOf raw field >>= fun items => items.mapM parse := by
  unfold parseItems itemsOf
  rw [bind_assoc]

theorem itemsOf_no_overflow (raw : PyValue) (field : Text) : itemsOf raw field ≠ .error .overflowError :=
  bind_ne_error (get_no_overflow raw field) fun _ => iter_no_overflow _

theorem parseItems_overflow_iff {β : Type} {raw : PyValue} {field : Text} {parse : PyValue → Except Exc β}
    {P : PyValue → Prop} (h : ∀ v, parse v = .error .overflowError ↔ P v) :
    parseItems raw field parse = .error .overflowError ↔
      ∃ items, itemsOf raw field = .ok items ∧ FirstUnreadable parse P items := by
  rw [parseItems_eq, bind_eq_error_of_ne (itemsOf_no_overflow raw field)]
  refine exists_congr fun items => and_congr_right fun _ => ?_
  rw [mapM_eq_error_iff]
  unfold FirstError FirstUnreadable
  simp only [h]

theorem parseItems_ok_iff {β : Type} {raw : PyValue} {field : Text} {parse : PyValue → Except Exc β} :
    (∃ bs, parseItems raw field parse = .ok bs) ↔
      ∃ items, itemsOf raw field = .ok items ∧ ∀ x ∈ items, ∃ b, parse x = .ok b := by
  rw [parseItems_eq]
  constructor
  · rintro ⟨bs, h⟩
    obtain ⟨items, hi, hb⟩ := bind_eq_ok_iff.1 h
    exact ⟨items, hi, mapM_ok_iff.1 ⟨bs, hb⟩⟩
  · rintro ⟨items, hi, hall⟩
    obtain ⟨bs, hb⟩ := mapM_ok_iff.2 hall
    exact ⟨bs, bind_eq_ok_iff.2 ⟨items, hi, hb⟩⟩

/-- `get` fails on every field or on none. -/
theorem get_ok_of_itemsOf {raw : PyValue} {field : Text} {items : List PyValue}
    (h : itemsOf raw field = .ok items) (field' : Text) : ∃ v, raw.get field' = .ok v := by
  obtain ⟨v, hv, -⟩ := bind_eq_ok_iff.1 h
  cases raw with
  | dict entries => exact ⟨_, rfl⟩
  | _ => cases hv

/-! ## JSON values -/

theorem isJson_of_lookup {entries : List (Text × PyValue)} (h : (PyValue.dict entries).IsJson) {key : Text}
    {v : PyValue} (hv : entries.lookup key = some v) : v.IsJson := by
  rw [PyValue.IsJson] at h
  have hmem : (key, v) ∈ entries := (Dict.lookup_eq_some_iff h.1 key v).1 hv
  exact (PyValue.isJsonEntries_iff entries).1 h.2 (key, v) hmem

theorem isJson_of_subscript {raw v : PyValue} {key : Text} (h : raw.IsJson) (hv : raw.subscript key = .ok v) :
    v.IsJson := by
  cases raw with
  | dict entries =>
    rw [PyValue.subscript] at hv
    split at hv
    · rename_i w hw
      cases hv
      exact isJson_of_lookup h hw
    · cases hv
  | _ => cases hv

theorem isJson_of_get {raw v : PyValue} {key : Text} (h : raw.IsJson) (hv : raw.get key = .ok v) : v.IsJson := by
  cases raw with
  | dict entries =>
    cases hl : entries.lookup key with
    | none =>
      rw [PyValue.get, PyValue.getD, hl] at hv
      cases hv
      exact trivial
    | some w =>
      rw [PyValue.get, PyValue.getD, hl] at hv
      cases hv
      exact isJson_of_lookup h hl
  | _ => cases hv

theorem asString_ok {v : PyValue} (h : v.IsJson) : ∃ t, asString v = .ok t := by
  cases v with
  | list items => exact jsonDumps_ok h
  | dict entries => exact jsonDumps_ok h
  | other text => exact h.elim
  | _ => exact ⟨_, rfl⟩

/-! ## Conditions and segments -/

variable [Unicode]

theorem textField_no_overflow (raw : PyValue) (field : Text) : textField raw field ≠ .error .overflowError :=
  bind_ne_error (subscript_no_overflow raw field) fun _ h => by cases h

theorem conditionKind_no_overflow (raw : PyValue) : conditionKind raw ≠ .error .overflowError :=
  bind_ne_error (getD_no_overflow raw _ _) fun _ h => by cases h

theorem parseAttributeCondition_no_overflow (raw : PyValue) :
    parseAttributeCondition raw ≠ .error .overflowError := by
  refine bind_ne_error (conditionKind_no_overflow raw) fun kind => ?_
  split
  · intro h; cases h
  · refine bind_ne_error (textField_no_overflow raw _) fun _ => ?_
    refine bind_ne_error (textField_no_overflow raw _) fun _ => ?_
    refine bind_ne_error (textField_no_overflow raw _) fun _ => ?_
    refine bind_ne_error (textField_no_overflow raw _) fun _ => ?_
    refine bind_ne_error (parseItems_no_overflow raw _ asString_no_overflow) fun _ => ?_
    exact bind_ne_error (get_no_overflow raw _) fun _ h => by cases h

theorem parseCondition_no_overflow (raw : PyValue) : parseCondition raw ≠ .error .overflowError := by
  refine bind_ne_error (conditionKind_no_overflow raw) fun kind => ?_
  split
  · exact bind_ne_error (parseAttributeCondition_no_overflow raw) fun _ h => by cases h
  · split
    · refine bind_ne_error (textField_no_overflow raw _) fun _ => ?_
      refine bind_ne_error (textField_no_overflow raw _) fun _ => ?_
      exact bind_ne_error (textField_no_overflow raw _) fun _ h => by cases h
    · intro h; cases h

/-- No segment definition overflows. -/
theorem parseSegment_no_overflow (raw : PyValue) : parseSegment raw ≠ .error .overflowError := by
  refine bind_ne_error (subscript_no_overflow raw _) fun _ => ?_
  refine bind_ne_error (iter_no_overflow _) fun groups => ?_
  refine bind_ne_error (mapM_ne_error fun group _ => ?_) fun _ h => by cases h
  exact bind_ne_error (iter_no_overflow group) fun _ => mapM_ne_error fun x _ => parseAttributeCondition_no_overflow x

/-! ## Definitions that overflow -/

/-- A bucket with an id whose percentage is an integer that no float is near. -/
def PercentageOverflows (raw : PyValue) : Prop :=
  (∃ id, raw.subscript (lit "id") = .ok id) ∧
    ∃ n, raw.subscript (lit "percentage") = .ok (.int n) ∧ PyFloat.ofInt? n = none

/-- A rule whose id can be read and whose order is infinite. -/
def OrderOverflows (raw : PyValue) : Prop :=
  (∃ id, raw.subscript (lit "id") = .ok id) ∧ ∃ neg, raw.get (lit "order") = .ok (.float (.inf neg))

/-- A rule with a bucket that overflows, or else, once its buckets are read, with an infinite order. -/
def RuleOverflows (raw : PyValue) : Prop :=
  ∃ buckets, itemsOf raw (lit "percentages") = .ok buckets ∧
    (FirstUnreadable parsePercentage PercentageOverflows buckets ∨
      (∀ bucket ∈ buckets, ∃ p, parsePercentage bucket = .ok p) ∧ OrderOverflows raw)

/-- A definition with the fields a config must have whose first unreadable rule overflows. -/
def Overflows (raw : PyValue) : Prop :=
  (∃ id, raw.subscript (lit "id") = .ok id) ∧ (∃ key, raw.subscript (lit "key") = .ok key) ∧
    (∃ type, raw.subscript (lit "type") = .ok type) ∧
    ∃ target rules, raw.subscript (lit "target") = .ok target ∧ itemsOf target (lit "rules") = .ok rules ∧
      FirstUnreadable parseRule RuleOverflows rules

theorem textField_ok_iff (raw : PyValue) (field : Text) :
    (∃ t, textField raw field = .ok t) ↔ ∃ v, raw.subscript field = .ok v := by
  constructor
  · rintro ⟨t, h⟩
    obtain ⟨v, hv, -⟩ := bind_eq_ok_iff.1 h
    exact ⟨v, hv⟩
  · rintro ⟨v, h⟩
    exact ⟨v.toText, bind_eq_ok_iff.2 ⟨v, h, rfl⟩⟩

theorem parsePercentage_overflow_iff (raw : PyValue) :
    parsePercentage raw = .error .overflowError ↔ PercentageOverflows raw := by
  simp only [parsePercentage, bind_eq_error_iff, textField_no_overflow, subscript_no_overflow, get_no_overflow,
    ruleValue_no_overflow, false_or, toFloat_overflow_iff, pure_eq_error_iff, and_false, exists_false, or_false,
    exists_and_right, textField_ok_iff]
  unfold PercentageOverflows
  refine and_congr_right fun _ => ?_
  constructor
  · rintro ⟨_, h, n, rfl, hn⟩
    exact ⟨n, h, hn⟩
  · rintro ⟨n, h, hn⟩
    exact ⟨_, h, n, rfl, hn⟩

/-- Both kinds of rules convert an id and an order first; what follows these never overflows. -/
theorem idAndOrder_overflow_iff {β : Type} (raw : PyValue) {rest : Text → Option ℤ → Except Exc β}
    (hrest : ∀ id order, rest id order ≠ .error .overflowError) :
    (do
      let id ← textField raw (lit "id")
      let order ← optionalInt (← raw.get (lit "order"))
      rest id order) = .error .overflowError ↔ OrderOverflows raw := by
  have horder : ∀ id, (raw.get (lit "order") >>= fun v => optionalInt v >>= fun order => rest id order) =
      .error .overflowError ↔ ∃ neg, raw.get (lit "order") = .ok (.float (.inf neg)) := by
    intro id
    rw [bind_eq_error_of_ne (get_no_overflow raw _)]
    constructor
    · rintro ⟨v, hv, h⟩
      obtain ⟨neg, rfl⟩ := (optionalInt_overflow_iff v).1 ((bind_eq_error_of_rest (hrest id)).1 h)
      exact ⟨neg, hv⟩
    · rintro ⟨neg, hv⟩
      exact ⟨_, hv, rfl⟩
  rw [bind_eq_error_of_ne (textField_no_overflow raw _)]
  unfold OrderOverflows
  rw [← textField_ok_iff]
  constructor
  · rintro ⟨id, hid, h⟩
    exact ⟨⟨id, hid⟩, (horder id).1 h⟩
  · rintro ⟨⟨id, hid⟩, h⟩
    exact ⟨id, hid, (horder id).2 h⟩

theorem parsePercentageRule_overflow_iff (raw : PyValue) (percentages : List (Percentage PyFloat)) :
    parsePercentageRule raw percentages = .error .overflowError ↔ OrderOverflows raw :=
  idAndOrder_overflow_iff raw fun _ _ h => by cases h

theorem parseConditionalRule_overflow_iff (raw kind : PyValue) (percentages : List (Percentage PyFloat)) :
    parseConditionalRule raw kind percentages = .error .overflowError ↔ OrderOverflows raw := by
  refine idAndOrder_overflow_iff raw fun id order => ?_
  refine bind_ne_error (get_no_overflow raw _) fun _ => bind_ne_error (ruleValue_no_overflow _) fun _ => ?_
  refine bind_ne_error (parseItems_no_overflow raw _ parseCondition_no_overflow) fun _ => ?_
  refine bind_ne_error (get_no_overflow raw _) fun _ => ?_
  exact bind_ne_error (get_no_overflow raw _) fun _ h => by cases h

theorem parseRule_overflow_iff (raw : PyValue) : parseRule raw = .error .overflowError ↔ RuleOverflows raw := by
  unfold parseRule RuleOverflows
  rw [bind_eq_error_of_ne (get_no_overflow raw _)]
  -- either kind of rule converts its order once the buckets are read
  have hrest : ∀ kind percentages, (if isPercentageKind kind = true then parsePercentageRule raw percentages
      else parseConditionalRule raw kind percentages) = .error .overflowError ↔ OrderOverflows raw := by
    intro kind percentages
    split
    · exact parsePercentageRule_overflow_iff raw percentages
    · exact parseConditionalRule_overflow_iff raw kind percentages
  simp only [bind_eq_error_iff, hrest, parseItems_overflow_iff parsePercentage_overflow_iff, exists_and_right,
    parseItems_ok_iff]
  constructor
  · rintro ⟨-, ⟨items, hitems, hfirst⟩ | ⟨⟨items, hitems, hall⟩, horder⟩⟩
    · exact ⟨items, hitems, .inl hfirst⟩
    · exact ⟨items, hitems, .inr ⟨hall, horder⟩⟩
  · rintro ⟨items, hitems, hfirst | ⟨hall, horder⟩⟩
    · exact ⟨get_ok_of_itemsOf hitems _, .inl ⟨items, hitems, hfirst⟩⟩
    · exact ⟨get_ok_of_itemsOf hitems _, .inr ⟨⟨items, hitems, hall⟩, horder⟩⟩

theorem parseTarget_overflow_iff {target : PyValue} (h : target.IsJson) :
    parseTarget target = .error .overflowError ↔
      ∃ rules, itemsOf target (lit "rules") = .ok rules ∧ FirstUnreadable parseRule RuleOverflows rules := by
  simp only [parseTarget, bind_eq_error_iff, get_no_overflow, asString_no_overflow, false_or,
    parseItems_overflow_iff parseRule_overflow_iff, pure_eq_error_iff, and_false, exists_false, or_false,
    exists_and_right]
  constructor
  · rintro ⟨_, -, -, hrules⟩
    exact hrules
  · rintro ⟨rules, hrules, hfirst⟩
    obtain ⟨v, hv⟩ := get_ok_of_itemsOf hrules (lit "defaultValue")
    exact ⟨v, hv, asString_ok (isJson_of_get h hv), rules, hrules, hfirst⟩

/-- A JSON definition raises `OverflowError` exactly when its first unreadable rule does. -/
theorem parseConfig_overflow_iff {raw : PyValue} (h : raw.IsJson) :
    parseConfig raw = .error .overflowError ↔ Overflows raw := by
  simp only [parseConfig, bind_eq_error_iff, subscript_no_overflow, get_no_overflow, textField_no_overflow,
    parseItems_no_overflow _ _ parseVariation_no_overflow, parseTypeConstraints_no_overflow, false_or,
    pure_eq_error_iff, and_false, exists_false, or_false, exists_and_right, textField_ok_iff]
  -- of the steps before the target only their success is left, and nothing of those after it
  unfold Overflows
  constructor
  · rintro ⟨target, htarget, hid, hkey, htype, hover⟩
    obtain ⟨rules, hrules, hfirst⟩ := (parseTarget_overflow_iff (isJson_of_subscript h htarget)).1 hover
    exact ⟨hid, hkey, htype, target, rules, htarget, hrules, hfirst⟩
  · rintro ⟨hid, hkey, htype, target, rules, htarget, hrules, hfirst⟩
    exact ⟨target, htarget, hid, hkey, htype,
      (parseTarget_overflow_iff (isJson_of_subscript h htarget)).2 ⟨rules, hrules, hfirst⟩⟩

end ConfigDirector.Bundle
