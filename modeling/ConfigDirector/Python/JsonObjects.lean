/-
JSON objects that are built field by field, without the fields that are `None`, and the documents `json.dumps` can
write.
-/
import ConfigDirector.Python.JsonBytes

namespace Python

/-! ## Objects -/

/-- The fields that are not `None`, in their order. -/
def present (fields : List (Text × Option PyValue)) : List (Text × PyValue) :=
  fields.filterMap fun field => field.2.map (field.1, ·)

/-- A dictionary to which each field is added unless it is `None`. -/
def object (fields : List (Text × Option PyValue)) : PyValue := .dict (present fields)

/-- A field that is always there. -/
abbrev required (key : Text) (value : PyValue) : Text × Option PyValue := (key, some value)

theorem mem_present {fields : List (Text × Option PyValue)} {p : Text × PyValue} :
    p ∈ present fields ↔ (p.1, some p.2) ∈ fields := by
  unfold present
  rw [List.mem_filterMap]
  constructor
  · rintro ⟨⟨key, value⟩, hmem, hvalue⟩
    obtain ⟨v, rfl, rfl⟩ := Option.map_eq_some_iff.1 hvalue
    exact hmem
  · exact fun hmem => ⟨_, hmem, rfl⟩

theorem keys_present (fields : List (Text × Option PyValue)) :
    ((present fields).map Prod.fst).Sublist (fields.map Prod.fst) := by
  induction fields with
  | nil => exact .slnil
  | cons field fields ih =>
    obtain ⟨key, _ | value⟩ := field
    · exact ih.cons key
    · exact ih.cons_cons key

theorem isJson_object {fields : List (Text × Option PyValue)} (hnodup : (fields.map Prod.fst).Nodup)
    (h : ∀ field ∈ fields, ∀ v ∈ field.2, v.IsJson) : (object fields).IsJson := by
  refine ⟨hnodup.sublist (keys_present fields), (PyValue.isJsonEntries_iff _).2 fun p hp => ?_⟩
  exact h _ (mem_present.1 hp) _ rfl

theorem isJson_listOf {α : Type} {f : α → PyValue} {l : List α} (h : ∀ a ∈ l, (f a).IsJson) :
    (PyValue.list (l.map f)).IsJson := by
  refine (PyValue.isJsonList_iff _).2 fun v hv => ?_
  obtain ⟨a, ha, rfl⟩ := List.mem_map.1 hv
  exact h a ha

theorem pairFreeList_iff (vs : List PyValue) : PyValue.PairFreeList vs ↔ ∀ v ∈ vs, v.PairFree := by
  induction vs with
  | nil => simp [PyValue.PairFreeList]
  | cons v vs ih => simp [PyValue.PairFreeList, ih]

theorem pairFreeEntries_iff (es : List (Text × PyValue)) :
    PyValue.PairFreeEntries es ↔ ∀ p ∈ es, PairFree p.1 ∧ p.2.PairFree := by
  induction es with
  | nil => simp [PyValue.PairFreeEntries]
  | cons p es ih =>
    obtain ⟨k, v⟩ := p
    simp [PyValue.PairFreeEntries, ih, and_assoc]

theorem pairFree_ascii {s : Text} (h : s.all CodePoint.isAscii = true) : PairFree s := (encodable_ascii h).pairFree

theorem pairFree_object {fields : List (Text × Option PyValue)}
    (hkeys : ((fields.map Prod.fst).all fun key => key.all CodePoint.isAscii) = true)
    (h : ∀ field ∈ fields, ∀ v ∈ field.2, v.PairFree) : (object fields).PairFree := by
  refine (pairFreeEntries_iff _).2 fun p hp => ?_
  have hmem := mem_present.1 hp
  exact ⟨pairFree_ascii (List.all_eq_true.1 hkeys _ (List.mem_map_of_mem hmem)), h _ hmem _ rfl⟩

theorem pairFree_listOf {α : Type} {f : α → PyValue} {l : List α} (h : ∀ a ∈ l, (f a).PairFree) :
    (PyValue.list (l.map f)).PairFree := by
  refine (pairFreeList_iff _).2 fun v hv => ?_
  obtain ⟨a, ha, rfl⟩ := List.mem_map.1 hv
  exact h a ha

/-! ## What can be written -/

mutual
/-- No object of another class, no number with too many digits, and, where they are refused, no `nan` and no
infinity. -/
def Writable (allowNan : Bool) : PyValue → Prop
  | .int n => (natText n.natAbs).length ≤ maxStrDigits
  | .float x => (allowNan || x.isFinite) = true
  | .list items => WritableList allowNan items
  | .dict entries => WritableEntries allowNan entries
  | .other _ => False
  | _ => True

def WritableList (allowNan : Bool) : List PyValue → Prop
  | [] => True
  | v :: vs => Writable allowNan v ∧ WritableList allowNan vs

def WritableEntries (allowNan : Bool) : List (Text × PyValue) → Prop
  | [] => True
  | (_, v) :: es => Writable allowNan v ∧ WritableEntries allowNan es
end

theorem refused (e : Exc) : ¬ ∃ text : Text, (Except.error e : Except Exc Text) = .ok text := by
  rintro ⟨_, h⟩
  cases h

theorem intRepr_ok_iff (n : ℤ) : (∃ text, intRepr n = .ok text) ↔ (natText n.natAbs).length ≤ maxStrDigits := by
  unfold intRepr
  split
  · rename_i hlong
    exact iff_of_false (refused _) (not_le.2 hlong)
  · rename_i hfits
    exact iff_of_true ⟨_, rfl⟩ (not_lt.1 hfits)

theorem intRepr_ok {n : ℤ} {text : Text} (h : intRepr n = .ok text) : text = intText n := by
  unfold intRepr at h
  split at h
  · cases h
  · cases h
    rfl

mutual
theorem dumps_ok_iff (style : JsonStyle) : ∀ v : PyValue, (∃ text, dumps style v = .ok text) ↔ Writable style.allowNan v
  | .none => iff_of_true ⟨_, rfl⟩ trivial
  | .bool _ => iff_of_true ⟨_, rfl⟩ trivial
  | .str _ => iff_of_true ⟨_, rfl⟩ trivial
  | .int n => by
    rw [dumps_int, Writable]
    exact intRepr_ok_iff n
  | .float x => by
    rw [dumps_float, Writable]
    split
    · rename_i hwritten
      exact iff_of_true ⟨_, rfl⟩ hwritten
    · rename_i hrefused
      exact iff_of_false (refused _) hrefused
  | .list items => by
    rw [dumps_list, Writable, ← dumpsList_ok_iff style items]
    exact exists_bind_pure_eq_ok _ _
  | .dict entries => by
    rw [dumps_dict, Writable, ← dumpsEntries_ok_iff style entries]
    exact exists_bind_pure_eq_ok _ _
  | .other _ => iff_of_false (refused _) id

theorem dumpsList_ok_iff (style : JsonStyle) : ∀ vs : List PyValue,
    (∃ texts, dumpsList style vs = .ok texts) ↔ WritableList style.allowNan vs
  | [] => iff_of_true ⟨_, rfl⟩ trivial
  | v :: vs => by
    rw [dumpsList_cons, WritableList, ← dumps_ok_iff style v, ← dumpsList_ok_iff style vs]
    exact exists_bind_eq_ok fun _ => exists_bind_pure_eq_ok _ _

theorem dumpsEntries_ok_iff (style : JsonStyle) : ∀ es : List (Text × PyValue),
    (∃ texts, dumpsEntries style es = .ok texts) ↔ WritableEntries style.allowNan es
  | [] => iff_of_true ⟨_, rfl⟩ trivial
  | (k, v) :: es => by
    rw [dumpsEntries_cons, WritableEntries, ← dumps_ok_iff style v, ← dumpsEntries_ok_iff style es]
    exact exists_bind_eq_ok fun _ => exists_bind_pure_eq_ok _ _
end

theorem writableList_iff (allowNan : Bool) (vs : List PyValue) :
    WritableList allowNan vs ↔ ∀ v ∈ vs, Writable allowNan v := by
  induction vs with
  | nil => simp [WritableList]
  | cons v vs ih => simp [WritableList, ih]

theorem writableEntries_iff (allowNan : Bool) (es : List (Text × PyValue)) :
    WritableEntries allowNan es ↔ ∀ p ∈ es, Writable allowNan p.2 := by
  induction es with
  | nil => simp [WritableEntries]
  | cons p es ih =>
    obtain ⟨k, v⟩ := p
    simp [WritableEntries, ih]

theorem writable_object_iff (allowNan : Bool) (fields : List (Text × Option PyValue)) :
    Writable allowNan (object fields) ↔ ∀ field ∈ fields, ∀ v ∈ field.2, Writable allowNan v := by
  rw [object, Writable, writableEntries_iff]
  constructor
  · rintro h ⟨key, value⟩ hmem v rfl
    exact h (key, v) (mem_present.2 hmem)
  · exact fun h p hp => h _ (mem_present.1 hp) _ rfl

theorem writable_listOf_iff {α : Type} (allowNan : Bool) (f : α → PyValue) (l : List α) :
    Writable allowNan (.list (l.map f)) ↔ ∀ a ∈ l, Writable allowNan (f a) := by
  rw [Writable, writableList_iff, List.forall_mem_map]

end Python
