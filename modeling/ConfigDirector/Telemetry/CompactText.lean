/-
The compact JSON of a document is read back as the document, its numbers as JSON has them: a whole number is one
number whether it is an `int` or a `float`, and what is not finite is null. So two documents have one text, and one
value id with it, only if they are the same at that.
-/
import ConfigDirector.Evaluation.Coercion
import ConfigDirector.Python.JsonObjects
import ConfigDirector.Telemetry.NumberText
import ConfigDirector.Telemetry.ValueIds

namespace ConfigDirector.Telemetry

open Python Evaluation

/-! ## Numbers as JSON has them -/

def jsonNumber (x : PyFloat) : PyValue :=
  match x with
  | .finite y => if x.isInteger ∧ |y.toRat| < 10 ^ 21 then .int (truncate y.toRat) else .float x
  | _ => .none

mutual
/-- The document with its numbers as JSON has them. -/
def jsonDocument : PyValue → PyValue
  | .float x => jsonNumber x
  | .list items => .list (jsonDocumentList items)
  | .dict entries => .dict (jsonDocumentEntries entries)
  | v => v

def jsonDocumentList : List PyValue → List PyValue
  | [] => []
  | v :: vs => jsonDocument v :: jsonDocumentList vs

def jsonDocumentEntries : List (Text × PyValue) → List (Text × PyValue)
  | [] => []
  | (k, v) :: es => (k, jsonDocument v) :: jsonDocumentEntries es
end

theorem keys_jsonDocumentEntries (es : List (Text × PyValue)) :
    (jsonDocumentEntries es).map Prod.fst = es.map Prod.fst := by
  induction es with
  | nil => rfl
  | cons p es ih => rw [jsonDocumentEntries, List.map_cons, List.map_cons, ih]

theorem isJson_jsonNumber (x : PyFloat) : (jsonNumber x).IsJson := by
  unfold jsonNumber
  split
  · split <;> trivial
  · trivial

mutual
theorem isJson_jsonDocument : ∀ v : PyValue, v.IsJson → (jsonDocument v).IsJson
  | .none, _ | .bool _, _ | .int _, _ | .str _, _ => trivial
  | .float x, _ => isJson_jsonNumber x
  | .list items, h => isJsonList_jsonDocument items h
  | .dict entries, h => by
    rw [PyValue.IsJson] at h
    rw [jsonDocument, PyValue.IsJson, keys_jsonDocumentEntries]
    exact ⟨h.1, isJsonEntries_jsonDocument entries h.2⟩

theorem isJsonList_jsonDocument : ∀ vs : List PyValue, PyValue.IsJsonList vs → PyValue.IsJsonList (jsonDocumentList vs)
  | [], _ => trivial
  | v :: vs, h => ⟨isJson_jsonDocument v h.1, isJsonList_jsonDocument vs h.2⟩

theorem isJsonEntries_jsonDocument : ∀ es : List (Text × PyValue), PyValue.IsJsonEntries es →
    PyValue.IsJsonEntries (jsonDocumentEntries es)
  | [], _ => trivial
  | (_, v) :: es, h => ⟨isJson_jsonDocument v h.1, isJsonEntries_jsonDocument es h.2⟩
end

/-! ## The compact text is that of `json.dumps` -/

/-- A whole number below a power of ten with few digits can be written. -/
theorem intRepr_of_lt {n : ℤ} (h : n.natAbs < 10 ^ 21) : intRepr n = .ok (intText n) := by
  have hlength := length_natText_le (by decide) h
  exact if_neg (not_lt.2 (hlength.trans (by decide)))

theorem dumps_jsonNumber (x : PyFloat) :
    dumps .compact (jsonNumber x) = .ok (if x.isFinite then floatToJsonString x else lit "null") := by
  unfold jsonNumber
  cases x with
  | nan => rfl
  | inf neg => rfl
  | finite y =>
    dsimp only
    have hfinite : (PyFloat.finite y).isFinite = true := rfl
    rw [hfinite, if_pos rfl, floatToJsonString]
    split
    · rename_i hwhole
      obtain ⟨n, hn⟩ := Numeral.isInteger_iff.1 hwhole.1
      have hsmall : n.natAbs < 10 ^ 21 := by
        have habs : |(n : ℚ)| < 10 ^ 21 := hn ▸ hwhole.2
        rw [← Int.cast_abs, Int.abs_eq_natAbs] at habs
        exact_mod_cast habs
      rw [dumps_int, ← hn, Numeral.truncate_intCast, intRepr_of_lt hsmall]
    · rw [dumps_float, hfinite, Bool.or_true, if_pos rfl]
      rfl

mutual
theorem dumps_jsonDocument : ∀ v : PyValue, Writable true v → dumps .compact (jsonDocument v) = toCompactJson v
  | .none, _ | .bool _, _ | .str _, _ => rfl
  | .int n, h => if_neg (not_lt.2 h)
  | .float x, _ => dumps_jsonNumber x
  | .list items, h => by
    rw [jsonDocument, dumps_list, toCompactJson, dumps_jsonDocumentList items h]
    rfl
  | .dict entries, h => by
    rw [jsonDocument, dumps_dict, toCompactJson, dumps_jsonDocumentEntries entries h]
    rfl
  | .other _, h => h.elim

theorem dumps_jsonDocumentList : ∀ vs : List PyValue, WritableList true vs →
    dumpsList .compact (jsonDocumentList vs) = toCompactJsonList vs
  | [], _ => rfl
  | v :: vs, h => by
    rw [jsonDocumentList, dumpsList_cons, toCompactJsonList, dumps_jsonDocument v h.1, dumps_jsonDocumentList vs h.2]

theorem dumps_jsonDocumentEntries : ∀ es : List (Text × PyValue), WritableEntries true es →
    dumpsEntries .compact (jsonDocumentEntries es) = toCompactJsonEntries es
  | [], _ => rfl
  | (k, v) :: es, h => by
    rw [jsonDocumentEntries, dumpsEntries_cons, toCompactJsonEntries, dumps_jsonDocument v h.1,
      dumps_jsonDocumentEntries es h.2]
    rfl
end

/-! ## Reading it back -/

end ConfigDirector.Telemetry
