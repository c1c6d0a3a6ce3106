/-
Configs built from native values (`_native_values`): every value that is accepted is written in such a way
that an evaluation reads back exactly that value. The keys of a dictionary are `str` here.
-/
import ConfigDirector.Client.GetValue
import ConfigDirector.Python.JsonObjects

namespace ConfigDirector.Client

open Python Evaluation

/-! ## Model -/

/-- What the `ValueError` of `str` says of an integer with too many digits. -/
def tooManyDigits : Text :=
  lit "Exceeds the limit (4300 digits) for integer string conversion; use sys.set_int_max_str_digits() to increase the limit"

section Encode

variable [Unicode]

/-- The beginning of every message. -/
def invalidValue (key : Text) : Text := lit "Invalid value for " ++ reprText key

def integerText (key : Text) (value : ℤ) : Except ClientError Text :=
  match intRepr value with
  | .ok text => .ok text
  | .error _ => .error (.validation (invalidValue key ++ lit ": the integer has too many digits to be written out (" ++
      tooManyDigits ++ lit ")."))

/-- `_plain_decimal`. A finite float's `repr` is always a decimal literal. -/
def plainDecimal (key : Text) (value : PyFloat) : Except ClientError Text :=
  if !value.isFinite then
    .error (.validation (invalidValue key ++ lit ": " ++ value.repr ++ lit " is not a finite number."))
  else .ok (((Decimal.ofText value.repr).map fun d => d.normalize.plain).getD [])

def atJsonPath (path : Text) : Text := if path.isEmpty then [] else lit " at " ++ reprText path

mutual
def validateJsonContents (key : Text) (path : Text) : PyValue → Except ClientError Unit
  | .none | .bool _ | .int _ | .str _ => .ok ()
  | .float value =>
    if value.isFinite then .ok ()
    else .error (.validation (invalidValue key ++ atJsonPath path ++ lit ": " ++ value.repr ++
      lit " is not a finite number."))
  | .list items => validateItems key path 0 items
  | .dict entries => validateMembers key path entries
  | .other text => .error (.type (invalidValue key ++ atJsonPath path ++ lit ": a value of type " ++
      reprText (Bundle.typeName (.other text)) ++ lit " cannot be encoded as JSON. JSON contents can hold bools, ints, " ++
      lit "finite floats, strs, None, lists, and dicts with str keys."))

def validateItems (key : Text) (path : Text) (index : ℕ) : List PyValue → Except ClientError Unit
  | [] => .ok ()
  | item :: items => do
    validateJsonContents key (path ++ lit "[" ++ natText index ++ lit "]") item
    validateItems key path (index + 1) items

def validateMembers (key : Text) (path : Text) : List (Text × PyValue) → Except ClientError Unit
  | [] => .ok ()
  | (memberKey, member) :: members => do
    validateJsonContents key (if path.isEmpty then memberKey else path ++ lit "." ++ memberKey) member
    validateMembers key path members
end

/-- `_json_text`. Once the contents are valid, only an integer can be refused. -/
def jsonText (key : Text) (value : PyValue) : Except ClientError Text := do
  validateJsonContents key [] value
  match dumps .compact value with
  | .ok text => .ok text
  | .error e =>
    if e.isValueError then .error (.validation (invalidValue key ++ lit ": " ++ tooManyDigits ++ lit "."))
    else .error (.raised e)

/-- The type and the text of a value. -/
def encodeValue (configKey value : PyValue) : Except ClientError (Text × Text × Text) := do
  let key ← validateConfigKey configKey
  match value with
  | .none => .error (.type (invalidValue key ++ lit ": None is not a value."))
  | .bool b => return (key, lit "boolean", if b then lit "true" else lit "false")
  | .int n => return (key, lit "integer", ← integerText key n)
  | .float x => return (key, lit "float", ← plainDecimal key x)
  | .str s => return (key, lit "string", s)
  | .dict entries => return (key, lit "json", ← jsonText key (.dict entries))
  | .list items => return (key, lit "json", ← jsonText key (.list items))
  | .other text => .error (.type (invalidValue key ++ lit " of type " ++ reprText (Bundle.typeName (.other text)) ++
      lit ". A value must be a bool, an int, a float, a str, a dict with str keys, or a list."))

/-- A config that is `text` for everyone. -/
def textConfig (configId key configType text : Text) (valueId : Option Text) : Config PyFloat where
  id := configId
  key := key
  type := .str configType
  target := { defaultValue := text, rules := [], defaultValueId := valueId }
  variations := [⟨.str text, none⟩]
  typeConstraints := none

def unconditionalConfig (configKey value : PyValue) (configId : Text) (valueId : Option Text) :
    Except ClientError (Config PyFloat) := do
  let (key, configType, text) ← encodeValue configKey value
  return textConfig configId key configType text valueId

end Encode

/-! ## What is accepted -/

section Valid

variable [Unicode]

mutual
/-- What can be written is valid, wherever it stands. -/
theorem validateJsonContents_ok (key : Text) : ∀ (path : Text) (v : PyValue), Writable false v →
    validateJsonContents key path v = .ok ()
  | _, .none, _ => rfl
  | _, .bool _, _ => rfl
  | _, .str _, _ => rfl
  | _, .int _, _ => rfl
  | _, .float _, h => by
    rw [Writable, Bool.false_or] at h
    rw [validateJsonContents, if_pos h]
  | path, .list items, h => by
    rw [Writable] at h
    rw [validateJsonContents]
    exact validateItems_ok key path 0 items h
  | path, .dict entries, h => by
    rw [Writable] at h
    rw [validateJsonContents]
    exact validateMembers_ok key path entries h
  | _, .other _, h => by
    rw [Writable] at h
    exact h.elim

theorem validateItems_ok (key : Text) : ∀ (path : Text) (index : ℕ) (vs : List PyValue), WritableList false vs →
    validateItems key path index vs = .ok ()
  | _, _, [], _ => rfl
  | path, index, v :: vs, h => by
    rw [WritableList] at h
    rw [validateItems, validateJsonContents_ok key _ v h.1]
    exact validateItems_ok key path (index + 1) vs h.2

theorem validateMembers_ok (key : Text) : ∀ (path : Text) (es : List (Text × PyValue)), WritableEntries false es →
    validateMembers key path es = .ok ()
  | _, [], _ => rfl
  | path, (_, v) :: es, h => by
    rw [WritableEntries] at h
    rw [validateMembers, validateJsonContents_ok key _ v h.1]
    exact validateMembers_ok key path es h.2
end

/-- The values that are accepted. -/
def IsNative (v : PyValue) : Prop := v ≠ .none ∧ Writable false v

theorem jsonText_ok {key text : Text} {value : PyValue} (h : jsonText key value = .ok text) : dumps .compact value = .ok text := by
  obtain ⟨-, -, h⟩ := bind_eq_ok_iff.1 h
  split at h
  · rename_i hdumps
    cases h
    exact hdumps
  · split at h <;> cases h

theorem jsonText_ok_iff (key : Text) (value : PyValue) : (∃ text, jsonText key value = .ok text) ↔ Writable false value := by
  refine Iff.trans ?_ (dumps_ok_iff .compact value)
  constructor
  · rintro ⟨text, h⟩
    exact ⟨text, jsonText_ok h⟩
  · rintro ⟨text, h⟩
    refine ⟨text, bind_eq_ok_iff.2 ⟨(), validateJsonContents_ok key [] value ((dumps_ok_iff .compact value).1 ⟨text, h⟩), ?_⟩⟩
    rw [h]

theorem integerText_ok_iff (key : Text) (n : ℤ) : (∃ text, integerText key n = .ok text) ↔ Writable false (.int n) := by
  rw [Writable, ← intRepr_ok_iff]
  unfold integerText
  cases intRepr n with
  | ok text => exact iff_of_true ⟨_, rfl⟩ ⟨_, rfl⟩
  | error e => exact iff_of_false (fun ⟨_, h⟩ => by cases h) fun ⟨_, h⟩ => by cases h

theorem plainDecimal_ok_iff (key : Text) (x : PyFloat) : (∃ text, plainDecimal key x = .ok text) ↔ Writable false (.float x) := by
  rw [Writable]
  cases x with
  | nan => exact iff_of_false (fun ⟨_, h⟩ => by cases h) Bool.false_ne_true
  | inf neg => exact iff_of_false (fun ⟨_, h⟩ => by cases h) Bool.false_ne_true
  | finite x => exact iff_of_true ⟨_, rfl⟩ rfl

theorem encodeValue_ok_iff (configKey value : PyValue) : (∃ r, encodeValue configKey value = .ok r) ↔
    (∃ key, validateConfigKey configKey = .ok key) ∧ IsNative value := by
  apply exists_bind_eq_ok
  intro key
  cases value with
  | none => exact iff_of_false (fun ⟨_, h⟩ => by cases h) fun h => h.1 rfl
  | other text =>
    refine iff_of_false (fun ⟨_, h⟩ => by cases h) fun h => ?_
    have hcontents := h.2
    rw [Writable] at hcontents
    exact hcontents
  | bool b => exact iff_of_true ⟨_, rfl⟩ ⟨nofun, trivial⟩
  | str s => exact iff_of_true ⟨_, rfl⟩ ⟨nofun, trivial⟩
  | int n =>
    rw [IsNative, and_iff_right (by simp), ← integerText_ok_iff key]
    exact exists_bind_pure_eq_ok _ _
  | float x =>
    rw [IsNative, and_iff_right (by simp), ← plainDecimal_ok_iff key]
    exact exists_bind_pure_eq_ok _ _
  | list items =>
    rw [IsNative, and_iff_right (by simp), ← jsonText_ok_iff key]
    exact exists_bind_pure_eq_ok _ _
  | dict entries =>
    rw [IsNative, and_iff_right (by simp), ← jsonText_ok_iff key]
    exact exists_bind_pure_eq_ok _ _

/-- A value is accepted under a key with content if and only if it is native. -/
theorem unconditionalConfig_ok_iff (configKey value : PyValue) (configId : Text) (valueId : Option Text) :
    (∃ definition, unconditionalConfig configKey value configId valueId = .ok definition) ↔
      (∃ key, validateConfigKey configKey = .ok key) ∧ IsNative value := by
  rw [← encodeValue_ok_iff]
  constructor
  · rintro ⟨definition, h⟩
    obtain ⟨r, hr, -⟩ := bind_eq_ok_iff.1 h
    exact ⟨r, hr⟩
  · rintro ⟨⟨key, configType, text⟩, h⟩
    exact ⟨_, bind_eq_ok_iff.2 ⟨_, h, rfl⟩⟩

end Valid

/-! ## Plain texts -/

theorem isDecimalText_of_plain {s : Text} (h : ∀ c ∈ s, c.IsPlain) : isDecimalText s = true := by
  unfold isDecimalText
  rw [List.all_eq_true]
  intro c hc
  rcases h c hc with hdigit | rfl | rfl
  · have hdigits : ∀ d < 10, decimalCharacters.contains (CodePoint.ofDigit d) = true := by decide
    unfold CodePoint.isAsciiDigit at hdigit
    rw [Bool.and_eq_true, decide_eq_true_eq, decide_eq_true_eq] at hdigit
    have hc : c = CodePoint.ofDigit (c.val - 0x30) := by
      apply Fin.ext
      rw [ofDigit_val]
      omega
    rw [hc]
    exact hdigits _ (by omega)
  · decide
  · decide

theorem isPlain_signed {neg : Bool} {s : Text} (h : ∀ c ∈ s, c.IsPlain) : ∀ c ∈ signText neg ++ s, c.IsPlain := by
  rw [List.forall_mem_append]
  refine ⟨?_, h⟩
  cases neg with
  | true =>
    intro c hc
    rw [List.mem_singleton.1 hc]
    exact .inr (.inl rfl)
  | false => exact fun _ hc => by cases hc

theorem signed_isEmpty {neg : Bool} {s : Text} {r : ℕ × ℤ} (h : decimalLiteral s = some r) :
    (signText neg ++ s).isEmpty = false := by
  rw [List.isEmpty_eq_false_iff]
  intro hnil
  rw [(List.append_eq_nil_iff.1 hnil).2] at h
  cases h

/-! ## What each class reads back -/

theorem intText_eq (n : ℤ) : intText n = signText (decide (n < 0)) ++ natText n.natAbs := by
  unfold intText signText
  by_cases hn : n < 0
  · simp only [hn, if_true, decide_true]
  · simp only [hn, if_false, decide_false, List.nil_append, Bool.false_eq_true]

theorem natText_literal (n : ℕ) : decimalLiteral (natText n) = some (digitsToNat (natText n), 0) := by
  have hliteral := decimalLiteral_whole (allDigits_natText n) (natText_ne_nil n) [] rfl nofun
  rw [List.append_nil] at hliteral
  exact hliteral

theorem parseInteger_intText {n : ℤ} (h : (natText n.natAbs).length ≤ maxStrDigits) :
    parseInteger (intText n) = some n := by
  have hplain : ∀ c ∈ intText n, c.IsPlain := by
    rw [intText_eq]
    exact isPlain_signed fun c hc => .inl (allDigits_natText _ c hc)
  have hread : intOfText (intText n) = some n := by
    unfold intOfText
    rw [intText_eq, takeSign_signed _ (natText_literal _)]
    simp only [isAsciiDigits_natText, h, decide_true, Bool.and_self, if_true, digitsToNat_natText, decide_eq_true_eq]
    congr 1
    split <;> omega
  unfold parseInteger
  rw [isDecimalText_of_plain hplain]
  simp only [Bool.not_true, Bool.false_eq_true, if_false, hread]

theorem parseFloat_plain {d : Decimal} {x : Binary64} (h : floatOfText d.plain = some (.finite x)) :
    parseFloat d.plain = some (.finite x) := by
  have hplain : ∀ c ∈ d.plain, c.IsPlain := isPlain_signed d.isPlain_unsignedPlain
  unfold parseFloat
  rw [isDecimalText_of_plain hplain, h]
  rfl

theorem dumps_collection {v : PyValue} (hv : v.IsCollection) {text : Text} (h : dumps .compact v = .ok text) :
    text.isEmpty = false := by
  rcases hv with ⟨items, rfl⟩ | ⟨entries, rfl⟩
  · rw [dumps_list] at h
    obtain ⟨parts, -, htext⟩ := bind_eq_ok_iff.1 h
    cases htext
    rfl
  · rw [dumps_dict] at h
    obtain ⟨parts, -, htext⟩ := bind_eq_ok_iff.1 h
    cases htext
    rfl

/-- `json.loads` undoes `json.dumps` on the value. -/
def Undoes (json : JsonLoads) (v : PyValue) : Prop := ∀ text, dumps .compact v = .ok text → json.loads text = some v

/-- A text of the declared type that is read as the value under every default of its class, and not under a
`str` one if the type is not readable as that. -/
structure Writes (json : JsonLoads) (value : PyValue) (configType text : Text) : Prop where
  content : text.isEmpty = false
  read : ∀ default, valueClass default = valueClass value → (∀ s, default ≠ .str s) →
    (readAs json text default).1 = some value
  str : ∀ s, value = .str s → text = s ∧ configTypesNotReadableAsString.contains configType = false
  mismatch : (valueClass value = some .bool ∨ valueClass value = some .int ∨ valueClass value = some .float) →
    configTypesNotReadableAsString.contains configType = true

variable [Unicode]

theorem writes_json {json : JsonLoads} {value : PyValue} (hvalue : value.IsCollection) (hloads : Undoes json value)
    {key text : Text} (h : jsonText key value = .ok text) : Writes json value (lit "json") text where
  content := dumps_collection hvalue (jsonText_ok h)
  read := by
    intro default hclass hstr
    have hjson := hloads text (jsonText_ok h)
    rcases hvalue with ⟨items, rfl⟩ | ⟨entries, rfl⟩
    · cases default with
      | list defaults => simp only [readAs, parseJson, hjson, Option.filter_some, hasShape, if_true]
      | _ => cases hclass
    · cases default with
      | dict defaults => simp only [readAs, parseJson, hjson, Option.filter_some, hasShape, if_true]
      | _ => cases hclass
  str := by
    rintro s rfl
    rcases hvalue with ⟨items, hitems⟩ | ⟨entries, hentries⟩
    · cases hitems
    · cases hentries
  mismatch := by
    rcases hvalue with ⟨items, rfl⟩ | ⟨entries, rfl⟩
    · rintro (h | h | h) <;> cases h
    · rintro (h | h | h) <;> cases h

/-- Every value that is accepted is written as itself. -/
theorem writes_of_encodeValue {json : JsonLoads} {configKey value : PyValue} (hcontent : value ≠ .str [])
    (hloads : value.IsCollection → Undoes json value) {key configType text : Text}
    (h : encodeValue configKey value = .ok (key, configType, text)) : Writes json value configType text := by
  obtain ⟨key', -, h⟩ := bind_eq_ok_iff.1 h
  cases value with
  | none => cases h
  | other text => cases h
  | bool b =>
    cases h
    refine ⟨by cases b <;> rfl, ?_, nofun, fun _ => rfl⟩
    intro default hclass hstr
    cases default with
    | bool b' => cases b <;> rfl
    | _ => cases hclass
  | int n =>
    obtain ⟨digits, hdigits, h⟩ := bind_eq_ok_iff.1 h
    cases h
    unfold integerText at hdigits
    split at hdigits
    · rename_i htext
      cases hdigits
      have hfits := (intRepr_ok_iff n).1 ⟨_, htext⟩
      obtain rfl := intRepr_ok htext
      refine ⟨by rw [intText_eq]; exact signed_isEmpty (natText_literal _), ?_, nofun, fun _ => rfl⟩
      intro default hclass hstr
      cases default with
      | int n' => rw [readAs, parseInteger_intText hfits, Option.map_some]
      | _ => cases hclass
    · cases hdigits
  | float x =>
    obtain ⟨plain, hplain, h⟩ := bind_eq_ok_iff.1 h
    cases h
    cases x with
    | nan => cases hplain
    | inf neg => cases hplain
    | finite x =>
      obtain ⟨d, hd, hread⟩ := Decimal.floatOfText_plain_repr x
      have hplain' : plainDecimal key (.finite x) = .ok d.normalize.plain := by
        unfold plainDecimal
        rw [hd]
        rfl
      rw [hplain'] at hplain
      cases hplain
      obtain ⟨c, p, hliteral, -⟩ := d.normalize.unsignedPlain_literal
      refine ⟨signed_isEmpty hliteral, ?_, nofun, fun _ => rfl⟩
      intro default hclass hstr
      cases default with
      | float x' => rw [readAs, parseFloat_plain hread, Option.map_some]
      | _ => cases hclass
  | str s =>
    cases h
    refine ⟨?_, ?_, ?_, ?_⟩
    · rw [List.isEmpty_eq_false_iff]
      rintro rfl
      exact hcontent rfl
    · intro default hclass hstr
      cases default with
      | str s' => exact absurd rfl (hstr s')
      | _ => cases hclass
    · rintro s' h
      cases h
      exact ⟨rfl, rfl⟩
    · rintro (h | h | h) <;> cases h
  | list items =>
    obtain ⟨document, hdocument, h⟩ := bind_eq_ok_iff.1 h
    cases h
    exact writes_json (.inl ⟨items, rfl⟩) (hloads (.inl ⟨items, rfl⟩)) hdocument
  | dict entries =>
    obtain ⟨document, hdocument, h⟩ := bind_eq_ok_iff.1 h
    cases h
    exact writes_json (.inr ⟨entries, rfl⟩) (hloads (.inr ⟨entries, rfl⟩)) hdocument

/-! ## What is put in is what is read -/

/-- What is put in is what is read: under every default of its class an accepted value is found, exactly;
and a boolean, an integer or a float is not read as text. -/
theorem native_value_read {json : JsonLoads} {configKey value : PyValue} {configId : Text} {valueId : Option Text}
    {definition : Config PyFloat} (hcontent : value ≠ .str []) (hloads : value.IsCollection → Undoes json value)
    (haccepted : unconditionalConfig configKey value configId valueId = .ok definition)
    (context : Option EvaluationContext) (segments : Option Segments) :
    (∀ default, valueClass default = valueClass value →
      parseConfigValue json (evaluate definition context segments) default = .ok ⟨value, .foundMatch, false, valueId⟩) ∧
    ((valueClass value = some .bool ∨ valueClass value = some .int ∨ valueClass value = some .float) → ∀ s,
      parseConfigValue json (evaluate definition context segments) (.str s) =
        .ok ⟨.str s, .typeMismatch, true, none⟩) := by
  obtain ⟨⟨key, configType, text⟩, hencode, h⟩ := bind_eq_ok_iff.1 haccepted
  cases h
  have hwrites := writes_of_encodeValue hcontent hloads hencode
  -- there is no rule, so the text is selected
  have hstate : evaluate (textConfig configId key configType text valueId) context segments =
      ⟨configId, key, .str configType, some text, valueId⟩ := rfl
  rw [hstate]
  have hstr : ∀ s, parseConfigValue json ⟨configId, key, .str configType, some text, valueId⟩ (.str s) = _ :=
    parseConfigValue_str rfl hwrites.content
  refine ⟨?_, ?_⟩
  · intro default hclass
    by_cases hdefault : ∃ s, default = .str s
    · obtain ⟨s, rfl⟩ := hdefault
      cases value with
      | str s' =>
        obtain ⟨rfl, hreadable⟩ := hwrites.str s' rfl
        rw [hstr, isNotReadableAsString, hreadable]
        rfl
      | _ => cases hclass
    · rw [parseConfigValue_readAs rfl hwrites.content fun s hs => hdefault ⟨s, hs⟩,
        hwrites.read default hclass fun s hs => hdefault ⟨s, hs⟩]
      rfl
  · intro hscalar s
    rw [hstr, isNotReadableAsString, hwrites.mismatch hscalar]
    rfl

/-- A document with a list in it. -/
def listDocument : PyValue := .dict [(lit "a", .list [.int 1])]

/-- The reader of that document. -/
def readsListDocument : JsonLoads where
  loads text := if text = lit "\x7b\"a\":[1]\x7d" then some listDocument else none
  loads_json := by
    intro text document h
    split at h
    · cases h
      simp [listDocument, PyValue.IsJson, PyValue.IsJsonEntries, PyValue.IsJsonList]
    · cases h

omit [Unicode] in
theorem native_value_read_document : ∃ (_ : Unicode) (definition : Config PyFloat),
    unconditionalConfig (.str (lit "k")) listDocument (lit "1") none = .ok definition ∧
      parseConfigValue readsListDocument (evaluate definition none none) (.dict []) =
        .ok ⟨listDocument, .foundMatch, false, none⟩ := by
  let _ : Unicode := .ascii
  have haccepted : unconditionalConfig (.str (lit "k")) listDocument (lit "1") none =
      .ok (textConfig (lit "1") (lit "k") (lit "json") (lit "\x7b\"a\":[1]\x7d") none) := rfl
  have hloads : Undoes readsListDocument listDocument := by
    intro text h
    have hdumps : dumps .compact listDocument = .ok (lit "\x7b\"a\":[1]\x7d") := rfl
    rw [hdumps] at h
    cases h
    rfl
  exact ⟨_, _, haccepted, (native_value_read (by simp [listDocument]) (fun _ => hloads) haccepted
    none none).1 (.dict []) rfl⟩

end ConfigDirector.Client
