/-
The Python values that JSON documents, traits and defaults are made of, and what the language does
with them: truth, subscripting, `get`, iteration, conversion to `float`, `int` and `str`, and the
exceptions each of these raises. A JSON document is a value whose dictionaries have distinct keys
and that holds no object of another class.
-/
import ConfigDirector.Python.Numerals
import Mathlib.Data.List.Nodup

namespace Python

/-- The built-in exceptions that operations on values raise. -/
inductive Exc
  | attributeError
  | keyError
  | typeError
  | valueError
  | overflowError
  | unicodeEncodeError
deriving DecidableEq

/-- `isinstance(error, ValueError)`: `UnicodeEncodeError` is a `ValueError`, `OverflowError` is not. -/
def Exc.isValueError : Exc → Bool
  | valueError | unicodeEncodeError => true
  | _ => false

inductive PyValue
  | none
  | bool (b : Bool)
  | int (n : ℤ)
  | float (x : PyFloat)
  | str (s : Text)
  | list (items : List PyValue)
  | dict (entries : List (Text × PyValue))
  /-- An object of any other class, with its `str()`. -/
  | other (text : Text)

namespace PyValue

/-! ## JSON documents -/

mutual
/-- A value `json.loads` can return. -/
def IsJson : PyValue → Prop
  | list items => IsJsonList items
  | dict entries => (entries.map Prod.fst).Nodup ∧ IsJsonEntries entries
  | other _ => False
  | _ => True

def IsJsonList : List PyValue → Prop
  | [] => True
  | v :: vs => v.IsJson ∧ IsJsonList vs

def IsJsonEntries : List (Text × PyValue) → Prop
  | [] => True
  | (_, v) :: es => v.IsJson ∧ IsJsonEntries es
end

theorem isJsonList_iff (vs : List PyValue) : IsJsonList vs ↔ ∀ v ∈ vs, v.IsJson := by
  induction vs with
  | nil => simp [IsJsonList]
  | cons v vs ih => simp [IsJsonList, ih]

theorem isJsonEntries_iff (es : List (Text × PyValue)) : IsJsonEntries es ↔ ∀ p ∈ es, p.2.IsJson := by
  induction es with
  | nil => simp [IsJsonEntries]
  | cons p es ih =>
    obtain ⟨k, v⟩ := p
    simp [IsJsonEntries, ih]

/-! ## Classes and truth -/

/-- `isinstance(v, (str, int, float, bool))`. -/
def isScalar : PyValue → Bool
  | bool _ | int _ | float _ | str _ => true
  | _ => false

def truthy : PyValue → Bool
  | none => false
  | bool b => b
  | int n => n != 0
  | float (.finite x) => x.mant != 0
  | float _ => true
  | str s => !s.isEmpty
  | list items => !items.isEmpty
  | dict entries => !entries.isEmpty
  | other _ => true

/-- `v or []`. -/
def orEmpty (v : PyValue) : PyValue := if v.truthy then v else list []

/-! ## Access -/

/-- `v["key"]`. -/
def subscript (v : PyValue) (key : Text) : Except Exc PyValue :=
  match v with
  | dict entries =>
    match entries.lookup key with
    | some w => .ok w
    | Option.none => .error .keyError
  | _ => .error .typeError

/-- `v.get("key", default)`. -/
def getD (v : PyValue) (key : Text) (default : PyValue) : Except Exc PyValue :=
  match v with
  | dict entries => .ok ((entries.lookup key).getD default)
  | _ => .error .attributeError

/-- `v.get("key")`. -/
def get (v : PyValue) (key : Text) : Except Exc PyValue := v.getD key none

/-- What `for x in v` goes through: a `str` yields its characters, a dictionary its keys. -/
def iter : PyValue → Except Exc (List PyValue)
  | list items => .ok items
  | dict entries => .ok (entries.map fun p => str p.1)
  | str s => .ok (s.map fun c => str [c])
  | _ => .error .typeError

/-! ## Conversions -/

/-- `float(v)`. -/
def toFloat : PyValue → Except Exc PyFloat
  | bool b => .ok (if b then .ofRat 1 else .ofRat 0)
  | int n =>
    match PyFloat.ofInt? n with
    | some x => .ok x
    | Option.none => .error .overflowError
  | float x => .ok x
  | str s =>
    match floatOfText s with
    | some x => .ok x
    | Option.none => .error .valueError
  | _ => .error .typeError

end PyValue

/-- `int(x)` of a float. -/
def PyFloat.toInt : PyFloat → Except Exc ℤ
  | .nan => .error .valueError
  | .inf _ => .error .overflowError
  | .finite x => .ok (truncate x.toRat)

/-! ## Text of a value -/

def hexDigit (n : ℕ) : CodePoint :=
  if h : n % 16 < 10 then ⟨0x30 + n % 16, by omega⟩ else ⟨0x57 + n % 16, by omega⟩

/-- The last `width` hexadecimal digits of `n`. -/
def hexText : ℕ → ℕ → Text
  | 0, _ => []
  | width + 1, n => hexText width (n / 16) ++ [hexDigit n]

/-- The tables of the language that the results do not depend on. -/
class Unicode where
  /-- `str.isprintable` of one non-ASCII code point. -/
  isPrintable : CodePoint → Bool
  surrogate_not_printable : ∀ c, c.isSurrogate = true → isPrintable c = false

/-- The table in which no code point beyond ASCII is printable. -/
@[reducible] def Unicode.ascii : Unicode := ⟨fun _ => false, fun _ _ => rfl⟩

section Repr

variable [Unicode]

def reprChar (quote c : CodePoint) : Text :=
  if c = quote ∨ c = 0x5C then [0x5C, c]
  else if c = 0x0A then lit "\\n"
  else if c = 0x0D then lit "\\r"
  else if c = 0x09 then lit "\\t"
  else if c.val < 0x20 ∨ c.val = 0x7F then lit "\\x" ++ hexText 2 c.val
  else if c.val < 0x80 then [c]
  else if Unicode.isPrintable c then [c]
  else if c.val < 0x100 then lit "\\x" ++ hexText 2 c.val
  else if c.val < 0x10000 then lit "\\u" ++ hexText 4 c.val
  else lit "\\U" ++ hexText 8 c.val

/-- `repr` of a `str`: in single quotes unless only those occur in it. -/
def reprText (s : Text) : Text :=
  let quote : CodePoint := if s.contains 0x27 && !s.contains 0x22 then 0x22 else 0x27
  [quote] ++ s.flatMap (reprChar quote) ++ [quote]

mutual
def PyValue.repr : PyValue → Text
  | .none => lit "None"
  | .bool b => if b then lit "True" else lit "False"
  | .int n => intText n
  | .float x => x.repr
  | .str s => reprText s
  | .list items => lit "[" ++ join (lit ", ") (reprList items) ++ lit "]"
  | .dict entries => lit "\x7b" ++ join (lit ", ") (reprEntries entries) ++ lit "\x7d"
  | .other text => text

def reprList : List PyValue → List Text
  | [] => []
  | v :: vs => v.repr :: reprList vs

def reprEntries : List (Text × PyValue) → List Text
  | [] => []
  | (k, v) :: es => (reprText k ++ lit ": " ++ v.repr) :: reprEntries es
end

/-- `str(v)`. -/
def PyValue.toText : PyValue → Text
  | .str s => s
  | v => v.repr

end Repr

/-! ## `json.dumps` -/

/-- `json.dumps` of a code point inside a string: with `ensure_ascii` a non-ASCII one as one or two
`\u` escapes. -/
def jsonChar (ensureAscii : Bool) (c : CodePoint) : Text :=
  if c = 0x22 then lit "\\\""
  else if c = 0x5C then lit "\\\\"
  else if c = 0x0A then lit "\\n"
  else if c = 0x0D then lit "\\r"
  else if c = 0x09 then lit "\\t"
  else if c = 0x08 then lit "\\b"
  else if c = 0x0C then lit "\\f"
  else if c.val < 0x20 then lit "\\u" ++ hexText 4 c.val
  else if !ensureAscii || c.val < 0x7F then [c]
  else if c.val < 0x10000 then lit "\\u" ++ hexText 4 c.val
  else
    let n := c.val - 0x10000
    lit "\\u" ++ hexText 4 (0xD800 + n / 0x400) ++ (lit "\\u" ++ hexText 4 (0xDC00 + n % 0x400))

def jsonString (ensureAscii : Bool) (s : Text) : Text :=
  [0x22] ++ s.flatMap (jsonChar ensureAscii) ++ [0x22]

def jsonFloat (x : PyFloat) : Text :=
  match x with
  | .nan => lit "NaN"
  | .inf neg => if neg then lit "-Infinity" else lit "Infinity"
  | .finite _ => x.repr

/-- The arguments of `json.dumps`: its separators, `ensure_ascii` and `allow_nan`. -/
structure JsonStyle where
  itemSeparator : Text
  keySeparator : Text
  ensureAscii : Bool
  allowNan : Bool

/-- `json.dumps(v)`. -/
def JsonStyle.standard : JsonStyle := ⟨lit ", ", lit ": ", true, true⟩

/-- `json.dumps(v, separators=(",", ":"))`. -/
def JsonStyle.dense : JsonStyle := ⟨lit ",", lit ":", true, true⟩

/-- `json.dumps(v, separators=(",", ":"), ensure_ascii=False, allow_nan=False)`. -/
def JsonStyle.compact : JsonStyle := ⟨lit ",", lit ":", false, false⟩

section

variable (writeInt : ℤ → Except Exc Text) (style : JsonStyle)

mutual
/-- `json.dumps` in a style, for a way to write the integers. -/
def dumpsWith : PyValue → Except Exc Text
  | .none => .ok (lit "null")
  | .bool b => .ok (if b then lit "true" else lit "false")
  | .int n => writeInt n
  | .float x => if style.allowNan || x.isFinite then .ok (jsonFloat x) else .error .valueError
  | .str s => .ok (jsonString style.ensureAscii s)
  | .list items => do
    let parts ← dumpsListWith items
    return lit "[" ++ join style.itemSeparator parts ++ lit "]"
  | .dict entries => do
    let parts ← dumpsEntriesWith entries
    return lit "\x7b" ++ join style.itemSeparator parts ++ lit "\x7d"
  | .other _ => .error .typeError

def dumpsListWith : List PyValue → Except Exc (List Text)
  | [] => .ok []
  | v :: vs => do
    let t ← dumpsWith v
    let ts ← dumpsListWith vs
    return t :: ts

def dumpsEntriesWith : List (Text × PyValue) → Except Exc (List Text)
  | [] => .ok []
  | (k, v) :: es => do
    let t ← dumpsWith v
    let ts ← dumpsEntriesWith es
    return (jsonString style.ensureAscii k ++ style.keySeparator ++ t) :: ts
end

end

/-- `json.dumps(v, separators=(",", ":"))` of a document, in which no integer has too many digits to be written. -/
def jsonDumps (v : PyValue) : Except Exc Text := dumpsWith (fun n => .ok (intText n)) .dense v

/-! ## Hashing -/

/-- What hashing and equality tell apart: numbers of all classes count as numbers. The NaN `json.loads`
reads is one object, which as an item equals itself. -/
inductive HashKey
  | none
  | number (q : ℚ)
  | infinity (neg : Bool)
  | nan
  | str (s : Text)
  | other (text : Text)
deriving DecidableEq

/-- `hash(v)`, up to what the hash is of. -/
def PyValue.hashKey : PyValue → Except Exc HashKey
  | .none => .ok .none
  | .bool b => .ok (.number (if b then 1 else 0))
  | .int n => .ok (.number n)
  | .float .nan => .ok .nan
  | .float (.inf neg) => .ok (.infinity neg)
  | .float (.finite x) => .ok (.number x.toRat)
  | .str s => .ok (.str s)
  | .list _ | .dict _ => .error .typeError
  | .other text => .ok (.other text)

/-- A list or a dictionary has no hash. -/
def PyValue.IsCollection (v : PyValue) : Prop := (∃ items, v = .list items) ∨ ∃ entries, v = .dict entries

theorem PyValue.hashKey_ok_iff (v : PyValue) : (∃ k, v.hashKey = .ok k) ↔ ¬ v.IsCollection := by
  cases v with
  | float x => cases x <;> simp [hashKey, IsCollection]
  | _ => simp [hashKey, IsCollection]

/-! ## `json.loads` -/

/-- `json.loads`, which raises a `ValueError` or returns a JSON document. -/
structure JsonLoads where
  loads : Text → Option PyValue
  loads_json : ∀ text document, loads text = some document → document.IsJson

/-- The reader that takes every text for malformed. -/
def JsonLoads.refusing : JsonLoads := ⟨fun _ => none, fun _ _ h => by cases h⟩

end Python
