/-
The comparisons a targeting condition is decided by: text, number, date, semantic version and array
(`_json_value`, `text_comparison`, `numeric_comparison`, `date_comparison`, `semver_comparison`,
`array_comparison`). What can raise returns `Except Exc`.
-/
import ConfigDirector.Evaluation.Types
import ConfigDirector.Python.Regex

namespace ConfigDirector.Evaluation

open Python

/-! ## `_json_value` -/

/-- `to_json_string` of a float. -/
def floatToJsonString (x : PyFloat) : Text :=
  match x with
  | .nan => lit "NaN"
  | .inf neg => if neg then lit "-Infinity" else lit "Infinity"
  | .finite y => if x.isInteger ∧ |y.toRat| < 10 ^ 21 then intText (truncate y.toRat) else x.repr

def toJsonString : Scalar → Text
  | .bool b => if b then lit "true" else lit "false"
  | .float x => floatToJsonString x
  | .int n => intText n
  | .str s => s

/-- `to_json_string` as it is called: it raises for an integer `str` refuses to write. -/
def renderScalar (s : Scalar) : Except Exc Text :=
  match s with
  | .int n => if maxStrDigits < (natText n.natAbs).length then .error .valueError else .ok (toJsonString s)
  | s => .ok (toJsonString s)

/-- The scalar a value is, if `isinstance(v, (str, int, float, bool))`. -/
def scalar? : PyValue → Option Scalar
  | .bool b => some (.bool b)
  | .int n => some (.int n)
  | .float x => some (.float x)
  | .str s => some (.str s)
  | _ => none

/-! ## `text_comparison` -/

def compareText (value operator : Text) (targetValues : List Text) : Bool :=
  let op := lower operator
  if op = lit "=" ∨ op = lit "equals" then
    match targetValues with
    | first :: _ => value == first
    | [] => false
  else if op = lit "!=" ∨ op = lit "does not equal" then
    match targetValues with
    | first :: _ => value != first
    | [] => false
  else if op = lit "is one of" then targetValues.contains value
  else if op = lit "is not one of" then !targetValues.contains value
  else if op = lit "starts with any of" then targetValues.any (startsWith value)
  else if op = lit "does not start with any of" then !targetValues.any (startsWith value)
  else if op = lit "ends with any of" then targetValues.any (endsWith value)
  else if op = lit "does not end with any of" then !targetValues.any (endsWith value)
  else false

/-! ## `numeric_comparison` -/

/-- `_DECIMAL_CHARACTERS`. -/
def decimalCharacters : Text := lit "0123456789+-.eE"

def isDecimalText (s : Text) : Bool := s.all decimalCharacters.contains

/-- `_parse_finite`. -/
def parseFinite (value : PyValue) : Except Exc (Option PyFloat) :=
  match value with
  | .int n =>
    match PyFloat.ofInt? n with
    | some x => .ok (some x)
    | none => .error .overflowError
  | .float x => .ok (if x.isFinite then some x else none)
  | .str s =>
    if s.isEmpty || !isDecimalText s then .ok none
    else
      match floatOfText s with
      | some x => .ok (if x.isFinite then some x else none)
      | none => .ok none
  | _ => .ok none

def compareNumeric (value : PyValue) (operator : Text) (targetValues : List Text) : Except Exc Bool := do
  let op := lower operator
  match ← parseFinite value with
  | none => return op = lit "!=" || op = lit "does not equal"
  | some parsed =>
    match targetValues with
    | [] => return false
    | first :: _ =>
      match ← parseFinite (.str first) with
      | none => return false
      | some target =>
        if op = lit "=" ∨ op = lit "equals" then return parsed.eq target
        else if op = lit "!=" ∨ op = lit "does not equal" then return !parsed.eq target
        else if op = lit "<" then return parsed.lt target
        else if op = lit "<=" then return parsed.lt target || parsed.eq target
        else if op = lit ">" then return target.lt parsed
        else if op = lit ">=" then return target.lt parsed || parsed.eq target
        else return false

/-! ## `date_comparison` -/

def digits (n : ℕ) : Regex := .rep CodePoint.isDecimal n (some n)

def char (c : Char) : Regex := .chars (· = CodePoint.ofChar c)

/-- `[+-]`. -/
def signChar : Regex := .chars fun c => c = 0x2B || c = 0x2D

/-- `_ISO`, its groups numbered in order: year, month, day, hour, minute, second, fraction, offset. -/
def isoPattern : Regex :=
  .seq .start <|
  .seq (.group 1 (.alt (.seq signChar (digits 6)) (digits 4))) <|
  .seq (.opt (.seq (char '-') (.seq (.group 2 (digits 2)) (.opt (.seq (char '-') (.group 3 (digits 2))))))) <|
  .seq (.opt
    (.seq (char 'T') <|
    .seq (.group 4 (digits 2)) <|
    .seq (char ':') <|
    .seq (.group 5 (digits 2)) <|
    .seq (.opt (.seq (char ':') (.seq (.group 6 (digits 2))
      (.opt (.seq (char '.') (.group 7 (.rep CodePoint.isDecimal 1 none))))))) <|
    .opt (.group 8 (.alt (.chars fun c => c = 0x5A || c = 0x7A)
      (.seq signChar (.seq (digits 2) (.seq (char ':') (digits 2)))))))) <|
  .stop

/-- `int(text)` of decimal digits of any script after an optional sign. -/
def intOfDigits (s : Text) : ℤ :=
  let (neg, ds) := takeSign s
  let n : ℕ := ds.foldl (fun n c => 10 * n + (c.decimal?).getD 0) 0
  if neg then -(n : ℤ) else n

/-- `int(match.group(n) or default)`. -/
def intGroup (m : Regex.Position) (n : ℕ) (default : ℤ) : ℤ :=
  match m.group n with
  | some s => if s.isEmpty then default else intOfDigits s
  | none => default

def isLeap (y : ℤ) : Bool := y % 4 == 0 && (y % 100 != 0 || y % 400 == 0)

def daysInMonth (y m : ℤ) : ℤ :=
  if m = 2 then if isLeap y then 29 else 28
  else if m = 4 ∨ m = 6 ∨ m = 9 ∨ m = 11 then 30
  else 31

/-- The days of the years before `y`, in the proleptic Gregorian calendar. -/
def daysBeforeYear (y : ℤ) : ℤ := (y - 1) * 365 + (y - 1) / 4 - (y - 1) / 100 + (y - 1) / 400

def daysBeforeMonth (y m : ℤ) : ℤ :=
  (((List.range 12).map fun i => (i : ℤ) + 1).filter (· < m)).foldl (fun days i => days + daysInMonth y i) 0

/-- An aware `datetime`: its UTC instant in microseconds; none where the constructor raises. -/
def datetime? (year month day hour minute second microsecond offsetMinutes : ℤ) : Option ℤ :=
  if 1 ≤ year ∧ year ≤ 9999 ∧ 1 ≤ month ∧ month ≤ 12 ∧ 1 ≤ day ∧ day ≤ daysInMonth year month ∧
      0 ≤ hour ∧ hour ≤ 23 ∧ 0 ≤ minute ∧ minute ≤ 59 ∧ 0 ≤ second ∧ second ≤ 59 then
    let days := daysBeforeYear year + daysBeforeMonth year month + day
    some ((((days * 24 + hour) * 60 + minute - offsetMinutes) * 60 + second) * 1000000 + microsecond)
  else none

/-- `timezone(sign * timedelta(hours=…, minutes=…))` in minutes: it raises from a whole day on. -/
def timezoneMinutes (offset : Text) : Except Exc ℤ :=
  let hours := intOfDigits ((offset.drop 1).take 2)
  let minutes := intOfDigits ((offset.drop 4).take 2)
  let total := (if offset.head? = some 0x2D then -1 else 1) * (hours * 60 + minutes)
  if -1440 < total ∧ total < 1440 then .ok total else .error .valueError

/-- The microseconds a fraction of a second denotes; finer digits than milliseconds are dropped. -/
def fractionMicroseconds (fraction : Text) : ℤ :=
  if fraction.isEmpty then 0
  else
    let milliseconds := fraction.take 3
    intOfDigits (milliseconds ++ List.replicate (3 - milliseconds.length) 0x30) * 1000

/-- `_parse_date`. The timezone is built outside the `try`. -/
def parseDate (value : Text) : Except Exc (Option ℤ) :=
  match isoPattern.matchStart value with
  | none => .ok none
  | some m => do
    let offset := (m.group 8).getD []
    let tzinfo ← if offset.isEmpty || offset = lit "Z" || offset = lit "z" then .ok 0 else timezoneMinutes offset
    return datetime? (intGroup m 1 0) (intGroup m 2 1) (intGroup m 3 1) (intGroup m 4 0) (intGroup m 5 0)
      (intGroup m 6 0) (fractionMicroseconds ((m.group 7).getD [])) tzinfo

def compareDate (value operator : Text) (targetValues : List Text) : Except Exc Bool :=
  match targetValues with
  | [] => .ok false
  | first :: _ => do
    let parsedValue ← parseDate value
    let parsedTarget ← parseDate first
    match parsedValue, parsedTarget with
    | some v, some t =>
      if operator = lit "is after" then return decide (t < v)
      else if operator = lit "is before" then return decide (v < t)
      else return false
    | _, _ => return false

/-! ## `semver_comparison` -/

def nonDigit : Regex := .chars fun c => !c.isDecimal

/-- `_COERCE`. -/
def coercePattern : Regex :=
  let run : Regex := .rep CodePoint.isDecimal 1 (some 16)
  .seq (.group 1 (.alt .start nonDigit)) <|
  .seq (.group 2 run) <|
  .seq (.opt (.seq (char '.') (.group 3 run))) <|
  .seq (.opt (.seq (char '.') (.group 4 run))) <|
  .alt .stop nonDigit

abbrev Version := ℕ × ℕ × ℕ

def coerce (value : Text) : Option Version :=
  (coercePattern.search value).map fun m =>
    ((intGroup m 2 0).toNat, (intGroup m 3 0).toNat, (intGroup m 4 0).toNat)

/-- `<` of tuples. -/
def Version.lt (a b : Version) : Bool :=
  a.1 < b.1 || (a.1 == b.1 && (a.2.1 < b.2.1 || (a.2.1 == b.2.1 && a.2.2 < b.2.2)))

/-- `_equals`. -/
def versionEquals (value target : Option Version) : Bool :=
  match value, target with
  | some v, some t => v == t
  | _, _ => false

/-- `_ordered`: an operand that could not be coerced never satisfies an ordering comparison. -/
def versionOrdered (value target : Option Version) (compare : Version → Version → Bool) : Bool :=
  match value, target with
  | some v, some t => compare v t
  | _, _ => false

def compareSemver (value operator : Text) (targetValues : List Text) : Bool :=
  let op := lower operator
  if (strip value).isEmpty then op = lit "is not one of"
  else
    let parsedValue := coerce value
    let targets := targetValues.map coerce
    let first := (targets.head?).getD none
    if op = lit "=" then versionEquals parsedValue first
    else if op = lit "<" then versionOrdered parsedValue first Version.lt
    else if op = lit "<=" then versionOrdered parsedValue first fun a b => Version.lt a b || a == b
    else if op = lit ">" then versionOrdered parsedValue first fun a b => Version.lt b a
    else if op = lit ">=" then versionOrdered parsedValue first fun a b => Version.lt b a || a == b
    else if op = lit "is one of" then targets.any (versionEquals parsedValue)
    else if op = lit "is not one of" then !targets.any (versionEquals parsedValue)
    else false

/-! ## `array_comparison` -/

def compareArray (value : PyValue) (operator : Text) (targetValues : List Text) : Except Exc Bool :=
  let op := lower operator
  match value with
  | .list items => do
    let elements ← (items.filterMap scalar?).mapM renderScalar
    if op = lit "contains any of" then return elements.any targetValues.contains
    else if op = lit "does not contain any of" then return !elements.any targetValues.contains
    else return false
  | _ => .ok (op = lit "does not contain any of")

end ConfigDirector.Evaluation
