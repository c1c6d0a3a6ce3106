/-
Numbers as text. Reading: `float(text)` takes what CPython's `float` takes (surrounding whitespace,
digits of any script, underscores between digits, a decimal literal or a word for an infinity or a
NaN) and rounds the number denoted once; `int(text)` is the decimal case the program needs.
Writing: `repr` of a float is its shortest decimal that reads back as the same float, laid out as
the language does.
-/
import ConfigDirector.Python.Text
import ConfigDirector.Python.Binary64
import Mathlib.Data.Nat.Log

namespace Python

/-- The digits `int` reads and `str` writes at most, in the decimal form of an integer. -/
def maxStrDigits : ℕ := 4300

/-! ## Reading -/

/-- `isspace` of C. -/
def CodePoint.isAsciiSpace (c : CodePoint) : Bool := (9 ≤ c.val && c.val ≤ 13) || c.val == 32

def CodePoint.isAscii (c : CodePoint) : Bool := c.val < 0x80

/-- A digit of any script as the ASCII digit, and whitespace as a space. What is below 127 stays, the separators of
information among it, although they are whitespace. -/
def CodePoint.toAscii (c : CodePoint) : CodePoint :=
  if c.val < 127 then c else if c.isSpace then 0x20 else ((c.decimal?).map CodePoint.ofDigit).getD 0x3F

def stripWith (p : CodePoint → Bool) (s : Text) : Text :=
  ((s.dropWhile p).reverse.dropWhile p).reverse

/-- The text `float` parses: in ASCII, without surrounding whitespace. -/
def numeralText (s : Text) : Text :=
  stripWith CodePoint.isAsciiSpace (if s.all CodePoint.isAscii then s else s.map CodePoint.toAscii)

/-- The text without its underscores; none unless each stands between two digits. -/
def dropUnderscores (prev : CodePoint) : Text → Option Text
  | [] => if prev = 0x5F then none else some []
  | c :: s =>
    if c = 0x5F then
      if prev.isAsciiDigit then dropUnderscores c s else none
    else if prev = 0x5F ∧ c.isAsciiDigit = false then none
    else (dropUnderscores c s).map (c :: ·)

/-- A leading sign: whether it is `-`, and the rest. -/
def takeSign : Text → Bool × Text
  | c :: s => if c = 0x2D then (true, s) else if c = 0x2B then (false, s) else (false, c :: s)
  | [] => (false, [])

/-- An exponent part: empty, or `e`, a sign and at least one digit, up to the end. -/
def exponentPart : Text → Option ℤ
  | [] => some 0
  | c :: s =>
    if c = 0x65 ∨ c = 0x45 then
      let (neg, digits) := takeSign s
      if isAsciiDigits digits then some (if neg then -(digitsToNat digits : ℤ) else digitsToNat digits)
      else none
    else none

/-- An unsigned decimal literal: its digits as one integer, and the power of ten it is scaled by. -/
def decimalLiteral (s : Text) : Option (ℕ × ℤ) :=
  let whole := s.takeWhile CodePoint.isAsciiDigit
  let rest := s.dropWhile CodePoint.isAsciiDigit
  match rest with
  | c :: tail =>
    if c = 0x2E then
      let fraction := tail.takeWhile CodePoint.isAsciiDigit
      let rest' := tail.dropWhile CodePoint.isAsciiDigit
      if whole.isEmpty && fraction.isEmpty then none
      else (exponentPart rest').map fun e => (digitsToNat (whole ++ fraction), e - fraction.length)
    else if whole.isEmpty then none
    else (exponentPart rest).map fun e => (digitsToNat whole, e)
  | [] => if whole.isEmpty then none else some (digitsToNat whole, 0)

/-- The float nearest to `±m · 10^e`. -/
def roundDecimal (neg : Bool) (m : ℕ) (e : ℤ) : PyFloat :=
  if 0 ≤ e then roundQuotient neg (m * 10 ^ e.toNat) 1 else roundQuotient neg m (10 ^ (-e).toNat)

/-- A number `float` reads, after its sign. -/
def unsignedFloat (neg : Bool) (s : Text) : Option PyFloat :=
  match decimalLiteral s with
  | some (m, e) => some (roundDecimal neg m e)
  | none =>
    let word := s.flatMap CodePoint.lower
    if word = lit "inf" ∨ word = lit "infinity" then some (.inf neg)
    else if word = lit "nan" then some .nan
    else none

/-- `float(s)` of a `str`; none where it raises `ValueError`. -/
def floatOfText (s : Text) : Option PyFloat :=
  match dropUnderscores 0 (numeralText s) with
  | none => none
  | some digits => unsignedFloat (takeSign digits).1 (takeSign digits).2

/-- `int(s)` of a `str` without whitespace and underscores; none where it raises `ValueError`, also for
too many digits. -/
def intOfText (s : Text) : Option ℤ :=
  let (neg, digits) := takeSign s
  if isAsciiDigits digits && digits.length ≤ maxStrDigits then
    some (if neg then -(digitsToNat digits : ℤ) else digitsToNat digits)
  else none

/-! ## Writing -/

/-- `10^d ≤ a / b`, decided on naturals. -/
def tenPowLe (d : ℤ) (a b : ℕ) : Bool :=
  if 0 ≤ d then b * 10 ^ d.toNat ≤ a else b ≤ a * 10 ^ (-d).toNat

/-- The exponent of the power of ten at or below `a / b`. -/
def decade (a b : ℕ) : ℤ :=
  let d : ℤ := (Nat.log 10 a : ℤ) - Nat.log 10 b
  if tenPowLe d a b then d else d - 1

/-- `m · 2^e` as a quotient of naturals. -/
def binaryQuotient (m : ℕ) (e : ℤ) : ℕ × ℕ := if 0 ≤ e then (m * 2 ^ e.toNat, 1) else (m, 2 ^ (-e).toNat)

/-- The decimals `c · 10^p` next to `a / b`, the nearer first, that read back as `x`. -/
def decimalsAt (x : Binary64) (a b : ℕ) (p : ℤ) : List ℕ :=
  let num := if 0 ≤ p then a else a * 10 ^ (-p).toNat
  let den := if 0 ≤ p then b * 10 ^ p.toNat else b
  let f := num / den
  let near := if roundDiv num den = f then [f, f + 1] else [f + 1, f]
  near.filter fun c => roundDecimal x.neg c p = .finite x

/-- The shortest decimal of a nonzero number: its digits as an integer, and the power of ten. The
search is over the number of digits; seventeen always suffice. -/
def shortestDecimal (x : Binary64) : ℕ × ℤ :=
  let q := binaryQuotient x.mant x.exp
  let l := decade q.1 q.2
  let tries := (List.range 17).filterMap fun (k : ℕ) =>
    ((decimalsAt x q.1 q.2 (l - k)).head?).map fun c => (c, l - (k : ℤ))
  tries.head?.getD (0, 0)

/-- The digits of the shortest decimal without trailing zeros, and the place of its point: the
number is `0.d₁d₂… · 10^point`. -/
def reprDigits (x : Binary64) : Text × ℤ :=
  let (c, p) := shortestDecimal x
  let all := natText c
  ((all.reverse.dropWhile (· = 0x30)).reverse, p + all.length)

/-- At least two digits. -/
def padTwo (n : ℕ) : Text := if n < 10 then lit "0" ++ natText n else natText n

/-- `repr` of a positive finite float with the given digits and point. -/
def layoutRepr (digits : Text) (point : ℤ) : Text :=
  if -4 < point ∧ point ≤ 16 then
    if point ≤ 0 then lit "0." ++ List.replicate (-point).toNat 0x30 ++ digits
    else if digits.length ≤ point.toNat then
      digits ++ List.replicate (point.toNat - digits.length) 0x30 ++ lit ".0"
    else digits.take point.toNat ++ lit "." ++ digits.drop point.toNat
  else
    let e := point - 1
    let mantissa := if digits.length ≤ 1 then digits else digits.take 1 ++ lit "." ++ digits.drop 1
    mantissa ++ lit "e" ++ (if e < 0 then lit "-" else lit "+") ++ padTwo e.natAbs

/-- `repr(x)`, and `str(x)`. -/
def PyFloat.repr : PyFloat → Text
  | .nan => lit "nan"
  | .inf neg => if neg then lit "-inf" else lit "inf"
  | .finite x =>
    (if x.neg then lit "-" else []) ++
      if x.mant = 0 then lit "0.0" else layoutRepr (reprDigits x).1 (reprDigits x).2

end Python
