/-
Python text: a `str` is a sequence of code points, lone surrogates included. The operations the
program uses on it (`lower`, `strip`, `isdigit`, `find`, comparison by code point) follow the
documented behaviour of the built-in type; the Unicode tables are those of Unicode 14.
-/
import Mathlib.Data.List.Infix
import Mathlib.Data.List.Lex
import Mathlib.Data.List.Sort
import Mathlib.Order.Fin.Basic
import Mathlib.Data.Nat.Digits.Defs

namespace Python

/-- A code point of a `str`. Surrogates (`U+D800` to `U+DFFF`) are code points like any other. -/
abbrev CodePoint := Fin 0x110000

instance CodePoint.neZero : NeZero 0x110000 := ⟨by decide⟩

/-- A Python `str`. -/
abbrev Text := List CodePoint

theorem char_toNat_lt (c : Char) : c.toNat < 0x110000 := by
  rcases c.valid with h | ⟨-, h⟩
  · exact Nat.lt_trans h (by decide)
  · exact h

def CodePoint.ofChar (c : Char) : CodePoint := ⟨c.toNat, char_toNat_lt c⟩

/-- The text of a string literal of the source. -/
def lit (s : String) : Text := s.toList.map CodePoint.ofChar

/-! ## Character classes -/

/-- A code point UTF-8 cannot encode. -/
def CodePoint.isSurrogate (c : CodePoint) : Bool := 0xD800 ≤ c.val && c.val ≤ 0xDFFF

/-- The zeros of the runs of ten decimal digits (category `Nd`). -/
def decimalZeros : List ℕ :=
  [0x30, 0x660, 0x6f0, 0x7c0, 0x966, 0x9e6, 0xa66, 0xae6, 0xb66, 0xbe6, 0xc66, 0xce6, 0xd66, 0xde6,
    0xe50, 0xed0, 0xf20, 0x1040, 0x1090, 0x17e0, 0x1810, 0x1946, 0x19d0, 0x1a80, 0x1a90, 0x1b50,
    0x1bb0, 0x1c40, 0x1c50, 0xa620, 0xa8d0, 0xa900, 0xa9d0, 0xa9f0, 0xaa50, 0xabf0, 0xff10, 0x104a0,
    0x10d30, 0x11066, 0x110f0, 0x11136, 0x111d0, 0x112f0, 0x11450, 0x114d0, 0x11650, 0x116c0, 0x11730,
    0x118e0, 0x11950, 0x11c50, 0x11d50, 0x11da0, 0x16a60, 0x16ac0, 0x16b50, 0x1d7ce, 0x1d7d8, 0x1d7e2,
    0x1d7ec, 0x1d7f6, 0x1e140, 0x1e2f0, 0x1e950, 0x1fbf0]

/-- The value of a decimal digit of any script: what `\d` matches and `int()` reads. -/
def CodePoint.decimal? (c : CodePoint) : Option ℕ :=
  (decimalZeros.find? fun z => z ≤ c.val && c.val < z + 10).map fun z => c.val - z

def CodePoint.isDecimal (c : CodePoint) : Bool := c.decimal?.isSome

/-- An ASCII digit. -/
def CodePoint.isAsciiDigit (c : CodePoint) : Bool := 0x30 ≤ c.val && c.val ≤ 0x39

/-- What `str.strip` removes. -/
def CodePoint.isSpace (c : CodePoint) : Bool :=
  (9 ≤ c.val && c.val ≤ 13) || (28 ≤ c.val && c.val ≤ 32) || c.val == 133 || c.val == 160 ||
    c.val == 5760 || (8192 ≤ c.val && c.val ≤ 8202) || c.val == 8232 || c.val == 8233 ||
    c.val == 8239 || c.val == 8287 || c.val == 12288

/-- `str.lower` of one code point, as far as its result is ASCII: outside `A` to `Z` only `U+0130`
and `U+212A` have an ASCII code point in their lower case form. Any other code point keeps its place
as a non-ASCII one, which no text of the source it is compared with contains. -/
def CodePoint.lower (c : CodePoint) : Text :=
  if h : 0x41 ≤ c.val ∧ c.val ≤ 0x5A then [⟨c.val + 32, by omega⟩]
  else if c.val = 0x130 then [0x69, 0x307]
  else if c.val = 0x212A then [0x6B]
  else [c]

/-! ## Operations -/

/-- `str.lower`. -/
def lower (s : Text) : Text := s.flatMap CodePoint.lower

/-- `str.strip`. -/
def strip (s : Text) : Text :=
  ((s.dropWhile CodePoint.isSpace).reverse.dropWhile CodePoint.isSpace).reverse

/-- `str.startswith`. -/
def startsWith (s pre : Text) : Bool := pre.isPrefixOf s

/-- `str.endswith`. -/
def endsWith (s suf : Text) : Bool := suf.isSuffixOf s

/-- `s.split(sep)` for a separator of one code point: never empty. -/
def splitOn (sep : CodePoint) : Text → List Text
  | [] => [[]]
  | c :: s =>
    if c = sep then [] :: splitOn sep s
    else
      match splitOn sep s with
      | [] => [[c]]
      | part :: parts => (c :: part) :: parts

/-- `s.replace(old, new)` for an `old` of two code points, scanning from the left. -/
def replacePair (a b : CodePoint) (new : Text) : Text → Text
  | [] => []
  | [c] => [c]
  | c :: d :: s => if c = a ∧ d = b then new ++ replacePair a b new s else c :: replacePair a b new (d :: s)

/-- `sep.join(parts)`. -/
def join (sep : Text) : List Text → Text
  | [] => []
  | [s] => s
  | s :: t :: rest => s ++ sep ++ join sep (t :: rest)

/-- `text.isascii() and text.isdigit()`. -/
def isAsciiDigits (s : Text) : Bool := !s.isEmpty && s.all CodePoint.isAsciiDigit

/-- The number a run of ASCII digits denotes: `int(text)` below Python's digit limit. -/
def digitsToNat (s : Text) : ℕ := s.foldl (fun n c => 10 * n + (c.val - 0x30)) 0

def CodePoint.ofDigit (d : ℕ) : CodePoint := ⟨0x30 + d % 10, by omega⟩

/-- The decimal digits of a natural number: `str(n)`. -/
def natText (n : ℕ) : Text :=
  if n = 0 then lit "0" else (Nat.digits 10 n).reverse.map CodePoint.ofDigit

/-- `str(n)` of an `int`. -/
def intText (n : ℤ) : Text := if n < 0 then lit "-" ++ natText n.natAbs else natText n.natAbs

/-- A text that `str.encode("utf-8")` accepts. -/
def Encodable (s : Text) : Prop := ∀ c ∈ s, c.isSurrogate = false

-- not by instance search, which goes through all code points
instance (s : Text) : Decidable (Encodable s) := List.decidableBAll _ s

/-- `sorted(keys)`: by code point. -/
def sorted (keys : List Text) : List Text := keys.insertionSort (· ≤ ·)

@[simp] theorem mem_sorted {keys : List Text} {k : Text} : k ∈ sorted keys ↔ k ∈ keys :=
  List.mem_insertionSort _

@[simp] theorem sorted_nil : sorted [] = [] := rfl

end Python
