/-
UTF-8: the encoder, which refuses lone surrogates, and the incremental decoder with replacement of
what is not UTF-8. The decoder is a machine that takes one byte at a time, so that what it has
returned after some chunks does not depend on where the chunks were cut.
-/
import ConfigDirector.Python.Text

namespace Python

/-- A Python `bytes`. -/
abbrev Bytes := List UInt8

/-! ## Encoding -/

/-- The UTF-8 form of one code point. -/
def CodePoint.utf8 (c : CodePoint) : Bytes :=
  if c.val < 0x80 then [UInt8.ofNat c.val]
  else if c.val < 0x800 then [UInt8.ofNat (0xC0 + c.val / 0x40), UInt8.ofNat (0x80 + c.val % 0x40)]
  else if c.val < 0x10000 then
    [UInt8.ofNat (0xE0 + c.val / 0x1000), UInt8.ofNat (0x80 + c.val / 0x40 % 0x40),
      UInt8.ofNat (0x80 + c.val % 0x40)]
  else
    [UInt8.ofNat (0xF0 + c.val / 0x40000), UInt8.ofNat (0x80 + c.val / 0x1000 % 0x40),
      UInt8.ofNat (0x80 + c.val / 0x40 % 0x40), UInt8.ofNat (0x80 + c.val % 0x40)]

/-- `s.encode("utf-8")`; none where it raises `UnicodeEncodeError`. -/
def encode? (s : Text) : Option Bytes := if Encodable s then some (s.flatMap CodePoint.utf8) else none

theorem encode?_isSome (s : Text) : (encode? s).isSome ↔ Encodable s := by
  unfold encode?
  split <;> simp [*]

/-! ## Decoding -/

/-- The state of the incremental decoder: how many continuation bytes are owed, the bits read so
far, and the range of the next byte. -/
structure Decoder where
  owed : ℕ
  bits : ℕ
  low : UInt8
  high : UInt8
deriving DecidableEq

namespace Decoder

/-- Between characters. -/
def start : Decoder := ⟨0, 0, 0x80, 0xBF⟩

/-- What stands for bytes that are not UTF-8. -/
def replacement : CodePoint := 0xFFFD

def codePoint (n : ℕ) : CodePoint := if h : n < 0x110000 then ⟨n, h⟩ else replacement

/-- The first byte of a character. -/
def first (b : UInt8) : Decoder × Text :=
  if b < 0x80 then (start, [codePoint b.toNat])
  else if b < 0xC2 then (start, [replacement])
  else if b < 0xE0 then (⟨1, b.toNat - 0xC0, 0x80, 0xBF⟩, [])
  else if b = 0xE0 then (⟨2, 0, 0xA0, 0xBF⟩, [])
  else if b = 0xED then (⟨2, 0xD, 0x80, 0x9F⟩, [])
  else if b < 0xF0 then (⟨2, b.toNat - 0xE0, 0x80, 0xBF⟩, [])
  else if b = 0xF0 then (⟨3, 0, 0x90, 0xBF⟩, [])
  else if b < 0xF4 then (⟨3, b.toNat - 0xF0, 0x80, 0xBF⟩, [])
  else if b = 0xF4 then (⟨3, 4, 0x80, 0x8F⟩, [])
  else (start, [replacement])

/-- After ED, which the second byte of a surrogate does not continue. -/
def afterED : Decoder := ⟨2, 0xD, 0x80, 0x9F⟩

/-- After two bytes of a surrogate. They are held back like the beginning of a character, and no byte continues them. -/
def surrogate : Decoder := ⟨1, 0, 1, 0⟩

/-- What stands for the bytes held back, if no byte continues them. -/
def lost (d : Decoder) : Text :=
  if d.owed = 0 then [] else if d = surrogate then [replacement, replacement] else [replacement]

theorem lost_cases (d : Decoder) : d.lost = [] ∨ d.lost = [replacement] ∨ d.lost = [replacement, replacement] := by
  unfold lost
  split
  · exact .inl rfl
  · split
    · exact .inr (.inr rfl)
    · exact .inr (.inl rfl)

/-- One byte: a byte that cannot continue the character replaces it and starts the next one. -/
def step (d : Decoder) (b : UInt8) : Decoder × Text :=
  match d.owed with
  | 0 => first b
  | n + 1 =>
    if d.low ≤ b ∧ b ≤ d.high then
      let bits := d.bits * 0x40 + (b.toNat - 0x80)
      if n = 0 then (start, [codePoint bits]) else (⟨n, bits, 0x80, 0xBF⟩, [])
    else if d = afterED ∧ 0xA0 ≤ b ∧ b ≤ 0xBF then (surrogate, [])
    else
      let (d', out) := first b
      (d', d.lost ++ out)

/-- `decoder.decode(chunk)`: the characters the chunk completes. -/
def decode (d : Decoder) : Bytes → Decoder × Text
  | [] => (d, [])
  | b :: bs =>
    let (d', out) := d.step b
    let (d'', out') := d'.decode bs
    (d'', out ++ out')

/-- `decoder.decode(b"", True)`: a character cut short is replaced. -/
def finish (d : Decoder) : Text := d.lost

@[simp] theorem decode_nil (d : Decoder) : d.decode [] = (d, []) := rfl

theorem decode_append (d : Decoder) (a b : Bytes) :
    d.decode (a ++ b) = (((d.decode a).1.decode b).1, (d.decode a).2 ++ ((d.decode a).1.decode b).2) := by
  induction a generalizing d with
  | nil => rfl
  | cons x a ih => simp only [List.cons_append, decode, ih, List.append_assoc]

end Decoder

/-- `bytes.decode("utf-8", errors="replace")`. -/
def decodeReplace (bs : Bytes) : Text :=
  (Decoder.start.decode bs).2 ++ (Decoder.start.decode bs).1.finish

/-- Decoding undoes encoding, here on one character of each length. -/
example : decodeReplace ([0x24, 0x3BB, 0x20AC, 0x1F600].flatMap CodePoint.utf8) =
    [0x24, 0x3BB, 0x20AC, 0x1F600] := by decide

end Python
