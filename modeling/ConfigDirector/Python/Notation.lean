/-
Decimal notation as a grammar: a sign, digits with or without a point, and an exponent. `float` reads exactly
these texts, of those made of decimal characters, as the float nearest to the number.
-/
import ConfigDirector.Python.DecimalText

namespace Python

/-! ## The notation -/

inductive Sign
  | none
  | plus
  | minus

def Sign.text : Sign → Text
  | none => []
  | plus => lit "+"
  | minus => lit "-"

def Sign.isMinus : Sign → Bool
  | minus => true
  | _ => false

def Sign.factor (sign : Sign) : ℤ := if sign.isMinus then -1 else 1

/-- `e` or `E`, a sign and digits. -/
structure Exponent where
  marker : CodePoint
  sign : Sign
  digits : Text
  isMarker : marker = 0x65 ∨ marker = 0x45
  isDigits : isAsciiDigits digits = true

def Exponent.text (e : Exponent) : Text := e.marker :: (e.sign.text ++ e.digits)

def Exponent.value (e : Exponent) : ℤ := e.sign.factor * digitsToNat e.digits

/-- A number in decimal notation: at least one digit, before or after the point. -/
structure Numeral where
  sign : Sign
  whole : Text
  fraction : Option Text
  exponent : Option Exponent
  wholeDigits : AllDigits whole
  fractionDigits : AllDigits (fraction.getD [])
  nonempty : whole ++ fraction.getD [] ≠ []

namespace Numeral

def fractionText (n : Numeral) : Text := n.fraction.elim [] fun f => 0x2E :: f

def exponentText (n : Numeral) : Text := n.exponent.elim [] Exponent.text

/-- What follows the sign. -/
def body (n : Numeral) : Text := n.whole ++ (n.fractionText ++ n.exponentText)

def text (n : Numeral) : Text := n.sign.text ++ n.body

/-- The digits as one integer. -/
def coefficient (n : Numeral) : ℕ := digitsToNat (n.whole ++ n.fraction.getD [])

/-- The power of ten they are scaled by. -/
def power (n : Numeral) : ℤ := n.exponent.elim 0 Exponent.value - (n.fraction.getD []).length

def value (n : Numeral) : ℚ := n.sign.factor * (n.coefficient * (10 : ℚ) ^ n.power)

end Numeral

/-- The text is a decimal notation of the number. -/
def DenotesNumber (text : Text) (v : ℚ) : Prop := ∃ n : Numeral, n.text = text ∧ n.value = v

/-! ## Reading the parts -/

theorem takeSign_text (sign : Sign) {s : Text} (h : takeSign s = (false, s)) : takeSign (sign.text ++ s) = (sign.isMinus, s) := by
  cases sign with
  | none => exact h
  | plus => rfl
  | minus => rfl

theorem takeSign_digits {s : Text} (h : AllDigits s) : takeSign s = (false, s) := by
  cases s with
  | nil => rfl
  | cons c s =>
    have hc := h c List.mem_cons_self
    rw [takeSign, if_neg, if_neg]
    · rintro rfl
      cases hc
    · rintro rfl
      cases hc

/-- A text is a sign and the rest. -/
theorem exists_sign (s : Text) : ∃ sign : Sign, s = sign.text ++ (takeSign s).2 ∧ sign.isMinus = (takeSign s).1 := by
  cases s with
  | nil => exact ⟨.none, rfl, rfl⟩
  | cons c s =>
    by_cases hminus : c = 0x2D
    · subst hminus
      exact ⟨.minus, rfl, rfl⟩
    · by_cases hplus : c = 0x2B
      · subst hplus
        exact ⟨.plus, rfl, rfl⟩
      · refine ⟨.none, ?_, ?_⟩
        · rw [takeSign, if_neg hminus, if_neg hplus]
          rfl
        · rw [takeSign, if_neg hminus, if_neg hplus]
          rfl

theorem exponentPart_cons {c : CodePoint} {s : Text} (h : c = 0x65 ∨ c = 0x45) : exponentPart (c :: s) =
    if isAsciiDigits (takeSign s).2 then
      some (if (takeSign s).1 then -(digitsToNat (takeSign s).2 : ℤ) else digitsToNat (takeSign s).2)
    else none := by
  rw [exponentPart, if_pos h]

theorem exponentPart_exponent (e : Exponent) : exponentPart e.text = some e.value := by
  have hsign : takeSign (e.sign.text ++ e.digits) = (e.sign.isMinus, e.digits) :=
    takeSign_text _ (takeSign_digits ((isAsciiDigits_iff _).1 e.isDigits).2)
  rw [Exponent.text, exponentPart_cons e.isMarker, hsign, if_pos e.isDigits]
  unfold Exponent.value Sign.factor
  cases e.sign.isMinus <;> simp

theorem exists_exponent {s : Text} {p : ℤ} (h : exponentPart s = some p) :
    ∃ exponent : Option Exponent, s = exponent.elim [] Exponent.text ∧ exponent.elim 0 Exponent.value = p := by
  cases s with
  | nil => exact ⟨none, rfl, Option.some.inj h⟩
  | cons c s =>
    by_cases hmarker : c = 0x65 ∨ c = 0x45
    · rw [exponentPart_cons hmarker] at h
      by_cases hdigits : isAsciiDigits (takeSign s).2 = true
      · rw [if_pos hdigits] at h
        obtain ⟨sign, hs, hminus⟩ := exists_sign s
        refine ⟨some ⟨c, sign, (takeSign s).2, hmarker, hdigits⟩, congrArg (c :: ·) hs, ?_⟩
        rw [← Option.some.inj h]
        show sign.factor * _ = _
        unfold Sign.factor
        rw [hminus]
        cases (takeSign s).1 <;> simp
      · rw [if_neg hdigits] at h
        cases h
    · rw [exponentPart, if_neg hmarker] at h
      cases h

/-! ## Reading a literal -/

theorem endsDigits_exponent (exponent : Option Exponent) : EndsDigits (exponent.elim [] Exponent.text) := by
  cases exponent with
  | none => rfl
  | some e =>
    refine List.takeWhile_cons_of_neg ?_
    rcases e.isMarker with h | h <;> rw [h] <;> decide

theorem exponentPart_elim (exponent : Option Exponent) :
    exponentPart (exponent.elim [] Exponent.text) = some (exponent.elim 0 Exponent.value) := by
  cases exponent with
  | none => rfl
  | some e => exact exponentPart_exponent e

theorem Numeral.decimalLiteral_body (n : Numeral) : decimalLiteral n.body = some (n.coefficient, n.power) := by
  have hexponent := exponentPart_elim n.exponent
  have hends := endsDigits_exponent n.exponent
  have hne := n.nonempty
  unfold body fractionText exponentText coefficient power
  cases hfraction : n.fraction with
  | none =>
    rw [hfraction, Option.getD_none, List.append_nil] at hne
    have hpoint : (n.exponent.elim [] Exponent.text).head? ≠ some 0x2E := by
      cases n.exponent with
      | none => exact fun h => by cases h
      | some e =>
        intro h
        have hmarker : e.marker = 0x2E := Option.some.inj h
        rcases e.isMarker with h | h <;> rw [h] at hmarker <;> cases hmarker
    rw [Option.elim_none, List.nil_append, Option.getD_none, List.append_nil, List.length_nil,
      decimalLiteral_whole n.wholeDigits hne _ hends hpoint, hexponent, Option.map_some, Nat.cast_zero, sub_zero]
  | some f =>
    have hdigits := n.fractionDigits
    rw [hfraction, Option.getD_some] at hdigits hne
    have hpoint : EndsDigits (0x2E :: (f ++ n.exponent.elim [] Exponent.text)) := rfl
    rw [Option.elim_some, Option.getD_some]
    unfold decimalLiteral
    simp only [List.cons_append, takeWhile_digits n.wholeDigits hpoint, dropWhile_digits n.wholeDigits hpoint, if_true,
      takeWhile_digits hdigits hends, dropWhile_digits hdigits hends, hexponent, Option.map_some]
    refine if_neg fun hempty => hne ?_
    rw [Bool.and_eq_true, List.isEmpty_iff, List.isEmpty_iff] at hempty
    rw [hempty.1, hempty.2, List.append_nil]

theorem exists_numeral {s : Text} {c : ℕ} {p : ℤ} (sign : Sign) (h : decimalLiteral s = some (c, p)) :
    ∃ n : Numeral, n.sign = sign ∧ n.body = s ∧ n.coefficient = c ∧ n.power = p := by
  have htake : AllDigits (s.takeWhile CodePoint.isAsciiDigit) := List.all_eq_true.1 List.all_takeWhile
  have hsplit := (List.takeWhile_append_dropWhile (p := CodePoint.isAsciiDigit) (l := s)).symm
  unfold decimalLiteral at h
  simp only at h
  generalize s.takeWhile CodePoint.isAsciiDigit = whole at *
  generalize s.dropWhile CodePoint.isAsciiDigit = rest at *
  cases rest with
  | nil =>
    simp only at h
    split at h
    · cases h
    · rename_i hne
      obtain ⟨rfl, rfl⟩ := Prod.mk.inj (Option.some.inj h)
      rw [List.isEmpty_iff] at hne
      refine ⟨⟨sign, whole, none, none, htake, fun c hc => (by cases hc), by simpa using hne⟩, rfl, ?_, ?_, rfl⟩
      · rw [hsplit]
        rfl
      · show digitsToNat (whole ++ []) = _
        rw [List.append_nil]
  | cons d rest =>
    simp only at h
    split at h
    · rename_i hpoint
      have hfraction : AllDigits (rest.takeWhile CodePoint.isAsciiDigit) := List.all_eq_true.1 List.all_takeWhile
      have hrest := (List.takeWhile_append_dropWhile (p := CodePoint.isAsciiDigit) (l := rest)).symm
      generalize rest.takeWhile CodePoint.isAsciiDigit = fraction at *
      generalize rest.dropWhile CodePoint.isAsciiDigit = tail at *
      split at h
      · cases h
      · rename_i hne
        obtain ⟨e, he, hr⟩ := Option.map_eq_some_iff.1 h
        obtain ⟨rfl, rfl⟩ := Prod.mk.inj hr
        obtain ⟨exponent, htail, rfl⟩ := exists_exponent he
        have hne' : whole ++ fraction ≠ [] := fun hnil => hne (by
          rw [(List.append_eq_nil_iff.1 hnil).1, (List.append_eq_nil_iff.1 hnil).2]
          rfl)
        refine ⟨⟨sign, whole, some fraction, exponent, htake, hfraction, hne'⟩, rfl, ?_, rfl, rfl⟩
        rw [hsplit, hrest, htail, hpoint]
        rfl
    · split at h
      · cases h
      · rename_i hne
        obtain ⟨e, he, hr⟩ := Option.map_eq_some_iff.1 h
        obtain ⟨rfl, rfl⟩ := Prod.mk.inj hr
        obtain ⟨exponent, htail, rfl⟩ := exists_exponent he
        rw [List.isEmpty_iff] at hne
        refine ⟨⟨sign, whole, none, exponent, htake, fun c hc => (by cases hc), by simpa using hne⟩, rfl, ?_, ?_, ?_⟩
        · rw [hsplit, htail]
          rfl
        · show digitsToNat (whole ++ []) = _
          rw [List.append_nil]
        · show _ - (([] : Text).length : ℤ) = _
          rw [List.length_nil, Nat.cast_zero, sub_zero]

theorem Numeral.takeSign_text (n : Numeral) : takeSign n.text = (n.sign.isMinus, n.body) :=
  Python.takeSign_text _ (takeSign_literal n.decimalLiteral_body)

theorem denotesNumber_iff {text : Text} {v : ℚ} : DenotesNumber text v ↔
    ∃ c p, decimalLiteral (takeSign text).2 = some (c, p) ∧
      v = (if (takeSign text).1 then -1 else 1) * ((c : ℚ) * (10 : ℚ) ^ p) := by
  constructor
  · rintro ⟨n, rfl, rfl⟩
    refine ⟨n.coefficient, n.power, ?_, ?_⟩
    · rw [n.takeSign_text]
      exact n.decimalLiteral_body
    · rw [n.takeSign_text, Numeral.value, Sign.factor]
      cases n.sign.isMinus <;> simp
  · rintro ⟨c, p, h, rfl⟩
    obtain ⟨sign, htext, hminus⟩ := exists_sign text
    obtain ⟨n, hsign, hbody, hc, hp⟩ := exists_numeral sign h
    refine ⟨n, ?_, ?_⟩
    · rw [Numeral.text, hsign, hbody]
      exact htext.symm
    · rw [Numeral.value, hsign, Sign.factor, hminus, hc, hp]
      cases (takeSign text).1 <;> simp

/-- A literal without a sign. -/
theorem denotesNumber_literal {text : Text} {c : ℕ} {p : ℤ} {v : ℚ} (hsign : takeSign text = (false, text))
    (h : decimalLiteral text = some (c, p)) (hv : v = c * (10 : ℚ) ^ p) : DenotesNumber text v :=
  denotesNumber_iff.2 ⟨c, p, by rw [hsign]; exact h, by rw [hsign, hv]; simp⟩

/-- A text denotes one number at most. -/
theorem DenotesNumber.unique {text : Text} {v w : ℚ} (hv : DenotesNumber text v) (hw : DenotesNumber text w) : v = w := by
  obtain ⟨c, p, h, rfl⟩ := denotesNumber_iff.1 hv
  obtain ⟨c', p', h', rfl⟩ := denotesNumber_iff.1 hw
  rw [h] at h'
  obtain ⟨rfl, rfl⟩ := Prod.mk.inj (Option.some.inj h')
  rfl

end Python
