/-
One number, one text: what a float and the integers equal to it are rendered as by the evaluator, in target
values and in compact JSON, next to ECMAScript's `Number::toString`.
-/
import ConfigDirector.Python.NumberToString
import ConfigDirector.Telemetry.Values

namespace ConfigDirector.Telemetry

open Python Evaluation

/-- The Python values that are the number of a float: the float, and an integer equal to it. -/
inductive Numeral (x : Binary64)
  | float
  | int (n : ℤ) (equal : (n : ℚ) = x.toRat)

namespace Numeral

variable {x : Binary64}

def scalar : Numeral x → Scalar
  | float => .float (.finite x)
  | int n _ => .int n

def value : Numeral x → PyValue
  | float => .float (.finite x)
  | int n _ => .int n

/-- The evaluator, target values and compact JSON write the number with one text. -/
def Renders (number : Numeral x) (text : Text) : Prop :=
  renderScalar number.scalar = .ok text ∧ Bundle.asString number.value = .ok text ∧ toCompactJson number.value = .ok text

/-- The number is written as ECMAScript writes it. -/
def RendersAsNumber (number : Numeral x) : Prop := number.Renders (numberToString x)

/-- The number is written as the float is. -/
def RendersAsFloat (number : Numeral x) : Prop := ∃ text, number.Renders text ∧ (float (x := x)).Renders text

/-- A float that is written out digit by digit. -/
def WrittenOut (x : Binary64) : Prop := (PyFloat.finite x).isInteger = true ∧ |x.toRat| < 10 ^ 21

/-- What is written out digit by digit is its shortest digits, and below `10^21`; any other float has its point
where both notations have an exponent of two digits, or none. -/
def Alike : Numeral x → Prop
  | float => WrittenOut x ∧ x.ShortestExact ∨ ¬ WrittenOut x ∧ ((reprDigits x).2 ≤ -9 ∨ -3 ≤ (reprDigits x).2)
  | int n _ => n.natAbs < 10 ^ 21 ∧ x.ShortestExact

/-- The three places write the text of the evaluator. -/
theorem renders_iff (number : Numeral x) (text : Text) : number.Renders text ↔ toJsonString number.scalar = text := by
  have hrender : renderScalar number.scalar = .ok (toJsonString number.scalar) := by
    cases number with
    | float => rfl
    | int n hn => exact if_neg (not_lt.2 (length_le_maxStrDigits hn))
  have hstring : Bundle.asString number.value = .ok (toJsonString number.scalar) := by cases number <;> rfl
  have hcompact : toCompactJson number.value = .ok (toJsonString number.scalar) := by
    cases number with
    | float => rw [value, toCompactJson]; rfl
    | int n hn => rw [value, toCompactJson]; rfl
  unfold Renders
  rw [hrender, hstring, hcompact, Except.ok.injEq, and_self, and_self]

theorem isInteger_iff : (PyFloat.finite x).isInteger = true ↔ ∃ n : ℤ, (n : ℚ) = x.toRat := by
  have hden : (PyFloat.finite x).isInteger = true ↔ x.toRat.den = 1 := beq_iff_eq
  rw [hden, Rat.den_eq_one_iff]
  constructor
  · exact fun h => ⟨_, h⟩
  · rintro ⟨n, hn⟩
    rw [← hn]
    rfl

theorem int_of_mag {n : ℕ} (hn : x.mag = n) : ∃ m : ℤ, (m : ℚ) = x.toRat := by
  unfold Binary64.toRat
  split
  · exact ⟨-n, by rw [hn]; push_cast; rfl⟩
  · exact ⟨n, by rw [hn]; rfl⟩

theorem truncate_intCast (n : ℤ) : truncate (n : ℚ) = n := by
  unfold truncate
  rw [Rat.num_intCast, Rat.den_intCast, Nat.cast_one, Int.tdiv_one]

/-- A float below `10^21` that is equal to an integer has the text of the integer. -/
theorem floatToJsonString_int {n : ℤ} (hn : (n : ℚ) = x.toRat) (hsmall : n.natAbs < 10 ^ 21) :
    floatToJsonString (.finite x) = intText n := by
  have hlt : |x.toRat| < 10 ^ 21 := by
    rw [abs_toRat, mag_eq_natAbs hn]
    exact_mod_cast hsmall
  have hwritten : floatToJsonString (.finite x) = intText (truncate x.toRat) := if_pos ⟨isInteger_iff.2 ⟨n, hn⟩, hlt⟩
  rw [hwritten, ← hn, truncate_intCast]

/-- Each number is written as ECMAScript writes it exactly if the two notations are alike there. -/
theorem toJsonString_eq_iff (number : Numeral x) : toJsonString number.scalar = numberToString x ↔ number.Alike := by
  cases number with
  | int n hn => exact intText_eq_numberToString_iff hn
  | float =>
    by_cases hwritten : WrittenOut x
    · obtain ⟨n, hn⟩ := isInteger_iff.1 hwritten.1
      have hsmall : n.natAbs < 10 ^ 21 := by
        have hlt := hwritten.2
        rw [abs_toRat, mag_eq_natAbs hn] at hlt
        exact_mod_cast hlt
      have htext : toJsonString (scalar (x := x) float) = intText n := floatToJsonString_int hn hsmall
      rw [htext, intText_eq_numberToString_iff hn]
      exact ⟨fun h => .inl ⟨hwritten, h.2⟩, fun h => ⟨hsmall, (h.resolve_right fun hnot => hnot.1 hwritten).2⟩⟩
    · have htext : toJsonString (scalar (x := x) float) = (PyFloat.finite x).repr := if_neg hwritten
      have hpos : 0 < x.mant := by
        -- zero is whole
        rw [Nat.pos_iff_ne_zero]
        intro hzero
        have hvalue := (x.mant_eq_zero_iff).1 hzero
        exact hwritten ⟨isInteger_iff.2 ⟨0, by rw [hvalue]; rfl⟩, by rw [hvalue]; norm_num⟩
      have hrange : (∀ n : ℕ, x.mag ≠ n) ∨ 10 ^ 21 ≤ x.mag := by
        by_cases hlarge : 10 ^ 21 ≤ x.mag
        · exact .inr hlarge
        · left
          intro n hn
          refine hwritten ⟨?_, by rw [abs_toRat]; exact not_le.1 hlarge⟩
          exact isInteger_iff.2 (int_of_mag hn)
      rw [htext, repr_eq_numberToString_iff hpos hrange]
      exact ⟨fun h => .inr ⟨hwritten, h⟩, fun h => (h.resolve_left fun hyes => hwritten hyes.1).2⟩

/-- A float and the integer equal to it have one text below `10^21` only. -/
theorem int_text_eq_float_text_iff {n : ℤ} (hn : (n : ℚ) = x.toRat) :
    toJsonString (int n hn).scalar = toJsonString (float (x := x)).scalar ↔ n.natAbs < 10 ^ 21 := by
  by_cases hsmall : n.natAbs < 10 ^ 21
  · exact iff_of_true (floatToJsonString_int hn hsmall).symm hsmall
  · -- the float has an exponent there, and is what it is in ECMAScript
    refine iff_of_false (fun heq => ?_) hsmall
    have hmag : (10 : ℚ) ^ 21 ≤ x.mag := by
      rw [mag_eq_natAbs hn]
      exact_mod_cast not_lt.1 hsmall
    have hpos : 0 < x.mant := by
      rw [Nat.pos_iff_ne_zero]
      intro hzero
      rw [← abs_toRat, (x.mant_eq_zero_iff).1 hzero] at hmag
      norm_num at hmag
    have hpoint := lt_point hpos (d := 21) (by exact_mod_cast hmag)
    have hnot : ¬ WrittenOut x := by
      intro hwritten
      have hlt := hwritten.2
      rw [abs_toRat] at hlt
      linarith
    have hfloat : (float (x := x)).Alike := .inr ⟨hnot, .inr (by omega)⟩
    rw [(toJsonString_eq_iff float).2 hfloat] at heq
    exact hsmall ((toJsonString_eq_iff (int n hn)).1 heq).1

/-- Whole numbers below `2^53` are alike. -/
theorem alike_of_lt {n : ℕ} (hn : x.mag = n) (hlt : n < 2 ^ 53) (number : Numeral x) : number.Alike := by
  have hexact : x.ShortestExact := by
    rcases Nat.eq_zero_or_pos x.mant with hzero | hpos
    · exact shortestExact_zero hzero
    · exact shortestExact_of_lt hpos hn hlt
  have hsmall : n < 10 ^ 21 := hlt.trans (by norm_num)
  cases number with
  | float =>
    left
    refine ⟨⟨?_, by rw [abs_toRat, hn]; exact_mod_cast hsmall⟩, hexact⟩
    exact isInteger_iff.2 (int_of_mag hn)
  | int m hm =>
    have hmag := mag_eq_natAbs hm
    rw [hn, Nat.cast_inj] at hmag
    exact ⟨hmag ▸ hsmall, hexact⟩

/-- Exactly the numbers the two notations are alike for are written as ECMAScript writes them, and an integer is
written as the float it is equal to exactly below `10^21`. -/
theorem renders_iff_alike (number : Numeral x) : (number.RendersAsNumber ↔ number.Alike) ∧
    (number.RendersAsFloat ↔ number = float ∨ |x.toRat| < 10 ^ 21) := by
  refine ⟨(number.renders_iff _).trans (toJsonString_eq_iff number), ?_⟩
  have htext : number.RendersAsFloat ↔ toJsonString number.scalar = toJsonString (float (x := x)).scalar := by
    unfold RendersAsFloat
    simp only [renders_iff]
    exact ⟨fun ⟨text, hnumber, hfloat⟩ => hnumber.trans hfloat.symm, fun h => ⟨_, h, rfl⟩⟩
  rw [htext]
  cases number with
  | float => exact iff_of_true rfl (.inl rfl)
  | int n hn =>
    have hsmall : n.natAbs < 10 ^ 21 ↔ |x.toRat| < 10 ^ 21 := by
      rw [abs_toRat, mag_eq_natAbs hn]
      exact_mod_cast Iff.rfl
    rw [int_text_eq_float_text_iff hn, hsmall, or_iff_right nofun]

/-- Not every number is written as ECMAScript writes it: `0.00001` is `1e-05`. -/
theorem not_rendersAsNumber : ¬ ∀ (x : Binary64) (number : Numeral x), number.RendersAsNumber := by
  intro h
  have hsmall := (h ⟨false, 5902958103587057, -69, by decide⟩ .float).1
  revert hsmall
  decide +kernel

end Numeral

end ConfigDirector.Telemetry
