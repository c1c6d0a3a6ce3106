/-
An integer config read through a float: the texts that denote an integer are read exactly or not at all, and no
other text is read, under exactly one condition on the text. Digits alone are read as they are; any other
notation is rounded once, and what is rounded to an integer is taken for it.
-/
import ConfigDirector.Client.NativeValues
import ConfigDirector.Python.Notation
import ConfigDirector.Python.Rounding

namespace ConfigDirector.Client

open Python Evaluation

/-! ## The texts `int` reads -/

/-- A sign and digits, no more of them than `int` reads. -/
def PlainInteger (raw : Text) : Prop :=
  ∃ (sign : Sign) (digits : Text), raw = sign.text ++ digits ∧ isAsciiDigits digits = true ∧ digits.length ≤ maxStrDigits

theorem intOfText_eq (raw : Text) : intOfText raw =
    if isAsciiDigits (takeSign raw).2 && (takeSign raw).2.length ≤ maxStrDigits then
      some (if (takeSign raw).1 then -(digitsToNat (takeSign raw).2 : ℤ) else digitsToNat (takeSign raw).2)
    else none := rfl

theorem intOfText_isSome_iff (raw : Text) : (∃ n, intOfText raw = some n) ↔ PlainInteger raw := by
  rw [intOfText_eq]
  constructor
  · rintro ⟨n, h⟩
    by_cases hdigits : (isAsciiDigits (takeSign raw).2 && decide ((takeSign raw).2.length ≤ maxStrDigits)) = true
    · rw [Bool.and_eq_true, decide_eq_true_eq] at hdigits
      obtain ⟨sign, hraw, -⟩ := exists_sign raw
      exact ⟨sign, _, hraw, hdigits⟩
    · rw [if_neg hdigits] at h
      cases h
  · rintro ⟨sign, digits, rfl, hdigits, hlength⟩
    rw [Python.takeSign_text sign (takeSign_digits ((isAsciiDigits_iff _).1 hdigits).2), hdigits, decide_eq_true hlength,
      Bool.and_self, if_pos rfl]
    exact ⟨_, rfl⟩

/-- Digits are a literal. -/
theorem decimalLiteral_digits {digits : Text} (h : isAsciiDigits digits = true) :
    decimalLiteral digits = some (digitsToNat digits, 0) := by
  obtain ⟨hne, hdigits⟩ := (isAsciiDigits_iff _).1 h
  have hliteral := decimalLiteral_whole hdigits hne [] rfl fun h => by cases h
  rw [List.append_nil] at hliteral
  exact hliteral

theorem denotesNumber_of_intOfText {raw : Text} {n : ℤ} (h : intOfText raw = some n) : DenotesNumber raw n := by
  rw [intOfText_eq] at h
  by_cases hdigits : (isAsciiDigits (takeSign raw).2 && decide ((takeSign raw).2.length ≤ maxStrDigits)) = true
  · rw [if_pos hdigits] at h
    rw [Bool.and_eq_true] at hdigits
    refine denotesNumber_iff.2 ⟨_, _, decimalLiteral_digits hdigits.1, ?_⟩
    rw [← Option.some.inj h, zpow_zero, mul_one]
    cases (takeSign raw).1 <;> simp
  · rw [if_neg hdigits] at h
    cases h

/-! ## The texts `float` reads -/

theorem isDecimalText_append {a b : Text} : isDecimalText (a ++ b) = (isDecimalText a && isDecimalText b) := List.all_append

theorem isDecimalText_digits {s : Text} (h : AllDigits s) : isDecimalText s = true :=
  isDecimalText_of_plain fun c hc => .inl (h c hc)

theorem isDecimalText_sign (sign : Sign) : isDecimalText sign.text = true := by cases sign <;> decide

/-- Decimal notation is made of decimal characters. -/
theorem isDecimalText_numeral (n : Numeral) : isDecimalText n.text = true := by
  have hfraction : isDecimalText n.fractionText = true := by
    have hdigits := n.fractionDigits
    unfold Numeral.fractionText
    cases hf : n.fraction with
    | none => rfl
    | some f =>
      rw [hf] at hdigits
      show isDecimalText (lit "." ++ f) = true
      rw [isDecimalText_append, isDecimalText_digits (s := f) hdigits, Bool.and_true]
      decide
  have hexponent : isDecimalText n.exponentText = true := by
    unfold Numeral.exponentText
    cases n.exponent with
    | none => rfl
    | some e =>
      show isDecimalText ([e.marker] ++ (e.sign.text ++ e.digits)) = true
      have hmarker : isDecimalText [e.marker] = true := by
        rcases e.isMarker with h | h <;> rw [h] <;> decide
      rw [isDecimalText_append, isDecimalText_append, isDecimalText_sign, hmarker,
        isDecimalText_digits ((isAsciiDigits_iff _).1 e.isDigits).2]
      rfl
  rw [Numeral.text, Numeral.body, isDecimalText_append, isDecimalText_append, isDecimalText_append, isDecimalText_sign,
    isDecimalText_digits n.wholeDigits, hfraction, hexponent]
  rfl

/-- What `float` makes of a text passes over the words, the whitespace and the underscores it also reads. -/
theorem floatOfText_decimal {raw : Text} (h : isDecimalText raw = true) : floatOfText raw =
    (decimalLiteral (takeSign raw).2).map fun r => roundDecimal (takeSign raw).1 r.1 r.2 := by
  have hchars : ∀ c ∈ decimalCharacters, c.isAscii = true ∧ c.isAsciiSpace = false ∧ c ≠ 0x5F := by
    have hchecked : decimalCharacters.all (fun c => c.isAscii && !c.isAsciiSpace && decide (c ≠ 0x5F)) = true := by decide
    intro c hc
    simpa [and_assoc] using List.all_eq_true.1 hchecked c hc
  have hi : ∀ c ∈ decimalCharacters, (0x69 : CodePoint) ∉ c.lower := by
    have hchecked : decimalCharacters.all (fun c => decide ((0x69 : CodePoint) ∉ c.lower)) = true := by decide
    exact fun c hc => of_decide_eq_true (List.all_eq_true.1 hchecked c hc)
  have hn : ∀ c ∈ decimalCharacters, (0x6E : CodePoint) ∉ c.lower := by
    have hchecked : decimalCharacters.all (fun c => decide ((0x6E : CodePoint) ∉ c.lower)) = true := by decide
    exact fun c hc => of_decide_eq_true (List.all_eq_true.1 hchecked c hc)
  have hall : ∀ c ∈ raw, c ∈ decimalCharacters := fun c hc => by
    have hc' := List.all_eq_true.1 h c hc
    exact List.contains_iff_mem.1 hc'
  have hascii : raw.all CodePoint.isAscii = true := List.all_eq_true.2 fun c hc => (hchars c (hall c hc)).1
  unfold floatOfText numeralText
  rw [if_pos hascii, stripWith_eq_self fun c hc => (hchars c (hall c hc)).2.1,
    dropUnderscores_eq (fun c hc => (hchars c (hall c hc)).2.2) (by decide)]
  have hrest : ∀ c ∈ (takeSign raw).2, c ∈ decimalCharacters := fun c hc => by
    obtain ⟨sign, hraw, -⟩ := exists_sign raw
    exact hall c (hraw ▸ List.mem_append_right _ hc)
  show unsignedFloat (takeSign raw).1 (takeSign raw).2 = _
  unfold unsignedFloat
  cases decimalLiteral (takeSign raw).2 with
  | some r => rfl
  | none =>
    -- no word is made of decimal characters
    have hword : ∀ {letter : CodePoint} {word : Text}, letter ∈ word → (∀ c ∈ decimalCharacters, letter ∉ c.lower) →
        (takeSign raw).2.flatMap CodePoint.lower ≠ word := by
      rintro letter word hletter hno rfl
      obtain ⟨c, hc, hin⟩ := List.mem_flatMap.1 hletter
      exact hno c (hrest c hc) hin
    simp only [Option.map_none]
    rw [if_neg, if_neg (hword (by decide) hn)]
    rintro (h | h)
    · exact hword (by decide) hi h
    · exact hword (by decide) hi h

/-! ## What is taken for an integer -/

/-- The integer a float is taken for. -/
def wholeOf : PyFloat → Option ℤ
  | .finite x => if (PyFloat.finite x).isInteger then some (truncate x.toRat) else none
  | _ => none

theorem parseInteger_eq {raw : Text} (h : isDecimalText raw = true) : parseInteger raw =
    (intOfText raw).or ((decimalLiteral (takeSign raw).2).bind fun r => wholeOf (roundDecimal (takeSign raw).1 r.1 r.2)) := by
  unfold parseInteger parseFloat
  rw [h, floatOfText_decimal h]
  simp only [Bool.not_true, Bool.false_eq_true, if_false]
  cases intOfText raw with
  | some n => rfl
  | none =>
    cases decimalLiteral (takeSign raw).2 with
    | none => rfl
    | some r =>
      simp only [Option.map_some, Option.bind_some, Option.none_or]
      cases roundDecimal (takeSign raw).1 r.1 r.2 <;> rfl

theorem wholeOf_eq_some_iff {x : Binary64} {k : ℤ} : wholeOf (.finite x) = some k ↔ x.toRat = k := by
  have hwhole : wholeOf (.finite x) = if x.toRat.den == 1 then some (truncate x.toRat) else none := rfl
  rw [hwhole]
  by_cases hden : x.toRat.den = 1
  · rw [if_pos (beq_iff_eq.2 hden), truncate, hden, Nat.cast_one, Int.tdiv_one, Option.some.injEq,
      ← (Rat.den_eq_one_iff _).1 hden, Int.cast_inj, Rat.num_intCast]
  · rw [if_neg fun h => hden (beq_iff_eq.1 h)]
    refine iff_of_false (fun h => by cases h) fun h => hden ?_
    rw [h]
    rfl

/-- A signed number. -/
def signed (neg : Bool) (q : ℚ) : ℚ := (if neg then -1 else 1) * q

theorem toRat_eq_signed (x : Binary64) : x.toRat = signed x.neg x.mag := by
  unfold Binary64.toRat signed
  cases x.neg <;> simp

theorem abs_signed (neg : Bool) {q : ℚ} (hq : 0 ≤ q) : |signed neg q| = q := by
  unfold signed
  cases neg <;> simp [abs_of_nonneg hq]

theorem signed_int_iff (neg : Bool) {q : ℚ} (hq : 0 ≤ q) : (∃ n : ℤ, signed neg q = n) ↔ ∃ n : ℕ, q = n := by
  constructor
  · rintro ⟨n, hn⟩
    refine ⟨n.natAbs, ?_⟩
    rw [← abs_signed neg hq, hn, Nat.cast_natAbs, Int.cast_abs]
  · rintro ⟨n, rfl⟩
    refine ⟨(if neg then -1 else 1) * n, ?_⟩
    unfold signed
    cases neg <;> simp

/-- The number a text denotes, that is not digits alone, is rounded to nothing, to itself or to no integer. -/
def RoundsAway (v : ℚ) : Prop :=
  overflowBound ≤ |v| ∨ (∃ n : ℤ, v = n) ∧ IsFloatForm v ∨
    (¬ ∃ n : ℤ, v = n) ∧ ∀ n : ℕ, spacing v / 2 < |(|v|) - n|

/-- What a decimal is taken for is the number it denotes, if anything, exactly under the condition. -/
theorem wholeOf_roundDecimal (neg : Bool) (c : ℕ) (p : ℤ) :
    (∀ k, wholeOf (roundDecimal neg c p) = some k → signed neg (c * (10 : ℚ) ^ p) = k) ↔
      RoundsAway (signed neg (c * (10 : ℚ) ^ p)) := by
  obtain ⟨a, b, hb, hq, hround⟩ := roundDecimal_eq neg c p
  rw [← hq, hround]
  have hb' : (0 : ℚ) < b := by exact_mod_cast hb
  have hnonneg : (0 : ℚ) ≤ (a : ℚ) / b := by positivity
  have habs := abs_signed neg hnonneg
  have hform : IsFloatForm (signed neg ((a : ℚ) / b)) ↔ IsFloatForm ((a : ℚ) / b) := by
    unfold IsFloatForm
    rw [habs, abs_of_nonneg hnonneg]
  have hspacing : spacing (signed neg ((a : ℚ) / b)) = spacing ((a : ℚ) / b) := by
    unfold spacing
    rw [habs, abs_of_nonneg hnonneg]
  unfold RoundsAway
  rw [habs, hform, hspacing, signed_int_iff neg hnonneg]
  rcases Nat.eq_zero_or_pos a with rfl | ha
  · rw [roundQuotient_zero, Nat.cast_zero, zero_div]
    refine iff_of_true (fun k hk => ?_) (.inr (.inl ⟨⟨0, by rw [Nat.cast_zero]⟩, 0, 0, by norm_num, by simp⟩))
    rw [wholeOf_eq_some_iff, Binary64.toRat_zero] at hk
    rw [← hk, signed, mul_zero]
  · rcases roundQuotient_cases ha hb neg with ⟨hfits, x, hx, hneg, hmag⟩ | ⟨hover, hinf⟩
    · have hvalue : x.toRat = signed neg (roundedMag a b) := by rw [toRat_eq_signed, hneg, hmag]
      have hpos : 0 ≤ roundedMag a b := hmag ▸ x.mag_nonneg
      rw [hx]
      simp only [wholeOf_eq_some_iff, hvalue, not_le.2 hfits, false_or]
      by_cases hint : ∃ n : ℕ, (a : ℚ) / b = n
      · -- an integer is rounded to an integer
        obtain ⟨n, hn⟩ := hint
        obtain ⟨m, hm⟩ := roundedMag_of_int ha hb hn
        rw [← roundedMag_eq_iff ha hb hn hfits]
        constructor
        · intro h
          obtain ⟨k, hk⟩ := (signed_int_iff neg hpos).2 ⟨m, hm⟩
          refine .inl ⟨⟨n, hn⟩, ?_⟩
          rw [← hn, ← abs_signed neg hpos, hk, ← h k hk, habs]
        · rintro (⟨-, heq⟩ | ⟨hno, -⟩)
          · intro k hk
            rw [← hk, heq, hn]
          · exact absurd ⟨n, hn⟩ hno
      · -- another number is taken for an integer if it is rounded to one
        constructor
        · intro h
          refine .inr ⟨hint, fun n => ?_⟩
          by_contra hnear
          obtain ⟨k, hk⟩ := (signed_int_iff neg hpos).2 ((roundedMag_int_iff ha hb).2 ⟨n, not_lt.1 hnear⟩)
          exact hint ((signed_int_iff neg hnonneg).1 ⟨k, h k hk⟩)
        · rintro (⟨hyes, -⟩ | ⟨-, hfar⟩)
          · exact absurd hyes hint
          · intro k hk
            obtain ⟨n, hn⟩ := (roundedMag_int_iff ha hb).1 ((signed_int_iff neg hpos).1 ⟨k, hk⟩)
            exact absurd hn (not_le.2 (hfar n))
    · rw [hinf]
      exact iff_of_true (fun k hk => by cases hk) (.inl hover)

/-! ## Exactly or not at all -/

/-- What an integer config should be read as: a text that denotes an integer as that integer or the default, any
other text as the default. -/
def ExactlyOrNot (raw : Text) (default : ℤ) (state : ConfigState) (result : ParseResult) : Prop :=
  (∀ n : ℤ, DenotesNumber raw n → result = matched (.int n) state ∨ result = defaulted (.int default) .invalidNumber) ∧
  ((¬ ∃ n : ℤ, DenotesNumber raw n) → ∃ reason, result = defaulted (.int default) reason)

/-- The condition on the text: it is digits alone, no more than `int` reads, or the number it denotes overflows,
is an integer with a significand below `2^53`, or is no integer and more than half the spacing of the floats away
from any. -/
def ReadsExactly (raw : Text) : Prop := ∀ v : ℚ, DenotesNumber raw v → PlainInteger raw ∨ RoundsAway v

/-- What is read of a text is the number it denotes, if anything, exactly under the condition. -/
theorem parseInteger_exact_iff (raw : Text) :
    (∀ k, parseInteger raw = some k → DenotesNumber raw k) ↔ ReadsExactly raw := by
  by_cases hdecimal : isDecimalText raw = true
  · rw [parseInteger_eq hdecimal]
    cases hint : intOfText raw with
    | some n =>
      refine iff_of_true (fun k hk => ?_) fun v _ => .inl ((intOfText_isSome_iff raw).1 ⟨n, hint⟩)
      cases hk
      exact denotesNumber_of_intOfText hint
    | none =>
      have hplain : ¬ PlainInteger raw := fun h => by
        obtain ⟨n, hn⟩ := (intOfText_isSome_iff raw).2 h
        rw [hint] at hn
        cases hn
      rw [Option.none_or]
      unfold ReadsExactly
      simp only [hplain, false_or]
      cases hliteral : decimalLiteral (takeSign raw).2 with
      | none =>
        refine iff_of_true (fun k hk => by cases hk) fun v hv => ?_
        obtain ⟨c, p, h, -⟩ := denotesNumber_iff.1 hv
        rw [hliteral] at h
        cases h
      | some r =>
        have hdenotes : DenotesNumber raw (signed (takeSign raw).1 (r.1 * (10 : ℚ) ^ r.2)) :=
          denotesNumber_iff.2 ⟨r.1, r.2, hliteral, rfl⟩
        rw [Option.bind_some]
        constructor
        · intro h v hv
          rw [hv.unique hdenotes, ← wholeOf_roundDecimal]
          exact fun k hk => hdenotes.unique (h k hk)
        · intro h k hk
          rw [← (wholeOf_roundDecimal _ _ _).2 (h _ hdenotes) k hk]
          exact hdenotes
  · have hnone : parseInteger raw = none := by
      unfold parseInteger
      rw [Bool.eq_false_of_not_eq_true hdecimal]
      rfl
    rw [hnone]
    refine iff_of_true (fun k hk => by cases hk) fun v hv => ?_
    obtain ⟨n, rfl, -⟩ := hv
    exact absurd (isDecimalText_numeral n) hdecimal

/-- An integer config is read exactly or not at all precisely under the condition. -/
theorem integer_exact_iff {state : ConfigState} {raw : Text} (hraw : state.value = some raw) (json : JsonLoads)
    (default : ℤ) :
    (∃ result, parseConfigValue json state (.int default) = .ok result ∧ ExactlyOrNot raw default state result) ↔
      ReadsExactly raw := by
  cases hempty : raw.isEmpty with
  | true =>
    have hnone : ∀ v, ¬ DenotesNumber raw v := fun v hv => by
      rw [List.isEmpty_iff] at hempty
      obtain ⟨c, p, h, -⟩ := denotesNumber_iff.1 hv
      rw [hempty] at h
      cases h
    refine iff_of_true ⟨_, parseConfigValue_empty hraw hempty _, fun n hn => absurd hn (hnone n), fun _ => ⟨_, rfl⟩⟩ ?_
    exact fun v hv => absurd hv (hnone v)
  | false =>
    have hparse : parseConfigValue json state (.int default) = _ :=
      parseConfigValue_readAs hraw hempty fun s h => by cases h
    rw [hparse, ← parseInteger_exact_iff, readAs]
    cases hinteger : parseInteger raw with
    | none =>
      refine iff_of_true ⟨_, rfl, fun n _ => .inr rfl, fun _ => ⟨_, rfl⟩⟩ fun k hk => by cases hk
    | some k =>
      have hexactly : ExactlyOrNot raw default state (matched (.int k) state) ↔ DenotesNumber raw k := by
        constructor
        · rintro ⟨hdenoted, hother⟩
          by_cases hnumber : ∃ n : ℤ, DenotesNumber raw n
          · obtain ⟨n, hn⟩ := hnumber
            rcases hdenoted n hn with h | h
            · cases h
              exact hn
            · cases h
          · obtain ⟨reason, h⟩ := hother hnumber
            cases h
        · intro hk
          refine ⟨fun n hn => .inl ?_, fun h => absurd ⟨k, hk⟩ h⟩
          rw [Int.cast_inj.1 (hn.unique hk)]
      constructor
      · rintro ⟨result, hresult, h⟩ j hj
        cases hj
        cases hresult
        exact hexactly.1 h
      · exact fun h => ⟨_, rfl, hexactly.2 (h k rfl)⟩

/-- An integer config with this text. -/
def integerState (raw : Text) : ConfigState := ⟨lit "1", lit "limit", .str (lit "integer"), some raw, none⟩

theorem integer_exact_iff_point : ∃ result, parseConfigValue .refusing (integerState (lit "26.0")) (.int 5) = .ok result ∧
    ExactlyOrNot (lit "26.0") 5 (integerState (lit "26.0")) result := by
  refine (integer_exact_iff rfl .refusing 5).2 fun v hv => .inr (.inr (.inl ?_))
  have hvalue : DenotesNumber (lit "26.0") 26 :=
    denotesNumber_literal (c := 260) (p := -1) (by decide) (by decide) (by norm_num)
  rw [hv.unique hvalue]
  exact ⟨⟨26, by norm_num⟩, 26, 0, by norm_num, by norm_num⟩

/-- The integer after `2^53` is read as `2^53`. -/
theorem odd_integer_is_changed :
    DenotesNumber (lit "9007199254740993.0") (9007199254740993 : ℤ) ∧
    parseConfigValue .refusing (integerState (lit "9007199254740993.0")) (.int 5) =
      .ok (matched (.int 9007199254740992) (integerState (lit "9007199254740993.0"))) ∧
    ¬ ∃ result, parseConfigValue .refusing (integerState (lit "9007199254740993.0")) (.int 5) = .ok result ∧
      ExactlyOrNot (lit "9007199254740993.0") 5 (integerState (lit "9007199254740993.0")) result := by
  have hdenotes : DenotesNumber (lit "9007199254740993.0") (9007199254740993 : ℤ) :=
    denotesNumber_literal (c := 90071992547409930) (p := -1) (by decide) (by decide) (by norm_num)
  have hread : parseInteger (lit "9007199254740993.0") = some 9007199254740992 := by decide +kernel
  have hparse : parseConfigValue .refusing (integerState (lit "9007199254740993.0")) (.int 5) =
      .ok (matched (.int 9007199254740992) (integerState (lit "9007199254740993.0"))) := by
    rw [parseConfigValue_readAs rfl (by decide) fun s h => by cases h]
    unfold readAs
    rw [hread]
    rfl
  refine ⟨hdenotes, hparse, ?_⟩
  rintro ⟨result, hresult, hexact, -⟩
  rw [hparse] at hresult
  cases hresult
  rcases hexact 9007199254740993 hdenotes with h | h <;> cases h

end ConfigDirector.Client
