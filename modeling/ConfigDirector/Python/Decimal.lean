/-
`decimal.Decimal` of a decimal literal, `normalize` in the default context, and `format(d, "f")`, the plain
notation. The plain notation of a float's `repr` reads back as the float.
-/
import ConfigDirector.Python.DecimalText

namespace Python

/-! ## Model -/

/-- A finite `Decimal`: `±coefficient · 10^exponent`. -/
structure Decimal where
  neg : Bool
  coefficient : ℕ
  exponent : ℤ

/-- The digits without the zeros at their end. -/
def stripZeros (s : Text) : Text := (s.reverse.dropWhile (· = 0x30)).reverse

/-- `s.zfill(width)` of digits. -/
def zfill (width : ℕ) (s : Text) : Text := List.replicate (width - s.length) 0x30 ++ s

namespace Decimal

/-- The digits the default context keeps. -/
def precision : ℕ := 28

/-- `Decimal(s)` of a decimal literal, digit for digit. -/
def ofText (s : Text) : Option Decimal :=
  (decimalLiteral (takeSign s).2).map fun r => ⟨(takeSign s).1, r.1, r.2⟩

/-- Rounded to the context, ties to even. -/
def rounded (d : Decimal) : Decimal :=
  if d.coefficient < 10 ^ precision then d
  else
    let excess := (natText d.coefficient).length - precision
    ⟨d.neg, roundDiv d.coefficient (10 ^ excess), d.exponent + excess⟩

/-- `d.normalize()`. -/
def normalize (d : Decimal) : Decimal :=
  let r := d.rounded
  if r.coefficient = 0 then ⟨r.neg, 0, 0⟩
  else
    let digits := natText r.coefficient
    let kept := stripZeros digits
    ⟨r.neg, digitsToNat kept, r.exponent + (digits.length - kept.length : ℕ)⟩

/-- `format(d, "f")` after the sign. -/
def unsignedPlain (d : Decimal) : Text :=
  if 0 ≤ d.exponent then natText (d.coefficient * 10 ^ d.exponent.toNat)
  else
    let places := (-d.exponent).toNat
    let digits := zfill (places + 1) (natText d.coefficient)
    digits.take (digits.length - places) ++ lit "." ++ digits.drop (digits.length - places)

/-- `format(d, "f")`. -/
def plain (d : Decimal) : Text := signText d.neg ++ d.unsignedPlain

/-- `|d|`. -/
def mag (d : Decimal) : ℚ := d.coefficient * (10 : ℚ) ^ d.exponent

/-- The float nearest to `d`. -/
def toFloat (d : Decimal) : PyFloat := roundDecimal d.neg d.coefficient d.exponent

theorem toFloat_congr {d d' : Decimal} (hneg : d.neg = d'.neg) (hmag : d.mag = d'.mag) : d.toFloat = d'.toFloat := by
  unfold toFloat
  rw [hneg]
  exact roundDecimal_congr hmag d'.neg

end Decimal

/-! ## Zeros -/

theorem stripZeros_append (s : Text) : ∃ n, s = stripZeros s ++ List.replicate n 0x30 := by
  have hsplit := List.takeWhile_append_dropWhile (p := fun c : CodePoint => decide (c = 0x30)) (l := s.reverse)
  have hzeros : s.reverse.takeWhile (fun c => decide (c = 0x30)) =
      List.replicate (s.reverse.takeWhile fun c => decide (c = 0x30)).length 0x30 := by
    rw [List.eq_replicate_length]
    intro c hc
    exact of_decide_eq_true (List.all_eq_true.1 List.all_takeWhile c hc)
  refine ⟨(s.reverse.takeWhile fun c => decide (c = 0x30)).length, ?_⟩
  have hreversed := congrArg List.reverse hsplit
  rw [List.reverse_append, List.reverse_reverse, hzeros, List.reverse_replicate] at hreversed
  exact hreversed.symm

/-- The zeros at the end go into the exponent. -/
theorem stripZeros_value (s : Text) (e : ℤ) :
    (digitsToNat (stripZeros s) : ℚ) * (10 : ℚ) ^ (e + (s.length - (stripZeros s).length : ℕ)) =
      digitsToNat s * (10 : ℚ) ^ e := by
  obtain ⟨n, hn⟩ := stripZeros_append s
  have hlength := congrArg List.length hn
  rw [List.length_append, List.length_replicate] at hlength
  have hdigits : digitsToNat s = digitsToNat (stripZeros s) * 10 ^ n := by
    conv => lhs; rw [hn]
    rw [digitsToNat_append, digitsToNat_zeros, List.length_replicate, add_zero]
  rw [hdigits, hlength, Nat.add_sub_cancel_left, zpow_add₀ (by norm_num), zpow_natCast]
  push_cast
  ring

theorem stripZeros_subset (s : Text) : stripZeros s ⊆ s := by
  intro c hc
  exact List.mem_reverse.1 ((List.dropWhile_sublist _).subset (List.mem_reverse.1 hc))

theorem length_zfill (width : ℕ) (s : Text) : width ≤ (zfill width s).length := by
  unfold zfill
  rw [List.length_append, List.length_replicate]
  omega

theorem digitsToNat_zfill (width : ℕ) (s : Text) : digitsToNat (zfill width s) = digitsToNat s := by
  unfold zfill
  rw [digitsToNat_append, digitsToNat_zeros, zero_mul, zero_add]

theorem allDigits_zfill {s : Text} (h : AllDigits s) (width : ℕ) : AllDigits (zfill width s) :=
  allDigits_append.2 ⟨allDigits_zeros _, h⟩

namespace Decimal

/-! ## The plain notation -/

/-- What `normalize` keeps of a decimal that fits the context. -/
theorem normalize_spec {d : Decimal} (h : d.coefficient < 10 ^ precision) :
    d.normalize.neg = d.neg ∧ d.normalize.mag = d.mag := by
  have hrounded : d.rounded = d := if_pos h
  unfold normalize
  simp only [hrounded]
  split
  · rename_i hzero
    refine ⟨rfl, ?_⟩
    unfold mag
    rw [hzero]
    simp
  · refine ⟨rfl, ?_⟩
    unfold mag
    simp only
    rw [stripZeros_value, digitsToNat_natText]

/-- The plain notation is a literal of the same number. -/
theorem unsignedPlain_literal (d : Decimal) : ∃ c p, decimalLiteral d.unsignedPlain = some (c, p) ∧
    (c : ℚ) * (10 : ℚ) ^ p = d.mag := by
  unfold unsignedPlain mag
  split
  · rename_i he
    obtain ⟨n, hn⟩ := Int.eq_ofNat_of_zero_le he
    have hliteral := decimalLiteral_whole (allDigits_natText (d.coefficient * 10 ^ d.exponent.toNat)) (natText_ne_nil _)
      [] rfl nofun
    rw [List.append_nil] at hliteral
    refine ⟨_, _, hliteral, ?_⟩
    rw [digitsToNat_natText, hn, Int.toNat_natCast, zpow_zero, mul_one, zpow_natCast]
    push_cast
    rfl
  · rename_i he
    obtain ⟨n, hn⟩ : ∃ n : ℕ, d.exponent = -(n : ℤ) := ⟨(-d.exponent).toNat, by omega⟩
    simp only [hn, neg_neg, Int.toNat_natCast]
    have hdigits := allDigits_zfill (allDigits_natText d.coefficient) (n + 1)
    have hlength := length_zfill (n + 1) (natText d.coefficient)
    have hvalue := digitsToNat_zfill (n + 1) (natText d.coefficient)
    generalize zfill (n + 1) (natText d.coefficient) = digits at hdigits hlength hvalue
    have hwhole : digits.take (digits.length - n) ≠ [] := by
      rw [← List.length_pos_iff_ne_nil, List.length_take]
      omega
    have hfraction : (digits.drop (digits.length - n)).length = n := by
      rw [List.length_drop]
      omega
    have hliteral := decimalLiteral_point (hdigits.subset (List.take_subset (digits.length - n) digits))
      (hdigits.subset (List.drop_subset (digits.length - n) digits)) hwhole [] rfl
    rw [List.append_nil] at hliteral
    refine ⟨_, _, (congrArg decimalLiteral (List.append_assoc _ _ _)).trans hliteral, ?_⟩
    rw [List.take_append_drop, hvalue, digitsToNat_natText, hfraction, zero_sub]

theorem isPlain_unsignedPlain (d : Decimal) : ∀ c ∈ d.unsignedPlain, c.IsPlain := by
  unfold unsignedPlain
  split
  · exact fun c hc => .inl (allDigits_natText _ c hc)
  · have hdigits := allDigits_zfill (allDigits_natText d.coefficient) ((-d.exponent).toNat + 1)
    simp only
    rw [List.forall_mem_append, List.forall_mem_append]
    refine ⟨⟨fun c hc => .inl (hdigits c (List.take_subset _ _ hc)), ?_⟩,
      fun c hc => .inl (hdigits c (List.drop_subset _ _ hc))⟩
    intro c hc
    rw [List.mem_singleton.1 hc]
    exact .inr (.inr rfl)

/-- `float` of the plain notation. -/
theorem floatOfText_plain (d : Decimal) : floatOfText d.plain = some d.toFloat := by
  obtain ⟨c, p, hliteral, hmag⟩ := d.unsignedPlain_literal
  unfold plain
  rw [Python.floatOfText_plain d.neg d.isPlain_unsignedPlain hliteral]
  exact congrArg some (toFloat_congr (d := ⟨d.neg, c, p⟩) rfl hmag)

end Decimal

/-! ## What `repr` writes -/

theorem padTwo_spec (n : ℕ) : isAsciiDigits (padTwo n) = true ∧ digitsToNat (padTwo n) = n := by
  unfold padTwo
  split
  · constructor
    · exact (isAsciiDigits_iff _).2 ⟨List.cons_ne_nil _ _, allDigits_append.2 ⟨allDigits_zeros 1, allDigits_natText n⟩⟩
    · rw [digitsToNat_append, digitsToNat_natText]
      show 0 * _ + n = n
      rw [zero_mul, zero_add]
  · exact ⟨isAsciiDigits_natText n, digitsToNat_natText n⟩

theorem exponentPart_text (e : ℤ) :
    exponentPart (lit "e" ++ (if e < 0 then lit "-" else lit "+") ++ padTwo e.natAbs) = some e := by
  obtain ⟨hdigits, hvalue⟩ := padTwo_spec e.natAbs
  split
  · show (if isAsciiDigits (padTwo e.natAbs) then some (-(digitsToNat (padTwo e.natAbs) : ℤ)) else none) = some e
    rw [if_pos hdigits, hvalue]
    congr 1
    omega
  · show (if isAsciiDigits (padTwo e.natAbs) then some (digitsToNat (padTwo e.natAbs) : ℤ) else none) = some e
    rw [if_pos hdigits, hvalue]
    congr 1
    omega

/-- A literal of `0.digits · 10^point`. -/
def Denotes (s digits : Text) (point : ℤ) : Prop := ∃ c p, decimalLiteral s = some (c, p) ∧
  (c : ℚ) * (10 : ℚ) ^ p = digitsToNat digits * (10 : ℚ) ^ (point - digits.length) ∧ c < 10 ^ Decimal.precision

section Layout

variable {digits : Text} (h : AllDigits digits) (hsmall : digitsToNat digits ≤ 10 ^ 17)

include h hsmall

/-- The point is before the digits. -/
theorem denotes_leading (n : ℕ) : Denotes (lit "0." ++ List.replicate n 0x30 ++ digits) digits (-(n : ℤ)) := by
  have hliteral := decimalLiteral_point (allDigits_zeros 1) (allDigits_append.2 ⟨allDigits_zeros n, h⟩)
    (List.cons_ne_nil _ _) [] rfl
  rw [List.append_nil] at hliteral
  have hvalue : digitsToNat (List.replicate 1 0x30 ++ (List.replicate n 0x30 ++ digits)) = digitsToNat digits := by
    rw [digitsToNat_append, digitsToNat_append, digitsToNat_zeros, digitsToNat_zeros, zero_mul, zero_mul, zero_add, zero_add]
  refine ⟨_, _, (congrArg decimalLiteral (List.append_assoc _ _ _)).trans hliteral, ?_, ?_⟩
  · rw [hvalue, List.length_append, List.length_replicate]
    congr 2
    push_cast
    ring
  · rw [hvalue]
    exact hsmall.trans_lt (by norm_num [Decimal.precision])

omit hsmall in
/-- The point is after the digits. -/
theorem denotes_trailing (hne : digits ≠ []) {n : ℕ} (hn : digits.length ≤ n) (hbound : n ≤ 16) :
    Denotes (digits ++ List.replicate (n - digits.length) 0x30 ++ lit ".0") digits n := by
  have hwhole : AllDigits (digits ++ List.replicate (n - digits.length) 0x30) :=
    allDigits_append.2 ⟨h, allDigits_zeros _⟩
  have hliteral := decimalLiteral_point hwhole (allDigits_zeros 1) (List.append_ne_nil_of_left_ne_nil hne _)
    [] rfl
  rw [List.append_nil] at hliteral
  have hvalue : digitsToNat (digits ++ List.replicate (n - digits.length) 0x30 ++ List.replicate 1 0x30) =
      digitsToNat digits * 10 ^ (n - digits.length) * 10 := by
    rw [digitsToNat_append, digitsToNat_append, digitsToNat_zeros, digitsToNat_zeros, List.length_replicate,
      List.length_replicate, add_zero, add_zero, pow_one]
  refine ⟨_, _, hliteral, ?_, ?_⟩
  · rw [hvalue, List.length_replicate, zero_sub]
    have hsplit : (n : ℤ) - digits.length = ((n - digits.length : ℕ) : ℤ) := by omega
    rw [hsplit, zpow_natCast, zpow_neg, Nat.cast_one, zpow_one]
    push_cast
    rw [mul_assoc _ (10 : ℚ), mul_inv_cancel₀ (by norm_num), mul_one]
  · rw [hvalue]
    have hlt := digitsToNat_lt h
    calc digitsToNat digits * 10 ^ (n - digits.length) * 10
        ≤ 10 ^ digits.length * 10 ^ (n - digits.length) * 10 := by gcongr
      _ = 10 ^ (n + 1) := by rw [← pow_add, Nat.add_sub_cancel' hn, pow_succ]
      _ ≤ 10 ^ 17 := Nat.pow_le_pow_right (by norm_num) (by omega)
      _ < 10 ^ Decimal.precision := by norm_num [Decimal.precision]

/-- The point is after the first `n` digits, with an exponent. -/
theorem denotes_between {n : ℕ} (hn : 0 < n) (hlt : n < digits.length) (tail : Text) {e : ℤ} (htail : EndsDigits tail)
    (hexponent : exponentPart tail = some e) :
    Denotes (digits.take n ++ lit "." ++ digits.drop n ++ tail) digits (n + e) := by
  have hne : digits.take n ≠ [] := by
    rw [← List.length_pos_iff_ne_nil, List.length_take]
    omega
  have hliteral := decimalLiteral_point (h.subset (List.take_subset n digits)) (h.subset (List.drop_subset n digits)) hne tail htail
  rw [List.take_append_drop, hexponent] at hliteral
  have hassoc : digits.take n ++ lit "." ++ digits.drop n ++ tail =
      digits.take n ++ (0x2E :: (digits.drop n ++ tail)) := by
    rw [List.append_assoc, List.append_assoc]
    rfl
  refine ⟨_, _, (congrArg decimalLiteral hassoc).trans hliteral, ?_, ?_⟩
  · rw [List.length_drop]
    congr 2
    omega
  · exact hsmall.trans_lt (by norm_num [Decimal.precision])

theorem denotes_layoutRepr (hne : digits ≠ []) (point : ℤ) : Denotes (layoutRepr digits point) digits point := by
  have hlength := List.length_pos_iff_ne_nil.2 hne
  unfold layoutRepr
  split
  · rename_i hpoint
    split
    · rename_i hleading
      have hn : point = -((-point).toNat : ℤ) := by omega
      conv => rhs; rw [hn]
      exact denotes_leading h hsmall _
    · have hn : point = (point.toNat : ℤ) := by omega
      split
      · rename_i htrailing
        conv => rhs; rw [hn]
        exact denotes_trailing h hne htrailing (by omega)
      · rename_i htrailing
        have hbetween := denotes_between h hsmall (n := point.toNat) (by omega) (by omega) [] rfl rfl
        rw [List.append_nil, add_zero, ← hn] at hbetween
        exact hbetween
  · -- one digit before the point, and an exponent
    have hexponent := exponentPart_text (point - 1)
    have htail : EndsDigits (lit "e" ++ (if point - 1 < 0 then lit "-" else lit "+") ++ padTwo (point - 1).natAbs) := rfl
    have hassoc : ∀ a b c d : Text, a ++ b ++ c ++ d = a ++ (b ++ c ++ d) := by simp
    simp only [hassoc]
    split
    · rename_i hone
      have hlen : digits.length = 1 := by omega
      have hliteral := decimalLiteral_whole h hne _ htail fun hc => absurd (Option.some.inj hc) (by decide)
      rw [hexponent] at hliteral
      exact ⟨_, _, hliteral, by rw [hlen]; rfl, hsmall.trans_lt (by norm_num [Decimal.precision])⟩
    · have hbetween := denotes_between h hsmall one_pos (by omega) _ htail hexponent
      rw [Nat.cast_one, add_sub_cancel] at hbetween
      exact hbetween

end Layout

/-- The digits of a float, at their point, read back as the float. -/
theorem reprDigits_spec (x : Binary64) (hpos : 0 < x.mant) : AllDigits (reprDigits x).1 ∧ (reprDigits x).1 ≠ [] ∧
    digitsToNat (reprDigits x).1 ≤ 10 ^ 17 ∧
      roundDecimal x.neg (digitsToNat (reprDigits x).1) ((reprDigits x).2 - (reprDigits x).1.length) = .finite x := by
  obtain ⟨hreads, hc, hsmall⟩ := shortestDecimal_spec x hpos
  have hrepr : reprDigits x = (stripZeros (natText (shortestDecimal x).1),
      (shortestDecimal x).2 + (natText (shortestDecimal x).1).length) := rfl
  rw [hrepr]
  generalize (shortestDecimal x).1 = c at hreads hc hsmall
  generalize (shortestDecimal x).2 = p at hreads
  simp only
  obtain ⟨n, hn⟩ := stripZeros_append (natText c)
  have hdigits : c = digitsToNat (stripZeros (natText c)) * 10 ^ n := by
    conv => lhs; rw [← digitsToNat_natText c, hn]
    rw [digitsToNat_append, digitsToNat_zeros, List.length_replicate, add_zero]
  have hlength := congrArg List.length hn
  rw [List.length_append, List.length_replicate] at hlength
  refine ⟨(allDigits_natText c).subset (stripZeros_subset _), ?_, ?_, ?_⟩
  · intro hnil
    rw [hnil] at hdigits
    have hzero : c = 0 := hdigits.trans (Nat.zero_mul _)
    omega
  · calc digitsToNat (stripZeros (natText c)) ≤ digitsToNat (stripZeros (natText c)) * 10 ^ n :=
          Nat.le_mul_of_pos_right _ (by positivity)
      _ = c := hdigits.symm
      _ ≤ 10 ^ 17 := hsmall
  · rw [← hreads]
    apply roundDecimal_congr
    have hvalue := stripZeros_value (natText c) p
    rw [digitsToNat_natText] at hvalue
    rw [← hvalue]
    congr 2
    omega

theorem Binary64.eq_zero {x : Binary64} (h : x.mant = 0) : x = zero x.neg := by
  obtain ⟨neg, mant, exp, hcanonical⟩ := x
  cases h
  have hexp : exp = -1074 := hcanonical.normal.resolve_left (by norm_num)
  cases hexp
  rfl

namespace Decimal

/-- `Decimal(repr(x))` is a decimal that fits the context and is nearest to `x`. -/
theorem ofText_repr (x : Binary64) : ∃ d, ofText (PyFloat.finite x).repr = some d ∧ d.coefficient < 10 ^ precision ∧
    d.toFloat = .finite x := by
  have hrepr : (PyFloat.finite x).repr =
      signText x.neg ++ if x.mant = 0 then lit "0.0" else layoutRepr (reprDigits x).1 (reprDigits x).2 := rfl
  rw [hrepr]
  split
  · rename_i hzero
    have hliteral : decimalLiteral (lit "0.0") = some (0, -1) := rfl
    refine ⟨⟨x.neg, 0, -1⟩, ?_, by norm_num [precision], ?_⟩
    · unfold ofText
      rw [takeSign_signed x.neg hliteral]
      rfl
    · rw [Binary64.eq_zero hzero]
      exact roundQuotient_zero x.neg (10 ^ 1)
  · rename_i hmant
    obtain ⟨hdigits, hne, hsmall, hreads⟩ := reprDigits_spec x (Nat.pos_of_ne_zero hmant)
    obtain ⟨c, p, hliteral, hvalue, hfits⟩ := denotes_layoutRepr hdigits hsmall hne (reprDigits x).2
    refine ⟨⟨x.neg, c, p⟩, ?_, hfits, ?_⟩
    · unfold ofText
      rw [takeSign_signed x.neg hliteral, hliteral]
      rfl
    · rw [← hreads]
      exact roundDecimal_congr hvalue x.neg

/-- The plain notation of a float's `repr` reads back as the float. -/
theorem floatOfText_plain_repr (x : Binary64) : ∃ d, ofText (PyFloat.finite x).repr = some d ∧
    floatOfText d.normalize.plain = some (.finite x) := by
  obtain ⟨d, hd, hfits, hfloat⟩ := ofText_repr x
  obtain ⟨hneg, hmag⟩ := normalize_spec hfits
  refine ⟨d, hd, ?_⟩
  rw [floatOfText_plain, toFloat_congr hneg hmag, hfloat]

example : (ofText (lit "1e-07")).map (fun d => d.normalize.plain) = some (lit "0.0000001") := by decide +kernel

end Decimal

end Python
