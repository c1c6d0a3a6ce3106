/-
What one rounding keeps: it overflows exactly from half a unit above the largest float on, it is exact on the
numbers that are floats, it makes an integer of exactly the integers and the numbers near one, and it keeps the
order.
-/
import ConfigDirector.Python.Shortest
import Mathlib.Data.Int.Log
import Mathlib.Data.Rat.Floor

namespace Python

/-! ## Ties -/

/-- A number at most half a unit from an even integer is rounded to it, also from halfway. -/
theorem roundDiv_even {a b k : ℕ} (hb : 0 < b) (hk : k % 2 = 0) (h : |(a : ℚ) / b - k| ≤ 1 / 2) : roundDiv a b = k := by
  rcases h.lt_or_eq with hlt | heq
  · exact roundDiv_eq hb hlt
  · have hb' : (0 : ℚ) < b := by exact_mod_cast hb
    rcases (abs_eq (by norm_num)).1 heq with hup | hdown
    · have hq : 2 * (a : ℚ) = 2 * k * b + b := by
        have : (a : ℚ) / b = k + 1 / 2 := by linarith
        rw [div_eq_iff hb'.ne'] at this
        rw [this]
        ring
      have hn : 2 * a = 2 * (k * b) + b := by
        rw [← Nat.mul_assoc]
        exact_mod_cast hq
      have hdiv : a / b = k := Nat.div_eq_of_lt_le (by omega) (by rw [Nat.succ_mul]; omega)
      have hmod : a % b = a - k * b := by rw [Nat.mod_eq_sub_mul_div, hdiv, Nat.mul_comm]
      unfold roundDiv
      rw [hdiv, if_neg (by omega), if_neg (by omega), if_pos hk]
    · have hq : 2 * (a : ℚ) + b = 2 * k * b := by
        have : (a : ℚ) / b = k - 1 / 2 := by linarith
        rw [div_eq_iff hb'.ne'] at this
        rw [this]
        ring
      have hn : 2 * a + b = 2 * (k * b) := by
        rw [← Nat.mul_assoc]
        exact_mod_cast hq
      obtain ⟨j, rfl⟩ : ∃ j, k = j + 1 := by
        cases k with
        | zero =>
          rw [Nat.zero_mul, Nat.mul_zero] at hn
          omega
        | succ j => exact ⟨j, rfl⟩
      have hsucc : (j + 1) * b = j * b + b := Nat.succ_mul j b
      have hdiv : a / b = j := Nat.div_eq_of_lt_le (by omega) (by omega)
      have hmod : a % b = a - j * b := by rw [Nat.mod_eq_sub_mul_div, hdiv, Nat.mul_comm]
      unfold roundDiv
      rw [hdiv, if_neg (by omega), if_neg (by omega), if_neg (by omega)]

theorem roundDiv_mono {a b c d : ℕ} (hb : 0 < b) (hd : 0 < d) (h : (a : ℚ) / b ≤ (c : ℚ) / d) :
    roundDiv a b ≤ roundDiv c d := by
  by_contra hlt
  have hlow := (abs_le.1 (abs_roundDiv_sub a hb)).2
  have hhigh := (abs_le.1 (abs_roundDiv_sub c hd)).1
  have hgap : (roundDiv c d : ℚ) + 1 ≤ roundDiv a b := by exact_mod_cast Nat.not_le.1 hlt
  -- both lie halfway between the two results, so they are the same number
  have heq : (a : ℚ) / b = (c : ℚ) / d := by linarith
  exact hlt (roundDiv_congr hb hd ((div_eq_div_iff_nat hb hd).1 heq)).le

/-! ## Units -/

/-- The distance between the floats about a number. -/
def spacing (q : ℚ) : ℚ := (2 : ℚ) ^ max (Int.log 2 |q| - 52) (-1074)

theorem binade_eq {a b : ℕ} (ha : 0 < a) (hb : 0 < b) : binade a b = Int.log 2 ((a : ℚ) / b) := by
  have ha' : (0 : ℚ) < a := by exact_mod_cast ha
  have hb' : (0 : ℚ) < b := by exact_mod_cast hb
  have hq : (0 : ℚ) < (a : ℚ) / b := div_pos ha' hb'
  obtain ⟨hlo, hhi⟩ := binade_spec ha hb
  have hle : binade a b ≤ Int.log 2 ((a : ℚ) / b) :=
    (Int.zpow_le_iff_le_log (by decide) hq).1 (by rw [Nat.cast_ofNat]; exact hlo)
  have hlt : Int.log 2 ((a : ℚ) / b) < binade a b + 1 :=
    (Int.lt_zpow_iff_log_lt (by decide) hq).1 (by rw [Nat.cast_ofNat]; exact hhi)
  omega

theorem spacing_eq {a b : ℕ} (ha : 0 < a) (hb : 0 < b) : spacing ((a : ℚ) / b) = (2 : ℚ) ^ unitExp a b := by
  unfold spacing unitExp
  rw [abs_of_nonneg (by positivity), binade_eq ha hb]

/-- The rounded number, before an overflow. -/
def roundedMag (a b : ℕ) : ℚ := (roundMant a b : ℚ) * (2 : ℚ) ^ unitExp a b

theorem abs_roundMant_sub (a : ℕ) {b : ℕ} (hb : 0 < b) :
    |(roundMant a b : ℚ) - (a : ℚ) / b / (2 : ℚ) ^ unitExp a b| ≤ 1 / 2 := by
  have hr := abs_roundDiv_sub (scaled a b (unitExp a b)).1 (scaled_pos a hb (unitExp a b))
  rw [scaled_eq a hb] at hr
  exact hr

/-- Rounding moves a number by half a unit at most. -/
theorem abs_roundedMag_sub {a b : ℕ} (ha : 0 < a) (hb : 0 < b) :
    |roundedMag a b - (a : ℚ) / b| ≤ spacing ((a : ℚ) / b) / 2 := by
  have hp : (0 : ℚ) < (2 : ℚ) ^ unitExp a b := by positivity
  have hsub : roundedMag a b - (a : ℚ) / b =
      ((roundMant a b : ℚ) - (a : ℚ) / b / (2 : ℚ) ^ unitExp a b) * (2 : ℚ) ^ unitExp a b := by
    unfold roundedMag
    field_simp
  rw [hsub, abs_mul, abs_of_pos hp, spacing_eq ha hb]
  calc |(roundMant a b : ℚ) - (a : ℚ) / b / (2 : ℚ) ^ unitExp a b| * (2 : ℚ) ^ unitExp a b
      ≤ 1 / 2 * (2 : ℚ) ^ unitExp a b := by gcongr; exact abs_roundMant_sub a hb
    _ = (2 : ℚ) ^ unitExp a b / 2 := by ring

/-- A number at most half a unit from an even multiple of its unit is rounded to it. -/
theorem roundMant_even {a b k : ℕ} (hb : 0 < b) (hk : k % 2 = 0)
    (h : |(a : ℚ) / b / (2 : ℚ) ^ unitExp a b - k| ≤ 1 / 2) : roundMant a b = k := by
  refine roundDiv_even (scaled_pos a hb _) hk ?_
  rw [scaled_eq a hb]
  exact h

/-! ## Overflow -/

/-- From here on a number is rounded to an infinity. -/
def overflowBound : ℚ := (2 : ℚ) ^ (1024 : ℤ) - (2 : ℚ) ^ (970 : ℤ)

/-- Powers of two next to the bound. -/
theorem zpow_970 (n : ℤ) : (2 : ℚ) ^ (n + 970) = (2 : ℚ) ^ n * (2 : ℚ) ^ (970 : ℤ) := zpow_add₀ two_ne_zero n 970

theorem overflowBound_eq : overflowBound = (2 ^ 54 - 1) * (2 : ℚ) ^ (970 : ℤ) := by
  have hpow : (2 : ℚ) ^ (54 : ℤ) = 2 ^ 54 := by norm_cast
  unfold overflowBound
  rw [show (1024 : ℤ) = 54 + 970 from rfl, zpow_970, hpow, sub_mul, one_mul]

theorem carry_le_iff {a b : ℕ} (ha : 0 < a) (hb : 0 < b) :
    (carry (roundMant a b) (unitExp a b)).2 ≤ 971 ↔ (a : ℚ) / b < overflowBound := by
  obtain ⟨hlo, hhi⟩ := binade_spec ha hb
  have hbound : overflowBound = (2 ^ 53 - 1 / 2) * (2 : ℚ) ^ (971 : ℤ) := by
    rw [overflowBound_eq, show (971 : ℤ) = 1 + 970 from rfl, zpow_970, ← mul_assoc]
    congr 1
    norm_num
  have h53 : (2 : ℚ) ^ (53 : ℤ) = 2 ^ 53 := by norm_cast
  have hp970 : (0 : ℚ) < (2 : ℚ) ^ (970 : ℤ) := by positivity
  have hp : (0 : ℚ) < (2 : ℚ) ^ (971 : ℤ) := by positivity
  have hcarry : (carry (roundMant a b) (unitExp a b)).2 ≤ 971 ↔
      unitExp a b ≤ 970 ∨ unitExp a b = 971 ∧ roundMant a b ≠ 2 ^ 53 := by
    unfold carry
    split <;> simp only <;> omega
  rw [hcarry]
  rcases lt_trichotomy (unitExp a b) 971 with hunit | hunit | hunit
  · refine iff_of_true (.inl (by omega)) ?_
    have hbinade : binade a b + 1 ≤ 1023 := by
      unfold unitExp at hunit
      omega
    calc (a : ℚ) / b < (2 : ℚ) ^ (binade a b + 1) := hhi
      _ ≤ (2 : ℚ) ^ (1023 : ℤ) := zpow_le_zpow_right₀ (by norm_num) hbinade
      _ ≤ overflowBound := by
        rw [overflowBound_eq, show (1023 : ℤ) = 53 + 970 from rfl, zpow_970]
        gcongr
        norm_num
  · -- in the last binade it is a carry that overflows
    have hdist := abs_roundMant_sub a hb
    rw [hunit, abs_le] at hdist
    rw [hbound, ← div_lt_iff₀ hp]
    constructor
    · rintro (h | ⟨-, hne⟩)
      · omega
      · by_contra hle
        refine hne (roundMant_even hb (by decide) ?_)
        have htop : (a : ℚ) / b / (2 : ℚ) ^ (971 : ℤ) < 2 ^ 53 := by
          rw [div_lt_iff₀ hp]
          refine hhi.trans_le ?_
          have hbinade : binade a b + 1 ≤ 53 + 971 := by
            unfold unitExp at hunit
            omega
          calc (2 : ℚ) ^ (binade a b + 1) ≤ (2 : ℚ) ^ ((53 : ℤ) + 971) := zpow_le_zpow_right₀ (by norm_num) hbinade
            _ = 2 ^ 53 * (2 : ℚ) ^ (971 : ℤ) := by rw [zpow_add₀ two_ne_zero, h53]
        rw [hunit, abs_le, Nat.cast_pow, Nat.cast_ofNat]
        constructor <;> linarith
    · intro hlt
      refine .inr ⟨hunit, fun heq => ?_⟩
      rw [heq, Nat.cast_pow, Nat.cast_ofNat] at hdist
      linarith [hdist.2]
  · refine iff_of_false (by omega) (not_lt.2 ?_)
    have hbinade : 1024 ≤ binade a b := by
      unfold unitExp at hunit
      omega
    calc overflowBound ≤ (2 : ℚ) ^ (1024 : ℤ) := by
          rw [overflowBound_eq, show (1024 : ℤ) = 54 + 970 from rfl, zpow_970]
          gcongr
          norm_num
      _ ≤ (2 : ℚ) ^ binade a b := zpow_le_zpow_right₀ (by norm_num) hbinade
      _ ≤ (a : ℚ) / b := hlo

/-- A quotient below the bound is rounded to a finite float, any other to an infinity. -/
theorem roundQuotient_cases {a b : ℕ} (ha : 0 < a) (hb : 0 < b) (neg : Bool) :
    ((a : ℚ) / b < overflowBound ∧ ∃ x : Binary64, roundQuotient neg a b = .finite x ∧ x.neg = neg ∧
      x.mag = roundedMag a b) ∨
    (overflowBound ≤ (a : ℚ) / b ∧ roundQuotient neg a b = .inf neg) := by
  unfold roundQuotient
  rw [dif_pos ⟨ha, hb⟩]
  by_cases hc : (carry (roundMant a b) (unitExp a b)).2 ≤ 971
  · rw [dif_pos hc]
    exact .inl ⟨(carry_le_iff ha hb).1 hc, _, rfl, rfl, carry_value _ _⟩
  · rw [dif_neg hc]
    exact .inr ⟨not_lt.1 fun h => hc ((carry_le_iff ha hb).2 h), rfl⟩

/-! ## Integers -/

/-- The numbers with a significand below `2^53`. -/
def IsFloatForm (q : ℚ) : Prop := ∃ (m : ℕ) (e : ℤ), m < 2 ^ 53 ∧ |q| = m * (2 : ℚ) ^ e

theorem two_zpow_of_nonneg {e : ℤ} (he : 0 ≤ e) : ∃ n : ℕ, (2 : ℚ) ^ e = ((2 ^ n : ℕ) : ℚ) := by
  refine ⟨e.toNat, ?_⟩
  conv_lhs => rw [← Int.toNat_of_nonneg he, zpow_natCast]
  push_cast
  rfl

/-- Rounded in units of at least one, a number is an integer. -/
theorem roundedMag_int {a b : ℕ} (h : 0 ≤ unitExp a b) : ∃ n : ℕ, roundedMag a b = n := by
  obtain ⟨n, hn⟩ := two_zpow_of_nonneg h
  exact ⟨roundMant a b * 2 ^ n, by rw [roundedMag, hn]; push_cast; rfl⟩

/-- Below `2^53` every integer has the form of a float. -/
theorem roundedMag_small {a b n : ℕ} (ha : 0 < a) (hb : 0 < b) (hq : (a : ℚ) / b = n) (h : unitExp a b < 0) :
    roundedMag a b = n := by
  have hlt : (n : ℚ) < 2 ^ 53 := by
    have hbinade : binade a b + 1 ≤ (53 : ℕ) := by
      unfold unitExp at h
      push_cast
      omega
    calc (n : ℚ) = (a : ℚ) / b := hq.symm
      _ < (2 : ℚ) ^ (binade a b + 1) := (binade_spec ha hb).2
      _ ≤ (2 : ℚ) ^ ((53 : ℕ) : ℤ) := zpow_le_zpow_right₀ (by norm_num) hbinade
      _ = 2 ^ 53 := zpow_natCast 2 53
  have hexact := roundMant_exact (m := n) (e := 0) ha hb (by exact_mod_cast hlt) (by norm_num)
    (by rw [hq, zpow_zero, mul_one])
  rw [roundedMag, hexact, hq]

/-- An integer is rounded to an integer. -/
theorem roundedMag_of_int {a b n : ℕ} (ha : 0 < a) (hb : 0 < b) (hq : (a : ℚ) / b = n) :
    ∃ k : ℕ, roundedMag a b = k := by
  rcases le_or_gt 0 (unitExp a b) with h | h
  · exact roundedMag_int h
  · exact ⟨n, roundedMag_small ha hb hq h⟩

/-- An integer is rounded to itself exactly if it has the form of a float. -/
theorem roundedMag_eq_iff {a b n : ℕ} (ha : 0 < a) (hb : 0 < b) (hq : (a : ℚ) / b = n)
    (hfits : (a : ℚ) / b < overflowBound) : roundedMag a b = n ↔ IsFloatForm ((a : ℚ) / b) := by
  have habs : |(a : ℚ) / b| = (a : ℚ) / b := abs_of_nonneg (by positivity)
  constructor
  · intro h
    rcases roundQuotient_cases ha hb false with ⟨-, x, -, -, hmag⟩ | ⟨hover, -⟩
    · refine ⟨x.mant, x.exp, x.canonical.mant_lt, ?_⟩
      rw [habs, hq, ← h, ← hmag, Binary64.mag]
    · exact absurd hfits (not_lt.2 hover)
  · rintro ⟨m, e, hm, hform⟩
    rw [habs] at hform
    rcases le_or_gt 0 (unitExp a b) with hunit | hunit
    · -- the number is too large for a small exponent
      have he : -1074 ≤ e := by
        by_contra hlt
        have hq1 : (1 : ℚ) ≤ (a : ℚ) / b := by
          have hn : 0 < n := by
            have hpos : (0 : ℚ) < (a : ℚ) / b := by
              have ha' : (0 : ℚ) < a := by exact_mod_cast ha
              positivity
            rw [hq] at hpos
            exact_mod_cast hpos
          rw [hq]
          exact_mod_cast hn
        have hm' : (m : ℚ) ≤ (2 : ℚ) ^ (53 : ℤ) := by exact_mod_cast hm.le
        have hsmall : (m : ℚ) * (2 : ℚ) ^ e < 1 := by
          calc (m : ℚ) * (2 : ℚ) ^ e ≤ (2 : ℚ) ^ (53 : ℤ) * (2 : ℚ) ^ e := by gcongr
            _ = (2 : ℚ) ^ (53 + e) := (zpow_add₀ two_ne_zero 53 e).symm
            _ < (2 : ℚ) ^ (0 : ℤ) := zpow_lt_zpow_right₀ (by norm_num) (by omega)
            _ = 1 := zpow_zero 2
        rw [← hform] at hsmall
        exact absurd hq1 (not_le.2 hsmall)
      rw [roundedMag, roundMant_exact ha hb hm he hform, hq]
    · exact roundedMag_small ha hb hq hunit

/-- A number is rounded to an integer exactly if it is at most half a unit from one. -/
theorem roundedMag_int_iff {a b : ℕ} (ha : 0 < a) (hb : 0 < b) :
    (∃ n : ℕ, roundedMag a b = n) ↔ ∃ n : ℕ, |(a : ℚ) / b - n| ≤ spacing ((a : ℚ) / b) / 2 := by
  constructor
  · rintro ⟨n, hn⟩
    refine ⟨n, ?_⟩
    rw [← hn, abs_sub_comm]
    exact abs_roundedMag_sub ha hb
  · rintro ⟨n, hn⟩
    rcases le_or_gt 0 (unitExp a b) with h | h
    · exact roundedMag_int h
    · -- in units below one the integer is an even multiple of the unit
      obtain ⟨k, hk⟩ : ∃ k : ℕ, unitExp a b = -((k : ℤ) + 1) := ⟨(-unitExp a b - 1).toNat, by omega⟩
      have hp : (0 : ℚ) < (2 : ℚ) ^ unitExp a b := by positivity
      have hunit : (2 : ℚ) ^ unitExp a b * 2 ^ (k + 1) = 1 := by
        rw [hk, zpow_neg, show ((k : ℤ) + 1) = ((k + 1 : ℕ) : ℤ) by push_cast; ring, zpow_natCast]
        exact inv_mul_cancel₀ (by positivity)
      have hmultiple : ((n * 2 ^ (k + 1) : ℕ) : ℚ) = n / (2 : ℚ) ^ unitExp a b := by
        rw [eq_div_iff hp.ne']
        push_cast
        rw [mul_assoc, mul_comm ((2 : ℚ) ^ (k + 1)), hunit, mul_one]
      have heven : n * 2 ^ (k + 1) % 2 = 0 := by
        rw [pow_succ, ← Nat.mul_assoc]
        exact Nat.mul_mod_left _ 2
      have hmant : roundMant a b = n * 2 ^ (k + 1) := by
        refine roundMant_even hb heven ?_
        rw [hmultiple, ← sub_div, abs_div, abs_of_pos hp, div_le_iff₀ hp]
        rw [spacing_eq ha hb] at hn
        linarith
      refine ⟨n, ?_⟩
      rw [roundedMag, hmant, hmultiple, div_mul_cancel₀ _ hp.ne']

/-! ## Order -/

theorem roundedMag_mono {a b c d : ℕ} (ha : 0 < a) (hb : 0 < b) (hc : 0 < c) (hd : 0 < d)
    (h : (a : ℚ) / b ≤ (c : ℚ) / d) : roundedMag a b ≤ roundedMag c d := by
  have hbinade : binade a b ≤ binade c d := by
    rw [binade_eq ha hb, binade_eq hc hd]
    refine Int.log_mono_right ?_ h
    have ha' : (0 : ℚ) < a := by exact_mod_cast ha
    have hb' : (0 : ℚ) < b := by exact_mod_cast hb
    positivity
  have hunit : unitExp a b ≤ unitExp c d := by
    unfold unitExp
    omega
  rcases hunit.eq_or_lt with heq | hlt
  · have hmant : roundMant a b ≤ roundMant c d := by
      unfold roundMant
      refine roundDiv_mono (scaled_pos a hb _) (scaled_pos c hd _) ?_
      rw [scaled_eq a hb, scaled_eq c hd, heq]
      gcongr
    unfold roundedMag
    rw [heq]
    gcongr
  · -- a significand in the lower binade is at most the least one in the upper
    have hup : (roundMant a b : ℚ) ≤ (2 : ℚ) ^ (53 : ℤ) := by exact_mod_cast roundMant_le ha hb
    have hlow : (2 : ℚ) ^ (52 : ℤ) ≤ (roundMant c d : ℚ) := by
      have hge : -1074 ≤ unitExp a b := le_max_right _ _
      exact_mod_cast roundMant_normal hc hd (by omega)
    calc roundedMag a b ≤ (2 : ℚ) ^ (53 : ℤ) * (2 : ℚ) ^ unitExp a b := by
          unfold roundedMag
          gcongr
      _ = (2 : ℚ) ^ (53 + unitExp a b) := (zpow_add₀ two_ne_zero _ _).symm
      _ ≤ (2 : ℚ) ^ (52 + unitExp c d) := zpow_le_zpow_right₀ (by norm_num) (by omega)
      _ = (2 : ℚ) ^ (52 : ℤ) * (2 : ℚ) ^ unitExp c d := zpow_add₀ two_ne_zero _ _
      _ ≤ roundedMag c d := by
        unfold roundedMag
        gcongr

/-- `x <= y`. -/
def PyFloat.le (x y : PyFloat) : Bool := x.lt y || x.eq y

theorem PyFloat.le_finite (x y : Binary64) : (finite x).le (finite y) = true ↔ x.toRat ≤ y.toRat := by
  unfold le lt eq
  rw [Bool.or_eq_true, decide_eq_true_eq, beq_iff_eq]
  exact le_iff_lt_or_eq.symm

theorem PyFloat.le_trans {x y z : PyFloat} (h₁ : x.le y = true) (h₂ : y.le z = true) : x.le z = true := by
  cases x with
  | nan => cases h₁
  | inf a => cases y with
    | nan => cases a <;> cases h₁
    | inf b => cases z with
      | nan => cases b <;> cases h₂
      | inf c => revert a b c; decide
      | finite w => cases a <;> cases b <;> simp_all [le, lt, eq]
    | finite v => cases z with
      | nan => cases h₂
      | inf c => cases a <;> cases c <;> simp_all [le, lt, eq]
      | finite w => cases a <;> simp_all [le, lt, eq]
  | finite u => cases y with
    | nan => cases h₁
    | inf b => cases z with
      | nan => cases b <;> cases h₂
      | inf c => cases b <;> cases c <;> simp_all [le, lt, eq]
      | finite w => cases b <;> simp_all [le, lt, eq]
    | finite v => cases z with
      | nan => cases h₂
      | inf c => cases c <;> simp_all [le, lt, eq]
      | finite w =>
        rw [le_finite] at h₁ h₂ ⊢
        exact h₁.trans h₂

/-- A natural number below `2^53` is a float. -/
theorem ofRat_natCast {n : ℕ} (hn : n < 2 ^ 53) : ∃ x : Binary64, PyFloat.ofRat n = .finite x ∧ x.toRat = n := by
  have hlt : (n : ℚ) < (2 : ℚ) ^ (53 : ℤ) := by exact_mod_cast hn
  exact ofRat_exact (m := n) (e := 0) (Nat.cast_nonneg n) hlt (by norm_num) (by norm_num) hn (by norm_num)
    (by rw [zpow_zero, mul_one])

/-- A positive number is rounded to no more than a greater one. -/
theorem ofRat_le {p q : ℚ} (hp : 0 < p) (h : p ≤ q) : (PyFloat.ofRat p).le (PyFloat.ofRat q) = true := by
  have hq := hp.trans_le h
  have hap : 0 < p.num.natAbs := Int.natAbs_pos.2 (Rat.num_pos.2 hp).ne'
  have haq : 0 < q.num.natAbs := Int.natAbs_pos.2 (Rat.num_pos.2 hq).ne'
  have hle : (p.num.natAbs : ℚ) / p.den ≤ (q.num.natAbs : ℚ) / q.den := by
    rw [natAbs_num_div_den hp.le, natAbs_num_div_den hq.le]
    exact h
  unfold PyFloat.ofRat
  rw [decide_eq_false (not_lt.2 hp.le), decide_eq_false (not_lt.2 hq.le)]
  rcases roundQuotient_cases haq q.den_pos false with ⟨hlt, y, hy, hyneg, hymag⟩ | ⟨-, hy⟩
  · rcases roundQuotient_cases hap p.den_pos false with ⟨-, x, hx, hxneg, hxmag⟩ | ⟨hge, -⟩
    · rw [hx, hy, PyFloat.le_finite, Binary64.toRat_of_pos hxneg, Binary64.toRat_of_pos hyneg, hxmag, hymag]
      exact roundedMag_mono hap p.den_pos haq q.den_pos hle
    · exact absurd (hle.trans_lt hlt) (not_lt.2 hge)
  · rw [hy]
    rcases roundQuotient_cases hap p.den_pos false with ⟨-, x, hx, -, -⟩ | ⟨-, hx⟩ <;> rw [hx] <;> rfl

theorem ofRat_le_zero {q : ℚ} (hq : q ≤ 0) : (PyFloat.ofRat q).le (PyFloat.ofRat 0) = true := by
  rcases hq.eq_or_lt with rfl | hneg
  · rw [ofRat_zero, PyFloat.le_finite]
  · have ha : 0 < q.num.natAbs := Int.natAbs_pos.2 (Rat.num_neg.2 hneg).ne
    rw [ofRat_zero, PyFloat.ofRat, decide_eq_true hneg]
    rcases roundQuotient_cases ha q.den_pos true with ⟨-, x, hx, hxneg, -⟩ | ⟨-, hinf⟩
    · have hvalue : x.toRat = -x.mag := by
        unfold Binary64.toRat
        rw [hxneg]
        rfl
      rw [hx, PyFloat.le_finite, hvalue, Binary64.toRat_zero]
      exact neg_nonpos.2 x.mag_nonneg
    · rw [hinf]
      rfl

/-- An `int` converts to a float exactly up to the bound. -/
theorem ofInt?_isSome_iff (n : ℤ) : (PyFloat.ofInt? n).isSome = true ↔ (n.natAbs : ℚ) < overflowBound := by
  unfold PyFloat.ofInt? PyFloat.ofRat
  rw [Rat.num_intCast, Rat.den_intCast]
  rcases Nat.eq_zero_or_pos n.natAbs with h0 | hpos
  · rw [h0, roundQuotient_zero, Nat.cast_zero]
    refine iff_of_true rfl ?_
    rw [overflowBound_eq]
    positivity
  · rcases roundQuotient_cases hpos one_pos (decide ((n : ℚ) < 0)) with ⟨hlt, x, hx, -, -⟩ | ⟨hge, hinf⟩
    · rw [Nat.cast_one, div_one] at hlt
      rw [hx]
      exact iff_of_true rfl hlt
    · rw [Nat.cast_one, div_one] at hge
      rw [hinf]
      exact iff_of_false Bool.false_ne_true (not_lt.2 hge)

end Python
