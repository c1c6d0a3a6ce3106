/-
Binary64 numbers as exact rationals: a finite number is a sign, a significand below `2^53` and an
exponent in canonical form, and every operation is the exact one rounded to nearest, ties to even,
overflowing to an infinity. The bounds at the end are those of one rounding: within half a unit of
the last place.
-/
import Mathlib.Data.Rat.Lemmas
import Mathlib.Algebra.Order.Field.Rat
import Mathlib.Algebra.Order.Field.Power
import Mathlib.Tactic.Linarith
import Mathlib.Tactic.Positivity
import Mathlib.Tactic.FieldSimp
import Mathlib.Tactic.Ring
import Mathlib.Tactic.NormNum

namespace Python

/-- The form a finite binary64 number has once: a normal significand, or the least exponent. -/
structure Canonical (mant : ℕ) (exp : ℤ) : Prop where
  mant_lt : mant < 2 ^ 53
  exp_ge : -1074 ≤ exp
  exp_le : exp ≤ 971
  normal : 2 ^ 52 ≤ mant ∨ exp = -1074

instance (mant : ℕ) (exp : ℤ) : Decidable (Canonical mant exp) :=
  decidable_of_iff (mant < 2 ^ 53 ∧ -1074 ≤ exp ∧ exp ≤ 971 ∧ (2 ^ 52 ≤ mant ∨ exp = -1074))
    ⟨fun ⟨a, b, c, d⟩ => ⟨a, b, c, d⟩, fun ⟨a, b, c, d⟩ => ⟨a, b, c, d⟩⟩

/-- A finite binary64 number. -/
structure Binary64 where
  neg : Bool
  mant : ℕ
  exp : ℤ
  canonical : Canonical mant exp
deriving DecidableEq

namespace Binary64

/-- `|x|`. -/
def mag (x : Binary64) : ℚ := (x.mant : ℚ) * (2 : ℚ) ^ x.exp

def toRat (x : Binary64) : ℚ := if x.neg then -x.mag else x.mag

def zero (neg : Bool) : Binary64 := ⟨neg, 0, -1074, by decide⟩

@[simp] theorem toRat_zero (neg : Bool) : (zero neg).toRat = 0 := by
  simp [toRat, mag, zero]

theorem mag_nonneg (x : Binary64) : 0 ≤ x.mag := by unfold mag; positivity

end Binary64

/-- A Python `float`. -/
inductive PyFloat
  | nan
  | inf (neg : Bool)
  | finite (x : Binary64)
deriving DecidableEq

/-! ## Rounding a quotient of naturals -/

/-- `a / b` rounded to an integer, ties to even. -/
def roundDiv (a b : ℕ) : ℕ :=
  if 2 * (a % b) < b then a / b
  else if b < 2 * (a % b) then a / b + 1
  else if a / b % 2 = 0 then a / b else a / b + 1

theorem roundDiv_bounds (a : ℕ) {b : ℕ} (hb : 0 < b) :
    2 * b * roundDiv a b ≤ 2 * a + b ∧ 2 * a ≤ 2 * b * roundDiv a b + b := by
  have hdm := Nat.div_add_mod a b
  have hlt := Nat.mod_lt a hb
  have hsucc : 2 * b * (a / b + 1) = 2 * (b * (a / b)) + 2 * b := by ring
  have hbase : 2 * b * (a / b) = 2 * (b * (a / b)) := by ring
  unfold roundDiv
  split
  · rw [hbase]; omega
  · split
    · rw [hsucc]; omega
    · split
      · rw [hbase]; omega
      · rw [hsucc]; omega

theorem roundDiv_le {a b k : ℕ} (hb : 0 < b) (h : a ≤ k * b) : roundDiv a b ≤ k := by
  obtain ⟨h1, -⟩ := roundDiv_bounds a hb
  by_contra hk
  have hk' : k + 1 ≤ roundDiv a b := by omega
  have : 2 * b * (k + 1) ≤ 2 * b * roundDiv a b := Nat.mul_le_mul_left _ hk'
  have e : 2 * b * (k + 1) = 2 * (k * b) + 2 * b := by ring
  omega

theorem le_roundDiv {a b k : ℕ} (hb : 0 < b) (h : k * b ≤ a) : k ≤ roundDiv a b := by
  obtain ⟨-, h2⟩ := roundDiv_bounds a hb
  by_contra hk
  have hk' : roundDiv a b + 1 ≤ k := by omega
  have : 2 * b * (roundDiv a b + 1) ≤ 2 * b * k := Nat.mul_le_mul_left _ hk'
  have e : 2 * b * (roundDiv a b + 1) = 2 * b * roundDiv a b + 2 * b := by ring
  have e' : 2 * b * k = 2 * (k * b) := by ring
  omega

theorem abs_roundDiv_sub (a : ℕ) {b : ℕ} (hb : 0 < b) : |(roundDiv a b : ℚ) - a / b| ≤ 1 / 2 := by
  obtain ⟨h1, h2⟩ := roundDiv_bounds a hb
  have hb' : (0 : ℚ) < b := by exact_mod_cast hb
  have h1' : (2 : ℚ) * b * roundDiv a b ≤ 2 * a + b := by exact_mod_cast h1
  have h2' : (2 : ℚ) * a ≤ 2 * b * roundDiv a b + b := by exact_mod_cast h2
  have e : (a : ℚ) = a / b * b := by field_simp
  rw [abs_le]
  constructor
  · by_contra hc
    push Not at hc
    nlinarith
  · by_contra hc
    push Not at hc
    nlinarith

/-! ## The binade of a quotient -/

/-- `2^d ≤ a / b`, decided on naturals. -/
def powLe (d : ℤ) (a b : ℕ) : Bool :=
  if 0 ≤ d then b * 2 ^ d.toNat ≤ a else b ≤ a * 2 ^ (-d).toNat

/-- A power of `k` is compared with a quotient on naturals. -/
theorem zpow_le_div_iff {k : ℕ} (hk : 0 < k) (d : ℤ) (a : ℕ) {b : ℕ} (hb : 0 < b) :
    (if 0 ≤ d then decide (b * k ^ d.toNat ≤ a) else decide (b ≤ a * k ^ (-d).toNat)) = true ↔
      (k : ℚ) ^ d ≤ (a : ℚ) / b := by
  have hb' : (0 : ℚ) < b := by exact_mod_cast hb
  have hk' : (0 : ℚ) < k := by exact_mod_cast hk
  rw [le_div_iff₀ hb']
  split
  · rename_i hd
    obtain ⟨n, rfl⟩ := Int.eq_ofNat_of_zero_le hd
    rw [decide_eq_true_eq, Int.toNat_natCast, zpow_natCast, mul_comm]
    exact_mod_cast Iff.rfl
  · rename_i hd
    obtain ⟨n, rfl⟩ : ∃ n : ℕ, d = -(n : ℤ) := ⟨(-d).toNat, by omega⟩
    rw [decide_eq_true_eq, neg_neg, Int.toNat_natCast, zpow_neg, zpow_natCast, inv_mul_le_iff₀ (by positivity), mul_comm]
    exact_mod_cast Iff.rfl

theorem powLe_iff (d : ℤ) (a : ℕ) {b : ℕ} (hb : 0 < b) :
    powLe d a b = true ↔ (2 : ℚ) ^ d ≤ (a : ℚ) / b := by
  have hcompared := zpow_le_div_iff two_pos d a hb
  rw [Nat.cast_ofNat] at hcompared
  exact hcompared

/-- The exponent of the power of two at or below `a / b`. -/
def binade (a b : ℕ) : ℤ :=
  let d : ℤ := (a.log2 : ℤ) - b.log2
  if powLe d a b then d else d - 1

theorem binade_spec {a b : ℕ} (ha : 0 < a) (hb : 0 < b) :
    (2 : ℚ) ^ binade a b ≤ (a : ℚ) / b ∧ (a : ℚ) / b < (2 : ℚ) ^ (binade a b + 1) := by
  have hb' : (0 : ℚ) < b := by exact_mod_cast hb
  have a1 : ((2 : ℚ) ^ (a.log2 : ℤ)) ≤ a := by
    rw [zpow_natCast]; exact_mod_cast Nat.log2_self_le (by omega)
  have a2 : (a : ℚ) < (2 : ℚ) ^ ((a.log2 : ℤ) + 1) := by
    rw [show (a.log2 : ℤ) + 1 = ((a.log2 + 1 : ℕ) : ℤ) by push_cast; ring, zpow_natCast]
    exact_mod_cast Nat.lt_log2_self
  have b1 : ((2 : ℚ) ^ (b.log2 : ℤ)) ≤ b := by
    rw [zpow_natCast]; exact_mod_cast Nat.log2_self_le (by omega)
  have b2 : (b : ℚ) < (2 : ℚ) ^ ((b.log2 : ℤ) + 1) := by
    rw [show (b.log2 : ℤ) + 1 = ((b.log2 + 1 : ℕ) : ℤ) by push_cast; ring, zpow_natCast]
    exact_mod_cast Nat.lt_log2_self
  have two : (2 : ℚ) ≠ 0 := by norm_num
  have hup : (a : ℚ) / b < (2 : ℚ) ^ ((a.log2 : ℤ) - b.log2 + 1) := by
    rw [div_lt_iff₀ hb', show (a.log2 : ℤ) - b.log2 + 1 = a.log2 + 1 - b.log2 by ring, zpow_sub₀ two]
    have hp : (0 : ℚ) < (2 : ℚ) ^ (b.log2 : ℤ) := by positivity
    calc (a : ℚ) < (2 : ℚ) ^ ((a.log2 : ℤ) + 1) := a2
      _ = (2 : ℚ) ^ ((a.log2 : ℤ) + 1) / (2 : ℚ) ^ (b.log2 : ℤ) * (2 : ℚ) ^ (b.log2 : ℤ) := by field_simp
      _ ≤ (2 : ℚ) ^ ((a.log2 : ℤ) + 1) / (2 : ℚ) ^ (b.log2 : ℤ) * b := by gcongr
  have hlo : (2 : ℚ) ^ ((a.log2 : ℤ) - b.log2 - 1) ≤ (a : ℚ) / b := by
    rw [le_div_iff₀ hb', show (a.log2 : ℤ) - b.log2 - 1 = a.log2 - (b.log2 + 1) by ring, zpow_sub₀ two]
    have hp : (0 : ℚ) < (2 : ℚ) ^ ((b.log2 : ℤ) + 1) := by positivity
    calc (2 : ℚ) ^ (a.log2 : ℤ) / (2 : ℚ) ^ ((b.log2 : ℤ) + 1) * b
        ≤ (2 : ℚ) ^ (a.log2 : ℤ) / (2 : ℚ) ^ ((b.log2 : ℤ) + 1) * (2 : ℚ) ^ ((b.log2 : ℤ) + 1) := by gcongr
      _ = (2 : ℚ) ^ (a.log2 : ℤ) := by field_simp
      _ ≤ a := a1
  unfold binade
  simp only
  split
  · rename_i h
    exact ⟨(powLe_iff _ a hb).1 h, hup⟩
  · rename_i h
    rw [powLe_iff _ a hb, not_le] at h
    exact ⟨hlo, by rw [sub_add_cancel]; exact h⟩

/-! ## Rounding a rational -/

/-- The exponent of the unit in the last place of `a / b`. -/
def unitExp (a b : ℕ) : ℤ := max (binade a b - 52) (-1074)

/-- `(a / b) / 2^e` as a quotient of naturals. -/
def scaled (a b : ℕ) (e : ℤ) : ℕ × ℕ :=
  if 0 ≤ e then (a, b * 2 ^ e.toNat) else (a * 2 ^ (-e).toNat, b)

theorem scaled_pos (a : ℕ) {b : ℕ} (hb : 0 < b) (e : ℤ) : 0 < (scaled a b e).2 := by
  unfold scaled; split <;> simp <;> positivity

theorem scaled_eq (a : ℕ) {b : ℕ} (hb : 0 < b) (e : ℤ) :
    ((scaled a b e).1 : ℚ) / (scaled a b e).2 = (a : ℚ) / b / (2 : ℚ) ^ e := by
  have hb' : (b : ℚ) ≠ 0 := by exact_mod_cast hb.ne'
  unfold scaled
  split
  · rename_i he
    obtain ⟨n, rfl⟩ := Int.eq_ofNat_of_zero_le he
    simp only [Int.toNat_natCast, zpow_natCast]
    push_cast
    rw [div_div]
  · rename_i he
    obtain ⟨n, rfl⟩ : ∃ n : ℕ, e = -(n : ℤ) := ⟨(-e).toNat, by omega⟩
    simp only [neg_neg, Int.toNat_natCast, zpow_neg, zpow_natCast]
    push_cast
    field_simp

/-- The significand of `a / b` in units of `2^(unitExp a b)`, before a carry. -/
def roundMant (a b : ℕ) : ℕ :=
  roundDiv (scaled a b (unitExp a b)).1 (scaled a b (unitExp a b)).2

theorem roundMant_le {a b : ℕ} (ha : 0 < a) (hb : 0 < b) : roundMant a b ≤ 2 ^ 53 := by
  refine roundDiv_le (scaled_pos a hb _) ?_
  have hpos : (0 : ℚ) < (scaled a b (unitExp a b)).2 := by exact_mod_cast scaled_pos a hb _
  have h : ((scaled a b (unitExp a b)).1 : ℚ) / (scaled a b (unitExp a b)).2 ≤ 2 ^ 53 := by
    rw [scaled_eq a hb, div_le_iff₀ (by positivity)]
    have hb2 := (binade_spec ha hb).2
    have : (2 : ℚ) ^ (binade a b + 1) ≤ (2 : ℚ) ^ (53 + unitExp a b) :=
      zpow_le_zpow_right₀ (by norm_num) (by unfold unitExp; omega)
    rw [zpow_add₀ (by norm_num) 53, show (2 : ℚ) ^ (53 : ℤ) = 2 ^ 53 by norm_cast] at this
    exact hb2.le.trans this
  rw [div_le_iff₀ hpos] at h
  exact_mod_cast h

theorem roundMant_normal {a b : ℕ} (ha : 0 < a) (hb : 0 < b) (he : -1074 < unitExp a b) :
    2 ^ 52 ≤ roundMant a b := by
  refine le_roundDiv (scaled_pos a hb _) ?_
  have hpos : (0 : ℚ) < (scaled a b (unitExp a b)).2 := by exact_mod_cast scaled_pos a hb _
  have h : (2 : ℚ) ^ 52 ≤ ((scaled a b (unitExp a b)).1 : ℚ) / (scaled a b (unitExp a b)).2 := by
    rw [scaled_eq a hb, le_div_iff₀ (by positivity)]
    have hb1 := (binade_spec ha hb).1
    have : (2 : ℚ) ^ (52 + unitExp a b) ≤ (2 : ℚ) ^ binade a b :=
      zpow_le_zpow_right₀ (by norm_num) (by unfold unitExp at *; omega)
    rw [zpow_add₀ (by norm_num) 52, show (2 : ℚ) ^ (52 : ℤ) = 2 ^ 52 by norm_cast] at this
    exact this.trans hb1
  rw [le_div_iff₀ hpos] at h
  exact_mod_cast h

/-- A significand and its exponent after the carry out of the binade. -/
def carry (m : ℕ) (e : ℤ) : ℕ × ℤ := if m = 2 ^ 53 then (2 ^ 52, e + 1) else (m, e)

theorem carry_value (m : ℕ) (e : ℤ) : ((carry m e).1 : ℚ) * (2 : ℚ) ^ (carry m e).2 = (m : ℚ) * (2 : ℚ) ^ e := by
  unfold carry
  split
  · rename_i h
    subst h
    rw [zpow_add₀ (by norm_num)]
    push_cast
    ring
  · rfl

theorem carry_canonical {a b : ℕ} (ha : 0 < a) (hb : 0 < b)
    (h : (carry (roundMant a b) (unitExp a b)).2 ≤ 971) :
    Canonical (carry (roundMant a b) (unitExp a b)).1 (carry (roundMant a b) (unitExp a b)).2 := by
  have hle := roundMant_le ha hb
  have hge : -1074 ≤ unitExp a b := le_max_right _ _
  have hnormal := roundMant_normal ha hb
  unfold carry at h ⊢
  split
  · rename_i hm
    rw [if_pos hm] at h
    exact ⟨by norm_num, by simp only; omega, h, .inl (by norm_num)⟩
  · rename_i hm
    rw [if_neg hm] at h
    refine ⟨by simp only; omega, hge, h, ?_⟩
    rcases hge.lt_or_eq with hlt | heq
    · exact .inl (hnormal hlt)
    · exact .inr heq.symm

/-- The float nearest to `±(a / b)`, ties to even; an infinity past the largest finite one. -/
def roundQuotient (neg : Bool) (a b : ℕ) : PyFloat :=
  if h : 0 < a ∧ 0 < b then
    if hc : (carry (roundMant a b) (unitExp a b)).2 ≤ 971 then
      .finite ⟨neg, _, _, carry_canonical h.1 h.2 hc⟩
    else .inf neg
  else .finite (.zero neg)

namespace PyFloat

/-- The float nearest to a rational number. -/
def ofRat (q : ℚ) : PyFloat := roundQuotient (decide (q < 0)) q.num.natAbs q.den

/-- The value of a finite float. -/
def toRat? : PyFloat → Option ℚ
  | finite x => some x.toRat
  | _ => none

def isNan : PyFloat → Bool
  | nan => true
  | _ => false

def isFinite : PyFloat → Bool
  | finite _ => true
  | _ => false

/-- `float(n)` of an `int`; none where it raises `OverflowError`. -/
def ofInt? (n : ℤ) : Option PyFloat :=
  match ofRat n with
  | finite x => some (finite x)
  | _ => none

/-- `x + y`. -/
def add : PyFloat → PyFloat → PyFloat
  | nan, _ => nan
  | _, nan => nan
  | inf a, inf b => if a = b then inf a else nan
  | inf a, finite _ => inf a
  | finite _, inf b => inf b
  | finite x, finite y =>
    if x.mant = 0 ∧ y.mant = 0 then finite (.zero (x.neg && y.neg)) else ofRat (x.toRat + y.toRat)

/-- `x / 10.0`. -/
def divTen : PyFloat → PyFloat
  | nan => nan
  | inf a => inf a
  | finite x => if x.mant = 0 then finite x else ofRat (x.toRat / 10)

/-- `x / 1000.0`. -/
def divThousand : PyFloat → PyFloat
  | nan => nan
  | inf a => inf a
  | finite x => if x.mant = 0 then finite x else ofRat (x.toRat / 1000)

/-- `x < y`. -/
def lt : PyFloat → PyFloat → Bool
  | nan, _ => false
  | _, nan => false
  | inf a, inf b => a && !b
  | inf a, finite _ => a
  | finite _, inf b => !b
  | finite x, finite y => x.toRat < y.toRat

/-- `x == y`. -/
def eq : PyFloat → PyFloat → Bool
  | inf a, inf b => a == b
  | finite x, finite y => x.toRat == y.toRat
  | _, _ => false

/-- `x.is_integer()`. -/
def isInteger : PyFloat → Bool
  | finite x => x.toRat.den == 1
  | _ => false

end PyFloat

/-- `q` without its fraction: `int(x)` of a finite float. -/
def truncate (q : ℚ) : ℤ := q.num.tdiv q.den

/-! ## One rounding -/

theorem roundQuotient_pos {a b : ℕ} (ha : 0 < a) (hb : 0 < b) (neg : Bool) {k : ℤ}
    (hk : (a : ℚ) / b < (2 : ℚ) ^ k) (hlo : -1021 ≤ k) (hhi : k ≤ 1023) :
    unitExp a b ≤ k - 53 ∧ ∃ x : Binary64, roundQuotient neg a b = .finite x ∧ x.neg = neg ∧
      x.mag = (roundMant a b : ℚ) * (2 : ℚ) ^ unitExp a b := by
  have hlt : binade a b < k := by
    have := (binade_spec ha hb).1.trans_lt hk
    exact (zpow_lt_zpow_iff_right₀ (by norm_num)).1 this
  have hue : unitExp a b ≤ k - 53 := by unfold unitExp; omega
  have hc : (carry (roundMant a b) (unitExp a b)).2 ≤ 971 := by
    unfold carry; split <;> simp only <;> omega
  refine ⟨hue, ?_⟩
  unfold roundQuotient
  rw [dif_pos ⟨ha, hb⟩, dif_pos hc]
  exact ⟨_, rfl, rfl, carry_value _ _⟩

theorem roundQuotient_zero (neg : Bool) (b : ℕ) : roundQuotient neg 0 b = .finite (.zero neg) := by
  unfold roundQuotient
  rw [dif_neg (by simp)]

theorem roundMant_bound {a b : ℕ} (hb : 0 < b) {k : ℤ} (hue : unitExp a b ≤ k - 53) :
    |(roundMant a b : ℚ) * (2 : ℚ) ^ unitExp a b - (a : ℚ) / b| ≤ (2 : ℚ) ^ (k - 54) := by
  have hp : (0 : ℚ) < (2 : ℚ) ^ unitExp a b := by positivity
  have hr := abs_roundDiv_sub (scaled a b (unitExp a b)).1 (scaled_pos a hb (unitExp a b))
  rw [scaled_eq a hb] at hr
  have e : (roundMant a b : ℚ) * (2 : ℚ) ^ unitExp a b - (a : ℚ) / b =
      ((roundMant a b : ℚ) - (a : ℚ) / b / (2 : ℚ) ^ unitExp a b) * (2 : ℚ) ^ unitExp a b := by
    field_simp
  rw [e, abs_mul, abs_of_pos hp]
  calc |(roundMant a b : ℚ) - (a : ℚ) / b / (2 : ℚ) ^ unitExp a b| * (2 : ℚ) ^ unitExp a b
      ≤ 1 / 2 * (2 : ℚ) ^ unitExp a b := by gcongr; exact hr
    _ ≤ 1 / 2 * (2 : ℚ) ^ (k - 53) := by
        gcongr
        · norm_num
    _ = (2 : ℚ) ^ (k - 54) := by
        rw [show k - 53 = k - 54 + 1 by ring, zpow_add_one₀ (by norm_num)]; ring

theorem roundMant_exact {a b m : ℕ} {e : ℤ} (ha : 0 < a) (hb : 0 < b) (hm : m < 2 ^ 53) (he : -1074 ≤ e)
    (h : (a : ℚ) / b = m * (2 : ℚ) ^ e) : (roundMant a b : ℚ) * (2 : ℚ) ^ unitExp a b = (a : ℚ) / b := by
  have two : (2 : ℚ) ≠ 0 := by norm_num
  -- the quotient is a multiple of the unit it is rounded to
  have hlt : (2 : ℚ) ^ binade a b < (2 : ℚ) ^ (53 + e) := by
    have hm' : (m : ℚ) < (2 : ℚ) ^ (53 : ℤ) := by exact_mod_cast hm
    calc (2 : ℚ) ^ binade a b ≤ (a : ℚ) / b := (binade_spec ha hb).1
      _ = m * (2 : ℚ) ^ e := h
      _ < (2 : ℚ) ^ (53 : ℤ) * (2 : ℚ) ^ e := by gcongr
      _ = (2 : ℚ) ^ (53 + e) := (zpow_add₀ two 53 e).symm
  have hd : binade a b < 53 + e := (zpow_lt_zpow_iff_right₀ (by norm_num)).1 hlt
  have hue : unitExp a b ≤ e := by unfold unitExp; omega
  obtain ⟨n, hn⟩ : ∃ n : ℕ, e - unitExp a b = n := ⟨(e - unitExp a b).toNat, by omega⟩
  have hquot : (a : ℚ) / b / (2 : ℚ) ^ unitExp a b = ((m * 2 ^ n : ℕ) : ℚ) := by
    rw [h, mul_div_assoc, ← zpow_sub₀ two, hn, zpow_natCast]
    push_cast
    rfl
  have hr := abs_roundDiv_sub (scaled a b (unitExp a b)).1 (scaled_pos a hb (unitExp a b))
  rw [scaled_eq a hb, hquot] at hr
  have heq : roundMant a b = m * 2 ^ n := by
    rw [abs_le] at hr
    have h1 : (roundMant a b : ℚ) < ((m * 2 ^ n + 1 : ℕ) : ℚ) := by
      push_cast
      have := hr.2
      unfold roundMant
      push_cast at this
      linarith
    have h2 : ((m * 2 ^ n : ℕ) : ℚ) < ((roundMant a b + 1 : ℕ) : ℚ) := by
      push_cast
      have := hr.1
      unfold roundMant
      push_cast at this
      linarith
    have h1' : roundMant a b < m * 2 ^ n + 1 := by exact_mod_cast h1
    have h2' : m * 2 ^ n < roundMant a b + 1 := by exact_mod_cast h2
    omega
  rw [heq, ← hquot]
  field_simp

theorem natAbs_num_div_den {q : ℚ} (hq : 0 ≤ q) : (q.num.natAbs : ℚ) / q.den = q := by
  have h0 : 0 ≤ q.num := Rat.num_nonneg.2 hq
  have : ((q.num.natAbs : ℤ) : ℚ) = q.num := by rw [Int.natAbs_of_nonneg h0]
  rw [← Int.cast_natCast q.num.natAbs, this]
  exact Rat.num_div_den q

theorem Binary64.toRat_of_pos {x : Binary64} (h : x.neg = false) : x.toRat = x.mag := by
  unfold Binary64.toRat
  rw [h]
  rfl

theorem ofRat_zero : PyFloat.ofRat 0 = .finite (.zero false) := roundQuotient_zero _ _

/-- What a positive rational below `2^k` is rounded to. -/
theorem ofRat_pos {q : ℚ} (hq : 0 < q) {k : ℤ} (hk : q < (2 : ℚ) ^ k) (hlo : -1021 ≤ k) (hhi : k ≤ 1023) :
    unitExp q.num.natAbs q.den ≤ k - 53 ∧ ∃ x : Binary64, PyFloat.ofRat q = .finite x ∧ 0 ≤ x.toRat ∧
      x.toRat = (roundMant q.num.natAbs q.den : ℚ) * (2 : ℚ) ^ unitExp q.num.natAbs q.den := by
  have ha : 0 < q.num.natAbs := Int.natAbs_pos.2 (Rat.num_pos.2 hq).ne'
  obtain ⟨hue, x, hx, hneg, hmag⟩ := roundQuotient_pos ha q.den_pos false
    (by rw [natAbs_num_div_den hq.le]; exact hk) hlo hhi
  refine ⟨hue, x, ?_, ?_, ?_⟩
  · unfold PyFloat.ofRat
    rw [decide_eq_false (not_lt.2 hq.le)]
    exact hx
  · rw [Binary64.toRat_of_pos hneg]
    exact x.mag_nonneg
  · rw [Binary64.toRat_of_pos hneg, hmag]

/-- A non-negative rational below `2^k` is rounded to a finite float within `2^(k - 54)`. -/
theorem ofRat_bound {q : ℚ} (hq : 0 ≤ q) {k : ℤ} (hk : q < (2 : ℚ) ^ k) (hlo : -1021 ≤ k) (hhi : k ≤ 1023) :
    ∃ x : Binary64, PyFloat.ofRat q = .finite x ∧ 0 ≤ x.toRat ∧ |x.toRat - q| ≤ (2 : ℚ) ^ (k - 54) := by
  rcases hq.eq_or_lt with rfl | hpos
  · refine ⟨_, ofRat_zero, by simp, ?_⟩
    rw [Binary64.toRat_zero, sub_zero, abs_zero]
    positivity
  · obtain ⟨hue, x, hx, h0, hval⟩ := ofRat_pos hpos hk hlo hhi
    have hb := roundMant_bound q.den_pos hue
    rw [← hval, natAbs_num_div_den hq] at hb
    exact ⟨x, hx, h0, hb⟩

/-- Rounding keeps a number that is binary64 already. -/
theorem ofRat_exact {q : ℚ} (hq : 0 ≤ q) {k : ℤ} (hk : q < (2 : ℚ) ^ k) (hlo : -1021 ≤ k) (hhi : k ≤ 1023)
    {m : ℕ} {e : ℤ} (hm : m < 2 ^ 53) (he : -1074 ≤ e) (h : q = m * (2 : ℚ) ^ e) :
    ∃ x : Binary64, PyFloat.ofRat q = .finite x ∧ x.toRat = q := by
  rcases hq.eq_or_lt with rfl | hpos
  · exact ⟨_, ofRat_zero, Binary64.toRat_zero _⟩
  · obtain ⟨-, x, hx, -, hval⟩ := ofRat_pos hpos hk hlo hhi
    have ha : 0 < q.num.natAbs := Int.natAbs_pos.2 (Rat.num_pos.2 hpos).ne'
    refine ⟨x, hx, ?_⟩
    rw [hval, roundMant_exact ha q.den_pos hm he (by rw [natAbs_num_div_den hq]; exact h),
      natAbs_num_div_den hq]

/-! ## Addition -/

theorem PyFloat.add_symm (x y : PyFloat) : x.add y = y.add x := by
  cases x with
  | nan => cases y <;> rfl
  | inf a =>
    cases y with
    | inf b =>
      simp only [add]
      by_cases h : a = b
      · rw [if_pos h, if_pos h.symm, h]
      · rw [if_neg h, if_neg (Ne.symm h)]
    | _ => rfl
  | finite x =>
    cases y with
    | finite y => simp only [add, and_comm, Bool.and_comm, add_comm]
    | _ => rfl

theorem Binary64.mant_eq_zero_iff (x : Binary64) : x.mant = 0 ↔ x.toRat = 0 := by
  have hp : (2 : ℚ) ^ x.exp ≠ 0 := by positivity
  unfold toRat mag
  split <;> simp [hp]

theorem PyFloat.add_finite (x y : Binary64) : (finite x).add (finite y) =
    if x.mant = 0 ∧ y.mant = 0 then finite (.zero (x.neg && y.neg)) else ofRat (x.toRat + y.toRat) := rfl

/-- Adding a zero keeps the value. -/
theorem add_zero_value {x : Binary64} (hx : 0 ≤ x.toRat) (hlt : x.toRat < 2 ^ 7) (neg : Bool) :
    ∃ y : Binary64, (PyFloat.finite x).add (.finite (.zero neg)) = .finite y ∧ y.toRat = x.toRat := by
  rw [PyFloat.add_finite]
  by_cases h : x.mant = 0
  · refine ⟨_, if_pos ⟨h, rfl⟩, ?_⟩
    rw [Binary64.toRat_zero, (x.mant_eq_zero_iff).1 h]
  · rw [if_neg fun hc => h hc.1, Binary64.toRat_zero, add_zero]
    have hmag : x.toRat = x.mag := by
      unfold Binary64.toRat at hx ⊢
      split
      · rename_i hn
        rw [if_pos hn] at hx
        have := x.mag_nonneg
        linarith
      · rfl
    exact ofRat_exact hx (k := 7) (by exact_mod_cast hlt) (by norm_num) (by norm_num) x.canonical.mant_lt
      x.canonical.exp_ge hmag

end Python
