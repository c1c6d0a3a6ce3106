/-
The shortest decimal of a float reads back as the float: a number within half a unit of the last place
of a float is rounded to it, and the nearest decimal of seventeen digits is within that.
-/
import ConfigDirector.Python.Numerals

namespace Python

/-! ## What rounds to a float -/

/-- How far a number may be from a float that it is rounded to, in units of the float's last place. Below
a power of two the floats are closer. -/
def Binary64.slack (x : Binary64) : ℚ := if x.mant = 2 ^ 52 then 1 / 4 else 1 / 2

theorem Binary64.slack_le (x : Binary64) : x.slack ≤ 1 / 2 := by
  unfold slack
  split
  · norm_num
  · exact le_refl _

theorem roundDiv_eq {a b k : ℕ} (hb : 0 < b) (h : |(a : ℚ) / b - k| < 1 / 2) : roundDiv a b = k := by
  have hr := abs_roundDiv_sub a hb
  rw [abs_lt] at h
  rw [abs_le] at hr
  have hlt : (roundDiv a b : ℚ) < ((k + 1 : ℕ) : ℚ) := by
    push_cast
    linarith [hr.2, h.2]
  have hgt : (k : ℚ) < ((roundDiv a b + 1 : ℕ) : ℚ) := by
    push_cast
    linarith [hr.1, h.1]
  have hlt' : roundDiv a b < k + 1 := by exact_mod_cast hlt
  have hgt' : k < roundDiv a b + 1 := by exact_mod_cast hgt
  omega

/-- A number is rounded to the significand it is within half a unit of. -/
theorem roundMant_eq {a b k : ℕ} (hb : 0 < b) {e : ℤ} (he : unitExp a b = e)
    (h : |(a : ℚ) / b / (2 : ℚ) ^ e - k| < 1 / 2) : roundMant a b = k := by
  unfold roundMant
  rw [he]
  refine roundDiv_eq (scaled_pos a hb e) ?_
  rw [scaled_eq a hb]
  exact h

theorem two_zpow_lt {a b : ℤ} : (2 : ℚ) ^ a < (2 : ℚ) ^ b ↔ a < b := zpow_lt_zpow_iff_right₀ (by norm_num)

/-- The unit of a number less than half a unit from a float is the float's, or half of it just below a
power of two. -/
theorem unitExp_near {a b : ℕ} (ha : 0 < a) (hb : 0 < b) (x : Binary64)
    (h : |(a : ℚ) / b / (2 : ℚ) ^ x.exp - x.mant| < x.slack) :
    unitExp a b = x.exp ∨ x.mant = 2 ^ 52 ∧ unitExp a b = x.exp - 1 := by
  have hp : (0 : ℚ) < (2 : ℚ) ^ x.exp := by positivity
  have two : (2 : ℚ) ≠ 0 := by norm_num
  obtain ⟨hbin, hbin'⟩ := binade_spec ha hb
  obtain ⟨hlo, hhi⟩ := abs_lt.1 h
  have hslack := x.slack_le
  -- not above the float's binade
  have hmant : (x.mant : ℚ) + 1 ≤ 2 ^ 53 := by exact_mod_cast x.canonical.mant_lt
  have hup : (a : ℚ) / b < (2 : ℚ) ^ (53 + x.exp) := by
    rw [zpow_add₀ two, ← div_lt_iff₀ hp]
    have : (2 : ℚ) ^ (53 : ℤ) = 2 ^ 53 := by norm_cast
    rw [this]
    linarith
  have hbinade : binade a b < 53 + x.exp := two_zpow_lt.1 (hbin.trans_lt hup)
  have hge : -1074 ≤ x.exp := x.canonical.exp_ge
  -- not below it, but for the numbers just below a power of two
  have hlow : ∀ k : ℤ, (2 : ℚ) ^ k ≤ (a : ℚ) / b / (2 : ℚ) ^ x.exp → k + x.exp ≤ binade a b := by
    intro k hk
    rw [le_div_iff₀ hp, ← zpow_add₀ two] at hk
    have := two_zpow_lt.1 (hk.trans_lt hbin')
    omega
  rcases x.canonical.normal with hnormal | hleast
  · rcases hnormal.lt_or_eq with hnormal | hpower
    · left
      have hlt : (2 : ℚ) ^ 52 + 1 ≤ x.mant := by exact_mod_cast hnormal
      have := hlow 52 (by
        have : (2 : ℚ) ^ (52 : ℤ) = 2 ^ 52 := by norm_cast
        rw [this]
        linarith)
      unfold unitExp
      omega
    · have hlt : (2 : ℚ) ^ 52 = x.mant := by exact_mod_cast hpower
      have := hlow 51 (by
        have : (2 : ℚ) ^ (51 : ℤ) = 2 ^ 51 := by norm_cast
        rw [this]
        linarith)
      unfold unitExp
      omega
  · left
    unfold unitExp
    omega

/-- A number that is near enough to a float is rounded to it. -/
theorem roundQuotient_near {a b : ℕ} (ha : 0 < a) (hb : 0 < b) (x : Binary64)
    (h : |(a : ℚ) / b / (2 : ℚ) ^ x.exp - x.mant| < x.slack) : roundQuotient x.neg a b = .finite x := by
  have hcarry : carry (roundMant a b) (unitExp a b) = (x.mant, x.exp) := by
    rcases unitExp_near ha hb x h with hunit | ⟨hpower, hunit⟩
    · have hmant := roundMant_eq hb hunit (h.trans_le x.slack_le)
      rw [hmant, hunit, carry, if_neg x.canonical.mant_lt.ne]
    · -- the carry goes back up
      have hhalf : (a : ℚ) / b / (2 : ℚ) ^ (x.exp - 1) = 2 * ((a : ℚ) / b / (2 : ℚ) ^ x.exp) := by
        rw [zpow_sub_one₀ (by norm_num)]
        field_simp
      have hmant : roundMant a b = 2 ^ 53 := by
        refine roundMant_eq hb hunit ?_
        rw [Binary64.slack, if_pos hpower] at h
        rw [hhalf, abs_lt]
        obtain ⟨hlo, hhi⟩ := abs_lt.1 h
        have hcast : (x.mant : ℚ) = 2 ^ 52 := by exact_mod_cast hpower
        push_cast
        constructor <;> linarith
      rw [hmant, hunit, carry, if_pos rfl, hpower, sub_add_cancel]
  unfold roundQuotient
  rw [dif_pos ⟨ha, hb⟩]
  obtain ⟨neg, mant, exp, hcanonical⟩ := x
  have hfits : (carry (roundMant a b) (unitExp a b)).2 ≤ 971 := by
    rw [hcarry]
    exact hcanonical.exp_le
  rw [dif_pos hfits]
  simp only [hcarry]

/-! ## Rounding tells numbers apart only -/

theorem roundDiv_congr {a b c d : ℕ} (hb : 0 < b) (hd : 0 < d) (h : a * d = c * b) : roundDiv a b = roundDiv c d := by
  have hdiv : a / b = c / d := by
    rw [← Nat.mul_div_mul_right a b hd, h, mul_comm b d, Nat.mul_div_mul_right c d hb]
  have hmod : a % b * d = c % d * b := by
    rw [← Nat.mul_mod_mul_right, ← Nat.mul_mod_mul_right, h, mul_comm b d]
  have htwice : 2 * (a % b) * d = 2 * (c % d) * b := by rw [mul_assoc, hmod, mul_assoc]
  have hless : 2 * (a % b) < b ↔ 2 * (c % d) < d := by
    calc 2 * (a % b) < b ↔ 2 * (a % b) * d < b * d := (Nat.mul_lt_mul_right hd).symm
      _ ↔ 2 * (c % d) * b < d * b := by rw [htwice, mul_comm b d]
      _ ↔ 2 * (c % d) < d := Nat.mul_lt_mul_right hb
  have hmore : b < 2 * (a % b) ↔ d < 2 * (c % d) := by
    calc b < 2 * (a % b) ↔ b * d < 2 * (a % b) * d := (Nat.mul_lt_mul_right hd).symm
      _ ↔ d * b < 2 * (c % d) * b := by rw [htwice, mul_comm b d]
      _ ↔ d < 2 * (c % d) := Nat.mul_lt_mul_right hb
  unfold roundDiv
  simp only [hless, hmore, hdiv]

theorem div_eq_div_iff_nat {a b c d : ℕ} (hb : 0 < b) (hd : 0 < d) : (a : ℚ) / b = (c : ℚ) / d ↔ a * d = c * b := by
  have hb' : (b : ℚ) ≠ 0 := by exact_mod_cast hb.ne'
  have hd' : (d : ℚ) ≠ 0 := by exact_mod_cast hd.ne'
  rw [div_eq_div_iff hb' hd']
  exact_mod_cast Iff.rfl

theorem binade_congr {a b c d : ℕ} (ha : 0 < a) (hb : 0 < b) (hc : 0 < c) (hd : 0 < d) (h : (a : ℚ) / b = (c : ℚ) / d) :
    binade a b = binade c d := by
  obtain ⟨hlo, hhi⟩ := binade_spec ha hb
  obtain ⟨hlo', hhi'⟩ := binade_spec hc hd
  rw [h] at hlo hhi
  have h₁ := two_zpow_lt.1 (hlo.trans_lt hhi')
  have h₂ := two_zpow_lt.1 (hlo'.trans_lt hhi)
  omega

/-- Rounding a quotient depends on the number it denotes only. -/
theorem roundQuotient_congr {a b c d : ℕ} (hb : 0 < b) (hd : 0 < d) (h : (a : ℚ) / b = (c : ℚ) / d) (neg : Bool) :
    roundQuotient neg a b = roundQuotient neg c d := by
  have hcross := (div_eq_div_iff_nat hb hd).1 h
  rcases Nat.eq_zero_or_pos a with rfl | ha
  · have hc : c = 0 := by
      rw [zero_mul] at hcross
      exact (Nat.mul_eq_zero.1 hcross.symm).resolve_right hb.ne'
    rw [hc, roundQuotient_zero, roundQuotient_zero]
  · have hc : 0 < c := by
      rcases Nat.eq_zero_or_pos c with rfl | hc
      · rw [zero_mul] at hcross
        exact absurd hcross (Nat.mul_pos ha hd).ne'
      · exact hc
    have hunit : unitExp a b = unitExp c d := by rw [unitExp, unitExp, binade_congr ha hb hc hd h]
    have hmant : roundMant a b = roundMant c d := by
      unfold roundMant
      rw [← hunit]
      refine roundDiv_congr (scaled_pos a hb _) (scaled_pos c hd _) ?_
      rw [← div_eq_div_iff_nat (scaled_pos a hb _) (scaled_pos c hd _), scaled_eq a hb, scaled_eq c hd, h]
    unfold roundQuotient
    simp only [hmant, hunit, ha, hb, hc, hd, and_self, dite_true]

/-- `c · 10^p` as a quotient. -/
theorem roundDecimal_eq (neg : Bool) (c : ℕ) (p : ℤ) : ∃ a b : ℕ, 0 < b ∧ (a : ℚ) / b = c * (10 : ℚ) ^ p ∧
    roundDecimal neg c p = roundQuotient neg a b := by
  unfold roundDecimal
  split
  · rename_i hp
    obtain ⟨n, rfl⟩ := Int.eq_ofNat_of_zero_le hp
    refine ⟨_, _, one_pos, ?_, rfl⟩
    push_cast
    rw [div_one, Int.toNat_natCast, zpow_natCast]
  · rename_i hp
    obtain ⟨n, rfl⟩ : ∃ n : ℕ, p = -(n : ℤ) := ⟨(-p).toNat, by omega⟩
    refine ⟨_, _, by positivity, ?_, rfl⟩
    push_cast
    rw [neg_neg, Int.toNat_natCast, zpow_neg, zpow_natCast, div_eq_mul_inv]

/-- Reading a decimal depends on the number it denotes only. -/
theorem roundDecimal_congr {c c' : ℕ} {p p' : ℤ} (h : (c : ℚ) * (10 : ℚ) ^ p = c' * (10 : ℚ) ^ p') (neg : Bool) :
    roundDecimal neg c p = roundDecimal neg c' p' := by
  obtain ⟨a, b, hb, hq, hround⟩ := roundDecimal_eq neg c p
  obtain ⟨a', b', hb', hq', hround'⟩ := roundDecimal_eq neg c' p'
  rw [hround, hround']
  exact roundQuotient_congr hb hb' (by rw [hq, hq', h]) neg

/-! ## The decade of a quotient -/

theorem tenPowLe_iff (d : ℤ) (a : ℕ) {b : ℕ} (hb : 0 < b) : tenPowLe d a b = true ↔ (10 : ℚ) ^ d ≤ (a : ℚ) / b := by
  have hcompared := zpow_le_div_iff (by norm_num : 0 < 10) d a hb
  rw [Nat.cast_ofNat] at hcompared
  exact hcompared

theorem log_bounds {a : ℕ} (ha : 0 < a) :
    (10 : ℚ) ^ (Nat.log 10 a : ℤ) ≤ a ∧ (a : ℚ) < (10 : ℚ) ^ ((Nat.log 10 a : ℤ) + 1) := by
  constructor
  · rw [zpow_natCast]
    exact_mod_cast Nat.pow_log_le_self 10 ha.ne'
  · have hlt := Nat.lt_pow_succ_log_self (by norm_num : 1 < 10) a
    have hcast : ((Nat.log 10 a : ℤ) + 1) = ((Nat.log 10 a + 1 : ℕ) : ℤ) := by push_cast; ring
    rw [hcast, zpow_natCast]
    exact_mod_cast hlt

theorem decade_spec {a b : ℕ} (ha : 0 < a) (hb : 0 < b) :
    (10 : ℚ) ^ decade a b ≤ (a : ℚ) / b ∧ (a : ℚ) / b < (10 : ℚ) ^ (decade a b + 1) := by
  have hb' : (0 : ℚ) < b := by exact_mod_cast hb
  have ten : (10 : ℚ) ≠ 0 := by norm_num
  obtain ⟨alo, ahi⟩ := log_bounds ha
  obtain ⟨blo, bhi⟩ := log_bounds hb
  have hup : (a : ℚ) / b < (10 : ℚ) ^ ((Nat.log 10 a : ℤ) - Nat.log 10 b + 1) := by
    rw [div_lt_iff₀ hb']
    calc (a : ℚ) < (10 : ℚ) ^ ((Nat.log 10 a : ℤ) + 1) := ahi
      _ = (10 : ℚ) ^ ((Nat.log 10 a : ℤ) - Nat.log 10 b + 1) * (10 : ℚ) ^ (Nat.log 10 b : ℤ) := by
        rw [← zpow_add₀ ten]
        congr 1
        ring
      _ ≤ (10 : ℚ) ^ ((Nat.log 10 a : ℤ) - Nat.log 10 b + 1) * b := by gcongr
  have hlo : (10 : ℚ) ^ ((Nat.log 10 a : ℤ) - Nat.log 10 b - 1) ≤ (a : ℚ) / b := by
    rw [le_div_iff₀ hb']
    calc (10 : ℚ) ^ ((Nat.log 10 a : ℤ) - Nat.log 10 b - 1) * b
        ≤ (10 : ℚ) ^ ((Nat.log 10 a : ℤ) - Nat.log 10 b - 1) * (10 : ℚ) ^ ((Nat.log 10 b : ℤ) + 1) := by gcongr
      _ = (10 : ℚ) ^ (Nat.log 10 a : ℤ) := by
        rw [← zpow_add₀ ten]
        congr 1
        ring
      _ ≤ a := alo
  unfold decade
  simp only
  split
  · rename_i h
    exact ⟨(tenPowLe_iff _ a hb).1 h, hup⟩
  · rename_i h
    rw [tenPowLe_iff _ a hb, not_le] at h
    exact ⟨hlo, by rw [sub_add_cancel]; exact h⟩


/-! ## Seventeen digits suffice -/

theorem binaryQuotient_spec (m : ℕ) (e : ℤ) : 0 < (binaryQuotient m e).2 ∧
    ((binaryQuotient m e).1 : ℚ) / (binaryQuotient m e).2 = m * (2 : ℚ) ^ e := by
  unfold binaryQuotient
  split
  · rename_i he
    obtain ⟨n, rfl⟩ := Int.eq_ofNat_of_zero_le he
    refine ⟨one_pos, ?_⟩
    push_cast
    rw [div_one, Int.toNat_natCast, zpow_natCast]
  · rename_i he
    obtain ⟨n, rfl⟩ : ∃ n : ℕ, e = -(n : ℤ) := ⟨(-e).toNat, by omega⟩
    refine ⟨by positivity, ?_⟩
    push_cast
    rw [neg_neg, Int.toNat_natCast, zpow_neg, zpow_natCast, div_eq_mul_inv]

theorem binaryQuotient_pos {x : Binary64} (hpos : 0 < x.mant) {a b : ℕ} (hq : binaryQuotient x.mant x.exp = (a, b)) :
    0 < a ∧ 0 < b ∧ (a : ℚ) / b = x.mag := by
  obtain ⟨hb, hmag⟩ := binaryQuotient_spec x.mant x.exp
  rw [hq] at hb hmag
  refine ⟨?_, hb, hmag⟩
  unfold binaryQuotient at hq
  split at hq
  · rw [← (Prod.mk.inj hq).1]
    exact Nat.mul_pos hpos (by positivity)
  · rw [← (Prod.mk.inj hq).1]
    exact hpos

/-- `(a / b) / 10^p` as a quotient. -/
def inUnits (a b : ℕ) (p : ℤ) : ℕ × ℕ :=
  (if 0 ≤ p then a else a * 10 ^ (-p).toNat, if 0 ≤ p then b * 10 ^ p.toNat else b)

theorem inUnits_spec (a : ℕ) {b : ℕ} (hb : 0 < b) (p : ℤ) : 0 < (inUnits a b p).2 ∧
    ((inUnits a b p).1 : ℚ) / (inUnits a b p).2 = (a : ℚ) / b / (10 : ℚ) ^ p := by
  unfold inUnits
  split
  · rename_i hp
    obtain ⟨n, rfl⟩ := Int.eq_ofNat_of_zero_le hp
    refine ⟨by simp only; positivity, ?_⟩
    push_cast
    rw [Int.toNat_natCast, zpow_natCast, div_div]
  · rename_i hp
    obtain ⟨n, rfl⟩ : ∃ n : ℕ, p = -(n : ℤ) := ⟨(-p).toNat, by omega⟩
    refine ⟨hb, ?_⟩
    push_cast
    rw [neg_neg, Int.toNat_natCast, zpow_neg, zpow_natCast, div_inv_eq_mul, mul_div_right_comm]

theorem decimalsAt_eq (x : Binary64) (a b : ℕ) (p : ℤ) :
    decimalsAt x a b p = (if roundDiv (inUnits a b p).1 (inUnits a b p).2 = (inUnits a b p).1 / (inUnits a b p).2 then
        [(inUnits a b p).1 / (inUnits a b p).2, (inUnits a b p).1 / (inUnits a b p).2 + 1]
      else [(inUnits a b p).1 / (inUnits a b p).2 + 1, (inUnits a b p).1 / (inUnits a b p).2]).filter
        fun c => roundDecimal x.neg c p = .finite x := rfl

/-- The decimals tried are next to the number, and read back as it. -/
theorem mem_decimalsAt {x : Binary64} {a b : ℕ} {p : ℤ} {c : ℕ} (h : c ∈ decimalsAt x a b p) :
    roundDecimal x.neg c p = .finite x ∧ (inUnits a b p).1 / (inUnits a b p).2 ≤ c ∧
      c ≤ (inUnits a b p).1 / (inUnits a b p).2 + 1 := by
  rw [decimalsAt_eq] at h
  obtain ⟨hnear, hreads⟩ := List.mem_filter.1 h
  refine ⟨of_decide_eq_true hreads, ?_⟩
  split at hnear
  · rcases List.mem_cons.1 hnear with rfl | hnear
    · exact ⟨le_refl _, Nat.le_succ _⟩
    · rw [List.mem_singleton.1 hnear]
      exact ⟨Nat.le_succ _, le_refl _⟩
  · rcases List.mem_cons.1 hnear with rfl | hnear
    · exact ⟨Nat.le_succ _, le_refl _⟩
    · rw [List.mem_singleton.1 hnear]
      exact ⟨le_refl _, Nat.le_succ _⟩

theorem roundDiv_cases (a b : ℕ) : roundDiv a b = a / b ∨ roundDiv a b = a / b + 1 := by
  unfold roundDiv
  split
  · exact .inl rfl
  · split
    · exact .inr rfl
    · split
      · exact .inl rfl
      · exact .inr rfl

/-- The nearer decimal is tried first. -/
theorem head_decimalsAt {x : Binary64} {a b : ℕ} {p : ℤ}
    (h : roundDecimal x.neg (roundDiv (inUnits a b p).1 (inUnits a b p).2) p = .finite x) :
    (decimalsAt x a b p).head? = some (roundDiv (inUnits a b p).1 (inUnits a b p).2) := by
  rw [decimalsAt_eq]
  split
  · rename_i hfloor
    rw [hfloor] at h ⊢
    rw [List.filter_cons_of_pos (by simpa using h), List.head?_cons]
  · rename_i hfloor
    have hceil := (roundDiv_cases _ _).resolve_left hfloor
    rw [hceil] at h ⊢
    rw [List.filter_cons_of_pos (by simpa using h), List.head?_cons]

/-- The nearest decimal of seventeen digits reads back. -/
theorem seventeen_reads (x : Binary64) (hpos : 0 < x.mant) {a b : ℕ} (ha : 0 < a) (hb : 0 < b)
    (hq : (a : ℚ) / b = x.mag) : let p := decade a b - 16
      roundDecimal x.neg (roundDiv (inUnits a b p).1 (inUnits a b p).2) p = .finite x := by
  intro p
  obtain ⟨hden, hunits⟩ := inUnits_spec a hb p
  have hround := abs_roundDiv_sub (inUnits a b p).1 hden
  rw [hunits] at hround
  generalize roundDiv (inUnits a b p).1 (inUnits a b p).2 = c at hround
  have hten : (0 : ℚ) < (10 : ℚ) ^ p := by positivity
  have htwo : (0 : ℚ) < (2 : ℚ) ^ x.exp := by positivity
  -- one unit of the seventeenth digit is a small part of a unit of the float
  have hdecade : (10 : ℚ) ^ p * 10 ^ 16 ≤ x.mag := by
    have hsplit : (10 : ℚ) ^ p * 10 ^ 16 = (10 : ℚ) ^ decade a b := by
      have hcast : (10 : ℚ) ^ 16 = (10 : ℚ) ^ (16 : ℤ) := by norm_cast
      rw [hcast, ← zpow_add₀ (by norm_num)]
      congr 1
      omega
    rw [hsplit, ← hq]
    exact (decade_spec ha hb).1
  have hunit : (10 : ℚ) ^ p / (2 : ℚ) ^ x.exp * 10 ^ 16 ≤ x.mant := by
    rw [div_mul_eq_mul_div, div_le_iff₀ htwo]
    exact hdecade
  have herror : |(c : ℚ) * (10 : ℚ) ^ p / (2 : ℚ) ^ x.exp - x.mant| ≤ 1 / 2 * ((10 : ℚ) ^ p / (2 : ℚ) ^ x.exp) := by
    have hmant : (x.mant : ℚ) = (a : ℚ) / b / (10 : ℚ) ^ p * ((10 : ℚ) ^ p / (2 : ℚ) ^ x.exp) := by
      rw [hq, Binary64.mag]
      field_simp
    have hstep : (0 : ℚ) < (10 : ℚ) ^ p / (2 : ℚ) ^ x.exp := by positivity
    calc |(c : ℚ) * (10 : ℚ) ^ p / (2 : ℚ) ^ x.exp - x.mant|
        = |((c : ℚ) - (a : ℚ) / b / (10 : ℚ) ^ p) * ((10 : ℚ) ^ p / (2 : ℚ) ^ x.exp)| := by
          congr 1
          rw [sub_mul, ← hmant, mul_div_assoc]
      _ = |(c : ℚ) - (a : ℚ) / b / (10 : ℚ) ^ p| * ((10 : ℚ) ^ p / (2 : ℚ) ^ x.exp) := by
          rw [abs_mul, abs_of_pos hstep]
      _ ≤ 1 / 2 * ((10 : ℚ) ^ p / (2 : ℚ) ^ x.exp) := by gcongr
  have hslack : 1 / 2 * ((10 : ℚ) ^ p / (2 : ℚ) ^ x.exp) < x.slack := by
    unfold Binary64.slack
    split
    · rename_i hpower
      rw [hpower] at hunit
      push_cast at hunit
      linarith
    · have hmant : (x.mant : ℚ) + 1 ≤ 2 ^ 53 := by exact_mod_cast x.canonical.mant_lt
      linarith
  obtain ⟨num, den, hden', hvalue, hread⟩ := roundDecimal_eq x.neg c p
  rw [hread]
  refine roundQuotient_near ?_ hden' x ?_
  · -- a decimal this near is not zero
    rcases Nat.eq_zero_or_pos num with rfl | hnum
    · rw [Nat.cast_zero, zero_div] at hvalue
      rw [← hvalue, zero_div, zero_sub, abs_neg] at herror
      have hone : (1 : ℚ) ≤ x.mant := by exact_mod_cast hpos
      have habs : |(x.mant : ℚ)| = x.mant := abs_of_nonneg (by positivity)
      have hhalf := x.slack_le
      linarith
    · exact hnum
  · rw [hvalue]
    exact herror.trans_lt hslack

/-! ## The shortest decimal -/

/-- What the search finds: the fewest digits of which a decimal next to the number reads back as it. -/
theorem shortestDecimal_found (x : Binary64) (hpos : 0 < x.mant) {a b : ℕ} (hq : binaryQuotient x.mant x.exp = (a, b)) :
    ∃ k : ℕ, k < 17 ∧ (shortestDecimal x).2 = decade a b - k ∧ (decimalsAt x a b (decade a b - k)).head? = some (shortestDecimal x).1 ∧
      ∀ j : ℕ, j < k → decimalsAt x a b (decade a b - j) = [] := by
  obtain ⟨ha, hb, hmag⟩ := binaryQuotient_pos hpos hq
  unfold shortestDecimal
  simp only [hq]
  rw [List.head?_filterMap]
  -- some number of digits is found, as seventeen is
  have hseventeen := head_decimalsAt (seventeen_reads x hpos ha hb hmag)
  cases hfound : (List.range 17).findSome? fun (k : ℕ) =>
      ((decimalsAt x a b (decade a b - k)).head?).map fun c => (c, decade a b - (k : ℤ)) with
  | none =>
    have hnone := List.findSome?_eq_none_iff.1 hfound 16 (List.mem_range.2 (by norm_num))
    rw [Nat.cast_ofNat, hseventeen] at hnone
    cases hnone
  | some r =>
    obtain ⟨before, k, after, hsplit, hk, hbefore⟩ := List.findSome?_eq_some_iff.1 hfound
    obtain ⟨c, hc, rfl⟩ := Option.map_eq_some_iff.1 hk
    have hlength : before.length = k ∧ before.length < 17 := by
      have hlen := congrArg List.length hsplit
      rw [List.length_range, List.length_append, List.length_cons] at hlen
      have hget : (List.range 17)[before.length]? = some k := by
        rw [hsplit, List.getElem?_append_right (le_refl _), Nat.sub_self]
        rfl
      rw [List.getElem?_range (by omega)] at hget
      exact ⟨Option.some.inj hget, by omega⟩
    refine ⟨k, by omega, rfl, hc, fun j hj => ?_⟩
    have hmem : j ∈ before := by
      have hget : (List.range 17)[j]? = some j := List.getElem?_range (by omega)
      rw [hsplit, List.getElem?_append_left (by omega)] at hget
      exact List.mem_of_getElem? hget
    have hnone := hbefore j hmem
    rw [Option.map_eq_none_iff, List.head?_eq_none_iff] at hnone
    exact hnone

/-- The shortest decimal reads back as the float, and has at most seventeen digits (or is `10^17`). -/
theorem shortestDecimal_spec (x : Binary64) (hpos : 0 < x.mant) :
    roundDecimal x.neg (shortestDecimal x).1 (shortestDecimal x).2 = .finite x ∧ 0 < (shortestDecimal x).1 ∧
      (shortestDecimal x).1 ≤ 10 ^ 17 := by
  obtain ⟨a, b, hq⟩ : ∃ a b, binaryQuotient x.mant x.exp = (a, b) := ⟨_, _, rfl⟩
  obtain ⟨ha, hb, -⟩ := binaryQuotient_pos hpos hq
  obtain ⟨k, hk, hp, hhead, -⟩ := shortestDecimal_found x hpos hq
  obtain ⟨hreads, -, hle⟩ := mem_decimalsAt (List.mem_of_head? hhead)
  rw [hp]
  generalize (shortestDecimal x).1 = c at hreads hle
  have hdecade := decade_spec ha hb
  refine ⟨hreads, ?_, ?_⟩
  · rcases Nat.eq_zero_or_pos c with rfl | hpos'
    · -- zero reads back as zero
      obtain ⟨num, den, hden, hvalue, hround⟩ := roundDecimal_eq x.neg 0 (decade a b - k)
      rw [Nat.cast_zero, zero_mul, div_eq_zero_iff] at hvalue
      have hnum : num = 0 := by
        rcases hvalue with hnum | hzero
        · exact_mod_cast hnum
        · exact absurd (Nat.cast_eq_zero.1 hzero) hden.ne'
      rw [hround, hnum, roundQuotient_zero] at hreads
      rw [← PyFloat.finite.inj hreads] at hpos
      exact absurd hpos (lt_irrefl _)
    · exact hpos'
  · obtain ⟨hden, hunits⟩ := inUnits_spec a hb (decade a b - k)
    have hden' : (0 : ℚ) < (inUnits a b (decade a b - k)).2 := by exact_mod_cast hden
    have hbelow : ((inUnits a b (decade a b - k)).1 : ℚ) / (inUnits a b (decade a b - k)).2 < 10 ^ 17 := by
      rw [hunits, div_lt_iff₀ (by positivity)]
      have hcast : (10 : ℚ) ^ 17 = (10 : ℚ) ^ (17 : ℤ) := by norm_cast
      rw [hcast, ← zpow_add₀ (by norm_num)]
      exact hdecade.2.trans_le (zpow_le_zpow_right₀ (by norm_num) (by omega))
    rw [div_lt_iff₀ hden'] at hbelow
    have hfloor : (inUnits a b (decade a b - k)).1 / (inUnits a b (decade a b - k)).2 < 10 ^ 17 := by
      rw [Nat.div_lt_iff_lt_mul hden]
      exact_mod_cast hbelow
    exact hle.trans hfloor

/-- The shortest decimal is not below the decade of the number. -/
theorem le_shortestDecimal (x : Binary64) (hpos : 0 < x.mant) {a b : ℕ} (hq : binaryQuotient x.mant x.exp = (a, b)) :
    (10 : ℚ) ^ decade a b ≤ (shortestDecimal x).1 * (10 : ℚ) ^ (shortestDecimal x).2 := by
  obtain ⟨ha, hb, -⟩ := binaryQuotient_pos hpos hq
  obtain ⟨k, -, hp, hhead, -⟩ := shortestDecimal_found x hpos hq
  obtain ⟨-, hle, -⟩ := mem_decimalsAt (List.mem_of_head? hhead)
  obtain ⟨hden, hunits⟩ := inUnits_spec a hb (decade a b - k)
  have hsplit : (10 : ℚ) ^ decade a b = ((10 ^ k : ℕ) : ℚ) * (10 : ℚ) ^ (decade a b - k) := by
    push_cast
    rw [← zpow_natCast, ← zpow_add₀ (by norm_num)]
    congr 1
    omega
  have hfloor : 10 ^ k ≤ (inUnits a b (decade a b - k)).1 / (inUnits a b (decade a b - k)).2 := by
    rw [Nat.le_div_iff_mul_le hden]
    have hlow : ((10 ^ k : ℕ) : ℚ) ≤ (inUnits a b (decade a b - k)).1 / (inUnits a b (decade a b - k)).2 := by
      rw [hunits, le_div_iff₀ (by positivity), ← hsplit]
      exact (decade_spec ha hb).1
    rw [le_div_iff₀ (by exact_mod_cast hden)] at hlow
    exact_mod_cast hlow
  rw [hp, hsplit]
  gcongr
  exact hfloor.trans hle

end Python
