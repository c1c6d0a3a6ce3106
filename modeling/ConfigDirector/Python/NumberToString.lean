/-
`Number::toString` of ECMAScript next to `repr`: both write the shortest digits of a float, and differ in
when they write an exponent and in how. A whole float is also written out digit by digit, which agrees
where the shortest digits are all there is to the number.
-/
import ConfigDirector.Python.Decimal
import Mathlib.Data.Nat.Digits.Lemmas

namespace Python

/-! ## Model -/

/-- `Number::toString` of a positive number with the given digits and point. -/
def layoutNumber (digits : Text) (point : ℤ) : Text :=
  if -6 < point ∧ point ≤ 21 then
    if point ≤ 0 then lit "0." ++ List.replicate (-point).toNat 0x30 ++ digits
    else if digits.length ≤ point.toNat then digits ++ List.replicate (point.toNat - digits.length) 0x30
    else digits.take point.toNat ++ lit "." ++ digits.drop point.toNat
  else
    let e := point - 1
    let mantissa := if digits.length ≤ 1 then digits else digits.take 1 ++ lit "." ++ digits.drop 1
    mantissa ++ lit "e" ++ (if e < 0 then lit "-" else lit "+") ++ natText e.natAbs

/-- `Number::toString` of a finite number. -/
def numberToString (x : Binary64) : Text :=
  if x.mant = 0 then lit "0" else signText x.neg ++ layoutNumber (reprDigits x).1 (reprDigits x).2

/-! ## Digits of one number -/

theorem asciiDigit_val {c : CodePoint} (h : c.isAsciiDigit = true) : 0x30 ≤ c.val ∧ c.val ≤ 0x39 := by
  unfold CodePoint.isAsciiDigit at h
  rw [Bool.and_eq_true, decide_eq_true_eq, decide_eq_true_eq] at h
  exact h

/-- Digits are known by how many they are and what they denote. -/
theorem digits_unique {a : Text} : ∀ {b : Text}, AllDigits a → AllDigits b → a.length = b.length →
    digitsToNat a = digitsToNat b → a = b := by
  induction a using List.reverseRecOn with
  | nil =>
    intro b _ _ hlength _
    exact (List.length_eq_zero_iff.1 hlength.symm).symm
  | append_singleton a c ih =>
    intro b ha hb hlength hvalue
    obtain ⟨b, d, rfl⟩ : ∃ b' d, b = b' ++ [d] := by
      have hne : b ≠ [] := by
        rintro rfl
        simp at hlength
      exact ⟨_, _, (List.dropLast_append_getLast hne).symm⟩
    obtain ⟨ha, hc⟩ := allDigits_append.1 ha
    obtain ⟨hb, hd⟩ := allDigits_append.1 hb
    have hcval := asciiDigit_val (hc c (List.mem_singleton_self c))
    have hdval := asciiDigit_val (hd d (List.mem_singleton_self d))
    rw [digitsToNat_concat, digitsToNat_concat] at hvalue
    rw [List.length_append, List.length_append, List.length_singleton, List.length_singleton] at hlength
    have hlast : c = d := Fin.ext (by omega)
    rw [ih ha hb (by omega) (by omega), hlast]

/-- A first digit that is not zero bounds the number from below. -/
theorem le_digitsToNat {s : Text} (h : AllDigits s) (hne : s ≠ []) (hhead : s.head? ≠ some 0x30) :
    10 ^ (s.length - 1) ≤ digitsToNat s := by
  cases s with
  | nil => exact absurd rfl hne
  | cons c s =>
    have hval := asciiDigit_val (h c List.mem_cons_self)
    have hone : 1 ≤ c.val - 0x30 := by
      have hc : c.val ≠ 0x30 := by
        intro hc
        have hzero : c = 0x30 := Fin.ext hc
        exact hhead (by rw [hzero, List.head?_cons])
      omega
    have hsplit := digitsToNat_append [c] s
    have hdigit : digitsToNat [c] = c.val - 0x30 := by
      rw [← List.nil_append [c], digitsToNat_concat]
      show 10 * 0 + (c.val - 0x30) = c.val - 0x30
      omega
    rw [List.singleton_append, hdigit] at hsplit
    rw [hsplit, List.length_cons, Nat.add_sub_cancel]
    calc 10 ^ s.length ≤ (c.val - 0x30) * 10 ^ s.length := Nat.le_mul_of_pos_left _ hone
      _ ≤ (c.val - 0x30) * 10 ^ s.length + digitsToNat s := Nat.le_add_right _ _

theorem head_natText {n : ℕ} (hn : n ≠ 0) : (natText n).head? ≠ some 0x30 := by
  have hdigits := Nat.digits_ne_nil_iff_ne_zero (b := 10).2 hn
  have hlast := Nat.getLast_digit_ne_zero 10 hn
  have hlt : (Nat.digits 10 n).getLast hdigits < 10 := Nat.digits_lt_base (by norm_num) (List.getLast_mem hdigits)
  unfold natText
  rw [if_neg hn, List.head?_map, List.head?_reverse, List.getLast?_eq_some_getLast hdigits, Option.map_some]
  intro heq
  have hval := congrArg Fin.val (Option.some.inj heq)
  rw [ofDigit_val, Nat.mod_eq_of_lt hlt] at hval
  have hzero : ((0x30 : CodePoint) : ℕ) = 0x30 := rfl
  omega

/-- Digits without a leading zero are the digits of the number they denote. -/
theorem natText_digitsToNat {s : Text} (h : AllDigits s) (hne : s ≠ []) (hhead : s.head? ≠ some 0x30) :
    natText (digitsToNat s) = s := by
  have hlow := le_digitsToNat h hne hhead
  have hpos : digitsToNat s ≠ 0 := (Nat.lt_of_lt_of_le (by positivity) hlow).ne'
  have hlow' := le_digitsToNat (allDigits_natText (digitsToNat s)) (natText_ne_nil _) (head_natText hpos)
  have hup := digitsToNat_lt h
  have hup' := digitsToNat_lt (allDigits_natText (digitsToNat s))
  rw [digitsToNat_natText] at hlow' hup'
  have hlength := List.length_pos_iff_ne_nil.2 hne
  have hlength' := List.length_pos_iff_ne_nil.2 (natText_ne_nil (digitsToNat s))
  have h₁ := (Nat.pow_lt_pow_iff_right (by norm_num : 1 < 10)).1 (hlow.trans_lt hup')
  have h₂ := (Nat.pow_lt_pow_iff_right (by norm_num : 1 < 10)).1 (hlow'.trans_lt hup)
  exact digits_unique (allDigits_natText _) h (by omega) (digitsToNat_natText _)

/-- Digits without a zero at either end. -/
structure Significant (s : Text) : Prop where
  digits : AllDigits s
  ne_nil : s ≠ []
  head : s.head? ≠ some 0x30
  last : s.getLast? ≠ some 0x30

theorem Significant.length_pos {s : Text} (h : Significant s) : 0 < s.length := List.length_pos_iff_ne_nil.2 h.ne_nil

/-- Ten does not divide what they denote. -/
theorem Significant.not_dvd {s : Text} (h : Significant s) : ¬ 10 ∣ digitsToNat s := by
  obtain ⟨t, c, rfl⟩ : ∃ t c, s = t ++ [c] := ⟨_, _, (List.dropLast_append_getLast h.ne_nil).symm⟩
  have hc := asciiDigit_val (h.digits c (List.mem_append_right _ (List.mem_singleton_self c)))
  have hlast := h.last
  rw [List.getLast?_concat] at hlast
  rw [digitsToNat_concat]
  intro hdvd
  have hzero : c = 0x30 := Fin.ext (by show c.val = 0x30; omega)
  exact hlast (congrArg some hzero)

/-- Stripping the zeros of a number's digits leaves the significant ones. -/
theorem significant_stripZeros {n : ℕ} (hn : n ≠ 0) : Significant (stripZeros (natText n)) := by
  obtain ⟨k, hk⟩ := stripZeros_append (natText n)
  have hvalue : n = digitsToNat (stripZeros (natText n)) * 10 ^ k := by
    conv => lhs; rw [← digitsToNat_natText n, hk]
    rw [digitsToNat_append, digitsToNat_zeros, List.length_replicate, add_zero]
  have hne : stripZeros (natText n) ≠ [] := by
    intro hnil
    rw [hnil] at hvalue
    exact hn (hvalue.trans (Nat.zero_mul _))
  refine ⟨(allDigits_natText n).subset (stripZeros_subset _), hne, ?_, ?_⟩
  · have hhead := head_natText hn
    rw [hk, List.head?_append_of_ne_nil _ hne] at hhead
    exact hhead
  · unfold stripZeros at hne ⊢
    rw [List.getLast?_reverse]
    intro hlast
    have hstops := List.head?_dropWhile_not (fun c : CodePoint => decide (c = 0x30)) (natText n).reverse
    rw [hlast] at hstops
    simp at hstops

/-- Significant digits of a number up to `10^k` are at most `k`. -/
theorem Significant.length_le {s : Text} (h : Significant s) {k : ℕ} (hk : 0 < k) (hvalue : digitsToNat s ≤ 10 ^ k) :
    s.length ≤ k := by
  have hlow := le_digitsToNat h.digits h.ne_nil h.head
  have hpos := h.length_pos
  have hle := (Nat.pow_le_pow_iff_right (by norm_num : 1 < 10)).1 (hlow.trans hvalue)
  rcases hle.lt_or_eq with hlt | heq
  · omega
  · -- the power of ten itself ends in a zero
    rw [heq] at hlow
    have hexact : digitsToNat s = 10 ^ k := hvalue.antisymm hlow
    exact absurd (hexact ▸ dvd_pow_self 10 hk.ne') h.not_dvd

/-! ## The two layouts -/

theorem padTwo_eq_iff (n : ℕ) : padTwo n = natText n ↔ 10 ≤ n := by
  unfold padTwo
  split
  · rename_i hn
    refine iff_of_false (fun heq => ?_) (by omega)
    have hlength := congrArg List.length heq
    rw [List.length_append] at hlength
    have hzero : (lit "0").length = 1 := rfl
    omega
  · rename_i hn
    exact iff_of_true rfl (by omega)

/-- Where both write an exponent they agree from two digits of it on. -/
theorem layouts_scientific {digits : Text} {point : ℤ} (h : point ≤ -6 ∨ 22 ≤ point) :
    layoutRepr digits point = layoutNumber digits point ↔ point ≤ -9 ∨ 22 ≤ point := by
  have hrepr : ¬ (-4 < point ∧ point ≤ 16) := by omega
  have hnumber : ¬ (-6 < point ∧ point ≤ 21) := by omega
  unfold layoutRepr layoutNumber
  rw [if_neg hrepr, if_neg hnumber]
  simp only [List.append_cancel_left_eq]
  rw [padTwo_eq_iff]
  omega

/-- Where `repr` alone writes an exponent they differ at once. -/
theorem layouts_differ {digits : Text} (h : Significant digits) {point : ℤ} (hlow : -6 < point) (hhigh : point ≤ -4) :
    layoutRepr digits point ≠ layoutNumber digits point := by
  have hrepr : ¬ (-4 < point ∧ point ≤ 16) := by omega
  have hnumber : -6 < point ∧ point ≤ 21 := by omega
  have hsmall : point ≤ 0 := by omega
  unfold layoutRepr layoutNumber
  rw [if_neg hrepr, if_pos hnumber, if_pos hsmall]
  obtain ⟨c, s, rfl⟩ := List.exists_cons_of_ne_nil h.ne_nil
  intro heq
  have hhead := congrArg List.head? heq
  apply h.head
  by_cases hone : (c :: s).length ≤ 1
  · simp only [if_pos hone] at hhead
    exact hhead
  · simp only [if_neg hone] at hhead
    exact hhead

/-- Without an exponent they agree on a number that is not whole. -/
theorem layouts_plain {digits : Text} {point : ℤ} (hlow : -4 < point) (hhigh : point ≤ 16) (hpoint : point < digits.length) :
    layoutRepr digits point = layoutNumber digits point := by
  have hnumber : -6 < point ∧ point ≤ 21 := by omega
  unfold layoutRepr layoutNumber
  rw [if_pos ⟨hlow, hhigh⟩, if_pos hnumber]
  by_cases hsmall : point ≤ 0
  · rw [if_pos hsmall, if_pos hsmall]
  · have hlong : ¬ digits.length ≤ point.toNat := by omega
    rw [if_neg hsmall, if_neg hsmall, if_neg hlong, if_neg hlong]

/-- The two layouts of digits that are not padded, or that take an exponent. -/
theorem layoutRepr_eq_iff {digits : Text} (h : Significant digits) {point : ℤ}
    (hrange : point < digits.length ∧ digits.length ≤ 17 ∨ 22 ≤ point) :
    layoutRepr digits point = layoutNumber digits point ↔ point ≤ -9 ∨ -3 ≤ point := by
  by_cases hscientific : point ≤ -6 ∨ 22 ≤ point
  · rw [layouts_scientific hscientific]
    omega
  · by_cases hdiffer : point ≤ -4
    · exact iff_of_false (layouts_differ h (by omega) hdiffer) (by omega)
    · exact iff_of_true (layouts_plain (by omega) (by omega) (by omega)) (by omega)

/-- Significant digits that denote a whole number end before the point. -/
theorem Significant.length_le_point {s : Text} (h : Significant s) {point : ℤ} {n : ℕ}
    (hn : (n : ℚ) = digitsToNat s * (10 : ℚ) ^ (point - s.length)) : (s.length : ℤ) ≤ point := by
  by_contra hlt
  obtain ⟨k, hk⟩ : ∃ k : ℕ, point - s.length = -((k + 1 : ℕ) : ℤ) := ⟨(s.length - point - 1).toNat, by omega⟩
  rw [hk, zpow_neg, zpow_natCast, eq_mul_inv_iff_mul_eq₀ (by positivity)] at hn
  have hwhole : n * 10 ^ (k + 1) = digitsToNat s := by exact_mod_cast hn
  -- the last digit would be a zero
  have hdvd : 10 ∣ n * 10 ^ (k + 1) := (dvd_pow_self 10 k.succ_ne_zero).mul_left n
  exact h.not_dvd (hwhole ▸ hdvd)

/-- A layout of digits alone is the padded one. -/
theorem padded_of_allDigits {digits : Text} {point : ℤ} (h : AllDigits (layoutNumber digits point)) :
    (digits.length : ℤ) ≤ point ∧ point ≤ 21 ∧
      layoutNumber digits point = digits ++ List.replicate (point.toNat - digits.length) 0x30 := by
  have hleading : ¬ AllDigits (lit "0.") := fun h => absurd (h 0x2E (by decide)) (by decide)
  have hpoint : ¬ AllDigits (lit ".") := fun h => absurd (h 0x2E (by decide)) (by decide)
  have hexponent : ¬ AllDigits (lit "e") := fun h => absurd (h 0x65 (by decide)) (by decide)
  unfold layoutNumber at h ⊢
  by_cases hplain : -6 < point ∧ point ≤ 21
  · rw [if_pos hplain] at h ⊢
    by_cases hsmall : point ≤ 0
    · rw [if_pos hsmall, allDigits_append, allDigits_append] at h
      exact absurd h.1.1 hleading
    · rw [if_neg hsmall] at h ⊢
      by_cases hlong : digits.length ≤ point.toNat
      · rw [if_pos hlong]
        exact ⟨by omega, hplain.2, rfl⟩
      · rw [if_neg hlong, allDigits_append, allDigits_append] at h
        exact absurd h.1.2 hpoint
  · simp only [if_neg hplain, allDigits_append] at h
    exact absurd h.1.1.2 hexponent

/-- A whole number digit by digit is the number's layout exactly if the shortest digits are all there is to it. -/
theorem natText_eq_layoutNumber_iff {digits : Text} (h : Significant digits) {point : ℤ} {n : ℕ} (hn : n < 10 ^ 21) :
    natText n = layoutNumber digits point ↔ (n : ℚ) = digitsToNat digits * (10 : ℚ) ^ (point - digits.length) := by
  have hpadded : AllDigits (digits ++ List.replicate (point.toNat - digits.length) 0x30) :=
    allDigits_append.2 ⟨h.digits, allDigits_zeros _⟩
  have hvalue : digitsToNat (digits ++ List.replicate (point.toNat - digits.length) 0x30) =
      digitsToNat digits * 10 ^ (point.toNat - digits.length) := by
    rw [digitsToNat_append, digitsToNat_zeros, List.length_replicate, add_zero]
  have hexact : (digits.length : ℤ) ≤ point →
      (((digitsToNat digits * 10 ^ (point.toNat - digits.length) : ℕ) : ℚ) =
        digitsToNat digits * (10 : ℚ) ^ (point - digits.length)) := by
    intro hle
    have hsub : point - digits.length = ((point.toNat - digits.length : ℕ) : ℤ) := by omega
    rw [hsub, zpow_natCast]
    push_cast
    rfl
  constructor
  · intro heq
    obtain ⟨hle, -, hlayout⟩ := padded_of_allDigits (heq ▸ allDigits_natText n)
    rw [hlayout] at heq
    have hnat := congrArg digitsToNat heq
    rw [digitsToNat_natText, hvalue] at hnat
    rw [hnat, hexact hle]
  · intro heq
    have hle := h.length_le_point heq
    rw [← hexact hle, Nat.cast_inj] at heq
    -- a number below `10^21` has its point there
    have hlow : 10 ^ (digits.length - 1 + (point.toNat - digits.length)) < 10 ^ 21 := by
      rw [pow_add]
      refine lt_of_le_of_lt ?_ (heq ▸ hn)
      exact Nat.mul_le_mul_right _ (le_digitsToNat h.digits h.ne_nil h.head)
    have hpoint := (Nat.pow_lt_pow_iff_right (by norm_num : 1 < 10)).1 hlow
    have hlength := h.length_pos
    have hplain : -6 < point ∧ point ≤ 21 := by omega
    have hlarge : ¬ point ≤ 0 := by omega
    have hlong : digits.length ≤ point.toNat := by omega
    unfold layoutNumber
    rw [if_pos hplain, if_neg hlarge, if_pos hlong, heq, ← hvalue]
    exact natText_digitsToNat hpadded (List.append_ne_nil_of_left_ne_nil h.ne_nil _)
      (by rw [List.head?_append_of_ne_nil _ h.ne_nil]; exact h.head)

/-- From `10^21` on a number has an exponent. -/
theorem natText_ne_layoutNumber {digits : Text} {point : ℤ} (hpoint : 22 ≤ point) (n : ℕ) :
    natText n ≠ layoutNumber digits point := by
  intro heq
  obtain ⟨-, hle, -⟩ := padded_of_allDigits (heq ▸ allDigits_natText n)
  omega

/-! ## Whole numbers are rounded to whole numbers -/

theorem roundQuotient_mag {neg : Bool} {a b : ℕ} (ha : 0 < a) (hb : 0 < b) {x : Binary64}
    (h : roundQuotient neg a b = .finite x) : x.mag = (roundMant a b : ℚ) * (2 : ℚ) ^ unitExp a b := by
  unfold roundQuotient at h
  rw [dif_pos ⟨ha, hb⟩] at h
  split at h
  · rw [← PyFloat.finite.inj h]
    exact carry_value _ _
  · cases h

/-- A natural number that is rounded keeps its value below `2^53`, and is still whole from there on. -/
theorem roundQuotient_nat {neg : Bool} {n : ℕ} {x : Binary64} (h : roundQuotient neg n 1 = .finite x) :
    n < 2 ^ 53 ∧ x.mag = n ∨ ∃ m : ℕ, 2 ^ 53 ≤ m ∧ x.mag = m := by
  rcases Nat.eq_zero_or_pos n with rfl | hn
  · left
    rw [roundQuotient_zero] at h
    rw [← PyFloat.finite.inj h]
    exact ⟨by norm_num, by simp [Binary64.mag, Binary64.zero]⟩
  · have hmag := roundQuotient_mag hn one_pos h
    by_cases hsmall : n < 2 ^ 53
    · left
      have hexact := roundMant_exact hn one_pos hsmall (e := 0) (by norm_num) (by simp)
      rw [hmag, hexact, Nat.cast_one, div_one]
      exact ⟨hsmall, rfl⟩
    · right
      have hbinade := (binade_spec hn one_pos).2
      have hlarge : (2 : ℚ) ^ (53 : ℤ) < (2 : ℚ) ^ (binade n 1 + 1) := by
        refine lt_of_le_of_lt ?_ hbinade
        rw [Nat.cast_one, div_one]
        exact_mod_cast Nat.le_of_not_lt hsmall
      have hlt := two_zpow_lt.1 hlarge
      have hunit : 1 ≤ unitExp n 1 := by
        unfold unitExp
        omega
      obtain ⟨e, he⟩ : ∃ e : ℕ, unitExp n 1 = ((e + 1 : ℕ) : ℤ) := ⟨(unitExp n 1 - 1).toNat, by omega⟩
      have hnormal := roundMant_normal hn one_pos (by omega)
      refine ⟨roundMant n 1 * 2 ^ (e + 1), ?_, ?_⟩
      · calc 2 ^ 53 = 2 ^ 52 * 2 ^ 1 := by norm_num
          _ ≤ roundMant n 1 * 2 ^ (e + 1) := Nat.mul_le_mul hnormal (Nat.pow_le_pow_right (by norm_num) (by omega))
      · rw [hmag, he, zpow_natCast]
        push_cast
        rfl

/-- A decimal that is a natural number, as the quotient that is rounded. -/
theorem roundDecimal_nat (neg : Bool) (c : ℕ) {p : ℤ} (hp : 0 ≤ p) :
    roundDecimal neg c p = roundQuotient neg (c * 10 ^ p.toNat) 1 := if_pos hp

/-! ## The shortest digits -/

/-- The shortest digits denote the number itself, not only one that reads back as it. -/
def Binary64.ShortestExact (x : Binary64) : Prop :=
  x.mag = digitsToNat (reprDigits x).1 * (10 : ℚ) ^ ((reprDigits x).2 - (reprDigits x).1.length)

theorem significant_reprDigits {x : Binary64} (hpos : 0 < x.mant) : Significant (reprDigits x).1 :=
  significant_stripZeros (shortestDecimal_spec x hpos).2.1.ne'

/-- The shortest digits denote the shortest decimal. -/
theorem reprDigits_value (x : Binary64) :
    (digitsToNat (reprDigits x).1 : ℚ) * (10 : ℚ) ^ ((reprDigits x).2 - (reprDigits x).1.length) =
      (shortestDecimal x).1 * (10 : ℚ) ^ (shortestDecimal x).2 := by
  have hvalue := stripZeros_value (natText (shortestDecimal x).1) (shortestDecimal x).2
  rw [digitsToNat_natText] at hvalue
  have hrepr : reprDigits x = (stripZeros (natText (shortestDecimal x).1),
      (shortestDecimal x).2 + (natText (shortestDecimal x).1).length) := rfl
  obtain ⟨k, hk⟩ := stripZeros_append (natText (shortestDecimal x).1)
  have hlength := congrArg List.length hk
  rw [List.length_append, List.length_replicate] at hlength
  rw [← hvalue, hrepr]
  congr 2
  simp only
  omega

theorem length_reprDigits {x : Binary64} (hpos : 0 < x.mant) : (reprDigits x).1.length ≤ 17 :=
  (significant_reprDigits hpos).length_le (by norm_num) (reprDigits_spec x hpos).2.2.1

/-- Digits that end before the point are those of a whole float. -/
theorem whole_of_length_le_point {x : Binary64} (hpos : 0 < x.mant) (h : ((reprDigits x).1.length : ℤ) ≤ (reprDigits x).2) :
    ∃ n : ℕ, x.mag = n := by
  have hreads := (reprDigits_spec x hpos).2.2.2
  rw [roundDecimal_nat _ _ (by omega)] at hreads
  rcases roundQuotient_nat hreads with ⟨-, hmag⟩ | ⟨m, -, hmag⟩
  · exact ⟨_, hmag⟩
  · exact ⟨m, hmag⟩

/-- The point of a number that is at least `10^d` is after its digit for `10^d`. -/
theorem lt_point {x : Binary64} (hpos : 0 < x.mant) {d : ℤ} (h : (10 : ℚ) ^ d ≤ x.mag) : d < (reprDigits x).2 := by
  obtain ⟨a, b, hq⟩ : ∃ a b, binaryQuotient x.mant x.exp = (a, b) := ⟨_, _, rfl⟩
  obtain ⟨ha, hb, hmag⟩ := binaryQuotient_pos hpos hq
  have ten : (1 : ℚ) < 10 := by norm_num
  have hdecade : d < decade a b + 1 := by
    rw [← zpow_lt_zpow_iff_right₀ ten]
    refine h.trans_lt ?_
    rw [← hmag]
    exact (decade_spec ha hb).2
  have hdigits := (significant_reprDigits hpos).digits
  have hvalue := (le_shortestDecimal x hpos hq).trans_eq (reprDigits_value x).symm
  generalize (reprDigits x).1 = digits at hdigits hvalue
  generalize (reprDigits x).2 = point at hvalue ⊢
  have hpoint : (10 : ℚ) ^ decade a b < (10 : ℚ) ^ point := by
    have hlt : (digitsToNat digits : ℚ) < (10 : ℚ) ^ (digits.length : ℤ) := by
      rw [zpow_natCast]
      exact_mod_cast digitsToNat_lt hdigits
    calc (10 : ℚ) ^ decade a b ≤ digitsToNat digits * (10 : ℚ) ^ (point - digits.length) := hvalue
      _ < (10 : ℚ) ^ (digits.length : ℤ) * (10 : ℚ) ^ (point - digits.length) := by gcongr
      _ = (10 : ℚ) ^ point := by
        rw [← zpow_add₀ (by norm_num)]
        congr 1
        omega
  have hlt := (zpow_lt_zpow_iff_right₀ ten).1 hpoint
  omega

/-- A whole float reads back from all its digits. -/
theorem whole_reads {x : Binary64} {n : ℕ} (hpos : 0 < n) (hn : x.mag = n) : roundDecimal x.neg n 0 = .finite x := by
  have htwo : (2 : ℚ) ^ x.exp ≠ 0 := by positivity
  have hexact : ((n * 10 ^ (0 : ℤ).toNat : ℕ) : ℚ) / (1 : ℕ) / (2 : ℚ) ^ x.exp - x.mant = 0 := by
    rw [Int.toNat_zero, pow_zero, mul_one, Nat.cast_one, div_one, ← hn, Binary64.mag]
    field_simp
    ring
  rw [roundDecimal_nat _ _ (le_refl 0)]
  refine roundQuotient_near (by simpa using hpos) one_pos x ?_
  rw [hexact, abs_zero]
  unfold Binary64.slack
  split
  · norm_num
  · norm_num

/-- A whole float below `2^53` is its shortest digits: with all its digits it reads back already. -/
theorem shortestExact_of_lt {x : Binary64} (hpos : 0 < x.mant) {n : ℕ} (hn : x.mag = n) (hlt : n < 2 ^ 53) :
    x.ShortestExact := by
  obtain ⟨a, b, hq⟩ : ∃ a b, binaryQuotient x.mant x.exp = (a, b) := ⟨_, _, rfl⟩
  obtain ⟨ha, hb, hmag⟩ := binaryQuotient_pos hpos hq
  obtain ⟨k, -, hp, hhead, hfewer⟩ := shortestDecimal_found x hpos hq
  obtain ⟨hreads, -, -⟩ := mem_decimalsAt (List.mem_of_head? hhead)
  have hpow : 0 ≤ decade a b - k := by
    by_contra hneg
    have hone : 0 < n := by
      have hmagpos : 0 < x.mag := by
        unfold Binary64.mag
        positivity
      rw [hn] at hmagpos
      exact_mod_cast hmagpos
    have hdecade : 0 < decade a b + 1 := by
      rw [← zpow_lt_zpow_iff_right₀ (by norm_num : (1 : ℚ) < 10), zpow_zero]
      refine lt_of_le_of_lt ?_ (decade_spec ha hb).2
      rw [hmag, hn]
      exact_mod_cast hone
    -- the number with all its digits was tried before
    have htried := hfewer (decade a b).toNat (by omega)
    rw [Int.toNat_of_nonneg (by omega), sub_self] at htried
    obtain ⟨hden, hunits⟩ := inUnits_spec a hb 0
    have hround : roundDiv (inUnits a b 0).1 (inUnits a b 0).2 = n := by
      refine roundDiv_eq hden ?_
      rw [hunits, zpow_zero, div_one, hmag, hn, sub_self, abs_zero]
      norm_num
    have hfound := head_decimalsAt (x := x) (a := a) (b := b) (p := 0) (by rw [hround]; exact whole_reads hone hn)
    rw [htried] at hfound
    cases hfound
  unfold Binary64.ShortestExact
  rw [reprDigits_value, hp]
  rw [roundDecimal_nat _ _ hpow] at hreads
  generalize (shortestDecimal x).1 = c at hreads
  have hcast : (c : ℚ) * (10 : ℚ) ^ (decade a b - k) = (c * 10 ^ (decade a b - k).toNat : ℕ) := by
    push_cast
    rw [← zpow_natCast, Int.toNat_of_nonneg hpow]
  rw [hcast]
  rcases roundQuotient_nat hreads with ⟨-, hexact⟩ | ⟨m, hm, hmag'⟩
  · exact hexact
  · rw [hn, Nat.cast_inj] at hmag'
    omega

/-! ## The texts of a float -/

/-- `repr` of a float that is not written out digit by digit. -/
theorem repr_eq_numberToString_iff {x : Binary64} (hpos : 0 < x.mant) (h : (∀ n : ℕ, x.mag ≠ n) ∨ 10 ^ 21 ≤ x.mag) :
    (PyFloat.finite x).repr = numberToString x ↔ (reprDigits x).2 ≤ -9 ∨ -3 ≤ (reprDigits x).2 := by
  have hrepr : (PyFloat.finite x).repr =
      signText x.neg ++ if x.mant = 0 then lit "0.0" else layoutRepr (reprDigits x).1 (reprDigits x).2 := rfl
  have hrange : (reprDigits x).2 < (reprDigits x).1.length ∧ (reprDigits x).1.length ≤ 17 ∨ 22 ≤ (reprDigits x).2 := by
    rcases h with hfraction | hlarge
    · left
      refine ⟨?_, length_reprDigits hpos⟩
      by_contra hle
      obtain ⟨n, hn⟩ := whole_of_length_le_point hpos (not_lt.1 hle)
      exact hfraction n hn
    · right
      have hpoint := lt_point hpos (d := 21) (by exact_mod_cast hlarge)
      omega
  unfold numberToString
  rw [hrepr, if_neg hpos.ne', if_neg hpos.ne', List.append_cancel_left_eq]
  exact layoutRepr_eq_iff (significant_reprDigits hpos) hrange

theorem abs_toRat (x : Binary64) : |x.toRat| = x.mag := by
  unfold Binary64.toRat
  split
  · rw [abs_neg, abs_of_nonneg x.mag_nonneg]
  · exact abs_of_nonneg x.mag_nonneg

theorem mag_eq_natAbs {x : Binary64} {n : ℤ} (hn : (n : ℚ) = x.toRat) : x.mag = n.natAbs := by
  rw [← abs_toRat, ← hn, Nat.cast_natAbs, Int.cast_abs]

/-- An integer has the sign of the float it is equal to, but for the zeros. -/
theorem intText_signed {x : Binary64} (hpos : 0 < x.mant) {n : ℤ} (hn : (n : ℚ) = x.toRat) :
    intText n = signText x.neg ++ natText n.natAbs := by
  have hmag : 0 < x.mag := by
    unfold Binary64.mag
    positivity
  unfold Binary64.toRat at hn
  unfold intText
  cases hneg : x.neg with
  | true =>
    rw [hneg, if_pos rfl] at hn
    have hlt : n < 0 := by
      have hcast : (n : ℚ) < 0 := by linarith
      exact_mod_cast hcast
    rw [if_pos hlt]
    rfl
  | false =>
    rw [hneg, if_neg Bool.false_ne_true] at hn
    have hge : ¬ n < 0 := by
      have hcast : (0 : ℚ) < n := by linarith
      have := Int.cast_pos.1 hcast
      omega
    rw [if_neg hge]
    rfl

theorem mag_lt (x : Binary64) : x.mag < (2 : ℚ) ^ (1024 : ℤ) := by
  have hmant : (x.mant : ℚ) < (2 : ℚ) ^ (53 : ℤ) := by exact_mod_cast x.canonical.mant_lt
  have hexp := x.canonical.exp_le
  unfold Binary64.mag
  calc (x.mant : ℚ) * (2 : ℚ) ^ x.exp < (2 : ℚ) ^ (53 : ℤ) * (2 : ℚ) ^ x.exp := by gcongr
    _ = (2 : ℚ) ^ (53 + x.exp) := (zpow_add₀ (by norm_num) _ _).symm
    _ ≤ (2 : ℚ) ^ (1024 : ℤ) := zpow_le_zpow_right₀ (by norm_num) (by omega)

/-- An integer equal to a float is never too long for `str` to write. -/
theorem length_le_maxStrDigits {x : Binary64} {n : ℤ} (hn : (n : ℚ) = x.toRat) :
    (natText n.natAbs).length ≤ maxStrDigits := by
  rcases Nat.eq_zero_or_pos n.natAbs with hzero | hpos
  · rw [hzero]
    decide
  · have hlow := le_digitsToNat (allDigits_natText n.natAbs) (natText_ne_nil _) (head_natText hpos.ne')
    rw [digitsToNat_natText] at hlow
    obtain ⟨k, hbound, hk⟩ : ∃ k, n.natAbs < 2 ^ k ∧ k ≤ maxStrDigits := by
      refine ⟨1024, ?_, by decide⟩
      have hlt := mag_lt x
      have hexp : (1024 : ℤ) = (1024 : ℕ) := rfl
      rw [mag_eq_natAbs hn, hexp, zpow_natCast] at hlt
      exact_mod_cast hlt
    have hten : 10 ^ ((natText n.natAbs).length - 1) < 10 ^ k :=
      (hlow.trans_lt hbound).trans_le (Nat.pow_le_pow_left (by norm_num) k)
    have hlt := (Nat.pow_lt_pow_iff_right (by norm_num : 1 < 10)).1 hten
    exact (Nat.le_of_pred_lt hlt).trans hk

theorem shortestExact_zero {x : Binary64} (h : x.mant = 0) : x.ShortestExact := by
  have hdigits : (reprDigits (.zero x.neg)).1 = [] := by
    cases x.neg with
    | true => decide +kernel
    | false => decide +kernel
  rw [Binary64.eq_zero h]
  unfold Binary64.ShortestExact
  rw [hdigits]
  simp [Binary64.mag, Binary64.zero, digitsToNat]

/-- An integer digit by digit. -/
theorem intText_eq_numberToString_iff {x : Binary64} {n : ℤ} (hn : (n : ℚ) = x.toRat) :
    intText n = numberToString x ↔ n.natAbs < 10 ^ 21 ∧ x.ShortestExact := by
  have hmag := mag_eq_natAbs hn
  rcases Nat.eq_zero_or_pos x.mant with hzero | hpos
  · have hn₀ : n = 0 := by
      rw [(x.mant_eq_zero_iff).1 hzero] at hn
      exact_mod_cast hn
    refine iff_of_true ?_ ⟨by rw [hn₀]; norm_num, shortestExact_zero hzero⟩
    unfold numberToString
    rw [hn₀, if_pos hzero]
    rfl
  · unfold numberToString
    rw [intText_signed hpos hn, if_neg hpos.ne', List.append_cancel_left_eq]
    by_cases hlarge : n.natAbs < 10 ^ 21
    · rw [natText_eq_layoutNumber_iff (significant_reprDigits hpos) hlarge, ← hmag]
      exact (and_iff_right hlarge).symm
    · have hpoint := lt_point hpos (d := 21) (by
        rw [hmag]
        exact_mod_cast not_lt.1 hlarge)
      exact iff_of_false (natText_ne_layoutNumber (by omega) _) fun h => hlarge h.1

end Python
