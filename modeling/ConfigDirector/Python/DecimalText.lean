/-
Decimal texts: what digits denote, what a decimal literal denotes, and that `float` reads a plain decimal
as the float nearest to the number.
-/
import ConfigDirector.Python.Shortest

namespace Python

/-! ## Digits -/

/-- The code points that are all ASCII digits. -/
def AllDigits (s : Text) : Prop := ∀ c ∈ s, c.isAsciiDigit = true

theorem allDigits_append {a b : Text} : AllDigits (a ++ b) ↔ AllDigits a ∧ AllDigits b := List.forall_mem_append

theorem allDigits_zeros (n : ℕ) : AllDigits (List.replicate n 0x30) := by
  intro c hc
  rw [List.eq_of_mem_replicate hc]
  rfl

theorem AllDigits.subset {a b : Text} (h : AllDigits b) (hab : a ⊆ b) : AllDigits a := fun c hc => h c (hab hc)

theorem isAsciiDigits_iff (s : Text) : isAsciiDigits s = true ↔ s ≠ [] ∧ AllDigits s := by
  unfold isAsciiDigits AllDigits
  rw [Bool.and_eq_true, List.all_eq_true, Bool.not_eq_true', List.isEmpty_eq_false_iff]

theorem digitsToNat_concat (s : Text) (c : CodePoint) : digitsToNat (s ++ [c]) = 10 * digitsToNat s + (c.val - 0x30) := by
  unfold digitsToNat
  rw [List.foldl_append]
  rfl

theorem digitsToNat_append (a b : Text) : digitsToNat (a ++ b) = digitsToNat a * 10 ^ b.length + digitsToNat b := by
  induction b using List.reverseRecOn with
  | nil => simp [digitsToNat]
  | append_singleton b c ih =>
    rw [← List.append_assoc, digitsToNat_concat, digitsToNat_concat, ih, List.length_append, List.length_singleton]
    ring

theorem digitsToNat_zeros (n : ℕ) : digitsToNat (List.replicate n 0x30) = 0 := by
  induction n with
  | zero => rfl
  | succ n ih =>
    rw [List.replicate_succ', digitsToNat_concat, ih]
    rfl

theorem digitsToNat_lt {s : Text} (h : AllDigits s) : digitsToNat s < 10 ^ s.length := by
  induction s using List.reverseRecOn with
  | nil => exact one_pos
  | append_singleton s c ih =>
    obtain ⟨hs, hc⟩ := allDigits_append.1 h
    have hdigit := hc c (List.mem_singleton_self c)
    unfold CodePoint.isAsciiDigit at hdigit
    rw [Bool.and_eq_true, decide_eq_true_eq, decide_eq_true_eq] at hdigit
    have hlt := ih hs
    rw [digitsToNat_concat, List.length_append, List.length_singleton, pow_succ]
    omega

/-! ## The digits of a number -/

theorem ofDigit_val (d : ℕ) : (CodePoint.ofDigit d).val = 0x30 + d % 10 := rfl

theorem isAsciiDigit_ofDigit (d : ℕ) : (CodePoint.ofDigit d).isAsciiDigit = true := by
  unfold CodePoint.isAsciiDigit
  rw [ofDigit_val, Bool.and_eq_true, decide_eq_true_eq, decide_eq_true_eq]
  omega

theorem allDigits_natText (n : ℕ) : AllDigits (natText n) := by
  unfold natText
  split
  · exact allDigits_zeros 1
  · intro c hc
    obtain ⟨d, -, rfl⟩ := List.mem_map.1 hc
    exact isAsciiDigit_ofDigit d

theorem natText_ne_nil (n : ℕ) : natText n ≠ [] := by
  unfold natText
  split
  · exact List.cons_ne_nil _ _
  · rename_i hn
    rw [ne_eq, List.map_eq_nil_iff, List.reverse_eq_nil_iff]
    exact Nat.digits_ne_nil_iff_ne_zero.2 hn

theorem digitsToNat_ofDigits {ds : List ℕ} (h : ∀ d ∈ ds, d < 10) :
    digitsToNat (ds.reverse.map CodePoint.ofDigit) = Nat.ofDigits 10 ds := by
  induction ds with
  | nil => rfl
  | cons d ds ih =>
    rw [List.forall_mem_cons] at h
    rw [List.reverse_cons, List.map_append, List.map_singleton, digitsToNat_concat, ih h.2, ofDigit_val,
      Nat.mod_eq_of_lt h.1, Nat.ofDigits_cons]
    omega

theorem digitsToNat_natText (n : ℕ) : digitsToNat (natText n) = n := by
  unfold natText
  split
  · rename_i hn
    rw [hn]
    rfl
  · rw [digitsToNat_ofDigits fun d hd => Nat.digits_lt_base (by norm_num) hd, Nat.ofDigits_digits]

theorem isAsciiDigits_natText (n : ℕ) : isAsciiDigits (natText n) = true :=
  (isAsciiDigits_iff _).2 ⟨natText_ne_nil n, allDigits_natText n⟩

/-! ## Decimal literals -/

/-- A text that digits before it do not go on into. -/
def EndsDigits (tail : Text) : Prop := tail.takeWhile CodePoint.isAsciiDigit = []

theorem EndsDigits.dropWhile {tail : Text} (h : EndsDigits tail) : tail.dropWhile CodePoint.isAsciiDigit = tail := by
  have hsplit := List.takeWhile_append_dropWhile (p := CodePoint.isAsciiDigit) (l := tail)
  rw [h, List.nil_append] at hsplit
  exact hsplit

theorem takeWhile_digits {whole tail : Text} (hwhole : AllDigits whole) (htail : EndsDigits tail) :
    (whole ++ tail).takeWhile CodePoint.isAsciiDigit = whole := by
  rw [List.takeWhile_append_of_pos hwhole, htail, List.append_nil]

theorem dropWhile_digits {whole tail : Text} (hwhole : AllDigits whole) (htail : EndsDigits tail) :
    (whole ++ tail).dropWhile CodePoint.isAsciiDigit = tail := by
  rw [List.dropWhile_append_of_pos hwhole, htail.dropWhile]

/-- Digits, a point and digits, up to an exponent. -/
theorem decimalLiteral_point {whole fraction : Text} (hwhole : AllDigits whole) (hfraction : AllDigits fraction)
    (hne : whole ≠ []) (tail : Text) (htail : EndsDigits tail) : decimalLiteral (whole ++ (0x2E :: (fraction ++ tail))) =
      (exponentPart tail).map fun e : ℤ => (digitsToNat (whole ++ fraction), e - (fraction.length : ℤ)) := by
  have hpoint : EndsDigits (0x2E :: (fraction ++ tail)) := rfl
  unfold decimalLiteral
  simp only [takeWhile_digits hwhole hpoint, dropWhile_digits hwhole hpoint, if_true, takeWhile_digits hfraction htail,
    dropWhile_digits hfraction htail]
  rw [List.isEmpty_eq_false_iff.2 hne]
  rfl

/-- Digits up to an exponent. -/
theorem decimalLiteral_whole {whole : Text} (hwhole : AllDigits whole) (hne : whole ≠ []) (tail : Text)
    (htail : EndsDigits tail) (hpoint : tail.head? ≠ some 0x2E) :
    decimalLiteral (whole ++ tail) = (exponentPart tail).map fun e => (digitsToNat whole, e) := by
  unfold decimalLiteral
  simp only [takeWhile_digits hwhole htail, dropWhile_digits hwhole htail]
  rw [List.isEmpty_eq_false_iff.2 hne]
  cases tail with
  | nil => rfl
  | cons c tail =>
    have hc : c ≠ 0x2E := fun hc => hpoint (by rw [hc, List.head?_cons])
    simp only [if_neg hc, Bool.false_eq_true, if_false]

/-- A literal has no sign. -/
theorem takeSign_literal {s : Text} {r : ℕ × ℤ} (h : decimalLiteral s = some r) : takeSign s = (false, s) := by
  cases s with
  | nil => rfl
  | cons c s =>
    by_cases hminus : c = 0x2D
    · rw [hminus] at h
      cases h
    · by_cases hplus : c = 0x2B
      · rw [hplus] at h
        cases h
      · simp only [takeSign, if_neg hminus, if_neg hplus]

/-! ## Reading a plain decimal -/

/-- The sign of a number. -/
def signText (neg : Bool) : Text := if neg then lit "-" else []

theorem takeSign_signed {s : Text} {r : ℕ × ℤ} (neg : Bool) (h : decimalLiteral s = some r) :
    takeSign (signText neg ++ s) = (neg, s) := by
  cases neg with
  | true => rfl
  | false => exact takeSign_literal h

/-- The characters of a plain decimal. -/
def CodePoint.IsPlain (c : CodePoint) : Prop := c.isAsciiDigit = true ∨ c = 0x2D ∨ c = 0x2E

theorem CodePoint.IsPlain.val {c : CodePoint} (h : c.IsPlain) : 0x2D ≤ c.val ∧ c.val ≤ 0x39 := by
  rcases h with h | rfl | rfl
  · unfold isAsciiDigit at h
    rw [Bool.and_eq_true, decide_eq_true_eq, decide_eq_true_eq] at h
    omega
  · exact ⟨by decide, by decide⟩
  · exact ⟨by decide, by decide⟩

theorem stripWith_eq_self {p : CodePoint → Bool} {s : Text} (h : ∀ c ∈ s, p c = false) : stripWith p s = s := by
  have hdrop : ∀ t : Text, (∀ c ∈ t, p c = false) → t.dropWhile p = t := by
    intro t ht
    cases t with
    | nil => rfl
    | cons c t => rw [List.dropWhile_cons_of_neg (by rw [ht c List.mem_cons_self]; exact Bool.false_ne_true)]
  unfold stripWith
  rw [hdrop s h, hdrop s.reverse fun c hc => h c (List.mem_reverse.1 hc), List.reverse_reverse]

theorem dropUnderscores_eq {s : Text} (h : ∀ c ∈ s, c ≠ 0x5F) : ∀ {prev : CodePoint}, prev ≠ 0x5F →
    dropUnderscores prev s = some s := by
  induction s with
  | nil =>
    intro prev hprev
    rw [dropUnderscores, if_neg hprev]
  | cons c s ih =>
    intro prev hprev
    rw [List.forall_mem_cons] at h
    rw [dropUnderscores, if_neg h.1, if_neg fun hunderscore => hprev hunderscore.1, ih h.2 h.1]
    rfl

/-- `float` of a plain decimal with a sign. -/
theorem floatOfText_plain {s : Text} {c : ℕ} {p : ℤ} (neg : Bool) (hplain : ∀ c ∈ s, c.IsPlain)
    (h : decimalLiteral s = some (c, p)) : floatOfText (signText neg ++ s) = some (roundDecimal neg c p) := by
  have hall : ∀ c ∈ signText neg ++ s, c.IsPlain := by
    rw [List.forall_mem_append]
    refine ⟨?_, hplain⟩
    cases neg with
    | true =>
      intro c hc
      rw [List.mem_singleton.1 hc]
      exact .inr (.inl rfl)
    | false => exact fun _ hc => by cases hc
  have hascii : (signText neg ++ s).all CodePoint.isAscii = true := by
    rw [List.all_eq_true]
    intro c hc
    have hval := (hall c hc).val
    exact decide_eq_true (by omega)
  have hspace : ∀ c ∈ signText neg ++ s, c.isAsciiSpace = false := by
    intro c hc
    have hval := (hall c hc).val
    unfold CodePoint.isAsciiSpace
    rw [Bool.or_eq_false_iff, Bool.and_eq_false_iff, decide_eq_false_iff_not, decide_eq_false_iff_not, beq_eq_false_iff_ne]
    omega
  have hunderscore : ∀ c ∈ signText neg ++ s, c ≠ 0x5F := by
    rintro c hc rfl
    exact absurd (hall _ hc).val (by decide)
  unfold floatOfText numeralText
  rw [if_pos hascii, stripWith_eq_self hspace, dropUnderscores_eq hunderscore (by decide)]
  simp only [takeSign_signed neg h]
  unfold unsignedFloat
  rw [h]

end Python
