/-
Texts UTF-8 can encode: those without a lone surrogate. What the language writes itself (numbers,
escapes, the `repr` of a value) never has one; a text that is copied keeps those it has.
-/
import ConfigDirector.Python.Value

namespace Python

/-! ## Parts of a text -/

theorem encodable_nil : Encodable [] := fun _ h => (List.not_mem_nil h).elim

theorem encodable_append {s t : Text} : Encodable (s ++ t) ↔ Encodable s ∧ Encodable t := List.forall_mem_append

theorem encodable_cons {c : CodePoint} {s : Text} : Encodable (c :: s) ↔ c.isSurrogate = false ∧ Encodable s :=
  List.forall_mem_cons

theorem Encodable.of_subset {s t : Text} (h : Encodable t) (hs : s ⊆ t) : Encodable s := fun c hc => h c (hs hc)

theorem encodable_flatMap {s : Text} {f : CodePoint → Text} : Encodable (s.flatMap f) ↔ ∀ c ∈ s, Encodable (f c) := by
  constructor
  · intro h c hc d hd
    exact h d (List.mem_flatMap.2 ⟨c, hc, hd⟩)
  · intro h d hd
    obtain ⟨c, hc, hd⟩ := List.mem_flatMap.1 hd
    exact h c hc d hd

theorem encodable_join {sep : Text} (hsep : Encodable sep) :
    ∀ {parts : List Text}, Encodable (join sep parts) ↔ ∀ t ∈ parts, Encodable t
  | [] => by simp [join, encodable_nil]
  | [t] => by simp [join]
  | t :: u :: rest => by
    rw [join, encodable_append, encodable_append, encodable_join hsep, and_iff_left hsep]
    exact List.forall_mem_cons.symm

theorem encodable_ite_iff {p q : Prop} [Decidable p] {s t : Text} (hs : p → (Encodable s ↔ q))
    (ht : ¬ p → (Encodable t ↔ q)) : Encodable (if p then s else t) ↔ q := by
  by_cases h : p
  · rw [if_pos h]
    exact hs h
  · rw [if_neg h]
    exact ht h

theorem encodable_ite {p : Prop} [Decidable p] {s t : Text} (hs : p → Encodable s) (ht : ¬ p → Encodable t) :
    Encodable (if p then s else t) :=
  (encodable_ite_iff (fun h => iff_of_true (hs h) trivial) fun h => iff_of_true (ht h) trivial).2 trivial

theorem encodable_replicate {c : CodePoint} (h : c.isSurrogate = false) (n : ℕ) : Encodable (List.replicate n c) :=
  fun _ hd => (List.eq_of_mem_replicate hd).symm ▸ h

/-- A code point below the surrogates. -/
theorem isSurrogate_of_lt {c : CodePoint} (h : c.val < 0xD800) : c.isSurrogate = false := by
  unfold CodePoint.isSurrogate
  rw [Bool.and_eq_false_iff]
  left
  simpa using h

theorem encodable_of_lt {s : Text} (h : ∀ c ∈ s, c.val < 0xD800) : Encodable s :=
  fun c hc => isSurrogate_of_lt (h c hc)

theorem encodable_ascii {s : Text} (h : s.all CodePoint.isAscii = true) : Encodable s := by
  apply encodable_of_lt
  intro c hc
  have hascii := of_decide_eq_true (List.all_eq_true.1 h c hc)
  omega

/-! ## Numbers -/

theorem ofDigit_lt (d : ℕ) : (CodePoint.ofDigit d).val < 0xD800 := by
  have : (CodePoint.ofDigit d).val = 0x30 + d % 10 := rfl
  omega

theorem encodable_natText (n : ℕ) : Encodable (natText n) := by
  unfold natText
  split
  · exact encodable_ascii rfl
  · apply encodable_of_lt
    intro c hc
    obtain ⟨d, -, rfl⟩ := List.mem_map.1 hc
    exact ofDigit_lt d

theorem encodable_intText (n : ℤ) : Encodable (intText n) := by
  unfold intText
  split
  · exact encodable_append.2 ⟨encodable_ascii rfl, encodable_natText _⟩
  · exact encodable_natText _

theorem encodable_reprDigits (x : Binary64) : Encodable (reprDigits x).1 := by
  apply (encodable_natText (shortestDecimal x).1).of_subset
  intro c hc
  have hdrop := List.mem_reverse.1 hc
  exact List.mem_reverse.1 ((List.dropWhile_sublist _).subset hdrop)

theorem encodable_padTwo (n : ℕ) : Encodable (padTwo n) := by
  unfold padTwo
  split
  · exact encodable_append.2 ⟨encodable_ascii rfl, encodable_natText n⟩
  · exact encodable_natText n

theorem encodable_layoutRepr {digits : Text} (h : Encodable digits) (point : ℤ) :
    Encodable (layoutRepr digits point) := by
  have hzeros : ∀ n, Encodable (List.replicate n 0x30) := encodable_replicate rfl
  have htake : ∀ n, Encodable (digits.take n) := fun n => h.of_subset (List.take_subset n digits)
  have hdrop : ∀ n, Encodable (digits.drop n) := fun n => h.of_subset (List.drop_subset n digits)
  unfold layoutRepr
  split
  · split
    · simp only [encodable_append]
      exact ⟨⟨encodable_ascii rfl, hzeros _⟩, h⟩
    · split
      · simp only [encodable_append]
        exact ⟨⟨h, hzeros _⟩, encodable_ascii rfl⟩
      · simp only [encodable_append]
        exact ⟨⟨htake _, encodable_ascii rfl⟩, hdrop _⟩
  · simp only [encodable_append]
    refine ⟨⟨⟨?_, encodable_ascii rfl⟩, ?_⟩, encodable_padTwo _⟩
    · split
      · exact h
      · simp only [encodable_append]
        exact ⟨⟨htake _, encodable_ascii rfl⟩, hdrop _⟩
    · split <;> exact encodable_ascii rfl

theorem encodable_floatRepr (x : PyFloat) : Encodable x.repr := by
  cases x with
  | nan => exact encodable_ascii rfl
  | inf neg => cases neg <;> exact encodable_ascii rfl
  | finite x =>
    unfold PyFloat.repr
    rw [encodable_append]
    refine ⟨by split <;> exact encodable_ascii rfl, ?_⟩
    split
    · exact encodable_ascii rfl
    · exact encodable_layoutRepr (encodable_reprDigits x) _

/-! ## Values -/

theorem hexDigit_lt (n : ℕ) : (hexDigit n).val < 0xD800 := by
  unfold hexDigit
  split
  · change 0x30 + n % 16 < 0xD800
    omega
  · change 0x57 + n % 16 < 0xD800
    omega

theorem encodable_hexText (width n : ℕ) : Encodable (hexText width n) := by
  induction width generalizing n with
  | zero => exact encodable_nil
  | succ width ih =>
    rw [hexText, encodable_append]
    exact ⟨ih _, encodable_cons.2 ⟨isSurrogate_of_lt (hexDigit_lt n), encodable_nil⟩⟩

theorem encodable_singleton {c : CodePoint} (h : c.isSurrogate = false) : Encodable [c] :=
  encodable_cons.2 ⟨h, encodable_nil⟩

section Repr

variable [Unicode]

/-- `repr` escapes what is not printable, a lone surrogate too. -/
theorem encodable_reprChar {quote : CodePoint} (hquote : quote.isSurrogate = false) (c : CodePoint) :
    Encodable (reprChar quote c) := by
  have hcopied : c.val < 0xD800 → Encodable [c] := fun h => encodable_singleton (isSurrogate_of_lt h)
  have hprintable : Unicode.isPrintable c = true → Encodable [c] := by
    intro h
    apply encodable_singleton
    by_contra hs
    rw [Unicode.surrogate_not_printable c (Bool.not_eq_false _ ▸ hs)] at h
    cases h
  have hhex : ∀ {s : Text} {width : ℕ}, s.all CodePoint.isAscii = true → Encodable (s ++ hexText width c.val) :=
    fun h => encodable_append.2 ⟨encodable_ascii h, encodable_hexText _ _⟩
  unfold reprChar
  refine encodable_ite (fun h => ?_) fun _ => encodable_ite (fun _ => encodable_ascii rfl) fun _ => ?_
  · rcases h with rfl | rfl
    · exact encodable_cons.2 ⟨rfl, encodable_singleton hquote⟩
    · exact encodable_ascii rfl
  refine encodable_ite (fun _ => encodable_ascii rfl) fun _ => encodable_ite (fun _ => encodable_ascii rfl) fun _ => ?_
  refine encodable_ite (fun _ => hhex rfl) fun _ => encodable_ite (fun h => hcopied (by omega)) fun _ => ?_
  refine encodable_ite hprintable fun _ => encodable_ite (fun _ => hhex rfl) fun _ => ?_
  exact encodable_ite (fun _ => hhex rfl) fun _ => hhex rfl

theorem encodable_reprText (s : Text) : Encodable (reprText s) := by
  have hquote : ∀ p : Prop, [Decidable p] → (if p then (0x22 : CodePoint) else 0x27).isSurrogate = false := by
    intro p _
    split <;> rfl
  unfold reprText
  rw [encodable_append, encodable_append, encodable_flatMap]
  exact ⟨⟨encodable_singleton (hquote _), fun c _ => encodable_reprChar (hquote _) c⟩, encodable_singleton (hquote _)⟩

mutual
theorem encodable_repr : ∀ v : PyValue, v.IsJson → Encodable v.repr
  | .none, _ => by rw [PyValue.repr]; exact encodable_ascii rfl
  | .bool b, _ => by rw [PyValue.repr]; cases b <;> exact encodable_ascii rfl
  | .int n, _ => by rw [PyValue.repr]; exact encodable_intText n
  | .float x, _ => by rw [PyValue.repr]; exact encodable_floatRepr x
  | .str s, _ => by rw [PyValue.repr]; exact encodable_reprText s
  | .list items, h => by
    rw [PyValue.IsJson] at h
    rw [PyValue.repr, encodable_append, encodable_append, encodable_join (encodable_ascii rfl)]
    exact ⟨⟨encodable_ascii rfl, encodable_reprList items h⟩, encodable_ascii rfl⟩
  | .dict entries, h => by
    rw [PyValue.IsJson] at h
    rw [PyValue.repr, encodable_append, encodable_append, encodable_join (encodable_ascii rfl)]
    exact ⟨⟨encodable_ascii rfl, encodable_reprEntries entries h.2⟩, encodable_ascii rfl⟩
  | .other _, h => by simp [PyValue.IsJson] at h

theorem encodable_reprList : ∀ vs : List PyValue, PyValue.IsJsonList vs → ∀ t ∈ reprList vs, Encodable t
  | [], _, _, ht => by simp [reprList] at ht
  | v :: vs, h, t, ht => by
    rw [PyValue.IsJsonList] at h
    rw [reprList, List.mem_cons] at ht
    rcases ht with rfl | ht
    · exact encodable_repr v h.1
    · exact encodable_reprList vs h.2 t ht

theorem encodable_reprEntries : ∀ es : List (Text × PyValue), PyValue.IsJsonEntries es →
    ∀ t ∈ reprEntries es, Encodable t
  | [], _, _, ht => by simp [reprEntries] at ht
  | (k, v) :: es, h, t, ht => by
    rw [PyValue.IsJsonEntries] at h
    rw [reprEntries, List.mem_cons] at ht
    rcases ht with rfl | ht
    · rw [encodable_append, encodable_append]
      exact ⟨⟨encodable_reprText k, encodable_ascii rfl⟩, encodable_repr v h.1⟩
    · exact encodable_reprEntries es h.2 t ht
end

end Repr

/-! ## JSON text -/

theorem encodable_jsonChar_iff (c : CodePoint) : Encodable (jsonChar false c) ↔ c.isSurrogate = false := by
  -- an escape is ASCII, and stands for a code point that is
  have hescape : ∀ {d : CodePoint} {s : Text}, d.val < 0x80 → s.all CodePoint.isAscii = true → c = d →
      (Encodable s ↔ c.isSurrogate = false) := by
    rintro d s hd hs rfl
    exact iff_of_true (encodable_ascii hs) (isSurrogate_of_lt (by omega))
  unfold jsonChar
  refine encodable_ite_iff (hescape (by decide) rfl) fun _ => encodable_ite_iff (hescape (by decide) rfl) fun _ => ?_
  refine encodable_ite_iff (hescape (by decide) rfl) fun _ => encodable_ite_iff (hescape (by decide) rfl) fun _ => ?_
  refine encodable_ite_iff (hescape (by decide) rfl) fun _ => encodable_ite_iff (hescape (by decide) rfl) fun _ => ?_
  refine encodable_ite_iff (hescape (by decide) rfl) fun _ => encodable_ite_iff (fun h => ?_) fun _ => ?_
  · have hhex : Encodable (lit "\\u" ++ hexText 4 c.val) :=
      encodable_append.2 ⟨encodable_ascii rfl, encodable_hexText 4 c.val⟩
    exact iff_of_true hhex (isSurrogate_of_lt (by omega))
  -- anything else is copied
  · exact encodable_ite_iff (fun _ => encodable_cons.trans (and_iff_left encodable_nil)) fun h => absurd rfl h

theorem encodable_jsonString_iff (s : Text) : Encodable (jsonString false s) ↔ Encodable s := by
  unfold jsonString
  rw [encodable_append, encodable_append, encodable_flatMap]
  simp only [encodable_jsonChar_iff]
  constructor
  · exact fun h => h.1.2
  · exact fun h => ⟨⟨encodable_ascii rfl, h⟩, encodable_ascii rfl⟩

namespace PyValue

mutual
/-- Every text in a value can be encoded. -/
def Clean : PyValue → Prop
  | str s => Encodable s
  | list items => CleanList items
  | dict entries => CleanEntries entries
  | _ => True

def CleanList : List PyValue → Prop
  | [] => True
  | v :: vs => v.Clean ∧ CleanList vs

def CleanEntries : List (Text × PyValue) → Prop
  | [] => True
  | (k, v) :: es => Encodable k ∧ v.Clean ∧ CleanEntries es
end

end PyValue

end Python
