/-
Splitting a text at a separator and replacing pairs of code points, as inverses: the parts of a text contain
no separator and give it back, and a text whose escapes are pairs is read back pair by pair.
-/
import ConfigDirector.Python.Text

namespace Python

/-! ## `split` -/

theorem splitOn_ne_nil (sep : CodePoint) (text : Text) : splitOn sep text ≠ [] := by
  cases text with
  | nil => simp [splitOn]
  | cons c text =>
    rw [splitOn]
    split
    · simp
    · split <;> simp

theorem splitOn_cons_self (sep : CodePoint) (text : Text) : splitOn sep (sep :: text) = [] :: splitOn sep text := by
  rw [splitOn, if_pos rfl]

theorem splitOn_append_self {sep : CodePoint} {part : Text} (h : sep ∉ part) (rest : Text) :
    splitOn sep (part ++ sep :: rest) = part :: splitOn sep rest := by
  induction part with
  | nil => exact splitOn_cons_self sep rest
  | cons c part ih =>
    rw [List.mem_cons, not_or] at h
    rw [List.cons_append, splitOn, if_neg (Ne.symm h.1), ih h.2]

theorem splitOn_of_not_mem {sep : CodePoint} {part : Text} (h : sep ∉ part) : splitOn sep part = [part] := by
  induction part with
  | nil => rfl
  | cons c part ih =>
    rw [List.mem_cons, not_or] at h
    rw [splitOn, if_neg (Ne.symm h.1), ih h.2]

/-- Parts without the separator are what their text is split into. -/
theorem splitOn_flatMap {sep : CodePoint} : ∀ {part : Text} {parts : List Text}, (∀ p ∈ part :: parts, sep ∉ p) →
    splitOn sep (part ++ parts.flatMap (sep :: ·)) = part :: parts
  | part, [], h => by
    rw [List.flatMap_nil, List.append_nil, splitOn_of_not_mem (h part (List.mem_singleton_self part))]
  | part, next :: parts, h => by
    rw [List.forall_mem_cons] at h
    rw [List.flatMap_cons, List.cons_append, splitOn_append_self h.1, splitOn_flatMap h.2]

/-- A text is split into parts without the separator, which give it back. -/
theorem splitOn_parts (sep : CodePoint) (text : Text) : ∃ part parts, splitOn sep text = part :: parts ∧
    (∀ p ∈ part :: parts, sep ∉ p) ∧ text = part ++ parts.flatMap (sep :: ·) := by
  induction text with
  | nil => exact ⟨[], [], rfl, by simp, rfl⟩
  | cons c text ih =>
    obtain ⟨part, parts, hsplit, hfree, htext⟩ := ih
    by_cases hc : c = sep
    · subst hc
      refine ⟨[], part :: parts, by rw [splitOn_cons_self, hsplit], ?_, ?_⟩
      · rw [List.forall_mem_cons]
        exact ⟨List.not_mem_nil, hfree⟩
      · rw [List.flatMap_cons, List.cons_append, ← htext]
        rfl
    · rw [List.forall_mem_cons] at hfree
      refine ⟨c :: part, parts, by rw [splitOn, if_neg hc, hsplit], ?_, by rw [List.cons_append, ← htext]⟩
      rw [List.forall_mem_cons, List.mem_cons, not_or]
      exact ⟨⟨Ne.symm hc, hfree.1⟩, hfree.2⟩

/-! ## `replace` -/

variable {a b : CodePoint} {new : Text}

theorem replacePair_cons_of_ne {c : CodePoint} (h : c ≠ a) (s : Text) :
    replacePair a b new (c :: s) = c :: replacePair a b new s := by
  cases s with
  | nil => rfl
  | cons d s => rw [replacePair, if_neg fun hpair => h hpair.1]

theorem replacePair_pair (s : Text) : replacePair a b new (a :: b :: s) = new ++ replacePair a b new s := by
  rw [replacePair, if_pos ⟨rfl, rfl⟩]

theorem replacePair_cons_cons_of_ne (c : CodePoint) {d : CodePoint} (h : d ≠ b) (s : Text) :
    replacePair a b new (c :: d :: s) = c :: replacePair a b new (d :: s) := by
  rw [replacePair, if_neg fun hpair => h hpair.2]

end Python
