/-
What a pattern can match, and which groups it captures, without the order in which the engine tries:
a pattern without anchors matches a text wherever it stands.
-/
import ConfigDirector.Python.Regex

namespace Python.Regex

/-- A pattern without `^` and `$`. -/
def Plain : Regex → Prop
  | start | stop => False
  | seq r s | alt r s => r.Plain ∧ s.Plain
  | group _ r => r.Plain
  | _ => True

/-- The pattern can match the text with these groups, the last one first. -/
def Captures : Regex → Text → List (ℕ × Text) → Prop
  | empty, t, gs => t = [] ∧ gs = []
  | chars p, t, gs => ∃ c, p c = true ∧ t = [c] ∧ gs = []
  | rep p min max, t, gs => (∀ c ∈ t, p c = true) ∧ min ≤ t.length ∧ (∀ m, max = some m → t.length ≤ m) ∧ gs = []
  | start, _, _ | stop, _, _ => False
  | seq r s, t, gs => ∃ t₁ t₂ g₁ g₂, r.Captures t₁ g₁ ∧ s.Captures t₂ g₂ ∧ t = t₁ ++ t₂ ∧ gs = g₂ ++ g₁
  | alt r s, t, gs => r.Captures t gs ∨ s.Captures t gs
  | group n r, t, gs => ∃ g, r.Captures t g ∧ gs = (n, t) :: g

/-- The position after a text was matched with groups. -/
def Position.after (pos : Position) (t rest : Text) (gs : List (ℕ × Text)) : Position :=
  ⟨pos.atStart && t.isEmpty, rest, gs ++ pos.groups⟩

theorem Position.after_after (pos : Position) (t₁ t₂ rest₁ rest₂ : Text) (g₁ g₂ : List (ℕ × Text)) :
    (pos.after t₁ rest₁ g₁).after t₂ rest₂ g₂ = pos.after (t₁ ++ t₂) rest₂ (g₂ ++ g₁) := by
  unfold Position.after
  rw [List.append_assoc]
  cases t₁ with
  | nil => simp
  | cons c t₁ => simp

theorem le_runLength_iff (p : CodePoint → Bool) (max : Option ℕ) (t rest : Text) :
    t.length ≤ runLength p max (t ++ rest) ↔ (∀ c ∈ t, p c = true) ∧ ∀ m, max = some m → t.length ≤ m := by
  have hall : t.length ≤ ((t ++ rest).takeWhile p).length ↔ ∀ c ∈ t, p c = true := by
    induction t with
    | nil => simp
    | cons c t ih =>
      rw [List.cons_append, List.takeWhile_cons, List.forall_mem_cons, List.length_cons]
      split
      · rename_i hc
        rw [List.length_cons, Nat.add_le_add_iff_right, ih]
        exact (and_iff_right hc).symm
      · rename_i hc
        simp [hc]
  unfold runLength
  cases max with
  | none => simp [hall]
  | some m => simp [hall]

theorem Position.advance_eq {pos : Position} (t rest : Text) (h : pos.rest = t ++ rest) :
    pos.advance t.length = pos.after t rest [] := by
  unfold Position.advance Position.after
  rw [h, List.drop_left]
  cases t <;> rfl

theorem mem_rep_iff (p : CodePoint → Bool) (min : ℕ) (max : Option ℕ) (pos m : Position) :
    m ∈ (rep p min max).matchesAt pos ↔
      ∃ t rest, (rep p min max).Captures t [] ∧ pos.rest = t ++ rest ∧ m = pos.after t rest [] := by
  rw [matchesAt, List.mem_map]
  constructor
  · rintro ⟨i, hi, rfl⟩
    rw [List.mem_range] at hi
    have hle : runLength p max pos.rest ≤ pos.rest.length := by
      unfold runLength
      have htake := (List.takeWhile_sublist p (l := pos.rest)).length_le
      cases max with
      | none => exact htake
      | some m => exact (Nat.min_le_left _ _).trans htake
    generalize hk : runLength p max pos.rest - i = k
    have hsplit := (List.take_append_drop k pos.rest).symm
    have hlength : (pos.rest.take k).length = k := by
      rw [List.length_take]
      omega
    have hrun := le_runLength_iff p max (pos.rest.take k) (pos.rest.drop k)
    rw [← hsplit, hlength] at hrun
    obtain ⟨hall, hmax⟩ := hrun.1 (by omega)
    refine ⟨pos.rest.take k, pos.rest.drop k, ⟨hall, by omega, ?_, rfl⟩, hsplit, ?_⟩
    · rw [hlength]
      exact hmax
    · rw [← Position.advance_eq _ _ hsplit, hlength]
  · rintro ⟨t, rest, ⟨hall, hmin, hmax, -⟩, hrest, rfl⟩
    have hrun := (le_runLength_iff p max t rest).2 ⟨hall, hmax⟩
    rw [← hrest] at hrun
    refine ⟨runLength p max pos.rest - t.length, List.mem_range.2 (by omega), ?_⟩
    rw [← Position.advance_eq _ _ hrest]
    congr 1
    omega

/-- The matches the engine tries are those the pattern captures, at any position. -/
theorem mem_matchesAt_iff : ∀ {r : Regex}, r.Plain → ∀ {pos m : Position}, m ∈ r.matchesAt pos ↔
    ∃ t rest gs, r.Captures t gs ∧ pos.rest = t ++ rest ∧ m = pos.after t rest gs
  | empty, _, pos, m => by
    rw [matchesAt, List.mem_singleton]
    constructor
    · rintro rfl
      refine ⟨[], m.rest, [], ⟨rfl, rfl⟩, rfl, ?_⟩
      simp [Position.after]
    · rintro ⟨t, rest, gs, ⟨rfl, rfl⟩, hrest, rfl⟩
      rw [List.nil_append] at hrest
      simp [Position.after, ← hrest]
  | chars p, _, pos, m => by
    rw [matchesAt]
    constructor
    · intro h
      cases hrest : pos.rest with
      | nil => simp [hrest] at h
      | cons c rest =>
        simp only [hrest] at h
        split at h
        · rename_i hc
          rw [List.mem_singleton] at h
          refine ⟨[c], rest, [], ⟨c, hc, rfl, rfl⟩, rfl, ?_⟩
          rw [h, ← Position.advance_eq [c] rest hrest]
          rfl
        · exact absurd h List.not_mem_nil
    · rintro ⟨t, rest, gs, ⟨c, hc, rfl, rfl⟩, hrest, rfl⟩
      have hadvance := Position.advance_eq [c] rest hrest
      rw [List.singleton_append] at hrest
      simp only [hrest, hc, if_true, List.mem_singleton]
      exact hadvance.symm
  | rep p min max, _, pos, m => by
    rw [mem_rep_iff]
    constructor
    · rintro ⟨t, rest, hcaptures, h⟩
      exact ⟨t, rest, [], hcaptures, h⟩
    · rintro ⟨t, rest, gs, ⟨hall, hmin, hmax, rfl⟩, h⟩
      exact ⟨t, rest, ⟨hall, hmin, hmax, rfl⟩, h⟩
  | seq r s, ⟨hr, hs⟩, pos, m => by
    simp only [matchesAt, List.mem_flatMap, mem_matchesAt_iff hr, mem_matchesAt_iff hs]
    constructor
    · rintro ⟨mid, ⟨t₁, rest₁, g₁, h₁, hrest₁, rfl⟩, t₂, rest₂, g₂, h₂, hrest₂, rfl⟩
      have hrest : rest₁ = t₂ ++ rest₂ := hrest₂
      refine ⟨t₁ ++ t₂, rest₂, g₂ ++ g₁, ⟨t₁, t₂, g₁, g₂, h₁, h₂, rfl, rfl⟩, ?_, Position.after_after ..⟩
      rw [hrest₁, hrest, List.append_assoc]
    · rintro ⟨t, rest, gs, ⟨t₁, t₂, g₁, g₂, h₁, h₂, rfl, rfl⟩, hrest, rfl⟩
      refine ⟨_, ⟨t₁, t₂ ++ rest, g₁, h₁, by rw [hrest, List.append_assoc], rfl⟩, t₂, rest, g₂, h₂, rfl, ?_⟩
      exact (Position.after_after ..).symm
  | alt r s, ⟨hr, hs⟩, pos, m => by
    simp only [matchesAt, List.mem_append, mem_matchesAt_iff hr, mem_matchesAt_iff hs]
    constructor
    · rintro (⟨t, rest, gs, h, hrest⟩ | ⟨t, rest, gs, h, hrest⟩)
      · exact ⟨t, rest, gs, .inl h, hrest⟩
      · exact ⟨t, rest, gs, .inr h, hrest⟩
    · rintro ⟨t, rest, gs, h | h, hrest⟩
      · exact .inl ⟨t, rest, gs, h, hrest⟩
      · exact .inr ⟨t, rest, gs, h, hrest⟩
  | group n r, hr, pos, m => by
    simp only [matchesAt, List.mem_map, mem_matchesAt_iff (r := r) hr]
    have htaken : ∀ t rest : Text, (t ++ rest).take ((t ++ rest).length - rest.length) = t := fun t rest => by
      rw [List.length_append, Nat.add_sub_cancel, List.take_left]
    constructor
    · rintro ⟨_, ⟨t, rest, gs, h, hrest, rfl⟩, rfl⟩
      refine ⟨t, rest, (n, t) :: gs, ⟨gs, h, rfl⟩, hrest, ?_⟩
      simp only [Position.after, hrest, htaken, List.cons_append]
    · rintro ⟨t, rest, _, ⟨gs, h, rfl⟩, hrest, rfl⟩
      refine ⟨_, ⟨t, rest, gs, h, hrest, rfl⟩, ?_⟩
      simp only [Position.after, hrest, htaken, List.cons_append]

/-- A pattern that is matched in full. -/
theorem fullMatch_isSome_iff {r : Regex} (h : r.Plain) (text : Text) :
    (r.fullMatch text).isSome = true ↔ ∃ gs, r.Captures text gs := by
  unfold fullMatch
  rw [List.find?_isSome]
  simp only [mem_matchesAt_iff h, List.isEmpty_iff]
  constructor
  · rintro ⟨_, ⟨t, rest, gs, hcaptures, htext, rfl⟩, hrest⟩
    have htext' : text = t ++ rest := htext
    have hrest' : rest = [] := hrest
    rw [htext', hrest', List.append_nil]
    exact ⟨gs, hcaptures⟩
  · rintro ⟨gs, hcaptures⟩
    exact ⟨_, ⟨text, [], gs, hcaptures, (List.append_nil text).symm, rfl⟩, rfl⟩

end Python.Regex
