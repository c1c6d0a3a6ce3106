/-
Greedy runs: where the rest of a pattern matches nothing before a member of the class, the engine gives no
character of a bounded run back, so it takes a maximal run whole or there is no match.
-/
import ConfigDirector.Python.Regex

namespace Python.Regex

variable {p : CodePoint → Bool} {k : Regex}

/-- A member of the class comes next. -/
def StartsWith (p : CodePoint → Bool) (s : Text) : Prop := ∃ c, s.head? = some c ∧ p c = true

/-- The pattern matches nothing where a member of the class comes next. -/
def FailsBefore (p : CodePoint → Bool) (k : Regex) : Prop :=
  ∀ pos : Position, StartsWith p pos.rest → k.matchesAt pos = []

/-- The maximal run a text starts with and what follows it, if the run is not empty and within the bound. -/
def nextRun (p : CodePoint → Bool) (max : ℕ) (s : Text) : Option (Text × Text) :=
  if 1 ≤ (s.takeWhile p).length ∧ (s.takeWhile p).length ≤ max then some (s.takeWhile p, s.dropWhile p) else none

/-- The run that follows a separator. -/
def separatedRun (sep : CodePoint) (p : CodePoint → Bool) (max : ℕ) (s : Text) : Option (Text × Text) :=
  match s with
  | c :: s => if c = sep then nextRun p max s else none
  | [] => none

/-- A position after a group that is not empty. -/
def Position.capture (pos : Position) (n : ℕ) (text rest : Text) : Position := ⟨false, rest, (n, text) :: pos.groups⟩

/-! ## Runs -/

theorem startsWith_drop {s : Text} {n : ℕ} (h : n < (s.takeWhile p).length) : StartsWith p (s.drop n) := by
  have hlt : n < s.length := h.trans_le (List.takeWhile_sublist p).length_le
  refine ⟨s[n], by rw [List.head?_drop, List.getElem?_eq_getElem hlt], ?_⟩
  rw [← (List.takeWhile_prefix p).getElem h]
  exact List.all_eq_true.1 List.all_takeWhile _ (List.getElem_mem h)

theorem not_startsWith_dropWhile (s : Text) : ¬ StartsWith p (s.dropWhile p) := by
  rintro ⟨c, hhead, hc⟩
  have h := List.head?_dropWhile_not p s
  rw [hhead] at h
  simp [hc] at h

theorem nextRun_eq_some_iff {max : ℕ} {s run rest : Text} : nextRun p max s = some (run, rest) ↔
    s = run ++ rest ∧ (∀ c ∈ run, p c = true) ∧ run ≠ [] ∧ ¬ StartsWith p rest ∧ run.length ≤ max := by
  unfold nextRun
  constructor
  · intro h
    split at h
    · rename_i hlength
      obtain ⟨rfl, rfl⟩ := Prod.mk.inj (Option.some.inj h)
      refine ⟨List.takeWhile_append_dropWhile.symm, List.all_eq_true.1 List.all_takeWhile, ?_,
        not_startsWith_dropWhile s, hlength.2⟩
      exact List.ne_nil_of_length_pos hlength.1
    · cases h
  · rintro ⟨rfl, hrun, hne, hrest, hmax⟩
    have htake : rest.takeWhile p = [] := by
      cases rest with
      | nil => rfl
      | cons c rest => exact List.takeWhile_cons_of_neg fun hc => hrest ⟨c, rfl, hc⟩
    have hdrop : rest.dropWhile p = rest := by
      cases rest with
      | nil => rfl
      | cons c rest => exact List.dropWhile_cons_of_neg fun hc => hrest ⟨c, rfl, hc⟩
    rw [List.takeWhile_append_of_pos hrun, htake, List.append_nil, List.dropWhile_append_of_pos hrun, hdrop]
    exact if_pos ⟨List.length_pos_iff.2 hne, hmax⟩

/-! ## Matches -/

theorem length_takeWhile_le (s : Text) : (s.takeWhile p).length ≤ s.length := (List.takeWhile_sublist p).length_le

theorem group_rep_matchesAt (n max : ℕ) (pos : Position) : (group n (rep p 1 (some max))).matchesAt pos =
    (List.range (min (pos.rest.takeWhile p).length max)).map fun i =>
      pos.capture n (pos.rest.take (min (pos.rest.takeWhile p).length max - i))
        (pos.rest.drop (min (pos.rest.takeWhile p).length max - i)) := by
  have hle := length_takeWhile_le (p := p) pos.rest
  rw [matchesAt, matchesAt, List.map_map]
  refine List.map_congr_left fun i hi => ?_
  rw [List.mem_range] at hi
  have hi' : i < min (pos.rest.takeWhile p).length max := hi
  unfold Position.capture Position.advance runLength
  simp only [Function.comp, List.length_drop]
  rw [show pos.rest.length - (pos.rest.length - (min (pos.rest.takeWhile p).length max - i)) =
    min (pos.rest.takeWhile p).length max - i by omega, show (min (pos.rest.takeWhile p).length max - i == 0) = false by
      rw [beq_eq_false_iff_ne]; omega, Bool.and_false]

/-- The engine takes a maximal run whole, or there is no match. -/
theorem run_matchesAt (h : FailsBefore p k) (n max : ℕ) (pos : Position) :
    (seq (group n (rep p 1 (some max))) k).matchesAt pos =
      ((nextRun p max pos.rest).elim [] fun r => k.matchesAt (pos.capture n r.1 r.2)) := by
  rw [matchesAt, group_rep_matchesAt, List.flatMap_map]
  -- a shorter run leaves a member of the class
  have hshorter : ∀ m < (pos.rest.takeWhile p).length, k.matchesAt (pos.capture n (pos.rest.take m) (pos.rest.drop m)) = [] :=
    fun m hm => h _ (startsWith_drop hm)
  unfold nextRun
  split
  · rename_i hlength
    obtain ⟨len, hlen⟩ : ∃ len, (pos.rest.takeWhile p).length = len + 1 := ⟨_, (Nat.sub_add_cancel hlength.1).symm⟩
    have hsplit : pos.rest = pos.rest.takeWhile p ++ pos.rest.dropWhile p := List.takeWhile_append_dropWhile.symm
    have htake : pos.rest.take (len + 1) = pos.rest.takeWhile p := by
      conv_lhs => rw [hsplit]
      rw [← hlen, List.take_left]
    have hdrop : pos.rest.drop (len + 1) = pos.rest.dropWhile p := by
      conv_lhs => rw [hsplit]
      rw [← hlen, List.drop_left]
    rw [Nat.min_eq_left hlength.2, hlen, List.range_succ_eq_map, List.flatMap_cons, Nat.sub_zero, htake, hdrop,
      List.flatMap_eq_nil_iff.2, List.append_nil, Option.elim_some]
    rintro _ hi
    obtain ⟨i, -, rfl⟩ := List.mem_map.1 hi
    exact hshorter _ (by omega)
  · rename_i hlength
    rw [Option.elim_none, List.flatMap_eq_nil_iff]
    intro i hi
    rw [List.mem_range] at hi
    exact hshorter _ (by omega)

/-! ## Patterns that match nothing before the class -/

theorem FailsBefore.chars {q : CodePoint → Bool} (h : ∀ c, p c = true → q c = false) : FailsBefore p (chars q) := by
  rintro ⟨atStart, rest, groups⟩ ⟨c, hhead, hc⟩
  cases rest with
  | nil => cases hhead
  | cons d rest =>
    cases hhead
    rw [matchesAt]
    exact if_neg (by rw [h c hc]; exact Bool.false_ne_true)

theorem FailsBefore.stop (h : p 0x0A = false) : FailsBefore p stop := by
  rintro ⟨atStart, rest, groups⟩ ⟨c, hhead, hc⟩
  refine if_neg ?_
  rintro (rfl | rfl)
  · cases hhead
  · cases hhead
    rw [h] at hc
    cases hc

theorem FailsBefore.alt {r s : Regex} (hr : FailsBefore p r) (hs : FailsBefore p s) : FailsBefore p (alt r s) := by
  intro pos hpos
  rw [matchesAt, hr pos hpos, hs pos hpos, List.nil_append]

theorem FailsBefore.seq {r : Regex} (hr : FailsBefore p r) (s : Regex) : FailsBefore p (seq r s) := by
  intro pos hpos
  rw [matchesAt, hr pos hpos, List.flatMap_nil]

theorem FailsBefore.opt_seq {r : Regex} (hr : FailsBefore p r) (hk : FailsBefore p k) : FailsBefore p (.seq (opt r) k) := by
  intro pos hpos
  rw [matchesAt, opt, matchesAt, hr pos hpos, matchesAt, List.nil_append, List.flatMap_singleton, hk pos hpos]

/-- The run after a separator: the engine tries it whole, and goes on without it when the rest fails. -/
theorem opt_run_matchesAt (h : FailsBefore p k) (sep : CodePoint) (n max : ℕ) (pos : Position) :
    (seq (opt (seq (chars (· = sep)) (group n (rep p 1 (some max))))) k).matchesAt pos =
      (separatedRun sep p max pos.rest).elim [] (fun r => k.matchesAt (pos.capture n r.1 r.2)) ++ k.matchesAt pos := by
  have hrun : ∀ pos' : Position, ((group n (rep p 1 (some max))).matchesAt pos').flatMap k.matchesAt =
      (nextRun p max pos'.rest).elim [] fun r => k.matchesAt (pos'.capture n r.1 r.2) := run_matchesAt h n max
  have hsep : (seq (chars (· = sep)) (group n (rep p 1 (some max)))).matchesAt pos =
      ((chars (· = sep)).matchesAt pos).flatMap (group n (rep p 1 (some max))).matchesAt := rfl
  rw [matchesAt, opt, matchesAt, List.flatMap_append, hsep, List.flatMap_assoc]
  simp only [hrun]
  congr 1
  · obtain ⟨atStart, rest, groups⟩ := pos
    cases rest with
    | nil => rfl
    | cons c rest =>
      rw [matchesAt, separatedRun]
      by_cases hc : c = sep
      · rw [if_pos hc]
        simp only [hc, decide_true, if_true, List.flatMap_singleton]
        rfl
      · rw [if_neg hc]
        simp only [hc, decide_false, Bool.false_eq_true, if_false, List.flatMap_nil, Option.elim_none]
  · rw [matchesAt, List.flatMap_singleton]

end Python.Regex
