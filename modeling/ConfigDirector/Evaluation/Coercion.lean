/-
Version coercion is a scan for the first run of digits that is short enough, and up to two more components
after single dots: the engine never gives a digit back, so the search by backtracking finds exactly these.
-/
import ConfigDirector.Evaluation.DateFormat
import ConfigDirector.Python.DecimalText
import ConfigDirector.Python.Runs
import Mathlib.Data.Nat.Digits.Lemmas

namespace ConfigDirector.Evaluation

open Python Regex

/-! ## The scan -/

/-- The digits of a component. -/
def maxComponent : ℕ := 16

/-- A run of digits in a text, with no digit next to it. -/
structure MaximalRun (text before run after : Text) : Prop where
  split : text = before ++ (run ++ after)
  digits : ∀ c ∈ run, c.isDecimal = true
  nonempty : run ≠ []
  left : ∀ c, before.getLast? = some c → c.isDecimal = false
  right : ∀ c, after.head? = some c → c.isDecimal = false

/-- A run that can be a component. -/
def ShortRun (text before run after : Text) : Prop := MaximalRun text before run after ∧ run.length ≤ maxComponent

def FirstShortRun (text before run after : Text) : Prop :=
  ShortRun text before run after ∧ ∀ before' run' after', ShortRun text before' run' after' → before.length ≤ before'.length

/-- The run after a single dot, if it can be a component, and what follows it. -/
def nextComponent (after : Text) : Option (Text × Text) := separatedRun 0x2E CodePoint.isDecimal maxComponent after

/-- A component that is missing is zero. -/
def componentValue (component : Option (Text × Text)) : ℕ := component.elim 0 fun r => digitValue r.1

/-- The version read where a run and what follows it were found. -/
def versionAt (r : Text × Text) : Version :=
  (digitValue r.1, componentValue (nextComponent r.2), componentValue ((nextComponent r.2).bind fun c => nextComponent c.2))

theorem nextRun_iff {text run rest : Text} :
    nextRun CodePoint.isDecimal maxComponent text = some (run, rest) ↔ ShortRun text [] run rest := by
  rw [nextRun_eq_some_iff]
  constructor
  · rintro ⟨hsplit, hdigits, hne, hrest, hmax⟩
    refine ⟨⟨hsplit, hdigits, hne, fun c h => (by cases h), fun c hc => ?_⟩, hmax⟩
    exact Bool.eq_false_of_not_eq_true fun h => hrest ⟨c, hc, h⟩
  · rintro ⟨h, hmax⟩
    refine ⟨h.split, h.digits, h.nonempty, ?_, hmax⟩
    rintro ⟨c, hc, hdecimal⟩
    rw [h.right c hc] at hdecimal
    cases hdecimal

theorem nextComponent_eq_some_iff {after run rest : Text} :
    nextComponent after = some (run, rest) ↔ ∃ text, after = 0x2E :: text ∧ ShortRun text [] run rest := by
  unfold nextComponent
  cases after with
  | nil =>
    refine iff_of_false (fun h => (by cases h)) ?_
    rintro ⟨text, h, -⟩
    cases h
  | cons c text =>
    rw [separatedRun]
    by_cases hc : c = 0x2E
    · rw [if_pos hc, nextRun_iff, hc]
      refine ⟨fun h => ⟨text, rfl, h⟩, ?_⟩
      rintro ⟨_, heq, h⟩
      cases heq
      exact h
    · rw [if_neg hc]
      refine iff_of_false (fun h => (by cases h)) ?_
      rintro ⟨_, heq, -⟩
      exact hc (List.cons.inj heq).1

theorem not_startsWith_of_nextRun {text : Text} {r : Text × Text}
    (h : nextRun CodePoint.isDecimal maxComponent text = some r) : ¬ StartsWith CodePoint.isDecimal r.2 :=
  (nextRun_eq_some_iff.1 h).2.2.2.1

theorem not_startsWith_of_nextComponent {after : Text} {r : Text × Text} (h : nextComponent after = some r) :
    ¬ StartsWith CodePoint.isDecimal r.2 := by
  obtain ⟨text, -, hrun⟩ := nextComponent_eq_some_iff.1 h
  exact not_startsWith_of_nextRun (nextRun_iff.2 hrun)

/-! ## The parts of the pattern -/

/-- `(?:$|[^\d])`. -/
def endPart : Regex := .alt .stop nonDigit

/-- `(?:\.(\d{1,16}))?` and what follows. -/
def componentPart (n : ℕ) (k : Regex) : Regex :=
  .seq (opt (.seq (.chars (· = 0x2E)) (.group n (.rep CodePoint.isDecimal 1 (some maxComponent))))) k

def versionPart : Regex :=
  .seq (.group 2 (.rep CodePoint.isDecimal 1 (some maxComponent))) (componentPart 3 (componentPart 4 endPart))

theorem coercePattern_eq : coercePattern = .seq (.group 1 (.alt .start nonDigit)) versionPart := rfl

theorem endPart_failsBefore : FailsBefore CodePoint.isDecimal endPart :=
  .alt (.stop (by decide)) (.chars fun c hc => by rw [hc]; rfl)

theorem componentPart_failsBefore {k : Regex} (h : FailsBefore CodePoint.isDecimal k) (n : ℕ) :
    FailsBefore CodePoint.isDecimal (componentPart n k) := by
  refine .opt_seq (.seq (.chars fun c hc => decide_eq_false ?_) _) h
  rintro rfl
  cases hc

/-- The pattern matches where no digit comes next, with these groups. -/
def CapturesFrom (k : Regex) (groups : Text → List (ℕ × Text) → List (ℕ × Text)) : Prop :=
  ∀ pos : Position, ¬ StartsWith CodePoint.isDecimal pos.rest →
    (k.matchesAt pos).head?.map Position.groups = some (groups pos.rest pos.groups)

theorem endPart_captures : CapturesFrom endPart fun _ groups => groups := by
  rintro ⟨atStart, rest, groups⟩ h
  cases rest with
  | nil => rfl
  | cons c rest =>
    have hc : c.isDecimal = false := Bool.eq_false_of_not_eq_true fun hc => h ⟨c, rfl, hc⟩
    have hnext : nonDigit.matchesAt ⟨atStart, c :: rest, groups⟩ = [Position.advance ⟨atStart, c :: rest, groups⟩ 1] :=
      if_pos (show (!c.isDecimal) = true by rw [hc]; rfl)
    rw [endPart, matchesAt, hnext, List.head?_append, matchesAt]
    split <;> rfl

/-- A component is captured if it can be one, and left out otherwise. -/
theorem componentPart_captures {k : Regex} {groups : Text → List (ℕ × Text) → List (ℕ × Text)}
    (hfails : FailsBefore CodePoint.isDecimal k) (hk : CapturesFrom k groups) (n : ℕ) :
    CapturesFrom (componentPart n k) fun rest gs =>
      (nextComponent rest).elim (groups rest gs) fun r => groups r.2 ((n, r.1) :: gs) := by
  intro pos hpos
  have hmatches : (componentPart n k).matchesAt pos =
      (nextComponent pos.rest).elim [] (fun r => k.matchesAt (pos.capture n r.1 r.2)) ++ k.matchesAt pos :=
    opt_run_matchesAt hfails 0x2E n maxComponent pos
  rw [hmatches, List.head?_append]
  beta_reduce
  cases hnext : nextComponent pos.rest with
  | none => exact hk pos hpos
  | some r =>
    -- what follows matches, so the engine does not come to the matches without the component
    have hrest := hk (pos.capture n r.1 r.2) (not_startsWith_of_nextComponent hnext)
    rw [Option.elim_some]
    cases hhead : (k.matchesAt (pos.capture n r.1 r.2)).head? with
    | none =>
      rw [hhead] at hrest
      cases hrest
    | some m =>
      rw [hhead] at hrest
      exact hrest

theorem componentParts_captures : CapturesFrom (componentPart 3 (componentPart 4 endPart)) fun rest groups =>
    (nextComponent rest).elim groups fun r =>
      (nextComponent r.2).elim ((3, r.1) :: groups) fun r' => (4, r'.1) :: (3, r.1) :: groups := by
  intro pos hpos
  rw [componentPart_captures (componentPart_failsBefore endPart_failsBefore 4)
    (componentPart_captures endPart_failsBefore endPart_captures 4) 3 pos hpos]
  beta_reduce
  cases nextComponent pos.rest <;> rfl

/-! ## A match -/

def versionOf (m : Position) : Version := ((intGroup m 2 0).toNat, (intGroup m 3 0).toNat, (intGroup m 4 0).toNat)

theorem intGroup_run (run : Text) {m : Position} {n : ℕ} (hgroup : m.group n = some run) (hne : run ≠ [])
    (h : ∀ c ∈ run, c.isDecimal = true) : (intGroup m n 0).toNat = digitValue run := by
  rw [intGroup_eq hgroup (fun t ht => (Option.mem_some.1 ht) ▸ hne), Option.map_some, Option.getD_some, intOfDigits_eq h,
    Int.toNat_natCast]

theorem intGroup_none {m : Position} {n : ℕ} (hgroup : m.group n = none) : (intGroup m n 0).toNat = 0 := by
  unfold intGroup
  rw [hgroup]
  rfl

theorem digits_of_nextComponent {after : Text} {r : Text × Text} (h : nextComponent after = some r) :
    r.1 ≠ [] ∧ ∀ c ∈ r.1, c.isDecimal = true := by
  obtain ⟨text, -, hrun⟩ := nextComponent_eq_some_iff.1 h
  exact ⟨hrun.1.nonempty, hrun.1.digits⟩

/-- The version is read where a run begins, if one does. -/
theorem versionPart_head (pos : Position) (before : Text) (hgroups : pos.groups = [(1, before)]) :
    (versionPart.matchesAt pos).head?.map versionOf =
      (nextRun CodePoint.isDecimal maxComponent pos.rest).map versionAt := by
  have hfails := componentPart_failsBefore (componentPart_failsBefore endPart_failsBefore 4) 3
  rw [versionPart, run_matchesAt hfails]
  cases hnext : nextRun CodePoint.isDecimal maxComponent pos.rest with
  | none => rfl
  | some r =>
    rw [Option.elim_some]
    have hcaptures := componentParts_captures (pos.capture 2 r.1 r.2) (not_startsWith_of_nextRun hnext)
    obtain ⟨-, hdigits, hne, -⟩ := nextRun_eq_some_iff.1 hnext
    cases hhead : ((componentPart 3 (componentPart 4 endPart)).matchesAt (pos.capture 2 r.1 r.2)).head? with
    | none =>
      rw [hhead] at hcaptures
      cases hcaptures
    | some m =>
      rw [hhead] at hcaptures
      obtain ⟨atStart, rest, groups⟩ := m
      replace hcaptures := Option.some.inj hcaptures
      simp only [Position.capture, hgroups] at hcaptures
      rw [Option.map_some, Option.map_some, Option.some.injEq, versionOf, versionAt, hcaptures]
      cases hsecond : nextComponent r.2 with
      | none =>
        rw [intGroup_run r.1 rfl hne hdigits, intGroup_none rfl, intGroup_none rfl]
        rfl
      | some second =>
        obtain ⟨hne', hdigits'⟩ := digits_of_nextComponent hsecond
        rw [Option.elim_some, Option.bind_some]
        cases hthird : nextComponent second.2 with
        | none =>
          rw [intGroup_run r.1 rfl hne hdigits, intGroup_run second.1 rfl hne' hdigits', intGroup_none rfl]
          rfl
        | some third =>
          obtain ⟨hne'', hdigits''⟩ := digits_of_nextComponent hthird
          rw [intGroup_run r.1 rfl hne hdigits, intGroup_run second.1 rfl hne' hdigits',
            intGroup_run third.1 rfl hne'' hdigits'']
          rfl

/-- What is read where the search stands: the run that begins there at the start of the text, or after the
character there that is no digit. -/
def runHere (atStart : Bool) (text : Text) : Option (Text × Text) :=
  (if atStart then nextRun CodePoint.isDecimal maxComponent text else none).or
    (match text with
      | c :: rest => if c.isDecimal then none else nextRun CodePoint.isDecimal maxComponent rest
      | [] => none)

theorem nonDigit_matchesAt (atStart : Bool) (c : CodePoint) (rest : Text) (groups : List (ℕ × Text)) :
    nonDigit.matchesAt ⟨atStart, c :: rest, groups⟩ = if c.isDecimal then [] else [⟨false, rest, groups⟩] := by
  show (if (!c.isDecimal) = true then [Position.advance ⟨atStart, c :: rest, groups⟩ 1] else []) = _
  rw [Position.advance]
  cases c.isDecimal
  · rw [show (1 == 0) = false from rfl, Bool.and_false]
    rfl
  · rfl

theorem coercePattern_head (atStart : Bool) (text : Text) :
    (coercePattern.matchesAt ⟨atStart, text, []⟩).head?.map versionOf = (runHere atStart text).map versionAt := by
  have hstart : (start.matchesAt ⟨atStart, text, []⟩).map (fun pos' : Position =>
      { pos' with groups := (1, text.take (text.length - pos'.rest.length)) :: pos'.groups }) =
      if atStart then [⟨true, text, [(1, text.take (text.length - text.length))]⟩] else [] := by
    cases atStart <;> rfl
  rw [coercePattern_eq, matchesAt, matchesAt, matchesAt, List.map_append, hstart, List.flatMap_append,
    List.head?_append, Option.map_or]
  unfold runHere
  rw [Option.map_or]
  congr 1
  · cases atStart
    · rfl
    · rw [if_pos rfl, if_pos rfl, List.flatMap_singleton]
      exact versionPart_head _ _ rfl
  · cases text with
    | nil => rfl
    | cons c rest =>
      rw [nonDigit_matchesAt]
      cases hc : c.isDecimal
      · rw [if_neg Bool.false_ne_true, List.map_singleton, List.flatMap_singleton]
        simp only [hc, Bool.false_eq_true, if_false]
        exact versionPart_head _ _ rfl
      · simp only [hc, if_true]
        rfl

/-! ## The search -/

/-- A run the search can still come to: one at the very front only from the start of the text. -/
def Ahead (atStart : Bool) (text before run after : Text) : Prop :=
  ShortRun text before run after ∧ (before = [] → atStart = true)

theorem nextRun_nonDigit {c : CodePoint} (h : c.isDecimal = false) (rest : Text) :
    nextRun CodePoint.isDecimal maxComponent (c :: rest) = none := by
  refine if_neg fun hlength => ?_
  rw [List.takeWhile_cons_of_neg (by rw [h]; exact Bool.false_ne_true)] at hlength
  exact absurd hlength.1 (by decide)

/-- A run after one character more. -/
theorem shortRun_cons_iff {c : CodePoint} {text before run after : Text} :
    ShortRun (c :: text) (c :: before) run after ↔
      ShortRun text before run after ∧ (before = [] → c.isDecimal = false) := by
  have hlast : (∀ d, (c :: before).getLast? = some d → d.isDecimal = false) ↔
      (∀ d, before.getLast? = some d → d.isDecimal = false) ∧ (before = [] → c.isDecimal = false) := by
    cases before with
    | nil => simp
    | cons b before => simp
  constructor
  · rintro ⟨h, hmax⟩
    have hleft := hlast.1 h.left
    exact ⟨⟨⟨(List.cons.inj h.split).2, h.digits, h.nonempty, hleft.1, h.right⟩, hmax⟩, hleft.2⟩
  · rintro ⟨⟨h, hmax⟩, hc⟩
    exact ⟨⟨congrArg (c :: ·) h.split, h.digits, h.nonempty, hlast.2 ⟨h.left, hc⟩, h.right⟩, hmax⟩

theorem runHere_eq_some_iff {atStart : Bool} {text run after : Text} : runHere atStart text = some (run, after) ↔
    ∃ before, before.length ≤ 1 ∧ Ahead atStart text before run after := by
  unfold runHere
  rw [Option.or_eq_some_iff]
  constructor
  · rintro (h | ⟨-, h⟩)
    · cases hatStart : atStart
      · rw [hatStart] at h
        cases h
      · rw [hatStart, if_pos rfl, nextRun_iff] at h
        exact ⟨[], Nat.zero_le 1, h, fun _ => rfl⟩
    · cases text with
      | nil => cases h
      | cons c rest =>
        cases hc : c.isDecimal
        · simp only [hc, Bool.false_eq_true, if_false] at h
          exact ⟨[c], le_refl 1, shortRun_cons_iff.2 ⟨nextRun_iff.1 h, fun _ => hc⟩, fun h => (by cases h)⟩
        · simp only [hc, if_true] at h
          cases h
  · rintro ⟨before, hbefore, hrun, hatStart⟩
    cases before with
    | nil => exact .inl (by rw [if_pos (hatStart rfl), nextRun_iff]; exact hrun)
    | cons c before =>
      have hnil : before = [] := List.eq_nil_of_length_eq_zero (by rw [List.length_cons] at hbefore; omega)
      obtain ⟨rest, rfl⟩ : ∃ rest, text = c :: rest := ⟨_, hrun.1.split⟩
      obtain ⟨hrest, hc⟩ := shortRun_cons_iff.1 hrun
      subst hnil
      right
      simp only [nextRun_nonDigit (hc rfl), hc rfl, Bool.false_eq_true, if_false, ite_self]
      exact ⟨trivial, nextRun_iff.2 hrest⟩

/-- Where nothing is read, the search goes on with what is ahead of the next character. -/
theorem ahead_cons_iff {atStart : Bool} {c : CodePoint} {rest before run after : Text}
    (h : runHere atStart (c :: rest) = none) : Ahead atStart (c :: rest) before run after ↔
      ∃ before', before = c :: before' ∧ Ahead false rest before' run after := by
  have hfar : Ahead atStart (c :: rest) before run after → 1 < before.length := fun hahead => by
    by_contra hlength
    rw [runHere_eq_some_iff.2 ⟨before, Nat.not_lt.1 hlength, hahead⟩] at h
    cases h
  constructor
  · intro hahead
    have hlength := hfar hahead
    cases before with
    | nil => exact absurd hlength (by decide)
    | cons b before =>
      obtain ⟨rfl, -⟩ := List.cons.inj hahead.1.1.split
      refine ⟨before, rfl, (shortRun_cons_iff.1 hahead.1).1, ?_⟩
      rintro rfl
      exact absurd hlength (lt_irrefl 1)
  · rintro ⟨before', rfl, hrun, hne⟩
    refine ⟨shortRun_cons_iff.2 ⟨hrun, fun hnil => ?_⟩, fun hnil => (by cases hnil)⟩
    cases hne hnil

/-- The search reads the version at the first run ahead, or there is none. -/
theorem searchFrom_coercePattern : ∀ (atStart : Bool) (text : Text),
    (coercePattern.searchFrom atStart text = none ∧ ∀ before run after, ¬ Ahead atStart text before run after) ∨
    ∃ before run after, Ahead atStart text before run after ∧
      (∀ before' run' after', Ahead atStart text before' run' after' → before.length ≤ before'.length) ∧
      (coercePattern.searchFrom atStart text).map versionOf = some (versionAt (run, after))
  | atStart, [] => by
    refine .inl ⟨?_, fun before run after h => ?_⟩
    · have hhead := coercePattern_head atStart []
      have hnone : runHere atStart [] = none := by cases atStart <;> rfl
      rw [hnone, Option.map_none] at hhead
      exact Option.map_eq_none_iff.1 hhead
    · have hnil := List.append_eq_nil_iff.1 (List.append_eq_nil_iff.1 h.1.1.split.symm).2
      exact h.1.1.nonempty hnil.1
  | atStart, c :: rest => by
    have hhead := coercePattern_head atStart (c :: rest)
    rw [searchFrom]
    cases hhere : runHere atStart (c :: rest) with
    | some r =>
      obtain ⟨run, after⟩ := r
      obtain ⟨before, hbefore, hahead⟩ := runHere_eq_some_iff.1 hhere
      rw [hhere] at hhead
      obtain ⟨m, hm, hversion⟩ := Option.map_eq_some_iff.1 hhead
      refine .inr ⟨before, run, after, hahead, fun before' run' after' hahead' => ?_, ?_⟩
      · by_contra hlt
        -- a run that begins earlier is the one that is read
        have hnil' : before' = [] := List.eq_nil_of_length_eq_zero (by omega)
        subst hnil'
        cases before with
        | nil => exact hlt (le_refl _)
        | cons b before =>
          have hnil : before = [] := List.eq_nil_of_length_eq_zero (by rw [List.length_cons] at hbefore; omega)
          subst hnil
          obtain ⟨rfl, -⟩ := List.cons.inj hahead.1.1.split
          have hnone := nextRun_nonDigit ((shortRun_cons_iff.1 hahead.1).2 rfl) rest
          rw [nextRun_iff.2 hahead'.1] at hnone
          cases hnone
      · rw [hm]
        exact congrArg some hversion
    | none =>
      rw [hhere, Option.map_none] at hhead
      rw [Option.map_eq_none_iff.1 hhead]
      rcases searchFrom_coercePattern false rest with ⟨hnone, hall⟩ | ⟨before, run, after, hahead, hfirst, hversion⟩
      · refine .inl ⟨hnone, fun before run after h => ?_⟩
        obtain ⟨before', -, h'⟩ := (ahead_cons_iff hhere).1 h
        exact hall _ _ _ h'
      · refine .inr ⟨c :: before, run, after, (ahead_cons_iff hhere).2 ⟨before, rfl, hahead⟩, ?_, hversion⟩
        intro before' run' after' h
        obtain ⟨before'', rfl, h'⟩ := (ahead_cons_iff hhere).1 h
        exact Nat.succ_le_succ (hfirst _ _ _ h')

theorem ahead_start_iff {text before run after : Text} :
    Ahead true text before run after ↔ ShortRun text before run after := and_iff_left fun _ => rfl

/-- A run is determined by where it begins. -/
theorem ShortRun.unique {text before run after before' run' after' : Text} (h : ShortRun text before run after)
    (h' : ShortRun text before' run' after') (hlength : before.length = before'.length) :
    run = run' ∧ after = after' := by
  obtain ⟨-, htail⟩ := List.append_inj (h.1.split.symm.trans h'.1.split) hlength
  have hnext : ∀ {before run after : Text}, ShortRun text before run after →
      nextRun CodePoint.isDecimal maxComponent (run ++ after) = some (run, after) := fun h =>
    nextRun_iff.2 ⟨⟨rfl, h.1.digits, h.1.nonempty, fun c hc => (by cases hc), h.1.right⟩, h.2⟩
  have heq := hnext h
  rw [htail, hnext h'] at heq
  exact ⟨(Prod.mk.inj (Option.some.inj heq)).1.symm, (Prod.mk.inj (Option.some.inj heq)).2.symm⟩

/-! ## Versions -/

theorem coerce_eq (value : Text) : coerce value = (coercePattern.searchFrom true value).map versionOf := rfl

theorem coerce_eq_none_iff (value : Text) : coerce value = none ↔ ¬ ∃ before run after, ShortRun value before run after := by
  rw [coerce_eq]
  rcases searchFrom_coercePattern true value with ⟨hnone, hall⟩ | ⟨before, run, after, hahead, -, hversion⟩
  · rw [hnone]
    refine iff_of_true rfl ?_
    rintro ⟨before, run, after, h⟩
    exact hall before run after (ahead_start_iff.2 h)
  · rw [hversion]
    exact iff_of_false (fun h => by cases h) fun h => h ⟨before, run, after, ahead_start_iff.1 hahead⟩

theorem coerce_firstShortRun {value before run after : Text} (h : FirstShortRun value before run after) :
    coerce value = some (versionAt (run, after)) := by
  rw [coerce_eq]
  rcases searchFrom_coercePattern true value with ⟨-, hall⟩ | ⟨before', run', after', hahead, hfirst, hversion⟩
  · exact absurd (ahead_start_iff.2 h.1) (hall before run after)
  · have hrun := ahead_start_iff.1 hahead
    have hlength : before.length = before'.length :=
      le_antisymm (h.2 _ _ _ hrun) (hfirst _ _ _ (ahead_start_iff.2 h.1))
    obtain ⟨rfl, rfl⟩ := h.1.unique hrun hlength
    exact hversion

/-! ## Numerals -/

theorem decimal?_of_isAsciiDigit {c : CodePoint} (h : c.isAsciiDigit = true) : c.decimal? = some (c.val - 0x30) := by
  unfold CodePoint.isAsciiDigit at h
  rw [Bool.and_eq_true, decide_eq_true_eq, decide_eq_true_eq] at h
  have hfind : decimalZeros.find? (fun z => decide (z ≤ c.val) && decide (c.val < z + 10)) = some 0x30 :=
    List.find?_cons_of_pos (by
      rw [Bool.and_eq_true, decide_eq_true_eq, decide_eq_true_eq]
      omega)
  unfold CodePoint.decimal?
  rw [hfind, Option.map_some]

theorem digitValue_natText (n : ℕ) : digitValue (natText n) = n := by
  conv_rhs => rw [← digitsToNat_natText n]
  unfold digitValue digitsToNat
  refine List.foldl_ext _ _ _ fun m c hc => ?_
  rw [decimal?_of_isAsciiDigit (allDigits_natText n c hc), Option.getD_some]

theorem length_natText_le {n k : ℕ} (hk : 0 < k) (h : n < 10 ^ k) : (natText n).length ≤ k := by
  unfold natText
  split
  · exact hk
  · rw [List.length_map, List.length_reverse]
    exact (Nat.digits_length_le_iff (by decide) n).2 h

/-- A number before a text that does not go on with a digit. -/
theorem shortRun_natText {n : ℕ} (h : n < 10 ^ maxComponent) {before after : Text}
    (hbefore : ∀ c ∈ before, c.isDecimal = false) (hafter : ∀ c, after.head? = some c → c.isDecimal = false) :
    ShortRun (before ++ (natText n ++ after)) before (natText n) after :=
  ⟨⟨rfl, fun c hc => isDecimal_of_isAsciiDigit c (allDigits_natText n c hc), natText_ne_nil n,
    fun c hc => hbefore c (List.mem_of_getLast? hc), hafter⟩, length_natText_le (by decide) h⟩

theorem nextComponent_natText {n : ℕ} (h : n < 10 ^ maxComponent) {after : Text}
    (hafter : ∀ c, after.head? = some c → c.isDecimal = false) :
    nextComponent (0x2E :: (natText n ++ after)) = some (natText n, after) :=
  nextComponent_eq_some_iff.2 ⟨_, rfl, (shortRun_natText h (fun _ h => (by cases h)) hafter : ShortRun ([] ++ _) [] _ _)⟩

/-- What precedes a run holds all of a text without digits that the whole begins with. -/
theorem length_le_of_digitFree {front rest before run after : Text} (hfront : ∀ c ∈ front, c.isDecimal = false)
    (h : ShortRun (front ++ rest) before run after) : front.length ≤ before.length := by
  by_contra hlt
  have hsplit := h.1.split
  obtain ⟨c, run, rfl⟩ := List.exists_cons_of_ne_nil h.1.nonempty
  have hget : (front ++ rest)[before.length]? = some c := by
    rw [hsplit, List.getElem?_append_right (le_refl _), Nat.sub_self]
    rfl
  rw [List.getElem?_append_left (Nat.not_le.1 hlt)] at hget
  have hc := hfront c (List.mem_of_getElem? hget)
  rw [h.1.digits c List.mem_cons_self] at hc
  cases hc

theorem coerce_numerals {a b c : ℕ} (ha : a < 10 ^ maxComponent) (hb : b < 10 ^ maxComponent) (hc : c < 10 ^ maxComponent)
    {front after : Text} (hfront : ∀ c ∈ front, c.isDecimal = false)
    (hafter : ∀ c, after.head? = some c → c.isDecimal = false) :
    coerce (front ++ (natText a ++ 0x2E :: (natText b ++ 0x2E :: (natText c ++ after)))) = some (a, b, c) := by
  have hdot : ∀ text : Text, ∀ c, (0x2E :: text).head? = some c → c.isDecimal = false := by
    rintro text c h
    cases h
    decide
  rw [coerce_firstShortRun ⟨shortRun_natText ha hfront (hdot _), fun _ _ _ h => length_le_of_digitFree hfront h⟩, versionAt,
    nextComponent_natText hb (hdot _), Option.bind_some, nextComponent_natText hc hafter]
  unfold componentValue
  rw [Option.elim_some, Option.elim_some, digitValue_natText, digitValue_natText, digitValue_natText]

/-- Coercion is the scan for the first run of digits that is short enough: none if there is no such run, else
the run and the components that follow it. A version in a text without other digits before it is read as it is
written. -/
theorem coerce_scan :
    (∀ value : Text, coerce value = none ↔ ¬ ∃ before run after, ShortRun value before run after) ∧
    (∀ value before run after : Text, FirstShortRun value before run after →
      coerce value = some (digitValue run, componentValue (nextComponent after),
        componentValue ((nextComponent after).bind fun c => nextComponent c.2))) ∧
    ∀ a b c : ℕ, a < 10 ^ maxComponent → b < 10 ^ maxComponent → c < 10 ^ maxComponent →
      ∀ front after : Text, (∀ c ∈ front, c.isDecimal = false) → (∀ c, after.head? = some c → c.isDecimal = false) →
        coerce (front ++ (natText a ++ 0x2E :: (natText b ++ 0x2E :: (natText c ++ after)))) = some (a, b, c) :=
  ⟨coerce_eq_none_iff, fun _ _ _ _ h => coerce_firstShortRun h, fun _ _ _ ha hb hc _ _ hfront hafter =>
    coerce_numerals ha hb hc hfront hafter⟩

end ConfigDirector.Evaluation
