/-
How exact the shares of percentage buckets are. The loop compares the assigned slot with running
totals; over the rationals the totals are the exact boundaries, over binary64 they drift from them.
The drift stays far below a slot, so it decides only the slots that lie on a boundary.
-/
import ConfigDirector.Evaluation.Evaluator
import Mathlib.Order.Interval.Finset.Nat

namespace ConfigDirector.Evaluation

open Python

/-! ## The loop as a first boundary -/

section Loop

variable {α : Type} [PercentageArith α]

/-- The position of the bucket the loop of `_evaluate_percentage` stops at. -/
def selectIndex (assigned total : α) : List (Percentage α) → Option ℕ
  | [] => none
  | percentage :: rest =>
    if PercentageArith.lt assigned (PercentageArith.add percentage.percentage total) then some 0
    else (selectIndex assigned (PercentageArith.add total percentage.percentage) rest).map (· + 1)

theorem selectBucket_eq_selectIndex (assigned : α) : ∀ (total : α) (buckets : List (Percentage α)),
    selectBucket assigned total buckets = (selectIndex assigned total buckets).bind (buckets[·]?)
  | _, [] => rfl
  | total, percentage :: rest => by
    unfold selectBucket selectIndex
    split
    · rfl
    · rw [selectBucket_eq_selectIndex assigned _ rest]
      cases selectIndex assigned (PercentageArith.add total percentage.percentage) rest <;> rfl

/-- A percentage rule yields the bucket at the position the loop selects for the assigned slot. -/
theorem evaluatePercentage_eq {buckets : List (Percentage α)} {config : Config α}
    {context : Option EvaluationContext} {assigned : α} (h : assignedPercentage config context = .ok assigned) :
    evaluatePercentage buckets config context =
      match (selectIndex assigned PercentageArith.zero buckets).bind (buckets[·]?) with
      | some bucket => ruleResult bucket.value bucket.valueId
      | none => .ok none := by
  simp only [evaluatePercentage, h, selectBucket_eq_selectIndex, bind, Except.bind]
  cases (selectIndex assigned PercentageArith.zero buckets).bind (buckets[·]?) <;> rfl

/-- The running total after some buckets. -/
def runningTotal (total : α) (buckets : List (Percentage α)) : α :=
  buckets.foldl (fun total percentage => PercentageArith.add total percentage.percentage) total

/-- The loop stops at the first bucket whose boundary is above the slot. -/
theorem selectIndex_eq_some_iff (hadd : ∀ x y : α, PercentageArith.add x y = PercentageArith.add y x)
    (assigned : α) : ∀ (total : α) (buckets : List (Percentage α)) (i : ℕ),
    selectIndex assigned total buckets = some i ↔
      i < buckets.length ∧
      PercentageArith.lt assigned (runningTotal total (buckets.take (i + 1))) = true ∧
      ∀ j < i, PercentageArith.lt assigned (runningTotal total (buckets.take (j + 1))) = false
  | _, [], i => by simp [selectIndex]
  | total, percentage :: rest, i => by
    have ih := selectIndex_eq_some_iff hadd assigned (PercentageArith.add total percentage.percentage) rest
    unfold selectIndex
    rw [hadd percentage.percentage total]
    have hfirst : runningTotal total ((percentage :: rest).take 1) =
        PercentageArith.add total percentage.percentage := rfl
    have hnext : ∀ k, runningTotal total ((percentage :: rest).take (k + 1 + 1)) =
        runningTotal (PercentageArith.add total percentage.percentage) (rest.take (k + 1)) := fun _ => rfl
    split
    · rename_i hlt
      constructor
      · rintro ⟨⟩
        exact ⟨Nat.succ_pos _, by rw [hfirst]; exact hlt, fun j hj => absurd hj (Nat.not_lt_zero j)⟩
      · rintro ⟨-, -, hbefore⟩
        cases i with
        | zero => rfl
        | succ i =>
          have := hbefore 0 (Nat.succ_pos i)
          rw [hfirst, hlt] at this
          cases this
    · rename_i hlt
      rw [Bool.not_eq_true] at hlt
      cases i with
      | zero =>
        constructor
        · intro h
          cases hs : selectIndex assigned (PercentageArith.add total percentage.percentage) rest <;>
            rw [hs] at h <;> cases h
        · rintro ⟨-, h, -⟩
          rw [hfirst, hlt] at h
          cases h
      | succ i =>
        have hmap : (selectIndex assigned (PercentageArith.add total percentage.percentage) rest).map (· + 1) =
            some (i + 1) ↔
            selectIndex assigned (PercentageArith.add total percentage.percentage) rest = some i := by
          cases selectIndex assigned (PercentageArith.add total percentage.percentage) rest <;> simp
        rw [hmap, ih i, List.length_cons, Nat.add_lt_add_iff_right, hnext]
        refine and_congr_right fun _ => and_congr_right fun _ => ?_
        constructor
        · intro h j hj
          cases j with
          | zero => rw [hfirst]; exact hlt
          | succ j => rw [hnext]; exact h j (by omega)
        · intro h j hj
          have := h (j + 1) (by omega)
          rw [hnext] at this
          exact this

end Loop

/-! ## The drift of the binary64 totals -/

/-- The binary64 number nearest to a number of tenths. -/
def nearestTenth (t : ℕ) : PyFloat := PyFloat.ofRat ((t : ℚ) / 10)

/-- What one rounding of a number below 128 is off by, at most. -/
def drift : ℚ := (2 : ℚ) ^ (-47 : ℤ)

theorem drift_pos : 0 < drift := by unfold drift; positivity

theorem drift_small : 2001 * (2 * drift) < 1 / 10 := by unfold drift; norm_num

theorem round_drift {q : ℚ} (h0 : 0 ≤ q) (hlt : q < 128) :
    ∃ x : Binary64, PyFloat.ofRat q = .finite x ∧ 0 ≤ x.toRat ∧ |x.toRat - q| ≤ drift :=
  ofRat_bound h0 (k := 7) (by norm_num; exact hlt) (by norm_num) (by norm_num)

/-- A slot is off by one rounding. -/
theorem tenths_drift {n : ℕ} (hn : n ≤ 1000) :
    ∃ x : Binary64, PercentageArith.tenths n = PyFloat.finite x ∧ |x.toRat - (n : ℚ) / 10| ≤ drift := by
  have hn' : (n : ℚ) ≤ 1000 := by exact_mod_cast hn
  obtain ⟨y, hy, hval⟩ : ∃ y : Binary64, PyFloat.ofRat n = .finite y ∧ y.toRat = n :=
    ofRat_exact (by positivity) (k := 10) (m := n) (e := 0) (by norm_num; linarith) (by norm_num) (by norm_num)
      (by omega) (by norm_num) (by simp)
  show ∃ x : Binary64, (PyFloat.ofRat n).divTen = .finite x ∧ _
  have hdiv : (PyFloat.finite y).divTen = if y.mant = 0 then .finite y else .ofRat (y.toRat / 10) := rfl
  rw [hy, hdiv]
  split
  · rename_i hzero
    have : (n : ℚ) = 0 := by rw [← hval]; exact (y.mant_eq_zero_iff).1 hzero
    exact ⟨y, rfl, by rw [hval, this]; simp [drift_pos.le]⟩
  · rw [hval]
    obtain ⟨x, hx, -, hb⟩ := round_drift (q := (n : ℚ) / 10) (by positivity) (by linarith)
    exact ⟨x, hx, hb⟩

/-- One bucket: a bucket of 0% adds no drift, any other at most two roundings. -/
theorem add_drift {x : Binary64} {done t : ℕ} (h0 : 0 ≤ x.toRat) (hsum : done + t ≤ 1000)
    (hx : |x.toRat - (done : ℚ) / 10| ≤ done * (2 * drift)) :
    ∃ y : Binary64, (PyFloat.finite x).add (nearestTenth t) = .finite y ∧ 0 ≤ y.toRat ∧
      |y.toRat - ((done + t : ℕ) : ℚ) / 10| ≤ ((done + t : ℕ) : ℚ) * (2 * drift) := by
  have hd := drift_pos
  have hs := drift_small
  have hsum' : (done : ℚ) + t ≤ 1000 := by exact_mod_cast hsum
  have hdone : (done : ℚ) * (2 * drift) ≤ 1000 * (2 * drift) := by
    have : (0 : ℚ) ≤ t := by positivity
    exact mul_le_mul_of_nonneg_right (by linarith) (by linarith)
  have hxle : x.toRat ≤ (done : ℚ) / 10 + 1 / 10 := by
    have := (abs_le.1 hx).2
    linarith
  rcases Nat.eq_zero_or_pos t with rfl | ht
  · have hzero : nearestTenth 0 = .finite (.zero false) := by
      unfold nearestTenth
      rw [Nat.cast_zero, zero_div, ofRat_zero]
    have hlt : x.toRat < 2 ^ 7 := by
      have : (done : ℚ) ≤ 1000 := by exact_mod_cast hsum
      linarith
    rw [hzero]
    obtain ⟨y, hy, hval⟩ := add_zero_value h0 hlt false
    exact ⟨y, hy, by rw [hval]; exact h0, by rw [hval, Nat.add_zero]; exact hx⟩
  · have ht' : (1 : ℚ) ≤ t := by exact_mod_cast ht
    have hdone0 : (0 : ℚ) ≤ done := by positivity
    obtain ⟨z, hz, hz0, hzb⟩ := round_drift (q := (t : ℚ) / 10) (by positivity) (by linarith)
    have hzpos : z.toRat ≠ 0 := by
      have := (abs_le.1 hzb).1
      intro h
      linarith
    have hzle : z.toRat ≤ (t : ℚ) / 10 + 1 / 10 := by
      have := (abs_le.1 hzb).2
      linarith
    obtain ⟨y, hy, hy0, hyb⟩ := round_drift (q := x.toRat + z.toRat) (by linarith) (by linarith)
    refine ⟨y, ?_, hy0, ?_⟩
    · unfold nearestTenth
      rw [hz, PyFloat.add_finite, if_neg fun h => hzpos (z.mant_eq_zero_iff.1 h.2), hy]
    · push_cast
      have hgrow : (done : ℚ) * (2 * drift) + 2 * drift ≤ ((done : ℚ) + t) * (2 * drift) := by
        have hone : 2 * drift ≤ t * (2 * drift) := le_mul_of_one_le_left (by linarith) ht'
        rw [add_mul]
        linarith
      rw [abs_le] at hx hzb hyb ⊢
      constructor <;> linarith [hx.1, hx.2, hzb.1, hzb.2, hyb.1, hyb.2]

/-- A run of buckets. -/
theorem runningTotal_drift : ∀ (tenths : List ℕ) (buckets : List (Percentage PyFloat)) (x : Binary64) (done : ℕ),
    buckets.map Percentage.percentage = tenths.map nearestTenth → done + tenths.sum ≤ 1000 → 0 ≤ x.toRat →
    |x.toRat - (done : ℚ) / 10| ≤ done * (2 * drift) →
    ∃ y : Binary64, runningTotal (PyFloat.finite x) buckets = .finite y ∧
      |y.toRat - ((done + tenths.sum : ℕ) : ℚ) / 10| ≤ ((done + tenths.sum : ℕ) : ℚ) * (2 * drift)
  | [], [], x, done, _, _, _, hx => ⟨x, rfl, by simpa using hx⟩
  | [], _ :: _, _, _, h, _, _, _ => by cases h
  | _ :: _, [], _, _, h, _, _, _ => by cases h
  | t :: tenths, bucket :: buckets, x, done, h, hsum, h0, hx => by
    rw [List.map_cons, List.map_cons, List.cons.injEq] at h
    rw [List.sum_cons] at hsum
    obtain ⟨y, hy, hy0, hyb⟩ := add_drift (t := t) h0 (by omega) hx
    obtain ⟨z, hz, hzb⟩ := runningTotal_drift tenths buckets y (done + t) h.2 (by omega) hy0 hyb
    refine ⟨z, ?_, ?_⟩
    · rw [← hz]
      show runningTotal ((PyFloat.finite x).add bucket.percentage) buckets = _
      rw [h.1, hy]
    · rw [List.sum_cons, ← Nat.add_assoc]
      exact hzb

/-! ## Exact shares -/

section Shares

variable {tenths : List ℕ} {buckets : List (Percentage PyFloat)}

/-- The buckets carry the percentages nearest to these tenths, which sum to at most 100%. -/
structure Nearest (tenths : List ℕ) (buckets : List (Percentage PyFloat)) : Prop where
  percentages : buckets.map Percentage.percentage = tenths.map nearestTenth
  sum_le : tenths.sum ≤ 1000

/-- The tenths of the first `k` buckets. -/
def boundary (tenths : List ℕ) (k : ℕ) : ℕ := (tenths.take k).sum

theorem boundary_succ {i : ℕ} (h : i < tenths.length) : boundary tenths (i + 1) = boundary tenths i + tenths[i] := by
  unfold boundary
  rw [List.take_succ_eq_append_getElem h, List.sum_append, List.sum_singleton]

theorem boundary_mono {i j : ℕ} (h : i ≤ j) : boundary tenths i ≤ boundary tenths j := by
  unfold boundary
  have : tenths.take i = (tenths.take j).take i := by rw [List.take_take, Nat.min_eq_left h]
  rw [this]
  exact List.Sublist.sum_le_sum (List.take_sublist i _) fun _ _ => Nat.zero_le _

theorem boundary_le_sum (k : ℕ) : boundary tenths k ≤ tenths.sum :=
  List.Sublist.sum_le_sum (List.take_sublist k _) fun _ _ => Nat.zero_le _

theorem Nearest.length_eq (h : Nearest tenths buckets) : buckets.length = tenths.length := by
  have := congrArg List.length h.percentages
  simpa using this

theorem Nearest.total_drift (h : Nearest tenths buckets) (k : ℕ) :
    ∃ y : Binary64, runningTotal PercentageArith.zero (buckets.take k) = PyFloat.finite y ∧
      |y.toRat - (boundary tenths k : ℚ) / 10| ≤ 1000 * (2 * drift) := by
  have hp : (buckets.take k).map Percentage.percentage = (tenths.take k).map nearestTenth := by
    rw [List.map_take, List.map_take, h.percentages]
  have hle : boundary tenths k ≤ 1000 := (boundary_le_sum k).trans h.sum_le
  obtain ⟨y, hy, hb⟩ := runningTotal_drift (tenths.take k) (buckets.take k) (.zero false) 0 hp
    (by rw [Nat.zero_add]; exact hle) (by simp) (by simp)
  refine ⟨y, hy, ?_⟩
  rw [Nat.zero_add] at hb
  have hle' : (boundary tenths k : ℚ) ≤ 1000 := by exact_mod_cast hle
  have hd := drift_pos
  calc |y.toRat - (boundary tenths k : ℚ) / 10| ≤ (boundary tenths k : ℚ) * (2 * drift) := hb
    _ ≤ 1000 * (2 * drift) := by nlinarith

/-- Off a boundary the comparison is the exact one. -/
theorem Nearest.lt_iff_of_ne (h : Nearest tenths buckets) {n k : ℕ} (hn : n < 1000)
    (hne : n ≠ boundary tenths k) :
    PercentageArith.lt (PercentageArith.tenths n) (runningTotal PercentageArith.zero (buckets.take k)) = true ↔
      n < boundary tenths k := by
  obtain ⟨y, hy, hyb⟩ := h.total_drift k
  obtain ⟨x, hx, hxb⟩ := tenths_drift hn.le
  have hs := drift_small
  have hd := drift_pos
  rw [hx, hy]
  show decide (x.toRat < y.toRat) = true ↔ _
  rw [decide_eq_true_iff]
  rw [abs_le] at hxb hyb
  -- slot and boundary are at least a tenth apart, which all the drift together does not make up
  rcases lt_or_gt_of_ne hne with hlt | hgt
  · have : (n : ℚ) + 1 ≤ boundary tenths k := by exact_mod_cast hlt
    exact ⟨fun _ => hlt, fun _ => by linarith⟩
  · have : (boundary tenths k : ℚ) + 1 ≤ n := by exact_mod_cast hgt
    exact ⟨fun hc => by linarith, fun hc => by omega⟩

/-- Bucket `i` is selected for the slots from the tenths before it up to those with it: for exactly
as many of the 1000 slots as it has tenths. -/
structure ExactShares (tenths : List ℕ) (buckets : List (Percentage PyFloat)) : Prop where
  selected : ∀ n < 1000, ∀ i, selectIndex (PercentageArith.tenths n) PercentageArith.zero buckets = some i ↔
    i < buckets.length ∧ boundary tenths i ≤ n ∧ n < boundary tenths (i + 1)
  count : ∀ (i : ℕ) (h : i < tenths.length), ((Finset.range 1000).filter fun n =>
    selectIndex (PercentageArith.tenths n) PercentageArith.zero buckets = some i).card = tenths[i]

/-- No running total exceeds the slot on the boundary it stands for. -/
def NoTotalAbove (tenths : List ℕ) (buckets : List (Percentage PyFloat)) : Prop :=
  ∀ k ≤ buckets.length, boundary tenths k < 1000 →
    PercentageArith.lt (PercentageArith.tenths (boundary tenths k))
      (runningTotal PercentageArith.zero (buckets.take k)) = false

instance : Decidable (NoTotalAbove tenths buckets) :=
  inferInstanceAs (Decidable (∀ k ≤ buckets.length, boundary tenths k < 1000 → _))

theorem Nearest.lt_iff (h : Nearest tenths buckets) (hno : NoTotalAbove tenths buckets) {n k : ℕ}
    (hn : n < 1000) (hk : k ≤ buckets.length) :
    PercentageArith.lt (PercentageArith.tenths n) (runningTotal PercentageArith.zero (buckets.take k)) = true ↔
      n < boundary tenths k := by
  by_cases hne : n = boundary tenths k
  · have := hno k hk (hne ▸ hn)
    rw [hne, this]
    simp
  · exact h.lt_iff_of_ne hn hne

theorem Nearest.selected_of (h : Nearest tenths buckets) (hno : NoTotalAbove tenths buckets) {n : ℕ}
    (hn : n < 1000) (i : ℕ) :
    selectIndex (PercentageArith.tenths n) PercentageArith.zero buckets = some i ↔
      i < buckets.length ∧ boundary tenths i ≤ n ∧ n < boundary tenths (i + 1) := by
  rw [selectIndex_eq_some_iff PyFloat.add_symm]
  refine and_congr_right fun hi => ?_
  rw [h.lt_iff hno hn hi]
  constructor
  · rintro ⟨hlt, hbefore⟩
    refine ⟨?_, hlt⟩
    cases i with
    | zero => exact Nat.zero_le _
    | succ i =>
      have hlast := hbefore i (Nat.lt_succ_self i)
      rw [← Bool.not_eq_true, h.lt_iff hno hn (by omega)] at hlast
      exact Nat.le_of_not_lt hlast
  · rintro ⟨hle, hlt⟩
    refine ⟨hlt, fun j hj => ?_⟩
    rw [← Bool.not_eq_true, h.lt_iff hno hn (by omega)]
    exact Nat.not_lt.2 ((boundary_mono hj).trans hle)

theorem Nearest.count_of (h : Nearest tenths buckets) (hno : NoTotalAbove tenths buckets) {i : ℕ}
    (hi : i < tenths.length) : ((Finset.range 1000).filter fun n =>
      selectIndex (PercentageArith.tenths n) PercentageArith.zero buckets = some i).card = tenths[i] := by
  have hset : ((Finset.range 1000).filter fun n =>
      selectIndex (PercentageArith.tenths n) PercentageArith.zero buckets = some i) =
      Finset.Ico (boundary tenths i) (boundary tenths (i + 1)) := by
    ext n
    rw [Finset.mem_filter, Finset.mem_range, Finset.mem_Ico]
    constructor
    · rintro ⟨hn, hsel⟩
      exact ((h.selected_of hno hn i).1 hsel).2
    · rintro ⟨hle, hlt⟩
      have hn : n < 1000 := hlt.trans_le ((boundary_le_sum _).trans h.sum_le)
      exact ⟨hn, (h.selected_of hno hn i).2 ⟨h.length_eq ▸ hi, hle, hlt⟩⟩
  rw [hset, Nat.card_Ico, boundary_succ hi]
  omega

/-- The slot of context without drift is zero, and no total is below it. -/
theorem not_lt_zero_total : PercentageArith.lt (PercentageArith.tenths 0)
    (runningTotal PercentageArith.zero ([] : List (Percentage PyFloat))) = false := by decide +kernel

/-- A total above the slot on its boundary gives that slot to a bucket before it. -/
theorem selects_before {n k : ℕ} (hk : k ≤ buckets.length) (hn : n = boundary tenths k)
    (hlt : PercentageArith.lt (PercentageArith.tenths n)
      (runningTotal PercentageArith.zero (buckets.take k)) = true) :
    ∃ j < k, selectIndex (PercentageArith.tenths n) PercentageArith.zero buckets = some j := by
  have hpos : k ≠ 0 := by
    rintro rfl
    subst hn
    rw [List.take_zero] at hlt
    exact absurd (hlt.symm.trans not_lt_zero_total) (by decide)
  obtain ⟨k, rfl⟩ := Nat.exists_eq_succ_of_ne_zero hpos
  have hex : ∃ j, PercentageArith.lt (PercentageArith.tenths n)
      (runningTotal PercentageArith.zero (buckets.take (j + 1))) = true := ⟨k, hlt⟩
  -- the loop stops at the first total above the slot, which is this one or an earlier one
  have hle : Nat.find hex ≤ k := Nat.find_min' hex hlt
  refine ⟨Nat.find hex, Nat.lt_succ_of_le hle, ?_⟩
  rw [selectIndex_eq_some_iff PyFloat.add_symm]
  refine ⟨by omega, Nat.find_spec hex, fun j hj => ?_⟩
  rw [← Bool.not_eq_true]
  exact Nat.find_min hex hj

/-- The shares are exact if and only if no running total exceeds the slot on its boundary. -/
theorem exactShares_iff (tenths : List ℕ) (buckets : List (Percentage PyFloat)) (h : Nearest tenths buckets) :
    ExactShares tenths buckets ↔ NoTotalAbove tenths buckets := by
  constructor
  · intro hexact k hk hlt
    rw [← Bool.not_eq_true]
    intro habove
    -- the slot on the boundary goes to a bucket that ends there
    obtain ⟨j, hj, hsel⟩ := selects_before hk rfl habove
    obtain ⟨-, -, hbelow⟩ := (hexact.selected _ hlt j).1 hsel
    exact absurd (boundary_mono hj) (Nat.not_le.2 hbelow)
  · intro hno
    exact ⟨fun n hn i => h.selected_of hno hn i, fun i hi => h.count_of hno hi⟩

/-- A bucket with a value of its own. -/
def bucketOf (t : ℕ) : Percentage PyFloat :=
  { id := natText t, percentage := nearestTenth t, value := some (.int t), valueId := none }

theorem exactShares_halves : ExactShares [500, 500] [bucketOf 500, bucketOf 500] :=
  (exactShares_iff _ _ ⟨rfl, by decide⟩).2 (by decide +kernel)

/-- Three buckets of 0.1% total `0.30000000000000004`, so the third one takes slot 3. -/
theorem shares_not_exact : ¬ ∀ (tenths : List ℕ) (buckets : List (Percentage PyFloat)), Nearest tenths buckets →
    (∀ bucket ∈ buckets, bucket.value.isSome) → ExactShares tenths buckets := by
  intro h
  have hexact := h [1, 1, 1] [bucketOf 1, bucketOf 1, bucketOf 1] ⟨rfl, by decide⟩ (by decide)
  have hsel : selectIndex (PercentageArith.tenths 3) PercentageArith.zero [bucketOf 1, bucketOf 1, bucketOf 1] =
      some 2 := by decide +kernel
  exact absurd ((hexact.selected 3 (by decide) 2).1 hsel).2.2 (by decide)

end Shares

end ConfigDirector.Evaluation
