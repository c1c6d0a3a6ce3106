/-
The order of lists: what sorting by a key does to one item and to two lists at once, and what the
order of groups and of their items means for a question that stops at the first item deciding it.
-/
import ConfigDirector.Python.Raise
import Mathlib.Data.List.Sort
import Mathlib.Data.List.Forall2

namespace Python

/-! ## Sorting by a key -/

section Sorting

variable {β κ : Type} [LinearOrder κ]

/-- Items with the same key are sorted to the same place. -/
theorem insertionSort_replace (key : β → κ) (before after : List β) {x y : β} (hxy : key x = key y) :
    ∃ earlier later,
      (before ++ x :: after).insertionSort (key · ≤ key ·) = earlier ++ x :: later ∧
      (before ++ y :: after).insertionSort (key · ≤ key ·) = earlier ++ y :: later := by
  -- sort with a hole, once for both items
  let holed : List (Option β) := before.map some ++ none :: after.map some
  let keyOr : Option β → κ := fun o => key (o.getD x)
  have hfill : ∀ z, key z = key x → (before ++ z :: after).insertionSort (key · ≤ key ·) =
      (holed.insertionSort (keyOr · ≤ keyOr ·)).map (·.getD z) := by
    intro z hz
    have hmap : holed.map (·.getD z) = before ++ z :: after := by simp [holed, Function.comp_def]
    rw [← hmap]
    symm
    apply List.map_insertionSort
    intro a _ b _
    cases a <;> cases b <;> simp [keyOr, hz]
  have hperm := List.perm_insertionSort (keyOr · ≤ keyOr ·) holed
  have hmem : none ∈ holed.insertionSort (keyOr · ≤ keyOr ·) := by
    rw [List.mem_insertionSort]
    simp [holed]
  obtain ⟨earlier, later, hsplit⟩ := List.append_of_mem hmem
  have hfilled : ∀ l : List β, (l.map some).countP Option.isNone = 0 := by
    intro l
    rw [List.countP_eq_zero]
    simp
  have hcount : (earlier ++ none :: later).countP Option.isNone = 1 := by
    rw [← hsplit, hperm.countP_eq, List.countP_append, List.countP_cons, hfilled, hfilled]
    rfl
  rw [List.countP_append, List.countP_cons, Option.isNone_none, if_pos rfl] at hcount
  -- no other item is the hole, so both fillings agree around it
  have hagree : ∀ l : List (Option β), l.countP Option.isNone = 0 → l.map (·.getD y) = l.map (·.getD x) := by
    intro l hl
    apply List.map_congr_left
    intro o ho
    cases o with
    | none => exact absurd rfl (List.countP_eq_zero.1 hl none ho)
    | some b => rfl
  refine ⟨earlier.map (·.getD x), later.map (·.getD x), ?_, ?_⟩
  · rw [hfill x rfl, hsplit, List.map_append, List.map_cons]
    rfl
  · rw [hfill y hxy.symm, hsplit, List.map_append, List.map_cons, hagree earlier (by omega), hagree later (by omega)]
    rfl

/-- Sorting keeps two lists related item by item, if related items have the same key. -/
theorem forall₂_insertionSort (key : β → κ) {R : β → β → Prop} (hR : ∀ x y, R x y → key x = key y)
    {l l' : List β} (h : List.Forall₂ R l l') :
    List.Forall₂ R (l.insertionSort (key · ≤ key ·)) (l'.insertionSort (key · ≤ key ·)) := by
  have hinsert : ∀ x y, R x y → ∀ m m', List.Forall₂ R m m' →
      List.Forall₂ R (m.orderedInsert (key · ≤ key ·) x) (m'.orderedInsert (key · ≤ key ·) y) := by
    intro x y hxy m m' hm
    induction hm with
    | nil => exact .cons hxy .nil
    | @cons a b m m' hab hm ih =>
      rw [List.orderedInsert_cons, List.orderedInsert_cons, hR x y hxy, hR a b hab]
      split
      · exact .cons hxy (.cons hab hm)
      · exact .cons hab ih
  induction h with
  | nil => exact .nil
  | cons hxy _ ih => exact hinsert _ _ hxy _ _ ih

/-- What is left out of a sorted list is left out of the insertion too. -/
theorem filter_orderedInsert (key : β → κ) (p : β → Bool) (x : β) : ∀ {l : List β}, l.Pairwise (key · ≤ key ·) →
    (l.orderedInsert (key · ≤ key ·) x).filter p =
      if p x then (l.filter p).orderedInsert (key · ≤ key ·) x else l.filter p
  | [], _ => by
    rw [List.orderedInsert_nil, List.filter_cons]
    rfl
  | y :: l, h => by
    rw [List.pairwise_cons] at h
    have ih := filter_orderedInsert key p x h.2
    rw [List.orderedInsert_cons]
    by_cases hxy : key x ≤ key y
    · have hle : ∀ z ∈ (y :: l).filter p, key x ≤ key z := by
        intro z hz
        rcases List.mem_cons.1 (List.mem_of_mem_filter hz) with rfl | hz
        · exact hxy
        · exact hxy.trans (h.1 z hz)
      have hinsert : ((y :: l).filter p).orderedInsert (key · ≤ key ·) x = x :: (y :: l).filter p := by
        cases hl : (y :: l).filter p with
        | nil => rfl
        | cons z l' => exact List.orderedInsert_cons_of_le _ _ (hle z (hl ▸ List.mem_cons_self ..))
      rw [if_pos hxy, List.filter_cons, hinsert]
    · rw [if_neg hxy, List.filter_cons, List.filter_cons, ih]
      split_ifs with hy hx
      · exact (List.orderedInsert_of_not_le (key · ≤ key ·) _ hxy).symm
      · rfl
      · rfl
      · rfl

/-- Sorting keeps the order of what is kept of a list. -/
theorem filter_insertionSort (key : β → κ) (p : β → Bool) : ∀ l : List β,
    (l.insertionSort (key · ≤ key ·)).filter p = (l.filter p).insertionSort (key · ≤ key ·)
  | [] => rfl
  | x :: l => by
    have hsorted := List.pairwise_insertionSort (key · ≤ key ·) l
    rw [List.insertionSort_cons, filter_orderedInsert key p x hsorted, filter_insertionSort key p l, List.filter_cons]
    split_ifs
    · rfl
    · rfl

theorem findSome?_filter_isSome {γ : Type} (f : β → Option γ) : ∀ l : List β,
    (l.filter fun x => (f x).isSome).findSome? f = l.findSome? f
  | [] => rfl
  | x :: l => by
    rw [List.filter_cons, List.findSome?_cons]
    cases hx : f x with
    | none => exact findSome?_filter_isSome f l
    | some c => exact (List.findSome?_cons ..).trans (by rw [hx])

/-- What a function does not answer for can be left out before sorting. -/
theorem findSome?_insertionSort_filter {γ : Type} (key : β → κ) (f : β → Option γ) (l : List β) :
    (l.insertionSort (key · ≤ key ·)).findSome? f =
      ((l.filter fun x => (f x).isSome).insertionSort (key · ≤ key ·)).findSome? f := by
  rw [← filter_insertionSort, findSome?_filter_isSome]

/-- Of items that answer where all they need is there, the first to answer answers first with no more than it needs. -/
theorem findSome?_needing {γ ι : Type} [DecidableEq ι] (needs : β → List ι) (f : β → Option γ) (there : List ι) (l : List β) :
    (l.findSome? fun x => if needs x ⊆ there then f x else none) = l.findSome? (fun x => if needs x ⊆ [] then f x else none) ∨
    ∃ y ∈ l, (l.findSome? fun x => if needs x ⊆ there then f x else none) =
      l.findSome? fun x => if needs x ⊆ needs y then f x else none := by
  cases hfirst : l.findSome? fun x => if needs x ⊆ there then f x else none with
  | none =>
    left
    symm
    rw [List.findSome?_eq_none_iff] at hfirst ⊢
    intro x hx
    have hnone := hfirst x hx
    split
    · rename_i hnil
      rwa [if_pos (List.Subset.trans hnil (List.nil_subset there))] at hnone
    · rfl
  | some c =>
    obtain ⟨earlier, y, later, rfl, hy, hnone⟩ := List.findSome?_eq_some_iff.1 hfirst
    have hthere : needs y ⊆ there := by
      by_contra hneeds
      rw [if_neg hneeds] at hy
      cases hy
    rw [if_pos hthere] at hy
    refine .inr ⟨y, List.mem_append_right _ List.mem_cons_self, ?_⟩
    symm
    rw [List.findSome?_eq_some_iff]
    refine ⟨earlier, y, later, rfl, by rw [if_pos (List.Subset.refl _), hy], fun x hx => ?_⟩
    have hx' := hnone x hx
    split
    · rename_i hsubset
      rwa [if_pos (List.Subset.trans hsubset hthere)] at hx'
    · rfl

/-- The first answer over a sorted list: no item with a smaller key answers, nor one with the same key
that is earlier in the list. -/
theorem findSome?_insertionSort {γ : Type} (key : β → κ) {f : β → Option γ} {l : List β} {c : γ}
    (h : (l.insertionSort (key · ≤ key ·)).findSome? f = some c) :
    ∃ before x after, l = before ++ x :: after ∧ f x = some c ∧ (∀ y ∈ l, key y < key x → f y = none) ∧
      ∀ y ∈ before, key y = key x → f y = none := by
  obtain ⟨earlier, x, later, hsplit, hx, hnone⟩ := List.findSome?_eq_some_iff.1 h
  have hsorted := List.pairwise_insertionSort (key · ≤ key ·) l
  rw [hsplit, List.pairwise_append] at hsorted
  have hearlier : ∀ y ∈ l, key y < key x → y ∈ earlier := by
    intro y hy hlt
    rw [← List.mem_insertionSort (key · ≤ key ·), hsplit, List.mem_append, List.mem_cons] at hy
    rcases hy with hy | rfl | hy
    · exact hy
    · exact absurd hlt (lt_irrefl _)
    · exact absurd ((List.pairwise_cons.1 hsorted.2.1).1 y hy) (not_le.2 hlt)
  -- among the items with the key of the first answer, sorting changes nothing
  have hsame : l.filter (key · = key x) =
      earlier.filter (key · = key x) ++ x :: later.filter (key · = key x) := by
    have hfilter := filter_insertionSort key (key · = key x) l
    rw [hsplit, List.filter_append, List.filter_cons_of_pos (by simp)] at hfilter
    rw [hfilter]
    refine (List.Pairwise.insertionSort_eq ?_).symm
    refine List.pairwise_of_forall_mem_list fun y hy z hz => ?_
    rw [List.mem_filter, decide_eq_true_eq] at hy hz
    rw [hy.2, hz.2]
  obtain ⟨before, rest, rfl, hbefore, hrest⟩ := List.filter_eq_append_iff.1 hsame
  obtain ⟨skipped, after, rfl, hskipped, -, -⟩ := List.filter_eq_cons_iff.1 hrest
  refine ⟨before ++ skipped, x, after, by rw [List.append_assoc], hx, fun y hy hlt => hnone y (hearlier y hy hlt), ?_⟩
  intro y hy heq
  rcases List.mem_append.1 hy with hy | hy
  · refine hnone y (List.mem_of_mem_filter (p := fun z => decide (key z = key x)) ?_)
    rw [← hbefore, List.mem_filter]
    exact ⟨hy, decide_eq_true heq⟩
  · exact absurd (decide_eq_true heq) (hskipped y hy)

/-- A sorted list is known from its items of each key, in order. -/
theorem eq_of_filter_key (key : β → κ) : ∀ {l l' : List β}, l.Pairwise (key · ≤ key ·) → l'.Pairwise (key · ≤ key ·) →
    (∀ k, l.filter (key · = k) = l'.filter (key · = k)) → l = l'
  | [], [], _, _, _ => rfl
  | [], y :: l', _, _, h => by simpa using h (key y)
  | x :: l, [], _, _, h => by simpa using h (key x)
  | x :: l, y :: l', hl, hl', h => by
    have hmem : ∀ {z : β} {m m' : List β}, (∀ k, m.filter (key · = k) = m'.filter (key · = k)) → z ∈ m → z ∈ m' := by
      intro z m m' h hz
      have hz' : z ∈ m.filter (key · = key z) := List.mem_filter.2 ⟨hz, decide_eq_true rfl⟩
      rw [h] at hz'
      exact List.mem_of_mem_filter hz'
    rw [List.pairwise_cons] at hl hl'
    have hyx : key y ≤ key x := by
      rcases List.mem_cons.1 (hmem h (List.mem_cons_self ..)) with heq | hx
      · rw [heq]
      · exact hl'.1 x hx
    have hxy : key x ≤ key y := by
      rcases List.mem_cons.1 (hmem (fun k => (h k).symm) (List.mem_cons_self ..)) with heq | hy
      · rw [heq]
      · exact hl.1 y hy
    have hkey : key x = key y := le_antisymm hxy hyx
    have hhead := h (key x)
    rw [List.filter_cons_of_pos (by simp), List.filter_cons_of_pos (by simp [hkey])] at hhead
    obtain ⟨rfl, hsame⟩ := List.cons.inj hhead
    have htails : l = l' := by
      refine eq_of_filter_key key hl.2 hl'.2 fun k => ?_
      by_cases hk : key x = k
      · rw [← hk]
        exact hsame
      · have hrest := h k
        rwa [List.filter_cons_of_neg (by simpa using hk), List.filter_cons_of_neg (by simpa using hk)] at hrest
    rw [htails]

/-- Lists with the same items of each key, in order, are sorted alike. -/
theorem insertionSort_eq_of_filter_key (key : β → κ) {l l' : List β}
    (h : ∀ k, l.filter (key · = k) = l'.filter (key · = k)) :
    l.insertionSort (key · ≤ key ·) = l'.insertionSort (key · ≤ key ·) := by
  refine eq_of_filter_key key (List.pairwise_insertionSort _ l) (List.pairwise_insertionSort _ l') fun k => ?_
  rw [filter_insertionSort, filter_insertionSort, h k]

end Sorting

/-! ## Any of the groups of which all hold -/

section AnyAll

variable {ε α : Type}

/-- The same groups in any order, each with its items in any order. -/
def Regrouped (groups groups' : List (List α)) : Prop :=
  ∃ middle, groups.Perm middle ∧ List.Forall₂ List.Perm middle groups'

theorem Regrouped.refl (groups : List (List α)) : Regrouped groups groups :=
  ⟨groups, List.Perm.refl _, List.forall₂_same.2 fun _ _ => List.Perm.refl _⟩

theorem exists_perm_of_forall₂ {l l' : List (List α)} (h : List.Forall₂ List.Perm l l') :
    (∀ g ∈ l, ∃ g' ∈ l', g.Perm g') ∧ ∀ g' ∈ l', ∃ g ∈ l, g.Perm g' := by
  induction h with
  | nil => simp
  | @cons g g' l l' hgg' _ ih =>
    simp only [List.forall_mem_cons, List.exists_mem_cons_iff]
    exact ⟨⟨.inl hgg', fun x hx => .inr (ih.1 x hx)⟩, .inl hgg', fun x hx => .inr (ih.2 x hx)⟩

/-- Every group is one of the others up to the order of its items. -/
theorem Regrouped.exists_perm {groups groups' : List (List α)} (h : Regrouped groups groups') :
    (∀ g ∈ groups, ∃ g' ∈ groups', g.Perm g') ∧ ∀ g' ∈ groups', ∃ g ∈ groups, g.Perm g' := by
  obtain ⟨middle, hperm, hall⟩ := h
  obtain ⟨hleft, hright⟩ := exists_perm_of_forall₂ hall
  constructor
  · intro g hg
    exact hleft g (hperm.mem_iff.1 hg)
  · intro g' hg'
    obtain ⟨g, hg, hgg'⟩ := hright g' hg'
    exact ⟨g, hperm.mem_iff.2 hg, hgg'⟩

/-- Some group holds, decided group by group and item by item. -/
def anyAll (f : α → Except ε Bool) (groups : List (List α)) : Except ε Bool :=
  groups.anyM fun group => group.allM f

/-- Item by item, some item raises. -/
def SomeRaises (f : α → Except ε Bool) (groups : List (List α)) : Prop :=
  ∃ group ∈ groups, ∃ x ∈ group, ∃ e, f x = .error e

/-- Some group holds as a whole. -/
def SomeHolds (f : α → Except ε Bool) (groups : List (List α)) : Prop := ∃ group ∈ groups, ∀ x ∈ group, f x = .ok true

/-- Every group has an item that is false. -/
def EachFails (f : α → Except ε Bool) (groups : List (List α)) : Prop := ∀ group ∈ groups, ∃ x ∈ group, f x = .ok false

/-- The order cannot matter: where some item raises, the groups neither hold nor fail whatever it is. -/
def OrderFree (f : α → Except ε Bool) (groups : List (List α)) : Prop :=
  SomeRaises f groups → ¬ SomeHolds f groups ∧ ¬ EachFails f groups

variable {f : α → Except ε Bool} {groups groups' : List (List α)}

theorem Regrouped.someRaises_iff (h : Regrouped groups groups') : SomeRaises f groups ↔ SomeRaises f groups' := by
  obtain ⟨hto, hfrom⟩ := h.exists_perm
  constructor
  · rintro ⟨g, hg, x, hx, hraise⟩
    obtain ⟨g', hg', hperm⟩ := hto g hg
    exact ⟨g', hg', x, hperm.mem_iff.1 hx, hraise⟩
  · rintro ⟨g', hg', x, hx, hraise⟩
    obtain ⟨g, hg, hperm⟩ := hfrom g' hg'
    exact ⟨g, hg, x, hperm.mem_iff.2 hx, hraise⟩

theorem someHolds_of_anyAll_true (h : anyAll f groups = .ok true) : SomeHolds f groups := by
  obtain ⟨g, hg, hall⟩ := exists_of_anyM_eq_true h
  exact ⟨g, hg, allM_eq_true_iff.1 hall⟩

theorem eachFails_of_anyAll_false (h : anyAll f groups = .ok false) : EachFails f groups :=
  fun g hg => exists_of_allM_eq_false (anyM_eq_false_iff.1 h g hg)

theorem someRaises_of_anyAll_error {e : ε} (h : anyAll f groups = .error e) : SomeRaises f groups := by
  obtain ⟨g, hg, hall⟩ := exists_of_anyM_eq_error h
  obtain ⟨x, hx, hraise⟩ := exists_of_allM_eq_error hall
  exact ⟨g, hg, x, hx, e, hraise⟩

theorem SomeHolds.not_eachFails (h : SomeHolds f groups) : ¬ EachFails f groups := by
  obtain ⟨g, hg, hall⟩ := h
  intro hfails
  obtain ⟨x, hx, hfalse⟩ := hfails g hg
  rw [hall x hx] at hfalse
  cases hfalse

/-- A question that is answered is answered as the groups hold or fail. -/
theorem anyAll_eq_true_iff : anyAll f groups = .ok true ↔ (anyAll f groups).isOk = true ∧ SomeHolds f groups := by
  constructor
  · intro h
    exact ⟨by rw [h]; rfl, someHolds_of_anyAll_true h⟩
  · rintro ⟨hok, hholds⟩
    cases hany : anyAll f groups with
    | error e => rw [hany] at hok; cases hok
    | ok b =>
      cases b with
      | true => rfl
      | false => exact absurd (eachFails_of_anyAll_false hany) hholds.not_eachFails

theorem anyAll_eq_false_iff : anyAll f groups = .ok false ↔ (anyAll f groups).isOk = true ∧ EachFails f groups := by
  constructor
  · intro h
    exact ⟨by rw [h]; rfl, eachFails_of_anyAll_false h⟩
  · rintro ⟨hok, hfails⟩
    cases hany : anyAll f groups with
    | error e => rw [hany] at hok; cases hok
    | ok b =>
      cases b with
      | true => exact absurd hfails (someHolds_of_anyAll_true hany).not_eachFails
      | false => rfl

/-- Where the order cannot matter, groups that hold or fail are an answer. -/
theorem OrderFree.isOk (h : OrderFree f groups) (hsettled : SomeHolds f groups ∨ EachFails f groups) :
    (anyAll f groups).isOk = true := by
  cases hany : anyAll f groups with
  | ok b => rfl
  | error e =>
    obtain ⟨hholds, hfails⟩ := h (someRaises_of_anyAll_error hany)
    exact absurd hsettled (by rw [not_or]; exact ⟨hholds, hfails⟩)

/-- Neither holding nor failing depends on the order. -/
theorem Regrouped.someHolds_iff (h : Regrouped groups groups') : SomeHolds f groups ↔ SomeHolds f groups' := by
  obtain ⟨hto, hfrom⟩ := h.exists_perm
  constructor
  · rintro ⟨g, hg, hall⟩
    obtain ⟨g', hg', hperm⟩ := hto g hg
    exact ⟨g', hg', fun x hx => hall x (hperm.mem_iff.2 hx)⟩
  · rintro ⟨g', hg', hall⟩
    obtain ⟨g, hg, hperm⟩ := hfrom g' hg'
    exact ⟨g, hg, fun x hx => hall x (hperm.mem_iff.1 hx)⟩

theorem Regrouped.eachFails_iff (h : Regrouped groups groups') : EachFails f groups ↔ EachFails f groups' := by
  obtain ⟨hto, hfrom⟩ := h.exists_perm
  constructor
  · intro hfails g' hg'
    obtain ⟨g, hg, hperm⟩ := hfrom g' hg'
    obtain ⟨x, hx, hfalse⟩ := hfails g hg
    exact ⟨x, hperm.mem_iff.1 hx, hfalse⟩
  · intro hfails g hg
    obtain ⟨g', hg', hperm⟩ := hto g hg
    obtain ⟨x, hx, hfalse⟩ := hfails g' hg'
    exact ⟨x, hperm.mem_iff.2 hx, hfalse⟩

theorem OrderFree.regrouped (hfree : OrderFree f groups) (h : Regrouped groups groups') : OrderFree f groups' := by
  intro hraises
  rw [← h.someHolds_iff, ← h.eachFails_iff]
  exact hfree (h.someRaises_iff.2 hraises)

/-- An item that raises can be asked first. -/
theorem exists_regrouped_raising (h : SomeRaises f groups) :
    ∃ groups', Regrouped groups groups' ∧ (anyAll f groups').isOk = false := by
  obtain ⟨g, hg, x, hx, e, hraise⟩ := h
  obtain ⟨before, after, rfl⟩ := List.append_of_mem hg
  obtain ⟨init, rest, rfl⟩ := List.append_of_mem hx
  refine ⟨(x :: (init ++ rest)) :: (before ++ after), ⟨_, List.perm_middle, ?_⟩, ?_⟩
  · exact .cons List.perm_middle (List.forall₂_same.2 fun _ _ => List.Perm.refl _)
  · simp [anyAll, hraise, bind, Except.bind, Except.isOk, Except.toBool]

/-- A group that holds can be asked first. -/
theorem exists_regrouped_true (h : SomeHolds f groups) :
    ∃ groups', Regrouped groups groups' ∧ anyAll f groups' = .ok true := by
  obtain ⟨g, hg, hall⟩ := h
  obtain ⟨before, after, rfl⟩ := List.append_of_mem hg
  refine ⟨g :: (before ++ after), ⟨_, List.perm_middle, List.forall₂_same.2 fun _ _ => List.Perm.refl _⟩, ?_⟩
  rw [anyAll, List.anyM_cons, allM_eq_true_iff.2 hall]
  rfl

/-- In every group the item that is false can be asked first. -/
theorem exists_regrouped_false : ∀ groups : List (List α), (∀ g ∈ groups, ∃ x ∈ g, f x = .ok false) →
    ∃ groups', List.Forall₂ List.Perm groups groups' ∧ anyAll f groups' = .ok false
  | [], _ => ⟨[], .nil, rfl⟩
  | g :: groups, h => by
    rw [List.forall_mem_cons] at h
    obtain ⟨⟨x, hx, hfalse⟩, hrest⟩ := h
    obtain ⟨groups', hperm, hany⟩ := exists_regrouped_false groups hrest
    obtain ⟨init, rest, rfl⟩ := List.append_of_mem hx
    refine ⟨(x :: (init ++ rest)) :: groups', .cons List.perm_middle hperm, ?_⟩
    rw [anyAll, List.anyM_cons, List.allM_cons, hfalse]
    exact hany

/-- Otherwise there is an order in which the question is answered, and one in which it raises. -/
theorem exists_regrouped_isOk (h : ¬ OrderFree f groups) (answered : Bool) :
    ∃ groups', Regrouped groups groups' ∧ (anyAll f groups').isOk = answered := by
  unfold OrderFree at h
  push Not at h
  obtain ⟨hraises, hsettled⟩ := h
  cases answered with
  | false => exact exists_regrouped_raising hraises
  | true =>
    by_cases hholds : SomeHolds f groups
    · obtain ⟨groups', hregrouped, hany⟩ := exists_regrouped_true hholds
      exact ⟨groups', hregrouped, by rw [hany]; rfl⟩
    · obtain ⟨groups', hperm, hany⟩ := exists_regrouped_false groups (hsettled hholds)
      exact ⟨groups', ⟨groups, List.Perm.refl _, hperm⟩, by rw [hany]; rfl⟩

end AnyAll

end Python
