/-
`collections`: a bounded `deque` keeps the last items appended to it, and a `Counter` keeps the first
of equal items with how many there are, in the order they are first seen.
-/
import ConfigDirector.Python.Dict
import Mathlib.Data.List.Induction
import Mathlib.Data.List.Dedup
import Mathlib.Algebra.BigOperators.Group.List.Lemmas
import Mathlib.Algebra.GroupWithZero.Nat

namespace Python

variable {α κ : Type}

/-! ## `deque` -/

/-- The last `n` items. -/
def lastItems (n : ℕ) (l : List α) : List α := l.drop (l.length - n)

theorem length_lastItems (n : ℕ) (l : List α) : (lastItems n l).length = min l.length n := by
  rw [lastItems, List.length_drop]
  omega

/-- The last items are among the last items of what they are the last items of. -/
theorem lastItems_append_lastItems (n : ℕ) (l : List α) (x : α) :
    lastItems n (lastItems n l ++ [x]) = lastItems n (l ++ [x]) := by
  have hlength := length_lastItems n l
  rw [lastItems, List.length_append, hlength, lastItems, lastItems, ← List.drop_append_of_le_length (Nat.sub_le _ _),
    List.drop_drop, List.length_append, List.length_singleton]
  congr 1
  omega

/-- `deque(maxlen=…)`: never longer than that. -/
structure Deque (α : Type) (maxlen : ℕ) where
  items : List α
  bounded : items.length ≤ maxlen

namespace Deque

variable {maxlen : ℕ}

def empty : Deque α maxlen := ⟨[], Nat.zero_le _⟩

/-- `append`: a full one discards from the left. -/
def append (d : Deque α maxlen) (x : α) : Deque α maxlen :=
  if h : d.items.length = maxlen then ⟨(d.items ++ [x]).drop 1, by simp [h]⟩
  else ⟨d.items ++ [x], by have := d.bounded; rw [List.length_append, List.length_singleton]; omega⟩

theorem items_append (d : Deque α maxlen) (x : α) : (d.append x).items = lastItems maxlen (d.items ++ [x]) := by
  have hbounded := d.bounded
  rw [lastItems, List.length_append, List.length_singleton]
  unfold append
  split
  · rename_i hfull
    rw [hfull, Nat.add_sub_cancel_left]
  · rename_i hroom
    rw [Nat.sub_eq_zero_of_le (by omega), List.drop_zero]

/-- What holds the last items of what was appended goes on to. -/
theorem append_items {d : Deque α maxlen} {l : List α} (h : d.items = lastItems maxlen l) (x : α) :
    (d.append x).items = lastItems maxlen (l ++ [x]) := by
  rw [items_append, h, lastItems_append_lastItems]

theorem mem_append {d : Deque α maxlen} {x y : α} (h : y ∈ (d.append x).items) : y ∈ d.items ∨ y = x := by
  have hmem : y ∈ d.items ++ [x] := by
    unfold append at h
    split at h
    · exact List.mem_of_mem_drop h
    · exact h
  rwa [List.mem_append, List.mem_singleton] at hmem

end Deque

/-! ## Distinct items -/

section Distinct

variable [BEq κ] [LawfulBEq κ]

theorem eraseDups_concat (l : List κ) (x : κ) :
    (l ++ [x]).eraseDups = if x ∈ l then l.eraseDups else l.eraseDups ++ [x] := by
  rw [List.eraseDups_append]
  by_cases hx : x ∈ l
  · have hnew : [x].removeAll l = [] := by
      rw [List.removeAll, List.filter_singleton]
      simp only [List.elem_eq_mem, hx, decide_true, Bool.not_true, cond_false]
    rw [if_pos hx, hnew, List.eraseDups_nil, List.append_nil]
  · have hnew : [x].removeAll l = [x] := by
      rw [List.removeAll, List.filter_singleton]
      simp only [List.elem_eq_mem, hx, decide_false, Bool.not_false, cond_true]
    rw [if_neg hx, hnew]
    rfl

/-- The first `n` distinct items when one more comes. -/
theorem take_eraseDups_concat (n : ℕ) (l : List κ) (x : κ) : (l ++ [x]).eraseDups.take n =
    if x ∈ l.eraseDups.take n ∨ n ≤ (l.eraseDups.take n).length then l.eraseDups.take n
    else l.eraseDups.take n ++ [x] := by
  rw [eraseDups_concat]
  have hlength := List.length_take (i := n) (l := l.eraseDups)
  by_cases hfull : n ≤ (l.eraseDups.take n).length
  · have hkept : x ∈ l.eraseDups.take n ∨ n ≤ (l.eraseDups.take n).length := .inr hfull
    rw [if_pos hkept]
    split
    · rfl
    · rw [List.take_append_of_le_length (by omega)]
  · have hall : l.eraseDups.take n = l.eraseDups := List.take_of_length_le (by omega)
    rw [hall] at hfull ⊢
    simp only [List.mem_eraseDups, hfull, or_false]
    split
    · exact hall
    · rw [List.take_of_length_le]
      rw [List.length_append, List.length_singleton]
      omega

end Distinct

/-! ## `Counter` -/

section Counter

variable [DecidableEq κ] (key : α → κ)

/-- One more item: items with the same key are equal. -/
def countOne (counts : Dict κ (α × ℕ)) (x : α) : Dict κ (α × ℕ) :=
  match counts.get? (key x) with
  | some (first, n) => counts.set (key x) (first, n + 1)
  | none => counts.set (key x) (x, 1)

/-- `Counter(items)`: the first of equal items with how many there are. -/
def counter (l : List α) : Dict κ (α × ℕ) := l.foldl (countOne key) ∅

/-- The items with their numbers, as `items()` lists them. -/
def tally (l : List α) : List (α × ℕ) := (counter key l).entries.map Prod.snd

/-- What the entries say of the items: pairwise different, in the order first seen, and each as often
as there are items equal to it. -/
structure Tallies (l : List α) (entries : List (α × ℕ)) : Prop where
  distinct : (entries.map fun p => key p.1).Nodup
  firstSeen : (entries.map fun p => key p.1) = (l.map key).eraseDups
  counted : ∀ p ∈ entries, l.find? (fun x => key x = key p.1) = some p.1 ∧ p.2 = l.countP fun x => key x = key p.1

theorem counter_concat (l : List α) (x : α) : counter key (l ++ [x]) = countOne key (counter key l) x := by
  unfold counter
  rw [List.foldl_append]
  rfl

theorem get?_countOne (counts : Dict κ (α × ℕ)) (x : α) (k : κ) : (countOne key counts x).get? k =
    if k = key x then some (match counts.get? (key x) with | some (first, n) => (first, n + 1) | none => (x, 1))
    else counts.get? k := by
  unfold countOne
  cases counts.get? (key x) with
  | none => exact Dict.get?_set ..
  | some p => exact Dict.get?_set ..

/-- What the counter holds for a key: the first item with it, and how many there are. -/
theorem get?_counter (l : List α) (k : κ) : (counter key l).get? k =
    (l.find? fun x => key x = k).map fun first => (first, l.countP fun x => key x = k) := by
  induction l using List.reverseRecOn with
  | nil => rfl
  | append_singleton l x ih =>
    rw [counter_concat, get?_countOne, List.find?_append, List.countP_append]
    by_cases hk : k = key x
    · subst hk
      rw [if_pos rfl, ih]
      cases hfind : l.find? fun y => key y = key x with
      | none =>
        have hzero : (l.countP fun y => key y = key x) = 0 := List.countP_eq_zero.2 (List.find?_eq_none.1 hfind)
        simp [hzero]
      | some first => simp
    · have hx : ¬ key x = k := fun h => hk h.symm
      rw [if_neg hk, ih]
      simp [hx]

theorem keys_countOne (counts : Dict κ (α × ℕ)) (x : α) : (countOne key counts x).keys =
    if key x ∈ counts.keys then counts.keys else counts.keys ++ [key x] := by
  unfold countOne
  cases counts.get? (key x) with
  | none => exact Dict.keys_set ..
  | some p => exact Dict.keys_set ..

theorem keys_counter (l : List α) : (counter key l).keys = (l.map key).eraseDups := by
  induction l using List.reverseRecOn with
  | nil => rfl
  | append_singleton l x ih =>
    rw [counter_concat, keys_countOne, ih, List.map_append, List.map_singleton, eraseDups_concat]
    simp only [List.mem_eraseDups]

theorem tallies_tally (l : List α) : Tallies key l (tally key l) := by
  -- an entry is filed under the key of its item
  have hentry : ∀ p ∈ (counter key l).entries, (l.find? fun x => key x = p.1) = some p.2.1 ∧
      (p.2.2 = l.countP fun x => key x = p.1) ∧ key p.2.1 = p.1 := by
    rintro ⟨k, first, n⟩ hp
    have hget := (Dict.get?_eq_some_iff _ _ _).2 hp
    rw [get?_counter, Option.map_eq_some_iff] at hget
    obtain ⟨x, hfind, heq⟩ := hget
    cases heq
    exact ⟨hfind, rfl, by simpa using List.find?_some hfind⟩
  have hkeys : ((tally key l).map fun p => key p.1) = (counter key l).keys := by
    unfold tally Dict.keys
    rw [List.map_map]
    apply List.map_congr_left
    intro p hp
    exact (hentry p hp).2.2
  refine ⟨?_, ?_, ?_⟩
  · rw [hkeys]
    exact Dict.keys_nodup _
  · rw [hkeys, keys_counter]
  · intro p hp
    obtain ⟨q, hq, rfl⟩ := List.mem_map.1 hp
    obtain ⟨hfind, hcount, hkey⟩ := hentry q hq
    rw [hkey]
    exact ⟨hfind, hcount⟩

/-- The numbers of a tally add up to the number of items. -/
theorem Tallies.sum {l : List α} {entries : List (α × ℕ)} (h : Tallies key l entries) :
    (entries.map Prod.snd).sum = l.length := by
  have hcounts : entries.map Prod.snd = (l.map key).eraseDups.map fun k => (l.map key).count k := by
    rw [← h.firstSeen, List.map_map]
    apply List.map_congr_left
    intro p hp
    rw [(h.counted p hp).2, Function.comp_apply, List.count, List.countP_map]
    apply List.countP_congr
    intro x _
    simp
  have hperm : (l.map key).eraseDups.Perm (l.map key).dedup := by
    rw [List.perm_ext_iff_of_nodup (h.firstSeen ▸ h.distinct) (List.nodup_dedup _)]
    intro k
    rw [List.mem_eraseDups, List.mem_dedup]
  rw [hcounts, (hperm.map _).sum_eq, List.sum_map_count_dedup_eq_length, List.length_map]

end Counter

end Python
