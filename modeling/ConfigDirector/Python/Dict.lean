/-
The insertion-ordered dictionary of the language: an association list whose keys are distinct.
Assigning to a present key keeps its place, a new key goes last, and iteration follows the list.
A lookup after any operation is given by one lemma for the operation, so that no later proof looks
at the list.
-/
import Mathlib.Algebra.GroupWithZero.Nat
import Mathlib.Data.List.Basic
import Mathlib.Data.List.Nodup

namespace Python

/-- A dictionary: its items in insertion order, no key twice. -/
structure Dict (κ ν : Type) where
  entries : List (κ × ν)
  nodup : (entries.map Prod.fst).Nodup

namespace Dict

variable {κ ν : Type} [DecidableEq κ]

/-! ## Association lists -/

/-- `d[k] = v` on the items. -/
def setEntries (k : κ) (v : ν) : List (κ × ν) → List (κ × ν)
  | [] => [(k, v)]
  | (k', v') :: rest => if k' = k then (k, v) :: rest else (k', v') :: setEntries k v rest

theorem mem_keys_setEntries (k j : κ) (v : ν) (l : List (κ × ν)) :
    j ∈ (setEntries k v l).map Prod.fst ↔ j ∈ l.map Prod.fst ∨ j = k := by
  induction l with
  | nil => simp [setEntries]
  | cons p l ih =>
    obtain ⟨k', v'⟩ := p
    unfold setEntries
    split
    · rename_i h
      subst h
      simp only [List.map_cons, List.mem_cons]
      tauto
    · simp only [List.map_cons, List.mem_cons, ih]
      tauto

theorem nodup_setEntries (k : κ) (v : ν) {l : List (κ × ν)} (h : (l.map Prod.fst).Nodup) :
    ((setEntries k v l).map Prod.fst).Nodup := by
  induction l with
  | nil => simp [setEntries]
  | cons p l ih =>
    obtain ⟨k', v'⟩ := p
    simp only [List.map_cons, List.nodup_cons] at h
    unfold setEntries
    split
    · rename_i e
      subst e
      simpa using h
    · rename_i e
      simp only [List.map_cons, List.nodup_cons, mem_keys_setEntries]
      refine ⟨?_, ih h.2⟩
      rintro (hm | rfl)
      · exact h.1 hm
      · exact e rfl

theorem mem_setEntries {k : κ} {v : ν} : ∀ {l : List (κ × ν)} {p : κ × ν}, p ∈ setEntries k v l → p = (k, v) ∨ p ∈ l
  | [], p, h => .inl (List.mem_singleton.1 h)
  | (k', v') :: l, p, h => by
    unfold setEntries at h
    split at h
    · rcases List.mem_cons.1 h with h | h
      · exact .inl h
      · exact .inr (List.mem_cons_of_mem _ h)
    · rcases List.mem_cons.1 h with h | h
      · exact .inr (h ▸ List.mem_cons_self ..)
      · exact (mem_setEntries h).imp_right (List.mem_cons_of_mem _)

theorem mem_setEntries_self (k : κ) (v : ν) : ∀ l : List (κ × ν), (k, v) ∈ setEntries k v l
  | [] => List.mem_singleton.2 rfl
  | (k', v') :: l => by
    unfold setEntries
    split
    · exact List.mem_cons_self ..
    · exact List.mem_cons_of_mem _ (mem_setEntries_self k v l)

section Lookup

variable [BEq κ] [LawfulBEq κ]

theorem lookup_cons_ite (k k' : κ) (v : ν) (l : List (κ × ν)) :
    List.lookup k ((k', v) :: l) = if k = k' then some v else l.lookup k := by
  rw [List.lookup_cons]
  by_cases h : k = k'
  · simp [h]
  · rw [show (k == k') = false by simpa using h, if_neg h]

theorem lookup_setEntries (k j : κ) (v : ν) (l : List (κ × ν)) :
    (setEntries k v l).lookup j = if j = k then some v else l.lookup j := by
  induction l with
  | nil => simp [setEntries, lookup_cons_ite]
  | cons p l ih =>
    obtain ⟨k', v'⟩ := p
    unfold setEntries
    by_cases hk : k' = k
    · subst hk
      rw [if_pos rfl, lookup_cons_ite, lookup_cons_ite]
      by_cases hj : j = k' <;> simp [hj]
    · rw [if_neg hk, lookup_cons_ite, lookup_cons_ite, ih]
      by_cases hj : j = k'
      · subst hj; simp [hk]
      · simp [hj]

theorem lookup_isSome (k : κ) (l : List (κ × ν)) : (l.lookup k).isSome ↔ k ∈ l.map Prod.fst := by
  induction l with
  | nil => simp
  | cons p l ih =>
    obtain ⟨k', v'⟩ := p
    rw [lookup_cons_ite]
    by_cases h : k = k'
    · simp [h]
    · rw [if_neg h, ih, List.map_cons, List.mem_cons]
      simp [h]

theorem lookup_eq_some_iff {l : List (κ × ν)} (h : (l.map Prod.fst).Nodup) (k : κ) (v : ν) :
    l.lookup k = some v ↔ (k, v) ∈ l := by
  induction l with
  | nil => simp
  | cons p l ih =>
    obtain ⟨k', v'⟩ := p
    simp only [List.map_cons, List.nodup_cons] at h
    rw [lookup_cons_ite]
    by_cases hk : k = k'
    · subst hk
      have hno : (k, v) ∉ l := fun hm => h.1 (List.mem_map_of_mem hm)
      simp only [if_pos, Option.some.injEq, List.mem_cons, Prod.mk.injEq, true_and, hno, or_false]
      exact eq_comm
    · simp only [List.mem_cons, Prod.mk.injEq, hk, false_and, false_or, if_false]
      exact ih h.2

/-- Assigning a number changes the sum of the numbers held by as much. -/
theorem sum_setEntries (k : κ) (n : ℕ) (l : List (κ × ℕ)) :
    ((setEntries k n l).map Prod.snd).sum + (l.lookup k).getD 0 = (l.map Prod.snd).sum + n := by
  induction l with
  | nil => simp [setEntries]
  | cons p l ih =>
    obtain ⟨k', n'⟩ := p
    rw [setEntries, lookup_cons_ite]
    by_cases hk : k' = k
    · subst hk
      simp only [if_true, List.map_cons, List.sum_cons, Option.getD_some]
      omega
    · rw [if_neg hk, if_neg (Ne.symm hk)]
      simp only [List.map_cons, List.sum_cons]
      omega

end Lookup

theorem map_fst_setEntries (k : κ) (v : ν) (l : List (κ × ν)) :
    (setEntries k v l).map Prod.fst = if k ∈ l.map Prod.fst then l.map Prod.fst else l.map Prod.fst ++ [k] := by
  induction l with
  | nil => rfl
  | cons p l ih =>
    obtain ⟨k', v'⟩ := p
    unfold setEntries
    by_cases h : k' = k
    · subst h
      rw [if_pos rfl, if_pos (by simp)]
      rfl
    · rw [if_neg h, List.map_cons, ih, List.map_cons]
      by_cases hk : k ∈ l.map Prod.fst
      · rw [if_pos hk, if_pos (List.mem_cons_of_mem _ hk)]
      · rw [if_neg hk, if_neg (by simp only [List.mem_cons, not_or]; exact ⟨Ne.symm h, hk⟩)]
        rfl

/-! ## Operations -/

/-- `{}`. -/
def empty : Dict κ ν := ⟨[], List.nodup_nil⟩

instance : EmptyCollection (Dict κ ν) := ⟨empty⟩

/-- `d.get(k)`. -/
def get? (d : Dict κ ν) (k : κ) : Option ν := d.entries.lookup k

/-- The keys, in order. -/
def keys (d : Dict κ ν) : List κ := d.entries.map Prod.fst

/-- `k in d`. -/
def contains (d : Dict κ ν) (k : κ) : Bool := (d.get? k).isSome

/-- `d[k] = v`. -/
def set (d : Dict κ ν) (k : κ) (v : ν) : Dict κ ν :=
  ⟨setEntries k v d.entries, nodup_setEntries k v d.nodup⟩

/-- `d.pop(k, None)`. -/
def erase (d : Dict κ ν) (k : κ) : Dict κ ν :=
  ⟨d.entries.filter fun p => p.1 ≠ k, by
    have hsub : ((d.entries.filter fun p => p.1 ≠ k).map Prod.fst).Sublist (d.entries.map Prod.fst) :=
      List.filter_sublist.map Prod.fst
    exact hsub.nodup d.nodup⟩

/-- Without its first `n` items. -/
def drop (d : Dict κ ν) (n : ℕ) : Dict κ ν :=
  ⟨d.entries.drop n, by
    have hsub : ((d.entries.drop n).map Prod.fst).Sublist (d.entries.map Prod.fst) :=
      (List.drop_sublist n d.entries).map Prod.fst
    exact hsub.nodup d.nodup⟩

/-- `{k: f(k, v) for k, v in d.items()}`. -/
def mapValues (f : κ → ν → ν) (d : Dict κ ν) : Dict κ ν :=
  ⟨d.entries.map fun p => (p.1, f p.1 p.2), by rw [List.map_map]; exact d.nodup⟩

/-- `d.update(e)`, and `{**d, **e}`. -/
def update (d e : Dict κ ν) : Dict κ ν := e.entries.foldl (fun d p => d.set p.1 p.2) d

omit [DecidableEq κ] in
theorem keys_nodup (d : Dict κ ν) : d.keys.Nodup := d.nodup

@[simp] theorem get?_empty (k : κ) : (∅ : Dict κ ν).get? k = none := rfl

omit [DecidableEq κ] in
@[simp] theorem keys_empty : (∅ : Dict κ ν).keys = [] := rfl

theorem mem_keys (d : Dict κ ν) (k : κ) : k ∈ d.keys ↔ (d.get? k).isSome := (lookup_isSome k d.entries).symm

theorem get?_eq_some_iff (d : Dict κ ν) (k : κ) (v : ν) : d.get? k = some v ↔ (k, v) ∈ d.entries :=
  lookup_eq_some_iff d.nodup k v

@[simp] theorem contains_iff (d : Dict κ ν) (k : κ) : d.contains k = true ↔ (d.get? k).isSome := Iff.rfl

theorem get?_set (d : Dict κ ν) (k j : κ) (v : ν) :
    (d.set k v).get? j = if j = k then some v else d.get? j :=
  lookup_setEntries k j v d.entries

@[simp] theorem get?_set_self (d : Dict κ ν) (k : κ) (v : ν) : (d.set k v).get? k = some v := by
  simp [get?_set]

theorem mem_keys_set (d : Dict κ ν) (k j : κ) (v : ν) : j ∈ (d.set k v).keys ↔ j ∈ d.keys ∨ j = k :=
  mem_keys_setEntries k j v d.entries

theorem keys_set (d : Dict κ ν) (k : κ) (v : ν) :
    (d.set k v).keys = if k ∈ d.keys then d.keys else d.keys ++ [k] := map_fst_setEntries k v d.entries

theorem sum_set (d : Dict κ ℕ) (k : κ) (n : ℕ) :
    ((d.set k n).entries.map Prod.snd).sum + (d.get? k).getD 0 = (d.entries.map Prod.snd).sum + n :=
  sum_setEntries k n d.entries

theorem get?_mapValues (f : κ → ν → ν) (d : Dict κ ν) (k : κ) : (d.mapValues f).get? k = (d.get? k).map (f k) := by
  show (d.entries.map fun p => (p.1, f p.1 p.2)).lookup k = (d.entries.lookup k).map (f k)
  induction d.entries with
  | nil => rfl
  | cons p l ih =>
    obtain ⟨k', v⟩ := p
    rw [List.map_cons, lookup_cons_ite, lookup_cons_ite, ih]
    by_cases h : k = k'
    · subst h
      simp
    · simp [h]

/-- Dropping the first items leaves the others as they are. -/
theorem get?_drop {d : Dict κ ν} {n : ℕ} {k : κ} (h : k ∈ (d.drop n).keys) : (d.drop n).get? k = d.get? k := by
  obtain ⟨v, hv⟩ := Option.isSome_iff_exists.1 ((mem_keys _ _).1 h)
  have hmem : (k, v) ∈ d.entries := List.mem_of_mem_drop ((get?_eq_some_iff _ _ _).1 hv)
  rw [hv, (get?_eq_some_iff _ _ _).2 hmem]

theorem get?_foldl_set (l : List (κ × ν)) (hl : (l.map Prod.fst).Nodup) (d : Dict κ ν) (k : κ) :
    (l.foldl (fun d p => d.set p.1 p.2) d).get? k = (l.lookup k).or (d.get? k) := by
  induction l generalizing d with
  | nil => simp
  | cons p l ih =>
    obtain ⟨k', v⟩ := p
    simp only [List.map_cons, List.nodup_cons] at hl
    rw [List.foldl_cons, ih hl.2, get?_set, lookup_cons_ite]
    by_cases h : k = k'
    · subst h
      have : l.lookup k = none := by
        rw [← Option.not_isSome_iff_eq_none, lookup_isSome]; exact hl.1
      simp [this]
    · simp [h]

/-- After an update a key has its value in the argument, or else the one it had. -/
theorem get?_update (d e : Dict κ ν) (k : κ) : (d.update e).get? k = (e.get? k).or (d.get? k) :=
  get?_foldl_set e.entries e.nodup d k

end Dict

end Python
