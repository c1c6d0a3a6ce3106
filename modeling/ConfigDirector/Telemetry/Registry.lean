/-
The registry of contexts over any sequence of adds: it holds the newest insertions, oldest first, and counts
the others. An add is an insertion when its key is not held at that moment, so a key that was evicted is
inserted again when it returns, and one that is held keeps its place and takes the new context.
-/
import ConfigDirector.Telemetry.Queue

namespace ConfigDirector.Telemetry

open Python

namespace ContextRegistry

variable {limit : ℕ}

/-! ## Adds -/

/-- Some contexts are added, one after another. -/
def addAll (r : ContextRegistry limit) (adds : List (ContextKey × Context)) : ContextRegistry limit :=
  adds.foldl (fun r p => r.add p.1 p.2) r

/-- The keys of the fresh adds: those whose key is not held at that moment. -/
def fresh (r : ContextRegistry limit) : List (ContextKey × Context) → List ContextKey
  | [] => []
  | (key, context) :: adds => (if key ∈ r.contexts.keys then [] else [key]) ++ (r.add key context).fresh adds

/-- The context of the latest add of a key. -/
def latest (adds : List (ContextKey × Context)) (key : ContextKey) : Option Context := adds.reverse.lookup key

theorem addAll_concat (r : ContextRegistry limit) (adds : List (ContextKey × Context)) (p : ContextKey × Context) :
    r.addAll (adds ++ [p]) = (r.addAll adds).add p.1 p.2 := by
  rw [addAll, List.foldl_append]
  rfl

theorem fresh_concat (p : ContextKey × Context) : ∀ (adds : List (ContextKey × Context)) (r : ContextRegistry limit),
    r.fresh (adds ++ [p]) = r.fresh adds ++ if p.1 ∈ (r.addAll adds).contexts.keys then [] else [p.1]
  | [], r => by
    obtain ⟨key, context⟩ := p
    show (if key ∈ r.contexts.keys then [] else [key]) ++ [] = _
    rw [List.append_nil]
    rfl
  | (key, context) :: adds, r => by
    rw [List.cons_append, fresh, fresh_concat p adds, fresh, List.append_assoc]
    rfl

theorem latest_concat (adds : List (ContextKey × Context)) (p : ContextKey × Context) (key : ContextKey) :
    latest (adds ++ [p]) key = if key = p.1 then some p.2 else latest adds key := by
  obtain ⟨k, context⟩ := p
  rw [latest, List.reverse_append, List.reverse_singleton, List.singleton_append, Dict.lookup_cons_ite]
  rfl

/-! ## One add -/

/-- The keys after an add: a held key keeps its place, any other goes last and the oldest leave. -/
theorem keys_add (r : ContextRegistry limit) (key : ContextKey) (context : Context)
    (hroom : r.contexts.keys.length ≤ limit) : (r.add key context).contexts.keys =
      if key ∈ r.contexts.keys then r.contexts.keys else lastItems limit (r.contexts.keys ++ [key]) := by
  have hdrop : (r.add key context).contexts.keys = lastItems limit (r.contexts.set key context).keys := by
    show ((r.contexts.set key context).entries.drop _).map Prod.fst = _
    rw [List.map_drop]
    rfl
  rw [hdrop, Dict.keys_set]
  split
  · rw [lastItems, Nat.sub_eq_zero_of_le hroom, List.drop_zero]
  · rfl

/-- What is held under a key after an add. -/
theorem get?_add {r : ContextRegistry limit} {key k : ContextKey} {context : Context}
    (hk : k ∈ (r.add key context).contexts.keys) :
    (r.add key context).contexts.get? k = if k = key then some context else r.contexts.get? k := by
  rw [← Dict.get?_set]
  exact Dict.get?_drop hk

/-! ## The invariant -/

/-- What a registry holds and counts after some adds to an empty one. -/
structure Keeps (r : ContextRegistry limit) (adds : List (ContextKey × Context)) : Prop where
  keys : r.contexts.keys = lastItems limit ((empty : ContextRegistry limit).fresh adds)
  latest : ∀ key ∈ r.contexts.keys, r.contexts.get? key = latest adds key
  dropped : r.droppedCount + r.contexts.keys.length = ((empty : ContextRegistry limit).fresh adds).length

theorem keeps_empty : Keeps (empty : ContextRegistry limit) [] where
  keys := by simp [empty, fresh, lastItems]
  latest := fun key hkey => by cases hkey
  dropped := rfl

/-- There are never more contexts than the limit. -/
theorem Keeps.length_le {r : ContextRegistry limit} {adds : List (ContextKey × Context)} (h : r.Keeps adds) :
    r.contexts.keys.length ≤ limit := by
  rw [h.keys, length_lastItems]
  exact Nat.min_le_right _ _

theorem Keeps.add {r : ContextRegistry limit} {adds : List (ContextKey × Context)} (h : r.Keeps adds)
    (hr : r = empty.addAll adds) (p : ContextKey × Context) : (r.add p.1 p.2).Keeps (adds ++ [p]) := by
  obtain ⟨key, context⟩ := p
  have hlast : lastItems limit (r.contexts.keys ++ [key]) =
      lastItems limit ((empty : ContextRegistry limit).fresh adds ++ [key]) := by
    rw [h.keys, lastItems_append_lastItems]
  have hkeys := keys_add r key context h.length_le
  have hfresh := fresh_concat (key, context) adds (empty : ContextRegistry limit)
  rw [← hr] at hfresh
  refine ⟨?_, fun k hk => ?_, ?_⟩
  · rw [hkeys, hfresh]
    split
    · rw [List.append_nil, h.keys]
    · exact hlast
  · rw [get?_add hk, latest_concat]
    by_cases hkey : k = key
    · rw [if_pos hkey, if_pos hkey]
    · rw [if_neg hkey, if_neg hkey]
      refine h.latest k ?_
      rw [hkeys] at hk
      split at hk
      · exact hk
      · have hmem : k ∈ r.contexts.keys ++ [key] := List.mem_of_mem_drop hk
        rcases List.mem_append.1 hmem with hmem | hmem
        · exact hmem
        · exact absurd (List.mem_singleton.1 hmem) hkey
  · have hdropped : (r.add key context).droppedCount = r.droppedCount + ((r.contexts.set key context).keys.length - limit) := rfl
    have hlength := h.dropped
    have hroom := h.length_le
    rw [hdropped, hkeys, hfresh, Dict.keys_set]
    split
    · rw [List.append_nil]
      omega
    · rw [length_lastItems, List.length_append, List.length_append, List.length_singleton]
      omega

theorem keeps_addAll (adds : List (ContextKey × Context)) : ((empty : ContextRegistry limit).addAll adds).Keeps adds := by
  induction adds using List.reverseRecOn with
  | nil => exact keeps_empty
  | append_singleton adds p ih =>
    rw [addAll_concat]
    exact ih.add rfl p

/-- Since it was empty, a registry holds the keys of the last fresh adds, in that order, each with the context of
its latest add, and has dropped the other fresh adds. -/
theorem newest_held (adds : List (ContextKey × Context)) :
    let r := (empty : ContextRegistry limit).addAll adds
    let keys := (empty : ContextRegistry limit).fresh adds
    r.contexts.keys = lastItems (min limit keys.length) keys ∧ r.contexts.keys.Nodup ∧
      (∀ key ∈ r.contexts.keys, r.contexts.get? key = latest adds key) ∧
      r.droppedCount = keys.length - r.contexts.keys.length := by
  intro r keys
  have hkeeps : r.Keeps adds := keeps_addAll adds
  refine ⟨?_, r.contexts.keys_nodup, hkeeps.latest, ?_⟩
  · rw [hkeeps.keys, Nat.min_comm, lastItems, lastItems]
    congr 1
    exact Nat.sub_eq_sub_min _ _
  · exact Nat.eq_sub_of_add_eq hkeeps.dropped

end ContextRegistry

end ConfigDirector.Telemetry
