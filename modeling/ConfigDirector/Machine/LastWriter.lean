/-
A last-writer-wins register under updates that may also drop what is held: what an update does to the
register is to write a value, to keep what is held, or to drop it. What is held after any list of
updates, in closed form.
-/
import Mathlib.Data.List.Induction
import Mathlib.Tactic.Common

namespace LastWriter

variable {ν : Type}

/-- What an update writes, and whether what is held survives an update that writes nothing. -/
structure Update (ν : Type) where
  value : Option ν
  keeps : Bool

def Update.apply (u : Update ν) (held : Option ν) : Option ν :=
  match u.value with
  | some v => some v
  | none => if u.keeps then held else none

/-- What is held after some updates, the first of which finds nothing held. -/
def latest (us : List (Update ν)) : Option ν := us.foldl (fun held u => u.apply held) none

theorem latest_concat (us : List (Update ν)) (u : Update ν) : latest (us ++ [u]) = u.apply (latest us) := by
  rw [latest, List.foldl_append]
  rfl

/-- Something is held if and only if some update wrote and every later one wrote or kept. -/
theorem latest_isSome_iff (us : List (Update ν)) : (latest us).isSome ↔
    ∃ before u after, us = before ++ u :: after ∧ u.value.isSome ∧
      ∀ u' ∈ after, u'.value.isSome ∨ u'.keeps = true := by
  induction us using List.reverseRecOn with
  | nil => simp [latest]
  | append_singleton us u ih =>
    rw [latest_concat, Update.apply]
    cases hu : u.value with
    | some v =>
      refine iff_of_true rfl ⟨us, u, [], rfl, by rw [hu]; rfl, ?_⟩
      intro u' hu'
      cases hu'
    | none =>
      constructor
      · intro h
        simp only at h
        split at h
        · rename_i hkeeps
          obtain ⟨before, w, after, rfl, hw, hall⟩ := ih.1 h
          exact ⟨before, w, after ++ [u], by simp, hw,
            List.forall_mem_append.2 ⟨hall, List.forall_mem_singleton.2 (.inr hkeeps)⟩⟩
        · cases h
      · rintro ⟨before, w, after, heq, hw, hall⟩
        -- the update that wrote is not this last one, which writes nothing
        rcases List.eq_nil_or_concat after with rfl | ⟨after, u', rfl⟩
        · obtain ⟨-, rfl⟩ := List.append_inj' heq rfl |>.imp id List.singleton_inj.1
          rw [hu] at hw
          cases hw
        · rw [List.concat_eq_append, ← List.cons_append, ← List.append_assoc] at heq
          obtain ⟨rfl, hlast⟩ := List.append_inj' heq rfl
          obtain rfl := List.singleton_inj.1 hlast
          have hkeeps : u.keeps = true := by
            rcases hall u (by simp) with h | h
            · rw [hu] at h; cases h
            · exact h
          simp only [hkeeps, if_true]
          exact ih.2 ⟨before, w, after, rfl, hw, fun x hx => hall x (by simp [hx])⟩

/-- What is held is what the last update that wrote wrote. -/
theorem latest_eq_some {us : List (Update ν)} {v : ν} (h : latest us = some v) :
    ∃ before u after, us = before ++ u :: after ∧ u.value = some v ∧ ∀ u' ∈ after, u'.value = none := by
  induction us using List.reverseRecOn with
  | nil => cases h
  | append_singleton us u ih =>
    rw [latest_concat, Update.apply] at h
    cases hu : u.value with
    | some w =>
      rw [hu] at h
      cases h
      refine ⟨us, u, [], rfl, hu, ?_⟩
      intro u' hu'
      cases hu'
    | none =>
      rw [hu] at h
      simp only at h
      split at h
      · obtain ⟨before, w, after, rfl, hw, hall⟩ := ih h
        exact ⟨before, w, after ++ [u], by simp, hw,
          List.forall_mem_append.2 ⟨hall, List.forall_mem_singleton.2 hu⟩⟩
      · cases h

/-! ## Order -/

/-- What is held after some updates. -/
def after (held : Option ν) (us : List (Update ν)) : Option ν := us.foldl (fun held u => u.apply held) held

theorem after_append (held : Option ν) (us vs : List (Update ν)) : after held (us ++ vs) = after (after held us) vs :=
  List.foldl_append

/-- Nothing of what was held is left. -/
def Update.Settles (u : Update ν) : Prop := u.value.isSome ∨ u.keeps = false

theorem Update.apply_of_settles {u : Update ν} (h : u.Settles) (held : Option ν) : u.apply held = u.value := by
  unfold Update.apply
  cases hvalue : u.value with
  | some v => rfl
  | none =>
    have hkeeps : u.keeps = false := by
      rcases h with hsome | hkeeps
      · rw [hvalue] at hsome
        cases hsome
      · exact hkeeps
    simp only [hkeeps, Bool.false_eq_true, if_false]

theorem Update.apply_of_not_settles {u : Update ν} (h : ¬ u.Settles) (held : Option ν) : u.apply held = held := by
  obtain ⟨hvalue, hkeeps⟩ := not_or.1 h
  unfold Update.apply
  rw [Option.not_isSome_iff_eq_none.1 hvalue]
  simp only [Bool.not_eq_false] at hkeeps
  simp only [hkeeps, if_true]

/-- What both updates settle, they settle alike. -/
def Update.Agrees (u v : Update ν) : Prop := u.Settles → v.Settles → u.value = v.value

/-- Updates agree if and only if their order does not matter. -/
theorem Update.agrees_iff (u v : Update ν) : u.Agrees v ↔ ∀ held, u.apply (v.apply held) = v.apply (u.apply held) := by
  by_cases hu : u.Settles
  · by_cases hv : v.Settles
    · simp only [apply_of_settles hu, apply_of_settles hv]
      exact ⟨fun h _ => h hu hv, fun h _ _ => h none⟩
    · simp only [apply_of_not_settles hv]
      exact iff_of_true (fun _ hsettles => absurd hsettles hv) (fun _ => trivial)
  · simp only [apply_of_not_settles hu]
    exact iff_of_true (fun hsettles => absurd hsettles hu) (fun _ => trivial)

/-- An update may go ahead of those it agrees with. -/
theorem after_bubble {u : Update ν} (vs : List (Update ν)) : ∀ (held : Option ν) {us : List (Update ν)},
    (∀ v ∈ us, u.Agrees v) → after held (us ++ u :: vs) = after held (u :: us ++ vs)
  | _, [], _ => rfl
  | held, v :: us, h => by
    obtain ⟨hv, h⟩ := List.forall_mem_cons.1 h
    have hcomm : u.apply (v.apply held) = v.apply (u.apply held) := (u.agrees_iff v).1 hv held
    calc after held (v :: us ++ u :: vs) = after (v.apply held) (us ++ u :: vs) := rfl
      _ = after (v.apply held) (u :: us ++ vs) := after_bubble vs _ h
      _ = after (u.apply (v.apply held)) (us ++ vs) := rfl
      _ = after (v.apply (u.apply held)) (us ++ vs) := by rw [hcomm]
      _ = after held (u :: (v :: us) ++ vs) := rfl

end LastWriter
