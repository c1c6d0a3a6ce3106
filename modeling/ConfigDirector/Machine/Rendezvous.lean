/-
Parties that wait for one another. Each of them arrives and checks afterwards whether all have arrived; a check
that finds them all there claims the meeting, unless another check has. However arrivals and checks interleave,
the meeting is claimed once at most, and it is claimed when all have arrived and checked.
-/
import ConfigDirector.Machine.Transition
import Mathlib.Data.Fintype.Defs

@[ext]
structure Rendezvous (ι : Type) where
  arrived : ι → Bool
  /-- The check of a party that has arrived is still to come. -/
  checking : ι → Bool
  claims : ℕ

namespace Rendezvous

variable {ι : Type}

inductive Event (ι : Type)
  | arrive (i : ι)
  | check (i : ι)

def init : Rendezvous ι := ⟨fun _ => false, fun _ => false, 0⟩

section Step

variable [Fintype ι] [DecidableEq ι]

/-- A party arrives once, and checks once afterwards. -/
def step (r : Rendezvous ι) : Event ι → Option (Rendezvous ι)
  | .arrive i =>
    if r.arrived i then none
    else some { r with arrived := Function.update r.arrived i true, checking := Function.update r.checking i true }
  | .check i =>
    if r.checking i then
      some { r with
        checking := Function.update r.checking i false
        claims := if (∀ j, r.arrived j) ∧ r.claims = 0 then r.claims + 1 else r.claims }
    else none

end Step

/-- The meeting is claimed once at most, by one who has found all there; as long as it is not, one of them will
check again. -/
structure Sound (r : Rendezvous ι) : Prop where
  once : r.claims ≤ 1
  complete : 0 < r.claims → ∀ i, r.arrived i
  awaited : (∀ i, r.arrived i) → r.claims = 0 → ∃ i, r.checking i

theorem sound_init [Nonempty ι] : (init : Rendezvous ι).Sound := by
  refine ⟨Nat.zero_le 1, fun h => absurd h (Nat.lt_irrefl 0), fun h => ?_⟩
  obtain ⟨i⟩ := ‹Nonempty ι›
  cases h i

/-- When all have arrived and none is still to check, the meeting has been claimed. -/
theorem Sound.claims_eq_one {r : Rendezvous ι} (h : r.Sound) (harrived : ∀ i, r.arrived i)
    (hchecked : ∀ i, r.checking i = false) :
    r.claims = 1 := by
  have hne : r.claims ≠ 0 := by
    intro hzero
    obtain ⟨i, hi⟩ := h.awaited harrived hzero
    rw [hchecked i] at hi
    cases hi
  have honce := h.once
  omega

section Step

variable [Fintype ι] [DecidableEq ι]

theorem sound_step {r r' : Rendezvous ι} {e : Event ι} (h : r.Sound) (hs : r.step e = some r') : r'.Sound := by
  cases e with
  | arrive i =>
    simp only [step, Option.ite_none_left_eq_some, Option.some.injEq] at hs
    obtain ⟨-, rfl⟩ := hs
    refine ⟨h.once, fun hclaims j => ?_, fun _ _ => ⟨i, Function.update_self i true r.checking⟩⟩
    have hj := h.complete hclaims j
    by_cases hji : j = i
    · subst hji
      exact Function.update_self j true r.arrived
    · exact (Function.update_of_ne hji true r.arrived).trans hj
  | check i =>
    simp only [step, Option.ite_none_right_eq_some, Option.some.injEq] at hs
    obtain ⟨-, rfl⟩ := hs
    by_cases hall : (∀ j, r.arrived j) ∧ r.claims = 0
    · simp only [if_pos hall]
      exact ⟨by rw [hall.2], fun _ => hall.1, fun _ hzero => by cases hzero⟩
    · simp only [if_neg hall]
      exact ⟨h.once, h.complete, fun harrived hzero => absurd ⟨harrived, hzero⟩ hall⟩

end Step

end Rendezvous
