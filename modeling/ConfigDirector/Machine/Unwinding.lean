/-
Machines that take every event and show something of it, run twice: if alike events keep alike states
alike and show the same apart from what is not seen, so do alike runs.
-/
import Mathlib.Data.List.Forall2

namespace Unwinding

variable {σ ε ω : Type}

/-- The state after some events, and what they showed. -/
def execute (step : σ → ε → σ × List ω) : σ → List ε → σ × List ω
  | s, [] => (s, [])
  | s, e :: es =>
    let (s₁, shown) := step s e
    let (s', rest) := execute step s₁ es
    (s', shown ++ rest)

/-- Two states with what was shown on the way to them: the states are alike, and what is seen is the same. -/
structure Agree (alike : σ → σ → Prop) (seen : ω → Bool) (r r' : σ × List ω) : Prop where
  state : alike r.1 r'.1
  shown : r.2.filter seen = r'.2.filter seen

variable {step : σ → ε → σ × List ω} {alike : σ → σ → Prop} {alikeEvents : ε → ε → Prop} {seen : ω → Bool}

theorem Agree.andThen {r r' : σ × List ω} (h : Agree alike seen r r') {q q' : σ × List ω} (hnext : Agree alike seen q q') :
    Agree alike seen (q.1, r.2 ++ q.2) (q'.1, r'.2 ++ q'.2) where
  state := hnext.state
  shown := by rw [List.filter_append, List.filter_append, h.shown, hnext.shown]

/-- Alike runs from alike states agree, if their steps do. -/
theorem execute_agree (hstep : ∀ s s' e e', alike s s' → alikeEvents e e' → Agree alike seen (step s e) (step s' e')) :
    ∀ {es es' : List ε}, List.Forall₂ alikeEvents es es' → ∀ {s s' : σ}, alike s s' →
      Agree alike seen (execute step s es) (execute step s' es')
  | _, _, .nil, _, _, hs => ⟨hs, rfl⟩
  | _, _, .cons he hes, _, _, hs =>
    have hfirst := hstep _ _ _ _ hs he
    hfirst.andThen (execute_agree hstep hes hfirst.state)

end Unwinding
