/-
Runs of a machine given by an executable step function: a step is enabled or not, a run is a list of
events that were all enabled. A guard restricts what the events of a run may be; an invariant that
every guarded step keeps holds at the end of every guarded run.
-/
import Mathlib.Tactic.Common

namespace Transition

variable {σ ε : Type}

/-- The state after some events, if each was enabled. -/
def run (step : σ → ε → Option σ) : σ → List ε → Option σ
  | s, [] => some s
  | s, e :: es =>
    match step s e with
    | some s' => run step s' es
    | none => none

/-- Every event of the run meets the guard in the state it is taken in. -/
def Obeys (step : σ → ε → Option σ) (guard : σ → ε → Prop) : σ → List ε → Prop
  | _, [] => True
  | s, e :: es => guard s e ∧ ∀ s', step s e = some s' → Obeys step guard s' es

/-- The property holds in every state of the run, as far as its events are enabled. -/
def Always (step : σ → ε → Option σ) (P : σ → Prop) : σ → List ε → Prop
  | s, [] => P s
  | s, e :: es => P s ∧ ∀ s', step s e = some s' → Always step P s' es

variable {step : σ → ε → Option σ} {guard : σ → ε → Prop}

/-- Whether a run meets a guard is found by taking its steps. -/
instance decidableObeys [∀ s e, Decidable (guard s e)] : ∀ (s : σ) (es : List ε), Decidable (Obeys step guard s es)
  | _, [] => .isTrue trivial
  | s, e :: es =>
    match hs : step s e with
    | none => decidable_of_iff (guard s e) (by simp [Obeys, hs])
    | some s' =>
      have : Decidable (Obeys step guard s' es) := decidableObeys s' es
      decidable_of_iff (guard s e ∧ Obeys step guard s' es) (by simp [Obeys, hs])

theorem run_cons {s s' : σ} {e : ε} {es : List ε} (h : run step s (e :: es) = some s') :
    ∃ s₁, step s e = some s₁ ∧ run step s₁ es = some s' := by
  rw [run] at h
  split at h
  · rename_i s₁ hs
    exact ⟨s₁, hs, h⟩
  · cases h

theorem run_append {s s' : σ} : ∀ {es es' : List ε}, run step s (es ++ es') = some s' →
    ∃ s₁, run step s es = some s₁ ∧ run step s₁ es' = some s'
  | [], _, h => ⟨s, rfl, h⟩
  | e :: es, es', h => by
    obtain ⟨s₁, hs, h⟩ := run_cons h
    obtain ⟨s₂, h₁, h₂⟩ := run_append h
    refine ⟨s₂, ?_, h₂⟩
    rw [run, hs]
    exact h₁

/-- Two runs, the second from where the first ends, are one. -/
theorem run_of_append {s s₁ s' : σ} : ∀ {es es' : List ε}, run step s es = some s₁ → run step s₁ es' = some s' →
    run step s (es ++ es') = some s'
  | [], _, h₁, h₂ => by
    cases h₁
    exact h₂
  | e :: es, es', h₁, h₂ => by
    obtain ⟨s₂, hs, h₁⟩ := run_cons h₁
    rw [List.cons_append, run, hs]
    exact run_of_append h₁ h₂

theorem Obeys.cons {s s' : σ} {e : ε} {es : List ε} (hg : guard s e) (he : step s e = some s')
    (h : Obeys step guard s' es) : Obeys step guard s (e :: es) := by
  refine ⟨hg, fun s₁ hs => ?_⟩
  rw [he] at hs
  cases hs
  exact h

/-- What every guarded step keeps holds at the end of every guarded run. -/
theorem invariant {P : σ → Prop} (hstep : ∀ s e s', P s → guard s e → step s e = some s' → P s') :
    ∀ {s : σ} {es : List ε} {s' : σ}, P s → Obeys step guard s es → run step s es = some s' → P s'
  | _, [], _, hs, _, h => by cases h; exact hs
  | s, e :: es, _, hs, hg, h => by
    obtain ⟨s₁, he, h⟩ := run_cons h
    exact invariant hstep (hstep s e s₁ hs hg.1 he) (hg.2 s₁ he) h

/-- A guard on the events alone is met by a run of such events. -/
theorem obeys_of_forall {p : ε → Prop} : ∀ (s : σ) {es : List ε}, (∀ e ∈ es, p e) → Obeys step (fun _ e => p e) s es
  | _, [], _ => trivial
  | _, _ :: _, h => by
    rw [List.forall_mem_cons] at h
    exact ⟨h.1, fun s' _ => obeys_of_forall s' h.2⟩

theorem obeys_true (s : σ) : ∀ es : List ε, Obeys step (fun _ _ => True) s es
  | [] => trivial
  | _ :: es => ⟨trivial, fun s' _ => obeys_true s' es⟩

/-- What every step keeps holds at the end of every run. -/
theorem invariant_of_step {P : σ → Prop} (hstep : ∀ s e s', P s → step s e = some s' → P s') {s : σ}
    {es : List ε} {s' : σ} (hs : P s) (h : run step s es = some s') : P s' :=
  invariant (fun s e s' hs _ he => hstep s e s' hs he) hs (obeys_true s es) h

theorem always_iff {P : σ → Prop} : ∀ {s : σ} {es : List ε}, Always step P s es ↔
    ∀ es₁ es₂ s', es = es₁ ++ es₂ → run step s es₁ = some s' → P s'
  | s, [] => by
    constructor
    · intro h es₁ es₂ s' hsplit hrun
      rw [(List.append_eq_nil_iff.1 hsplit.symm).1] at hrun
      cases hrun
      exact h
    · exact fun h => h [] [] s rfl rfl
  | s, e :: es => by
    constructor
    · rintro ⟨hs, h⟩ es₁ es₂ s' hsplit hrun
      cases es₁ with
      | nil =>
        cases hrun
        exact hs
      | cons e₁ es₁ =>
        obtain ⟨rfl, htail⟩ := List.cons.inj hsplit
        obtain ⟨s₁, he, hrest⟩ := run_cons hrun
        exact always_iff.1 (h s₁ he) es₁ es₂ s' htail hrest
    · intro h
      refine ⟨h [] _ s rfl rfl, fun s₁ he => always_iff.2 fun es₁ es₂ s' hsplit hrun => ?_⟩
      refine h (e :: es₁) es₂ s' (by rw [hsplit, List.cons_append]) ?_
      rw [run, he]
      exact hrun

/-- What follows from what every guarded step keeps always holds in a guarded run. -/
theorem always_of_obeys {P Inv : σ → Prop} (hstep : ∀ s e s', Inv s → guard s e → step s e = some s' → Inv s')
    (hprop : ∀ s, Inv s → P s) : ∀ {s : σ} {es : List ε}, Inv s → Obeys step guard s es → Always step P s es
  | s, [], hs, _ => hprop s hs
  | s, e :: _, hs, hg =>
    ⟨hprop s hs, fun s' he => always_of_obeys hstep hprop (hstep s e s' hs hg.1 he) (hg.2 s' he)⟩

/-- Where a step keeps the property exactly if it meets the guard, the property always holds in exactly the runs
that meet the guard. -/
theorem always_iff_obeys {P Inv : σ → Prop} (hinv : ∀ s e s', Inv s → step s e = some s' → Inv s')
    (hstep : ∀ s e s', Inv s → P s → step s e = some s' → (P s' ↔ guard s e))
    (hstuck : ∀ s e, Inv s → step s e = none → guard s e) :
    ∀ {s : σ} {es : List ε}, Inv s → P s → (Always step P s es ↔ Obeys step guard s es)
  | s, [], _, hs => iff_of_true hs trivial
  | s, e :: es, hi, hs => by
    cases he : step s e with
    | none =>
      have hnone : ∀ s₁, step s e ≠ some s₁ := fun s₁ h => by
        rw [he] at h
        cases h
      exact iff_of_true ⟨hs, fun s₁ h => absurd h (hnone s₁)⟩ ⟨hstuck s e hi he, fun s₁ h => absurd h (hnone s₁)⟩
    | some s₁ =>
      have hiff := hstep s e s₁ hi hs he
      constructor
      · rintro ⟨-, h⟩
        have hs₁ : P s₁ := always_iff.1 (h s₁ he) [] es s₁ rfl rfl
        exact .cons (hiff.1 hs₁) he ((always_iff_obeys hinv hstep hstuck (hinv s e s₁ hi he) hs₁).1 (h s₁ he))
      · rintro ⟨hg, h⟩
        refine ⟨hs, fun s₂ he₂ => ?_⟩
        rw [he] at he₂
        cases he₂
        have hs₁ := hiff.2 hg
        exact (always_iff_obeys hinv hstep hstuck (hinv s e s₁ hi he) hs₁).2 (h s₁ he)

end Transition
