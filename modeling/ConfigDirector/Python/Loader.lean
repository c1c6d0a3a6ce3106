/-
Computations over an input that they can only take slices of, as Python takes them of a sequence: a
slice that runs past the end is cut short and says nothing. What a computation returns on an input,
which slices it takes, and which words it holds on the way are functions of the computation, and the
judgment `Runs` is built up bind by bind.
-/
import Mathlib.Order.Interval.Set.Basic
import Mathlib.Data.Set.Lattice
import Mathlib.Tactic.Common

namespace Python

variable {β ω α γ : Type}

/-! ## Slices -/

/-- Where a bound of a slice falls in a sequence of that length. -/
def sliceBound (length : ℕ) (bound : ℤ) : ℕ :=
  if bound < 0 then (length + bound).toNat else min bound.toNat length

/-- `xs[start:stop]`. -/
def slice (xs : List β) (start stop : ℤ) : List β :=
  (xs.take (sliceBound xs.length stop)).drop (sliceBound xs.length start)

theorem slice_natCast (xs : List β) (start width : ℕ) :
    slice xs start (start + width) = (xs.drop start).take width := by
  have hbound : ∀ n : ℕ, sliceBound xs.length n = min n xs.length := fun n => by
    rw [sliceBound, if_neg (by omega), Int.toNat_natCast]
  have hstop : ((start : ℤ) + width) = ((start + width : ℕ) : ℤ) := by push_cast; rfl
  rw [slice, hstop, hbound, hbound, List.drop_take, List.take_eq_take_iff.2]
  · rcases Nat.le_total start xs.length with h | h
    · rw [Nat.min_eq_left h]
    · rw [Nat.min_eq_right h, List.drop_eq_nil_of_le le_rfl, List.drop_eq_nil_of_le h]
  · rw [List.length_drop]
    omega

/-- A slice a computation takes: `xs[offset : offset + width]`. -/
structure Load where
  offset : ℤ
  width : ℕ

namespace Load

/-- The slice is not cut short. -/
def Inside (l : Load) (length : ℕ) : Prop := 0 ≤ l.offset ∧ l.offset + l.width ≤ length

/-- The slice has the item at that index. -/
def Reads (l : Load) (index : ℕ) : Prop := l.offset ≤ index ∧ (index : ℤ) < l.offset + l.width

end Load

/-! ## Computations -/

/-- A computation over a sequence it can only take slices of; a note is a word it holds. -/
inductive Loader (β ω α : Type) where
  | done (a : α)
  | load (l : Load) (next : List β → Loader β ω α)
  | note (w : ω) (next : Loader β ω α)

namespace Loader

protected def bind : Loader β ω α → (α → Loader β ω γ) → Loader β ω γ
  | done a, f => f a
  | load l next, f => load l fun s => (next s).bind f
  | note w next, f => note w (next.bind f)

instance : Monad (Loader β ω) where
  pure := done
  bind := Loader.bind

/-- Take a slice. -/
def take (offset : ℤ) (width : ℕ) : Loader β ω (List β) := load ⟨offset, width⟩ done

/-- Hold a word. -/
def hold (w : ω) : Loader β ω ω := note w (done w)

/-- What it returns. -/
def value (xs : List β) : Loader β ω α → α
  | done a => a
  | load l next => (next (slice xs l.offset (l.offset + l.width))).value xs
  | note _ next => next.value xs

/-- The slices it takes, in order. -/
def loads (xs : List β) : Loader β ω α → List Load
  | done _ => []
  | load l next => l :: (next (slice xs l.offset (l.offset + l.width))).loads xs
  | note _ next => next.loads xs

/-- The words it holds, in order. -/
def notes (xs : List β) : Loader β ω α → List ω
  | done _ => []
  | load l next => (next (slice xs l.offset (l.offset + l.width))).notes xs
  | note w next => w :: next.notes xs

variable {xs : List β} {m : Loader β ω α} {f : α → Loader β ω γ}

@[simp]
theorem value_bind : (m >>= f).value xs = (f (m.value xs)).value xs := by
  show (Loader.bind m f).value xs = _
  induction m with
  | done a => rfl
  | load l next ih => exact ih _
  | note w next ih => exact ih

@[simp]
theorem loads_bind : (m >>= f).loads xs = m.loads xs ++ (f (m.value xs)).loads xs := by
  show (Loader.bind m f).loads xs = _
  induction m with
  | done a => rfl
  | load l next ih => exact congrArg (l :: ·) (ih _)
  | note w next ih => exact ih

@[simp]
theorem notes_bind : (m >>= f).notes xs = m.notes xs ++ (f (m.value xs)).notes xs := by
  show (Loader.bind m f).notes xs = _
  induction m with
  | done a => rfl
  | load l next ih => exact ih _
  | note w next ih => exact congrArg (w :: ·) ih

/-! ## The judgment -/

/-- On `xs` the computation returns `a`, takes no slice that is cut short, takes every item of `S`,
and every word it holds has the property. -/
structure Runs (xs : List β) (Q : ω → Prop) (m : Loader β ω α) (a : α) (S : Set ℕ) : Prop where
  value : m.value xs = a
  inside : ∀ l ∈ m.loads xs, l.Inside xs.length
  reads : ∀ k ∈ S, ∃ l ∈ m.loads xs, l.Reads k
  notes : ∀ w ∈ m.notes xs, Q w

namespace Runs

variable {Q : ω → Prop} {a : α} {c : γ} {S T : Set ℕ}

theorem pure (a : α) : Runs xs Q (Pure.pure a) a ∅ where
  value := rfl
  inside := fun _ h => absurd h List.not_mem_nil
  reads := fun _ h => h.elim
  notes := fun _ h => absurd h List.not_mem_nil

theorem hold {w : ω} (h : Q w) : Runs xs Q (hold w) w ∅ where
  value := rfl
  inside := fun _ h => absurd h List.not_mem_nil
  reads := fun _ h => h.elim
  notes := fun w' hw => by
    rw [List.mem_singleton.1 hw]
    exact h

/-- A slice the input has, taken for what a function makes of it. -/
theorem take {z : ℤ} {offset width : ℕ} (hz : z = offset) (h : offset + width ≤ xs.length) (g : List β → γ) :
    Runs xs Q (do return g (← take z width)) (g ((xs.drop offset).take width)) (Set.Ico offset (offset + width)) where
  value := by
    subst hz
    exact congrArg g (slice_natCast xs offset width)
  inside := fun l hl => by
    subst hz
    rw [List.mem_singleton.1 hl]
    exact ⟨Int.natCast_nonneg _, Int.ofNat_le.2 h⟩
  reads := fun k hk => by
    subst hz
    exact ⟨_, List.mem_singleton.2 rfl, Int.ofNat_le.2 hk.1, Int.ofNat_lt.2 hk.2⟩
  notes := fun _ h => absurd h List.not_mem_nil

theorem bind (hm : Runs xs Q m a S) (hf : Runs xs Q (f a) c T) : Runs xs Q (m >>= f) c (S ∪ T) where
  value := by rw [value_bind, hm.value, hf.value]
  inside := fun l hl => by
    rw [loads_bind, hm.value, List.mem_append] at hl
    exact hl.elim (hm.inside l) (hf.inside l)
  reads := fun k hk => by
    rw [loads_bind, hm.value]
    rcases hk with hk | hk
    · obtain ⟨l, hl, hr⟩ := hm.reads k hk
      exact ⟨l, List.mem_append_left _ hl, hr⟩
    · obtain ⟨l, hl, hr⟩ := hf.reads k hk
      exact ⟨l, List.mem_append_right _ hl, hr⟩
  notes := fun w hw => by
    rw [notes_bind, hm.value, List.mem_append] at hw
    exact hw.elim (hm.notes w) (hf.notes w)

theorem mono (h : Runs xs Q m a S) (hT : T ⊆ S) : Runs xs Q m a T :=
  ⟨h.value, h.inside, fun k hk => h.reads k (hT hk), h.notes⟩

end Runs

end Loader

end Python
