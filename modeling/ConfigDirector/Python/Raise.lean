/-
Code that can raise, as `Except`: which error leaves a sequence of steps, and which leaves a step done
for every item of a list.
-/
import Mathlib.Tactic.Common

namespace Python

variable {ε α β : Type}

/-! ## One step after another -/

theorem pure_eq_error_iff {a : α} {e : ε} : (pure a : Except ε α) = .error e ↔ False := by
  constructor
  · intro h; cases h
  · exact False.elim

theorem ok_bind (a : α) (f : α → Except ε β) : (Except.ok a >>= f) = f a := rfl

theorem bind_eq_ok_iff {x : Except ε α} {f : α → Except ε β} {b : β} :
    x >>= f = .ok b ↔ ∃ a, x = .ok a ∧ f a = .ok b := by
  cases x with
  | error e =>
    constructor
    · intro h; cases h
    · rintro ⟨a, h, -⟩; cases h
  | ok a =>
    constructor
    · intro h; exact ⟨a, rfl, h⟩
    · rintro ⟨_, h, hf⟩; cases h; exact hf

theorem bind_eq_error_iff {x : Except ε α} {f : α → Except ε β} {e : ε} :
    x >>= f = .error e ↔ x = .error e ∨ ∃ a, x = .ok a ∧ f a = .error e := by
  cases x with
  | error e' =>
    constructor
    · intro h; cases h; exact .inl rfl
    · rintro (h | ⟨a, h, -⟩)
      · cases h; rfl
      · cases h
  | ok a =>
    constructor
    · intro h; exact .inr ⟨a, rfl, h⟩
    · rintro (h | ⟨_, h, hf⟩)
      · cases h
      · cases h; exact hf

/-- A sequence raises where its first step does, or where what follows does. -/
theorem exists_bind_eq_error {x : Except ε α} {f : α → Except ε β} :
    (∃ e, x >>= f = .error e) ↔ (∃ e, x = .error e) ∨ ∃ a, x = .ok a ∧ ∃ e, f a = .error e := by
  constructor
  · rintro ⟨e, h⟩
    rcases bind_eq_error_iff.1 h with h | ⟨a, ha, h⟩
    · exact .inl ⟨e, h⟩
    · exact .inr ⟨a, ha, e, h⟩
  · rintro (⟨e, h⟩ | ⟨a, ha, e, h⟩)
    · exact ⟨e, bind_eq_error_iff.2 (.inl h)⟩
    · exact ⟨e, bind_eq_error_iff.2 (.inr ⟨a, ha, h⟩)⟩

/-- A step that never raises `e` leaves the question to what follows it. -/
theorem bind_eq_error_of_ne {x : Except ε α} {f : α → Except ε β} {e : ε} (h : x ≠ .error e) :
    x >>= f = .error e ↔ ∃ a, x = .ok a ∧ f a = .error e := by
  rw [bind_eq_error_iff]
  exact or_iff_right h

/-- Nor does it matter what follows a step, if that never raises `e`. -/
theorem bind_eq_error_of_rest {x : Except ε α} {f : α → Except ε β} {e : ε} (h : ∀ a, f a ≠ .error e) :
    x >>= f = .error e ↔ x = .error e := by
  rw [bind_eq_error_iff]
  apply or_iff_left
  rintro ⟨a, -, ha⟩
  exact h a ha

theorem bind_ne_error {x : Except ε α} {f : α → Except ε β} {e : ε} (hx : x ≠ .error e)
    (hf : ∀ a, f a ≠ .error e) : x >>= f ≠ .error e := by
  intro h
  obtain ⟨a, -, ha⟩ := (bind_eq_error_of_ne hx).1 h
  exact hf a ha

/-- A step whose result does not decide whether what follows it raises. -/
theorem exists_bind_eq_ok {x : Except ε α} {f : α → Except ε β} {p : Prop} (h : ∀ a, (∃ b, f a = .ok b) ↔ p) :
    (∃ b, x >>= f = .ok b) ↔ (∃ a, x = .ok a) ∧ p := by
  constructor
  · rintro ⟨b, hb⟩
    obtain ⟨a, ha, hb⟩ := bind_eq_ok_iff.1 hb
    exact ⟨⟨a, ha⟩, (h a).1 ⟨b, hb⟩⟩
  · rintro ⟨⟨a, ha⟩, hp⟩
    obtain ⟨b, hb⟩ := (h a).2 hp
    exact ⟨b, bind_eq_ok_iff.2 ⟨a, ha, hb⟩⟩

theorem exists_bind_pure_eq_ok (x : Except ε α) (f : α → β) : (∃ b, (x >>= fun a => pure (f a)) = .ok b) ↔ ∃ a, x = .ok a :=
  (exists_bind_eq_ok fun _ => iff_of_true ⟨_, rfl⟩ trivial).trans (and_iff_left trivial)

theorem ite_error_iff {p : Prop} [Decidable p] {a : α} {e : ε} :
    (∃ e', (if p then Except.ok a else .error e) = .error e') ↔ ¬ p := by
  by_cases hp : p <;> simp [hp]

theorem toOption_eq_some_iff {x : Except ε α} {a : α} : x.toOption = some a ↔ x = .ok a := by
  cases x <;> simp [Except.toOption]

theorem map_eq_error_iff {x : Except ε α} {f : α → β} {e : ε} : f <$> x = .error e ↔ x = .error e := by
  cases x <;> simp [Functor.map, Except.map]

/-! ## A step for every item -/

/-- The items before the first one that raises `e` have all been read. -/
def FirstError (f : α → Except ε β) (e : ε) (l : List α) : Prop :=
  ∃ before x after, l = before ++ x :: after ∧ (∀ y ∈ before, ∃ b, f y = .ok b) ∧ f x = .error e

theorem mapM_eq_error_iff {f : α → Except ε β} {e : ε} :
    ∀ {l : List α}, l.mapM f = .error e ↔ FirstError f e l
  | [] => by
    constructor
    · intro h; cases h
    · rintro ⟨before, x, after, h, -⟩
      cases before <;> cases h
  | x :: l => by
    have ih := mapM_eq_error_iff (f := f) (e := e) (l := l)
    rw [List.mapM_cons]
    constructor
    · intro h
      rcases bind_eq_error_iff.1 h with hx | ⟨b, hx, h⟩
      · exact ⟨[], x, l, rfl, fun y hy => absurd hy List.not_mem_nil, hx⟩
      · rcases bind_eq_error_iff.1 h with hl | ⟨bs, -, h⟩
        · obtain ⟨before, y, after, rfl, hbefore, hy⟩ := ih.1 hl
          refine ⟨x :: before, y, after, rfl, ?_, hy⟩
          intro z hz
          rcases List.mem_cons.1 hz with rfl | hz
          · exact ⟨b, hx⟩
          · exact hbefore z hz
        · cases h
    · rintro ⟨before, y, after, h, hbefore, hy⟩
      cases before with
      | nil =>
        rw [List.nil_append, List.cons.injEq] at h
        obtain ⟨rfl, rfl⟩ := h
        exact bind_eq_error_iff.2 (.inl hy)
      | cons z before =>
        rw [List.cons_append, List.cons.injEq] at h
        obtain ⟨rfl, rfl⟩ := h
        obtain ⟨b, hx⟩ := hbefore x (List.mem_cons_self ..)
        have hrest := ih.2 ⟨before, y, after, rfl, fun z hz => hbefore z (List.mem_cons_of_mem _ hz), hy⟩
        exact bind_eq_error_iff.2 (.inr ⟨b, hx, bind_eq_error_iff.2 (.inl hrest)⟩)

theorem mapM_ok_iff {f : α → Except ε β} :
    ∀ {l : List α}, (∃ bs, l.mapM f = .ok bs) ↔ ∀ x ∈ l, ∃ b, f x = .ok b
  | [] => by
    constructor
    · intro _ x hx; cases hx
    · intro _; exact ⟨[], rfl⟩
  | x :: l => by
    have ih := mapM_ok_iff (f := f) (l := l)
    rw [List.mapM_cons, List.forall_mem_cons, ← ih]
    constructor
    · rintro ⟨bs, h⟩
      obtain ⟨b, hx, h⟩ := bind_eq_ok_iff.1 h
      obtain ⟨bs, hl, -⟩ := bind_eq_ok_iff.1 h
      exact ⟨⟨b, hx⟩, bs, hl⟩
    · rintro ⟨⟨b, hx⟩, bs, hl⟩
      exact ⟨b :: bs, bind_eq_ok_iff.2 ⟨b, hx, bind_eq_ok_iff.2 ⟨bs, hl, rfl⟩⟩⟩

theorem mapM_length {f : α → Except ε β} : ∀ {l : List α} {bs : List β}, l.mapM f = .ok bs → bs.length = l.length
  | [], _, h => by cases h; rfl
  | x :: l, _, h => by
    rw [List.mapM_cons] at h
    obtain ⟨b, -, h⟩ := bind_eq_ok_iff.1 h
    obtain ⟨bs, hl, h⟩ := bind_eq_ok_iff.1 h
    cases h
    rw [List.length_cons, List.length_cons, mapM_length hl]

/-- The results are those of the items. -/
theorem exists_of_mem_mapM {f : α → Except ε β} {b : β} :
    ∀ {l : List α} {bs : List β}, l.mapM f = .ok bs → b ∈ bs → ∃ x ∈ l, f x = .ok b
  | [], _, h, hb => by cases h; cases hb
  | x :: l, _, h, hb => by
    rw [List.mapM_cons] at h
    obtain ⟨b', hx, h⟩ := bind_eq_ok_iff.1 h
    obtain ⟨bs, hl, h⟩ := bind_eq_ok_iff.1 h
    cases h
    rcases List.mem_cons.1 hb with rfl | hb
    · exact ⟨x, List.mem_cons_self .., hx⟩
    · obtain ⟨y, hy, hyb⟩ := exists_of_mem_mapM hl hb
      exact ⟨y, List.mem_cons_of_mem _ hy, hyb⟩

theorem mem_mapM_of_mem {f : α → Except ε β} {x : α} :
    ∀ {l : List α} {bs : List β}, l.mapM f = .ok bs → x ∈ l → ∃ b ∈ bs, f x = .ok b
  | [], _, _, hx => by cases hx
  | y :: l, _, h, hx => by
    rw [List.mapM_cons] at h
    obtain ⟨b, hy, h⟩ := bind_eq_ok_iff.1 h
    obtain ⟨bs, hl, h⟩ := bind_eq_ok_iff.1 h
    cases h
    rcases List.mem_cons.1 hx with rfl | hx
    · exact ⟨b, List.mem_cons_self .., hy⟩
    · obtain ⟨b', hb', hx'⟩ := mem_mapM_of_mem hl hx
      exact ⟨b', List.mem_cons_of_mem _ hb', hx'⟩

theorem exists_mapM_eq_error {f : α → Except ε β} {l : List α} :
    (∃ e, l.mapM f = .error e) ↔ ∃ x ∈ l, ∃ e, f x = .error e := by
  constructor
  · rintro ⟨e, h⟩
    obtain ⟨before, x, after, rfl, -, hx⟩ := mapM_eq_error_iff.1 h
    exact ⟨x, by simp, e, hx⟩
  · rintro ⟨x, hx, e, he⟩
    cases hall : l.mapM f with
    | error e => exact ⟨e, rfl⟩
    | ok bs =>
      obtain ⟨b, hb⟩ := mapM_ok_iff.1 ⟨bs, hall⟩ x hx
      rw [he] at hb
      cases hb

theorem mapM_ne_error {f : α → Except ε β} {e : ε} {l : List α} (h : ∀ x ∈ l, f x ≠ .error e) :
    l.mapM f ≠ .error e := by
  intro he
  obtain ⟨before, x, after, rfl, -, hx⟩ := mapM_eq_error_iff.1 he
  exact h x (by simp) hx

/-! ## All and any of a list: both stop at the first item that decides them -/

theorem allM_eq_true_iff {f : α → Except ε Bool} :
    ∀ {l : List α}, l.allM f = .ok true ↔ ∀ x ∈ l, f x = .ok true
  | [] => by simp [pure, Except.pure]
  | x :: l => by
    rw [List.allM_cons, List.forall_mem_cons, ← allM_eq_true_iff]
    cases hx : f x with
    | error e => simp [bind, Except.bind]
    | ok b => cases b <;> simp [bind, Except.bind, pure, Except.pure]

theorem exists_of_allM_eq_false {f : α → Except ε Bool} :
    ∀ {l : List α}, l.allM f = .ok false → ∃ x ∈ l, f x = .ok false
  | [], h => by cases h
  | x :: l, h => by
    rw [List.allM_cons] at h
    obtain ⟨b, hx, h⟩ := bind_eq_ok_iff.1 h
    cases b with
    | false => exact ⟨x, List.mem_cons_self .., hx⟩
    | true =>
      obtain ⟨y, hy, hfalse⟩ := exists_of_allM_eq_false h
      exact ⟨y, List.mem_cons_of_mem _ hy, hfalse⟩

theorem exists_of_allM_eq_error {f : α → Except ε Bool} {e : ε} :
    ∀ {l : List α}, l.allM f = .error e → ∃ x ∈ l, f x = .error e
  | [], h => by cases h
  | x :: l, h => by
    rw [List.allM_cons] at h
    rcases bind_eq_error_iff.1 h with hx | ⟨b, -, h⟩
    · exact ⟨x, List.mem_cons_self .., hx⟩
    · cases b with
      | false => cases h
      | true =>
        obtain ⟨y, hy, herror⟩ := exists_of_allM_eq_error h
        exact ⟨y, List.mem_cons_of_mem _ hy, herror⟩

theorem anyM_eq_false_iff {f : α → Except ε Bool} :
    ∀ {l : List α}, l.anyM f = .ok false ↔ ∀ x ∈ l, f x = .ok false
  | [] => by simp [pure, Except.pure]
  | x :: l => by
    rw [List.anyM_cons, List.forall_mem_cons, ← anyM_eq_false_iff]
    cases hx : f x with
    | error e => simp [bind, Except.bind]
    | ok b => cases b <;> simp [bind, Except.bind, pure, Except.pure]

theorem exists_of_anyM_eq_true {f : α → Except ε Bool} :
    ∀ {l : List α}, l.anyM f = .ok true → ∃ x ∈ l, f x = .ok true
  | [], h => by cases h
  | x :: l, h => by
    rw [List.anyM_cons] at h
    obtain ⟨b, hx, h⟩ := bind_eq_ok_iff.1 h
    cases b with
    | true => exact ⟨x, List.mem_cons_self .., hx⟩
    | false =>
      obtain ⟨y, hy, htrue⟩ := exists_of_anyM_eq_true h
      exact ⟨y, List.mem_cons_of_mem _ hy, htrue⟩

theorem exists_of_anyM_eq_error {f : α → Except ε Bool} {e : ε} :
    ∀ {l : List α}, l.anyM f = .error e → ∃ x ∈ l, f x = .error e
  | [], h => by cases h
  | x :: l, h => by
    rw [List.anyM_cons] at h
    rcases bind_eq_error_iff.1 h with hx | ⟨b, -, h⟩
    · exact ⟨x, List.mem_cons_self .., hx⟩
    · cases b with
      | true => cases h
      | false =>
        obtain ⟨y, hy, herror⟩ := exists_of_anyM_eq_error h
        exact ⟨y, List.mem_cons_of_mem _ hy, herror⟩

end Python
