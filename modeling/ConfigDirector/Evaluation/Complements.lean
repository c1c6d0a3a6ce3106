/-
A negative operator is the complement of its positive one: of two conditions that differ in such a pair of
operators exactly one holds, unless the pointer of the condition makes `int` raise on the way to its value.
-/
import ConfigDirector.Evaluation.Pointer
import ConfigDirector.Python.Raise

namespace ConfigDirector.Evaluation

open Python

/-! ## Pairs of operators -/

/-- A target type with an operator and its negation, in lower case, and whether they need a target. -/
structure ComplementPair where
  type : Text
  positive : Text
  negative : Text
  needsTarget : Bool
deriving DecidableEq

def complementPairs : List ComplementPair :=
  [⟨lit "text", lit "equals", lit "does not equal", true⟩,
    ⟨lit "text", lit "is one of", lit "is not one of", false⟩,
    ⟨lit "text", lit "starts with any of", lit "does not start with any of", false⟩,
    ⟨lit "text", lit "ends with any of", lit "does not end with any of", false⟩,
    ⟨lit "semver", lit "is one of", lit "is not one of", false⟩,
    ⟨lit "array", lit "contains any of", lit "does not contain any of", false⟩]

/-- The attributes this version knows about. -/
def knownAttributes : List Text :=
  [lit "identifier", lit "name", lit "kind", lit "appName", lit "appVersion", lit "traits"]

/-- Two conditions on a known attribute that differ in their operators, which are a pair in any letter case. -/
structure Complementary (pair : ComplementPair) (p n : AttributeCondition) : Prop where
  known : p.attributeName ∈ knownAttributes
  sameAttribute : n.attributeName = p.attributeName
  sameTrait : n.trait = p.trait
  sameTargets : n.targetValues = p.targetValues
  positiveType : p.targetType = pair.type
  negativeType : n.targetType = pair.type
  positive : lower p.operator = pair.positive
  negative : lower n.operator = pair.negative
  targets : pair.needsTarget = true → p.targetValues ≠ []

/-- The integers that are rendered have as many digits as `str` writes. -/
def RendersInts (type : Text) : PyValue → Prop
  | .int k => type ≠ lit "array" → (natText k.natAbs).length ≤ maxStrDigits
  | .list items => type = lit "array" → ∀ k : ℤ, .int k ∈ items → (natText k.natAbs).length ≤ maxStrDigits
  | _ => True

/-! ## Comparisons -/

theorem compareText_complement {pair : ComplementPair} (hpair : pair ∈ complementPairs) (htype : pair.type = lit "text")
    {positive negative : Text} (hpositive : lower positive = pair.positive) (hnegative : lower negative = pair.negative)
    (value : Text) {targets : List Text} (htargets : pair.needsTarget = true → targets ≠ []) :
    compareText value negative targets = !compareText value positive targets := by
  simp only [complementPairs, List.mem_cons, List.not_mem_nil, or_false] at hpair
  unfold compareText
  simp only [hpositive, hnegative]
  rcases hpair with rfl | rfl | rfl | rfl | rfl | rfl
  · cases targets with
    | nil => exact absurd rfl (htargets rfl)
    | cons first targets => rfl
  · rfl
  · rfl
  · rfl
  · cases htype
  · cases htype

theorem compareSemver_complement {pair : ComplementPair} (hpair : pair ∈ complementPairs)
    (htype : pair.type = lit "semver") {positive negative : Text} (hpositive : lower positive = pair.positive)
    (hnegative : lower negative = pair.negative) (value : Text) (targets : List Text) :
    compareSemver value negative targets = !compareSemver value positive targets := by
  simp only [complementPairs, List.mem_cons, List.not_mem_nil, or_false] at hpair
  unfold compareSemver
  simp only [hpositive, hnegative]
  rcases hpair with rfl | rfl | rfl | rfl | rfl | rfl
  · cases htype
  · cases htype
  · cases htype
  · cases htype
  · -- blank text is compared before it is coerced
    cases (strip value).isEmpty <;> rfl
  · cases htype

theorem renderScalar_ok {x : Scalar} (h : ∀ k, x = .int k → (natText k.natAbs).length ≤ maxStrDigits) :
    ∃ text, renderScalar x = .ok text := by
  cases x with
  | int k =>
    rw [renderScalar, if_neg (Nat.not_lt.2 (h k rfl))]
    exact ⟨_, rfl⟩
  | _ => exact ⟨_, rfl⟩

theorem scalar?_int {v : PyValue} {k : ℤ} (h : scalar? v = some (.int k)) : v = .int k := by
  cases v with
  | int m => simpa [scalar?] using h
  | _ => simp [scalar?] at h

theorem render_ok {type : Text} {value : Resolved} (htype : type ≠ lit "array")
    (hrenders : ∀ v, value = .value v → RendersInts type v) : ∃ text, render value = .ok text := by
  cases value with
  | value v =>
    rw [render]
    cases hscalar : scalar? v with
    | none => exact ⟨_, rfl⟩
    | some x =>
      refine renderScalar_ok fun k hk => ?_
      subst hk
      have hv := hrenders v rfl
      rw [scalar?_int hscalar] at hv
      exact hv htype
  | _ => exact ⟨_, rfl⟩

theorem compareArray_complement {pair : ComplementPair} (hpair : pair ∈ complementPairs)
    (htype : pair.type = lit "array") {positive negative : Text} (hpositive : lower positive = pair.positive)
    (hnegative : lower negative = pair.negative) {value : PyValue} (hrenders : RendersInts (lit "array") value)
    (targets : List Text) :
    ∃ b, compareArray value positive targets = .ok b ∧ compareArray value negative targets = .ok !b := by
  simp only [complementPairs, List.mem_cons, List.not_mem_nil, or_false] at hpair
  rcases hpair with rfl | rfl | rfl | rfl | rfl | rfl
  · cases htype
  · cases htype
  · cases htype
  · cases htype
  · cases htype
  · unfold compareArray
    simp only [hpositive, hnegative]
    cases value with
    | list items =>
      obtain ⟨elements, helements⟩ : ∃ elements, (items.filterMap scalar?).mapM renderScalar = .ok elements := by
        refine mapM_ok_iff.2 fun x hx => renderScalar_ok fun k hk => ?_
        obtain ⟨v, hv, hscalar⟩ := List.mem_filterMap.1 hx
        rw [hk] at hscalar
        exact hrenders rfl k (scalar?_int hscalar ▸ hv)
      simp only [helements]
      exact ⟨_, rfl, rfl⟩
    | _ => exact ⟨_, rfl, rfl⟩

/-- The comparison by one operator is the negation of that by the other. -/
theorem compareAs_complement {pair : ComplementPair} (hpair : pair ∈ complementPairs) {positive negative : Text}
    (hpositive : lower positive = pair.positive) (hnegative : lower negative = pair.negative) (value : Resolved)
    (hrenders : ∀ v, value = .value v → RendersInts pair.type v) {targets : List Text}
    (htargets : pair.needsTarget = true → targets ≠ []) :
    ∃ b, compareAs pair.type value positive targets = .ok b ∧ compareAs pair.type value negative targets = .ok !b := by
  have htype : pair.type = lit "text" ∨ pair.type = lit "semver" ∨ pair.type = lit "array" := by
    simp only [complementPairs, List.mem_cons, List.not_mem_nil, or_false] at hpair
    rcases hpair with rfl | rfl | rfl | rfl | rfl | rfl <;> decide
  rcases htype with htype | htype | htype
  · obtain ⟨text, htext⟩ := render_ok (by rw [htype]; decide) hrenders
    rw [htype]
    refine ⟨compareText text positive targets, ?_, ?_⟩
    · show (do return compareText (← render value) positive targets : Except Exc Bool) = _
      rw [htext]
      rfl
    · show (do return compareText (← render value) negative targets : Except Exc Bool) = _
      rw [htext, ← compareText_complement hpair htype hpositive hnegative text htargets]
      rfl
  · obtain ⟨text, htext⟩ := render_ok (by rw [htype]; decide) hrenders
    rw [htype]
    refine ⟨compareSemver text positive targets, ?_, ?_⟩
    · show (do return compareSemver (← render value) positive targets : Except Exc Bool) = _
      rw [htext]
      rfl
    · show (do return compareSemver (← render value) negative targets : Except Exc Bool) = _
      rw [htext, ← compareSemver_complement hpair htype hpositive hnegative text targets]
      rfl
  · rw [htype] at hrenders ⊢
    have hunwrap : RendersInts (lit "array") (unwrap value) := by
      cases value with
      | value v => exact hrenders v rfl
      | _ => trivial
    exact compareArray_complement hpair htype hpositive hnegative hunwrap targets

/-! ## What is compared -/

/-- The raw tokens of a pointer lead to a list and go on with an index of more digits than `int` reads. -/
def HitsDigitLimit (document : PyValue) (pointer : Text) : Prop :=
  pointer.head? = some 0x2F ∧ ∃ before token after items,
    (splitOn 0x2F pointer).tail = before.map escape ++ token :: after ∧
    walk document before = some (.list items) ∧ token = natText (digitsToNat token) ∧ maxStrDigits < token.length

/-- The value of the condition is not one `int` raises on the way to. -/
def Readable (condition : AttributeCondition) (context : Option EvaluationContext) : Prop :=
  condition.attributeName = lit "traits" → ∀ trait, condition.trait = some trait →
    ¬ HitsDigitLimit (Context.traitsValue (contextOf context)) trait

theorem not_raises_ok {α ε : Type} (x : α) : ¬ ∃ e : ε, (Except.ok x : Except ε α) = .error e := by
  rintro ⟨e, h⟩
  cases h

/-- A walk raises exactly where it comes to an index of too many digits. -/
theorem pointerWalk_error_iff : ∀ {rawTokens : List Text} (current : PyValue), (∀ raw ∈ rawTokens, 0x2F ∉ raw) →
    ((∃ e, pointerWalk current rawTokens = .error e) ↔ ∃ before token after items,
      rawTokens = before.map escape ++ token :: after ∧ walk current before = some (.list items) ∧
      token = natText (digitsToNat token) ∧ maxStrDigits < token.length)
  | [], current, _ => by
    refine iff_of_false (not_raises_ok _) ?_
    rintro ⟨before, token, after, items, h, -⟩
    exact List.append_ne_nil_of_right_ne_nil _ (List.cons_ne_nil _ _) h.symm
  | raw :: rest, current, hfree => by
    rw [List.forall_mem_cons] at hfree
    rw [pointerWalk]
    -- the escaped form of the token that is too long is the token
    have hplain : ∀ {token : Text}, token = natText (digitsToNat token) → escape token = token := fun h =>
      escape_digits (h ▸ allDigits_natText _)
    cases hvalid : invalidEscape raw with
    | true =>
      refine iff_of_false (not_raises_ok _) ?_
      have hescaped : ∀ token, raw ≠ escape token := by
        rintro token rfl
        rw [invalidEscape_escape] at hvalid
        cases hvalid
      rintro ⟨before, token, after, items, h, -, hindex, -⟩
      cases before with
      | nil => exact hescaped token ((List.cons.inj h).1.trans (hplain hindex).symm)
      | cons b before => exact hescaped b (List.cons.inj h).1
    | false =>
      obtain ⟨token, rfl⟩ := exists_escape hfree.1 hvalid
      rw [if_neg Bool.false_ne_true, unescape_escape]
      by_cases hbeyond : BeyondDigitLimit current token
      · rw [pointerStep_beyond hbeyond]
        obtain ⟨⟨items, rfl⟩, hindex, hlong⟩ := hbeyond
        exact iff_of_true ⟨_, rfl⟩ ⟨[], token, rest, items, by rw [hplain hindex]; rfl, rfl, hindex, hlong⟩
      · rw [pointerStep_within hbeyond]
        have hnext : (∃ before last after items, escape token :: rest = before.map escape ++ last :: after ∧
            walk current before = some (.list items) ∧ last = natText (digitsToNat last) ∧ maxStrDigits < last.length) ↔
            ∃ next, child? current token = some next ∧ ∃ before last after items, rest = before.map escape ++ last :: after ∧
              walk next before = some (.list items) ∧ last = natText (digitsToNat last) ∧ maxStrDigits < last.length := by
          constructor
          · rintro ⟨before, last, after, items, h, hwalk, hindex, hlong⟩
            cases before with
            | nil =>
              have hlast : token = last := escape_injective ((List.cons.inj h).1.trans (hplain hindex).symm)
              subst hlast
              cases hwalk
              exact absurd ⟨⟨items, rfl⟩, hindex, hlong⟩ hbeyond
            | cons b before =>
              obtain ⟨hb, hrest⟩ := List.cons.inj h
              cases escape_injective hb
              obtain ⟨next, hchild, hwalk⟩ := Option.bind_eq_some_iff.1 hwalk
              exact ⟨next, hchild, before, last, after, items, hrest, hwalk, hindex, hlong⟩
          · rintro ⟨next, hchild, before, last, after, items, hrest, hwalk, hlast⟩
            refine ⟨token :: before, last, after, items, by rw [hrest]; rfl, ?_, hlast⟩
            rw [walk, hchild]
            exact hwalk
        rw [hnext]
        cases child? current token with
        | none =>
          refine iff_of_false (not_raises_ok _) ?_
          rintro ⟨next, hnone, -⟩
          cases hnone
        | some next =>
          refine (pointerWalk_error_iff next hfree.2).trans ⟨fun h => ⟨next, rfl, h⟩, ?_⟩
          rintro ⟨_, heq, h⟩
          cases heq
          exact h

theorem findByPointer_error_iff (pointer : Text) (document : PyValue) :
    (∃ e, findByPointer pointer document = .error e) ↔ HitsDigitLimit document pointer := by
  unfold HitsDigitLimit
  cases pointer with
  | nil => exact iff_of_false (not_raises_ok _) fun h => (by cases h.1)
  | cons c rest =>
    rw [findByPointer]
    by_cases hslash : c = 0x2F
    · subst hslash
      obtain ⟨part, parts, hsplit, hfree, -⟩ := splitOn_parts 0x2F rest
      rw [if_pos rfl, splitOn_cons_self, List.tail_cons, hsplit, pointerWalk_error_iff document hfree]
      exact (and_iff_right rfl).symm
    · rw [if_neg hslash]
      refine iff_of_false (not_raises_ok _) fun h => hslash ?_
      exact Option.some.inj h.1

/-- A known attribute is resolved to something to compare, or `int` raises on the way. -/
theorem resolve_cases {condition : AttributeCondition} (context : Option EvaluationContext)
    (hknown : condition.attributeName ∈ knownAttributes) :
    Readable condition context ∧ (∃ value, resolve condition context = .ok value ∧ value ≠ .unknownAttribute) ∨
      ¬ Readable condition context ∧ ∃ e, resolve condition context = .error e := by
  have htext : ∀ s, textOrAbsent s ≠ .unknownAttribute := fun s => by cases s <;> exact fun h => (by cases h)
  unfold resolve
  by_cases htraits : condition.attributeName = lit "traits"
  · have hreadable : Readable condition context ↔ ∀ trait, condition.trait = some trait →
        ¬ HitsDigitLimit (Context.traitsValue (contextOf context)) trait := ⟨fun h => h htraits, fun h _ => h⟩
    rw [hreadable, htraits]
    cases htrait : condition.trait with
    | none => exact .inl ⟨fun _ h => (by cases h), _, rfl, fun h => (by cases h)⟩
    | some trait =>
      cases trait with
      | nil =>
        refine .inl ⟨fun trait htrait hlimit => ?_, _, rfl, fun h => (by cases h)⟩
        cases htrait
        cases hlimit.1
      | cons c trait =>
        show _ ∧ (∃ value, (do return orAbsent (← findByPointer (c :: trait) _) : Except Exc Resolved) = .ok value ∧ _) ∨
          _ ∧ ∃ e, (do return orAbsent (← findByPointer (c :: trait) _) : Except Exc Resolved) = .error e
        cases hfind : findByPointer (c :: trait) (Context.traitsValue (contextOf context)) with
        | ok v =>
          refine .inl ⟨fun trait htrait hlimit => ?_, orAbsent v, rfl, by cases v <;> exact fun h => (by cases h)⟩
          cases htrait
          obtain ⟨e, he⟩ := (findByPointer_error_iff _ _).2 hlimit
          rw [hfind] at he
          cases he
        | error e => exact .inr ⟨fun h => h _ rfl ((findByPointer_error_iff _ _).1 ⟨e, hfind⟩), e, rfl⟩
  · refine .inl ⟨fun h => absurd h htraits, ?_⟩
    simp only [knownAttributes, List.mem_cons, List.not_mem_nil, or_false] at hknown
    rcases hknown with h | h | h | h | h | h
    · exact ⟨_, if_pos h, htext _⟩
    · rw [h]
      exact ⟨_, rfl, htext _⟩
    · rw [h]
      exact ⟨_, rfl, fun h => (by cases h)⟩
    · rw [h]
      exact ⟨_, rfl, htext _⟩
    · rw [h]
      exact ⟨_, rfl, htext _⟩
    · exact absurd h htraits

/-! ## Exactly one of the two -/

/-- Exactly one of two conditions that differ in a pair of operators holds, unless `int` raises on the way to
their value: then neither does. -/
theorem complement_iff {pair : ComplementPair} (hpair : pair ∈ complementPairs) {p n : AttributeCondition}
    (h : Complementary pair p n) {context : Option EvaluationContext}
    (hrenders : ∀ v, resolve p context = .ok (.value v) → RendersInts pair.type v) :
    Xor (evaluateCondition p context = .ok true) (evaluateCondition n context = .ok true) ↔ Readable p context := by
  have hresolve : resolve n context = resolve p context := by
    unfold resolve
    rw [h.sameAttribute, h.sameTrait]
  unfold evaluateCondition
  rw [hresolve]
  rcases resolve_cases context h.known with ⟨hreadable, value, hvalue, hknown⟩ | ⟨hreadable, e, herror⟩
  · refine iff_of_true ?_ hreadable
    obtain ⟨b, hpositive, hnegative⟩ := compareAs_complement hpair h.positive h.negative value
      (fun v hv => hrenders v (hv ▸ hvalue)) h.targets
    rw [← h.positiveType] at hpositive
    rw [← h.negativeType, ← h.sameTargets] at hnegative
    rw [hvalue]
    cases value with
    | unknownAttribute => exact absurd rfl hknown
    | absent | value v =>
      show Xor (compareAs p.targetType _ p.operator p.targetValues = .ok true)
        (compareAs n.targetType _ n.operator n.targetValues = .ok true)
      rw [hpositive, hnegative]
      cases b
      · exact .inr ⟨rfl, fun h => (by cases h)⟩
      · exact .inl ⟨rfl, fun h => (by cases h)⟩
  · refine iff_of_false ?_ hreadable
    rw [herror]
    rintro (⟨h, -⟩ | ⟨h, -⟩) <;> cases h

def traitCondition (operator pointer : Text) : AttributeCondition :=
  ⟨lit "a condition", lit "traits", operator, lit "text", [lit "pro"], some pointer⟩

/-- A context with one trait, a list. -/
def listTrait (name : Text) (items : List PyValue) : Option EvaluationContext :=
  some ⟨some ⟨none, none, some [(name, .list items)], false, none⟩, none⟩

/-- Two trait conditions whose operators say the one and the other. -/
theorem complementary_of_operators {positive negative : Text} (hpositive : lower positive = lit "is one of")
    (hnegative : lower negative = lit "is not one of") (pointer : Text) :
    Complementary ⟨lit "text", lit "is one of", lit "is not one of", false⟩ (traitCondition positive pointer)
      (traitCondition negative pointer) where
  known := show lit "traits" ∈ knownAttributes by decide +kernel
  sameAttribute := rfl
  sameTrait := rfl
  sameTargets := rfl
  positiveType := rfl
  negativeType := rfl
  positive := hpositive
  negative := hnegative
  targets := fun h => (by cases h)

theorem complementary_traitCondition (pointer : Text) :
    Complementary ⟨lit "text", lit "is one of", lit "is not one of", false⟩ (traitCondition (lit "is one of") pointer)
      (traitCondition (lit "is NOT one of") pointer) :=
  complementary_of_operators (by decide +kernel) (by decide +kernel) pointer

/-- An index beyond the end of a list is compared as empty text. -/
theorem complement_iff_beyond_end :
    Xor (evaluateCondition (traitCondition (lit "is one of") (lit "/plans/7")) (listTrait (lit "plans") []) = .ok true)
      (evaluateCondition (traitCondition (lit "is NOT one of") (lit "/plans/7")) (listTrait (lit "plans") []) =
        .ok true) := by
  have hfind : findByPointer (lit "/plans/7") (Context.traitsValue (contextOf (listTrait (lit "plans") []))) =
      .ok .none := rfl
  refine (complement_iff (by decide) (complementary_traitCondition _) fun v hv => ?_).2 fun _ trait htrait hlimit => ?_
  · have habsent : resolve (traitCondition (lit "is one of") (lit "/plans/7")) (listTrait (lit "plans") []) =
        .ok .absent := rfl
    rw [habsent] at hv
    cases hv
  · cases htrait
    obtain ⟨e, he⟩ := (findByPointer_error_iff _ _).2 hlimit
    rw [hfind] at he
    cases he

/-- An index with one digit more than `int` reads. -/
def longIndex : Text := List.replicate (maxStrDigits + 1) 0x31

/-- Neither condition holds for a list and an index that `int` refuses, also when nothing is rendered. -/
theorem long_index_decides_neither : ∃ pair ∈ complementPairs, ∃ p n,
    Complementary pair p n ∧ p = traitCondition (lit "is one of") (lit "/plans/" ++ longIndex) ∧
    (∀ v, resolve p (listTrait (lit "plans") []) ≠ .ok (.value v)) ∧
    ¬ Xor (evaluateCondition p (listTrait (lit "plans") []) = .ok true)
      (evaluateCondition n (listTrait (lit "plans") []) = .ok true) := by
  have hdigits : ∀ c ∈ longIndex, c = 0x31 := fun c hc => List.eq_of_mem_replicate hc
  have hslash : 0x2F ∉ longIndex := fun h => by cases hdigits _ h
  have hindex : longIndex = natText (digitsToNat longIndex) := by
    refine (natText_digitsToNat (fun c hc => ?_) (List.cons_ne_nil _ _) ?_).symm
    · rw [hdigits c hc]
      decide
    · exact fun h => by cases h
  have hsplit : splitOn 0x2F (lit "/plans/" ++ longIndex) = [[], lit "plans", longIndex] := by
    rw [show lit "/plans/" ++ longIndex = 0x2F :: (lit "plans" ++ 0x2F :: longIndex) from rfl, splitOn_cons_self,
      splitOn_append_self (by decide), splitOn_of_not_mem hslash]
  obtain ⟨e, he⟩ := (findByPointer_error_iff (lit "/plans/" ++ longIndex) (.dict [(lit "plans", .list [])])).2
    ⟨rfl, [lit "plans"], longIndex, [], [], by rw [hsplit]; rfl, rfl, hindex, by rw [longIndex, List.length_replicate]; omega⟩
  have herror : ∀ operator, resolve (traitCondition operator (lit "/plans/" ++ longIndex)) (listTrait (lit "plans") []) =
      .error e := fun operator => by
    show (do return orAbsent (← findByPointer (lit "/plans/" ++ longIndex) (.dict [(lit "plans", .list [])])) :
      Except Exc Resolved) = _
    rw [he]
    rfl
  refine ⟨_, by decide, _, _, complementary_traitCondition (lit "/plans/" ++ longIndex), rfl, fun v hv => ?_, ?_⟩
  · rw [herror] at hv
    cases hv
  · unfold evaluateCondition
    rw [herror, herror]
    rintro (⟨h, -⟩ | ⟨h, -⟩) <;> cases h

end ConfigDirector.Evaluation
