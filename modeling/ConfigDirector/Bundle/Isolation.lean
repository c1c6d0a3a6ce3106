/-
One unreadable entry does not cost the rest of a bundle, as long as what makes it unreadable is one of
the exceptions the parser catches. The entries of a document are read independently, so the parsed
bundle is given key by key.
-/
import ConfigDirector.Bundle.Overflow

namespace ConfigDirector.Bundle

open Python Evaluation

/-! ## The loop over entries -/

section Entries

variable {β : Type} {parse : PyValue → Except Exc β}

theorem isUnreadable_eq_false_iff (e : Exc) : isUnreadable e = false ↔ e = .overflowError := by
  cases e <;> simp [isUnreadable, Exc.isValueError]

/-- The loop returns unless a definition overflows. -/
theorem readEntries_ok_iff : ∀ {raw : List (Text × PyValue)} {acc : Dict Text β × List Text},
    (∃ r, readEntries parse raw acc = .ok r) ↔ ∀ p ∈ raw, parse p.2 ≠ .error .overflowError
  | [], acc => ⟨fun _ p hp => (List.not_mem_nil hp).elim, fun _ => ⟨acc, rfl⟩⟩
  | (key, definition) :: rest, (read, unreadable) => by
    rw [List.forall_mem_cons, readEntries]
    cases h : parse definition with
    | ok b =>
      simp only [readEntries_ok_iff, ne_eq, reduceCtorEq, not_false_eq_true, true_and]
    | error e =>
      by_cases he : isUnreadable e = true
      · have hne : e ≠ .overflowError := by
          rintro rfl
          cases he
        simp only [he, if_true, readEntries_ok_iff, ne_eq, Except.error.injEq, hne, not_false_eq_true, true_and]
      · rw [Bool.not_eq_true] at he
        obtain rfl := (isUnreadable_eq_false_iff e).1 he
        simp only [he, Bool.false_eq_true, if_false, reduceCtorEq, exists_false, ne_eq, not_true_eq_false,
          false_and]

theorem readEntries_error : ∀ {raw : List (Text × PyValue)} {acc : Dict Text β × List Text} {e : Exc},
    readEntries parse raw acc = .error e → e = .overflowError
  | [], _, _, h => by cases h
  | (key, definition) :: rest, (read, unreadable), e, h => by
    rw [readEntries] at h
    split at h
    · exact readEntries_error h
    · split at h
      · exact readEntries_error h
      · next he =>
        cases h
        exact (isUnreadable_eq_false_iff e).1 (Bool.not_eq_true _ ▸ he)

/-- The parsed definition of a key depends on what is under that key only. -/
theorem readEntries_result : ∀ {raw : List (Text × PyValue)} {read read' : Dict Text β} {unreadable unreadable' : List Text},
    (raw.map Prod.fst).Nodup → readEntries parse raw (read, unreadable) = .ok (read', unreadable') →
    (∀ k, read'.get? k = ((raw.lookup k).bind fun v => (parse v).toOption).or (read.get? k)) ∧
      ∀ k, k ∈ unreadable' ↔ k ∈ unreadable ∨ ∃ v, raw.lookup k = some v ∧ (parse v).toOption = none
  | [], read, read', unreadable, unreadable', _, h => by
    cases h
    simp
  | (key, definition) :: rest, read, read', unreadable, unreadable', hnodup, h => by
    rw [List.map_cons, List.nodup_cons] at hnodup
    have habsent : rest.lookup key = none := by
      rw [← Option.not_isSome_iff_eq_none, Dict.lookup_isSome]
      exact hnodup.1
    rw [readEntries] at h
    cases hp : parse definition with
    | ok b =>
      rw [hp] at h
      -- the keys of the rest are others, so nothing overwrites this entry
      obtain ⟨hread, hunreadable⟩ := readEntries_result hnodup.2 h
      constructor
      · intro k
        rw [hread, Dict.get?_set, Dict.lookup_cons_ite]
        by_cases hk : k = key
        · subst hk
          simp [habsent, hp, Except.toOption]
        · simp [hk]
      · intro k
        rw [hunreadable, Dict.lookup_cons_ite]
        by_cases hk : k = key
        · subst hk
          simp [habsent, hp, Except.toOption]
        · simp [hk]
    | error e =>
      rw [hp] at h
      simp only at h
      split at h
      · obtain ⟨hread, hunreadable⟩ := readEntries_result hnodup.2 h
        constructor
        · intro k
          rw [hread, Dict.lookup_cons_ite]
          by_cases hk : k = key
          · subst hk
            simp [habsent, hp, Except.toOption]
          · simp [hk]
        · intro k
          rw [hunreadable, Dict.lookup_cons_ite]
          by_cases hk : k = key
          · subst hk
            simp [hp, Except.toOption]
          · simp [hk]
      · cases h

end Entries

/-! ## Documents -/

/-- A JSON document that is an object whose `configs` is an object. -/
structure Document where
  entries : List (Text × PyValue)
  configs : List (Text × PyValue)
  json : (PyValue.dict entries).IsJson
  configs_eq : fieldOf entries (lit "configs") = .dict configs

namespace Document

/-- What is under `segments`, if that is an object. -/
def segments (d : Document) : List (Text × PyValue) :=
  match fieldOf d.entries (lit "segments") with
  | .dict entries => entries
  | _ => []

theorem isJson_field (d : Document) {field : Text} {entries : List (Text × PyValue)}
    (h : fieldOf d.entries field = .dict entries) : (PyValue.dict entries).IsJson := by
  unfold fieldOf at h
  cases hl : d.entries.lookup field with
  | none => rw [hl] at h; cases h
  | some v =>
    rw [hl, Option.getD_some] at h
    exact h ▸ isJson_of_lookup d.json hl

theorem configs_json (d : Document) : (PyValue.dict d.configs).IsJson := d.isJson_field d.configs_eq

theorem configs_nodup (d : Document) : (d.configs.map Prod.fst).Nodup := by
  have := d.configs_json
  rw [PyValue.IsJson] at this
  exact this.1

theorem segments_nodup (d : Document) : (d.segments.map Prod.fst).Nodup := by
  unfold segments
  split
  · rename_i entries h
    have := d.isJson_field h
    rw [PyValue.IsJson] at this
    exact this.1
  · exact List.nodup_nil

theorem isJson_of_mem (d : Document) {p : Text × PyValue} (h : p ∈ d.configs) : p.2.IsJson := by
  have := d.configs_json
  rw [PyValue.IsJson, PyValue.isJsonEntries_iff] at this
  exact this.2 p h

end Document

theorem isJson_setEntries {entries : List (Text × PyValue)} (h : (PyValue.dict entries).IsJson) (key : Text)
    {v : PyValue} (hv : v.IsJson) : (PyValue.dict (Dict.setEntries key v entries)).IsJson := by
  rw [PyValue.IsJson, PyValue.isJsonEntries_iff] at h ⊢
  refine ⟨Dict.nodup_setEntries key v h.1, fun p hp => ?_⟩
  rcases Dict.mem_setEntries hp with rfl | hp
  · exact hv
  · exact h.2 p hp

theorem fieldOf_setEntries (entries : List (Text × PyValue)) (key field : Text) (v : PyValue) :
    fieldOf (Dict.setEntries key v entries) field = if field = key then v else fieldOf entries field := by
  unfold fieldOf
  rw [Dict.lookup_setEntries]
  split <;> rfl

namespace Document

/-- The document with another definition under a config key. -/
def setConfig (d : Document) (key : Text) (v : PyValue) (hv : v.IsJson) : Document where
  entries := Dict.setEntries (lit "configs") (.dict (Dict.setEntries key v d.configs)) d.entries
  configs := Dict.setEntries key v d.configs
  json := isJson_setEntries d.json _ (isJson_setEntries d.configs_json key hv)
  configs_eq := by rw [fieldOf_setEntries, if_pos rfl]

/-- The document with another definition under a segment id. -/
def setSegment (d : Document) {entries : List (Text × PyValue)}
    (h : fieldOf d.entries (lit "segments") = .dict entries) (id : Text) (v : PyValue) (hv : v.IsJson) : Document where
  entries := Dict.setEntries (lit "segments") (.dict (Dict.setEntries id v entries)) d.entries
  configs := d.configs
  json := isJson_setEntries d.json _ (isJson_setEntries (d.isJson_field h) id hv)
  configs_eq := by rw [fieldOf_setEntries, if_neg (by decide)]; exact d.configs_eq

theorem segments_setConfig (d : Document) (key : Text) {v : PyValue} (hv : v.IsJson) :
    (d.setConfig key v hv).segments = d.segments := by
  unfold segments setConfig
  rw [fieldOf_setEntries, if_neg (by decide)]

theorem segments_setSegment (d : Document) {entries : List (Text × PyValue)}
    (h : fieldOf d.entries (lit "segments") = .dict entries) (id : Text) {v : PyValue} (hv : v.IsJson) :
    (d.setSegment h id v hv).segments = Dict.setEntries id v entries := by
  unfold segments setSegment
  rw [fieldOf_setEntries, if_pos rfl]

theorem segments_eq (d : Document) {entries : List (Text × PyValue)}
    (h : fieldOf d.entries (lit "segments") = .dict entries) : d.segments = entries := by
  unfold segments
  rw [h]

end Document

/-! ## The parsed bundle -/

section Parsed

variable [Unicode]

/-- No definition overflows. -/
def Fits (configs : List (Text × PyValue)) : Prop := ∀ p ∈ configs, ¬ Overflows p.2

def parse (d : Document) : Except BundleError ConfigBundle := parseDocument (.dict d.entries)

theorem parseSegments_ok (d : Document) :
    ∃ segments, parseSegments (fieldOf d.entries (lit "segments")) = .ok segments ∧
      ∀ id, segments.get? id = (d.segments.lookup id).bind fun v => (parseSegment v).toOption := by
  have hnodup := d.segments_nodup
  unfold Document.segments at hnodup ⊢
  -- anything but an object counts as no segments
  generalize fieldOf d.entries (lit "segments") = raw at hnodup ⊢
  cases raw with
  | dict entries =>
    have hok : ∃ r, readEntries parseSegment entries (∅, []) = .ok r :=
      readEntries_ok_iff.2 fun p _ => parseSegment_no_overflow p.2
    obtain ⟨⟨segments, ids⟩, h⟩ := hok
    refine ⟨segments, bind_eq_ok_iff.2 ⟨_, h, rfl⟩, fun id => ?_⟩
    rw [(readEntries_result hnodup h).1 id, Dict.get?_empty, Option.or_none]
  | _ => exact ⟨∅, rfl, fun id => rfl⟩

theorem parse_ok_iff (d : Document) : (∃ b, parse d = .ok b) ↔ Fits d.configs := by
  obtain ⟨segments, hsegments, -⟩ := parseSegments_ok d
  have hconfigs : (∃ r, parseConfigs d.configs = .ok r) ↔ Fits d.configs := by
    unfold parseConfigs Fits
    rw [readEntries_ok_iff]
    exact forall₂_congr fun p hp => not_congr (parseConfig_overflow_iff (d.isJson_of_mem hp))
  rw [← hconfigs]
  unfold parse parseDocument
  simp only [d.configs_eq]
  constructor
  · rintro ⟨b, h⟩
    cases hr : parseConfigs d.configs with
    | ok r => exact ⟨r, rfl⟩
    | error e => rw [hr] at h; cases h
  · rintro ⟨⟨configs, unreadable⟩, hr⟩
    rw [hr, hsegments]
    exact ⟨_, rfl⟩

theorem parse_error {d : Document} {e : BundleError} (h : parse d = .error e) : e.isValueError = false := by
  obtain ⟨segments, hsegments, -⟩ := parseSegments_ok d
  unfold parse parseDocument at h
  simp only [d.configs_eq] at h
  cases hr : parseConfigs d.configs with
  | ok r => rw [hr, hsegments] at h; cases h
  | error e' =>
    obtain rfl := readEntries_error hr
    rw [hr] at h
    cases h
    rfl

/-- A parsed bundle, key by key. -/
theorem parse_result {d : Document} {b : ConfigBundle} (h : parse d = .ok b) :
    (∀ k, b.configs.get? k = (d.configs.lookup k).bind fun v => (parseConfig v).toOption) ∧
      (∀ k, k ∈ b.unreadableKeys ↔ ∃ v, d.configs.lookup k = some v ∧ (parseConfig v).toOption = none) ∧
      ∀ id, b.segments.get? id = (d.segments.lookup id).bind fun v => (parseSegment v).toOption := by
  obtain ⟨segments, hsegments, hget⟩ := parseSegments_ok d
  unfold parse parseDocument at h
  simp only [d.configs_eq] at h
  cases hr : parseConfigs d.configs with
  | error e => rw [hr] at h; cases h
  | ok r =>
    obtain ⟨configs, unreadable⟩ := r
    rw [hr, hsegments] at h
    cases h
    obtain ⟨hread, hunreadable⟩ := readEntries_result d.configs_nodup hr
    refine ⟨fun k => ?_, fun k => ?_, hget⟩
    · rw [hread, Dict.get?_empty, Option.or_none]
    · rw [hunreadable]
      simp

theorem parse_disjoint {d : Document} {b : ConfigBundle} (h : parse d = .ok b) : b.Disjoint := by
  intro key hkey
  obtain ⟨hconfigs, hunreadable, -⟩ := parse_result h
  obtain ⟨v, hv, hnone⟩ := (hunreadable key).1 hkey
  rw [hconfigs, hv, Option.bind_some, hnone]

/-! ## Isolation -/

/-- Parsing returns, with every key either read or listed as unreadable. -/
def Returns (d : Document) : Prop :=
  ∃ b, parse d = .ok b ∧ ∀ k ∈ d.configs.map Prod.fst, Xor (k ∈ b.configs.keys) (k ∈ b.unreadableKeys)

/-- Two documents parse to the same definitions except, perhaps, under one config key or segment id. -/
def Unaffected (d d' : Document) (config segment : Option Text) : Prop :=
  ∃ b b', parse d = .ok b ∧ parse d' = .ok b' ∧
    (∀ k, some k ≠ config → b'.configs.get? k = b.configs.get? k) ∧
    ∀ id, some id ≠ segment → b'.segments.get? id = b.segments.get? id

theorem returns_iff (d : Document) : Returns d ↔ Fits d.configs := by
  rw [← parse_ok_iff]
  constructor
  · rintro ⟨b, h, -⟩
    exact ⟨b, h⟩
  · rintro ⟨b, h⟩
    refine ⟨b, h, fun k hk => ?_⟩
    obtain ⟨hconfigs, hunreadable, -⟩ := parse_result h
    rw [Dict.mem_keys, hconfigs, hunreadable]
    obtain ⟨v, hv⟩ := Option.isSome_iff_exists.1 ((Dict.lookup_isSome k d.configs).2 hk)
    rw [hv]
    cases hp : (parseConfig v).toOption <;> simp [Xor, hp]

theorem fits_setConfig_iff (d : Document) {key : Text} {v : PyValue}
    (hv : v.IsJson) : Fits d.configs ∧ Fits (d.setConfig key v hv).configs ↔ Fits d.configs ∧ ¬ Overflows v := by
  refine and_congr_right fun hfits => ?_
  constructor
  · intro h
    exact h (key, v) (Dict.mem_setEntries_self key v d.configs)
  · intro h p hp
    rcases Dict.mem_setEntries hp with rfl | hp
    · exact h
    · exact hfits p hp

/-- What a bundle parser that isolates its entries promises holds of the inputs without an overflow,
and of no others. -/
theorem isolated_iff (d : Document) :
    (Returns d ↔ Fits d.configs) ∧
    (∀ key ∈ d.configs.map Prod.fst, ∀ (v : PyValue) (hv : v.IsJson),
      Unaffected d (d.setConfig key v hv) (some key) none ↔ Fits d.configs ∧ ¬ Overflows v) ∧
    ∀ (entries : List (Text × PyValue)) (h : fieldOf d.entries (lit "segments") = .dict entries),
      ∀ id ∈ entries.map Prod.fst, ∀ (v : PyValue) (hv : v.IsJson),
        Unaffected d (d.setSegment h id v hv) none (some id) ↔ Fits d.configs := by
  refine ⟨returns_iff d, fun key _ v hv => ?_, fun entries h id _ v hv => ?_⟩
  · rw [← fits_setConfig_iff d hv, ← parse_ok_iff, ← parse_ok_iff]
    constructor
    · rintro ⟨b, b', hb, hb', -⟩
      exact ⟨⟨b, hb⟩, b', hb'⟩
    · rintro ⟨⟨b, hb⟩, b', hb'⟩
      obtain ⟨hconfigs, -, hsegments⟩ := parse_result hb
      obtain ⟨hconfigs', -, hsegments'⟩ := parse_result hb'
      refine ⟨b, b', hb, hb', fun k hne => ?_, fun id _ => ?_⟩
      · have hne' : k ≠ key := fun e => hne (congrArg some e)
        rw [hconfigs, hconfigs']
        show (List.lookup k (Dict.setEntries key v d.configs)).bind _ = _
        rw [Dict.lookup_setEntries, if_neg hne']
      · rw [hsegments, hsegments', d.segments_setConfig]
  · rw [← parse_ok_iff]
    constructor
    · rintro ⟨b, b', hb, -⟩
      exact ⟨b, hb⟩
    · rintro ⟨b, hb⟩
      obtain ⟨b', hb'⟩ := (parse_ok_iff (d.setSegment h id v hv)).2 ((parse_ok_iff d).1 ⟨b, hb⟩)
      obtain ⟨hconfigs, -, hsegments⟩ := parse_result hb
      obtain ⟨hconfigs', -, hsegments'⟩ := parse_result hb'
      refine ⟨b, b', hb, hb', fun k _ => ?_, fun j hne => ?_⟩
      · rw [hconfigs, hconfigs']
        rfl
      · have hne' : j ≠ id := fun e => hne (congrArg some e)
        rw [hsegments, hsegments', d.segments_setSegment, d.segments_eq h, Dict.lookup_setEntries, if_neg hne']

end Parsed

/-- A percentage rule without buckets whose order, `1e999`, was read as an infinity. -/
def infiniteOrderRule : PyValue := .dict
  [(lit "id", .str (lit "r")), (lit "type", .str (lit "percentage")), (lit "order", .float (.inf false))]

def infiniteOrderConfig : PyValue := .dict
  [(lit "id", .str (lit "1")), (lit "key", .str (lit "k")), (lit "type", .str (lit "string")),
    (lit "target", .dict [(lit "defaultValue", .str (lit "a")), (lit "rules", .list [infiniteOrderRule])])]

def infiniteOrder : Document where
  entries := [(lit "configs", .dict [(lit "k", infiniteOrderConfig)])]
  configs := [(lit "k", infiniteOrderConfig)]
  json := by simp [PyValue.IsJson, PyValue.IsJsonEntries, PyValue.IsJsonList, infiniteOrderConfig, infiniteOrderRule]; decide
  configs_eq := rfl

/-- The infinite order of one rule costs the whole bundle. -/
theorem not_returns : ¬ ∀ [Unicode] (d : Document), Returns d := by
  intro h
  obtain ⟨b, hb, -⟩ := @h Unicode.ascii infiniteOrder
  have hraised : @parse Unicode.ascii infiniteOrder = .error (.raised .overflowError) := rfl
  rw [hraised] at hb
  cases hb

end ConfigDirector.Bundle
