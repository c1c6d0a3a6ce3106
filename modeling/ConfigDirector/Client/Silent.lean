/-
No config changes silently: what a bundle changes for a key is announced, unless the changed key is
one that a full bundle keeps from before because it cannot be read. Its definition stays, but the
segments it was evaluated with go.
-/
import ConfigDirector.Client.Operations

namespace ConfigDirector.Client

open Python Evaluation

/-! ## What is served -/

/-- The value and value id an evaluation selects. -/
def selected (definition : Config PyFloat) (context : Option EvaluationContext) (segments : Segments) :
    Option Text × Option Text :=
  let state := evaluate definition context (some segments)
  (state.value, state.valueId)

/-- What a client with this metadata serves for a key and a context: nothing, or a value and its id. -/
def ClientState.served (s : ClientState) (metadata : Metadata) (key : Text) (context : Option Context) :
    Option (Option Text × Option Text) :=
  (s.held key).map fun definition => selected definition (some ⟨context, some metadata⟩) s.segments

/-- A key is announced when the event for the bundle lists it. -/
def Delivery.announces (d : Delivery) (key : Text) : Prop := key ∈ d.keys ∨ key ∈ d.removedKeys

/-- What a bundle changes for a key is announced, and every watcher registered for the key is reached. -/
def NothingSilent (metadata : Metadata) (s s' : ClientState) (d : Delivery) : Prop :=
  ∀ key context, s.served metadata key context ≠ s'.served metadata key context →
    d.announces key ∧ ∀ entries, s.watchers.get? key = some entries → ∀ watcher ∈ entries, (key, watcher) ∈ d.calls

/-! ## Announced keys -/

/-- A config refers to one of the segments given. -/
theorem usesAnySegment_iff (definition : Config PyFloat) (segments : Segments) :
    usesAnySegment definition segments = true ↔ ∃ id ∈ definition.segmentIds, (segments.get? id).isSome := by
  unfold usesAnySegment
  rw [List.any_eq_true]
  simp only [Config.mem_segmentIds]
  constructor
  · rintro ⟨rule, hrule, h⟩
    cases rule with
    | percentage r => cases h
    | conditional r =>
      rw [List.any_eq_true] at h
      obtain ⟨condition, hcondition, h⟩ := h
      cases condition with
      | ofAttribute c => cases h
      | ofSegment c => exact ⟨c.segmentId, ⟨_, hrule, _, hcondition, rfl⟩, h⟩
  · rintro ⟨id, ⟨rule, hrule, condition, hcondition, hid⟩, h⟩
    refine ⟨rule, hrule, ?_⟩
    cases rule with
    | percentage r => cases hcondition
    | conditional r =>
      rw [List.any_eq_true]
      refine ⟨condition, hcondition, ?_⟩
      cases condition with
      | ofAttribute c => cases hid
      | ofSegment c =>
        cases hid
        exact h

theorem mem_updatedKeys (configs : Dict Text (Config PyFloat)) (bundle : ConfigBundle) (key : Text) :
    key ∈ updatedKeys configs bundle ↔ (bundle.configs.get? key).isSome ∨
      ∃ definition, configs.get? key = some definition ∧ usesAnySegment definition bundle.segments = true := by
  unfold updatedKeys
  rw [List.mem_append, Dict.mem_keys, List.mem_map]
  constructor
  · rintro (h | ⟨⟨k, definition⟩, hp, rfl⟩)
    · exact .inl h
    · rw [List.mem_filter, Bool.and_eq_true] at hp
      exact .inr ⟨definition, (configs.get?_eq_some_iff _ _).2 hp.1, hp.2.1⟩
  · rintro (h | ⟨definition, hget, huses⟩)
    · exact .inl h
    · by_cases hb : (bundle.configs.get? key).isSome = true
      · exact .inl hb
      · refine .inr ⟨(key, definition), ?_, rfl⟩
        rw [List.mem_filter, Bool.and_eq_true]
        refine ⟨(configs.get?_eq_some_iff _ _).1 hget, huses, ?_⟩
        simp only [Dict.contains]
        simpa using hb

theorem announces_iff (s : ClientState) (bundle : ConfigBundle) (key : Text) :
    (s.delivery bundle).announces key ↔ (bundle.configs.get? key).isSome ∨
      (∃ definition, (s.applied bundle).held key = some definition ∧
        usesAnySegment definition bundle.segments = true) ∨
      (s.held key).isSome ∧ (s.applied bundle).held key = none := by
  unfold Delivery.announces
  rw [mem_removedKeys]
  change key ∈ sorted (updatedKeys _ bundle) ∨ _ ↔ _
  rw [mem_sorted, mem_updatedKeys, or_assoc]
  rfl

/-- The watchers of an announced key are reached. -/
theorem calls_of_announces {s : ClientState} {bundle : ConfigBundle} {key : Text}
    (h : (s.delivery bundle).announces key) {entries : List Watcher} (hget : s.watchers.get? key = some entries)
    {watcher : Watcher} (hw : watcher ∈ entries) : (key, watcher) ∈ (s.delivery bundle).calls := by
  unfold Delivery.calls
  rw [List.mem_flatMap]
  refine ⟨(key, entries), ?_, List.mem_map.2 ⟨watcher, hw, rfl⟩⟩
  unfold ClientState.delivery
  rw [List.mem_filter]
  refine ⟨(s.watchers.get?_eq_some_iff _ _).1 hget, ?_⟩
  have hne : entries.isEmpty = false := by
    cases entries with
    | nil => cases hw
    | cons _ _ => rfl
  rcases h with h | h
  · have hmem : key ∈ updatedKeys (nextConfigs s.configs bundle).1 bundle := mem_sorted.1 h
    simp [hne, hmem]
  · have hmem : key ∈ (nextConfigs s.configs bundle).2 := h
    simp [hne, hmem]

/-! ## When nothing changes silently -/

/-- A definition that a full bundle keeps because the key is unreadable, and that refers to none of
the bundle's segments. -/
structure Kept (s : ClientState) (bundle : ConfigBundle) (key : Text) (definition : Config PyFloat) : Prop where
  full : bundle.kind = .full
  held : s.held key = some definition
  unreadable : key ∈ bundle.unreadableKeys
  absent : bundle.configs.get? key = none
  unused : usesAnySegment definition bundle.segments = false

/-- What the definitions that a full bundle keeps select does not depend on the segments held. -/
def Steady (metadata : Metadata) (s : ClientState) (bundle : ConfigBundle) : Prop :=
  ∀ key definition, Kept s bundle key definition → ∀ context : Option Context,
    selected definition (some ⟨context, some metadata⟩) s.segments =
      selected definition (some ⟨context, some metadata⟩) ∅

theorem selected_congr (definition : Config PyFloat) (context : Option EvaluationContext) {segments segments' : Segments}
    (h : ∀ id ∈ definition.segmentIds, segments.get? id = segments'.get? id) :
    selected definition context segments = selected definition context segments' := by
  unfold selected
  rw [evaluate_congr definition context h]

/-- A config that refers to none of some segments is evaluated as without them. -/
theorem selected_of_unused {definition : Config PyFloat} {segments : Segments}
    (h : usesAnySegment definition segments = false) (context : Option EvaluationContext) :
    selected definition context segments = selected definition context ∅ := by
  apply selected_congr
  intro id hid
  rw [Dict.get?_empty, ← Option.not_isSome_iff_eq_none]
  intro hsome
  have := (usesAnySegment_iff definition segments).2 ⟨id, hid, hsome⟩
  rw [h] at this
  cases this

/-- After an update with segments a config does not refer to, it is evaluated as before. -/
theorem selected_update_of_unused {definition : Config PyFloat} {segments added : Segments}
    (h : usesAnySegment definition added = false) (context : Option EvaluationContext) :
    selected definition context (segments.update added) = selected definition context segments := by
  apply selected_congr
  intro id hid
  have hnone : added.get? id = none := by
    rw [← Option.not_isSome_iff_eq_none]
    intro hsome
    have := (usesAnySegment_iff definition added).2 ⟨id, hid, hsome⟩
    rw [h] at this
    cases this
  rw [Dict.get?_update, hnone, Option.none_or]

/-- A bundle leaves the definition held under a key it does not announce. -/
theorem held_of_unannounced {s : ClientState} {bundle : ConfigBundle} {key : Text}
    (h : ¬ (s.delivery bundle).announces key) : (s.applied bundle).held key = s.held key := by
  rw [announces_iff, not_or, not_or] at h
  obtain ⟨hread, -, hremoved⟩ := h
  rw [Bool.not_eq_true, Option.isSome_eq_false_iff, Option.isNone_iff_eq_none] at hread
  have hafter := held_applied s fun _ : key ∈ bundle.unreadableKeys => hread
  rw [hread, Option.none_or] at hafter
  by_cases hkeeps : keepsConfig bundle key = true
  · rw [if_pos hkeeps] at hafter
    exact hafter
  · rw [if_neg hkeeps] at hafter
    have hheld : s.held key = none := by
      rw [← Option.not_isSome_iff_eq_none]
      exact fun h => hremoved ⟨h, hafter⟩
    rw [hafter, hheld]

/-- A key whose served value changes unannounced was kept by a full bundle, and its definition selected
something else with the segments held before. -/
theorem kept_of_silent {metadata : Metadata} {s : ClientState} {bundle : ConfigBundle} {key : Text}
    {context : Option Context} (hdiff : s.served metadata key context ≠ (s.applied bundle).served metadata key context)
    (hsilent : ¬ (s.delivery bundle).announces key) : ∃ definition, Kept s bundle key definition ∧
      selected definition (some ⟨context, some metadata⟩) s.segments ≠
        selected definition (some ⟨context, some metadata⟩) ∅ := by
  have hsame := held_of_unannounced hsilent
  rw [announces_iff, not_or, not_or] at hsilent
  obtain ⟨hread, huses, -⟩ := hsilent
  rw [Bool.not_eq_true, Option.isSome_eq_false_iff, Option.isNone_iff_eq_none] at hread
  cases hheld : s.held key with
  | none => exact absurd (by unfold ClientState.served; rw [hsame, hheld]; rfl) hdiff
  | some definition =>
    rw [hheld] at hsame
    have hunused : usesAnySegment definition bundle.segments = false := by
      rw [← Bool.not_eq_true]
      intro hu
      exact huses ⟨definition, hsame, hu⟩
    have hsegments : selected definition (some ⟨context, some metadata⟩) s.segments ≠
        selected definition (some ⟨context, some metadata⟩) (s.applied bundle).segments := by
      intro heq
      apply hdiff
      unfold ClientState.served
      rw [hheld, hsame, Option.map_some, Option.map_some, heq]
    have hsome : ∃ previous, s.configs = some previous := by
      cases hc : s.configs with
      | none => rw [ClientState.held, hc] at hheld; cases hheld
      | some previous => exact ⟨previous, rfl⟩
    obtain ⟨previous, hprevious⟩ := hsome
    rcases bundle.kind_cases with hkind | hkind
    · have hnew : (s.applied bundle).segments = bundle.segments := by
        simp only [ClientState.applied, nextSegments, hprevious, hkind, if_true]
      have hunreadable : key ∈ bundle.unreadableKeys := by
        by_contra hreadable
        have hafter := held_applied s fun _ : key ∈ bundle.unreadableKeys => hread
        rw [hread, Option.none_or, if_neg (by simp [keepsConfig, hkind, hreadable]), hsame] at hafter
        cases hafter
      refine ⟨definition, ⟨hkind, hheld, hunreadable, hread, hunused⟩, ?_⟩
      rw [hnew, selected_of_unused hunused] at hsegments
      exact hsegments
    · -- a delta changes only segments the definition does not refer to
      have hnew : (s.applied bundle).segments = s.segments.update bundle.segments := by
        simp only [ClientState.applied, nextSegments, hprevious, hkind, reduceCtorEq, if_false]
      rw [hnew, selected_update_of_unused hunused] at hsegments
      exact absurd rfl hsegments

/-- A kept definition stays, evaluated with the bundle's segments, and is not announced. -/
theorem silent_of_kept {s : ClientState} {bundle : ConfigBundle} {key : Text} {definition : Config PyFloat}
    (h : Kept s bundle key definition) :
    ¬ (s.delivery bundle).announces key ∧
      ∀ metadata context, (s.applied bundle).served metadata key context =
        some (selected definition (some ⟨context, some metadata⟩) ∅) := by
  have hafter : (s.applied bundle).held key = some definition := by
    rw [held_applied s fun _ => h.absent, h.absent, Option.none_or, if_pos (by simp [keepsConfig, h.unreadable])]
    exact h.held
  constructor
  · rw [announces_iff, h.absent, hafter]
    rintro (hread | ⟨d, hd, huses⟩ | ⟨-, hnone⟩)
    · cases hread
    · cases hd
      rw [h.unused] at huses
      cases huses
    · cases hnone
  · intro metadata context
    have hnew : (s.applied bundle).segments = bundle.segments := by
      cases hc : s.configs with
      | none => simp only [ClientState.applied, nextSegments, hc]
      | some previous => simp only [ClientState.applied, nextSegments, hc, h.full, if_true]
    unfold ClientState.served
    rw [hafter, hnew, Option.map_some, selected_of_unused h.unused]

theorem nothingSilent_iff (metadata : Metadata) (s : ClientState) (bundle : ConfigBundle) :
    NothingSilent metadata s (s.applied bundle) (s.delivery bundle) ↔ Steady metadata s bundle := by
  constructor
  · intro h key definition hkept context
    by_contra hne
    obtain ⟨hsilent, hserved⟩ := silent_of_kept hkept
    refine hsilent (h key context ?_).1
    rw [hserved metadata context, ClientState.served, hkept.held, Option.map_some]
    exact fun heq => hne (Option.some.inj heq)
  · intro h key context hdiff
    have hannounced : (s.delivery bundle).announces key := by
      by_contra hsilent
      obtain ⟨definition, hkept, hne⟩ := kept_of_silent hdiff hsilent
      exact hne (h key definition hkept context)
    exact ⟨hannounced, fun entries hget watcher hw => calls_of_announces hannounced hget hw⟩

/-- A config that is `on` for the members of the segment `s`. -/
def segmentConfig : Config PyFloat where
  id := lit "1"
  key := lit "k"
  type := .str (lit "string")
  target :=
    { defaultValue := lit "off"
      rules := [.conditional
        { id := lit "r"
          order := none
          value := some (.str (lit "on"))
          conditions := [.ofSegment ⟨lit "c", lit "in", lit "s"⟩]
          percentages := []
          target := lit "value"
          type := lit "conditional"
          valueId := none }]
      defaultValueId := none }
  variations := []
  typeConstraints := none

/-- A full bundle with the config and a segment everyone is in. -/
def segmentBundle : ConfigBundle :=
  { ConfigBundle.empty with
    configs := Dict.empty.set (lit "k") segmentConfig
    segments := Dict.empty.set (lit "s") ⟨[[]]⟩ }

end ConfigDirector.Client
