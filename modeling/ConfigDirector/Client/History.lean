/-
What the client holds after any sequence of bundles: per key, and per segment id, a last-writer-wins
register that full bundles reset.
-/
import ConfigDirector.Client.Store
import ConfigDirector.Machine.LastWriter

namespace ConfigDirector.Client

open Python Evaluation LastWriter

/-! ## Delivering bundles -/

/-- The state after some bundles were handed to `_on_bundle`, one after another. -/
def deliver (s : ClientState) (bundles : List ConfigBundle) : ClientState :=
  bundles.foldl (fun s bundle =>
    match s.onBundle bundle with
    | some (s', _) => s'
    | none => s) s

/-- An open client that has not received a bundle. -/
structure Fresh (s : ClientState) : Prop where
  isOpen : s.closed = false
  configs : s.configs = none
  segments : s.segments = ∅

theorem fresh_init (handlers : ClientEvent → List ℕ) : Fresh (ClientState.init handlers) := ⟨rfl, rfl, rfl⟩

theorem closed_deliver (s : ClientState) (bundles : List ConfigBundle) : (deliver s bundles).closed = s.closed := by
  induction bundles generalizing s with
  | nil => rfl
  | cons bundle bundles ih =>
    rw [deliver, List.foldl_cons]
    change (deliver _ bundles).closed = _
    rw [ih]
    unfold ClientState.onBundle
    cases h : s.closed <;> simp [ClientState.applied, h]

theorem deliver_concat {s : ClientState} (h : s.closed = false) (bundles : List ConfigBundle)
    (bundle : ConfigBundle) : deliver s (bundles ++ [bundle]) = (deliver s bundles).applied bundle := by
  have hopen : (deliver s bundles).closed = false := by rw [closed_deliver, h]
  rw [deliver, List.foldl_append]
  change (match (deliver s bundles).onBundle bundle with | some (s', _) => s' | none => deliver s bundles) = _
  rw [onBundle_open hopen]

/-! ## Keys and segment ids as registers -/

/-- What a bundle does to the definition held under a key. -/
def configUpdate (key : Text) (bundle : ConfigBundle) : Update (Config PyFloat) :=
  ⟨bundle.configs.get? key, keepsConfig bundle key⟩

/-- What a bundle does to the segment held under an id. -/
def segmentUpdate (id : Text) (bundle : ConfigBundle) : Update Segment :=
  ⟨bundle.segments.get? id, bundle.kind = .delta⟩

theorem apply_eq {ν : Type} (u : Update ν) (held : Option ν) :
    u.apply held = u.value.or (if u.keeps then held else none) := by
  unfold Update.apply
  cases u.value <;> rfl

theorem held_deliver {s : ClientState} (hs : Fresh s) (key : Text) {bundles : List ConfigBundle}
    (hb : ∀ bundle ∈ bundles, bundle.Disjoint) :
    (deliver s bundles).held key = latest (bundles.map (configUpdate key)) := by
  induction bundles using List.reverseRecOn with
  | nil =>
    change s.held key = none
    unfold ClientState.held
    rw [hs.configs]
    rfl
  | append_singleton bundles bundle ih =>
    rw [deliver_concat hs.isOpen, held_applied _ (hb bundle (by simp) key), ih fun b h => hb b (by simp [h]),
      List.map_append, List.map_singleton, latest_concat, apply_eq]
    rfl

theorem segments_deliver {s : ClientState} (hs : Fresh s) (id : Text) (bundles : List ConfigBundle) :
    (deliver s bundles).segments.get? id = latest (bundles.map (segmentUpdate id)) := by
  induction bundles using List.reverseRecOn with
  | nil =>
    change s.segments.get? id = none
    rw [hs.segments]
    rfl
  | append_singleton bundles bundle ih =>
    have hnone : (deliver s bundles).configs = none → (deliver s bundles).segments = ∅ := by
      rcases List.eq_nil_or_concat bundles with rfl | ⟨bundles, last, rfl⟩
      · intro _
        exact hs.segments
      · rw [List.concat_eq_append, deliver_concat hs.isOpen]
        intro h
        cases h
    rw [deliver_concat hs.isOpen, segments_applied _ hnone, ih, List.map_append, List.map_singleton,
      latest_concat, apply_eq]
    unfold segmentUpdate
    simp only [decide_eq_true_eq]

/-! ## The closed form -/

/-- Some bundle carries an entry, and every full bundle after it carries the entry or spares it. -/
def Survives (bundles : List ConfigBundle) (carries spares : ConfigBundle → Prop) : Prop :=
  ∃ before bundle after, bundles = before ++ bundle :: after ∧ carries bundle ∧
    ∀ later ∈ after, later.kind = .full → carries later ∨ spares later

/-- The last bundle that carries an entry carries this one. -/
def LastCarried {ν : Type} (bundles : List ConfigBundle) (entry : ConfigBundle → Option ν) (v : ν) : Prop :=
  ∃ before bundle after, bundles = before ++ bundle :: after ∧ entry bundle = some v ∧
    ∀ later ∈ after, entry later = none

theorem map_eq_append_cons {β γ : Type} {f : β → γ} : ∀ {l : List β} {before : List γ} {u : γ} {after : List γ},
    l.map f = before ++ u :: after ↔
      ∃ before' b after', l = before' ++ b :: after' ∧ before'.map f = before ∧ f b = u ∧ after'.map f = after := by
  intro l before u after
  constructor
  · intro h
    obtain ⟨before', rest, rfl, hbefore, hrest⟩ := List.map_eq_append_iff.1 h
    obtain ⟨b, after', rfl, hb, hafter⟩ := List.map_eq_cons_iff.1 hrest
    exact ⟨before', b, after', rfl, hbefore, hb, hafter⟩
  · rintro ⟨before', b, after', rfl, rfl, rfl, rfl⟩
    rw [List.map_append, List.map_cons]

theorem survives_iff {ν : Type} (update : ConfigBundle → Update ν) {spares : ConfigBundle → Prop}
    (hkeeps : ∀ b, (update b).keeps = true ↔ b.kind = .delta ∨ spares b) (bundles : List ConfigBundle) :
    (latest (bundles.map update)).isSome ↔ Survives bundles (fun b => (update b).value.isSome = true) spares := by
  have hlater : ∀ b, ((update b).value.isSome = true ∨ (update b).keeps = true) ↔
      (b.kind = .full → (update b).value.isSome = true ∨ spares b) := by
    intro b
    rw [hkeeps]
    rcases b.kind_cases with h | h <;> simp [h]
  rw [latest_isSome_iff]
  constructor
  · rintro ⟨before, u, after, h, hu, hall⟩
    obtain ⟨before', b, after', rfl, -, rfl, rfl⟩ := map_eq_append_cons.1 h
    refine ⟨before', b, after', rfl, hu, fun later hl => ?_⟩
    exact (hlater later).1 (hall _ (List.mem_map_of_mem hl))
  · rintro ⟨before, b, after, rfl, hb, hall⟩
    refine ⟨before.map update, update b, after.map update, by simp, hb, ?_⟩
    intro u hu
    obtain ⟨later, hl, rfl⟩ := List.mem_map.1 hu
    exact (hlater later).2 (hall later hl)

theorem lastCarried_of {ν : Type} {update : ConfigBundle → Update ν} {bundles : List ConfigBundle} {v : ν}
    (h : latest (bundles.map update) = some v) : LastCarried bundles (fun b => (update b).value) v := by
  obtain ⟨before, u, after, heq, hu, hall⟩ := latest_eq_some h
  obtain ⟨before', b, after', rfl, -, rfl, rfl⟩ := map_eq_append_cons.1 heq
  exact ⟨before', b, after', rfl, hu, fun later hl => hall _ (List.mem_map_of_mem hl)⟩

/-- The keys removed by a bundle of a sequence are those held before and not after, sorted; a delta
and the first bundle remove none. -/
theorem removedKeys_deliver {s : ClientState} (hs : Fresh s) (before : List ConfigBundle) (bundle : ConfigBundle) :
    ∃ d, (deliver s before).onBundle bundle = some (deliver s (before ++ [bundle]), d) ∧
      d.removedKeys = sorted ((deliver s before).heldKeys.filter fun key =>
        ((deliver s (before ++ [bundle])).held key).isNone) ∧
      (bundle.kind = .delta ∨ before = [] → d.removedKeys = []) := by
  have hopen : (deliver s before).closed = false := by rw [closed_deliver, hs.isOpen]
  refine ⟨(deliver s before).delivery bundle, ?_, ?_, ?_⟩
  · rw [onBundle_open hopen, deliver_concat hs.isOpen]
  · rw [deliver_concat hs.isOpen]
    exact removedKeys_eq _ _
  · rintro (hkind | rfl)
    · exact removedKeys_eq_nil (.inl hkind)
    · exact removedKeys_eq_nil (.inr hs.configs)

/-- The store is last-writer-wins, with full bundles as tombstones. -/
theorem store_lastWriter {s : ClientState} (hs : Fresh s) {bundles : List ConfigBundle}
    (hb : ∀ bundle ∈ bundles, bundle.Disjoint) :
    (∀ key, ((deliver s bundles).held key).isSome ↔
      Survives bundles (fun b => (b.configs.get? key).isSome = true) fun b => key ∈ b.unreadableKeys) ∧
    (∀ key definition, (deliver s bundles).held key = some definition →
      LastCarried bundles (fun b => b.configs.get? key) definition) ∧
    (∀ id, ((deliver s bundles).segments.get? id).isSome ↔
      Survives bundles (fun b => (b.segments.get? id).isSome = true) fun _ => False) ∧
    (∀ id segment, (deliver s bundles).segments.get? id = some segment →
      LastCarried bundles (fun b => b.segments.get? id) segment) ∧
    ∀ before bundle after, bundles = before ++ bundle :: after →
      ∃ d, (deliver s before).onBundle bundle = some (deliver s (before ++ [bundle]), d) ∧
        d.removedKeys = sorted ((deliver s before).heldKeys.filter fun key =>
          ((deliver s (before ++ [bundle])).held key).isNone) ∧
        (bundle.kind = .delta ∨ before = [] → d.removedKeys = []) := by
  refine ⟨fun key => ?_, fun key definition h => ?_, fun id => ?_, fun id segment h => ?_,
    fun before bundle _ _ => removedKeys_deliver hs before bundle⟩
  · rw [held_deliver hs key hb]
    exact survives_iff (configUpdate key) (fun b => by simp [configUpdate, keepsConfig]) bundles
  · rw [held_deliver hs key hb] at h
    exact lastCarried_of h
  · rw [segments_deliver hs id]
    exact survives_iff (segmentUpdate id) (fun b => by simp [segmentUpdate]) bundles
  · rw [segments_deliver hs id] at h
    exact lastCarried_of h

/-- A config without rules. -/
def constantConfig (value : Text) : Config PyFloat where
  id := lit "id"
  key := lit "key"
  type := .str (lit "string")
  target := { defaultValue := value, rules := [], defaultValueId := none }
  variations := []
  typeConstraints := none

/-- A full bundle with two configs and a segment, a delta with the first of them, and a full bundle in which that one
cannot be read and the rest is missing. -/
def keepingBundles : List ConfigBundle :=
  [{ ConfigBundle.empty with
      configs := (Dict.empty.set (lit "a") (constantConfig (lit "1"))).set (lit "b") (constantConfig (lit "1"))
      segments := Dict.empty.set (lit "s") ⟨[]⟩ },
    { ConfigBundle.empty with kind := .delta, configs := Dict.empty.set (lit "a") (constantConfig (lit "2")) },
    { ConfigBundle.empty with unreadableKeys := [lit "a"] }]

theorem keepingBundles_disjoint : ∀ bundle ∈ keepingBundles, bundle.Disjoint := by
  intro bundle hbundle key hkey
  simp only [keepingBundles, List.mem_cons, List.not_mem_nil, or_false] at hbundle
  rcases hbundle with rfl | rfl | rfl
  · cases hkey
  · cases hkey
  · rfl

/-- The first config stays, as the delta has it; the other and the segment are dropped. -/
theorem store_lastWriter_keeping :
    Survives keepingBundles (fun b => (b.configs.get? (lit "a")).isSome = true) (fun b => lit "a" ∈ b.unreadableKeys) ∧
    LastCarried keepingBundles (fun b => b.configs.get? (lit "a")) (constantConfig (lit "2")) ∧
    ¬ Survives keepingBundles (fun b => (b.configs.get? (lit "b")).isSome = true) (fun b => lit "b" ∈ b.unreadableKeys) ∧
    ¬ Survives keepingBundles (fun b => (b.segments.get? (lit "s")).isSome = true) fun _ => False := by
  obtain ⟨hconfigs, hlast, hsegments, -⟩ := store_lastWriter (fresh_init fun _ => []) keepingBundles_disjoint
  refine ⟨(hconfigs (lit "a")).1 (by decide), hlast (lit "a") _ rfl, mt (hconfigs (lit "b")).2 (by decide),
    mt (hsegments (lit "s")).2 (by decide)⟩

end ConfigDirector.Client
