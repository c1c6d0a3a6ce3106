/-
The state the client keeps under its lock, and the step a bundle takes on it (`_on_bundle`): what is
held afterwards, the keys it announces, and the watchers it will call.
-/
import ConfigDirector.Bundle.Parse
import ConfigDirector.Evaluation.Evaluator

namespace ConfigDirector

open Python Evaluation

namespace Client

/-! ## State -/

/-- A registered watcher. Two identical registrations stay distinct: `ident` is the object, `handler`
the callable as far as `==` tells callables apart. -/
structure Watcher where
  ident : ℕ
  handler : ℕ
  default : PyValue
  context : Option Context

inductive ClientEvent
  | clientReady
  | configsUpdated
  | configEvaluated
deriving DecidableEq

/-- What the client guards by `_lock`. -/
structure ClientState where
  ready : Bool
  closed : Bool
  configs : Option (Dict Text (Config PyFloat))
  segments : Segments
  watchers : Dict Text (List Watcher)
  handlers : ClientEvent → List ℕ

namespace ClientState

/-- A client that has just been built, with the handlers of its hooks. -/
def init (handlers : ClientEvent → List ℕ) : ClientState where
  ready := false
  closed := false
  configs := none
  segments := ∅
  watchers := ∅
  handlers := handlers

/-- The definition held for a key. -/
def held (s : ClientState) (key : Text) : Option (Config PyFloat) := s.configs.bind fun configs => configs.get? key

/-- The keys held. -/
def heldKeys (s : ClientState) : List Text :=
  match s.configs with
  | some configs => configs.keys
  | none => []

theorem mem_heldKeys (s : ClientState) (key : Text) : key ∈ s.heldKeys ↔ (s.held key).isSome := by
  unfold heldKeys held
  cases s.configs with
  | none => simp
  | some configs => exact configs.mem_keys key

end ClientState

/-! ## Applying a bundle -/

/-- `_uses_any_segment`. -/
def usesAnySegment (definition : Config PyFloat) (segments : Segments) : Bool :=
  definition.target.rules.any fun rule =>
    match rule with
    | .conditional r => r.conditions.any fun condition =>
      match condition with
      | .ofSegment c => segments.contains c.segmentId
      | .ofAttribute _ => false
    | .percentage _ => false

/-- `for key in bundle.unreadable_keys: if key in previous: configs[key] = previous[key]`. -/
def retain (previous : Dict Text (Config PyFloat)) (configs : Dict Text (Config PyFloat))
    (unreadableKeys : List Text) : Dict Text (Config PyFloat) :=
  unreadableKeys.foldl (fun configs key =>
    match previous.get? key with
    | some definition => configs.set key definition
    | none => configs) configs

/-- The configs held after a bundle, and the keys it removes. -/
def nextConfigs (previous : Option (Dict Text (Config PyFloat))) (bundle : ConfigBundle) :
    Dict Text (Config PyFloat) × List Text :=
  match previous with
  | none => (bundle.configs, [])
  | some previous =>
    if bundle.kind = .full then
      let configs := retain previous bundle.configs bundle.unreadableKeys
      (configs, sorted (previous.keys.filter fun key => !configs.contains key))
    else (previous.update bundle.configs, [])

/-- The segments held after a bundle. -/
def nextSegments (s : ClientState) (bundle : ConfigBundle) : Segments :=
  match s.configs with
  | none => bundle.segments
  | some _ => if bundle.kind = .full then bundle.segments else s.segments.update bundle.segments

/-- What the locked step leaves to the unlocked ones: the event to emit, and the snapshot of the
watchers with the definitions and segments they are evaluated with. -/
structure Delivery where
  keys : List Text
  removedKeys : List Text
  watchers : List (Text × List Watcher)
  definitions : Text → Option (Config PyFloat)
  segments : Segments
  firstBundle : Bool

/-- `updated_keys`. -/
def updatedKeys (configs : Dict Text (Config PyFloat)) (bundle : ConfigBundle) : List Text :=
  bundle.configs.keys ++
    (configs.entries.filter fun p => usesAnySegment p.2 bundle.segments && !bundle.configs.contains p.1).map Prod.fst

namespace ClientState

/-- The state after a bundle was applied. -/
def applied (s : ClientState) (bundle : ConfigBundle) : ClientState :=
  { s with
    ready := true
    configs := some (nextConfigs s.configs bundle).1
    segments := nextSegments s bundle }

/-- What is delivered of a bundle. -/
def delivery (s : ClientState) (bundle : ConfigBundle) : Delivery :=
  let configs := (nextConfigs s.configs bundle).1
  let removedKeys := (nextConfigs s.configs bundle).2
  let updated := updatedKeys configs bundle
  { keys := sorted updated
    removedKeys := removedKeys
    watchers := s.watchers.entries.filter fun p =>
      !p.2.isEmpty && (updated.contains p.1 || removedKeys.contains p.1)
    definitions := fun key => configs.get? key
    segments := nextSegments s bundle
    firstBundle := !s.ready }

/-- The locked step of `_on_bundle`; a closed client ignores the bundle. -/
def onBundle (s : ClientState) (bundle : ConfigBundle) : Option (ClientState × Delivery) :=
  if s.closed then none else some (s.applied bundle, s.delivery bundle)

end ClientState

theorem onBundle_open {s : ClientState} (h : s.closed = false) (bundle : ConfigBundle) :
    s.onBundle bundle = some (s.applied bundle, s.delivery bundle) := by
  unfold ClientState.onBundle
  rw [h]
  rfl

/-- The callbacks `_notify_watchers` reaches, in order. -/
def Delivery.calls (d : Delivery) : List (Text × Watcher) :=
  d.watchers.flatMap fun p => p.2.map fun watcher => (p.1, watcher)

/-! ## What is held -/

theorem get?_retain (previous configs : Dict Text (Config PyFloat)) (unreadableKeys : List Text) (k : Text) :
    (retain previous configs unreadableKeys).get? k =
      if k ∈ unreadableKeys then (previous.get? k).or (configs.get? k) else configs.get? k := by
  induction unreadableKeys generalizing configs with
  | nil => rfl
  | cons key keys ih =>
    rw [retain, List.foldl_cons]
    change (retain previous _ keys).get? k = _
    rw [ih]
    by_cases hk : k = key
    · subst hk
      cases previous.get? k <;> simp
    · have hget : (match previous.get? key with
          | some definition => configs.set key definition
          | none => configs).get? k = configs.get? k := by
        cases previous.get? key with
        | none => rfl
        | some definition => simp only [Dict.get?_set, if_neg hk]
      rw [hget]
      simp [hk]

/-- Whether a bundle leaves a key held that it carries no definition of. -/
def keepsConfig (bundle : ConfigBundle) (key : Text) : Bool :=
  bundle.kind = .delta || bundle.unreadableKeys.contains key

/-- What is held under a key after a bundle depends on what was held and on the bundle at that key. -/
theorem held_applied (s : ClientState) {bundle : ConfigBundle} {key : Text}
    (h : key ∈ bundle.unreadableKeys → bundle.configs.get? key = none) : (s.applied bundle).held key =
      (bundle.configs.get? key).or (if keepsConfig bundle key then s.held key else none) := by
  unfold ClientState.held ClientState.applied
  simp only [Option.bind_some]
  unfold nextConfigs keepsConfig
  cases s.configs with
  | none => simp
  | some previous =>
    rcases bundle.kind_cases with hkind | hkind
    · simp only [hkind, if_true, Option.bind_some, get?_retain]
      by_cases hmem : key ∈ bundle.unreadableKeys
      · rw [h hmem]
        simp [hmem]
      · simp [hmem]
    · simp only [hkind, reduceCtorEq, if_false, Option.bind_some, Dict.get?_update]
      simp

theorem segments_applied (s : ClientState) (hs : s.configs = none → s.segments = ∅) (bundle : ConfigBundle)
    (id : Text) : (s.applied bundle).segments.get? id =
      (bundle.segments.get? id).or (if bundle.kind = .delta then s.segments.get? id else none) := by
  unfold ClientState.applied nextSegments
  cases hc : s.configs with
  | none => simp [hs hc]
  | some previous =>
    rcases bundle.kind_cases with hkind | hkind
    · simp [hkind]
    · simp [hkind, Dict.get?_update]

/-- The removed keys are those held before and not after, sorted. -/
theorem removedKeys_eq (s : ClientState) (bundle : ConfigBundle) : (s.delivery bundle).removedKeys =
    sorted (s.heldKeys.filter fun key => ((s.applied bundle).held key).isNone) := by
  unfold ClientState.delivery ClientState.heldKeys ClientState.held ClientState.applied
  simp only [Option.bind_some]
  unfold nextConfigs
  cases s.configs with
  | none => rfl
  | some previous =>
    rcases bundle.kind_cases with hkind | hkind
    · simp only [hkind, if_true, Dict.contains, Option.not_isSome]
    · have hnone : previous.keys.filter (fun key => ((previous.update bundle.configs).get? key).isNone) = [] := by
        rw [List.filter_eq_nil_iff]
        intro key hkey
        rw [Dict.mem_keys] at hkey
        rw [Dict.get?_update, Option.isNone_iff_eq_none, Option.or_eq_none_iff]
        rintro ⟨-, h⟩
        rw [h] at hkey
        cases hkey
      simp only [hkind, reduceCtorEq, if_false, hnone, sorted_nil]

/-- A delta removes nothing, and neither does the first bundle. -/
theorem removedKeys_eq_nil {s : ClientState} {bundle : ConfigBundle} (h : bundle.kind = .delta ∨ s.configs = none) :
    (s.delivery bundle).removedKeys = [] := by
  show (nextConfigs s.configs bundle).2 = []
  unfold nextConfigs
  rcases h with hkind | hnone
  · cases s.configs with
    | none => rfl
    | some previous => simp only [hkind, reduceCtorEq, if_false]
  · rw [hnone]

theorem mem_removedKeys (s : ClientState) (bundle : ConfigBundle) (key : Text) :
    key ∈ (s.delivery bundle).removedKeys ↔ (s.held key).isSome ∧ (s.applied bundle).held key = none := by
  rw [removedKeys_eq, mem_sorted, List.mem_filter, ClientState.mem_heldKeys, Option.isNone_iff_eq_none]

end Client

end ConfigDirector
