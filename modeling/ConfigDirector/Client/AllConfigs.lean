/-
`get_all_configs`, over whole runs of a client: what it lists is what `get_value` reads, until the client is closed,
which ends the one and not the other. Both serve two contexts alike that agree on the fields the configs read.
-/
import ConfigDirector.Client.InvalidKinds
import ConfigDirector.Client.Once
import ConfigDirector.Evaluation.Reads

namespace ConfigDirector.Client

open Python Evaluation Telemetry

/-! ## Model -/

section
variable [Unicode] (lib : Library) (metadata : Metadata)

/-- `get_all_configs`, but for what is logged of an invalid kind. -/
def ClientState.getAllConfigs (s : ClientState) (supplied : Option Context) (configKeys : Option (List Text)) :
    List (Text × ConfigState) :=
  match s.ready, s.configs with
  | true, some configs => (requested configs configKeys).map fun p => (p.1, selectedState metadata p.2 supplied s.segments)
  | _, _ => []

omit [Unicode] in
/-- The client with its watchers and its collector lists the same. -/
theorem getAllConfigs_store {limit : ℕ} (s : Instrumented limit) (supplied : Option SuppliedContext)
    (configKeys : Option (List Text)) (now : Instant) : s.getAllConfigs metadata supplied configKeys now =
      ((s.ignoreContext (contextOf supplied).2 now).1, (s.ignoreContext (contextOf supplied).2 now).2 ++
        [.configs (s.store.getAllConfigs metadata (contextOf supplied).1 configKeys)]) := by
  have hidem : (contextToEvaluate (contextOf supplied).1).1 = (contextOf supplied).1 := by
    cases supplied with
    | none => rfl
    | some c =>
      obtain ⟨id, name, traits, anonymous, kind⟩ := c
      cases kind with
      | none => rfl
      | str kind =>
        have hlet : contextOf (some ⟨id, name, traits, anonymous, .str kind⟩) =
            contextToEvaluate (some ⟨id, name, traits, anonymous, some kind⟩) := rfl
        rw [hlet, contextToEvaluate_idem]
      | other text => rfl
  unfold Instrumented.getAllConfigs ClientState.getAllConfigs selectedState
  rw [hidem]
  generalize s.ignoreContext (contextOf supplied).2 now = ignored
  cases s.store.ready with
  | false => rfl
  | true => cases s.store.configs <;> rfl

/-- A key is asked for. -/
def Asked (configKeys : Option (List Text)) (key : Text) : Prop := ∀ keys, configKeys = some keys → key ∈ keys

omit [Unicode] in
theorem mem_requested (configs : Dict Text (Config PyFloat)) (configKeys : Option (List Text)) (key : Text)
    (definition : Config PyFloat) : (key, definition) ∈ requested configs configKeys ↔
      configs.get? key = some definition ∧ Asked configKeys key := by
  rw [Dict.get?_eq_some_iff]
  cases configKeys with
  | none => exact (and_iff_left nofun).symm
  | some keys =>
    have hasked : Asked (some keys) key ↔ key ∈ keys :=
      ⟨fun h => h keys rfl, fun h keys' heq => Option.some.inj heq ▸ h⟩
    rw [hasked, requested, List.mem_filter, List.contains_iff_mem]

omit [Unicode] in
theorem requested_sublist (configs : Dict Text (Config PyFloat)) (configKeys : Option (List Text)) :
    (requested configs configKeys).Sublist configs.entries := by
  cases configKeys with
  | none => exact List.Sublist.refl _
  | some keys => exact List.filter_sublist

/-! ## The flags of a run -/

/-- A client is ready once it holds configs, until it is closed. -/
def ClientState.ReadyOpen (s : ClientState) : Prop := s.ready = true ↔ s.closed = false ∧ s.configs.isSome

omit [Unicode] in
theorem perform_bundle_closed {s : ClientState} (h : s.closed = true) (bundle : ConfigBundle) :
    s.perform (.bundle bundle) = s := by
  simp only [ClientState.perform, ClientState.onBundle, h, if_true]

omit [Unicode] in
theorem ClientState.ReadyOpen.perform {s : ClientState} (h : s.ReadyOpen) (op : ClientOp) : (s.perform op).ReadyOpen := by
  by_cases hbundle : ∀ bundle, op ≠ .bundle bundle
  · rcases s.flags_perform hbundle with ⟨hclosed, hready, hconfigs, -⟩ | ⟨hclosed, hready, -⟩
    · unfold ReadyOpen
      rw [hclosed, hready, hconfigs]
      exact h
    · unfold ReadyOpen
      rw [hclosed, hready]
      exact iff_of_false Bool.false_ne_true fun h => absurd h.1 (by simp)
  · -- a bundle makes an open client ready, and is nothing to a closed one
    push Not at hbundle
    obtain ⟨bundle, rfl⟩ := hbundle
    cases hclosed : s.closed with
    | true =>
      rw [perform_bundle_closed hclosed]
      exact h
    | false =>
      have happlied : s.perform (.bundle bundle) = s.applied bundle := by
        simp only [ClientState.perform, onBundle_open hclosed]
      rw [happlied]
      exact iff_of_true rfl ⟨hclosed, rfl⟩

omit [Unicode] in
theorem readyOpen_run (handlers : ClientEvent → List ℕ) (ops : List ClientOp) :
    ((ClientState.init handlers).performAll ops).ReadyOpen := by
  have hinit : (ClientState.init handlers).ReadyOpen :=
    iff_of_false Bool.false_ne_true fun h => absurd h.2 (by simp [ClientState.init])
  unfold ClientState.performAll
  induction ops using List.reverseRecOn with
  | nil => exact hinit
  | append_singleton ops op ih =>
    rw [List.foldl_append]
    exact ih.perform op

/-- What a closed client keeps of its state. -/
structure ClientState.Ended (s s' : ClientState) : Prop where
  closed : s'.closed = true
  ready : s'.ready = false
  configs : s'.configs = s.configs
  segments : s'.segments = s.segments

omit [Unicode] in
theorem ended_close {s : ClientState} (h : s.ReadyOpen) : s.Ended s.close := by
  unfold ClientState.close
  cases hclosed : s.closed with
  | false => exact ⟨rfl, rfl, rfl, rfl⟩
  | true =>
    have hready : s.ready = false := by
      rw [← Bool.not_eq_true]
      intro hready
      have hopen := (h.1 hready).1
      rw [hclosed] at hopen
      cases hopen
    exact ⟨hclosed, hready, rfl, rfl⟩

omit [Unicode] in
/-- No operation brings a closed client back or changes what it holds. -/
theorem ClientState.Ended.perform {s s' : ClientState} (h : s.Ended s') (op : ClientOp) : s.Ended (s'.perform op) := by
  by_cases hbundle : ∀ bundle, op ≠ .bundle bundle
  · by_cases hclose : op = .close
    · have hignored : s'.perform op = s' := by
        rw [hclose]
        show s'.close = s'
        rw [ClientState.close, if_pos h.closed]
      rw [hignored]
      exact h
    · obtain ⟨hclosed, hready, hconfigs, hsegments⟩ := s'.kept_perform hbundle hclose
      exact ⟨hclosed.trans h.closed, hready.trans h.ready, hconfigs.trans h.configs, hsegments.trans h.segments⟩
  · push Not at hbundle
    obtain ⟨bundle, rfl⟩ := hbundle
    rw [perform_bundle_closed h.closed]
    exact h

omit [Unicode] in
theorem ended_run {s s' : ClientState} (h : s.Ended s') (ops : List ClientOp) : s.Ended (s'.performAll ops) := by
  unfold ClientState.performAll
  induction ops using List.reverseRecOn with
  | nil => exact h
  | append_singleton ops op ih =>
    rw [List.foldl_append]
    exact ih.perform op

/-! ## What is listed and what is read -/

omit [Unicode] in
theorem held_eq {s : ClientState} {configs : Dict Text (Config PyFloat)} (h : s.configs = some configs) (key : Text) :
    s.held key = configs.get? key := by
  unfold ClientState.held
  rw [h, Option.bind_some]

omit [Unicode] in
theorem getAllConfigs_ready {s : ClientState} (hready : s.ready = true) {configs : Dict Text (Config PyFloat)}
    (hconfigs : s.configs = some configs) (supplied : Option Context) (configKeys : Option (List Text)) :
    s.getAllConfigs metadata supplied configKeys =
      (requested configs configKeys).map fun p => (p.1, selectedState metadata p.2 supplied s.segments) := by
  unfold ClientState.getAllConfigs
  rw [hready, hconfigs]

omit [Unicode] in
theorem getAllConfigs_notReady {s : ClientState} (hready : s.ready = false) (supplied : Option Context)
    (configKeys : Option (List Text)) : s.getAllConfigs metadata supplied configKeys = [] := by
  unfold ClientState.getAllConfigs
  rw [hready]

omit [Unicode] in
/-- Every key is listed once. -/
theorem nodup_getAllConfigs (s : ClientState) (supplied : Option Context) (configKeys : Option (List Text)) :
    ((s.getAllConfigs metadata supplied configKeys).map Prod.fst).Nodup := by
  cases hready : s.ready with
  | false =>
    rw [getAllConfigs_notReady metadata hready]
    exact List.nodup_nil
  | true =>
    cases hconfigs : s.configs with
    | none =>
      unfold ClientState.getAllConfigs
      rw [hready, hconfigs]
      exact List.nodup_nil
    | some configs =>
      rw [getAllConfigs_ready metadata hready hconfigs, List.map_map]
      exact ((requested_sublist configs configKeys).map Prod.fst).nodup configs.nodup

omit [Unicode] in
theorem mem_getAllConfigs {s : ClientState} (hs : s.ReadyOpen) (supplied : Option Context)
    (configKeys : Option (List Text)) (key : Text) (state : ConfigState) :
    (key, state) ∈ s.getAllConfigs metadata supplied configKeys ↔ s.closed = false ∧ Asked configKeys key ∧
      ∃ definition, s.held key = some definition ∧ state = selectedState metadata definition supplied s.segments := by
  cases hready : s.ready with
  | false =>
    rw [getAllConfigs_notReady metadata hready]
    refine iff_of_false List.not_mem_nil ?_
    rintro ⟨hopen, -, definition, hheld, -⟩
    -- an open client that holds a key would be ready
    have hheldAny : s.configs.isSome := by
      unfold ClientState.held at hheld
      cases hconfigs : s.configs with
      | none =>
        rw [hconfigs] at hheld
        cases hheld
      | some configs => rfl
    rw [hs.2 ⟨hopen, hheldAny⟩] at hready
    cases hready
  | true =>
    obtain ⟨hopen, hsome⟩ := hs.1 hready
    obtain ⟨configs, hconfigs⟩ := Option.isSome_iff_exists.1 hsome
    rw [getAllConfigs_ready metadata hready hconfigs, held_eq hconfigs, List.mem_map, and_iff_right hopen]
    constructor
    · rintro ⟨⟨k, definition⟩, hp, hpair⟩
      cases hpair
      obtain ⟨hget, hasked⟩ := (mem_requested configs configKeys k definition).1 hp
      exact ⟨hasked, definition, hget, rfl⟩
    · rintro ⟨hasked, definition, hget, rfl⟩
      exact ⟨(key, definition), (mem_requested configs configKeys key definition).2 ⟨hget, hasked⟩, rfl⟩

/-- A key of a call is used as it is, once it is valid. -/
theorem getValue_str (s : ClientState) (key : Text) (default : PyValue) (supplied : Option Context) :
    getValue lib metadata s (.str key) default supplied =
      (validateConfigKey (.str key)).bind fun _ => (validateDefault default).bind fun _ =>
        (evaluateFor lib metadata s.ready key (s.held key) default supplied s.segments).mapError .raised := by
  unfold getValue
  cases hvalid : validateConfigKey (.str key) with
  | error e => rfl
  | ok key' =>
    have hsame : key' = key := by
      unfold validateConfigKey at hvalid
      dsimp only at hvalid
      split at hvalid
      · cases hvalid
      · exact (Except.ok.inj hvalid).symm
    rw [hsame]
    cases validateDefault default with
    | error e => rfl
    | ok _ =>
      dsimp only [bind, Except.bind]
      cases evaluateFor lib metadata s.ready key (s.held key) default supplied s.segments <;> rfl

/-- What `get_value` makes of a state. -/
def readState (state : ConfigState) (r : Request) : Except Exc Evaluated := do
  let result ← parseConfigValue lib.toJsonLoads state r.default
  let valueId ← idOr lib result.valueId result.value state.type
  return evaluated r.key r.default result state.type valueId r.context

/-- After any run, `get_all_configs` lists each key that is held and asked for once, and nothing else, as long as the
client is open; and what it lists for a key is what `get_value` reads. -/
theorem all_configs_listed (handlers : ClientEvent → List ℕ) (ops : List ClientOp) (supplied : Option Context)
    (configKeys : Option (List Text)) :
    let s := (ClientState.init handlers).performAll ops
    let states := s.getAllConfigs metadata supplied configKeys
    (states.map Prod.fst).Nodup ∧
      (∀ key, key ∈ states.map Prod.fst ↔ s.closed = false ∧ key ∈ s.heldKeys ∧ Asked configKeys key) ∧
      ∀ r : Request, r.context = supplied → ∀ state, (r.key, state) ∈ states → ∀ e,
        getValue lib metadata s (.str r.key) r.default r.context = .ok e ↔ readState lib state r = .ok e := by
  intro s states
  have hs : s.ReadyOpen := readyOpen_run handlers ops
  refine ⟨nodup_getAllConfigs metadata s supplied configKeys, fun key => ?_, ?_⟩
  · rw [ClientState.mem_heldKeys, Option.isSome_iff_exists]
    constructor
    · intro hkey
      obtain ⟨⟨k, state⟩, hp, rfl⟩ := List.mem_map.1 hkey
      obtain ⟨hopen, hasked, definition, hheld, -⟩ := (mem_getAllConfigs metadata hs supplied configKeys k state).1 hp
      exact ⟨hopen, ⟨definition, hheld⟩, hasked⟩
    · rintro ⟨hopen, ⟨definition, hheld⟩, hasked⟩
      have hmem := (mem_getAllConfigs metadata hs supplied configKeys key _).2 ⟨hopen, hasked, definition, hheld, rfl⟩
      exact List.mem_map.2 ⟨_, hmem, rfl⟩
  · rintro r rfl state hstate e
    obtain ⟨-, -, definition, hheld, rfl⟩ := (mem_getAllConfigs metadata hs r.context configKeys r.key state).1 hstate
    rw [getValue_eq_ok_iff, hheld]
    exact Iff.rfl

/-- A client that is closed after any run lists nothing any more, whatever is called later, and goes on reading every
key it held as before; of other keys it says that the client is not ready, unless the default cannot be named. -/
theorem closed_client_serves (handlers : ClientEvent → List ℕ) (ops later : List ClientOp) :
    let s := (ClientState.init handlers).performAll ops
    let s' := s.close.performAll later
    (∀ supplied configKeys, s'.getAllConfigs metadata supplied configKeys = []) ∧
      ∀ r : Request, (s.held r.key).isSome ∧ getValue lib metadata s' (.str r.key) r.default r.context =
          getValue lib metadata s (.str r.key) r.default r.context ∨
        s.held r.key = none ∧
          ((∃ e, getValue lib metadata s' (.str r.key) r.default r.context = .ok e) ↔ Identifiable r.default .none) ∧
          ∀ e, getValue lib metadata s' (.str r.key) r.default r.context = .ok e →
            e.value = r.default ∧ e.evaluation.reason = .clientNotReady := by
  intro s s'
  have hended : s.Ended s' := ended_run (ended_close (readyOpen_run handlers ops)) later
  have hheld : ∀ key, s'.held key = s.held key := by
    intro key
    unfold ClientState.held
    rw [hended.configs]
  refine ⟨fun supplied configKeys => getAllConfigs_notReady metadata hended.ready supplied configKeys, fun r => ?_⟩
  cases hkey : s.held r.key with
  | some definition =>
    refine .inl ⟨rfl, ?_⟩
    rw [getValue_str, getValue_str, hheld, hkey, hended.segments]
    rfl
  | none =>
    refine .inr ⟨rfl, ?_, fun e he => ?_⟩
    · simp only [getValue_eq_ok_iff, hheld, hkey]
      rw [← valueIdFor_ok_iff lib.sha256 r.default_json]
      constructor
      · rintro ⟨e, he⟩
        exact (evaluateFor_missing_ok lib metadata he).1
      · rintro ⟨id, hid⟩
        exact ⟨_, bind_eq_ok_iff.2 ⟨id, hid, rfl⟩⟩
    · rw [getValue_eq_ok_iff, hheld, hkey, hended.ready] at he
      obtain ⟨id, -, he⟩ := bind_eq_ok_iff.1 he
      cases he
      exact ⟨rfl, rfl⟩

/-! ## What contexts are told apart by -/

/-- What a call returns and says of it, without the context. -/
def Evaluated.seen (e : Evaluated) : PyValue × Bool × EvaluationReason × Option Text :=
  (e.value, e.evaluation.isDefault, e.evaluation.reason, e.evaluation.valueId)

/-- The fields that the config of a key reads are the same in two contexts as they are evaluated, under the metadata of
each: a context of an invalid kind is evaluated as none. -/
def ClientState.ReadsAlike (s : ClientState) (key : Text) (metadata metadata' : Metadata)
    (supplied supplied' : Option Context) : Prop :=
  ∀ definition, s.held key = some definition → ∀ field ∈ definition.fields (some s.segments),
    field.Same (some ⟨(contextToEvaluate supplied).1, some metadata⟩)
      (some ⟨(contextToEvaluate supplied').1, some metadata'⟩)

omit [Unicode] in
theorem selectedState_same {s : ClientState} {key : Text} {metadata metadata' : Metadata}
    {supplied supplied' : Option Context} (h : s.ReadsAlike key metadata metadata' supplied supplied')
    {definition : Config PyFloat} (hheld : s.held key = some definition) :
    selectedState metadata definition supplied s.segments = selectedState metadata' definition supplied' s.segments :=
  evaluate_same (h definition hheld)

theorem evaluateFor_same {s : ClientState} {key : Text} {metadata metadata' : Metadata}
    {supplied supplied' : Option Context} (h : s.ReadsAlike key metadata metadata' supplied supplied') (default : PyValue) :
    (evaluateFor lib metadata s.ready key (s.held key) default supplied s.segments).map Evaluated.seen =
      (evaluateFor lib metadata' s.ready key (s.held key) default supplied' s.segments).map Evaluated.seen := by
  cases hheld : s.held key with
  | none =>
    unfold evaluateFor
    cases valueIdFor lib.sha256 default .none <;> rfl
  | some definition =>
    unfold evaluateFor
    dsimp only
    rw [selectedState_same h hheld]
    generalize selectedState metadata' definition supplied' s.segments = state
    cases parseConfigValue lib.toJsonLoads state default with
    | error e => rfl
    | ok result =>
      show Except.map _ (idOr lib result.valueId result.value state.type >>= _) =
        Except.map _ (idOr lib result.valueId result.value state.type >>= _)
      cases idOr lib result.valueId result.value state.type <;> rfl

omit [Unicode] in
theorem map_mapError {β γ δ ε : Type} {f : β → γ} {g : δ → ε} {left right : Except δ β}
    (h : left.map f = right.map f) : (left.mapError g).map f = (right.mapError g).map f := by
  cases left with
  | error e =>
    cases right with
    | error e' =>
      obtain rfl : e = e' := Except.error.inj h
      rfl
    | ok v => cases h
  | ok v =>
    cases right with
    | error e => cases h
    | ok v' => exact congrArg Except.ok (Except.ok.inj h)

/-- Two contexts, as they are evaluated, are told apart by the fields that the configs of the keys asked for read, and
by nothing else: agreeing on these they get the same states, and the same values for the same reasons under every
default. -/
theorem served_by_fields (s : ClientState) {metadata metadata' : Metadata} {supplied supplied' : Option Context}
    {configKeys : Option (List Text)}
    (h : ∀ key, Asked configKeys key → s.ReadsAlike key metadata metadata' supplied supplied') :
    s.getAllConfigs metadata supplied configKeys = s.getAllConfigs metadata' supplied' configKeys ∧
      ∀ key, Asked configKeys key → ∀ default,
        (getValue lib metadata s (.str key) default supplied).map Evaluated.seen =
          (getValue lib metadata' s (.str key) default supplied').map Evaluated.seen := by
  refine ⟨?_, fun key hasked default => ?_⟩
  · unfold ClientState.getAllConfigs
    cases s.ready with
    | false => rfl
    | true =>
      cases hconfigs : s.configs with
      | none => rfl
      | some configs =>
        refine List.map_congr_left fun p hp => ?_
        obtain ⟨hget, hasked⟩ := (mem_requested configs configKeys p.1 p.2).1 hp
        rw [selectedState_same (h p.1 hasked) ((held_eq hconfigs p.1).trans hget)]
  · rw [getValue_str, getValue_str]
    cases validateConfigKey (.str key) with
    | error e => rfl
    | ok _ =>
      cases validateDefault default with
      | error e => rfl
      | ok _ => exact map_mapError (evaluateFor_same lib (h key hasked) default)

end

/-- A config whose rule reads the trait `plan`. -/
def planConfig : Config PyFloat where
  id := lit "1"
  key := lit "k"
  type := .str (lit "boolean")
  target :=
    { defaultValue := lit "false"
      rules := [.conditional
        { id := lit "r"
          order := none
          value := some (.str (lit "true"))
          conditions := [.ofAttribute ⟨lit "c", lit "traits", lit "equals", lit "text", [lit "pro"], some (lit "/plan")⟩]
          percentages := []
          target := lit "value"
          type := lit "conditional"
          valueId := none }]
      defaultValueId := none }
  variations := []
  typeConstraints := none

def planClient : ClientState :=
  (ClientState.init fun _ => []).perform (.bundle
    { configs := (∅ : Dict Text (Config PyFloat)).set (lit "k") planConfig
      segments := ∅
      kind := .full
      unreadableKeys := []
      environmentId := none
      projectId := none
      timestamp := none })

def annOnPro : Context :=
  ⟨some (lit "1"), some (lit "Ann"), some [(lit "plan", .str (lit "pro"))], false, some (lit "user")⟩

def teamOnPro : Context := ⟨none, none, some [(lit "seats", .int 3), (lit "plan", .str (lit "pro"))], true, none⟩

theorem readsAlike_planClient (key : Text) :
    planClient.ReadsAlike key .empty .empty (some annOnPro) (some teamOnPro) := by
  intro definition hheld field hfield
  have hget : planClient.held key = ((∅ : Dict Text (Config PyFloat)).set (lit "k") planConfig).get? key := rfl
  rw [hget, Dict.get?_set, Dict.get?_empty] at hheld
  split at hheld
  · cases hheld
    have hfields : planConfig.fields (some planClient.segments) = [.trait (lit "plan")] := by decide
    rw [hfields, List.mem_singleton] at hfield
    subst hfield
    rfl
  · cases hheld

theorem served_by_fields_plan : ∃ _ : Unicode,
    planClient.getAllConfigs .empty (some annOnPro) none = planClient.getAllConfigs .empty (some teamOnPro) none ∧
      ∀ key, Asked none key → ∀ default,
        (getValue .refusing .empty planClient (.str key) default (some annOnPro)).map Evaluated.seen =
          (getValue .refusing .empty planClient (.str key) default (some teamOnPro)).map Evaluated.seen :=
  ⟨.ascii, @served_by_fields .ascii .refusing planClient _ _ _ _ _ fun key _ => readsAlike_planClient key⟩

end ConfigDirector.Client
