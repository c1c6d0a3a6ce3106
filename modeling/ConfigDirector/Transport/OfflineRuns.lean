/-
A client that stays offline, over any number of calls of `initialize` and `close` while its file changes: it serves
what it loaded last, and announces what a reload changes. A file that holds the values some options would give
makes no difference, and options that contradict each other are told at every `initialize`.
-/
import ConfigDirector.Transport.Offline

namespace ConfigDirector.Transport

open Python Evaluation Client Telemetry

/-! ## Runs -/

inductive OfflineOp
  /-- `initialize`, with the files as they are then. -/
  | initialized (disk : Disk)
  | close

section Runs

variable [Unicode] (files : JsonFiles)

/-- A client that has just been built. -/
def OfflineClient.init (source : OfflineSource) (handlers : ClientEvent → List ℕ) : OfflineClient :=
  ⟨source, false, .init handlers⟩

def OfflineClient.perform (c : OfflineClient) : OfflineOp → OfflineClient
  | .initialized disk =>
    match c.initializeClient files disk with
    | .ok (c', _) => c'
    | .error _ => c
  | .close => c.close

def OfflineClient.run (c : OfflineClient) (ops : List OfflineOp) : OfflineClient := ops.foldl (·.perform files) c

/-- What a client is for: the values it loaded last, if it has loaded any, and whether it is closed. -/
structure Loaded where
  values : Option (Dict Text PyValue)
  closed : Bool

/-- One operation: values that cannot be loaded, and those a closed client is given, change nothing. -/
inductive Loaded.Step (source : OfflineSource) : Loaded → OfflineOp → Loaded → Prop
  | load {l : Loaded} {disk : Disk} {values : Dict Text PyValue} (hopen : l.closed = false)
      (h : Loads files disk source values) : Step source l (.initialized disk) { l with values := some values }
  | refused {l : Loaded} {disk : Disk} (hopen : l.closed = false) (h : ∀ values, ¬ Loads files disk source values) :
      Step source l (.initialized disk) l
  | closed {l : Loaded} {disk : Disk} (hclosed : l.closed = true) : Step source l (.initialized disk) l
  | close {l : Loaded} : Step source l .close { l with closed := true }

inductive Loaded.Steps (source : OfflineSource) : Loaded → List OfflineOp → Loaded → Prop
  | nil {l : Loaded} : Steps source l [] l
  | cons {l l' l'' : Loaded} {op : OfflineOp} {ops : List OfflineOp} (h : Step files source l op l')
      (hrest : Steps source l' ops l'') : Steps source l (op :: ops) l''

/-- The client holds the configs of what it loaded. -/
structure Refines (c : OfflineClient) (l : Loaded) : Prop where
  closed : c.client.closed = l.closed
  ready : c.client.ready = (l.values.isSome && !l.closed)
  connected : c.connected = (l.values.isSome && !l.closed)
  none : l.values = none → c.client.configs = none
  some : ∀ values, l.values = some values → (∀ p ∈ values.entries, DistinctKeys p.2) ∧
    ∃ configs, c.client.configs = some configs ∧ offlineEntries values.entries = .ok configs.entries

theorem refines_init (source : OfflineSource) (handlers : ClientEvent → List ℕ) :
    Refines (.init source handlers) ⟨none, false⟩ :=
  ⟨rfl, rfl, rfl, fun _ => rfl, nofun⟩

omit [Unicode] in
/-- A full bundle without unreadable keys is what is held after it. -/
theorem applied_offlineBundle (s : ClientState) (configs : Dict Text (Config PyFloat)) :
    (s.applied (offlineBundle configs)).configs = .some configs := by
  unfold ClientState.applied nextConfigs
  cases s.configs <;> rfl

/-- The client after its source was loaded. -/
def OfflineClient.load (c : OfflineClient) (configs : Dict Text (Config PyFloat)) : OfflineClient :=
  { c with connected := true, client := c.client.applied (offlineBundle configs) }

/-- What one `initialize` of an open client does. -/
theorem initializeClient_open {c : OfflineClient} (hopen : c.client.closed = false) (disk : Disk) :
    c.initializeClient files disk = (offlineConfigs files disk c.source).map fun configs =>
      (c.load configs, Option.some (c.client.delivery (offlineBundle configs))) := by
  unfold OfflineClient.initializeClient
  rw [hopen, if_neg Bool.false_ne_true]
  cases offlineConfigs files disk c.source with
  | error e => rfl
  | ok configs =>
    simp only [bind, Except.bind, onBundle_open hopen]
    rfl

theorem perform_closed {c : OfflineClient} (hclosed : c.client.closed = true) (disk : Disk) :
    c.perform files (.initialized disk) = c := by
  simp only [OfflineClient.perform, OfflineClient.initializeClient, if_pos hclosed]

theorem perform_error {c : OfflineClient} (hopen : c.client.closed = false) {disk : Disk} {e : InitializeError}
    (h : offlineConfigs files disk c.source = .error e) : c.perform files (.initialized disk) = c := by
  simp only [OfflineClient.perform, initializeClient_open files hopen, h, Except.map]

theorem perform_ok {c : OfflineClient} (hopen : c.client.closed = false) {disk : Disk} {configs : Dict Text (Config PyFloat)}
    (h : offlineConfigs files disk c.source = .ok configs) : c.perform files (.initialized disk) = c.load configs := by
  simp only [OfflineClient.perform, initializeClient_open files hopen, h, Except.map]

theorem source_perform (c : OfflineClient) (op : OfflineOp) : (c.perform files op).source = c.source := by
  cases op with
  | close => rfl
  | initialized disk =>
    cases hclosed : c.client.closed with
    | true => rw [perform_closed files hclosed]
    | false =>
      cases hconfigs : offlineConfigs files disk c.source with
      | error e => rw [perform_error files hclosed hconfigs]
      | ok configs =>
        rw [perform_ok files hclosed hconfigs]
        rfl

/-- One operation keeps the refinement. -/
theorem refines_perform {c : OfflineClient} {l : Loaded} (hkeys : WellKeyed c.source) (h : Refines c l) (op : OfflineOp) :
    ∃ l', Loaded.Step files c.source l op l' ∧ Refines (c.perform files op) l' := by
  cases op with
  | close =>
    refine ⟨_, .close, ?_⟩
    have hclient : (c.client.close).configs = c.client.configs ∧ (c.client.close).closed = true ∧
        (c.client.close).ready = false := by
      unfold ClientState.close
      split
      · rename_i hclosed
        refine ⟨rfl, hclosed, ?_⟩
        rw [h.ready, ← h.closed, hclosed, Bool.not_true, Bool.and_false]
      · exact ⟨rfl, rfl, rfl⟩
    obtain ⟨hconfigs, hclosed, hready⟩ := hclient
    refine ⟨hclosed, ?_, ?_, ?_, ?_⟩
    · exact hready.trans (Bool.and_false _).symm
    · exact (Bool.and_false _).symm
    · exact fun hnone => hconfigs.trans (h.none hnone)
    · intro values hvalues
      obtain ⟨hdistinct, configs, hheld, hentries⟩ := h.some values hvalues
      exact ⟨hdistinct, configs, hconfigs.trans hheld, hentries⟩
  | initialized disk =>
    cases hclosed : c.client.closed with
    | true =>
      rw [perform_closed files hclosed]
      exact ⟨l, .closed (h.closed ▸ hclosed), h⟩
    | false =>
      have hl : l.closed = false := h.closed ▸ hclosed
      obtain ⟨hspec, hloads⟩ := offlineConfigs_spec files disk c.source
      cases hconfigs : offlineConfigs files disk c.source with
      | error e =>
        rw [perform_error files hclosed hconfigs]
        refine ⟨l, .refused hl ?_, h⟩
        intro values hvalues
        obtain ⟨configs, hok⟩ := hloads ⟨values, hvalues⟩
        rw [hconfigs] at hok
        cases hok
      | ok configs =>
        rw [perform_ok files hclosed hconfigs]
        obtain ⟨values, hvalues, hentries⟩ := hspec configs hconfigs
        refine ⟨_, .load hl hvalues, hclosed.trans hl.symm, ?_, ?_, nofun, ?_⟩
        · show true = (true && !l.closed)
          rw [hl]
          rfl
        · show true = (true && !l.closed)
          rw [hl]
          rfl
        · intro values' hvalues'
          cases hvalues'
          exact ⟨distinctKeys_sourceValues files hkeys hvalues.1, configs, applied_offlineBundle _ _, hentries⟩

theorem refines_run : ∀ (ops : List OfflineOp) {c : OfflineClient} {l : Loaded}, WellKeyed c.source → Refines c l →
    ∃ l', Loaded.Steps files c.source l ops l' ∧ Refines (c.run files ops) l'
  | [], _, l, _, h => ⟨l, .nil, h⟩
  | op :: ops, c, l, hkeys, h => by
    obtain ⟨l₁, hstep, h₁⟩ := refines_perform files hkeys h op
    have hsource := source_perform files c op
    obtain ⟨l₂, hsteps, h₂⟩ := refines_run ops (c := c.perform files op) (hsource ▸ hkeys) h₁
    rw [hsource] at hsteps
    exact ⟨l₂, .cons hstep hsteps, h₂⟩

omit [Unicode] in
theorem Loads.unique {disk : Disk} {source : OfflineSource} {values values' : Dict Text PyValue}
    (h : Loads files disk source values) (h' : Loads files disk source values') : values = values' :=
  Option.some.inj (h.1.symm.trans h'.1)

omit [Unicode] in
theorem Loaded.Step.unique {source : OfflineSource} {l l₁ l₂ : Loaded} {op : OfflineOp}
    (h₁ : Loaded.Step files source l op l₁) (h₂ : Loaded.Step files source l op l₂) : l₁ = l₂ := by
  cases h₁ with
  | load hopen hvalues =>
    cases h₂ with
    | load _ hvalues' => rw [hvalues.unique files hvalues']
    | refused _ hnone => exact absurd hvalues (hnone _)
    | closed hclosed => rw [hopen] at hclosed; cases hclosed
  | refused hopen hnone =>
    cases h₂ with
    | load _ hvalues => exact absurd hvalues (hnone _)
    | refused => rfl
    | closed => rfl
  | closed hclosed =>
    cases h₂ with
    | load hopen => rw [hopen] at hclosed; cases hclosed
    | refused => rfl
    | closed => rfl
  | close =>
    cases h₂ with
    | close => rfl

omit [Unicode] in
theorem Loaded.Steps.unique {source : OfflineSource} {l l₁ l₂ : Loaded} {ops : List OfflineOp}
    (h₁ : Loaded.Steps files source l ops l₁) (h₂ : Loaded.Steps files source l ops l₂) : l₁ = l₂ := by
  induction h₁ with
  | nil =>
    cases h₂
    rfl
  | cons hstep hrest ih =>
    cases h₂ with
    | cons hstep' hrest' =>
      obtain rfl := hstep.unique files hstep'
      exact ih hrest'

/-- What is held under a key is the config of the value last loaded under it. -/
theorem Refines.definitionOf {c : OfflineClient} {l : Loaded} (h : Refines c l) (r : Request)
    (hclass : ∀ v, (l.values.bind fun values => values.get? r.key) = .some v → valueClass r.default = valueClass v) :
    DefinitionOf r.key r.default (l.values.bind fun values => values.get? r.key) (c.client.held r.key) := by
  unfold ClientState.held
  cases hl : l.values with
  | none =>
    rw [h.none hl]
    rfl
  | some values =>
    rw [hl] at hclass
    obtain ⟨hdistinct, configs, hconfigs, hentries⟩ := h.some values hl
    rw [hconfigs]
    show DefinitionOf r.key r.default (values.get? r.key) (configs.get? r.key)
    have hmem : ∀ d, configs.get? r.key = .some d ↔ ∃ v, values.get? r.key = .some v ∧ offlineConfig r.key v = .ok d := by
      intro d
      simp only [Dict.get?_eq_some_iff]
      exact mem_offlineEntries hentries
    cases hvalue : values.get? r.key with
    | none =>
      show configs.get? r.key = .none
      rw [Option.eq_none_iff_forall_ne_some]
      intro d hd
      obtain ⟨v, hv, -⟩ := (hmem d).1 hd
      rw [hvalue] at hv
      cases hv
    | some v =>
      have hv := (Dict.get?_eq_some_iff _ _ _).1 hvalue
      have hloadable := (offlineEntries_ok_iff _).1 ⟨_, hentries⟩ _ hv
      obtain ⟨d, hd⟩ := (offlineConfig_ok_iff r.key v).2 hloadable
      exact ⟨isJson_of_writable v hloadable.2.2 (hdistinct _ hv), hclass v hvalue, d, (hmem d).2 ⟨v, hvalue, hd⟩, hd⟩

/-! ## What a client serves -/

/-- After any run, `get_value` answers with what was loaded last: under a default of its class the value of the
key, exactly, or the default and why; unless a text in the answer cannot be encoded, when it raises. What could
not be loaded, and what came after `close`, has left no trace. -/
theorem offline_run_answers {source : OfflineSource} (hkeys : WellKeyed source) (handlers : ClientEvent → List ℕ)
    (ops : List OfflineOp) : ∃ l, (∀ l', Loaded.Steps files source ⟨none, false⟩ ops l' ↔ l' = l) ∧
      ∀ (sha256 : Bytes → Bytes) (metadata : Metadata) (r : Request),
        let value := l.values.bind fun values => values.get? r.key
        let result := offlineAnswer (l.values.isSome && !l.closed) value r.default
        let outcome := getValue ⟨.reader, sha256⟩ metadata ((OfflineClient.init source handlers).run files ops).client
          (.str r.key) r.default r.context
        (∀ v, value = some v → valueClass r.default = valueClass v) →
          ((∃ e, outcome = .ok e) ↔ result.value.Clean) ∧ ∀ e, outcome = .ok e → Reports r.key r.context result e := by
  obtain ⟨l, hsteps, hrefines⟩ := refines_run files ops (c := .init source handlers) hkeys (refines_init source handlers)
  refine ⟨l, ?_, ?_⟩
  · intro l'
    constructor
    · exact fun h => h.unique files hsteps
    · rintro rfl
      exact hsteps
  · intro sha256 metadata r value result outcome hclass
    have hdefinition := hrefines.definitionOf r hclass
    have hanswer := evaluateFor_offline sha256 metadata
      ((OfflineClient.init source handlers).run files ops).client.ready r value _
      ((OfflineClient.init source handlers).run files ops).client.segments hdefinition
    rw [hrefines.ready] at hanswer
    have houtcome : ∀ e, outcome = .ok e ↔ evaluateFor ⟨.reader, sha256⟩ metadata (l.values.isSome && !l.closed) r.key
        (((OfflineClient.init source handlers).run files ops).client.held r.key) r.default r.context
        ((OfflineClient.init source handlers).run files ops).client.segments = .ok e := by
      intro e
      rw [← hrefines.ready]
      exact getValue_eq_ok_iff ⟨.reader, sha256⟩ metadata _ r e
    simp only [houtcome]
    exact hanswer

/-- A request for `k` that a dictionary answers. -/
def documentRequest : Request where
  key := lit "k"
  default := .dict []
  context := none
  key_content := rfl
  default_class := rfl
  default_json := ⟨List.nodup_nil, trivial⟩

/-- The values of an options object with one document. -/
def documentValues : Dict Text PyValue := (∅ : Dict Text PyValue).set (lit "k") listDocument

/-- Readers that refuse what is not UTF-8. -/
def narrowFiles : JsonFiles := ⟨fun _ _ => none, fun _ => []⟩

omit [Unicode] in
theorem wellKeyed_document : WellKeyed (.inlineValues documentValues) := by
  rintro values h
  cases h
  intro p hp
  rw [List.mem_singleton.1 hp]
  simp [listDocument, DistinctKeys, DistinctKeysEntries, DistinctKeysList]

omit [Unicode] in
theorem loads_document : Loads narrowFiles (fun _ => .valueError) (.inlineValues documentValues) documentValues := by
  refine ⟨rfl, ?_⟩
  intro p hp
  rw [List.mem_singleton.1 hp]
  refine ⟨by decide, nofun, ?_⟩
  simp only [listDocument, Writable, WritableEntries, WritableList]
  decide

omit [Unicode] in
theorem steps_document : Loaded.Steps narrowFiles (.inlineValues documentValues) ⟨none, false⟩
    [.initialized fun _ => .valueError] ⟨some documentValues, false⟩ := .cons (.load rfl loads_document) .nil

omit [Unicode] in
theorem offline_run_answers_document : ∃ (_ : Unicode) (e : Evaluated),
    getValue ⟨.reader, fun _ => []⟩ .empty ((OfflineClient.init (.inlineValues documentValues) fun _ => []).run narrowFiles
      [.initialized fun _ => .valueError]).client (.str (lit "k")) (.dict []) none = .ok e ∧ e.value = listDocument := by
  let _ : Unicode := .ascii
  obtain ⟨l, hl, h⟩ := offline_run_answers narrowFiles wellKeyed_document (fun _ => []) [.initialized fun _ => .valueError]
  obtain rfl := (hl _).1 steps_document
  obtain ⟨hanswered, hreports⟩ := h (fun _ => []) .empty documentRequest (by
    intro v hv
    cases hv
    rfl)
  have hclean : listDocument.Clean := by
    simp only [listDocument, PyValue.Clean, PyValue.CleanEntries, PyValue.CleanList]
    exact ⟨encodable_ascii rfl, ⟨trivial, trivial⟩, trivial⟩
  obtain ⟨e, he⟩ := hanswered.2 hclean
  exact ⟨_, e, he, (hreports e he).value⟩

/-! ## What `initialize` announces -/

omit [Unicode] in
theorem usesAnySegment_empty (definition : Config PyFloat) : usesAnySegment definition ∅ = false := by
  unfold usesAnySegment
  rw [List.any_eq_false]
  intro rule _
  cases rule with
  | percentage r => exact Bool.false_ne_true
  | conditional r =>
    dsimp only
    rw [Bool.not_eq_true, List.any_eq_false]
    intro condition _
    cases condition <;> exact Bool.false_ne_true

omit [Unicode] in
theorem updatedKeys_offlineBundle (configs : Dict Text (Config PyFloat)) (held : Dict Text (Config PyFloat)) :
    updatedKeys held (offlineBundle configs) = configs.keys := by
  unfold updatedKeys
  have hnone : held.entries.filter (fun p => usesAnySegment p.2 (offlineBundle configs).segments &&
      !(offlineBundle configs).configs.contains p.1) = [] := by
    rw [List.filter_eq_nil_iff]
    intro p _
    show ¬ (usesAnySegment p.2 ∅ && _) = true
    rw [usesAnySegment_empty, Bool.false_and]
    exact Bool.false_ne_true
  rw [hnone]
  exact List.append_nil _

/-- The keys a client has loaded. -/
def Loaded.keys (l : Loaded) : List Text := (l.values.map Dict.keys).getD []

omit [Unicode] in
theorem map_eq_ok_iff {ε α β : Type} {x : Except ε α} {f : α → β} {b : β} :
    x.map f = .ok b ↔ ∃ a, x = .ok a ∧ f a = b := by
  cases x with
  | error e => exact iff_of_false nofun nofun
  | ok a =>
    show Except.ok (f a) = Except.ok b ↔ _
    simp

theorem source_run (c : OfflineClient) (ops : List OfflineOp) : (c.run files ops).source = c.source := by
  induction ops generalizing c with
  | nil => rfl
  | cons op ops ih => exact (ih (c.perform files op)).trans (source_perform files c op)

/-- The keys of the configs of some values. -/
theorem keys_of_offlineEntries {values : Dict Text PyValue} {configs : Dict Text (Config PyFloat)}
    (h : offlineEntries values.entries = .ok configs.entries) : configs.keys = values.keys := offlineEntries_keys h

/-- What is delivered of the configs of some values. -/
theorem Refines.announces {c : OfflineClient} {l : Loaded} (h : Refines c l) (hopen : c.client.closed = false)
    {values : Dict Text PyValue} {configs : Dict Text (Config PyFloat)}
    (hentries : offlineEntries values.entries = .ok configs.entries) :
    (c.client.delivery (offlineBundle configs)).keys = sorted values.keys ∧
      (c.client.delivery (offlineBundle configs)).removedKeys = sorted (l.keys.filter fun key => !values.contains key) ∧
      (c.client.delivery (offlineBundle configs)).firstBundle = l.values.isNone := by
  have hkeys := keys_of_offlineEntries hentries
  refine ⟨?_, ?_, ?_⟩
  · show sorted (updatedKeys _ _) = _
    rw [updatedKeys_offlineBundle, hkeys]
  · rw [removedKeys_eq]
    have hheld : c.client.heldKeys = l.keys := by
      unfold ClientState.heldKeys Loaded.keys
      cases hl : l.values with
      | none =>
        rw [h.none hl]
        rfl
      | some old =>
        obtain ⟨-, held, hconfigs, hold⟩ := h.some old hl
        rw [hconfigs]
        exact keys_of_offlineEntries hold
    rw [hheld]
    congr 1
    refine List.filter_congr fun key _ => ?_
    have hget : (c.client.applied (offlineBundle configs)).held key = configs.get? key := by
      unfold ClientState.held
      rw [applied_offlineBundle]
      rfl
    have hmem : (configs.get? key).isSome = (values.get? key).isSome := by
      rw [Bool.eq_iff_iff, ← Dict.mem_keys, ← Dict.mem_keys, hkeys]
    rw [hget, ← Option.not_isSome, hmem]
    rfl
  · show (!c.client.ready) = _
    rw [h.ready, ← h.closed, hopen]
    cases l.values <;> rfl

/-- In any run, an `initialize` that returns has loaded the values of the source and announces them: their keys as
updated, the keys loaded before and not any more as removed, and the client as ready if it had loaded nothing.
It returns if and only if the client is open and every value of the source can be loaded. -/
theorem offline_initialize_announces {source : OfflineSource} (hkeys : WellKeyed source)
    (handlers : ClientEvent → List ℕ) (ops : List OfflineOp) {l : Loaded}
    (hsteps : Loaded.Steps files source ⟨none, false⟩ ops l) (disk : Disk) :
    let outcome := ((OfflineClient.init source handlers).run files ops).initializeClient files disk
    ((∃ r, outcome = .ok r) ↔ l.closed = false ∧ ∃ values, Loads files disk source values) ∧
      ∀ r, outcome = .ok r → ∃ values delivery, Loads files disk source values ∧ r.2 = some delivery ∧
        delivery.keys = sorted values.keys ∧
        delivery.removedKeys = sorted (l.keys.filter fun key => !values.contains key) ∧
        delivery.firstBundle = l.values.isNone := by
  intro outcome
  obtain ⟨l', hsteps', hrefines⟩ := refines_run files ops (c := .init source handlers) hkeys (refines_init source handlers)
  obtain rfl := hsteps.unique files hsteps'
  have hsource := source_run files (.init source handlers) ops
  have houtcome : outcome = ((OfflineClient.init source handlers).run files ops).initializeClient files disk := rfl
  generalize (OfflineClient.init source handlers).run files ops = c at hrefines hsource houtcome
  cases hclosed : c.client.closed with
  | true =>
    have hraised : ∀ r, outcome ≠ .ok r := by
      intro r h
      rw [houtcome] at h
      unfold OfflineClient.initializeClient at h
      rw [if_pos hclosed] at h
      cases h
    rw [← hrefines.closed, hclosed]
    refine ⟨iff_of_false ?_ nofun, fun r h => absurd h (hraised r)⟩
    rintro ⟨r, h⟩
    exact hraised r h
  | false =>
    rw [initializeClient_open files hclosed, hsource] at houtcome
    obtain ⟨hspec, hloads⟩ := offlineConfigs_spec files disk source
    rw [houtcome, ← hrefines.closed, hclosed]
    constructor
    · constructor
      · rintro ⟨r, h⟩
        obtain ⟨configs, hconfigs, -⟩ := map_eq_ok_iff.1 h
        obtain ⟨values, hvalues, -⟩ := hspec configs hconfigs
        exact ⟨rfl, values, hvalues⟩
      · rintro ⟨-, hvalues⟩
        obtain ⟨configs, hconfigs⟩ := hloads hvalues
        exact ⟨_, map_eq_ok_iff.2 ⟨configs, hconfigs, rfl⟩⟩
    · intro r h
      obtain ⟨configs, hconfigs, rfl⟩ := map_eq_ok_iff.1 h
      obtain ⟨values, hvalues, hentries⟩ := hspec configs hconfigs
      exact ⟨values, _, hvalues, rfl, hrefines.announces hclosed hentries⟩

omit [Unicode] in
theorem offline_initialize_announces_again : ∃ (_ : Unicode) (r : OfflineClient × Option Delivery) (delivery : Delivery),
    ((OfflineClient.init (.inlineValues documentValues) fun _ => []).run narrowFiles
      [.initialized fun _ => .valueError]).initializeClient narrowFiles (fun _ => .valueError) = .ok r ∧
      r.2 = some delivery ∧ delivery.keys = [lit "k"] ∧ delivery.removedKeys = [] ∧ delivery.firstBundle = false := by
  let _ : Unicode := .ascii
  obtain ⟨hreturns, hannounces⟩ := offline_initialize_announces narrowFiles wellKeyed_document (fun _ => [])
    [.initialized fun _ => .valueError] steps_document fun _ => .valueError
  obtain ⟨r, hr⟩ := hreturns.2 ⟨rfl, documentValues, loads_document⟩
  obtain ⟨values, delivery, hvalues, hdelivery, hkeys, hremoved, hfirst⟩ := hannounces r hr
  obtain rfl := hvalues.unique narrowFiles loads_document
  exact ⟨_, r, delivery, hr, hdelivery, hkeys, hremoved, hfirst⟩

/-! ## Options that contradict each other -/

/-- `initialize` of a client that is closed. -/
def closedError : InitializeError :=
  .validation (lit "This client has been closed and can no longer be used. Create a new one instead.")

omit [Unicode] in
/-- A client whose options were rejected loads nothing. -/
theorem Loaded.Step.rejected {message : Text} {l l' : Loaded} {op : OfflineOp}
    (h : Loaded.Step files (.rejectedSource message) l op l') (hl : l.values = none) : l'.values = none := by
  cases h with
  | load _ hvalues => cases hvalues.1
  | refused => exact hl
  | closed => exact hl
  | close => exact hl

omit [Unicode] in
theorem Loaded.Steps.rejected {message : Text} {l l' : Loaded} {ops : List OfflineOp}
    (h : Loaded.Steps files (.rejectedSource message) l ops l') (hl : l.values = none) : l'.values = none := by
  induction h with
  | nil => exact hl
  | cons hstep _ ih => exact ih (hstep.rejected files hl)

omit [Unicode] in
theorem Loaded.Step.closed_iff {source : OfflineSource} {l l' : Loaded} {op : OfflineOp}
    (h : Loaded.Step files source l op l') : l'.closed = true ↔ l.closed = true ∨ op = .close := by
  cases h with
  | load => simp
  | refused => simp
  | closed => simp
  | close => simp

omit [Unicode] in
theorem Loaded.Steps.closed_iff {source : OfflineSource} {l l' : Loaded} {ops : List OfflineOp}
    (h : Loaded.Steps files source l ops l') : l'.closed = true ↔ l.closed = true ∨ .close ∈ ops := by
  induction h with
  | nil => simp
  | cons hstep _ ih => rw [ih, hstep.closed_iff files, List.mem_cons, or_assoc, eq_comm (a := OfflineOp.close)]

/-- A client whose options contradict each other is built nevertheless. In any run it loads nothing, and every
`initialize` of it raises: what is wrong with the options, or that it was closed. -/
theorem contradiction_told (accepts : Text → Bool) (handlers : ClientEvent → List ℕ) (serverSdkKey : PyValue)
    (connection : ConnectionOptions) (h : Contradictory serverSdkKey connection) :
    ∃ message, planConnection accepts serverSdkKey connection = .ok (.stayOffline (.rejectedSource message)) ∧
      ∀ ops : List OfflineOp,
        let c := (OfflineClient.init (.rejectedSource message) handlers).run files ops
        c.client.configs = none ∧ c.client.ready = false ∧ c.connected = false ∧
          ∀ disk, (.close ∉ ops → c.initializeClient files disk = .error (.initialization message)) ∧
            (.close ∈ ops → c.initializeClient files disk = .error closedError) := by
  obtain ⟨message, hplan⟩ := (planConnection_rejected_iff accepts serverSdkKey connection).2 h
  refine ⟨message, hplan, ?_⟩
  intro ops c
  obtain ⟨l, hsteps, hrefines⟩ := refines_run files ops (c := .init (.rejectedSource message) handlers) nofun
    (refines_init _ handlers)
  -- a rejected source has no values to load at any moment, whatever the files
  have hvalues : l.values = none := hsteps.rejected files rfl
  have hclosed : c.client.closed = true ↔ .close ∈ ops := by
    rw [hrefines.closed, hsteps.closed_iff files, or_iff_right Bool.false_ne_true]
  have hsource : c.source = .rejectedSource message := source_run files _ ops
  refine ⟨hrefines.none hvalues, ?_, ?_, ?_⟩
  · rw [hrefines.ready, hvalues]
    rfl
  · rw [hrefines.connected, hvalues]
    rfl
  · intro disk
    constructor
    · intro hmem
      rw [← hclosed, Bool.not_eq_true] at hmem
      rw [initializeClient_open files hmem, hsource]
      rfl
    · intro hmem
      unfold OfflineClient.initializeClient
      rw [if_pos (hclosed.2 hmem)]
      rfl

/-- Polling, with the values of an offline client. -/
def misplacedValues : ConnectionOptions := ⟨.str (lit "polling"), none, none, some documentValues⟩

omit [Unicode] in
theorem contradiction_told_polling : ∃ (_ : Unicode) (message : Text),
    planConnection (fun _ => true) (.str (lit "sdk-key")) misplacedValues = .ok (.stayOffline (.rejectedSource message)) ∧
      ∀ disk, (((OfflineClient.init (.rejectedSource message) fun _ => []).run narrowFiles
        [.initialized disk, .initialized disk]).initializeClient narrowFiles disk) = .error (.initialization message) := by
  let _ : Unicode := .ascii
  obtain ⟨message, hplan, hruns⟩ := contradiction_told narrowFiles (fun _ => true) (fun _ => [])
    (.str (lit "sdk-key")) misplacedValues (.inr ⟨⟨.polling, rfl⟩, by decide, .inr rfl⟩)
  refine ⟨_, message, hplan, ?_⟩
  intro disk
  obtain ⟨-, -, -, htold⟩ := hruns [.initialized disk, .initialized disk]
  exact (htold disk).1 (by simp)

/-! ## A file and the options -/

/-- The file holds the values, as `json.dumps` writes them in some layout. -/
def HoldsWritten (disk : Disk) (path : Text) (values : Dict Text PyValue) : Prop :=
  ∃ style text bytes, JsonStyle.Separates style ∧ (style.ensureAscii = true → (PyValue.dict values.entries).PairFree) ∧
    dumps style (.dict values.entries) = .ok text ∧ encode? text = some bytes ∧ disk path = .bytes bytes

omit [Unicode] in
theorem valuesInFile_written {disk : Disk} {path : Text} {values : Dict Text PyValue}
    (hjson : ∀ p ∈ values.entries, p.2.IsJson) (h : HoldsWritten disk path values) :
    valuesInFile files disk path = .ok values.entries := by
  obtain ⟨style, text, bytes, hstyle, hpairs, htext, hbytes, hdisk⟩ := h
  have hread := jsonLoadsBytes_dumps files.wide hstyle htext hbytes
    ⟨values.nodup, (PyValue.isJsonEntries_iff _).2 hjson⟩ hpairs
  simp only [valuesInFile, hdisk, hread]

/-- One operation brings both clients to the same state. -/
theorem perform_file {path : Text} {values : Dict Text PyValue} (hjson : ∀ p ∈ values.entries, p.2.IsJson)
    {c c' : OfflineClient} (hc : c.source = .offlineFile path) (hc' : c'.source = .inlineValues values)
    (hclient : c.client = c'.client) (hconnected : c.connected = c'.connected) (op : OfflineOp)
    (hop : ∀ disk, op = .initialized disk → HoldsWritten disk path values) :
    (c.perform files op).client = (c'.perform files op).client ∧
      (c.perform files op).connected = (c'.perform files op).connected := by
  cases op with
  | close => exact ⟨congrArg ClientState.close hclient, rfl⟩
  | initialized disk =>
    have hvalues := valuesInFile_written files hjson (hop disk rfl)
    have hfile : offlineConfigs files disk c.source = unconditionalConfigs values.entries (offlineValuesFile path) := by
      rw [hc]
      show valuesInFile files disk path >>= _ = _
      rw [hvalues]
      rfl
    have hinline : offlineConfigs files disk c'.source = unconditionalConfigs values.entries (lit "The offline values") := by
      rw [hc']
      rfl
    cases hclosed : c.client.closed with
    | true =>
      rw [perform_closed files hclosed, perform_closed files (hclient ▸ hclosed)]
      exact ⟨hclient, hconnected⟩
    | false =>
      have hclosed' : c'.client.closed = false := hclient ▸ hclosed
      -- the two sources are described differently in what they raise, and in nothing else
      cases hentries : offlineEntries values.entries with
      | error e =>
        obtain ⟨e₁, h₁⟩ := unconditionalConfigs_error hentries (offlineValuesFile path)
        obtain ⟨e₂, h₂⟩ := unconditionalConfigs_error hentries (lit "The offline values")
        rw [perform_error files hclosed (hfile.trans h₁), perform_error files hclosed' (hinline.trans h₂)]
        exact ⟨hclient, hconnected⟩
      | ok definitions =>
        rw [perform_ok files hclosed (hfile.trans (unconditionalConfigs_ok hentries _)),
          perform_ok files hclosed' (hinline.trans (unconditionalConfigs_ok hentries _))]
        unfold OfflineClient.load
        rw [hclient]
        exact ⟨rfl, rfl⟩

/-- As long as the file holds the values, in whatever layout it is written from one `initialize` to the next, the
client of the file is at every moment in the state of the client that was given the values. -/
theorem offline_file_as_inline {path : Text} {values : Dict Text PyValue} (hjson : ∀ p ∈ values.entries, p.2.IsJson)
    (handlers : ClientEvent → List ℕ) (ops : List OfflineOp)
    (hops : ∀ disk, .initialized disk ∈ ops → HoldsWritten disk path values) :
    ((OfflineClient.init (.offlineFile path) handlers).run files ops).client =
        ((OfflineClient.init (.inlineValues values) handlers).run files ops).client ∧
      ((OfflineClient.init (.offlineFile path) handlers).run files ops).connected =
        ((OfflineClient.init (.inlineValues values) handlers).run files ops).connected := by
  have hrun : ∀ (ops : List OfflineOp) (c c' : OfflineClient), c.source = .offlineFile path →
      c'.source = .inlineValues values → c.client = c'.client → c.connected = c'.connected →
      (∀ disk, .initialized disk ∈ ops → HoldsWritten disk path values) →
      (c.run files ops).client = (c'.run files ops).client ∧ (c.run files ops).connected = (c'.run files ops).connected := by
    intro ops
    induction ops with
    | nil => exact fun c c' _ _ hclient hconnected _ => ⟨hclient, hconnected⟩
    | cons op ops ih =>
      intro c c' hc hc' hclient hconnected hops
      obtain ⟨hclient₁, hconnected₁⟩ := perform_file files hjson hc hc' hclient hconnected op
        fun disk hop => hops disk (hop ▸ List.mem_cons_self)
      exact ih _ _ ((source_perform files c op).trans hc) ((source_perform files c' op).trans hc') hclient₁ hconnected₁
        fun disk hdisk => hops disk (List.mem_cons_of_mem _ hdisk)
  exact hrun ops _ _ rfl rfl rfl rfl hops

omit [Unicode] in
theorem holdsWritten_document : ∃ disk : Disk, HoldsWritten disk (lit "values.json") documentValues := by
  let text := lit "\x7b\"k\": \x7b\"a\": [1]\x7d\x7d"
  have hencode : encode? text = some (text.flatMap CodePoint.utf8) := if_pos (encodable_ascii rfl)
  have hpairs : ∀ c : CodePoint, PairFree [c] := fun c => .singleton c
  refine ⟨fun _ => .bytes (text.flatMap CodePoint.utf8), .standard, text, _, JsonStyle.standard_separates, fun _ => ?_, rfl,
    hencode, rfl⟩
  exact ⟨hpairs _, ⟨hpairs _, ⟨trivial, trivial⟩, trivial⟩, trivial⟩

omit [Unicode] in
theorem offline_file_as_inline_document : ∃ (_ : Unicode) (disk : Disk),
    ((OfflineClient.init (.offlineFile (lit "values.json")) fun _ => []).run narrowFiles [.initialized disk]).client =
        ((OfflineClient.init (.inlineValues documentValues) fun _ => []).run narrowFiles [.initialized disk]).client ∧
      ((OfflineClient.init (.offlineFile (lit "values.json")) fun _ => []).run narrowFiles [.initialized disk]).connected =
        ((OfflineClient.init (.inlineValues documentValues) fun _ => []).run narrowFiles [.initialized disk]).connected := by
  let _ : Unicode := .ascii
  obtain ⟨disk, hdisk⟩ := holdsWritten_document
  refine ⟨_, disk, offline_file_as_inline narrowFiles ?_ (fun _ => []) [.initialized disk] ?_⟩
  · intro p hp
    rw [List.mem_singleton.1 hp]
    simp [listDocument, PyValue.IsJson, PyValue.IsJsonEntries, PyValue.IsJsonList]
  · intro disk' h
    cases List.mem_singleton.1 h
    exact hdisk

end Runs

end ConfigDirector.Transport
