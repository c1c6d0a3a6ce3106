/-
A client that stays offline (`_transport.offline`): the values of the file or of the options become configs that
are the same for everyone, delivered as one full bundle at every `initialize`. What cannot be loaded raises and
leaves the client as it is.
-/
import ConfigDirector.Client.ConnectionPlan
import ConfigDirector.Client.NativeValues
import ConfigDirector.Python.JsonBytes

namespace ConfigDirector.Transport

open Python Evaluation Client Telemetry

/-! ## Model -/

inductive InitializeError
  /-- `ConfigDirectorInitializationError`. -/
  | initialization (message : Text)
  /-- `ConfigDirectorValidationError`. -/
  | validation (message : Text)
  | raised (e : Exc)

/-- What opening and reading a file gives: its bytes, an `OSError` with its text, or a `ValueError` for a path
with a NUL in it. -/
inductive FileContent
  | bytes (content : Bytes)
  | osError (text : Text)
  | valueError

/-- The files at one moment, by path. -/
abbrev Disk := Text → FileContent

/-- What reading JSON takes from the language: the decoders of UTF-16 and UTF-32, and the text of the
`ValueError` that bytes raise. -/
structure JsonFiles where
  wide : JsonEncoding → Bytes → Option Text
  errorText : Bytes → Text

/-- `_OFFLINE_ENVIRONMENT_ID`, and `_OFFLINE_PROJECT_ID`. -/
def offlineId : Text := lit "offline"

/-- The beginning of every message about a file. -/
def offlineValuesFile (path : Text) : Text := lit "The offline values file '" ++ path ++ lit "'"

def valuesInFile (files : JsonFiles) (disk : Disk) (path : Text) : Except InitializeError (List (Text × PyValue)) :=
  match disk path with
  | .valueError => .error (.raised .valueError)
  | .osError text => .error (.initialization (offlineValuesFile path ++ lit " could not be read: " ++ text))
  | .bytes content =>
    match jsonLoadsBytes files.wide content with
    | none => .error (.initialization (offlineValuesFile path ++ lit " is not valid JSON: " ++ files.errorText content))
    | some (.dict entries) => .ok entries
    | some _ => .error (.initialization
        (offlineValuesFile path ++ lit " must hold a JSON object with one value per config key."))

section Configs

variable [Unicode]

/-- The config of a value. -/
def offlineConfig (key : Text) (value : PyValue) : Except ClientError (Config PyFloat) :=
  unconditionalConfig (.str key) value (lit "offline:" ++ key) none

/-- The configs of the values, in their order. -/
def offlineEntries : List (Text × PyValue) → Except ClientError (List (Text × Config PyFloat))
  | [] => .ok []
  | (key, value) :: values => do
    let definition ← offlineConfig key value
    let definitions ← offlineEntries values
    return (key, definition) :: definitions

def unconditionalConfigs (values : List (Text × PyValue)) (sourceDescription : Text) :
    Except InitializeError (Dict Text (Config PyFloat)) :=
  match offlineEntries values with
  | .ok definitions => .ok (definitions.foldl (fun d p => d.set p.1 p.2) ∅)
  | .error (.validation message) | .error (.type message) =>
    .error (.initialization (sourceDescription ++ lit " could not be loaded. " ++ message))
  | .error (.raised e) => .error (.raised e)

def offlineConfigs (files : JsonFiles) (disk : Disk) (source : OfflineSource) :
    Except InitializeError (Dict Text (Config PyFloat)) :=
  match source with
  | .inCodeDefaults => .ok ∅
  | .offlineFile path => do unconditionalConfigs (← valuesInFile files disk path) (offlineValuesFile path)
  | .inlineValues values => unconditionalConfigs values.entries (lit "The offline values")
  | .rejectedSource message => .error (.initialization message)

/-- The bundle `OfflineTransport.connect` delivers. -/
def offlineBundle (configs : Dict Text (Config PyFloat)) : ConfigBundle where
  configs := configs
  segments := ∅
  kind := .full
  unreadableKeys := []
  environmentId := some offlineId
  projectId := some offlineId
  timestamp := none

/-- A client with its offline transport. -/
structure OfflineClient where
  source : OfflineSource
  connected : Bool
  client : ClientState

/-- `initialize`, and what it delivers. -/
def OfflineClient.initializeClient (files : JsonFiles) (disk : Disk) (c : OfflineClient) :
    Except InitializeError (OfflineClient × Option Delivery) :=
  if c.client.closed then
    .error (.validation
      (lit "This client has been closed and can no longer be used. Create a new one instead."))
  else do
    let configs ← offlineConfigs files disk c.source
    match c.client.onBundle (offlineBundle configs) with
    | some (client, delivery) => return ({ c with connected := true, client }, some delivery)
    | none => return ({ c with connected := true }, none)

def OfflineClient.close (c : OfflineClient) : OfflineClient := { c with connected := false, client := c.client.close }

end Configs

/-! ## Which values are loaded -/

/-- A value a config can be made of, under a key that is not blank. -/
def Loadable (p : Text × PyValue) : Prop := (strip p.1).isEmpty = false ∧ IsNative p.2

section Loading

variable [Unicode]

theorem offlineConfig_ok_iff (key : Text) (value : PyValue) :
    (∃ definition, offlineConfig key value = .ok definition) ↔ Loadable (key, value) := by
  unfold offlineConfig Loadable
  rw [unconditionalConfig_ok_iff]
  refine and_congr_left fun _ => ?_
  unfold validateConfigKey
  dsimp only
  cases (strip key).isEmpty <;> simp

theorem offlineEntries_ok_iff (values : List (Text × PyValue)) :
    (∃ definitions, offlineEntries values = .ok definitions) ↔ ∀ p ∈ values, Loadable p := by
  induction values with
  | nil => exact iff_of_true ⟨_, rfl⟩ nofun
  | cons p values ih =>
    obtain ⟨key, value⟩ := p
    rw [List.forall_mem_cons, ← ih, ← offlineConfig_ok_iff]
    exact exists_bind_eq_ok fun _ => exists_bind_pure_eq_ok _ _

/-- The configs stand under the keys of the values, in their order. -/
theorem offlineEntries_keys : ∀ {values : List (Text × PyValue)} {definitions : List (Text × Config PyFloat)},
    offlineEntries values = .ok definitions → definitions.map Prod.fst = values.map Prod.fst
  | [], _, h => by
    cases h
    rfl
  | (key, value) :: values, _, h => by
    obtain ⟨definition, -, h⟩ := bind_eq_ok_iff.1 h
    obtain ⟨definitions, hrest, h⟩ := bind_eq_ok_iff.1 h
    cases h
    rw [List.map_cons, List.map_cons, offlineEntries_keys hrest]

/-- The configs are those of the values. -/
theorem mem_offlineEntries {key : Text} {definition : Config PyFloat} : ∀ {values : List (Text × PyValue)}
    {definitions : List (Text × Config PyFloat)}, offlineEntries values = .ok definitions →
      ((key, definition) ∈ definitions ↔ ∃ value, (key, value) ∈ values ∧ offlineConfig key value = .ok definition)
  | [], _, h => by
    cases h
    refine iff_of_false List.not_mem_nil ?_
    rintro ⟨value, hmem, -⟩
    cases hmem
  | (key', value) :: values, _, h => by
    obtain ⟨definition', hdefinition, h⟩ := bind_eq_ok_iff.1 h
    obtain ⟨definitions, hrest, h⟩ := bind_eq_ok_iff.1 h
    cases h
    rw [List.mem_cons, mem_offlineEntries hrest]
    constructor
    · rintro (h | ⟨v, hmem, hv⟩)
      · cases h
        exact ⟨value, List.mem_cons_self, hdefinition⟩
      · exact ⟨v, List.mem_cons_of_mem _ hmem, hv⟩
    · rintro ⟨v, hmem, hv⟩
      rcases List.mem_cons.1 hmem with h | hmem
      · cases h
        rw [hdefinition] at hv
        cases hv
        exact .inl rfl
      · exact .inr ⟨v, hmem, hv⟩

theorem unconditionalConfigs_ok {values : List (Text × PyValue)} {definitions : List (Text × Config PyFloat)}
    (h : offlineEntries values = .ok definitions) (sourceDescription : Text) :
    unconditionalConfigs values sourceDescription = .ok (definitions.foldl (fun d p => d.set p.1 p.2) ∅) := by
  unfold unconditionalConfigs
  rw [h]

theorem unconditionalConfigs_error {values : List (Text × PyValue)} {e : ClientError}
    (h : offlineEntries values = .error e) (sourceDescription : Text) :
    ∃ e', unconditionalConfigs values sourceDescription = .error e' := by
  unfold unconditionalConfigs
  rw [h]
  cases e <;> exact ⟨_, rfl⟩

theorem unconditionalConfigs_ok_iff (values : List (Text × PyValue)) (sourceDescription : Text) :
    (∃ configs, unconditionalConfigs values sourceDescription = .ok configs) ↔ ∀ p ∈ values, Loadable p := by
  rw [← offlineEntries_ok_iff]
  cases hentries : offlineEntries values with
  | ok definitions => exact iff_of_true ⟨_, unconditionalConfigs_ok hentries _⟩ ⟨_, rfl⟩
  | error e =>
    obtain ⟨e', he⟩ := unconditionalConfigs_error hentries sourceDescription
    rw [he]
    exact iff_of_false nofun nofun

/-- The configs of values with distinct keys, in their order. -/
theorem unconditionalConfigs_entries {values : List (Text × PyValue)} (hkeys : (values.map Prod.fst).Nodup)
    {sourceDescription : Text} {configs : Dict Text (Config PyFloat)}
    (h : unconditionalConfigs values sourceDescription = .ok configs) : offlineEntries values = .ok configs.entries := by
  cases hentries : offlineEntries values with
  | error e =>
    obtain ⟨e', he⟩ := unconditionalConfigs_error hentries sourceDescription
    rw [he] at h
    cases h
  | ok definitions =>
    rw [unconditionalConfigs_ok hentries] at h
    cases h
    have hdefinitions : (definitions.map Prod.fst).Nodup := by
      rw [offlineEntries_keys hentries]
      exact hkeys
    rw [Dict.entries_foldl_set hdefinitions]

end Loading

/-! ## What is written is read back -/

mutual
/-- Every dictionary in a value has distinct keys, as those of the language have. -/
def DistinctKeys : PyValue → Prop
  | .list items => DistinctKeysList items
  | .dict entries => (entries.map Prod.fst).Nodup ∧ DistinctKeysEntries entries
  | _ => True

def DistinctKeysList : List PyValue → Prop
  | [] => True
  | v :: vs => DistinctKeys v ∧ DistinctKeysList vs

def DistinctKeysEntries : List (Text × PyValue) → Prop
  | [] => True
  | (_, v) :: es => DistinctKeys v ∧ DistinctKeysEntries es
end

mutual
theorem isJson_of_writable : ∀ v : PyValue, Writable false v → DistinctKeys v → v.IsJson
  | .none, _, _ | .bool _, _, _ | .int _, _, _ | .float _, _, _ | .str _, _, _ => trivial
  | .list items, h, hkeys => by
    rw [Writable] at h
    rw [DistinctKeys] at hkeys
    rw [PyValue.IsJson]
    exact isJsonList_of_writable items h hkeys
  | .dict entries, h, hkeys => by
    rw [Writable] at h
    rw [DistinctKeys] at hkeys
    rw [PyValue.IsJson]
    exact ⟨hkeys.1, isJsonEntries_of_writable entries h hkeys.2⟩
  | .other _, h, _ => by
    rw [Writable] at h
    exact h.elim

theorem isJsonList_of_writable : ∀ vs : List PyValue, WritableList false vs → DistinctKeysList vs → PyValue.IsJsonList vs
  | [], _, _ => trivial
  | v :: vs, h, hkeys => by
    rw [WritableList] at h
    rw [DistinctKeysList] at hkeys
    exact ⟨isJson_of_writable v h.1 hkeys.1, isJsonList_of_writable vs h.2 hkeys.2⟩

theorem isJsonEntries_of_writable : ∀ es : List (Text × PyValue), WritableEntries false es → DistinctKeysEntries es →
    PyValue.IsJsonEntries es
  | [], _, _ => trivial
  | (_, v) :: es, h, hkeys => by
    rw [WritableEntries] at h
    rw [DistinctKeysEntries] at hkeys
    exact ⟨isJson_of_writable v h.1 hkeys.1, isJsonEntries_of_writable es h.2 hkeys.2⟩
end

mutual
theorem distinctKeys_of_isJson : ∀ v : PyValue, v.IsJson → DistinctKeys v
  | .none, _ | .bool _, _ | .int _, _ | .float _, _ | .str _, _ | .other _, _ => trivial
  | .list items, h => by
    rw [PyValue.IsJson] at h
    rw [DistinctKeys]
    exact distinctKeysList_of_isJson items h
  | .dict entries, h => by
    rw [PyValue.IsJson] at h
    rw [DistinctKeys]
    exact ⟨h.1, distinctKeysEntries_of_isJson entries h.2⟩

theorem distinctKeysList_of_isJson : ∀ vs : List PyValue, PyValue.IsJsonList vs → DistinctKeysList vs
  | [], _ => trivial
  | v :: vs, h => ⟨distinctKeys_of_isJson v h.1, distinctKeysList_of_isJson vs h.2⟩

theorem distinctKeysEntries_of_isJson : ∀ es : List (Text × PyValue), PyValue.IsJsonEntries es → DistinctKeysEntries es
  | [], _ => trivial
  | (_, v) :: es, h => ⟨distinctKeys_of_isJson v h.1, distinctKeysEntries_of_isJson es h.2⟩
end

/-- The reader of the language undoes what a value is written as. -/
theorem undoes_reader {v : PyValue} (h : v.IsJson) : Undoes .reader v := by
  intro text htext
  exact jsonLoads_dumps JsonStyle.compact_separates htext h nofun

/-! ## Loading a source -/

section Source

variable (files : JsonFiles)

/-- The values a source has at a moment. -/
def sourceValues (disk : Disk) (source : OfflineSource) : Option (Dict Text PyValue) :=
  match source with
  | .inCodeDefaults => some ∅
  | .offlineFile path => (valuesInFile files disk path).toOption.map ofMembers
  | .inlineValues values => some values
  | .rejectedSource _ => none

/-- The values, if all of them can be loaded. -/
def Loads (disk : Disk) (source : OfflineSource) (values : Dict Text PyValue) : Prop :=
  sourceValues files disk source = some values ∧ ∀ p ∈ values.entries, Loadable p

/-- A source whose dictionaries have distinct keys. -/
def WellKeyed (source : OfflineSource) : Prop :=
  ∀ values, source = .inlineValues values → ∀ p ∈ values.entries, DistinctKeys p.2

theorem valuesInFile_json {disk : Disk} {path : Text} {entries : List (Text × PyValue)}
    (h : valuesInFile files disk path = .ok entries) :
    (entries.map Prod.fst).Nodup ∧ ∀ p ∈ entries, p.2.IsJson := by
  unfold valuesInFile at h
  split at h
  · cases h
  · cases h
  · split at h
    · cases h
    · rename_i hloads
      cases h
      have hjson := jsonLoadsBytes_json hloads
      rw [PyValue.IsJson, PyValue.isJsonEntries_iff] at hjson
      exact hjson
    · cases h

theorem distinctKeys_sourceValues {disk : Disk} {source : OfflineSource} (hkeys : WellKeyed source)
    {values : Dict Text PyValue} (h : sourceValues files disk source = some values) :
    ∀ p ∈ values.entries, DistinctKeys p.2 := by
  cases source with
  | inCodeDefaults =>
    cases h
    exact fun p hp => absurd hp List.not_mem_nil
  | offlineFile path =>
    obtain ⟨entries, hentries, rfl⟩ := Option.map_eq_some_iff.1 h
    obtain ⟨hnodup, hjson⟩ := valuesInFile_json files (toOption_eq_some_iff.1 hentries)
    intro p hp
    exact distinctKeys_of_isJson p.2 (hjson p (mem_ofMembers hp))
  | inlineValues values =>
    cases h
    exact hkeys values rfl
  | rejectedSource message => cases h

variable [Unicode]

/-- The configs of a source are those of its values, and there are none if one of the values cannot be loaded. -/
theorem offlineConfigs_spec (disk : Disk) (source : OfflineSource) :
    (∀ configs, offlineConfigs files disk source = .ok configs →
      ∃ values, Loads files disk source values ∧ offlineEntries values.entries = .ok configs.entries) ∧
    ((∃ values, Loads files disk source values) → ∃ configs, offlineConfigs files disk source = .ok configs) := by
  cases source with
  | inCodeDefaults =>
    constructor
    · intro configs h
      cases h
      exact ⟨∅, ⟨rfl, fun p hp => absurd hp List.not_mem_nil⟩, rfl⟩
    · exact fun _ => ⟨∅, rfl⟩
  | offlineFile path =>
    constructor
    · intro configs h
      obtain ⟨entries, hentries, h⟩ := bind_eq_ok_iff.1 h
      obtain ⟨hnodup, -⟩ := valuesInFile_json files hentries
      have hloadable := (unconditionalConfigs_ok_iff _ _).1 ⟨configs, h⟩
      refine ⟨ofMembers entries, ⟨?_, ?_⟩, ?_⟩
      · show (valuesInFile files disk path).toOption.map ofMembers = _
        rw [hentries]
        rfl
      · exact fun p hp => hloadable p (mem_ofMembers hp)
      · rw [entries_ofMembers hnodup]
        exact unconditionalConfigs_entries hnodup h
    · rintro ⟨values, hvalues, hloadable⟩
      obtain ⟨entries, hentries, rfl⟩ := Option.map_eq_some_iff.1 hvalues
      rw [toOption_eq_some_iff] at hentries
      rw [entries_ofMembers (valuesInFile_json files hentries).1] at hloadable
      obtain ⟨configs, hconfigs⟩ := (unconditionalConfigs_ok_iff entries (offlineValuesFile path)).2 hloadable
      exact ⟨configs, bind_eq_ok_iff.2 ⟨entries, hentries, hconfigs⟩⟩
  | inlineValues values =>
    constructor
    · intro configs h
      exact ⟨values, ⟨rfl, (unconditionalConfigs_ok_iff _ _).1 ⟨configs, h⟩⟩, unconditionalConfigs_entries values.nodup h⟩
    · rintro ⟨values', hvalues, hloadable⟩
      cases hvalues
      exact (unconditionalConfigs_ok_iff _ _).2 hloadable
  | rejectedSource message =>
    constructor
    · exact fun configs h => by cases h
    · rintro ⟨values, hvalues, -⟩
      cases hvalues

end Source

/-! ## Reading what is loaded -/

section Reading

variable [Unicode]

/-- A dictionary or a list is written with the type `json`, and nothing else is. -/
theorem encodeValue_type {configKey value : PyValue} {key configType text : Text}
    (h : encodeValue configKey value = .ok (key, configType, text)) : configType = lit "json" ↔ value.IsCollection := by
  obtain ⟨key', -, h⟩ := bind_eq_ok_iff.1 h
  have hscalar : ∀ {t : Text}, t ≠ lit "json" → configType = t → (∀ items, value ≠ .list items) →
      (∀ entries, value ≠ .dict entries) → (configType = lit "json" ↔ value.IsCollection) := by
    rintro t ht rfl hlist hdict
    refine iff_of_false ht ?_
    rintro (⟨items, h⟩ | ⟨entries, h⟩)
    · exact hlist items h
    · exact hdict entries h
  cases value with
  | none => cases h
  | other text => cases h
  | bool b =>
    cases h
    exact hscalar (by decide) rfl nofun nofun
  | int n =>
    obtain ⟨digits, -, h⟩ := bind_eq_ok_iff.1 h
    cases h
    exact hscalar (by decide) rfl nofun nofun
  | float x =>
    obtain ⟨digits, -, h⟩ := bind_eq_ok_iff.1 h
    cases h
    exact hscalar (by decide) rfl nofun nofun
  | str s =>
    cases h
    exact hscalar (by decide) rfl nofun nofun
  | list items =>
    obtain ⟨document, -, h⟩ := bind_eq_ok_iff.1 h
    cases h
    exact iff_of_true rfl (.inl ⟨items, rfl⟩)
  | dict entries =>
    obtain ⟨document, -, h⟩ := bind_eq_ok_iff.1 h
    cases h
    exact iff_of_true rfl (.inr ⟨entries, rfl⟩)

omit [Unicode] in
theorem clean_iff_ownText {value : PyValue} (h : ¬ value.IsCollection) : value.Clean ↔ OwnTextEncodable value := by
  cases value with
  | list items => exact absurd (.inl ⟨items, rfl⟩) h
  | dict entries => exact absurd (.inr ⟨entries, rfl⟩) h
  | str s => exact Iff.rfl
  | _ => exact Iff.rfl

/-- A value has an id under the type it is written with if and only if every text in it can be encoded. -/
theorem identifiable_encoded {configKey value : PyValue} {key configType text : Text}
    (h : encodeValue configKey value = .ok (key, configType, text)) {v : PyValue}
    (hclass : valueClass v = valueClass value) : Identifiable v (.str configType) ↔ v.Clean := by
  have htype := encodeValue_type h
  unfold Identifiable Telemetry.isJson
  dsimp only
  by_cases hcollection : value.IsCollection
  · rw [if_pos (decide_eq_true (htype.2 hcollection))]
  · rw [if_neg (by rw [decide_eq_true_eq, htype]; exact hcollection)]
    refine (clean_iff_ownText ?_).symm
    rintro (⟨items, rfl⟩ | ⟨entries, rfl⟩)
    · cases value with
      | list items => exact hcollection (.inl ⟨items, rfl⟩)
      | _ => cases hclass
    · cases value with
      | dict entries => exact hcollection (.inr ⟨entries, rfl⟩)
      | _ => cases hclass

/-- What a request is answered with: the value of the key, or the default and the reason. -/
def offlineAnswer (ready : Bool) (value : Option PyValue) (default : PyValue) : ParseResult :=
  match value with
  | none => defaulted default (if ready then .configStateMissing else .clientNotReady)
  | some (.str []) => defaulted default .valueMissing
  | some value => ⟨value, .foundMatch, false, none⟩

omit [Unicode] in
/-- Whether the client is ready matters only where there is no value. -/
theorem offlineAnswer_some (ready ready' : Bool) (value default : PyValue) :
    offlineAnswer ready (some value) default = offlineAnswer ready' (some value) default := by
  cases value with
  | str s => cases s <;> rfl
  | _ => rfl

/-- The state selected for a loaded value, whatever the context. -/
def offlineState (key configType text : Text) : ConfigState := ⟨lit "offline:" ++ key, key, .str configType, some text, none⟩

theorem encodeValue_key {key key' configType text : Text} {value : PyValue}
    (h : encodeValue (.str key) value = .ok (key', configType, text)) : key' = key := by
  obtain ⟨k, hk, hrest⟩ := bind_eq_ok_iff.1 h
  clear h
  have hk' : k = key := by
    unfold validateConfigKey at hk
    dsimp only at hk
    split at hk
    · cases hk
    · cases hk
      rfl
  subst hk'
  have hbind : ∀ {x : Except ClientError Text} {t : Text},
      (do return (k, t, ← x) : Except ClientError (Text × Text × Text)) = .ok (key', configType, text) → key' = k := by
    intro x t hbound
    obtain ⟨u, -, hpair⟩ := bind_eq_ok_iff.1 hbound
    cases hpair
    rfl
  cases value with
  | none => cases hrest
  | other t => cases hrest
  | bool b =>
    cases hrest
    rfl
  | str s =>
    cases hrest
    rfl
  | int n => exact hbind hrest
  | float x => exact hbind hrest
  | list items => exact hbind hrest
  | dict entries => exact hbind hrest

theorem offlineConfig_state {key : Text} {value : PyValue} {definition : Config PyFloat}
    (h : offlineConfig key value = .ok definition) : ∃ configType text,
      encodeValue (.str key) value = .ok (key, configType, text) ∧
        ∀ metadata supplied segments, selectedState metadata definition supplied segments = offlineState key configType text := by
  obtain ⟨⟨key', configType, text⟩, hencode, h⟩ := bind_eq_ok_iff.1 h
  cases h
  obtain rfl := encodeValue_key hencode
  exact ⟨configType, text, hencode, fun _ _ _ => rfl⟩

/-- A loaded value is read under a default of its class as itself; the empty text counts as missing. -/
theorem parse_offlineState {key : Text} {value default : PyValue} {configType text : Text} (hjson : value.IsJson)
    (h : encodeValue (.str key) value = .ok (key, configType, text)) (hclass : valueClass default = valueClass value)
    (hsome : (valueClass default).isSome) : parseConfigValue .reader (offlineState key configType text) default =
      .ok (offlineAnswer true (some value) default) := by
  by_cases hcontent : value = .str []
  · subst hcontent
    obtain ⟨k, -, h⟩ := bind_eq_ok_iff.1 h
    cases h
    exact parseConfigValue_empty rfl rfl default
  · have hwrites : Writes .reader value configType text :=
      writes_of_encodeValue hcontent (fun _ => undoes_reader hjson) h
    have hanswer : offlineAnswer true (some value) default = ⟨value, .foundMatch, false, none⟩ := by
      unfold offlineAnswer
      split
      · rename_i h
        cases h
      · rename_i h
        cases h
        exact absurd rfl hcontent
      · rename_i h
        cases h
        rfl
    rw [hanswer]
    by_cases hdefault : ∃ s, default = .str s
    · obtain ⟨s, rfl⟩ := hdefault
      cases value with
      | str s' =>
        obtain ⟨rfl, hreadable⟩ := hwrites.str s' rfl
        rw [parseConfigValue_str rfl hwrites.content]
        rw [if_pos (show isHashable (offlineState key configType text).type = true from rfl)]
        show Except.ok (if configTypesNotReadableAsString.contains configType then _ else _) = _
        rw [hreadable]
        rfl
      | _ => cases hclass
    · rw [parseConfigValue_readAs rfl hwrites.content fun s hs => hdefault ⟨s, hs⟩,
        hwrites.read default hclass fun s hs => hdefault ⟨s, hs⟩]
      rfl

/-- What an answer has to do with the result it reports. -/
structure Reports (key : Text) (supplied : Option Context) (result : ParseResult) (e : Evaluated) : Prop where
  value : e.value = result.value
  evaluation : ∃ id, e.evaluation =
    ⟨key, result.value, result.usedDefault, result.reason, some id, (contextToEvaluate supplied).1⟩

omit [Unicode] in
theorem reports_evaluated (key : Text) (default : PyValue) (result : ParseResult) (configType : PyValue) (id : Text)
    (supplied : Option Context) : Reports key supplied result (evaluated key default result configType id supplied) :=
  ⟨rfl, id, rfl⟩

/-- The definition is the config of the value, which a default of its class asks for. -/
def DefinitionOf (key : Text) (default : PyValue) : Option PyValue → Option (Config PyFloat) → Prop
  | none, definition => definition = none
  | some value, definition => value.IsJson ∧ valueClass default = valueClass value ∧
      ∃ d, definition = some d ∧ offlineConfig key value = .ok d

/-- The answer is given if and only if every text in it can be encoded. -/
theorem evaluateFor_offline (sha256 : Bytes → Bytes) (metadata : Metadata) (ready : Bool) (r : Request)
    (value : Option PyValue) (definition : Option (Config PyFloat)) (segments : Segments)
    (hdefinition : DefinitionOf r.key r.default value definition) :
    let result := offlineAnswer ready value r.default
    let outcome := evaluateFor ⟨.reader, sha256⟩ metadata ready r.key definition r.default r.context segments
    ((∃ e, outcome = .ok e) ↔ result.value.Clean) ∧ ∀ e, outcome = .ok e → Reports r.key r.context result e := by
  intro result outcome
  cases value with
  | none =>
    cases hdefinition
    have hclean : Identifiable r.default .none ↔ r.default.Clean := by
      unfold Identifiable Telemetry.isJson
      have hclass := r.default_class
      cases hd : r.default with
      | none =>
        rw [hd] at hclass
        cases hclass
      | other t =>
        rw [hd] at hclass
        cases hclass
      | _ => exact Iff.rfl
    constructor
    · rw [show result.value = r.default from rfl, ← hclean, ← valueIdFor_ok_iff sha256 r.default_json]
      exact exists_bind_pure_eq_ok _ _
    · intro e he
      obtain ⟨id, -, he⟩ := bind_eq_ok_iff.1 he
      cases he
      exact reports_evaluated ..
  | some value =>
    obtain ⟨hjson, hclass, d, rfl, hd⟩ := hdefinition
    obtain ⟨configType, text, hencode, hstate⟩ := offlineConfig_state hd
    have hparse := parse_offlineState hjson hencode hclass r.default_class
    have hresult : result = offlineAnswer true (some value) r.default := offlineAnswer_some ready true value r.default
    have houtcome : outcome = (do
        let id ← idOr ⟨.reader, sha256⟩ result.valueId result.value (.str configType)
        return evaluated r.key r.default result (.str configType) id r.context) := by
      show evaluateFor _ _ _ _ _ _ _ _ = _
      unfold evaluateFor
      dsimp only
      rw [hstate, hparse, ← hresult]
      rfl
    have hanswer : result.valueId = none ∧ result.value.IsJson ∧ valueClass result.value = valueClass value := by
      rw [hresult]
      unfold offlineAnswer
      split
      · rename_i h
        cases h
      · rename_i h
        cases h
        exact ⟨rfl, r.default_json, hclass⟩
      · rename_i h
        cases h
        exact ⟨rfl, hjson, rfl⟩
    obtain ⟨hid, hresultJson, hresultClass⟩ := hanswer
    rw [houtcome, hid]
    constructor
    · rw [← identifiable_encoded hencode hresultClass, ← named_none_iff, ← idOr_ok_iff ⟨.reader, sha256⟩ none hresultJson]
      exact exists_bind_pure_eq_ok _ _
    · intro e he
      obtain ⟨id, -, he⟩ := bind_eq_ok_iff.1 he
      cases he
      exact reports_evaluated ..

end Reading

end ConfigDirector.Transport
