/-
How a client is to connect (`_connection_plan`), decided once when it is built: to the server, or not at all and
with which values. Options that contradict each other are not refused when the client is built: they become a source
that is refused when it is initialized.
-/
import ConfigDirector.Client.GetValue

namespace ConfigDirector.Client

open Python Evaluation

/-! ## Model -/

/-- The fields of `types.ConnectionOptions` the plan is made from. -/
structure ConnectionOptions where
  mode : PyValue
  url : Option Text
  file : Option Text
  values : Option (Dict Text PyValue)

inductive LiveConnectionMode
  | streaming
  | polling
deriving DecidableEq

def LiveConnectionMode.text : LiveConnectionMode → Text
  | streaming => lit "streaming"
  | polling => lit "polling"

inductive OfflineSource
  | inCodeDefaults
  | offlineFile (path : Text)
  | inlineValues (values : Dict Text PyValue)
  | rejectedSource (message : Text)

inductive ConnectionPlan
  | connect (mode : LiveConnectionMode) (serverSdkKey baseUrl : Text)
  | stayOffline (source : OfflineSource)

/-- `_has_content`: the text, if it is one and is not blank. -/
def hasContent (value : PyValue) : Option Text :=
  match value with
  | .str s => if (strip s).isEmpty then none else some s
  | _ => none

def validatedServerSdkKey (serverSdkKey : PyValue) : Except ClientError Text :=
  match hasContent serverSdkKey with
  | some key => .ok key
  | none => .error (.validation
      (lit "No server SDK key was provided, the client cannot be instantiated without a valid server SDK key"))

/-- `_DEFAULT_BASE_URL`. -/
def defaultBaseUrl : Text := lit "https://server-sdk-api.configdirector.com"

/-! ### `urllib.parse` -/

/-- `scheme_chars`. -/
def isSchemeChar (c : CodePoint) : Bool :=
  c.isAsciiDigit || (0x41 ≤ c.val && c.val ≤ 0x5A) || (0x61 ≤ c.val && c.val ≤ 0x7A) || c = 0x2B || c = 0x2D || c = 0x2E

def isScheme : Text → Bool
  | [] => false
  | c :: s => ((0x41 ≤ c.val && c.val ≤ 0x5A) || (0x61 ≤ c.val && c.val ≤ 0x7A)) && (c :: s).all isSchemeChar

/-- The scheme and the network location of a URL, before the latter is checked. -/
def splitUrl (url : Text) : Text × Text :=
  let url := (url.dropWhile fun c => c.val ≤ 0x20).filter fun c => !(c = 0x09 || c = 0x0D || c = 0x0A)
  let before := url.takeWhile (· != 0x3A)
  let (scheme, rest) :=
    if before.length < url.length && isScheme before then (lower before, url.drop (before.length + 1)) else ([], url)
  let netloc :=
    if startsWith rest (lit "//") then (rest.drop 2).takeWhile fun c => !(c = 0x2F || c = 0x3F || c = 0x23) else []
  (scheme, netloc)

/-- `urlparse(url)`, as far as its scheme and its network location go. `accepts` is the check `urlsplit` makes of a
network location in brackets or with characters beyond ASCII. -/
def urlparse (accepts : Text → Bool) (url : Text) : Except Exc (Text × Text) :=
  if accepts (splitUrl url).2 then .ok (splitUrl url) else .error .valueError

/-! ### The plan -/

section Plan

variable [Unicode] (accepts : Text → Bool)

def liveModeOf (mode : PyValue) : Except ClientError LiveConnectionMode :=
  match mode with
  | .str m =>
    if m = lit "streaming" then .ok .streaming
    else if m = lit "polling" then .ok .polling
    else .error (.validation (lit "Unknown connection mode '" ++ m ++ lit "'. Expected one of: offline, polling, streaming."))
  | other => .error (.validation
      (lit "Unknown connection mode '" ++ other.toText ++ lit "'. Expected one of: offline, polling, streaming."))

def offlineSourceOf (connection : ConnectionOptions) : OfflineSource :=
  match connection.file, connection.values with
  | some _, some _ => .rejectedSource (lit "An offline connection takes either 'file' or 'values', not both.")
  | some path, none => .offlineFile path
  | none, some values => .inlineValues values
  | none, none => .inCodeDefaults

def baseUrlOf (url : Option Text) : Except ClientError Text :=
  match url with
  | none => .ok defaultBaseUrl
  | some url =>
    match urlparse accepts url with
    | .error e => .error (.raised e)
    | .ok (scheme, netloc) =>
      if scheme.isEmpty || netloc.isEmpty then
        .error (.validation (lit "Invalid base URL '" ++ url ++ lit "'. The URL must include a scheme and a host."))
      else .ok url

def planConnection (serverSdkKey : PyValue) (connection : ConnectionOptions) : Except ClientError ConnectionPlan :=
  match connection.mode with
  | .str m =>
    if m = lit "offline" then .ok (.stayOffline (offlineSourceOf connection)) else live serverSdkKey connection
  | _ => live serverSdkKey connection
where
  live (serverSdkKey : PyValue) (connection : ConnectionOptions) : Except ClientError ConnectionPlan := do
    let mode ← liveModeOf connection.mode
    let liveServerSdkKey ← validatedServerSdkKey serverSdkKey
    if connection.file.isSome || connection.values.isSome then
      return .stayOffline (.rejectedSource (lit "The connection options 'file' and 'values' apply only when the connection " ++
        lit "mode is 'offline', but the mode is '" ++ mode.text ++ lit "'."))
    else
      return .connect mode liveServerSdkKey (← baseUrlOf accepts connection.url)

/-! ## Options that contradict each other -/

theorem liveModeOf_ok_iff (mode : PyValue) (m : LiveConnectionMode) : liveModeOf mode = .ok m ↔ mode = .str m.text := by
  have hne : lit "polling" ≠ lit "streaming" := by decide
  cases mode with
  | str t =>
    unfold liveModeOf
    dsimp only
    rw [PyValue.str.injEq]
    by_cases hstreaming : t = lit "streaming"
    · subst hstreaming
      cases m with
      | streaming => exact iff_of_true rfl rfl
      | polling => exact iff_of_false nofun hne.symm
    · rw [if_neg hstreaming]
      by_cases hpolling : t = lit "polling"
      · subst hpolling
        cases m with
        | streaming => exact iff_of_false nofun hne
        | polling => exact iff_of_true rfl rfl
      · rw [if_neg hpolling]
        refine iff_of_false nofun ?_
        cases m with
        | streaming => exact hstreaming
        | polling => exact hpolling
  | _ => exact iff_of_false nofun nofun

omit [Unicode] in
theorem validatedServerSdkKey_ok_iff (serverSdkKey : PyValue) (key : Text) :
    validatedServerSdkKey serverSdkKey = .ok key ↔ hasContent serverSdkKey = some key := by
  unfold validatedServerSdkKey
  cases hasContent serverSdkKey <;> simp

/-- A mode in which the client never connects. -/
def IsOffline (mode : PyValue) : Prop := mode = .str (lit "offline")

omit [Unicode] in
theorem LiveConnectionMode.text_ne_offline (m : LiveConnectionMode) : m.text ≠ lit "offline" := by
  cases m <;> decide

theorem planConnection_offline (serverSdkKey : PyValue) {connection : ConnectionOptions} (h : IsOffline connection.mode) :
    planConnection accepts serverSdkKey connection = .ok (.stayOffline (offlineSourceOf connection)) := by
  unfold planConnection
  rw [h]
  exact if_pos rfl

theorem planConnection_live (serverSdkKey : PyValue) {connection : ConnectionOptions} (h : ¬ IsOffline connection.mode) :
    planConnection accepts serverSdkKey connection = planConnection.live accepts serverSdkKey connection := by
  unfold planConnection
  cases hmode : connection.mode with
  | str m =>
    dsimp only
    rw [if_neg]
    rintro rfl
    exact h hmode
  | _ => rfl

/-- The options of an offline connection, given with a live mode. -/
def Misplaced (connection : ConnectionOptions) : Prop := connection.file.isSome ∨ connection.values.isSome

/-- A file and values at once for an offline client, or one of them for a client that is to connect, with a key. -/
def Contradictory (serverSdkKey : PyValue) (connection : ConnectionOptions) : Prop :=
  IsOffline connection.mode ∧ connection.file.isSome ∧ connection.values.isSome ∨
    (∃ m : LiveConnectionMode, connection.mode = .str m.text) ∧ (hasContent serverSdkKey).isSome ∧ Misplaced connection

/-- A client is built with options that contradict each other, and with no others, to refuse them later. -/
theorem planConnection_rejected_iff (serverSdkKey : PyValue) (connection : ConnectionOptions) :
    (∃ message, planConnection accepts serverSdkKey connection = .ok (.stayOffline (.rejectedSource message))) ↔
      Contradictory serverSdkKey connection := by
  unfold Contradictory
  by_cases hoffline : IsOffline connection.mode
  · have hlive : ¬ ∃ m : LiveConnectionMode, connection.mode = .str m.text := by
      rintro ⟨m, hm⟩
      rw [hoffline, PyValue.str.injEq] at hm
      exact m.text_ne_offline hm.symm
    rw [planConnection_offline accepts serverSdkKey hoffline, or_iff_left fun h => hlive h.1, and_iff_right hoffline]
    unfold offlineSourceOf
    cases connection.file <;> cases connection.values <;> simp
  · rw [planConnection_live accepts serverSdkKey hoffline, or_iff_right fun h => hoffline h.1]
    unfold planConnection.live Misplaced
    constructor
    · rintro ⟨message, h⟩
      obtain ⟨mode, hmode, h⟩ := bind_eq_ok_iff.1 h
      obtain ⟨key, hkey, h⟩ := bind_eq_ok_iff.1 h
      rw [validatedServerSdkKey_ok_iff] at hkey
      split at h
      · rename_i hplaced
        rw [Bool.or_eq_true] at hplaced
        exact ⟨⟨mode, (liveModeOf_ok_iff _ _).1 hmode⟩, by rw [hkey]; rfl, hplaced⟩
      · obtain ⟨url, -, h⟩ := bind_eq_ok_iff.1 h
        cases h
    · rintro ⟨⟨m, hmode⟩, hkey, hplaced⟩
      obtain ⟨key, hkey⟩ := Option.isSome_iff_exists.1 hkey
      rw [← Bool.or_eq_true] at hplaced
      rw [(liveModeOf_ok_iff _ _).2 hmode, (validatedServerSdkKey_ok_iff _ _).2 hkey]
      simp only [bind, Except.bind]
      rw [if_pos hplaced]
      exact ⟨_, rfl⟩

end Plan

end ConfigDirector.Client
