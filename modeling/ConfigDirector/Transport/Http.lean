/-
One request and its response (`_http`, `_transport.base`): which of urllib3's exceptions are translated
into errors of the SDK, and which statuses cannot be recovered from.
-/
import ConfigDirector.Bundle.Isolation
import ConfigDirector.Python.Utf8

namespace ConfigDirector.Transport

open Python ConfigDirector.Bundle

/-! ## Model -/

/-- What urllib3 makes of a request, each exception with its text. -/
inductive Exchange
  /-- `request()` raises `LocationValueError`. -/
  | unusable (error : Text)
  /-- `request()` raises any other `HTTPError`. -/
  | failed (error : Text)
  /-- The response to read: its body, or the `HTTPError` that `read()` raises. -/
  | answered (status : ℕ) (body : Except Text Bytes)

structure HttpResponse where
  status : ℕ
  body : Text

def HttpResponse.ok (response : HttpResponse) : Bool := 200 ≤ response.status && response.status < 300

/-- What a transport can raise. -/
inductive TransportError
  /-- `ConfigDirectorConnectionError`. -/
  | connection (message : Text) (status : Option ℕ)
  /-- `ConfigDirectorValidationError`. -/
  | validation (message : Text)
  /-- An `HTTPError` of urllib3. -/
  | http (error : Text)
  | bundle (error : BundleError)

/-- `MAX_RESPONSE_BYTES`. -/
def maxResponseBytes : ℕ := 32 * 1024 * 1024

/-- `_read_text`. -/
def readText (body : Except Text Bytes) : Except TransportError Text :=
  match body with
  | .error error => .error (.http error)
  | .ok payload =>
    if maxResponseBytes < payload.length then
      .error (.connection (lit "The server response exceeded the " ++ natText maxResponseBytes ++
        lit " byte limit and was discarded") none)
    else .ok (decodeReplace payload)

/-- `HttpClient.post`. -/
def post (url : Text) : Exchange → Except TransportError HttpResponse
  | .unusable error => .error (.validation (lit "The URL '" ++ url ++ lit "' is not usable: " ++ error))
  | .failed error => .error (.connection (lit "Connection failed with error: " ++ error ++ lit ".") none)
  | .answered status body => return ⟨status, ← readText body⟩

def isFatalStatus : Option ℕ → Bool
  | some status => 400 ≤ status && status < 500 && status != 429
  | none => false

def fatalStatusError (status : Option ℕ) (detail : Option Text) : TransportError :=
  let headline := lit "Connection failed with status: " ++ ((status.map natText).getD (lit "unknown"))
  let body :=
    match detail with
    | some detail => if (strip detail).isEmpty then [] else lit " (" ++ strip detail ++ lit ")"
    | none => []
  .connection (headline ++ body ++ lit ". This is an unrecoverable error, retry attempts will be ignored.") status

/-- What a transport takes from the language: `json.loads`, and the text of an exception. -/
structure Runtime extends JsonLoads where
  str : BundleError → Text

/-! ## What gets past the parser's caller -/

variable [Unicode]

/-- The payload holds a config whose definition overflows. -/
def Spills (r : Runtime) (payload : Text) : Prop :=
  ∃ entries configs, r.loads payload = some (.dict entries) ∧ fieldOf entries (lit "configs") = .dict configs ∧
    ¬ Fits configs

/-- What `parse_bundle` raises is a `ValueError`, unless the payload spills. -/
theorem parseBundle_raises_iff (r : Runtime) (payload : Text) :
    (∃ e, parseBundle r.loads payload = .error e ∧ e.isValueError = false) ↔ Spills r payload := by
  unfold parseBundle
  constructor
  · rintro ⟨e, he, hv⟩
    cases hl : r.loads payload with
    | none =>
      rw [hl] at he
      cases he
      cases hv
    | some document =>
      rw [hl] at he
      cases document with
      | dict entries =>
        cases hc : fieldOf entries (lit "configs") with
        | dict configs =>
          let d : Document := ⟨entries, configs, r.loads_json payload _ hl, hc⟩
          refine ⟨entries, configs, hl, hc, fun hfits => ?_⟩
          obtain ⟨b, hb⟩ := (parse_ok_iff d).2 hfits
          change parse d = .error e at he
          rw [hb] at he
          cases he
        | _ =>
          simp only [parseDocument, hc, Except.error.injEq] at he
          subst he
          cases hv
      | _ =>
        cases he
        cases hv
  · rintro ⟨entries, configs, hl, hc, hfits⟩
    let d : Document := ⟨entries, configs, r.loads_json payload _ hl, hc⟩
    rw [hl]
    cases hp : parse d with
    | ok b => exact absurd ((parse_ok_iff d).1 ⟨b, hp⟩) hfits
    | error e => exact ⟨e, hp, parse_error hp⟩

end ConfigDirector.Transport
