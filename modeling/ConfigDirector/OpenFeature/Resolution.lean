/-
Resolving a flag (`provider._resolve`, `_resolution`, `_context`, `_values`). The client returns a value, and the
evaluation it belongs to comes from the `config_evaluated` event by way of a context variable, which every thread
has for itself.
-/
import ConfigDirector.Client.History
import ConfigDirector.Client.InvalidKinds
import ConfigDirector.OpenFeature.Announcement
import ConfigDirector.Telemetry.Wire

namespace ConfigDirector.OpenFeature

open Python Evaluation Client

/-! ## Values and contexts -/

/-- A value of an evaluation context, or a default of an object flag. -/
inductive Attribute
  | none
  | bool (b : Bool)
  | int (n : ℤ)
  | float (x : PyFloat)
  | str (s : Text)
  /-- With its `str()`. -/
  | bytes (text : Text)
  /-- With its `isoformat()`. -/
  | datetime (isoformat : Text)
  | sequence (items : List Attribute)
  /-- With the `str()` of each key. -/
  | mapping (entries : List (Text × Attribute))
  /-- An object of any other class, with its `str()`. -/
  | other (text : Text)

/-- The entries of a dictionary built from some items. -/
def dictOf (items : List (Text × PyValue)) : List (Text × PyValue) :=
  (items.foldl (fun d p => d.set p.1 p.2) (∅ : Dict Text PyValue)).entries

mutual
/-- `to_plain`. -/
def Attribute.toPlain : Attribute → PyValue
  | .none => .none
  | .bool b => .bool b
  | .int n => .int n
  | .float x => .float x
  | .str s => .str s
  | .bytes text => .other text
  | .datetime isoformat => .str isoformat
  | .sequence items => .list (toPlainList items)
  | .mapping entries => .dict (dictOf (toPlainEntries entries))
  | .other text => .other text

def toPlainList : List Attribute → List PyValue
  | [] => []
  | v :: vs => v.toPlain :: toPlainList vs

def toPlainEntries : List (Text × Attribute) → List (Text × PyValue)
  | [] => []
  | (k, v) :: es => (k, v.toPlain) :: toPlainEntries es
end

section

variable [Unicode]

/-- `_text`. -/
def Attribute.text : Attribute → Option Text
  | .none | .mapping _ | .bytes _ | .sequence _ => Option.none
  | .str s => some s
  | .bool b => some (if b then lit "true" else lit "false")
  | v => some v.toPlain.toText

/-- `EvaluationContext` of OpenFeature. -/
structure FlagContext where
  targetingKey : Option Text
  attributes : Text → Option Attribute

/-- `_identifier`. -/
def FlagContext.identifier (c : FlagContext) : Option Text :=
  match c.targetingKey with
  | some key => some key
  | none => (c.attributes (lit "id")).bind Attribute.text

omit [Unicode] in
/-- The traits of a mapping that is not empty. -/
def traitsOf : Option Attribute → Option (List (Text × PyValue))
  | some (.mapping (p :: entries)) => some (dictOf (toPlainEntries (p :: entries)))
  | _ => none

/-- The kind is passed on as it is. -/
def kindOf : Option Attribute → SuppliedKind
  | none | some .none => .none
  | some (.str kind) => .str kind
  | some v => .other v.toPlain.toText

/-- `to_context`. -/
def toContext (c : FlagContext) : SuppliedContext where
  id := c.identifier
  name := (c.attributes (lit "name")).bind Attribute.text
  traits := traitsOf (c.attributes (lit "traits"))
  anonymous :=
    match c.attributes (lit "anonymous") with
    | some (.bool b) => b
    | _ => false
  kind := kindOf (c.attributes (lit "kind"))

end

/-! ## Details -/

/-- The members of `Reason` that the provider gives. -/
inductive FlagReason
  | targetingMatch
  | default
  | error
deriving DecidableEq

/-- The members of `ErrorCode` that the provider gives. -/
inductive ErrorCode
  | flagNotFound
  | providerNotReady
  | typeMismatch
deriving DecidableEq

structure FlagResolutionDetails where
  value : PyValue
  variant : Option Text
  reason : Option FlagReason
  errorCode : Option ErrorCode
  errorMessage : Option Text

/-- `_error`. -/
def errorDetails (value : PyValue) (errorCode : ErrorCode) (message : Text) : FlagResolutionDetails :=
  ⟨value, none, some .error, some errorCode, some message⟩

def notFoundMessage (key : Text) : Text := lit "No config with the key '" ++ key ++ lit "' was found."

def notReadyMessage : Text := lit "The ConfigDirector client has not received any configs yet."

def mismatchMessage (key : Text) (reason : EvaluationReason) : Text :=
  lit "The value of '" ++ key ++ lit "' does not match the requested type (" ++ reason.text ++ lit ")."

/-- `to_resolution_details`. -/
def toResolutionDetails (value : PyValue) : Option ConfigEvaluation → FlagResolutionDetails
  | none => ⟨value, none, none, none, none⟩
  | some evaluation =>
    match evaluation.reason with
    | .foundMatch => ⟨value, evaluation.valueId, some .targetingMatch, none, none⟩
    | .valueMissing => ⟨value, none, some .default, none, none⟩
    | .configStateMissing => errorDetails value .flagNotFound (notFoundMessage evaluation.key)
    | .clientNotReady => errorDetails value .providerNotReady notReadyMessage
    | reason =>
      if evaluation.isDefault then errorDetails value .typeMismatch (mismatchMessage evaluation.key reason)
      else ⟨value, none, none, none, none⟩

/-! ## Resolving -/

/-- The default of each of the `resolve_` methods. -/
inductive FlagDefault
  | boolean (b : Bool)
  | string (s : Text)
  | integer (n : ℤ)
  | float (v : PyValue)
  /-- A sequence. -/
  | array (items : List Attribute)
  /-- A mapping. -/
  | object (entries : List (Text × Attribute))

/-- What the default is passed on as. -/
def FlagDefault.value : FlagDefault → Except Exc PyValue
  | boolean b => .ok (.bool b)
  | string s => .ok (.str s)
  | integer n => .ok (.int n)
  | float v => v.toFloat.map .float
  | array items => .ok (Attribute.sequence items).toPlain
  | object entries => .ok (Attribute.mapping entries).toPlain

/-- The class of the values a flag has. -/
def FlagDefault.valueClass : FlagDefault → ValueClass
  | boolean _ => .bool
  | string _ => .str
  | integer _ => .int
  | float _ => .float
  | array _ => .list
  | object _ => .dict

structure FlagRequest where
  flagKey : PyValue
  default : FlagDefault
  context : Option FlagContext

/-- What `get_value` is called with, once validated, and the request it is called for. -/
structure FlagCall where
  request : FlagRequest
  key : Text
  default : PyValue
  context : Option Context

/-- The conversions before `get_value`, and its validation. -/
def FlagRequest.call [Unicode] (r : FlagRequest) : Except ClientError FlagCall :=
  match r.default.value with
  | .error e => .error (.raised e)
  | .ok default => do
    let key ← validateConfigKey r.flagKey
    validateDefault default
    return ⟨r, key, default, (contextOf (r.context.map toContext)).1⟩

/-- A thread in `_resolve`, before each of its steps. Those inside `get_value` go by the state in which its locked
section has found the definition and the segments. -/
inductive Resolving
  | idle
  /-- `_evaluated.set(None)` comes first. -/
  | begun (request : FlagRequest)
  | cleared (request : FlagRequest)
  | found (call : FlagCall) (seen : ClientState)
  /-- The handlers of `config_evaluated` are called next; `ready` is what the client was found to be. -/
  | evaluated (call : FlagCall) (seen : ClientState) (ready : Bool) (result : Evaluated)
  | answered (call : FlagCall) (seen : ClientState) (ready : Bool) (value : PyValue)
  | returned (call : FlagCall) (seen : ClientState) (ready : Bool) (details : FlagResolutionDetails)
  | raised (error : ClientError)

/-- The provider's client, and per thread the context variable and what the thread does. -/
structure Resolver where
  client : ClientState
  evaluated : ℕ → Option ConfigEvaluation
  threads : ℕ → Resolving

inductive ResolverStep
  | resolve (i : ℕ) (request : FlagRequest)
  | thread (i : ℕ)
  | bundle (bundle : ConfigBundle)
  | close

namespace Resolver

def init : Resolver := ⟨.init hooks, fun _ => none, fun _ => .idle⟩

def setThread (s : Resolver) (i : ℕ) (t : Resolving) : Resolver :=
  { s with threads := fun j => if j = i then t else s.threads j }

/-- The context variable is set on one thread. -/
def setEvaluated (s : Resolver) (i : ℕ) (evaluation : Option ConfigEvaluation) : Resolver :=
  { s with evaluated := fun j => if j = i then evaluation else s.evaluated j }

section

variable [Unicode] (lib : Library) (metadata : Metadata)

/-- The next step of a thread. -/
def threadStep (s : Resolver) (i : ℕ) : Resolving → Option Resolver
  | .begun request => some ((s.setEvaluated i none).setThread i (.cleared request))
  | .cleared request =>
    match request.call with
    | .error e => some (s.setThread i (.raised e))
    | .ok call => some (s.setThread i (.found call s.client))
  | .found call seen =>
    match evaluateFor lib metadata s.client.ready call.key (seen.held call.key) call.default call.context seen.segments with
    | .error e => some (s.setThread i (.raised (.raised e)))
    | .ok e => some (s.setThread i (.evaluated call seen s.client.ready e))
  | .evaluated call seen ready e =>
    some ((if (s.client.handlers .configEvaluated).contains onConfigEvaluated then s.setEvaluated i (some e.evaluation)
      else s).setThread i (.answered call seen ready e.value))
  | .answered call seen ready value =>
    some (s.setThread i (.returned call seen ready (toResolutionDetails value (s.evaluated i))))
  | .idle | .returned .. | .raised _ => none

def step (s : Resolver) : ResolverStep → Option Resolver
  | .resolve i request =>
    match s.threads i with
    | .idle | .returned .. | .raised _ => some (s.setThread i (.begun request))
    | _ => none
  | .thread i => s.threadStep lib metadata i (s.threads i)
  | .bundle bundle => some { s with client := s.client.perform (.bundle bundle) }
  | .close => some { s with client := s.client.perform .close }

end

end Resolver

/-! ## What details say -/

/-- The details that go with what a thread has found, one case for each. -/
inductive Outcome [Unicode] (lib : Library) (metadata : Metadata) (call : FlagCall) (seen : ClientState) (ready : Bool) :
    FlagResolutionDetails → Prop
  /-- The value selected could be read. -/
  | matched (definition : Config PyFloat) (result : ParseResult) (valueId : Text)
      (hheld : seen.held call.key = some definition)
      (hread : parseConfigValue lib.toJsonLoads (selectedState metadata definition call.context seen.segments)
        call.default = .ok result) (hreason : result.reason = .foundMatch)
      (hid : idOr lib result.valueId result.value definition.type = .ok valueId) :
      Outcome lib metadata call seen ready ⟨result.value, some valueId, some .targetingMatch, none, none⟩
  /-- There is none to read. -/
  | unset (definition : Config PyFloat) (hheld : seen.held call.key = some definition)
      (hread : parseConfigValue lib.toJsonLoads (selectedState metadata definition call.context seen.segments)
        call.default = .ok (defaulted call.default .valueMissing)) :
      Outcome lib metadata call seen ready ⟨call.default, none, some .default, none, none⟩
  /-- It could not be read as what was asked for. -/
  | mismatched (definition : Config PyFloat) (reason : EvaluationReason) (hheld : seen.held call.key = some definition)
      (hread : parseConfigValue lib.toJsonLoads (selectedState metadata definition call.context seen.segments)
        call.default = .ok (defaulted call.default reason)) (hunset : reason ≠ .valueMissing) :
      Outcome lib metadata call seen ready
        (errorDetails call.default .typeMismatch (mismatchMessage call.key reason))
  | notFound (hheld : seen.held call.key = none) (hready : ready = true) :
      Outcome lib metadata call seen ready (errorDetails call.default .flagNotFound (notFoundMessage call.key))
  | notReady (hheld : seen.held call.key = none) (hready : ready = false) :
      Outcome lib metadata call seen ready (errorDetails call.default .providerNotReady notReadyMessage)

theorem FlagDefault.class_of_value {d : FlagDefault} {v : PyValue} (h : d.value = .ok v) :
    Client.valueClass v = some d.valueClass := by
  cases d with
  | float w =>
    rw [FlagDefault.value] at h
    cases hfloat : w.toFloat with
    | error e =>
      rw [hfloat] at h
      cases h
    | ok x =>
      rw [hfloat] at h
      cases h
      rfl
  | _ =>
    cases h
    rfl

/-- A call has the default of its request. -/
theorem FlagRequest.class_of_call [Unicode] {r : FlagRequest} {call : FlagCall} (h : r.call = .ok call) :
    call.request = r ∧ Client.valueClass call.default = some r.default.valueClass := by
  unfold FlagRequest.call at h
  cases hvalue : r.default.value with
  | error e =>
    rw [hvalue] at h
    cases h
  | ok default =>
    rw [hvalue] at h
    obtain ⟨key, -, h⟩ := bind_eq_ok_iff.1 h
    obtain ⟨_, -, h⟩ := bind_eq_ok_iff.1 h
    cases h
    exact ⟨rfl, FlagDefault.class_of_value hvalue⟩

section

variable [Unicode] {lib : Library} {metadata : Metadata}

omit [Unicode] in
/-- Reading never blames the state of the client. -/
theorem reason_of_parse {json : JsonLoads} {state : ConfigState} {default : PyValue} {result : ParseResult}
    (h : parseConfigValue json state default = .ok result) :
    result.reason ≠ .configStateMissing ∧ result.reason ≠ .clientNotReady := by
  have hmatched (parsed : Option PyValue) {reason : EvaluationReason}
      (hreason : reason ≠ .configStateMissing ∧ reason ≠ .clientNotReady) :
      (matchedOr parsed default reason state).reason ≠ .configStateMissing ∧
        (matchedOr parsed default reason state).reason ≠ .clientNotReady := by
    cases parsed with
    | none => exact hreason
    | some v => exact ⟨by simp [matchedOr, matched], by simp [matchedOr, matched]⟩
  cases hraw : state.value with
  | none =>
    simp only [parseConfigValue, hraw] at h
    cases h
    exact ⟨by simp [defaulted], by simp [defaulted]⟩
  | some raw =>
    cases hempty : raw.isEmpty with
    | true =>
      rw [parseConfigValue_empty hraw hempty] at h
      cases h
      exact ⟨by simp [defaulted], by simp [defaulted]⟩
    | false =>
      by_cases hstr : ∃ s, default = .str s
      · obtain ⟨s, rfl⟩ := hstr
        rw [parseConfigValue_str hraw hempty] at h
        split at h
        · cases h
          split <;> exact ⟨by simp [defaulted, matched], by simp [defaulted, matched]⟩
        · cases h
      · rw [parseConfigValue_readAs hraw hempty fun s hs => hstr ⟨s, hs⟩] at h
        cases h
        apply hmatched
        cases default <;> exact ⟨by simp [readAs], by simp [readAs]⟩

omit [Unicode] in
theorem value_toResolutionDetails (value : PyValue) (evaluation : Option ConfigEvaluation) :
    (toResolutionDetails value evaluation).value = value := by
  unfold toResolutionDetails
  split
  · rfl
  · split
    · rfl
    · rfl
    · rfl
    · rfl
    · split <;> rfl

/-- Every evaluation is explained by one of the outcomes, and its value has the class of the default. -/
theorem outcome_of_evaluateFor {call : FlagCall} {seen : ClientState} {ready : Bool} {e : Evaluated}
    (hclass : (Client.valueClass call.default).isSome)
    (h : evaluateFor lib metadata ready call.key (seen.held call.key) call.default call.context seen.segments = .ok e) :
    Outcome lib metadata call seen ready (toResolutionDetails e.value (some e.evaluation)) ∧
      Client.valueClass e.value = Client.valueClass call.default := by
  cases hheld : seen.held call.key with
  | none =>
    rw [hheld] at h
    obtain ⟨id, -, he⟩ := bind_eq_ok_iff.1 h
    cases he
    refine ⟨?_, rfl⟩
    cases ready with
    | true => exact .notFound hheld rfl
    | false => exact .notReady hheld rfl
  | some definition =>
    rw [hheld] at h
    obtain ⟨result, hread, h⟩ := bind_eq_ok_iff.1 h
    obtain ⟨id, hid, he⟩ := bind_eq_ok_iff.1 h
    cases he
    obtain ⟨hmissing, hnotReady⟩ := reason_of_parse hread
    cases parseConfigValue_read hclass hread with
    | found value hjson hvalue => exact ⟨.matched definition _ id hheld hread rfl hid, hvalue⟩
    | default reason hreason =>
      refine ⟨?_, rfl⟩
      by_cases hunset : reason = .valueMissing
      · subst hunset
        exact .unset definition hheld hread
      · have hdetails : toResolutionDetails call.default (some (evaluated call.key call.default
            (defaulted call.default reason) definition.type id call.context).evaluation) =
              errorDetails call.default .typeMismatch (mismatchMessage call.key reason) := by
          cases reason with
          | foundMatch => exact absurd rfl hreason
          | valueMissing => exact absurd rfl hunset
          | configStateMissing => exact absurd rfl hmissing
          | clientNotReady => exact absurd rfl hnotReady
          | _ => rfl
        exact hdetails ▸ .mismatched definition reason hheld hread hunset

/-! ## Runs -/

/-- What a step does to the client. -/
def clientStep (client : ClientState) : ResolverStep → ClientState
  | .bundle bundle => client.perform (.bundle bundle)
  | .close => client.perform .close
  | .resolve _ _ | .thread _ => client

/-- The client after some steps. -/
def clientAfter (trace : List ResolverStep) : ClientState := trace.foldl clientStep (.init hooks)

/-- A lookup found this state, and a later look found the client ready or not. -/
def Looked (trace : List ResolverStep) (seen : ClientState) (ready : Bool) : Prop :=
  ∃ before later, before <+: later ∧ later <+: trace ∧ seen = clientAfter before ∧ ready = (clientAfter later).ready

/-- The call has a default of the class asked for. -/
def FlagCall.Typed (call : FlagCall) : Prop := Client.valueClass call.default = some call.request.default.valueClass

/-- What the client evaluates for a call. -/
def Evaluates (lib : Library) (metadata : Metadata) (call : FlagCall) (seen : ClientState) (ready : Bool) (e : Evaluated) :
    Prop :=
  evaluateFor lib metadata ready call.key (seen.held call.key) call.default call.context seen.segments = .ok e

/-- What the context variable and the client have to do with where a thread is. An evaluation is missing only
once the client was closed. -/
def ThreadSound (lib : Library) (metadata : Metadata) (trace : List ResolverStep) (closed : Bool)
    (evaluation : Option ConfigEvaluation) : Resolving → Prop
  | .idle | .begun _ | .raised _ => True
  | .cleared _ => evaluation = none
  | .found call seen => evaluation = none ∧ call.Typed ∧ ∃ before, before <+: trace ∧ seen = clientAfter before
  | .evaluated call seen ready e =>
    evaluation = none ∧ call.Typed ∧ Looked trace seen ready ∧ Evaluates lib metadata call seen ready e
  | .answered call seen ready value => call.Typed ∧ Looked trace seen ready ∧ ∃ e, Evaluates lib metadata call seen ready e ∧
      value = e.value ∧ (evaluation = some e.evaluation ∨ closed = true ∧ evaluation = none)
  | .returned call seen ready details => call.Typed ∧ Looked trace seen ready ∧
      ∃ e, Evaluates lib metadata call seen ready e ∧ (details = toResolutionDetails e.value (some e.evaluation) ∨
        closed = true ∧ details = toResolutionDetails e.value none)

structure Sound (lib : Library) (metadata : Metadata) (trace : List ResolverStep) (s : Resolver) : Prop where
  client : s.client = clientAfter trace
  hooked : s.client.closed = false → s.client.handlers = hooks
  threads : ∀ i, ThreadSound lib metadata trace s.client.closed (s.evaluated i) (s.threads i)

omit [Unicode] in
theorem clientAfter_concat (trace : List ResolverStep) (step : ResolverStep) :
    clientAfter (trace ++ [step]) = clientStep (clientAfter trace) step := by
  rw [clientAfter, List.foldl_append]
  rfl

omit [Unicode] in
theorem Looked.mono {trace trace' : List ResolverStep} {seen : ClientState} {ready : Bool} (h : Looked trace seen ready)
    (hle : trace <+: trace') : Looked trace' seen ready := by
  obtain ⟨before, later, hbefore, hlater, hseen, hready⟩ := h
  exact ⟨before, later, hbefore, hlater.trans hle, hseen, hready⟩

/-- Where a thread is stays sound as long as its variable is left alone. -/
theorem ThreadSound.mono {trace trace' : List ResolverStep} {closed closed' : Bool} {evaluation : Option ConfigEvaluation}
    {t : Resolving} (h : ThreadSound lib metadata trace closed evaluation t) (hle : trace <+: trace')
    (hclosed : closed = true → closed' = true) : ThreadSound lib metadata trace' closed' evaluation t := by
  cases t with
  | idle | begun request | cleared request | raised error => exact h
  | found call seen =>
    obtain ⟨hnone, htyped, before, hbefore, hseen⟩ := h
    exact ⟨hnone, htyped, before, hbefore.trans hle, hseen⟩
  | evaluated call seen ready e =>
    obtain ⟨hnone, htyped, hlooked, he⟩ := h
    exact ⟨hnone, htyped, hlooked.mono hle, he⟩
  | answered call seen ready value =>
    obtain ⟨htyped, hlooked, e, he, hvalue, hevaluation⟩ := h
    exact ⟨htyped, hlooked.mono hle, e, he, hvalue, hevaluation.imp_right fun h => ⟨hclosed h.1, h.2⟩⟩
  | returned call seen ready details =>
    obtain ⟨htyped, hlooked, e, he, hdetails⟩ := h
    exact ⟨htyped, hlooked.mono hle, e, he, hdetails.imp_right fun h => ⟨hclosed h.1, h.2⟩⟩

theorem sound_init : Sound lib metadata [] Resolver.init := ⟨rfl, fun _ => rfl, fun _ => trivial⟩

omit [Unicode] in
theorem closed_clientStep (client : ClientState) (step : ResolverStep) (h : client.closed = true) :
    (clientStep client step).closed = true := by
  cases step with
  | bundle bundle =>
    unfold clientStep ClientState.perform ClientState.onBundle
    simp only [h, if_true]
  | close =>
    unfold clientStep ClientState.perform ClientState.close
    simp only [h, if_true]
  | _ => exact h

omit [Unicode] in
theorem hooked_clientStep {client : ClientState} (h : client.closed = false → client.handlers = hooks)
    (step : ResolverStep) :
    (clientStep client step).closed = false → (clientStep client step).handlers = hooks := by
  intro hopen
  have hbefore : client.closed = false := by
    rw [← Bool.not_eq_true]
    intro hclosed
    rw [closed_clientStep client step hclosed] at hopen
    cases hopen
  cases step with
  | bundle bundle =>
    show (client.perform (.bundle bundle)).handlers = hooks
    unfold ClientState.perform
    simp only [onBundle_open hbefore]
    exact h hbefore
  | close =>
    unfold clientStep ClientState.perform ClientState.close at hopen
    rw [hbefore] at hopen
    cases hopen
  | _ => exact h hbefore

/-- A step of one thread is sound if it leaves that thread sound. -/
theorem Sound.own {trace : List ResolverStep} {s s' : Resolver} {step : ResolverStep} {i : ℕ}
    (h : Sound lib metadata trace s) (hclient : s'.client = s.client)
    (hstep : clientStep s.client step = s.client)
    (hothers : ∀ j, j ≠ i → s'.evaluated j = s.evaluated j ∧ s'.threads j = s.threads j)
    (hown : ThreadSound lib metadata (trace ++ [step]) s.client.closed (s'.evaluated i) (s'.threads i)) :
    Sound lib metadata (trace ++ [step]) s' := by
  refine ⟨?_, ?_, fun j => ?_⟩
  · rw [hclient, clientAfter_concat, ← h.client, hstep]
  · rw [hclient]
    exact h.hooked
  · rw [hclient]
    by_cases hj : j = i
    · subst hj
      exact hown
    · rw [(hothers j hj).1, (hothers j hj).2]
      exact (h.threads j).mono (List.prefix_append _ _) id

theorem Sound.clientStep {trace : List ResolverStep} {s : Resolver} (h : Sound lib metadata trace s) (step : ResolverStep) :
    Sound lib metadata (trace ++ [step]) { s with client := OpenFeature.clientStep s.client step } := by
  refine ⟨?_, hooked_clientStep h.hooked step, fun i => ?_⟩
  · show OpenFeature.clientStep s.client step = _
    rw [clientAfter_concat, h.client]
  · exact (h.threads i).mono (List.prefix_append _ _) (closed_clientStep s.client step)

omit [Unicode] in
theorem setThread_self (s : Resolver) (i : ℕ) (t : Resolving) : (s.setThread i t).threads i = t := if_pos rfl

omit [Unicode] in
theorem setEvaluated_self (s : Resolver) (i : ℕ) (evaluation : Option ConfigEvaluation) :
    (s.setEvaluated i evaluation).evaluated i = evaluation := if_pos rfl

omit [Unicode] in
theorem setThread_others (s : Resolver) {i j : ℕ} (t : Resolving) (h : j ≠ i) :
    (s.setThread i t).evaluated j = s.evaluated j ∧ (s.setThread i t).threads j = s.threads j := ⟨rfl, if_neg h⟩

omit [Unicode] in
theorem setBoth_others (s : Resolver) {i j : ℕ} (evaluation : Option ConfigEvaluation) (t : Resolving) (h : j ≠ i) :
    ((s.setEvaluated i evaluation).setThread i t).evaluated j = s.evaluated j ∧
      ((s.setEvaluated i evaluation).setThread i t).threads j = s.threads j := ⟨if_neg h, if_neg h⟩

/-- What a thread does keeps it sound, and no other thread notices. -/
theorem Sound.threadStep {trace : List ResolverStep} {s s' : Resolver} {i : ℕ} (h : Sound lib metadata trace s)
    (hstep : s.threadStep lib metadata i (s.threads i) = some s') : Sound lib metadata (trace ++ [.thread i]) s' := by
  have hsound := h.threads i
  have hlater : trace <+: trace ++ [.thread i] := List.prefix_append _ _
  cases ht : s.threads i with
  | idle | returned call seen ready details | raised error =>
    rw [ht] at hstep
    cases hstep
  | begun request =>
    rw [ht] at hstep
    cases hstep
    refine h.own rfl rfl (fun j hj => setBoth_others s _ _ hj) ?_
    rw [setThread_self]
    exact setEvaluated_self s i none
  | cleared request =>
    rw [ht] at hstep hsound
    unfold Resolver.threadStep at hstep
    cases hcall : request.call with
    | error e =>
      simp only [hcall] at hstep
      cases hstep
      refine h.own rfl rfl (fun j hj => setThread_others s _ hj) ?_
      rw [setThread_self]
      trivial
    | ok call =>
      simp only [hcall] at hstep
      cases hstep
      refine h.own rfl rfl (fun j hj => setThread_others s _ hj) ?_
      rw [setThread_self]
      obtain ⟨hrequest, hclass⟩ := FlagRequest.class_of_call hcall
      exact ⟨hsound, by rw [FlagCall.Typed, hclass, hrequest], trace, hlater, h.client⟩
  | found call seen =>
    rw [ht] at hstep hsound
    obtain ⟨hnone, htyped, before, hbefore, hseen⟩ := hsound
    unfold Resolver.threadStep at hstep
    simp only at hstep
    split at hstep
    · cases hstep
      refine h.own rfl rfl (fun j hj => setThread_others s _ hj) ?_
      rw [setThread_self]
      trivial
    · rename_i e he
      cases hstep
      refine h.own rfl rfl (fun j hj => setThread_others s _ hj) ?_
      rw [setThread_self]
      exact ⟨hnone, htyped, ⟨before, trace, hbefore, hlater, hseen, by rw [h.client]⟩, he⟩
  | evaluated call seen ready e =>
    rw [ht] at hstep hsound
    obtain ⟨hnone, htyped, hlooked, he⟩ := hsound
    unfold Resolver.threadStep at hstep
    simp only at hstep
    split at hstep
    · cases hstep
      refine h.own rfl rfl (fun j hj => setBoth_others s _ _ hj) ?_
      rw [setThread_self]
      exact ⟨htyped, hlooked.mono hlater, e, he, rfl, .inl (setEvaluated_self s i _)⟩
    · rename_i hunhooked
      cases hstep
      refine h.own rfl rfl (fun j hj => setThread_others s _ hj) ?_
      rw [setThread_self]
      -- only closing takes the handler away
      have hclosed : s.client.closed = true := by
        rw [← Bool.not_eq_false]
        intro hopen
        rw [h.hooked hopen] at hunhooked
        exact hunhooked rfl
      exact ⟨htyped, hlooked.mono hlater, e, he, rfl, .inr ⟨hclosed, hnone⟩⟩
  | answered call seen ready value =>
    rw [ht] at hstep hsound
    obtain ⟨htyped, hlooked, e, he, rfl, hevaluation⟩ := hsound
    cases hstep
    refine h.own rfl rfl (fun j hj => setThread_others s _ hj) ?_
    rw [setThread_self]
    refine ⟨htyped, hlooked.mono hlater, e, he, ?_⟩
    rcases hevaluation with hsome | ⟨hclosed, hnone⟩
    · exact .inl (by rw [hsome])
    · exact .inr ⟨hclosed, by rw [hnone]⟩

theorem Sound.step {trace : List ResolverStep} {s s' : Resolver} {step : ResolverStep} (h : Sound lib metadata trace s)
    (hstep : s.step lib metadata step = some s') : Sound lib metadata (trace ++ [step]) s' := by
  cases step with
  | resolve i request =>
    have hset : s' = s.setThread i (.begun request) := by
      unfold Resolver.step at hstep
      simp only at hstep
      split at hstep <;> cases hstep <;> rfl
    subst hset
    refine h.own rfl rfl (fun j hj => setThread_others s _ hj) ?_
    rw [setThread_self]
    trivial
  | thread i => exact h.threadStep hstep
  | bundle bundle =>
    cases hstep
    exact h.clientStep (.bundle bundle)
  | close =>
    cases hstep
    exact h.clientStep .close

theorem sound_run {trace : List ResolverStep} : ∀ {s : Resolver},
    Transition.run (Resolver.step lib metadata) .init trace = some s → Sound lib metadata trace s := by
  induction trace using List.reverseRecOn with
  | nil =>
    intro s h
    cases h
    exact sound_init
  | append_singleton trace step ih =>
    intro s h
    obtain ⟨s₁, h₁, h⟩ := Transition.run_append h
    obtain ⟨s₂, hstep, h₂⟩ := Transition.run_cons h
    cases h₂
    exact (ih h₁).step hstep

/-- However the resolutions of the threads, the bundles and `close` interleave, the details of a resolution are
about its own evaluation, and say what was found: a value read for the key, none to read, one of another type, no
such key, or no config yet. The value has the type asked for. Once the client is closed an explanation can be
missing, but no other takes its place. -/
theorem flag_resolutions_explained {trace : List ResolverStep} {s : Resolver}
    (h : Transition.run (Resolver.step lib metadata) .init trace = some s) {i : ℕ} {call : FlagCall} {seen : ClientState}
    {ready : Bool} {details : FlagResolutionDetails} (hi : s.threads i = .returned call seen ready details) :
    Looked trace seen ready ∧ Client.valueClass details.value = some call.request.default.valueClass ∧
      ∃ explained, Outcome lib metadata call seen ready explained ∧
        (details = explained ∨ s.client.closed = true ∧ details = ⟨explained.value, none, none, none, none⟩) := by
  have hsound := (sound_run h).threads i
  rw [hi] at hsound
  obtain ⟨htyped, hlooked, e, he, hdetails⟩ := hsound
  have hclass : (Client.valueClass call.default).isSome := by rw [htyped]; rfl
  obtain ⟨houtcome, hvalue⟩ := outcome_of_evaluateFor hclass he
  rw [htyped] at hvalue
  refine ⟨hlooked, ?_, _, houtcome, ?_⟩
  · rcases hdetails with rfl | ⟨-, rfl⟩
    · rw [value_toResolutionDetails, hvalue]
    · rw [value_toResolutionDetails, hvalue]
  · refine hdetails.imp_right fun h => ⟨h.1, ?_⟩
    rw [h.2, value_toResolutionDetails]
    rfl

end

/-- A flag that is on. -/
def onFlag : Config PyFloat where
  id := lit "1"
  key := lit "k"
  type := .str (lit "boolean")
  target := { defaultValue := lit "true", rules := [], defaultValueId := some (lit "v") }
  variations := []
  typeConstraints := none

def onBundle : ConfigBundle := { ConfigBundle.empty with configs := Dict.empty.set (lit "k") onFlag }

def onRequest : FlagRequest := ⟨.str (lit "k"), .boolean false, none⟩

def onCall : FlagCall := ⟨onRequest, lit "k", .bool false, none⟩

/-- A thread looks for the flag before there is a config, and another one after the bundle that comes then. The first
is told that there is no such key: it asks whether the client is ready when it is. -/
def crossedTrace : List ResolverStep :=
  [.resolve 0 onRequest, .thread 0, .thread 0, .resolve 1 onRequest, .bundle onBundle] ++
    (List.replicate 5 (.thread 1) ++ List.replicate 3 (.thread 0))

theorem flag_resolutions_explained_crossed :
    (∃ explained, @Outcome .ascii .refusing .empty onCall (.init hooks) true explained ∧
      (errorDetails (.bool false) .flagNotFound (notFoundMessage (lit "k")) = explained ∨
        false = true ∧ errorDetails (.bool false) .flagNotFound (notFoundMessage (lit "k")) =
          ⟨explained.value, none, none, none, none⟩)) ∧
    ∃ explained, @Outcome .ascii .refusing .empty onCall ((ClientState.init hooks).perform (.bundle onBundle)) true explained ∧
      (⟨.bool true, some (lit "v"), some .targetingMatch, none, none⟩ = explained ∨
        false = true ∧ (⟨.bool true, some (lit "v"), some .targetingMatch, none, none⟩ : FlagResolutionDetails) =
          ⟨explained.value, none, none, none, none⟩) :=
  ⟨(@flag_resolutions_explained .ascii .refusing .empty crossedTrace _ rfl 0 onCall (.init hooks) true
    (errorDetails (.bool false) .flagNotFound (notFoundMessage (lit "k"))) rfl).2.2,
  (@flag_resolutions_explained .ascii .refusing .empty crossedTrace _ rfl 1 onCall
    ((ClientState.init hooks).perform (.bundle onBundle)) true
    ⟨.bool true, some (lit "v"), some .targetingMatch, none, none⟩ rfl).2.2⟩

/-! ## Contexts of the SDK -/

mutual
/-- A value as an application puts it into an evaluation context. -/
def attributeOf : PyValue → Attribute
  | .none => .none
  | .bool b => .bool b
  | .int n => .int n
  | .float x => .float x
  | .str s => .str s
  | .list items => .sequence (attributesOf items)
  | .dict entries => .mapping (attributeEntriesOf entries)
  | .other text => .other text

def attributesOf : List PyValue → List Attribute
  | [] => []
  | v :: vs => attributeOf v :: attributesOf vs

def attributeEntriesOf : List (Text × PyValue) → List (Text × Attribute)
  | [] => []
  | (k, v) :: es => (k, attributeOf v) :: attributeEntriesOf es
end

mutual
theorem toPlain_attributeOf : ∀ v : PyValue, v.IsJson → (attributeOf v).toPlain = v
  | .none, _ | .bool _, _ | .int _, _ | .float _, _ | .str _, _ => rfl
  | .list items, h => by rw [attributeOf, Attribute.toPlain, toPlainList_attributesOf items h]
  | .dict entries, h => by
    rw [attributeOf, Attribute.toPlain, toPlainEntries_attributeEntriesOf entries h.2, dictOf,
      Dict.entries_foldl_set h.1]
  | .other _, h => h.elim

theorem toPlainList_attributesOf : ∀ vs : List PyValue, PyValue.IsJsonList vs → toPlainList (attributesOf vs) = vs
  | [], _ => rfl
  | v :: vs, h => by rw [attributesOf, toPlainList, toPlain_attributeOf v h.1, toPlainList_attributesOf vs h.2]

theorem toPlainEntries_attributeEntriesOf : ∀ es : List (Text × PyValue), PyValue.IsJsonEntries es →
    toPlainEntries (attributeEntriesOf es) = es
  | [], _ => rfl
  | (k, v) :: es, h => by
    rw [attributeEntriesOf, toPlainEntries, toPlain_attributeOf v h.1, toPlainEntries_attributeEntriesOf es h.2]
end

end ConfigDirector.OpenFeature
