/-
What the client makes of a response (`EventSourceClient._read`): messages and comments go to handlers
that may raise, which `_notify` swallows, and a retry sets the delay before the next connection.
-/
import ConfigDirector.EventSource.Read
import ConfigDirector.Python.Value

namespace ConfigDirector.EventSource

open Python

/-! ## Handlers -/

/-- A call of one of the caller's handlers. -/
inductive Heard
  | message (message : EventSourceMessage)
  | comment (text : Text)
deriving DecidableEq

/-- What a handler raises, after the calls that were made before. -/
abbrev Handler := List Heard → Option Exc

/-- The handlers the caller gave. -/
structure Handlers where
  onMessage : Option (EventSourceMessage → Handler)
  onComment : Option (Text → Handler)

/-- What `_read` raises on account of the stream. -/
inductive ReadError
  | stream (error : StreamError)
  | overflowError
deriving DecidableEq

/-! ## Model -/

/-- What reading changes in a client, the calls it has made and what they have raised. -/
structure Session where
  lastEventId : Option Text
  serverDelay : PyFloat
  heard : List Heard
  logged : List Exc
deriving DecidableEq

namespace Session

/-- `_notify`. -/
def notify (s : Session) (callback : Option Handler) (call : Heard) : Session :=
  match callback with
  | none => s
  | some f =>
    let notified := { s with heard := s.heard ++ [call] }
    match f s.heard with
    | none => notified
    | some error => { notified with logged := s.logged ++ [error] }

/-- `_handle_event`. -/
def handleEvent (h : Handlers) (s : Session) (message : EventSourceMessage) : Session :=
  let s :=
    match message.id with
    | some id => { s with lastEventId := some id }
    | none => s
  s.notify (h.onMessage.map fun f => f message) (.message message)

/-- `_handle_retry`: milliseconds that are no float raise. -/
def handleRetry (s : Session) (milliseconds : ℕ) : Except ReadError Session :=
  match PyFloat.ofInt? milliseconds with
  | some x => .ok { s with serverDelay := x.divThousand }
  | none => .error .overflowError

/-- What the client gives the parser to call. -/
def handle (h : Handlers) (s : Session) : Call → Except ReadError Session
  | .event message => .ok (s.handleEvent h message)
  | .comment text => .ok (s.notify (h.onComment.map fun f => f text) (.comment text))
  | .retry milliseconds => s.handleRetry milliseconds

/-- The calls of the parser, up to one that raises. -/
def handleAll (h : Handlers) (s : Session) : List Call → Session × Option ReadError
  | [] => (s, none)
  | call :: calls =>
    match s.handle h call with
    | .error e => (s, some e)
    | .ok s => s.handleAll h calls

/-- What was fed: nothing is done with what a handler returns, so one that raises only cuts the calls
short. -/
def receive (h : Handlers) (s : Session) (fed : Fed) : Session × Option ReadError :=
  match s.handleAll h fed.calls, fed.result with
  | (s, some e), _ => (s, some e)
  | (s, none), .ok _ => (s, none)
  | (s, none), .error e => (s, some (.stream e))

/-- `_read` of a response that is not closed meanwhile. -/
def read (h : Handlers) (o : Options) (s : Session) (chunks : List Bytes) : Session × Option ReadError :=
  s.receive h (EventSource.read o chunks)

/-! ## Applied or ignored -/

/-- What a call should come to: a retry is applied, or ignored where it cannot be. -/
def applied (h : Handlers) (s : Session) : Call → Session
  | .event message => s.handleEvent h message
  | .comment text => s.notify (h.onComment.map fun f => f text) (.comment text)
  | .retry milliseconds =>
    match PyFloat.ofInt? milliseconds with
    | some x => { s with serverDelay := x.divThousand }
    | none => s

end Session

/-- A call that can be applied. -/
def Call.Applicable : Call → Prop
  | .retry milliseconds => (PyFloat.ofInt? milliseconds).isSome = true
  | _ => True

namespace Session

theorem handle_applicable (h : Handlers) (s : Session) {call : Call} (hcall : call.Applicable) :
    s.handle h call = .ok (s.applied h call) := by
  cases call with
  | event message => rfl
  | comment text => rfl
  | retry milliseconds =>
    obtain ⟨x, hx⟩ := Option.isSome_iff_exists.1 hcall
    unfold handle handleRetry applied
    simp only [hx]

theorem handle_notApplicable (h : Handlers) (s : Session) {call : Call} (hcall : ¬ call.Applicable) :
    s.handle h call = .error .overflowError := by
  cases call with
  | event message => exact absurd trivial hcall
  | comment text => exact absurd trivial hcall
  | retry milliseconds =>
    have hnone : PyFloat.ofInt? milliseconds = none := Option.not_isSome_iff_eq_none.1 hcall
    unfold handle handleRetry
    simp only [hnone]

theorem handleAll_applicable (h : Handlers) : ∀ (calls : List Call) (s : Session),
    (∀ call ∈ calls, call.Applicable) → s.handleAll h calls = (calls.foldl (applied h) s, none)
  | [], _, _ => rfl
  | call :: calls, s, hcalls => by
    rw [List.forall_mem_cons] at hcalls
    rw [handleAll, handle_applicable h s hcalls.1, List.foldl_cons]
    exact handleAll_applicable h calls _ hcalls.2

theorem handleAll_notApplicable (h : Handlers) : ∀ (calls : List Call) (s : Session),
    (∃ call ∈ calls, ¬ call.Applicable) → (s.handleAll h calls).2 = some .overflowError
  | [], _, ⟨_, hcall, _⟩ => by cases hcall
  | call :: calls, s, ⟨c, hc, happ⟩ => by
    rw [handleAll]
    by_cases hcall : call.Applicable
    · rw [handle_applicable h s hcall]
      rcases List.mem_cons.1 hc with rfl | hc
      · exact absurd hcall happ
      · exact handleAll_notApplicable h calls _ ⟨c, hc, happ⟩
    · rw [handle_notApplicable h s hcall]

theorem receive_applicable (h : Handlers) (s : Session) (fed : Fed) (hcalls : ∀ call ∈ fed.calls, call.Applicable) :
    (s.receive h fed).1 = fed.calls.foldl (applied h) s ∧
      (∀ p, fed.result = .ok p → (s.receive h fed).2 = none) ∧
      ∀ e, fed.result = .error e → (s.receive h fed).2 = some (.stream e) := by
  unfold receive
  rw [handleAll_applicable h fed.calls s hcalls]
  cases fed.result with
  | error e =>
    refine ⟨rfl, ?_, ?_⟩
    · intro p hp
      cases hp
    · intro e' he
      cases he
      rfl
  | ok p =>
    refine ⟨rfl, fun _ _ => rfl, ?_⟩
    intro e he
    cases he

theorem receive_notApplicable (h : Handlers) (s : Session) {fed : Fed} (hcalls : ∃ call ∈ fed.calls, ¬ call.Applicable) :
    (s.receive h fed).2 = some .overflowError := by
  have hraised := handleAll_notApplicable h fed.calls s hcalls
  unfold receive
  generalize s.handleAll h fed.calls = r at hraised
  obtain ⟨s', raised⟩ := r
  cases hraised
  rfl

end Session

end ConfigDirector.EventSource
