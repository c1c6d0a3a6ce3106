/-
The streaming transport (`_transport.streaming`) with its event source client, on the thread of the worker: which
messages become bundles, how long the worker waits before its next request, what that request resumes from, when
the worker gives up, and what the thread that waits in `connect` is told. Nothing closes the transport meanwhile.
-/
import ConfigDirector.EventSource.Delay
import ConfigDirector.EventSource.Unbroken
import ConfigDirector.Transport.Http

namespace ConfigDirector.Transport

open Python ConfigDirector.Bundle EventSource

/-! ## Model -/

/-- Why a stream failed. -/
inductive StreamFault
  /-- The request raised. -/
  | unopened (error : Text)
  /-- Reading raised on account of what was sent. -/
  | unreadable (error : ReadError)
  /-- The chunks raised. -/
  | broken (error : Text)
  /-- The response stream was closed. -/
  | ended

/-- What a request comes to: an exception, or a response with its chunks and what they raise at their end. -/
inductive StreamReply
  | unopened (error : Text)
  | responded (status : ℕ) (chunks : List Bytes) (breaks : Option Text)

/-- What a request carries of its own. -/
structure StreamRequest where
  lastEventId : Option Text
  sessionId : Text
deriving DecidableEq

/-- `requests` and `waits` are history variables. -/
structure Streaming where
  running : Bool
  readyState : ReadyState
  attempt : ℕ
  session : Session
  sessionId : Option Text
  settled : Bool
  fatalError : Option TransportError
  requests : List StreamRequest
  waits : List PyFloat

/-- What the transport is given: the ids that `uuid4` draws, what `on_bundle` raises after some bundles, and the
text of an exception. -/
structure StreamRuntime extends Runtime where
  uuid : ℕ → Text
  onBundle : ConfigBundle → List ConfigBundle → Option Exc
  describe : StreamFault → Text

/-- `_MAX_BACKOFF_EXPONENT`. -/
def maxBackoffExponent : ℕ := 9

/-- `_reconnect_delay` of the transport. -/
def streamDelay (state : ReconnectionState StreamFault) : PyFloat :=
  .ofRat ((2 ^ min state.attempt maxBackoffExponent : ℕ) : ℚ)

/-- The texts of some chunks that raise before their end. -/
def brokenTexts (decoder : Decoder) : List Bytes → List Text
  | [] => []
  | chunk :: chunks => (decoder.decode chunk).2 :: brokenTexts (decoder.decode chunk).1 chunks

/-- What the parser makes of the chunks of a response. -/
def fedBy (chunks : List Bytes) : Option Text → Fed
  | none => EventSource.read defaultOptions chunks
  | some _ => Parser.init.feedAll defaultOptions (brokenTexts .start chunks)

/-- The failure after a response was read. -/
def faultOf (breaks : Option Text) : Option ReadError → StreamFault
  | some error => .unreadable error
  | none =>
    match breaks with
    | some error => .broken error
    | none => .ended

section
variable [Unicode]

/-- The bundle a message is. -/
def bundleOf (r : Runtime) : Heard → Option ConfigBundle
  | .message message => (parseBundle r.loads message.data).toOption
  | .comment _ => none

/-- `_on_message`: what is no bundle is logged, unless what it raises is no `ValueError`. -/
def onMessage (r : StreamRuntime) (message : EventSourceMessage) : Handler := fun heard =>
  match parseBundle r.loads message.data with
  | .error (.raised e) => if e.isValueError then none else some e
  | .error _ => none
  | .ok bundle => r.onBundle bundle (heard.filterMap (bundleOf r.toRuntime))

def streamHandlers (r : StreamRuntime) : Handlers where
  onMessage := some (onMessage r)
  onComment := none

namespace Streaming

/-- A transport whose `connect` has started its client. -/
def init : Streaming where
  running := true
  readyState := .connecting
  attempt := 0
  session := ⟨none, defaultServerDelay, [], []⟩
  sessionId := none
  settled := false
  fatalError := none
  requests := []
  waits := []

omit [Unicode] in
/-- The headers of `_open` and `_build_request_body`. -/
def request (r : StreamRuntime) (s : Streaming) : Streaming :=
  let id := r.uuid s.requests.length
  { s with sessionId := some id, requests := s.requests ++ [⟨s.session.lastEventId, id⟩] }

omit [Unicode] in
/-- `_disconnected`. -/
def disconnected (s : Streaming) : Streaming := { s with readyState := .closed, running := false }

omit [Unicode] in
/-- `_begin_stream`, with `_on_connect`. -/
def beginStream (s : Streaming) : Streaming := { s with readyState := .opened, attempt := 0, settled := true }

/-- `_connect_once` after the request. -/
def connectOnce (r : StreamRuntime) (s : Streaming) : StreamReply → Streaming × Option (Failure StreamFault)
  | .unopened error => (s, some ⟨none, some (.unopened error)⟩)
  | .responded status chunks breaks =>
    if status = 204 then (s.disconnected, none)
    else if 400 ≤ status then (s, some ⟨some status, none⟩)
    else
      let read := s.session.receive (streamHandlers r) (fedBy chunks breaks)
      ({ s.beginStream with session := read.1 }, some ⟨some status, some (faultOf breaks read.2)⟩)

omit [Unicode] in
/-- `_should_reconnect`, before it sets `_settled`. -/
def rejected (r : StreamRuntime) (s : Streaming) (state : ReconnectionState StreamFault) : Streaming :=
  { s with fatalError := some (fatalStatusError state.status (state.error.map r.describe)) }

omit [Unicode] in
/-- `_should_reconnect`. -/
def shouldReconnect (r : StreamRuntime) (s : Streaming) (state : ReconnectionState StreamFault) : Streaming × Bool :=
  if !isFatalStatus state.status then (s, true)
  else ({ s.rejected r state with settled := true }, false)

/-- A turn of the loop of `_run`. -/
def turn (r : StreamRuntime) (s : Streaming) (reply : StreamReply) : Streaming :=
  if !s.running then s
  else
    match (s.request r).connectOnce r reply with
    | (s, none) => s
    | (s, some failure) =>
      let s := { s with attempt := s.attempt + 1 }
      let state : ReconnectionState StreamFault := ⟨s.attempt, s.session.serverDelay, failure.status, failure.error⟩
      match s.shouldReconnect r state with
      | (s, false) => s.disconnected
      | (s, true) =>
        match (reconnectDelay (some fun state => .ok (.float (streamDelay state))) (some fun _ => none)
          s.session.serverDelay state).result with
        | .ok delay => { s with readyState := .connecting, waits := s.waits ++ [delay] }
        | .error _ => { s with readyState := .closed, running := false }

/-- `_run`, on what its requests come to. -/
def run (r : StreamRuntime) (s : Streaming) (replies : List StreamReply) : Streaming := replies.foldl (turn r) s

/-- The bundles `on_bundle` was called with. -/
def bundles (r : Runtime) (s : Streaming) : List ConfigBundle := s.session.heard.filterMap (bundleOf r)

/-- What `connect` can find while the worker has come to some replies: the transport between two turns; with the
stream of the last reply still being read, whatever that has brought; or with the fatal error that the worker is
about to tell. -/
inductive Moment (r : StreamRuntime) : List StreamReply → Streaming → Prop
  | between (replies : List StreamReply) : Moment r replies (run r .init replies)
  | reading {replies : List StreamReply} {status : ℕ} {chunks : List Bytes} {breaks : Option Text}
      (hrun : (run r .init replies).running = true) (hopens : status ≠ 204 ∧ status < 400) (session : Session) :
      Moment r (replies ++ [.responded status chunks breaks])
        { ((run r .init replies).request r).beginStream with session }
  | rejected {replies : List StreamReply} {status : ℕ} {chunks : List Bytes} {breaks : Option Text}
      (hrun : (run r .init replies).running = true) (hfatal : isFatalStatus (some status) = true)
      (state : ReconnectionState StreamFault) (hstate : state.status = some status ∧ state.error = none) :
      Moment r (replies ++ [.responded status chunks breaks]) (((run r .init replies).request r).rejected r state)

end Streaming

end

/-! ## Replies -/

/-- A call that is carried out: milliseconds that are no float raise. -/
def isApplied : Call → Bool
  | .retry milliseconds => (PyFloat.ofInt? milliseconds).isSome
  | _ => true

def messageOf : Call → Option EventSourceMessage
  | .event message => some message
  | _ => none

namespace StreamReply

/-- The response is read as a stream. -/
def opens : StreamReply → Bool
  | unopened _ => false
  | responded status _ _ => status ≠ 204 && status < 400

/-- There is no request after this one: no content, or a status that repeating cannot change. -/
def givesUp : StreamReply → Bool
  | unopened _ => false
  | responded status _ _ => status = 204 || isFatalStatus (some status)

/-- The error that the transport keeps. -/
def fatalError : StreamReply → Option TransportError
  | unopened _ => none
  | responded status _ _ => if isFatalStatus (some status) then some (fatalStatusError (some status) none) else none

/-- The messages of a reply, up to a call that raises. -/
def messages (reply : StreamReply) : List EventSourceMessage :=
  match reply with
  | unopened _ => []
  | responded _ chunks breaks =>
    if reply.opens then ((fedBy chunks breaks).calls.takeWhile isApplied).filterMap messageOf else []

end StreamReply

/-- The replies before the one at which the transport gives up. -/
def servedReplies (replies : List StreamReply) : List StreamReply := replies.takeWhile fun reply => !reply.givesUp

/-- The messages of the replies before the one at which the transport gives up. -/
def messagesServed (replies : List StreamReply) : List EventSourceMessage := (servedReplies replies).flatMap StreamReply.messages

/-- The id of the last message that has one. -/
def lastId (messages : List EventSourceMessage) : Option Text := (messages.filterMap EventSourceMessage.id).getLast?

/-- The failures since a stream was opened, with the one that ended it. -/
def failuresSince (replies : List StreamReply) : ℕ :=
  (replies.reverse.takeWhile fun reply => !reply.opens).length + if replies.any StreamReply.opens then 1 else 0

/-- The replies up to the one at which the transport gives up. -/
def answeredReplies (replies : List StreamReply) : List StreamReply := replies.take ((servedReplies replies).length + 1)

/-- The request that follows some replies. -/
def requestAfter (r : StreamRuntime) (before : List StreamReply) : StreamRequest :=
  ⟨lastId (before.flatMap StreamReply.messages), r.uuid before.length⟩

/-- The wait that follows some replies: it doubles up to 512 seconds. -/
def waitAfter (replies : List StreamReply) : PyFloat := .ofRat ((2 ^ min (failuresSince replies) maxBackoffExponent : ℕ) : ℚ)

/-! ## Reading a response -/

theorem isApplied_iff (call : Call) : isApplied call = true ↔ call.Applicable := by
  cases call with
  | retry milliseconds => exact Iff.rfl
  | event message => exact iff_of_true rfl trivial
  | comment text => exact iff_of_true rfl trivial

theorem lastId_append (before after : List EventSourceMessage) : lastId (before ++ after) = (lastId after).or (lastId before) := by
  unfold lastId
  rw [List.filterMap_append, List.getLast?_append]

section
variable [Unicode]

/-- What reading leaves of the messages it heard. -/
structure Hears (s s' : Session) (messages : List EventSourceMessage) : Prop where
  heard : s'.heard = s.heard ++ messages.map .message
  lastEventId : s'.lastEventId = (lastId messages).or s.lastEventId

omit [Unicode] in
theorem Hears.refl (s : Session) : Hears s s [] := ⟨(List.append_nil _).symm, rfl⟩

omit [Unicode] in
theorem Hears.trans {s s' s'' : Session} {messages messages' : List EventSourceMessage} (h : Hears s s' messages)
    (h' : Hears s' s'' messages') : Hears s s'' (messages ++ messages') := by
  refine ⟨?_, ?_⟩
  · rw [h'.heard, h.heard, List.map_append, List.append_assoc]
  · rw [h'.lastEventId, h.lastEventId, lastId_append, Option.or_assoc]

theorem hears_handleEvent (r : StreamRuntime) (s : Session) (message : EventSourceMessage) :
    Hears s (s.handleEvent (streamHandlers r) message) [message] := by
  have hid : lastId [message] = message.id := by
    unfold lastId
    cases hmessage : message.id <;> simp [hmessage]
  unfold Session.handleEvent streamHandlers Session.notify
  simp only [Option.map_some]
  refine ⟨?_, ?_⟩
  · split <;> cases message.id <;> rfl
  · rw [hid]
    split <;> cases message.id <;> rfl

theorem hears_applied (r : StreamRuntime) (s : Session) (call : Call) :
    Hears s (s.applied (streamHandlers r) call) (messageOf call).toList := by
  cases call with
  | event message => exact hears_handleEvent r s message
  | comment text => exact .refl s
  | retry milliseconds =>
    unfold Session.applied
    simp only
    split <;> exact ⟨(List.append_nil _).symm, rfl⟩

theorem hears_handleAll (r : StreamRuntime) : ∀ (calls : List Call) (s : Session),
    Hears s (s.handleAll (streamHandlers r) calls).1 ((calls.takeWhile isApplied).filterMap messageOf)
  | [], s => .refl s
  | call :: calls, s => by
    rw [Session.handleAll]
    by_cases hcall : isApplied call = true
    · rw [Session.handle_applicable _ s ((isApplied_iff call).1 hcall), List.takeWhile_cons_of_pos hcall,
        List.filterMap_cons]
      have hfirst := hears_applied r s call
      have hrest := hears_handleAll r calls (s.applied (streamHandlers r) call)
      cases hmessage : messageOf call with
      | none =>
        rw [hmessage] at hfirst
        exact hfirst.trans hrest
      | some message =>
        rw [hmessage] at hfirst
        exact hfirst.trans hrest
    · rw [Session.handle_notApplicable _ s fun h => hcall ((isApplied_iff call).2 h), List.takeWhile_cons_of_neg hcall]
      exact .refl s

theorem hears_receive (r : StreamRuntime) (s : Session) (fed : Fed) :
    Hears s (s.receive (streamHandlers r) fed).1 ((fed.calls.takeWhile isApplied).filterMap messageOf) := by
  have hall := hears_handleAll r fed.calls s
  unfold Session.receive
  generalize s.handleAll (streamHandlers r) fed.calls = after at hall
  obtain ⟨s', raised⟩ := after
  cases raised with
  | some e => exact hall
  | none => cases fed.result <;> exact hall

/-! ## A turn of the loop -/

omit [Unicode] in
theorem inRange_backoff (n : ℕ) : inRange (.ofRat ((2 ^ min n maxBackoffExponent : ℕ) : ℚ)) = true := by
  have hle : 2 ^ min n maxBackoffExponent ≤ 2 ^ 9 := Nat.pow_le_pow_right (by norm_num) (min_le_right n 9)
  have hpos : 1 ≤ 2 ^ min n maxBackoffExponent := Nat.one_le_two_pow
  have hlow : (1 : ℚ) ≤ (2 ^ min n maxBackoffExponent : ℕ) := by exact_mod_cast hpos
  have hhigh : ((2 ^ min n maxBackoffExponent : ℕ) : ℚ) ≤ 512 := by exact_mod_cast hle
  exact inRange_of_bounds (by linarith) (by linarith)

omit [Unicode] in
/-- The delay of the transport is in range, so the one of the server is never used. -/
theorem reconnectDelay_stream (serverDelay : PyFloat) (state : ReconnectionState StreamFault) :
    (reconnectDelay (some fun state => .ok (.float (streamDelay state))) (some fun _ => none) serverDelay state).result =
      .ok (streamDelay state) := by
  rw [reconnectDelay_result]
  show (asSeconds (.float (streamDelay state))).map _ = _
  have hin : inRange (streamDelay state) = true := inRange_backoff state.attempt
  rw [asSeconds_float, if_pos hin]

/-- What a turn leaves after which there is a further request. -/
structure Served (r : StreamRuntime) (s s' : Streaming) (reply : StreamReply) : Prop where
  running : s'.running = true
  readyState : s'.readyState = .connecting
  hears : Hears s.session s'.session reply.messages
  attempt : s'.attempt = (if reply.opens then 0 else s.attempt) + 1
  settled : s'.settled = (s.settled || reply.opens)
  fatalError : s'.fatalError = s.fatalError
  requests : s'.requests = s.requests ++ [⟨s.session.lastEventId, r.uuid s.requests.length⟩]
  waits : s'.waits = s.waits ++ [.ofRat ((2 ^ min s'.attempt maxBackoffExponent : ℕ) : ℚ)]

/-- What the turn leaves at which the transport gives up. -/
structure GaveUp (r : StreamRuntime) (s s' : Streaming) (reply : StreamReply) : Prop where
  running : s'.running = false
  readyState : s'.readyState = .closed
  session : s'.session = s.session
  settled : s'.settled = (s.settled || reply.fatalError.isSome)
  fatalError : s'.fatalError = reply.fatalError.or s.fatalError
  requests : s'.requests = s.requests ++ [⟨s.session.lastEventId, r.uuid s.requests.length⟩]
  waits : s'.waits = s.waits

/-- After a failure that is not fatal there is a further request. -/
theorem turn_failed {r : StreamRuntime} {s s' : Streaming} {reply : StreamReply} {failure : Failure StreamFault}
    (hrun : s.running = true) (honce : (s.request r).connectOnce r reply = (s', some failure))
    (hfatal : isFatalStatus failure.status = false) :
    s.turn r reply = { s' with
      attempt := s'.attempt + 1
      readyState := .connecting
      waits := s'.waits ++ [.ofRat ((2 ^ min (s'.attempt + 1) maxBackoffExponent : ℕ) : ℚ)] } := by
  unfold Streaming.turn Streaming.shouldReconnect
  simp only [hrun, honce, hfatal, reconnectDelay_stream, Bool.not_true, Bool.not_false, Bool.false_eq_true, if_false,
    if_true]
  rfl

theorem turn_served {r : StreamRuntime} {s : Streaming} {reply : StreamReply} (hrun : s.running = true)
    (hreply : reply.givesUp = false) : Served r s (s.turn r reply) reply := by
  cases reply with
  | unopened error =>
    rw [turn_failed hrun rfl rfl]
    exact ⟨hrun, rfl, .refl _, rfl, (Bool.or_false _).symm, rfl, rfl, rfl⟩
  | responded status chunks breaks =>
    obtain ⟨h204, hfatal⟩ : status ≠ 204 ∧ isFatalStatus (some status) = false := by
      simpa [StreamReply.givesUp] using hreply
    by_cases hbad : 400 ≤ status
    · have hopens : (StreamReply.responded status chunks breaks).opens = false := by simp [StreamReply.opens, hbad]
      have hmessages : (StreamReply.responded status chunks breaks).messages = [] := by
        rw [StreamReply.messages, hopens]
        rfl
      have honce : (s.request r).connectOnce r (.responded status chunks breaks) =
          (s.request r, some ⟨some status, none⟩) := by
        rw [Streaming.connectOnce, if_neg h204, if_pos hbad]
      rw [turn_failed hrun honce hfatal]
      refine ⟨hrun, rfl, ?_, ?_, ?_, rfl, rfl, rfl⟩
      · rw [hmessages]
        exact .refl _
      · rw [hopens]
        rfl
      · rw [hopens, Bool.or_false]
        rfl
    · have hopens : (StreamReply.responded status chunks breaks).opens = true := by
        simp [StreamReply.opens, h204, not_le.1 hbad]
      have hmessages : (StreamReply.responded status chunks breaks).messages =
          ((fedBy chunks breaks).calls.takeWhile isApplied).filterMap messageOf := by
        rw [StreamReply.messages, if_pos hopens]
      have honce : (s.request r).connectOnce r (.responded status chunks breaks) =
          ({ (s.request r).beginStream with session := (s.session.receive (streamHandlers r) (fedBy chunks breaks)).1 },
            some ⟨some status, some (faultOf breaks (s.session.receive (streamHandlers r) (fedBy chunks breaks)).2)⟩) := by
        rw [Streaming.connectOnce, if_neg h204, if_neg hbad]
        rfl
      rw [turn_failed hrun honce hfatal]
      refine ⟨hrun, rfl, ?_, ?_, ?_, rfl, rfl, rfl⟩
      · rw [hmessages]
        exact hears_receive r s.session (fedBy chunks breaks)
      · rw [hopens]
        rfl
      · rw [hopens, Bool.or_true]
        rfl

theorem turn_gaveUp {r : StreamRuntime} {s : Streaming} {reply : StreamReply} (hrun : s.running = true)
    (hreply : reply.givesUp = true) : GaveUp r s (s.turn r reply) reply := by
  cases reply with
  | unopened error => cases hreply
  | responded status chunks breaks =>
    by_cases h204 : status = 204
    · subst h204
      have hturn : s.turn r (.responded 204 chunks breaks) = (s.request r).disconnected := by
        unfold Streaming.turn Streaming.connectOnce
        simp only [hrun, Bool.not_true, Bool.false_eq_true, if_false, if_true]
      rw [hturn]
      exact ⟨rfl, rfl, rfl, (Bool.or_false _).symm, rfl, rfl, rfl⟩
    · have hfatal : isFatalStatus (some status) = true := by simpa [StreamReply.givesUp, h204] using hreply
      have hbad : 400 ≤ status := by
        unfold isFatalStatus at hfatal
        simp only [Bool.and_eq_true, decide_eq_true_eq] at hfatal
        exact hfatal.1.1
      have hturn : s.turn r (.responded status chunks breaks) = ({ s.request r with
          attempt := s.attempt + 1
          fatalError := some (fatalStatusError (some status) none)
          settled := true } : Streaming).disconnected := by
        unfold Streaming.turn Streaming.connectOnce Streaming.shouldReconnect Streaming.rejected
        simp only [hrun, h204, hbad, hfatal, Bool.not_true, Bool.false_eq_true, if_false, if_true]
        rfl
      have herror : (StreamReply.responded status chunks breaks).fatalError =
          some (fatalStatusError (some status) none) := by
        rw [StreamReply.fatalError, if_pos hfatal]
      rw [hturn]
      refine ⟨rfl, rfl, rfl, ?_, ?_, rfl, rfl⟩
      · rw [herror, Option.isSome_some, Bool.or_true]
        rfl
      · rw [herror]
        rfl

theorem turn_stopped {r : StreamRuntime} {s : Streaming} (hrun : s.running = false) (reply : StreamReply) :
    s.turn r reply = s := by
  unfold Streaming.turn
  rw [hrun]
  rfl

end

end ConfigDirector.Transport
