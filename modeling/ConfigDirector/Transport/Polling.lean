/-
The polling transport (`_transport.polling`) on one thread: what a fetch does with each outcome of its
request, and when the loop of the polling thread goes on to a further poll. The loop survives what is
raised as a connection error, so it depends on which failures are translated into one.
-/
import ConfigDirector.Transport.Http

namespace ConfigDirector.Transport

open Python ConfigDirector.Bundle

/-! ## Model -/

/-- What a fetch reads and writes; `delivered` are the bundles `on_bundle` was called with. -/
structure Polling where
  fatal : Bool
  stopped : Bool
  lastUpdateTimestamp : Option Text
  delivered : List ConfigBundle

/-- `_fail_fatally`: closing the transport sets the stop event. -/
def Polling.failFatally {α : Type} (s : Polling) (error : TransportError) : Polling × Except TransportError α :=
  ({ s with fatal := true, stopped := true }, .error error)

/-- `_post`. -/
def Polling.post (url : Text) (s : Polling) (exchange : Exchange) : Polling × Except TransportError HttpResponse :=
  match Transport.post url exchange with
  | .error (.validation error) =>
    s.failFatally (.connection (lit "Connection failed with an unusable URL '" ++ url ++ lit "': " ++ error ++
      lit ". This is an unrecoverable error, retry attempts will be ignored.") none)
  | response => (s, response)

variable [Unicode]

/-- `_fetch` once the response has been read. -/
def Polling.receive (r : Runtime) (s : Polling) (response : HttpResponse) : Polling × Except TransportError Unit :=
  if !response.ok then
    if isFatalStatus (some response.status) then
      s.failFatally (fatalStatusError (some response.status) (some response.body))
    else (s, .error (.connection (lit "Connection failed with status: " ++ natText response.status)
      (some response.status)))
  else if response.status ≠ 200 then (s, .ok ())
  else
    match parseBundle r.loads response.body with
    | .error error =>
      if error.isValueError then
        (s, .error (.connection (lit "Failed to parse the response from the server: " ++ r.str error) none))
      else (s, .error (.bundle error))
    | .ok bundle =>
      ({ s with
          lastUpdateTimestamp := bundle.timestamp.or s.lastUpdateTimestamp
          delivered := s.delivered ++ [bundle] }, .ok ())

/-- `_fetch`. -/
def Polling.fetch (r : Runtime) (url : Text) (s : Polling) (exchange : Exchange) :
    Polling × Except TransportError Unit :=
  if s.fatal then (s, .ok ())
  else
    match s.post url exchange with
    | (s, .error error) => (s, .error error)
    | (s, .ok response) => s.receive r response

/-- The polling thread: the transport, and whether the loop of `_poll` has not been left. -/
structure PollLoop where
  transport : Polling
  running : Bool

/-- `except ConfigDirectorConnectionError`. -/
def TransportError.isConnection : TransportError → Bool
  | connection _ _ => true
  | _ => false

/-- A turn of the loop: the wait for the stop event, and what follows the fetch. -/
def PollLoop.turn (r : Runtime) (url : Text) (l : PollLoop) (exchange : Exchange) : PollLoop :=
  if !l.running then l
  else if l.transport.stopped then { l with running := false }
  else
    match l.transport.fetch r url exchange with
    | (s, .ok ()) => ⟨s, !s.fatal⟩
    | (s, .error error) => ⟨s, error.isConnection && !s.fatal⟩

/-- `_poll`, on what its requests come to. -/
def PollLoop.poll (r : Runtime) (url : Text) (l : PollLoop) (exchanges : List Exchange) : PollLoop :=
  exchanges.foldl (PollLoop.turn r url) l

/-- The loop takes a further poll. -/
structure PollLoop.GoesOn (l : PollLoop) : Prop where
  running : l.running = true
  stopped : l.transport.stopped = false
  fatal : l.transport.fatal = false

/-! ## Outcomes -/

namespace Exchange

/-- An unusable URL, or a status for which `is_fatal_status` holds. -/
def Unrecoverable : Exchange → Prop
  | unusable _ => True
  | failed _ => False
  | answered status _ => isFatalStatus (some status) = true

/-- Reading the body raises, or the body is a bundle with a config whose definition overflows. -/
def Breaks (r : Runtime) : Exchange → Prop
  | answered _ (.error _) => True
  | answered status (.ok payload) =>
    status = 200 ∧ payload.length ≤ maxResponseBytes ∧ Spills r (decodeReplace payload)
  | _ => False

end Exchange

/-! ## A turn of the loop -/

/-- What a step of a fetch leaves: the flags as they were, and an error that is no connection error only
in some cases. -/
structure Leaves (s : Polling) (outcome : Polling × Except TransportError Unit) (escapes : Prop) : Prop where
  fatal : outcome.1.fatal = s.fatal
  stopped : outcome.1.stopped = s.stopped
  escapes_iff : (∃ error, outcome.2 = .error error ∧ error.isConnection = false) ↔ escapes

omit [Unicode] in
theorem leaves_connection (s : Polling) (message : Text) (status : Option ℕ) {escapes : Prop} (h : ¬ escapes) :
    Leaves s (s, .error (.connection message status)) escapes := by
  refine ⟨rfl, rfl, iff_of_false ?_ h⟩
  rintro ⟨error, he, hc⟩
  cases he
  cases hc

omit [Unicode] in
theorem leaves_ok {s s' : Polling} (hf : s'.fatal = s.fatal) (hs : s'.stopped = s.stopped) {escapes : Prop}
    (h : ¬ escapes) : Leaves s (s', .ok ()) escapes := by
  refine ⟨hf, hs, iff_of_false ?_ h⟩
  rintro ⟨error, he, -⟩
  cases he

/-- A response whose status can be recovered from. -/
theorem receive_leaves (r : Runtime) (s : Polling) (response : HttpResponse)
    (h : isFatalStatus (some response.status) = false) :
    Leaves s (s.receive r response) (response.status = 200 ∧ Spills r response.body) := by
  have hok : response.status = 200 → response.ok = true := by
    intro h
    unfold HttpResponse.ok
    rw [h]
    rfl
  unfold Polling.receive
  split
  · next hbad =>
    rw [h]
    apply leaves_connection
    rintro ⟨h200, -⟩
    rw [hok h200] at hbad
    cases hbad
  · split
    · next hother => exact leaves_ok rfl rfl fun h => hother h.1
    · next h200 =>
      rw [not_not] at h200
      rw [← parseBundle_raises_iff]
      cases hp : parseBundle r.loads response.body with
      | ok bundle =>
        dsimp only
        apply leaves_ok
        · rfl
        · rfl
        rintro ⟨-, e, he, -⟩
        cases he
      | error error =>
        dsimp only
        cases hv : error.isValueError with
        | true =>
          refine leaves_connection _ _ _ ?_
          rintro ⟨-, e, he, hf⟩
          cases he
          rw [hv] at hf
          cases hf
        | false => exact ⟨rfl, rfl, iff_of_true ⟨.bundle error, rfl, rfl⟩ ⟨h200, error, rfl, hv⟩⟩

/-- The fetch of an outcome that can be recovered from. -/
theorem fetch_leaves (r : Runtime) (url : Text) {s : Polling} (hs : s.fatal = false) {x : Exchange}
    (hx : ¬ x.Unrecoverable) : Leaves s (s.fetch r url x) (x.Breaks r) := by
  unfold Polling.fetch
  rw [hs]
  cases x with
  | unusable error => exact absurd trivial hx
  | failed error => exact leaves_connection _ _ _ id
  | answered status body =>
    cases body with
    | error error => exact ⟨rfl, rfl, iff_of_true ⟨_, rfl, rfl⟩ trivial⟩
    | ok payload =>
      by_cases hlong : maxResponseBytes < payload.length
      · have hpost : s.post url (.answered status (.ok payload)) =
            (s, .error (.connection (lit "The server response exceeded the " ++ natText maxResponseBytes ++
              lit " byte limit and was discarded") none)) := by
          unfold Polling.post Transport.post readText
          simp only [if_pos hlong]
          rfl
        rw [hpost]
        exact leaves_connection _ _ _ fun h => absurd h.2.1 (not_le.mpr hlong)
      · have hpost : s.post url (.answered status (.ok payload)) = (s, .ok ⟨status, decodeReplace payload⟩) := by
          unfold Polling.post Transport.post readText
          simp only [if_neg hlong]
          rfl
        rw [hpost]
        have hstatus : isFatalStatus (some status) = false := Bool.not_eq_true _ ▸ hx
        have hreceive := receive_leaves r s ⟨status, decodeReplace payload⟩ hstatus
        refine ⟨hreceive.fatal, hreceive.stopped, hreceive.escapes_iff.trans ?_⟩
        exact and_congr_right fun _ => (and_iff_right (not_lt.mp hlong)).symm

theorem turn_eq (r : Runtime) (url : Text) {l : PollLoop} (hl : l.GoesOn) (x : Exchange) :
    l.turn r url x = ⟨(l.transport.fetch r url x).1,
      (match (l.transport.fetch r url x).2 with
        | .ok () => true
        | .error error => error.isConnection) && !(l.transport.fetch r url x).1.fatal⟩ := by
  unfold PollLoop.turn
  rw [hl.running, hl.stopped]
  generalize l.transport.fetch r url x = outcome
  obtain ⟨s, raised⟩ := outcome
  cases raised <;> rfl

/-- A turn on an outcome that can be recovered from ends the loop if and only if the outcome breaks it. -/
theorem turn_running_iff (r : Runtime) (url : Text) {l : PollLoop} (hl : l.GoesOn) {x : Exchange}
    (hx : ¬ x.Unrecoverable) : (l.turn r url x).running = true ↔ ¬ x.Breaks r := by
  have hleaves := fetch_leaves r url hl.fatal hx
  rw [turn_eq r url hl, ← hleaves.escapes_iff]
  simp only [hleaves.fatal, hl.fatal, Bool.not_false, Bool.and_true]
  cases hraised : (l.transport.fetch r url x).2 with
  | ok _ =>
    refine iff_of_true rfl ?_
    rintro ⟨error, h, -⟩
    cases h
  | error error =>
    simp

theorem turn_goesOn (r : Runtime) (url : Text) {l : PollLoop} (hl : l.GoesOn) {x : Exchange}
    (hx : ¬ x.Unrecoverable) (h : ¬ x.Breaks r) : (l.turn r url x).GoesOn := by
  have hleaves := fetch_leaves r url hl.fatal hx
  have hrunning := (turn_running_iff r url hl hx).2 h
  rw [turn_eq r url hl] at hrunning ⊢
  exact ⟨hrunning, hleaves.stopped.trans hl.stopped, hleaves.fatal.trans hl.fatal⟩

theorem turn_left (r : Runtime) (url : Text) {l : PollLoop} (hl : l.running = false) (x : Exchange) :
    (l.turn r url x).running = false := by
  unfold PollLoop.turn
  rw [hl]
  exact hl

/-- A loop that has been left is not entered again. -/
theorem poll_left (r : Runtime) (url : Text) : ∀ {exchanges : List Exchange} {l : PollLoop}, l.running = false →
    (l.poll r url exchanges).running = false
  | [], _, hl => hl
  | x :: exchanges, l, hl => by
    rw [PollLoop.poll, List.foldl_cons]
    exact poll_left r url (turn_left r url hl x)

/-! ## Any number of polls -/

/-- After outcomes that can all be recovered from, the loop goes on to a further poll if and only if
none of them breaks it. -/
theorem poll_goesOn_iff (r : Runtime) (url : Text) {l : PollLoop} (hl : l.GoesOn) {exchanges : List Exchange}
    (h : ∀ x ∈ exchanges, ¬ x.Unrecoverable) :
    (l.poll r url exchanges).GoesOn ↔ ∀ x ∈ exchanges, ¬ x.Breaks r := by
  induction exchanges generalizing l with
  | nil => exact iff_of_true hl (by simp)
  | cons x exchanges ih =>
    rw [List.forall_mem_cons] at h ⊢
    rw [PollLoop.poll, List.foldl_cons]
    by_cases hx : x.Breaks r
    · have hleft : (l.turn r url x).running = false := by
        rw [← Bool.not_eq_true, turn_running_iff r url hl h.1, not_not]
        exact hx
      refine iff_of_false ?_ fun hall => hall.1 hx
      intro hgoes
      exact Bool.false_ne_true ((poll_left r url hleft).symm.trans hgoes.running)
    · exact (ih (turn_goesOn r url hl h.1 hx) h.2).trans (and_iff_right hx).symm

/-- A transport whose polling thread has just been started. -/
def PollLoop.started : PollLoop := ⟨⟨false, false, none, []⟩, true⟩

omit [Unicode] in
theorem PollLoop.started_goesOn : PollLoop.started.GoesOn := ⟨rfl, rfl, rfl⟩

/-- A `json.loads` that accepts no text. -/
def Runtime.refusing : Runtime := ⟨.refusing, fun _ => []⟩

omit [Unicode] in
theorem poll_goesOn_iff_unavailable : (@PollLoop.poll Unicode.ascii .refusing (lit "u") .started
      [.failed (lit "refused"), .answered 503 (.ok [])]).GoesOn ↔
    ∀ x ∈ [Exchange.failed (lit "refused"), .answered 503 (.ok [])], ¬ @Exchange.Breaks Unicode.ascii .refusing x :=
  @poll_goesOn_iff Unicode.ascii .refusing (lit "u") .started PollLoop.started_goesOn
    [.failed (lit "refused"), .answered 503 (.ok [])] (by simp [Exchange.Unrecoverable, isFatalStatus])

omit [Unicode] in
/-- A connection that is lost while the body of a response is read ends polling for good. -/
theorem poll_lost_body : ¬ ∀ [Unicode] (r : Runtime) (url : Text) (l : PollLoop) (exchanges : List Exchange),
    l.GoesOn → (∀ x ∈ exchanges, ¬ x.Unrecoverable) → (l.poll r url exchanges).GoesOn := by
  intro h
  have hgoes := @h Unicode.ascii .refusing (lit "u") .started [.answered 200 (.error (lit "read timed out"))]
    PollLoop.started_goesOn (by simp [Exchange.Unrecoverable, isFatalStatus])
  cases hgoes.running

end ConfigDirector.Transport
