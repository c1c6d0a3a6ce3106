/-
`close()` against `initialize()` in streaming mode. Both threads run `StreamingTransport.close`, which
reads each attribute before it clears it, and `connect` assigns the stream client and the heartbeat
thread before it starts them. A worker is stopped by whoever holds it: the attribute, as long as
`close()` has yet to read it, or one of the two threads on its way to stop it.
-/
import ConfigDirector.Transport.ClosePolling

namespace ConfigDirector.Transport

/-! ## Model -/

/-- `StreamingTransport.close`, before each of its steps. Heartbeat threads go by their stop event. -/
inductive StreamClose
  | readStop
  | setStop (event : ℕ)
  | readThread
  | clearThread (thread : Option ℕ)
  | join (thread : Option ℕ)
  | readClient
  | clearClient (client : Option ℕ)
  /-- The locked section of `EventSourceClient.close`, which reads the stop event of the worker. -/
  | closeClient (client : Option ℕ)
  | stopClient (client : ℕ)
deriving DecidableEq

/-- `initialize`, before each of its steps. -/
inductive StreamOpener
  | uncalled
  | checkClosed
  | closing (next : StreamClose)
  | assignClient
  | connectClient (client : ℕ)
  | assignStop
  | assignThread (event : ℕ)
  | readThread (event : ℕ)
  | startThread (thread : ℕ)
  | wait
deriving DecidableEq

/-- The client's `close`, before each of its steps. -/
inductive StreamCloser
  | uncalled
  | closing (next : StreamClose)
  | returned
deriving DecidableEq

structure StreamingThreads where
  closed : Bool
  client : Option ℕ
  /-- The stream clients that were connected and not closed. -/
  connected : ℕ → Bool
  heartbeatStop : ℕ
  heartbeatThread : Option ℕ
  stopSet : ℕ → Bool
  /-- The heartbeat threads that were started. -/
  beating : ℕ → Bool
  created : ℕ
  opener : StreamOpener
  closer : StreamCloser

/-- The next step of one of the threads; `drop` is a stream worker that ends by itself. -/
inductive StreamingStep
  | opener
  | closer
  | drop (client : ℕ)

namespace StreamingThreads

/-- A transport that has just been built: its stop event is set. -/
def init : StreamingThreads where
  closed := false
  client := none
  connected := fun _ => false
  heartbeatStop := 0
  heartbeatThread := none
  stopSet := fun event => event = 0
  beating := fun _ => false
  created := 1
  opener := .uncalled
  closer := .uncalled

def setConnected (s : StreamingThreads) (client : ℕ) (b : Bool) : StreamingThreads :=
  { s with connected := fun i => if i = client then b else s.connected i }

def setStop (s : StreamingThreads) (event : ℕ) : StreamingThreads :=
  { s with stopSet := fun i => if i = event then true else s.stopSet i }

def startThread (s : StreamingThreads) (thread : ℕ) : StreamingThreads :=
  { s with beating := fun i => if i = thread then true else s.beating i }

/-- How a step of `StreamingTransport.close` leaves it. -/
inductive CloseResult
  | next (close : StreamClose)
  | done
  | raised

/-- A step of `StreamingTransport.close`, on whatever thread it runs. Joining a thread that was not
started raises. -/
def closeStep (s : StreamingThreads) : StreamClose → StreamingThreads × CloseResult
  | .readStop => (s, .next (.setStop s.heartbeatStop))
  | .setStop event => (s.setStop event, .next .readThread)
  | .readThread => (s, .next (.clearThread s.heartbeatThread))
  | .clearThread thread => ({ s with heartbeatThread := none }, .next (.join thread))
  | .join none => (s, .next .readClient)
  | .join (some thread) => (s, if s.beating thread then .next .readClient else .raised)
  | .readClient => (s, .next (.clearClient s.client))
  | .clearClient client => ({ s with client := none }, .next (.closeClient client))
  | .closeClient none => (s, .done)
  | .closeClient (some client) => (s, if s.connected client then .next (.stopClient client) else .done)
  | .stopClient client => (s.setConnected client false, .done)

/-- `initialize`, which can be called again once it has returned. A heartbeat thread that `close` has cleared by the time
it is read is not started: reading its `start` raises. -/
def openerStep (s : StreamingThreads) : StreamingThreads :=
  match s.opener with
  | .uncalled => { s with opener := .checkClosed }
  | .checkClosed => { s with opener := if s.closed then .uncalled else .closing .readStop }
  | .closing close =>
    match s.closeStep close with
    | (s, .next close) => { s with opener := .closing close }
    | (s, .done) => { s with opener := .assignClient }
    | (s, .raised) => { s with opener := .uncalled }
  | .assignClient => { s with
      client := some s.created
      created := s.created + 1
      opener := .connectClient s.created }
  | .connectClient client => { s.setConnected client true with opener := .assignStop }
  | .assignStop => { s with
      heartbeatStop := s.created
      created := s.created + 1
      opener := .assignThread s.created }
  | .assignThread event => { s with heartbeatThread := some event, opener := .readThread event }
  | .readThread _ =>
    match s.heartbeatThread with
    | some thread => { s with opener := .startThread thread }
    | none => { s with opener := .uncalled }
  | .startThread thread => { s.startThread thread with opener := .wait }
  | .wait => { s with opener := .uncalled }

def step (s : StreamingThreads) : StreamingStep → Option StreamingThreads
  | .opener => some s.openerStep
  | .closer =>
    match s.closer with
    | .uncalled => some { s with closed := true, closer := .closing .readStop }
    | .closing close =>
      match s.closeStep close with
      | (s, .next close) => some { s with closer := .closing close }
      | (s, _) => some { s with closer := .returned }
    | .returned => none
  | .drop client => some (s.setConnected client false)

/-! ## No worker after the close -/

/-- Both calls have returned. -/
def Returned (s : StreamingThreads) : Prop := s.opener = .uncalled ∧ s.closer = .returned

/-- No stream client is left connected, and no heartbeat loop with its stop event clear. -/
def Quiet (s : StreamingThreads) : Prop :=
  (∀ i, s.connected i = false) ∧ ∀ event, s.beating event = true → s.stopSet event = true

end StreamingThreads

/-- Whether `_client` has been read. -/
def StreamClose.hasReadClient : StreamClose → Bool
  | clearClient _ | closeClient _ | stopClient _ => true
  | _ => false

def StreamCloser.hasReadClient : StreamCloser → Bool
  | uncalled => false
  | closing close => close.hasReadClient
  | returned => true

/-- Whether `_heartbeat_stop` has been read. -/
def StreamCloser.hasReadStop : StreamCloser → Bool
  | uncalled | closing .readStop => false
  | _ => true

/-- The client on its way to be closed. -/
def StreamClose.holdsClient : StreamClose → Option ℕ
  | clearClient client | closeClient client => client
  | stopClient client => some client
  | _ => none

/-- The stop event on its way to be set. -/
def StreamClose.holdsStop : StreamClose → Option ℕ
  | setStop event => some event
  | _ => none

def StreamCloser.holdsClient : StreamCloser → Option ℕ
  | closing close => close.holdsClient
  | _ => none

def StreamOpener.holdsClient : StreamOpener → Option ℕ
  | closing close => close.holdsClient
  | _ => none

def StreamCloser.holdsStop : StreamCloser → Option ℕ
  | closing close => close.holdsStop
  | _ => none

def StreamOpener.holdsStop : StreamOpener → Option ℕ
  | closing close => close.holdsStop
  | _ => none

namespace StreamingThreads

/-- Connecting a stream client is in time before `close()` reads `_client`, and before it closes that very
client. -/
def CanConnect (s : StreamingThreads) (client : ℕ) : Prop :=
  s.closer.hasReadClient = true →
    s.closer = .closing (.clearClient (some client)) ∨ s.closer = .closing (.closeClient (some client))

/-- Starting a heartbeat thread is in time before `close()` reads `_heartbeat_stop`, and when `close()`
has set its event or is about to set it. -/
def CanBeat (s : StreamingThreads) (thread : ℕ) : Prop :=
  s.closer.hasReadStop = true → s.stopSet thread = true ∨ s.closer = .closing (.setStop thread)

instance (s : StreamingThreads) (client : ℕ) : Decidable (s.CanConnect client) :=
  inferInstanceAs (Decidable (_ = true → _ ∨ _))

instance (s : StreamingThreads) (thread : ℕ) : Decidable (s.CanBeat thread) :=
  inferInstanceAs (Decidable (_ = true → _ ∨ _))

/-- A worker is started in time for `close()` to find it, and a heartbeat thread is joined after its
start. -/
def notMissed (s : StreamingThreads) : StreamingStep → Bool
  | .opener =>
    match s.opener with
    | .connectClient client => s.CanConnect client
    | .startThread thread => s.CanBeat thread
    | _ => true
  | .closer =>
    match s.closer with
    | .closing (.join (some thread)) => s.beating thread
    | _ => true
  | .drop _ => true

/-! ## Who holds a worker -/

/-- The stream client is held: by the attribute, as long as `close()` has yet to read it, or by a thread
that will close it. -/
def HoldsClient (s : StreamingThreads) (client : ℕ) : Prop :=
  s.closer.hasReadClient = false ∧ s.client = some client ∨
    s.closer.holdsClient = some client ∨ s.opener.holdsClient = some client

/-- The stop event is held, in the same way. -/
def HoldsStop (s : StreamingThreads) (event : ℕ) : Prop :=
  s.closer.hasReadStop = false ∧ s.heartbeatStop = event ∨
    s.closer.holdsStop = some event ∨ s.opener.holdsStop = some event

/-- What `initialize` can rely on before its next step: until `close()` has read `_client` nobody else
has written it, and nobody else writes `_heartbeat_stop` or a heartbeat thread. -/
def OpenerAt (s : StreamingThreads) : Prop :=
  match s.opener with
  | .closing (.setStop event) => s.heartbeatStop = event
  | .closing .readThread | .closing (.clearThread _) | .closing (.join _) | .closing .readClient | .assignStop =>
    s.stopSet s.heartbeatStop = true
  | .closing (.clearClient client) =>
    s.stopSet s.heartbeatStop = true ∧ (s.closer.hasReadClient = false → s.client = client)
  | .closing (.closeClient _) | .closing (.stopClient _) | .assignClient =>
    s.stopSet s.heartbeatStop = true ∧ (s.closer.hasReadClient = false → s.client = none)
  | .connectClient client =>
    s.stopSet s.heartbeatStop = true ∧ (s.closer.hasReadClient = false → s.client = some client)
  | .assignThread event => s.heartbeatStop = event
  | .readThread event => s.heartbeatStop = event ∧ ∀ thread ∈ s.heartbeatThread, thread = event
  | .startThread thread => s.heartbeatStop = thread
  | _ => True

/-- What guarded steps keep: every running worker is held. -/
structure Accounted (s : StreamingThreads) : Prop where
  client : ∀ i, s.connected i = true → s.HoldsClient i
  stop : ∀ event, s.beating event = true → s.stopSet event = false → s.HoldsStop event
  opener : s.OpenerAt

theorem accounted_init : init.Accounted := by
  refine ⟨fun i h => ?_, fun event h => ?_, trivial⟩
  · cases h
  · cases h

/-- Nothing is held once both calls have returned. -/
theorem Accounted.quiet {s : StreamingThreads} (h : s.Accounted) (hreturned : s.Returned) : s.Quiet := by
  obtain ⟨hopener, hcloser⟩ := hreturned
  constructor
  · intro i
    rw [← Bool.not_eq_true]
    intro hi
    have hheld := h.client i hi
    unfold HoldsClient at hheld
    rw [hopener, hcloser] at hheld
    rcases hheld with ⟨hread, -⟩ | hcloser | hopener
    · cases hread
    · cases hcloser
    · cases hopener
  · intro event hevent
    by_contra hset
    have hheld := h.stop event hevent (Bool.not_eq_true _ ▸ hset)
    unfold HoldsStop at hheld
    rw [hopener, hcloser] at hheld
    rcases hheld with ⟨hread, -⟩ | hcloser | hopener
    · cases hread
    · cases hcloser
    · cases hopener

/-! ## Steps of `close()` -/

/-- What `initialize` relies on survives any step of another thread: that can only set events, clear the
thread, and clear `_client` after having read it. -/
theorem OpenerAt.of_other {s s' : StreamingThreads} (h : s.OpenerAt) (hopener : s'.opener = s.opener)
    (hstop : s'.heartbeatStop = s.heartbeatStop) (hset : ∀ event, s.stopSet event = true → s'.stopSet event = true)
    (hthread : ∀ thread ∈ s'.heartbeatThread, thread ∈ s.heartbeatThread)
    (hclient : s'.closer.hasReadClient = false → s.closer.hasReadClient = false ∧ s'.client = s.client) :
    s'.OpenerAt := by
  have hunread : ∀ {client : Option ℕ}, (s.closer.hasReadClient = false → s.client = client) →
      s'.closer.hasReadClient = false → s'.client = client := by
    intro client hs hread
    obtain ⟨hread, hsame⟩ := hclient hread
    rw [hsame, hs hread]
  unfold OpenerAt at h ⊢
  rw [hopener, hstop]
  cases hpc : s.opener with
  | closing close =>
    rw [hpc] at h
    cases close with
    | readStop => trivial
    | setStop event => exact h
    | clearClient client => exact ⟨hset _ h.1, hunread h.2⟩
    | closeClient client => exact ⟨hset _ h.1, hunread h.2⟩
    | stopClient client => exact ⟨hset _ h.1, hunread h.2⟩
    | _ => exact hset _ h
  | assignClient => rw [hpc] at h; exact ⟨hset _ h.1, hunread h.2⟩
  | connectClient client => rw [hpc] at h; exact ⟨hset _ h.1, hunread h.2⟩
  | assignStop => rw [hpc] at h; exact hset _ h
  | assignThread event => rw [hpc] at h; exact h
  | readThread event => rw [hpc] at h; exact ⟨h.1, fun thread ht => h.2 thread (hthread thread ht)⟩
  | startThread thread => rw [hpc] at h; exact h
  | _ => trivial

/-- In particular a step with which `close()` only goes on. -/
theorem OpenerAt.of_closer {s : StreamingThreads} (h : s.OpenerAt) {closer : StreamCloser}
    (hread : closer.hasReadClient = false → s.closer.hasReadClient = false) : { s with closer := closer }.OpenerAt :=
  h.of_other rfl rfl (fun _ h => h) (fun _ h => h) fun hr => ⟨hread hr, rfl⟩

theorem connected_setConnected {s : StreamingThreads} {client i : ℕ}
    (h : (s.setConnected client false).connected i = true) : i ≠ client ∧ s.connected i = true := by
  simp only [setConnected] at h
  split at h
  · cases h
  · next hne => exact ⟨hne, h⟩

theorem stopSet_setStop {s : StreamingThreads} {event i : ℕ} (h : (s.setStop event).stopSet i = false) :
    i ≠ event ∧ s.stopSet i = false := by
  simp only [setStop] at h
  split at h
  · cases h
  · next hne => exact ⟨hne, h⟩

theorem setStop_self (s : StreamingThreads) (event : ℕ) : (s.setStop event).stopSet event = true := if_pos rfl

theorem setStop_mono {s : StreamingThreads} {event i : ℕ} (h : s.stopSet i = true) :
    (s.setStop event).stopSet i = true := by
  simp only [setStop]
  split
  · rfl
  · exact h

theorem Accounted.drop {s : StreamingThreads} (h : s.Accounted) (client : ℕ) :
    (s.setConnected client false).Accounted := by
  exact ⟨fun i hi => h.client i (connected_setConnected hi).2, h.stop, h.opener⟩

/-- A step that `close()` begins or goes on with: what it was to stop it has read, and goes on holding. -/
theorem Accounted.of_closer {s : StreamingThreads} (h : s.Accounted) {closer next : StreamCloser} (hpc : s.closer = closer)
    (hread : next.hasReadClient = closer.hasReadClient) (hclient : next.holdsClient = closer.holdsClient)
    (hreadStop : next.hasReadStop = closer.hasReadStop) (hstop : next.holdsStop = closer.holdsStop) :
    { s with closer := next }.Accounted := by
  subst hpc
  refine ⟨fun i hi => ?_, fun event he hset => ?_, h.opener.of_closer fun hr => hread ▸ hr⟩
  · have hheld := h.client i hi
    unfold HoldsClient at hheld ⊢
    dsimp only
    rw [hread, hclient]
    exact hheld
  · have hheld := h.stop event he hset
    unfold HoldsStop at hheld ⊢
    dsimp only
    rw [hreadStop, hstop]
    exact hheld

theorem Accounted.closerReadStop {s : StreamingThreads} (h : s.Accounted) (hpc : s.closer = .closing .readStop) :
    { s with closer := .closing (.setStop s.heartbeatStop) }.Accounted := by
  refine ⟨fun i hi => ?_, fun event he hset => ?_, h.opener.of_closer fun _ => by rw [hpc]; rfl⟩
  · have hheld := h.client i hi
    unfold HoldsClient at hheld
    rw [hpc] at hheld
    exact hheld
  · have hheld := h.stop event he hset
    unfold HoldsStop at hheld
    rw [hpc] at hheld
    rcases hheld with ⟨-, rfl⟩ | hcloser | hopener
    · exact .inr (.inl rfl)
    · cases hcloser
    · exact .inr (.inr hopener)

theorem Accounted.closerSetStop {s : StreamingThreads} (h : s.Accounted) {event : ℕ}
    (hpc : s.closer = .closing (.setStop event)) :
    { s.setStop event with closer := .closing .readThread }.Accounted := by
  refine ⟨fun i hi => ?_, fun event' he hset => ?_, h.opener.of_other rfl rfl ?_ (fun _ h => h) fun _ => ?_⟩
  · have hheld := h.client i hi
    unfold HoldsClient at hheld
    rw [hpc] at hheld
    exact hheld
  · obtain ⟨hne, hset⟩ := stopSet_setStop hset
    have hheld := h.stop event' he hset
    unfold HoldsStop at hheld
    rw [hpc] at hheld
    rcases hheld with ⟨hread, -⟩ | hcloser | hopener
    · cases hread
    · cases hcloser
      exact absurd rfl hne
    · exact .inr (.inr hopener)
  · exact fun _ hset => setStop_mono hset
  · rw [hpc]
    exact ⟨rfl, rfl⟩

/-- The thread attribute is cleared; the thread that was read from it is joined next. -/
theorem Accounted.closerClearThread {s : StreamingThreads} (h : s.Accounted) {thread : Option ℕ}
    (hpc : s.closer = .closing (.clearThread thread)) :
    { s with heartbeatThread := none, closer := .closing (.join thread) }.Accounted := by
  have hjoin : { s with closer := .closing (.join thread) }.Accounted := h.of_closer hpc rfl rfl rfl rfl
  exact ⟨hjoin.client, hjoin.stop,
    hjoin.opener.of_other rfl rfl (fun _ h => h) (fun _ h => by cases h) fun _ => ⟨rfl, rfl⟩⟩

/-- Once `close()` has read the attribute, a client is held by one of the threads. -/
theorem Accounted.closerClient {s : StreamingThreads} (h : s.Accounted) {closer next : StreamCloser} {client : Option ℕ}
    (hpc : s.closer = closer)
    (hheld : ∀ i, s.connected i = true → s.HoldsClient i → next.holdsClient = some i ∨ s.opener.holdsClient = some i)
    (hread : next.hasReadClient = true) (hreadStop : next.hasReadStop = closer.hasReadStop)
    (hstop : next.holdsStop = closer.holdsStop) : { s with client := client, closer := next }.Accounted := by
  subst hpc
  refine ⟨fun i hi => .inr (hheld i hi (h.client i hi)), fun event he hset => ?_, ?_⟩
  · have hheld := h.stop event he hset
    unfold HoldsStop at hheld ⊢
    dsimp only
    rw [hreadStop, hstop]
    exact hheld
  · refine h.opener.of_other rfl rfl (fun _ h => h) (fun _ h => h) fun hr => ?_
    cases hread.symm.trans hr

theorem Accounted.closerReadClient {s : StreamingThreads} (h : s.Accounted) (hpc : s.closer = .closing .readClient) :
    { s with closer := .closing (.clearClient s.client) }.Accounted := by
  refine h.closerClient hpc (fun i _ hheld => ?_) rfl rfl rfl
  unfold HoldsClient at hheld
  rw [hpc] at hheld
  rcases hheld with ⟨-, hattr⟩ | hcloser | hopener
  · exact .inl hattr
  · cases hcloser
  · exact .inr hopener

theorem Accounted.closerClearClient {s : StreamingThreads} (h : s.Accounted) {client : Option ℕ}
    (hpc : s.closer = .closing (.clearClient client)) :
    { s with client := none, closer := .closing (.closeClient client) }.Accounted := by
  refine h.closerClient hpc (fun i _ hheld => ?_) rfl rfl rfl
  unfold HoldsClient at hheld
  rw [hpc] at hheld
  rcases hheld with ⟨hread, -⟩ | hcloser | hopener
  · cases hread
  · exact .inl hcloser
  · exact .inr hopener

/-- `close()` has no client, or one that is not connected. -/
theorem Accounted.closerCloseClient {s : StreamingThreads} (h : s.Accounted) {client : Option ℕ}
    (hpc : s.closer = .closing (.closeClient client)) (hclosed : ∀ i ∈ client, s.connected i = false) :
    { s with closer := .returned }.Accounted := by
  refine h.closerClient hpc (fun i hi hheld => ?_) rfl rfl rfl
  unfold HoldsClient at hheld
  rw [hpc] at hheld
  rcases hheld with ⟨hread, -⟩ | hcloser | hopener
  · cases hread
  · exact absurd ((hclosed i hcloser).symm.trans hi) Bool.false_ne_true
  · exact .inr hopener

theorem Accounted.closerStopClient {s : StreamingThreads} (h : s.Accounted) {client : ℕ}
    (hpc : s.closer = .closing (.stopClient client)) :
    { s.setConnected client false with closer := .returned }.Accounted := by
  have hcloser : (s.setConnected client false).closer = .closing (.stopClient client) := hpc
  refine (h.drop client).closerClient hcloser (fun i hi hheld => ?_) rfl rfl rfl
  have hne := (connected_setConnected hi).1
  unfold HoldsClient at hheld
  rw [hcloser] at hheld
  rcases hheld with ⟨hread, -⟩ | hholds | hopener
  · cases hread
  · cases hholds
    exact absurd rfl hne
  · exact .inr hopener

/-- The step with which `close()` begins or goes on holds what it has read. -/
theorem Accounted.closer {s s' : StreamingThreads} (h : s.Accounted) (hguard : s.notMissed .closer = true)
    (hstep : s.step .closer = some s') : s'.Accounted := by
  rw [StreamingThreads.step] at hstep
  cases hpc : s.closer with
  | returned =>
    rw [hpc] at hstep
    cases hstep
  | uncalled =>
    rw [hpc] at hstep
    cases hstep
    have hbegun : { s with closer := .closing .readStop }.Accounted := h.of_closer hpc rfl rfl rfl rfl
    exact ⟨hbegun.client, hbegun.stop, hbegun.opener⟩
  | closing close =>
    rw [hpc] at hstep
    cases close with
    | readStop => cases hstep; exact h.closerReadStop hpc
    | setStop event => cases hstep; exact h.closerSetStop hpc
    | readThread => cases hstep; exact h.of_closer hpc rfl rfl rfl rfl
    | clearThread thread => cases hstep; exact h.closerClearThread hpc
    | join thread =>
      cases thread with
      | none => cases hstep; exact h.of_closer hpc rfl rfl rfl rfl
      | some thread =>
        -- the guard rules out the join of a thread that has not been started, which raises
        have hbeating : s.beating thread = true := by
          rw [notMissed, hpc] at hguard
          exact hguard
        simp only [closeStep, hbeating, if_true] at hstep
        cases hstep
        exact h.of_closer hpc rfl rfl rfl rfl
    | readClient => cases hstep; exact h.closerReadClient hpc
    | clearClient client => cases hstep; exact h.closerClearClient hpc
    | closeClient client =>
      cases client with
      | none =>
        cases hstep
        exact h.closerCloseClient hpc fun i hi => by cases hi
      | some client =>
        cases hconnected : s.connected client with
        | true =>
          simp only [closeStep, hconnected, if_true] at hstep
          cases hstep
          exact h.of_closer hpc rfl rfl rfl rfl
        | false =>
          simp only [closeStep, hconnected, Bool.false_eq_true, if_false] at hstep
          cases hstep
          exact h.closerCloseClient hpc fun i hi => by cases hi; exact hconnected
    | stopClient client => cases hstep; exact h.closerStopClient hpc

/-! ## Steps of `initialize()` -/

theorem Accounted.openerClosing {s : StreamingThreads} (h : s.Accounted) {close : StreamClose}
    (hpc : s.opener = .closing close) : s.openerStep.Accounted := by
  have hclient := h.client
  have hstop := h.stop
  have hopener := h.opener
  unfold HoldsClient at hclient
  unfold HoldsStop at hstop
  unfold OpenerAt at hopener
  rw [hpc] at hclient hstop hopener
  unfold openerStep
  rw [hpc]
  cases close with
  | readStop =>
    refine ⟨hclient, fun event he hset => ?_, rfl⟩
    rcases hstop event he hset with ⟨hread, rfl⟩ | hcloser | hheld
    · exact .inl ⟨hread, rfl⟩
    · exact .inr (.inl hcloser)
    · cases hheld
  | setStop event =>
    refine ⟨hclient, fun event' he hset => ?_, ?_⟩
    · obtain ⟨hne, hset⟩ := stopSet_setStop hset
      rcases hstop event' he hset with hattr | hcloser | hheld
      · exact .inl hattr
      · exact .inr (.inl hcloser)
      · cases hheld
        exact absurd rfl hne
    · change (s.setStop event).stopSet s.heartbeatStop = true
      rw [hopener]
      exact setStop_self s event
  | readThread => exact ⟨hclient, hstop, hopener⟩
  | clearThread thread => exact ⟨hclient, hstop, hopener⟩
  | join thread =>
    cases thread with
    | none => exact ⟨hclient, hstop, hopener⟩
    | some thread =>
      simp only [closeStep]
      cases s.beating thread
      · exact ⟨hclient, hstop, trivial⟩
      · exact ⟨hclient, hstop, hopener⟩
  | readClient =>
    refine ⟨fun i hi => ?_, hstop, hopener, fun _ => rfl⟩
    rcases hclient i hi with hattr | hcloser | hheld
    · exact .inl hattr
    · exact .inr (.inl hcloser)
    · cases hheld
  | clearClient client =>
    refine ⟨fun i hi => ?_, hstop, hopener.1, fun _ => rfl⟩
    rcases hclient i hi with ⟨hread, hattr⟩ | hcloser | hheld
    · exact .inr (.inr ((hopener.2 hread).symm.trans hattr))
    · exact .inr (.inl hcloser)
    · exact .inr (.inr hheld)
  | closeClient client =>
    cases client with
    | none => exact ⟨hclient, hstop, hopener⟩
    | some client =>
      simp only [closeStep]
      cases hconnected : s.connected client with
      | true => exact ⟨hclient, hstop, hopener⟩
      | false =>
        refine ⟨fun i hi => ?_, hstop, hopener⟩
        rcases hclient i hi with hattr | hcloser | hheld
        · exact .inl hattr
        · exact .inr (.inl hcloser)
        · cases hheld
          exact absurd (hconnected.symm.trans hi) Bool.false_ne_true
  | stopClient client =>
    refine ⟨fun i hi => ?_, hstop, hopener⟩
    obtain ⟨hne, hi⟩ := connected_setConnected hi
    rcases hclient i hi with hattr | hcloser | hheld
    · exact .inl hattr
    · exact .inr (.inl hcloser)
    · cases hheld
      exact absurd rfl hne

theorem Accounted.opener_step {s : StreamingThreads} (h : s.Accounted) (hguard : s.notMissed .opener = true) :
    s.openerStep.Accounted := by
  have hclient := h.client
  have hstop := h.stop
  have hopener := h.opener
  unfold HoldsClient at hclient
  unfold HoldsStop at hstop
  unfold OpenerAt at hopener
  unfold notMissed at hguard
  unfold openerStep
  cases hpc : s.opener with
  | closing close =>
    have hclosing := h.openerClosing hpc
    unfold openerStep at hclosing
    rw [hpc] at hclosing
    exact hclosing
  | uncalled => rw [hpc] at hclient hstop; exact ⟨hclient, hstop, trivial⟩
  | wait => rw [hpc] at hclient hstop; exact ⟨hclient, hstop, trivial⟩
  | checkClosed =>
    rw [hpc] at hclient hstop
    dsimp only
    cases s.closed
    · exact ⟨hclient, hstop, trivial⟩
    · exact ⟨hclient, hstop, trivial⟩
  | assignClient =>
    rw [hpc] at hclient hstop hopener
    refine ⟨fun i hi => ?_, hstop, hopener.1, fun _ => rfl⟩
    rcases hclient i hi with ⟨hread, hattr⟩ | hcloser | hheld
    · cases (hopener.2 hread).symm.trans hattr
    · exact .inr (.inl hcloser)
    · cases hheld
  | connectClient client =>
    rw [hpc] at hclient hstop hopener hguard
    refine ⟨fun i hi => ?_, hstop, hopener.1⟩
    simp only [setConnected] at hi
    split at hi
    · next heq =>
      subst heq
      -- the client just connected: either `close()` has yet to read it, or it is about to close it
      cases hread : s.closer.hasReadClient with
      | false => exact .inl ⟨hread, hopener.2 hread⟩
      | true =>
        rcases of_decide_eq_true hguard hread with hcloser | hcloser
        · exact .inr (.inl (by change s.closer.holdsClient = _; rw [hcloser]; rfl))
        · exact .inr (.inl (by change s.closer.holdsClient = _; rw [hcloser]; rfl))
    · exact hclient i hi
  | assignStop =>
    rw [hpc] at hclient hstop hopener
    refine ⟨hclient, fun event he hset => ?_, rfl⟩
    rcases hstop event he hset with ⟨-, rfl⟩ | hcloser | hheld
    · exact absurd (hset.symm.trans hopener) Bool.false_ne_true
    · exact .inr (.inl hcloser)
    · cases hheld
  | assignThread event =>
    rw [hpc] at hclient hstop hopener
    exact ⟨hclient, hstop, hopener, fun thread ht => by cases ht; rfl⟩
  | readThread event =>
    rw [hpc] at hclient hstop hopener
    dsimp only
    cases hthread : s.heartbeatThread with
    | none => exact ⟨hclient, hstop, trivial⟩
    | some thread =>
      obtain rfl := hopener.2 thread hthread
      exact ⟨hclient, hstop, hopener.1⟩
  | startThread thread =>
    rw [hpc] at hclient hstop hopener hguard
    refine ⟨hclient, fun event he hset => ?_, trivial⟩
    simp only [StreamingThreads.startThread] at he
    split at he
    · next heq =>
      subst heq
      -- the loop just started: either `close()` has yet to read its event, or it is about to set it
      cases hread : s.closer.hasReadStop with
      | false => exact .inl ⟨hread, hopener⟩
      | true =>
        rcases of_decide_eq_true hguard hread with hset' | hcloser
        · exact absurd (hset.symm.trans hset') Bool.false_ne_true
        · exact .inr (.inl (by change s.closer.holdsStop = _; rw [hcloser]; rfl))
    · exact hstop event he hset

theorem Accounted.step {s s' : StreamingThreads} {e : StreamingStep} (h : s.Accounted) (hguard : s.notMissed e = true)
    (hstep : s.step e = some s') : s'.Accounted := by
  cases e with
  | opener =>
    cases hstep
    exact h.opener_step hguard
  | closer => exact h.closer hguard hstep
  | drop client =>
    cases hstep
    exact h.drop client

/-- After any guarded run, once both calls have returned, no worker is left running. -/
theorem quiet_of_notMissed {steps : List StreamingStep} {s : StreamingThreads}
    (hguard : Transition.Obeys step (fun s e => s.notMissed e = true) init steps) (hrun : Transition.run step init steps = some s)
    (hreturned : s.Returned) : s.Quiet := by
  have haccounted : s.Accounted :=
    Transition.invariant (fun _ _ _ h hg hs => h.step hg hs) accounted_init hguard hrun
  exact haccounted.quiet hreturned

end StreamingThreads

/-! ## Both modes -/

open PollingThreads (NotRestarted)

/-- `close()` is final in either mode, over the runs in which no worker is started behind it. -/
theorem close_final (polls : Bool) (polling : List PollingStep) (streaming : List StreamingStep) :
    (∀ s : PollingThreads, Transition.Obeys PollingThreads.step NotRestarted (.init polls) polling →
      Transition.run PollingThreads.step (.init polls) polling = some s → s.Returned → s.Quiet) ∧
    ∀ s : StreamingThreads, Transition.Obeys StreamingThreads.step (fun s e => s.notMissed e = true) .init streaming →
      Transition.run StreamingThreads.step .init streaming = some s → s.Returned → s.Quiet := by
  constructor
  · intro s hguard hrun
    exact PollingThreads.quiet_of_notRestarted hguard hrun
  · intro s hguard hrun
    exact StreamingThreads.quiet_of_notMissed hguard hrun

/-- The calls in turn: `close()` begins when `initialize()` has returned. -/
def pollingInTurn : List PollingStep := List.replicate 6 (.opener false) ++ List.replicate 4 .closer

def streamingInTurn : List StreamingStep := List.replicate 17 .opener ++ List.replicate 10 .closer

theorem close_final_in_turn :
    (∃ s, Transition.run PollingThreads.step (.init true) pollingInTurn = some s ∧ s.Quiet) ∧
      ∃ s, Transition.run StreamingThreads.step .init streamingInTurn = some s ∧ s.Quiet :=
  ⟨⟨_, rfl, (close_final true pollingInTurn streamingInTurn).1 _ (by decide) rfl ⟨rfl, rfl⟩⟩,
    ⟨_, rfl, (close_final true pollingInTurn streamingInTurn).2 _ (by decide) rfl ⟨rfl, rfl⟩⟩⟩

/-- `close()` runs while the first poll is in flight. -/
def closedWhilePolling : List PollingStep :=
  List.replicate 2 (.opener false) ++ List.replicate 4 .closer ++ List.replicate 4 (.opener false)

/-- `close()` runs before `connect` has assigned its stream client. -/
def closedWhileConnecting : List StreamingStep :=
  List.replicate 10 .opener ++ List.replicate 9 .closer ++ List.replicate 7 .opener

/-- In either mode `initialize()` can leave a worker running behind `close()`. -/
theorem close_not_final :
    (¬ ∀ (polls : Bool) (steps : List PollingStep) (s : PollingThreads),
      Transition.run PollingThreads.step (.init polls) steps = some s → s.Returned → s.Quiet) ∧
    ¬ ∀ (steps : List StreamingStep) (s : StreamingThreads),
      Transition.run StreamingThreads.step .init steps = some s → s.Returned → s.Quiet := by
  constructor
  · intro h
    have hquiet := h true closedWhilePolling _ rfl ⟨rfl, rfl⟩ 0 rfl
    cases hquiet
  · intro h
    have hquiet := (h closedWhileConnecting _ rfl ⟨rfl, rfl⟩).1 1
    cases hquiet

end ConfigDirector.Transport
