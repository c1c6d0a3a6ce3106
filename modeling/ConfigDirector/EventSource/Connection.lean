/-
The event source client (`_eventsource.client`) as threads: the workers started by `connect`, and
callers of `close` on other threads or inside a handler. What the server and the handlers do is
arbitrary, and so is how long a join waits. A worker whose client was closed and connected again reads
the new stop event, as the code does.
-/
import ConfigDirector.EventSource.Session
import ConfigDirector.Machine.Transition

namespace ConfigDirector.EventSource

open Python

inductive ReadyState
  | connecting
  | opened
  | closed
deriving DecidableEq

/-- A call of `on_connect`, `on_message` or `on_comment`; a handler that was not given does nothing. -/
inductive Notice
  | connect
  | message (message : EventSourceMessage)
  | comment (text : Text)
deriving DecidableEq

/-! ## Threads -/

/-- `close` after its locked section, before each of its steps. It holds the stop event it has read. -/
inductive Closing
  | settingStop (event : ℕ)
  | joining (event : ℕ)
deriving DecidableEq

def Closing.event : Closing → ℕ
  | settingStop event | joining event => event

/-- A worker, before each of its steps. -/
inductive Worker
  | opening
  | responding (status : ℕ)
  | unopened
  | responded (status : ℕ)
  /-- The response has been published. -/
  | published
  /-- `_set_state`, before it looks at the stop event and before it writes. -/
  | settingState (state : ReadyState)
  | writingState (state : ReadyState)
  | connected
  | reading (decoder : Decoder) (parser : Parser)
  | received (chunk : Bytes) (decoder : Decoder) (parser : Parser)
  /-- The stream has ended. -/
  | ending (decoder : Decoder) (parser : Parser)
  /-- The calls left of what was fed, and how it ends; the decoder unless the stream has ended. -/
  | feeding (calls : List Call) (result : Except StreamError Parser) (decoder : Option Decoder)
  /-- Something was raised on the stream. -/
  | broken
  | readDone
  | failed
  | delaying
  /-- The stop event is read before the delay is asked for. -/
  | waiting (event : ℕ)
  | disconnecting
  | disconnected
  /-- A handler that may be closing the client, and what follows it. -/
  | handling (closing : Option Closing) (next : Worker)
  | ended
deriving DecidableEq

/-- What a worker's step leaves to the server or to a handler. -/
inductive WorkerStep
  | goes
  | opens (status : Option ℕ)
  | receives (chunk : Bytes)
  | ends
  | breaks
  | asks (reconnect : Bool)
  | closes
  | returns
  /-- A handler lets something escape that is no `Exception`. -/
  | escapes
deriving DecidableEq

/-! ## Model -/

/-- What has happened: the program does not keep it. -/
structure CloseHistory where
  /-- `close` has taken the lock since the last `connect`. -/
  closing : Bool
  /-- One of these has returned. -/
  closed : Bool
  /-- The calls begun since. -/
  late : List Notice

structure EventSourceClient where
  readyState : ReadyState
  attempt : ℕ
  serverDelay : PyFloat
  lastEventId : Option Text
  stop : ℕ
  stopSet : ℕ → Bool
  /-- The stop events there are. -/
  created : ℕ
  workers : List Worker
  closers : ℕ → Option Closing
  history : CloseHistory

inductive ClientStep
  | connect
  | closer (i : ℕ)
  | worker (i : ℕ) (step : WorkerStep)

namespace EventSourceClient

/-- A client that has just been built: its stop event is set. -/
def init : EventSourceClient where
  readyState := .closed
  attempt := 0
  serverDelay := .ofRat 2
  lastEventId := none
  stop := 0
  stopSet := fun event => event = 0
  created := 1
  workers := []
  closers := fun _ => none
  history := ⟨false, false, []⟩

/-- `self._stop.is_set()`. -/
def stopped (s : EventSourceClient) : Bool := s.stopSet s.stop

def setStop (s : EventSourceClient) (event : ℕ) : EventSourceClient :=
  { s with stopSet := fun i => if i = event then true else s.stopSet i }

def setWorker (s : EventSourceClient) (i : ℕ) (w : Worker) : EventSourceClient := { s with workers := s.workers.set i w }

def setCloser (s : EventSourceClient) (i : ℕ) (closing : Option Closing) : EventSourceClient :=
  { s with closers := fun j => if j = i then closing else s.closers j }

/-- A call of a handler begins. -/
def begins (s : EventSourceClient) (notice : Notice) : EventSourceClient :=
  if s.history.closed then { s with history := { s.history with late := s.history.late ++ [notice] } } else s

/-- `connect`. -/
def connectStep (s : EventSourceClient) : EventSourceClient :=
  if s.readyState = .closed then
    { s with
      readyState := .connecting
      attempt := 0
      stop := s.created
      created := s.created + 1
      workers := s.workers ++ [.opening]
      history := { s.history with closing := false, closed := false } }
  else s

/-- The locked section of `close`. -/
def closeLocked (s : EventSourceClient) : EventSourceClient :=
  { s with readyState := .closed, history := { s.history with closing := true } }

/-- The next step of `close`, which returns from a join unless there was a `connect` meanwhile. -/
def closeStep (s : EventSourceClient) : Closing → EventSourceClient × Option Closing
  | .settingStop event => (s.setStop event, some (.joining event))
  | .joining event =>
    (if event = s.stop then { s with history := { s.history with closed := true } } else s, none)

/-- What follows `_set_state`. -/
def afterState : ReadyState → Worker
  | .opened => .connected
  | _ => .delaying

/-- One of the calls the parser makes. -/
def callStep (s : EventSourceClient) (calls : List Call) (result : Except StreamError Parser)
    (decoder : Option Decoder) : Call → EventSourceClient × Worker
  | .event message =>
    let s :=
      match message.id with
      | some id => { s with lastEventId := some id }
      | none => s
    (s.begins (.message message), .handling none (.feeding calls result decoder))
  | .comment text => (s.begins (.comment text), .handling none (.feeding calls result decoder))
  | .retry milliseconds =>
    match PyFloat.ofInt? milliseconds with
    | some x => ({ s with serverDelay := x.divThousand }, .feeding calls result decoder)
    | none => (s, .broken)

/-- What a worker does next by itself. -/
def goStep (o : Options) (s : EventSourceClient) : Worker → Option (EventSourceClient × Worker)
  | .responding status => some (s, if s.stopped then .unopened else .responded status)
  | .unopened => some (s, if s.stopped then .ended else .handling none .failed)
  | .responded status =>
    some (s, if status = 204 then .disconnecting else if 400 ≤ status then .failed else .published)
  | .published => some (s, if s.stopped then .ended else .settingState .opened)
  | .settingState state => some (s, if s.stopped then afterState state else .writingState state)
  | .writingState state => some ({ s with readyState := state }, afterState state)
  | .connected => some ({ s with attempt := 0 }.begins .connect, .handling none (.reading .start .init))
  | .received chunk decoder parser =>
    if s.stopped then some (s, .readDone)
    else
      let fed := parser.feed o (decoder.decode chunk).2
      some (s, .feeding fed.calls fed.result (some (decoder.decode chunk).1))
  | .ending decoder parser =>
    if s.stopped then some (s, .readDone)
    else
      let fed := parser.feed o decoder.finish
      some (s, .feeding fed.calls fed.result none)
  | .feeding (call :: calls) result decoder => some (s.callStep calls result decoder call)
  | .feeding [] (.error _) _ => some (s, .broken)
  | .feeding [] (.ok parser) (some decoder) => some (s, .reading decoder parser)
  | .feeding [] (.ok _) none => some (s, .readDone)
  | .broken => some (s, if s.stopped then .ended else .handling none .failed)
  | .readDone => some (s, if s.stopped then .ended else .failed)
  | .delaying => some (s, .handling none (.waiting s.stop))
  | .waiting event => some (s, if s.stopSet event then .ended else .opening)
  | .disconnecting => some ({ s with readyState := .closed }, .disconnected)
  | .disconnected => some (s.setStop s.stop, .handling none .ended)
  | .handling (some closing) next => some ((s.closeStep closing).1, .handling (s.closeStep closing).2 next)
  | _ => none

/-- A step of a worker, of its handlers or of what it reads. -/
def workerStep (o : Options) (s : EventSourceClient) : Worker → WorkerStep → Option (EventSourceClient × Worker)
  | w, .goes => s.goStep o w
  | .opening, .opens none => some (s, .unopened)
  | .opening, .opens (some status) => some (s, .responding status)
  | .reading decoder parser, .receives chunk => some (s, .received chunk decoder parser)
  | .reading decoder parser, .ends => some (s, .ending decoder parser)
  | .reading _ _, .breaks => some (s, .broken)
  | .failed, .asks reconnect =>
    if s.stopped then some (s, .ended)
    else some ({ s with attempt := s.attempt + 1 },
      .handling none (if reconnect then .settingState .connecting else .disconnecting))
  | .handling none next, .closes => some (s.closeLocked, .handling (some (.settingStop s.stop)) next)
  | .handling none next, .returns => some (s, next)
  | .handling none _, .escapes => some ({ s with readyState := .closed }, .ended)
  | _, _ => none

def step (o : Options) (s : EventSourceClient) : ClientStep → Option EventSourceClient
  | .connect => some s.connectStep
  | .closer i =>
    match s.closers i with
    | none => some (s.closeLocked.setCloser i (some (.settingStop s.stop)))
    | some closing => some ((s.closeStep closing).1.setCloser i (s.closeStep closing).2)
  | .worker i e =>
    match s.workers[i]? with
    | some w => (s.workerStep o w e).map fun p => p.1.setWorker i p.2
    | none => none

/-- What a client comes to. -/
abbrev run (o : Options) : EventSourceClient → List ClientStep → Option EventSourceClient := Transition.run (step o)

end EventSourceClient

end ConfigDirector.EventSource
