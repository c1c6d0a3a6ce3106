/-
The connection loop of the event source client (`_run`, `_connect_once`, `_open`) with the responses of the
transport: which one is published for `close` to interrupt, and which ones the worker has closed. The steps are the
worker's and those of any number of callers of `close`, in any interleaving; a handler that closes the client is a
caller next to the worker it is called by.
-/
import ConfigDirector.EventSource.Delay

namespace ConfigDirector.EventSource

open Python

/-! ## Stages -/

/-- How the second `try` of `_connect_once` is left. -/
inductive Leaving
  /-- At its end. -/
  | ends
  /-- With a failure to return, or `None`. -/
  | returns (failed : Bool)
  /-- By something that is no `Exception`. -/
  | escapes
deriving DecidableEq

/-- Before a step in the second `try` of `_connect_once`. -/
inductive Attempt
  | responded (status : ℕ)
  | publishing
  | published
  /-- `_set_state`, before it looks at the stop event and before it writes. -/
  | settingState
  | writingState
  | connected
  | reading (decoder : Decoder) (parser : Parser)
  | received (chunk : Bytes) (decoder : Decoder) (parser : Parser)
  /-- The stream has ended. -/
  | ending (decoder : Decoder) (parser : Parser)
  /-- The calls left of what was fed, and how it ends; the decoder unless the stream has ended. -/
  | feeding (calls : List Call) (result : Except StreamError Parser) (decoder : Option Decoder)
  /-- An `Exception` was raised. -/
  | broken
  | disconnecting
  | disconnected
  /-- In a handler, and what follows it. -/
  | handling (next : Attempt)
  | leaving (left : Leaving)
deriving DecidableEq

/-- Before a step of the worker. -/
inductive LoopStage
  | opening
  /-- `_open`, with a response. -/
  | opened (response status : ℕ)
  | refusing (response : ℕ)
  | unopened
  | attempting (response : ℕ) (stage : Attempt)
  /-- The `finally`, before each of its two statements. -/
  | clearing (response : ℕ) (left : Leaving)
  | closing (response : ℕ) (left : Leaving)
  | streamed
  /-- `_connect_once` has returned a failure, or `None`. -/
  | returned (failed : Bool)
  | asking
  | settingState
  | writingState
  | delaying
  | waiting (delay : PyFloat)
  | disconnecting
  | disconnected
  /-- In a handler outside of the `try`: `on_error` of a failed request or of a delay, `on_disconnect`. -/
  | reportingUnopened
  | reportingDelay (delay : PyFloat)
  | reportingDisconnected
  | unwinding
  | ended
deriving DecidableEq

/-- `close` after its locked section, before each of its steps. -/
inductive LoopClosing
  | settingStop (response : Option ℕ)
  | cancelling (response : Option ℕ)
  | joining
deriving DecidableEq

/-- What happens: a step of the worker by itself, what the transport, the stream, a handler or a function of the
caller does, and a step of `close`. -/
inductive LoopEvent
  | goes
  | opens (status : ℕ)
  | fails (exits : Bool)
  | receives (chunk : Bytes)
  | ends
  | breaks
  /-- A handler returns or raises an `Exception`, which is logged. -/
  | returns
  /-- It raises something else. -/
  | exits
  /-- The answer of `should_reconnect` or `calculate_reconnect_delay`, if there is one. -/
  | answers (answer : Option PyValue)
  /-- The delay is too long to wait for. -/
  | overflows
  | close (i : ℕ)

/-! ## Model -/

structure ConnectionLoop where
  readyState : ReadyState
  attempt : ℕ
  serverDelay : PyFloat
  lastEventId : Option Text
  stopSet : Bool
  response : Option ℕ
  stage : LoopStage
  closers : ℕ → Option LoopClosing
  /-- For the record: how many responses there have been, and which ones the worker has closed, oldest first. -/
  opened : ℕ
  closed : List ℕ

namespace ConnectionLoop

/-- `connect` has started the worker. -/
def init (serverDelay : PyFloat) (lastEventId : Option Text) : ConnectionLoop where
  readyState := .connecting
  attempt := 0
  serverDelay := serverDelay
  lastEventId := lastEventId
  stopSet := false
  response := none
  stage := .opening
  closers := fun _ => none
  opened := 0
  closed := []

/-- The worker goes on. -/
def goTo (s : ConnectionLoop) (stage : LoopStage) : ConnectionLoop := { s with stage }

/-- One of the calls the parser makes. -/
def callStep (s : ConnectionLoop) (next : Attempt) : Call → ConnectionLoop × Attempt
  | .event message =>
    let s :=
      match message.id with
      | some id => { s with lastEventId := some id }
      | none => s
    (s, .handling next)
  | .comment _ => (s, .handling next)
  | .retry milliseconds =>
    match PyFloat.ofInt? milliseconds with
    | some x => ({ s with serverDelay := x.divThousand }, next)
    | none => (s, .broken)

/-- A step in the `try`, with the response that was opened. -/
def attemptStep (o : Options) (s : ConnectionLoop) (response : ℕ) : Attempt → Option (ConnectionLoop × Attempt)
  | .responded status =>
    some (s, if status = 204 then .disconnecting else if 400 ≤ status then .leaving (.returns true) else .publishing)
  | .publishing => some ({ s with response := some response }, .published)
  | .published => some (s, if s.stopSet then .leaving (.returns false) else .settingState)
  | .settingState => some (s, if s.stopSet then .connected else .writingState)
  | .writingState => some ({ s with readyState := .opened }, .connected)
  | .connected => some ({ s with attempt := 0 }, .handling (.reading .start .init))
  | .received chunk decoder parser =>
    if s.stopSet then some (s, .leaving .ends)
    else
      let fed := parser.feed o (decoder.decode chunk).2
      some (s, .feeding fed.calls fed.result (some (decoder.decode chunk).1))
  | .ending decoder parser =>
    if s.stopSet then some (s, .leaving .ends)
    else
      let fed := parser.feed o decoder.finish
      some (s, .feeding fed.calls fed.result none)
  | .feeding (call :: calls) result decoder => some (s.callStep (.feeding calls result decoder) call)
  | .feeding [] (.error _) _ => some (s, .broken)
  | .feeding [] (.ok parser) (some decoder) => some (s, .reading decoder parser)
  | .feeding [] (.ok _) none => some (s, .leaving .ends)
  | .broken => some (s, if s.stopSet then .leaving (.returns false) else .handling (.leaving (.returns true)))
  | .disconnecting => some ({ s with readyState := .closed }, .disconnected)
  | .disconnected => some ({ s with stopSet := true }, .handling (.leaving (.returns false)))
  | .reading _ _ | .handling _ | .leaving _ => none

/-- What follows the `finally`. -/
def afterClosing : Leaving → LoopStage
  | .ends => .streamed
  | .returns failed => .returned failed
  | .escapes => .unwinding

/-- What the worker does next by itself. -/
def goStep (o : Options) (s : ConnectionLoop) : Option ConnectionLoop :=
  match s.stage with
  | .opened response status =>
    some (s.goTo (if s.stopSet then .refusing response else .attempting response (.responded status)))
  | .refusing response => some ({ s with closed := s.closed ++ [response] }.goTo .unopened)
  | .unopened => some (s.goTo (if s.stopSet then .returned false else .reportingUnopened))
  | .attempting response (.leaving left) => some (s.goTo (.clearing response left))
  | .attempting response stage =>
    (s.attemptStep o response stage).map fun p => p.1.goTo (.attempting response p.2)
  | .clearing response left => some ({ s with response := none }.goTo (.closing response left))
  | .closing response left => some ({ s with closed := s.closed ++ [response] }.goTo (afterClosing left))
  | .streamed => some (s.goTo (.returned !s.stopSet))
  | .returned failed =>
    some (if failed && !s.stopSet then { s with attempt := s.attempt + 1 }.goTo .asking else s.goTo .ended)
  | .settingState => some (s.goTo (if s.stopSet then .delaying else .writingState))
  | .writingState => some ({ s with readyState := .connecting }.goTo .delaying)
  | .waiting _ => some (s.goTo (if s.stopSet then .ended else .opening))
  | .disconnecting => some ({ s with readyState := .closed }.goTo .disconnected)
  | .disconnected => some ({ s with stopSet := true }.goTo .reportingDisconnected)
  | .unwinding => some ({ s with readyState := .closed }.goTo .ended)
  | _ => none

/-- What follows the answer of a function of the caller. -/
def answerStep (s : ConnectionLoop) (answer : Option PyValue) : Option ConnectionLoop :=
  match s.stage with
  | .asking => some (s.goTo (if (answer.getD (.bool true)).truthy then .settingState else .disconnecting))
  | .delaying =>
    match asSeconds (answer.getD (.float s.serverDelay)) with
    | .error _ => some (s.goTo .unwinding)
    | .ok delay =>
      match delay.filter inRange with
      | some delay => some (s.goTo (.waiting delay))
      | none => some (s.goTo (.reportingDelay s.serverDelay))
  | _ => none

/-- A handler returns. -/
def returnStep (s : ConnectionLoop) : Option ConnectionLoop :=
  match s.stage with
  | .attempting response (.handling next) => some (s.goTo (.attempting response next))
  | .reportingUnopened => some (s.goTo (.returned true))
  | .reportingDelay delay => some (s.goTo (.waiting delay))
  | .reportingDisconnected => some (s.goTo .ended)
  | _ => none

/-- A handler or a function of the caller lets something escape. -/
def exitStep (s : ConnectionLoop) : Option ConnectionLoop :=
  match s.stage with
  | .attempting response (.handling _) => some (s.goTo (.attempting response (.leaving .escapes)))
  | .reportingUnopened | .reportingDelay _ | .reportingDisconnected | .asking | .delaying => some (s.goTo .unwinding)
  | _ => none

/-- The stream of a response. -/
def streamStep (s : ConnectionLoop) (next : Decoder → Parser → Attempt) : Option ConnectionLoop :=
  match s.stage with
  | .attempting response (.reading decoder parser) => some (s.goTo (.attempting response (next decoder parser)))
  | _ => none

def setCloser (s : ConnectionLoop) (i : ℕ) (closing : Option LoopClosing) : ConnectionLoop :=
  { s with closers := Function.update s.closers i closing }

def closeStep (s : ConnectionLoop) (i : ℕ) : ConnectionLoop :=
  match s.closers i with
  | none => { s with readyState := .closed }.setCloser i (some (.settingStop s.response))
  | some (.settingStop response) => { s with stopSet := true }.setCloser i (some (.cancelling response))
  | some (.cancelling _) => s.setCloser i (some .joining)
  | some .joining => s.setCloser i none

def step (o : Options) (s : ConnectionLoop) : LoopEvent → Option ConnectionLoop
  | .goes => s.goStep o
  | .opens status =>
    match s.stage with
    | .opening => some ({ s with opened := s.opened + 1 }.goTo (.opened s.opened status))
    | _ => none
  | .fails exits =>
    match s.stage with
    | .opening => some (s.goTo (if exits then .unwinding else .unopened))
    | _ => none
  | .receives chunk => s.streamStep fun decoder parser => .received chunk decoder parser
  | .ends => s.streamStep .ending
  | .breaks => s.streamStep fun _ _ => .broken
  | .returns => s.returnStep
  | .exits => s.exitStep
  | .answers answer => s.answerStep answer
  | .overflows =>
    match s.stage with
    | .waiting _ => some (s.goTo .unwinding)
    | _ => none
  | .close i => some (s.closeStep i)

abbrev run (o : Options) : ConnectionLoop → List LoopEvent → Option ConnectionLoop := Transition.run (step o)

/-! ## The property -/

/-- Every response is closed once at most, and all of them before the next request and before the loop ends; when all
are closed none is published. -/
structure Released (s : ConnectionLoop) : Prop where
  once : s.closed.Nodup
  opened : ∀ response ∈ s.closed, response < s.opened
  all : s.stage = .opening ∨ s.stage = .ended → ∀ response < s.opened, response ∈ s.closed
  unpublished : (∀ response < s.opened, response ∈ s.closed) → s.response = none

/-! ## Responses -/

end ConnectionLoop

variable {s s' : ConnectionLoop}

/-- The response that has been opened and not closed. -/
def LoopStage.held : LoopStage → Option ℕ
  | .opened response _ | .refusing response | .attempting response _ | .clearing response _ | .closing response _ =>
    some response
  | _ => none

/-- The response that may be published. -/
def LoopStage.published : LoopStage → Option ℕ
  | .attempting response _ | .clearing response _ => some response
  | _ => none

namespace ConnectionLoop

/-- The responses opened are the ones closed and the one held; only the latter is published. -/
structure Accounts (s : ConnectionLoop) : Prop where
  opened : s.closed ++ s.stage.held.toList = List.range s.opened
  published : ∀ response, s.response = some response → s.stage.published = some response

theorem accounts_init (serverDelay : PyFloat) (lastEventId : Option Text) : (init serverDelay lastEventId).Accounts :=
  ⟨rfl, fun _ h => (by cases h)⟩

/-- No response is opened, closed or published. -/
structure SameResponses (s s' : ConnectionLoop) : Prop where
  opened : s'.opened = s.opened
  closed : s'.closed = s.closed
  response : s'.response = s.response
  held : s'.stage.held = s.stage.held
  published : s.stage.published = none ∨ s'.stage.published = s.stage.published

theorem Accounts.same (h : s.Accounts) (hsame : SameResponses s s') : s'.Accounts where
  opened := by
    rw [hsame.closed, hsame.held, hsame.opened]
    exact h.opened
  published := fun response hresponse => by
    have hbefore := h.published response (hsame.response ▸ hresponse)
    rcases hsame.published with hnone | heq
    · rw [hnone] at hbefore
      cases hbefore
    · rw [heq]
      exact hbefore

theorem held_of_published {stage : LoopStage} {response : ℕ} (h : stage.published = some response) :
    stage.held = some response := by
  cases stage <;> first | exact h | cases h

/-- A step opens a response, publishes the one held, takes it back or closes it, or does none of these. -/
inductive Handles (s s' : ConnectionLoop) : Prop
  | same (h : SameResponses s s')
  | opens (hheld : s.stage.held = none) (hpublished : s.stage.published = none) (hheld' : s'.stage.held = some s.opened)
    (hopened : s'.opened = s.opened + 1) (hclosed : s'.closed = s.closed) (hresponse : s'.response = s.response)
  | publishes (hsame : s'.stage.held = s.stage.held) (hpublished : s'.stage.published = s'.response)
    (hopened : s'.opened = s.opened) (hclosed : s'.closed = s.closed)
  | closes (response : ℕ) (hheld : s.stage.held = some response) (hpublished : s.stage.published = none)
    (hheld' : s'.stage.held = none) (hopened : s'.opened = s.opened) (hclosed : s'.closed = s.closed ++ [response])
    (hresponse : s'.response = s.response)

theorem Accounts.handles (h : s.Accounts) (hstep : Handles s s') : s'.Accounts := by
  cases hstep with
  | same hsame => exact h.same hsame
  | opens hheld hpublished hheld' hopened hclosed hresponse =>
    constructor
    case opened =>
      have hrange := h.opened
      rw [hheld, Option.toList_none, List.append_nil] at hrange
      rw [hheld', hclosed, hopened, List.range_succ, hrange, Option.toList_some]
    case published =>
      intro response heq
      have hbefore := h.published response (hresponse ▸ heq)
      rw [hpublished] at hbefore
      cases hbefore
  | publishes hsame hpublished hopened hclosed =>
    refine ⟨?_, fun response heq => hpublished.trans heq⟩
    rw [hclosed, hsame, hopened]
    exact h.opened
  | closes response hheld hpublished hheld' hopened hclosed hresponse =>
    constructor
    case opened =>
      have hrange := h.opened
      rw [hheld, Option.toList_some] at hrange
      rw [hheld', hclosed, hopened, Option.toList_none, List.append_nil, hrange]
    case published =>
      intro other heq
      have hbefore := h.published other (hresponse ▸ heq)
      rw [hpublished] at hbefore
      cases hbefore

/-- A call of the parser sets the delay or the last id, or raises. -/
theorem callStep_cases (s : ConnectionLoop) (next : Attempt) (call : Call) : ∃ serverDelay lastEventId,
    (s.callStep next call).1 = { s with serverDelay, lastEventId } ∧
      ((s.callStep next call).2 = .handling next ∨ (s.callStep next call).2 = next ∨ (s.callStep next call).2 = .broken) := by
  cases call with
  | event message =>
    rw [callStep]
    cases message.id with
    | none => exact ⟨_, _, rfl, .inl rfl⟩
    | some id => exact ⟨_, _, rfl, .inl rfl⟩
  | comment text => exact ⟨_, _, rfl, .inl rfl⟩
  | retry milliseconds =>
    rw [callStep]
    cases PyFloat.ofInt? milliseconds with
    | none => exact ⟨_, _, rfl, .inr (.inr rfl)⟩
    | some x => exact ⟨_, _, rfl, .inr (.inl rfl)⟩

end ConnectionLoop

/-- The worker will return: the stop event was seen, or set by `_disconnected`. -/
def Leaving.gives : Leaving → Bool
  | returns failed => !failed
  | _ => false

def Attempt.gives : Attempt → Bool
  | handling next => next.gives
  | leaving left => left.gives
  | _ => false

/-- It is about to write another state than closed. -/
def Attempt.writes : Attempt → Bool
  | handling next => next.writes
  | writingState => true
  | _ => false

/-- It has just closed the client. -/
def Attempt.quits : Attempt → Bool
  | handling next => next.quits
  | disconnected => true
  | _ => false

/-- What a step in the `try` does. -/
inductive AttemptMoves (s : ConnectionLoop) (response : ℕ) : Attempt → ConnectionLoop → Attempt → Prop
  | goes {stage stage' : Attempt} (attempt : ℕ) (serverDelay : PyFloat) (lastEventId : Option Text)
    (hgives : stage'.gives = true → s.stopSet = true) (hwrites : stage'.writes = true → s.stopSet = false)
    (hquits : stage'.quits = false) :
    AttemptMoves s response stage { s with attempt, serverDelay, lastEventId } stage'
  | publishes : AttemptMoves s response .publishing { s with response := some response } .published
  | writes : AttemptMoves s response .writingState { s with readyState := .opened } .connected
  | disconnects : AttemptMoves s response .disconnecting { s with readyState := .closed } .disconnected
  | stops : AttemptMoves s response .disconnected { s with stopSet := true } (.handling (.leaving (.returns false)))

namespace ConnectionLoop

theorem attemptStep_moves {o : Options} {response : ℕ} {stage stage' : Attempt}
    (h : s.attemptStep o response stage = some (s', stage')) : AttemptMoves s response stage s' stage' := by
  have hgoes {stage stage' : Attempt} (hgives : stage'.gives = true → s.stopSet = true)
      (hwrites : stage'.writes = true → s.stopSet = false) (hquits : stage'.quits = false) :
      AttemptMoves s response stage s stage' :=
    .goes s.attempt s.serverDelay s.lastEventId hgives hwrites hquits
  have hplain {stage stage' : Attempt} (hgives : stage'.gives = false) (hwrites : stage'.writes = false)
      (hquits : stage'.quits = false) : AttemptMoves s response stage s stage' :=
    hgoes (fun h => absurd (hgives.symm.trans h) Bool.false_ne_true)
      (fun h => absurd (hwrites.symm.trans h) Bool.false_ne_true) hquits
  cases stage with
  | responded status =>
    cases h
    split
    · exact hplain rfl rfl rfl
    · split <;> exact hplain rfl rfl rfl
  | publishing =>
    cases h
    exact .publishes
  | published =>
    cases h
    split
    · rename_i hstop
      exact hgoes (fun _ => hstop) (fun h => (by cases h)) rfl
    · exact hplain rfl rfl rfl
  | settingState =>
    cases h
    split
    · exact hplain rfl rfl rfl
    · rename_i hstop
      exact hgoes (fun h => (by cases h)) (fun _ => Bool.not_eq_true _ ▸ hstop) rfl
  | writingState =>
    cases h
    exact .writes
  | connected =>
    cases h
    exact .goes 0 s.serverDelay s.lastEventId (fun h => (by cases h)) (fun h => (by cases h)) rfl
  | received chunk decoder parser =>
    rw [attemptStep] at h
    split at h <;> cases h <;> exact hplain rfl rfl rfl
  | ending decoder parser =>
    rw [attemptStep] at h
    split at h <;> cases h <;> exact hplain rfl rfl rfl
  | feeding calls result decoder =>
    cases calls with
    | nil => cases result <;> cases decoder <;> cases h <;> exact hplain rfl rfl rfl
    | cons call calls =>
      obtain ⟨serverDelay, lastEventId, hs, hnext⟩ := callStep_cases s (.feeding calls result decoder) call
      rw [attemptStep] at h
      rw [Option.some.inj h] at hs hnext
      obtain rfl : s' = { s with serverDelay, lastEventId } := hs
      rcases hnext with rfl | rfl | rfl <;>
        exact .goes s.attempt serverDelay lastEventId (fun h => (by cases h)) (fun h => (by cases h)) rfl
  | broken =>
    cases h
    split
    · rename_i hstop
      exact hgoes (fun _ => hstop) (fun h => (by cases h)) rfl
    · exact hplain rfl rfl rfl
  | disconnecting =>
    cases h
    exact .disconnects
  | disconnected =>
    cases h
    exact .stops
  | reading decoder parser => cases h
  | handling next => cases h
  | leaving leaving => cases h

/-- The worker goes from a stage in which it publishes no response to one with the same held. -/
theorem SameResponses.goTo {stage : LoopStage} (hstage : s.stage = stage) {stage' : LoopStage}
    (hheld : stage'.held = stage.held) (hpublished : stage.published = none ∨ stage'.published = stage.published) :
    SameResponses s (s.goTo stage') :=
  ⟨rfl, rfl, rfl, by rw [hstage]; exact hheld, by rw [hstage]; exact hpublished⟩

theorem goStep_handles {o : Options} (h : s.goStep o = some s') : Handles s s' := by
  unfold goStep at h
  split at h <;> rename_i hstage
  · rename_i response status
    cases h
    refine .same (.goTo hstage ?_ (.inl rfl))
    cases s.stopSet <;> rfl
  · rename_i response
    cases h
    exact .closes response (by rw [hstage]; rfl) (by rw [hstage]; rfl) rfl rfl rfl rfl
  · cases h
    refine .same (.goTo hstage ?_ (.inl rfl))
    cases s.stopSet <;> rfl
  · cases h
    exact .same (.goTo hstage rfl (.inr rfl))
  · rename_i response stage _
    obtain ⟨⟨s₁, stage'⟩, hattempt, rfl⟩ := Option.map_eq_some_iff.1 h
    cases attemptStep_moves hattempt with
    | publishes => exact .publishes (by rw [hstage]; rfl) rfl rfl rfl
    | _ => exact .same ⟨rfl, rfl, rfl, by rw [hstage]; rfl, .inr (by rw [hstage]; rfl)⟩
  · cases h
    exact .publishes (by rw [hstage]; rfl) rfl rfl rfl
  · rename_i response leaving
    cases h
    refine .closes response (by rw [hstage]; rfl) (by rw [hstage]; rfl) ?_ rfl rfl rfl
    cases leaving <;> rfl
  · cases h
    exact .same (.goTo hstage rfl (.inl rfl))
  · cases h
    split
    · exact .same ⟨rfl, rfl, rfl, by rw [hstage]; rfl, .inl (by rw [hstage]; rfl)⟩
    · exact .same (.goTo hstage rfl (.inl rfl))
  · cases h
    refine .same (.goTo hstage ?_ (.inl rfl))
    cases s.stopSet <;> rfl
  · cases h
    exact .same ⟨rfl, rfl, rfl, by rw [hstage]; rfl, .inl (by rw [hstage]; rfl)⟩
  · cases h
    refine .same (.goTo hstage ?_ (.inl rfl))
    cases s.stopSet <;> rfl
  · cases h
    exact .same ⟨rfl, rfl, rfl, by rw [hstage]; rfl, .inl (by rw [hstage]; rfl)⟩
  · cases h
    exact .same ⟨rfl, rfl, rfl, by rw [hstage]; rfl, .inl (by rw [hstage]; rfl)⟩
  · cases h
    exact .same ⟨rfl, rfl, rfl, by rw [hstage]; rfl, .inl (by rw [hstage]; rfl)⟩
  · cases h

theorem streamStep_handles {next : Decoder → Parser → Attempt} (h : s.streamStep next = some s') : Handles s s' := by
  unfold streamStep at h
  split at h <;> rename_i hstage <;> cases h
  exact .same (.goTo hstage rfl (.inr rfl))

theorem closeStep_same (s : ConnectionLoop) (i : ℕ) : SameResponses s (s.closeStep i) := by
  unfold closeStep
  split <;> exact ⟨rfl, rfl, rfl, rfl, .inr rfl⟩

theorem step_handles {o : Options} {e : LoopEvent} (h : s.step o e = some s') : Handles s s' := by
  cases e with
  | goes => exact goStep_handles h
  | opens status =>
    rw [step] at h
    split at h <;> rename_i hstage <;> cases h
    exact .opens (by rw [hstage]; rfl) (by rw [hstage]; rfl) rfl rfl rfl rfl
  | fails exits =>
    rw [step] at h
    split at h <;> rename_i hstage <;> cases h
    refine .same (.goTo hstage ?_ (.inl rfl))
    cases exits <;> rfl
  | receives chunk => exact streamStep_handles h
  | ends => exact streamStep_handles h
  | breaks => exact streamStep_handles h
  | returns =>
    rw [step, returnStep] at h
    split at h <;> rename_i hstage <;> cases h
    · exact .same (.goTo hstage rfl (.inr rfl))
    all_goals exact .same (.goTo hstage rfl (.inl rfl))
  | exits =>
    rw [step, exitStep] at h
    split at h <;> rename_i hstage <;> cases h
    · exact .same (.goTo hstage rfl (.inr rfl))
    all_goals exact .same (.goTo hstage rfl (.inl rfl))
  | answers answer =>
    rw [step, answerStep] at h
    split at h <;> rename_i hstage
    · cases h
      refine .same (.goTo hstage ?_ (.inl rfl))
      split <;> rfl
    · split at h
      · cases h
        exact .same (.goTo hstage rfl (.inl rfl))
      · split at h <;> cases h <;> exact .same (.goTo hstage rfl (.inl rfl))
    · cases h
  | overflows =>
    rw [step] at h
    split at h <;> rename_i hstage <;> cases h
    exact .same (.goTo hstage rfl (.inl rfl))
  | close i =>
    cases h
    exact .same (closeStep_same s i)

/-! ## The state at the end -/

end ConnectionLoop

def LoopStage.writes : LoopStage → Bool
  | attempting _ stage => stage.writes
  | writingState => true
  | _ => false

def LoopStage.gives : LoopStage → Bool
  | attempting _ stage => stage.gives
  | clearing _ left | closing _ left => left.gives
  | returned failed => !failed
  | reportingDisconnected => true
  | _ => false

def LoopStage.quits : LoopStage → Bool
  | attempting _ stage => stage.quits
  | disconnected | ended => true
  | _ => false

namespace ConnectionLoop

/-- What holds as long as `close` has not been called: the stop event is set by `_disconnected` only, which closes the
client first. -/
structure Unclosed (s : ConnectionLoop) : Prop where
  closers : ∀ i, s.closers i = none
  stopped : s.stopSet = true → s.readyState = .closed
  writes : s.stage.writes = true → s.stopSet = false
  gives : s.stage.gives = true → s.stopSet = true
  quits : s.stage.quits = true → s.readyState = .closed

theorem unclosed_init (serverDelay : PyFloat) (lastEventId : Option Text) : (init serverDelay lastEventId).Unclosed where
  closers := fun _ => rfl
  stopped := fun h => (by cases h)
  writes := fun h => (by cases h)
  gives := fun h => (by cases h)
  quits := fun h => (by cases h)

/-- The worker goes on, with the same stop event and state of the client. -/
theorem Unclosed.goTo (h : s.Unclosed) (hclosers : s'.closers = s.closers) (hstop : s'.stopSet = s.stopSet)
    (hready : s'.readyState = s.readyState) {stage : LoopStage} (hwrites : stage.writes = true → s.stopSet = false)
    (hgives : stage.gives = true → s.stopSet = true) (hquits : stage.quits = true → s.readyState = .closed) :
    (s'.goTo stage).Unclosed where
  closers := fun i => (congrFun hclosers i).trans (h.closers i)
  stopped := fun hset => hready.trans (h.stopped (hstop.symm.trans hset))
  writes := fun hstage => hstop.trans (hwrites hstage)
  gives := fun hstage => hstop.trans (hgives hstage)
  quits := fun hstage => hready.trans (hquits hstage)

/-- It goes on to a stage that is none of these. -/
theorem Unclosed.plain (h : s.Unclosed) (hclosers : s'.closers = s.closers) (hstop : s'.stopSet = s.stopSet)
    (hready : s'.readyState = s.readyState) {stage : LoopStage} (hwrites : stage.writes = false)
    (hgives : stage.gives = false) (hquits : stage.quits = false) : (s'.goTo stage).Unclosed :=
  h.goTo hclosers hstop hready (fun hstage => (by rw [hwrites] at hstage; cases hstage))
    (fun hstage => (by rw [hgives] at hstage; cases hstage)) (fun hstage => (by rw [hquits] at hstage; cases hstage))

/-- It has closed the client. -/
theorem Unclosed.close (h : s.Unclosed) {stage : LoopStage} (hwrites : stage.writes = false) (hgives : stage.gives = false) :
    ({ s with readyState := .closed }.goTo stage).Unclosed where
  closers := h.closers
  stopped := fun _ => rfl
  writes := fun hstage => absurd (hwrites.symm.trans hstage) Bool.false_ne_true
  gives := fun hstage => absurd (hgives.symm.trans hstage) Bool.false_ne_true
  quits := fun _ => rfl

theorem Unclosed.stop (h : s.Unclosed) (hready : s.readyState = .closed) {stage : LoopStage} (hwrites : stage.writes = false) :
    ({ s with stopSet := true }.goTo stage).Unclosed where
  closers := h.closers
  stopped := fun _ => hready
  writes := fun hstage => absurd (hwrites.symm.trans hstage) Bool.false_ne_true
  gives := fun _ => rfl
  quits := fun _ => hready

/-- It writes another state, having seen the stop event unset. -/
theorem Unclosed.write (h : s.Unclosed) (hstop : s.stopSet = false) (readyState : ReadyState) {stage : LoopStage}
    (hgives : stage.gives = false) (hquits : stage.quits = false) :
    ({ s with readyState }.goTo stage).Unclosed where
  closers := h.closers
  stopped := fun hset => absurd (hstop.symm.trans hset) Bool.false_ne_true
  writes := fun _ => hstop
  gives := fun hstage => absurd (hgives.symm.trans hstage) Bool.false_ne_true
  quits := fun hstage => absurd (hquits.symm.trans hstage) Bool.false_ne_true

theorem Unclosed.attempt {o : Options} (h : s.Unclosed) {response : ℕ} {stage stage' : Attempt}
    (hstage : s.stage = .attempting response stage) (hstep : s.attemptStep o response stage = some (s', stage')) :
    (s'.goTo (.attempting response stage')).Unclosed := by
  cases attemptStep_moves hstep with
  | goes attempt serverDelay lastEventId hgives hwrites hquits =>
    exact h.goTo (by rfl) (by rfl) (by rfl) hwrites hgives (fun h => absurd (hquits.symm.trans h) Bool.false_ne_true)
  | publishes => apply h.plain <;> rfl
  | writes => exact h.write (h.writes (by rw [hstage]; rfl)) .opened rfl rfl
  | disconnects => exact h.close rfl rfl
  | stops => exact h.stop (h.quits (by rw [hstage]; rfl)) rfl

theorem Unclosed.go {o : Options} (h : s.Unclosed) (hstep : s.goStep o = some s') : s'.Unclosed := by
  unfold goStep at hstep
  split at hstep <;> rename_i hstage
  · cases hstep
    split <;> apply h.plain <;> rfl
  · cases hstep
    apply h.plain <;> rfl
  · cases hstep
    split
    · rename_i hstop
      exact h.goTo rfl rfl rfl (fun h => (by cases h)) (fun _ => hstop) (fun h => (by cases h))
    · apply h.plain <;> rfl
  · cases hstep
    refine h.goTo rfl rfl rfl (fun h => (by cases h)) (fun hgives => h.gives ?_) (fun h => (by cases h))
    rw [hstage]
    exact hgives
  · obtain ⟨⟨s₁, stage'⟩, hattempt, rfl⟩ := Option.map_eq_some_iff.1 hstep
    exact h.attempt hstage hattempt
  · cases hstep
    refine h.goTo (by rfl) (by rfl) (by rfl) (fun h => (by cases h)) (fun hgives => h.gives ?_) (fun h => (by cases h))
    rw [hstage]
    exact hgives
  · rename_i response left
    cases hstep
    refine h.goTo (by rfl) (by rfl) (by rfl) ?_ (fun hgives => h.gives ?_) ?_
    · cases left <;> exact fun h => (by cases h)
    · rw [hstage]
      cases left with
      | returns failed => exact hgives
      | ends => cases hgives
      | escapes => cases hgives
    · cases left <;> exact fun h => (by cases h)
  · cases hstep
    refine h.goTo rfl rfl rfl (fun h => (by cases h)) (fun hgives => ?_) (fun h => (by cases h))
    rw [← Bool.not_not s.stopSet]
    exact hgives
  · rename_i failed
    cases hstep
    split
    · apply h.plain <;> rfl
    · rename_i hends
      -- the worker returns because it was told to, or sees the stop event
      refine h.goTo rfl rfl rfl (fun h => (by cases h)) (fun h => (by cases h)) (fun _ => h.stopped ?_)
      cases failed with
      | false => exact h.gives (by rw [hstage]; rfl)
      | true => simpa using hends
  · cases hstep
    split
    · apply h.plain <;> rfl
    · rename_i hstop
      exact h.goTo rfl rfl rfl (fun _ => Bool.not_eq_true _ ▸ hstop) (fun h => (by cases h)) (fun h => (by cases h))
  · cases hstep
    exact h.write (h.writes (by rw [hstage]; rfl)) .connecting rfl rfl
  · cases hstep
    split
    · rename_i hstop
      exact h.goTo rfl rfl rfl (fun h => (by cases h)) (fun h => (by cases h)) (fun _ => h.stopped hstop)
    · apply h.plain <;> rfl
  · cases hstep
    exact h.close rfl rfl
  · cases hstep
    exact h.stop (h.quits (by rw [hstage]; rfl)) rfl
  · cases hstep
    exact h.close rfl rfl
  · cases hstep

theorem Unclosed.stream (h : s.Unclosed) {next : Decoder → Parser → Attempt}
    (hwrites : ∀ decoder parser, (next decoder parser).writes = false)
    (hgives : ∀ decoder parser, (next decoder parser).gives = false)
    (hquits : ∀ decoder parser, (next decoder parser).quits = false) (hstep : s.streamStep next = some s') : s'.Unclosed := by
  unfold streamStep at hstep
  split at hstep <;> cases hstep
  exact h.plain rfl rfl rfl (hwrites _ _) (hgives _ _) (hquits _ _)

theorem Unclosed.step {o : Options} {e : LoopEvent} (h : s.Unclosed) (he : ∀ i, e ≠ .close i)
    (hstep : s.step o e = some s') : s'.Unclosed := by
  cases e with
  | goes => exact h.go hstep
  | opens status =>
    rw [ConnectionLoop.step] at hstep
    split at hstep <;> cases hstep
    apply h.plain <;> rfl
  | fails exits =>
    rw [ConnectionLoop.step] at hstep
    split at hstep <;> cases hstep
    cases exits <;> apply h.plain <;> rfl
  | receives chunk => exact h.stream (fun _ _ => rfl) (fun _ _ => rfl) (fun _ _ => rfl) hstep
  | ends => exact h.stream (fun _ _ => rfl) (fun _ _ => rfl) (fun _ _ => rfl) hstep
  | breaks => exact h.stream (fun _ _ => rfl) (fun _ _ => rfl) (fun _ _ => rfl) hstep
  | returns =>
    rw [ConnectionLoop.step, returnStep] at hstep
    split at hstep <;> rename_i hstage <;> cases hstep
    · -- what follows the handler is of the same kind
      exact h.goTo rfl rfl rfl (fun hwrites => h.writes (by rw [hstage]; exact hwrites))
        (fun hgives => h.gives (by rw [hstage]; exact hgives)) (fun hquits => h.quits (by rw [hstage]; exact hquits))
    · apply h.plain <;> rfl
    · apply h.plain <;> rfl
    · refine h.goTo rfl rfl rfl (fun h => (by cases h)) (fun h => (by cases h)) (fun _ => h.stopped (h.gives ?_))
      rw [hstage]
      rfl
  | exits =>
    rw [ConnectionLoop.step, exitStep] at hstep
    split at hstep <;> cases hstep <;> apply h.plain <;> rfl
  | answers answer =>
    rw [ConnectionLoop.step, answerStep] at hstep
    split at hstep
    · cases hstep
      split <;> apply h.plain <;> rfl
    · split at hstep
      · cases hstep
        apply h.plain <;> rfl
      · split at hstep <;> cases hstep <;> apply h.plain <;> rfl
    · cases hstep
  | overflows =>
    rw [ConnectionLoop.step] at hstep
    split at hstep <;> cases hstep
    apply h.plain <;> rfl
  | close i => exact absurd rfl (he i)

/-! ## Every response -/

theorem Accounts.released (h : s.Accounts) : s.Released := by
  have hmem (response : ℕ) : response ∈ s.closed → response < s.opened := fun hclosed => by
    rw [← List.mem_range, ← h.opened]
    exact List.mem_append_left _ hclosed
  have hall (hheld : s.stage.held = none) : ∀ response < s.opened, response ∈ s.closed := fun response hlt => by
    have hrange := h.opened
    rw [hheld, Option.toList_none, List.append_nil] at hrange
    rw [hrange]
    exact List.mem_range.2 hlt
  constructor
  case once =>
    have hnodup : (s.closed ++ s.stage.held.toList).Nodup := by
      rw [h.opened]
      exact List.nodup_range
    exact (List.nodup_append.1 hnodup).1
  case opened => exact hmem
  case all =>
    rintro (hstage | hstage)
    · exact hall (by rw [hstage]; rfl)
    · exact hall (by rw [hstage]; rfl)
  case unpublished =>
    intro hclosed
    by_contra hpublished
    obtain ⟨response, hresponse⟩ := Option.ne_none_iff_exists'.1 hpublished
    have hheld := held_of_published (h.published response hresponse)
    have hopened : response ∈ List.range s.opened := by
      rw [← h.opened, hheld]
      exact List.mem_append_right _ List.mem_cons_self
    -- it would be closed and held
    have hnodup : (s.closed ++ s.stage.held.toList).Nodup := by
      rw [h.opened]
      exact List.nodup_range
    rw [hheld] at hnodup
    exact (List.nodup_append.1 hnodup).2.2 response (hclosed response (List.mem_range.1 hopened)) response
      List.mem_cons_self rfl

/-- In every run of the loop, whatever the transport, the streams, the handlers and callers of `close` do, every
response is closed exactly once in time, and a loop that ends without `close` leaves the client closed. -/
theorem responses_released (o : Options) (serverDelay : PyFloat) (lastEventId : Option Text) (trace : List LoopEvent)
    (s : ConnectionLoop) (h : run o (init serverDelay lastEventId) trace = some s) :
    s.Released ∧ ((∀ i, .close i ∉ trace) → s.stage = .ended → s.readyState = .closed) := by
  constructor
  · have haccounts : s.Accounts :=
      Transition.invariant_of_step (fun _ _ _ hs hstep => hs.handles (step_handles hstep))
        (accounts_init serverDelay lastEventId) h
    exact haccounts.released
  · intro hclose hstage
    have hobeys : Transition.Obeys (step o) (fun _ e => ∀ i, e ≠ .close i) (init serverDelay lastEventId) trace :=
      Transition.obeys_of_forall _ fun e he i heq => hclose i (heq ▸ he)
    have hunclosed : s.Unclosed :=
      Transition.invariant (fun _ _ _ hs he hstep => hs.step he hstep) (unclosed_init serverDelay lastEventId) hobeys h
    exact hunclosed.quits (by rw [hstage]; rfl)

/-- A request fails, one is answered with an error status, and one with a stream in which `on_connect` lets something
escape. -/
def threeRequests : List LoopEvent :=
  [.fails false, .goes, .returns, .goes, .answers none, .goes, .goes, .answers none, .goes,
    .opens 500, .goes, .goes, .goes, .goes, .goes, .goes, .answers none, .goes, .goes, .answers none, .goes,
    .opens 200, .goes, .goes, .goes, .goes, .goes, .goes, .goes, .exits, .goes, .goes, .goes, .goes]

theorem responses_released_three : ∃ s, run ⟨true, true, true, 10, 10, 10⟩ (init (.ofRat 2) none) threeRequests = some s ∧
    s.stage = .ended ∧ s.closed = [0, 1] ∧ s.Released ∧ s.readyState = .closed := by
  have hend : (run ⟨true, true, true, 10, 10, 10⟩ (init (.ofRat 2) none) threeRequests).map
      (fun s => (s.stage, s.closed)) = some (.ended, [0, 1]) := by decide +kernel
  obtain ⟨s, hrun, hlast⟩ := Option.map_eq_some_iff.1 hend
  obtain ⟨hstage, hclosed⟩ := Prod.mk.inj hlast
  obtain ⟨hreleased, hready⟩ :=
    responses_released ⟨true, true, true, 10, 10, 10⟩ (.ofRat 2) none threeRequests s hrun
  exact ⟨s, hrun, hstage, hclosed, hreleased, hready (fun i => by simp [threeRequests]) hstage⟩

end ConnectionLoop

end ConfigDirector.EventSource
