/-
`close()` against `initialize()` in polling mode. The threads are interleaved at the lock-protected
sections and single attribute accesses of the code; waits, fetches and joins may end at any time. The
stop event is one for the life of the transport and is cleared by whoever starts a polling thread, so
what matters is whether a thread is started after `close()` has set it.
-/
import ConfigDirector.Machine.Transition

namespace ConfigDirector.Transport

/-! ## Model -/

/-- `PollingTransport.close`, before each of its steps: `_thread` is taken under the lock, the stop event
is set, the thread is joined. -/
inductive PollingClose
  | takeThread
  | setStop
  | join
deriving DecidableEq

/-- `initialize`, before each of its steps. -/
inductive PollingOpener
  | uncalled
  | checkClosed
  | fetch
  /-- `_fail_fatally` closes the transport. -/
  | failing (next : PollingClose)
  | checkFatal
  | startPolling
  | wait
deriving DecidableEq

/-- A polling thread. -/
inductive Poller
  | unstarted
  | polling
  | failing (next : PollingClose)
  | left
deriving DecidableEq

def Poller.isAlive : Poller → Bool
  | polling | failing _ => true
  | _ => false

/-- The client's `close`, before each of its steps. -/
inductive PollingCloser
  | uncalled
  | closing (next : PollingClose)
  | returned
deriving DecidableEq

structure PollingThreads where
  /-- Whether the polling interval is positive. -/
  polls : Bool
  closed : Bool
  fatal : Bool
  stop : Bool
  thread : Option ℕ
  /-- The polling threads, by the order of their starts. -/
  pollers : ℕ → Poller
  started : ℕ
  opener : PollingOpener
  closer : PollingCloser

/-- The next step of one of the threads. `fails` is asked when a fetch ends: whether it has failed
unrecoverably. -/
inductive PollingStep
  | opener (fails : Bool)
  | closer
  | poller (i : ℕ) (fails : Bool)

namespace PollingThreads

/-- A client that has just been built. -/
def init (polls : Bool) : PollingThreads where
  polls := polls
  closed := false
  fatal := false
  stop := false
  thread := none
  pollers := fun _ => .unstarted
  started := 0
  opener := .uncalled
  closer := .uncalled

def setPoller (s : PollingThreads) (i : ℕ) (poller : Poller) : PollingThreads :=
  { s with pollers := fun j => if j = i then poller else s.pollers j }

/-- A step of `PollingTransport.close`, on whatever thread it runs, and the next one. -/
def closeStep (s : PollingThreads) : PollingClose → PollingThreads × Option PollingClose
  | .takeThread => ({ s with thread := none }, some .setStop)
  | .setStop => ({ s with stop := true }, some .join)
  | .join => (s, none)

/-- The locked section of `_start_polling`. -/
def startPolling (s : PollingThreads) : PollingThreads :=
  if !s.polls || s.thread.isSome then s
  else { s.setPoller s.started .polling with
    stop := false
    thread := some s.started
    started := s.started + 1 }

/-- `initialize`, which can be called again once it has returned. -/
def openerStep (s : PollingThreads) (fails : Bool) : PollingThreads :=
  match s.opener with
  | .uncalled => { s with opener := .checkClosed }
  | .checkClosed => { s with opener := if s.closed then .uncalled else .fetch }
  | .fetch =>
    if fails then { s with fatal := true, opener := .failing .takeThread }
    else { s with opener := .checkFatal }
  | .failing next =>
    match s.closeStep next with
    | (s, some next) => { s with opener := .failing next }
    | (s, none) => { s with opener := .checkFatal }
  | .checkFatal => { s with opener := if s.fatal then .uncalled else .startPolling }
  | .startPolling => { s.startPolling with opener := .wait }
  | .wait => { s with opener := .uncalled }

def step (s : PollingThreads) : PollingStep → Option PollingThreads
  | .opener fails => some (s.openerStep fails)
  | .closer =>
    match s.closer with
    | .uncalled => some { s with closed := true, closer := .closing .takeThread }
    | .closing next =>
      match s.closeStep next with
      | (s, some next) => some { s with closer := .closing next }
      | (s, none) => some { s with closer := .returned }
    | .returned => none
  | .poller i fails =>
    match s.pollers i with
    | .polling =>
      if fails then some { s.setPoller i (.failing .takeThread) with fatal := true }
      else some (s.setPoller i .left)
    | .failing next =>
      match s.closeStep next with
      | (s, some next) => some (s.setPoller i (.failing next))
      | (s, none) => some (s.setPoller i .left)
    | _ => none

/-! ## No thread after the close -/

/-- `close()` has set the stop event. -/
def HasStopped (s : PollingThreads) : Prop := s.closer = .closing .join ∨ s.closer = .returned

instance (s : PollingThreads) : Decidable s.HasStopped :=
  inferInstanceAs (Decidable (s.closer = .closing .join ∨ s.closer = .returned))

/-- Both calls have returned. -/
def Returned (s : PollingThreads) : Prop := s.opener = .uncalled ∧ s.closer = .returned

/-- No polling thread is left running with its stop event clear. -/
def Quiet (s : PollingThreads) : Prop := ∀ i, (s.pollers i).isAlive = true → s.stop = true

/-- `_start_polling` does not start a thread once `close()` has set the stop event. -/
def NotRestarted (s : PollingThreads) : PollingStep → Prop
  | .opener _ => s.opener = .startPolling → s.polls = true → s.thread = none → ¬ s.HasStopped
  | _ => True

instance (s : PollingThreads) : ∀ e, Decidable (s.NotRestarted e)
  | .opener _ =>
    inferInstanceAs (Decidable (s.opener = .startPolling → s.polls = true → s.thread = none → ¬ s.HasStopped))
  | .closer => inferInstanceAs (Decidable True)
  | .poller _ _ => inferInstanceAs (Decidable True)

/-- What guarded steps keep: the stop event stays set once `close()` has set it. -/
def Stopped (s : PollingThreads) : Prop := s.HasStopped → s.stop = true

theorem startPolling_stop {s : PollingThreads} (h : s.polls = true → s.thread ≠ none) : s.startPolling = s := by
  unfold startPolling
  cases hpolls : s.polls with
  | false => rfl
  | true =>
    rw [if_pos]
    simpa [Option.isSome_iff_ne_none] using h hpolls

/-- No step of `initialize` but the start of a thread clears the stop event. -/
theorem openerStep_stop {s : PollingThreads} {fails : Bool} (hguard : NotRestarted s (.opener fails))
    (hstopped : s.HasStopped) (h : s.stop = true) : (s.openerStep fails).stop = true := by
  unfold openerStep
  cases hpc : s.opener with
  | uncalled => exact h
  | checkClosed => exact h
  | fetch => cases fails <;> exact h
  | failing next => cases next <;> first | exact h | rfl
  | checkFatal => exact h
  | startPolling =>
    -- the guard leaves only the call that finds a thread, or polls not at all
    have hno : s.startPolling = s := startPolling_stop fun hpolls hthread => hguard hpc hpolls hthread hstopped
    simp only [hno]
    exact h
  | wait => exact h

theorem openerStep_closer (s : PollingThreads) (fails : Bool) : (s.openerStep fails).closer = s.closer := by
  unfold openerStep
  cases s.opener with
  | fetch => cases fails <;> rfl
  | failing next => cases next <;> rfl
  | startPolling =>
    simp only [startPolling]
    split <;> rfl
  | _ => rfl

theorem Stopped.step {s s' : PollingThreads} {e : PollingStep} (h : s.Stopped) (hguard : s.NotRestarted e)
    (hstep : s.step e = some s') : s'.Stopped := by
  cases e with
  | opener fails =>
    cases hstep
    intro hstopped
    unfold HasStopped at hstopped
    rw [openerStep_closer] at hstopped
    exact openerStep_stop hguard hstopped (h hstopped)
  | closer =>
    rw [PollingThreads.step] at hstep
    cases hpc : s.closer with
    | uncalled =>
      rw [hpc] at hstep
      cases hstep
      rintro (hjoin | hreturned)
      · cases hjoin
      · cases hreturned
    | closing next =>
      rw [hpc] at hstep
      cases next with
      | takeThread =>
        cases hstep
        rintro (hjoin | hreturned)
        · cases hjoin
        · cases hreturned
      | setStop =>
        -- the step that makes it true
        cases hstep
        intro _
        rfl
      | join =>
        cases hstep
        intro _
        exact h (.inl hpc)
    | returned =>
      rw [hpc] at hstep
      cases hstep
  | poller i fails =>
    rw [PollingThreads.step] at hstep
    cases hpc : s.pollers i with
    | polling =>
      rw [hpc] at hstep
      cases fails <;> cases hstep <;> exact h
    | failing next =>
      rw [hpc] at hstep
      cases next <;> cases hstep
      · exact h
      · intro _
        rfl
      · exact h
    | _ =>
      rw [hpc] at hstep
      cases hstep

/-- After any guarded run, once both calls have returned, no polling thread is left running. -/
theorem quiet_of_notRestarted {polls : Bool} {steps : List PollingStep} {s : PollingThreads}
    (hguard : Transition.Obeys step NotRestarted (init polls) steps)
    (hrun : Transition.run step (init polls) steps = some s) (hreturned : s.Returned) : s.Quiet := by
  have hinit : (init polls).Stopped := by
    rintro (hjoin | hreturned)
    · cases hjoin
    · cases hreturned
  have hstopped : s.Stopped := Transition.invariant (fun _ _ _ h hg hs => h.step hg hs) hinit hguard hrun
  intro i _
  exact hstopped (.inr hreturned.2)

end PollingThreads

end ConfigDirector.Transport
