/-
`InMemoryConnection._deliver` by itself: any number of calls of it, on any threads and in handlers, with any
updates, where `_on_bundle` may return or let something escape. The flag that says that somebody delivers is
cleared at one end of the loop only, so what escapes leaves it set.
-/
import ConfigDirector.Testing.Convergence

namespace ConfigDirector.Testing

open Python Evaluation Client

/-! ## Model -/

/-- Where a call of `_deliver` is, once it has found that it is the one to deliver. -/
inductive Drawing (α : Type)
  /-- Out of the loop, or not called. -/
  | idle
  /-- Before the locked section that takes the next update. -/
  | popping
  /-- Before `_on_bundle`. -/
  | applying (update : α)
  /-- In `_on_bundle`. -/
  | notifying
deriving DecidableEq

structure DeliveryQueue (α : Type) where
  pending : List α
  delivering : Bool
  calls : ℕ → Drawing α
  /-- For the record: the updates queued and the ones given to `_on_bundle`, oldest first, and whether something
  has escaped. -/
  requested : List α
  delivered : List α
  escaped : Bool

inductive DeliveryStep (α : Type)
  /-- The first locked section of a call. -/
  | request (i : ℕ) (update : α)
  | take (i : ℕ)
  | apply (i : ℕ)
  | returns (i : ℕ)
  | escapes (i : ℕ)

variable {α : Type}

namespace DeliveryQueue

def init : DeliveryQueue α where
  pending := []
  delivering := false
  calls := fun _ => .idle
  requested := []
  delivered := []
  escaped := false

def setCall (s : DeliveryQueue α) (i : ℕ) (call : Drawing α) : DeliveryQueue α :=
  { s with calls := Function.update s.calls i call }

def step (s : DeliveryQueue α) : DeliveryStep α → Option (DeliveryQueue α)
  | .request i update =>
    match s.calls i with
    | .idle =>
      let queued := { s with pending := s.pending ++ [update], requested := s.requested ++ [update] }
      if s.delivering then some queued else some ({ queued with delivering := true }.setCall i .popping)
    | _ => none
  | .take i =>
    match s.calls i with
    | .popping =>
      match s.pending with
      | [] => some ({ s with delivering := false }.setCall i .idle)
      | update :: pending => some ({ s with pending }.setCall i (.applying update))
    | _ => none
  | .apply i =>
    match s.calls i with
    | .applying update => some ({ s with delivered := s.delivered ++ [update] }.setCall i .notifying)
    | _ => none
  | .returns i =>
    match s.calls i with
    | .notifying => some (s.setCall i .popping)
    | _ => none
  | .escapes i =>
    match s.calls i with
    | .notifying => some ({ s with escaped := true }.setCall i .idle)
    | _ => none

abbrev run : DeliveryQueue α → List (DeliveryStep α) → Option (DeliveryQueue α) := Transition.run step

/-! ## The property and the condition -/

/-- No call is in progress. -/
def Idle (s : DeliveryQueue α) : Prop := ∀ i, s.calls i = .idle

/-- One more call, with whatever other calls there are until all are over, delivers everything, unless something
escapes again. -/
def Resumes (s : DeliveryQueue α) : Prop :=
  ∀ i update steps s', s.run (.request i update :: steps) = some s' → (∀ j, .escapes j ∉ steps) → s'.Idle →
    s'.delivered = s'.requested

/-- What was delivered is what was requested, in that order and once each, up to what is under way; and when
no call is in progress all of it is delivered, or will be by a later call. -/
structure Delivers (s : DeliveryQueue α) : Prop where
  inOrder : s.delivered <+: s.requested
  all : s.Idle → s.delivered = s.requested ∨ s.Resumes

/-- Nothing is pending when something escapes, and no update is requested afterwards. -/
def Undisturbed (s : DeliveryQueue α) : DeliveryStep α → Prop
  | .request _ _ => s.escaped = false
  | .escapes i => s.calls i = .notifying → s.pending = []
  | _ => True

end DeliveryQueue

/-! ## The invariant -/

/-- The update a call has taken from the queue. -/
def Drawing.hand : Drawing α → List α
  | .applying update => [update]
  | _ => []

namespace DeliveryQueue

/-- A call delivers, and no other. -/
structure DrawnBy (s : DeliveryQueue α) (i : ℕ) : Prop where
  escaped : s.escaped = false
  delivering : s.delivering = true
  draws : s.calls i ≠ .idle
  others : ∀ j, j ≠ i → s.calls j = .idle

/-- Nobody delivers: because the queue is empty, or something has escaped. -/
structure Undrawn (s : DeliveryQueue α) : Prop where
  idle : s.Idle
  delivering : s.delivering = s.escaped
  pending : s.escaped = false → s.pending = []

/-- Everything requested is delivered, in the hand of the call that delivers or pending. -/
inductive Inv (s : DeliveryQueue α) : Prop
  | undrawn (h : s.Undrawn) (conserved : s.requested = s.delivered ++ s.pending)
  | drawn (i : ℕ) (h : s.DrawnBy i) (conserved : s.requested = s.delivered ++ ((s.calls i).hand ++ s.pending))

theorem inv_init : (init : DeliveryQueue α).Inv := .undrawn ⟨fun _ => rfl, rfl, fun _ => rfl⟩ rfl

variable {s s' : DeliveryQueue α}

theorem setCall_self (s : DeliveryQueue α) (i : ℕ) (call : Drawing α) : (s.setCall i call).calls i = call :=
  Function.update_self ..

theorem setCall_of_ne (s : DeliveryQueue α) {i j : ℕ} (h : j ≠ i) (call : Drawing α) :
    (s.setCall i call).calls j = s.calls j := Function.update_of_ne h ..

/-- What a step does. -/
inductive Moves (s : DeliveryQueue α) : DeliveryStep α → DeliveryQueue α → Prop
  | queued {i : ℕ} {update : α} (hcall : s.calls i = .idle) (hdelivering : s.delivering = true) :
    Moves s (.request i update)
      { s with pending := s.pending ++ [update], requested := s.requested ++ [update] }
  | begun {i : ℕ} {update : α} (hcall : s.calls i = .idle) (hdelivering : s.delivering = false) :
    Moves s (.request i update)
      ({ s with
        pending := s.pending ++ [update]
        requested := s.requested ++ [update]
        delivering := true }.setCall i .popping)
  | ended {i : ℕ} (hcall : s.calls i = .popping) (hpending : s.pending = []) :
    Moves s (.take i) ({ s with delivering := false }.setCall i .idle)
  | taken {i : ℕ} {update : α} {pending : List α} (hcall : s.calls i = .popping) (hpending : s.pending = update :: pending) :
    Moves s (.take i) ({ s with pending }.setCall i (.applying update))
  | applied {i : ℕ} {update : α} (hcall : s.calls i = .applying update) :
    Moves s (.apply i) ({ s with delivered := s.delivered ++ [update] }.setCall i .notifying)
  | returned {i : ℕ} (hcall : s.calls i = .notifying) : Moves s (.returns i) (s.setCall i .popping)
  | escaped {i : ℕ} (hcall : s.calls i = .notifying) :
    Moves s (.escapes i) ({ s with escaped := true }.setCall i .idle)

theorem step_moves {e : DeliveryStep α} (h : s.step e = some s') : s.Moves e s' := by
  cases e with
  | request i update =>
    rw [step] at h
    split at h
    · rename_i hcall
      split at h <;> rename_i hdelivering <;> cases h
      · exact .queued hcall hdelivering
      · exact .begun hcall (Bool.not_eq_true _ ▸ hdelivering)
    · cases h
  | take i =>
    rw [step] at h
    split at h
    · rename_i hcall
      split at h <;> rename_i hpending <;> cases h
      · exact .ended hcall hpending
      · exact .taken hcall hpending
    · cases h
  | apply i =>
    rw [step] at h
    split at h <;> cases h
    exact .applied ‹_›
  | returns i =>
    rw [step] at h
    split at h <;> cases h
    exact .returned ‹_›
  | escapes i =>
    rw [step] at h
    split at h <;> cases h
    exact .escaped ‹_›

theorem Moves.step {e : DeliveryStep α} (h : s.Moves e s') : s.step e = some s' := by
  cases h with
  | queued hcall hdelivering =>
    rw [DeliveryQueue.step, hcall]
    exact if_pos hdelivering
  | begun hcall hdelivering =>
    rw [DeliveryQueue.step, hcall]
    exact if_neg (by rw [hdelivering]; exact Bool.false_ne_true)
  | ended hcall hpending => rw [DeliveryQueue.step, hcall, hpending]
  | taken hcall hpending => rw [DeliveryQueue.step, hcall, hpending]
  | applied hcall => rw [DeliveryQueue.step, hcall]
  | returned hcall => rw [DeliveryQueue.step, hcall]
  | escaped hcall => rw [DeliveryQueue.step, hcall]

theorem Moves.run {e : DeliveryStep α} {es : List (DeliveryStep α)} (h : s.Moves e s') : s.run (e :: es) = s'.run es := by
  rw [DeliveryQueue.run, Transition.run, h.step]

theorem setCall_of_eq {i : ℕ} {call : Drawing α} (h : s.calls i = call) : s.setCall i call = s := by
  rw [setCall, ← h, Function.update_eq_self]

/-- Only the call that delivers is not idle. -/
theorem Inv.drawnBy (h : s.Inv) {i : ℕ} {call : Drawing α} (hcall : s.calls i = call) (hne : call ≠ .idle) :
    s.DrawnBy i ∧ s.requested = s.delivered ++ (call.hand ++ s.pending) := by
  subst hcall
  cases h with
  | undrawn h => exact absurd (h.idle i) hne
  | drawn k h conserved =>
    obtain rfl : i = k := by
      by_contra hik
      exact hne (h.others i hik)
    exact ⟨h, conserved⟩

/-- The call that delivers goes on. -/
theorem DrawnBy.setCall {i : ℕ} (h : s.DrawnBy i) {call : Drawing α} (hcall : call ≠ .idle)
    (hescaped : s'.escaped = s.escaped) (hdelivering : s'.delivering = s.delivering) (hcalls : s'.calls = s.calls) :
    (s'.setCall i call).DrawnBy i where
  escaped := hescaped.trans h.escaped
  delivering := hdelivering.trans h.delivering
  draws := by
    rw [setCall_self]
    exact hcall
  others := fun j hj => by
    rw [setCall_of_ne _ hj, hcalls]
    exact h.others j hj

/-- The call that delivers ends. -/
theorem DrawnBy.idle {i : ℕ} (h : s.DrawnBy i) (hcalls : s'.calls = s.calls) : (s'.setCall i .idle).Idle := fun j => by
  by_cases hj : j = i
  · subst hj
    exact setCall_self ..
  · rw [setCall_of_ne _ hj, hcalls]
    exact h.others j hj

theorem Inv.step {e : DeliveryStep α} (h : s.Inv) (hstep : s.step e = some s') : s'.Inv := by
  cases step_moves hstep with
  | queued hcall hdelivering =>
    cases h with
    | undrawn h conserved =>
      refine .undrawn ⟨h.idle, h.delivering, fun hescaped => ?_⟩ ?_
      · have hfalse := h.delivering.trans hescaped
        rw [hdelivering] at hfalse
        cases hfalse
      · simp only [conserved, List.append_assoc]
    | drawn k h conserved =>
      refine .drawn k ⟨h.escaped, h.delivering, h.draws, h.others⟩ ?_
      simp only [conserved, List.append_assoc]
  | @begun i _ hcall hdelivering =>
    cases h with
    | undrawn h conserved =>
      refine .drawn i ⟨h.delivering.symm.trans hdelivering, rfl, ?_, fun j hj => ?_⟩ ?_
      · rw [setCall_self]
        simp
      · rw [setCall_of_ne _ hj]
        exact h.idle j
      · rw [setCall_self]
        exact (congrArg (· ++ [_]) conserved).trans (List.append_assoc ..)
    | drawn k h conserved =>
      rw [h.delivering] at hdelivering
      cases hdelivering
  | ended hcall hpending =>
    obtain ⟨hdrawn, conserved⟩ := h.drawnBy hcall (by simp)
    exact .undrawn ⟨hdrawn.idle rfl, hdrawn.escaped.symm, fun _ => hpending⟩ conserved
  | taken hcall hpending =>
    obtain ⟨hdrawn, conserved⟩ := h.drawnBy hcall (by simp)
    refine .drawn _ (hdrawn.setCall (by simp) rfl rfl rfl) ?_
    rw [setCall_self]
    exact conserved.trans (congrArg (s.delivered ++ ·) hpending)
  | applied hcall =>
    obtain ⟨hdrawn, conserved⟩ := h.drawnBy hcall (by simp)
    refine .drawn _ (hdrawn.setCall (by simp) rfl rfl rfl) ?_
    rw [setCall_self]
    exact conserved.trans (List.append_assoc ..).symm
  | returned hcall =>
    obtain ⟨hdrawn, conserved⟩ := h.drawnBy hcall (by simp)
    refine .drawn _ (hdrawn.setCall (by simp) rfl rfl rfl) ?_
    rw [setCall_self]
    exact conserved
  | escaped hcall =>
    obtain ⟨hdrawn, conserved⟩ := h.drawnBy hcall (by simp)
    exact .undrawn ⟨hdrawn.idle rfl, hdrawn.delivering, fun h => (by cases h)⟩ conserved

/-! ## Wedged or not -/

/-- The property holds unless something has escaped and left updates pending. -/
theorem Inv.delivers_iff (h : s.Inv) : s.Delivers ↔ (s.escaped = true → s.pending = []) := by
  constructor
  · rintro ⟨-, hall⟩ hescaped
    cases h with
    | drawn i h =>
      rw [h.escaped] at hescaped
      cases hescaped
    | undrawn h conserved =>
      rcases hall h.idle with heq | hresumes
      · rw [← heq, List.self_eq_append_right] at conserved
        exact conserved
      · -- the flag is set, so another call returns at once
        by_contra hpending
        obtain ⟨update, -⟩ := List.exists_mem_of_ne_nil _ hpending
        have hstep : s.step (.request 0 update) =
            some { s with pending := s.pending ++ [update], requested := s.requested ++ [update] } := by
          rw [DeliveryQueue.step, h.idle 0]
          exact if_pos (h.delivering.trans hescaped)
        have hrun : s.run [.request 0 update] =
            some { s with pending := s.pending ++ [update], requested := s.requested ++ [update] } := by
          rw [run, Transition.run, hstep]
          rfl
        have heq : s.delivered = s.requested ++ [update] :=
          hresumes 0 update [] _ hrun (fun j => List.not_mem_nil) h.idle
        rw [conserved, List.append_assoc, List.self_eq_append_right] at heq
        exact List.append_ne_nil_of_right_ne_nil _ (List.cons_ne_nil _ _) heq
  · intro hpending
    cases h with
    | drawn i h conserved => exact ⟨⟨_, conserved.symm⟩, fun hidle => absurd (hidle i) h.draws⟩
    | undrawn h conserved =>
      have hnil : s.pending = [] := by
        cases hescaped : s.escaped with
        | false => exact h.pending hescaped
        | true => exact hpending hescaped
      refine ⟨⟨_, conserved.symm⟩, fun _ => .inl ?_⟩
      rw [conserved, hnil, List.append_nil]

/-- A step keeps the property if and only if it meets the condition. -/
theorem Inv.step_delivers {e : DeliveryStep α} (h : s.Inv) (hstep : s.step e = some s') :
    s'.Delivers ↔ s.Undisturbed e := by
  rw [(h.step hstep).delivers_iff]
  have hdrawn {i : ℕ} {call : Drawing α} (hcall : s.calls i = call) (hne : call ≠ .idle) : s.escaped = false :=
    (h.drawnBy hcall hne).1.escaped
  have hrequest (update : α) : (s.escaped = true → s.pending ++ [update] = []) ↔ s.escaped = false := by
    cases s.escaped <;> simp
  have hgoes (hescaped : s.escaped = false) {pending : List α} : (s.escaped = true → pending = []) ↔ True := by
    rw [hescaped]
    exact iff_of_true (fun h => (by cases h)) trivial
  cases step_moves hstep with
  | queued hcall hdelivering => exact hrequest _
  | begun hcall hdelivering => exact hrequest _
  | ended hcall hpending => exact hgoes (hdrawn hcall (by simp))
  | taken hcall hpending => exact hgoes (hdrawn hcall (by simp))
  | applied hcall => exact hgoes (hdrawn hcall (by simp))
  | returned hcall => exact hgoes (hdrawn hcall (by simp))
  | escaped hcall => exact ⟨fun h _ => h rfl, fun h _ => h hcall⟩

/-- A step that is not possible meets the condition. -/
theorem Inv.stuck {e : DeliveryStep α} (h : s.Inv) (hstep : s.step e = none) : s.Undisturbed e := by
  cases e with
  | request i update =>
    by_cases hcall : s.calls i = .idle
    · rw [DeliveryQueue.step, hcall] at hstep
      simp only at hstep
      split at hstep <;> cases hstep
    · exact (h.drawnBy rfl hcall).1.escaped
  | escapes i =>
    intro hcall
    rw [DeliveryQueue.step, hcall] at hstep
    cases hstep
  | _ => trivial

/-- In a run of calls every update requested is delivered once, in the order requested, by the call or a later one,
exactly if nothing escapes while something is pending and nothing is requested after something has escaped. -/
theorem delivers_iff_undisturbed (trace : List (DeliveryStep α)) :
    Transition.Always step Delivers init trace ↔ Transition.Obeys step Undisturbed init trace :=
  Transition.always_iff_obeys (fun _ _ _ h hstep => h.step hstep) (fun _ _ _ h _ hstep => h.step_delivers hstep)
    (fun _ _ h hstep => h.stuck hstep) inv_init (inv_init.delivers_iff.2 fun h => (by cases h))

/-- Something escapes from the delivery of an update, and another is requested. -/
def escapesOnce : List (DeliveryStep ℕ) := [.request 0 1, .take 0, .apply 0, .escapes 0, .request 0 2]

/-- The second is never delivered. -/
theorem escape_wedges : ¬ ∀ trace : List (DeliveryStep ℕ), Transition.Always step Delivers init trace := by
  intro hall
  obtain ⟨s, hrun, hescaped, hpending⟩ : ∃ s, run init escapesOnce = some s ∧ s.escaped = true ∧ s.pending = [2] :=
    ⟨_, rfl, rfl, rfl⟩
  have hdelivers := Transition.always_iff.1 (hall escapesOnce) escapesOnce [] s (List.append_nil _).symm hrun
  have hinv : s.Inv := Transition.invariant_of_step (fun _ _ _ h hstep => h.step hstep) inv_init hrun
  have hnil := hinv.delivers_iff.1 hdelivers hescaped
  rw [hpending] at hnil
  cases hnil

end DeliveryQueue

/-! ## The updates of an in-memory connection -/

/-- Where a call is in `_deliver`. -/
def Call.drawing : Call → Drawing ConfigBundle
  | .delivering .popping _ => .popping
  | .delivering (.applying update) _ => .applying update
  | .delivering .notifying _ => .notifying
  | _ => .idle

/-- What the next step of a call is for the queue. A client that is closed ignores what it is given. -/
def Call.deliverySteps (call : Call) (closed : Bool) (i : ℕ) : List (DeliveryStep ConfigBundle) :=
  match call with
  | .delivering (.enqueueing update) _ => [.request i update]
  | .delivering .popping _ => [.take i]
  | .delivering (.applying _) _ => if closed then [.apply i, .returns i] else [.apply i]
  | .delivering .notifying _ => [.returns i]
  | _ => []

namespace InMemoryConnection

/-- What a step of a connection is for the queue. -/
def deliverySteps (s : InMemoryConnection) : ConnectionStep → List (DeliveryStep ConfigBundle)
  | .go i => (s.calls i).deliverySteps s.client.closed i
  | .escape i => [.escapes i]
  | _ => []

structure Refines (s : InMemoryConnection) (d : DeliveryQueue ConfigBundle) : Prop where
  pending : d.pending = s.pending
  delivering : d.delivering = s.delivering
  calls : ∀ i, d.calls i = (s.calls i).drawing

/-- The queue and the calls that deliver are the same. -/
structure SameQueue (s s' : InMemoryConnection) : Prop where
  pending : s'.pending = s.pending
  delivering : s'.delivering = s.delivering
  drawing : ∀ i, (s'.calls i).drawing = (s.calls i).drawing

variable {s s' s'' : InMemoryConnection} {i : ℕ}

theorem SameFlow.sameQueue (h : SameFlow s s') : SameQueue s s' :=
  ⟨h.pending, h.delivering, fun i => by rw [h.calls]⟩

theorem SameQueue.refl (s : InMemoryConnection) : SameQueue s s := ⟨rfl, rfl, fun _ => rfl⟩

theorem SameQueue.trans (h₁ : SameQueue s s') (h₂ : SameQueue s' s'') : SameQueue s s'' :=
  ⟨h₂.pending.trans h₁.pending, h₂.delivering.trans h₁.delivering, fun i => (h₂.drawing i).trans (h₁.drawing i)⟩

theorem SameQueue.setCall (h : SameQueue s s') {call : Call} (hcall : (s.calls i).drawing = call.drawing) :
    SameQueue s (s'.setCall i call) where
  pending := h.pending
  delivering := h.delivering
  drawing := fun j => by
    by_cases hj : j = i
    · subst hj
      rw [setCall_self, hcall]
    · rw [setCall_of_ne _ hj, h.drawing j]

theorem SameQueue.dispatch (h : SameQueue s s') (hidle : (s.calls i).drawing = .idle) (update : ConfigBundle)
    (completes : Option ℕ) : SameQueue s (s'.dispatch i update completes) := by
  have hcall : SameQueue s (s'.setCall i (.delivering (.enqueueing update) completes)) := h.setCall hidle
  exact ⟨hcall.pending, hcall.delivering, hcall.drawing⟩

theorem SameQueue.dispatchIfConnected (h : SameQueue s s') (hidle : (s.calls i).drawing = .idle) (update : ConfigBundle) :
    SameQueue s (s'.dispatchIfConnected i update) := by
  unfold InMemoryConnection.dispatchIfConnected
  split
  · exact h.dispatch hidle update none
  · exact h

theorem Refines.sameQueue {d : DeliveryQueue ConfigBundle} (h : Refines s d) (hsame : SameQueue s s') : Refines s' d :=
  ⟨h.pending.trans hsame.pending.symm, h.delivering.trans hsame.delivering.symm,
    fun i => (h.calls i).trans (hsame.drawing i).symm⟩

theorem Refines.setCall {d : DeliveryQueue ConfigBundle} (h : Refines s d) (i : ℕ) (call : Call) :
    Refines (s.setCall i call) (d.setCall i call.drawing) where
  pending := h.pending
  delivering := h.delivering
  calls := fun j => by
    by_cases hj : j = i
    · subst hj
      rw [setCall_self, DeliveryQueue.setCall_self]
    · rw [setCall_of_ne _ hj, DeliveryQueue.setCall_of_ne _ hj, h.calls j]

/-- A call that does not deliver, or is done with it. -/
theorem Refines.delivered {d : DeliveryQueue ConfigBundle} (h : Refines s d) (i : ℕ) (completes : Option ℕ) :
    Refines (s.delivered i completes) (d.setCall i .idle) := by
  cases completes with
  | none => exact h.setCall i .idle
  | some attempt => exact h.setCall i (.completing attempt)

theorem setCall_setCall (s : InMemoryConnection) (i : ℕ) (call call' : Call) :
    (s.setCall i call).setCall i call' = s.setCall i call' := by
  simp only [InMemoryConnection.setCall, Function.update_idem]

theorem sameQueue_setValue [Unicode] (hidle : (s.calls i).drawing = .idle) (key value : PyValue) :
    SameQueue s (s.setValue i key value) := by
  unfold setValue
  split
  · rename_i definition _
    have hstored : SameQueue s { s with configs := s.configs.set definition.key definition } := ⟨rfl, rfl, fun _ => rfl⟩
    exact hstored.dispatchIfConnected hidle _
  · exact .refl s

theorem sameQueue_removeValue (hidle : (s.calls i).drawing = .idle) (key : PyValue) :
    SameQueue s (s.removeValue i key) := by
  unfold removeValue
  split
  · rename_i key _
    have hstored : SameQueue s { s with configs := s.configs.erase key } := ⟨rfl, rfl, fun _ => rfl⟩
    exact hstored.dispatchIfConnected hidle _
  · exact .refl s

theorem sameQueue_replaceValues [Unicode] (hidle : (s.calls i).drawing = .idle) (values : Dict Text PyValue) :
    SameQueue s (s.replaceValues i values) := by
  unfold replaceValues
  split
  · rename_i configs _
    have hstored : SameQueue s { s with configs, armed := none } := ⟨rfl, rfl, fun _ => rfl⟩
    exact hstored.dispatchIfConnected hidle _
  · exact .refl s

theorem SameQueue.settle (h : SameQueue s s') (attempt : Option ℕ) (outcome : Outcome) :
    SameQueue s (s'.settle attempt outcome) :=
  h.trans (sameFlow_settle s' attempt outcome).sameQueue

theorem sameQueue_completeInitialization (hidle : (s.calls i).drawing = .idle) :
    SameQueue s (s.completeInitialization i) := by
  unfold completeInitialization
  split
  · have hconnected : SameQueue s { s with held := none, connected := true } := ⟨rfl, rfl, fun _ => rfl⟩
    exact hconnected.dispatch hidle _ _
  · split
    · exact ⟨rfl, rfl, fun _ => rfl⟩
    · exact .refl s

theorem sameQueue_failInitialization (s : InMemoryConnection) : SameQueue s s.failInitialization := by
  unfold failInitialization
  split
  · have hheld : SameQueue s { s with held := none } := ⟨rfl, rfl, fun _ => rfl⟩
    exact hheld.settle _ _
  · exact ⟨rfl, rfl, fun _ => rfl⟩

/-- What is held and the results of the attempts are no part of the queue. -/
theorem SameQueue.record (h : SameQueue s s') (held : Option ℕ) (attempts : List (Option Outcome)) :
    SameQueue s { s' with held, attempts } := ⟨h.pending, h.delivering, h.drawing⟩

theorem sameQueue_connect (hidle : (s.calls i).drawing = .idle) : SameQueue s (s.connect i) := by
  have hended : SameQueue s { s with connected := false, held := none, armed := none } := ⟨rfl, rfl, fun _ => rfl⟩
  have hsettled := hended.settle s.held .ended
  unfold connect
  simp only
  split
  · exact (hsettled.record _ _).setCall hidle
  · exact hsettled
  · exact hsettled.setCall hidle

theorem sameQueue_endAttempt (s : InMemoryConnection) (attempt : ℕ) : SameQueue s (s.endAttempt attempt) := by
  unfold endAttempt
  split
  · have hheld : SameQueue s { s with held := none } := ⟨rfl, rfl, fun _ => rfl⟩
    exact hheld.settle _ _
  · exact .refl s

theorem Refines.go {d : DeliveryQueue ConfigBundle} (h : Refines s d) (hgo : s.go i = some s') :
    ∃ d', d.run (s.deliverySteps (.go i)) = some d' ∧ Refines s' d' := by
  have hcalls := h.calls i
  unfold InMemoryConnection.go at hgo
  rw [deliverySteps]
  split at hgo <;> rename_i hcall <;> rw [hcall] at hcalls ⊢
  · cases hgo
  · cases hgo
    have hsame : SameQueue s { s with connected := true } := ⟨rfl, rfl, fun _ => rfl⟩
    exact ⟨d, rfl, h.sameQueue (hsame.dispatch (by rw [hcall]; rfl) _ _)⟩
  · split at hgo
    · cases hgo
      exact ⟨d, rfl, h.sameQueue ((SameQueue.refl s).setCall (by rw [hcall]; rfl))⟩
    · cases hgo
  · rename_i update completes
    split at hgo <;> rename_i hdelivering <;> cases hgo
    · have hqueued : Refines
          { s with pending := s.pending ++ [update], unqueued := s.unqueued.filter fun p => p.1 ≠ i }
          { d with pending := d.pending ++ [update], requested := d.requested ++ [update] } :=
        ⟨congrArg (· ++ [update]) h.pending, h.delivering, h.calls⟩
      have hidle := DeliveryQueue.setCall_of_eq
        (s := { d with pending := d.pending ++ [update], requested := d.requested ++ [update] }) hcalls
      refine ⟨_, (DeliveryQueue.Moves.queued hcalls (h.delivering.trans hdelivering)).run, ?_⟩
      rw [← hidle]
      exact hqueued.delivered i completes
    · have hqueued : Refines
          { s with
            pending := s.pending ++ [update]
            delivering := true
            unqueued := s.unqueued.filter fun p => p.1 ≠ i }
          { d with pending := d.pending ++ [update], requested := d.requested ++ [update], delivering := true } :=
        ⟨congrArg (· ++ [update]) h.pending, rfl, h.calls⟩
      exact ⟨_, (DeliveryQueue.Moves.begun hcalls (h.delivering.trans (Bool.not_eq_true _ ▸ hdelivering))).run,
        hqueued.setCall i (.delivering .popping completes)⟩
  · rename_i completes
    split at hgo <;> rename_i hpending <;> cases hgo
    · have hended : Refines { s with delivering := false } { d with delivering := false } := ⟨h.pending, rfl, h.calls⟩
      exact ⟨_, (DeliveryQueue.Moves.ended hcalls (h.pending.trans hpending)).run, hended.delivered i completes⟩
    · rename_i update pending
      have htaken : Refines { s with pending } { d with pending } := ⟨rfl, h.delivering, h.calls⟩
      exact ⟨_, (DeliveryQueue.Moves.taken hcalls (h.pending.trans hpending)).run,
        htaken.setCall i (.delivering (.applying update) completes)⟩
  · rename_i update completes
    have happly := DeliveryQueue.Moves.applied hcalls
    rw [Call.deliverySteps]
    split at hgo <;> rename_i hclient <;> cases hgo
    · rename_i client _
      have hopen : s.client.closed = false := by
        by_contra hclosed
        rw [ClientState.onBundle, if_pos (Bool.not_eq_false _ ▸ hclosed)] at hclient
        cases hclient
      have happlied : Refines { s with client } { d with delivered := d.delivered ++ [update] } :=
        ⟨h.pending, h.delivering, h.calls⟩
      rw [hopen, if_neg Bool.false_ne_true]
      exact ⟨_, happly.run, happlied.setCall i (.delivering .notifying completes)⟩
    · have hclosed : s.client.closed = true := by
        by_contra hopen
        rw [ClientState.onBundle, if_neg hopen] at hclient
        cases hclient
      have happlied : Refines s { d with delivered := d.delivered ++ [update] } := ⟨h.pending, h.delivering, h.calls⟩
      have hnotified := happlied.setCall i (.delivering .notifying completes)
      have hreturn := DeliveryQueue.Moves.returned (hnotified.calls i |>.trans (congrArg Call.drawing (setCall_self ..)))
      rw [hclosed, if_pos rfl, happly.run]
      refine ⟨_, hreturn.run, ?_⟩
      rw [← setCall_setCall s i (.delivering .notifying completes)]
      exact hnotified.setCall i (.delivering .popping completes)
  · rename_i completes
    cases hgo
    exact ⟨_, (DeliveryQueue.Moves.returned hcalls).run, h.setCall i (.delivering .popping completes)⟩
  · rename_i attempt
    cases hgo
    exact ⟨d, rfl, h.sameQueue (((SameQueue.refl s).settle _ _).setCall (by rw [hcall]; rfl))⟩

theorem refines_init (configs : Dict Text (Config PyFloat)) (handlers : ClientEvent → List ℕ) :
    Refines (init configs handlers) .init := ⟨rfl, rfl, fun _ => rfl⟩

variable [Unicode]

theorem Refines.step {d : DeliveryQueue ConfigBundle} {e : ConnectionStep} (h : Refines s d) (hstep : s.step e = some s') :
    ∃ d', d.run (s.deliverySteps e) = some d' ∧ Refines s' d' := by
  have hcalled {i : ℕ} {called : InMemoryConnection} (hbegin : s.begin i called = some s')
      (hsame : (s.calls i).drawing = .idle → SameQueue s called) : ∃ d', d.run [] = some d' ∧ Refines s' d' := by
    unfold InMemoryConnection.begin at hbegin
    split at hbegin
    · rename_i hidle
      cases hbegin
      exact ⟨d, rfl, h.sameQueue (hsame (by rw [hidle]; rfl))⟩
    · cases hbegin
  cases e with
  | setValue i key value => exact hcalled hstep fun hidle => sameQueue_setValue hidle key value
  | removeValue i key => exact hcalled hstep fun hidle => sameQueue_removeValue hidle key
  | replaceValues i values => exact hcalled hstep fun hidle => sameQueue_replaceValues hidle values
  | holdInitialization =>
    cases hstep
    exact ⟨d, rfl, h.pending, h.delivering, h.calls⟩
  | completeInitialization i => exact hcalled hstep sameQueue_completeInitialization
  | failInitialization =>
    cases hstep
    exact ⟨d, rfl, h.sameQueue (sameQueue_failInitialization s)⟩
  | connect i => exact hcalled hstep sameQueue_connect
  | go i => exact h.go hstep
  | timeOut i =>
    rw [InMemoryConnection.step] at hstep
    split at hstep
    · rename_i attempt hcall
      cases hstep
      exact ⟨d, rfl, h.sameQueue ((sameQueue_endAttempt s attempt).setCall (by rw [hcall]; rfl))⟩
    · cases hstep
  | escape i =>
    rw [InMemoryConnection.step] at hstep
    split at hstep
    · rename_i hcall
      cases hstep
      have hdrawing := (h.calls i).trans (congrArg Call.drawing hcall)
      have hescaped : Refines s { d with escaped := true } := ⟨h.pending, h.delivering, h.calls⟩
      exact ⟨_, (DeliveryQueue.Moves.escaped hdrawing).run, hescaped.setCall i .idle⟩
    · cases hstep
  | perform op => cases op <;> cases hstep <;> exact ⟨d, rfl, h.pending, h.delivering, h.calls⟩

/-- What the steps of a run are for the queue. -/
def deliveryTrace (s : InMemoryConnection) : List ConnectionStep → List (DeliveryStep ConfigBundle)
  | [] => []
  | e :: es =>
    match s.step e with
    | some s' => s.deliverySteps e ++ s'.deliveryTrace es
    | none => []

/-- The queue of a connection does in every run what the queue by itself does in a run of the same deliveries. -/
theorem Refines.run : ∀ {s s' : InMemoryConnection} {d : DeliveryQueue ConfigBundle} {trace : List ConnectionStep},
    Refines s d → Transition.run InMemoryConnection.step s trace = some s' →
    ∃ d', d.run (s.deliveryTrace trace) = some d' ∧ Refines s' d'
  | _, _, d, [], h, hrun => by
    cases hrun
    exact ⟨d, rfl, h⟩
  | s, s', d, e :: es, h, hrun => by
    obtain ⟨s₁, hstep, hrest⟩ := Transition.run_cons hrun
    obtain ⟨d₁, hfirst, h₁⟩ := h.step hstep
    obtain ⟨d', hlast, h'⟩ := h₁.run hrest
    rw [deliveryTrace, hstep]
    exact ⟨d', Transition.run_of_append hfirst hlast, h'⟩

/-- So the queue of a connection is always one that calls of `_deliver` by themselves reach. -/
theorem refines_of_run {configs : Dict Text (Config PyFloat)} {handlers : ClientEvent → List ℕ} {s : InMemoryConnection}
    {trace : List ConnectionStep} (h : Transition.run InMemoryConnection.step (init configs handlers) trace = some s) :
    ∃ d, DeliveryQueue.init.run ((init configs handlers).deliveryTrace trace) = some d ∧ Refines s d :=
  (refines_init configs handlers).run h

/-- While nothing has escaped, a connection no call of which is under way has nothing left to deliver. -/
theorem pending_of_run {configs : Dict Text (Config PyFloat)} {handlers : ClientEvent → List ℕ} {s : InMemoryConnection}
    {trace : List ConnectionStep} (h : Transition.run InMemoryConnection.step (init configs handlers) trace = some s)
    (hidle : ∀ i, (s.calls i).drawing = .idle) :
    ∃ d, DeliveryQueue.init.run ((init configs handlers).deliveryTrace trace) = some d ∧
      (d.escaped = false → s.pending = [] ∧ d.delivered = d.requested) := by
  obtain ⟨d, hrun, hrefines⟩ := refines_of_run h
  refine ⟨d, hrun, fun hescaped => ?_⟩
  have hinv : d.Inv := Transition.invariant_of_step (fun _ _ _ hd hstep => hd.step hstep) DeliveryQueue.inv_init hrun
  cases hinv with
  | undrawn hundrawn hconserved =>
    have hpending := hundrawn.pending hescaped
    refine ⟨hrefines.pending.symm.trans hpending, ?_⟩
    rw [hconserved, hpending, List.append_nil]
  | drawn i hdrawn => exact absurd ((hrefines.calls i).trans (hidle i)) hdrawn.draws

end InMemoryConnection

end ConfigDirector.Testing
