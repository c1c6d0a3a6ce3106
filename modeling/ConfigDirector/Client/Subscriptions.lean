/-
The subscriptions of event handlers. `on` keeps the handler in a list and returns a `Subscription` that
removes the first handler equal to it; next to the client runs a ledger of what has become of each
registration, by which the list would be kept if a subscription removed its own.
-/
import ConfigDirector.Client.Operations
import ConfigDirector.Machine.Transition

namespace ConfigDirector.Client

/-! ## Model -/

/-- A `Subscription` returned by `on`: what its `_cancel` removes, and `_closed`. -/
structure Subscription where
  event : ClientEvent
  handler : ℕ
  closed : Bool

/-- The client, with the subscriptions `on` has returned. -/
structure Subscribed where
  store : ClientState
  subscriptions : List Subscription

/-- A call on the client, or of the `close` of one of the subscriptions. -/
inductive HandlerCall
  | on (event : ClientEvent) (handler : ℕ)
  | off (event : ClientEvent) (handler : Option ℕ)
  | close (i : ℕ)

namespace Subscribed

/-- A client that has just been built; its hooks are attached by `on`. -/
def init : Subscribed := ⟨.init fun _ => [], []⟩

/-- `Subscription.close`. -/
def closeSubscription (s : Subscribed) (i : ℕ) (sub : Subscription) : Subscribed :=
  if sub.closed then s
  else ⟨s.store.removeHandler sub.event sub.handler, s.subscriptions.set i { sub with closed := true }⟩

/-- One call; a subscription is there to be closed once `on` has returned it. -/
def step (s : Subscribed) : HandlerCall → Option Subscribed
  | .on event handler => some ⟨s.store.on event handler, s.subscriptions ++ [⟨event, handler, false⟩]⟩
  | .off event handler => some { s with store := s.store.off event handler }
  | .close i => (s.subscriptions[i]?).map (s.closeSubscription i)

end Subscribed

/-! ## What has become of each registration -/

/-- A registration made by `on`: its subscription, and whether an `off` has removed it. -/
structure Registration extends Subscription where
  removed : Bool

namespace Registration

/-- Neither its own subscription has been closed nor an `off` has removed it. -/
def inForce (r : Registration) : Bool := !r.closed && !r.removed

/-- In force, for the event. -/
def serves (r : Registration) (event : ClientEvent) : Bool := r.inForce && r.event = event

end Registration

abbrev Ledger := List Registration

namespace Ledger

/-- The handlers of the registrations in force for an event, in the order they were made. -/
def handlers (l : Ledger) (event : ClientEvent) : List ℕ := (l.filter (·.serves event)).map (·.handler)

/-- `off` of all handlers of an event. -/
def offAll (l : Ledger) (event : ClientEvent) : Ledger :=
  l.map fun r => if r.serves event then { r with removed := true } else r

/-- `off` of one handler: the first registration of it in force. -/
def offFirst (event : ClientEvent) (handler : ℕ) : Ledger → Ledger
  | [] => []
  | r :: l => if r.serves event ∧ r.handler = handler then { r with removed := true } :: l else r :: offFirst event handler l

/-- What a call means to the registrations. -/
def step (l : Ledger) : HandlerCall → Ledger
  | .on event handler => l ++ [⟨⟨event, handler, false⟩, false⟩]
  | .off event none => l.offAll event
  | .off event (some handler) => l.offFirst event handler
  | .close i => l.modify i fun r => { r with closed := true }

end Ledger

/-- The client next to the ledger. -/
structure Registered where
  client : Subscribed
  ledger : Ledger

namespace Registered

def init : Registered := ⟨.init, []⟩

def step (s : Registered) (call : HandlerCall) : Option Registered :=
  (s.client.step call).map fun client => ⟨client, s.ledger.step call⟩

/-- A registration is in force for the client exactly if it is in the ledger: for each event the client keeps the
handlers of those in force, in the order they were made. -/
def Owned (s : Registered) : Prop := ∀ event, s.client.store.handlers event = s.ledger.handlers event

/-- A subscription that is closed for the first time does not have to tell registrations of its handler apart: there
is none left once its own has been removed, and otherwise there is nothing but the handler between the first of
them and its own. -/
def CancelsOwn (s : Registered) : HandlerCall → Prop
  | .close i => ∀ r, s.ledger[i]? = some r → r.closed = false →
      (r.removed = true → r.handler ∉ s.ledger.handlers r.event) ∧
      (r.removed = false →
        ∀ handler ∈ ((Ledger.handlers (s.ledger.take i) r.event).dropWhile (· ≠ r.handler)), handler = r.handler)
  | _ => True

/-- The ledger is about the subscriptions the client returned. -/
def Matches (s : Registered) : Prop := s.client.subscriptions = s.ledger.map (·.toSubscription)

/-! ## Removing the first of equals -/

theorem append_cons_eq_iff (a b : List ℕ) (x : ℕ) : a ++ x :: b = x :: (a ++ b) ↔ ∀ y ∈ a, y = x := by
  induction a with
  | nil => simp
  | cons y a ih =>
    rw [List.forall_mem_cons, List.cons_append, List.cons_append, List.cons.injEq]
    constructor
    · rintro ⟨rfl, h⟩
      exact ⟨rfl, ih.1 h⟩
    · rintro ⟨rfl, h⟩
      exact ⟨rfl, ih.2 h⟩

/-- The first of equals may be removed for another one exactly if nothing else is between the two. -/
theorem erase_append_cons_iff (a b : List ℕ) (x : ℕ) :
    (a ++ x :: b).erase x = a ++ b ↔ ∀ y ∈ a.dropWhile (· ≠ x), y = x := by
  induction a with
  | nil => simp
  | cons y a ih =>
    by_cases hy : y = x
    · rw [hy, List.cons_append, List.erase_cons_head, List.dropWhile_cons_of_neg (by simp), List.forall_mem_cons,
        List.cons_append, append_cons_eq_iff]
      exact (and_iff_right rfl).symm
    · rw [List.cons_append, List.erase_cons_tail (by simpa using hy), List.dropWhile_cons_of_pos (by simpa using hy),
        List.cons_append, List.cons.injEq, ih]
      exact and_iff_right rfl

/-! ## What a call does to the registrations in force -/

end Registered

namespace Ledger

theorem handlers_append (l l' : Ledger) (event : ClientEvent) :
    (handlers (l ++ l') event) = l.handlers event ++ handlers l' event := by
  unfold handlers
  rw [List.filter_append, List.map_append]

theorem handlers_cons (r : Registration) (l : Ledger) (event : ClientEvent) :
    handlers (r :: l) event = (if r.serves event then [r.handler] else []) ++ l.handlers event := by
  unfold handlers
  rw [List.filter_cons]
  by_cases h : r.serves event
  · rw [if_pos h, if_pos h]
    rfl
  · rw [if_neg h, if_neg h]
    rfl

/-- A registration that is not in force is not seen. -/
theorem handlers_cons_of_not {r : Registration} {event : ClientEvent} (h : r.serves event = false) (l : Ledger) :
    handlers (r :: l) event = l.handlers event := by
  rw [handlers_cons, h]
  rfl

theorem handlers_cons_of {r : Registration} {event : ClientEvent} (h : r.serves event = true) (l : Ledger) :
    handlers (r :: l) event = r.handler :: l.handlers event := by
  rw [handlers_cons, if_pos h]
  rfl

theorem serves_removed (r : Registration) (event : ClientEvent) :
    Registration.serves { r with removed := true } event = false := by
  simp [Registration.serves, Registration.inForce]

theorem serves_closed (r : Registration) (event : ClientEvent) :
    Registration.serves { r with closed := true } event = false := by
  simp [Registration.serves, Registration.inForce]

theorem serves_event {r : Registration} {event event' : ClientEvent} (h : r.serves event = true) (hne : event' ≠ event) :
    r.serves event' = false := by
  unfold Registration.serves at *
  rw [Bool.and_eq_true, decide_eq_true_eq] at h
  rw [h.2, decide_eq_false hne.symm, Bool.and_false]

theorem offAll_cons (r : Registration) (l : Ledger) (event : ClientEvent) :
    offAll (r :: l) event = (if r.serves event then { r with removed := true } else r) :: l.offAll event := rfl

theorem handlers_offAll (l : Ledger) (event : ClientEvent) : (l.offAll event).handlers event = [] := by
  induction l with
  | nil => rfl
  | cons r l ih =>
    rw [offAll_cons]
    by_cases hr : r.serves event = true
    · rw [if_pos hr, handlers_cons_of_not (serves_removed r event), ih]
    · rw [if_neg hr, handlers_cons_of_not (eq_false_of_ne_true hr), ih]

theorem handlers_offAll_of_ne (l : Ledger) {event event' : ClientEvent} (hne : event' ≠ event) :
    (l.offAll event).handlers event' = l.handlers event' := by
  induction l with
  | nil => rfl
  | cons r l ih =>
    rw [offAll_cons]
    by_cases hr : r.serves event = true
    · rw [if_pos hr, handlers_cons_of_not (serves_removed r event'), handlers_cons_of_not (serves_event hr hne), ih]
    · rw [if_neg hr, handlers_cons, handlers_cons, ih]

theorem handlers_offFirst (l : Ledger) (event : ClientEvent) (handler : ℕ) :
    (l.offFirst event handler).handlers event = (l.handlers event).erase handler := by
  induction l with
  | nil => rfl
  | cons r l ih =>
    unfold offFirst
    by_cases hr : r.serves event = true ∧ r.handler = handler
    · rw [if_pos hr, handlers_cons_of_not (serves_removed r event), handlers_cons_of hr.1, hr.2, List.erase_cons_head]
    · rw [if_neg hr]
      by_cases hserves : r.serves event = true
      · have hother : r.handler ≠ handler := fun h => hr ⟨hserves, h⟩
        rw [handlers_cons_of hserves, handlers_cons_of hserves, ih, List.erase_cons_tail (by simpa using hother)]
      · rw [handlers_cons_of_not (eq_false_of_ne_true hserves), handlers_cons_of_not (eq_false_of_ne_true hserves), ih]

theorem handlers_offFirst_of_ne (l : Ledger) {event event' : ClientEvent} (hne : event' ≠ event) (handler : ℕ) :
    (l.offFirst event handler).handlers event' = l.handlers event' := by
  induction l with
  | nil => rfl
  | cons r l ih =>
    unfold offFirst
    by_cases hr : r.serves event = true ∧ r.handler = handler
    · rw [if_pos hr, handlers_cons_of_not (serves_removed r event'), handlers_cons_of_not (serves_event hr.1 hne)]
    · rw [if_neg hr, handlers_cons, handlers_cons, ih]

/-- Closing the subscription of a registration takes the registration out. -/
theorem handlers_close {l : Ledger} {i : ℕ} {r : Registration} (hr : l[i]? = some r) (event : ClientEvent) :
    (l.step (.close i)).handlers event = handlers (l.take i) event ++ handlers (l.drop (i + 1)) event := by
  obtain ⟨hi, hget⟩ := List.getElem?_eq_some_iff.1 hr
  have hsplit : l.step (.close i) = l.take i ++ { r with closed := true } :: l.drop (i + 1) := by
    show l.modify i (fun r => { r with closed := true }) = _
    rw [List.modify_eq_take_cons_drop hi, hget]
  rw [hsplit, handlers_append, handlers_cons, serves_closed]
  rfl

theorem handlers_split {l : Ledger} {i : ℕ} {r : Registration} (hr : l[i]? = some r) (event : ClientEvent) :
    l.handlers event = handlers (l.take i) event ++
      ((if r.serves event then [r.handler] else []) ++ handlers (l.drop (i + 1)) event) := by
  obtain ⟨hi, hget⟩ := List.getElem?_eq_some_iff.1 hr
  conv => lhs; rw [← List.take_append_drop i l, List.drop_eq_getElem_cons hi, hget]
  rw [handlers_append, handlers_cons]

end Ledger

namespace Ledger

/-! ## The ledger is about the subscriptions returned -/

theorem subscriptions_offAll (l : Ledger) (event : ClientEvent) :
    (l.offAll event).map (·.toSubscription) = l.map (·.toSubscription) := by
  unfold offAll
  rw [List.map_map]
  refine List.map_congr_left fun r _ => ?_
  show (if r.serves event then { r with removed := true } else r).toSubscription = r.toSubscription
  split
  · rfl
  · rfl

theorem subscriptions_offFirst (l : Ledger) (event : ClientEvent) (handler : ℕ) :
    (l.offFirst event handler).map (·.toSubscription) = l.map (·.toSubscription) := by
  induction l with
  | nil => rfl
  | cons r l ih =>
    unfold offFirst
    split
    · rfl
    · rw [List.map_cons, List.map_cons, ih]

theorem subscriptions_close {l : Ledger} {i : ℕ} {r : Registration} (hr : l[i]? = some r) :
    (l.step (.close i)).map (·.toSubscription) =
      (l.map (·.toSubscription)).set i { r.toSubscription with closed := true } := by
  obtain ⟨hi, hget⟩ := List.getElem?_eq_some_iff.1 hr
  show (l.modify i fun r => { r with closed := true }).map (·.toSubscription) = _
  rw [List.modify_eq_take_cons_drop hi, hget, List.map_append, List.map_cons, List.map_take, List.map_drop,
    List.set_eq_take_append_cons_drop, if_pos (by rw [List.length_map]; exact hi)]

end Ledger

namespace Registered

/-- What a call does to the client and to the ledger. -/
theorem step_cases {s s' : Registered} {call : HandlerCall} (hmatches : s.Matches) (h : s.step call = some s') :
    s'.ledger = s.ledger.step call ∧ ((∃ event handler, call = .on event handler ∧
        s'.client = ⟨s.client.store.on event handler, s.client.subscriptions ++ [⟨event, handler, false⟩]⟩) ∨
      (∃ event handler, call = .off event handler ∧
        s'.client = ⟨s.client.store.off event handler, s.client.subscriptions⟩) ∨
      ∃ i r, call = .close i ∧ s.ledger[i]? = some r ∧ s'.client = s.client.closeSubscription i r.toSubscription) := by
  obtain ⟨client, hclient, rfl⟩ := Option.map_eq_some_iff.1 h
  refine ⟨rfl, ?_⟩
  cases call with
  | on event handler => exact .inl ⟨event, handler, rfl, (Option.some.inj hclient).symm⟩
  | off event handler => exact .inr (.inl ⟨event, handler, rfl, (Option.some.inj hclient).symm⟩)
  | close i =>
    obtain ⟨sub, hsub, rfl⟩ := Option.map_eq_some_iff.1 hclient
    rw [show s.client.subscriptions = _ from hmatches, List.getElem?_map] at hsub
    obtain ⟨r, hr, rfl⟩ := Option.map_eq_some_iff.1 hsub
    exact .inr (.inr ⟨i, r, rfl, hr, rfl⟩)

theorem Matches.step {s s' : Registered} {call : HandlerCall} (hmatches : s.Matches) (h : s.step call = some s') :
    s'.Matches := by
  obtain ⟨hledger, hcall⟩ := step_cases hmatches h
  unfold Matches at hmatches ⊢
  rw [hledger]
  rcases hcall with ⟨event, handler, rfl, hclient⟩ | ⟨event, handler, rfl, hclient⟩ | ⟨i, r, rfl, hr, hclient⟩
  · rw [hclient]
    show s.client.subscriptions ++ _ = (s.ledger ++ _).map _
    rw [List.map_append, hmatches]
    rfl
  · rw [hclient]
    cases handler with
    | none => exact hmatches.trans (Ledger.subscriptions_offAll s.ledger event).symm
    | some handler => exact hmatches.trans (Ledger.subscriptions_offFirst s.ledger event handler).symm
  · rw [hclient, Ledger.subscriptions_close hr, ← hmatches]
    unfold Subscribed.closeSubscription
    split
    · rename_i hclosed
      -- it was closed already
      have hsame : { r.toSubscription with closed := true } = r.toSubscription := by rw [← hclosed]
      have hget : s.client.subscriptions[i]? = some r.toSubscription := by
        rw [hmatches, List.getElem?_map, hr]
        rfl
      obtain ⟨hi, hgetElem⟩ := List.getElem?_eq_some_iff.1 hget
      rw [hsame, ← hgetElem, List.set_getElem_self]
    · rfl

/-- Setting the handlers of one event sets what is kept for it only. -/
theorem setHandlers_handlers (s : ClientState) (event event' : ClientEvent) (handlers : List ℕ) :
    (s.setHandlers event handlers).handlers event' = if event' = event then handlers else s.handlers event' := rfl

theorem Owned.on {s : Registered} (howned : s.Owned) (event : ClientEvent) (handler : ℕ) (event' : ClientEvent) :
    (s.client.store.on event handler).handlers event' = (s.ledger.step (.on event handler)).handlers event' := by
  have hledger : s.ledger.step (.on event handler) = s.ledger ++ [⟨⟨event, handler, false⟩, false⟩] := rfl
  rw [hledger, Ledger.handlers_append, ← howned event']
  unfold ClientState.on
  rw [setHandlers_handlers]
  by_cases heq : event' = event
  · rw [if_pos heq, heq, Ledger.handlers_cons_of (by simp [Registration.serves, Registration.inForce])]
    rfl
  · rw [if_neg heq, Ledger.handlers_cons_of_not (by simpa [Registration.serves] using fun _ => Ne.symm heq)]
    exact (List.append_nil _).symm

theorem Owned.off {s : Registered} (howned : s.Owned) (event : ClientEvent) (handler : Option ℕ) (event' : ClientEvent) :
    (s.client.store.off event handler).handlers event' = (s.ledger.step (.off event handler)).handlers event' := by
  cases handler with
  | none =>
    show (s.client.store.setHandlers event []).handlers event' = (s.ledger.offAll event).handlers event'
    rw [setHandlers_handlers]
    by_cases heq : event' = event
    · rw [if_pos heq, heq, Ledger.handlers_offAll]
    · rw [if_neg heq, Ledger.handlers_offAll_of_ne _ heq, howned]
  | some handler =>
    show (s.client.store.removeHandler event handler).handlers event' = (s.ledger.offFirst event handler).handlers event'
    unfold ClientState.removeHandler
    rw [setHandlers_handlers]
    by_cases heq : event' = event
    · rw [if_pos heq, heq, Ledger.handlers_offFirst, howned]
    · rw [if_neg heq, Ledger.handlers_offFirst_of_ne _ heq, howned]

/-- Removing the first handler equal to a registration's is removing the registration exactly if the two need not be
told apart. -/
theorem Owned.removeHandler_iff {s : Registered} (howned : s.Owned) {i : ℕ} {r : Registration} (hr : s.ledger[i]? = some r)
    (hopen : r.closed = false) : (∀ event, (s.client.store.removeHandler r.event r.handler).handlers event =
        (s.ledger.step (.close i)).handlers event) ↔ s.CancelsOwn (.close i) := by
  have hguard : s.CancelsOwn (.close i) ↔ (r.removed = true → r.handler ∉ s.ledger.handlers r.event) ∧
      (r.removed = false →
        ∀ handler ∈ ((Ledger.handlers (s.ledger.take i) r.event).dropWhile (· ≠ r.handler)), handler = r.handler) := by
    constructor
    · exact fun h => h r hr hopen
    · intro h r' hr' _
      rw [hr] at hr'
      rw [← Option.some.inj hr']
      exact h
  have hother : ∀ event, event ≠ r.event → (s.client.store.removeHandler r.event r.handler).handlers event =
      (s.ledger.step (.close i)).handlers event := by
    intro event hne
    unfold ClientState.removeHandler
    rw [setHandlers_handlers, if_neg hne, howned, Ledger.handlers_close hr, Ledger.handlers_split hr]
    have hserves : r.serves event = false := by
      unfold Registration.serves
      rw [decide_eq_false hne.symm, Bool.and_false]
    rw [hserves]
    rfl
  have hown : (s.client.store.removeHandler r.event r.handler).handlers r.event =
      (s.ledger.handlers r.event).erase r.handler := by
    unfold ClientState.removeHandler
    rw [setHandlers_handlers, if_pos rfl, howned]
  have hiff : (∀ event, (s.client.store.removeHandler r.event r.handler).handlers event =
      (s.ledger.step (.close i)).handlers event) ↔ (s.ledger.handlers r.event).erase r.handler =
        Ledger.handlers (s.ledger.take i) r.event ++ Ledger.handlers (s.ledger.drop (i + 1)) r.event := by
    rw [← hown, ← Ledger.handlers_close hr]
    constructor
    · exact fun h => h r.event
    · intro h event
      by_cases heq : event = r.event
      · rw [heq, h]
      · exact hother event heq
  rw [hiff, hguard, Ledger.handlers_split hr r.event]
  cases hremoved : r.removed with
  | true =>
    -- an `off` has removed it: there is nothing to remove
    have hserves : r.serves r.event = false := by simp [Registration.serves, Registration.inForce, hremoved]
    rw [hserves, if_neg Bool.false_ne_true, List.nil_append, List.erase_eq_self_iff]
    exact ⟨fun h => ⟨fun _ => h, nofun⟩, fun h => h.1 rfl⟩
  | false =>
    have hserves : r.serves r.event = true := by simp [Registration.serves, Registration.inForce, hremoved, hopen]
    rw [hserves, if_pos rfl, List.singleton_append, erase_append_cons_iff]
    exact ⟨fun h => ⟨nofun, fun _ => h⟩, fun h => h.2 rfl⟩

/-- A call keeps ownership exactly if it cancels its own. -/
theorem owned_step_iff {s s' : Registered} {call : HandlerCall} (hmatches : s.Matches) (howned : s.Owned)
    (h : s.step call = some s') : s'.Owned ↔ s.CancelsOwn call := by
  obtain ⟨hledger, hcall⟩ := step_cases hmatches h
  unfold Owned
  rw [hledger]
  rcases hcall with ⟨event, handler, rfl, hclient⟩ | ⟨event, handler, rfl, hclient⟩ | ⟨i, r, rfl, hr, hclient⟩
  · rw [hclient]
    exact iff_of_true (howned.on event handler) trivial
  · rw [hclient]
    exact iff_of_true (howned.off event handler) trivial
  · rw [hclient]
    unfold Subscribed.closeSubscription
    cases hclosed : r.closed with
    | true =>
      -- closing is idempotent
      rw [if_pos rfl]
      refine iff_of_true (fun event => ?_) fun r' hr' hopen => ?_
      · have hserves : r.serves event = false := by simp [Registration.serves, Registration.inForce, hclosed]
        rw [howned, Ledger.handlers_close hr, Ledger.handlers_split hr, hserves]
        rfl
      · rw [hr] at hr'
        rw [← Option.some.inj hr', hclosed] at hopen
        cases hopen
    | false =>
      rw [if_neg Bool.false_ne_true]
      exact howned.removeHandler_iff hr hclosed

/-- A subscription that has not been returned is not closed. -/
theorem cancelsOwn_of_none {s : Registered} {call : HandlerCall} (hmatches : s.Matches) (h : s.step call = none) :
    s.CancelsOwn call := by
  have hclient := Option.map_eq_none_iff.1 h
  cases call with
  | on event handler => exact trivial
  | off event handler => exact trivial
  | close i =>
    intro r hr _
    have hsub : s.client.subscriptions[i]? = some r.toSubscription := by
      rw [show s.client.subscriptions = _ from hmatches, List.getElem?_map, hr]
      rfl
    have hstep : s.client.step (.close i) = (s.client.subscriptions[i]?).map (s.client.closeSubscription i) := rfl
    rw [hstep, hsub] at hclient
    cases hclient

/-- In exactly the runs in which every subscription that is closed cancels its own registration, a registration is
always in force exactly if neither its own subscription has been closed nor an `off` has removed it. -/
theorem registrations_owned_iff (calls : List HandlerCall) :
    Transition.Always step Owned init calls ↔ Transition.Obeys step CancelsOwn init calls :=
  Transition.always_iff_obeys (fun _ _ _ hs h => Matches.step hs h) (fun _ _ _ hs howned h => owned_step_iff hs howned h)
    (fun _ _ hs h => cancelsOwn_of_none hs h) rfl fun _ => rfl

/-- Closing a subscription whose registration `off` has removed removes the one made after it. -/
theorem closing_removes_another : ¬ ∀ (calls : List HandlerCall) (s : Registered),
    Transition.run step init calls = some s → s.Owned := by
  intro h
  have howned := h [.on .clientReady 0, .off .clientReady (some 0), .on .clientReady 0, .close 0] _ rfl .clientReady
  revert howned
  decide

end Registered

end ConfigDirector.Client
