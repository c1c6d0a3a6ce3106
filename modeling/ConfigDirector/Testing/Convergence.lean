/-
What the client of an in-memory server holds. The updates under way, taken in the order in which their values were
stored, lead from what the client holds to what is stored; an update that enters the queue ahead of an older one
keeps it so if the two agree.
-/
import ConfigDirector.Client.History
import ConfigDirector.Testing.InMemoryConnection

namespace ConfigDirector.Testing

open Python Evaluation Client LastWriter

namespace InMemoryConnection

/-! ## The property and the condition -/

/-- Whenever no call is in progress and the connection is connected, the client holds the configs stored. -/
def Converged (s : InMemoryConnection) : Prop :=
  (∀ i, s.calls i = .idle) → s.connected = true → ∀ key, s.client.held key = s.configs.get? key

/-- Two updates determine nothing differently. -/
def UpdatesAgree (update other : ConfigBundle) : Prop := ∀ key, (configUpdate key update).Agrees (configUpdate key other)

/-- The updates that were computed before that of a call and are not queued yet. -/
def olderThan (s : InMemoryConnection) (i : ℕ) : List (ℕ × ConfigBundle) := s.unqueued.takeWhile fun p => p.1 ≠ i

/-- While the connection is connected no update enters the queue ahead of an older one with which it disagrees, and
no `BaseException` escapes. -/
def InOrder (s : InMemoryConnection) : ConnectionStep → Prop
  | .go i =>
    match s.calls i with
    | .delivering (.enqueueing update) _ => s.connected = true → ∀ p ∈ s.olderThan i, UpdatesAgree update p.2
    | _ => True
  | .escape _ => False
  | _ => True

/-! ## The invariant -/

end InMemoryConnection

/-- It takes updates from the queue. -/
def Call.draws : Call → Bool
  | .delivering (.enqueueing _) _ => false
  | .delivering _ _ => true
  | _ => false

/-- The update it has taken from the queue. -/
def Call.hand : Call → List ConfigBundle
  | .delivering (.applying update) _ => [update]
  | _ => []

/-- It delivers an update. -/
def Call.delivers : Call → Bool
  | .delivering _ _ => true
  | _ => false

theorem draws_of_not_delivers {call : Call} (h : call.delivers = false) : call.draws = false := by
  cases call with
  | delivering stage completes => cases h
  | _ => rfl

namespace InMemoryConnection

/-- One call at most takes updates from the queue, and the queue is empty when there is none; `hand` is the update
it has taken. -/
def Drawn (s : InMemoryConnection) (hand : List ConfigBundle) : Prop :=
  (s.delivering = false ∧ s.pending = [] ∧ hand = [] ∧ ∀ i, (s.calls i).draws = false) ∨
    (s.delivering = true ∧ ∃ i, (s.calls i).draws = true ∧ hand = (s.calls i).hand ∧
      ∀ j, j ≠ i → (s.calls j).draws = false)

/-- The updates under way, in the order in which they reach the client if none overtakes another. -/
def underWay (s : InMemoryConnection) (hand : List ConfigBundle) : List ConfigBundle :=
  hand ++ s.pending ++ s.unqueued.map Prod.snd

/-- What the client will hold under a key. -/
def expected (s : InMemoryConnection) (hand : List ConfigBundle) (key : Text) : Option (Config PyFloat) :=
  after (s.client.held key) ((s.underWay hand).map (configUpdate key))

structure Inv (s : InMemoryConnection) (hand : List ConfigBundle) : Prop where
  opened : s.client.closed = false
  drawn : s.Drawn hand
  unqueued : ∀ i update, (i, update) ∈ s.unqueued ↔ ∃ completes, s.calls i = .delivering (.enqueueing update) completes
  distinct : (s.unqueued.map Prod.fst).Nodup
  readable : ∀ update ∈ s.underWay hand, update.unreadableKeys = []
  onCourse : s.connected = true → ∀ key, s.expected hand key = s.configs.get? key

theorem inv_init (configs : Dict Text (Config PyFloat)) (handlers : ClientEvent → List ℕ) :
    (init configs handlers).Inv [] where
  opened := rfl
  drawn := .inl ⟨rfl, rfl, rfl, fun _ => rfl⟩
  unqueued := fun i update => by
    refine iff_of_false (fun h => by cases h) ?_
    rintro ⟨completes, h⟩
    cases h
  distinct := .nil
  readable := fun update h => by cases h
  onCourse := fun h => by cases h

theorem Inv.converged {s : InMemoryConnection} {hand : List ConfigBundle} (h : s.Inv hand) : s.Converged := by
  intro hidle hconnected key
  have hnone : s.unqueued = [] := by
    rw [List.eq_nil_iff_forall_not_mem]
    rintro ⟨i, update⟩ hmem
    obtain ⟨completes, hcall⟩ := (h.unqueued i update).1 hmem
    rw [hidle i] at hcall
    cases hcall
  have hexpected := h.onCourse hconnected key
  rcases h.drawn with ⟨-, hpending, hhand, -⟩ | ⟨-, i, hdraws, -⟩
  · rw [expected, underWay, hhand, hpending, hnone] at hexpected
    exact hexpected
  · rw [hidle i] at hdraws
    cases hdraws

/-! ## The section under the state lock -/

/-- The queue, the calls and the client are the same. -/
structure SameFlow (s s' : InMemoryConnection) : Prop where
  client : s'.client = s.client
  pending : s'.pending = s.pending
  delivering : s'.delivering = s.delivering
  calls : s'.calls = s.calls
  unqueued : s'.unqueued = s.unqueued

theorem SameFlow.underWay {s s' : InMemoryConnection} (h : SameFlow s s') (hand : List ConfigBundle) :
    s'.underWay hand = s.underWay hand := by
  unfold InMemoryConnection.underWay
  rw [h.pending, h.unqueued]

theorem SameFlow.expected {s s' : InMemoryConnection} (h : SameFlow s s') (hand : List ConfigBundle) (key : Text) :
    s'.expected hand key = s.expected hand key := by
  unfold InMemoryConnection.expected
  rw [h.underWay, h.client]

theorem sameFlow_settle (s : InMemoryConnection) (attempt : Option ℕ) (outcome : Outcome) :
    SameFlow s (s.settle attempt outcome) := by
  cases attempt with
  | none => exact ⟨rfl, rfl, rfl, rfl, rfl⟩
  | some a => exact ⟨rfl, rfl, rfl, rfl, rfl⟩

variable {s s' : InMemoryConnection} {hand : List ConfigBundle} {i : ℕ}

/-- Nothing is stored. -/
theorem Inv.congr (h : s.Inv hand) (hflow : SameFlow s s')
    (hcourse : s'.connected = true → s.connected = true ∧ s'.configs = s.configs) : s'.Inv hand where
  opened := by
    rw [hflow.client]
    exact h.opened
  drawn := by
    unfold Drawn
    rw [hflow.delivering, hflow.pending, hflow.calls]
    exact h.drawn
  unqueued := by
    rw [hflow.unqueued, hflow.calls]
    exact h.unqueued
  distinct := by
    rw [hflow.unqueued]
    exact h.distinct
  readable := by
    rw [hflow.underWay]
    exact h.readable
  onCourse := fun hconnected key => by
    obtain ⟨hbefore, hconfigs⟩ := hcourse hconnected
    rw [hflow.expected, hconfigs]
    exact h.onCourse hbefore key

/-- A call that delivers nothing goes on to do something else than deliver. -/
theorem Inv.setCall (h : s.Inv hand) (hold : (s.calls i).delivers = false) {call : Call} (hnew : call.delivers = false) :
    (s.setCall i call).Inv hand := by
  have hsame : ∀ j, ((s.setCall i call).calls j).draws = (s.calls j).draws := by
    intro j
    by_cases hj : j = i
    · subst hj
      rw [setCall_self, draws_of_not_delivers hnew, draws_of_not_delivers hold]
    · rw [setCall_of_ne s hj]
  refine ⟨h.opened, ?_, ?_, h.distinct, h.readable, h.onCourse⟩
  · rcases h.drawn with ⟨hdelivering, hpending, hhand, hnone⟩ | ⟨hdelivering, k, hk, hhand, hothers⟩
    · exact .inl ⟨hdelivering, hpending, hhand, fun j => (hsame j).trans (hnone j)⟩
    · have hne : k ≠ i := by
        rintro rfl
        rw [draws_of_not_delivers hold] at hk
        cases hk
      refine .inr ⟨hdelivering, k, (hsame k).trans hk, ?_, fun j hj => (hsame j).trans (hothers j hj)⟩
      rw [hhand, setCall_of_ne s hne]
  · intro j update
    rw [show (s.setCall i call).unqueued = s.unqueued from rfl, h.unqueued j update]
    by_cases hj : j = i
    · subst hj
      rw [setCall_self]
      refine iff_of_false ?_ ?_
      · rintro ⟨completes, hcall⟩
        rw [hcall] at hold
        cases hold
      · rintro ⟨completes, rfl⟩
        cases hnew
    · rw [setCall_of_ne s hj]

/-- A value is stored, and the update that says so is computed. -/
theorem Inv.dispatch (h : s.Inv hand) (hflow : SameFlow s s') (hfree : (s.calls i).delivers = false)
    {update : ConfigBundle}
    (hread : update.unreadableKeys = []) (hstored : ∀ key held, (s.connected = true → held = s.configs.get? key) →
      (configUpdate key update).apply held = s'.configs.get? key) (completes : Option ℕ) :
    (s'.dispatch i update completes).Inv hand := by
  have hfree' : (s'.calls i).delivers = false := by
    rw [hflow.calls]
    exact hfree
  have hunder : (s'.dispatch i update completes).underWay hand = s.underWay hand ++ [update] := by
    show hand ++ s'.pending ++ (s'.unqueued ++ [(i, update)]).map Prod.snd = _
    rw [hflow.pending, hflow.unqueued, List.map_append, ← List.append_assoc]
    rfl
  have hcalls : ∀ {j}, j ≠ i → (s'.dispatch i update completes).calls j = s.calls j := by
    intro j hj
    exact (setCall_of_ne s' hj _).trans (congrFun hflow.calls j)
  have hself : (s'.dispatch i update completes).calls i = .delivering (.enqueueing update) completes :=
    setCall_self s' i _
  have hnot : ∀ other, (i, other) ∉ s.unqueued := by
    intro other hmem
    obtain ⟨_, hcall⟩ := (h.unqueued i other).1 hmem
    rw [hcall] at hfree
    cases hfree
  have hdraws : ∀ j, ((s'.dispatch i update completes).calls j).draws = (s.calls j).draws := by
    intro j
    by_cases hj : j = i
    · subst hj
      rw [hself, draws_of_not_delivers hfree]
      rfl
    · rw [hcalls hj]
  constructor
  case opened => exact (congrArg ClientState.closed hflow.client).trans h.opened
  case drawn =>
    rcases h.drawn with ⟨hdelivering, hpending, hhand, hnone⟩ | ⟨hdelivering, k, hk, hhand, hothers⟩
    · exact .inl ⟨hflow.delivering.trans hdelivering, hflow.pending.trans hpending, hhand,
        fun j => (hdraws j).trans (hnone j)⟩
    · have hne : k ≠ i := by
        rintro rfl
        rw [draws_of_not_delivers hfree] at hk
        cases hk
      exact .inr ⟨hflow.delivering.trans hdelivering, k, (hdraws k).trans hk, by rw [hhand, hcalls hne],
        fun j hj => (hdraws j).trans (hothers j hj)⟩
  case unqueued =>
    intro j other
    show (j, other) ∈ s'.unqueued ++ [(i, update)] ↔ _
    rw [List.mem_append, List.mem_singleton, hflow.unqueued]
    by_cases hj : j = i
    · subst hj
      rw [hself]
      constructor
      · rintro (hmem | hlast)
        · exact absurd hmem (hnot other)
        · cases hlast
          exact ⟨completes, rfl⟩
      · rintro ⟨_, hcall⟩
        cases hcall
        exact .inr rfl
    · rw [hcalls hj, ← h.unqueued j other]
      exact or_iff_left fun hlast => hj (Prod.ext_iff.1 hlast).1
  case distinct =>
    show ((s'.unqueued ++ [(i, update)]).map Prod.fst).Nodup
    rw [hflow.unqueued, List.map_append, List.nodup_append]
    refine ⟨h.distinct, List.nodup_singleton _, ?_⟩
    rintro j hj k hk rfl
    obtain rfl := List.mem_singleton.1 hk
    obtain ⟨⟨_, other⟩, hmem, rfl⟩ := List.mem_map.1 hj
    exact hnot other hmem
  case readable =>
    intro other hmem
    rw [hunder, List.mem_append, List.mem_singleton] at hmem
    rcases hmem with hmem | rfl
    · exact h.readable other hmem
    · exact hread
  case onCourse =>
    intro _ key
    have hexpected : (s'.dispatch i update completes).expected hand key =
        (configUpdate key update).apply (s.expected hand key) := by
      unfold expected
      rw [hunder, List.map_append, after_append,
        show (s'.dispatch i update completes).client = s.client from hflow.client]
      rfl
    rw [hexpected]
    exact hstored key _ fun hconnected => h.onCourse hconnected key

/-! ## The sections under the delivery lock -/

/-- The updates that are not queued, from the one of a call on. -/
theorem olderThan_split {l : List (ℕ × ConfigBundle)} {update : ConfigBundle} (hmem : (i, update) ∈ l)
    (hdistinct : (l.map Prod.fst).Nodup) : ∃ newer, l = (l.takeWhile fun p => p.1 ≠ i) ++ (i, update) :: newer ∧
      (l.filter fun p => p.1 ≠ i) = (l.takeWhile fun p => p.1 ≠ i) ++ newer := by
  induction l with
  | nil => cases hmem
  | cons p l ih =>
    rw [List.map_cons, List.nodup_cons] at hdistinct
    by_cases hp : p.1 = i
    · have hhead : p = (i, update) := by
        rcases List.mem_cons.1 hmem with rfl | hmem
        · rfl
        · exact absurd (List.mem_map.2 ⟨_, hmem, hp.symm⟩) hdistinct.1
      have hrest : (l.filter fun p => p.1 ≠ i) = l := by
        rw [List.filter_eq_self]
        rintro q hq
        rw [decide_eq_true_eq]
        rintro hqi
        exact hdistinct.1 (List.mem_map.2 ⟨q, hq, hqi.trans hp.symm⟩)
      refine ⟨l, ?_, ?_⟩
      · rw [List.takeWhile_cons_of_neg (by simpa using hp), hhead]
        rfl
      · rw [List.takeWhile_cons_of_neg (by simpa using hp), List.filter_cons_of_neg (by simpa using hp), hrest]
        rfl
    · have hmem' : (i, update) ∈ l := by
        rcases List.mem_cons.1 hmem with rfl | hmem
        · exact absurd rfl hp
        · exact hmem
      obtain ⟨newer, hsplit, hfilter⟩ := ih hmem' hdistinct.2
      refine ⟨newer, ?_, ?_⟩
      · rw [List.takeWhile_cons_of_pos (by simpa using hp), List.cons_append, ← hsplit]
      · rw [List.takeWhile_cons_of_pos (by simpa using hp), List.filter_cons_of_pos (by simpa using hp), hfilter,
          List.cons_append]

/-- The update of a call enters the queue, ahead of older ones it agrees with. -/
theorem Inv.enqueue (h : s.Inv hand) {update : ConfigBundle} {completes : Option ℕ}
    (hcall : s.calls i = .delivering (.enqueueing update) completes)
    (horder : s.connected = true → ∀ p ∈ s.olderThan i, UpdatesAgree update p.2) {delivering : Bool}
    (hdelivered : delivering = true) {call : Call} (hdraws : call.draws = !s.delivering) (hhand : call.hand = [])
    (hleft : ∀ other completes, call ≠ .delivering (.enqueueing other) completes) :
    ({ s with
      pending := s.pending ++ [update]
      unqueued := s.unqueued.filter fun p => p.1 ≠ i
      delivering }.setCall i call).Inv hand := by
  obtain ⟨newer, hsplit, hfilter⟩ := olderThan_split ((h.unqueued i update).2 ⟨completes, hcall⟩) h.distinct
  have hnotdrawn : (s.calls i).draws = false := by
    rw [hcall]
    rfl
  constructor
  case opened => exact h.opened
  case drawn =>
    rcases h.drawn with ⟨hdelivering, -, rfl, hnone⟩ | ⟨hdelivering, k, hk, rfl, hothers⟩
    · refine .inr ⟨hdelivered, i, ?_, ?_, fun j hj => ?_⟩
      · rw [setCall_self, hdraws, hdelivering]
        rfl
      · rw [setCall_self, hhand]
      · rw [setCall_of_ne _ hj]
        exact hnone j
    · have hne : k ≠ i := by
        rintro rfl
        rw [hnotdrawn] at hk
        cases hk
      refine .inr ⟨hdelivered, k, ?_, ?_, fun j hj => ?_⟩
      · rw [setCall_of_ne _ hne]
        exact hk
      · rw [setCall_of_ne _ hne]
      · by_cases hji : j = i
        · subst hji
          rw [setCall_self, hdraws, hdelivering]
          rfl
        · rw [setCall_of_ne _ hji]
          exact hothers j hj
  case unqueued =>
    intro j other
    show (j, other) ∈ s.unqueued.filter (fun p => p.1 ≠ i) ↔ _
    rw [List.mem_filter, h.unqueued j other]
    by_cases hj : j = i
    · subst hj
      rw [setCall_self]
      refine iff_of_false (fun hmem => ?_) (fun ⟨_, heq⟩ => hleft _ _ heq)
      simp only [ne_eq, not_true_eq_false, decide_false, Bool.false_eq_true, and_false] at hmem
    · rw [setCall_of_ne _ hj]
      exact and_iff_left (decide_eq_true hj)
  case distinct => exact (List.filter_sublist.map Prod.fst).nodup h.distinct
  case readable =>
    intro other hmem
    have hunder : other ∈ hand ++ (s.pending ++ [update]) ++ (s.unqueued.filter fun p => p.1 ≠ i).map Prod.snd := hmem
    refine h.readable other ?_
    rw [underWay, hsplit]
    rw [hfilter] at hunder
    simp only [List.map_append, List.map_cons, List.mem_append, List.mem_cons, List.not_mem_nil, or_false] at hunder ⊢
    tauto
  case onCourse =>
    intro hconnected key
    show after (s.client.held key)
      ((hand ++ (s.pending ++ [update]) ++ (s.unqueued.filter fun p => p.1 ≠ i).map Prod.snd).map (configUpdate key)) =
        s.configs.get? key
    rw [← h.onCourse hconnected key, expected, underWay]
    conv_rhs => rw [hsplit]
    rw [hfilter]
    have hagree : ∀ v ∈ (s.olderThan i).map (fun p => configUpdate key p.2), (configUpdate key update).Agrees v := by
      intro v hv
      obtain ⟨p, hp, rfl⟩ := List.mem_map.1 hv
      exact horder hconnected p hp key
    have hbubble := after_bubble (newer.map fun p => configUpdate key p.2)
      (after (s.client.held key) ((hand ++ s.pending).map (configUpdate key))) hagree
    simpa only [olderThan, List.map_append, List.map_cons, List.map_map, List.map_nil, List.append_assoc, after_append,
      List.cons_append, List.nil_append, Function.comp_def] using hbubble.symm

/-- The call that takes updates from the queue. -/
theorem Inv.drawer (h : s.Inv hand) (hi : (s.calls i).draws = true) :
    s.delivering = true ∧ hand = (s.calls i).hand ∧ ∀ j, j ≠ i → (s.calls j).draws = false := by
  rcases h.drawn with ⟨-, -, -, hnone⟩ | ⟨hdelivering, k, -, hhand, hothers⟩
  · rw [hnone i] at hi
    cases hi
  · have hik : i = k := by
      by_contra hne
      rw [hothers i hne] at hi
      cases hi
    subst hik
    exact ⟨hdelivering, hhand, hothers⟩

/-- It goes on: from the queue to its hand, and from there to the client. -/
theorem Inv.draw (h : s.Inv hand) (hi : (s.calls i).draws = true) {client : ClientState} {pending : List ConfigBundle}
    {delivering : Bool} {call : Call} (hdelivering : delivering = call.draws) (hopened : client.closed = false)
    (hends : call.draws = false → pending = [] ∧ call.hand = [])
    (hleft : ∀ other completes, call ≠ .delivering (.enqueueing other) completes)
    (hread : ∀ other ∈ call.hand ++ pending, other ∈ (s.calls i).hand ++ s.pending)
    (hheld : ∀ key, after (client.held key) ((call.hand ++ pending).map (configUpdate key)) =
      after (s.client.held key) (((s.calls i).hand ++ s.pending).map (configUpdate key))) :
    ({ s with client, pending, delivering }.setCall i call).Inv call.hand := by
  obtain ⟨-, rfl, hothers⟩ := h.drawer hi
  constructor
  case opened => exact hopened
  case drawn =>
    cases hdraws : call.draws with
    | false =>
      obtain ⟨hpending, hhand⟩ := hends hdraws
      refine .inl ⟨hdelivering.trans hdraws, hpending, hhand, fun j => ?_⟩
      by_cases hj : j = i
      · subst hj
        rw [setCall_self, hdraws]
      · rw [setCall_of_ne _ hj]
        exact hothers j hj
    | true =>
      refine .inr ⟨hdelivering.trans hdraws, i, ?_, ?_, fun j hj => ?_⟩
      · rw [setCall_self, hdraws]
      · rw [setCall_self]
      · rw [setCall_of_ne _ hj]
        exact hothers j hj
  case unqueued =>
    intro j other
    show (j, other) ∈ s.unqueued ↔ _
    rw [h.unqueued j other]
    by_cases hj : j = i
    · subst hj
      rw [setCall_self]
      refine iff_of_false ?_ (fun ⟨_, heq⟩ => hleft _ _ heq)
      rintro ⟨_, hcall⟩
      rw [hcall] at hi
      cases hi
    · rw [setCall_of_ne _ hj]
  case distinct => exact h.distinct
  case readable =>
    intro other hmem
    refine h.readable other ?_
    rcases List.mem_append.1 hmem with hmem | hmem
    · exact List.mem_append_left _ (hread other hmem)
    · exact List.mem_append_right _ hmem
  case onCourse =>
    intro hconnected key
    show after (client.held key) ((call.hand ++ pending ++ s.unqueued.map Prod.snd).map (configUpdate key)) =
      s.configs.get? key
    have hsame := hheld key
    rw [← h.onCourse hconnected key, expected, underWay]
    simp only [List.map_append, after_append] at hsame ⊢
    rw [hsame]

theorem held_applied_readable (client : ClientState) {update : ConfigBundle} (h : update.unreadableKeys = [])
    (key : Text) :
    (client.applied update).held key = (configUpdate key update).apply (client.held key) := by
  rw [held_applied client (fun hmem => by rw [h] at hmem; cases hmem), apply_eq]
  rfl

/-- The call after `_deliver`. -/
theorem delivered_eq (s : InMemoryConnection) (i : ℕ) (completes : Option ℕ) :
    ∃ call : Call, call.delivers = false ∧ s.delivered i completes = s.setCall i call := by
  cases completes with
  | none => exact ⟨.idle, rfl, rfl⟩
  | some attempt => exact ⟨.completing attempt, rfl, rfl⟩

theorem hand_of_not_delivers {call : Call} (h : call.delivers = false) : call.hand = [] := by
  cases call with
  | delivering stage completes => cases h
  | _ => rfl

theorem not_enqueueing_of_not_delivers {call : Call} (h : call.delivers = false) (other : ConfigBundle)
    (completes : Option ℕ) : call ≠ .delivering (.enqueueing other) completes := by
  rintro rfl
  cases h

/-- The step that queues an update. -/
theorem Inv.go_enqueueing (h : s.Inv hand) {update : ConfigBundle} {completes : Option ℕ}
    (hcall : s.calls i = .delivering (.enqueueing update) completes)
    (horder : s.connected = true → ∀ p ∈ s.olderThan i, UpdatesAgree update p.2) (hs : s.go i = some s') : s'.Inv hand := by
  simp only [go, hcall] at hs
  cases hdelivering : s.delivering with
  | true =>
    obtain ⟨call, hcall', hdelivered⟩ := delivered_eq { s with
      pending := s.pending ++ [update], unqueued := s.unqueued.filter fun p => p.1 ≠ i } i completes
    rw [if_pos hdelivering, hdelivered, Option.some.injEq] at hs
    rw [← hs]
    refine h.enqueue hcall horder hdelivering ?_ (hand_of_not_delivers hcall') (not_enqueueing_of_not_delivers hcall')
    rw [draws_of_not_delivers hcall', hdelivering]
    rfl
  | false =>
    rw [if_neg (by rw [hdelivering]; decide), Option.some.injEq] at hs
    rw [← hs]
    exact h.enqueue hcall horder rfl (by rw [hdelivering]; rfl) rfl (fun _ _ heq => by cases heq)

/-- The step that takes the next update, or finds that there is none. -/
theorem Inv.go_popping (h : s.Inv hand) {completes : Option ℕ} (hcall : s.calls i = .delivering .popping completes)
    (hs : s.go i = some s') : ∃ hand', s'.Inv hand' := by
  have hi : (s.calls i).draws = true := by
    rw [hcall]
    rfl
  have hhand : (s.calls i).hand = [] := by
    rw [hcall]
    rfl
  obtain ⟨hdelivering, -, -⟩ := h.drawer hi
  simp only [go, hcall] at hs
  cases hpending : s.pending with
  | nil =>
    obtain ⟨call, hcall', hdelivered⟩ := delivered_eq { s with pending := [], delivering := false } i completes
    have hempty := hand_of_not_delivers hcall'
    simp only [hpending, hdelivered, Option.some.injEq] at hs
    rw [← hs]
    refine ⟨_, h.draw hi (draws_of_not_delivers hcall').symm h.opened (fun _ => ⟨rfl, hempty⟩)
      (not_enqueueing_of_not_delivers hcall') (fun other hmem => ?_) (fun key => ?_)⟩
    · rw [hempty] at hmem
      cases hmem
    · rw [hempty, hhand, hpending]
  | cons update pending =>
    simp only [hpending, Option.some.injEq] at hs
    rw [← hs]
    refine ⟨_, h.draw hi hdelivering h.opened (fun heq => by cases heq) (fun _ _ heq => by cases heq)
      (fun other hmem => ?_) (fun key => ?_)⟩
    · rw [hhand, hpending]
      exact hmem
    · rw [hhand, hpending]
      rfl

/-- `_on_bundle`. -/
theorem Inv.go_applying (h : s.Inv hand) {update : ConfigBundle} {completes : Option ℕ}
    (hcall : s.calls i = .delivering (.applying update) completes) (hs : s.go i = some s') : ∃ hand', s'.Inv hand' := by
  have hi : (s.calls i).draws = true := by
    rw [hcall]
    rfl
  have hhand : (s.calls i).hand = [update] := by
    rw [hcall]
    rfl
  obtain ⟨hdelivering, rfl, -⟩ := h.drawer hi
  have hread : update.unreadableKeys = [] := by
    refine h.readable update ?_
    rw [hhand]
    exact List.mem_cons_self
  simp only [go, hcall, onBundle_open h.opened, Option.some.injEq] at hs
  rw [← hs]
  refine ⟨_, h.draw hi hdelivering h.opened (fun heq => by cases heq) (fun _ _ heq => by cases heq)
    (fun other hmem => ?_) (fun key => ?_)⟩
  · rw [hhand]
    exact List.mem_cons_of_mem _ hmem
  · rw [hhand, held_applied_readable _ hread]
    rfl

/-- The handlers and watchers have returned. -/
theorem Inv.go_notifying (h : s.Inv hand) {completes : Option ℕ} (hcall : s.calls i = .delivering .notifying completes)
    (hs : s.go i = some s') : ∃ hand', s'.Inv hand' := by
  have hi : (s.calls i).draws = true := by
    rw [hcall]
    rfl
  have hhand : (s.calls i).hand = [] := by
    rw [hcall]
    rfl
  obtain ⟨hdelivering, -, -⟩ := h.drawer hi
  simp only [go, hcall, Option.some.injEq] at hs
  rw [← hs]
  refine ⟨_, h.draw hi hdelivering h.opened (fun heq => by cases heq) (fun _ _ heq => by cases heq)
    (fun other hmem => ?_) (fun key => ?_)⟩
  · rw [hhand]
    exact hmem
  · rw [hhand]
    rfl

/-! ## Steps -/

/-- A full update leaves the configs stored, whatever was held. -/
theorem apply_fullUpdate (s : InMemoryConnection) (key : Text) (held : Option (Config PyFloat)) :
    (configUpdate key s.fullUpdate).apply held = s.configs.get? key := by
  rw [apply_eq]
  show (s.configs.get? key).or none = _
  rw [Option.or_none]

/-- A delta stores its definition. -/
theorem apply_deltaUpdate (configs : Dict Text (Config PyFloat)) (changed : Text) (definition : Config PyFloat)
    (key : Text) :
    (configUpdate key (deltaUpdate changed definition)).apply (configs.get? key) =
      (configs.set changed definition).get? key := by
  rw [apply_eq, Dict.get?_set]
  show (((∅ : Dict Text (Config PyFloat)).set changed definition).get? key).or (configs.get? key) = _
  rw [Dict.get?_set]
  by_cases hkey : key = changed
  · rw [if_pos hkey, if_pos hkey]
    rfl
  · rw [if_neg hkey, if_neg hkey]
    rfl

/-- A call that stores something and announces it as an update if the connection is connected. -/
theorem Inv.dispatchIfConnected (h : s.Inv hand) (hflow : SameFlow s s') (hsame : s'.connected = s.connected)
    (hfree : (s.calls i).delivers = false) {update : ConfigBundle} (hread : update.unreadableKeys = [])
    (hstored : ∀ key, (configUpdate key update).apply (s.configs.get? key) = s'.configs.get? key) :
    (s'.dispatchIfConnected i update).Inv hand := by
  unfold InMemoryConnection.dispatchIfConnected
  by_cases hconnected : s'.connected = true
  · rw [if_pos hconnected]
    refine h.dispatch hflow hfree hread (fun key held hheld => ?_) none
    rw [hheld (hsame ▸ hconnected)]
    exact hstored key
  · rw [if_neg hconnected]
    exact h.congr hflow fun hconnected' => absurd hconnected' hconnected

theorem Inv.setValue [Unicode] (h : s.Inv hand) (hfree : (s.calls i).delivers = false) (key value : PyValue) :
    (s.setValue i key value).Inv hand := by
  unfold InMemoryConnection.setValue
  cases testConfig key value with
  | error e => exact h
  | ok definition =>
    refine h.dispatchIfConnected ?_ ?_ hfree rfl fun key => ?_
    · exact ⟨rfl, rfl, rfl, rfl, rfl⟩
    · rfl
    · exact apply_deltaUpdate s.configs definition.key definition key

theorem Inv.removeValue [Unicode] (h : s.Inv hand) (hfree : (s.calls i).delivers = false) (key : PyValue) :
    (s.removeValue i key).Inv hand := by
  unfold InMemoryConnection.removeValue
  cases validateConfigKey key with
  | error e => exact h
  | ok key =>
    refine h.dispatchIfConnected ?_ ?_ hfree rfl fun other => ?_
    · exact ⟨rfl, rfl, rfl, rfl, rfl⟩
    · rfl
    · exact apply_fullUpdate _ other _

theorem Inv.replaceValues [Unicode] (h : s.Inv hand) (hfree : (s.calls i).delivers = false) (values : Dict Text PyValue) :
    (s.replaceValues i values).Inv hand := by
  unfold InMemoryConnection.replaceValues
  cases testConfigs values with
  | error e => exact h
  | ok configs =>
    refine h.dispatchIfConnected ?_ ?_ hfree rfl fun other => ?_
    · exact ⟨rfl, rfl, rfl, rfl, rfl⟩
    · rfl
    · exact apply_fullUpdate _ other _

theorem Inv.completeInitialization (h : s.Inv hand) (hfree : (s.calls i).delivers = false) :
    (s.completeInitialization i).Inv hand := by
  unfold InMemoryConnection.completeInitialization
  cases s.held with
  | some attempt =>
    refine h.dispatch ?_ hfree rfl (fun key held _ => ?_) (some attempt)
    · exact ⟨rfl, rfl, rfl, rfl, rfl⟩
    · exact apply_fullUpdate s key held
  | none =>
    by_cases harmed : s.armed = some .hold
    · simp only [if_pos harmed]
      exact h.congr ⟨rfl, rfl, rfl, rfl, rfl⟩ fun hconnected => ⟨hconnected, rfl⟩
    · simp only [if_neg harmed]
      exact h

theorem settle_connected (s : InMemoryConnection) (attempt : Option ℕ) (outcome : Outcome) :
    (s.settle attempt outcome).connected = s.connected ∧ (s.settle attempt outcome).configs = s.configs := by
  cases attempt with
  | none => exact ⟨rfl, rfl⟩
  | some a => exact ⟨rfl, rfl⟩

theorem Inv.failInitialization (h : s.Inv hand) : s.failInitialization.Inv hand := by
  unfold InMemoryConnection.failInitialization
  cases s.held with
  | some attempt => exact h.congr ⟨rfl, rfl, rfl, rfl, rfl⟩ fun hconnected => ⟨hconnected, rfl⟩
  | none => exact h.congr ⟨rfl, rfl, rfl, rfl, rfl⟩ fun hconnected => ⟨hconnected, rfl⟩

theorem Inv.connect (h : s.Inv hand) (hfree : (s.calls i).delivers = false) : (s.connect i).Inv hand := by
  have hflow := sameFlow_settle { s with connected := false, held := none, armed := none } s.held .ended
  have hsettled := settle_connected { s with connected := false, held := none, armed := none } s.held .ended
  unfold InMemoryConnection.connect
  generalize settle { s with connected := false, held := none, armed := none } s.held .ended = disconnected
    at hflow hsettled ⊢
  have hinv : disconnected.Inv hand := by
    refine h.congr ⟨hflow.client, hflow.pending, hflow.delivering, hflow.calls, hflow.unqueued⟩ fun hconnected => ?_
    rw [hsettled.1] at hconnected
    cases hconnected
  have hfree' : (disconnected.calls i).delivers = false := by
    rw [hflow.calls]
    exact hfree
  cases s.armed with
  | none => exact hinv.setCall hfree' rfl
  | some armed =>
    cases armed with
    | hold =>
      refine Inv.setCall ?_ ?_ ?_
      · refine hinv.congr ?_ fun hconnected => ⟨hconnected, rfl⟩
        exact ⟨rfl, rfl, rfl, rfl, rfl⟩
      · exact hfree'
      · rfl
    | failure => exact hinv

theorem Inv.endAttempt (h : s.Inv hand) (attempt : ℕ) : (s.endAttempt attempt).Inv hand := by
  unfold InMemoryConnection.endAttempt
  split
  · exact h.congr ⟨rfl, rfl, rfl, rfl, rfl⟩ fun hconnected => ⟨hconnected, rfl⟩
  · exact h

theorem endAttempt_calls (s : InMemoryConnection) (attempt : ℕ) : (s.endAttempt attempt).calls = s.calls := by
  unfold InMemoryConnection.endAttempt
  split
  · rfl
  · rfl

theorem Inv.go (h : s.Inv hand) (horder : s.InOrder (.go i)) (hs : s.go i = some s') : ∃ hand', s'.Inv hand' := by
  cases hcall : s.calls i with
  | idle =>
    simp only [InMemoryConnection.go, hcall] at hs
    cases hs
  | connecting =>
    simp only [InMemoryConnection.go, hcall, Option.some.injEq] at hs
    rw [← hs]
    refine ⟨hand, h.dispatch ?_ (by rw [hcall]; rfl) rfl (fun key held _ => ?_) none⟩
    · exact ⟨rfl, rfl, rfl, rfl, rfl⟩
    · exact apply_fullUpdate s key held
  | waiting attempt =>
    simp only [InMemoryConnection.go, hcall, Option.ite_none_right_eq_some, Option.some.injEq] at hs
    obtain ⟨-, rfl⟩ := hs
    exact ⟨hand, h.setCall (by rw [hcall]; rfl) rfl⟩
  | completing attempt =>
    simp only [InMemoryConnection.go, hcall, Option.some.injEq] at hs
    rw [← hs]
    have hsettled : (s.settle (some attempt) .completed).Inv hand :=
      h.congr (sameFlow_settle s _ _) fun hconnected => ⟨hconnected, rfl⟩
    exact ⟨hand, hsettled.setCall (by rw [(sameFlow_settle s _ _).calls, hcall]; rfl) rfl⟩
  | delivering stage completes =>
    cases stage with
    | enqueueing update =>
      simp only [InOrder, hcall] at horder
      exact ⟨hand, h.go_enqueueing hcall horder hs⟩
    | popping => exact h.go_popping hcall hs
    | applying update => exact h.go_applying hcall hs
    | notifying => exact h.go_notifying hcall hs

/-- The other calls on the client leave the configs it holds. -/
theorem Inv.perform (h : s.Inv hand) {op : ClientOp} (hconfigs : (s.client.perform op).configs = s.client.configs)
    (hclosed : (s.client.perform op).closed = s.client.closed) : { s with client := s.client.perform op }.Inv hand := by
  have hheld : ∀ key, (s.client.perform op).held key = s.client.held key := by
    intro key
    unfold ClientState.held
    rw [hconfigs]
  refine ⟨hclosed.trans h.opened, h.drawn, h.unqueued, h.distinct, h.readable, fun hconnected key => ?_⟩
  show after ((s.client.perform op).held key) _ = s.configs.get? key
  rw [hheld]
  exact h.onCourse hconnected key

theorem configs_perform (client : ClientState) {op : ClientOp} (hbundle : ∀ bundle, op ≠ .bundle bundle)
    (hclose : op ≠ .close) :
    (client.perform op).configs = client.configs ∧ (client.perform op).closed = client.closed := by
  cases op with
  | bundle bundle => exact absurd rfl (hbundle bundle)
  | close => exact absurd rfl hclose
  | watch key watcher => exact ⟨rfl, rfl⟩
  | unwatchAll => exact ⟨rfl, rfl⟩
  | on event handler => exact ⟨rfl, rfl⟩
  | removeHandler event handler => exact ⟨rfl, rfl⟩
  | off event handler =>
    cases handler with
    | none => exact ⟨rfl, rfl⟩
    | some handler => exact ⟨rfl, rfl⟩
  | unwatch key callback =>
    show (client.unwatch key callback).configs = _ ∧ (client.unwatch key callback).closed = _
    unfold ClientState.unwatch
    split
    · exact ⟨rfl, rfl⟩
    · exact ⟨rfl, rfl⟩
    · cases callback with
      | none => exact ⟨rfl, rfl⟩
      | some handler => exact ⟨rfl, rfl⟩
  | removeWatcher key ident =>
    show (client.removeWatcher key ident).configs = _ ∧ (client.removeWatcher key ident).closed = _
    unfold ClientState.removeWatcher
    split
    · exact ⟨rfl, rfl⟩
    · split
      · exact ⟨rfl, rfl⟩
      · exact ⟨rfl, rfl⟩

theorem begin_eq_some {called : InMemoryConnection} (hs : s.begin i called = some s') :
    (s.calls i).delivers = false ∧ s' = called := by
  unfold InMemoryConnection.begin at hs
  split at hs
  · rename_i hidle
    cases hs
    rw [hidle]
    exact ⟨rfl, rfl⟩
  · cases hs

theorem inv_step [Unicode] (s : InMemoryConnection) (e : ConnectionStep) (s' : InMemoryConnection)
    (h : ∃ hand, s.Inv hand)
    (horder : s.InOrder e) (hs : s.step e = some s') : ∃ hand, s'.Inv hand := by
  obtain ⟨hand, h⟩ := h
  cases e with
  | setValue i key value =>
    obtain ⟨hfree, rfl⟩ := begin_eq_some hs
    exact ⟨hand, h.setValue hfree key value⟩
  | removeValue i key =>
    obtain ⟨hfree, rfl⟩ := begin_eq_some hs
    exact ⟨hand, h.removeValue hfree key⟩
  | replaceValues i values =>
    obtain ⟨hfree, rfl⟩ := begin_eq_some hs
    exact ⟨hand, h.replaceValues hfree values⟩
  | holdInitialization =>
    cases hs
    exact ⟨hand, h.congr (s := s) ⟨rfl, rfl, rfl, rfl, rfl⟩ fun hconnected => ⟨hconnected, rfl⟩⟩
  | completeInitialization i =>
    obtain ⟨hfree, rfl⟩ := begin_eq_some hs
    exact ⟨hand, h.completeInitialization hfree⟩
  | failInitialization =>
    cases hs
    exact ⟨hand, h.failInitialization⟩
  | connect i =>
    obtain ⟨hfree, rfl⟩ := begin_eq_some hs
    exact ⟨hand, h.connect hfree⟩
  | go i => exact h.go horder hs
  | timeOut i =>
    simp only [step] at hs
    split at hs
    · rename_i attempt hwaiting
      cases hs
      refine ⟨hand, (h.endAttempt attempt).setCall ?_ rfl⟩
      rw [endAttempt_calls, hwaiting]
      rfl
    · cases hs
  | escape i => exact horder.elim
  | perform op =>
    simp only [step] at hs
    split at hs
    · cases hs
    · cases hs
    · rename_i hbundle hclose
      cases hs
      obtain ⟨hconfigs, hclosed⟩ := configs_perform s.client hbundle hclose
      exact ⟨hand, h.perform hconfigs hclosed⟩

/-- In any run in which no update enters the queue ahead of an older one with which it disagrees, and no `BaseException`
escapes, the client holds the configs stored whenever no call is in progress and the connection is connected. -/
theorem converged_in_order [Unicode] (configs : Dict Text (Config PyFloat)) (handlers : ClientEvent → List ℕ)
    (es : List ConnectionStep) (horder : Transition.Obeys step InOrder (init configs handlers) es) :
    Transition.Always step Converged (init configs handlers) es :=
  Transition.always_of_obeys inv_step (fun _ ⟨_, hinv⟩ => hinv.converged) ⟨[], inv_init configs handlers⟩ horder

/-- The remaining steps of a call whose update finds the queue empty. -/
def deliverAlone (i : ℕ) : List ConnectionStep := List.replicate 5 (.go i)

/-- The client connects, and a value is stored afterwards. -/
def storing : List ConnectionStep :=
  [.connect 0, .go 0] ++ deliverAlone 0 ++ [.setValue 0 (.str (lit "a")) (.bool true)] ++ deliverAlone 0

theorem storing_converges : ∃ (_ : Unicode) (s : InMemoryConnection),
    Transition.run step (init ∅ fun _ => []) storing = some s ∧ s.client.held (lit "a") = s.configs.get? (lit "a") := by
  let _ : Unicode := .ascii
  have horder : Transition.Obeys step InOrder (init ∅ fun _ => []) storing := by
    have hnone : ∀ p ∈ ([] : List (ℕ × ConfigBundle)), ∀ update, UpdatesAgree update p.2 := fun p hp => by cases hp
    refine .cons trivial rfl (.cons trivial rfl (.cons (fun _ p hp => hnone p hp _) rfl
      (.cons trivial rfl (.cons trivial rfl
      (.cons trivial rfl (.cons trivial rfl (.cons trivial rfl (.cons (fun _ p hp => hnone p hp _) rfl (.cons trivial rfl
      (.cons trivial rfl (.cons trivial rfl (.cons trivial rfl trivial))))))))))))
  obtain ⟨s, hrun, hidle, hconnected⟩ : ∃ s, Transition.run step (init ∅ fun _ => []) storing = some s ∧
      (∀ i, s.calls i = .idle) ∧ s.connected = true := by
    refine ⟨_, rfl, fun i => ?_, rfl⟩
    rcases i with _ | i <;> rfl
  have hconverged := Transition.always_iff.1 (converged_in_order ∅ (fun _ => []) storing horder) storing [] s
    (List.append_nil _).symm hrun
  exact ⟨.ascii, s, hrun, hconverged hidle hconnected (lit "a")⟩

/-- The client connects; two calls store a value of one config, and the update of the second is delivered first. -/
def overtaking : List ConnectionStep :=
  [.connect 0, .go 0] ++ deliverAlone 0 ++
    [.setValue 0 (.str (lit "a")) (.bool true), .setValue 1 (.str (lit "a")) (.bool false)] ++
      deliverAlone 1 ++ deliverAlone 0

theorem overtaken_update_diverges : ¬ ∀ (_ : Unicode) (configs : Dict Text (Config PyFloat))
    (handlers : ClientEvent → List ℕ)
    (es : List ConnectionStep), Transition.Always step Converged (init configs handlers) es := by
  intro h
  let _ : Unicode := .ascii
  obtain ⟨s, hrun, hidle, hconnected, hclient, hstored⟩ :
      ∃ s, Transition.run step (init ∅ fun _ => []) overtaking = some s ∧
      (∀ i, s.calls i = .idle) ∧ s.connected = true ∧
      (s.client.held (lit "a")).map (fun definition => definition.target.defaultValue) = some (lit "true") ∧
      (s.configs.get? (lit "a")).map (fun definition => definition.target.defaultValue) = some (lit "false") := by
    refine ⟨_, rfl, fun i => ?_, rfl, rfl, rfl⟩
    rcases i with _ | _ | i <;> rfl
  have hconverged := Transition.always_iff.1 (h .ascii ∅ (fun _ => []) overtaking)
    overtaking [] s (List.append_nil _).symm hrun
  rw [hconverged hidle hconnected, hstored] at hclient
  exact absurd hclient (by decide)

/-! ## Calls that take turns -/

/-- It is a section under the state lock that may compute an update. -/
def Stores (s : InMemoryConnection) : ConnectionStep → Bool
  | .setValue _ _ _ | .removeValue _ _ | .replaceValues _ _ | .completeInitialization _ => true
  | .go i =>
    match s.calls i with
    | .connecting => true
    | _ => false
  | _ => false

/-- No update is computed while another is not queued yet: the calls of one thread, from handlers and watchers too. And no
`BaseException` escapes. -/
def InTurn (s : InMemoryConnection) (e : ConnectionStep) : Prop :=
  (∀ i, e ≠ .escape i) ∧ (s.Stores e = true → s.unqueued = [])

theorem length_dispatchIfConnected (s : InMemoryConnection) (i : ℕ) (update : ConfigBundle) :
    (s.dispatchIfConnected i update).unqueued.length ≤ s.unqueued.length + 1 := by
  unfold dispatchIfConnected
  split
  · exact (List.length_append ..).le
  · exact Nat.le_succ _

theorem unqueued_delivered (s : InMemoryConnection) (i : ℕ) (completes : Option ℕ) :
    (s.delivered i completes).unqueued = s.unqueued := by
  cases completes <;> rfl

theorem unqueued_connect (s : InMemoryConnection) (i : ℕ) : (s.connect i).unqueued = s.unqueued := by
  have hsettled := (sameFlow_settle { s with connected := false, held := none, armed := none } s.held .ended).unqueued
  unfold connect
  split
  · exact hsettled
  · exact hsettled
  · exact hsettled

theorem unqueued_failInitialization (s : InMemoryConnection) : s.failInitialization.unqueued = s.unqueued := by
  unfold failInitialization
  split
  · rfl
  · rfl

theorem unqueued_endAttempt (s : InMemoryConnection) (attempt : ℕ) : (s.endAttempt attempt).unqueued = s.unqueued := by
  unfold endAttempt
  split
  · rfl
  · rfl

theorem length_go (hs : s.go i = some s') :
    s'.unqueued.length ≤ s.unqueued.length ∨ s.Stores (.go i) = true ∧ s'.unqueued.length ≤ s.unqueued.length + 1 := by
  unfold go at hs
  split at hs
  · cases hs
  · rename_i hconnecting
    cases hs
    refine .inr ⟨?_, (List.length_append ..).le⟩
    simp only [Stores, hconnecting]
  · split at hs
    · cases hs
      exact .inl le_rfl
    · cases hs
  · split at hs
    · cases hs
      rw [unqueued_delivered]
      exact .inl (List.length_filter_le _ _)
    · cases hs
      exact .inl (List.length_filter_le _ _)
  · split at hs
    · cases hs
      rw [unqueued_delivered]
      exact .inl le_rfl
    · cases hs
      exact .inl le_rfl
  · split at hs
    · cases hs
      exact .inl le_rfl
    · cases hs
      exact .inl le_rfl
  · cases hs
    exact .inl le_rfl
  · cases hs
    exact .inl le_rfl

/-- A step computes one update at most, under the state lock. -/
theorem length_step [Unicode] {e : ConnectionStep} (hs : s.step e = some s') :
    s'.unqueued.length ≤ s.unqueued.length ∨ s.Stores e = true ∧ s'.unqueued.length ≤ s.unqueued.length + 1 := by
  cases e with
  | setValue i key value =>
    obtain ⟨-, rfl⟩ := begin_eq_some hs
    refine .inr ⟨rfl, ?_⟩
    unfold setValue
    split
    · exact length_dispatchIfConnected _ _ _
    · exact Nat.le_succ _
  | removeValue i key =>
    obtain ⟨-, rfl⟩ := begin_eq_some hs
    refine .inr ⟨rfl, ?_⟩
    unfold removeValue
    split
    · exact length_dispatchIfConnected _ _ _
    · exact Nat.le_succ _
  | replaceValues i values =>
    obtain ⟨-, rfl⟩ := begin_eq_some hs
    refine .inr ⟨rfl, ?_⟩
    unfold replaceValues
    split
    · exact length_dispatchIfConnected _ _ _
    · exact Nat.le_succ _
  | holdInitialization =>
    cases hs
    exact .inl le_rfl
  | completeInitialization i =>
    obtain ⟨-, rfl⟩ := begin_eq_some hs
    refine .inr ⟨rfl, ?_⟩
    unfold completeInitialization
    split
    · exact (List.length_append ..).le
    · split
      · exact Nat.le_succ _
      · exact Nat.le_succ _
  | failInitialization =>
    cases hs
    rw [unqueued_failInitialization]
    exact .inl le_rfl
  | connect i =>
    obtain ⟨-, rfl⟩ := begin_eq_some hs
    rw [unqueued_connect]
    exact .inl le_rfl
  | go i => exact length_go hs
  | timeOut i =>
    simp only [step] at hs
    split at hs
    · cases hs
      exact .inl (congrArg List.length (unqueued_endAttempt s _)).le
    · cases hs
  | escape i =>
    simp only [step] at hs
    split at hs
    · cases hs
      exact .inl le_rfl
    · cases hs
  | perform op =>
    simp only [step] at hs
    split at hs
    · cases hs
    · cases hs
    · cases hs
      exact .inl le_rfl

/-- An update that is queued before the next is computed overtakes none. -/
theorem Inv.inOrder (h : s.Inv hand) (hone : s.unqueued.length ≤ 1) {e : ConnectionStep} (hturn : s.InTurn e) :
    s.InOrder e := by
  cases e with
  | go i =>
    simp only [InOrder]
    split
    · rename_i update completes hcall
      intro _ p hp
      have hmem : (i, update) ∈ s.unqueued := (h.unqueued i update).2 ⟨completes, hcall⟩
      obtain ⟨q, hq⟩ := List.length_eq_one_iff.1 (Nat.le_antisymm hone (List.length_pos_of_mem hmem))
      rw [hq, List.mem_singleton] at hmem
      rw [olderThan, hq, ← hmem, List.takeWhile_cons_of_neg (by simp)] at hp
      cases hp
    · trivial
  | escape i => exact absurd rfl (hturn.1 i)
  | _ => trivial

/-- In any run in which the calls take turns, the client holds the configs stored whenever no call is in progress and the
connection is connected. -/
theorem converged_in_turn [Unicode] (configs : Dict Text (Config PyFloat)) (handlers : ClientEvent → List ℕ)
    (es : List ConnectionStep) (hturn : Transition.Obeys step InTurn (init configs handlers) es) :
    Transition.Always step Converged (init configs handlers) es := by
  have hstep : ∀ (s : InMemoryConnection) (e : ConnectionStep) (s' : InMemoryConnection),
      ((∃ hand, s.Inv hand) ∧ s.unqueued.length ≤ 1) → s.InTurn e → s.step e = some s' →
        (∃ hand, s'.Inv hand) ∧ s'.unqueued.length ≤ 1 := by
    rintro s e s' ⟨⟨hand, h⟩, hone⟩ hturn hs
    refine ⟨inv_step s e s' ⟨hand, h⟩ (h.inOrder hone hturn) hs, ?_⟩
    rcases length_step hs with hle | ⟨hstores, hle⟩
    · exact hle.trans hone
    · rw [hturn.2 hstores] at hle
      exact hle
  exact Transition.always_of_obeys hstep (fun _ ⟨⟨_, hinv⟩, _⟩ => hinv.converged)
    ⟨⟨[], inv_init configs handlers⟩, Nat.zero_le 1⟩ hturn

end InMemoryConnection

end ConfigDirector.Testing
