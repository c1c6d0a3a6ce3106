/-
Callbacks that are cancelled. Handlers and watchers are called outside the lock from snapshots, one at a
time; between any two calls others may be registered and cancelled, by the callbacks themselves or by other
threads. A registration is a place in a list of the client, and is cancelled once the call that has taken it
out has returned.
-/
import ConfigDirector.Client.Once

namespace ConfigDirector.Client

open Python Evaluation

/-! ## Model -/

/-- A handler kept for an event: `ident` is the `on` call that registered it. -/
structure Handler where
  ident : ℕ
  handler : ℕ

/-- What a call of the client that runs callbacks has still to do. -/
inductive Task
  /-- `_emit`: a snapshot of the handlers is taken. -/
  | emit (event : ClientEvent)
  | call (handler : Handler)
  /-- The value for a watcher of a snapshot. -/
  | evaluate (key : Text) (watcher : Watcher) (definition : Option (Config PyFloat)) (segments : Segments)
  | notify (watcher : Watcher)

/-- What is left of `_on_bundle` after its locked step. -/
def Delivery.tasks (d : Delivery) : List Task :=
  .emit .configsUpdated :: (d.calls.map (fun p => .evaluate p.1 p.2 (d.definitions p.1) d.segments) ++
    if d.firstBundle then [.emit .clientReady] else [])

/-- The client, with its handlers told apart, and the calls in progress. -/
structure Callbacks where
  store : ClientState
  handlers : ClientEvent → List Handler
  /-- The registrations made. -/
  created : ℕ
  /-- The calls that run callbacks. -/
  running : List (List Task)
  /-- What each call has taken out that has not returned. -/
  cancelling : List (List ℕ)
  /-- What the calls that have returned have taken out. -/
  cancelled : List ℕ
  /-- The cancelled registrations whose callback has been started. -/
  stale : List ℕ

inductive CallbackStep
  /-- An operation under the lock. -/
  | perform (op : ClientOp)
  | getValue (key default : PyValue) (context : Option Context)
  /-- The next step of a call that runs callbacks. -/
  | go (i : ℕ)
  /-- An operation returns. -/
  | returns (i : ℕ)

namespace Callbacks

/-- A client that has just been built; its hooks are attached by `on`. -/
def init : Callbacks := ⟨.init fun _ => [], fun _ => [], 0, [], [], [], []⟩

/-- The registrations the client keeps. -/
def registered (s : Callbacks) : List ℕ :=
  ([.clientReady, .configsUpdated, .configEvaluated].flatMap fun event => (s.handlers event).map (·.ident)) ++
    s.store.watchers.entries.flatMap fun p => p.2.map (·.ident)

/-- `handlers.remove(handler)`, if it is there. -/
def removed (s : Callbacks) (event : ClientEvent) (handler : ℕ) : ClientEvent → List Handler :=
  Function.update s.handlers event ((s.handlers event).eraseP fun registration => registration.handler = handler)

/-- What an operation does to the handlers, as `ClientState.perform` does it. -/
def handlersAfter (s : Callbacks) (op : ClientOp) : ClientEvent → List Handler :=
  match op with
  | .on event handler => Function.update s.handlers event (s.handlers event ++ [⟨s.created, handler⟩])
  | .removeHandler event handler => s.removed event handler
  | .off event handler =>
    match handler with
    | some handler => s.removed event handler
    | none => Function.update s.handlers event []
  | .close => if s.store.closed then s.handlers else fun _ => []
  | _ => s.handlers

/-- An operation that registers nothing: what it takes out it has still to return from. -/
def cancel (s : Callbacks) (op : ClientOp) : Callbacks :=
  let after : Callbacks := { s with store := s.store.perform op, handlers := s.handlersAfter op }
  { after with cancelling := s.cancelling ++ [s.registered.filter fun ident => ident ∉ after.registered] }

/-- An operation: a bundle begins a call that runs callbacks, and a registration is a new one. -/
def performStep (s : Callbacks) (op : ClientOp) : Option Callbacks :=
  match op with
  | .bundle bundle =>
    match s.store.onBundle bundle with
    | some (store, delivery) => some { s with store := store, running := s.running ++ [delivery.tasks] }
    | none => some s
  | .watch key watcher =>
    if watcher.ident = s.created then some { s with store := s.store.watch key watcher, created := s.created + 1 }
    else none
  | .on event handler =>
    some { s with
      store := s.store.on event handler
      handlers := s.handlersAfter (.on event handler)
      created := s.created + 1 }
  | op => some (s.cancel op)

/-- A callback is started. -/
def start (s : Callbacks) (ident : ℕ) : Callbacks :=
  if ident ∈ s.cancelled then { s with stale := ident :: s.stale } else s

section Step

variable [Unicode] (lib : Library) (metadata : Metadata)

/-- The next task of a call, and what is left then. An evaluation that raises passes its watcher over. -/
def taskStep (s : Callbacks) (task : Task) (rest : List Task) : Callbacks × List Task :=
  match task with
  | .emit event => (s, (s.handlers event).map .call ++ rest)
  | .call handler => (s.start handler.ident, rest)
  | .evaluate key watcher definition segments =>
    match Deliveries.watched lib metadata s.store.ready key definition watcher segments with
    | .ok _ => (s, .emit .configEvaluated :: .notify watcher :: rest)
    | .error _ => (s, rest)
  | .notify watcher => (s.start watcher.ident, rest)

def step (s : Callbacks) : CallbackStep → Option Callbacks
  | .perform op => s.performStep op
  | .getValue key default context =>
    match getValue lib metadata s.store key default context with
    | .ok _ => some { s with running := s.running ++ [[.emit .configEvaluated]] }
    | .error _ => some s
  | .go i =>
    match s.running[i]? with
    | some (task :: rest) =>
      let (s', tasks) := s.taskStep lib metadata task rest
      some { s' with running := s'.running.set i tasks }
    | _ => none
  | .returns i =>
    match s.cancelling[i]? with
    | some taken => some { s with cancelling := s.cancelling.set i [], cancelled := s.cancelled ++ taken }
    | none => none

end Step

end Callbacks

section Silence

variable [Unicode] (lib : Library) (metadata : Metadata)

/-- The registrations whose callbacks a task comes to start. -/
def Task.pending : Task → List ℕ
  | .emit _ => []
  | .call handler => [handler.ident]
  | .evaluate key watcher definition segments =>
    match Deliveries.watched lib metadata true key definition watcher segments with
    | .ok _ => [watcher.ident]
    | .error _ => []
  | .notify watcher => [watcher.ident]

namespace Callbacks

/-- However the calls in progress go on, they start no callback that has been cancelled. -/
def Silent (s : Callbacks) : Prop := ∀ (calls : List ℕ) (s' : Callbacks),
  Transition.run (step lib metadata) s (calls.map .go) = some s' → s'.stale = []

/-- An operation returns when nothing that it has taken out is in a snapshot of a call in progress. -/
def ReturnsClear (s : Callbacks) : CallbackStep → Prop
  | .returns i => ∀ taken, s.cancelling[i]? = some taken → ∀ tasks ∈ s.running, ∀ task ∈ tasks,
      ∀ ident ∈ task.pending lib metadata, ident ∉ taken
  | _ => True

end Callbacks

end Silence

namespace Callbacks

/-! ## What is registered -/

theorem mem_registered (s : Callbacks) (ident : ℕ) : ident ∈ s.registered ↔
    (∃ event, ∃ handler ∈ s.handlers event, handler.ident = ident) ∨
      ∃ key, ∃ watcher ∈ s.store.watching key, watcher.ident = ident := by
  unfold registered
  rw [List.mem_append, List.mem_flatMap, List.mem_flatMap]
  refine or_congr ?_ ?_
  · constructor
    · rintro ⟨event, -, h⟩
      exact ⟨event, List.mem_map.1 h⟩
    · rintro ⟨event, h⟩
      exact ⟨event, by cases event <;> simp, List.mem_map.2 h⟩
  · constructor
    · rintro ⟨⟨key, entries⟩, hentry, h⟩
      obtain ⟨watcher, hwatcher, rfl⟩ := List.mem_map.1 h
      refine ⟨key, watcher, ?_, rfl⟩
      unfold ClientState.watching
      rw [(Dict.get?_eq_some_iff _ _ _).2 hentry]
      exact hwatcher
    · rintro ⟨key, watcher, hwatcher, rfl⟩
      unfold ClientState.watching at hwatcher
      cases hget : s.store.watchers.get? key with
      | none =>
        rw [hget] at hwatcher
        cases hwatcher
      | some entries =>
        rw [hget] at hwatcher
        exact ⟨(key, entries), (Dict.get?_eq_some_iff _ _ _).1 hget, List.mem_map.2 ⟨watcher, hwatcher, rfl⟩⟩

/-- What has been registered and taken out. -/
structure Known (s : Callbacks) : Prop where
  registered : ∀ ident ∈ s.registered, ident < s.created
  cancelled : ∀ ident ∈ s.cancelled, ident < s.created ∧ ident ∉ s.registered
  cancelling : ∀ taken ∈ s.cancelling, ∀ ident ∈ taken, ident < s.created ∧ ident ∉ s.registered

theorem known_init : Known init where
  registered := nofun
  cancelled := nofun
  cancelling := nofun

/-- Registering one keeps what is taken out apart from what is registered. -/
theorem Known.registers {s s' : Callbacks} (h : Known s) (hcreated : s'.created = s.created + 1)
    (hregistered : ∀ ident ∈ s'.registered, ident ∈ s.registered ∨ ident = s.created)
    (hcancelled : s'.cancelled = s.cancelled) (hcancelling : s'.cancelling = s.cancelling) : Known s' := by
  have hnew : ∀ ident, ident < s.created ∧ ident ∉ s.registered → ident < s'.created ∧ ident ∉ s'.registered := by
    rintro ident ⟨hlt, hnot⟩
    refine ⟨by omega, fun hmem => ?_⟩
    rcases hregistered ident hmem with hold | rfl
    · exact hnot hold
    · exact absurd hlt (lt_irrefl _)
  refine ⟨fun ident hmem => ?_, ?_, ?_⟩
  · rcases hregistered ident hmem with hold | rfl
    · have := h.registered ident hold
      omega
    · omega
  · rw [hcancelled]
    exact fun ident hmem => hnew ident (h.cancelled ident hmem)
  · rw [hcancelling]
    exact fun taken htaken ident hmem => hnew ident (h.cancelling taken htaken ident hmem)

/-- Taking some out keeps it too. -/
theorem Known.takes {s s' : Callbacks} (h : Known s) (hcreated : s'.created = s.created)
    (hregistered : ∀ ident ∈ s'.registered, ident ∈ s.registered) (hcancelled : s'.cancelled = s.cancelled)
    (hcancelling : ∀ taken ∈ s'.cancelling, taken ∈ s.cancelling ∨
      ∀ ident ∈ taken, ident ∈ s.registered ∧ ident ∉ s'.registered) : Known s' := by
  have hold : ∀ ident, ident < s.created ∧ ident ∉ s.registered → ident < s'.created ∧ ident ∉ s'.registered :=
    fun ident hident => ⟨hcreated ▸ hident.1, fun hmem => hident.2 (hregistered ident hmem)⟩
  refine ⟨fun ident hmem => hcreated ▸ h.registered ident (hregistered ident hmem), ?_, ?_⟩
  · rw [hcancelled]
    exact fun ident hmem => hold ident (h.cancelled ident hmem)
  · intro taken htaken ident hmem
    rcases hcancelling taken htaken with hbefore | hnow
    · exact hold ident (h.cancelling taken hbefore ident hmem)
    · obtain ⟨hin, hout⟩ := hnow ident hmem
      exact ⟨hcreated ▸ h.registered ident hin, hout⟩

theorem removed_sublist (s : Callbacks) (event : ClientEvent) (handler : ℕ) (e : ClientEvent) :
    (s.removed event handler e).Sublist (s.handlers e) := by
  unfold removed
  rw [Function.update_apply]
  split
  · rename_i heq
    rw [heq]
    exact List.eraseP_sublist
  · exact List.Sublist.refl _

/-- The operations that register nothing leave handlers or take them out. -/
theorem handlersAfter_sublist (s : Callbacks) {op : ClientOp} (hon : ∀ event handler, op ≠ .on event handler)
    (event : ClientEvent) : (s.handlersAfter op event).Sublist (s.handlers event) := by
  cases op with
  | on e handler => exact absurd rfl (hon e handler)
  | removeHandler e handler => exact removed_sublist s e handler event
  | off e handler =>
    cases handler with
    | some handler => exact removed_sublist s e handler event
    | none =>
      show (Function.update s.handlers e [] event).Sublist (s.handlers event)
      rw [Function.update_apply]
      split
      · exact List.nil_sublist _
      · exact List.Sublist.refl _
  | close =>
    show ((if s.store.closed then s.handlers else fun _ => []) event).Sublist (s.handlers event)
    split
    · exact List.Sublist.refl _
    · exact List.nil_sublist _
  | bundle _ => exact List.Sublist.refl _
  | watch _ _ => exact List.Sublist.refl _
  | unwatch _ _ => exact List.Sublist.refl _
  | unwatchAll => exact List.Sublist.refl _
  | removeWatcher _ _ => exact List.Sublist.refl _

/-! ## What each step does -/

/-- An operation begins a call that runs callbacks, registers one, or takes some out. -/
theorem performStep_cases {s s' : Callbacks} {op : ClientOp} (h : s.performStep op = some s') :
    (∃ bundle, op = .bundle bundle ∧ s.store.closed = false ∧ s' = { s with
      store := s.store.applied bundle
      running := s.running ++ [(s.store.delivery bundle).tasks] }) ∨
    s' = s ∨
    (∃ key watcher, op = .watch key watcher ∧ watcher.ident = s.created ∧
      s' = { s with store := s.store.watch key watcher, created := s.created + 1 }) ∨
    (∃ event handler, op = .on event handler ∧ s' = { s with
      store := s.store.on event handler
      handlers := s.handlersAfter (.on event handler)
      created := s.created + 1 }) ∨
    (∀ bundle, op ≠ .bundle bundle) ∧ (∀ key watcher, op ≠ .watch key watcher) ∧
      (∀ event handler, op ≠ .on event handler) ∧ s' = s.cancel op := by
  cases op with
  | bundle bundle =>
    simp only [performStep] at h
    cases hclosed : s.store.closed with
    | false =>
      rw [onBundle_open hclosed] at h
      exact .inl ⟨bundle, rfl, rfl, (Option.some.inj h).symm⟩
    | true =>
      rw [ClientState.onBundle, hclosed] at h
      exact .inr (.inl (Option.some.inj h).symm)
  | watch key watcher =>
    simp only [performStep] at h
    split at h
    · rename_i hident
      exact .inr (.inr (.inl ⟨key, watcher, rfl, hident, (Option.some.inj h).symm⟩))
    · cases h
  | on event handler => exact .inr (.inr (.inr (.inl ⟨event, handler, rfl, (Option.some.inj h).symm⟩)))
  | unwatch _ _ =>
    exact .inr (.inr (.inr (.inr ⟨fun _ heq => (by cases heq), fun _ _ heq => (by cases heq),
      fun _ _ heq => (by cases heq), (Option.some.inj h).symm⟩)))
  | unwatchAll =>
    exact .inr (.inr (.inr (.inr ⟨fun _ heq => (by cases heq), fun _ _ heq => (by cases heq),
      fun _ _ heq => (by cases heq), (Option.some.inj h).symm⟩)))
  | removeWatcher _ _ =>
    exact .inr (.inr (.inr (.inr ⟨fun _ heq => (by cases heq), fun _ _ heq => (by cases heq),
      fun _ _ heq => (by cases heq), (Option.some.inj h).symm⟩)))
  | removeHandler _ _ =>
    exact .inr (.inr (.inr (.inr ⟨fun _ heq => (by cases heq), fun _ _ heq => (by cases heq),
      fun _ _ heq => (by cases heq), (Option.some.inj h).symm⟩)))
  | off _ _ =>
    exact .inr (.inr (.inr (.inr ⟨fun _ heq => (by cases heq), fun _ _ heq => (by cases heq),
      fun _ _ heq => (by cases heq), (Option.some.inj h).symm⟩)))
  | close =>
    exact .inr (.inr (.inr (.inr ⟨fun _ heq => (by cases heq), fun _ _ heq => (by cases heq),
      fun _ _ heq => (by cases heq), (Option.some.inj h).symm⟩)))

theorem Known.perform {s s' : Callbacks} {op : ClientOp} (h : Known s) (hstep : s.performStep op = some s') :
    Known s' := by
  rcases performStep_cases hstep with ⟨bundle, -, -, rfl⟩ | rfl | ⟨key, watcher, -, hident, rfl⟩ |
      ⟨event, handler, -, rfl⟩ | ⟨hbundle, hwatch, hon, rfl⟩
  · exact h.takes rfl (fun ident hmem => hmem) rfl fun taken htaken => .inl htaken
  · exact h
  · refine h.registers rfl (fun ident hmem => ?_) rfl rfl
    rw [mem_registered] at hmem ⊢
    rcases hmem with hhandler | ⟨k, w, hw, rfl⟩
    · exact .inl (.inl hhandler)
    · rw [ClientState.watching_watch] at hw
      split at hw
      · rcases List.mem_append.1 hw with hold | hnew
        · exact .inl (.inr ⟨_, w, hold, rfl⟩)
        · rw [List.mem_singleton.1 hnew]
          exact .inr hident
      · exact .inl (.inr ⟨_, w, hw, rfl⟩)
  · refine h.registers rfl (fun ident hmem => ?_) rfl rfl
    rw [mem_registered] at hmem ⊢
    rcases hmem with ⟨e, registration, hregistration, rfl⟩ | hwatcher
    · have hafter : registration ∈ Function.update s.handlers event (s.handlers event ++ [⟨s.created, handler⟩]) e :=
        hregistration
      rw [Function.update_apply] at hafter
      split at hafter
      · rcases List.mem_append.1 hafter with hold | hnew
        · exact .inl (.inl ⟨_, registration, hold, rfl⟩)
        · rw [List.mem_singleton.1 hnew]
          exact .inr rfl
      · exact .inl (.inl ⟨_, registration, hafter, rfl⟩)
    · exact .inl (.inr hwatcher)
  · refine h.takes rfl (fun ident hmem => ?_) rfl fun taken htaken => ?_
    · rw [mem_registered] at hmem ⊢
      rcases hmem with ⟨e, registration, hregistration, rfl⟩ | ⟨key, watcher, hwatcher, rfl⟩
      · exact .inl ⟨e, registration, (handlersAfter_sublist s hon e).subset hregistration, rfl⟩
      · exact .inr ⟨key, watcher, (ClientState.watching_perform s.store hbundle hwatch key).subset hwatcher, rfl⟩
    · rcases List.mem_append.1 htaken with hbefore | hnow
      · exact .inl hbefore
      · right
        intro ident hmem
        rw [List.mem_singleton.1 hnow, List.mem_filter] at hmem
        exact ⟨hmem.1, of_decide_eq_true hmem.2⟩

/-! ## The handlers told apart -/

/-- The handlers told apart are those the client keeps. -/
def Tagged (s : Callbacks) : Prop := ∀ event, s.store.handlers event = (s.handlers event).map (·.handler)

theorem map_eraseP (handlers : List Handler) (handler : ℕ) :
    (handlers.eraseP fun registration => registration.handler = handler).map (·.handler) =
      (handlers.map (·.handler)).erase handler := by
  induction handlers with
  | nil => rfl
  | cons registration handlers ih =>
    by_cases h : registration.handler = handler
    · rw [List.eraseP_cons_of_pos (by simpa using h), List.map_cons, h, List.erase_cons_head]
    · rw [List.eraseP_cons_of_neg (by simpa using h), List.map_cons, List.map_cons, ih,
        List.erase_cons_tail (by simpa using h)]

theorem Tagged.removed {s : Callbacks} (h : Tagged s) (event : ClientEvent) (handler : ℕ) (e : ClientEvent) :
    (s.store.removeHandler event handler).handlers e = (s.removed event handler e).map (·.handler) := by
  show (if e = event then _ else _) = _
  unfold Callbacks.removed
  rw [Function.update_apply]
  split
  · rw [map_eraseP, ← h event]
  · exact h e

theorem Tagged.perform {s s' : Callbacks} {op : ClientOp} (h : Tagged s) (hstep : s.performStep op = some s') :
    Tagged s' := by
  rcases performStep_cases hstep with ⟨bundle, -, -, rfl⟩ | rfl | ⟨key, watcher, -, -, rfl⟩ |
      ⟨event, handler, -, rfl⟩ | ⟨hbundle, hwatch, hon, rfl⟩
  · exact h
  · exact h
  · exact h
  · intro e
    show (if e = event then _ else _) =
      (Function.update s.handlers event (s.handlers event ++ [⟨s.created, handler⟩]) e).map _
    rw [Function.update_apply]
    split
    · rw [List.map_append, ← h event]
      rfl
    · exact h e
  · intro e
    show (s.store.perform op).handlers e = (s.handlersAfter op e).map _
    cases op with
    | bundle bundle => exact absurd rfl (hbundle bundle)
    | watch key watcher => exact absurd rfl (hwatch key watcher)
    | on event handler => exact absurd rfl (hon event handler)
    | unwatch key callback =>
      refine Eq.trans ?_ (h e)
      show (s.store.unwatch key callback).handlers e = _
      unfold ClientState.unwatch
      split
      · rfl
      · rfl
      · split <;> rfl
    | unwatchAll => exact h e
    | removeWatcher key ident =>
      refine Eq.trans ?_ (h e)
      show (s.store.removeWatcher key ident).handlers e = _
      unfold ClientState.removeWatcher
      split
      · rfl
      · split <;> rfl
    | removeHandler event handler => exact h.removed event handler e
    | off event handler =>
      cases handler with
      | some handler => exact h.removed event handler e
      | none =>
        show (if e = event then [] else s.store.handlers e) = (Function.update s.handlers event [] e).map _
        rw [Function.update_apply]
        split
        · rfl
        · exact h e
    | close =>
      show s.store.close.handlers e = ((if s.store.closed then s.handlers else fun _ => []) e).map _
      unfold ClientState.close
      split
      · exact h e
      · rfl

section Step

variable [Unicode] {lib : Library} {metadata : Metadata}

variable (lib metadata) in
/-- The next task of a call: what is left comes from the rest, from the task or from what is registered, and a
callback is started if the task comes to one. -/
theorem taskStep_cases (s : Callbacks) (task : Task) (rest : List Task) :
    ∃ stale, (s.taskStep lib metadata task rest).1 = { s with stale := stale } ∧
      (stale = s.stale ∨ ∃ ident ∈ task.pending lib metadata, ident ∈ s.cancelled ∧ stale = ident :: s.stale) ∧
      ∀ t ∈ (s.taskStep lib metadata task rest).2, t ∈ rest ∨
        ∀ ident ∈ t.pending lib metadata, ident ∈ task.pending lib metadata ∨ ident ∈ s.registered := by
  have hstart : ∀ ident, ∃ stale, s.start ident = { s with stale := stale } ∧
      (stale = s.stale ∨ ident ∈ s.cancelled ∧ stale = ident :: s.stale) := by
    intro ident
    unfold start
    split
    · rename_i hmem
      exact ⟨_, rfl, .inr ⟨hmem, rfl⟩⟩
    · exact ⟨_, rfl, .inl rfl⟩
  cases task with
  | emit event =>
    refine ⟨s.stale, rfl, .inl rfl, fun t ht => ?_⟩
    rcases List.mem_append.1 ht with hcall | hrest
    · obtain ⟨handler, hhandler, rfl⟩ := List.mem_map.1 hcall
      right
      intro ident hident
      rw [List.mem_singleton.1 hident]
      exact .inr ((mem_registered s _).2 (.inl ⟨event, handler, hhandler, rfl⟩))
    · exact .inl hrest
  | call handler =>
    obtain ⟨stale, hstale, hcase⟩ := hstart handler.ident
    exact ⟨stale, hstale, hcase.imp_right fun h => ⟨_, List.mem_singleton_self _, h⟩, fun t ht => .inl ht⟩
  | notify watcher =>
    obtain ⟨stale, hstale, hcase⟩ := hstart watcher.ident
    exact ⟨stale, hstale, hcase.imp_right fun h => ⟨_, List.mem_singleton_self _, h⟩, fun t ht => .inl ht⟩
  | evaluate key watcher definition segments =>
    simp only [taskStep, Task.pending, Deliveries.watched_ready s.store.ready]
    cases Deliveries.watched lib metadata true key definition watcher segments with
    | error e => exact ⟨s.stale, rfl, .inl rfl, fun t ht => .inl ht⟩
    | ok value =>
      refine ⟨s.stale, rfl, .inl rfl, fun t ht => ?_⟩
      rcases List.mem_cons.1 ht with rfl | ht
      · exact .inr nofun
      · rcases List.mem_cons.1 ht with rfl | hrest
        · exact .inr fun ident hident => .inl hident
        · exact .inl hrest

theorem go_cases {s s' : Callbacks} {i : ℕ} (h : step lib metadata s (.go i) = some s') :
    ∃ task rest, s.running[i]? = some (task :: rest) ∧
      s' = { (s.taskStep lib metadata task rest).1 with
        running := s.running.set i (s.taskStep lib metadata task rest).2 } := by
  simp only [step] at h
  split at h
  · rename_i task rest hrunning
    obtain ⟨stale, hstale, -, -⟩ := taskStep_cases lib metadata s task rest
    refine ⟨task, rest, hrunning, ?_⟩
    rw [← Option.some.inj h, hstale]
  · cases h

/-- A step of a call that runs callbacks registers nothing and cancels nothing. -/
theorem go_frame {s s' : Callbacks} {i : ℕ} (h : step lib metadata s (.go i) = some s') :
    ∃ stale running, s' = { s with stale := stale, running := running } := by
  obtain ⟨task, rest, -, rfl⟩ := go_cases h
  obtain ⟨stale, hstale, -, -⟩ := taskStep_cases lib metadata s task rest
  rw [hstale]
  exact ⟨_, _, rfl⟩

theorem Known.step {s s' : Callbacks} {e : CallbackStep} (h : Known s) (hstep : step lib metadata s e = some s') :
    Known s' := by
  cases e with
  | perform op => exact h.perform hstep
  | getValue key default context =>
    simp only [Callbacks.step] at hstep
    split at hstep
    · rw [← Option.some.inj hstep]
      exact ⟨h.registered, h.cancelled, h.cancelling⟩
    · rw [← Option.some.inj hstep]
      exact h
  | go i =>
    obtain ⟨stale, running, rfl⟩ := go_frame hstep
    exact ⟨h.registered, h.cancelled, h.cancelling⟩
  | returns i =>
    simp only [Callbacks.step] at hstep
    split at hstep
    · rename_i taken htaken
      rw [← Option.some.inj hstep]
      have hmem : taken ∈ s.cancelling := List.mem_of_getElem? htaken
      refine ⟨h.registered, fun ident hident => ?_, fun t ht ident hident => ?_⟩
      · rcases List.mem_append.1 hident with hbefore | hnow
        · exact h.cancelled ident hbefore
        · exact h.cancelling taken hmem ident hnow
      · rcases List.mem_or_eq_of_mem_set ht with hold | rfl
        · exact h.cancelling t hold ident hident
        · cases hident
    · cases hstep

/-- They are in every state that is reached. -/
theorem tagged_run {steps : List CallbackStep} {s : Callbacks}
    (h : Transition.run (Callbacks.step lib metadata) init steps = some s) : Tagged s := by
  refine Transition.invariant_of_step (fun s e s' htagged hstep => ?_) (fun _ => rfl) h
  cases e with
  | perform op => exact htagged.perform hstep
  | getValue key default context =>
    simp only [Callbacks.step] at hstep
    split at hstep
    · rw [← Option.some.inj hstep]
      exact htagged
    · rw [← Option.some.inj hstep]
      exact htagged
  | go i =>
    obtain ⟨stale, running, rfl⟩ := go_frame hstep
    exact htagged
  | returns i =>
    simp only [Callbacks.step] at hstep
    split at hstep
    · rw [← Option.some.inj hstep]
      exact htagged
    · cases hstep

/-! ## Nothing cancelled is still to be called -/

/-- No cancelled callback has been started, and none is in a snapshot of a call in progress. -/
structure Quiet (lib : Library) (metadata : Metadata) (s : Callbacks) : Prop where
  stale : s.stale = []
  pending : ∀ tasks ∈ s.running, ∀ task ∈ tasks, ∀ ident ∈ task.pending lib metadata, ident ∉ s.cancelled

theorem Quiet.go {s s' : Callbacks} {i : ℕ} (hknown : Known s) (h : Quiet lib metadata s)
    (hstep : Callbacks.step lib metadata s (.go i) = some s') : Quiet lib metadata s' := by
  obtain ⟨task, rest, hrunning, rfl⟩ := go_cases hstep
  obtain ⟨stale, hstale, hstarted, hleft⟩ := taskStep_cases lib metadata s task rest
  have hpending := h.pending (task :: rest) (List.mem_of_getElem? hrunning)
  rw [hstale]
  constructor
  · rcases hstarted with hsame | ⟨ident, hident, hcancelled, -⟩
    · exact hsame.trans h.stale
    · exact absurd hcancelled (hpending task List.mem_cons_self ident hident)
  · intro tasks htasks t ht ident hident
    rcases List.mem_or_eq_of_mem_set htasks with hold | rfl
    · exact h.pending tasks hold t ht ident hident
    · rcases hleft t ht with hrest | hnew
      · exact hpending t (List.mem_cons_of_mem _ hrest) ident hident
      · rcases hnew ident hident with htask | hregistered
        · exact hpending task List.mem_cons_self ident htask
        · exact fun hcancelled => (hknown.cancelled ident hcancelled).2 hregistered

theorem Quiet.silent {s : Callbacks} (hknown : Known s) (h : Quiet lib metadata s) : s.Silent lib metadata := by
  intro calls
  induction calls generalizing s with
  | nil =>
    intro s' hrun
    cases hrun
    exact h.stale
  | cons i calls ih =>
    intro s' hrun
    obtain ⟨s₁, hgo, hrest⟩ := Transition.run_cons hrun
    exact ih (hknown.step hgo) (h.go hknown hgo) s' hrest

/-- A call in progress goes on to the tasks left. -/
def GoesOn (lib : Library) (metadata : Metadata) (s : Callbacks) (i : ℕ) (tasks : List Task) (s' : Callbacks) : Prop :=
  ∃ calls : List ℕ, Transition.run (Callbacks.step lib metadata) s (calls.map .go) = some s' ∧
    s'.running[i]? = some tasks ∧ s'.cancelled = s.cancelled ∧ s.stale ⊆ s'.stale

theorem GoesOn.trans {s s₁ s₂ : Callbacks} {i : ℕ} {tasks tasks' : List Task} (h : GoesOn lib metadata s i tasks s₁)
    (h' : GoesOn lib metadata s₁ i tasks' s₂) : GoesOn lib metadata s i tasks' s₂ := by
  obtain ⟨calls, hrun, -, hcancelled, hstale⟩ := h
  obtain ⟨calls', hrun', htasks, hcancelled', hstale'⟩ := h'
  refine ⟨calls ++ calls', ?_, htasks, hcancelled'.trans hcancelled, List.Subset.trans hstale hstale'⟩
  rw [List.map_append]
  exact Transition.run_of_append hrun hrun'

variable (lib metadata) in
/-- One step of it. -/
theorem goesOn_task {s : Callbacks} {i : ℕ} {task : Task} {rest : List Task} (h : s.running[i]? = some (task :: rest)) :
    GoesOn lib metadata s i (s.taskStep lib metadata task rest).2
      { (s.taskStep lib metadata task rest).1 with running := s.running.set i (s.taskStep lib metadata task rest).2 } := by
  obtain ⟨stale, hstale, hstarted, -⟩ := taskStep_cases lib metadata s task rest
  have hstep : Callbacks.step lib metadata s (.go i) = some
      { (s.taskStep lib metadata task rest).1 with running := s.running.set i (s.taskStep lib metadata task rest).2 } := by
    simp only [Callbacks.step, h]
    rw [hstale]
  refine ⟨[i], ?_, ?_, ?_, ?_⟩
  · rw [List.map_singleton, Transition.run, hstep]
    rfl
  · exact List.getElem?_set_self (List.getElem?_eq_some_iff.1 h).1
  · rw [hstale]
  · rw [hstale]
    rcases hstarted with hsame | ⟨ident, -, -, hnew⟩
    · exact hsame ▸ List.Subset.refl _
    · exact hnew ▸ List.subset_cons_self _ _

/-- The handlers of a snapshot are called. -/
theorem goesOn_calls (i : ℕ) (rest : List Task) : ∀ (handlers : List Handler) {s : Callbacks},
    s.running[i]? = some (handlers.map .call ++ rest) → ∃ s', GoesOn lib metadata s i rest s'
  | [], s, h => ⟨s, [], rfl, h, rfl, List.Subset.refl _⟩
  | handler :: handlers, s, h => by
    have hone := goesOn_task lib metadata h
    obtain ⟨s', hrest⟩ := goesOn_calls i rest handlers hone.choose_spec.2.1
    exact ⟨s', hone.trans hrest⟩

variable (lib metadata) in
/-- The next task is done, and a cancelled callback it comes to is started. -/
theorem goesOn_finish {s : Callbacks} {i : ℕ} {task : Task} {rest : List Task} (h : s.running[i]? = some (task :: rest)) :
    ∃ s', GoesOn lib metadata s i rest s' ∧ ∀ ident ∈ task.pending lib metadata, ident ∈ s.cancelled → ident ∈ s'.stale := by
  have hstart : ∀ {s : Callbacks} {task : Task} {ident : ℕ}, s.running[i]? = some (task :: rest) →
      s.taskStep lib metadata task rest = (s.start ident, rest) →
      ∃ s', GoesOn lib metadata s i rest s' ∧ (ident ∈ s.cancelled → ident ∈ s'.stale) := by
    intro s task ident h htask
    have hone := goesOn_task lib metadata h
    rw [htask] at hone
    refine ⟨_, hone, fun hcancelled => ?_⟩
    show ident ∈ (s.start ident).stale
    unfold start
    rw [if_pos hcancelled]
    exact List.mem_cons_self
  have hone := goesOn_task lib metadata h
  cases task with
  | emit event =>
    obtain ⟨s', hcalls⟩ := goesOn_calls i rest (s.handlers event) hone.choose_spec.2.1
    exact ⟨s', hone.trans hcalls, nofun⟩
  | call handler =>
    obtain ⟨s', hgoes, hstale⟩ := hstart h rfl
    exact ⟨s', hgoes, fun ident hident => List.mem_singleton.1 hident ▸ hstale⟩
  | notify watcher =>
    obtain ⟨s', hgoes, hstale⟩ := hstart h rfl
    exact ⟨s', hgoes, fun ident hident => List.mem_singleton.1 hident ▸ hstale⟩
  | evaluate key watcher definition segments =>
    cases hvalue : Deliveries.watched lib metadata true key definition watcher segments with
    | error e =>
      have htask : s.taskStep lib metadata (.evaluate key watcher definition segments) rest = (s, rest) := by
        simp only [taskStep, Deliveries.watched_ready s.store.ready, hvalue]
      rw [htask] at hone
      refine ⟨_, hone, fun ident hident => ?_⟩
      rw [Task.pending, hvalue] at hident
      cases hident
    | ok value =>
      -- the event of the evaluation is emitted before the watcher is called
      have htask : s.taskStep lib metadata (.evaluate key watcher definition segments) rest =
          (s, .emit .configEvaluated :: .notify watcher :: rest) := by
        simp only [taskStep, Deliveries.watched_ready s.store.ready, hvalue]
      rw [htask] at hone
      have hemit := goesOn_task lib metadata hone.choose_spec.2.1
      obtain ⟨s₁, hcalls⟩ := goesOn_calls i (.notify watcher :: rest) _ hemit.choose_spec.2.1
      have hgoes := (hone.trans hemit).trans hcalls
      obtain ⟨s', hlast, hstale⟩ := hstart hgoes.choose_spec.2.1 rfl
      refine ⟨s', hgoes.trans hlast, fun ident hident hcancelled => ?_⟩
      rw [Task.pending, hvalue] at hident
      rw [List.mem_singleton.1 hident] at hcancelled ⊢
      exact hstale (hgoes.choose_spec.2.2.1 ▸ hcancelled)

/-- A cancelled callback that a call in progress comes to is started, once the call has gone on far enough. -/
theorem started_of_pending {i ident : ℕ} : ∀ {tasks : List Task} {s : Callbacks}, s.running[i]? = some tasks →
    ∀ task ∈ tasks, ident ∈ task.pending lib metadata → ident ∈ s.cancelled →
      ∃ s' tasks', GoesOn lib metadata s i tasks' s' ∧ ident ∈ s'.stale
  | [], _, _, _, htask, _, _ => by cases htask
  | task :: rest, s, h, t, ht, hident, hcancelled => by
    obtain ⟨s₁, hgoes, hstale⟩ := goesOn_finish lib metadata h
    rcases List.mem_cons.1 ht with rfl | hrest
    · exact ⟨s₁, rest, hgoes, hstale ident hident hcancelled⟩
    · obtain ⟨s', tasks', hgoes', hin⟩ := started_of_pending hgoes.choose_spec.2.1 t hrest hident
        (hgoes.choose_spec.2.2.1 ▸ hcancelled)
      exact ⟨s', tasks', hgoes.trans hgoes', hin⟩

/-- No cancelled callback can be started exactly if none has been and none is in a snapshot. -/
theorem silent_iff {s : Callbacks} (hknown : Known s) : s.Silent lib metadata ↔ Quiet lib metadata s := by
  refine ⟨fun h => ⟨h [] s rfl, fun tasks htasks task htask ident hident hcancelled => ?_⟩, fun h => h.silent hknown⟩
  obtain ⟨i, hi⟩ := List.mem_iff_getElem?.1 htasks
  obtain ⟨s', tasks', ⟨calls, hrun, -, -, -⟩, hstale⟩ := started_of_pending hi task htask hident hcancelled
  rw [h calls s' hrun] at hstale
  cases hstale

/-- The callbacks a delivery comes to by itself are those of its watchers. -/
theorem pending_tasks {d : Delivery} {task : Task} {ident : ℕ} (htask : task ∈ d.tasks)
    (hident : ident ∈ task.pending lib metadata) : ∃ key watcher, (key, watcher) ∈ d.calls ∧ watcher.ident = ident := by
  rcases List.mem_cons.1 htask with rfl | htask
  · cases hident
  · rcases List.mem_append.1 htask with hcall | hready
    · obtain ⟨⟨key, watcher⟩, hmem, rfl⟩ := List.mem_map.1 hcall
      refine ⟨key, watcher, hmem, ?_⟩
      simp only [Task.pending] at hident
      split at hident
      · exact (List.mem_singleton.1 hident).symm
      · cases hident
    · split at hready
      · rw [List.mem_singleton.1 hready] at hident
        cases hident
      · cases hready

/-- A step keeps the client quiet exactly if it is not the return of an operation that has taken out what is in a
snapshot of a call in progress. -/
theorem quiet_step_iff {s s' : Callbacks} {e : CallbackStep} (hknown : Known s) (h : Quiet lib metadata s)
    (hstep : Callbacks.step lib metadata s e = some s') : Quiet lib metadata s' ↔ s.ReturnsClear lib metadata e := by
  cases e with
  | go i => exact iff_of_true (h.go hknown hstep) trivial
  | getValue key default context =>
    refine iff_of_true ?_ trivial
    simp only [Callbacks.step] at hstep
    split at hstep
    · rw [← Option.some.inj hstep]
      refine ⟨h.stale, fun tasks htasks task htask ident hident => ?_⟩
      rcases List.mem_append.1 htasks with hold | hnew
      · exact h.pending tasks hold task htask ident hident
      · rw [List.mem_singleton.1 hnew, List.mem_singleton] at htask
        rw [htask] at hident
        cases hident
    · rw [← Option.some.inj hstep]
      exact h
  | returns i =>
    simp only [Callbacks.step] at hstep
    split at hstep
    · rename_i taken htaken
      rw [← Option.some.inj hstep]
      constructor
      · intro hquiet t ht tasks htasks task htask ident hident hmem
        rw [htaken] at ht
        rw [← Option.some.inj ht] at hmem
        exact hquiet.pending tasks htasks task htask ident hident (List.mem_append_right _ hmem)
      · intro hclear
        refine ⟨h.stale, fun tasks htasks task htask ident hident hmem => ?_⟩
        rcases List.mem_append.1 hmem with hbefore | hnow
        · exact h.pending tasks htasks task htask ident hident hbefore
        · exact hclear taken htaken tasks htasks task htask ident hident hnow
    · cases hstep
  | perform op =>
    refine iff_of_true ?_ trivial
    rcases performStep_cases hstep with ⟨bundle, -, -, rfl⟩ | rfl | ⟨key, watcher, -, -, rfl⟩ |
        ⟨event, handler, -, rfl⟩ | ⟨-, -, -, rfl⟩
    · refine ⟨h.stale, fun tasks htasks task htask ident hident => ?_⟩
      rcases List.mem_append.1 htasks with hold | hnew
      · exact h.pending tasks hold task htask ident hident
      · -- the watchers of the snapshot are registered
        rw [List.mem_singleton.1 hnew] at htask
        obtain ⟨key, watcher, hcall, rfl⟩ := pending_tasks htask hident
        have hwatching := ((mem_calls_iff s.store bundle key watcher).1 hcall).1
        exact fun hcancelled => (hknown.cancelled _ hcancelled).2
          ((mem_registered s _).2 (.inr ⟨key, watcher, hwatching, rfl⟩))
    · exact h
    · exact ⟨h.stale, h.pending⟩
    · exact ⟨h.stale, h.pending⟩
    · exact ⟨h.stale, h.pending⟩

theorem returnsClear_of_none {s : Callbacks} {e : CallbackStep} (h : Callbacks.step lib metadata s e = none) :
    s.ReturnsClear lib metadata e := by
  cases e with
  | returns i =>
    intro taken htaken
    simp only [Callbacks.step, htaken] at h
    cases h
  | perform op => exact trivial
  | getValue key default context => exact trivial
  | go i => exact trivial

/-- In exactly the runs in which every operation returns when nothing it has taken out is in a snapshot of a call in
progress, the calls in progress can never start a callback that has been cancelled. -/
theorem silent_run_iff (steps : List CallbackStep) :
    Transition.Always (Callbacks.step lib metadata) (Silent lib metadata) init steps ↔
      Transition.Obeys (Callbacks.step lib metadata) (ReturnsClear lib metadata) init steps := by
  refine Transition.always_iff_obeys (fun _ _ _ hknown hstep => Known.step hknown hstep) (fun s e s' hknown hs hstep => ?_)
    (fun _ _ _ hstep => returnsClear_of_none hstep) known_init ((silent_iff known_init).2 ⟨rfl, nofun⟩)
  rw [silent_iff (hknown.step hstep)]
  exact quiet_step_iff hknown ((silent_iff hknown).1 hs) hstep

end Step

/-- A handler cancelled by an earlier handler of the same event is called. -/
theorem cancelled_handler_called : ¬ ∀ (_ : Unicode) (lib : Library) (metadata : Metadata) (steps : List CallbackStep)
    (s : Callbacks), Transition.run (step lib metadata) init steps = some s → s.stale = [] := by
  intro h
  have hstale := @h .ascii .refusing .empty [.perform (.on .configsUpdated 0), .perform (.on .configsUpdated 1),
    .perform (.bundle .empty), .go 0, .go 0, .perform (.off .configsUpdated (some 1)), .returns 0, .go 0] _ rfl
  cases hstale

end Callbacks

end ConfigDirector.Client
