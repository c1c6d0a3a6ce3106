/-
Overlapping fetches of one polling transport. A fetch reads the timestamp, posts, receives, stores the
new timestamp under the lock and calls `on_bundle`, and another fetch can step in between any two of
these. Client and server stay in step as long as bundles are applied in the order in which their
timestamps were stored, and changes are stored only over a version they start from.
-/
import ConfigDirector.Client.Store
import ConfigDirector.Machine.Transition
import ConfigDirector.Transport.Polling

namespace ConfigDirector.Transport

open Python Evaluation Client

/-! ## The server -/

/-- What the server holds at each of its versions, and the timestamp of each. -/
structure Timeline where
  configs : ℕ → Dict Text (Config PyFloat)
  stamp : ℕ → Text
  stamp_injective : Function.Injective stamp

/-- Every change since a version: a key is carried with what is held under it now, or nothing has
happened to it. -/
def Timeline.Changes (t : Timeline) (since version : ℕ) (changes : Dict Text (Config PyFloat)) : Prop :=
  ∀ key, (∃ definition, changes.get? key = some definition ∧ (t.configs version).get? key = some definition) ∨
    changes.get? key = none ∧ ∀ v, since ≤ v → v ≤ version → (t.configs v).get? key = (t.configs version).get? key

/-- What a bundle carries: the full state, or every change since a version. -/
def Timeline.Carries (t : Timeline) (version : ℕ) (bundle : ConfigBundle) : Option ℕ → Prop
  | none => bundle.kind = .full ∧ ∀ key, bundle.configs.get? key = (t.configs version).get? key
  | some since => bundle.kind = .delta ∧ t.Changes since version bundle.configs

/-- An answer of the server, computed at a version, with its timestamp. -/
structure Answer (t : Timeline) where
  version : ℕ
  since : Option ℕ
  bundle : ConfigBundle
  timestamp : bundle.timestamp = some (t.stamp version)
  readable : bundle.unreadableKeys = []
  carries : t.Carries version bundle since

/-- The reply to a request: an answer, the 204 of a server with nothing newer, or anything that makes
the fetch raise. -/
inductive Reply (t : Timeline)
  | answer (answer : Answer t)
  | noContent
  | failed

/-- The server answers as of its current version, and with changes only since the timestamp sent. -/
def Reply.isFor {t : Timeline} (version : ℕ) (sent : Option Text) : Reply t → Bool
  | answer a => a.version = version && a.since.all fun v => sent = some (t.stamp v)
  | _ => true

/-! ## Fetches -/

/-- Where a run of `_fetch` is. -/
inductive Fetch (t : Timeline)
  | idle
  | posted (sent : Option Text)
  | answered (reply : Reply t)
  | received (answer : Answer t)
  | stored (answer : Answer t)
  | done

def Fetch.isRunning {t : Timeline} : Fetch t → Bool
  | idle | done => false
  | _ => true

/-- The server, the transport, the client and the fetches. `queue` is a history variable: the fetches
that have stored a timestamp and not called `on_bundle`, in the order of the stores. -/
structure Exchanges (t : Timeline) where
  version : ℕ
  lastUpdateTimestamp : Option Text
  client : ClientState
  fetches : ℕ → Fetch t
  queue : List ℕ

inductive FetchEvent (t : Timeline)
  | change
  | post (i : ℕ)
  | reply (i : ℕ) (reply : Reply t)
  | receive (i : ℕ)
  | store (i : ℕ)
  | apply (i : ℕ)

namespace Exchanges

variable {t : Timeline}

/-- A client that has received nothing, and no fetch begun. -/
def init (t : Timeline) (handlers : ClientEvent → List ℕ) : Exchanges t where
  version := 0
  lastUpdateTimestamp := none
  client := .init handlers
  fetches := fun _ => .idle
  queue := []

def setFetch (s : Exchanges t) (i : ℕ) (fetch : Fetch t) : Exchanges t :=
  { s with fetches := fun j => if j = i then fetch else s.fetches j }

/-- The bundle goes to the client, which ignores it once closed. -/
def deliver (s : Exchanges t) (bundle : ConfigBundle) : Exchanges t :=
  match s.client.onBundle bundle with
  | some (client, _) => { s with client := client }
  | none => s

def step (s : Exchanges t) : FetchEvent t → Option (Exchanges t)
  | .change => some { s with version := s.version + 1 }
  | .post i =>
    match s.fetches i with
    | .idle => some (s.setFetch i (.posted s.lastUpdateTimestamp))
    | _ => none
  | .reply i reply =>
    match s.fetches i with
    | .posted sent => if reply.isFor s.version sent then some (s.setFetch i (.answered reply)) else none
    | _ => none
  | .receive i =>
    match s.fetches i with
    | .answered (.answer a) => some (s.setFetch i (.received a))
    | .answered _ => some (s.setFetch i .done)
    | _ => none
  | .store i =>
    match s.fetches i with
    | .received a => some { s.setFetch i (.stored a) with
        lastUpdateTimestamp := a.bundle.timestamp.or s.lastUpdateTimestamp
        queue := s.queue ++ [i] }
    | _ => none
  | .apply i =>
    match s.fetches i with
    | .stored a => some { (s.setFetch i .done).deliver a.bundle with queue := s.queue.erase i }
    | _ => none

/-! ## One fetch on its own -/

/-- Without another fetch in between, the steps of a fetch that is answered do what `_fetch` does with
the response: the same timestamp is stored, and the same bundle applied. -/
theorem run_receive [Unicode] (r : Runtime) {p : Polling} {response : HttpResponse} {s : Exchanges t} {i : ℕ}
    {a : Answer t} (hstamp : p.lastUpdateTimestamp = s.lastUpdateTimestamp) (hstatus : response.status = 200)
    (hparse : Bundle.parseBundle r.loads response.body = .ok a.bundle) (hi : s.fetches i = .answered (.answer a)) :
    ∃ s', Transition.run step s [.receive i, .store i, .apply i] = some s' ∧
      (p.receive r response).1.lastUpdateTimestamp = s'.lastUpdateTimestamp ∧
      (p.receive r response).1.delivered = p.delivered ++ [a.bundle] ∧ s'.client = (s.deliver a.bundle).client := by
  have hreceive : p.receive r response = ({ p with
      lastUpdateTimestamp := a.bundle.timestamp.or p.lastUpdateTimestamp
      delivered := p.delivered ++ [a.bundle] }, .ok ()) := by
    simp [Polling.receive, HttpResponse.ok, hstatus, hparse]
  have hrun : ∃ s', Transition.run step s [.receive i, .store i, .apply i] = some s' ∧
      s'.lastUpdateTimestamp = a.bundle.timestamp.or s.lastUpdateTimestamp ∧
      s'.client = (s.deliver a.bundle).client := by
    simp only [Transition.run, step, hi, setFetch, if_true, deliver]
    cases s.client.onBundle a.bundle with
    | none => exact ⟨_, rfl, rfl, rfl⟩
    | some out => exact ⟨_, rfl, rfl, rfl⟩
  obtain ⟨s', hrun, hstamp', hclient⟩ := hrun
  refine ⟨s', hrun, ?_, ?_, hclient⟩
  · rw [hreceive, hstamp', hstamp]
  · rw [hreceive]

/-! ## In step with the server -/

/-- The client holds what the server held at a version, or has received nothing. -/
def Holds (t : Timeline) (client : ClientState) : Option ℕ → Prop
  | none => client.configs = none
  | some v => ∀ key, client.held key = (t.configs v).get? key

/-- No fetch is running. -/
def Quiet (s : Exchanges t) : Prop := ∀ i, (s.fetches i).isRunning = false

/-- The client's configs are the server's as of the stored timestamp. -/
def Synced (s : Exchanges t) : Prop :=
  ∃ version : Option ℕ, s.lastUpdateTimestamp = version.map t.stamp ∧ Holds t s.client version

/-- An answer can follow a version: it is the full state, or its changes start no later than that
version and end no earlier. -/
def Follows (a : Answer t) (version : Option ℕ) : Prop :=
  ∀ since ∈ a.since, ∃ v ∈ version, since ≤ v ∧ v ≤ a.version

/-- Timestamps are stored over a version the answer can follow, and bundles are applied in the order of
the stores. -/
def InOrder (s : Exchanges t) : FetchEvent t → Prop
  | .store i => ∀ a, s.fetches i = .received a →
      ∀ since ∈ a.since, ∃ v, s.lastUpdateTimestamp = some (t.stamp v) ∧ since ≤ v ∧ v ≤ a.version
  | .apply i => s.queue.head? = some i
  | _ => True

/-! ## One bundle -/

theorem held_full (a : Answer t) (hsince : a.since = none) (client : ClientState) (key : Text) :
    (client.applied a.bundle).held key = (t.configs a.version).get? key := by
  have hcarries := a.carries
  rw [hsince] at hcarries
  obtain ⟨hkind, hconfigs⟩ := hcarries
  rw [held_applied client fun h => by rw [a.readable] at h; cases h]
  simp [keepsConfig, hkind, a.readable, hconfigs]

theorem held_changes (a : Answer t) {since v : ℕ} (hsince : a.since = some since) (hle : since ≤ v)
    (hle' : v ≤ a.version) {client : ClientState} (h : Holds t client (some v)) (key : Text) :
    (client.applied a.bundle).held key = (t.configs a.version).get? key := by
  have hcarries := a.carries
  rw [hsince] at hcarries
  obtain ⟨hkind, hchanges⟩ := hcarries
  rw [held_applied client fun h => by rw [a.readable] at h; cases h]
  rcases hchanges key with ⟨definition, hget, hnow⟩ | ⟨hnone, hsame⟩
  · rw [hget, hnow, Option.some_or]
  · rw [hnone, Option.none_or]
    simp only [keepsConfig, hkind, decide_true, Bool.true_or, if_true]
    rw [h key, hsame v hle hle']

/-- An answer that can follow what the client holds takes it to the version of the answer. -/
theorem holds_applied (a : Answer t) {client : ClientState} {version : Option ℕ} (h : Holds t client version)
    (hfollows : Follows a version) : Holds t (client.applied a.bundle) (some a.version) := by
  intro key
  cases hsince : a.since with
  | none => exact held_full a hsince client key
  | some since =>
    obtain ⟨v, hv, hle, hle'⟩ := hfollows since hsince
    cases hv
    exact held_changes a hsince hle hle' h key

/-! ## The bundles still to apply -/

/-- Applied in order, the answers lead from one version to another. -/
def Leads : Option ℕ → List (Answer t) → Option ℕ → Prop
  | v, [], w => v = w
  | v, a :: answers, w => Follows a v ∧ Leads (some a.version) answers w

theorem Leads.concat {a : Answer t} {w : Option ℕ} (ha : Follows a w) : ∀ {v : Option ℕ} {answers : List (Answer t)},
    Leads v answers w → Leads v (answers ++ [a]) (some a.version)
  | v, [], h => by
    cases h
    exact ⟨ha, rfl⟩
  | v, b :: answers, h => ⟨h.1, h.2.concat ha⟩

/-- What guarded steps keep: the bundles still to apply lead from what the client holds to the version
of the stored timestamp. -/
structure InStep (s : Exchanges t) : Prop where
  isOpen : s.client.closed = false
  nodup : s.queue.Nodup
  leads : ∃ v w answers, Holds t s.client v ∧ s.queue.map s.fetches = answers.map Fetch.stored ∧
    Leads v answers w ∧ s.lastUpdateTimestamp = w.map t.stamp

theorem inStep_init (handlers : ClientEvent → List ℕ) : InStep (init t handlers) :=
  ⟨rfl, List.nodup_nil, none, none, [], rfl, rfl, rfl, rfl⟩

theorem InStep.stored_of_mem {s : Exchanges t} (h : InStep s) {i : ℕ} (hi : i ∈ s.queue) :
    ∃ a, s.fetches i = .stored a := by
  obtain ⟨v, w, answers, -, hqueue, -⟩ := h.leads
  have hmem : s.fetches i ∈ answers.map Fetch.stored := hqueue ▸ List.mem_map_of_mem hi
  obtain ⟨a, -, ha⟩ := List.mem_map.1 hmem
  exact ⟨a, ha.symm⟩

theorem map_setFetch (s : Exchanges t) {i : ℕ} (fetch : Fetch t) {queue : List ℕ} (hi : i ∉ queue) :
    queue.map (s.setFetch i fetch).fetches = queue.map s.fetches := by
  apply List.map_congr_left
  intro j hj
  have hji : j ≠ i := by
    rintro rfl
    exact hi hj
  exact if_neg hji

/-- A fetch that has stored nothing can go anywhere. -/
theorem InStep.setFetch {s : Exchanges t} (h : InStep s) {i : ℕ} (hi : ∀ a, s.fetches i ≠ .stored a)
    (fetch : Fetch t) : InStep (s.setFetch i fetch) := by
  have hmem : i ∉ s.queue := by
    intro hmem
    obtain ⟨a, ha⟩ := h.stored_of_mem hmem
    exact hi a ha
  obtain ⟨v, w, answers, hholds, hqueue, hleads, hstamp⟩ := h.leads
  refine ⟨h.isOpen, h.nodup, v, w, answers, hholds, ?_, hleads, hstamp⟩
  exact (map_setFetch s fetch hmem).trans hqueue

/-- A timestamp stored over a version that the answer can follow. -/
theorem InStep.store {s : Exchanges t} (h : InStep s) {i : ℕ} {a : Answer t} (hi : s.fetches i = .received a)
    (hguard : InOrder s (.store i)) : InStep { s.setFetch i (.stored a) with
      lastUpdateTimestamp := a.bundle.timestamp.or s.lastUpdateTimestamp
      queue := s.queue ++ [i] } := by
  have hmem : i ∉ s.queue := by
    intro hmem
    obtain ⟨b, hb⟩ := h.stored_of_mem hmem
    rw [hi] at hb
    cases hb
  obtain ⟨v, w, answers, hholds, hqueue, hleads, hstamp⟩ := h.leads
  -- timestamps are distinct, so the guard's version is the one the queue leads to
  have hfollows : Follows a w := by
    intro since hsince
    obtain ⟨u, hu, hle⟩ := hguard a hi since hsince
    rw [hstamp] at hu
    obtain ⟨u', rfl, hu'⟩ := Option.map_eq_some_iff.1 hu
    exact ⟨u', rfl, t.stamp_injective hu' ▸ hle⟩
  refine ⟨h.isOpen, ?_, v, some a.version, answers ++ [a], hholds, ?_, hleads.concat hfollows, ?_⟩
  · rw [List.nodup_append]
    exact ⟨h.nodup, List.nodup_singleton i, by rintro j hj k hk rfl; exact hmem (List.mem_singleton.1 hk ▸ hj)⟩
  · rw [List.map_append, List.map_append]
    congr 1
    · exact (map_setFetch s (.stored a) hmem).trans hqueue
    · simp [Exchanges.setFetch]
  · rw [a.timestamp]
    rfl

theorem deliver_open {s : Exchanges t} (h : s.client.closed = false) (bundle : ConfigBundle) :
    s.deliver bundle = { s with client := s.client.applied bundle } := by
  unfold deliver
  rw [onBundle_open h]

/-- The bundle whose timestamp was stored first is applied first. -/
theorem InStep.apply {s : Exchanges t} (h : InStep s) {i : ℕ} {a : Answer t} (hi : s.fetches i = .stored a)
    (hguard : InOrder s (.apply i)) :
    InStep { (s.setFetch i .done).deliver a.bundle with queue := s.queue.erase i } := by
  obtain ⟨v, w, answers, hholds, hqueue, hleads, hstamp⟩ := h.leads
  have hnodup := h.nodup
  have hopen : (s.setFetch i .done).client.closed = false := h.isOpen
  simp only [deliver_open hopen]
  cases hq : s.queue with
  | nil =>
    rw [InOrder, hq] at hguard
    cases hguard
  | cons j queue =>
    rw [InOrder, hq, List.head?_cons, Option.some.injEq] at hguard
    subst hguard
    rw [hq, List.nodup_cons] at hnodup
    rw [hq, List.map_cons] at hqueue
    cases answers with
    | nil => cases hqueue
    | cons b answers =>
      -- the head of the queue holds the answer that comes first in the chain
      rw [List.map_cons, List.cons.injEq, hi, Fetch.stored.injEq] at hqueue
      obtain ⟨rfl, hqueue⟩ := hqueue
      rw [List.erase_cons_head]
      refine ⟨h.isOpen, hnodup.2, some a.version, w, answers, holds_applied a hholds hleads.1, ?_, hleads.2, hstamp⟩
      exact (map_setFetch s .done hnodup.1).trans hqueue

theorem InStep.step {s s' : Exchanges t} {e : FetchEvent t} (h : InStep s) (hguard : InOrder s e)
    (hstep : s.step e = some s') : InStep s' := by
  have hmove : ∀ {i : ℕ} {fetch : Fetch t}, s.fetches i = fetch → (∀ a, fetch ≠ .stored a) → ∀ fetch',
      InStep (s.setFetch i fetch') := by
    intro i fetch hi hne fetch'
    exact h.setFetch (by rw [hi]; exact hne) fetch'
  cases e with
  | change =>
    cases hstep
    exact ⟨h.isOpen, h.nodup, h.leads⟩
  | post i =>
    rw [Exchanges.step] at hstep
    split at hstep
    · next hi => cases hstep; exact hmove hi (by simp) _
    · cases hstep
  | reply i reply =>
    rw [Exchanges.step] at hstep
    split at hstep
    · next hi =>
      split at hstep
      · cases hstep; exact hmove hi (by simp) _
      · cases hstep
    · cases hstep
  | receive i =>
    rw [Exchanges.step] at hstep
    split at hstep
    · next hi => cases hstep; exact hmove hi (by simp) _
    · next hi => cases hstep; exact hmove hi (by simp) _
    · cases hstep
  | store i =>
    rw [Exchanges.step] at hstep
    split at hstep
    · next hi => cases hstep; exact h.store hi hguard
    · cases hstep
  | apply i =>
    rw [Exchanges.step] at hstep
    split at hstep
    · next hi => cases hstep; exact h.apply hi hguard
    · cases hstep

/-- After any guarded run, once no fetch is running, the client holds what the server held at the
stored timestamp. -/
theorem synced_of_inOrder (t : Timeline) (handlers : ClientEvent → List ℕ) (events : List (FetchEvent t))
    {s : Exchanges t} (hguard : Transition.Obeys step InOrder (init t handlers) events)
    (hrun : Transition.run step (init t handlers) events = some s) (hquiet : s.Quiet) : Synced s := by
  have hinv : InStep s :=
    Transition.invariant (fun _ _ _ h hg hs => h.step hg hs) (inStep_init handlers) hguard hrun
  obtain ⟨v, w, answers, hholds, hqueue, hleads, hstamp⟩ := hinv.leads
  -- nobody is running, so nothing is left to apply
  cases hq : s.queue with
  | nil =>
    rw [hq] at hqueue
    obtain rfl := List.map_eq_nil_iff.1 hqueue.symm
    cases hleads
    exact ⟨v, hstamp, hholds⟩
  | cons i queue =>
    obtain ⟨a, ha⟩ := hinv.stored_of_mem (hq ▸ List.mem_cons_self)
    have hidle := hquiet i
    rw [ha] at hidle
    cases hidle

/-! ## In order and out of order -/

/-- A config `k` with a default value and no rules. -/
def plainConfig (value : Text) : Config PyFloat where
  id := lit "1"
  key := lit "k"
  type := .str (lit "string")
  target := { defaultValue := value, rules := [], defaultValueId := none }
  variations := []
  typeConstraints := none

/-- The server changes its one config between version 0 and version 1. -/
def renamed : Timeline where
  configs := fun v => (∅ : Dict Text (Config PyFloat)).set (lit "k") (plainConfig (if v = 0 then lit "old" else lit "new"))
  stamp := fun v => List.replicate v 0x30
  stamp_injective := fun v w h => by simpa using congrArg List.length h

def renamedState (version : ℕ) : Answer renamed where
  version := version
  since := none
  bundle := { ConfigBundle.empty with
    configs := renamed.configs version
    timestamp := some (renamed.stamp version) }
  timestamp := rfl
  readable := rfl
  carries := ⟨rfl, fun _ => rfl⟩

/-- Two fetches overlap, and the second one stores and applies after the first. -/
def overlappingFetches : List (FetchEvent renamed) :=
  [.post 0, .reply 0 (.answer (renamedState 0)), .change, .post 1, .reply 1 (.answer (renamedState 1)),
    .receive 0, .receive 1, .store 0, .store 1, .apply 0, .apply 1]

theorem overlapping_synced : ∃ s, Transition.run step (init renamed fun _ => []) overlappingFetches = some s ∧
    s.Synced := by
  have hstore : ∀ {s : Exchanges renamed} {i version : ℕ}, s.fetches i = .received (renamedState version) →
      InOrder s (.store i) := by
    intro s i version hi a ha since hsince
    rw [hi] at ha
    cases ha
    cases hsince
  refine ⟨_, rfl, synced_of_inOrder renamed (fun _ => []) overlappingFetches ?_ rfl ?_⟩
  · -- only the stores and the applications have something to meet
    refine .cons trivial rfl (.cons trivial rfl (.cons trivial rfl (.cons trivial rfl (.cons trivial rfl ?_))))
    refine .cons trivial rfl (.cons trivial rfl (.cons (hstore rfl) rfl (.cons (hstore rfl) rfl ?_)))
    exact .cons rfl rfl (.cons rfl rfl trivial)
  · intro i
    match i with
    | 0 => rfl
    | 1 => rfl
    | i + 2 => rfl

/-- The second fetch stores its timestamp last and calls `on_bundle` first. -/
def crossedFetches : List (FetchEvent renamed) :=
  [.post 0, .reply 0 (.answer (renamedState 0)), .change, .post 1, .reply 1 (.answer (renamedState 1)),
    .receive 0, .receive 1, .store 0, .store 1, .apply 1, .apply 0]

/-- The client is left with the older state under the newer timestamp. -/
theorem crossed_fetches_lose : ¬ ∀ (t : Timeline) (handlers : ClientEvent → List ℕ) (events : List (FetchEvent t))
    (s : Exchanges t), Transition.run step (init t handlers) events = some s → s.Quiet → s.Synced := by
  intro h
  cases hrun : Transition.run step (init renamed fun _ => []) crossedFetches with
  | none => cases hrun
  | some s =>
    have hs : some s = Transition.run step (init renamed fun _ => []) crossedFetches := hrun.symm
    have hquiet : s.Quiet := by
      intro i
      cases hs
      match i with
      | 0 => rfl
      | 1 => rfl
      | i + 2 => rfl
    have hstamp : s.lastUpdateTimestamp = some (renamed.stamp 1) := by
      cases hs
      rfl
    have hheld : s.client.held (lit "k") = some (plainConfig (lit "old")) := by
      cases hs
      rfl
    obtain ⟨version, hversion, hholds⟩ := h renamed (fun _ => []) crossedFetches s hrun hquiet
    rw [hstamp] at hversion
    obtain ⟨v, rfl, hv⟩ := Option.map_eq_some_iff.1 hversion.symm
    obtain rfl := renamed.stamp_injective hv
    have hdefault := congrArg (Option.map fun config => config.target.defaultValue) (hheld.symm.trans (hholds (lit "k")))
    exact absurd hdefault (by decide)

end Exchanges

end ConfigDirector.Transport
