/-
The last value a watcher hears is the current one, as long as watchers are called in the order the
bundles were applied, no bundle changes anything silently and no evaluation raises. Runs that overlap,
or start inside a handler of another one, call watchers in any order.
-/
import ConfigDirector.Client.Once

namespace ConfigDirector.Client

open Python Evaluation

/-! ## What is served for a watcher -/

/-- What is selected tells the state an evaluation gives. -/
theorem evaluate_of_selected {definition : Config PyFloat} {context : Option EvaluationContext} {segments segments' : Segments}
    (h : selected definition context segments = selected definition context segments') :
    evaluate definition context (some segments) = evaluate definition context (some segments') := by
  have hpair : getConfigValue definition context (some segments) = getConfigValue definition context (some segments') := by
    obtain ⟨hvalue, hid⟩ := Prod.mk.inj h
    exact Prod.ext (Option.some.inj hvalue) hid
  unfold evaluate
  rw [hpair]

namespace Deliveries

variable [Unicode] (lib : Library) (metadata : Metadata)

/-- The value of a watcher in the store. -/
def current (s : ClientState) (key : Text) (watcher : Watcher) : Except Exc PyValue :=
  watched lib metadata true key (s.held key) watcher s.segments

/-- The last call of a watcher. -/
def LastCall (s : Deliveries) (key : Text) (watcher : Watcher) (call : WatchCall) : Prop :=
  ∃ later earlier, s.calls = later ++ call :: earlier ∧ call.key = key ∧ call.watcher = watcher ∧
    ∀ c ∈ later, ¬ (c.key = key ∧ c.watcher = watcher)

/-- Once all runs are done, a watcher that has been called was last called with its value in the store.
A watcher is a new object, so one that is registered has been since it was created. -/
def HeardLast (s : Deliveries) : Prop :=
  (∀ r ∈ s.runs, r.phase = .done) → ∀ key watcher, watcher ∈ s.store.watching key →
    ∀ call, LastCall s key watcher call → current lib metadata s.store key watcher = .ok call.value

/-- The condition on a run's next step: an evaluation does not raise, and a watcher is not called when a
run that took its locked step later has called it. -/
def TakesTurn (s : Deliveries) (i : ℕ) (r : Run) : Prop :=
  match r.phase with
  | .notifying ((key, watcher) :: _) => ∃ value, r.valueOf lib metadata key watcher = .ok value
  | .evaluated key watcher _ [] _ => ∀ call ∈ s.calls, call.key = key → call.watcher = watcher → call.run ≤ i
  | _ => True

/-- The condition: that, and no bundle keeps a definition whose value changes with the segments. -/
def InTurn (s : Deliveries) : DeliveryStep → Prop
  | .perform (.bundle bundle) => s.store.closed = false → Steady metadata s.store bundle
  | .perform _ => True
  | .go i _ => ∀ r, s.runs[i]? = some r → TakesTurn lib metadata s i r

variable {lib : Library} {metadata : Metadata}

/-- A watcher's value changes with a bundle only if its key is announced. -/
theorem current_of_unannounced {s : ClientState} {bundle : ConfigBundle} (hsteady : Steady metadata s bundle)
    {key : Text}
    (h : ¬ (s.delivery bundle).announces key) (watcher : Watcher) :
    current lib metadata (s.applied bundle) key watcher = current lib metadata s key watcher := by
  unfold current
  rw [held_of_unannounced h]
  cases hheld : s.held key with
  | none => rfl
  | some definition =>
    have hstate : selectedState metadata definition watcher.context (s.applied bundle).segments =
        selectedState metadata definition watcher.context s.segments := by
      apply evaluate_of_selected
      have hserved : s.served metadata key (contextToEvaluate watcher.context).1 =
          (s.applied bundle).served metadata key (contextToEvaluate watcher.context).1 := by
        by_contra hdiff
        exact h ((nothingSilent_iff metadata s bundle).2 hsteady key _ hdiff).1
      rw [ClientState.served, ClientState.served, held_of_unannounced h, hheld] at hserved
      exact (Option.some.inj hserved).symm
    unfold watched evaluateFor
    simp only [hstate]

/-! ## What stays true -/

/-- What a run has said and will say of the watchers. -/
structure Faithful (lib : Library) (metadata : Metadata) (s : Deliveries) (i : ℕ) (r : Run) : Prop where
  created : ∀ p ∈ r.delivery.calls, p.2.ident < s.created
  computed : r.Computed lib metadata
  within : ∀ p ∈ r.remaining, p ∈ r.delivery.calls
  owed : ∀ p ∈ r.delivery.calls, p ∈ r.remaining ∨ ∃ call ∈ s.calls, call.run = i ∧ (call.key, call.watcher) = p

/-- A call by a run of its locked step's value. -/
def Made (lib : Library) (metadata : Metadata) (s : Deliveries) (call : WatchCall) : Prop :=
  ∃ r, s.runs[call.run]? = some r ∧ (call.key, call.watcher) ∈ r.delivery.calls ∧
    r.valueOf lib metadata call.key call.watcher = .ok call.value

/-- The run is the last to announce the key to the watcher. -/
def IsLast (s : Deliveries) (key : Text) (watcher : Watcher) (m : ℕ) : Prop :=
  ∀ j r, s.runs[j]? = some r → (key, watcher) ∈ r.delivery.calls → j ≤ m

structure Hearing (lib : Library) (metadata : Metadata) (s : Deliveries) : Prop where
  watched : Watched s
  runs : ∀ i r, s.runs[i]? = some r → Faithful lib metadata s i r
  made : ∀ call ∈ s.calls, Made lib metadata s call
  ordered : s.calls.Pairwise fun newer older => newer.key = older.key → newer.watcher = older.watcher → older.run ≤ newer.run
  current : ∀ key, ∀ watcher ∈ s.store.watching key, ∀ m r, s.runs[m]? = some r → (key, watcher) ∈ r.delivery.calls →
    IsLast s key watcher m → r.valueOf lib metadata key watcher = current lib metadata s.store key watcher

theorem hearing_init (handlers : ClientEvent → List ℕ) : Hearing lib metadata (init handlers) where
  watched := ⟨fun _ => List.nodup_nil, fun _ _ h => by cases h⟩
  runs := fun _ _ h => by cases h
  made := fun _ h => by cases h
  ordered := List.Pairwise.nil
  current := fun _ _ h => by cases h

theorem Faithful.mono {s s' : Deliveries} {i : ℕ} {r : Run} (h : Faithful lib metadata s i r)
    (hcreated : s.created ≤ s'.created) (hcalls : s.calls ⊆ s'.calls) :
    Faithful lib metadata s' i r where
  created := fun p hp => lt_of_lt_of_le (h.created p hp) hcreated
  computed := h.computed
  within := h.within
  owed := by
    intro p hp
    rcases h.owed p hp with hp | ⟨call, hcall, hrun⟩
    · exact .inl hp
    · exact .inr ⟨call, hcalls hcall, hrun⟩

theorem valueOf_congr {r r' : Run} (h : r'.delivery = r.delivery) (key : Text) (watcher : Watcher) :
    r'.valueOf lib metadata key watcher = r.valueOf lib metadata key watcher := by
  unfold Run.valueOf
  rw [h]

theorem Made.concat {s : Deliveries} {call : WatchCall} (h : Made lib metadata s call) (store : ClientState) (r : Run)
    (created : ℕ) : Made lib metadata { s with store := store, runs := s.runs ++ [r], created := created } call := by
  obtain ⟨q, hq, hcalls, hvalue⟩ := h
  refine ⟨q, ?_, hcalls, hvalue⟩
  rw [List.getElem?_append_left (List.getElem?_eq_some_iff.1 hq).1]
  exact hq

/-- A bundle begins a run, which is the last to announce the keys it announces. -/
theorem Hearing.bundle {s : Deliveries} (h : Hearing lib metadata s) {bundle : ConfigBundle}
    (hsteady : Steady metadata s.store bundle) :
    Hearing lib metadata { s with
      store := s.store.applied bundle
      runs := s.runs ++ [⟨s.store, bundle, .emitting .configsUpdated, []⟩] } where
  watched := ⟨h.watched.distinct, h.watched.created⟩
  runs := by
    intro i r hi
    rcases getElem?_concat hi with hi | ⟨-, rfl⟩
    · exact (h.runs i r hi).mono (le_refl _) (List.Subset.refl _)
    · refine ⟨?_, trivial, fun p hp => hp, fun p hp => .inl hp⟩
      intro p hp
      exact h.watched.created p.1 p.2 ((mem_calls_iff s.store bundle p.1 p.2).1 hp).1
  made := fun call hcall => (h.made call hcall).concat _ _ _
  ordered := h.ordered
  current := by
    intro key watcher hw m r hm hcalls hlast
    rcases getElem?_concat hm with hm | ⟨-, rfl⟩
    · -- the new run does not announce the key
      have hlt : m < s.runs.length := (List.getElem?_eq_some_iff.1 hm).1
      have hsilent : ¬ (s.store.delivery bundle).announces key := by
        intro hannounced
        have hnew := hlast s.runs.length ⟨s.store, bundle, .emitting .configsUpdated, []⟩ (by simp)
          ((mem_calls_iff s.store bundle key watcher).2 ⟨hw, hannounced⟩)
        omega
      have hlast' : IsLast s key watcher m := by
        intro j q hj hq
        refine hlast j q ?_ hq
        show (s.runs ++ _)[j]? = some q
        rw [List.getElem?_append_left (List.getElem?_eq_some_iff.1 hj).1]
        exact hj
      exact (h.current key watcher hw m r hm hcalls hlast').trans (current_of_unannounced hsteady hsilent watcher).symm
    · rfl

/-- Another operation cancels watchers at most, or closes the client. -/
theorem Hearing.perform {s : Deliveries} (h : Hearing lib metadata s) {op : ClientOp}
    (hbundle : ∀ bundle, op ≠ .bundle bundle) (hwatch : ∀ key watcher, op ≠ .watch key watcher)
    (hwatched : Watched { s with store := s.store.perform op }) :
    Hearing lib metadata { s with store := s.store.perform op } where
  watched := hwatched
  runs := fun i r hi => (h.runs i r hi).mono (le_refl _) (List.Subset.refl _)
  made := h.made
  ordered := h.ordered
  current := by
    intro key watcher hw m r hm hcalls hlast
    have hcurrent := h.current key watcher ((s.store.watching_perform hbundle hwatch key).subset hw) m r hm hcalls hlast
    rcases s.store.flags_perform hbundle with ⟨-, -, hconfigs, hsegments⟩ | ⟨-, -, hnone⟩
    · rw [hcurrent]
      unfold Deliveries.current ClientState.held
      rw [hconfigs, hsegments]
    · change watcher ∈ (s.store.perform op).watching key at hw
      rw [hnone key] at hw
      cases hw

/-- A new watcher is in no run. -/
theorem Hearing.watch {s : Deliveries} (h : Hearing lib metadata s) {key : Text} {watcher : Watcher}
    (hident : watcher.ident = s.created)
    (hwatched : Watched { s with store := s.store.watch key watcher, created := s.created + 1 }) :
    Hearing lib metadata { s with store := s.store.watch key watcher, created := s.created + 1 } where
  watched := hwatched
  runs := fun i r hi => (h.runs i r hi).mono (Nat.le_succ _) (List.Subset.refl _)
  made := h.made
  ordered := h.ordered
  current := by
    intro k w hw m r hm hcalls hlast
    have hold : w ∈ s.store.watching k := by
      change w ∈ (s.store.watch key watcher).watching k at hw
      rw [ClientState.watching_watch] at hw
      split at hw
      · rename_i hk
        rcases List.mem_append.1 hw with hw | hw
        · rw [hk]
          exact hw
        · have hlt := (h.runs m r hm).created (k, w) hcalls
          rw [List.mem_singleton.1 hw, hident] at hlt
          exact absurd hlt (lt_irrefl _)
      · exact hw
    exact h.current k w hold m r hm hcalls hlast

omit [Unicode] in
/-- A step of the run `i` replaces it by one of the same locked step. -/
theorem getElem?_setRun {runs : List Run} {i j : ℕ} {r r' q : Run} (hi : runs[i]? = some r)
    (hdelivery : r'.delivery = r.delivery) (h : (runs.set i r')[j]? = some q) :
    ∃ p, runs[j]? = some p ∧ q.delivery = p.delivery ∧ (i = j ∧ q = r' ∧ p = r ∨ q = p) := by
  rw [List.getElem?_set] at h
  split at h
  · rename_i hij
    subst hij
    split at h
    · cases h
      exact ⟨r, hi, hdelivery, .inl ⟨rfl, rfl, rfl⟩⟩
    · cases h
  · exact ⟨q, h, rfl, .inr rfl⟩

omit [Unicode] in
/-- A run found before a step of the run `i` is found after it, with the same locked step. -/
theorem getElem?_of_setRun {runs : List Run} {i j : ℕ} {r r' p : Run} (hi : runs[i]? = some r)
    (hdelivery : r'.delivery = r.delivery) (h : runs[j]? = some p) :
    ∃ q, (runs.set i r')[j]? = some q ∧ q.delivery = p.delivery := by
  by_cases hij : i = j
  · subst hij
    rw [hi] at h
    cases h
    exact ⟨r', by rw [List.getElem?_set_self (List.getElem?_eq_some_iff.1 hi).1], hdelivery⟩
  · exact ⟨p, by rw [List.getElem?_set_ne hij]; exact h, rfl⟩

/-- The last call of a watcher is of the last run to announce its key, once that run is done. -/
theorem Faithful.called {s : Deliveries} {m : ℕ} {r : Run} (h : Faithful lib metadata s m r)
    (hdone : r.phase = .done) {p : Text × Watcher} (hp : p ∈ r.delivery.calls) :
    ∃ call ∈ s.calls, call.run = m ∧ (call.key, call.watcher) = p := by
  rcases h.owed p hp with hp | hcall
  · rw [Run.remaining, hdone] at hp
    cases hp
  · exact hcall

/-- What a step of a run leaves true, if the calls it makes do. -/
theorem Hearing.setRun {s s₁ : Deliveries} (h : Hearing lib metadata s) {i : ℕ} {r r' : Run} (hi : s.runs[i]? = some r)
    (hkeeps : Keeps s s₁) (hbefore : r'.before = r.before) (hbundle : r'.bundle = r.bundle)
    (hrun : Faithful lib metadata (s₁.setRun i r') i r')
    (hcalls : ∀ call ∈ s₁.calls, call ∈ s.calls ∨ Made lib metadata s call) (hsubset : s.calls ⊆ s₁.calls)
    (hordered : s₁.calls.Pairwise fun newer older =>
      newer.key = older.key → newer.watcher = older.watcher → older.run ≤ newer.run) :
    Hearing lib metadata (s₁.setRun i r') := by
  have hdelivery : r'.delivery = r.delivery := by rw [Run.delivery, Run.delivery, hbefore, hbundle]
  have hstore : (s₁.setRun i r').store = s.store := hkeeps.store
  have hcreated : (s₁.setRun i r').created = s.created := hkeeps.created
  have hruns : (s₁.setRun i r').runs = s.runs.set i r' := by rw [Deliveries.setRun, hkeeps.runs]
  refine ⟨⟨?_, ?_⟩, ?_, ?_, hordered, ?_⟩
  · rw [hstore]
    exact h.watched.distinct
  · rw [hstore, hcreated]
    exact h.watched.created
  · intro j q hj
    rw [hruns] at hj
    obtain ⟨p, hp, -, ⟨rfl, rfl, -⟩ | rfl⟩ := getElem?_setRun hi hdelivery hj
    · exact hrun
    · exact (h.runs j q hp).mono (le_of_eq hcreated.symm) hsubset
  · intro call hcall
    have hmade : Made lib metadata s call := (hcalls call hcall).elim (h.made call) id
    obtain ⟨p, hp, hannounced, hvalue⟩ := hmade
    obtain ⟨q, hq, hsame⟩ := getElem?_of_setRun hi hdelivery hp
    refine ⟨q, by rw [hruns]; exact hq, by rw [hsame]; exact hannounced, ?_⟩
    rw [valueOf_congr hsame]
    exact hvalue
  · intro key watcher hw m q hm hannounced hlast
    rw [hstore] at hw ⊢
    rw [hruns] at hm
    obtain ⟨p, hp, hsame, -⟩ := getElem?_setRun hi hdelivery hm
    rw [valueOf_congr hsame]
    rw [hsame] at hannounced
    refine h.current key watcher hw m p hp hannounced ?_
    intro j q' hj hq'
    obtain ⟨q'', hq'', hsame'⟩ := getElem?_of_setRun hi hdelivery hj
    exact hlast j q'' (by rw [hruns]; exact hq'') (by rw [hsame']; exact hq')

/-- A step of a run, in turn. -/
theorem Hearing.go {s s₁ : Deliveries} (h : Hearing lib metadata s) {i : ℕ} {r r' : Run} {raises : Bool}
    (hi : s.runs[i]? = some r) (hturn : TakesTurn lib metadata s i r)
    (hstep : s.runStep lib metadata i r raises = some (s₁, r')) : Hearing lib metadata (s₁.setRun i r') := by
  obtain ⟨hkeeps, hbefore, hbundle, hcomputed, hwent⟩ := runStep_cases hstep
  have hdelivery : r'.delivery = r.delivery := by rw [Run.delivery, Run.delivery, hbefore, hbundle]
  have hr := h.runs i r hi
  have hcreated : ∀ p ∈ r'.delivery.calls, p.2.ident < (s₁.setRun i r').created := by
    rw [hdelivery]
    show ∀ p ∈ r.delivery.calls, p.2.ident < s₁.created
    rw [hkeeps.created]
    exact hr.created
  cases hwent with
  | on hcalls hremaining =>
    refine h.setRun hi hkeeps hbefore hbundle ⟨hcreated, hcomputed hr.computed, ?_, ?_⟩ ?_ ?_ ?_
    · rw [hdelivery, hremaining]
      exact hr.within
    · rw [hdelivery, hremaining]
      show ∀ p ∈ r.delivery.calls, p ∈ r.remaining ∨ ∃ call ∈ s₁.calls, call.run = i ∧ (call.key, call.watcher) = p
      rw [hcalls]
      exact hr.owed
    · rw [hcalls]
      exact fun call hcall => .inl hcall
    · rw [hcalls]
      exact List.Subset.refl _
    · rw [hcalls]
      exact h.ordered
  | passed key watcher calls hphase hraised =>
    -- no evaluation raises
    rw [TakesTurn, hphase] at hturn
    obtain ⟨value, hvalue⟩ := hturn
    obtain ⟨e, he⟩ := hraised
    rw [he] at hvalue
    cases hvalue
  | called key watcher value calls hphase hremaining hcalled =>
    have hbefore' : r.remaining = (key, watcher) :: calls := by rw [Run.remaining, hphase]
    have hannounced : (key, watcher) ∈ r.delivery.calls := by
      refine hr.within _ ?_
      rw [hbefore']
      exact List.mem_cons_self
    have hvalue : r.valueOf lib metadata key watcher = .ok value := by
      have hknown := hr.computed
      rw [Run.Computed, hphase] at hknown
      exact hknown
    rw [TakesTurn, hphase] at hturn
    refine h.setRun hi hkeeps hbefore hbundle ⟨hcreated, hcomputed hr.computed, ?_, ?_⟩ ?_ ?_ ?_
    · rw [hdelivery, hremaining]
      intro p hp
      refine hr.within p ?_
      rw [hbefore']
      exact List.mem_cons_of_mem _ hp
    · rw [hdelivery, hremaining]
      show ∀ p ∈ r.delivery.calls, p ∈ calls ∨ ∃ call ∈ s₁.calls, call.run = i ∧ (call.key, call.watcher) = p
      rw [hcalled]
      intro p hp
      rcases hr.owed p hp with hp | ⟨call, hcall, hrun⟩
      · rw [hbefore'] at hp
        rcases List.mem_cons.1 hp with rfl | hp
        · exact .inr ⟨_, List.mem_cons_self, rfl, rfl⟩
        · exact .inl hp
      · exact .inr ⟨call, List.mem_cons_of_mem _ hcall, hrun⟩
    · rw [hcalled]
      intro call hcall
      rcases List.mem_cons.1 hcall with rfl | hcall
      · exact .inr ⟨r, hi, hannounced, hvalue⟩
      · exact .inl hcall
    · rw [hcalled]
      exact List.subset_cons_self _ _
    · rw [hcalled, List.pairwise_cons]
      exact ⟨fun call hcall hkey hwatcher => hturn call hcall hkey.symm hwatcher.symm, h.ordered⟩

theorem Hearing.step {s s' : Deliveries} {e : DeliveryStep} (h : Hearing lib metadata s) (hturn : InTurn lib metadata s e)
    (hstep : step lib metadata s e = some s') : Hearing lib metadata s' := by
  cases e with
  | perform op =>
    have hwatched := h.watched.perform hstep
    rcases performStep_cases hstep with ⟨bundle, rfl, hopen, rfl⟩ | ⟨bundle, -, -, rfl⟩ |
      ⟨key, watcher, -, hident, rfl⟩ | ⟨hbundle, hwatch, rfl⟩
    · exact h.bundle (hturn hopen)
    · exact h
    · exact h.watch hident hwatched
    · exact h.perform hbundle hwatch hwatched
  | go i raises =>
    obtain ⟨r, s₁, r', hi, hrun, rfl⟩ := go_cases hstep
    exact h.go hi (hturn r hi) hrun

/-! ## The last value -/

omit [Unicode] in
/-- Among the runs that announce a key to a watcher there is a last one. -/
theorem exists_isLast {s : Deliveries} {key : Text} {watcher : Watcher} {i : ℕ} {r : Run} (hi : s.runs[i]? = some r)
    (hcalls : (key, watcher) ∈ r.delivery.calls) :
    ∃ m q, s.runs[m]? = some q ∧ (key, watcher) ∈ q.delivery.calls ∧ IsLast s key watcher m := by
  classical
  let P : ℕ → Prop := fun m => ∃ q, s.runs[m]? = some q ∧ (key, watcher) ∈ q.delivery.calls
  have hbound : ∀ m, P m → m ≤ s.runs.length := fun m ⟨_, hm, _⟩ => le_of_lt (List.getElem?_eq_some_iff.1 hm).1
  have hPi : P i := ⟨r, hi, hcalls⟩
  obtain ⟨q, hq, hmem⟩ : P (Nat.findGreatest P s.runs.length) := Nat.findGreatest_spec (hbound i hPi) hPi
  exact ⟨_, q, hq, hmem, fun j p hj hp => Nat.le_findGreatest (hbound j ⟨p, hj, hp⟩) ⟨p, hj, hp⟩⟩

theorem Hearing.heardLast {s : Deliveries} (h : Hearing lib metadata s) : HeardLast lib metadata s := by
  intro hdone key watcher hw call ⟨later, earlier, hsplit, hkey, hwatcher, hlater⟩
  have hmem : call ∈ s.calls := by
    rw [hsplit]
    exact List.mem_append_right _ List.mem_cons_self
  obtain ⟨r, hr, hcalls, hvalue⟩ := h.made call hmem
  rw [hkey, hwatcher] at hcalls hvalue
  obtain ⟨m, q, hm, hannounced, hlast⟩ := exists_isLast hr hcalls
  -- the last run to announce the key has called the watcher, and nothing called it after the last call
  obtain ⟨other, hother, hrun, hsame⟩ :=
    (h.runs m q hm).called (hdone q (List.mem_of_getElem? hm)) hannounced
  obtain ⟨hkey', hwatcher'⟩ := Prod.mk.inj hsame
  have hle : other.run ≤ call.run := by
    have hordered := h.ordered
    rw [hsplit] at hordered hother
    rcases List.mem_append.1 hother with hother | hother
    · exact absurd ⟨hkey', hwatcher'⟩ (hlater other hother)
    · rcases List.mem_cons.1 hother with rfl | hother
      · exact le_refl _
      · have hafter := (List.pairwise_cons.1 (List.pairwise_append.1 hordered).2.1).1 other hother
        exact hafter (hkey.trans hkey'.symm) (hwatcher.trans hwatcher'.symm)
  have hcall : call.run = m := le_antisymm (hlast call.run r hr hcalls) (hrun ▸ hle)
  have hq : q = r := by
    rw [hcall, hm] at hr
    exact Option.some.inj hr
  rw [← h.current key watcher hw m q hm hannounced hlast, hq]
  exact hvalue

/-- The last value a watcher hears is the current one, as long as every step is in turn. -/
theorem last_heard_current (handlers : ClientEvent → List ℕ) (trace : List DeliveryStep) (s : Deliveries)
    (hturn : Transition.Obeys (step lib metadata) (InTurn lib metadata) (init handlers) trace)
    (hrun : run lib metadata (init handlers) trace = some s) : HeardLast lib metadata s := by
  have hhearing : Hearing lib metadata s :=
    Transition.invariant (fun _ _ _ h hturn hstep => h.step hturn hstep) (hearing_init handlers) hturn hrun
  exact hhearing.heardLast

omit [Unicode] in
/-- Where nothing is held, nothing is kept. -/
theorem steady_of_nothing_held {s : ClientState} (h : ∀ key, s.held key = none) (bundle : ConfigBundle) :
    Steady metadata s bundle := by
  intro key definition hkept
  have hheld := hkept.held
  rw [h key] at hheld
  cases hheld

omit [Unicode] in
theorem done_of_phases {s : Deliveries} {n : ℕ} (h : s.runs.map Run.phase = List.replicate n .done) :
    ∀ r ∈ s.runs, r.phase = .done := by
  intro r hr
  have hphase := List.mem_map_of_mem (f := Run.phase) hr
  rw [h] at hphase
  exact List.eq_of_mem_replicate hphase

/-- The watcher, a bundle, and its run to the end. -/
def watchAndFinish (bundle : ConfigBundle) : List DeliveryStep :=
  watchAndDeliver bundle ++ [.go 0 false, .go 0 false, .go 0 false]

omit [Unicode] in
theorem last_heard_current_once : ∃ (_ : Unicode) (s : Deliveries),
    run .refusing .empty (init fun _ => []) (watchAndFinish segmentBundle) = some s ∧
      s.calls ≠ [] ∧ (∀ r ∈ s.runs, r.phase = .done) ∧ HeardLast .refusing .empty s := by
  let _ : Unicode := .ascii
  have hturn : Transition.Obeys (step .refusing .empty) (InTurn .refusing .empty) (init fun _ => [])
      (watchAndFinish segmentBundle) := by
    refine .cons trivial rfl (.cons (fun _ => steady_of_nothing_held (fun _ => rfl) _) rfl (.cons ?_ rfl (.cons ?_ rfl (.cons ?_ rfl
      (.cons ?_ rfl (.cons ?_ rfl (.cons ?_ rfl (.cons ?_ rfl trivial))))))))
    · rintro r ⟨⟩
      trivial
    · rintro r ⟨⟩
      trivial
    · rintro r ⟨⟩
      exact ⟨_, rfl⟩
    · rintro r ⟨⟩ call hcall
      cases hcall
    · rintro r ⟨⟩
      trivial
    · rintro r ⟨⟩
      trivial
    · rintro r ⟨⟩
      trivial
  obtain ⟨s, hrun, hcalls, hdone⟩ : ∃ s,
      run .refusing .empty (init fun _ => []) (watchAndFinish segmentBundle) = some s ∧ s.calls ≠ [] ∧
        s.runs.map Run.phase = List.replicate 1 .done :=
    ⟨_, rfl, List.cons_ne_nil _ _, rfl⟩
  exact ⟨_, s, hrun, hcalls, done_of_phases hdone, last_heard_current _ _ s hturn hrun⟩

/-- A full bundle with the config and without the segment. -/
def segmentlessBundle : ConfigBundle := { segmentBundle with segments := ∅ }

/-- The first run is at its handler, which delivers the second bundle. -/
def upToHandler : List DeliveryStep :=
  [.perform (.watch (lit "k") offWatcher), .perform (.bundle segmentBundle), .go 0 false,
    .perform (.bundle segmentlessBundle)]

/-- The handler comes back once the second run is done. -/
def nestedDelivery : List DeliveryStep :=
  upToHandler ++ (List.replicate 6 (.go 1 false) ++ List.replicate 7 (.go 0 false))

omit [Unicode] in
/-- The watcher hears `off` from the second run and then `on` from the first, while `off` is served. -/
theorem nested_delivery_stale : ¬ ∀ (_ : Unicode) (lib : Library) (metadata : Metadata) (handlers : ClientEvent → List ℕ)
    (trace : List DeliveryStep) (s : Deliveries),
      run lib metadata (init handlers) trace = some s → HeardLast lib metadata s := by
  intro h
  let _ : Unicode := .ascii
  let handlers : ClientEvent → List ℕ := fun event => if event = .configsUpdated then [0] else []
  let started : ClientState := (ClientState.init handlers).watch (lit "k") offWatcher
  let store : ClientState := (started.applied segmentBundle).applied segmentlessBundle
  let first (phase : Phase) (log : List RunEntry) : Run := ⟨started, segmentBundle, phase, log⟩
  let second (phase : Phase) (log : List RunEntry) : Run := ⟨started.applied segmentBundle, segmentlessBundle, phase, log⟩
  let updated : List RunEntry := [.emitted .configsUpdated, .called (lit "k") offWatcher]
  let off : WatchCall := ⟨1, lit "k", offWatcher, .str (lit "off")⟩
  let on : WatchCall := ⟨0, lit "k", offWatcher, .str (lit "on")⟩
  let s : Deliveries := ⟨store, [first .done (updated ++ [.emitted .clientReady]), second .done updated], 1, [], [on, off]⟩
  have hnested : run .refusing .empty (init handlers) upToHandler = some ⟨store,
      [first (.handling .configsUpdated [0]) [.emitted .configsUpdated], second (.emitting .configsUpdated) []],
      1, [], []⟩ := rfl
  have hsecond : run .refusing .empty ⟨store,
      [first (.handling .configsUpdated [0]) [.emitted .configsUpdated], second (.emitting .configsUpdated) []],
      1, [], []⟩ (List.replicate 6 (.go 1 false)) = some ⟨store,
        [first (.handling .configsUpdated [0]) [.emitted .configsUpdated], second .done updated], 1, [], [off]⟩ := rfl
  have hfirst : run .refusing .empty ⟨store,
      [first (.handling .configsUpdated [0]) [.emitted .configsUpdated], second .done updated], 1, [], [off]⟩
      (List.replicate 7 (.go 0 false)) = some s := rfl
  have hrun : run .refusing .empty (init handlers) nestedDelivery = some s :=
    Transition.run_of_append hnested (Transition.run_of_append hsecond hfirst)
  have hdone : ∀ r ∈ s.runs, r.phase = .done := done_of_phases (n := 2) rfl
  have hheard := h .ascii .refusing .empty handlers nestedDelivery s hrun hdone (lit "k") offWatcher
    (List.mem_singleton.2 rfl) on ⟨[], [off], rfl, rfl, rfl, nofun⟩
  have hcurrent : current .refusing .empty store (lit "k") offWatcher = .ok (.str (lit "off")) := rfl
  rw [hcurrent] at hheard
  exact absurd (PyValue.str.inj (Except.ok.inj hheard)) (by decide)

end Deliveries

end ConfigDirector.Client
