/-
Readiness and update notifications happen exactly once: what a run of `_on_bundle` does is a prefix of
what it should do, and all of it once it is done, whatever is raised and whatever comes in between.
-/
import ConfigDirector.Client.Deliveries

namespace ConfigDirector.Client

open Python Evaluation

/-! ## Watchers registered -/

namespace ClientState

/-- The watchers registered under a key. -/
def watching (s : ClientState) (key : Text) : List Watcher := (s.watchers.get? key).getD []

theorem watching_watch (s : ClientState) (key : Text) (watcher : Watcher) (k : Text) :
    (s.watch key watcher).watching k = if k = key then s.watching key ++ [watcher] else s.watching k := by
  unfold watching watch
  rw [Dict.get?_set]
  split <;> rfl

theorem watching_set (s : ClientState) (key : Text) (entries : List Watcher) (k : Text) :
    ({ s with watchers := s.watchers.set key entries } : ClientState).watching k =
      if k = key then entries else s.watching k := by
  unfold watching
  simp only [Dict.get?_set]
  split <;> rfl

theorem watching_unwatch (s : ClientState) (key : Text) (callback : Option ℕ) (k : Text) :
    ((s.unwatch key callback).watching k).Sublist (s.watching k) := by
  unfold unwatch
  split
  · exact List.Sublist.refl _
  · exact List.Sublist.refl _
  · rename_i entries hne hentries
    have hkey : s.watching key = entries := by rw [watching, hentries, Option.getD_some]
    split
    · rw [watching_set]
      split
      · exact List.nil_sublist _
      · exact List.Sublist.refl _
    · rw [watching_set]
      split
      · rename_i hk
        rw [hk, hkey]
        exact List.eraseP_sublist
      · exact List.Sublist.refl _

theorem watching_removeWatcher (s : ClientState) (key : Text) (ident : ℕ) (k : Text) :
    ((s.removeWatcher key ident).watching k).Sublist (s.watching k) := by
  unfold removeWatcher
  split
  · exact List.Sublist.refl _
  · rename_i entries hentries
    have hkey : s.watching key = entries := by rw [watching, hentries, Option.getD_some]
    split
    · rw [watching_set]
      split
      · rename_i hk
        rw [hk, hkey]
        exact List.eraseP_sublist
      · exact List.Sublist.refl _
    · exact List.Sublist.refl _

/-- The other operations only cancel watchers. -/
theorem watching_perform (s : ClientState) {op : ClientOp} (hbundle : ∀ bundle, op ≠ .bundle bundle)
    (hwatch : ∀ key watcher, op ≠ .watch key watcher) (k : Text) :
    ((s.perform op).watching k).Sublist (s.watching k) := by
  cases op with
  | bundle bundle => exact absurd rfl (hbundle bundle)
  | watch key watcher => exact absurd rfl (hwatch key watcher)
  | unwatch key callback => exact watching_unwatch s key callback k
  | unwatchAll => exact List.nil_sublist _
  | removeWatcher key ident => exact watching_removeWatcher s key ident k
  | on event handler => exact List.Sublist.refl _
  | removeHandler event handler => exact List.Sublist.refl _
  | off event handler => cases handler <;> exact List.Sublist.refl _
  | close =>
    show (s.close.watching k).Sublist (s.watching k)
    unfold close
    split
    · exact List.Sublist.refl _
    · exact List.nil_sublist _

/-- They leave the flags and the configs, unless they close the client. -/
theorem kept_perform (s : ClientState) {op : ClientOp} (hbundle : ∀ bundle, op ≠ .bundle bundle)
    (hclose : op ≠ .close) : (s.perform op).closed = s.closed ∧ (s.perform op).ready = s.ready ∧
      (s.perform op).configs = s.configs ∧ (s.perform op).segments = s.segments := by
  cases op with
  | bundle bundle => exact absurd rfl (hbundle bundle)
  | close => exact absurd rfl hclose
  | watch key watcher => exact ⟨rfl, rfl, rfl, rfl⟩
  | unwatch key callback =>
    show (s.unwatch key callback).closed = _ ∧ (s.unwatch key callback).ready = _ ∧
      (s.unwatch key callback).configs = _ ∧ (s.unwatch key callback).segments = _
    unfold unwatch
    split
    · exact ⟨rfl, rfl, rfl, rfl⟩
    · exact ⟨rfl, rfl, rfl, rfl⟩
    · split <;> exact ⟨rfl, rfl, rfl, rfl⟩
  | unwatchAll => exact ⟨rfl, rfl, rfl, rfl⟩
  | removeWatcher key ident =>
    show (s.removeWatcher key ident).closed = _ ∧ (s.removeWatcher key ident).ready = _ ∧
      (s.removeWatcher key ident).configs = _ ∧ (s.removeWatcher key ident).segments = _
    unfold removeWatcher
    split
    · exact ⟨rfl, rfl, rfl, rfl⟩
    · split <;> exact ⟨rfl, rfl, rfl, rfl⟩
  | on event handler => exact ⟨rfl, rfl, rfl, rfl⟩
  | removeHandler event handler => exact ⟨rfl, rfl, rfl, rfl⟩
  | off event handler => cases handler <;> exact ⟨rfl, rfl, rfl, rfl⟩

/-- `close` takes the watchers with it. -/
theorem flags_perform (s : ClientState) {op : ClientOp} (hbundle : ∀ bundle, op ≠ .bundle bundle) :
    ((s.perform op).closed = s.closed ∧ (s.perform op).ready = s.ready ∧ (s.perform op).configs = s.configs ∧
      (s.perform op).segments = s.segments) ∨
    (s.perform op).closed = true ∧ (s.perform op).ready = false ∧ ∀ key, (s.perform op).watching key = [] := by
  by_cases hclose : op = .close
  · subst hclose
    show (s.close.closed = _ ∧ s.close.ready = _ ∧ s.close.configs = _ ∧ s.close.segments = _) ∨
      s.close.closed = true ∧ s.close.ready = false ∧ ∀ key, s.close.watching key = []
    unfold close
    -- a second `close` does nothing
    split
    · exact .inl ⟨rfl, rfl, rfl, rfl⟩
    · exact .inr ⟨rfl, rfl, fun _ => rfl⟩
  · exact .inl (s.kept_perform hbundle hclose)

end ClientState

/-- A run calls the watchers registered under a key its bundle announces. -/
theorem mem_calls_iff (s : ClientState) (bundle : ConfigBundle) (key : Text) (watcher : Watcher) :
    (key, watcher) ∈ (s.delivery bundle).calls ↔ watcher ∈ s.watching key ∧ (s.delivery bundle).announces key := by
  constructor
  · intro h
    obtain ⟨⟨k, entries⟩, hp, h⟩ := List.mem_flatMap.1 h
    obtain ⟨w, hw, hpair⟩ := List.mem_map.1 h
    obtain ⟨rfl, rfl⟩ := Prod.mk.inj hpair
    obtain ⟨hentries, hannounced⟩ := List.mem_filter.1 hp
    have hget : s.watchers.get? k = some entries := (s.watchers.get?_eq_some_iff _ _).2 hentries
    refine ⟨by rw [ClientState.watching, hget]; exact hw, ?_⟩
    rw [Bool.and_eq_true, Bool.or_eq_true, List.contains_iff_mem, List.contains_iff_mem] at hannounced
    exact hannounced.2.imp mem_sorted.2 fun h => h
  · rintro ⟨hw, hannounced⟩
    rw [ClientState.watching] at hw
    cases hget : s.watchers.get? key with
    | none =>
      rw [hget] at hw
      cases hw
    | some entries =>
      rw [hget] at hw
      exact calls_of_announces hannounced hget hw

/-- It calls no watcher twice. -/
theorem calls_nodup {s : ClientState} (h : ∀ key, (s.watching key).Nodup) (bundle : ConfigBundle) :
    (s.delivery bundle).calls.Nodup := by
  unfold Delivery.calls
  rw [List.nodup_flatMap]
  constructor
  · rintro ⟨key, entries⟩ hp
    have hget : s.watchers.get? key = some entries := (s.watchers.get?_eq_some_iff _ _).2 (List.mem_filter.1 hp).1
    have hnodup := h key
    rw [ClientState.watching, hget, Option.getD_some] at hnodup
    exact hnodup.map fun a b hab => (Prod.ext_iff.1 hab).2
  · have hkeys : ((s.delivery bundle).watchers.map Prod.fst).Nodup :=
      s.watchers.keys_nodup.sublist (List.filter_sublist.map _)
    refine (List.pairwise_map.1 hkeys).imp ?_
    intro p q hne
    simp only [Function.onFun, List.disjoint_left, List.mem_map]
    rintro _ ⟨w, -, rfl⟩ ⟨w', -, hpair⟩
    exact hne (Prod.ext_iff.1 hpair).1.symm

namespace Deliveries

/-! ## The flags -/

/-- The client is ready from its first run to its close. -/
def ReadyOnce (s : Deliveries) : Prop := s.store.ready = true ↔ s.store.closed = false ∧ s.runs ≠ []

/-! ## What a run does -/

/-- What the run `i` should do: announce the update, call each watcher, and announce the client if it is
the first. -/
def whole (i : ℕ) (r : Run) : List RunEntry :=
  .emitted .configsUpdated :: (Run.entries r.delivery.calls ++ if i = 0 then [.emitted .clientReady] else [])

/-- What a run has done, and will have done. -/
structure RunOnce (i : ℕ) (r : Run) : Prop where
  log : r.log <+: whole i r
  done : r.phase = .done → r.log = whole i r
  calls : ∀ key watcher, (key, watcher) ∈ r.delivery.calls ↔
    watcher ∈ r.before.watching key ∧ r.delivery.announces key
  once : r.delivery.calls.Nodup

/-- The run goes through what it should do. -/
structure Sound (i : ℕ) (r : Run) : Prop where
  first : r.delivery.firstBundle = decide (i = 0)
  once : r.delivery.calls.Nodup
  log : r.log ++ r.rest = whole i r

theorem whole_eq {i : ℕ} {r : Run} (h : r.delivery.firstBundle = decide (i = 0)) :
    .emitted .configsUpdated :: (Run.entries r.delivery.calls ++ r.ending) = whole i r := by
  unfold whole Run.ending
  rw [h]
  simp only [decide_eq_true_eq]

theorem Sound.runOnce {i : ℕ} {r : Run} (h : Sound i r) : RunOnce i r where
  log := ⟨r.rest, h.log⟩
  done := by
    intro hphase
    have hrest : r.rest = [] := by rw [Run.rest, hphase]
    rw [← h.log, hrest, List.append_nil]
  calls := mem_calls_iff r.before r.bundle
  once := h.once

/-- The watchers of a key are different objects, made before. -/
structure Watched (s : Deliveries) : Prop where
  distinct : ∀ key, ((s.store.watching key).map Watcher.ident).Nodup
  created : ∀ key, ∀ watcher ∈ s.store.watching key, watcher.ident < s.created

structure Running (s : Deliveries) : Prop where
  ready : s.ReadyOnce
  watched : Watched s
  runs : ∀ i r, s.runs[i]? = some r → Sound i r

theorem running_init (handlers : ClientEvent → List ℕ) : Running (init handlers) where
  ready := iff_of_false Bool.false_ne_true fun h => h.2 rfl
  watched := ⟨fun _ => List.nodup_nil, fun _ _ h => by cases h⟩
  runs := fun _ _ h => by cases h

theorem Watched.perform {s s' : Deliveries} {op : ClientOp} (h : Watched s) (hstep : s.performStep op = some s') :
    Watched s' := by
  rcases performStep_cases hstep with ⟨bundle, -, -, rfl⟩ | ⟨bundle, -, -, rfl⟩ | ⟨key, watcher, -, hident, rfl⟩ |
    ⟨hbundle, hwatch, rfl⟩
  · exact ⟨h.distinct, h.created⟩
  · exact h
  · refine ⟨?_, ?_⟩
    · intro k
      show (((s.store.watch key watcher).watching k).map Watcher.ident).Nodup
      rw [ClientState.watching_watch]
      split
      · rw [List.map_append, List.map_singleton]
        refine (h.distinct key).append (List.nodup_singleton _) ?_
        rw [List.disjoint_singleton]
        intro hmem
        obtain ⟨w, hw, heq⟩ := List.mem_map.1 hmem
        have hlt := h.created key w hw
        omega
      · exact h.distinct k
    · intro k w hw
      show w.ident < s.created + 1
      change w ∈ (s.store.watch key watcher).watching k at hw
      rw [ClientState.watching_watch] at hw
      split at hw
      · rcases List.mem_append.1 hw with hw | hw
        · exact Nat.lt_succ_of_lt (h.created key w hw)
        · rw [List.mem_singleton.1 hw, hident]
          exact Nat.lt_succ_self _
      · exact Nat.lt_succ_of_lt (h.created k w hw)
  · exact ⟨fun k => (h.distinct k).sublist ((s.store.watching_perform hbundle hwatch k).map _),
      fun k w hw => h.created k w ((s.store.watching_perform hbundle hwatch k).subset hw)⟩

/-- One more run is the last, after its locked step. -/
theorem getElem?_concat {runs : List Run} {r r' : Run} {i : ℕ} (h : (runs ++ [r])[i]? = some r') :
    runs[i]? = some r' ∨ i = runs.length ∧ r' = r := by
  rw [List.getElem?_append] at h
  split at h
  · exact .inl h
  · rename_i hge
    rw [List.getElem?_singleton] at h
    split at h
    · cases h
      exact .inr ⟨by omega, rfl⟩
    · cases h

variable [Unicode] {lib : Library} {metadata : Metadata}

/-- A step of a run changes the run only. -/
theorem go_cases {s s' : Deliveries} {i : ℕ} {raises : Bool} (h : step lib metadata s (.go i raises) = some s') :
    ∃ r s₁ r', s.runs[i]? = some r ∧ s.runStep lib metadata i r raises = some (s₁, r') ∧ s' = s₁.setRun i r' := by
  simp only [step] at h
  cases hi : s.runs[i]? with
  | none =>
    rw [hi] at h
    cases h
  | some r =>
    rw [hi] at h
    obtain ⟨⟨s₁, r'⟩, hrun, rfl⟩ := Option.map_eq_some_iff.1 h
    exact ⟨r, s₁, r', rfl, hrun, rfl⟩

theorem ReadyOnce.step {s s' : Deliveries} {e : DeliveryStep} (h : s.ReadyOnce) (hstep : step lib metadata s e = some s') :
    s'.ReadyOnce ∧ (s.store.closed = true → s'.store.closed = true) ∧ (s.runs ≠ [] → s'.runs ≠ []) := by
  cases e with
  | perform op =>
    rcases performStep_cases hstep with ⟨bundle, -, hopen, rfl⟩ | ⟨bundle, -, hclosed, rfl⟩ | ⟨key, watcher, -, -, rfl⟩ |
      ⟨hbundle, -, rfl⟩
    · refine ⟨?_, fun hclosed => ?_, fun _ => ?_⟩
      · exact iff_of_true rfl ⟨hopen, by simp⟩
      · rw [hopen] at hclosed
        cases hclosed
      · simp
    · exact ⟨h, fun h => h, fun h => h⟩
    · exact ⟨h, fun h => h, fun h => h⟩
    · rcases s.store.flags_perform hbundle with ⟨hclosed, hready, -, -⟩ | ⟨hclosed, hready, -⟩
      · refine ⟨?_, ?_, fun h => h⟩
        · unfold ReadyOnce
          rw [hclosed, hready]
          exact h
        · rw [hclosed]
          exact fun h => h
      · refine ⟨?_, fun _ => hclosed, fun h => h⟩
        unfold ReadyOnce
        rw [hclosed, hready]
        exact iff_of_false Bool.false_ne_true fun hopen => by cases hopen.1
  | go i raises =>
    obtain ⟨r, s₁, r', hi, hrun, rfl⟩ := go_cases hstep
    obtain ⟨hkeeps, -⟩ := runStep_cases hrun
    have hruns : (s₁.setRun i r').runs = s.runs.set i r' := by rw [setRun, hkeeps.runs]
    have hempty : (s₁.setRun i r').runs ≠ [] ↔ s.runs ≠ [] := by
      rw [hruns, ne_eq, List.set_eq_nil_iff]
    have hstore : (s₁.setRun i r').store = s.store := hkeeps.store
    refine ⟨?_, ?_, hempty.2⟩
    · unfold ReadyOnce
      rw [hstore, hempty]
      exact h
    · rw [hstore]
      exact fun h => h

/-! ## Runs -/

/-- The evaluations do not raise. -/
def Answering (lib : Library) (metadata : Metadata) (s : Deliveries) : DeliveryStep → Prop
  | .go i _ => ∀ r key watcher calls, s.runs[i]? = some r → r.phase = .notifying ((key, watcher) :: calls) →
    ∃ value, r.valueOf lib metadata key watcher = .ok value
  | .perform _ => True

theorem Running.step {s s' : Deliveries} {e : DeliveryStep} (h : Running s) (hanswers : Answering lib metadata s e)
    (hstep : step lib metadata s e = some s') : Running s' := by
  have hready := (h.ready.step hstep).1
  cases e with
  | perform op =>
    refine ⟨hready, h.watched.perform hstep, ?_⟩
    rcases performStep_cases hstep with ⟨bundle, -, hopen, rfl⟩ | ⟨bundle, -, -, rfl⟩ | ⟨key, watcher, -, -, rfl⟩ |
      ⟨-, -, rfl⟩
    · intro i r hi
      rcases getElem?_concat hi with hi | ⟨rfl, rfl⟩
      · exact h.runs i r hi
      · let r : Run := ⟨s.store, bundle, .emitting .configsUpdated, []⟩
        have hfirst : r.delivery.firstBundle = decide (s.runs.length = 0) := by
          show (!s.store.ready) = _
          cases hs : s.store.ready with
          | true => simpa using (h.ready.1 hs).2
          | false =>
            have hnil : s.runs = [] := by
              by_contra hne
              rw [h.ready.2 ⟨hopen, hne⟩] at hs
              cases hs
            rw [hnil]
            rfl
        refine ⟨hfirst, calls_nodup (fun key => (h.watched.distinct key).of_map _) bundle, ?_⟩
        exact whole_eq hfirst
    · exact h.runs
    · exact h.runs
    · exact h.runs
  | go i raises =>
    obtain ⟨r, s₁, r', hi, hrun, rfl⟩ := go_cases hstep
    obtain ⟨hkeeps, hbefore, hbundle, -, hwent⟩ := runStep_cases hrun
    have hstore : (s₁.setRun i r').store = s.store := hkeeps.store
    have hcreated : (s₁.setRun i r').created = s.created := hkeeps.created
    refine ⟨hready, ⟨by rw [hstore]; exact h.watched.distinct, by rw [hstore, hcreated]; exact h.watched.created⟩, ?_⟩
    intro j q hj
    rw [setRun, hkeeps.runs, List.getElem?_set] at hj
    split at hj
    · rename_i hij
      subst hij
      split at hj
      · cases hj
        have hdelivery : r'.delivery = r.delivery := by rw [Run.delivery, Run.delivery, hbefore, hbundle]
        have hsound := h.runs i r hi
        have hlog : r'.log ++ r'.rest = r.log ++ r.rest := by
          cases hwent with
          | on _ _ hlog => exact hlog
          | passed key watcher calls hphase hraised =>
            obtain ⟨value, hvalue⟩ := hanswers r key watcher calls hi hphase
            obtain ⟨e, he⟩ := hraised
            rw [he] at hvalue
            cases hvalue
          | called _ _ _ _ _ _ _ hlog => exact hlog
        have hwhole : whole i r' = whole i r := by rw [whole, whole, hdelivery]
        exact ⟨by rw [hdelivery]; exact hsound.first, by rw [hdelivery]; exact hsound.once,
          by rw [hlog, hwhole]; exact hsound.log⟩
      · cases hj
    · exact h.runs j q hj

/-! ## A run comes to its end -/

omit [Unicode] in
/-- The steps a run has still before it, but for the handlers left of the event it is at. -/
def stage (r : Run) : ℕ :=
  match r.phase with
  | .emitting .configsUpdated => 2 * r.delivery.calls.length + 5
  | .handling .configsUpdated _ => 2 * r.delivery.calls.length + 4
  | .notifying calls => 2 * calls.length + 3
  | .evaluated _ _ _ _ calls => 2 * calls.length + 4
  | .emitting _ => 2
  | .handling _ _ => 1
  | .done => 0

/-- The handlers left of the event a run is at. -/
def handlersLeft (r : Run) : ℕ :=
  match r.phase with
  | .handling _ handlers | .evaluated _ _ _ handlers _ => handlers.length
  | _ => 0

/-- A run that is not done can take its next step, which brings it closer to its end. -/
theorem runStep_progress (lib : Library) (metadata : Metadata) (s : Deliveries) (i : ℕ) {r : Run} (h : r.phase ≠ .done) (raises : Bool) :
    ∃ s' r', s.runStep lib metadata i r raises = some (s', r') ∧
      (stage r' < stage r ∨ stage r' = stage r ∧ handlersLeft r' < handlersLeft r) := by
  obtain ⟨before, bundle, phase, log⟩ := r
  cases phase with
  | emitting event =>
    refine ⟨_, _, rfl, .inl ?_⟩
    cases event <;> simp [stage, Run.delivery]
  | handling event handlers =>
    cases handlers with
    | nil =>
      refine ⟨_, _, rfl, .inl ?_⟩
      cases event <;> simp [stage, afterHandlers, Run.delivery]
    | cons handler handlers =>
      refine ⟨_, _, rfl, .inr ⟨?_, ?_⟩⟩
      · cases event <;> rfl
      · simp [handlersLeft]
  | notifying calls =>
    cases calls with
    | nil =>
      refine ⟨_, _, rfl, .inl ?_⟩
      simp only [stage]
      cases (Run.delivery ⟨before, bundle, .notifying [], log⟩).firstBundle <;> simp
    | cons p calls =>
      obtain ⟨key, watcher⟩ := p
      simp only [runStep]
      split
      · exact ⟨_, _, rfl, .inl (by simp [stage]; omega)⟩
      · exact ⟨_, _, rfl, .inl (by simp [stage])⟩
  | evaluated key watcher value handlers calls =>
    cases handlers with
    | nil => exact ⟨_, _, rfl, .inl (by simp [stage])⟩
    | cons handler handlers => exact ⟨_, _, rfl, .inr ⟨rfl, by simp [handlersLeft]⟩⟩
  | done => exact absurd rfl h

/-- The next steps of the run `i`, in which its calls raise or not as given. -/
def steps (i n : ℕ) (raises : ℕ → Bool) : List DeliveryStep := (List.range n).map fun k => .go i (raises k)

theorem finishes (i : ℕ) : ∀ (s : Deliveries) (r : Run) (raises : ℕ → Bool), s.runs[i]? = some r →
    ∃ n s' r', run lib metadata s (steps i n raises) = some s' ∧ s'.runs[i]? = some r' ∧ r'.phase = .done
  | s, r, raises, hi => by
    by_cases hdone : r.phase = .done
    · exact ⟨0, s, r, rfl, hi, hdone⟩
    · obtain ⟨s₁, r₁, hrun, hcloser⟩ := runStep_progress lib metadata s i hdone (raises 0)
      obtain ⟨hkeeps, -⟩ := runStep_cases hrun
      have hlt : i < s.runs.length := (List.getElem?_eq_some_iff.1 hi).1
      have hi₁ : (s₁.setRun i r₁).runs[i]? = some r₁ := by
        rw [setRun, hkeeps.runs, List.getElem?_set_self hlt]
      have hstep : step lib metadata s (.go i (raises 0)) = some (s₁.setRun i r₁) := by
        simp only [step, hi, hrun, Option.map_some]
      obtain ⟨n, s', r', hrest, hi', hdone'⟩ := finishes i (s₁.setRun i r₁) r₁ (fun k => raises (k + 1)) hi₁
      refine ⟨n + 1, s', r', ?_, hi', hdone'⟩
      have hsteps : steps i (n + 1) raises = .go i (raises 0) :: steps i n fun k => raises (k + 1) := by
        rw [steps, List.range_succ_eq_map, List.map_cons, List.map_map]
        rfl
      rw [hsteps, run, Transition.run, hstep]
      exact hrest
  termination_by _ r => (stage r, handlersLeft r)
  decreasing_by
    rcases hcloser with hlt' | ⟨heq, hlt'⟩
    · exact Prod.Lex.left _ _ hlt'
    · rw [heq]
      exact Prod.Lex.right _ hlt'

/-! ## Exactly once -/

/-- What the runs of a client do, each exactly once; a closed client ignores bundles; and a client is
ready from its first bundle until it is closed. -/
structure Once (lib : Library) (metadata : Metadata) (s : Deliveries) : Prop where
  runs : ∀ i r, s.runs[i]? = some r → RunOnce i r
  finishes : ∀ i r, s.runs[i]? = some r → ∀ raises, ∃ n s' r',
    run lib metadata s (steps i n raises) = some s' ∧ s'.runs[i]? = some r' ∧ r'.phase = .done
  ignored : s.store.closed = true → ∀ bundle, step lib metadata s (.perform (.bundle bundle)) = some s
  ready : s.store.ready = true → ∀ later s', run lib metadata s later = some s' →
    s'.store.closed = false → s'.store.ready = true
  closed : s.store.closed = true → ∀ later s', run lib metadata s later = some s' →
    s'.store.closed = true ∧ s'.store.ready = false

theorem ReadyOnce.run {s s' : Deliveries} {later : List DeliveryStep} (h : s.ReadyOnce)
    (hrun : run lib metadata s later = some s') :
    s'.ReadyOnce ∧ (s.store.closed = true → s'.store.closed = true) ∧ (s.runs ≠ [] → s'.runs ≠ []) := by
  refine Transition.invariant_of_step (P := fun s' => s'.ReadyOnce ∧
    (s.store.closed = true → s'.store.closed = true) ∧ (s.runs ≠ [] → s'.runs ≠ [])) ?_ ⟨h, id, id⟩ hrun
  rintro s₁ e s₂ ⟨hready, hclosed, hruns⟩ hstep
  obtain ⟨hready', hclosed', hruns'⟩ := hready.step hstep
  exact ⟨hready', hclosed' ∘ hclosed, hruns' ∘ hruns⟩

theorem Running.once {s : Deliveries} (h : Running s) : Once lib metadata s where
  runs := fun i r hi => (h.runs i r hi).runOnce
  finishes := fun i r hi raises => finishes i s r raises hi
  ignored := by
    intro hclosed bundle
    simp only [Deliveries.step, performStep, ClientState.onBundle, hclosed, if_true]
  ready := by
    intro hready later s' hrun hopen
    obtain ⟨hready', -, hruns⟩ := h.ready.run hrun
    exact hready'.2 ⟨hopen, hruns (h.ready.1 hready).2⟩
  closed := by
    intro hclosed later s' hrun
    obtain ⟨hready', hclosed', -⟩ := h.ready.run hrun
    refine ⟨hclosed' hclosed, ?_⟩
    by_contra hready
    have hopen := (hready'.1 (by simpa using hready)).1
    rw [hclosed' hclosed] at hopen
    cases hopen

/-- Readiness and update notifications happen exactly once, whatever the interleaving and whatever the
handlers and watchers raise, as long as the evaluations do not. -/
theorem notified_once (handlers : ClientEvent → List ℕ) (trace : List DeliveryStep) (s : Deliveries)
    (hanswers : Transition.Obeys (step lib metadata) (Answering lib metadata) (init handlers) trace)
    (hrun : run lib metadata (init handlers) trace = some s) : Once lib metadata s := by
  have hrunning : Running s :=
    Transition.invariant (fun _ _ _ h hanswers hstep => h.step hanswers hstep) (running_init handlers) hanswers hrun
  exact hrunning.once

/-- A watcher of the key `k` with the default `off`. -/
def offWatcher : Watcher := ⟨0, 0, .str (lit "off"), none⟩

/-- The watcher, a bundle, and the run up to the call of the watcher, which raises. -/
def watchAndDeliver (bundle : ConfigBundle) : List DeliveryStep :=
  [.perform (.watch (lit "k") offWatcher), .perform (.bundle bundle), .go 0 false, .go 0 false, .go 0 false, .go 0 true]

omit [Unicode] in
theorem notified_once_raising : ∃ (_ : Unicode) (s : Deliveries),
    run .refusing .empty (init fun _ => []) (watchAndDeliver segmentBundle) = some s ∧
      Once .refusing .empty s := by
  let _ : Unicode := .ascii
  have hanswers : Transition.Obeys (step .refusing .empty) (Answering .refusing .empty) (init fun _ => [])
      (watchAndDeliver segmentBundle) := by
    refine .cons trivial rfl (.cons trivial rfl (.cons ?_ rfl (.cons ?_ rfl (.cons ?_ rfl (.cons ?_ rfl trivial)))))
    · rintro r key watcher calls ⟨⟩ ⟨⟩
    · rintro r key watcher calls ⟨⟩ ⟨⟩
    · rintro r key watcher calls ⟨⟩ ⟨⟩
      exact ⟨_, rfl⟩
    · rintro r key watcher calls ⟨⟩ ⟨⟩
  obtain ⟨s, hrun⟩ : ∃ s, run .refusing .empty (init fun _ => []) (watchAndDeliver segmentBundle) = some s :=
    ⟨_, rfl⟩
  exact ⟨_, s, hrun, notified_once _ _ s hanswers hrun⟩

end Deliveries

end ConfigDirector.Client
