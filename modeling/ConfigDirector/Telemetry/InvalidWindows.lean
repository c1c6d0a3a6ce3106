/-
Reports of invalid kinds are bounded and complete. The submissions fall into windows, cut where a flush takes
them; in each window the first twenty kind samples are answered as new, one submission beyond them is answered
as the first, and a flush reports every submission of the window it closes.
-/
import ConfigDirector.Client.InvalidKinds
import ConfigDirector.Telemetry.Batches

namespace ConfigDirector.Telemetry

open Python

/-! ## A window -/

/-- A call of `record_invalid_context` and what it has returned. -/
structure Submission where
  kindSample : Text
  answer : InvalidContextRecording

/-- The kind samples of a window, in the order first submitted, up to the limit. -/
def keptSamples (window : List Submission) : List Text :=
  ((window.map Submission.kindSample).eraseDups).take kindSampleLimit

/-- The samples answered as new. -/
def namedSamples (window : List Submission) : List Text :=
  (window.filter fun submission => submission.answer = .newKindSample).map Submission.kindSample

/-- The submissions whose sample is beyond the limit. -/
def beyondLimit (window : List Submission) : ℕ :=
  window.countP fun submission => submission.kindSample ∉ keptSamples window

/-- The error lines the client logs for a window. -/
def errorLines (window : List Submission) : List Client.Observation :=
  window.flatMap fun submission => Client.logInvalidContext submission.answer submission.kindSample

/-- What the submissions of a window are answered: the first distinct samples are new once each, and one
submission beyond them is the first, if there is any. -/
structure Answered (window : List Submission) : Prop where
  named : namedSamples window = keptSamples window
  once : (namedSamples window).Nodup
  bounded : (namedSamples window).length ≤ kindSampleLimit
  first : window.countP (fun submission => submission.answer = .firstBeyondSampleLimit) =
    if beyondLimit window = 0 then 0 else 1
  lines : (errorLines window).length ≤ kindSampleLimit + 1

/-- What the entries of a report say of a window. -/
structure ReportsOf (window : List Submission) (entries : List InvalidContextEntry) : Prop where
  distinct : (entries.filterMap InvalidContextEntry.kindSample).Nodup
  unnamed : entries.countP (fun entry => entry.kindSample = none) ≤ 1
  total : (entries.map InvalidContextEntry.count).sum = window.length

/-! ## The store -/

/-- What a store has counted and answered since it was empty. -/
structure InvalidContextSubmissions.Collects (s : InvalidContextSubmissions) (window : List Submission) : Prop where
  keys : s.countsByKindSample.keys = keptSamples window
  named : namedSamples window = keptSamples window
  total : (s.countsByKindSample.entries.map Prod.snd).sum + s.countBeyondSampleLimit = window.length
  beyond : s.countBeyondSampleLimit = beyondLimit window
  first : window.countP (fun submission => submission.answer = .firstBeyondSampleLimit) =
    if s.countBeyondSampleLimit = 0 then 0 else 1

theorem keptSamples_concat (window : List Submission) (submission : Submission) :
    keptSamples (window ++ [submission]) =
      if submission.kindSample ∈ keptSamples window ∨ kindSampleLimit ≤ (keptSamples window).length then keptSamples window
      else keptSamples window ++ [submission.kindSample] := by
  rw [keptSamples, List.map_append, List.map_singleton, take_eraseDups_concat]
  rfl

/-- As long as there is room no submission is beyond the limit. -/
theorem beyondLimit_of_room {window : List Submission} (h : (keptSamples window).length < kindSampleLimit) :
    ∀ submission ∈ window, submission.kindSample ∈ keptSamples window := by
  intro submission hsubmission
  have hlength := List.length_take (i := kindSampleLimit) (l := (window.map Submission.kindSample).eraseDups)
  rw [keptSamples] at h ⊢
  rw [List.take_of_length_le (by omega), List.mem_eraseDups]
  exact List.mem_map_of_mem hsubmission

theorem beyondLimit_concat (window : List Submission) (submission : Submission) :
    beyondLimit (window ++ [submission]) = beyondLimit window +
      if submission.kindSample ∈ keptSamples window ∨ (keptSamples window).length < kindSampleLimit then 0 else 1 := by
  unfold beyondLimit
  rw [List.countP_append, keptSamples_concat, List.countP_singleton]
  by_cases hmem : submission.kindSample ∈ keptSamples window
  · simp [hmem]
  · by_cases hroom : (keptSamples window).length < kindSampleLimit
    · have hkept := beyondLimit_of_room hroom
      have hnew : ¬ (submission.kindSample ∈ keptSamples window ∨ kindSampleLimit ≤ (keptSamples window).length) :=
        not_or.2 ⟨hmem, Nat.not_le.2 hroom⟩
      have hroom' : submission.kindSample ∈ keptSamples window ∨ (keptSamples window).length < kindSampleLimit := .inr hroom
      have hnone : ∀ kept : List Text, (∀ s ∈ window, s.kindSample ∈ kept) →
          window.countP (fun s => s.kindSample ∉ kept) = 0 := fun kept h => by
        rw [List.countP_eq_zero]
        exact fun s hs => by simp [h s hs]
      rw [if_neg hnew, if_pos hroom', hnone _ hkept, hnone _ fun s hs => List.mem_append_left _ (hkept s hs)]
      simp
    · simp [hmem, hroom, Nat.not_lt.1 hroom]

theorem namedSamples_concat (window : List Submission) (submission : Submission) :
    namedSamples (window ++ [submission]) =
      namedSamples window ++ if submission.answer = .newKindSample then [submission.kindSample] else [] := by
  unfold namedSamples
  rw [List.filter_append, List.map_append, List.filter_singleton]
  by_cases h : submission.answer = .newKindSample <;> simp [h]

namespace InvalidContextSubmissions

theorem collects_empty : empty.Collects [] := ⟨rfl, rfl, rfl, rfl, rfl⟩

/-- A sample that is known is counted under its name. -/
theorem Collects.known {s : InvalidContextSubmissions} {window : List Submission} (h : s.Collects window)
    {kindSample : Text} {count : ℕ} (hcount : s.countsByKindSample.get? kindSample = some count) (startTime : Option Instant) :
    Collects { s with countsByKindSample := s.countsByKindSample.set kindSample (count + 1), startTime }
      (window ++ [⟨kindSample, .knownKindSample⟩]) := by
  have hmem : kindSample ∈ s.countsByKindSample.keys := by
    rw [Dict.mem_keys, hcount]
    rfl
  have hkept : kindSample ∈ keptSamples window := h.keys ▸ hmem
  have hkeys : keptSamples (window ++ [⟨kindSample, .knownKindSample⟩]) = keptSamples window := by
    rw [keptSamples_concat, if_pos (.inl hkept)]
  refine ⟨?_, ?_, ?_, ?_, ?_⟩
  · rw [Dict.keys_set, if_pos hmem, hkeys]
    exact h.keys
  · rw [namedSamples_concat, hkeys, if_neg InvalidContextRecording.noConfusion, List.append_nil]
    exact h.named
  · have hsum := s.countsByKindSample.sum_set kindSample (count + 1)
    rw [hcount, Option.getD_some] at hsum
    have htotal := h.total
    rw [List.length_append, List.length_singleton]
    dsimp only
    omega
  · rw [beyondLimit_concat, if_pos (.inl hkept)]
    exact h.beyond
  · rw [List.countP_append, h.first]
    rfl

/-- A new sample for which there is room gets a count of its own. -/
theorem Collects.new {s : InvalidContextSubmissions} {window : List Submission} (h : s.Collects window)
    {kindSample : Text} (hnone : s.countsByKindSample.get? kindSample = none)
    (hroom : s.countsByKindSample.keys.length < kindSampleLimit) (startTime : Option Instant) :
    Collects { s with countsByKindSample := s.countsByKindSample.set kindSample 1, startTime }
      (window ++ [⟨kindSample, .newKindSample⟩]) := by
  have hmem : kindSample ∉ s.countsByKindSample.keys := by
    rw [Dict.mem_keys, hnone]
    exact Bool.false_ne_true
  have hnew : ¬ (kindSample ∈ keptSamples window ∨ kindSampleLimit ≤ (keptSamples window).length) := by
    rw [← h.keys]
    exact not_or.2 ⟨hmem, Nat.not_le.2 hroom⟩
  have hkeys : keptSamples (window ++ [⟨kindSample, .newKindSample⟩]) = keptSamples window ++ [kindSample] := by
    rw [keptSamples_concat, if_neg hnew]
  refine ⟨?_, ?_, ?_, ?_, ?_⟩
  · rw [Dict.keys_set, if_neg hmem, hkeys, h.keys]
  · rw [namedSamples_concat, hkeys, if_pos rfl, h.named]
  · have hsum := s.countsByKindSample.sum_set kindSample 1
    rw [hnone, Option.getD_none] at hsum
    have htotal := h.total
    rw [List.length_append, List.length_singleton]
    dsimp only
    omega
  · rw [beyondLimit_concat, if_pos (.inr (h.keys ▸ hroom))]
    exact h.beyond
  · rw [List.countP_append, h.first]
    rfl

/-- A new sample for which there is no room is counted without its name. -/
theorem Collects.beyondRoom {s : InvalidContextSubmissions} {window : List Submission} (h : s.Collects window)
    {kindSample : Text} (hnone : s.countsByKindSample.get? kindSample = none)
    (hfull : ¬ s.countsByKindSample.keys.length < kindSampleLimit) (startTime : Option Instant) :
    Collects { s with countBeyondSampleLimit := s.countBeyondSampleLimit + 1, startTime }
      (window ++ [⟨kindSample, if s.countBeyondSampleLimit = 0 then .firstBeyondSampleLimit else .beyondSampleLimit⟩]) := by
  have hmem : kindSample ∉ keptSamples window := by
    rw [← h.keys, Dict.mem_keys, hnone]
    exact Bool.false_ne_true
  rw [h.keys] at hfull
  have hkeys : ∀ answer, keptSamples (window ++ [⟨kindSample, answer⟩]) = keptSamples window := fun answer => by
    rw [keptSamples_concat, if_pos (.inr (Nat.not_lt.1 hfull))]
  have hnotNew : (if s.countBeyondSampleLimit = 0 then InvalidContextRecording.firstBeyondSampleLimit
      else .beyondSampleLimit) ≠ .newKindSample := by
    split <;> decide
  refine ⟨?_, ?_, ?_, ?_, ?_⟩
  · rw [hkeys]
    exact h.keys
  · rw [namedSamples_concat, hkeys, if_neg hnotNew, List.append_nil]
    exact h.named
  · have htotal := h.total
    rw [List.length_append, List.length_singleton]
    dsimp only
    omega
  · rw [beyondLimit_concat, if_neg (not_or.2 ⟨hmem, hfull⟩), h.beyond]
  · rw [List.countP_append, h.first, List.countP_singleton]
    by_cases hzero : s.countBeyondSampleLimit = 0 <;> simp [hzero]

theorem Collects.record {s : InvalidContextSubmissions} {window : List Submission} (h : s.Collects window)
    (kindSample : Text) (now : Instant) :
    (s.record kindSample now).1.Collects (window ++ [⟨kindSample, (s.record kindSample now).2⟩]) := by
  unfold InvalidContextSubmissions.record
  dsimp only
  cases hcount : s.countsByKindSample.get? kindSample with
  | some count => exact h.known hcount _
  | none =>
    by_cases hroom : s.countsByKindSample.keys.length < kindSampleLimit
    · simp only [if_pos hroom]
      exact h.new hcount hroom _
    · simp only [if_neg hroom]
      exact h.beyondRoom hcount hroom _

/-- The error lines of a window are those of the new samples and of the first beyond them. -/
theorem length_errorLines (window : List Submission) : (errorLines window).length =
    (namedSamples window).length + window.countP fun submission => submission.answer = .firstBeyondSampleLimit := by
  induction window with
  | nil => rfl
  | cons submission window ih =>
    obtain ⟨kindSample, answer⟩ := submission
    unfold errorLines namedSamples at ih ⊢
    rw [List.flatMap_cons, List.length_append, ih, List.countP_cons]
    cases answer <;> simp [Client.logInvalidContext] <;> omega

theorem Collects.answered {s : InvalidContextSubmissions} {window : List Submission} (h : s.Collects window) :
    Answered window := by
  have hnodup : (namedSamples window).Nodup := by
    rw [h.named, ← h.keys]
    exact s.countsByKindSample.keys_nodup
  have hbounded : (namedSamples window).length ≤ kindSampleLimit := by
    rw [h.named]
    exact List.length_take_le _ _
  have hfirst := h.first
  rw [h.beyond] at hfirst
  refine ⟨h.named, hnodup, hbounded, hfirst, ?_⟩
  rw [length_errorLines, hfirst]
  split <;> omega

/-- The entries for the samples that have counts of their own. -/
theorem namedEntries_eq (startTime now : Instant) (counts : List (Text × ℕ)) :
    let entries : List InvalidContextEntry := counts.map fun p => ⟨startTime, now, p.2, some p.1⟩
    entries.filterMap InvalidContextEntry.kindSample = counts.map Prod.fst ∧
      entries.countP (fun entry => entry.kindSample = none) = 0 ∧
      entries.map InvalidContextEntry.count = counts.map Prod.snd := by
  induction counts with
  | nil => exact ⟨rfl, rfl, rfl⟩
  | cons p counts ih =>
    obtain ⟨hsamples, hunnamed, hcounts⟩ := ih
    refine ⟨?_, ?_, ?_⟩
    · rw [List.map_cons, List.map_cons, ← hsamples]
      rfl
    · rw [List.map_cons, List.countP_cons, hunnamed]
      rfl
    · rw [List.map_cons, List.map_cons, hcounts]
      rfl

theorem Collects.reports {s : InvalidContextSubmissions} {window : List Submission} (h : s.Collects window)
    (now : Instant) : ReportsOf window (s.snapshot now) := by
  have htotal := h.total
  obtain ⟨hsamples, hunnamed, hcounts⟩ := namedEntries_eq (s.startTime.getD now) now s.countsByKindSample.entries
  unfold snapshot
  dsimp only
  split
  · -- the submissions beyond the limit have an entry without a sample
    refine ⟨?_, ?_, ?_⟩
    · rw [List.filterMap_append, hsamples]
      exact (List.append_nil _).symm ▸ s.countsByKindSample.keys_nodup
    · rw [List.countP_append, hunnamed]
      exact le_rfl
    · rw [List.map_append, List.sum_append, hcounts, ← htotal]
      rfl
  · refine ⟨?_, ?_, ?_⟩
    · rw [hsamples]
      exact s.countsByKindSample.keys_nodup
    · rw [hunnamed]
      exact Nat.zero_le _
    · rw [hcounts]
      omega

end InvalidContextSubmissions

/-! ## The windows of a collector -/

/-- The submissions to a collector, cut where a flush takes them: the windows closed by a flush with the entries
it reports, those cleared because collecting has stopped, the one that is open, and the one that begins when
collecting stops. -/
structure Windows where
  closed : List (List Submission × List InvalidContextEntry)
  cleared : List (List Submission)
  current : List Submission
  afterStopping : List Submission

namespace Windows

/-- Nothing has been submitted. -/
def start : Windows := ⟨[], [], [], []⟩

/-- Every window. -/
def all (w : Windows) : List (List Submission) :=
  w.closed.map Prod.fst ++ w.cleared ++ [w.current, w.afterStopping]

/-- The open window is cleared. -/
def clear (w : Windows) : Windows := { w with cleared := w.cleared ++ [w.current], current := [] }

end Windows

namespace Collector

variable {limit : ℕ}

/-- What a step does to the windows. -/
def observe (sha256 : Bytes → Bytes) (s : Collector limit) (w : Windows) : CollectorStep → Windows
  | .recordInvalidContext kindSample now =>
    if s.collecting then
      { w with current := w.current ++ [⟨kindSample, (s.invalidContexts.record kindSample now).2⟩] }
    else
      { w with
        afterStopping := w.afterStopping ++ [⟨kindSample, (s.invalidContextsAfterStopping.record kindSample now).2⟩] }
  | .report _ now =>
    match s.flush with
    | some (_, .contexts snapshot _ contexts dropped _) =>
      match EventReport.build sha256 snapshot contexts dropped (s.invalidContexts.snapshot now) with
      | .ok report => { w with closed := w.closed ++ [(w.current, report.invalidContexts)], current := [] }
      | .error _ => w
    | _ => w
  | .stopCollecting f => if s.stopping f = .clearing then w.clear else w
  | .closer i =>
    match s.closers i with
    | .clearing _ => w.clear
    | _ => w
  | _ => w

/-! ## Clearing comes after collecting -/

/-- What is only reached once collecting has stopped. -/
structure Ordered (s : Collector limit) : Prop where
  closed : s.closed = true → s.collecting = false
  closers : ∀ i, s.closers i ≠ .uncalled → s.closed = true
  flush : ∀ i phase, s.flush = some (.closer i, phase) → s.closed = true
  stopping : ∀ i, s.stopping (.closer i) ≠ .no → s.closed = true
  clearing : ∀ f, s.stopping f = .settingStop ∨ s.stopping f = .clearing → s.collecting = false

theorem ordered_init : Ordered (init : Collector limit) where
  closed := fun h => by cases h
  closers := fun _ h => absurd rfl h
  flush := fun _ _ h => by cases h
  stopping := fun _ h => absurd rfl h
  clearing := fun _ h => by rcases h with h | h <;> cases h

variable {s : Collector limit}

theorem Ordered.setCloser (h : s.Ordered) (i : ℕ) (closer : Closer) (hclosed : s.closed = true) :
    (s.setCloser i closer).Ordered :=
  ⟨h.closed, fun _ _ => hclosed, h.flush, h.stopping, h.clearing⟩

theorem Ordered.setStopping (h : s.Ordered) (f : Flusher) (stopping : Stopping)
    (hcloser : ∀ i, f = .closer i → stopping ≠ .no → s.closed = true)
    (hclearing : stopping = .settingStop ∨ stopping = .clearing → s.collecting = false) :
    (s.setStopping f stopping).Ordered := by
  refine ⟨h.closed, h.closers, h.flush, fun i hi => ?_, fun g hg => ?_⟩
  · change (if Flusher.closer i = f then stopping else s.stopping (.closer i)) ≠ .no at hi
    split at hi
    · rename_i hf
      exact hcloser i hf.symm hi
    · exact h.stopping i hi
  · change (if g = f then stopping else s.stopping g) = _ ∨ (if g = f then stopping else s.stopping g) = _ at hg
    split at hg
    · exact hclearing hg
    · exact h.clearing g hg

theorem Ordered.returned (h : s.Ordered) (f : Flusher) (hcloser : ∀ i, f = .closer i → s.closed = true) :
    (s.returned f).Ordered := by
  cases f with
  | loop => exact ⟨h.closed, h.closers, h.flush, h.stopping, h.clearing⟩
  | closer i => exact h.setCloser i _ (hcloser i rfl)
  | caller i => exact h

theorem Ordered.raise (h : s.Ordered) (f : Flusher) (hcloser : ∀ i, f = .closer i → s.closed = true) :
    (s.raise f).Ordered := by
  cases f with
  | loop => exact ⟨h.closed, h.closers, h.flush, h.stopping, h.clearing⟩
  | closer i => exact ⟨h.closed, fun _ _ => hcloser i rfl, h.flush, h.stopping, h.clearing⟩
  | caller i => exact ⟨h.closed, h.closers, h.flush, h.stopping, h.clearing⟩

/-! ## What the windows keep -/

/-- The kind sample a step submits. -/
def submittedBy : CollectorStep → List Text
  | .recordInvalidContext kindSample _ => [kindSample]
  | _ => []

/-- The stores hold what was submitted in the open windows, and the other windows are as they should be. -/
structure Keeps (s : Collector limit) (w : Windows) (submitted : List Text) : Prop where
  ordered : s.Ordered
  current : s.invalidContexts.Collects w.current
  afterStopping : s.invalidContextsAfterStopping.Collects w.afterStopping
  closed : ∀ p ∈ w.closed, Answered p.1 ∧ ReportsOf p.1 p.2
  cleared : ∀ window ∈ w.cleared, Answered window
  reports : w.closed.map Prod.snd = s.history.reports.map fun d => d.report.invalidContexts
  collecting : s.collecting = true → w.cleared = [] ∧ w.afterStopping = []
  emptied : w.cleared ≠ [] → w.current = []
  submitted : w.all.flatten.map Submission.kindSample = submitted

variable {s' : Collector limit} {w : Windows} {submitted : List Text}

theorem keeps_init : Keeps (init : Collector limit) .start [] where
  ordered := ordered_init
  current := InvalidContextSubmissions.collects_empty
  afterStopping := InvalidContextSubmissions.collects_empty
  closed := fun _ h => by cases h
  cleared := fun _ h => by cases h
  reports := rfl
  collecting := fun _ => ⟨rfl, rfl⟩
  emptied := fun _ => rfl
  submitted := rfl

/-- A step that neither submits nor takes leaves the windows. -/
theorem Keeps.frame (h : s.Keeps w submitted) (hordered : s'.Ordered) (hcurrent : s'.invalidContexts = s.invalidContexts)
    (hafter : s'.invalidContextsAfterStopping = s.invalidContextsAfterStopping)
    (hreports : s'.history.reports = s.history.reports) (hcollecting : s'.collecting = true → s.collecting = true) :
    s'.Keeps w submitted :=
  ⟨hordered, hcurrent ▸ h.current, hafter ▸ h.afterStopping, h.closed, h.cleared, hreports ▸ h.reports,
    fun hs => h.collecting (hcollecting hs), h.emptied, h.submitted⟩

/-- The open window is closed by the report of a flush. -/
theorem Keeps.close (h : s.Keeps w submitted) (hordered : s'.Ordered) (now : Instant)
    (hcurrent : s'.invalidContexts = .empty) (hafter : s'.invalidContextsAfterStopping = s.invalidContextsAfterStopping)
    {d : Reported} (hreports : s'.history.reports = s.history.reports ++ [d])
    (hentries : d.report.invalidContexts = s.invalidContexts.snapshot now)
    (hcollecting : s'.collecting = s.collecting) :
    s'.Keeps { w with closed := w.closed ++ [(w.current, d.report.invalidContexts)], current := [] } submitted := by
  refine ⟨hordered, hcurrent ▸ InvalidContextSubmissions.collects_empty, hafter ▸ h.afterStopping, ?_, h.cleared, ?_,
    hcollecting ▸ h.collecting, fun _ => rfl, ?_⟩
  · intro p hp
    rcases List.mem_append.1 hp with hp | hp
    · exact h.closed p hp
    · rw [List.mem_singleton.1 hp]
      exact ⟨h.current.answered, hentries ▸ h.current.reports now⟩
  · rw [hreports, List.map_append, List.map_append, h.reports]
    rfl
  · rw [← h.submitted]
    congr 1
    by_cases hcleared : w.cleared = []
    · simp [Windows.all, hcleared]
    · simp [Windows.all, h.emptied hcleared]

/-- The open window is cleared, once collecting has stopped. -/
theorem Keeps.clear (h : s.Keeps w submitted) (hordered : s'.Ordered) (hcurrent : s'.invalidContexts = .empty)
    (hafter : s'.invalidContextsAfterStopping = s.invalidContextsAfterStopping)
    (hreports : s'.history.reports = s.history.reports) (hcollecting : s'.collecting = false) :
    s'.Keeps w.clear submitted := by
  refine ⟨hordered, hcurrent ▸ InvalidContextSubmissions.collects_empty, hafter ▸ h.afterStopping, h.closed, ?_,
    hreports ▸ h.reports, fun hc => (by rw [hcollecting] at hc; cases hc), fun _ => rfl, ?_⟩
  · intro window hwindow
    rcases List.mem_append.1 hwindow with hwindow | hwindow
    · exact h.cleared window hwindow
    · rw [List.mem_singleton.1 hwindow]
      exact h.current.answered
  · rw [← h.submitted]
    congr 1
    simp [Windows.all, Windows.clear]

/-! ## Steps -/

section Steps

variable [Unicode] {sha256 : Bytes → Bytes}

theorem Ordered.step (h : s.Ordered) {e : CollectorStep} (hstep : step sha256 s e = some s') : s'.Ordered := by
  cases e with
  | record i r =>
    rcases record_cases hstep with rfl | ⟨-, ⟨key, context, -, -, rfl⟩ | ⟨-, rfl⟩⟩
    · exact h
    · exact ⟨h.closed, h.closers, h.flush, h.stopping, h.clearing⟩
    · exact ⟨h.closed, h.closers, h.flush, h.stopping, h.clearing⟩
  | addContext i =>
    obtain ⟨r, key, context, -, rfl⟩ := addContext_cases hstep
    exact ⟨h.closed, h.closers, h.flush, h.stopping, h.clearing⟩
  | push i now =>
    obtain ⟨r, -, rfl⟩ := push_cases hstep
    exact ⟨h.closed, h.closers, h.flush, h.stopping, h.clearing⟩
  | recordInvalidContext kindSample now =>
    obtain ⟨invalidContexts, afterStopping, rfl⟩ := recordInvalidContext_cases hstep
    exact ⟨h.closed, h.closers, h.flush, h.stopping, h.clearing⟩
  | acquire f =>
    obtain ⟨-, hwants, rfl⟩ := acquire_cases hstep
    refine ⟨h.closed, h.closers, fun i phase hflush => ?_, h.stopping, h.clearing⟩
    cases hflush
    simp only [wantsFlush, Bool.and_eq_true, beq_iff_eq] at hwants
    exact h.closers i fun huncalled => by rw [hwants.1] at huncalled; cases huncalled
  | takeEvents now =>
    obtain ⟨f, hflush, rfl⟩ := takeEvents_cases hstep
    refine ⟨h.closed, h.closers, fun i phase hflush' => ?_, h.stopping, h.clearing⟩
    cases hflush'
    exact h.flush i _ hflush
  | takeContexts =>
    obtain ⟨f, snapshot, window, hflush, rfl⟩ := takeContexts_cases hstep
    refine ⟨h.closed, h.closers, fun i phase hflush' => ?_, h.stopping, h.clearing⟩
    cases hflush'
    exact h.flush i _ hflush
  | report reply now =>
    obtain ⟨f, snapshot, window, contexts, dropped, evicted, hflush, rfl⟩ := report_cases hstep
    have hcloser : ∀ i, f = .closer i → s.closed = true := fun i hf => h.flush i _ (hf ▸ hflush)
    rcases reportStep_cases f snapshot window contexts dropped evicted reply now with
      ⟨e, -, hnext⟩ | ⟨report, -, hnext | ⟨-, hnext⟩⟩
    · rw [hnext]
      refine Ordered.raise ?_ f hcloser
      exact ⟨h.closed, h.closers, fun _ _ hnone => (by cases hnone), h.stopping, h.clearing⟩
    · rw [hnext]
      refine Ordered.returned ?_ f hcloser
      exact ⟨h.closed, h.closers, fun _ _ hnone => (by cases hnone), h.stopping, h.clearing⟩
    · rw [hnext]
      refine Ordered.setStopping ?_ f _ (fun i hf _ => hcloser i hf) ?_
      · exact ⟨h.closed, h.closers, fun _ _ hnone => (by cases hnone), h.stopping, h.clearing⟩
      · rintro (hlocking | hlocking) <;> cases hlocking
  | stopCollecting f =>
    have hcloser : ∀ {stopping : Stopping}, s.stopping f = stopping → stopping ≠ .no →
        ∀ i, f = .closer i → s.closed = true := by
      intro stopping hstopping hno i hf
      exact h.stopping i (hf ▸ hstopping ▸ hno)
    have hnotClearing : Stopping.no = .settingStop ∨ Stopping.no = .clearing → s.collecting = false := by
      rintro (hno | hno) <;> cases hno
    rcases stopCollecting_cases hstep with ⟨hf, -, rfl⟩ | ⟨hf, -, rfl⟩ | ⟨hf, rfl⟩ | ⟨hf, rfl⟩
    · refine Ordered.setStopping ?_ f _ (fun i hi _ => hcloser hf (by decide) i hi) fun _ => rfl
      exact ⟨fun _ => rfl, h.closers, h.flush, h.stopping, fun _ _ => rfl⟩
    · exact (h.setStopping f .no (fun _ _ hno => absurd rfl hno) hnotClearing).returned f (hcloser hf (by decide))
    · refine Ordered.setStopping ?_ f _ (fun i hi _ => hcloser hf (by decide) i hi) fun _ => h.clearing f (.inl hf)
      exact ⟨h.closed, h.closers, h.flush, h.stopping, h.clearing⟩
    · have hclear : s.clear.Ordered := ⟨h.closed, h.closers, h.flush, h.stopping, h.clearing⟩
      exact (hclear.setStopping f .no (fun _ _ hno => absurd rfl hno) hnotClearing).returned f (hcloser hf (by decide))
  | loopWakes =>
    obtain ⟨-, rfl⟩ := loopWakes_cases hstep
    exact ⟨h.closed, h.closers, h.flush, h.stopping, h.clearing⟩
  | loopChecks =>
    obtain ⟨-, rfl⟩ := loopChecks_cases hstep
    exact ⟨h.closed, h.closers, h.flush, h.stopping, h.clearing⟩
  | closer i =>
    have hcalled : ∀ {closer : Closer}, s.closers i = closer → closer ≠ .uncalled → s.closed = true := by
      intro closer hcloser hne
      exact h.closers i (hcloser ▸ hne)
    rcases closer_cases hstep with ⟨-, hclosed, rfl⟩ | ⟨-, -, rfl⟩ | ⟨was, hc, rfl⟩ | ⟨was, hc, rfl⟩ | ⟨flushed, hc, rfl⟩
    · exact h.setCloser i _ hclosed
    · exact ⟨fun _ => rfl, fun _ _ => rfl, fun _ _ _ => rfl, fun _ _ => rfl, fun _ _ => rfl⟩
    · refine Ordered.setCloser ?_ i _ (hcalled hc Closer.noConfusion)
      exact ⟨h.closed, h.closers, h.flush, h.stopping, h.clearing⟩
    · exact h.setCloser i _ (hcalled hc Closer.noConfusion)
    · refine Ordered.setCloser ?_ i _ (hcalled hc Closer.noConfusion)
      exact ⟨h.closed, h.closers, h.flush, h.stopping, h.clearing⟩

/-- The collector with the windows of the submissions so far. -/
def watchedStep (sha256 : Bytes → Bytes) (p : Collector limit × Windows) (e : CollectorStep) :
    Option (Collector limit × Windows) :=
  (step sha256 p.1 e).map fun s => (s, p.1.observe sha256 p.2 e)

theorem Keeps.recordInvalidContext (h : s.Keeps w submitted) (hordered : s'.Ordered) {kindSample : Text} {now : Instant}
    (hstep : step sha256 s (.recordInvalidContext kindSample now) = some s') :
    s'.Keeps (s.observe sha256 w (.recordInvalidContext kindSample now)) (submitted ++ [kindSample]) := by
  have hsubmitted := h.submitted
  simp only [Windows.all, List.flatten_append, List.map_append, List.flatten_cons, List.flatten_nil,
    List.append_nil] at hsubmitted
  simp only [step] at hstep
  by_cases hcollecting : s.collecting = true
  · obtain ⟨hcleared, hafter⟩ := h.collecting hcollecting
    rw [if_pos hcollecting] at hstep
    cases hstep
    simp only [observe, if_pos hcollecting]
    refine ⟨hordered, h.current.record kindSample now, h.afterStopping, h.closed, h.cleared, h.reports, h.collecting,
      fun hne => absurd hcleared hne, ?_⟩
    simp only [Windows.all, List.flatten_append, List.map_append, List.flatten_cons, List.flatten_nil, List.append_nil,
      List.map_cons, List.map_nil, hcleared, hafter] at hsubmitted ⊢
    rw [← hsubmitted, List.append_assoc]
  · rw [if_neg hcollecting] at hstep
    cases hstep
    simp only [observe, if_neg hcollecting]
    refine ⟨hordered, h.current, h.afterStopping.record kindSample now, h.closed, h.cleared, h.reports,
      fun hc => absurd hc hcollecting, h.emptied, ?_⟩
    simp only [Windows.all, List.flatten_append, List.map_append, List.flatten_cons, List.flatten_nil, List.append_nil,
      List.map_cons, List.map_nil] at hsubmitted ⊢
    simp only [← hsubmitted, List.append_assoc]

theorem Keeps.other (h : s.Keeps w submitted) {e : CollectorStep} (hstep : Collector.step sha256 s e = some s')
    (hother : submittedBy e = []) : s'.Keeps (s.observe sha256 w e) submitted := by
  have hordered := h.ordered.step hstep
  cases e with
  | recordInvalidContext kindSample now => cases hother
  | record i r =>
    rcases record_cases hstep with rfl | ⟨-, ⟨key, context, -, -, rfl⟩ | ⟨-, rfl⟩⟩
    · exact h
    · exact h.frame hordered rfl rfl rfl id
    · exact h.frame hordered rfl rfl rfl id
  | addContext i =>
    obtain ⟨r, key, context, -, rfl⟩ := addContext_cases hstep
    exact h.frame hordered rfl rfl rfl id
  | push i now =>
    obtain ⟨r, -, rfl⟩ := push_cases hstep
    exact h.frame hordered rfl rfl rfl id
  | acquire f =>
    obtain ⟨-, -, rfl⟩ := acquire_cases hstep
    exact h.frame hordered rfl rfl rfl id
  | takeEvents now =>
    obtain ⟨f, -, rfl⟩ := takeEvents_cases hstep
    exact h.frame hordered rfl rfl rfl id
  | takeContexts =>
    obtain ⟨f, snapshot, window, -, rfl⟩ := takeContexts_cases hstep
    exact h.frame hordered rfl rfl rfl id
  | report reply now =>
    obtain ⟨f, snapshot, window, contexts, dropped, evicted, hflush, rfl⟩ := report_cases hstep
    simp only [observe, hflush]
    rcases @reportStep_cases _ sha256 s f snapshot window contexts dropped evicted reply now with
      ⟨e, hbuild, hnext⟩ | ⟨report, hbuild, hnext⟩
    · rw [hnext] at hordered ⊢
      simp only [hbuild]
      cases f <;> exact h.frame hordered rfl rfl rfl id
    · have hentries : report.invalidContexts = s.invalidContexts.snapshot now := by
        obtain ⟨compacted, -, hreport⟩ := bind_eq_ok_iff.1 hbuild
        obtain ⟨evaluations, -, hreport⟩ := bind_eq_ok_iff.1 hreport
        cases hreport
        rfl
      simp only [hbuild]
      rcases hnext with hnext | ⟨-, hnext⟩
      · rw [hnext] at hordered ⊢
        cases f <;> exact h.close hordered now rfl rfl rfl hentries rfl
      · rw [hnext] at hordered ⊢
        exact h.close hordered now rfl rfl rfl hentries rfl
  | stopCollecting f =>
    rcases stopCollecting_cases hstep with ⟨hf, -, rfl⟩ | ⟨hf, -, rfl⟩ | ⟨hf, rfl⟩ | ⟨hf, rfl⟩
    · simp only [observe, hf]
      exact h.frame hordered rfl rfl rfl fun hc => by cases hc
    · simp only [observe, hf]
      cases f <;> exact h.frame hordered rfl rfl rfl id
    · simp only [observe, hf]
      exact h.frame hordered rfl rfl rfl id
    · have hcollecting := h.ordered.clearing f (.inr hf)
      simp only [observe, hf]
      cases f <;> exact h.clear hordered rfl rfl rfl hcollecting
  | loopWakes =>
    obtain ⟨-, rfl⟩ := loopWakes_cases hstep
    exact h.frame hordered rfl rfl rfl id
  | loopChecks =>
    obtain ⟨-, rfl⟩ := loopChecks_cases hstep
    exact h.frame hordered rfl rfl rfl id
  | closer i =>
    rcases closer_cases hstep with ⟨hc, -, rfl⟩ | ⟨hc, -, rfl⟩ | ⟨was, hc, rfl⟩ | ⟨was, hc, rfl⟩ | ⟨flushed, hc, rfl⟩
    · simp only [observe, hc]
      exact h.frame hordered rfl rfl rfl id
    · simp only [observe, hc]
      exact h.frame hordered rfl rfl rfl fun hcollecting => by cases hcollecting
    · simp only [observe, hc]
      exact h.frame hordered rfl rfl rfl id
    · simp only [observe, hc]
      exact h.frame hordered rfl rfl rfl id
    · have hclosed := h.ordered.closers i fun huncalled => by rw [hc] at huncalled; cases huncalled
      simp only [observe, hc]
      exact h.clear hordered rfl rfl rfl (h.ordered.closed hclosed)

theorem Keeps.step (h : s.Keeps w submitted) {e : CollectorStep} (hstep : Collector.step sha256 s e = some s') :
    s'.Keeps (s.observe sha256 w e) (submitted ++ submittedBy e) := by
  cases e with
  | recordInvalidContext kindSample now => exact h.recordInvalidContext (h.ordered.step hstep) hstep
  | _ => exact (List.append_nil submitted).symm ▸ h.other hstep rfl

/-- Every run is watched, and the windows keep what is submitted in it. -/
theorem Keeps.run : ∀ {es : List CollectorStep} {s s' : Collector limit} {w : Windows} {submitted : List Text},
    s.Keeps w submitted → Collector.run sha256 s es = some s' →
    ∃ w', Transition.run (watchedStep sha256) (s, w) es = some (s', w') ∧ s'.Keeps w' (submitted ++ es.flatMap submittedBy)
  | [], s, s', w, submitted, h, hrun => by
    cases hrun
    exact ⟨w, rfl, by rwa [List.flatMap_nil, List.append_nil]⟩
  | e :: es, s, s', w, submitted, h, hrun => by
    obtain ⟨s₁, hstep, hrest⟩ := Transition.run_cons hrun
    obtain ⟨w', hwatched, hkeeps⟩ := Keeps.run (h.step hstep) hrest
    refine ⟨w', ?_, ?_⟩
    · have hfirst : watchedStep sha256 (s, w) e = some (s₁, s.observe sha256 w e) := by
        simp only [watchedStep, hstep, Option.map_some]
      rw [Transition.run, hfirst]
      exact hwatched
    · rwa [List.flatMap_cons, ← List.append_assoc]

/-! ## Flushes without evaluations -/

/-- No evaluation has been recorded, and no flush has raised. -/
structure Unrecorded (s : Collector limit) : Prop where
  recorders : ∀ i, s.recorders i = .idle
  events : s.events.events.items = []
  taken : ∀ snapshot window, s.taken = some (snapshot, window) → snapshot.events = []
  raised : s.history.raised = []

omit [Unicode] in
theorem unrecorded_init : Unrecorded (init : Collector limit) where
  recorders := fun _ => rfl
  events := rfl
  taken := fun _ _ h => by cases h
  raised := rfl

/-- A step records no evaluation. -/
def NoEvaluation (e : CollectorStep) : Prop := ∀ i r, e ≠ .record i r

omit [Unicode] in
theorem Unrecorded.returned (h : s.Unrecorded) (f : Flusher) : (s.returned f).Unrecorded := by
  cases f <;> exact ⟨h.recorders, h.events, h.taken, h.raised⟩

omit [Unicode] in
/-- A report without evaluations is built. -/
theorem Unrecorded.report (h : s.Unrecorded) {f : Flusher} {snapshot : EventQueueSnapshot}
    {window : List EvaluatedConfigEvent} {contexts : List Context} {dropped : ℕ} {evicted : List ContextKey}
    (hflush : s.flush = some (f, .contexts snapshot window contexts dropped evicted)) (reply : Reply) (now : Instant) :
    (s.reportStep sha256 f snapshot window contexts dropped evicted reply now).Unrecorded := by
  have hevents : snapshot.events = [] := h.taken snapshot window (by simp only [Collector.taken, hflush])
  rcases @reportStep_cases _ sha256 s f snapshot window contexts dropped evicted reply now with
    ⟨e, hbuild, -⟩ | ⟨report, -, hnext | ⟨-, hnext⟩⟩
  · obtain ⟨report, hreport⟩ := (EventReport.build_ok_iff sha256 snapshot contexts dropped
      (s.invalidContexts.snapshot now)).2 fun event hevent => by
        rw [hevents] at hevent
        cases hevent
    rw [hreport] at hbuild
    cases hbuild
  · rw [hnext]
    apply Unrecorded.returned
    exact ⟨h.recorders, h.events, fun _ _ hnone => (by cases hnone), h.raised⟩
  · rw [hnext]
    exact ⟨h.recorders, h.events, fun _ _ hnone => (by cases hnone), h.raised⟩

theorem Unrecorded.step (h : s.Unrecorded) {e : CollectorStep} (he : NoEvaluation e)
    (hstep : Collector.step sha256 s e = some s') : s'.Unrecorded := by
  cases e with
  | record i r => exact absurd rfl (he i r)
  | addContext i =>
    obtain ⟨r, key, context, hrecorder, -⟩ := addContext_cases hstep
    rw [h.recorders i] at hrecorder
    cases hrecorder
  | push i now =>
    obtain ⟨r, hrecorder, -⟩ := push_cases hstep
    rw [h.recorders i] at hrecorder
    cases hrecorder
  | recordInvalidContext kindSample now =>
    obtain ⟨invalidContexts, afterStopping, rfl⟩ := recordInvalidContext_cases hstep
    exact ⟨h.recorders, h.events, h.taken, h.raised⟩
  | acquire f =>
    obtain ⟨-, -, rfl⟩ := acquire_cases hstep
    exact ⟨h.recorders, h.events, fun _ _ hnone => (by cases hnone), h.raised⟩
  | takeEvents now =>
    obtain ⟨f, -, rfl⟩ := takeEvents_cases hstep
    refine ⟨h.recorders, rfl, fun snapshot window htaken => ?_, h.raised⟩
    cases htaken
    exact h.events
  | takeContexts =>
    obtain ⟨f, snapshot, window, hflush, rfl⟩ := takeContexts_cases hstep
    refine ⟨h.recorders, h.events, fun snapshot' window' htaken => ?_, h.raised⟩
    cases htaken
    exact h.taken snapshot window (by simp only [Collector.taken, hflush])
  | report reply now =>
    obtain ⟨f, snapshot, window, contexts, dropped, evicted, hflush, rfl⟩ := report_cases hstep
    exact h.report hflush reply now
  | stopCollecting f =>
    rcases stopCollecting_cases hstep with ⟨-, -, rfl⟩ | ⟨-, -, rfl⟩ | ⟨-, rfl⟩ | ⟨-, rfl⟩
    · exact ⟨h.recorders, h.events, h.taken, h.raised⟩
    · apply Unrecorded.returned
      exact ⟨h.recorders, h.events, h.taken, h.raised⟩
    · exact ⟨h.recorders, h.events, h.taken, h.raised⟩
    · apply Unrecorded.returned
      exact ⟨h.recorders, rfl, h.taken, h.raised⟩
  | loopWakes =>
    obtain ⟨-, rfl⟩ := loopWakes_cases hstep
    exact ⟨h.recorders, h.events, h.taken, h.raised⟩
  | loopChecks =>
    obtain ⟨-, rfl⟩ := loopChecks_cases hstep
    exact ⟨h.recorders, h.events, h.taken, h.raised⟩
  | closer i =>
    rcases closer_cases hstep with ⟨-, -, rfl⟩ | ⟨-, -, rfl⟩ | ⟨was, -, rfl⟩ | ⟨was, -, rfl⟩ | ⟨flushed, -, rfl⟩
    · exact ⟨h.recorders, h.events, h.taken, h.raised⟩
    · exact ⟨h.recorders, h.events, h.taken, h.raised⟩
    · exact ⟨h.recorders, h.events, h.taken, h.raised⟩
    · exact ⟨h.recorders, h.events, h.taken, h.raised⟩
    · exact ⟨h.recorders, rfl, h.taken, h.raised⟩

/-! ## Bounded and complete -/

/-- In every run the submissions fall into windows that are answered as they should be, the windows closed are
reported in full, and a window is cleared only once collecting has stopped. Without evaluations every flush
reports. -/
theorem invalid_kinds_reported (sha256 : Bytes → Bytes) (es : List CollectorStep) (s : Collector limit)
    (h : run sha256 init es = some s) :
    (∃ w, Transition.run (watchedStep sha256) (init, .start) es = some (s, w) ∧
      (∀ window ∈ w.all, Answered window) ∧ (∀ p ∈ w.closed, ReportsOf p.1 p.2) ∧
      w.closed.map Prod.snd = s.history.reports.map (fun d => d.report.invalidContexts) ∧
      (s.collecting = true → w.cleared = [] ∧ w.afterStopping = []) ∧
      w.all.flatten.map Submission.kindSample = es.flatMap submittedBy) ∧
    ((∀ e ∈ es, NoEvaluation e) → s.history.raised = []) := by
  obtain ⟨w, hwatched, hkeeps⟩ := keeps_init.run h
  refine ⟨⟨w, hwatched, fun window hwindow => ?_, fun p hp => (hkeeps.closed p hp).2, hkeeps.reports, hkeeps.collecting,
    hkeeps.submitted⟩, fun hnone => ?_⟩
  · simp only [Windows.all, List.mem_append, List.mem_map, List.mem_cons, List.not_mem_nil, or_false] at hwindow
    rcases hwindow with (⟨p, hp, rfl⟩ | hcleared) | rfl | rfl
    · exact (hkeeps.closed p hp).1
    · exact hkeeps.cleared window hcleared
    · exact hkeeps.current.answered
    · exact hkeeps.afterStopping.answered
  · exact (Transition.invariant (fun _ _ _ hs he hstep => hs.step he hstep) unrecorded_init
      (Transition.obeys_of_forall init hnone) h).raised

end Steps

/-- Two submissions of a kind sample before a flush, and one after it. -/
theorem invalid_kinds_reported_twice : ∃ (_ : Unicode) (es : List CollectorStep) (s : Collector 100) (w : Windows),
    Transition.run (watchedStep id) (init, .start) es = some (s, w) ∧
      w.closed.map (fun p => p.1.map Submission.answer) = [[.newKindSample, .knownKindSample]] ∧
      ∀ window ∈ w.all, Answered window := by
  let _ : Unicode := .ascii
  let es : List CollectorStep := [.recordInvalidContext (lit "User") 0, .recordInvalidContext (lit "User") 1,
    .acquire (.caller 0), .takeEvents 2, .takeContexts, .report (.responds false) 3, .recordInvalidContext (lit "User") 4]
  obtain ⟨s, hrun⟩ : ∃ s : Collector 100, run id init es = some s := ⟨_, rfl⟩
  obtain ⟨⟨w, hwatched, hanswered, -⟩, -⟩ := invalid_kinds_reported id es s hrun
  refine ⟨.ascii, es, s, w, hwatched, ?_, hanswered⟩
  cases hwatched
  rfl

end Collector

end ConfigDirector.Telemetry
