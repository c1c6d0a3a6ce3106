/-
The HTTP reporter (`HttpEventReporter`) behind the collector: whatever the threads do and however the endpoint
answers, the reports built are posted in their order, each once, and nothing is posted after a fatal answer. What the
posts say adds up to the evaluations recorded.
-/
import ConfigDirector.Telemetry.Accounts
import ConfigDirector.Telemetry.Wire
import ConfigDirector.Transport.Http

namespace ConfigDirector.Telemetry

open Python Transport

/-! ## Model -/

structure ReporterResponse where
  success : Bool
  fatal : Bool

/-- What `report` raises: an error of `json.dumps`, or what reading the response raises. -/
inductive ReporterError
  | body (error : Exc)
  | response (error : TransportError)

/-- A call of `report`: what the reporter becomes, what the call returns, and the body it has posted. -/
structure Reporting where
  reporter : HttpEventReporter
  result : Except ReporterError ReporterResponse
  posted : Option Bytes

namespace HttpEventReporter

/-- `_send`. -/
def send (reporter : HttpEventReporter) (exchange : Exchange) : Except TransportError ReporterResponse :=
  match post reporter.url exchange with
  | .error (.validation _) => .ok ⟨false, true⟩
  | .error (.connection _ _) => .ok ⟨false, false⟩
  | .error error => .error error
  | .ok response => if isFatalStatus (some response.status) then .ok ⟨false, true⟩ else .ok ⟨response.ok, false⟩

def report (reporter : HttpEventReporter) (report : EventReport) (exchange : Exchange) : Reporting :=
  if !reporter.sendRequests then ⟨reporter, .ok ⟨false, true⟩, none⟩
  else if report.isEmpty then ⟨reporter, .ok ⟨true, false⟩, none⟩
  else
    match reporter.body report with
    | .error error => ⟨reporter, .error (.body error), none⟩
    | .ok bytes =>
      match reporter.send exchange with
      | .error error => ⟨reporter, .error (.response error), some bytes⟩
      | .ok response =>
        ⟨if response.fatal then { reporter with sendRequests := false } else reporter, .ok response, some bytes⟩

end HttpEventReporter

/-- What the collector sees of a call of `report`. -/
def Reporting.reply (r : Reporting) : Reply :=
  match r.result with
  | .error _ => .raises
  | .ok response => .responds response.fatal

/-- The report a flush is about to hand over, unless it is empty or cannot be built. -/
def Collector.handed {limit : ℕ} (sha256 : Bytes → Bytes) (s : Collector limit) (now : Instant) : Option EventReport :=
  match s.flush with
  | some (_, .contexts snapshot _ contexts dropped _) =>
    match EventReport.build sha256 snapshot contexts dropped (s.invalidContexts.snapshot now) with
    | .ok report => if report.isEmpty then none else some report
    | .error _ => none
  | _ => none

/-- A body that was posted, and whether the answer was fatal. -/
structure Post where
  body : Bytes
  fatal : Bool

/-- A collector with its reporter, and the posts made. -/
structure Session (limit : ℕ) where
  collector : Collector limit
  reporter : HttpEventReporter
  posts : List Post

/-- A step of one of the collector's threads; when it reports, the exchange its request comes to. -/
inductive SessionStep
  | collect (e : CollectorStep)
  | report (exchange : Exchange) (now : Instant)

namespace Session

variable {limit : ℕ}

def init (reporter : HttpEventReporter) : Session limit := ⟨.init, { reporter with sendRequests := true }, []⟩

/-- The call of `report` that a flush makes. -/
def reporting (sha256 : Bytes → Bytes) (s : Session limit) (exchange : Exchange) (now : Instant) : Option Reporting :=
  (s.collector.handed sha256 now).map fun report => s.reporter.report report exchange

/-- What a flush sees of its call; without one it does not matter. -/
def reply (sha256 : Bytes → Bytes) (s : Session limit) (exchange : Exchange) (now : Instant) : Reply :=
  match s.reporting sha256 exchange now with
  | some r => r.reply
  | none => .raises

/-- The post of a call. -/
def posted (r : Reporting) : List Post :=
  match r.posted with
  | some bytes => [⟨bytes, r.reply == .responds true⟩]
  | none => []

variable [Unicode]

def step (sha256 : Bytes → Bytes) (s : Session limit) : SessionStep → Option (Session limit)
  | .collect (.report _ _) => none
  | .collect e => (s.collector.step sha256 e).map fun collector => { s with collector }
  | .report exchange now =>
    (s.collector.step sha256 (.report (s.reply sha256 exchange now) now)).map fun collector =>
      match s.reporting sha256 exchange now with
      | some r => ⟨collector, r.reporter, s.posts ++ posted r⟩
      | none => { s with collector }

abbrev run (sha256 : Bytes → Bytes) : Session limit → List SessionStep → Option (Session limit) :=
  Transition.run (step sha256)

end Session

/-! ## What a call of `report` does -/

namespace HttpEventReporter

/-- A reporter that has stopped sending answers fatally; one that sends posts the body, unless the report is empty or
cannot be written. -/
theorem report_cases (reporter : HttpEventReporter) {report : EventReport} (hreport : report.isEmpty = false)
    (exchange : Exchange) :
    (reporter.sendRequests = false ∧ reporter.report report exchange = ⟨reporter, .ok ⟨false, true⟩, none⟩) ∨
    (reporter.sendRequests = true ∧
      ((∃ e, reporter.body report = .error e ∧ reporter.report report exchange = ⟨reporter, .error (.body e), none⟩) ∨
      ∃ bytes, reporter.body report = .ok bytes ∧ (reporter.report report exchange).posted = some bytes ∧
        (reporter.report report exchange).reporter =
          { reporter with sendRequests := (reporter.report report exchange).reply != .responds true })) := by
  unfold HttpEventReporter.report
  cases hsend : reporter.sendRequests with
  | false => exact .inl ⟨rfl, rfl⟩
  | true =>
    refine .inr ⟨rfl, ?_⟩
    simp only [hreport, Bool.not_true, Bool.false_eq_true, if_false]
    cases reporter.body report with
    | error e => exact .inl ⟨e, rfl, rfl⟩
    | ok bytes =>
      refine .inr ⟨bytes, rfl, ?_⟩
      have hkeeps : { reporter with sendRequests := true } = reporter := by rw [← hsend]
      cases reporter.send exchange with
      | error e => exact ⟨rfl, hkeeps.symm⟩
      | ok response =>
        obtain ⟨success, fatal⟩ := response
        cases fatal with
        | false => exact ⟨rfl, hkeeps.symm⟩
        | true => exact ⟨rfl, rfl⟩

end HttpEventReporter

/-! ## What the collector hands over -/

namespace Collector

variable {limit : ℕ} {sha256 : Bytes → Bytes}

@[simp] theorem history_returned (s : Collector limit) (f : Flusher) : (s.returned f).history = s.history := by
  cases f <;> rfl

@[simp] theorem history_setCloser (s : Collector limit) (i : ℕ) (closer : Closer) :
    (s.setCloser i closer).history = s.history := rfl

@[simp] theorem history_setStopping (s : Collector limit) (f : Flusher) (stopping : Stopping) :
    (s.setStopping f stopping).history = s.history := rfl

/-- The reports built, and whether one was answered fatally. -/
def reported (s : Collector limit) : List Reported × Bool := (s.history.reports, s.history.fatal)

theorem reported_raise (s : Collector limit) (f : Flusher) : (s.raise f).reported = s.reported := by
  cases f <;> rfl

/-- A flush hands over its report or builds an empty one or none at all. -/
theorem report_handed [Unicode] {s s' : Collector limit} {reply : Reply} {now : Instant}
    (h : step sha256 s (.report reply now) = some s') :
    (s.handed sha256 now = none ∧ (s'.reported = s.reported ∨
      ∃ d : Reported, d.report.isEmpty = true ∧ s'.reported = (s.history.reports ++ [d], s.history.fatal))) ∨
    ∃ d : Reported, s.handed sha256 now = some d.report ∧ d.report.isEmpty = false ∧
      s'.reported = (s.history.reports ++ [d], s.history.fatal || reply == .responds true) := by
  obtain ⟨f, snapshot, window, contexts, dropped, evicted, hflush, rfl⟩ := Collector.report_cases h
  unfold handed reportStep
  rw [hflush]
  dsimp only
  cases EventReport.build sha256 snapshot contexts dropped (s.invalidContexts.snapshot now) with
  | error e => exact .inl ⟨rfl, .inl (reported_raise _ f)⟩
  | ok report =>
    dsimp only
    cases hempty : report.isEmpty with
    | true =>
      refine .inl ⟨rfl, .inr ⟨⟨f, window, snapshot.events, s.history.added, evicted, report⟩, hempty, ?_⟩⟩
      simp [reported]
    | false =>
      refine .inr ⟨⟨f, window, snapshot.events, s.history.added, evicted, report⟩, rfl, hempty, ?_⟩
      cases reply with
      | raises => simp [reported]
      | responds fatal => cases fatal <;> simp [reported]

/-- Only a flush that reports changes what is reported. -/
theorem reported_step [Unicode] {s s' : Collector limit} {e : CollectorStep} (hreport : ∀ reply now, e ≠ .report reply now)
    (h : step sha256 s e = some s') : s'.reported = s.reported := by
  cases e with
  | record i r =>
    rcases record_cases h with rfl | ⟨-, ⟨key, context, -, -, rfl⟩ | ⟨-, rfl⟩⟩ <;> rfl
  | addContext i =>
    obtain ⟨r, key, context, -, rfl⟩ := addContext_cases h
    rfl
  | push i now =>
    obtain ⟨r, -, rfl⟩ := push_cases h
    rfl
  | recordInvalidContext kindSample now =>
    obtain ⟨invalidContexts, afterStopping, rfl⟩ := recordInvalidContext_cases h
    rfl
  | acquire f =>
    obtain ⟨-, -, rfl⟩ := acquire_cases h
    rfl
  | takeEvents now =>
    obtain ⟨f, -, rfl⟩ := takeEvents_cases h
    rfl
  | takeContexts =>
    obtain ⟨f, snapshot, window, -, rfl⟩ := takeContexts_cases h
    rfl
  | report reply now => exact absurd rfl (hreport reply now)
  | stopCollecting f =>
    rcases stopCollecting_cases h with ⟨-, -, rfl⟩ | ⟨-, -, rfl⟩ | ⟨-, rfl⟩ | ⟨-, rfl⟩
    · rfl
    · cases f <;> rfl
    · rfl
    · cases f <;> rfl
  | loopWakes =>
    obtain ⟨-, rfl⟩ := loopWakes_cases h
    rfl
  | loopChecks =>
    obtain ⟨-, rfl⟩ := loopChecks_cases h
    rfl
  | closer i =>
    rcases closer_cases h with ⟨-, -, rfl⟩ | ⟨-, -, rfl⟩ | ⟨was, -, rfl⟩ | ⟨was, -, rfl⟩ | ⟨flushed, -, rfl⟩ <;> rfl

end Collector

/-! ## What a session does -/

namespace Session

variable {limit : ℕ} {sha256 : Bytes → Bytes}

/-- The step of the collector in a step of the session. -/
def collected (sha256 : Bytes → Bytes) (s : Session limit) : SessionStep → CollectorStep
  | .collect e => e
  | .report exchange now => .report (s.reply sha256 exchange now) now

/-- The bodies of the reports that are not empty and can be written. -/
def bodies (reporter : HttpEventReporter) (reports : List Reported) : List Bytes :=
  reports.filterMap fun d => if d.report.isEmpty then none else (reporter.body d.report).toOption

/-- The collector of a session takes its steps. -/
theorem step_collected [Unicode] {s s' : Session limit} {e : SessionStep} (h : step sha256 s e = some s') :
    Collector.step sha256 s.collector (s.collected sha256 e) = some s'.collector := by
  cases e with
  | collect e =>
    cases e with
    | report reply now => cases h
    | _ =>
      obtain ⟨collector, hcollector, rfl⟩ := Option.map_eq_some_iff.1 h
      exact hcollector
  | report exchange now =>
    obtain ⟨collector, hcollector, rfl⟩ := Option.map_eq_some_iff.1 h
    rw [collected, hcollector]
    split <;> rfl

/-- A step of the collector that reports nothing leaves the reporter and the posts. -/
theorem step_cases [Unicode] {s s' : Session limit} {e : SessionStep} (h : step sha256 s e = some s') :
    (s'.reporter = s.reporter ∧ s'.posts = s.posts ∧ (s'.collector.reported = s.collector.reported ∨
      ∃ d : Reported, d.report.isEmpty = true ∧
        s'.collector.reported = (s.collector.history.reports ++ [d], s.collector.history.fatal))) ∨
    ∃ (exchange : Exchange) (now : Instant) (d : Reported), e = .report exchange now ∧
      s.collector.handed sha256 now = some d.report ∧ d.report.isEmpty = false ∧
      s'.reporter = (s.reporter.report d.report exchange).reporter ∧
      s'.posts = s.posts ++ posted (s.reporter.report d.report exchange) ∧
      s'.collector.reported = (s.collector.history.reports ++ [d],
        s.collector.history.fatal || (s.reporter.report d.report exchange).reply == .responds true) := by
  cases e with
  | collect e =>
    cases e with
    | report reply now => cases h
    | _ =>
      obtain ⟨collector, hcollector, rfl⟩ := Option.map_eq_some_iff.1 h
      refine .inl ⟨rfl, rfl, .inl (Collector.reported_step ?_ hcollector)⟩
      rintro reply now ⟨⟩
  | report exchange now =>
    obtain ⟨collector, hcollector, rfl⟩ := Option.map_eq_some_iff.1 h
    rcases Collector.report_handed hcollector with ⟨hnone, hreported⟩ | ⟨d, hhanded, hempty, hreported⟩
    · have hreporting : s.reporting sha256 exchange now = none := by rw [reporting, hnone, Option.map_none]
      rw [hreporting]
      exact .inl ⟨rfl, rfl, hreported⟩
    · have hreporting : s.reporting sha256 exchange now = some (s.reporter.report d.report exchange) := by
        rw [reporting, hhanded, Option.map_some]
      have hreply : s.reply sha256 exchange now = (s.reporter.report d.report exchange).reply := by
        rw [reply, hreporting]
      rw [hreply] at hreported
      rw [hreporting]
      exact .inr ⟨exchange, now, d, rfl, hhanded, hempty, rfl, rfl, hreported⟩

/-! ## Posts -/

/-- Nothing is posted after a fatal answer, and the posts are the bodies of the reports in their order, all of them
as long as no answer is fatal. -/
structure Orderly (reporter : HttpEventReporter) (s : Session limit) : Prop where
  settings : s.reporter = { reporter with sendRequests := !s.collector.history.fatal }
  last : ∀ p ∈ s.posts.dropLast, p.fatal = false
  fatal : s.collector.history.fatal = true ↔ ∃ p ∈ s.posts, p.fatal = true
  bodies : s.posts.map Post.body <+: bodies reporter s.collector.history.reports
  sending : s.collector.history.fatal = false →
    s.posts.map Post.body = Session.bodies reporter s.collector.history.reports

theorem bodies_append (reporter : HttpEventReporter) (reports reports' : List Reported) :
    bodies reporter (reports ++ reports') = bodies reporter reports ++ bodies reporter reports' := List.filterMap_append

theorem orderly_init (reporter : HttpEventReporter) : Orderly reporter (init reporter : Session limit) where
  settings := rfl
  last := fun _ h => by cases h
  fatal := iff_of_false Bool.false_ne_true fun ⟨_, h, _⟩ => by cases h
  bodies := List.nil_prefix
  sending := fun _ => rfl

/-- A step that posts nothing, and does not change whether an answer was fatal. -/
theorem Orderly.unposted {reporter : HttpEventReporter} {s s' : Session limit} (h : Orderly reporter s)
    (hreporter : s'.reporter = s.reporter) (hposts : s'.posts = s.posts)
    (hfatal : s'.collector.history.fatal = s.collector.history.fatal)
    (hbodies : Session.bodies reporter s.collector.history.reports <+: Session.bodies reporter s'.collector.history.reports)
    (hsame : s.collector.history.fatal = false →
      Session.bodies reporter s'.collector.history.reports = Session.bodies reporter s.collector.history.reports) :
    Orderly reporter s' := by
  refine ⟨?_, ?_, ?_, ?_, fun hsending => ?_⟩
  · rw [hreporter, hfatal, h.settings]
  · rw [hposts]
    exact h.last
  · rw [hposts, hfatal]
    exact h.fatal
  · rw [hposts]
    exact h.bodies.trans hbodies
  · rw [hfatal] at hsending
    rw [hposts, hsame hsending]
    exact h.sending hsending

/-- A step that posts one more body, while no answer was fatal. -/
theorem Orderly.posted {reporter : HttpEventReporter} {s s' : Session limit} (h : Orderly reporter s)
    (hwas : s.collector.history.fatal = false) {post : Post} {bytes : Bytes} (hbody : post.body = bytes)
    (hsettings : s'.reporter = { s.reporter with sendRequests := !post.fatal }) (hposts : s'.posts = s.posts ++ [post])
    (hfatal : s'.collector.history.fatal = post.fatal)
    (hbodies : Session.bodies reporter s'.collector.history.reports =
      Session.bodies reporter s.collector.history.reports ++ [bytes]) : Orderly reporter s' := by
  -- none of the posts before was answered fatally, so this one is the first that can be
  have hopen : ∀ p ∈ s.posts, p.fatal = false := by
    intro p hp
    by_contra hp'
    have := h.fatal.2 ⟨p, hp, by simpa using hp'⟩
    rw [hwas] at this
    cases this
  have hall : s'.posts.map Post.body = Session.bodies reporter s'.collector.history.reports := by
    rw [hposts, List.map_append, hbodies, h.sending hwas, List.map_singleton, hbody]
  refine ⟨?_, ?_, ?_, hall ▸ List.prefix_rfl, fun _ => hall⟩
  · rw [hsettings, hfatal, h.settings]
  · rw [hposts, List.dropLast_concat]
    exact hopen
  · rw [hposts, hfatal]
    constructor
    · exact fun hlast => ⟨_, List.mem_append_right _ (List.mem_singleton_self _), hlast⟩
    · rintro ⟨p, hp, hpfatal⟩
      rcases List.mem_append.1 hp with hp | hp
      · rw [hopen p hp] at hpfatal
        cases hpfatal
      · rw [List.mem_singleton.1 hp] at hpfatal
        exact hpfatal

theorem Orderly.step [Unicode] {reporter : HttpEventReporter} {s s' : Session limit} {e : SessionStep}
    (h : Orderly reporter s) (hstep : step sha256 s e = some s') : Orderly reporter s' := by
  rcases step_cases hstep with ⟨hreporter, hposts, hreported⟩ |
    ⟨exchange, now, d, -, -, hempty, hreporter, hposts, hreported⟩
  · have hsame : s'.collector.history.fatal = s.collector.history.fatal ∧
        Session.bodies reporter s'.collector.history.reports = Session.bodies reporter s.collector.history.reports := by
      rcases hreported with hreported | ⟨d, hempty, hreported⟩
      · obtain ⟨hreports, hfatal⟩ := Prod.mk.inj hreported
        exact ⟨hfatal, congrArg _ hreports⟩
      · obtain ⟨hreports, hfatal⟩ := Prod.mk.inj hreported
        refine ⟨hfatal, ?_⟩
        rw [hreports, bodies_append]
        simp [Session.bodies, hempty]
    exact h.unposted hreporter hposts hsame.1 (hsame.2 ▸ List.prefix_rfl) fun _ => hsame.2
  · obtain ⟨hreports, hfatal⟩ := Prod.mk.inj hreported
    have hsend : s.reporter.sendRequests = !s.collector.history.fatal := by rw [h.settings]
    have hbody : s.reporter.body d.report = reporter.body d.report := by rw [h.settings]; rfl
    have hone : Session.bodies reporter s'.collector.history.reports =
        Session.bodies reporter s.collector.history.reports ++ (reporter.body d.report).toOption.toList := by
      rw [hreports, bodies_append]
      cases hoption : (reporter.body d.report).toOption <;> simp [Session.bodies, hempty, hoption]
    rcases s.reporter.report_cases hempty exchange with ⟨hstopped, hreport⟩ |
      ⟨hsending, ⟨error, herror, hreport⟩ | ⟨bytes, hbytes, hposted, hnext⟩⟩
    · -- the reporter has stopped: the answer is fatal again
      have hwas : s.collector.history.fatal = true := by
        rw [hsend, Bool.not_eq_false'] at hstopped
        exact hstopped
      rw [hreport] at hreporter hposts
      rw [Session.posted, List.append_nil] at hposts
      refine h.unposted hreporter hposts ?_ (hone ▸ List.prefix_append _ _) fun hopen => ?_
      · rw [hfatal, hwas, Bool.true_or]
      · rw [hwas] at hopen
        cases hopen
    · -- the report cannot be written: the call raises
      rw [hreport] at hreporter hposts hfatal
      rw [Session.posted, List.append_nil] at hposts
      have hsame : Session.bodies reporter s'.collector.history.reports =
          Session.bodies reporter s.collector.history.reports := by
        rw [hone, ← hbody, herror]
        exact List.append_nil _
      refine h.unposted hreporter hposts ?_ (hsame ▸ List.prefix_rfl) fun _ => hsame
      rw [hfatal]
      exact Bool.or_false _
    · -- the body is posted
      have hwas : s.collector.history.fatal = false := by
        rw [hsend, Bool.not_eq_true'] at hsending
        exact hsending
      rw [hwas, Bool.false_or] at hfatal
      rw [Session.posted, hposted] at hposts
      refine h.posted hwas rfl ?_ hposts hfatal ?_
      · rw [hreporter, hnext]
        rfl
      · rw [hone, ← hbody, hbytes]
        rfl

/-- Whatever the threads do and however the endpoint answers, the posts are orderly. -/
theorem posts_in_order [Unicode] (reporter : HttpEventReporter) (trace : List SessionStep) (s : Session limit)
    (hrun : run sha256 (init reporter) trace = some s) : Orderly reporter s :=
  Transition.invariant_of_step (fun _ _ _ h hstep => h.step hstep) (orderly_init reporter) hrun

/-! ## What the posts say -/

/-- The field of a dictionary. -/
def fieldIn (key : Text) : PyValue → PyValue
  | .dict entries => (entries.lookup key).getD .none
  | _ => .none

def countIn : PyValue → ℕ
  | .int n => n.toNat
  | _ => 0

/-- The evaluations a payload says were made: counted in its aggregated events, or dropped. -/
def evaluationsIn (payload : PyValue) : ℕ :=
  let evaluated :=
    match fieldIn (lit "evaluatedConfig") (fieldIn (lit "aggregatedEvents") payload) with
    | .list items => (items.map fun item => countIn (fieldIn (lit "count") item)).sum
    | _ => 0
  evaluated + countIn (fieldIn (lit "evaluatedConfig") (fieldIn (lit "droppedEvents") payload))

/-- The evaluations a body says were made, when it is read as JSON. -/
def evaluationsRead (wide : JsonEncoding → Bytes → Option Text) (body : Bytes) : ℕ :=
  match jsonLoadsBytes wide body with
  | some payload => evaluationsIn payload
  | none => 0

theorem evaluationsIn_payload (reporter : HttpEventReporter) (report : EventReport) :
    evaluationsIn (reporter.payload report) = report.total := by
  have hevaluated : fieldIn (lit "evaluatedConfig") (fieldIn (lit "aggregatedEvents") (reporter.payload report)) =
      .list (report.evaluations.map AggregatedEvent.toWire) := rfl
  have hdropped : fieldIn (lit "evaluatedConfig") (fieldIn (lit "droppedEvents") (reporter.payload report)) =
      .int report.droppedEvaluations := rfl
  have hcount : (fun item => countIn (fieldIn (lit "count") item)) ∘ AggregatedEvent.toWire = AggregatedEvent.count := by
    funext a
    exact Int.toNat_natCast a.count
  rw [evaluationsIn, hevaluated, hdropped]
  dsimp only
  rw [List.map_map, hcount]
  rfl

end Session

/-- A report whose body can be written and read back. -/
structure EventReport.Sendable (report : EventReport) : Prop where
  writable : report.Writable
  json : report.IsJson
  pairFree : report.PairFree

theorem EventReport.total_of_isEmpty {report : EventReport} (h : report.isEmpty = true) : report.total = 0 := by
  unfold isEmpty at h
  simp only [Bool.and_eq_true, List.isEmpty_iff, beq_iff_eq] at h
  obtain ⟨⟨⟨⟨hevaluations, -⟩, -⟩, hdropped⟩, -⟩ := h
  rw [total, hevaluations, hdropped]
  rfl

namespace Session

variable {limit : ℕ} {sha256 : Bytes → Bytes}

/-- The bodies of the reports say what the reports say. -/
theorem evaluationsRead_bodies {reporter : HttpEventReporter} (hreporter : reporter.PairFree)
    (wide : JsonEncoding → Bytes → Option Text) {reports : List Reported}
    (h : ∀ d ∈ reports, d.report.isEmpty = false → d.report.Sendable) :
    ((bodies reporter reports).map (evaluationsRead wide)).sum = (reports.map fun d => d.report.total).sum := by
  induction reports with
  | nil => rfl
  | cons d reports ih =>
    rw [List.forall_mem_cons] at h
    have hrest := ih h.2
    rw [show d :: reports = [d] ++ reports from rfl, bodies_append, List.map_append, List.sum_append, hrest,
      List.map_append, List.sum_append]
    congr 1
    cases hempty : d.report.isEmpty with
    | true => simp [bodies, hempty, EventReport.total_of_isEmpty hempty]
    | false =>
      have hsendable := h.1 hempty
      obtain ⟨bytes, hbytes⟩ := (reporter.body_ok_iff d.report).2 hsendable.writable
      have hread := hreporter.read_body wide hbytes hsendable.json hsendable.pairFree
      simp [bodies, hempty, hbytes, Except.toOption, evaluationsRead, hread, evaluationsIn_payload]

/-- The condition: no close and no fatal answer, events that can be reported, and reports that can be sent. -/
def Quiet (sha256 : Bytes → Bytes) (s : Session limit) (e : SessionStep) : Prop :=
  Collector.Quiet s.collector (s.collected sha256 e) ∧
    ∀ exchange now report, e = .report exchange now → s.collector.handed sha256 now = some report → report.Sendable

/-- What every step of a quiet run keeps. -/
structure Delivering (sha256 : Bytes → Bytes) (reporter : HttpEventReporter) (s : Session limit) : Prop where
  balanced : Collector.Balanced sha256 s.collector
  orderly : Orderly reporter s
  sendable : ∀ d ∈ s.collector.history.reports, d.report.isEmpty = false → d.report.Sendable
  sending : s.collector.history.fatal = false

theorem Delivering.step [Unicode] {reporter : HttpEventReporter} {s s' : Session limit} {e : SessionStep}
    (h : Delivering sha256 reporter s) (hquiet : Quiet sha256 s e) (hstep : step sha256 s e = some s') :
    Delivering sha256 reporter s' := by
  have hcollected := step_collected hstep
  refine ⟨h.balanced.step hquiet.1.1 hquiet.1.2 hcollected, h.orderly.step hstep, ?_, ?_⟩
  · intro d hd hempty
    rcases step_cases hstep with ⟨-, -, hreported⟩ | ⟨exchange, now, d', rfl, hhanded, -, -, -, hreported⟩
    · rcases hreported with hreported | ⟨d', hempty', hreported⟩
      · rw [(Prod.mk.inj hreported).1] at hd
        exact h.sendable d hd hempty
      · rw [(Prod.mk.inj hreported).1, List.mem_append, List.mem_singleton] at hd
        rcases hd with hd | rfl
        · exact h.sendable d hd hempty
        · rw [hempty'] at hempty
          cases hempty
    · rw [(Prod.mk.inj hreported).1, List.mem_append, List.mem_singleton] at hd
      rcases hd with hd | rfl
      · exact h.sendable d hd hempty
      · exact hquiet.2 exchange now _ rfl hhanded
  · rcases step_cases hstep with ⟨-, -, hreported⟩ | ⟨exchange, now, d', rfl, hhanded, -, -, -, hreported⟩
    · rcases hreported with hreported | ⟨d', -, hreported⟩
      · exact (Prod.mk.inj hreported).2.trans h.sending
      · exact (Prod.mk.inj hreported).2.trans h.sending
    · -- a fatal answer would disturb the run
      have hreply : s.reply sha256 exchange now = (s.reporter.report d'.report exchange).reply := by
        rw [reply, reporting, hhanded, Option.map_some]
      have hundisturbed := hquiet.1.1
      rw [collected, hreply] at hundisturbed
      rw [(Prod.mk.inj hreported).2, h.sending, Bool.false_or]
      cases hcase : (s.reporter.report d'.report exchange).reply with
      | raises => rfl
      | responds fatal =>
        cases fatal with
        | false => rfl
        | true =>
          rw [hcase] at hundisturbed
          exact hundisturbed.elim

/-- As long as nobody closes and no answer is fatal, the evaluations that the posted bodies say were made are those
recorded, apart from those of a flush under way and those queued or dropped since. -/
theorem posts_account [Unicode] (wide : JsonEncoding → Bytes → Option Text) (reporter : HttpEventReporter)
    (hreporter : reporter.PairFree) (trace : List SessionStep) (s : Session limit)
    (hquiet : Transition.Obeys (step sha256) (Quiet sha256) (init reporter : Session limit) trace)
    (hrun : run sha256 (init reporter) trace = some s) :
    s.collector.history.recorded.length =
      (s.posts.map fun p => evaluationsRead wide p.body).sum + s.collector.inFlight +
        s.collector.events.events.items.length + s.collector.events.droppedCount := by
  have hdelivering : Delivering sha256 reporter s :=
    Transition.invariant (fun _ _ _ h hquiet hstep => h.step hquiet hstep)
      ⟨Collector.balanced_init, orderly_init reporter, fun _ h => (by cases h), rfl⟩ hquiet hrun
  have haccounted := hdelivering.balanced.flowing.accounted hdelivering.balanced.windowed
  have hposts : s.posts.map (fun p => evaluationsRead wide p.body) =
      (bodies reporter s.collector.history.reports).map (evaluationsRead wide) := by
    rw [← hdelivering.orderly.sending hdelivering.sending, List.map_map]
    rfl
  rw [hposts, evaluationsRead_bodies hreporter wide hdelivering.sendable]
  exact haccounted.count

/-! ## One evaluation -/

/-- An evaluation that is recorded and flushed, and what its request comes to. -/
def recordAndSend (exchange : Exchange) : List SessionStep :=
  [.collect (.record 0 (Collector.defaulted (.str (lit "on")))), .collect (.push 0 0), .collect (.acquire (.caller 0)),
    .collect (.takeEvents 1), .collect .takeContexts, .report exchange 2]

/-- The report of the evaluation. -/
def onReport [Unicode] : EventReport := ⟨[⟨0, 1, 1, (Collector.defaulted (.str (lit "on"))).event⟩], 0, [], 0, []⟩

theorem onReport_sendable [Unicode] : onReport.Sendable where
  writable :=
    have hzero : WritableCount 0 := writableCount_of_lt (by decide)
    have hone : WritableCount 1 := writableCount_of_lt (by decide)
    ⟨fun a ha => by rw [List.mem_singleton.1 ha]; exact ⟨hone, trivial⟩, fun e he => absurd he List.not_mem_nil,
      fun c hc => absurd hc List.not_mem_nil, hzero, hzero⟩
  json := ⟨fun a ha => by rw [List.mem_singleton.1 ha]; trivial, fun c hc => absurd hc List.not_mem_nil⟩
  pairFree := by
    refine ⟨fun a ha => ?_, fun c hc => absurd hc List.not_mem_nil, fun e he => absurd he List.not_mem_nil⟩
    rw [List.mem_singleton.1 ha]
    have hvalue : (TelemetryValue.of (.str (lit "on")) none .none).toWire.PairFree := by
      refine pairFree_object rfl ?_
      simp only [List.forall_mem_cons]
      exact ⟨pairFree_str fun t ht => by cases ht; exact pairFree_ascii rfl, pairFree_str nofun, pairFree_str nofun, nofun⟩
    refine pairFree_object rfl ?_
    simp only [List.forall_mem_cons, Option.mem_some_iff, forall_eq']
    exact ⟨pairFree_str nofun, pairFree_str nofun, pairFree_ascii rfl, nofun, hvalue, pairFree_ascii rfl, hvalue,
      pairFree_str nofun, trivial, pairFree_ascii rfl, nofun⟩

/-- The endpoint rejects the key. -/
theorem posts_in_order_rejected : ∃ (_ : Unicode) (s : Session 100),
    run (fun _ => []) (init HttpEventReporter.plainReporter) (recordAndSend (.answered 401 (.ok []))) = some s ∧
      Orderly HttpEventReporter.plainReporter s := by
  let _ : Unicode := .ascii
  cases hrun : run (fun _ => []) (init HttpEventReporter.plainReporter : Session 100)
      (recordAndSend (.answered 401 (.ok []))) with
  | none => cases hrun
  | some s => exact ⟨_, s, hrun, posts_in_order _ _ s hrun⟩

/-- An accepted request lets the flush return. -/
theorem reply_of_accepted {reporter : HttpEventReporter} {exchange : Exchange} {success : Bool}
    (hsend : reporter.sendRequests = true) (h : reporter.send exchange = .ok ⟨success, false⟩) (report : EventReport) :
    (reporter.report report exchange).reply ≠ .responds true := by
  unfold HttpEventReporter.report
  rw [hsend, h]
  cases report.isEmpty with
  | true => exact fun h => by cases h
  | false =>
    cases reporter.body report with
    | error e => exact fun h => by cases h
    | ok bytes => exact fun h => by cases h

/-- Steps of the collector that hand nothing over are quiet if they are for the collector. -/
theorem obeys_collect [Unicode] {rest : List SessionStep} : ∀ (es : List CollectorStep) {s : Session limit},
    (∀ e ∈ es, ∀ reply now, e ≠ .report reply now) →
    Transition.Obeys (Collector.step sha256) Collector.Quiet s.collector es →
    (∀ c, Collector.run sha256 s.collector es = some c →
      Transition.Obeys (step sha256) (Quiet sha256) { s with collector := c } rest) →
    Transition.Obeys (step sha256) (Quiet sha256) s (es.map .collect ++ rest)
  | [], s, _, _, hrest => hrest _ rfl
  | e :: es, s, hes, hquiet, hrest => by
    rw [List.forall_mem_cons] at hes
    refine ⟨⟨hquiet.1, nofun⟩, fun s' hstep => ?_⟩
    have hcollected : Collector.step sha256 s.collector e = some s'.collector := step_collected hstep
    have hs' : { s with collector := s'.collector } = s' := by
      rcases step_cases hstep with ⟨hreporter, hposts, -⟩ | ⟨exchange, now, d, h, -⟩
      · obtain ⟨collector, reporter, posts⟩ := s'
        rw [← hreporter, ← hposts]
      · cases h
    refine obeys_collect es hes.2 (hquiet.2 _ hcollected) fun c hc => ?_
    rw [← hs']
    refine hrest c ?_
    rw [Collector.run, Transition.run, hcollected]
    exact hc

theorem undisturbed_report {reply : Reply} (h : reply ≠ .responds true) (now : Instant) :
    Collector.Undisturbed (.report reply now) := by
  cases reply with
  | raises => trivial
  | responds fatal =>
    cases fatal with
    | false => trivial
    | true => exact absurd rfl h

/-- The endpoint accepts the report. -/
theorem posts_account_accepted : ∃ (_ : Unicode) (s : Session 100),
    run (fun _ => []) (init HttpEventReporter.plainReporter) (recordAndSend (.answered 200 (.ok []))) = some s ∧
      s.collector.history.recorded.length = (s.posts.map fun p => evaluationsRead (fun _ _ => none) p.body).sum +
        s.collector.inFlight + s.collector.events.events.items.length + s.collector.events.droppedCount := by
  let _ : Unicode := .ascii
  have hquiet : Transition.Obeys (step fun _ => []) (Quiet fun _ => [])
      (init HttpEventReporter.plainReporter : Session 100) (recordAndSend (.answered 200 (.ok []))) := by
    refine obeys_collect [.record 0 (Collector.defaulted (.str (lit "on"))), .push 0 0, .acquire (.caller 0),
      .takeEvents 1, .takeContexts] ?_ ?_ ?_
    · simp
    · refine .cons ⟨trivial, trivial⟩ rfl (.cons ⟨trivial, trivial⟩ rfl (.cons ⟨trivial, trivial⟩ rfl
        (.cons ⟨trivial, ?_⟩ rfl (.cons ⟨trivial, trivial⟩ rfl trivial))))
      intro event hevent
      rw [List.mem_singleton.1 hevent]
      exact Collector.reportable_plain
    · intro c hc
      have hhanded : c.handed (fun _ => []) 2 = some onReport := by
        cases hc
        rfl
      refine ⟨⟨⟨undisturbed_report ?_ 2, trivial⟩, ?_⟩, fun _ _ => trivial⟩
      · rw [reply, reporting, hhanded]
        exact reply_of_accepted rfl rfl onReport
      · rintro exchange now report ⟨⟩ hreport
        rw [hhanded] at hreport
        cases hreport
        exact onReport_sendable
  cases hrun : run (fun _ => []) (init HttpEventReporter.plainReporter : Session 100)
      (recordAndSend (.answered 200 (.ok []))) with
  | none => cases hrun
  | some s => exact ⟨_, s, hrun, posts_account _ _ HttpEventReporter.plainReporter_pairFree _ s hquiet hrun⟩

end Session

end ConfigDirector.Telemetry
