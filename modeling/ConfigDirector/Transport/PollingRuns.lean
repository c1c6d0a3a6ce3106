/-
Whole runs of the polling transport, from `connect` on: the exchanges that take place, the bundles they deliver and
the timestamps their requests carry. The same bundles reach the client whether they are polled or streamed.
-/
import ConfigDirector.Transport.Polling
import ConfigDirector.Transport.WrittenStreams

namespace ConfigDirector.Transport

open Python ConfigDirector.Bundle EventSource

/-! ## Model -/

/-- A transport from its `connect` on. `requests` is a history variable: the timestamps that were sent. -/
structure PollingRun where
  loop : PollLoop
  requests : List (Option Text)

section
variable [Unicode]

omit [Unicode] in
/-- The timestamp in the body of the request of a fetch, if there is one. -/
def Polling.asks (s : Polling) : List (Option Text) := if s.fatal then [] else [s.lastUpdateTimestamp]

omit [Unicode] in
/-- The start of the polling thread clears the stop event. -/
def Polling.clearStop (s : Polling) : Polling := { s with stopped := false }

omit [Unicode] in
/-- A transport that was built, with nothing delivered. -/
def Polling.init : Polling := ⟨false, false, none, []⟩

namespace PollingRun

/-- `connect`, with what it raises: whatever its fetch comes to, polling starts if there is an interval, unless the
failure is fatal. -/
def connect (r : Runtime) (url : Text) (polls : Bool) (s : Polling) (x : Exchange) :
    PollingRun × Except TransportError Unit :=
  let fetched := s.fetch r url x
  if polls && !fetched.1.fatal then (⟨⟨fetched.1.clearStop, true⟩, s.asks⟩, fetched.2)
  else (⟨⟨fetched.1, false⟩, s.asks⟩, fetched.2)

/-- A turn of the loop of `_poll`. -/
def turn (r : Runtime) (url : Text) (s : PollingRun) (x : Exchange) : PollingRun where
  loop := s.loop.turn r url x
  requests := if s.loop.running && !s.loop.transport.stopped then s.requests ++ s.loop.transport.asks else s.requests

/-- `connect`, and then the polling thread, on what their requests come to. -/
def run (r : Runtime) (url : Text) (polls : Bool) (first : Exchange) (rest : List Exchange) : PollingRun :=
  rest.foldl (turn r url) (connect r url polls .init first).1

/-- The bundles `on_bundle` was called with. -/
def bundles (s : PollingRun) : List ConfigBundle := s.loop.transport.delivered

end PollingRun

/-! ## Outcomes -/

/-- What an exchange means to the transport. -/
inductive Outcome
  | bundle (bundle : ConfigBundle)
  | nothing
  /-- What it raises is no connection error. -/
  | breaks
  | fatal

/-- The loop of the polling thread goes on. -/
def Outcome.goesOn : Outcome → Bool
  | bundle _ | nothing => true
  | breaks | fatal => false

def Outcome.isFatal : Outcome → Bool
  | fatal => true
  | _ => false

def Outcome.bundle? : Outcome → Option ConfigBundle
  | bundle b => some b
  | _ => none

def Exchange.outcome (r : Runtime) : Exchange → Outcome
  | unusable _ => .fatal
  | failed _ => .nothing
  | answered _ (.error _) => .breaks
  | answered status (.ok payload) =>
    if maxResponseBytes < payload.length then .nothing
    else if isFatalStatus (some status) then .fatal
    else if status = 200 then
      match parseBundle r.loads (decodeReplace payload) with
      | .ok bundle => .bundle bundle
      | .error error => if error.isValueError then .nothing else .breaks
    else .nothing

/-- What a fetch leaves. -/
def Polling.after (s : Polling) : Outcome → Polling
  | .bundle bundle =>
    { s with
      lastUpdateTimestamp := bundle.timestamp.or s.lastUpdateTimestamp
      delivered := s.delivered ++ [bundle] }
  | .nothing | .breaks => s
  | .fatal => { s with fatal := true, stopped := true }

/-- The exchanges of the polling thread that take place: up to one that ends the loop. -/
def takenBy (r : Runtime) : List Exchange → List Exchange
  | [] => []
  | x :: exchanges => if (x.outcome r).goesOn then x :: takenBy r exchanges else [x]

/-- The exchanges that take place. -/
def exchanged (r : Runtime) (polls : Bool) (first : Exchange) (rest : List Exchange) : List Exchange :=
  first :: if polls && !(first.outcome r).isFatal then takenBy r rest else []

/-- The bundles of some exchanges. -/
def bundlesPolled (r : Runtime) (exchanges : List Exchange) : List ConfigBundle :=
  exchanges.filterMap fun x => (x.outcome r).bundle?

omit [Unicode] in
/-- The timestamp of the last bundle that has one. -/
def lastStamp (bundles : List ConfigBundle) : Option Text := (bundles.filterMap ConfigBundle.timestamp).getLast?

/-! ## A fetch -/

omit [Unicode] in
/-- The loop catches what a fetch raises. -/
def isCaught : Except TransportError Unit → Bool
  | .ok _ => true
  | .error error => error.isConnection

/-- A fetch leaves what its outcome says, and raises past the loop if the outcome breaks it. -/
structure FetchedAs (s : Polling) (outcome : Outcome) (fetched : Polling × Except TransportError Unit) : Prop where
  state : fetched.1 = s.after outcome
  goesOn : (isCaught fetched.2 && !fetched.1.fatal) = (outcome.goesOn && !s.fatal)

theorem receive_outcome (r : Runtime) (s : Polling) (status : ℕ) {payload : Bytes}
    (hfits : ¬ maxResponseBytes < payload.length) :
    FetchedAs s ((Exchange.answered status (.ok payload)).outcome r) (s.receive r ⟨status, decodeReplace payload⟩) := by
  rw [Exchange.outcome, if_neg hfits]
  unfold Polling.receive HttpResponse.ok
  by_cases hfatal : isFatalStatus (some status) = true
  · -- a fatal status is no success either
    have hnot : ¬ status < 300 := by
      unfold isFatalStatus at hfatal
      simp only [Bool.and_eq_true, decide_eq_true_eq] at hfatal
      omega
    simp only [hfatal, hnot, decide_false, Bool.and_false, Bool.not_false, if_true]
    exact ⟨rfl, rfl⟩
  · rw [if_neg hfatal]
    by_cases h200 : status = 200
    · subst h200
      rw [if_pos rfl]
      have hok : (decide (200 ≤ 200) && decide (200 < 300)) = true := rfl
      simp only [hok, Bool.not_true, Bool.false_eq_true, if_false, ne_eq, not_true_eq_false]
      cases parseBundle r.loads (decodeReplace payload) with
      | ok bundle => exact ⟨rfl, rfl⟩
      | error error =>
        dsimp only
        by_cases hvalue : error.isValueError = true
        · rw [if_pos hvalue, if_pos hvalue]
          exact ⟨rfl, rfl⟩
        · rw [if_neg hvalue, if_neg hvalue]
          exact ⟨rfl, rfl⟩
    · rw [if_neg h200]
      by_cases hok : (decide (200 ≤ status) && decide (status < 300)) = true
      · simp only [hok, Bool.not_true, Bool.false_eq_true, if_false, ne_eq, h200, not_false_eq_true, if_true]
        exact ⟨rfl, rfl⟩
      · simp only [hok, hfatal, Bool.not_false, Bool.false_eq_true, if_false, if_true]
        exact ⟨rfl, rfl⟩

theorem fetch_outcome (r : Runtime) (url : Text) {s : Polling} (hs : s.fatal = false) (x : Exchange) :
    FetchedAs s (x.outcome r) (s.fetch r url x) := by
  unfold Polling.fetch
  rw [hs]
  cases x with
  | unusable error => exact ⟨rfl, rfl⟩
  | failed error => exact ⟨rfl, rfl⟩
  | answered status body =>
    cases body with
    | error error => exact ⟨rfl, rfl⟩
    | ok payload =>
      by_cases hlong : maxResponseBytes < payload.length
      · have hpost : s.post url (.answered status (.ok payload)) =
            (s, .error (.connection (lit "The server response exceeded the " ++ natText maxResponseBytes ++
              lit " byte limit and was discarded") none)) := by
          unfold Polling.post Transport.post readText
          simp only [if_pos hlong]
          rfl
        rw [hpost, Exchange.outcome, if_pos hlong]
        exact ⟨rfl, rfl⟩
      · have hpost : s.post url (.answered status (.ok payload)) = (s, .ok ⟨status, decodeReplace payload⟩) := by
          unfold Polling.post Transport.post readText
          simp only [if_neg hlong]
          rfl
        rw [hpost]
        exact receive_outcome r s status hlong

/-! ## The polling thread -/

omit [Unicode] in
theorem lastStamp_cons (b : ConfigBundle) (bundles : List ConfigBundle) :
    lastStamp (b :: bundles) = (lastStamp bundles).or b.timestamp := by
  unfold lastStamp
  cases hstamp : b.timestamp with
  | none => rw [List.filterMap_cons_none hstamp, Option.or_none]
  | some stamp =>
    rw [List.filterMap_cons_some hstamp, List.getLast?_cons]
    cases (bundles.filterMap ConfigBundle.timestamp).getLast? <;> rfl

omit [Unicode] in
theorem dropLast_inits_cons {α : Type} (a : α) (l : List α) :
    (a :: l).inits.dropLast = [] :: l.inits.dropLast.map (List.cons a) := by
  rw [List.inits_cons, List.dropLast_cons_of_ne_nil, List.map_dropLast]
  exact fun h => inits_ne_nil l (List.map_eq_nil_iff.1 h)

/-- The timestamp that follows some exchanges. -/
def stampAfter (r : Runtime) (before : List Exchange) : Option Text := lastStamp (bundlesPolled r before)

theorem turn_outcome (r : Runtime) (url : Text) {s : PollingRun} (hs : s.loop.GoesOn) (x : Exchange) :
    s.turn r url x = ⟨⟨s.loop.transport.after (x.outcome r), (x.outcome r).goesOn⟩,
      s.requests ++ [s.loop.transport.lastUpdateTimestamp]⟩ := by
  have hfetch := fetch_outcome r url hs.fatal x
  have hturn : s.loop.turn r url x = ⟨s.loop.transport.after (x.outcome r), (x.outcome r).goesOn⟩ := by
    have hgoes := hfetch.goesOn
    rw [hs.fatal, Bool.not_false, Bool.and_true] at hgoes
    rw [turn_eq r url hs, ← hfetch.state, ← hgoes]
    rfl
  unfold PollingRun.turn
  rw [hturn, hs.running, hs.stopped, Polling.asks, hs.fatal]
  rfl

omit [Unicode] in
theorem after_goesOn {s : Polling} {outcome : Outcome} (h : outcome.goesOn = true) :
    (s.after outcome).fatal = s.fatal ∧ (s.after outcome).stopped = s.stopped := by
  cases outcome with
  | bundle bundle => exact ⟨rfl, rfl⟩
  | nothing => exact ⟨rfl, rfl⟩
  | breaks => cases h
  | fatal => cases h

omit [Unicode] in
theorem after_stamp (s : Polling) (outcome : Outcome) :
    (s.after outcome).lastUpdateTimestamp = (outcome.bundle?.bind ConfigBundle.timestamp).or s.lastUpdateTimestamp ∧
      (s.after outcome).delivered = s.delivered ++ outcome.bundle?.toList := by
  cases outcome with
  | bundle bundle => exact ⟨rfl, rfl⟩
  | nothing => exact ⟨rfl, (List.append_nil _).symm⟩
  | breaks => exact ⟨rfl, (List.append_nil _).symm⟩
  | fatal => exact ⟨rfl, (List.append_nil _).symm⟩

theorem turn_goesOn_of {r : Runtime} (url : Text) {s : PollingRun} (hs : s.loop.GoesOn) {x : Exchange}
    (h : (x.outcome r).goesOn = true) : (s.turn r url x).loop.GoesOn := by
  obtain ⟨hfatal, hstopped⟩ := after_goesOn (s := s.loop.transport) h
  rw [turn_outcome r url hs]
  exact ⟨h, hstopped.trans hs.stopped, hfatal.trans hs.fatal⟩

theorem bundlesPolled_cons (r : Runtime) (x : Exchange) (exchanges : List Exchange) :
    bundlesPolled r (x :: exchanges) = (x.outcome r).bundle?.toList ++ bundlesPolled r exchanges := by
  unfold bundlesPolled
  rw [List.filterMap_cons]
  cases (x.outcome r).bundle? <;> rfl

theorem stampAfter_cons (r : Runtime) (x : Exchange) (before : List Exchange) :
    stampAfter r (x :: before) = (stampAfter r before).or ((x.outcome r).bundle?.bind ConfigBundle.timestamp) := by
  unfold stampAfter
  rw [bundlesPolled_cons]
  cases (x.outcome r).bundle? with
  | none => exact (Option.or_none).symm
  | some b => exact lastStamp_cons b _

/-- What the polling thread has done after some exchanges, of which some take place. -/
structure Polled (r : Runtime) (s s' : PollingRun) (exchanges : List Exchange) : Prop where
  delivered : s'.bundles = s.bundles ++ bundlesPolled r exchanges
  requests : s'.requests = s.requests ++
    exchanges.inits.dropLast.map fun before => (stampAfter r before).or s.loop.transport.lastUpdateTimestamp

theorem turns_left (r : Runtime) (url : Text) : ∀ (exchanges : List Exchange) {s : PollingRun}, s.loop.running = false →
    exchanges.foldl (PollingRun.turn r url) s = s
  | [], _, _ => rfl
  | x :: exchanges, s, hs => by
    have hturn : s.turn r url x = s := by
      unfold PollingRun.turn PollLoop.turn
      rw [hs]
      rfl
    rw [List.foldl_cons, hturn, turns_left r url exchanges hs]

/-- The thread is left at the first exchange that does not go on. -/
theorem turns_running (r : Runtime) (url : Text) (exchanges : List Exchange) {s : PollingRun} (hs : s.loop.GoesOn) :
    (exchanges.foldl (PollingRun.turn r url) s).loop.running = exchanges.all fun x => (x.outcome r).goesOn := by
  induction exchanges generalizing s with
  | nil => exact hs.running
  | cons x exchanges ih =>
    have hturn := turn_outcome r url hs x
    rw [List.foldl_cons, List.all_cons]
    cases hgoes : (x.outcome r).goesOn with
    | false =>
      have hleft : (s.turn r url x).loop.running = false := by rw [hturn, hgoes]
      rw [turns_left r url exchanges hleft, hleft, Bool.false_and]
    | true => rw [ih (turn_goesOn_of url hs hgoes), Bool.true_and]

theorem polled_turns (r : Runtime) (url : Text) (exchanges : List Exchange) {s : PollingRun} (hs : s.loop.GoesOn) :
    Polled r s (exchanges.foldl (PollingRun.turn r url) s) (takenBy r exchanges) := by
  induction exchanges generalizing s with
  | nil => exact ⟨(List.append_nil _).symm, (List.append_nil _).symm⟩
  | cons x exchanges ih =>
    have hturn := turn_outcome r url hs x
    obtain ⟨hstamp, hdelivered⟩ := after_stamp s.loop.transport (x.outcome r)
    rw [List.foldl_cons, takenBy]
    cases hgoes : (x.outcome r).goesOn with
    | false =>
      have hleft : (s.turn r url x).loop.running = false := by rw [hturn, hgoes]
      -- the exchange has taken place, and none after it does
      rw [turns_left r url exchanges hleft, hturn, if_neg Bool.false_ne_true]
      refine ⟨?_, rfl⟩
      rw [bundlesPolled_cons]
      exact hdelivered.trans (congrArg _ (List.append_nil _).symm)
    | true =>
      have hrest := ih (turn_goesOn_of url hs hgoes)
      rw [hturn] at hrest ⊢
      rw [if_pos rfl]
      constructor
      · rw [hrest.delivered, bundlesPolled_cons, ← List.append_assoc]
        exact congrArg (· ++ _) hdelivered
      · -- a stamp of the first exchange stands behind those of the exchanges between it and a request
        rw [hrest.requests, dropLast_inits_cons, List.map_cons, List.map_map, List.append_assoc, hstamp]
        refine congrArg (s.requests ++ ·) (congrArg (List.cons _) (List.map_congr_left fun before _ => ?_))
        rw [Function.comp_apply, stampAfter_cons, Option.or_assoc]

/-! ## Runs -/

omit [Unicode] in
theorem fatal_after (outcome : Outcome) : (Polling.init.after outcome).fatal = outcome.isFatal := by
  cases outcome <;> rfl

theorem connect_eq (r : Runtime) (url : Text) (polls : Bool) (first : Exchange) :
    (PollingRun.connect r url polls .init first).1 =
      if polls && !(first.outcome r).isFatal then
        ⟨⟨(Polling.init.after (first.outcome r)).clearStop, true⟩, [none]⟩
      else ⟨⟨Polling.init.after (first.outcome r), false⟩, [none]⟩ := by
  have hfetch := (fetch_outcome r url (s := .init) rfl first).state
  unfold PollingRun.connect
  dsimp only
  rw [hfetch, fatal_after]
  split <;> rfl

theorem polled_run (r : Runtime) (url : Text) (polls : Bool) (first : Exchange) (rest : List Exchange) :
    Polled r ⟨⟨.init, true⟩, []⟩ (PollingRun.run r url polls first rest) (exchanged r polls first rest) := by
  obtain ⟨hstamp, hdelivered⟩ := after_stamp .init (first.outcome r)
  unfold PollingRun.run exchanged
  rw [connect_eq]
  cases hpolls : polls && !(first.outcome r).isFatal with
  | false =>
    simp only [Bool.false_eq_true, if_false]
    rw [turns_left r url rest rfl]
    refine ⟨?_, rfl⟩
    rw [bundlesPolled_cons]
    exact hdelivered.trans (congrArg _ (List.append_nil _).symm)
  | true =>
    simp only [if_true]
    rw [Bool.and_eq_true, Bool.not_eq_true'] at hpolls
    have hrest := polled_turns r url rest (s := ⟨⟨(Polling.init.after (first.outcome r)).clearStop, true⟩, [none]⟩)
      ⟨rfl, rfl, (fatal_after _).trans hpolls.2⟩
    refine ⟨?_, ?_⟩
    · rw [hrest.delivered, bundlesPolled_cons, ← List.append_assoc]
      exact congrArg (· ++ _) hdelivered
    · rw [hrest.requests, dropLast_inits_cons, List.map_cons, List.map_map]
      refine congrArg (List.cons _) (List.map_congr_left fun before _ => ?_)
      rw [Function.comp_apply, stampAfter_cons, Option.or_assoc]
      exact congrArg _ hstamp

theorem disjoint_of_mem_bundlesPolled {r : Runtime} {exchanges : List Exchange} {bundle : ConfigBundle}
    (h : bundle ∈ bundlesPolled r exchanges) : bundle.Disjoint := by
  obtain ⟨x, -, hx⟩ := List.mem_filterMap.1 h
  unfold Exchange.outcome at hx
  split at hx
  · cases hx
  · cases hx
  · cases hx
  · split_ifs at hx
    · cases hx
    · cases hx
    · split at hx
      · next hparse =>
        cases hx
        exact parseBundle_disjoint hparse
      · split_ifs at hx <;> cases hx
    · cases hx

theorem running_run (r : Runtime) (url : Text) (polls : Bool) (first : Exchange) (rest : List Exchange) :
    (PollingRun.run r url polls first rest).loop.running =
      (polls && !(first.outcome r).isFatal && rest.all fun x => (x.outcome r).goesOn) := by
  unfold PollingRun.run
  rw [connect_eq]
  cases hpolls : polls && !(first.outcome r).isFatal with
  | false =>
    rw [if_neg Bool.false_ne_true, turns_left r url rest rfl]
    rfl
  | true =>
    rw [Bool.and_eq_true, Bool.not_eq_true'] at hpolls
    rw [if_pos rfl, turns_running r url rest ⟨rfl, rfl, (fatal_after _).trans hpolls.2⟩, Bool.true_and]

/-! ## What a run comes to -/

/-- Every bundle of the exchanges that take place is delivered once and in order, and what the client holds is what
they make of it. Polling goes on unless an exchange fails for good or raises what is no connection error, which the
first one may. -/
theorem polling_run_delivers (r : Runtime) (url : Text) (polls : Bool) (first : Exchange) (rest : List Exchange)
    (handlers : Client.ClientEvent → List ℕ) :
    (PollingRun.run r url polls first rest).bundles = bundlesPolled r (exchanged r polls first rest) ∧
      (∀ key, (Client.deliver (.init handlers) (PollingRun.run r url polls first rest).bundles).held key =
        LastWriter.latest ((bundlesPolled r (exchanged r polls first rest)).map (Client.configUpdate key))) ∧
      (PollingRun.run r url polls first rest).loop.running =
        (polls && !(first.outcome r).isFatal && rest.all fun x => (x.outcome r).goesOn) := by
  have hbundles := (polled_run r url polls first rest).delivered
  refine ⟨hbundles, fun key => ?_, running_run r url polls first rest⟩
  rw [hbundles]
  exact Client.held_deliver (Client.fresh_init handlers) key fun bundle hmem => disjoint_of_mem_bundlesPolled hmem

/-- There is one request for each exchange that takes place, and it asks for what is newer than the last bundle
before it that has a timestamp. -/
theorem polling_run_asks (r : Runtime) (url : Text) (polls : Bool) (first : Exchange) (rest : List Exchange) :
    (PollingRun.run r url polls first rest).requests =
      (exchanged r polls first rest).inits.dropLast.map (stampAfter r) := by
  rw [(polled_run r url polls first rest).requests]
  exact List.map_congr_left fun before _ => Option.or_none

/-! ## Polling and streaming -/

/-- A response with a bundle written as JSON, or an exchange that brings nothing and may be repeated. -/
inductive Brings (r : Runtime) (style : JsonStyle) : Exchange → Option ConfigBundle → Prop
  | nothing {x : Exchange} (h : x.outcome r = .nothing) : Brings r style x none
  | bundle {b : ConfigBundle} {text : Text} {payload : Bytes} (hb : WellFormedBundle b)
      (hwritten : dumps style (writeBundle b) = .ok text)
      (hpairs : style.ensureAscii = true → (writeBundle b).PairFree) (hencoded : encode? text = some payload)
      (hfits : payload.length ≤ maxResponseBytes) : Brings r style (.answered 200 (.ok payload)) (some b)

theorem Brings.outcome {r : Runtime} (hloads : r.loads = jsonLoads) {style : JsonStyle} (hstyle : style.Separates)
    {x : Exchange} {answer : Option ConfigBundle} (h : Brings r style x answer) :
    (x.outcome r).goesOn = true ∧ (x.outcome r).isFatal = false ∧ (x.outcome r).bundle? = answer := by
  cases h with
  | nothing h =>
    rw [h]
    exact ⟨rfl, rfl, rfl⟩
  | @bundle b text payload hb hwritten hpairs hencoded hfits =>
    have hdocument := jsonLoads_dumps hstyle hwritten (isJson_writeBundle hb) hpairs
    have hparse : parseBundle r.loads (decodeReplace payload) = .ok b := by
      unfold parseBundle
      rw [decodeReplace_encode hencoded, hloads, hdocument]
      exact parseDocument_written hb.configs
    have houtcome : (Exchange.answered 200 (.ok payload)).outcome r = .bundle b := by
      rw [Exchange.outcome, if_neg (not_lt.2 hfits), if_neg (by decide), if_pos rfl, hparse]
    rw [houtcome]
    exact ⟨rfl, rfl, rfl⟩

theorem takenBy_of_goesOn {r : Runtime} {exchanges : List Exchange} (h : ∀ x ∈ exchanges, (x.outcome r).goesOn = true) :
    takenBy r exchanges = exchanges := by
  induction exchanges with
  | nil => rfl
  | cons x exchanges ih =>
    rw [List.forall_mem_cons] at h
    rw [takenBy, if_pos h.1, ih h.2]

theorem brought {r : Runtime} (hloads : r.loads = jsonLoads) {style : JsonStyle} (hstyle : style.Separates)
    {exchanges : List Exchange} {answers : List (Option ConfigBundle)} (h : List.Forall₂ (Brings r style) exchanges answers) :
    (∀ x ∈ exchanges, (x.outcome r).goesOn = true) ∧ bundlesPolled r exchanges = answers.reduceOption := by
  induction h with
  | nil => exact ⟨fun x hx => absurd hx List.not_mem_nil, rfl⟩
  | @cons x answer exchanges answers hx _ ih =>
    obtain ⟨hgoes, -, hbundle⟩ := hx.outcome hloads hstyle
    refine ⟨List.forall_mem_cons.2 ⟨hgoes, ih.1⟩, ?_⟩
    rw [bundlesPolled_cons, ih.2, hbundle]
    cases answer <;> rfl

/-- Bundles that a server writes as JSON reach the client alike: polled in the bodies of responses with failures and
empty answers between them, or streamed in the events of responses that are cut and broken off. -/
theorem polled_as_streamed {style style' : JsonStyle} (hstyle : style.Separates) (hstyle' : style'.Separates)
    {r : StreamRuntime} (hloads : r.loads = jsonLoads) (url : Text) {replies : List StreamReply}
    {sent : List (List StreamItem)} (hsent : List.Forall₂ Sends replies sent) {bundles : List ConfigBundle}
    (hcarries : List.Forall₂ (Carries style) (sent.flatten.filter isEvent) bundles) {first : Exchange}
    {rest : List Exchange} {answers : List (Option ConfigBundle)}
    (hanswers : List.Forall₂ (Brings r.toRuntime style') (first :: rest) answers)
    (hbundles : answers.reduceOption = bundles) :
    (PollingRun.run r.toRuntime url true first rest).bundles = (Streaming.run r .init replies).bundles r.toRuntime ∧
      (PollingRun.run r.toRuntime url true first rest).bundles = bundles ∧
      (PollingRun.run r.toRuntime url true first rest).loop.running = true ∧
      (Streaming.run r .init replies).running = true := by
  obtain ⟨hgoes, hbrought⟩ := brought hloads hstyle' hanswers
  have hfatal : (first.outcome r.toRuntime).isFatal = false := by
    cases hanswers with
    | cons hfirst _ => exact (hfirst.outcome hloads hstyle').2.1
  rw [List.forall_mem_cons] at hgoes
  have hpolled : (PollingRun.run r.toRuntime url true first rest).bundles = bundles := by
    rw [(polled_run r.toRuntime url true first rest).delivered, exchanged, hfatal, Bool.not_false, Bool.and_true,
      if_pos rfl, takenBy_of_goesOn hgoes.2, hbrought, hbundles]
    rfl
  refine ⟨?_, hpolled, ?_, ?_⟩
  · rw [hpolled, bundles_sent r hsent, bundles_carried hstyle hloads hcarries]
  · rw [running_run, hfatal, Bool.not_false, Bool.and_true, Bool.true_and, List.all_eq_true]
    exact hgoes.2
  · rw [(after_run r replies).running, none_gaveUp hsent]
    rfl

end

/-- The bundle in the body of a response, after a poll that is refused and before one that has nothing newer. -/
def carriedPayload : Bytes := (encode? (((dumps .compact (writeBundle carriedBundle)).toOption).getD [])).getD []

def polledExchanges : List Exchange := [.answered 200 (.ok carriedPayload), .answered 204 (.ok [])]

theorem brings_polledExchanges [Unicode] (r : Runtime) :
    List.Forall₂ (Brings r .compact) (.failed (lit "refused") :: polledExchanges) [none, some carriedBundle, none] := by
  obtain ⟨e, he, hdumps⟩ := carries_carriedBundle.written
  have hencoded : encode? e.data = some carriedPayload := by
    unfold carriedPayload
    rw [hdumps]
    cases he
    decide +kernel
  refine .cons (.nothing rfl) (.cons (.bundle carries_carriedBundle.wellFormed hdumps nofun hencoded ?_)
    (.cons (.nothing rfl) .nil))
  have hlength : carriedPayload.length ≤ 1000 := by decide +kernel
  exact hlength.trans (by decide)

theorem polled_as_streamed_bundle :
    ∃ (_ : Unicode) (r : StreamRuntime),
      (PollingRun.run r.toRuntime (lit "u") true (.failed (lit "refused")) polledExchanges).bundles =
          (Streaming.run r .init carriedReplies).bundles r.toRuntime ∧
        (PollingRun.run r.toRuntime (lit "u") true (.failed (lit "refused")) polledExchanges).bundles = [carriedBundle] ∧
        (PollingRun.run r.toRuntime (lit "u") true (.failed (lit "refused")) polledExchanges).loop.running = true ∧
        (Streaming.run r .init carriedReplies).running = true :=
  ⟨.ascii, ⟨⟨.reader, fun _ => []⟩, natText, fun _ _ => none, fun _ => []⟩,
    @polled_as_streamed .ascii _ _ JsonStyle.compact_separates JsonStyle.compact_separates _ rfl _ _ _
      sends_carriedReplies _ (.cons carries_carriedBundle .nil) _ _ _ (@brings_polledExchanges .ascii _) rfl⟩

end ConfigDirector.Transport
