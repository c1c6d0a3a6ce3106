/-
Streams that break off: each response of a run carries some items that a server wrote and a part of one more. The
bundles of the items that arrived whole are delivered, in order and across all responses, and the next request
resumes from the last id among them.
-/
import ConfigDirector.Bundle.Written
import ConfigDirector.EventSource.Writer
import ConfigDirector.Transport.StreamingRuns

namespace ConfigDirector.Transport

open Python ConfigDirector.Bundle EventSource

/-! ## A stream that breaks off -/

/-- Some items and a part of the next one that lacks its last byte at least. -/
def BrokenOff (items : List StreamItem) (next : StreamItem) (bytes : Bytes) : Prop :=
  ∃ whole received lost : Bytes, lost ≠ [] ∧ encode? (written items) = some whole ∧
    encode? (written [next]) = some (received ++ lost) ∧ bytes = whole ++ received

/-- An item that a server may send. -/
structure Usable (item : StreamItem) : Prop where
  sendable : item.Sendable
  fits : item.Fits defaultOptions
  float : ∀ milliseconds, item = .retry milliseconds → (PyFloat.ofInt? milliseconds).isSome = true

/-- What a reply carries whole: nothing when it opens no stream. -/
inductive Sends : StreamReply → List StreamItem → Prop
  | refused {reply : StreamReply} (hopens : reply.opens = false) (hserved : reply.givesUp = false) : Sends reply []
  | stream {status : ℕ} {chunks : List Bytes} {breaks : Option Text} {items : List StreamItem} {next : StreamItem}
      (hopens : (StreamReply.responded status chunks breaks).opens = true)
      (husable : ∀ item ∈ items ++ [next], Usable item) (hbroken : BrokenOff items next chunks.flatten) :
      Sends (.responded status chunks breaks) items

section
variable [Unicode]

/-- The bundle an item carries. -/
def bundleWritten (r : Runtime) : StreamItem → Option ConfigBundle
  | .event e => (parseBundle r.loads e.data).toOption
  | _ => none

end

theorem encode?_eq_some_iff {text : Text} {bytes : Bytes} :
    encode? text = some bytes ↔ Encodable text ∧ text.flatMap CodePoint.utf8 = bytes := by
  unfold encode?
  by_cases h : Encodable text <;> simp [h]

/-- The first bytes of a text are those of its first characters, with a part of one more. -/
theorem decode_leading {text : Text} {received lost : Bytes} (h : encode? text = some (received ++ lost)) :
    (Decoder.start.decode received).2 <+: text := by
  obtain ⟨hencodable, hbytes⟩ := encode?_eq_some_iff.1 h
  have hdecode := Decoder.decode_flatMap_utf8 hencodable
  rw [hbytes, Decoder.decode_append, Prod.mk.injEq] at hdecode
  exact ⟨_, hdecode.2⟩

/-- What is received of an item that lacks its last byte is the text of its lines up to the last end. -/
theorem decode_lacking {text : Text} {received lost : Bytes} (hlost : lost ≠ [])
    (h : encode? (text ++ [0x0A]) = some (received ++ lost)) : (Decoder.start.decode received).2 <+: text := by
  obtain ⟨hencodable, hbytes⟩ := encode?_eq_some_iff.1 h
  have htext : Encodable text := (encodable_append.1 hencodable).1
  rw [List.flatMap_append, List.flatMap_singleton] at hbytes
  have hreceived : received <+: text.flatMap CodePoint.utf8 := by
    have hleading : received <+: text.flatMap CodePoint.utf8 ++ [0x0A] := ⟨lost, hbytes.symm⟩
    rcases List.prefix_concat_iff.1 hleading with hall | hbefore
    · refine absurd ?_ hlost
      rw [hall] at hbytes
      exact (List.append_right_eq_self.1 hbytes.symm)
    · exact hbefore
  obtain ⟨rest, hrest⟩ := hreceived
  exact decode_leading (encode?_eq_some_iff.2 ⟨htext, hrest.symm⟩)

theorem brokenTexts_flatten (chunks : List Bytes) (decoder : Decoder) :
    (brokenTexts decoder chunks).flatten = (decoder.decode chunks.flatten).2 := by
  induction chunks generalizing decoder with
  | nil => rfl
  | cons chunk chunks ih => rw [brokenTexts, List.flatten_cons, List.flatten_cons, ih, Decoder.decode_append]

theorem texts_eq (chunks : List Bytes) (decoder : Decoder) :
    texts decoder chunks = brokenTexts decoder chunks ++ [(decoder.decode chunks.flatten).1.finish] := by
  induction chunks generalizing decoder with
  | nil => rfl
  | cons chunk chunks ih =>
    rw [texts, brokenTexts, ih, List.flatten_cons, Decoder.decode_append]
    rfl

/-! ## What is fed -/

theorem feedAll_concat (o : Options) (p : Parser) (chunks : List Text) (chunk : Text) :
    p.feedAll o (chunks ++ [chunk]) = (p.feedAll o chunks).andThen fun p => p.feed o chunk := by
  induction chunks generalizing p with
  | nil =>
    rw [List.nil_append, Parser.feedAll, Parser.feedAll, Fed.ok_andThen]
    cases hfed : p.feed o chunk with
    | mk calls result => cases result <;> simp [Fed.andThen, Parser.feedAll]
  | cons first chunks ih =>
    rw [List.cons_append, Parser.feedAll, Parser.feedAll, Fed.andThen_assoc]
    congr 1
    funext p'
    exact ih p'

/-- What the end of a stream completes makes no call, even if it makes the line begun too long. -/
theorem calls_finish (o : Options) {p : Parser} (h : p.firstChunk = false) (decoder : Decoder) :
    (p.feed o decoder.finish).calls = [] := by
  have hend : isLineEnd Decoder.replacement = false := by decide
  unfold Parser.feed
  rw [if_neg (by rw [h]; exact Bool.false_ne_true)]
  have hlf : ¬ Decoder.replacement = 0x0A := by decide
  unfold Decoder.finish
  rcases decoder.lost_cases with hlost | hlost | hlost <;> rw [hlost, Parser.feedChunk]
  · split
    · simp [Parser.scan, hend, hlf]
    · simp [Parser.scan, hend]
  · split
    · simp [Parser.scan, hend, hlf]
    · simp [Parser.scan, hend]

/-- The calls of a text within the limits, whether what comes after it is an end or an exception. -/
theorem calls_fedBy {chunks : List Bytes} (breaks : Option Text) {text : Text}
    (htext : (Decoder.start.decode chunks.flatten).2 = text) (hunmarked : ¬ Marked text)
    (hlines : ∀ line ∈ allLines text, line.length ≤ defaultOptions.maxLineChars)
    (hevents : EventsFit defaultOptions 0 (terminatedLines text))
    (hretries : ∀ line ∈ terminatedLines text, RetryFits defaultOptions (.ofText line)) :
    (fedBy chunks breaks).calls = (Pending.start.readAll defaultOptions (terminatedLines text)).2 := by
  have hflatten : (brokenTexts .start chunks).flatten = text := (brokenTexts_flatten chunks .start).trans htext
  rw [← hflatten] at hlines hevents hretries hunmarked ⊢
  obtain ⟨p, hp, hfed⟩ := feedAll_within (o := defaultOptions) (brokenTexts .start chunks) hlines hevents hretries
  cases breaks with
  | some error => rw [fedBy, (Parser.feedAll_init defaultOptions hunmarked).1, hfed]
  | none =>
    have hinit : ¬ Marked (texts .start chunks).flatten := by
      rw [texts_eq, List.flatten_append, List.flatten_singleton]
      exact fun h => hunmarked (marked_finish h)
    have hcalls : (Parser.init.feedAll defaultOptions (texts .start chunks)).calls =
        (Pending.start.readAll defaultOptions (terminatedLines (brokenTexts .start chunks).flatten)).2 := by
      rw [(Parser.feedAll_init defaultOptions hinit).1, texts_eq, feedAll_concat, hfed, Fed.andThen_ok rfl,
        calls_finish defaultOptions hp, List.append_nil]
    rw [fedBy, EventSource.read, readFrom_eq, ← hcalls]
    cases hresult : (Parser.init.feedAll defaultOptions (texts .start chunks)).result with
    | ok p' => rw [Fed.andThen_ok hresult, List.append_nil]
    | error e => rw [Fed.andThen_error hresult]

/-! ## What arrives -/

theorem run_lines {lines : List Text} (h : ∀ line ∈ lines, OneLine line) {line : Text} (hline : OneLine line) :
    Splitter.start.run (terminate lines ++ line) = (⟨line, false⟩, lines) := by
  have hbegun : Splitter.start.run line = (⟨line, false⟩, []) := run_begun hline []
  rw [Splitter.run_append, run_terminate h, hbegun, List.append_nil]

theorem lines_ne_nil (item : StreamItem) : item.lines ≠ [] := by
  obtain ⟨c, line, rest, hlines, -⟩ := head_lines item
  rw [hlines]
  exact List.cons_ne_nil _ _

/-- The text that arrived: that of the items, and some of the last one short of its last end. -/
theorem BrokenOff.text {items : List StreamItem} {next : StreamItem} {bytes : Bytes} (h : BrokenOff items next bytes) :
    ∃ arrived rest front last, next.lines = front ++ [last] ∧ arrived ++ rest = terminate front ++ last ∧
      (Decoder.start.decode bytes).2 = written items ++ arrived := by
  obtain ⟨whole, received, lost, hlost, hwhole, hpart, rfl⟩ := h
  obtain ⟨front, last, hlines⟩ := List.eq_nil_or_concat next.lines |>.resolve_left (lines_ne_nil next)
  rw [List.concat_eq_append] at hlines
  have hwritten : written [next] = terminate front ++ last ++ [0x0A] := by
    rw [written, writtenLines, List.flatMap_singleton, hlines, terminate, List.flatMap_append, List.flatMap_singleton,
      List.append_assoc]
    rfl
  rw [hwritten] at hpart
  obtain ⟨rest, hrest⟩ := decode_lacking hlost hpart
  refine ⟨_, rest, front, last, hlines, hrest, ?_⟩
  obtain ⟨hencodable, hbytes⟩ := encode?_eq_some_iff.1 hwhole
  rw [Decoder.decode_append, ← hbytes, Decoder.decode_flatMap_utf8 hencodable]

/-- The lines of what arrived are lines of the whole, and so is the beginning of the one begun. -/
theorem run_arrived {front : List Text} {last arrived rest : Text} (hfront : ∀ line ∈ front, OneLine line)
    (hlast : OneLine last) (h : arrived ++ rest = terminate front ++ last) :
    (Splitter.start.run arrived).2 <+: front ∧
      ∃ line ∈ front ++ [last], (Splitter.start.run arrived).1.line.length ≤ line.length := by
  have hrun := run_lines hfront hlast
  rw [← h, Splitter.run_append, Prod.mk.injEq] at hrun
  obtain ⟨hbegun, hended⟩ := hrun
  refine ⟨⟨_, hended⟩, ?_⟩
  obtain ⟨first, others, hfirst, hle⟩ := Splitter.begun_leading rest (Splitter.start.run arrived).1
  rw [hbegun] at hfirst
  refine ⟨first, ?_, hle⟩
  rw [← hended, List.append_assoc, hfirst]
  exact List.mem_append_right _ (List.mem_cons_self ..)

/-- The items that arrived whole are heard, and nothing of the one that broke off. -/
theorem calls_brokenOff {items : List StreamItem} {next : StreamItem} {chunks : List Bytes} (breaks : Option Text)
    (husable : ∀ item ∈ items ++ [next], Usable item) (hbroken : BrokenOff items next chunks.flatten) :
    (fedBy chunks breaks).calls = callsOf none items := by
  obtain ⟨arrived, rest, front, last, hlines, harrived, htext⟩ := hbroken.text
  have hnext : Usable next := husable next (List.mem_append_right _ (List.mem_singleton_self next))
  have hitems : ∀ item ∈ items, item.Sendable := fun item hitem => (husable item (List.mem_append_left _ hitem)).sendable
  have honeLine : ∀ line ∈ front ++ [last], OneLine line := hlines ▸ oneLine_lines hnext.sendable
  obtain ⟨hended, longer, hlonger, hlength⟩ := run_arrived (fun line hline => honeLine line (List.mem_append_left _ hline))
    (honeLine last (List.mem_append_right _ (List.mem_singleton_self last))) harrived
  have hwhole : writtenLines (items ++ [next]) = writtenLines items ++ (front ++ [last]) := by
    rw [writtenLines, List.flatMap_append, List.flatMap_singleton, hlines]
    rfl
  have hlengths : ∀ line ∈ writtenLines (items ++ [next]), line.length ≤ defaultOptions.maxLineChars := by
    intro line hline
    obtain ⟨item, hitem, hline⟩ := List.mem_flatMap.1 hline
    exact (husable item hitem).fits.lines line hline
  have hrun : Splitter.start.run (written items ++ arrived) =
      ((Splitter.start.run arrived).1, writtenLines items ++ (Splitter.start.run arrived).2) := by
    rw [Splitter.run_append, written, run_terminate fun line hline => ?_]
    obtain ⟨item, hitem, hline⟩ := List.mem_flatMap.1 hline
    exact oneLine_lines (hitems item hitem) line hline
  have hterminated : terminatedLines (written items ++ arrived) = writtenLines items ++ (Splitter.start.run arrived).2 := by
    rw [terminatedLines_eq_run, hrun]
  have hleading : terminatedLines (written items ++ arrived) <+: writtenLines (items ++ [next]) := by
    rw [hterminated, hwhole]
    exact (List.prefix_append_right_inj _).2 (hended.trans (List.prefix_append _ _))
  have hcalls := calls_fedBy breaks htext ?_ ?_
    ((eventsFit_written fun item hitem => (husable item hitem).fits).leading hleading) ?_
  · -- without its last line the item that broke off makes no call
    have hnone : ((Pending.after (items.foldl StreamItem.idAfter none)).readAll defaultOptions
        (Splitter.start.run arrived).2).2 = [] := by
      have hdrop := readAll_dropLast (o := defaultOptions) hnext.sendable (items.foldl StreamItem.idAfter none)
      rw [hlines, List.dropLast_concat] at hdrop
      exact List.prefix_nil.1 (hdrop ▸ readAll_leading defaultOptions _ hended)
    have hstart : Pending.start = Pending.after none := rfl
    rw [hcalls, hterminated, readAll_append, hstart, readAll_written rfl rfl rfl hitems, hnone, List.append_nil]
  · intro hmarked
    refine unmarked_written (items ++ [next]) ?_
    have hwritten : written (items ++ [next]) = written items ++ arrived ++ (rest ++ [0x0A]) := by
      rw [written, hwhole, terminate, List.flatMap_append, List.flatMap_append, List.flatMap_singleton,
        ← List.append_assoc (List.flatMap _ front), ← terminate, ← terminate, ← harrived]
      simp [written]
    rw [hwritten]
    exact hmarked.append _
  · intro line hline
    rw [allLines_eq_run, hrun] at hline
    rcases List.mem_append.1 hline with hline | hline
    · rw [← congrArg Prod.snd hrun, ← terminatedLines_eq_run] at hline
      exact hlengths line (hleading.subset hline)
    · rw [List.mem_singleton.1 hline]
      exact hlength.trans (hlengths longer (hwhole ▸ List.mem_append_right _ hlonger))
  · intro line hline
    obtain ⟨item, hitem, hline⟩ := List.mem_flatMap.1 (hleading.subset hline)
    exact retryFits_item (husable item hitem).fits line hline

/-! ## Runs -/

theorem applied_callsOf {items : List StreamItem} (h : ∀ item ∈ items, Usable item) (last : Option Text) :
    ∀ call ∈ callsOf last items, isApplied call = true := by
  induction items generalizing last with
  | nil => exact fun call hcall => absurd hcall List.not_mem_nil
  | cons item items ih =>
    rw [List.forall_mem_cons] at h
    intro call hcall
    rcases List.mem_cons.1 hcall with rfl | hcall
    · cases item with
      | event e => rfl
      | comment text => rfl
      | retry milliseconds => exact h.1.float milliseconds rfl
    · exact ih h.2 _ call hcall

theorem Sends.givesUp {reply : StreamReply} {items : List StreamItem} (h : Sends reply items) : reply.givesUp = false := by
  cases h with
  | refused hopens hserved => exact hserved
  | stream hopens husable hbroken =>
    rw [← Bool.not_eq_true]
    intro hgives
    rw [opens_of_givesUp hgives] at hopens
    cases hopens

theorem Sends.messages {reply : StreamReply} {items : List StreamItem} (h : Sends reply items) :
    reply.messages = (callsOf none items).filterMap messageOf := by
  cases h with
  | refused hopens hserved =>
    cases reply with
    | unopened error => rfl
    | responded status chunks breaks =>
      rw [StreamReply.messages, hopens]
      rfl
  | stream hopens husable hbroken =>
    have hitems : ∀ item ∈ items, Usable item := fun item hitem => husable item (List.mem_append_left _ hitem)
    rw [StreamReply.messages, if_pos hopens, calls_brokenOff _ husable hbroken,
      List.takeWhile_eq_self_iff.2 (applied_callsOf hitems none)]

section
variable [Unicode]

theorem bundlesIn_callsOf (r : Runtime) (items : List StreamItem) (last : Option Text) :
    bundlesIn r ((callsOf last items).filterMap messageOf) = items.filterMap (bundleWritten r) := by
  unfold bundlesIn
  induction items generalizing last with
  | nil => rfl
  | cons item items ih =>
    cases item with
    | comment text => exact ih last
    | retry milliseconds => exact ih last
    | event e =>
      have hcalls : (callsOf last (.event e :: items)).filterMap messageOf =
          ⟨e.data, e.type, e.id.or last⟩ :: (callsOf (e.id.or last) items).filterMap messageOf := rfl
      rw [hcalls, List.filterMap_cons, List.filterMap_cons, ih]
      rfl

omit [Unicode] in
theorem none_gaveUp {replies : List StreamReply} {sent : List (List StreamItem)} (h : List.Forall₂ Sends replies sent) :
    replies.any StreamReply.givesUp = false := by
  induction h with
  | nil => rfl
  | cons hsends _ ih => rw [List.any_cons, hsends.givesUp, ih, Bool.or_false]

omit [Unicode] in
theorem messagesServed_sent {replies : List StreamReply} {sent : List (List StreamItem)}
    (h : List.Forall₂ Sends replies sent) :
    messagesServed replies = sent.flatMap fun items => (callsOf none items).filterMap messageOf := by
  rw [messagesServed, servedReplies_of_none (none_gaveUp h)]
  induction h with
  | nil => rfl
  | cons hsends _ ih => rw [List.flatMap_cons, List.flatMap_cons, ih, hsends.messages]

theorem bundles_sent (r : StreamRuntime) {replies : List StreamReply} {sent : List (List StreamItem)}
    (h : List.Forall₂ Sends replies sent) :
    (Streaming.run r .init replies).bundles r.toRuntime = sent.flatten.filterMap (bundleWritten r.toRuntime) := by
  rw [Streaming.bundles, (after_run r replies).heard, List.filterMap_map, messagesServed_sent h]
  clear h
  induction sent with
  | nil => rfl
  | cons items sent ih =>
    rw [List.flatMap_cons, List.filterMap_append, ih, List.flatten_cons, List.filterMap_append]
    exact congrArg (· ++ _) (bundlesIn_callsOf r.toRuntime items none)

end

/-- An event and a comment that arrive whole, and an event that lacks its last end. -/
def wholeItems : List StreamItem := [.event ⟨lit "{}", none, some (lit "7")⟩, .comment (lit "idle")]

def cutItem : StreamItem := .event ⟨lit "x", some (lit "y"), some (lit "8")⟩

theorem usable_sample : ∀ item ∈ wholeItems ++ [cutItem], Usable item := by
  intro item hitem
  simp only [wholeItems, cutItem, List.cons_append, List.nil_append, List.mem_cons, List.not_mem_nil, or_false] at hitem
  rcases hitem with rfl | rfl | rfl
  · exact ⟨⟨by decide, by decide, nofun, fun id hid => by cases hid; exact ⟨oneLine_lit rfl, by decide⟩⟩,
      ⟨by decide, fun e he => by cases he; decide, nofun⟩, nofun⟩
  · exact ⟨oneLine_lit rfl, ⟨by decide, nofun, nofun⟩, nofun⟩
  · exact ⟨⟨by decide, by decide, fun type htype => by cases htype; exact oneLine_lit rfl,
      fun id hid => by cases hid; exact ⟨oneLine_lit rfl, by decide⟩⟩,
      ⟨by decide, fun e he => by cases he; decide, nofun⟩, nofun⟩

def isEvent : StreamItem → Bool
  | .event _ => true
  | _ => false

/-- An event whose data is a bundle, written as JSON. -/
structure Carries (style : JsonStyle) (item : StreamItem) (b : ConfigBundle) : Prop where
  wellFormed : WellFormedBundle b
  written : ∃ e, item = .event e ∧ dumps style (writeBundle b) = .ok e.data
  pairs : style.ensureAscii = true → (writeBundle b).PairFree

section
variable [Unicode]

theorem Carries.bundleWritten {style : JsonStyle} (hstyle : style.Separates) {r : Runtime}
    (hloads : r.loads = jsonLoads) {item : StreamItem} {b : ConfigBundle} (h : Carries style item b) :
    Transport.bundleWritten r item = some b := by
  obtain ⟨e, rfl, hdumps⟩ := h.written
  have hdocument := jsonLoads_dumps hstyle hdumps (isJson_writeBundle h.wellFormed) h.pairs
  unfold Transport.bundleWritten parseBundle
  simp only [hloads, hdocument, parseDocument_written h.wellFormed.configs]
  rfl

theorem bundles_carried {style : JsonStyle} (hstyle : style.Separates) {r : Runtime} (hloads : r.loads = jsonLoads)
    {items : List StreamItem} {bundles : List ConfigBundle}
    (h : List.Forall₂ (Carries style) (items.filter isEvent) bundles) :
    items.filterMap (bundleWritten r) = bundles := by
  induction items generalizing bundles with
  | nil =>
    cases h
    rfl
  | cons item items ih =>
    cases item with
    | comment text => exact ih h
    | retry milliseconds => exact ih h
    | event e =>
      rw [List.filter_cons_of_pos rfl] at h
      cases h with
      | cons hcarries hrest => rw [List.filterMap_cons_some (hcarries.bundleWritten hstyle hloads), ih hrest]

/-- From a server to the store: bundles that are written as JSON in the events of streams, with any comments and
retries between them, are the bundles the client is handed, wherever the streams are cut and broken off. -/
theorem stream_run_hands_over {style : JsonStyle} (hstyle : style.Separates) {r : StreamRuntime}
    (hloads : r.loads = jsonLoads) {replies : List StreamReply} {sent : List (List StreamItem)}
    (h : List.Forall₂ Sends replies sent) {bundles : List ConfigBundle}
    (hcarries : List.Forall₂ (Carries style) (sent.flatten.filter isEvent) bundles)
    (handlers : Client.ClientEvent → List ℕ) :
    (Streaming.run r .init replies).bundles r.toRuntime = bundles ∧
      ∀ key, (Client.deliver (.init handlers) ((Streaming.run r .init replies).bundles r.toRuntime)).held key =
        LastWriter.latest (bundles.map (Client.configUpdate key)) := by
  have hbundles : (Streaming.run r .init replies).bundles r.toRuntime = bundles := by
    rw [bundles_sent r h, bundles_carried hstyle hloads hcarries]
  refine ⟨hbundles, fun key => ?_⟩
  rw [hbundles]
  refine Client.held_deliver (Client.fresh_init handlers) key fun b hb => ?_
  rw [← bundles_carried hstyle hloads hcarries] at hb
  obtain ⟨item, -, hitem⟩ := List.mem_filterMap.1 hb
  cases item with
  | event e => exact parseBundle_disjoint (toOption_eq_some_iff.1 hitem)
  | comment text => cases hitem
  | retry milliseconds => cases hitem

end

/-- A bundle with a config and a key that is unreadable. -/
def carriedBundle : ConfigBundle where
  configs := (∅ : Dict Text (Evaluation.Config PyFloat)).set (lit "k")
    ⟨lit "1", lit "k", .str (lit "boolean"), ⟨lit "true", [], none⟩, [], none⟩
  segments := ∅
  kind := .delta
  unreadableKeys := [lit "u"]
  environmentId := none
  projectId := none
  timestamp := some (lit "t")

def carriedItem : StreamItem := .event ⟨((dumps .compact (writeBundle carriedBundle)).toOption).getD [], none, none⟩

theorem carries_carriedBundle : Carries .compact carriedItem carriedBundle := by
  have hwritable : Writable JsonStyle.compact.allowNan (writeBundle carriedBundle) := by
    refine ⟨⟨⟨trivial, trivial, trivial, ⟨trivial, trivial, trivial, trivial⟩, trivial, trivial, trivial⟩, trivial, trivial⟩,
      trivial, trivial, trivial, trivial, trivial, trivial⟩
  refine ⟨⟨fun p hp => ?_, List.nodup_singleton _, fun key hkey => ?_⟩, ⟨_, rfl, ?_⟩, nofun⟩
  · obtain rfl := List.mem_singleton.1 hp
    exact ⟨trivial, fun rule hrule => absurd hrule List.not_mem_nil, fun min max h => by cases h⟩
  · rw [List.mem_singleton.1 hkey]
    rfl
  · obtain ⟨text, htext⟩ := (dumps_ok_iff .compact (writeBundle carriedBundle)).2 hwritable
    rw [htext]
    rfl

theorem usable_carriedItem : Usable carriedItem := by
  refine ⟨⟨by decide +kernel, by decide +kernel, nofun, nofun⟩, ⟨by decide +kernel, fun e he => ?_, nofun⟩, nofun⟩
  cases he
  decide +kernel

def carriedBytes : Bytes := (encode? (written [carriedItem])).getD []

/-- A stream with the bundle, cut in the middle of it and broken off after it. -/
def carriedReplies : List StreamReply :=
  [.responded 200 [carriedBytes.take 100, carriedBytes.drop 100] (some (lit "reset"))]

theorem sends_carriedReplies : List.Forall₂ Sends carriedReplies [[carriedItem]] := by
  have husable : ∀ item ∈ [carriedItem] ++ [cutItem], Usable item := by
    rw [List.forall_mem_append, List.forall_mem_singleton, List.forall_mem_singleton]
    exact ⟨usable_carriedItem, usable_sample cutItem (by simp)⟩
  have hwhole : encode? (written [carriedItem]) = some carriedBytes := by decide +kernel
  have hcut : encode? (written [cutItem]) = some ([] ++ (encode? (written [cutItem])).getD []) := by decide
  have hflatten : [carriedBytes.take 100, carriedBytes.drop 100].flatten = carriedBytes ++ [] := by
    simp
  refine .cons (.stream (by decide) husable ⟨carriedBytes, [], _, ?_, hwhole, hcut, hflatten⟩) .nil
  decide

theorem stream_run_hands_over_bundle :
    ∃ (_ : Unicode) (r : StreamRuntime), (Streaming.run r .init carriedReplies).bundles r.toRuntime = [carriedBundle] ∧
      ∀ key, (Client.deliver (.init fun _ => []) ((Streaming.run r .init carriedReplies).bundles r.toRuntime)).held key =
        LastWriter.latest ([carriedBundle].map (Client.configUpdate key)) :=
  ⟨.ascii, ⟨⟨.reader, fun _ => []⟩, natText, fun _ _ => none, fun _ => []⟩,
    @stream_run_hands_over .ascii _ JsonStyle.compact_separates _ rfl _ _ sends_carriedReplies _
      (.cons carries_carriedBundle .nil) _⟩

end ConfigDirector.Transport
