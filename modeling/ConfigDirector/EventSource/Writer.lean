/-
An event stream as a server writes it, and what the client makes of it: the handlers are called with the events,
comments and retries that were written, in order, however the bytes are cut into chunks.
-/
import ConfigDirector.EventSource.Unbroken
import ConfigDirector.Python.DecimalText
import ConfigDirector.Python.Utf8RoundTrip

namespace ConfigDirector.EventSource

open Python

/-! ## Writing -/

structure WrittenEvent where
  data : Text
  type : Option Text
  id : Option Text

inductive StreamItem
  | event (event : WrittenEvent)
  | comment (text : Text)
  | retry (milliseconds : ℕ)

namespace StreamItem

/-- The lines of an item: an event has a line for each line of its data, and a blank one ends it. -/
def lines : StreamItem → List Text
  | event e => (e.id.map (lit "id: " ++ ·)).toList ++ ((e.type.map (lit "event: " ++ ·)).toList ++
      ((splitOn 0x0A e.data).map (lit "data: " ++ ·) ++ [[]]))
  | comment text => [lit ": " ++ text]
  | retry milliseconds => [lit "retry: " ++ natText milliseconds]

/-- The id that stays in force. -/
def idAfter (last : Option Text) : StreamItem → Option Text
  | event e => e.id.or last
  | _ => last

/-- The call an item stands for. -/
def call (last : Option Text) : StreamItem → Call
  | event e => .event ⟨e.data, e.type, e.id.or last⟩
  | comment text => .comment text
  | retry milliseconds => .retry milliseconds

end StreamItem

/-- Lines, each with its end. -/
def terminate (lines : List Text) : Text := lines.flatMap (· ++ [0x0A])

def writtenLines (items : List StreamItem) : List Text := items.flatMap StreamItem.lines

def written (items : List StreamItem) : Text := terminate (writtenLines items)

/-- The calls some items stand for. -/
def callsOf (last : Option Text) : List StreamItem → List Call
  | [] => []
  | item :: items => item.call last :: callsOf (item.idAfter last) items

/-- What an item may hold: an event has data, in which LF alone ends lines. -/
def StreamItem.Sendable : StreamItem → Prop
  | event e => e.data ≠ [] ∧ 0x0D ∉ e.data ∧ (∀ type ∈ e.type, OneLine type) ∧ ∀ id ∈ e.id, OneLine id ∧ 0 ∉ id
  | comment text => OneLine text
  | retry _ => True

/-- What the limits of the reader allow. -/
structure StreamItem.Fits (o : Options) (item : StreamItem) : Prop where
  lines : ∀ line ∈ item.lines, line.length ≤ o.maxLineChars
  data : ∀ e, item = .event e → e.data.length + 1 ≤ o.maxEventChars
  digits : ∀ milliseconds, item = .retry milliseconds → (natText milliseconds).length ≤ o.maxDigits

/-! ## Lines -/

theorem ofText_id (value : Text) : Line.ofText (lit "id: " ++ value) = .field (lit "id") value := rfl

theorem ofText_event (value : Text) : Line.ofText (lit "event: " ++ value) = .field (lit "event") value := rfl

theorem ofText_data (value : Text) : Line.ofText (lit "data: " ++ value) = .field (lit "data") value := rfl

theorem ofText_retry (value : Text) : Line.ofText (lit "retry: " ++ value) = .field (lit "retry") value := rfl

theorem ofText_commentLine (value : Text) : Line.ofText (lit ": " ++ value) = .comment value := rfl

/-- A line of characters and its end. -/
theorem run_line {line : Text} (h : OneLine line) (rest : Text) :
    Splitter.start.run (line ++ 0x0A :: rest) = ((Splitter.start.run rest).1, line :: (Splitter.start.run rest).2) := by
  have hbegun : Splitter.start.run line = (⟨line, false⟩, []) := run_begun h []
  rw [Splitter.run_append, hbegun, Splitter.run, Splitter.step_end (by simp) (by decide)]
  rfl

theorem run_terminate {lines : List Text} (h : ∀ line ∈ lines, OneLine line) :
    Splitter.start.run (terminate lines) = (Splitter.start, lines) := by
  induction lines with
  | nil => rfl
  | cons line lines ih =>
    rw [List.forall_mem_cons] at h
    rw [terminate, List.flatMap_cons, List.append_assoc, List.singleton_append]
    have hline := run_line h.1 (terminate lines)
    rw [ih h.2] at hline
    exact hline

/-- Without a CR, the parts between the LFs of a text are lines. -/
theorem oneLine_of_mem_splitOn {text part : Text} (h : 0x0D ∉ text) (hpart : part ∈ splitOn 0x0A text) : OneLine part := by
  obtain ⟨first, parts, hsplit, hfree, htext⟩ := splitOn_parts 0x0A text
  rw [hsplit] at hpart
  intro c hc
  have hlf : c ≠ 0x0A := fun hlf => hfree part hpart (hlf ▸ hc)
  have hcr : c ≠ 0x0D := by
    intro hcr
    refine h (htext ▸ hcr ▸ ?_)
    rcases List.mem_cons.1 hpart with rfl | hpart
    · exact List.mem_append_left _ hc
    · exact List.mem_append_right _ (List.mem_flatMap.2 ⟨part, hpart, List.mem_cons_of_mem _ hc⟩)
  simp [isLineEnd, hlf, hcr]

theorem oneLine_lit {name : String} (h : (lit name).all (fun c => !isLineEnd c) = true) : OneLine (lit name) := by
  intro c hc
  have hnot := List.all_eq_true.1 h c hc
  rwa [Bool.not_eq_true'] at hnot

theorem oneLine_natText (n : ℕ) : OneLine (natText n) := by
  intro c hc
  have hdigit := allDigits_natText n c hc
  rw [← Bool.not_eq_true]
  intro hend
  unfold isLineEnd at hend
  rw [Bool.or_eq_true, decide_eq_true_eq, decide_eq_true_eq] at hend
  rcases hend with rfl | rfl
  · exact absurd hdigit (by decide)
  · exact absurd hdigit (by decide)

theorem oneLine_lines {item : StreamItem} (h : item.Sendable) : ∀ line ∈ item.lines, OneLine line := by
  cases item with
  | event e =>
    obtain ⟨-, hcr, htype, hid⟩ := h
    intro line hline
    simp only [StreamItem.lines, List.mem_append, Option.mem_toList, Option.map_eq_some_iff, List.mem_map,
      List.mem_singleton] at hline
    rcases hline with ⟨id, he, rfl⟩ | ⟨type, he, rfl⟩ | ⟨part, hpart, rfl⟩ | rfl
    · exact oneLine_append (oneLine_lit rfl) (hid id he).1
    · exact oneLine_append (oneLine_lit rfl) (htype type he)
    · exact oneLine_append (oneLine_lit rfl) (oneLine_of_mem_splitOn hcr hpart)
    · exact fun c hc => absurd hc List.not_mem_nil
  | comment text =>
    intro line hline
    rw [List.mem_singleton.1 hline]
    exact oneLine_append (oneLine_lit rfl) h
  | retry milliseconds =>
    intro line hline
    rw [List.mem_singleton.1 hline]
    exact oneLine_append (oneLine_lit rfl) (oneLine_natText milliseconds)

/-! ## Reading what was written -/

theorem readAll_append_fst (o : Options) (q : Pending) (lines lines' : List Text) :
    (q.readAll o (lines ++ lines')).1 = ((q.readAll o lines).1.readAll o lines').1 := by
  induction lines generalizing q with
  | nil => rfl
  | cons line lines ih => simp only [List.cons_append, Pending.readAll, ih]

/-- Data lines are collected. -/
theorem readAll_data (o : Options) (q : Pending) (parts : List Text) :
    q.readAll o (parts.map (lit "data: " ++ ·)) = ({ q with data := q.data ++ parts }, []) := by
  induction parts generalizing q with
  | nil => simp [Pending.readAll]
  | cons part parts ih =>
    have hread : q.read o (.field (lit "data") part) = ({ q with data := q.data ++ [part] }, []) := rfl
    rw [List.map_cons, Pending.readAll, ofText_data, hread]
    simp only [ih, List.append_assoc, List.singleton_append, List.append_nil]

/-- The parts of a text joined again. -/
theorem join_splitOn (text : Text) : join [0x0A] (splitOn 0x0A text) = text := by
  have hjoin : ∀ (part : Text) (parts : List Text), join [0x0A] (part :: parts) = part ++ parts.flatMap (0x0A :: ·) := by
    intro part parts
    induction parts generalizing part with
    | nil => rw [List.flatMap_nil, List.append_nil]; rfl
    | cons next parts ih => rw [join, ih, List.flatMap_cons, List.append_assoc]; rfl
  obtain ⟨part, parts, hsplit, -, htext⟩ := splitOn_parts 0x0A text
  rw [hsplit, hjoin, ← htext]

/-- The event being collected when none has begun. -/
def Pending.after (last : Option Text) : Pending := ⟨[], none, last⟩

/-- The lines of an event before the blank one. -/
theorem readAll_begun {o : Options} {e : WrittenEvent} (hid : ∀ id ∈ e.id, OneLine id ∧ 0 ∉ id) (last : Option Text) :
    (Pending.after last).readAll o ((e.id.map (lit "id: " ++ ·)).toList ++ ((e.type.map (lit "event: " ++ ·)).toList ++
      (splitOn 0x0A e.data).map (lit "data: " ++ ·))) = (⟨splitOn 0x0A e.data, e.type, e.id.or last⟩, []) := by
  have hidLine : (Pending.after last).readAll o (e.id.map (lit "id: " ++ ·)).toList = (.after (e.id.or last), []) := by
    cases hcase : e.id with
    | none => rfl
    | some id =>
      have hread : (Pending.after last).read o (.field (lit "id") id) =
          (if 0 ∈ id then .after last else .after (some id), []) := rfl
      rw [Option.map_some, Option.toList_some, Pending.readAll, ofText_id, hread, if_neg (hid id hcase).2]
      rfl
  have htypeLine : (Pending.after (e.id.or last)).readAll o (e.type.map (lit "event: " ++ ·)).toList =
      (⟨[], e.type, e.id.or last⟩, []) := by
    cases e.type with
    | none => rfl
    | some type => rfl
  refine Prod.ext ?_ ?_
  · rw [readAll_append_fst, readAll_append_fst, hidLine, htypeLine, readAll_data]
    rfl
  · rw [readAll_append, readAll_append, hidLine, htypeLine, readAll_data]
    rfl

/-- The lines of an event are the ones begun and a blank one. -/
theorem lines_event (e : WrittenEvent) : (StreamItem.event e).lines = ((e.id.map (lit "id: " ++ ·)).toList ++
    ((e.type.map (lit "event: " ++ ·)).toList ++ (splitOn 0x0A e.data).map (lit "data: " ++ ·))) ++ [[]] := by
  rw [StreamItem.lines, List.append_assoc, List.append_assoc]

theorem readAll_item {o : Options} (honEvent : o.onEvent = true) (honComment : o.onComment = true)
    (honRetry : o.onRetry = true) {item : StreamItem} (h : item.Sendable) (last : Option Text) :
    (Pending.after last).readAll o item.lines = (.after (item.idAfter last), [item.call last]) := by
  cases item with
  | comment text =>
    have hread : (Pending.after last).read o (.comment text) = (.after last, [.comment text]) := by
      rw [Pending.read, if_pos honComment]
    rw [StreamItem.lines, Pending.readAll, ofText_commentLine, hread]
    rfl
  | retry milliseconds =>
    have hread : (Pending.after last).read o (.field (lit "retry") (natText milliseconds)) =
        (.after last, [.retry milliseconds]) := by
      have hretry : (Pending.after last).read o (.field (lit "retry") (natText milliseconds)) = (.after last,
        if isAsciiDigits (natText milliseconds) = true ∧ o.onRetry = true then
          [.retry (digitsToNat (natText milliseconds))] else []) := rfl
      rw [hretry, if_pos ⟨isAsciiDigits_natText milliseconds, honRetry⟩, digitsToNat_natText]
    rw [StreamItem.lines, Pending.readAll, ofText_retry, hread]
    rfl
  | event e =>
    obtain ⟨hdata, hcr, htype, hid⟩ := h
    have hblank : (⟨splitOn 0x0A e.data, e.type, e.id.or last⟩ : Pending).readAll o [[]] =
        (.after (e.id.or last), [.event ⟨e.data, e.type, e.id.or last⟩]) := by
      have hread : (⟨splitOn 0x0A e.data, e.type, e.id.or last⟩ : Pending).read o (.ofText []) =
        (.after (e.id.or last), if join [0x0A] (splitOn 0x0A e.data) ≠ [] ∧ o.onEvent = true then
          [.event ⟨join [0x0A] (splitOn 0x0A e.data), e.type, e.id.or last⟩] else []) := rfl
      rw [Pending.readAll, hread, join_splitOn, if_pos ⟨hdata, honEvent⟩]
      rfl
    refine Prod.ext ?_ ?_
    · rw [lines_event, readAll_append_fst, readAll_begun hid, hblank]
      rfl
    · rw [lines_event, readAll_append, readAll_begun hid, hblank]
      rfl

/-- Without its last line an item makes no call. -/
theorem readAll_dropLast {o : Options} {item : StreamItem} (h : item.Sendable) (last : Option Text) :
    ((Pending.after last).readAll o item.lines.dropLast).2 = [] := by
  cases item with
  | comment text => rfl
  | retry milliseconds => rfl
  | event e =>
    obtain ⟨-, -, -, hid⟩ := h
    rw [lines_event, List.dropLast_concat, readAll_begun hid]

/-- What is left when some items have been read is the id of the last event that has one. -/
theorem readAll_written {o : Options} (honEvent : o.onEvent = true) (honComment : o.onComment = true)
    (honRetry : o.onRetry = true) {items : List StreamItem} (h : ∀ item ∈ items, item.Sendable) (last : Option Text) :
    (Pending.after last).readAll o (writtenLines items) =
      (.after (items.foldl StreamItem.idAfter last), callsOf last items) := by
  induction items generalizing last with
  | nil => rfl
  | cons item items ih =>
    rw [List.forall_mem_cons] at h
    have hitem := readAll_item honEvent honComment honRetry h.1 last
    refine Prod.ext ?_ ?_
    · rw [writtenLines, List.flatMap_cons, readAll_append_fst, hitem, ← writtenLines, ih h.2]
      rfl
    · rw [writtenLines, List.flatMap_cons, readAll_append, hitem, ← writtenLines, ih h.2]
      rfl

/-! ## The limits -/

theorem EventsFit.leading {o : Options} {used : ℕ} {lines lines' : List Text} (h : EventsFit o used lines)
    (hleading : lines' <+: lines) : EventsFit o used lines' := by
  induction lines' generalizing used lines with
  | nil => trivial
  | cons line lines' ih =>
    obtain ⟨rest, rfl⟩ := hleading
    exact ⟨h.1, ih h.2 (List.prefix_append _ _)⟩

/-- What a line that is no data leaves of the limit. -/
theorem eventsFit_free {o : Options} {used : ℕ} {line : Text} {rest : List Text} (hcost : dataCost (.ofText line) = 0)
    (hne : Line.ofText line ≠ .blank) (hused : used ≤ o.maxEventChars) (h : EventsFit o used rest) :
    EventsFit o used (line :: rest) := by
  rw [EventsFit, hcost, Nat.add_zero, if_neg hne]
  exact ⟨hused, h⟩

/-- Data lines and the blank line after them. -/
theorem eventsFit_data {o : Options} {rest : List Text} (h : EventsFit o 0 rest) :
    ∀ (parts : List Text) (used : ℕ), used + (parts.map fun part => part.length + 1).sum ≤ o.maxEventChars →
      EventsFit o used (parts.map (lit "data: " ++ ·) ++ [] :: rest)
  | [], used, hused => by
    have hcost : dataCost (.ofText []) = 0 := rfl
    rw [List.map_nil, List.nil_append, EventsFit, hcost]
    exact ⟨hused, h⟩
  | part :: parts, used, hused => by
    rw [List.map_cons, List.sum_cons] at hused
    have hcost : dataCost (.ofText (lit "data: " ++ part)) = part.length + 1 := rfl
    have hne : Line.ofText (lit "data: " ++ part) ≠ .blank := by
      rw [ofText_data]
      nofun
    rw [List.map_cons, List.cons_append, EventsFit, hcost, if_neg hne]
    exact ⟨by omega, eventsFit_data h parts (used + (part.length + 1)) (by omega)⟩

/-- The parts of a text and the ends between them make up its length. -/
theorem sum_splitOn (text : Text) : ((splitOn 0x0A text).map fun part => part.length + 1).sum = text.length + 1 := by
  obtain ⟨part, parts, hsplit, -, htext⟩ := splitOn_parts 0x0A text
  have hsum : ∀ parts : List Text, (parts.map fun part => part.length + 1).sum =
      (parts.flatMap ((0x0A : CodePoint) :: ·)).length := by
    intro parts
    induction parts with
    | nil => rfl
    | cons part parts ih => rw [List.map_cons, List.sum_cons, ih, List.flatMap_cons, List.length_append]; rfl
  rw [hsplit, List.map_cons, List.sum_cons, hsum, htext, List.length_append]
  omega

theorem eventsFit_item {o : Options} {item : StreamItem} (h : item.Fits o) {rest : List Text} (hrest : EventsFit o 0 rest) :
    EventsFit o 0 (item.lines ++ rest) := by
  have hzero : 0 ≤ o.maxEventChars := Nat.zero_le _
  cases item with
  | comment text => exact eventsFit_free rfl (by rw [ofText_commentLine]; nofun) hzero hrest
  | retry milliseconds => exact eventsFit_free rfl (by rw [ofText_retry]; nofun) hzero hrest
  | event e =>
    have hdata : EventsFit o 0 ((splitOn 0x0A e.data).map (lit "data: " ++ ·) ++ [] :: rest) :=
      eventsFit_data hrest _ 0 (by rw [sum_splitOn, Nat.zero_add]; exact h.data e rfl)
    have htype : EventsFit o 0 ((e.type.map (lit "event: " ++ ·)).toList ++
        ((splitOn 0x0A e.data).map (lit "data: " ++ ·) ++ [] :: rest)) := by
      cases e.type with
      | none => exact hdata
      | some type => exact eventsFit_free rfl (by rw [ofText_event]; nofun) hzero hdata
    rw [StreamItem.lines, List.append_assoc, List.append_assoc, List.append_assoc, List.singleton_append]
    cases e.id with
    | none => exact htype
    | some id => exact eventsFit_free rfl (by rw [ofText_id]; nofun) hzero htype

theorem retryFits_item {o : Options} {item : StreamItem} (h : item.Fits o) :
    ∀ line ∈ item.lines, RetryFits o (.ofText line) := by
  cases item with
  | comment text =>
    intro line hline
    rw [List.mem_singleton.1 hline, ofText_commentLine]
    trivial
  | retry milliseconds =>
    intro line hline
    rw [List.mem_singleton.1 hline, ofText_retry]
    exact fun _ _ => h.digits milliseconds rfl
  | event e =>
    intro line hline
    simp only [StreamItem.lines, List.mem_append, Option.mem_toList, Option.map_eq_some_iff, List.mem_map,
      List.mem_singleton] at hline
    rcases hline with ⟨id, -, rfl⟩ | ⟨type, -, rfl⟩ | ⟨part, -, rfl⟩ | rfl
    · rw [ofText_id]
      exact fun hname => absurd hname (by decide)
    · rw [ofText_event]
      exact fun hname => absurd hname (by decide)
    · rw [ofText_data]
      exact fun hname => absurd hname (by decide)
    · trivial

theorem eventsFit_written {o : Options} {items : List StreamItem} (h : ∀ item ∈ items, item.Fits o) :
    EventsFit o 0 (writtenLines items) := by
  induction items with
  | nil => trivial
  | cons item items ih =>
    rw [List.forall_mem_cons] at h
    exact eventsFit_item h.1 (ih h.2)

/-! ## Reading bytes -/

/-- A text within the limits is fed line by line, however it is cut. -/
theorem feedAll_within {o : Options} (chunks : List Text)
    (hlines : ∀ line ∈ allLines chunks.flatten, line.length ≤ o.maxLineChars)
    (hevents : EventsFit o 0 (terminatedLines chunks.flatten))
    (hretries : ∀ line ∈ terminatedLines chunks.flatten, RetryFits o (.ofText line)) :
    ∃ p, p.firstChunk = false ∧ Parser.started.feedAll o chunks =
      ⟨(Pending.start.readAll o (terminatedLines chunks.flatten)).2, .ok p⟩ := by
  have hfeed := Parser.feedAll_eq (o := o) chunks bare_started [] false (fun h => by cases h)
    (Prod.mk.eta (p := Splitter.start.run chunks.flatten)).symm
  rw [bare_started.buffered_nil, ← terminatedLines_eq_run] at hfeed
  obtain ⟨p, hread⟩ := Parser.dispatchLines_read collects_started hevents hretries
  have hbare : Parser.Bare p := (Parser.dispatchLines_sameBuffers (o := o) (by rw [hread])).bare bare_started
  rcases hfeed with ⟨parts, hfeed⟩ | ⟨-, -, ⟨line, hline, hlong⟩, -⟩
  · rw [hfeed, hread]
    refine ⟨p.buffered parts (Splitter.start.run chunks.flatten).1.afterCr, hbare.firstChunk, ?_⟩
    rw [Fed.andThen_ok rfl, List.append_nil]
  · rw [allLines_eq_run] at hlines
    rw [terminatedLines_eq_run] at hline
    exact absurd (hlines line hline) (Nat.not_le.2 hlong)

/-- An item starts with an ASCII character. -/
theorem head_lines (item : StreamItem) : ∃ c line rest, item.lines = (c :: line) :: rest ∧ c.val < 0x80 := by
  cases item with
  | comment text => exact ⟨_, _, _, rfl, by decide⟩
  | retry milliseconds => exact ⟨_, _, _, rfl, by decide⟩
  | event e =>
    obtain ⟨part, parts, hsplit, -, -⟩ := splitOn_parts 0x0A e.data
    rw [StreamItem.lines, hsplit]
    cases e.id with
    | some id => exact ⟨_, _, _, rfl, by decide⟩
    | none =>
      cases e.type with
      | some type => exact ⟨_, _, _, rfl, by decide⟩
      | none => exact ⟨_, _, _, rfl, by decide⟩

/-- What is written never starts like a mark. -/
theorem unmarked_written (items : List StreamItem) : ¬ Marked (written items) := by
  have hstart : written items = [] ∨ ∃ c rest, written items = c :: rest ∧ c.val < 0x80 := by
    cases items with
    | nil => exact .inl rfl
    | cons item items =>
      obtain ⟨c, line, rest, hlines, hc⟩ := head_lines item
      refine .inr ⟨c, line ++ 0x0A :: terminate (rest ++ writtenLines items), ?_, hc⟩
      rw [written, writtenLines, List.flatMap_cons, hlines, List.cons_append, terminate, List.flatMap_cons,
        List.cons_append, List.cons_append, List.append_assoc]
      rfl
  intro hmarked
  rcases hstart with hnil | ⟨c, rest, hcons, hc⟩
  · rw [hnil] at hmarked
    exact absurd hmarked (by decide)
  · rw [hcons] at hmarked
    rcases marked_cases hmarked with ⟨rest', h⟩ | ⟨rest', h⟩
    · rw [List.cons.inj h |>.1] at hc
      exact absurd hc (by decide)
    · rw [List.cons.inj h |>.1] at hc
      exact absurd hc (by decide)

end ConfigDirector.EventSource
