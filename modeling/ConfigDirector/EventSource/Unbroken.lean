/-
No stream breaks the connection except an oversized one, as long as every retry line that is read holds
a number that `int` converts and that is a float. The calls of a retry are the only ones that raise.
-/
import ConfigDirector.EventSource.Session

namespace ConfigDirector.EventSource

open Python

/-! ## What is read of an oversized stream -/

/-- The lines before the first that makes an event too large, `used` characters of it so far. -/
def readable (o : Options) (used : ℕ) : List Text → List Text
  | [] => []
  | line :: lines =>
    if used + dataCost (.ofText line) ≤ o.maxEventChars then
      line :: readable o (Parser.usedAfter used (.ofText line)) lines
    else []

theorem readable_leading (o : Options) : ∀ (used : ℕ) (lines : List Text), readable o used lines <+: lines
  | _, [] => List.prefix_refl _
  | used, line :: lines => by
    rw [readable]
    split
    · exact (List.prefix_cons_inj line).2 (readable_leading o _ lines)
    · exact List.nil_prefix

theorem readable_mono (o : Options) : ∀ (used : ℕ) {lines lines' : List Text}, lines' <+: lines →
    readable o used lines' <+: readable o used lines
  | _, _, [], _ => List.nil_prefix
  | _, [], _ :: _, h => absurd h.length_le (by simp)
  | used, line :: lines, line' :: lines', h => by
    obtain ⟨rfl, hlines⟩ := List.cons_prefix_cons.1 h
    rw [readable, readable]
    split
    · exact (List.prefix_cons_inj line').2 (readable_mono o _ hlines)
    · exact List.prefix_refl _

theorem readAll_append (o : Options) (q : Pending) (lines lines' : List Text) :
    (q.readAll o (lines ++ lines')).2 = (q.readAll o lines).2 ++ ((q.readAll o lines).1.readAll o lines').2 := by
  induction lines generalizing q with
  | nil => rfl
  | cons line lines ih => simp only [List.cons_append, Pending.readAll, ih, List.append_assoc]

theorem readAll_leading (o : Options) (q : Pending) {lines lines' : List Text} (h : lines' <+: lines) :
    (q.readAll o lines').2 <+: (q.readAll o lines).2 := by
  obtain ⟨rest, rfl⟩ := h
  rw [readAll_append]
  exact List.prefix_append _ _

namespace Parser

theorem dispatchLine_tooLarge {o : Options} {p : Parser} {q : Pending} {used : ℕ} (h : Collects p q used)
    (line : Text) (hcost : ¬ used + dataCost (.ofText line) ≤ o.maxEventChars) (hused : used ≤ o.maxEventChars) :
    ∃ message, p.dispatchLine o line = .error (.tooLarge message) := by
  have hdata : dataCost (.ofText line) ≠ 0 := by omega
  by_cases hcomment : line.head? = some 0x3A
  · rw [ofText_comment hcomment] at hdata
    exact absurd rfl hdata
  · by_cases hblank : line = []
    · subst hblank
      exact absurd rfl hdata
    · have hfield := ofText_field hblank hcomment
      rw [dispatchLine_field o p hblank hcomment]
      rw [hfield] at hcost hdata
      simp only [dataCost] at hcost hdata
      split at hdata
      · rename_i hname
        rw [if_pos hname] at hcost
        have hevent : lit "data" ≠ lit "event" := by decide
        unfold applyField
        rw [hname, if_neg hevent, if_pos rfl, h.used]
        simp only
        rw [if_pos (by omega)]
        exact ⟨_, rfl⟩
      · exact absurd rfl hdata

theorem dispatchLine_valueError {o : Options} {p : Parser} (line : Text) (honRetry : o.onRetry = true)
    (hretry : ¬ RetryFits o (.ofText line)) : p.dispatchLine o line = .error .valueError := by
  by_cases hcomment : line.head? = some 0x3A
  · rw [ofText_comment hcomment] at hretry
    exact absurd trivial hretry
  · by_cases hblank : line = []
    · subst hblank
      exact absurd trivial hretry
    · have hfield := ofText_field hblank hcomment
      rw [dispatchLine_field o p hblank hcomment]
      rw [hfield] at hretry
      simp only [RetryFits, Classical.not_imp, not_le] at hretry
      obtain ⟨hname, hdigits, hlong⟩ := hretry
      have hevent : lit "retry" ≠ lit "event" := by decide
      have hdata : lit "retry" ≠ lit "data" := by decide
      have hid : lit "retry" ≠ lit "id" := by decide
      unfold applyField
      rw [hname, if_neg hevent, if_neg hdata, if_neg hid, if_pos rfl, hdigits, honRetry]
      simp [hlong]

/-- Lines with retries that `int` converts are read up to the first that makes an event too large. -/
theorem dispatchLines_readable {o : Options} : ∀ {lines : List Text} {p : Parser} {q : Pending} {used : ℕ},
    Collects p q used → used ≤ o.maxEventChars →
    (∀ line ∈ readable o used lines, RetryFits o (.ofText line)) →
    (readable o used lines = lines ∧ ∃ p', p.dispatchLines o lines = ⟨(q.readAll o lines).2, .ok p'⟩) ∨
      ∃ message, p.dispatchLines o lines = ⟨(q.readAll o (readable o used lines)).2, .error (.tooLarge message)⟩
  | [], p, _, _, _, _, _ => .inl ⟨rfl, p, rfl⟩
  | line :: lines, p, q, used, h, hused, hretry => by
    rw [readable] at hretry ⊢
    by_cases hcost : used + dataCost (.ofText line) ≤ o.maxEventChars
    · rw [if_pos hcost] at hretry ⊢
      obtain ⟨p', hp', hcollects⟩ := dispatchLine_read h line hcost (hretry line (List.mem_cons_self ..))
      have hused' : usedAfter used (.ofText line) ≤ o.maxEventChars := by
        unfold usedAfter
        split <;> omega
      rcases dispatchLines_readable hcollects hused' fun l hl => hretry l (List.mem_cons_of_mem _ hl) with
        ⟨hall, p'', hp''⟩ | ⟨message, hlarge⟩
      · refine .inl ⟨by rw [hall], p'', ?_⟩
        rw [dispatchLines, hp']
        simp only [Fed.andThen, hp'', Pending.readAll]
      · refine .inr ⟨message, ?_⟩
        rw [dispatchLines, hp']
        simp only [Fed.andThen, hlarge, Pending.readAll]
    · rw [if_neg hcost]
      obtain ⟨message, hlarge⟩ := dispatchLine_tooLarge h line hcost hused
      refine .inr ⟨message, ?_⟩
      rw [dispatchLines, hlarge]
      rfl

/-- A retry that `int` does not convert raises once it is read. -/
theorem dispatchLines_valueError {o : Options} (honRetry : o.onRetry = true) :
    ∀ {lines : List Text} {p : Parser} {q : Pending} {used : ℕ}, Collects p q used →
    (∃ line ∈ readable o used lines, ¬ RetryFits o (.ofText line)) →
    (p.dispatchLines o lines).result = .error .valueError
  | [], _, _, _, _, ⟨_, hline, _⟩ => by cases hline
  | line :: lines, p, q, used, h, hretry => by
    rw [readable] at hretry
    by_cases hcost : used + dataCost (.ofText line) ≤ o.maxEventChars
    · rw [if_pos hcost] at hretry
      rw [dispatchLines]
      by_cases hline : RetryFits o (.ofText line)
      · obtain ⟨p', hp', hcollects⟩ := dispatchLine_read h line hcost hline
        obtain ⟨l, hl, hretry⟩ := hretry
        rcases List.mem_cons.1 hl with rfl | hl
        · exact absurd hline hretry
        · rw [hp']
          simp only
          rw [Fed.andThen_ok rfl]
          exact dispatchLines_valueError honRetry hcollects ⟨l, hl, hretry⟩
      · rw [dispatchLine_valueError line honRetry hline]
    · rw [if_neg hcost] at hretry
      obtain ⟨l, hl, -⟩ := hretry
      cases hl

end Parser

/-! ## The text heard -/

/-- The texts of the chunks, with what the end of the stream completes. -/
def texts (decoder : Decoder) : List Bytes → List Text
  | [] => [decoder.finish]
  | chunk :: chunks => (decoder.decode chunk).2 :: texts (decoder.decode chunk).1 chunks

/-- The texts of the chunks, the first without a mark it holds whole. -/
def heardTexts : List Bytes → List Text
  | [] => [Decoder.start.finish]
  | chunk :: chunks => Parser.stripBom (Decoder.start.decode chunk).2 :: texts (Decoder.start.decode chunk).1 chunks

/-- The text of which every line is read. -/
def heardText (chunks : List Bytes) : Text := (heardTexts chunks).flatten

theorem texts_flatten : ∀ (chunks : List Bytes) (decoder : Decoder),
    (texts decoder chunks).flatten = (decoder.decode chunks.flatten).2 ++ (decoder.decode chunks.flatten).1.finish
  | [], decoder => by simp [texts]
  | chunk :: chunks, decoder => by
    rw [texts, List.flatten_cons, List.flatten_cons, texts_flatten chunks, Decoder.decode_append, List.append_assoc]

theorem readFrom_eq (o : Options) : ∀ (chunks : List Bytes) (decoder : Decoder) (p : Parser),
    readFrom o decoder p chunks = (p.feedAll o (texts decoder chunks)).andThen fun p => ⟨[], .ok p.finish⟩
  | [], decoder, p => by
    rw [readFrom, texts, Parser.feedAll, Fed.andThen_assoc]
    rfl
  | chunk :: chunks, decoder, p => by
    rw [readFrom, texts, Parser.feedAll, Fed.andThen_assoc]
    congr 1
    funext p'
    exact readFrom_eq o chunks _ p'

theorem read_eq (o : Options) (chunks : List Bytes) :
    read o chunks = (Parser.started.feedAll o (heardTexts chunks)).andThen fun p => ⟨[], .ok p.finish⟩ := by
  rw [read, readFrom_eq]
  cases chunks with
  | nil => rfl
  | cons chunk chunks => rfl

/-- What the end of the stream completes ends no line. -/
theorem terminatedLines_finish (text : Text) (decoder : Decoder) :
    terminatedLines (text ++ decoder.finish) = terminatedLines text := by
  have hfinish : ∀ s : Splitter, (s.run decoder.finish).2 = [] := by
    intro s
    unfold Decoder.finish
    rcases decoder.lost_cases with h | h | h <;>
      simp [h, Splitter.run, Splitter.step, isLineEnd, Decoder.replacement]
  rw [terminatedLines_eq_run, terminatedLines_eq_run, Splitter.run_append, hfinish, List.append_nil]

theorem marked_cases {text : Text} (h : Marked text) :
    (∃ rest, text = 0xFEFF :: rest) ∨ ∃ rest, text = 0xEF :: 0xBB :: 0xBF :: rest := by
  rcases h with h | h
  · obtain ⟨rest, rfl⟩ := List.isPrefixOf_iff_prefix.1 h
    exact .inl ⟨rest, rfl⟩
  · obtain ⟨rest, rfl⟩ := List.isPrefixOf_iff_prefix.1 h
    exact .inr ⟨rest, rfl⟩

theorem stripBom_append {text : Text} (h : Marked text) (rest : Text) :
    Parser.stripBom (text ++ rest) = Parser.stripBom text ++ rest := by
  rcases marked_cases h with ⟨text, rfl⟩ | ⟨text, rfl⟩
  · simp [Parser.stripBom, startsWith]
  · simp [Parser.stripBom, startsWith]

theorem stripBom_of_unmarked {text : Text} (h : ¬ Marked text) : Parser.stripBom text = text := by
  unfold Parser.stripBom
  rw [if_neg fun hm => h (.inl hm), if_neg fun hm => h (.inr hm)]

/-- What the end of the stream completes is not a mark, or the end of one. -/
theorem marked_finish {text : Text} {decoder : Decoder} (h : Marked (text ++ decoder.finish)) : Marked text := by
  have hreplaced : ∀ {text : Text}, Marked (text ++ [Decoder.replacement]) → Marked text := by
    intro text h
    have hleading : ∀ mark : Text, mark.getLast? ≠ some Decoder.replacement →
        startsWith (text ++ [Decoder.replacement]) mark = true → startsWith text mark = true := by
      intro mark hlast hm
      unfold startsWith at hm ⊢
      rw [List.isPrefixOf_iff_prefix] at hm ⊢
      rcases List.prefix_concat_iff.1 hm with rfl | hm
      · exact absurd (List.getLast?_concat ..) hlast
      · exact hm
    exact h.imp (hleading _ (by decide)) (hleading _ (by decide))
  unfold Decoder.finish at h
  rcases decoder.lost_cases with hlost | hlost | hlost <;> rw [hlost] at h
  · rw [List.append_nil] at h
    exact h
  · exact hreplaced h
  · rw [← List.singleton_append, ← List.append_assoc] at h
    exact hreplaced (hreplaced h)

/-- The text heard is the text of the stream, with the mark in front or without it. -/
theorem heardText_cases (chunks : List Bytes) : heardText chunks = decodeReplace chunks.flatten ∨
    heardText chunks = Parser.stripBom (decodeReplace chunks.flatten) := by
  cases chunks with
  | nil => exact .inl rfl
  | cons chunk chunks =>
    have hflatten : decodeReplace (chunk :: chunks).flatten =
        (Decoder.start.decode chunk).2 ++ (texts (Decoder.start.decode chunk).1 chunks).flatten := by
      rw [texts_flatten, List.flatten_cons, decodeReplace, Decoder.decode_append, List.append_assoc]
    rw [hflatten, heardText, heardTexts, List.flatten_cons]
    by_cases hmarked : Marked (Decoder.start.decode chunk).2
    · exact .inr (stripBom_append hmarked _).symm
    · exact .inl (by rw [stripBom_of_unmarked hmarked])

theorem bare_started : Parser.Bare .started := ⟨rfl, rfl, rfl, rfl⟩

theorem collects_started : Parser.Collects .started .start 0 := ⟨rfl, rfl, rfl, rfl⟩

/-- A text fed whole hands over every line that ends in it. -/
theorem feedAll_first (o : Options) (text : Text) (rest : List Text) :
    ∃ f, Parser.started.feedAll o (text :: rest) = (Parser.started.dispatchLines o (terminatedLines text)).andThen f := by
  have hfeed : Parser.started.feed o text = (Parser.started.buffered [] false).feedChunk o text := rfl
  have hchunk := Parser.feedChunk_eq (o := o) bare_started [] false text (fun h => by cases h)
    (Prod.mk.eta (p := Splitter.start.run text)).symm
  rw [Parser.feedAll, hfeed, terminatedLines_eq_run]
  rcases hchunk with ⟨parts, -, hchunk⟩ | ⟨-, message, hchunk⟩
  · rw [hchunk, Fed.andThen_assoc]
    exact ⟨_, rfl⟩
  · rw [hchunk, Fed.andThen_assoc]
    exact ⟨_, rfl⟩

/-- Of a stream in one chunk every line is read, and so it is, with the mark, behind an empty chunk. -/
theorem read_whole (o : Options) (stream : Bytes) {text : Text}
    (htext : text = decodeReplace stream ∨ text = Parser.stripBom (decodeReplace stream)) :
    ∃ chunks : List Bytes, chunks.flatten = stream ∧
      ∃ f, read o chunks = (Parser.started.dispatchLines o (terminatedLines text)).andThen f := by
  rcases htext with rfl | rfl
  · refine ⟨[[], stream], by simp, ?_⟩
    have hempty : Parser.started.feedAll o ([] :: texts .start [stream]) = Parser.started.feedAll o (texts .start [stream]) := by
      rw [Parser.feedAll]
      rfl
    obtain ⟨f, hfeed⟩ := feedAll_first o (Decoder.start.decode stream).2 [(Decoder.start.decode stream).1.finish]
    rw [read_eq, decodeReplace, terminatedLines_finish]
    change ∃ f, Fed.andThen (Parser.started.feedAll o ([] :: texts .start [stream])) _ = _
    rw [hempty, texts, texts, hfeed, Fed.andThen_assoc]
    exact ⟨_, rfl⟩
  · refine ⟨[stream], by simp, ?_⟩
    have hstrip : Parser.stripBom (decodeReplace stream) =
        Parser.stripBom (Decoder.start.decode stream).2 ++ (Decoder.start.decode stream).1.finish := by
      rw [decodeReplace]
      by_cases hmarked : Marked (Decoder.start.decode stream).2
      · exact stripBom_append hmarked _
      · rw [stripBom_of_unmarked hmarked, stripBom_of_unmarked fun h => hmarked (marked_finish h)]
    obtain ⟨f, hfeed⟩ := feedAll_first o (Parser.stripBom (Decoder.start.decode stream).2)
      [(Decoder.start.decode stream).1.finish]
    rw [read_eq, hstrip, terminatedLines_finish, heardTexts, texts, hfeed, Fed.andThen_assoc]
    exact ⟨_, rfl⟩

/-! ## What a read makes of its lines -/

/-- The calls of a read whose retries `int` converts are those of the lines before an oversized one. -/
theorem read_outcome {o : Options} {chunks : List Bytes}
    (hfits : ∀ line ∈ readable o 0 (terminatedLines (heardText chunks)), RetryFits o (.ofText line)) :
    ∃ lines, lines <+: readable o 0 (terminatedLines (heardText chunks)) ∧
      (read o chunks).calls = (Pending.start.readAll o lines).2 ∧
      ((lines = terminatedLines (heardText chunks) ∧ ∃ p, (read o chunks).result = .ok p) ∨
        ∃ message, (read o chunks).result = .error (.tooLarge message)) := by
  have hfeed := Parser.feedAll_eq (o := o) (heardTexts chunks) bare_started [] false (fun h => by cases h)
    (Prod.mk.eta (p := Splitter.start.run (heardText chunks))).symm
  rw [bare_started.buffered_nil, ← terminatedLines_eq_run] at hfeed
  rw [read_eq]
  rcases hfeed with ⟨parts, hfeed⟩ | ⟨lines', hleading, -, message, hfeed⟩
  · rw [hfeed]
    rcases Parser.dispatchLines_readable collects_started (Nat.zero_le _) hfits with ⟨hall, p, hp⟩ | ⟨message, hlarge⟩
    · rw [hp]
      refine ⟨_, List.prefix_refl _, ?_, .inl ⟨hall, ?_⟩⟩
      · rw [hall]
        simp [Fed.andThen]
      · exact ⟨_, rfl⟩
    · rw [hlarge]
      exact ⟨_, List.prefix_refl _, rfl, .inr ⟨message, rfl⟩⟩
  · -- a line begun was too long
    rw [hfeed]
    have hreadable := readable_mono o 0 hleading
    rcases Parser.dispatchLines_readable collects_started (Nat.zero_le _)
      (fun line hl => hfits line (hreadable.subset hl)) with ⟨hall, p, hp⟩ | ⟨message, hlarge⟩
    · rw [hp]
      refine ⟨lines', by rw [← hall]; exact hreadable, ?_, .inr ⟨message, rfl⟩⟩
      simp [Fed.andThen]
    · rw [hlarge]
      exact ⟨_, hreadable, rfl, .inr ⟨message, rfl⟩⟩

/-! ## Retries -/

/-- A retry value that `int` converts, and that is a float. -/
def RetryUsable (o : Options) : Line → Prop
  | .field name value => name = lit "retry" → isAsciiDigits value = true →
    value.length ≤ o.maxDigits ∧ (PyFloat.ofInt? (digitsToNat value)).isSome = true
  | _ => True

theorem RetryUsable.fits {o : Options} {line : Line} (h : RetryUsable o line) : RetryFits o line := by
  cases line with
  | field name value => exact fun hname hdigits => (h hname hdigits).1
  | comment text => trivial
  | blank => trivial

/-- The calls of a line are applicable if its retry is usable. -/
theorem RetryUsable.applicable {o : Options} {line : Line} (h : RetryUsable o line) (q : Pending) :
    ∀ call ∈ (q.read o line).2, call.Applicable := by
  intro call hcall
  cases line with
  | blank =>
    unfold Pending.read at hcall
    simp only at hcall
    split at hcall
    · rw [List.mem_singleton.1 hcall]
      trivial
    · cases hcall
  | comment text =>
    unfold Pending.read at hcall
    simp only at hcall
    split at hcall
    · rw [List.mem_singleton.1 hcall]
      trivial
    · cases hcall
  | field name value =>
    unfold Pending.read at hcall
    simp only at hcall
    split at hcall
    · cases hcall
    · split at hcall
      · cases hcall
      · split at hcall
        · split at hcall <;> cases hcall
        · split at hcall
          · rename_i hname
            split at hcall
            · rename_i hdigits
              rw [List.mem_singleton.1 hcall]
              exact (h hname hdigits.1).2
            · cases hcall
          · cases hcall

theorem applicable_of_usable {o : Options} : ∀ {lines : List Text} (q : Pending),
    (∀ line ∈ lines, RetryUsable o (.ofText line)) → ∀ call ∈ (q.readAll o lines).2, call.Applicable
  | [], _, _, _, hcall => by cases hcall
  | line :: lines, q, h, call, hcall => by
    rw [List.forall_mem_cons] at h
    rw [Pending.readAll] at hcall
    rcases List.mem_append.1 hcall with hcall | hcall
    · exact h.1.applicable q call hcall
    · exact applicable_of_usable _ h.2 call hcall

/-- A retry that `int` converts and that is no float makes a call that raises. -/
theorem exists_notApplicable {o : Options} (honRetry : o.onRetry = true) : ∀ {lines : List Text} (q : Pending),
    (∃ line ∈ lines, RetryFits o (.ofText line) ∧ ¬ RetryUsable o (.ofText line)) →
    ∃ call ∈ (q.readAll o lines).2, ¬ call.Applicable
  | [], _, ⟨_, hline, _⟩ => by cases hline
  | line :: lines, q, ⟨l, hl, hfits, husable⟩ => by
    rw [Pending.readAll]
    rcases List.mem_cons.1 hl with rfl | hl
    · cases hline : Line.ofText l with
      | blank => exact absurd (by rw [hline]; trivial) husable
      | comment text => exact absurd (by rw [hline]; trivial) husable
      | field name value =>
        rw [hline] at hfits husable
        simp only [RetryUsable, Classical.not_imp] at husable
        obtain ⟨rfl, hdigits, hvalue⟩ := husable
        have hfloat : ¬ (PyFloat.ofInt? (digitsToNat value)).isSome = true := fun hx => hvalue ⟨hfits rfl hdigits, hx⟩
        have hevent : lit "retry" ≠ lit "event" := by decide
        have hdata : lit "retry" ≠ lit "data" := by decide
        have hid : lit "retry" ≠ lit "id" := by decide
        refine ⟨.retry (digitsToNat value), List.mem_append_left _ ?_, hfloat⟩
        simp [Pending.read, hevent, hdata, hid, hdigits, honRetry]
    · obtain ⟨call, hcall, happ⟩ := exists_notApplicable honRetry (q.read o (.ofText line)).1 ⟨l, hl, hfits, husable⟩
      exact ⟨call, List.mem_append_right _ hcall, happ⟩

/-! ## Streams -/

/-- A read raises nothing but `StreamTooLargeError`, and every line is applied or ignored: of a stream
that is not too large all of them, of another those read before. -/
structure Unbroken (h : Handlers) (o : Options) (s : Session) (chunks : List Bytes) : Prop where
  raised : ∀ e, (s.read h o chunks).2 = some e → ∃ message, e = .stream (.tooLarge message)
  applied : ∃ calls, calls <+: reference o (heardText chunks) ∧
    (s.read h o chunks).1 = calls.foldl (Session.applied h) s
  delivered : (s.read h o chunks).2 = none →
    (s.read h o chunks).1 = (reference o (heardText chunks)).foldl (Session.applied h) s

theorem unbroken_of_usable {h : Handlers} {o : Options} {s : Session} {chunks : List Bytes}
    (husable : ∀ line ∈ readable o 0 (terminatedLines (heardText chunks)), RetryUsable o (.ofText line)) :
    Unbroken h o s chunks := by
  obtain ⟨lines, hleading, hcalls, houtcome⟩ := read_outcome fun line hline => (husable line hline).fits
  have happlicable : ∀ call ∈ (read o chunks).calls, call.Applicable := by
    rw [hcalls]
    exact applicable_of_usable _ fun line hline => husable line (hleading.subset hline)
  obtain ⟨hsession, hok, herror⟩ := Session.receive_applicable h s _ happlicable
  have hreference : (read o chunks).calls <+: reference o (heardText chunks) := by
    rw [hcalls, reference]
    exact readAll_leading o _ (hleading.trans (readable_leading o _ _))
  rcases houtcome with ⟨hall, p, hp⟩ | ⟨message, hlarge⟩
  · refine ⟨fun e he => ?_, ⟨_, hreference, hsession⟩, fun _ => ?_⟩
    · rw [Session.read, hok p hp] at he
      cases he
    · rw [Session.read, hsession, hcalls, hall]
      rfl
  · refine ⟨fun e he => ?_, ⟨_, hreference, hsession⟩, fun hnone => ?_⟩
    · rw [Session.read, herror _ hlarge] at he
      cases he
      exact ⟨message, rfl⟩
    · rw [Session.read, herror _ hlarge] at hnone
      cases hnone

/-- Work fed after a retry that is not usable has been read changes nothing: it has raised. -/
theorem raises_of_unusable {h : Handlers} {o : Options} {s : Session} (honRetry : o.onRetry = true) {lines : List Text}
    (hline : ∃ line ∈ readable o 0 lines, ¬ RetryUsable o (.ofText line)) (f : Parser → Fed) :
    ∃ e, (s.receive h ((Parser.started.dispatchLines o lines).andThen f)).2 = some e ∧
      ∀ message, e ≠ .stream (.tooLarge message) := by
  by_cases hfits : ∀ line ∈ readable o 0 lines, RetryFits o (.ofText line)
  · -- every retry is converted, and one of them is no float
    obtain ⟨line, hmem, husable⟩ := hline
    obtain ⟨call, hcall, happ⟩ := exists_notApplicable honRetry .start ⟨line, hmem, hfits line hmem, husable⟩
    have hcalls : (Parser.started.dispatchLines o lines).calls = (Pending.start.readAll o (readable o 0 lines)).2 := by
      rcases Parser.dispatchLines_readable collects_started (Nat.zero_le _) hfits with ⟨hall, p, hp⟩ | ⟨message, hlarge⟩
      · rw [hp, hall]
      · rw [hlarge]
    refine ⟨.overflowError, Session.receive_notApplicable h s ⟨call, ?_, happ⟩, fun _ he => by cases he⟩
    rw [← hcalls] at hcall
    unfold Fed.andThen
    split
    · exact List.mem_append_left _ hcall
    · exact hcall
  · push Not at hfits
    have hresult := Parser.dispatchLines_valueError honRetry collects_started hfits
    rw [Fed.andThen_error hresult]
    by_cases happ : ∀ call ∈ (Parser.started.dispatchLines o lines).calls, call.Applicable
    · obtain ⟨-, -, herror⟩ := Session.receive_applicable h s
        ⟨(Parser.started.dispatchLines o lines).calls, .error .valueError⟩ happ
      exact ⟨_, herror _ rfl, fun _ he => by cases he⟩
    · push Not at happ
      exact ⟨.overflowError, Session.receive_notApplicable h s happ, fun _ he => by cases he⟩

/-- The handlers the client gives the parser, the limits, and the digit limit of the interpreter. -/
def clientOptions (maxLineChars maxEventChars maxDigits : ℕ) : Options :=
  ⟨true, true, true, maxLineChars, maxEventChars, maxDigits⟩

/-- Every retry line that is read of the text, before an oversized event, is usable. -/
def RetriesUsable (o : Options) (text : Text) : Prop :=
  ∀ line ∈ readable o 0 (terminatedLines text), RetryUsable o (.ofText line)

/-- However it is cut, a stream breaks the connection only where it is too large, if and only if every
retry line read of it, with a mark in front or without it, is usable. -/
theorem read_unbroken_iff (h : Handlers) (maxLineChars maxEventChars maxDigits : ℕ) (s : Session) (stream : Bytes) :
    (∀ chunks : List Bytes, chunks.flatten = stream →
      Unbroken h (clientOptions maxLineChars maxEventChars maxDigits) s chunks) ↔
    RetriesUsable (clientOptions maxLineChars maxEventChars maxDigits) (decodeReplace stream) ∧
      RetriesUsable (clientOptions maxLineChars maxEventChars maxDigits) (Parser.stripBom (decodeReplace stream)) := by
  constructor
  · intro hall
    have husable : ∀ text, text = decodeReplace stream ∨ text = Parser.stripBom (decodeReplace stream) →
        RetriesUsable (clientOptions maxLineChars maxEventChars maxDigits) text := by
      intro text htext
      by_contra hline
      simp only [RetriesUsable, not_forall, exists_prop] at hline
      obtain ⟨chunks, hflatten, f, hread⟩ := read_whole (clientOptions maxLineChars maxEventChars maxDigits) stream htext
      obtain ⟨e, hraised, hother⟩ := raises_of_unusable (h := h) (s := s) rfl hline f
      rw [← hread] at hraised
      obtain ⟨message, hlarge⟩ := (hall chunks hflatten).raised e hraised
      exact hother message hlarge
    exact ⟨husable _ (.inl rfl), husable _ (.inr rfl)⟩
  · rintro ⟨hmarked, hstripped⟩ chunks rfl
    apply unbroken_of_usable
    rcases heardText_cases chunks with htext | htext
    · rw [htext]
      exact hmarked
    · rw [htext]
      exact hstripped

/-- A retry of ten to the power `zeros` milliseconds, with an event behind it. -/
def longRetry (zeros : ℕ) : Bytes :=
  [0x72, 0x65, 0x74, 0x72, 0x79, 0x3A, 0x20, 0x31] ++ List.replicate zeros 0x30 ++ [0x0A] ++ sampleEvent

/-- A retry past the largest float breaks the connection. -/
theorem long_retry_breaks : ¬ ∀ (h : Handlers) (s : Session) (chunks : List Bytes),
    Unbroken h (clientOptions (2 ^ 20) (2 ^ 24) 4300) s chunks := by
  intro hall
  have hbroken := hall ⟨none, none⟩ ⟨none, .ofRat 2, [], []⟩ [longRetry 400]
  obtain ⟨message, hlarge⟩ := hbroken.raised .overflowError (by decide +kernel)
  cases hlarge

end ConfigDirector.EventSource
