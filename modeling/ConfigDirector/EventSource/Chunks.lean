/-
Feeding a text in chunks makes the calls of the reference. A line is read as the reference reads it;
a chunk hands over the lines that end in it and buffers the one begun; so some chunks hand over the
lines of the text they are cut from.
-/
import ConfigDirector.EventSource.Lines

namespace ConfigDirector.EventSource

open Python

/-! ## One line -/

theorem take_idxOf (c : CodePoint) : ∀ line : Text, line.take (line.idxOf c) = line.takeWhile (· ≠ c)
  | [] => rfl
  | d :: line => by
    rw [List.idxOf_cons, List.takeWhile_cons]
    by_cases h : d = c
    · simp [h]
    · have hb : (d == c) = false := by simpa using h
      rw [hb, cond_false, List.take_succ_cons, take_idxOf c line, if_pos (by simpa using h)]

theorem drop_idxOf (c : CodePoint) : ∀ line : Text, line.drop (line.idxOf c) = line.dropWhile (· ≠ c)
  | [] => rfl
  | d :: line => by
    rw [List.idxOf_cons, List.dropWhile_cons]
    by_cases h : d = c
    · simp [h]
    · have hb : (d == c) = false := by simpa using h
      rw [hb, cond_false, List.drop_succ_cons, drop_idxOf c line, if_pos (by simpa using h)]

theorem fieldValue_eq (line : Text) (start : ℕ) : fieldValue line start = dropSpace (line.drop start) := rfl

theorem ofText_comment {line : Text} (h : line.head? = some 0x3A) :
    Line.ofText line = .comment (fieldValue line 1) := by
  cases line with
  | nil => cases h
  | cons c line =>
    rw [List.head?_cons, Option.some.injEq] at h
    subst h
    rfl

theorem ofText_field {line : Text} (hne : line ≠ []) (h : line.head? ≠ some 0x3A) :
    Line.ofText line =
      .field (line.take (line.idxOf 0x3A)) (fieldValue line (line.idxOf 0x3A + 1)) := by
  have hname : line.takeWhile (· ≠ 0x3A) ≠ [] := by
    cases line with
    | nil => exact absurd rfl hne
    | cons c line =>
      have hc : c ≠ 0x3A := fun hc => h (congrArg some hc)
      simp [hc]
  unfold Line.ofText
  simp only [if_neg hne, if_neg hname]
  rw [take_idxOf, fieldValue_eq, ← List.drop_drop, drop_idxOf]

namespace Parser

/-- What a line that is no comment and not blank does. -/
theorem dispatchLine_field (o : Options) (p : Parser) {line : Text} (hne : line ≠ [])
    (h : line.head? ≠ some 0x3A) : p.dispatchLine o line =
      p.applyField o (line.take (line.idxOf 0x3A)) (fieldValue line (line.idxOf 0x3A + 1)) := by
  have hempty : line.isEmpty = false := by
    cases line with
    | nil => exact absurd rfl hne
    | cons c line => rfl
  unfold dispatchLine
  rw [if_neg h, hempty, if_neg Bool.false_ne_true]
  simp only
  split
  · rename_i hcolon
    rw [hcolon, List.take_length, fieldValue, List.drop_eq_nil_of_le (by omega)]
  · rfl

/-- The parser collects the event the reference collects, with its size. -/
structure Collects (p : Parser) (q : Pending) (used : ℕ) : Prop where
  data : p.dataParts = q.data
  type : p.eventType = q.type
  id : p.lastEventId = q.id
  used : p.dataLen = used

/-- The parts of a parser that reading a line leaves alone. -/
structure SameBuffers (p p' : Parser) : Prop where
  firstChunk : p'.firstChunk = p.firstChunk
  lineParts : p'.lineParts = p.lineParts
  lineLen : p'.lineLen = p.lineLen
  pendingLf : p'.pendingLf = p.pendingLf

theorem SameBuffers.refl (p : Parser) : SameBuffers p p := ⟨rfl, rfl, rfl, rfl⟩

theorem SameBuffers.trans {p p' p'' : Parser} (h : SameBuffers p p') (h' : SameBuffers p' p'') :
    SameBuffers p p'' :=
  ⟨h'.firstChunk.trans h.firstChunk, h'.lineParts.trans h.lineParts, h'.lineLen.trans h.lineLen,
    h'.pendingLf.trans h.pendingLf⟩

theorem applyField_sameBuffers {o : Options} {p p' : Parser} {name value : Text} {calls : List Call}
    (h : p.applyField o name value = .ok (p', calls)) : SameBuffers p p' := by
  unfold applyField at h
  split at h
  · cases h; exact ⟨rfl, rfl, rfl, rfl⟩
  · split at h
    · simp only at h
      split at h
      · cases h
      · cases h; exact ⟨rfl, rfl, rfl, rfl⟩
    · split at h
      · split at h <;> cases h <;> exact ⟨rfl, rfl, rfl, rfl⟩
      · split at h
        · split at h
          · split at h <;> cases h
            exact .refl p
          · cases h; exact .refl p
        · cases h; exact .refl p

theorem dispatchLine_sameBuffers {o : Options} {p p' : Parser} {line : Text} {calls : List Call}
    (h : p.dispatchLine o line = .ok (p', calls)) : SameBuffers p p' := by
  unfold dispatchLine at h
  split at h
  · cases h; exact .refl p
  · split at h
    · cases h; exact ⟨rfl, rfl, rfl, rfl⟩
    · simp only at h
      split at h <;> exact applyField_sameBuffers h

/-- The size of the event after a line. -/
def usedAfter (used : ℕ) (line : Line) : ℕ := if line = .blank then 0 else used + dataCost line

theorem applyField_read {o : Options} {p : Parser} {q : Pending} {used : ℕ} (h : Collects p q used)
    {name value : Text} (hcost : used + dataCost (.field name value) ≤ o.maxEventChars)
    (hretry : RetryFits o (.field name value)) :
    ∃ p', p.applyField o name value = .ok (p', (q.read o (.field name value)).2) ∧
      Collects p' (q.read o (.field name value)).1 (used + dataCost (.field name value)) := by
  unfold applyField Pending.read
  simp only
  by_cases hevent : name = lit "event"
  · have hdata : name ≠ lit "data" := by rw [hevent]; decide
    simp only [if_pos hevent]
    refine ⟨_, rfl, ⟨h.data, rfl, h.id, ?_⟩⟩
    simp only [dataCost, if_neg hdata]
    exact h.used
  · simp only [if_neg hevent]
    by_cases hdata : name = lit "data"
    · simp only [dataCost, if_pos hdata] at hcost ⊢
      rw [if_neg (by rw [h.used]; omega)]
      exact ⟨_, rfl, ⟨by rw [h.data], h.type, h.id, by rw [h.used]⟩⟩
    · simp only [dataCost, if_neg hdata, Nat.add_zero]
      by_cases hid : name = lit "id"
      · simp only [if_pos hid]
        by_cases hnul : 0 ∈ value
        · have hcontains : value.contains 0 = true := List.contains_iff_mem.2 hnul
          rw [if_pos hcontains, if_pos hnul]
          exact ⟨_, rfl, h⟩
        · have hcontains : ¬ value.contains 0 = true := fun hc => hnul (List.contains_iff_mem.1 hc)
          rw [if_neg hcontains, if_neg hnul]
          exact ⟨_, rfl, ⟨h.data, h.type, rfl, h.used⟩⟩
      · simp only [if_neg hid]
        by_cases hname : name = lit "retry"
        · simp only [if_pos hname]
          by_cases hdigits : isAsciiDigits value = true ∧ o.onRetry = true
          · rw [if_pos (Bool.and_eq_true _ _ ▸ hdigits), if_pos hdigits,
              if_neg (Nat.not_lt.2 (hretry hname hdigits.1))]
            exact ⟨_, rfl, h⟩
          · rw [if_neg (fun hc => hdigits ((Bool.and_eq_true _ _).mp hc)), if_neg hdigits]
            exact ⟨_, rfl, h⟩
        · simp only [if_neg hname]
          exact ⟨_, rfl, h⟩

/-- A line does to the parser what it does to the reference. -/
theorem dispatchLine_read {o : Options} {p : Parser} {q : Pending} {used : ℕ} (h : Collects p q used)
    (line : Text) (hcost : used + dataCost (.ofText line) ≤ o.maxEventChars)
    (hretry : RetryFits o (.ofText line)) :
    ∃ p', p.dispatchLine o line = .ok (p', (q.read o (.ofText line)).2) ∧
      Collects p' (q.read o (.ofText line)).1 (usedAfter used (.ofText line)) := by
  by_cases hcomment : line.head? = some 0x3A
  · have hread := ofText_comment hcomment
    rw [hread]
    unfold dispatchLine
    rw [if_pos hcomment]
    exact ⟨p, rfl, h⟩
  · by_cases hblank : line = []
    · subst hblank
      refine ⟨p.resetEvent, ?_, ⟨rfl, rfl, h.id, rfl⟩⟩
      have hdispatch : p.dispatchLine o [] = .ok (p.emitEvent o) := rfl
      rw [hdispatch]
      unfold emitEvent
      rw [h.data, h.type, h.id]
      simp only [Line.ofText, if_true, Pending.read, ne_eq]
      by_cases hdata : join [0x0A] q.data = [] <;> simp [hdata]
    · have hfield := ofText_field hblank hcomment
      rw [dispatchLine_field o p hblank hcomment, hfield]
      rw [hfield] at hcost hretry
      have hused : usedAfter used (.field (line.take (line.idxOf 0x3A)) (fieldValue line (line.idxOf 0x3A + 1))) =
          used + dataCost (.field (line.take (line.idxOf 0x3A)) (fieldValue line (line.idxOf 0x3A + 1))) := by
        unfold usedAfter
        rw [if_neg (by simp)]
      rw [hused]
      exact applyField_read h hcost hretry

/-! ## Some lines -/

/-- Lines read one after another. -/
def dispatchLines (o : Options) (p : Parser) : List Text → Fed
  | [] => ⟨[], .ok p⟩
  | line :: lines =>
    match p.dispatchLine o line with
    | .error e => ⟨[], .error e⟩
    | .ok (p, calls) => Fed.andThen ⟨calls, .ok p⟩ fun p => p.dispatchLines o lines

theorem dispatchLines_read {o : Options} : ∀ {lines : List Text} {p : Parser} {q : Pending} {used : ℕ},
    Collects p q used → EventsFit o used lines →
    (∀ line ∈ lines, RetryFits o (.ofText line)) →
    ∃ p', p.dispatchLines o lines = ⟨(q.readAll o lines).2, .ok p'⟩
  | [], p, _, _, _, _, _ => ⟨p, rfl⟩
  | line :: lines, p, q, used, h, hfit, hretry => by
    obtain ⟨p', hp', hcollects⟩ := dispatchLine_read h line hfit.1 (hretry line (List.mem_cons_self ..))
    obtain ⟨p'', hp''⟩ := dispatchLines_read hcollects hfit.2 fun l hl => hretry l (List.mem_cons_of_mem _ hl)
    refine ⟨p'', ?_⟩
    rw [dispatchLines, hp']
    simp only [Fed.andThen, hp'', Pending.readAll]

theorem dispatchLines_cons (o : Options) (p : Parser) (line : Text) (lines : List Text) :
    p.dispatchLines o (line :: lines) = (p.dispatchLines o [line]).andThen fun p => p.dispatchLines o lines := by
  rw [dispatchLines, dispatchLines]
  cases p.dispatchLine o line with
  | error e => rfl
  | ok r =>
    simp only [dispatchLines, Fed.andThen_assoc, Fed.ok_andThen]

theorem dispatchLines_append (o : Options) (p : Parser) : ∀ lines lines' : List Text,
    p.dispatchLines o (lines ++ lines') = (p.dispatchLines o lines).andThen fun p => p.dispatchLines o lines'
  | [], _ => rfl
  | line :: lines, lines' => by
    rw [List.cons_append, dispatchLines_cons, dispatchLines_cons o p line lines, Fed.andThen_assoc]
    congr 1
    funext p'
    exact dispatchLines_append o p' lines lines'

theorem dispatchLines_sameBuffers {o : Options} : ∀ {lines : List Text} {p p' : Parser},
    (p.dispatchLines o lines).result = .ok p' → SameBuffers p p'
  | [], p, p', h => by cases h; exact .refl p
  | line :: lines, p, p', h => by
    rw [dispatchLines] at h
    split at h
    · cases h
    · rename_i p₁ calls hline
      rw [Fed.andThen_ok rfl] at h
      exact (dispatchLine_sameBuffers hline).trans (dispatchLines_sameBuffers h)

/-! ## One chunk -/

/-- A parser past its first chunk with nothing buffered. -/
structure Bare (p : Parser) : Prop where
  firstChunk : p.firstChunk = false
  lineParts : p.lineParts = []
  lineLen : p.lineLen = 0
  pendingLf : p.pendingLf = false

theorem SameBuffers.bare {p p' : Parser} (h : SameBuffers p p') (hp : Bare p) : Bare p' :=
  ⟨h.firstChunk.trans hp.firstChunk, h.lineParts.trans hp.lineParts, h.lineLen.trans hp.lineLen,
    h.pendingLf.trans hp.pendingLf⟩

/-- The parser with a line begun, in fragments, or with a CR that may be half of a CRLF. -/
def buffered (p : Parser) (parts : List Text) (pendingLf : Bool) : Parser :=
  { p with lineParts := parts, lineLen := parts.flatten.length, pendingLf := pendingLf }

theorem Bare.buffered_nil {p : Parser} (h : Bare p) : p.buffered [] false = p := by
  obtain ⟨h₁, h₂, h₃, h₄⟩ := h
  cases p
  simp_all [buffered]

theorem finishLine_buffered (o : Options) {p : Parser} (h : Bare p) (parts : List Text) (fragment : Text) :
    (p.buffered parts false).finishLine o fragment = p.dispatchLine o (parts.flatten ++ fragment) := by
  cases parts with
  | nil =>
    rw [h.buffered_nil]
    unfold finishLine
    rw [h.lineParts]
    rfl
  | cons part parts =>
    have hbare : { p.buffered (part :: parts) false with lineParts := [], lineLen := 0 } = p := h.buffered_nil
    unfold finishLine
    rw [if_neg (by simp [buffered]), hbare]
    simp [buffered]

/-- The lines that end are handed over, and the one begun is buffered unless it is too long. -/
def HandsOver (o : Options) (p : Parser) (lines : List Text) (s : Splitter) (fed : Fed) : Prop :=
  (∃ parts, parts.flatten = s.line ∧
    fed = (p.dispatchLines o lines).andThen fun p => ⟨[], .ok (p.buffered parts s.afterCr)⟩) ∨
  o.maxLineChars < s.line.length ∧
    ∃ message, fed = (p.dispatchLines o lines).andThen fun _ => ⟨[], .error (.tooLarge message)⟩

/-- The loop hands over the lines that end. -/
theorem scan_eq {o : Options} : ∀ (rest : Text) {p : Parser} (_ : Bare p) (parts : List Text) (fragment : Text)
    (afterCr : Bool) {s' : Splitter} {lines : List Text}, (afterCr = true → parts.flatten ++ fragment = []) →
    (Splitter.mk (parts.flatten ++ fragment) afterCr).run rest = (s', lines) →
    HandsOver o p lines s' ((p.buffered parts false).scan o fragment afterCr rest)
  | [], p, hp, parts, fragment, afterCr, s', lines, hcr, hrun => by
    cases hrun
    rw [scan]
    unfold HandsOver
    simp only [dispatchLines, Fed.ok_andThen]
    cases afterCr with
    | true =>
      have hnil := List.append_eq_nil_iff.1 (hcr rfl)
      exact .inl ⟨parts, by rw [hnil.2, List.append_nil], rfl⟩
    | false =>
      simp only [Bool.false_eq_true, if_false]
      cases fragment with
      | nil => exact .inl ⟨parts, by rw [List.append_nil], rfl⟩
      | cons c fragment =>
        unfold bufferLine buffered
        rw [if_neg (by simp)]
        rw [List.length_append]
        by_cases hlong : o.maxLineChars < parts.flatten.length + (c :: fragment).length
        · exact .inr ⟨hlong, _, by rw [if_pos hlong]⟩
        · refine .inl ⟨parts ++ [c :: fragment], by simp, ?_⟩
          rw [if_neg hlong]
          simp
  | c :: rest, p, hp, parts, fragment, afterCr, s', lines, hcr, hrun => by
    rw [Splitter.run, Prod.mk.injEq] at hrun
    rw [scan]
    by_cases hskip : (afterCr && decide (c = 0x0A)) = true
    · -- the LF of a CRLF whose CR has ended the line
      rw [Splitter.step_skip hskip] at hrun
      rw [if_pos hskip]
      have hnil := List.append_eq_nil_iff.1 (hcr (Bool.and_eq_true _ _ ▸ hskip).1)
      rw [hnil.2] at hrun
      exact scan_eq rest hp parts [] false (fun h => by cases h) (Prod.ext hrun.1 hrun.2)
    · rw [if_neg hskip]
      by_cases hend : isLineEnd c = true
      · -- the line is handed over, which may raise
        rw [Splitter.step_end hskip hend] at hrun
        obtain ⟨hs', rfl⟩ := hrun
        rw [if_pos hend, finishLine_buffered o hp, List.singleton_append, HandsOver, dispatchLines_cons]
        cases hline : p.dispatchLine o (parts.flatten ++ fragment) with
        | error e =>
          refine .inl ⟨[s'.line], by simp, ?_⟩
          simp only [dispatchLines, hline, Fed.andThen]
        | ok r =>
          obtain ⟨p₁, calls⟩ := r
          have hp₁ : Bare p₁ := (dispatchLine_sameBuffers hline).bare hp
          have hscan := scan_eq (o := o) rest hp₁ [] [] (c = 0x0D) (fun _ => rfl) (Prod.ext hs' rfl)
          rw [hp₁.buffered_nil] at hscan
          simp only [dispatchLines, hline, Fed.andThen_assoc, Fed.ok_andThen]
          rcases hscan with ⟨parts', hflat, hscan⟩ | ⟨hlong, message, hscan⟩
          · refine .inl ⟨parts', hflat, ?_⟩
            unfold Fed.andThen
            simp only [hscan]
            rfl
          · refine .inr ⟨hlong, message, ?_⟩
            unfold Fed.andThen
            simp only [hscan]
            rfl
      · -- one more character of the line begun
        rw [Splitter.step_char hskip hend] at hrun
        simp only [List.append_assoc] at hrun
        rw [if_neg hend]
        exact scan_eq rest hp parts (fragment ++ [c]) false (fun h => by cases h) (Prod.ext hrun.1 hrun.2)

theorem feedChunk_eq {o : Options} {p : Parser} (hp : Bare p) (parts : List Text) (pendingLf : Bool) (chunk : Text)
    {s' : Splitter} {lines : List Text} (hcr : pendingLf = true → parts.flatten = [])
    (hrun : (Splitter.mk parts.flatten pendingLf).run chunk = (s', lines)) :
    HandsOver o p lines s' ((p.buffered parts pendingLf).feedChunk o chunk) := by
  cases chunk with
  | nil =>
    cases hrun
    exact .inl ⟨parts, rfl, rfl⟩
  | cons c rest =>
    -- a CR at the end of the last chunk is looked at where a CR before this character would be
    have hscan : (p.buffered parts pendingLf).feedChunk o (c :: rest) =
        (p.buffered parts false).scan o [] pendingLf (c :: rest) := by
      unfold feedChunk
      cases pendingLf with
      | false => rfl
      | true =>
        by_cases hc : c = 0x0A
        · subst hc
          rfl
        · simp [buffered, scan, hc]
    rw [← List.append_nil parts.flatten] at hrun
    rw [hscan]
    exact scan_eq (c :: rest) hp parts [] pendingLf (fun h => by rw [List.append_nil]; exact hcr h) hrun

end Parser

/-- A line that a CR has ended leaves none begun. -/
theorem Splitter.line_of_afterCr : ∀ (text : Text) (s : Splitter), (s.afterCr = true → s.line = []) →
    (s.run text).1.afterCr = true → (s.run text).1.line = []
  | [], _, h => h
  | c :: text, s, h => by
    rw [run]
    refine line_of_afterCr text _ ?_
    unfold step
    split
    · intro hf; cases hf
    · split
      · intro _; rfl
      · intro hf; cases hf

namespace Parser

/-! ## Some chunks -/

/-- The chunks of a text hand over the lines of the text, up to a line begun that is too long. -/
theorem feedAll_eq {o : Options} : ∀ (chunks : List Text) {p : Parser} (_ : Bare p) (parts : List Text)
    (pendingLf : Bool) {s' : Splitter} {lines : List Text}, (pendingLf = true → parts.flatten = []) →
    (Splitter.mk parts.flatten pendingLf).run chunks.flatten = (s', lines) →
    (∃ parts', (p.buffered parts pendingLf).feedAll o chunks =
      (p.dispatchLines o lines).andThen fun p => ⟨[], .ok (p.buffered parts' s'.afterCr)⟩) ∨
    ∃ lines', lines' <+: lines ∧ (∃ line ∈ lines ++ [s'.line], o.maxLineChars < line.length) ∧
      ∃ message, (p.buffered parts pendingLf).feedAll o chunks =
        (p.dispatchLines o lines').andThen fun _ => ⟨[], .error (.tooLarge message)⟩
  | [], p, _, parts, pendingLf, s', lines, _, hrun => by
    cases hrun
    exact .inl ⟨parts, rfl⟩
  | chunk :: chunks, p, hp, parts, pendingLf, s', lines, hcr, hrun => by
    rw [List.flatten_cons, Splitter.run_append] at hrun
    obtain ⟨⟨s₁, lines₁⟩, hrun₁⟩ : ∃ r, (Splitter.mk parts.flatten pendingLf).run chunk = r := ⟨_, rfl⟩
    have hcr₁ := Splitter.line_of_afterCr chunk ⟨parts.flatten, pendingLf⟩ hcr
    rw [hrun₁] at hrun hcr₁
    obtain ⟨⟨s₂, lines₂⟩, hrun₂⟩ : ∃ r, s₁.run chunks.flatten = r := ⟨_, rfl⟩
    rw [hrun₂] at hrun
    cases hrun
    have hchunk := feedChunk_eq (o := o) hp parts pendingLf chunk hcr hrun₁
    have hfeed : (p.buffered parts pendingLf).feed o chunk = (p.buffered parts pendingLf).feedChunk o chunk := by
      unfold feed
      rw [if_neg (by rw [buffered, hp.firstChunk]; exact Bool.false_ne_true)]
    rw [feedAll, hfeed]
    rcases hchunk with ⟨parts₁, hflat₁, hchunk⟩ | ⟨hlong, message, hchunk⟩
    · rw [hchunk]
      simp only [dispatchLines_append, Fed.andThen_assoc]
      cases hres : (p.dispatchLines o lines₁).result with
      | error e =>
        -- the stream has ended, whatever the other chunks are
        refine .inl ⟨[], ?_⟩
        rw [Fed.andThen_error hres, Fed.andThen_error hres]
      | ok p₁ =>
        have hp₁ : Bare p₁ := (dispatchLines_sameBuffers hres).bare hp
        have hrun₁₂ : (Splitter.mk parts₁.flatten s₁.afterCr).run chunks.flatten = (s₂, lines₂) := by
          rw [hflat₁]
          exact hrun₂
        rcases feedAll_eq chunks hp₁ parts₁ s₁.afterCr (by rw [hflat₁]; exact hcr₁) hrun₁₂
          with ⟨parts', hrest⟩ | ⟨lines', hleading, hlong, message, hrest⟩
        · refine .inl ⟨parts', ?_⟩
          rw [Fed.andThen_ok hres, Fed.andThen_ok hres, Fed.ok_andThen, hrest]
        · refine .inr ⟨lines₁ ++ lines', (List.prefix_append_right_inj _).2 hleading, ?_, message, ?_⟩
          · obtain ⟨line, hline, hlong⟩ := hlong
            exact ⟨line, by rw [List.append_assoc]; exact List.mem_append_right _ hline, hlong⟩
          · rw [dispatchLines_append, Fed.andThen_assoc, Fed.andThen_ok hres, Fed.andThen_ok hres, Fed.ok_andThen, hrest]
    · -- the line begun is too long, and only grows until it ends
      refine .inr ⟨lines₁, List.prefix_append _ _, ?_, message, ?_⟩
      · by_contra hle
        push Not at hle
        refine absurd (Splitter.line_le o chunks.flatten s₁ ?_) (Nat.not_le.2 hlong)
        rw [hrun₂]
        exact fun line hl => hle line (by rw [List.append_assoc]; exact List.mem_append_right _ hl)
      · rw [hchunk, Fed.andThen_assoc]
        rfl

/-- A parser past its first chunk. -/
def started : Parser := { init with firstChunk := false }

/-- A first chunk without a mark is fed as it is. -/
theorem feed_init_of_unmarked (o : Options) {chunk : Text} (h : ¬ Marked chunk) :
    init.feed o chunk = started.feed o chunk := by
  have hstrip : stripBom chunk = chunk := by
    unfold stripBom
    rw [if_neg fun hm => h (.inl hm), if_neg fun hm => h (.inr hm)]
  unfold feed
  simp only [init, started, if_true, hstrip]
  rfl

theorem feedAll_init (o : Options) {chunks : List Text} (h : ¬ Marked chunks.flatten) :
    (init.feedAll o chunks).calls = (started.feedAll o chunks).calls ∧
      ∀ q, (started.feedAll o chunks).result = .ok q → ∃ q, (init.feedAll o chunks).result = .ok q := by
  cases chunks with
  | nil => exact ⟨rfl, fun _ _ => ⟨_, rfl⟩⟩
  | cons chunk chunks =>
    have hchunk : ¬ Marked chunk := fun hm => h (hm.append chunks.flatten)
    rw [feedAll, feedAll, feed_init_of_unmarked o hchunk]
    exact ⟨rfl, fun q hq => ⟨q, hq⟩⟩

/-- The incremental parser makes the calls of the reference, for every way of cutting the text. -/
theorem feedAll_reference (o : Options) (chunks : List Text) (h : Within o chunks.flatten) :
    (init.feedAll o chunks).calls = reference o chunks.flatten ∧
      ∃ p, (init.feedAll o chunks).result = .ok p := by
  obtain ⟨hcalls, hok⟩ := feedAll_init o h.unmarked
  have hp : Bare started := ⟨rfl, rfl, rfl, rfl⟩
  have hcollects : Collects started .start 0 := ⟨rfl, rfl, rfl, rfl⟩
  have hlines : ∀ line ∈ (Splitter.start.run chunks.flatten).2 ++ [(Splitter.start.run chunks.flatten).1.line],
      line.length ≤ o.maxLineChars := by
    rw [← allLines_eq_run]
    exact h.lines
  obtain ⟨parts', hfeed⟩ : ∃ parts', (started.buffered [] false).feedAll o chunks =
      (started.dispatchLines o (Splitter.start.run chunks.flatten).2).andThen fun p =>
        ⟨[], .ok (p.buffered parts' (Splitter.start.run chunks.flatten).1.afterCr)⟩ := by
    rcases feedAll_eq chunks hp [] false (fun hf => by cases hf) rfl with hfeed | ⟨-, -, ⟨line, hline, hlong⟩, -⟩
    · exact hfeed
    · exact absurd (hlines line hline) (Nat.not_le.2 hlong)
  rw [hp.buffered_nil] at hfeed
  obtain ⟨p', hread⟩ := dispatchLines_read hcollects h.events h.retries
  rw [terminatedLines_eq_run] at hread
  change started.dispatchLines o ((Splitter.mk [] false).run chunks.flatten).2 = _ at hread
  change started.feedAll o chunks = (started.dispatchLines o ((Splitter.mk [] false).run chunks.flatten).2).andThen _ at hfeed
  rw [hread, Fed.andThen_ok rfl, List.append_nil] at hfeed
  rw [hfeed] at hcalls hok
  refine ⟨?_, hok _ rfl⟩
  rw [hcalls, reference, terminatedLines_eq_run]

/-- An event cut between CR and LF, and in the middle of a field. -/
theorem feedAll_reference_cut :
    (init.feedAll ⟨true, true, true, 10, 10, 10⟩ [lit "da", lit "ta: a\r", lit "", lit "\n\n"]).calls =
      reference ⟨true, true, true, 10, 10, 10⟩ (lit "data: a\r\n\n") ∧
      ∃ p, (init.feedAll ⟨true, true, true, 10, 10, 10⟩ [lit "da", lit "ta: a\r", lit "", lit "\n\n"]).result = .ok p :=
  feedAll_reference _ _ {
    unmarked := by decide
    lines := by decide
    events := by decide
    retries := by decide }

end Parser

end ConfigDirector.EventSource
