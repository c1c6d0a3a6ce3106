/-
The limit on the characters of a line counts what is buffered at the end of a chunk, and not the fragment that
ends a line. So a line that is too long stops the stream in time if a chunk ends in it beyond the limit, and
otherwise only where something else does before the line has an effect.
-/
import ConfigDirector.EventSource.Unbroken

namespace ConfigDirector.EventSource

open Python

/-- Calls made before some work. -/
theorem Fed.append_andThen (calls : List Call) (fed : Fed) (f : Parser → Fed) :
    (⟨calls ++ (fed.andThen f).calls, (fed.andThen f).result⟩ : Fed) = Fed.andThen ⟨calls ++ fed.calls, fed.result⟩ f := by
  obtain ⟨calls', result⟩ := fed
  cases result with
  | error e => rfl
  | ok p => exact congrArg (Fed.mk · (f p).result) (List.append_assoc ..).symm

/-- A retry that is read is one `int` converts. -/
def RetryReads (o : Options) (line : Text) : Prop := o.onRetry = true → RetryFits o (.ofText line)

namespace Parser

/-! ## The lines applied -/

/-- The lines that have been applied when the loop of `feed` ends or raises. -/
def scanApplied (o : Options) (p : Parser) (fragment : Text) (afterCr : Bool) : Text → List Text
  | [] => []
  | c :: rest =>
    if afterCr && c = 0x0A then p.scanApplied o [] false rest
    else if isLineEnd c then
      match p.finishLine o fragment with
      | .error _ => []
      | .ok (p', _) => (p.lineParts ++ [fragment]).flatten :: p'.scanApplied o [] (c = 0x0D) rest
    else p.scanApplied o (fragment ++ [c]) false rest

def feedChunkApplied (o : Options) (p : Parser) (chunk : Text) : List Text :=
  match chunk with
  | [] => []
  | c :: rest =>
    if p.pendingLf then
      let p := { p with pendingLf := false }
      if c = 0x0A then p.scanApplied o [] false rest else p.scanApplied o [] false (c :: rest)
    else p.scanApplied o [] false (c :: rest)

def feedApplied (o : Options) (p : Parser) (chunk : Text) : List Text :=
  if p.firstChunk then { p with firstChunk := false }.feedChunkApplied o (stripBom chunk) else p.feedChunkApplied o chunk

def feedAllApplied (o : Options) (p : Parser) : List Text → List Text
  | [] => []
  | chunk :: chunks =>
    match (p.feed o chunk).result with
    | .error _ => p.feedApplied o chunk
    | .ok p' => p.feedApplied o chunk ++ p'.feedAllApplied o chunks

/-- The lines before the first that raises. -/
def dispatchApplied (o : Options) (p : Parser) : List Text → List Text
  | [] => []
  | line :: lines =>
    match p.dispatchLine o line with
    | .error _ => []
    | .ok (p', _) => line :: p'.dispatchApplied o lines

theorem dispatchApplied_append {o : Options} : ∀ {lines : List Text} (p : Parser) (lines' : List Text),
    (∀ p', (p.dispatchLines o lines).result = .ok p' →
      p.dispatchApplied o (lines ++ lines') = lines ++ p'.dispatchApplied o lines') ∧
    (∀ e, (p.dispatchLines o lines).result = .error e → p.dispatchApplied o (lines ++ lines') = p.dispatchApplied o lines)
  | [], p, lines' => by
    refine ⟨fun p' h => ?_, fun e h => (by cases h)⟩
    cases h
    rfl
  | line :: lines, p, lines' => by
    rw [List.cons_append, dispatchLines, dispatchApplied, dispatchApplied]
    cases p.dispatchLine o line with
    | error e => exact ⟨fun p' h => (by cases h), fun e h => rfl⟩
    | ok r =>
      obtain ⟨p₁, calls⟩ := r
      simp only [@Fed.andThen_ok ⟨calls, .ok p₁⟩ p₁ rfl]
      obtain ⟨hok, herror⟩ := @dispatchApplied_append o lines p₁ lines'
      refine ⟨fun p' h => ?_, fun e h => ?_⟩
      · rw [hok p' h, List.cons_append]
      · rw [herror e h]

theorem dispatchApplied_of_ok {o : Options} {lines : List Text} {p p' : Parser}
    (h : (p.dispatchLines o lines).result = .ok p') : p.dispatchApplied o lines = lines := by
  have happly := (dispatchApplied_append p []).1 p' h
  rw [List.append_nil] at happly
  rw [happly, dispatchApplied, List.append_nil]

/-- The loop applies the lines that end. -/
theorem scanApplied_eq {o : Options} : ∀ (rest : Text) {p : Parser} (_ : Bare p) (parts : List Text) (fragment : Text)
    (afterCr : Bool), (afterCr = true → parts.flatten ++ fragment = []) →
    (p.buffered parts false).scanApplied o fragment afterCr rest =
      p.dispatchApplied o ((Splitter.mk (parts.flatten ++ fragment) afterCr).run rest).2
  | [], _, _, _, _, _, _ => rfl
  | c :: rest, p, hp, parts, fragment, afterCr, hcr => by
    rw [scanApplied, Splitter.run]
    by_cases hskip : (afterCr && decide (c = 0x0A)) = true
    · have hnil := List.append_eq_nil_iff.1 (hcr (Bool.and_eq_true _ _ ▸ hskip).1)
      rw [if_pos hskip, Splitter.step_skip hskip, hnil.2, List.nil_append]
      exact scanApplied_eq rest hp parts [] false fun h => by cases h
    · rw [if_neg hskip]
      by_cases hend : isLineEnd c = true
      · have hline : (p.buffered parts false).lineParts ++ [fragment] = parts ++ [fragment] := rfl
        rw [if_pos hend, Splitter.step_end hskip hend, finishLine_buffered o hp, List.singleton_append, dispatchApplied,
          hline]
        cases hdispatch : p.dispatchLine o (parts.flatten ++ fragment) with
        | error e => rfl
        | ok r =>
          obtain ⟨p₁, calls⟩ := r
          have hp₁ : Bare p₁ := (dispatchLine_sameBuffers hdispatch).bare hp
          have hrest := scanApplied_eq (o := o) rest hp₁ [] [] (c = 0x0D) fun _ => rfl
          rw [hp₁.buffered_nil] at hrest
          simp only [hrest, List.flatten_append, List.flatten_cons, List.flatten_nil, List.append_nil]
      · have hrest := scanApplied_eq (o := o) rest hp parts (fragment ++ [c]) false fun h => by cases h
        rw [← List.append_assoc] at hrest
        rw [if_neg hend, Splitter.step_char hskip hend, List.nil_append]
        exact hrest

theorem feedChunkApplied_eq {o : Options} {p : Parser} (hp : Bare p) (parts : List Text) (pendingLf : Bool) (chunk : Text)
    (hcr : pendingLf = true → parts.flatten = []) : (p.buffered parts pendingLf).feedChunkApplied o chunk =
      p.dispatchApplied o ((Splitter.mk parts.flatten pendingLf).run chunk).2 := by
  cases chunk with
  | nil => rfl
  | cons c rest =>
    have hscan : (p.buffered parts pendingLf).feedChunkApplied o (c :: rest) =
        (p.buffered parts false).scanApplied o [] pendingLf (c :: rest) := by
      unfold feedChunkApplied
      cases pendingLf with
      | false => rfl
      | true =>
        by_cases hc : c = 0x0A
        · subst hc
          rfl
        · simp [buffered, scanApplied, hc]
    rw [hscan, scanApplied_eq (c :: rest) hp parts [] pendingLf fun h => by rw [List.append_nil]; exact hcr h,
      List.append_nil]

/-! ## The length buffered -/

theorem finishLine_lineLen {o : Options} {p p' : Parser} {fragment : Text} {calls : List Call}
    (h : p.finishLine o fragment = .ok (p', calls)) : p'.lineLen ≤ p.lineLen := by
  unfold finishLine at h
  split at h
  · exact (dispatchLine_sameBuffers h).lineLen.le
  · rw [(dispatchLine_sameBuffers h).lineLen]
    exact Nat.zero_le _

/-- A chunk that is fed leaves no more buffered than the limit allows. -/
theorem scan_lineLen {o : Options} : ∀ (rest : Text) {p q : Parser} (fragment : Text) (afterCr : Bool),
    p.lineLen ≤ o.maxLineChars → (p.scan o fragment afterCr rest).result = .ok q → q.lineLen ≤ o.maxLineChars
  | [], p, q, fragment, afterCr, hp, h => by
    rw [scan] at h
    split at h
    · cases h
      exact hp
    · split at h
      · cases h
        exact hp
      · unfold bufferLine at h
        simp only at h
        split at h
        · cases h
        · rename_i hlimit
          cases h
          exact Nat.not_lt.1 hlimit
  | c :: rest, p, q, fragment, afterCr, hp, h => by
    rw [scan] at h
    split at h
    · exact scan_lineLen rest [] false hp h
    · split at h
      · split at h
        · cases h
        · rename_i p₁ calls hfinish
          rw [Fed.andThen_ok rfl] at h
          exact scan_lineLen rest [] (c = 0x0D) ((finishLine_lineLen hfinish).trans hp) h
      · exact scan_lineLen rest (fragment ++ [c]) false hp h

theorem feedChunk_lineLen {o : Options} {p q : Parser} {chunk : Text} (hp : p.lineLen ≤ o.maxLineChars)
    (h : (p.feedChunk o chunk).result = .ok q) : q.lineLen ≤ o.maxLineChars := by
  unfold feedChunk at h
  split at h
  · cases h
    exact hp
  · split at h
    · simp only at h
      split at h
      · exact scan_lineLen (p := { p with pendingLf := false }) _ _ _ hp h
      · exact scan_lineLen (p := { p with pendingLf := false }) _ _ _ hp h
    · exact scan_lineLen _ _ _ hp h

/-- A chunk buffers the line begun, or raises if it is too long. -/
theorem feedChunk_cases {o : Options} {p : Parser} (hp : Bare p) (parts : List Text) (pendingLf : Bool) (chunk : Text)
    (hparts : parts.flatten.length ≤ o.maxLineChars) (hcr : pendingLf = true → parts.flatten = []) {s' : Splitter}
    {lines : List Text} (hrun : (Splitter.mk parts.flatten pendingLf).run chunk = (s', lines)) :
    (s'.line.length ≤ o.maxLineChars ∧ ∃ parts', parts'.flatten = s'.line ∧ (p.buffered parts pendingLf).feedChunk o chunk =
      (p.dispatchLines o lines).andThen fun p => ⟨[], .ok (p.buffered parts' s'.afterCr)⟩) ∨
    (o.maxLineChars < s'.line.length ∧ ∃ message, (p.buffered parts pendingLf).feedChunk o chunk =
      (p.dispatchLines o lines).andThen fun _ => ⟨[], .error (.tooLarge message)⟩) := by
  rcases feedChunk_eq (o := o) hp parts pendingLf chunk hcr hrun with ⟨parts', hflat, hfed⟩ | hlong
  · by_cases hle : s'.line.length ≤ o.maxLineChars
    · exact .inl ⟨hle, parts', hflat, hfed⟩
    · refine .inr ⟨Nat.not_le.1 hle, [], ?_⟩
      cases hres : (p.dispatchLines o lines).result with
      | error e => rw [hfed, Fed.andThen_error hres, Fed.andThen_error hres]
      | ok p' =>
        -- what is buffered would be too long
        have hbuffered : ((p.buffered parts pendingLf).feedChunk o chunk).result = .ok (p'.buffered parts' s'.afterCr) := by
          rw [hfed, Fed.andThen_ok hres]
        have hlen : parts'.flatten.length ≤ o.maxLineChars :=
          feedChunk_lineLen (p := p.buffered parts pendingLf) hparts hbuffered
        rw [hflat] at hlen
        exact absurd hlen hle
  · exact .inr hlong

/-! ## The chunks -/

/-- The lines handed over when the line begun is first seen to be too long. -/
def noticed (o : Options) (s : Splitter) : List Text → Option (List Text)
  | [] => none
  | chunk :: chunks =>
    if o.maxLineChars < (s.run chunk).1.line.length then some (s.run chunk).2
    else (noticed o (s.run chunk).1 chunks).map ((s.run chunk).2 ++ ·)

/-- The lines handed over, if none of them raises. -/
def handed (o : Options) (s : Splitter) (chunks : List Text) : List Text :=
  (noticed o s chunks).getD (s.run chunks.flatten).2

theorem handed_cons_of_le {o : Options} {s : Splitter} {chunk : Text} (chunks : List Text)
    (h : (s.run chunk).1.line.length ≤ o.maxLineChars) :
    handed o s (chunk :: chunks) = (s.run chunk).2 ++ handed o (s.run chunk).1 chunks := by
  unfold handed
  rw [noticed, if_neg (Nat.not_lt.2 h), List.flatten_cons, Splitter.run_append]
  cases noticed o (s.run chunk).1 chunks <;> rfl

/-- What some chunks do: the lines handed over are applied up to the first that raises, and after them the stream
is rejected if a line was seen to be too long. -/
theorem feedAll_cases {o : Options} : ∀ (chunks : List Text) {p : Parser} (_ : Bare p) (parts : List Text)
    (pendingLf : Bool), parts.flatten.length ≤ o.maxLineChars → (pendingLf = true → parts.flatten = []) →
    (p.buffered parts pendingLf).feedAllApplied o chunks =
        p.dispatchApplied o (handed o ⟨parts.flatten, pendingLf⟩ chunks) ∧
      ((noticed o ⟨parts.flatten, pendingLf⟩ chunks = none ∧ ∃ parts' pendingLf',
        (p.buffered parts pendingLf).feedAll o chunks = (p.dispatchLines o (handed o ⟨parts.flatten, pendingLf⟩ chunks)).andThen
          fun p => ⟨[], .ok (p.buffered parts' pendingLf')⟩) ∨
      ((noticed o ⟨parts.flatten, pendingLf⟩ chunks).isSome = true ∧ ∃ message,
        (p.buffered parts pendingLf).feedAll o chunks = (p.dispatchLines o (handed o ⟨parts.flatten, pendingLf⟩ chunks)).andThen
          fun _ => ⟨[], .error (.tooLarge message)⟩))
  | [], p, _, parts, pendingLf, _, _ => ⟨rfl, .inl ⟨rfl, parts, pendingLf, rfl⟩⟩
  | chunk :: chunks, p, hp, parts, pendingLf, hparts, hcr => by
    obtain ⟨⟨s₁, lines₁⟩, hrun⟩ : ∃ r, (Splitter.mk parts.flatten pendingLf).run chunk = r := ⟨_, rfl⟩
    have hcr₁ := Splitter.line_of_afterCr chunk ⟨parts.flatten, pendingLf⟩ hcr
    rw [hrun] at hcr₁
    have hbuffered : (p.buffered parts pendingLf).firstChunk = false := hp.firstChunk
    have hfeed : (p.buffered parts pendingLf).feed o chunk = (p.buffered parts pendingLf).feedChunk o chunk := by
      unfold feed
      rw [if_neg (by rw [hbuffered]; exact Bool.false_ne_true)]
    have happlied : (p.buffered parts pendingLf).feedApplied o chunk = p.dispatchApplied o lines₁ := by
      unfold feedApplied
      rw [if_neg (by rw [hbuffered]; exact Bool.false_ne_true), feedChunkApplied_eq hp parts pendingLf chunk hcr, hrun]
    rw [feedAllApplied, feedAll, hfeed, happlied]
    rcases feedChunk_cases hp parts pendingLf chunk hparts hcr hrun with ⟨hle, parts₁, hflat, hchunk⟩ | ⟨hlong, message, hchunk⟩
    · have hhanded : handed o ⟨parts.flatten, pendingLf⟩ (chunk :: chunks) = lines₁ ++ handed o s₁ chunks := by
        have hcons := @handed_cons_of_le o ⟨parts.flatten, pendingLf⟩ chunk chunks
        rw [hrun] at hcons
        exact hcons hle
      have hnoticed : noticed o ⟨parts.flatten, pendingLf⟩ (chunk :: chunks) = (noticed o s₁ chunks).map (lines₁ ++ ·) := by
        rw [noticed, hrun, if_neg (Nat.not_lt.2 hle)]
      have hdispatch := dispatchLines_append o p lines₁ (handed o s₁ chunks)
      rw [hchunk, hhanded, hnoticed]
      cases hres : (p.dispatchLines o lines₁).result with
      | error e =>
        -- the stream has ended, whatever the other chunks are
        rw [Fed.andThen_error hres] at hdispatch
        rw [Fed.andThen_error hres, (dispatchApplied_append p _).2 e hres, hdispatch]
        refine ⟨rfl, ?_⟩
        cases noticed o s₁ chunks with
        | none => exact .inl ⟨rfl, [], false, rfl⟩
        | some lines => exact .inr ⟨rfl, [], rfl⟩
      | ok p₁ =>
        have hp₁ : Bare p₁ := (dispatchLines_sameBuffers hres).bare hp
        obtain ⟨hrest, houtcome⟩ := feedAll_cases chunks hp₁ parts₁ s₁.afterCr (by rw [hflat]; exact hle)
          (by rw [hflat]; exact hcr₁)
        rw [hflat] at hrest houtcome
        rw [Fed.andThen_ok hres] at hdispatch
        rw [Fed.andThen_ok hres, (dispatchApplied_append p _).1 p₁ hres, dispatchApplied_of_ok hres, hdispatch]
        refine ⟨congrArg (lines₁ ++ ·) hrest, ?_⟩
        rcases houtcome with ⟨hnone, parts', pendingLf', hrest⟩ | ⟨hsome, message, hrest⟩
        · refine .inl ⟨by rw [hnone]; rfl, parts', pendingLf', ?_⟩
          rw [Fed.andThen_ok rfl, hrest, List.append_nil]
          exact Fed.append_andThen _ _ _
        · refine .inr ⟨by rw [Option.isSome_map]; exact hsome, message, ?_⟩
          rw [Fed.andThen_ok rfl, hrest, List.append_nil]
          exact Fed.append_andThen _ _ _
    · have hnoticed : noticed o ⟨parts.flatten, pendingLf⟩ (chunk :: chunks) = some lines₁ := by
        rw [noticed, hrun, if_pos hlong]
      rw [handed, hnoticed, hchunk, Fed.andThen_assoc, Option.getD_some]
      refine ⟨?_, .inr ⟨rfl, message, rfl⟩⟩
      cases hres : (p.dispatchLines o lines₁).result with
      | error e => rw [Fed.andThen_error hres]
      | ok p₁ => rw [Fed.andThen_ok hres]

/-! ## Reading without a handler for retries -/

/-- Without a handler the digits of a retry are not converted. -/
theorem dispatchLine_maxDigits {o : Options} (h : o.onRetry = false) (p : Parser) (line : Text) (n : ℕ) :
    p.dispatchLine o line = p.dispatchLine { o with maxDigits := n } line := by
  have hfield : ∀ name value, p.applyField o name value = p.applyField { o with maxDigits := n } name value := by
    intro name value
    unfold applyField
    simp only [h, Bool.and_false, Bool.false_eq_true, if_false]
  unfold dispatchLine
  simp only [hfield]
  rfl

theorem dispatchLine_reads {o : Options} {p : Parser} {q : Pending} {used : ℕ} (h : Collects p q used) (line : Text)
    (hcost : used + dataCost (.ofText line) ≤ o.maxEventChars) (hretry : RetryReads o line) :
    ∃ p', p.dispatchLine o line = .ok (p', (q.read o (.ofText line)).2) ∧
      Collects p' (q.read o (.ofText line)).1 (usedAfter used (.ofText line)) := by
  cases hon : o.onRetry with
  | true => exact dispatchLine_read h line hcost (hretry hon)
  | false =>
    obtain ⟨n, hn⟩ : ∃ n, RetryFits { o with maxDigits := n } (.ofText line) := by
      cases Line.ofText line with
      | field name value => exact ⟨value.length, fun _ _ => le_refl _⟩
      | blank => exact ⟨0, trivial⟩
      | comment text => exact ⟨0, trivial⟩
    have hread : q.read { o with maxDigits := n } (.ofText line) = q.read o (.ofText line) := by
      cases Line.ofText line <;> rfl
    have hdispatch := dispatchLine_read (o := { o with maxDigits := n }) h line hcost hn
    rw [hread, ← dispatchLine_maxDigits hon] at hdispatch
    exact hdispatch

/-- Lines whose retries are converted are applied up to the first that makes an event too large. -/
theorem dispatchLines_reads {o : Options} : ∀ {lines : List Text} {p : Parser} {q : Pending} {used : ℕ},
    Collects p q used → used ≤ o.maxEventChars → (∀ line ∈ readable o used lines, RetryReads o line) →
    p.dispatchApplied o lines = readable o used lines ∧
      (p.dispatchLines o lines).calls = (q.readAll o (readable o used lines)).2 ∧
      ((readable o used lines = lines ∧ ∃ p', (p.dispatchLines o lines).result = .ok p') ∨
        readable o used lines ≠ lines ∧ ∃ message, (p.dispatchLines o lines).result = .error (.tooLarge message))
  | [], p, _, _, _, _, _ => ⟨rfl, rfl, .inl ⟨rfl, p, rfl⟩⟩
  | line :: lines, p, q, used, h, hused, hretry => by
    rw [readable] at hretry ⊢
    by_cases hcost : used + dataCost (.ofText line) ≤ o.maxEventChars
    · rw [if_pos hcost] at hretry ⊢
      rw [List.forall_mem_cons] at hretry
      obtain ⟨p', hp', hcollects⟩ := dispatchLine_reads h line hcost hretry.1
      have hused' : usedAfter used (.ofText line) ≤ o.maxEventChars := by
        unfold usedAfter
        split <;> omega
      obtain ⟨happlied, hcalls, houtcome⟩ := dispatchLines_reads hcollects hused' hretry.2
      rw [dispatchApplied, dispatchLines, hp']
      simp only
      rw [Fed.andThen_ok rfl, happlied]
      refine ⟨rfl, by rw [hcalls]; rfl, ?_⟩
      rcases houtcome with ⟨hall, p'', hok⟩ | ⟨hsome, message, herror⟩
      · exact .inl ⟨congrArg (line :: ·) hall, p'', hok⟩
      · exact .inr ⟨fun heq => hsome (List.cons.inj heq).2, message, herror⟩
    · rw [if_neg hcost]
      obtain ⟨message, hlarge⟩ := dispatchLine_tooLarge h line hcost hused
      rw [dispatchApplied, dispatchLines, hlarge]
      exact ⟨rfl, rfl, .inr ⟨(List.cons_ne_nil _ _).symm, message, rfl⟩⟩

/-- A stream that is too large has read no retry that `int` refuses. -/
theorem retryReads_of_tooLarge {o : Options} {lines : List Text} {f : Parser → Fed} {message : Text}
    (h : ((started.dispatchLines o lines).andThen f).result = .error (.tooLarge message)) :
    ∀ line ∈ readable o 0 lines, RetryReads o line := by
  intro line hline hon
  by_contra hfits
  have herror := dispatchLines_valueError hon collects_started ⟨line, hline, hfits⟩
  rw [Fed.andThen_error herror] at h
  cases h

end Parser

/-! ## The line begun -/

theorem noticed_eq_some {o : Options} : ∀ {chunks : List Text} {s : Splitter} {lines : List Text},
    Parser.noticed o s chunks = some lines →
    ∃ cs, cs <+: chunks ∧ (s.run cs.flatten).2 = lines ∧ o.maxLineChars < (s.run cs.flatten).1.line.length
  | [], _, _, h => by cases h
  | chunk :: chunks, s, lines, h => by
    rw [Parser.noticed] at h
    split at h
    · rename_i hlong
      refine ⟨[chunk], (List.prefix_cons_inj chunk).2 List.nil_prefix, ?_⟩
      rw [List.flatten_singleton]
      exact ⟨Option.some.inj h, hlong⟩
    · obtain ⟨lines', hlines', rfl⟩ := Option.map_eq_some_iff.1 h
      obtain ⟨cs, hleading, hrun, hlong⟩ := noticed_eq_some hlines'
      refine ⟨chunk :: cs, (List.prefix_cons_inj chunk).2 hleading, ?_⟩
      rw [List.flatten_cons, Splitter.run_append]
      exact ⟨congrArg (_ ++ ·) hrun, hlong⟩

/-- A line begun that is too long at the end of some chunks is noticed then at the latest. -/
theorem noticed_of_long {o : Options} : ∀ {cs chunks : List Text} {s : Splitter}, cs <+: chunks →
    s.line.length ≤ o.maxLineChars → o.maxLineChars < (s.run cs.flatten).1.line.length →
    ∃ lines, Parser.noticed o s chunks = some lines ∧ lines <+: (s.run cs.flatten).2
  | [], _, s, _, hs, hlong => absurd hs (Nat.not_le.2 hlong)
  | c :: cs, [], _, h, _, _ => absurd h.length_le (by simp)
  | c :: cs, chunk :: chunks, s, h, hs, hlong => by
    obtain ⟨rfl, hleading⟩ := List.cons_prefix_cons.1 h
    rw [List.flatten_cons, Splitter.run_append] at hlong ⊢
    rw [Parser.noticed]
    by_cases hhere : o.maxLineChars < (s.run c).1.line.length
    · rw [if_pos hhere]
      exact ⟨_, rfl, List.prefix_append _ _⟩
    · rw [if_neg hhere]
      obtain ⟨lines, hnoticed, hlines⟩ := noticed_of_long hleading (Nat.not_lt.1 hhere) hlong
      exact ⟨_, by rw [hnoticed]; rfl, (List.prefix_append_right_inj _).2 hlines⟩

/-! ## The limit -/

/-- The lines before the first that is too long, terminated or not. -/
def BeforeLong (o : Options) (text : Text) (before : List Text) : Prop :=
  (∀ line ∈ before, line.length ≤ o.maxLineChars) ∧
    ∃ line after, allLines text = before ++ line :: after ∧ o.maxLineChars < line.length

/-- Lines that change nothing of the event being collected, and make no call. -/
def Idle (o : Options) (q : Pending) (lines : List Text) : Prop := ∀ line ∈ lines, q.read o (.ofText line) = (q, [])

/-- Only some of these lines, or also lines behind them that have no effect. -/
def NoMoreThan (o : Options) (before lines : List Text) : Prop :=
  lines <+: before ∨ ∃ idle, lines = before ++ idle ∧ Idle o (Pending.start.readAll o before).1 idle

/-- The stream is rejected as too large before another line than these has an effect, with the calls of the lines
read of these. -/
structure RejectedBefore (o : Options) (chunks before : List Text) : Prop where
  raised : ∃ message, (Parser.init.feedAll o chunks).result = .error (.tooLarge message)
  applied : NoMoreThan o before (Parser.init.feedAllApplied o chunks)
  calls : (Parser.init.feedAll o chunks).calls = (Pending.start.readAll o (readable o 0 before)).2

/-- After these lines, a chunk ends in a line that is too long by then, or a line makes an event too large. -/
def TooLargeAfter (o : Options) (chunks lines : List Text) : Prop :=
  (∃ cs begun, cs <+: chunks ∧ allLines cs.flatten = lines ++ [begun] ∧ o.maxLineChars < begun.length) ∨
  ∃ line, lines ++ [line] <+: terminatedLines chunks.flatten ∧ readable o 0 (lines ++ [line]) = lines

section

variable {o : Options} {chunks before : List Text}

theorem BeforeLong.terminated {text : Text} (h : BeforeLong o text before) : before <+: terminatedLines text := by
  obtain ⟨-, line, after, hlines, -⟩ := h
  rw [terminatedLines, hlines, List.dropLast_append_of_ne_nil (List.cons_ne_nil _ _)]
  exact List.prefix_append _ _

/-- Where a line begun is too long, all the lines before the first such line have ended. -/
theorem BeforeLong.leading (h : BeforeLong o chunks.flatten before) {cs : List Text} (hcs : cs <+: chunks)
    (hlong : o.maxLineChars < (Splitter.start.run cs.flatten).1.line.length) :
    before <+: (Splitter.start.run cs.flatten).2 := by
  obtain ⟨hwithin, line, after, hlines, -⟩ := h
  obtain ⟨ds, rfl⟩ := hcs
  obtain ⟨first, rest, hfirst, hle⟩ := Splitter.begun_leading ds.flatten (Splitter.start.run cs.flatten).1
  rw [allLines_eq_run, List.flatten_append, Splitter.run_append, List.append_assoc, hfirst] at hlines
  rcases List.append_eq_append_iff.1 hlines with ⟨between, hbefore, hbetween⟩ | ⟨between, hbefore, -⟩
  · cases between with
    | nil => rw [hbefore, List.append_nil]
    | cons b between =>
      -- the line begun would be one of those before
      have hb : first ∈ before := by
        rw [hbefore, (List.cons.inj hbetween).1]
        exact List.mem_append_right _ List.mem_cons_self
      have hshort := hwithin first hb
      omega
  · rw [hbefore]
    exact List.prefix_append _ _

/-- What is handed over is a part of the terminated lines. -/
theorem handed_leading (o : Options) (chunks : List Text) :
    Parser.handed o .start chunks <+: terminatedLines chunks.flatten := by
  rw [terminatedLines_eq_run, Parser.handed]
  cases hnoticed : Parser.noticed o .start chunks with
  | none => exact List.prefix_refl _
  | some lines =>
    obtain ⟨cs, ⟨ds, rfl⟩, rfl, -⟩ := noticed_eq_some hnoticed
    rw [Option.getD_some, List.flatten_append, Splitter.run_append]
    exact List.prefix_append _ _

/-- It has the lines before the long one in it. -/
theorem BeforeLong.handed (h : BeforeLong o chunks.flatten before) : before <+: Parser.handed o .start chunks := by
  rw [Parser.handed]
  cases hnoticed : Parser.noticed o .start chunks with
  | none =>
    rw [Option.getD_none, ← terminatedLines_eq_run]
    exact h.terminated
  | some lines =>
    obtain ⟨cs, hcs, rfl, hlong⟩ := noticed_eq_some hnoticed
    exact h.leading hcs hlong

/-- Feeding from the beginning, with the lines handed over. -/
theorem feedAll_handed (hunmarked : ¬ Marked chunks.flatten) (hne : chunks ≠ []) :
    Parser.init.feedAllApplied o chunks = Parser.started.dispatchApplied o (Parser.handed o .start chunks) ∧
      ((Parser.noticed o .start chunks = none ∧ ∃ parts pendingLf, Parser.init.feedAll o chunks =
        (Parser.started.dispatchLines o (Parser.handed o .start chunks)).andThen fun p => ⟨[], .ok (p.buffered parts pendingLf)⟩) ∨
      ((Parser.noticed o .start chunks).isSome = true ∧ ∃ message, Parser.init.feedAll o chunks =
        (Parser.started.dispatchLines o (Parser.handed o .start chunks)).andThen fun _ => ⟨[], .error (.tooLarge message)⟩)) := by
  have hcases := Parser.feedAll_cases (o := o) chunks bare_started [] false (Nat.zero_le _) fun h => by cases h
  rw [bare_started.buffered_nil] at hcases
  obtain ⟨chunk, chunks, rfl⟩ := List.exists_cons_of_ne_nil hne
  have hchunk : ¬ Marked chunk := fun hm => hunmarked (hm.append chunks.flatten)
  have hfeed := Parser.feed_init_of_unmarked o hchunk
  have happlied : Parser.init.feedApplied o chunk = Parser.started.feedApplied o chunk := by
    have hinit : Parser.init.feedApplied o chunk = Parser.started.feedChunkApplied o (Parser.stripBom chunk) := rfl
    rw [hinit, stripBom_of_unmarked hchunk]
    rfl
  have hall : Parser.init.feedAll o (chunk :: chunks) = Parser.started.feedAll o (chunk :: chunks) := by
    rw [Parser.feedAll, Parser.feedAll, hfeed]
  have happliedAll : Parser.init.feedAllApplied o (chunk :: chunks) = Parser.started.feedAllApplied o (chunk :: chunks) := by
    rw [Parser.feedAllApplied, Parser.feedAllApplied, hfeed, happlied]
  rw [hall, happliedAll]
  exact hcases

end

/-! ## Lines without effect -/

theorem readable_readable (o : Options) : ∀ (used : ℕ) (lines : List Text),
    readable o used (readable o used lines) = readable o used lines
  | _, [] => rfl
  | used, line :: lines => by
    rw [readable]
    split
    · rename_i hcost
      rw [readable, if_pos hcost, readable_readable o _ lines]
    · rfl

theorem mem_readable_append {o : Options} {line : Text} : ∀ {lines lines' : List Text} {used : ℕ},
    line ∈ readable o used (lines ++ lines') → line ∈ readable o used lines ∨ line ∈ lines'
  | [], _, _, h => .inr ((readable_leading o _ _).subset h)
  | l :: lines, lines', used, h => by
    rw [List.cons_append, readable] at h
    rw [readable]
    split at h
    · rename_i hcost
      rw [if_pos hcost]
      rcases List.mem_cons.1 h with rfl | h
      · exact .inl List.mem_cons_self
      · exact (mem_readable_append h).imp_left (List.mem_cons_of_mem _)
    · cases h

/-- Behind an event that is too large nothing is read. -/
theorem readable_append_of_ne {o : Options} : ∀ {lines : List Text} {used : ℕ} (lines' : List Text),
    readable o used lines ≠ lines → readable o used (lines ++ lines') = readable o used lines
  | [], _, _, h => absurd rfl h
  | l :: lines, used, lines', h => by
    rw [readable] at h
    rw [List.cons_append, readable, readable]
    split
    · rename_i hcost
      rw [if_pos hcost] at h
      rw [readable_append_of_ne lines' fun heq => h (congrArg (l :: ·) heq)]
    · rfl

theorem Idle.readAll {o : Options} {q : Pending} : ∀ {lines : List Text}, Idle o q lines → q.readAll o lines = (q, [])
  | [], _ => rfl
  | line :: lines, h => by
    obtain ⟨hline, hrest⟩ := List.forall_mem_cons.1 h
    rw [Pending.readAll, hline]
    simp only [Idle.readAll hrest, List.append_nil]

/-- A retry that is read makes a call. -/
theorem retryReads_of_idle {o : Options} {q : Pending} {line : Text} (h : q.read o (.ofText line) = (q, [])) :
    RetryReads o line := by
  intro hon
  cases hline : Line.ofText line with
  | blank => trivial
  | comment text => trivial
  | field name value =>
    rintro rfl hdigits
    have hevent : lit "retry" ≠ lit "event" := by decide
    have hdata : lit "retry" ≠ lit "data" := by decide
    have hid : lit "retry" ≠ lit "id" := by decide
    simp [hline, Pending.read, hevent, hdata, hid, hdigits, hon] at h

section

variable {o : Options} {before lines lines' : List Text}

theorem NoMoreThan.leading (h : NoMoreThan o before lines) (hleading : lines' <+: lines) : NoMoreThan o before lines' := by
  rcases h with h | ⟨idle, rfl, hidle⟩
  · exact .inl (hleading.trans h)
  · rcases List.prefix_or_prefix_of_prefix hleading (List.prefix_append before idle) with h | ⟨idle', rfl⟩
    · exact .inl h
    · exact .inr ⟨idle', rfl, fun line hline =>
        hidle line (((List.prefix_append_right_inj before).1 hleading).subset hline)⟩

theorem NoMoreThan.retryReads (h : NoMoreThan o before lines) (hbefore : ∀ line ∈ readable o 0 before, RetryReads o line) :
    ∀ line ∈ readable o 0 lines, RetryReads o line := by
  intro line hline
  rcases h with h | ⟨idle, rfl, hidle⟩
  · exact hbefore line ((readable_mono o 0 h).subset hline)
  · rcases mem_readable_append hline with hline | hline
    · exact hbefore line hline
    · exact retryReads_of_idle (hidle line hline)

/-- The calls of lines read, at least the ones read of `before`, are the calls of the ones read of `before`. -/
theorem NoMoreThan.calls (h : NoMoreThan o before (readable o 0 lines)) (hbefore : before <+: lines) :
    (Pending.start.readAll o (readable o 0 lines)).2 = (Pending.start.readAll o (readable o 0 before)).2 := by
  have hlow := readable_mono o 0 hbefore
  rcases h with h | ⟨idle, heq, hidle⟩
  · have hup := readable_mono o 0 h
    rw [readable_readable] at hup
    rw [hlow.eq_of_length_le hup.length_le]
  · have hall : readable o 0 before = before := by
      by_contra hne
      have hcut := readable_append_of_ne idle hne
      rw [← heq, readable_readable, heq] at hcut
      have hlength := (hcut ▸ readable_leading o 0 before).length_le
      rw [List.length_append] at hlength
      have hnil : idle = [] := List.eq_nil_of_length_eq_zero (by omega)
      rw [hnil, List.append_nil] at hcut
      exact hne hcut.symm
    rw [heq, hall, readAll_append, hidle.readAll, List.append_nil]

end

/-! ## In time -/

section

variable {o : Options} {chunks before : List Text}

/-- What is read of the lines handed over, and that the stream is rejected, if it becomes too large. -/
theorem TooLargeAfter.handed {lines : List Text} (h : TooLargeAfter o chunks lines) :
    readable o 0 (Parser.handed o .start chunks) <+: lines ∧
      (Parser.noticed o .start chunks = none →
        readable o 0 (Parser.handed o .start chunks) ≠ Parser.handed o .start chunks) := by
  rcases h with ⟨cs, begun, hcs, hlines, hlong⟩ | ⟨line, hleading, hreadable⟩
  · rw [allLines_eq_run] at hlines
    obtain ⟨hlines, hbegun⟩ := List.append_inj' hlines rfl
    rw [← (List.cons.inj hbegun).1] at hlong
    obtain ⟨lines', hnoticed, hleading⟩ := noticed_of_long hcs (Nat.zero_le _) hlong
    rw [Parser.handed, hnoticed, Option.getD_some, ← hlines]
    exact ⟨(readable_leading o _ _).trans hleading, fun h => by cases h⟩
  · have hne : readable o 0 (lines ++ [line]) ≠ lines ++ [line] := fun h => by
      rw [hreadable] at h
      have hlength := congrArg List.length h
      rw [List.length_append, List.length_singleton] at hlength
      omega
    -- the event becomes too large within the lines handed over
    have hbeyond : lines ++ [line] <+: Parser.handed o .start chunks →
        readable o 0 (Parser.handed o .start chunks) = lines := by
      rintro ⟨rest, hrest⟩
      rw [← hrest, readable_append_of_ne rest hne, hreadable]
    cases hnoticed : Parser.noticed o .start chunks with
    | none =>
      have hhanded : Parser.handed o .start chunks = terminatedLines chunks.flatten := by
        rw [Parser.handed, hnoticed, Option.getD_none, terminatedLines_eq_run]
      have hlines := hbeyond (hhanded ▸ hleading)
      refine ⟨by rw [hlines], fun _ heq => ?_⟩
      have hlength := (hhanded ▸ hleading).length_le
      rw [← heq, hlines, List.length_append, List.length_singleton] at hlength
      omega
    | some lines' =>
      refine ⟨?_, fun h => by cases h⟩
      rcases List.prefix_or_prefix_of_prefix hleading (handed_leading o chunks) with h | h
      · rw [hbeyond h]
      · exact hreadable ▸ readable_mono o 0 h

theorem tooLargeAfter_handed (h : (Parser.noticed o .start chunks).isSome = true ∨
      readable o 0 (Parser.handed o .start chunks) ≠ Parser.handed o .start chunks) :
    TooLargeAfter o chunks (readable o 0 (Parser.handed o .start chunks)) := by
  by_cases hall : readable o 0 (Parser.handed o .start chunks) = Parser.handed o .start chunks
  · obtain ⟨lines, hnoticed⟩ := Option.isSome_iff_exists.1 (h.resolve_right fun hne => hne hall)
    obtain ⟨cs, hcs, hrun, hlong⟩ := noticed_eq_some hnoticed
    refine .inl ⟨cs, _, hcs, ?_, hlong⟩
    rw [hall, Parser.handed, hnoticed, Option.getD_some, allLines_eq_run, hrun]
  · obtain ⟨rest, hrest⟩ := readable_leading o 0 (Parser.handed o .start chunks)
    cases rest with
    | nil => exact absurd (by rw [List.append_nil] at hrest; exact hrest) hall
    | cons line rest =>
      have hleading : readable o 0 (Parser.handed o .start chunks) ++ [line] <+: Parser.handed o .start chunks :=
        ⟨rest, by rw [List.append_assoc]; exact hrest⟩
      refine .inr ⟨line, hleading.trans (handed_leading o chunks), ?_⟩
      have hup := readable_mono o 0 hleading
      have hlow := readable_mono o 0 (List.prefix_append (readable o 0 (Parser.handed o .start chunks)) [line])
      rw [readable_readable] at hlow
      exact hup.eq_of_length_le hlow.length_le

/-- However the text is cut, a stream with a line that is too long is rejected before that line has an effect
exactly if no retry before it is refused, and a chunk ends in the line beyond the limit or an event is too large,
before the line or behind it and lines without an effect. -/
theorem rejectedBefore_iff (hunmarked : ¬ Marked chunks.flatten) (h : BeforeLong o chunks.flatten before) :
    RejectedBefore o chunks before ↔ (∀ line ∈ readable o 0 before, RetryReads o line) ∧
      ∃ lines, TooLargeAfter o chunks lines ∧ NoMoreThan o before lines := by
  have hne : chunks ≠ [] := by
    rintro rfl
    obtain ⟨hwithin, line, after, hlines, hlong⟩ := h
    have hnil : allLines ([] : List Text).flatten = [[]] := rfl
    rw [hnil] at hlines
    have hline : line = [] := List.mem_singleton.1 (hlines ▸ List.mem_append_right _ List.mem_cons_self)
    rw [hline] at hlong
    exact Nat.not_lt_zero _ hlong
  have hbefore := h.handed
  obtain ⟨happlied, houtcome⟩ := feedAll_handed (o := o) hunmarked hne
  constructor
  · rintro ⟨⟨message, hraised⟩, hmore, -⟩
    have hretries : ∀ line ∈ readable o 0 (Parser.handed o .start chunks), RetryReads o line := by
      rcases houtcome with ⟨-, parts, pendingLf, hfed⟩ | ⟨-, message', hfed⟩
      · exact Parser.retryReads_of_tooLarge (hfed ▸ hraised)
      · exact Parser.retryReads_of_tooLarge (hfed ▸ hraised)
    obtain ⟨hlines, -, hresult⟩ := Parser.dispatchLines_reads collects_started (Nat.zero_le _) hretries
    rw [happlied, hlines] at hmore
    refine ⟨fun line hline => hretries line ((readable_mono o 0 hbefore).subset hline), _,
      tooLargeAfter_handed ?_, hmore⟩
    rcases houtcome with ⟨-, parts, pendingLf, hfed⟩ | ⟨hsome, -⟩
    · rcases hresult with ⟨-, p', hok⟩ | ⟨hne, -⟩
      · rw [hfed, Fed.andThen_ok hok] at hraised
        cases hraised
      · exact .inr hne
    · exact .inl hsome
  · rintro ⟨hretries, lines, htoo, hmore⟩
    obtain ⟨hread, hlarge⟩ := htoo.handed
    have hmore' := hmore.leading hread
    have hretries' := hmore'.retryReads hretries
    rw [readable_readable] at hretries'
    obtain ⟨hlines, hcalls, hresult⟩ := Parser.dispatchLines_reads collects_started (Nat.zero_le _) hretries'
    have hfedCalls : (Parser.init.feedAll o chunks).calls = (Parser.started.dispatchLines o (Parser.handed o .start chunks)).calls := by
      rcases houtcome with ⟨-, parts, pendingLf, hfed⟩ | ⟨-, message, hfed⟩ <;> rw [hfed, Fed.andThen] <;> split <;> simp
    refine ⟨?_, ?_, ?_⟩
    · rcases houtcome with ⟨hnone, parts, pendingLf, hfed⟩ | ⟨-, message, hfed⟩
      · rcases hresult with ⟨hall, -⟩ | ⟨-, message, herror⟩
        · exact absurd hall (hlarge hnone)
        · exact ⟨message, by rw [hfed, Fed.andThen_error herror]⟩
      · rcases hresult with ⟨-, p', hok⟩ | ⟨-, message', herror⟩
        · exact ⟨message, by rw [hfed, Fed.andThen_ok hok]⟩
        · exact ⟨message', by rw [hfed, Fed.andThen_error herror]⟩
    · rw [happlied, hlines]
      exact hmore'
    · rw [hfedCalls, hcalls]
      exact hmore'.calls hbefore

end

theorem beforeLong_four : BeforeLong ⟨true, true, true, 3, 100, 4300⟩ (lit "aaaa\n") [] := by
  refine ⟨fun line h => absurd h List.not_mem_nil, lit "aaaa", [[]], by decide +kernel, by decide +kernel⟩

/-- Cut in front of its end, a line that is one character too long is rejected. -/
theorem rejectedBefore_cut : RejectedBefore ⟨true, true, true, 3, 100, 4300⟩ [lit "aaaa", lit "\n"] [] :=
  (rejectedBefore_iff (by decide +kernel) beforeLong_four).2 ⟨fun line h => absurd h List.not_mem_nil, [],
    .inl ⟨[lit "aaaa"], lit "aaaa", ⟨[lit "\n"], rfl⟩, by decide +kernel, by decide +kernel⟩, .inl List.nil_prefix⟩

/-- In one piece, it is applied. -/
theorem whole_line_is_applied : ¬ ∀ (o : Options) (chunks before : List Text), ¬ Marked chunks.flatten →
    BeforeLong o chunks.flatten before → RejectedBefore o chunks before := by
  intro hall
  have hrejected := hall ⟨true, true, true, 3, 100, 4300⟩ [lit "aaaa\n"] [] (by decide +kernel)
    (by rw [List.flatten_singleton]; exact beforeLong_four)
  obtain ⟨message, hraised⟩ := hrejected.raised
  have hok : (Parser.init.feedAll ⟨true, true, true, 3, 100, 4300⟩ [lit "aaaa\n"]).result.toBool = true := by
    decide +kernel
  rw [hraised] at hok
  cases hok

end ConfigDirector.EventSource
