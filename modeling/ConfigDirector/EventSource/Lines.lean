/-
The parser against the text as a whole: line ends are normalised, the text is split at them, and each
line is read on its own. Feeding the text in chunks makes the calls this reference makes, wherever the
chunks are cut.
-/
import ConfigDirector.EventSource.Parser
import ConfigDirector.Python.Splitting
import Mathlib.Data.List.Basic

namespace ConfigDirector.EventSource

open Python

/-! ## The reference -/

/-- Every line end as one LF: first CRLF, then CR. -/
def normalizeEnds (text : Text) : Text :=
  (replacePair 0x0D 0x0A [0x0A] text).map fun c => if c = 0x0D then 0x0A else c

/-- The lines of a text, the last one unterminated. -/
def allLines (text : Text) : List Text := splitOn 0x0A (normalizeEnds text)

/-- The terminated lines of a text. -/
def terminatedLines (text : Text) : List Text := (allLines text).dropLast

/-- What a line says. -/
inductive Line
  | blank
  | comment (text : Text)
  | field (name value : Text)
deriving DecidableEq

/-- One leading space is part of the delimiter. -/
def dropSpace : Text → Text
  | c :: rest => if c = 0x20 then rest else c :: rest
  | [] => []

def Line.ofText (line : Text) : Line :=
  let name := line.takeWhile (· ≠ 0x3A)
  let value := dropSpace ((line.dropWhile (· ≠ 0x3A)).drop 1)
  if line = [] then .blank else if name = [] then .comment value else .field name value

/-- The event being collected. -/
structure Pending where
  data : List Text
  type : Option Text
  id : Option Text

def Pending.start : Pending := ⟨[], none, none⟩

/-- What a line does to the event being collected, and the calls it makes. -/
def Pending.read (o : Options) (p : Pending) : Line → Pending × List Call
  | .blank =>
    let data := join [0x0A] p.data
    (⟨[], none, p.id⟩, if data ≠ [] ∧ o.onEvent = true then [.event ⟨data, p.type, p.id⟩] else [])
  | .comment text => (p, if o.onComment then [.comment text] else [])
  | .field name value =>
    if name = lit "event" then ({ p with type := some value }, [])
    else if name = lit "data" then ({ p with data := p.data ++ [value] }, [])
    else if name = lit "id" then (if 0 ∈ value then p else { p with id := some value }, [])
    else if name = lit "retry" then
      (p, if isAsciiDigits value = true ∧ o.onRetry = true then [.retry (digitsToNat value)] else [])
    else (p, [])

def Pending.readAll (o : Options) (p : Pending) : List Text → Pending × List Call
  | [] => (p, [])
  | line :: lines =>
    let (p', calls) := p.read o (.ofText line)
    let (p'', calls') := p'.readAll o lines
    (p'', calls ++ calls')

/-- The calls a text makes. -/
def reference (o : Options) (text : Text) : List Call := (Pending.start.readAll o (terminatedLines text)).2

/-! ## What the limits allow -/

/-- The characters a line adds to the data of its event, each data line counting one extra. -/
def dataCost : Line → ℕ
  | .field name value => if name = lit "data" then value.length + 1 else 0
  | _ => 0

/-- Every event has at most `maxEventChars` of data, `used` of them so far. -/
def EventsFit (o : Options) (used : ℕ) : List Text → Prop
  | [] => True
  | line :: lines =>
    used + dataCost (.ofText line) ≤ o.maxEventChars ∧
      EventsFit o (if Line.ofText line = .blank then 0 else used + dataCost (.ofText line)) lines

instance EventsFit.decidable (o : Options) : ∀ (used : ℕ) (lines : List Text), Decidable (EventsFit o used lines)
  | _, [] => isTrue trivial
  | used, line :: lines =>
    have := EventsFit.decidable o (if Line.ofText line = .blank then 0 else used + dataCost (.ofText line)) lines
    inferInstanceAs (Decidable (_ ∧ _))

/-- A retry value that `int` converts. -/
def RetryFits (o : Options) : Line → Prop
  | .field name value => name = lit "retry" → isAsciiDigits value = true → value.length ≤ o.maxDigits
  | _ => True

instance (o : Options) : ∀ line : Line, Decidable (RetryFits o line)
  | .field name _ => inferInstanceAs (Decidable (name = lit "retry" → _))
  | .comment _ | .blank => isTrue trivial

/-- A text that starts with a byte order mark, decoded or not. -/
def Marked (text : Text) : Prop := startsWith text [0xFEFF] = true ∨ startsWith text [0xEF, 0xBB, 0xBF] = true

instance (text : Text) : Decidable (Marked text) :=
  inferInstanceAs (Decidable (startsWith text [0xFEFF] = true ∨ startsWith text [0xEF, 0xBB, 0xBF] = true))

theorem Marked.append {text : Text} (h : Marked text) (rest : Text) : Marked (text ++ rest) := by
  have hstarts : ∀ mark : Text, startsWith text mark = true → startsWith (text ++ rest) mark = true := by
    intro mark hm
    unfold startsWith at hm ⊢
    rw [List.isPrefixOf_iff_prefix] at hm ⊢
    exact hm.trans (List.prefix_append text rest)
  exact h.imp (hstarts _) (hstarts _)

/-- A text without a mark that stays within the limits. -/
structure Within (o : Options) (text : Text) : Prop where
  unmarked : ¬ Marked text
  lines : ∀ line ∈ allLines text, line.length ≤ o.maxLineChars
  events : EventsFit o 0 (terminatedLines text)
  retries : ∀ line ∈ terminatedLines text, RetryFits o (.ofText line)

/-! ## Splitting one character at a time -/

/-- The line begun, and whether a CR has just ended one. -/
structure Splitter where
  line : Text
  afterCr : Bool
deriving DecidableEq

namespace Splitter

/-- One character, with the line it ends. -/
def step (s : Splitter) (c : CodePoint) : Splitter × List Text :=
  if s.afterCr && c = 0x0A then (⟨s.line, false⟩, [])
  else if isLineEnd c then (⟨[], c = 0x0D⟩, [s.line])
  else (⟨s.line ++ [c], false⟩, [])

def run (s : Splitter) : Text → Splitter × List Text
  | [] => (s, [])
  | c :: text => (((s.step c).1.run text).1, (s.step c).2 ++ ((s.step c).1.run text).2)

theorem run_append (s : Splitter) (a b : Text) :
    s.run (a ++ b) = (((s.run a).1.run b).1, (s.run a).2 ++ ((s.run a).1.run b).2) := by
  induction a generalizing s with
  | nil => rfl
  | cons c a ih => simp only [List.cons_append, run, ih, List.append_assoc]

/-- The LF of a CRLF whose CR has ended the line. -/
theorem step_skip {s : Splitter} {c : CodePoint} (hskip : (s.afterCr && c = 0x0A) = true) :
    s.step c = (⟨s.line, false⟩, []) := if_pos hskip

/-- The line ends. -/
theorem step_end {s : Splitter} {c : CodePoint} (hskip : ¬ (s.afterCr && c = 0x0A) = true) (hend : isLineEnd c = true) :
    s.step c = (⟨[], c = 0x0D⟩, [s.line]) := (if_neg hskip).trans (if_pos hend)

/-- One more character of the line begun. -/
theorem step_char {s : Splitter} {c : CodePoint} (hskip : ¬ (s.afterCr && c = 0x0A) = true)
    (hend : ¬ isLineEnd c = true) : s.step c = (⟨s.line ++ [c], false⟩, []) := (if_neg hskip).trans (if_neg hend)

/-- The line begun is the beginning of the next one. -/
theorem begun_leading : ∀ (text : Text) (s : Splitter), ∃ first rest,
    (s.run text).2 ++ [(s.run text).1.line] = first :: rest ∧ s.line.length ≤ first.length
  | [], s => ⟨s.line, [], rfl, le_refl _⟩
  | c :: text, s => by
    rw [run]
    by_cases hskip : (s.afterCr && c = 0x0A) = true
    · rw [step_skip hskip]
      exact begun_leading text ⟨s.line, false⟩
    by_cases hend : isLineEnd c = true
    · rw [step_end hskip hend]
      exact ⟨s.line, _, rfl, le_refl _⟩
    · rw [step_char hskip hend]
      obtain ⟨first, rest, heq, hle⟩ := begun_leading text ⟨s.line ++ [c], false⟩
      refine ⟨first, rest, heq, ?_⟩
      rw [List.length_append] at hle
      omega

/-- The line begun only grows until it ends. -/
theorem line_le (o : Options) (text : Text) (s : Splitter)
    (h : ∀ line ∈ (s.run text).2 ++ [(s.run text).1.line], line.length ≤ o.maxLineChars) :
    s.line.length ≤ o.maxLineChars := by
  obtain ⟨first, rest, heq, hle⟩ := begun_leading text s
  rw [heq] at h
  exact hle.trans (h first List.mem_cons_self)

end Splitter

/-- Put the line begun in front of the first line. -/
def prepend (line : Text) : List Text → List Text
  | [] => [line]
  | first :: rest => (line ++ first) :: rest

theorem splitOn_cons_of_ne {sep c : CodePoint} (h : c ≠ sep) (text : Text) :
    splitOn sep (c :: text) = prepend [c] (splitOn sep text) := by
  rw [splitOn, if_neg h]
  cases splitOn sep text <;> rfl

theorem prepend_append (a b : Text) (lines : List Text) : prepend (a ++ b) lines = prepend a (prepend b lines) := by
  cases lines <;> simp [prepend]

/-- What is left to normalise after a CR: its LF is part of the same line end. -/
def afterEnd (afterCr : Bool) (text : Text) : Text :=
  if afterCr then
    match text with
    | c :: rest => if c = 0x0A then rest else c :: rest
    | [] => []
  else text

theorem normalizeEnds_cons_of_ne {c : CodePoint} (h : c ≠ 0x0D) (text : Text) :
    normalizeEnds (c :: text) = c :: normalizeEnds text := by
  unfold normalizeEnds
  rw [replacePair_cons_of_ne h, List.map_cons, if_neg h]

theorem normalizeEnds_cons_cr (text : Text) :
    normalizeEnds (0x0D :: text) = 0x0A :: normalizeEnds (afterEnd true text) := by
  unfold normalizeEnds afterEnd
  cases text with
  | nil => rfl
  | cons d text =>
    rw [replacePair]
    by_cases hd : d = 0x0A
    · simp [hd]
    · simp [hd]

theorem prepend_nil {lines : List Text} (h : lines ≠ []) : prepend [] lines = lines := by
  cases lines with
  | nil => exact absurd rfl h
  | cons line lines => rfl

theorem allLines_ne_nil (text : Text) : allLines text ≠ [] := splitOn_ne_nil _ _

/-- Splitting one character at a time gives the lines of the text. -/
theorem Splitter.run_eq : ∀ (text : Text) (line : Text) (afterCr : Bool),
    ((Splitter.mk line afterCr).run text).2 ++ [((Splitter.mk line afterCr).run text).1.line] =
      prepend line (allLines (afterEnd afterCr text))
  | [], line, afterCr => by
    have : afterEnd afterCr [] = [] := by cases afterCr <;> rfl
    rw [this]
    simp [run, allLines, normalizeEnds, replacePair, splitOn, prepend]
  | c :: text, line, afterCr => by
    rw [run]
    by_cases hskip : (afterCr && decide (c = 0x0A)) = true
    · have hstep : (Splitter.mk line afterCr).step c = (⟨line, false⟩, []) := by simp only [step, hskip, if_true]
      rw [Bool.and_eq_true, decide_eq_true_eq] at hskip
      obtain ⟨rfl, rfl⟩ := hskip
      rw [hstep, List.nil_append, Splitter.run_eq text line false]
      rfl
    · have hafter : afterEnd afterCr (c :: text) = c :: text := by
        unfold afterEnd
        cases afterCr with
        | false => rfl
        | true =>
          rw [Bool.true_and, decide_eq_true_eq] at hskip
          simp only [if_true, if_neg hskip]
      rw [hafter]
      by_cases hend : isLineEnd c = true
      · have hstep : (Splitter.mk line afterCr).step c = (⟨[], c = 0x0D⟩, [line]) := by
          simp only [step, hskip, hend, if_true]
          rfl
        rw [hstep, List.singleton_append, List.cons_append, Splitter.run_eq text [] (c = 0x0D),
          prepend_nil (allLines_ne_nil _)]
        unfold allLines
        by_cases hcr : c = 0x0D
        · subst hcr
          rw [normalizeEnds_cons_cr, splitOn_cons_self]
          simp [prepend]
        · have hlf : c = 0x0A := by simpa [isLineEnd, hcr] using hend
          subst hlf
          rw [normalizeEnds_cons_of_ne hcr, splitOn_cons_self]
          simp [prepend, afterEnd]
      · have hstep : (Splitter.mk line afterCr).step c = (⟨line ++ [c], false⟩, []) := by
          simp only [step, hskip, hend]
          rfl
        have hcr : c ≠ 0x0D := fun h => hend (by simp [isLineEnd, h])
        have hlf : c ≠ 0x0A := fun h => hend (by simp [isLineEnd, h])
        rw [hstep, List.nil_append, Splitter.run_eq text (line ++ [c]) false]
        unfold allLines
        rw [normalizeEnds_cons_of_ne hcr, splitOn_cons_of_ne hlf, prepend_append]
        rfl

/-- Nothing begun. -/
def Splitter.start : Splitter := ⟨[], false⟩

theorem allLines_eq_run (text : Text) :
    allLines text = (Splitter.start.run text).2 ++ [(Splitter.start.run text).1.line] := by
  rw [Splitter.start, Splitter.run_eq text [] false, prepend_nil (allLines_ne_nil _)]
  rfl

theorem terminatedLines_eq_run (text : Text) : terminatedLines text = (Splitter.start.run text).2 := by
  rw [terminatedLines, allLines_eq_run, List.dropLast_concat]

/-! ## Texts without line ends -/

/-- A text on one line. -/
def OneLine (text : Text) : Prop := ∀ c ∈ text, isLineEnd c = false

theorem oneLine_append {before after : Text} (hbefore : OneLine before) (hafter : OneLine after) : OneLine (before ++ after) := by
  intro c hc
  rcases List.mem_append.1 hc with h | h
  · exact hbefore c h
  · exact hafter c h

/-- A line begun grows by characters that end none. -/
theorem run_begun {line : Text} (h : OneLine line) (begun : Text) :
    (Splitter.mk begun false).run line = (⟨begun ++ line, false⟩, []) := by
  induction line generalizing begun with
  | nil => rw [List.append_nil]; rfl
  | cons c line ih =>
    have hc : ¬ isLineEnd c = true := by rw [h c (List.mem_cons_self ..)]; exact Bool.false_ne_true
    rw [Splitter.run, Splitter.step_char (by simp) hc, ih (fun d hd => h d (List.mem_cons_of_mem _ hd)), List.append_assoc]
    rfl

end ConfigDirector.EventSource
