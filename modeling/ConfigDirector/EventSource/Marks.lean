/-
A byte order mark in front of a stream (`EventSourceParser._strip_bom`). Only the first text the parser is fed is looked
at, so a mark that reaches it cut, or behind another one, is taken for the start of the first line, and that line is
lost.
-/
import ConfigDirector.EventSource.LineLimit

namespace ConfigDirector.EventSource

open Python

/-- The text of a mark, or of several, or none: one line, of which no field starts. -/
structure Marking (marks : Text) : Prop where
  oneLine : OneLine marks
  foreign : ∀ c ∈ marks.head?, 0x7A < c.val

namespace Splitter

end Splitter

/-! ## What is handed over behind a mark -/

namespace Parser

end Parser

theorem Marking.append {marks marks' : Text} (h : Marking marks) (h' : Marking marks') : Marking (marks ++ marks') := by
  refine ⟨oneLine_append h.oneLine h'.oneLine, fun c hc => ?_⟩
  cases marks with
  | nil => exact h'.foreign c hc
  | cons d marks => exact h.foreign c hc

end ConfigDirector.EventSource
