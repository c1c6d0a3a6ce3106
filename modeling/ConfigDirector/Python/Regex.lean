/-
Regular expressions by backtracking, as the `re` module runs them: a pattern lists its matches from
a position in the order the engine tries them, and the first of the list is the match.
-/
import ConfigDirector.Python.Text

namespace Python

/-- The constructs the patterns of the program are made of. -/
inductive Regex
  | empty
  | chars (p : CodePoint → Bool)
  /-- A class repeated greedily, at least `min` and at most `max` times. -/
  | rep (p : CodePoint → Bool) (min : ℕ) (max : Option ℕ)
  /-- `^`. -/
  | start
  /-- `$`: at the end, or before a newline that ends the text. -/
  | stop
  | seq (r s : Regex)
  | alt (r s : Regex)
  | group (n : ℕ) (r : Regex)

namespace Regex

/-- `r?`. -/
def opt (r : Regex) : Regex := alt r empty

/-- Where a match stands: whether nothing precedes, what is left, and the groups matched so far. -/
structure Position where
  atStart : Bool
  rest : Text
  groups : List (ℕ × Text)
deriving DecidableEq

/-- The length of the longest run of the class, up to the bound. -/
def runLength (p : CodePoint → Bool) (max : Option ℕ) (s : Text) : ℕ :=
  let n := (s.takeWhile p).length
  match max with
  | some m => min n m
  | none => n

/-- The position after `n` code points. -/
def Position.advance (pos : Position) (n : ℕ) : Position :=
  { pos with atStart := pos.atStart && n == 0, rest := pos.rest.drop n }

/-- Every match from a position, in the order they are tried. -/
def matchesAt : Regex → Position → List Position
  | empty, pos => [pos]
  | chars p, pos =>
    match pos.rest with
    | c :: _ => if p c then [pos.advance 1] else []
    | [] => []
  | rep p min max, pos =>
    let n := runLength p max pos.rest
    ((List.range (n + 1 - min)).map fun i => pos.advance (n - i))
  | start, pos => if pos.atStart then [pos] else []
  | stop, pos => if pos.rest = [] ∨ pos.rest = [0x0A] then [pos] else []
  | seq r s, pos => (r.matchesAt pos).flatMap s.matchesAt
  | alt r s, pos => r.matchesAt pos ++ s.matchesAt pos
  | group n r, pos => (r.matchesAt pos).map fun pos' =>
    { pos' with groups := (n, pos.rest.take (pos.rest.length - pos'.rest.length)) :: pos'.groups }

/-- `match.group(n)`. -/
def Position.group (pos : Position) (n : ℕ) : Option Text := pos.groups.lookup n

/-- `pattern.match(text)`. -/
def matchStart (r : Regex) (text : Text) : Option Position := (r.matchesAt ⟨true, text, []⟩).head?

/-- `pattern.fullmatch(text)`. -/
def fullMatch (r : Regex) (text : Text) : Option Position :=
  (r.matchesAt ⟨true, text, []⟩).find? fun pos => pos.rest.isEmpty

/-- `pattern.search` from a position on: the first position with a match. -/
def searchFrom (r : Regex) (atStart : Bool) : Text → Option Position
  | [] => (r.matchesAt ⟨atStart, [], []⟩).head?
  | c :: s =>
    match (r.matchesAt ⟨atStart, c :: s, []⟩).head? with
    | some pos => some pos
    | none => searchFrom r false s

/-- `pattern.search(text)`. -/
def search (r : Regex) (text : Text) : Option Position := r.searchFrom true text

end Regex

end Python
