/-
The event stream parser (`_eventsource.parser`): chunks of text go in, calls of the three handlers come
out. A chunk can end anywhere, so what is unterminated is buffered, and a carriage return that ends a
chunk leaves a mark in case a line feed opens the next one.
-/
import ConfigDirector.Python.Numerals

namespace ConfigDirector.EventSource

open Python

/-! ## Model -/

structure EventSourceMessage where
  data : Text
  type : Option Text
  id : Option Text
deriving DecidableEq

/-- A call of one of the parser's handlers. -/
inductive Call
  | event (message : EventSourceMessage)
  | retry (milliseconds : ℕ)
  | comment (text : Text)
deriving DecidableEq

/-- What feeding a parser raises: `StreamTooLargeError`, or the `ValueError` of `int` on a text with
more digits than the interpreter converts. -/
inductive StreamError
  | tooLarge (message : Text)
  | valueError
deriving DecidableEq

/-- The arguments of the constructor, a handler by whether it was given, and the digit limit of the
interpreter. -/
structure Options where
  onEvent : Bool
  onRetry : Bool
  onComment : Bool
  maxLineChars : ℕ
  maxEventChars : ℕ
  maxDigits : ℕ

structure Parser where
  firstChunk : Bool
  lineParts : List Text
  lineLen : ℕ
  pendingLf : Bool
  eventType : Option Text
  dataParts : List Text
  dataLen : ℕ
  lastEventId : Option Text
deriving DecidableEq

def Parser.init : Parser := ⟨true, [], 0, false, none, [], 0, none⟩

/-- The calls made so far, and the parser, or what was raised after them. -/
structure Fed where
  calls : List Call
  result : Except StreamError Parser

/-- More work after some. -/
def Fed.andThen (fed : Fed) (f : Parser → Fed) : Fed :=
  match fed.result with
  | .ok p => ⟨fed.calls ++ (f p).calls, (f p).result⟩
  | .error e => ⟨fed.calls, .error e⟩

theorem Fed.ok_andThen (p : Parser) (f : Parser → Fed) : Fed.andThen ⟨[], .ok p⟩ f = f p := rfl

theorem Fed.andThen_ok {fed : Fed} {p : Parser} (h : fed.result = .ok p) (f : Parser → Fed) :
    fed.andThen f = ⟨fed.calls ++ (f p).calls, (f p).result⟩ := by
  unfold andThen
  rw [h]

theorem Fed.andThen_error {fed : Fed} {e : StreamError} (h : fed.result = .error e) (f : Parser → Fed) :
    fed.andThen f = ⟨fed.calls, .error e⟩ := by
  unfold andThen
  rw [h]

theorem Fed.andThen_assoc (fed : Fed) (f g : Parser → Fed) :
    (fed.andThen f).andThen g = fed.andThen fun p => (f p).andThen g := by
  obtain ⟨calls, result⟩ := fed
  cases result with
  | error e => rfl
  | ok p =>
    simp only [andThen]
    cases (f p).result <;> simp

def isLineEnd (c : CodePoint) : Bool := c = 0x0D || c = 0x0A

/-! ## Lines and fields -/

/-- `_field_value`. -/
def fieldValue (line : Text) (start : ℕ) : Text :=
  match line.drop start with
  | c :: rest => if c = 0x20 then rest else c :: rest
  | [] => []

namespace Parser

/-- `_reset_event`. -/
def resetEvent (p : Parser) : Parser := { p with eventType := none, dataParts := [], dataLen := 0 }

/-- `_emit_event`. -/
def emitEvent (o : Options) (p : Parser) : Parser × List Call :=
  let data := join [0x0A] p.dataParts
  (p.resetEvent, if !data.isEmpty && o.onEvent then [.event ⟨data, p.eventType, p.lastEventId⟩] else [])

/-- `_apply_field`. -/
def applyField (o : Options) (p : Parser) (field value : Text) : Except StreamError (Parser × List Call) :=
  if field = lit "event" then .ok ({ p with eventType := some value }, [])
  else if field = lit "data" then
    let dataLen := p.dataLen + (value.length + 1)
    if o.maxEventChars < dataLen then
      .error (.tooLarge (lit "A single event exceeded " ++ natText o.maxEventChars ++ lit " characters of data"))
    else .ok ({ p with dataParts := p.dataParts ++ [value], dataLen := dataLen }, [])
  else if field = lit "id" then
    if value.contains 0 then .ok (p, []) else .ok ({ p with lastEventId := some value }, [])
  else if field = lit "retry" then
    if isAsciiDigits value && o.onRetry then
      if o.maxDigits < value.length then .error .valueError else .ok (p, [.retry (digitsToNat value)])
    else .ok (p, [])
  else .ok (p, [])

/-- `_dispatch_line`. -/
def dispatchLine (o : Options) (p : Parser) (line : Text) : Except StreamError (Parser × List Call) :=
  if line.head? = some 0x3A then .ok (p, if o.onComment then [.comment (fieldValue line 1)] else [])
  else if line.isEmpty then .ok (p.emitEvent o)
  else
    let colon := line.idxOf 0x3A
    if colon = line.length then p.applyField o line []
    else p.applyField o (line.take colon) (fieldValue line (colon + 1))

/-- `_finish_line`. -/
def finishLine (o : Options) (p : Parser) (fragment : Text) : Except StreamError (Parser × List Call) :=
  if p.lineParts.isEmpty then p.dispatchLine o fragment
  else { p with lineParts := [], lineLen := 0 }.dispatchLine o (p.lineParts ++ [fragment]).flatten

/-- `_buffer_line`. -/
def bufferLine (o : Options) (p : Parser) (fragment : Text) : Except StreamError Parser :=
  let lineLen := p.lineLen + fragment.length
  if o.maxLineChars < lineLen then
    .error (.tooLarge (lit "A single line exceeded " ++ natText o.maxLineChars ++
      lit " characters without a terminator"))
  else .ok { p with lineLen := lineLen, lineParts := p.lineParts ++ [fragment] }

/-! ## Feeding -/

/-- The loop of `feed`: `fragment` is `chunk[start:index]`, and `afterCr` tells that the character
before `index` was a CR that ended a line, so that an LF at `index` belongs to it. A CR that ends the
chunk leaves the question to the next chunk. -/
def scan (o : Options) (p : Parser) (fragment : Text) (afterCr : Bool) : Text → Fed
  | [] =>
    if afterCr then ⟨[], .ok { p with pendingLf := true }⟩
    else if fragment.isEmpty then ⟨[], .ok p⟩
    else ⟨[], p.bufferLine o fragment⟩
  | c :: rest =>
    if afterCr && c = 0x0A then p.scan o [] false rest
    else if isLineEnd c then
      match p.finishLine o fragment with
      | .error e => ⟨[], .error e⟩
      | .ok (p, calls) => Fed.andThen ⟨calls, .ok p⟩ fun p => p.scan o [] (c = 0x0D) rest
    else p.scan o (fragment ++ [c]) false rest

/-- `_strip_bom`. -/
def stripBom (chunk : Text) : Text :=
  if startsWith chunk [0xFEFF] then chunk.drop 1
  else if startsWith chunk [0xEF, 0xBB, 0xBF] then chunk.drop 3
  else chunk

/-- `feed` once the first chunk has been looked at. -/
def feedChunk (o : Options) (p : Parser) (chunk : Text) : Fed :=
  match chunk with
  | [] => ⟨[], .ok p⟩
  | c :: rest =>
    if p.pendingLf then
      let p := { p with pendingLf := false }
      if c = 0x0A then p.scan o [] false rest else p.scan o [] false (c :: rest)
    else p.scan o [] false (c :: rest)

def feed (o : Options) (p : Parser) (chunk : Text) : Fed :=
  if p.firstChunk then { p with firstChunk := false }.feedChunk o (stripBom chunk) else p.feedChunk o chunk

/-- `finish`: whatever is buffered when the stream ends is discarded. -/
def finish (p : Parser) : Parser :=
  { p with lineParts := [], lineLen := 0, pendingLf := false }.resetEvent

/-- Some chunks, one after another. -/
def feedAll (o : Options) (p : Parser) : List Text → Fed
  | [] => ⟨[], .ok p⟩
  | chunk :: chunks => (p.feed o chunk).andThen fun p => p.feedAll o chunks

end Parser

end ConfigDirector.EventSource
