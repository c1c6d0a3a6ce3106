/-
Reading a response (`EventSourceClient._read`): the bytes of each chunk are decoded incrementally and
fed to the parser. A byte order mark is looked for in the text of the first chunk only, so a mark that
the first chunk does not hold whole is taken for the start of the first line.
-/
import ConfigDirector.EventSource.Chunks
import ConfigDirector.Python.Utf8

namespace ConfigDirector.EventSource

open Python

/-! ## Reading -/

/-- The loop of `_read` from some chunk on, with what follows it. -/
def readFrom (o : Options) (decoder : Decoder) (p : Parser) : List Bytes → Fed
  | [] => (p.feed o decoder.finish).andThen fun p => ⟨[], .ok p.finish⟩
  | chunk :: chunks =>
    (p.feed o (decoder.decode chunk).2).andThen fun p => readFrom o (decoder.decode chunk).1 p chunks

/-- What `_read` delivers of a response that is not closed meanwhile: the calls of its handlers. -/
def read (o : Options) (chunks : List Bytes) : Fed := readFrom o .start .init chunks

/-! ## A mark in front -/

/-- The UTF-8 form of the byte order mark. -/
def mark : Bytes := [0xEF, 0xBB, 0xBF]

/-- The chunks without their first `n` bytes: what is left of the chunk in which these end, and the
chunks after it. -/
def dropBytes : ℕ → List Bytes → List Bytes
  | 0, chunks => chunks
  | _, [] => []
  | n + 1, chunk :: chunks =>
    if chunk.length ≤ n + 1 then dropBytes (n + 1 - chunk.length) chunks else chunk.drop (n + 1) :: chunks

theorem dropBytes_flatten : ∀ (n : ℕ) (chunks : List Bytes), (dropBytes n chunks).flatten = chunks.flatten.drop n
  | 0, _ => by rw [dropBytes, List.drop_zero]
  | n + 1, [] => by simp [dropBytes]
  | n + 1, chunk :: chunks => by
    rw [dropBytes, List.flatten_cons, List.drop_append]
    split
    · next h => rw [dropBytes_flatten, List.drop_eq_nil_of_le h, List.nil_append]
    · next h =>
      rw [List.flatten_cons, Nat.sub_eq_zero_of_le (not_le.mp h).le, List.drop_zero]

/-- `data: x` and the blank line that ends the event. -/
def sampleEvent : Bytes := [0x64, 0x61, 0x74, 0x61, 0x3A, 0x20, 0x78, 0x0A, 0x0A]

/-- The limits the client reads with, and the digit limit of the interpreter. -/
def defaultOptions : Options := ⟨true, true, true, 2 ^ 20, 2 ^ 24, 4300⟩

end ConfigDirector.EventSource
