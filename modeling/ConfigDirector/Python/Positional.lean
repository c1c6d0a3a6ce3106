/-
Positional notation: the number that digits denote, and numerals over an alphabet of distinct symbols, padded to a
width. Numbers below the power of the base have one numeral of the width each, and reading it gives the number.
-/
import Mathlib.Data.List.GetD
import Mathlib.Data.Nat.Digits.Lemmas

namespace Python

/-! ## Digits -/

/-- The number denoted by digits, most significant first. -/
def positional (base : ℕ) (digits : List ℕ) : ℕ := digits.foldl (fun n d => base * n + d) 0

theorem positional_concat (base : ℕ) (digits : List ℕ) (d : ℕ) :
    positional base (digits ++ [d]) = base * positional base digits + d := by
  unfold positional
  rw [List.foldl_append, List.foldl_cons, List.foldl_nil]

theorem positional_eq_ofDigits (base : ℕ) (digits : List ℕ) :
    positional base digits = Nat.ofDigits base digits.reverse := by
  induction digits using List.reverseRecOn with
  | nil => rfl
  | append_singleton digits d ih =>
    rw [positional_concat, ih, List.reverse_append, List.reverse_singleton, List.singleton_append, Nat.ofDigits_cons,
      Nat.add_comm]

theorem positional_lt {base : ℕ} (hbase : 1 < base) {digits : List ℕ} (h : ∀ d ∈ digits, d < base) :
    positional base digits < base ^ digits.length := by
  rw [positional_eq_ofDigits, ← List.length_reverse]
  exact Nat.ofDigits_lt_base_pow_length hbase fun d hd => h d (List.mem_reverse.1 hd)

/-- Equally many digits denote a number in one way. -/
theorem positional_inj {base : ℕ} (hbase : 1 < base) {digits digits' : List ℕ}
    (hlength : digits.length = digits'.length) (h : ∀ d ∈ digits, d < base) (h' : ∀ d ∈ digits', d < base)
    (heq : positional base digits = positional base digits') : digits = digits' := by
  rw [positional_eq_ofDigits, positional_eq_ofDigits] at heq
  have hreverse : digits.reverse = digits'.reverse :=
    Nat.ofDigits_inj_of_len_eq hbase (by rw [List.length_reverse, List.length_reverse, hlength])
      (fun d hd => h d (List.mem_reverse.1 hd)) (fun d hd => h' d (List.mem_reverse.1 hd)) heq
  exact List.reverse_injective hreverse

/-- The digits of a number, most significant first, with zeros in front up to a width. -/
def paddedDigits (base width n : ℕ) : List ℕ :=
  List.replicate (width - (Nat.digits base n).length) 0 ++ (Nat.digits base n).reverse

theorem length_paddedDigits {base : ℕ} (hbase : 1 < base) {width n : ℕ} (h : n < base ^ width) :
    (paddedDigits base width n).length = width := by
  have hfits := (Nat.digits_length_le_iff hbase n).2 h
  rw [paddedDigits, List.length_append, List.length_replicate, List.length_reverse]
  omega

theorem paddedDigits_lt {base : ℕ} (hbase : 1 < base) (width n : ℕ) : ∀ d ∈ paddedDigits base width n, d < base := by
  intro d hd
  rw [paddedDigits, List.mem_append, List.mem_reverse] at hd
  rcases hd with hd | hd
  · rw [List.eq_of_mem_replicate hd]
    exact Nat.zero_lt_of_lt hbase
  · exact Nat.digits_lt_base hbase hd

@[simp] theorem positional_paddedDigits (base width n : ℕ) : positional base (paddedDigits base width n) = n := by
  rw [positional_eq_ofDigits, paddedDigits, List.reverse_append, List.reverse_reverse, List.reverse_replicate,
    Nat.ofDigits_append_replicate_zero, Nat.ofDigits_digits]

/-! ## Alphabets -/

/-- The symbols of the digits, in their order. -/
structure Alphabet (α : Type) where
  symbols : List α
  nodup : symbols.Nodup
  two_le : 2 ≤ symbols.length

namespace Alphabet

section Symbols

variable {α : Type} (a : Alphabet α)

def base : ℕ := a.symbols.length

/-- The symbol of zero. -/
def zero : α := a.symbols.get ⟨0, Nat.zero_lt_of_lt a.two_le⟩

def symbol (d : ℕ) : α := a.symbols.getD d a.zero

/-- The numeral of a number, padded to a width. -/
def write (width n : ℕ) : List α := (paddedDigits a.base width n).map a.symbol

theorem one_lt_base : 1 < a.base := a.two_le

variable {a}

theorem symbol_eq {d : ℕ} (h : d < a.base) : a.symbol d = a.symbols.get ⟨d, h⟩ := List.getD_eq_getElem _ _ h

theorem symbol_zero : a.symbol 0 = a.zero := symbol_eq (Nat.zero_lt_of_lt a.one_lt_base)

theorem length_write {width n : ℕ} (h : n < a.base ^ width) : (a.write width n).length = width := by
  rw [write, List.length_map, length_paddedDigits a.one_lt_base h]

theorem mem_write {width n : ℕ} {c : α} (h : c ∈ a.write width n) : c ∈ a.symbols := by
  obtain ⟨d, hd, rfl⟩ := List.mem_map.1 h
  rw [symbol_eq (paddedDigits_lt a.one_lt_base width n d hd)]
  exact List.get_mem _ _

end Symbols

section Reading

variable {α : Type} [DecidableEq α] (a : Alphabet α)

/-- The digit of a symbol. -/
def digit? (c : α) : Option ℕ := if c ∈ a.symbols then some (a.symbols.idxOf c) else none

/-- The number that a text of symbols denotes, most significant digit first. -/
def read (text : List α) : Option ℕ := (text.mapM a.digit?).map (positional a.base)

variable {a}

theorem digit?_symbol {d : ℕ} (h : d < a.base) : a.digit? (a.symbol d) = some d := by
  rw [symbol_eq h, digit?, if_pos (List.get_mem _ _)]
  exact congrArg some (a.nodup.idxOf_getElem d h)

theorem mapM_digit?_symbol {digits : List ℕ} (h : ∀ d ∈ digits, d < a.base) :
    (digits.map a.symbol).mapM a.digit? = some digits := by
  induction digits with
  | nil => rfl
  | cons d digits ih =>
    rw [List.forall_mem_cons] at h
    rw [List.map_cons, List.mapM_cons, digit?_symbol h.1, ih h.2]
    rfl

/-- A numeral denotes its number, however it is padded. -/
@[simp] theorem read_write (width n : ℕ) : a.read (a.write width n) = some n := by
  rw [read, write, mapM_digit?_symbol (paddedDigits_lt a.one_lt_base width n), Option.map_some, positional_paddedDigits]

theorem write_injective (width : ℕ) : Function.Injective (a.write width) := fun n m h => by
  have hread := congrArg a.read h
  rw [read_write, read_write] at hread
  exact Option.some.inj hread

end Reading

end Alphabet

end Python
