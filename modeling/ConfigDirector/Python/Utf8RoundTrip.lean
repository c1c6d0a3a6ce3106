/-
Decoding undoes encoding: the bytes of a text without surrogates are decoded as that text, by the incremental
decoder too, wherever they are cut.
-/
import ConfigDirector.Python.Encodable
import ConfigDirector.Python.Utf8

namespace Python

namespace Decoder

/-! ## One character -/

theorem codePoint_val (c : CodePoint) : codePoint c.val = c := by
  unfold codePoint
  rw [dif_pos c.isLt]

theorem first_ascii : ∀ n < 0x80, first (UInt8.ofNat n) = (start, [codePoint n]) := by decide +kernel

theorem first_two : ∀ n < 0x20, 2 ≤ n → first (UInt8.ofNat (0xC0 + n)) = (⟨1, n, 0x80, 0xBF⟩, []) := by decide +kernel

/-- The range of the byte after the first of three, which excludes longer forms and surrogates. -/
def secondOfThree (n : ℕ) : UInt8 × UInt8 := if n = 0 then (0xA0, 0xBF) else if n = 0xD then (0x80, 0x9F) else (0x80, 0xBF)

theorem first_three : ∀ n < 0x10,
    first (UInt8.ofNat (0xE0 + n)) = (⟨2, n, (secondOfThree n).1, (secondOfThree n).2⟩, []) := by decide +kernel

/-- The range of the byte after the first of four, which excludes longer forms and what is beyond the last code point. -/
def secondOfFour (n : ℕ) : UInt8 × UInt8 := if n = 0 then (0x90, 0xBF) else if n = 4 then (0x80, 0x8F) else (0x80, 0xBF)

theorem first_four : ∀ n < 5,
    first (UInt8.ofNat (0xF0 + n)) = (⟨3, n, (secondOfFour n).1, (secondOfFour n).2⟩, []) := by decide +kernel

/-- A continuation byte in the range that is expected. -/
theorem step_continuation (owed bits m : ℕ) (low high : UInt8) (hm : m < 0x40) (hlow : low.toNat ≤ 0x80 + m)
    (hhigh : 0x80 + m ≤ high.toNat) : step ⟨owed + 1, bits, low, high⟩ (UInt8.ofNat (0x80 + m)) =
      if owed = 0 then (start, [codePoint (bits * 0x40 + m)]) else (⟨owed, bits * 0x40 + m, 0x80, 0xBF⟩, []) := by
  have hbyte : (UInt8.ofNat (0x80 + m)).toNat = 0x80 + m := by
    rw [UInt8.toNat_ofNat', Nat.mod_eq_of_lt (by omega)]
  have hrange : low ≤ UInt8.ofNat (0x80 + m) ∧ UInt8.ofNat (0x80 + m) ≤ high := by
    rw [UInt8.le_iff_toNat_le, UInt8.le_iff_toNat_le, hbyte]
    exact ⟨hlow, hhigh⟩
  unfold step
  dsimp only
  rw [if_pos hrange, hbyte, Nat.add_sub_cancel_left]

/-- The last byte of a character. -/
theorem step_last (bits m : ℕ) (low high : UInt8) {c : CodePoint} (hm : m < 0x40) (hlow : low.toNat ≤ 0x80 + m)
    (hhigh : 0x80 + m ≤ high.toNat) (hc : bits * 0x40 + m = c.val) :
    step ⟨1, bits, low, high⟩ (UInt8.ofNat (0x80 + m)) = (start, [c]) := by
  rw [step_continuation _ _ _ _ _ hm hlow hhigh, if_pos rfl, hc, codePoint_val]

theorem secondOfThree_range (n m : ℕ) (hlow : n = 0 → 0x20 ≤ m) (hsurrogate : n = 0xD → m < 0x20) (hm : m < 0x40) :
    (secondOfThree n).1.toNat ≤ 0x80 + m ∧ 0x80 + m ≤ (secondOfThree n).2.toNat := by
  unfold secondOfThree
  split
  · rename_i hn
    have hm' := hlow hn
    exact ⟨show 0xA0 ≤ 0x80 + m by omega, show 0x80 + m ≤ 0xBF by omega⟩
  · split
    · rename_i hn
      have hm' := hsurrogate hn
      exact ⟨show 0x80 ≤ 0x80 + m by omega, show 0x80 + m ≤ 0x9F by omega⟩
    · exact ⟨show 0x80 ≤ 0x80 + m by omega, show 0x80 + m ≤ 0xBF by omega⟩

theorem secondOfFour_range (n m : ℕ) (hlow : n = 0 → 0x10 ≤ m) (hhigh : n = 4 → m < 0x10) (hm : m < 0x40) :
    (secondOfFour n).1.toNat ≤ 0x80 + m ∧ 0x80 + m ≤ (secondOfFour n).2.toNat := by
  unfold secondOfFour
  split
  · rename_i hn
    have hm' := hlow hn
    exact ⟨show 0x90 ≤ 0x80 + m by omega, show 0x80 + m ≤ 0xBF by omega⟩
  · split
    · rename_i hn
      have hm' := hhigh hn
      exact ⟨show 0x80 ≤ 0x80 + m by omega, show 0x80 + m ≤ 0x8F by omega⟩
    · exact ⟨show 0x80 ≤ 0x80 + m by omega, show 0x80 + m ≤ 0xBF by omega⟩

/-- The bytes of a character are decoded as it, and no byte is owed. -/
theorem decode_utf8 {c : CodePoint} (h : c.isSurrogate = false) : start.decode c.utf8 = (start, [c]) := by
  have hc := c.isLt
  have hrange : ¬ (0xD800 ≤ c.val ∧ c.val ≤ 0xDFFF) := by
    unfold CodePoint.isSurrogate at h
    rw [Bool.and_eq_false_iff, decide_eq_false_iff_not, decide_eq_false_iff_not] at h
    omega
  have h80 : (0x80 : UInt8).toNat = 0x80 := rfl
  have hBF : (0xBF : UInt8).toNat = 0xBF := rfl
  unfold CodePoint.utf8
  split
  · rename_i hone
    have hfirst : start.step (UInt8.ofNat c.val) = _ := first_ascii c.val hone
    rw [decode, hfirst, codePoint_val]
    rfl
  split
  · have hfirst : start.step (UInt8.ofNat (0xC0 + c.val / 0x40)) = _ := first_two (c.val / 0x40) (by omega) (by omega)
    have hsecond := step_last (c.val / 0x40) (c.val % 0x40) 0x80 0xBF (c := c)
      (by omega) (by omega) (by omega) (by omega)
    rw [decode, hfirst]
    dsimp only
    rw [decode, hsecond]
    rfl
  split
  · have hfirst : start.step (UInt8.ofNat (0xE0 + c.val / 0x1000)) = _ := first_three (c.val / 0x1000) (by omega)
    obtain ⟨hlow, hhigh⟩ := secondOfThree_range (c.val / 0x1000) (c.val / 0x40 % 0x40) (by omega) (by omega)
      (by omega)
    have hsecond := step_continuation 1 (c.val / 0x1000) _ _ _ (by omega) hlow hhigh
    have hthird := step_last (c.val / 0x1000 * 0x40 + c.val / 0x40 % 0x40) (c.val % 0x40) 0x80
      0xBF (c := c) (by omega) (by omega) (by omega) (by omega)
    rw [if_neg one_ne_zero] at hsecond
    rw [decode, hfirst]
    dsimp only
    rw [decode, hsecond]
    dsimp only
    rw [decode, hthird]
    rfl
  · have hfirst : start.step (UInt8.ofNat (0xF0 + c.val / 0x40000)) = _ := first_four (c.val / 0x40000) (by omega)
    obtain ⟨hlow, hhigh⟩ := secondOfFour_range (c.val / 0x40000) (c.val / 0x1000 % 0x40) (by omega) (by omega)
      (by omega)
    have hsecond := step_continuation 2 (c.val / 0x40000) _ _ _ (by omega) hlow hhigh
    have hthird := step_continuation 1 (c.val / 0x40000 * 0x40 + c.val / 0x1000 % 0x40)
      (c.val / 0x40 % 0x40) 0x80 0xBF (by omega) (by omega) (by omega)
    have hfourth := step_last ((c.val / 0x40000 * 0x40 + c.val / 0x1000 % 0x40) * 0x40 + c.val / 0x40 % 0x40)
      (c.val % 0x40) 0x80 0xBF (c := c) (by omega) (by omega) (by omega) (by omega)
    rw [if_neg two_ne_zero] at hsecond
    rw [if_neg one_ne_zero] at hthird
    rw [decode, hfirst]
    dsimp only
    rw [decode, hsecond]
    dsimp only
    rw [decode, hthird]
    dsimp only
    rw [decode, hfourth]
    rfl

/-! ## A text -/

theorem decode_flatMap_utf8 {s : Text} (h : Encodable s) : start.decode (s.flatMap CodePoint.utf8) = (start, s) := by
  induction s with
  | nil => rfl
  | cons c s ih =>
    obtain ⟨hc, hs⟩ := encodable_cons.1 h
    rw [List.flatMap_cons, decode_append, decode_utf8 hc]
    dsimp only
    rw [ih hs]
    rfl

end Decoder

/-- `s.encode("utf-8").decode("utf-8", errors="replace")` is `s`. -/
theorem decodeReplace_encode {s : Text} {bytes : Bytes} (h : encode? s = some bytes) : decodeReplace bytes = s := by
  unfold encode? at h
  split at h
  · rename_i hencodable
    cases h
    unfold decodeReplace
    rw [Decoder.decode_flatMap_utf8 hencodable]
    exact List.append_nil s
  · cases h

end Python
