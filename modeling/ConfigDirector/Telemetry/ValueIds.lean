/-
Value ids: the digest, cut to 16 bytes and read as a big-endian number, in base 62. All ids have the width that
base 62 needs for 128 bits, so no two digests share one.
-/
import ConfigDirector.Python.Positional
import ConfigDirector.Telemetry.Values

namespace ConfigDirector.Telemetry

open Python

/-! ## The loop -/

/-- The loop of `_to_base62`: the digits emitted, the last one first, until the number is used up. -/
def emitDigits (number : ℕ) (digits : Text) : Text :=
  if number = 0 then digits else emitDigits (number / 62) (digits ++ [base62.getD (number % 62) 0x30])
termination_by number
decreasing_by omega

/-- `rjust(width, "0")`. -/
def rjustZero (width : ℕ) (text : Text) : Text := List.replicate (width - text.length) 0x30 ++ text

theorem emitDigits_eq (number : ℕ) (digits : Text) :
    emitDigits number digits = digits ++ (Nat.digits 62 number).map fun remainder => base62.getD remainder 0x30 := by
  induction number, digits using emitDigits.induct with
  | case1 digits => rw [emitDigits, if_pos rfl, Nat.digits_zero, List.map_nil, List.append_nil]
  | case2 number digits hne ih =>
    rw [emitDigits, if_neg hne, ih, Nat.digits_def' (by norm_num) (Nat.pos_of_ne_zero hne), List.map_cons,
      List.append_assoc, List.singleton_append]

/-- The digits are emitted one after the other, reversed and padded. -/
theorem toBase62_eq_loop (number : ℕ) : toBase62 number = rjustZero valueIdLength (emitDigits number []).reverse := by
  rw [emitDigits_eq, List.nil_append, ← List.map_reverse]
  rfl

/-! ## Ids -/

/-- `_BASE62`, with its characters distinct. -/
def base62Alphabet : Alphabet CodePoint where
  symbols := base62
  nodup := by decide +kernel
  two_le := by decide +kernel

theorem base62Alphabet_base : base62Alphabet.base = 62 := by decide +kernel

theorem toBase62_eq_write (number : ℕ) : toBase62 number = base62Alphabet.write valueIdLength number := by
  rw [Alphabet.write, paddedDigits, List.map_append, List.map_replicate, List.map_reverse, Alphabet.symbol_zero,
    base62Alphabet_base, toBase62]
  simp only [List.length_map, List.length_reverse, List.map_reverse]
  rfl

/-- 22 digits are enough for 128 bits. -/
theorem lt_pow_valueIdLength {n : ℕ} (h : n < 2 ^ 128) : n < base62Alphabet.base ^ valueIdLength := by
  rw [base62Alphabet_base]
  exact h.trans (by norm_num [valueIdLength])

theorem length_toBase62 {n : ℕ} (h : n < 2 ^ 128) : (toBase62 n).length = valueIdLength := by
  rw [toBase62_eq_write, Alphabet.length_write (lt_pow_valueIdLength h)]

theorem mem_base62_of_toBase62 {n : ℕ} {c : CodePoint} (h : c ∈ toBase62 n) : c ∈ base62 := by
  rw [toBase62_eq_write] at h
  exact Alphabet.mem_write h

theorem read_toBase62 (n : ℕ) : base62Alphabet.read (toBase62 n) = some n := by
  rw [toBase62_eq_write, Alphabet.read_write]

theorem toBase62_injective : Function.Injective toBase62 := fun n m h =>
  Alphabet.write_injective valueIdLength (by rwa [toBase62_eq_write, toBase62_eq_write] at h)

/-! ## Digests -/

theorem bigEndian_eq (digest : Bytes) : bigEndian digest = positional 256 (digest.map UInt8.toNat) :=
  (List.foldl_map ..).symm

theorem byte_lt (digest : Bytes) : ∀ d ∈ digest.map UInt8.toNat, d < 256 := by
  intro d hd
  obtain ⟨byte, -, rfl⟩ := List.mem_map.1 hd
  exact byte.toNat_lt

theorem bigEndian_lt (digest : Bytes) : bigEndian digest < 256 ^ digest.length := by
  rw [bigEndian_eq, ← List.length_map (f := UInt8.toNat)]
  exact positional_lt (by norm_num) (byte_lt digest)

theorem bigEndian_lt_of_length {digest : Bytes} (h : digest.length ≤ digestBytes) : bigEndian digest < 2 ^ 128 :=
  calc bigEndian digest < 256 ^ digest.length := bigEndian_lt digest
    _ ≤ 256 ^ digestBytes := Nat.pow_le_pow_right (by norm_num) h
    _ = 2 ^ 128 := by norm_num [digestBytes]

/-- Digests of one length are equal if their numbers are. -/
theorem bigEndian_inj {digest digest' : Bytes} (hlength : digest.length = digest'.length)
    (h : bigEndian digest = bigEndian digest') : digest = digest' := by
  rw [bigEndian_eq, bigEndian_eq] at h
  have hbytes : digest.map UInt8.toNat = digest'.map UInt8.toNat :=
    positional_inj (by norm_num) (by rw [List.length_map, List.length_map, hlength]) (byte_lt digest)
      (byte_lt digest') h
  exact List.map_injective_iff.2 (fun _ _ => UInt8.toNat_inj.1) hbytes

/-- Below `2^128` an id has its fixed width, is made of the characters of base 62 and denotes its number, so two
digests of 16 bytes that have the same id are equal. -/
theorem toBase62_fixedWidth :
    (∀ n < 2 ^ 128, (toBase62 n).length = valueIdLength ∧ (∀ c ∈ toBase62 n, c ∈ base62) ∧
      base62Alphabet.read (toBase62 n) = some n) ∧
    ∀ digest digest' : Bytes, digest.length = digestBytes → digest'.length = digestBytes →
      toBase62 (bigEndian digest) = toBase62 (bigEndian digest') → digest = digest' :=
  ⟨fun n h => ⟨length_toBase62 h, fun _ => mem_base62_of_toBase62, read_toBase62 n⟩,
    fun _ _ h h' heq => bigEndian_inj (h.trans h'.symm) (toBase62_injective heq)⟩

/-- The id of `hello`. -/
theorem toBase62_fixedWidth_hello : toBase62 0x2cf24dba5fb0a30e26e83b2ac5b9e29e = lit "1MoOW7eqAPjhZeoELVwO9G" ∧
    (toBase62 0x2cf24dba5fb0a30e26e83b2ac5b9e29e).length = 22 :=
  ⟨by decide +kernel, (toBase62_fixedWidth.1 0x2cf24dba5fb0a30e26e83b2ac5b9e29e (by norm_num)).1⟩

/-- Whatever the hash function, an id has the fixed width and the characters of base 62. -/
theorem generateValueId_wellFormed {sha256 : Bytes → Bytes} {value id : Text}
    (h : generateValueId sha256 value = .ok id) :
    id.length = valueIdLength ∧ ∀ c ∈ id, c ∈ base62 := by
  unfold generateValueId at h
  split at h
  · rename_i bytes hbytes
    cases h
    have hlength : ((sha256 bytes).take digestBytes).length ≤ digestBytes := List.length_take_le _ _
    exact ⟨length_toBase62 (bigEndian_lt_of_length hlength), fun _ => mem_base62_of_toBase62⟩
  · cases h

end ConfigDirector.Telemetry
