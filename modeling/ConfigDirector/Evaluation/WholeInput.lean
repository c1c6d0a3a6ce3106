/-
What `rapidhash` reads and how large its words get. The hash is written once more as a computation
that reaches its input through slices only and holds each seed, lane, `a` and `b` it computes: it
returns what the model returns, no slice is cut short, every byte is in one of them, and no word
leaves 64 bits.
-/
import ConfigDirector.Evaluation.Rapidhash
import ConfigDirector.Python.Loader
import Mathlib.Order.Interval.Set.LinearOrder
import Mathlib.Tactic.NormNum

namespace ConfigDirector.Evaluation

open Python

namespace Rapidhash

/-! ## The hash over slices -/

/-- Hashing holds the words it computes. -/
abbrev Hashing := Loader UInt8 ℕ

def load64 (offset : ℤ) : Hashing ℕ := do return fromBytesLittle (← Loader.take offset 8)

def load32 (offset : ℤ) : Hashing ℕ := do return fromBytesLittle (← Loader.take offset 4)

/-- `data[index]`, an `IndexError` out of range. -/
def loadByte (index : ℤ) : Hashing ℕ := do return ((← Loader.take index 1).headD 0).toNat

def loadSmall (length : ℕ) : Hashing ℕ := do
  let v ← loadByte 0
  let last ← loadByte (length - 1)
  return last ||| (((v <<< 5) &&& 0xFF) <<< 40) ||| ((v >>> 3) <<< 48)

/-- `_mix(_read64(data, offset) ^ _SECRET[n], _read64(data, offset + 8) ^ seed)`. -/
def absorb (n : ℕ) (offset : ℤ) (seed : ℕ) : Hashing ℕ := do
  let x ← load64 offset
  let y ← load64 (offset + 8)
  Loader.hold (mix (x ^^^ sec n) (y ^^^ seed))

def Lanes.absorb (l : Lanes) (p : ℕ) : Hashing Lanes := do
  let seed ← Rapidhash.absorb 0 p l.seed
  let see1 ← Rapidhash.absorb 1 (p + 16) l.see1
  let see2 ← Rapidhash.absorb 2 (p + 32) l.see2
  let see3 ← Rapidhash.absorb 3 (p + 48) l.see3
  let see4 ← Rapidhash.absorb 4 (p + 64) l.see4
  let see5 ← Rapidhash.absorb 5 (p + 80) l.see5
  let see6 ← Rapidhash.absorb 6 (p + 96) l.see6
  return ⟨seed, see1, see2, see3, see4, see5, see6⟩

def Lanes.join (l : Lanes) : Hashing ℕ := do
  let seed ← Loader.hold (l.seed ^^^ l.see1)
  let see2 ← Loader.hold (l.see2 ^^^ l.see3)
  let see4 ← Loader.hold (l.see4 ^^^ l.see5)
  let seed ← Loader.hold (seed ^^^ l.see6)
  let see2 ← Loader.hold (see2 ^^^ see4)
  Loader.hold (seed ^^^ see2)

def absorbBlocks : ℕ → Lanes → ℕ → ℕ → Hashing (Lanes × ℕ × ℕ)
  | 0, l, p, i => return (l, p, i)
  | fuel + 1, l, p, i => do
    let l ← l.absorb p
    if i - 112 ≤ 112 then return (l, p + 112, i - 112) else absorbBlocks fuel l (p + 112) (i - 112)

def absorbTail (seed p i : ℕ) : Hashing ℕ := do
  if i ≤ 16 then return seed
  let seed ← absorb 2 p seed
  if i ≤ 32 then return seed
  let seed ← absorb 2 (p + 16) seed
  if i ≤ 48 then return seed
  let seed ← absorb 1 (p + 32) seed
  if i ≤ 64 then return seed
  let seed ← absorb 1 (p + 48) seed
  if i ≤ 80 then return seed
  let seed ← absorb 2 (p + 64) seed
  if i ≤ 96 then return seed
  absorb 1 (p + 80) seed

def loadShort (length seed : ℕ) : Hashing (ℕ × ℕ × ℕ) := do
  if 4 ≤ length then
    let seed ← Loader.hold (seed ^^^ length)
    if 8 ≤ length then
      let a ← Loader.hold (← load64 0)
      let b ← Loader.hold (← load64 (length - 8))
      return (a, b, seed)
    else
      let a ← Loader.hold (← load32 0)
      let b ← Loader.hold (← load32 (length - 4))
      return (a, b, seed)
  else if 0 < length then
    let a ← Loader.hold (← loadSmall length)
    let b ← Loader.hold (← loadByte (length >>> 1 : ℕ))
    return (a, b, seed)
  else
    return (0, 0, seed)

def loadBlocks (length seed : ℕ) : Hashing (ℕ × ℕ × ℕ) := do
  if 112 < length then
    let (l, p, i) ← absorbBlocks length ⟨seed, seed, seed, seed, seed, seed, seed⟩ 0 length
    return (← l.join, p, i)
  else
    return (seed, 0, length)

def loadLong (length seed : ℕ) : Hashing (ℕ × ℕ × ℕ × ℕ) := do
  let (seed, p, i) ← loadBlocks length seed
  let seed ← absorbTail seed p i
  let a ← Loader.hold ((← load64 (p + i - 16)) ^^^ i)
  let b ← Loader.hold (← load64 (p + i - 8))
  return (a, b, seed, i)

def finish (a b seed bi : ℕ) : Hashing ℕ := do
  let a ← Loader.hold (a ^^^ sec 1)
  let b ← Loader.hold (b ^^^ seed)
  return epilogue a b bi

/-- `rapidhash` on an input of that length. -/
def hashing (length seed : ℕ) : Hashing ℕ := do
  let seed ← Loader.hold (seed ^^^ mix (seed ^^^ sec 2) (sec 1))
  if length ≤ 16 then
    let (a, b, seed) ← loadShort length seed
    finish a b seed length
  else
    let (a, b, seed, bi) ← loadLong length seed
    finish a b seed bi

/-! ## Words -/

/-- A word of 64 bits. -/
def Word (w : ℕ) : Prop := w < 2 ^ 64

theorem Word.xor {a b : ℕ} (ha : Word a) (hb : Word b) : Word (a ^^^ b) := Nat.xor_lt_two_pow ha hb

theorem word_and_mask64 (m : ℕ) : Word (m &&& mask64) :=
  Nat.and_lt_two_pow m (by decide : mask64 < 2 ^ 64)

/-- The two halves of a product of words are words. -/
theorem Word.fold_mul {a b : ℕ} (ha : Word a) (hb : Word b) : Word ((a * b &&& mask64) ^^^ (a * b) >>> 64) := by
  refine (word_and_mask64 _).xor ?_
  unfold Word at *
  rw [Nat.shiftRight_eq_div_pow]
  exact Nat.div_lt_of_lt_mul (Nat.mul_lt_mul'' ha hb)

theorem Word.mix {a b : ℕ} (ha : Word a) (hb : Word b) : Word (mix a b) := ha.fold_mul hb

theorem word_sec (n : ℕ) : Word (sec n) := by
  unfold sec
  rw [List.getD_eq_getElem?_getD]
  cases hn : secret[n]? with
  | none => exact Nat.two_pow_pos 64
  | some w =>
    have hall : ∀ w ∈ secret, w < 2 ^ 64 := by decide
    exact hall w (List.mem_of_getElem? hn)

theorem word_epilogue (a b i : ℕ) : Word (epilogue a b i) :=
  ((word_and_mask64 _).xor (word_sec 7)).fold_mul (word_and_mask64 _)

theorem fromBytesLittle_lt (bs : Bytes) : fromBytesLittle bs < 256 ^ bs.length := by
  induction bs with
  | nil => exact Nat.one_pos
  | cons b bs ih =>
    have hb : b.toNat < 256 := b.toNat_lt
    rw [fromBytesLittle, List.length_cons, pow_succ]
    omega

theorem word_fromBytesLittle {bs : Bytes} (h : bs.length ≤ 8) : Word (fromBytesLittle bs) :=
  calc fromBytesLittle bs < 256 ^ bs.length := fromBytesLittle_lt bs
    _ ≤ 256 ^ 8 := Nat.pow_le_pow_right (by decide) h
    _ = 2 ^ 64 := by norm_num

theorem word_read64 (data : Bytes) (offset : ℕ) : Word (read64 data offset) :=
  word_fromBytesLittle (by rw [List.length_take]; exact Nat.min_le_left _ _)

theorem word_read32 (data : Bytes) (offset : ℕ) : Word (read32 data offset) :=
  word_fromBytesLittle (by rw [List.length_take]; omega)

theorem byteAt_lt (data : Bytes) (index : ℕ) : byteAt data index < 256 := (data.getD index 0).toNat_lt

/-- The first byte is spread over bits 45 to 52. -/
theorem readSmall_eq (data : Bytes) (length : ℕ) :
    readSmall data length = byteAt data 0 * 2 ^ 45 ||| byteAt data (length - 1) := by
  have hspread : ∀ v < 256, ((((v <<< 5) &&& 0xFF) <<< 40) ||| ((v >>> 3) <<< 48)) = v * 2 ^ 45 := by decide +kernel
  show byteAt data (length - 1) ||| _ ||| _ = _
  rw [Nat.or_assoc, hspread _ (byteAt_lt data 0), Nat.or_comm]

theorem word_readSmall (data : Bytes) (length : ℕ) : Word (readSmall data length) := by
  have hfirst := byteAt_lt data 0
  have hlast := byteAt_lt data (length - 1)
  rw [readSmall_eq]
  refine Nat.or_lt_two_pow ?_ ?_ <;> omega

theorem word_byteAt (data : Bytes) (index : ℕ) : Word (byteAt data index) :=
  (byteAt_lt data index).trans (by decide)

/-- What a step absorbs two words into is a word. -/
theorem word_absorbed (data : Bytes) (n x y : ℕ) {seed : ℕ} (hseed : Word seed) :
    Word (mix (read64 data x ^^^ sec n) (read64 data y ^^^ seed)) :=
  ((word_read64 data x).xor (word_sec n)).mix ((word_read64 data y).xor hseed)

/-! ## Runs -/

/-- On `data` the computation returns `a` from words, with whole slices that take the bytes of `S`. -/
abbrev Hashes {α : Type} (data : Bytes) (m : Hashing α) (a : α) (S : Set ℕ) : Prop := Loader.Runs data Word m a S

variable {data : Bytes}

theorem load64_hashes {z : ℤ} {offset : ℕ} (hz : z = offset) (h : offset + 8 ≤ data.length) :
    Hashes data (load64 z) (read64 data offset) (Set.Ico offset (offset + 8)) := Loader.Runs.take hz h _

theorem load32_hashes {z : ℤ} {offset : ℕ} (hz : z = offset) (h : offset + 4 ≤ data.length) :
    Hashes data (load32 z) (read32 data offset) (Set.Ico offset (offset + 4)) := Loader.Runs.take hz h _

theorem loadByte_hashes {z : ℤ} {index : ℕ} (hz : z = index) (h : index < data.length) :
    Hashes data (loadByte z) (byteAt data index) (Set.Ico index (index + 1)) := by
  have hbyte : byteAt data index = (((data.drop index).take 1).headD 0).toNat := by
    rw [byteAt, List.getD_eq_getElem?_getD, List.headD_eq_head?_getD, List.head?_take, if_neg (by decide),
      List.head?_drop]
  have hone : index + 1 ≤ data.length := h
  rw [hbyte]
  exact Loader.Runs.take hz hone fun s : Bytes => (s.headD 0).toNat

theorem loadSmall_hashes (h : 0 < data.length) :
    Hashes data (loadSmall data.length) (readSmall data data.length)
      (Set.Ico 0 1 ∪ Set.Ico (data.length - 1) data.length) := by
  refine Loader.Runs.mono (S := Set.Ico 0 1 ∪ (Set.Ico (data.length - 1) (data.length - 1 + 1) ∪ ∅)) ?_ ?_
  · refine (loadByte_hashes (by rfl) h).bind ?_
    exact (loadByte_hashes (Nat.cast_pred h).symm (by omega)).bind (Loader.Runs.pure _)
  · rw [Set.union_empty, Nat.sub_add_cancel h]

theorem absorb_hashes {z : ℤ} {n offset seed : ℕ} (hz : z = offset) (h : offset + 16 ≤ data.length) (hseed : Word seed) :
    Hashes data (absorb n z seed) (mix (read64 data offset ^^^ sec n) (read64 data (offset + 8) ^^^ seed))
      (Set.Ico offset (offset + 16)) := by
  refine Loader.Runs.mono (S := Set.Ico offset (offset + 8) ∪ (Set.Ico (offset + 8) (offset + 8 + 8) ∪ ∅)) ?_ ?_
  · refine (load64_hashes hz (by omega)).bind ((load64_hashes (by omega) (by omega)).bind (Loader.Runs.hold ?_))
    exact word_absorbed data n offset (offset + 8) hseed
  · rw [Set.union_empty, Set.Ico_union_Ico_eq_Ico (by omega) (by omega)]

/-- Every lane is a word. -/
structure Lanes.Words (l : Lanes) : Prop where
  seed : Word l.seed
  see1 : Word l.see1
  see2 : Word l.see2
  see3 : Word l.see3
  see4 : Word l.see4
  see5 : Word l.see5
  see6 : Word l.see6

theorem Lanes.Words.round {l : Lanes} (hl : l.Words) (data : Bytes) (p : ℕ) : (l.round data p).Words where
  seed := word_absorbed data 0 _ _ hl.seed
  see1 := word_absorbed data 1 _ _ hl.see1
  see2 := word_absorbed data 2 _ _ hl.see2
  see3 := word_absorbed data 3 _ _ hl.see3
  see4 := word_absorbed data 4 _ _ hl.see4
  see5 := word_absorbed data 5 _ _ hl.see5
  see6 := word_absorbed data 6 _ _ hl.see6

/-- A round reads its 112 bytes. -/
theorem Lanes.absorb_hashes {l : Lanes} (hl : l.Words) {p : ℕ} (h : p + 112 ≤ data.length) :
    Hashes data (l.absorb p) (l.round data p) (Set.Ico p (p + 112)) := by
  refine Loader.Runs.mono (S := Set.Ico p (p + 16) ∪ (Set.Ico (p + 16) (p + 16 + 16) ∪ (Set.Ico (p + 32) (p + 32 + 16) ∪
    (Set.Ico (p + 48) (p + 48 + 16) ∪ (Set.Ico (p + 64) (p + 64 + 16) ∪ (Set.Ico (p + 80) (p + 80 + 16) ∪
    (Set.Ico (p + 96) (p + 96 + 16) ∪ ∅))))))) ?_ ?_
  · refine (Rapidhash.absorb_hashes (by rfl) (by omega) hl.seed).bind ?_
    refine (Rapidhash.absorb_hashes (by omega) (by omega) hl.see1).bind ?_
    refine (Rapidhash.absorb_hashes (by omega) (by omega) hl.see2).bind ?_
    refine (Rapidhash.absorb_hashes (by omega) (by omega) hl.see3).bind ?_
    refine (Rapidhash.absorb_hashes (by omega) (by omega) hl.see4).bind ?_
    refine (Rapidhash.absorb_hashes (by omega) (by omega) hl.see5).bind ?_
    exact (Rapidhash.absorb_hashes (by omega) (by omega) hl.see6).bind (Loader.Runs.pure _)
  · intro k hk
    simp only [Set.mem_union, Set.mem_Ico, Set.mem_empty_iff_false] at hk ⊢
    omega

theorem Lanes.Words.fold {l : Lanes} (hl : l.Words) : Word l.fold :=
  ((hl.seed.xor hl.see1).xor hl.see6).xor ((hl.see2.xor hl.see3).xor (hl.see4.xor hl.see5))

theorem Lanes.join_hashes {l : Lanes} (hl : l.Words) : Hashes data l.join l.fold ∅ := by
  have hseed := hl.seed.xor hl.see1
  have hsee2 := hl.see2.xor hl.see3
  have hsee4 := hl.see4.xor hl.see5
  refine Loader.Runs.mono (S := ∅ ∪ (∅ ∪ (∅ ∪ (∅ ∪ (∅ ∪ ∅))))) ?_ (Set.empty_subset _)
  refine (Loader.Runs.hold hseed).bind ((Loader.Runs.hold hsee2).bind ((Loader.Runs.hold hsee4).bind ?_))
  refine (Loader.Runs.hold (hseed.xor hl.see6)).bind ((Loader.Runs.hold (hsee2.xor hsee4)).bind ?_)
  exact Loader.Runs.hold hl.fold

/-- The block loop from `p` with `i` bytes left, more than one round takes: it reads everything up to
where it stops, and stops in time. -/
theorem absorbBlocks_hashes : ∀ {fuel p i : ℕ} {l : Lanes}, l.Words → 112 < i → i ≤ fuel → p + i = data.length →
    ∃ l' p' i', blocks data fuel l p i = (l', p', i') ∧ l'.Words ∧ 1 ≤ i' ∧ i' ≤ 112 ∧ p' + i' = data.length ∧
      Hashes data (absorbBlocks fuel l p i) (l', p', i') (Set.Ico p p')
  | 0, _, _, _, _, hi, hfuel, _ => by omega
  | fuel + 1, p, i, l, hl, hi, hfuel, hlength => by
    have hround : Hashes data (l.absorb p) (l.round data p) (Set.Ico p (p + 112)) := Lanes.absorb_hashes hl (by omega)
    by_cases hlast : i - 112 ≤ 112
    · refine ⟨_, p + 112, i - 112, if_pos hlast, hl.round data p, by omega, hlast, by omega, ?_⟩
      refine Loader.Runs.mono (S := Set.Ico p (p + 112) ∪ ∅) (hround.bind ?_) (by rw [Set.union_empty])
      rw [if_pos hlast]
      exact Loader.Runs.pure _
    · obtain ⟨l', p', i', hrun, hl', hlow, hhigh, hrest, hhashes⟩ :=
        @absorbBlocks_hashes fuel (p + 112) (i - 112) _ (hl.round data p) (by omega) (by omega) (by omega)
      refine ⟨l', p', i', (if_neg hlast).trans hrun, hl', hlow, hhigh, hrest, ?_⟩
      refine Loader.Runs.mono (S := Set.Ico p (p + 112) ∪ Set.Ico (p + 112) p') (hround.bind ?_) ?_
      · rw [if_neg hlast]
        exact hhashes
      · intro k hk
        simp only [Set.mem_union, Set.mem_Ico] at hk ⊢
        omega

/-- A step of the tail: with few enough bytes it is done, else it takes 16 of them at `at_`. -/
theorem tailStep_hashes {z : ℤ} {n p i at_ seed v : ℕ} {next : ℕ → Hashing ℕ} (hz : z = (p + at_ : ℕ))
    (h : p + i ≤ data.length) (hseed : Word seed) (hdone : i ≤ at_ + 16 → v = seed)
    (hnext : ∀ seed', ¬ i ≤ at_ + 16 → Word seed' →
      seed' = mix (read64 data (p + at_) ^^^ sec n) (read64 data (p + at_ + 8) ^^^ seed) →
      Hashes data (next seed') v (Set.Ico (p + at_ + 16) (p + i - 16))) :
    Hashes data (if i ≤ at_ + 16 then return seed else absorb n z seed >>= next) v (Set.Ico (p + at_) (p + i - 16)) := by
  by_cases hi : i ≤ at_ + 16
  · rw [if_pos hi, hdone hi]
    refine (Loader.Runs.pure seed).mono fun k hk => ?_
    rw [Set.mem_Ico] at hk
    omega
  · rw [if_neg hi]
    have hword := word_absorbed data n (p + at_) (p + at_ + 8) hseed
    refine ((absorb_hashes hz (by omega) hseed).bind (hnext _ hi hword rfl)).mono fun k hk => ?_
    simp only [Set.mem_union, Set.mem_Ico] at hk ⊢
    omega

/-- The tail reads all but the last 16 bytes. -/
theorem absorbTail_hashes {seed p i : ℕ} (h : p + i ≤ data.length) (hi : i ≤ 112) (hseed : Word seed) :
    Hashes data (absorbTail seed p i) (tail data seed p i) (Set.Ico p (p + i - 16)) := by
  refine tailStep_hashes (by omega) h hseed (fun h0 => if_pos h0) fun s1 h0 w1 e1 => ?_
  refine tailStep_hashes (by omega) h w1 (fun h1 => ?_) fun s2 h1 w2 e2 => ?_
  · simp only [tail, h0, h1, if_true, if_false, e1]
  refine tailStep_hashes (by omega) h w2 (fun h2 => ?_) fun s3 h2 w3 e3 => ?_
  · simp only [tail, h0, h1, h2, if_true, if_false, e1, e2]
  refine tailStep_hashes (by omega) h w3 (fun h3 => ?_) fun s4 h3 w4 e4 => ?_
  · simp only [tail, h0, h1, h2, h3, if_true, if_false, e1, e2, e3]
  refine tailStep_hashes (by omega) h w4 (fun h4 => ?_) fun s5 h4 w5 e5 => ?_
  · simp only [tail, h0, h1, h2, h3, h4, if_true, if_false, e1, e2, e3, e4]
  by_cases h5 : i ≤ 96
  · have hvalue : tail data seed p i = s5 := by
      simp only [tail, h0, h1, h2, h3, h4, h5, if_true, if_false, e1, e2, e3, e4, e5]
    rw [if_pos h5, hvalue]
    refine (Loader.Runs.pure s5).mono fun k hk => ?_
    rw [Set.mem_Ico] at hk
    omega
  · have hvalue : tail data seed p i = mix (read64 data (p + 80) ^^^ sec 1) (read64 data (p + 80 + 8) ^^^ s5) := by
      simp only [tail, h0, h1, h2, h3, h4, h5, if_false, e1, e2, e3, e4, e5]
    rw [if_neg h5, hvalue]
    refine (absorb_hashes (by omega) (by omega) w5).mono fun k hk => ?_
    rw [Set.mem_Ico] at hk ⊢
    omega

theorem word_tail (data : Bytes) {seed : ℕ} (hseed : Word seed) (p i : ℕ) : Word (tail data seed p i) := by
  have habsorbed := word_absorbed data
  unfold tail
  dsimp only
  split_ifs
  · exact hseed
  · exact habsorbed _ _ _ hseed
  · exact habsorbed _ _ _ (habsorbed _ _ _ hseed)
  · exact habsorbed _ _ _ (habsorbed _ _ _ (habsorbed _ _ _ hseed))
  · exact habsorbed _ _ _ (habsorbed _ _ _ (habsorbed _ _ _ (habsorbed _ _ _ hseed)))
  · exact habsorbed _ _ _ (habsorbed _ _ _ (habsorbed _ _ _ (habsorbed _ _ _ (habsorbed _ _ _ hseed))))
  · exact habsorbed _ _ _ (habsorbed _ _ _ (habsorbed _ _ _ (habsorbed _ _ _ (habsorbed _ _ _ (habsorbed _ _ _ hseed)))))

/-- The blocks of an input of more than 16 bytes: where they stop, what is left, and the seed. -/
theorem loadBlocks_hashes {seed : ℕ} (h : 16 < data.length) (hseed : Word seed) :
    ∃ seed' p i, Word seed' ∧ 1 ≤ i ∧ i ≤ 112 ∧ p + i = data.length ∧
      readLong data seed = (read64 data (p + i - 16) ^^^ i, read64 data (p + i - 8), tail data seed' p i, i) ∧
      Hashes data (loadBlocks data.length seed) (seed', p, i) (Set.Ico 0 p) := by
  unfold loadBlocks readLong
  by_cases hblocks : 112 < data.length
  · have hl : Lanes.Words ⟨seed, seed, seed, seed, seed, seed, seed⟩ := ⟨hseed, hseed, hseed, hseed, hseed, hseed, hseed⟩
    obtain ⟨l, p, i, hrun, hl, hlow, hhigh, hrest, hhashes⟩ :=
      absorbBlocks_hashes hl hblocks le_rfl (Nat.zero_add data.length)
    refine ⟨l.fold, p, i, hl.fold, hlow, hhigh, hrest, ?_, ?_⟩
    · simp only [if_pos hblocks, hrun]
    · rw [if_pos hblocks]
      refine Loader.Runs.mono (S := Set.Ico 0 p ∪ (∅ ∪ ∅)) ?_ (by rw [Set.union_empty, Set.union_empty])
      exact hhashes.bind ((Lanes.join_hashes hl).bind (Loader.Runs.pure _))
  · refine ⟨seed, 0, data.length, hseed, by omega, by omega, Nat.zero_add _, ?_, ?_⟩
    · simp only [if_neg hblocks]
    · rw [if_neg hblocks]
      exact (Loader.Runs.pure _).mono (by simp)

/-- A long input: read to its last byte. -/
theorem loadLong_hashes {seed : ℕ} (h : 16 < data.length) (hseed : Word seed) :
    ∃ a b seed' bi, readLong data seed = (a, b, seed', bi) ∧ Word a ∧ Word b ∧ Word seed' ∧
      Hashes data (loadLong data.length seed) (a, b, seed', bi) (Set.Iio data.length) := by
  obtain ⟨seed', p, i, hseed', hlow, hhigh, hrest, hread, hblocks⟩ := loadBlocks_hashes h hseed
  have ha : Word (read64 data (p + i - 16) ^^^ i) :=
    (word_read64 _ _).xor (show i < 2 ^ 64 by omega)
  refine ⟨_, _, _, _, hread, ha, word_read64 _ _, word_tail data hseed' p i, ?_⟩
  refine Loader.Runs.mono (S := Set.Ico 0 p ∪ (Set.Ico p (p + i - 16) ∪ (Set.Ico (p + i - 16) (p + i - 16 + 8) ∪ (∅ ∪
    (Set.Ico (p + i - 8) (p + i - 8 + 8) ∪ (∅ ∪ ∅)))))) ?_ ?_
  · refine hblocks.bind ((absorbTail_hashes hrest.le hhigh hseed').bind ?_)
    refine (load64_hashes (by omega) (by omega)).bind ((Loader.Runs.hold ha).bind ?_)
    refine (load64_hashes (by omega) (by omega)).bind ((Loader.Runs.hold (word_read64 _ _)).bind ?_)
    exact Loader.Runs.pure _
  · intro k hk
    simp only [Set.mem_union, Set.mem_Ico, Set.mem_Iio, Set.mem_empty_iff_false] at hk ⊢
    omega

/-- A short input: read from both ends. -/
theorem loadShort_hashes {seed : ℕ} (h : data.length ≤ 16) (hseed : Word seed) :
    ∃ a b seed', readShort data seed = (a, b, seed') ∧ Word a ∧ Word b ∧ Word seed' ∧
      Hashes data (loadShort data.length seed) (a, b, seed') (Set.Iio data.length) := by
  have hlength : Word (seed ^^^ data.length) := hseed.xor (show data.length < 2 ^ 64 by omega)
  unfold loadShort readShort
  by_cases h4 : 4 ≤ data.length
  · by_cases h8 : 8 ≤ data.length
    · refine ⟨read64 data 0, read64 data (data.length - 8), _, by simp only [if_pos h4, if_pos h8], word_read64 _ _,
        word_read64 _ _, hlength, ?_⟩
      simp only [if_pos h4, if_pos h8]
      refine Loader.Runs.mono (S := ∅ ∪ (Set.Ico 0 (0 + 8) ∪ (∅ ∪ (Set.Ico (data.length - 8) (data.length - 8 + 8) ∪
        (∅ ∪ ∅))))) ?_ ?_
      · refine (Loader.Runs.hold hlength).bind ?_
        refine (load64_hashes (by rfl) (by omega)).bind ((Loader.Runs.hold (word_read64 _ _)).bind ?_)
        refine (load64_hashes (by omega) (by omega)).bind ((Loader.Runs.hold (word_read64 _ _)).bind ?_)
        exact Loader.Runs.pure _
      · intro k hk
        simp only [Set.mem_union, Set.mem_Ico, Set.mem_Iio, Set.mem_empty_iff_false] at hk ⊢
        omega
    · refine ⟨read32 data 0, read32 data (data.length - 4), _, by simp only [if_pos h4, if_neg h8], word_read32 _ _,
        word_read32 _ _, hlength, ?_⟩
      simp only [if_pos h4, if_neg h8]
      refine Loader.Runs.mono (S := ∅ ∪ (Set.Ico 0 (0 + 4) ∪ (∅ ∪ (Set.Ico (data.length - 4) (data.length - 4 + 4) ∪
        (∅ ∪ ∅))))) ?_ ?_
      · refine (Loader.Runs.hold hlength).bind ?_
        refine (load32_hashes (by rfl) (by omega)).bind ((Loader.Runs.hold (word_read32 _ _)).bind ?_)
        refine (load32_hashes (by omega) (by omega)).bind ((Loader.Runs.hold (word_read32 _ _)).bind ?_)
        exact Loader.Runs.pure _
      · intro k hk
        simp only [Set.mem_union, Set.mem_Ico, Set.mem_Iio, Set.mem_empty_iff_false] at hk ⊢
        omega
  · by_cases h0 : 0 < data.length
    · have hhalf : data.length >>> 1 = data.length / 2 := Nat.shiftRight_eq_div_pow _ 1
      refine ⟨readSmall data data.length, byteAt data (data.length >>> 1), _, by simp only [if_neg h4, if_pos h0],
        word_readSmall _ _, word_byteAt _ _, hseed, ?_⟩
      simp only [if_neg h4, if_pos h0]
      refine Loader.Runs.mono (S := (Set.Ico 0 1 ∪ Set.Ico (data.length - 1) data.length) ∪ (∅ ∪
        (Set.Ico (data.length >>> 1) (data.length >>> 1 + 1) ∪ (∅ ∪ ∅)))) ?_ ?_
      · refine (loadSmall_hashes h0).bind ((Loader.Runs.hold (word_readSmall _ _)).bind ?_)
        refine (loadByte_hashes (by rfl) (by omega)).bind ((Loader.Runs.hold (word_byteAt _ _)).bind ?_)
        exact Loader.Runs.pure _
      · intro k hk
        rw [hhalf]
        simp only [Set.mem_union, Set.mem_Ico, Set.mem_Iio, Set.mem_empty_iff_false] at hk ⊢
        omega
    · refine ⟨0, 0, seed, by simp only [if_neg h4, if_neg h0], Nat.two_pow_pos 64, Nat.two_pow_pos 64, hseed, ?_⟩
      simp only [if_neg h4, if_neg h0]
      refine (Loader.Runs.pure _).mono fun k hk => ?_
      rw [Set.mem_Iio] at hk
      omega

theorem finish_hashes {a b seed bi : ℕ} (ha : Word a) (hb : Word b) (hseed : Word seed) :
    Hashes data (finish a b seed bi) (epilogue (a ^^^ sec 1) (b ^^^ seed) bi) ∅ := by
  refine Loader.Runs.mono (S := ∅ ∪ (∅ ∪ ∅)) ?_ (Set.empty_subset _)
  refine (Loader.Runs.hold (ha.xor (word_sec 1))).bind ((Loader.Runs.hold (hb.xor hseed)).bind ?_)
  exact Loader.Runs.pure _

theorem word_firstSeed {seed : ℕ} (hseed : Word seed) : Word (seed ^^^ mix (seed ^^^ sec 2) (sec 1)) :=
  hseed.xor ((hseed.xor (word_sec 2)).mix (word_sec 1))

/-- The hash over slices is the hash: whole slices, every byte, words only. -/
theorem hashing_hashes (data : Bytes) {seed : ℕ} (hseed : Word seed) :
    Hashes data (hashing data.length seed) (rapidhash data seed) (Set.Iio data.length) := by
  have hfirst := word_firstSeed hseed
  unfold hashing rapidhash
  by_cases h : data.length ≤ 16
  · obtain ⟨a, b, seed', hread, ha, hb, hseed', hshort⟩ := loadShort_hashes h hfirst
    simp only [if_pos h, hread]
    refine Loader.Runs.mono (S := ∅ ∪ (Set.Iio data.length ∪ ∅)) ?_ (by simp)
    exact (Loader.Runs.hold hfirst).bind (hshort.bind (finish_hashes ha hb hseed'))
  · obtain ⟨a, b, seed', bi, hread, ha, hb, hseed', hlong⟩ := loadLong_hashes (not_le.1 h) hfirst
    simp only [if_neg h, hread]
    refine Loader.Runs.mono (S := ∅ ∪ (Set.Iio data.length ∪ ∅)) ?_ (by simp)
    exact (Loader.Runs.hold hfirst).bind (hlong.bind (finish_hashes ha hb hseed'))

theorem word_rapidhash (data : Bytes) (seed : ℕ) : Word (rapidhash data seed) := by
  unfold rapidhash
  dsimp only
  split
  · exact word_epilogue _ _ _
  · exact word_epilogue _ _ _

end Rapidhash

open Rapidhash

/-! ## The whole input -/

/-- The hash over slices returns what `rapidhash` does; no slice it takes is cut short, each byte is in
one, what it holds stays in 64 bits, and the block loop stops with 1 to 112 bytes left. -/
theorem rapidhash_reads_whole_input (data : Bytes) {seed : ℕ} (h : seed < 2 ^ 64) :
    (hashing data.length seed).value data = rapidhash data seed ∧
      (∀ l ∈ (hashing data.length seed).loads data, l.Inside data.length) ∧
      (∀ k < data.length, ∃ l ∈ (hashing data.length seed).loads data, l.Reads k) ∧
      (∀ w ∈ (hashing data.length seed).notes data, w < 2 ^ 64) ∧
      (112 < data.length →
        let s := seed ^^^ mix (seed ^^^ sec 2) (sec 1)
        ∃ l p i, blocks data data.length ⟨s, s, s, s, s, s, s⟩ 0 data.length = (l, p, i) ∧ 1 ≤ i ∧ i ≤ 112 ∧
          p + i = data.length) ∧
      readSmall data data.length = byteAt data 0 * 2 ^ 45 ||| byteAt data (data.length - 1) ∧
      rapidhash data seed < 2 ^ 64 := by
  have hruns := hashing_hashes data h
  refine ⟨hruns.value, hruns.inside, fun k hk => hruns.reads k hk, hruns.notes, fun hlong => ?_, readSmall_eq data _,
    word_rapidhash data seed⟩
  intro s
  have hs : Word s := word_firstSeed h
  have hl : Lanes.Words ⟨s, s, s, s, s, s, s⟩ := ⟨hs, hs, hs, hs, hs, hs, hs⟩
  obtain ⟨l, p, i, hrun, -, hlow, hhigh, hrest, -⟩ := absorbBlocks_hashes hl hlong le_rfl (Nat.zero_add data.length)
  exact ⟨l, p, i, hrun, hlow, hhigh, hrest⟩

theorem rapidhash_reads_whole_input_blocks : ∃ l ∈ (hashing 130 5).loads (List.replicate 130 97), l.Reads 129 := by
  have hreads := (rapidhash_reads_whole_input (List.replicate 130 97) (by decide : 5 < 2 ^ 64)).2.2.1 129
  rw [List.length_replicate] at hreads
  exact hreads (by decide)

end ConfigDirector.Evaluation
