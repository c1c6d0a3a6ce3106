/-
rapidhash v3.0, the "fast" variant, as `_rapidhash` computes it: on unbounded integers, masked to 64
bits where the source masks them.
-/
import ConfigDirector.Python.Utf8
import Mathlib.Algebra.Order.Ring.Nat

namespace ConfigDirector.Evaluation

open Python

namespace Rapidhash

def mask64 : ℕ := 0xFFFFFFFFFFFFFFFF

/-- `_SECRET`. -/
def secret : List ℕ :=
  [0x2D358DCCAA6C78A5, 0x8BB84B93962EACC9, 0x4B33A62ED433D4A3, 0x4D5A2DA51DE1AA47, 0xA0761D6478BD642F,
    0xE7037ED1A0B428DB, 0x90ED1765281C388C, 0xAAAAAAAAAAAAAAAA]

def sec (n : ℕ) : ℕ := secret.getD n 0

def mix (a b : ℕ) : ℕ :=
  let m := a * b
  (m &&& mask64) ^^^ (m >>> 64)

/-- `int.from_bytes(bytes, "little")`. -/
def fromBytesLittle : Bytes → ℕ
  | [] => 0
  | b :: bs => b.toNat + 256 * fromBytesLittle bs

def read64 (data : Bytes) (offset : ℕ) : ℕ := fromBytesLittle ((data.drop offset).take 8)

def read32 (data : Bytes) (offset : ℕ) : ℕ := fromBytesLittle ((data.drop offset).take 4)

/-- `data[index]`. -/
def byteAt (data : Bytes) (index : ℕ) : ℕ := (data.getD index 0).toNat

def readSmall (data : Bytes) (length : ℕ) : ℕ :=
  let v := byteAt data 0
  byteAt data (length - 1) ||| (((v <<< 5) &&& 0xFF) <<< 40) ||| ((v >>> 3) <<< 48)

def epilogue (a b i : ℕ) : ℕ :=
  let m0 := a * b
  let m1 := ((m0 &&& mask64) ^^^ sec 7) * (((m0 >>> 64) ^^^ sec 1 ^^^ i) &&& mask64)
  (m1 &&& mask64) ^^^ (m1 >>> 64)

/-- `seed` and `see1` to `see6`. -/
structure Lanes where
  seed : ℕ
  see1 : ℕ
  see2 : ℕ
  see3 : ℕ
  see4 : ℕ
  see5 : ℕ
  see6 : ℕ

/-- One round of the block loop. -/
def Lanes.round (l : Lanes) (data : Bytes) (p : ℕ) : Lanes where
  seed := mix (read64 data p ^^^ sec 0) (read64 data (p + 8) ^^^ l.seed)
  see1 := mix (read64 data (p + 16) ^^^ sec 1) (read64 data (p + 24) ^^^ l.see1)
  see2 := mix (read64 data (p + 32) ^^^ sec 2) (read64 data (p + 40) ^^^ l.see2)
  see3 := mix (read64 data (p + 48) ^^^ sec 3) (read64 data (p + 56) ^^^ l.see3)
  see4 := mix (read64 data (p + 64) ^^^ sec 4) (read64 data (p + 72) ^^^ l.see4)
  see5 := mix (read64 data (p + 80) ^^^ sec 5) (read64 data (p + 88) ^^^ l.see5)
  see6 := mix (read64 data (p + 96) ^^^ sec 6) (read64 data (p + 104) ^^^ l.see6)

/-- The lanes folded into one seed. -/
def Lanes.fold (l : Lanes) : ℕ :=
  let seed := l.seed ^^^ l.see1
  let see2 := l.see2 ^^^ l.see3
  let see4 := l.see4 ^^^ l.see5
  let seed := seed ^^^ l.see6
  let see2 := see2 ^^^ see4
  seed ^^^ see2

/-- The block loop, with `p` and `i` where it stops. A round takes 112 bytes, so the length of the
input is fuel enough. -/
def blocks (data : Bytes) : ℕ → Lanes → ℕ → ℕ → Lanes × ℕ × ℕ
  | 0, l, p, i => (l, p, i)
  | fuel + 1, l, p, i =>
    let l := l.round data p
    if i - 112 ≤ 112 then (l, p + 112, i - 112) else blocks data fuel l (p + 112) (i - 112)

/-- The rounds on what the blocks leave. -/
def tail (data : Bytes) (seed p i : ℕ) : ℕ :=
  let absorb (n at_ seed : ℕ) := mix (read64 data (p + at_) ^^^ sec n) (read64 data (p + at_ + 8) ^^^ seed)
  if i ≤ 16 then seed else
  let seed := absorb 2 0 seed
  if i ≤ 32 then seed else
  let seed := absorb 2 16 seed
  if i ≤ 48 then seed else
  let seed := absorb 1 32 seed
  if i ≤ 64 then seed else
  let seed := absorb 1 48 seed
  if i ≤ 80 then seed else
  let seed := absorb 2 64 seed
  if i ≤ 96 then seed else
  absorb 1 80 seed

/-- The two words an input of at most 16 bytes is read as, and the seed. -/
def readShort (data : Bytes) (seed : ℕ) : ℕ × ℕ × ℕ :=
  let length := data.length
  if 4 ≤ length then
    let seed := seed ^^^ length
    if 8 ≤ length then (read64 data 0, read64 data (length - 8), seed)
    else (read32 data 0, read32 data (length - 4), seed)
  else if 0 < length then (readSmall data length, byteAt data (length >>> 1), seed)
  else (0, 0, seed)

/-- The last 16 bytes of a longer input, the seed, and `bi`. -/
def readLong (data : Bytes) (seed : ℕ) : ℕ × ℕ × ℕ × ℕ :=
  let i := data.length
  let (seed, p, i) :=
    if 112 < i then
      let (l, p, i) := blocks data i ⟨seed, seed, seed, seed, seed, seed, seed⟩ 0 i
      (l.fold, p, i)
    else (seed, 0, i)
  let bi := i
  let seed := tail data seed p i
  (read64 data (p + i - 16) ^^^ bi, read64 data (p + i - 8), seed, bi)

end Rapidhash

open Rapidhash

def rapidhash (data : Bytes) (seed : ℕ) : ℕ :=
  let seed := seed ^^^ mix (seed ^^^ sec 2) (sec 1)
  if data.length ≤ 16 then
    let (a, b, seed) := readShort data seed
    epilogue (a ^^^ sec 1) (b ^^^ seed) data.length
  else
    let (a, b, seed, bi) := readLong data seed
    epilogue (a ^^^ sec 1) (b ^^^ seed) bi

end ConfigDirector.Evaluation
