import Cuda2Rocm.Foundation.Reading

/-!
# The hash function

`detail::xxh64` walks over its input with one pointer: whole stripes of 32 bytes, then
words of 8 bytes, at most one of 4, and single bytes.  The pointer is an offset here,
and every byte that is read is recorded.
-/

namespace Cuda2Rocm
namespace Cuco
namespace XxHash

open Foundation

def prime1 : UInt64 := 0x9E3779B185EBCA87
def prime2 : UInt64 := 0xC2B2AE3D27D4EB4F
def prime3 : UInt64 := 0x165667B19E3779F9
def prime4 : UInt64 := 0x85EBCA77C2B2AE63
def prime5 : UInt64 := 0x27D4EB2F165667C5

/-- The bytes from `input` on. -/
abbrev Input := Nat -> UInt8

def rotl (x : UInt64) (r : Nat) : UInt64 :=
  (x <<< UInt64.ofNat r) ||| (x >>> UInt64.ofNat (64 - r))

def read64 (input : Input) (d : Nat) : Reading UInt64 := do
  let d0 <- Reading.cell input d
  let d1 <- Reading.cell input (d + 1)
  let d2 <- Reading.cell input (d + 2)
  let d3 <- Reading.cell input (d + 3)
  let d4 <- Reading.cell input (d + 4)
  let d5 <- Reading.cell input (d + 5)
  let d6 <- Reading.cell input (d + 6)
  let d7 <- Reading.cell input (d + 7)
  return d0.toUInt64 ||| (d1.toUInt64 <<< 8) ||| (d2.toUInt64 <<< 16) |||
    (d3.toUInt64 <<< 24) ||| (d4.toUInt64 <<< 32) ||| (d5.toUInt64 <<< 40) |||
    (d6.toUInt64 <<< 48) ||| (d7.toUInt64 <<< 56)

def read32 (input : Input) (d : Nat) : Reading UInt32 := do
  let d0 <- Reading.cell input d
  let d1 <- Reading.cell input (d + 1)
  let d2 <- Reading.cell input (d + 2)
  let d3 <- Reading.cell input (d + 3)
  return d0.toUInt32 ||| (d1.toUInt32 <<< 8) ||| (d2.toUInt32 <<< 16) |||
    (d3.toUInt32 <<< 24)

/-- The four accumulators of the stripes. -/
structure Lanes where
  v1 : UInt64
  v2 : UInt64
  v3 : UInt64
  v4 : UInt64

/-- One accumulator takes in the word at the pointer. -/
def takeLane (input : Input) (v : UInt64) (p : Nat) : Reading UInt64 := do
  let word <- read64 input p
  return rotl (v + word * prime2) 31 * prime1

/-- The body of the loop over the stripes. -/
def takeStripe (input : Input) (p : Nat) (lanes : Lanes) : Reading Lanes := do
  let v1 <- takeLane input lanes.v1 p
  let v2 <- takeLane input lanes.v2 (p + 8)
  let v3 <- takeLane input lanes.v3 (p + 16)
  let v4 <- takeLane input lanes.v4 (p + 24)
  return { v1 := v1, v2 := v2, v3 := v3, v4 := v4 }

/-- `do .. while (p <= limit)`, with the pointer it ends at. -/
def stripeLoop (input : Input) (limit p : Nat) (lanes : Lanes) :
    Reading (Lanes × Nat) := do
  let lanes <- takeStripe input p lanes
  if p + 32 ≤ limit then stripeLoop input limit (p + 32) lanes
  else return (lanes, p + 32)
termination_by limit - p

/-- `h` after one accumulator was merged into it. -/
def mergeLane (h v : UInt64) : UInt64 :=
  (h ^^^ (rotl (v * prime2) 31 * prime1)) * prime1 + prime4

/-- `h` from the four accumulators. -/
def mergeLanes (lanes : Lanes) : UInt64 :=
  let h := rotl lanes.v1 1 + rotl lanes.v2 7 + rotl lanes.v3 12 + rotl lanes.v4 18
  let h := mergeLane h lanes.v1
  let h := mergeLane h lanes.v2
  let h := mergeLane h lanes.v3
  mergeLane h lanes.v4

/-- `h` after the stripes, and the pointer behind them. -/
def hashStripes (input : Input) (len : Nat) (seed : UInt64) :
    Reading (UInt64 × Nat) := do
  if 32 ≤ len then
    let (lanes, p) <- stripeLoop input (len - 32) 0
      { v1 := seed + prime1 + prime2, v2 := seed + prime2, v3 := seed,
        v4 := seed - prime1 }
    return (mergeLanes lanes, p)
  else return (seed + prime5, 0)

/-- The body of the loop over the words. -/
def takeWord (input : Input) (p : Nat) (h : UInt64) : Reading UInt64 := do
  let word <- read64 input p
  let k1 := rotl (word * prime2) 31 * prime1
  return rotl (h ^^^ k1) 27 * prime1 + prime4

/-- `while (p + 8 <= end)`. -/
def wordLoop (input : Input) (stop p : Nat) (h : UInt64) : Reading (UInt64 × Nat) := do
  if p + 8 ≤ stop then
    let h <- takeWord input p h
    wordLoop input stop (p + 8) h
  else return (h, p)
termination_by stop - p

/-- `if (p + 4 <= end)`. -/
def halfWord (input : Input) (stop p : Nat) (h : UInt64) : Reading (UInt64 × Nat) := do
  if p + 4 ≤ stop then
    let word <- read32 input p
    let h := h ^^^ (word.toUInt64 * prime1)
    return (rotl h 23 * prime2 + prime3, p + 4)
  else return (h, p)

/-- `while (p < end)`. -/
def byteLoop (input : Input) (stop p : Nat) (h : UInt64) : Reading UInt64 := do
  if p < stop then
    let byte <- Reading.cell input p
    let h := h ^^^ (byte.toUInt64 * prime5)
    byteLoop input stop (p + 1) (rotl h 11 * prime1)
  else return h
termination_by stop - p

def avalanche (h : UInt64) : UInt64 :=
  let h := h ^^^ (h >>> 33)
  let h := h * prime2
  let h := h ^^^ (h >>> 29)
  let h := h * prime3
  h ^^^ (h >>> 32)

def xxh64 (input : Input) (len : Nat) (seed : UInt64) : Reading UInt64 := do
  let (h, p) <- hashStripes input len seed
  let h := h + UInt64.ofNat len
  let (h, p) <- wordLoop input len p h
  let (h, p) <- halfWord input len p h
  let h <- byteLoop input len p h
  return avalanche h

/-!
# Functors
-/

/-- The bytes of an object from its address on. -/
def object {size : Nat} (bytes : Fin size -> UInt8) : Input :=
  fun i => if h : i < size then bytes ⟨i, h⟩ else 0

/-- `xxhash_64`, on the bytes of its key. -/
def xxhash64 {size : Nat} (key : Fin size -> UInt8) : UInt64 :=
  (xxh64 (object key) size 0).value

/-- `default_hash_function`. -/
def defaultHashFunction {size : Nat} (key : Fin size -> UInt8) : UInt64 := xxhash64 key

end XxHash
end Cuco
end Cuda2Rocm
