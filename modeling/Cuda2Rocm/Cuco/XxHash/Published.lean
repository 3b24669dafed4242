import Cuda2Rocm.Foundation.Reading

/-!
# XXH64 as published

The definition of XXH64 over a byte string, modulo `2 ^ 64` throughout: stripes of 32
bytes over four accumulators, their convergence, the length, the remaining bytes, and
the avalanche.  It speaks of chunks of the string, not of pointers.
-/

namespace Cuda2Rocm
namespace Cuco
namespace XxHash
namespace Published

open Foundation

/-- Arithmetic modulo `2 ^ 64`, with rotations. -/
abbrev Word := BitVec 64

def PRIME64_1 : Word := 11400714785074694791
def PRIME64_2 : Word := 14029467366897019727
def PRIME64_3 : Word := 1609587929392839161
def PRIME64_4 : Word := 9650029242287828579
def PRIME64_5 : Word := 2870177450012600261

/-- The little-endian word of some bytes. -/
def lane (bytes : List UInt8) : Word := BitVec.ofNat 64 (littleEndian bytes)

def round (acc word : Word) : Word :=
  (acc + word * PRIME64_2).rotateLeft 31 * PRIME64_1

def mergeAccumulator (acc accN : Word) : Word :=
  (acc ^^^ round 0 accN) * PRIME64_1 + PRIME64_4

structure Accumulators where
  acc1 : Word
  acc2 : Word
  acc3 : Word
  acc4 : Word

def initAccumulators (seed : Word) : Accumulators :=
  { acc1 := seed + PRIME64_1 + PRIME64_2, acc2 := seed + PRIME64_2, acc3 := seed,
    acc4 := seed - PRIME64_1 }

/-- Each accumulator takes in one of the four words of a stripe. -/
def processStripe (accs : Accumulators) (stripe : List UInt8) : Accumulators :=
  { acc1 := round accs.acc1 (lane (stripe.take 8))
    acc2 := round accs.acc2 (lane ((stripe.drop 8).take 8))
    acc3 := round accs.acc3 (lane ((stripe.drop 16).take 8))
    acc4 := round accs.acc4 (lane ((stripe.drop 24).take 8)) }

def converge (accs : Accumulators) : Word :=
  let acc := accs.acc1.rotateLeft 1 + accs.acc2.rotateLeft 7 + accs.acc3.rotateLeft 12 +
    accs.acc4.rotateLeft 18
  mergeAccumulator
    (mergeAccumulator (mergeAccumulator (mergeAccumulator acc accs.acc1) accs.acc2)
      accs.acc3)
    accs.acc4

/-- Short inputs have no stripes and start from the seed alone. -/
def processStripes (bytes : List UInt8) (seed : Word) : Word :=
  if bytes.length < 32 then seed + PRIME64_5
  else converge ((chunks 32 bytes).foldl processStripe (initAccumulators seed))

def processWord (acc : Word) (word : List UInt8) : Word :=
  (acc ^^^ round 0 (lane word)).rotateLeft 27 * PRIME64_1 + PRIME64_4

def processHalfWord (acc : Word) (word : List UInt8) : Word :=
  (acc ^^^ lane word * PRIME64_1).rotateLeft 23 * PRIME64_2 + PRIME64_3

def processByte (acc : Word) (byte : UInt8) : Word :=
  (acc ^^^ lane [byte] * PRIME64_5).rotateLeft 11 * PRIME64_1

/-- Fewer than eight bytes: a word of four when there is one, then single bytes. -/
def processTail (acc : Word) (bytes : List UInt8) : Word :=
  if bytes.length < 4 then bytes.foldl processByte acc
  else (bytes.drop 4).foldl processByte (processHalfWord acc (bytes.take 4))

/-- Fewer than 32 bytes: words of eight, then the tail. -/
def processRemaining (acc : Word) (bytes : List UInt8) : Word :=
  processTail ((chunks 8 bytes).foldl processWord acc) (leftover 8 bytes)

def avalanche (acc : Word) : Word :=
  let acc := (acc ^^^ acc >>> 33) * PRIME64_2
  let acc := (acc ^^^ acc >>> 29) * PRIME64_3
  acc ^^^ acc >>> 32

def xxh64 (bytes : List UInt8) (seed : Word) : Word :=
  let acc := processStripes bytes seed + BitVec.ofNat 64 bytes.length
  avalanche (processRemaining acc (leftover 32 bytes))

end Published
end XxHash
end Cuco
end Cuda2Rocm
