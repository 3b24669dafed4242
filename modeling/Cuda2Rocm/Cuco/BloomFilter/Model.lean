import Mathlib.Data.Set.Insert
import Mathlib.Data.Set.Lattice
import Cuda2Rocm.Foundation.Runs
import Cuda2Rocm.Foundation.Words

/-!
# The Bloom filter

`cuco::bloom_filter` is a blocked bit array in device memory.  A policy turns a
key into up to sixteen hashes; the first one picks the block and each of them
one bit of it.  Adding sets those bits one atomic operation at a time, probing
reads them.
-/

namespace Cuda2Rocm
namespace Cuco

open Foundation

/-!
# Policies
-/

/-- A filter policy: its word layout and its hash functions.  `hash key k i` is
what `hash(key, out, k)` leaves in `out[i]`. -/
structure FilterPolicy (key : Type _) where
  wordBits : Nat
  wordsPerBlock : Nat
  numHashFunctions : Nat
  bits_pos : 0 < wrapSize (wordsPerBlock * wordBits)
  hashes_pos : 0 < numHashFunctions
  hash : key -> Nat -> Nat -> UInt64

/-- `default_filter_policy`: seven hashes by double hashing. -/
def defaultFilterPolicy {key : Type _} (hash_ : key -> UInt64)
    (wordBits wordsPerBlock : Nat)
    (hbits : 0 < wrapSize (wordsPerBlock * wordBits)) : FilterPolicy key :=
  { wordBits := wordBits
    wordsPerBlock := wordsPerBlock
    numHashFunctions := 7
    bits_pos := hbits
    hashes_pos := by decide
    hash := fun k _ i =>
      let h1 := hash_ k
      let h2 := (h1 >>> 32) ||| 1
      h1 + UInt64.ofNat i * h2 }

/-- `arrow_filter_policy`: eight 32-bit words a block; `xxhash` is its key hash. -/
def arrowFilterPolicy {key : Type _} (xxhash : key -> UInt64) :
    FilterPolicy key :=
  { wordBits := 32
    wordsPerBlock := 8
    numHashFunctions := 7
    bits_pos := by decide
    hashes_pos := by decide
    hash := fun k _ i =>
      let h1 := xxhash k
      let h2 := h1 * 0x9E3779B97F4A7C15
      let blockShift := 5
      (h1 + UInt64.ofNat i * h2) >>> blockShift }

namespace FilterPolicy

variable {key : Type _} (policy : FilterPolicy key)

/-- The number of hashes both kernels use: the policy's, capped at sixteen. -/
def hashCount : Nat :=
  let k := policy.numHashFunctions
  if k > 16 then 16 else k

/-- `words_per_block * bits_per_word` as a `size_t`. -/
def bitsPerBlock : Nat := wrapSize (policy.wordsPerBlock * policy.wordBits)

theorem hashCount_le : policy.hashCount ≤ 16 := by
  simp only [hashCount]
  split
  · exact Nat.le_refl 16
  · omega

theorem wordBits_pos : 0 < policy.wordBits := by
  apply Nat.pos_of_ne_zero
  intro hzero
  have h := policy.bits_pos
  rw [hzero, Nat.mul_zero] at h
  exact absurd h (by decide)

theorem bitsPerBlock_le : policy.bitsPerBlock ≤ policy.wordsPerBlock * policy.wordBits :=
  Nat.mod_le _ _

end FilterPolicy

/-!
# The filter
-/

/-- The fields of `bloom_filter` that no call changes. -/
structure BloomFilter (key : Type _) where
  policy : FilterPolicy key
  blockExtent : Nat
  blockExtent_pos : 0 < blockExtent
  /-- The array has a `size_t` number of words, so no index below wraps. -/
  words_le : blockExtent * policy.wordsPerBlock ≤ sizeMax

namespace BloomFilter

/-- The constructor; the flags say whether the two HIP calls succeed. -/
def construct {key : Type _} (blockExtent : UInt64) (policy : FilterPolicy key)
    (sizeofWord : Nat) (mallocOk memsetOk : Bool) :
    Except String (BloomFilter key) :=
  if hpos : 0 < blockExtent.toNat then
    if hwords : policy.wordsPerBlock ≤ sizeMax / blockExtent.toNat then
      let wordsTotal := blockExtent.toNat * policy.wordsPerBlock
      if wordsTotal ≠ 0 ∧ sizeofWord > sizeMax / wordsTotal then
        .error "cuco::bloom_filter: words_total * sizeof(word_type) overflows size_t"
      else if mallocOk = false then
        .error "cuco::bloom_filter: hipMalloc failed"
      else if memsetOk = false then
        .error "cuco::bloom_filter: hipMemsetAsync failed"
      else
        .ok { policy := policy
              blockExtent := blockExtent.toNat
              blockExtent_pos := hpos
              words_le := by
                rw [Nat.mul_comm]
                exact (Nat.le_div_iff_mul_le hpos).mp hwords }
    else
      .error "cuco::bloom_filter: block_extent * words_per_block overflows size_t"
  else
    .error "cuco::bloom_filter: block_extent must be greater than 0"

variable {key : Type _} (filter : BloomFilter key)

/-- Number of words of the device array. -/
abbrev words : Nat := filter.blockExtent * filter.policy.wordsPerBlock

/-- The device array. -/
abbrev Bits := Fin filter.words -> BitVec filter.policy.wordBits

/-- The array after the constructor's memset. -/
def zeroed : filter.Bits := fun _ => 0

/-- `hashes[i]` of a key in either kernel. -/
def hashes (k : key) (i : Nat) : UInt64 :=
  filter.policy.hash k filter.policy.hashCount i

/-- `hashes[0] % num_blocks`. -/
def blockIdx (k : key) : Nat :=
  (filter.hashes k 0).toNat % filter.blockExtent

/-- `hashes[i] % bits_per_block`. -/
def bitIdx (k : key) (i : Nat) : Nat :=
  (filter.hashes k i).toNat % filter.policy.bitsPerBlock

/-- Word of its block that the `i`-th hash of a key looks at. -/
def wordIdx (k : key) (i : Nat) : Nat :=
  filter.bitIdx k i / filter.policy.wordBits

/-- Bit of that word. -/
def bitOffset (k : key) (i : Nat) : Nat :=
  filter.bitIdx k i % filter.policy.wordBits

theorem wordIdx_lt (k : key) (i : Nat) :
    filter.wordIdx k i < filter.policy.wordsPerBlock := by
  have hbit : filter.bitIdx k i < filter.policy.bitsPerBlock :=
    Nat.mod_lt _ filter.policy.bits_pos
  apply Nat.div_lt_of_lt_mul
  rw [Nat.mul_comm]
  exact Nat.lt_of_lt_of_le hbit filter.policy.bitsPerBlock_le

theorem bitOffset_lt (k : key) (i : Nat) :
    filter.bitOffset k i < filter.policy.wordBits :=
  Nat.mod_lt _ filter.policy.wordBits_pos

/-- The word of the whole array: `block[word_idx]` with
`block = bits + block_idx * words_per_block`. -/
theorem wordOf_lt (k : key) (i : Nat) :
    filter.blockIdx k * filter.policy.wordsPerBlock + filter.wordIdx k i <
      filter.words := by
  have hblock : filter.blockIdx k < filter.blockExtent :=
    Nat.mod_lt _ filter.blockExtent_pos
  have hword := filter.wordIdx_lt k i
  calc
    filter.blockIdx k * filter.policy.wordsPerBlock + filter.wordIdx k i
        < filter.blockIdx k * filter.policy.wordsPerBlock +
            filter.policy.wordsPerBlock := Nat.add_lt_add_left hword _
    _ = (filter.blockIdx k + 1) * filter.policy.wordsPerBlock := by
          rw [Nat.add_mul, Nat.one_mul]
    _ ≤ filter.words := Nat.mul_le_mul_right _ hblock

/-- Index of that word in the array. -/
def wordOf (k : key) (i : Nat) : Fin filter.words :=
  ⟨filter.blockIdx k * filter.policy.wordsPerBlock + filter.wordIdx k i,
    filter.wordOf_lt k i⟩

/-- `WordT{1} << bit_offset`. -/
def mask (k : key) (i : Nat) : BitVec filter.policy.wordBits :=
  BitVec.ofNat filter.policy.wordBits 1 <<< filter.bitOffset k i

/-!
# The kernels
-/

/-- One iteration of the loop of `bloom_add_kernel`. -/
def addIteration (bits : filter.Bits) (k : key) (i : Nat) : filter.Bits :=
  Function.update bits (filter.wordOf k i)
    (bits (filter.wordOf k i) ||| filter.mask k i)

/-- The loop of `bloom_probe_kernel`, from iteration `i` with so many to go. -/
def probeLoop (bits : filter.Bits) (k : key) : Nat -> Nat -> Bool -> Bool
  | _, 0, found => found
  | i, left + 1, found =>
      if i ≥ filter.policy.hashCount then found
      else if found = false then found
      else if bits (filter.wordOf k i) &&& filter.mask k i = 0 then
        probeLoop bits k (i + 1) left false
      else probeLoop bits k (i + 1) left found

/-- What one thread of `bloom_probe_kernel` writes for its key. -/
def probeKernel (bits : filter.Bits) (k : key) : Bool :=
  filter.probeLoop bits k 0 16 true

/-- A thread of `bloom_add_kernel`: its key and its loop counter. -/
structure AddThread (key : Type _) where
  keyOf : key
  next : Nat

/-- The device array and every add thread started so far. -/
structure AddState where
  bits : filter.Bits
  threads : List (AddThread key)

/-- A batch is launched, or one thread makes its next atomic or. -/
inductive AddEvent (key : Type _) where
  | addAsync (keys : List key)
  | atomicOr (thread : Nat)

/-- The thread has left the loop. -/
def AddThread.finished (policy : FilterPolicy key) (thread : AddThread key) : Bool :=
  decide (thread.next ≥ 16 ∨ thread.next ≥ policy.hashCount)

/-- Threads interleave at their atomic ors. -/
def addMachine : Machine (AddState filter) (AddEvent key) where
  step s e :=
    match e with
    | .addAsync keys =>
        some { s with
          threads := s.threads ++ keys.map (fun k => { keyOf := k, next := 0 }) }
    | .atomicOr thread =>
        match s.threads[thread]? with
        | none => none
        | some running =>
            if running.finished filter.policy then none
            else some
              { bits := filter.addIteration s.bits running.keyOf running.next
                threads := s.threads.set thread
                  { running with next := running.next + 1 } }

/-- A freshly constructed filter. -/
def initial : AddState filter :=
  { bits := filter.zeroed, threads := [] }

/-- All keys of the batches launched in a run, in order. -/
def addedKeys : List (AddEvent key) -> List key
  | [] => []
  | .addAsync keys :: rest => keys ++ addedKeys rest
  | .atomicOr _ :: rest => addedKeys rest

end BloomFilter

end Cuco
end Cuda2Rocm
