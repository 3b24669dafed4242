import Cuda2Rocm.Cuco.BloomFilter.Model
import Cuda2Rocm.Cuco.StaticSet.Model
import Cuda2Rocm.Foundation.Requests

/-!
# Accesses of the device code

The constructors and the kernels once more, now in the arithmetic of `size_t` and over raw
device memory: an index is a request, whether memory is there or not, and what comes back
for it is up to the surroundings.
-/

namespace Cuda2Rocm
namespace Cuco
namespace Accesses

open Foundation

/-!
# Guarded products
-/

/-- `SIZE_MAX`. -/
def SIZE_MAX : UInt64 := 0xFFFFFFFFFFFFFFFF

theorem toNat_SIZE_MAX : SIZE_MAX.toNat = sizeMax := rfl

/-- The product of two words does not wrap. -/
def Exact (a b : UInt64) : Prop := a.toNat * b.toNat < 2 ^ 64

theorem Exact.toNat_mul {a b : UInt64} (h : Exact a b) : (a * b).toNat = a.toNat * b.toNat := by
  rw [UInt64.toNat_mul]
  exact Nat.mod_eq_of_lt h

theorem ne_zero_iff {a : UInt64} : a ≠ 0 <-> a.toNat ≠ 0 := by
  rw [not_iff_not, ← UInt64.toNat_inj, UInt64.toNat_zero]

theorem toNat_pos {a : UInt64} (h : a ≠ 0) : 0 < a.toNat :=
  Nat.pos_of_ne_zero (ne_zero_iff.mp h)

/-- The guard `a != 0 && b > SIZE_MAX / a`, in numbers. -/
theorem guard_iff {a b : UInt64} :
    (a ≠ 0 ∧ b > SIZE_MAX / a) <-> (a.toNat ≠ 0 ∧ b.toNat > sizeMax / a.toNat) := by
  rw [ne_zero_iff, gt_iff_lt, UInt64.lt_iff_toNat_lt, UInt64.toNat_div, toNat_SIZE_MAX]

/-- What the guard lets pass. -/
theorem exact_of_guard {a b : UInt64} (h : ¬ (a ≠ 0 ∧ b > SIZE_MAX / a)) : Exact a b := by
  rw [guard_iff, not_and, not_lt] at h
  unfold Exact
  by_cases ha : a.toNat = 0
  · rw [ha, Nat.zero_mul]
    decide
  · have hproduct := (Nat.le_div_iff_mul_le (Nat.pos_of_ne_zero ha)).mp (h ha)
    rw [Nat.mul_comm]
    exact Nat.lt_of_le_of_lt hproduct (by decide)

theorem toNat_mod_lt (a : UInt64) {b : UInt64} (hb : 0 < b.toNat) : (a % b).toNat < b.toNat := by
  rw [UInt64.toNat_mod]
  exact Nat.mod_lt _ hb

/-- An extent as a constructor keeps it, and the bytes it has asked `hipMalloc` for. -/
structure Allocated where
  extent : UInt64
  bytes : UInt64
deriving DecidableEq, Repr

/-- The elements that an allocation has room for. -/
def Allocated.count (a : Allocated) (sizeofElement : UInt64) : Nat :=
  a.bytes.toNat / sizeofElement.toNat

/-!
# The Bloom filter
-/

/-- Any policy: its layout and its hashes, `hash key k i` being what `hash(key, out, k)`
leaves in `out[i]`. -/
structure Policy (key : Type _) where
  wordsPerBlock : UInt64
  sizeofWord : UInt64
  numHashFunctions : UInt64
  hash : key -> UInt64 -> Nat -> UInt64
  words_pos : 0 < wordsPerBlock.toNat
  words_le : wordsPerBlock.toNat ≤ 2 ^ 32
  /-- 32-bit or 64-bit words. -/
  sizeofWord_eq : sizeofWord = 4 ∨ sizeofWord = 8

/-- `bloom_filter::bloom_filter`; the flags say whether the two HIP calls succeed. -/
def newBloomFilter (blockExtent wordsPerBlock sizeofWord : UInt64) (mallocOk memsetOk : Bool) :
    Except String Allocated :=
  if blockExtent = 0 then
    .error "cuco::bloom_filter: block_extent must be greater than 0"
  else if blockExtent ≠ 0 ∧ wordsPerBlock > SIZE_MAX / blockExtent then
    .error "cuco::bloom_filter: block_extent * words_per_block overflows size_t"
  else
    let wordsTotal := blockExtent * wordsPerBlock
    if wordsTotal ≠ 0 ∧ sizeofWord > SIZE_MAX / wordsTotal then
      .error "cuco::bloom_filter: words_total * sizeof(word_type) overflows size_t"
    else
      let bytes := wordsTotal * sizeofWord
      if mallocOk = false then
        .error "cuco::bloom_filter: hipMalloc failed"
      else if memsetOk = false then
        .error "cuco::bloom_filter: hipMemsetAsync failed"
      else .ok { extent := blockExtent, bytes := bytes }

/-- What the kernels of the filter compute and touch that has a bound to keep. -/
inductive FilterRequest (width : Nat) where
  /-- `hashes[i] = value`. -/
  | storeHash (i : Nat) (value : UInt64)
  | loadHash (i : Nat)
  /-- A product that must not wrap. -/
  | product (a b : UInt64)
  /-- A shift of a word by so many bits. -/
  | shift (amount : UInt64)
  /-- `atomicOr(&block[word_idx], mask)` with `block = bits + start`. -/
  | atomicOr (start wordIdx : UInt64) (mask : BitVec width)
  /-- `block[word_idx]`. -/
  | load (start wordIdx : UInt64)
deriving DecidableEq, Repr

/-- What comes back: the hash or the word that is loaded. -/
abbrev FilterRequest.Answer {width : Nat} : FilterRequest width -> Type
  | .loadHash _ => UInt64
  | .load _ _ => BitVec width
  | _ => Unit

/-- Code of the filter's kernels. -/
abbrev FilterCode (width : Nat) (result : Type) :=
  Code (FilterRequest width) FilterRequest.Answer result

section Primitives

variable {width : Nat}

def storeHash (i : Nat) (value : UInt64) : FilterCode width Unit :=
  Code.askFor (FilterRequest.storeHash i value)

def loadHash (i : Nat) : FilterCode width UInt64 :=
  Code.askFor (FilterRequest.loadHash i)

def times (a b : UInt64) : FilterCode width UInt64 :=
  Code.ask (FilterRequest.product a b) fun _ => pure (a * b)

/-- `WordT{1} << amount`. -/
def oneShifted (amount : UInt64) : FilterCode width (BitVec width) :=
  Code.ask (FilterRequest.shift amount) fun _ => pure (BitVec.ofNat width 1 <<< amount.toNat)

def atomicOr (start wordIdx : UInt64) (mask : BitVec width) : FilterCode width Unit :=
  Code.askFor (FilterRequest.atomicOr start wordIdx mask)

def load (start wordIdx : UInt64) : FilterCode width (BitVec width) :=
  Code.askFor (FilterRequest.load start wordIdx)

end Primitives

section Kernels

variable {key : Type _} (policy : Policy key)

/-- The width of a word. -/
def Policy.width : Nat := policy.sizeofWord.toNat * 8

/-- `k`, capped. -/
def hashCount : UInt64 :=
  let k := policy.numHashFunctions
  if k > 16 then 16 else k

/-- `policy.hash(key, hashes, k)`. -/
def storeHashes (keyOf : key) (k : UInt64) : FilterCode policy.width Unit :=
  Code.loop (fun i _ => do
    storeHash i (policy.hash keyOf k i)
    pure (.yield ())) 0 k.toNat ()

/-- A block, and how it is cut into words. -/
structure BlockPlace where
  start : UInt64
  bitsPerWord : UInt64
  bitsPerBlock : UInt64

/-- Both kernels, up to their loops. -/
def findBlock (numBlocks : UInt64) (keyOf : key) : FilterCode policy.width BlockPlace := do
  storeHashes policy keyOf (hashCount policy)
  let first <- loadHash 0
  let blockIdx := first % numBlocks
  let start <- times blockIdx policy.wordsPerBlock
  let bitsPerWord <- times policy.sizeofWord 8
  let bitsPerBlock <- times policy.wordsPerBlock bitsPerWord
  pure { start := start, bitsPerWord := bitsPerWord, bitsPerBlock := bitsPerBlock }

/-- The word that a hash selects, and its mask. -/
def findBit (place : BlockPlace) (i : Nat) :
    FilterCode policy.width (UInt64 × BitVec policy.width) := do
  let h <- loadHash i
  let bitIdx := h % place.bitsPerBlock
  let wordIdx := bitIdx / place.bitsPerWord
  let bitOffset := bitIdx % place.bitsPerWord
  let mask <- oneShifted bitOffset
  pure (wordIdx, mask)

/-- One iteration of the loop of `bloom_add_kernel`. -/
def bloomAddIteration (place : BlockPlace) (i : Nat) : FilterCode policy.width (ForInStep Unit) :=
  if i ≥ (hashCount policy).toNat then pure (.done ())
  else do
    let bit <- findBit policy place i
    atomicOr place.start bit.1 bit.2
    pure (.yield ())

/-- A thread of `bloom_add_kernel` with its key. -/
def bloomAddKernel (numBlocks : UInt64) (keyOf : key) : FilterCode policy.width Unit := do
  let place <- findBlock policy numBlocks keyOf
  Code.loop (fun i _ => bloomAddIteration policy place i) 0 16 ()

/-- One iteration of the loop of `bloom_probe_kernel`. -/
def bloomProbeIteration (place : BlockPlace) (i : Nat) (found : Bool) :
    FilterCode policy.width (ForInStep Bool) :=
  if i ≥ (hashCount policy).toNat then pure (.done found)
  else if found = false then pure (.done found)
  else do
    let bit <- findBit policy place i
    let word <- load place.start bit.1
    pure (.yield (if word &&& bit.2 = 0 then false else found))

/-- A thread of `bloom_probe_kernel` with its key: what it writes to `out[idx]`. -/
def bloomProbeKernel (numBlocks : UInt64) (keyOf : key) : FilterCode policy.width Bool := do
  let place <- findBlock policy numBlocks keyOf
  Code.loop (bloomProbeIteration policy place) 0 16 true

end Kernels

/-!
# The static set
-/

/-- `static_set::static_set`; the flags say whether the two HIP calls succeed. -/
def newStaticSet (capacity sizeofKey : UInt64) (mallocOk launchOk : Bool) :
    Except String Allocated :=
  if capacity = 0 then
    .error "cuco::static_set: capacity must be greater than 0"
  else if capacity ≠ 0 ∧ sizeofKey > SIZE_MAX / capacity then
    .error "cuco::static_set: capacity * sizeof(KeyT) overflows size_t"
  else
    let bytes := capacity * sizeofKey
    if mallocOk = false then
      .error "cuco::static_set: hipMalloc failed"
    else if launchOk = false then
      .error "cuco::static_set: fill_empty_key_kernel launch failed"
    else .ok { extent := capacity, bytes := bytes }

/-- An access of a slot. -/
inductive SlotRequest (key : Type _) where
  /-- `atomicCAS(&slots[i], expected, desired)`. -/
  | atomicCAS (i : UInt64) (expected desired : key)
  /-- `slots[i]`. -/
  | load (i : UInt64)
deriving DecidableEq, Repr

/-- The slot that is accessed. -/
def SlotRequest.index {key : Type _} : SlotRequest key -> UInt64
  | .atomicCAS i _ _ => i
  | .load i => i

section Sets

variable {key : Type} [DecidableEq key]

/-- Code of the set's kernels; what comes back is the key that the slot held. -/
abbrev SlotCode (key result : Type) := Code (SlotRequest key) (fun _ => key) result

def atomicCAS (i : UInt64) (expected desired : key) : SlotCode key key :=
  Code.askFor (SlotRequest.atomicCAS i expected desired)

def loadSlot (i : UInt64) : SlotCode key key := Code.askFor (SlotRequest.load i)

variable (capacity : UInt64) (emptyKey : key) (hash : key -> UInt64 -> UInt64)

/-- `hash(key, probe) % capacity`. -/
def slotIdx (k : key) (probe : Nat) : UInt64 := hash k (UInt64.ofNat probe) % capacity

def setInsertIteration (k : key) (probe : Nat) : SlotCode key (ForInStep Unit) := do
  let old <- atomicCAS (slotIdx capacity hash k probe) emptyKey k
  pure (if old = emptyKey ∨ old = k then .done () else .yield ())

/-- A thread of `set_insert_kernel` with its key. -/
def setInsertKernel (k : key) : SlotCode key Unit :=
  Code.loop (fun probe _ => setInsertIteration capacity emptyKey hash k probe) 0 capacity.toNat ()

def setProbeIteration (k : key) (probe : Nat) (found : Bool) : SlotCode key (ForInStep Bool) := do
  let slot <- loadSlot (slotIdx capacity hash k probe)
  pure (if slot = k then .done true
    else if slot = emptyKey then .done found
    else .yield found)

/-- A thread of `set_probe_kernel` with its key: what it writes to `out[idx]`. -/
def setProbeKernel (k : key) : SlotCode key Bool :=
  Code.loop (setProbeIteration capacity emptyKey hash k) 0 capacity.toNat false

def setRefIteration (k : key) (probe : Nat) (result : Bool) : SlotCode key (ForInStep Bool) := do
  let slot <- loadSlot (slotIdx capacity hash k probe)
  pure (if slot = k then .done true
    else if slot = emptyKey then .done false
    else .yield result)

/-- `set_ref::operator()`, also reached as `set_ref::contains`. -/
def setRef (k : key) : SlotCode key Bool :=
  Code.loop (setRefIteration capacity emptyKey hash k) 0 capacity.toNat false

end Sets

/-!
# Bounds of the filter
-/

/-- The request stays within the hash buffer of 16, within so many words, within a word,
or within 64 bits. -/
def FilterRequest.InBounds {width : Nat} (words : Nat) : FilterRequest width -> Prop
  | .storeHash i _ => i < 16
  | .loadHash i => i < 16
  | .product a b => Exact a b
  | .shift amount => amount.toNat < width
  | .atomicOr start wordIdx _ => start.toNat + wordIdx.toNat < words
  | .load start wordIdx => start.toNat + wordIdx.toNat < words

theorem newBloomFilter_eq_ok {blockExtent wordsPerBlock sizeofWord : UInt64}
    {mallocOk memsetOk : Bool} {filter : Allocated}
    (h : newBloomFilter blockExtent wordsPerBlock sizeofWord mallocOk memsetOk = .ok filter) :
    0 < blockExtent.toNat ∧ filter.extent = blockExtent ∧
      blockExtent.toNat * wordsPerBlock.toNat < 2 ^ 64 ∧
      filter.bytes.toNat = blockExtent.toNat * wordsPerBlock.toNat * sizeofWord.toNat := by
  unfold newBloomFilter at h
  split at h
  · cases h
  · rename_i hextent
    split at h
    · cases h
    · rename_i hwords
      have hexact := exact_of_guard hwords
      dsimp only at h
      split at h
      · cases h
      · rename_i hbytes
        have htotal := exact_of_guard hbytes
        split at h
        · cases h
        · split at h
          · cases h
          · cases h
            refine ⟨toNat_pos hextent, rfl, hexact, ?_⟩
            rw [← hexact.toNat_mul]
            exact htotal.toNat_mul

section FilterBounds

variable {key : Type _} {policy : Policy key} {numBlocks : UInt64}

theorem hashCount_le : (hashCount policy).toNat ≤ 16 := by
  unfold hashCount
  dsimp only
  split
  · exact Nat.le_refl 16
  · rename_i hsmall
    rw [gt_iff_lt, UInt64.lt_iff_toNat_lt] at hsmall
    exact Nat.not_lt.mp hsmall

theorem Policy.width_eq : policy.width = 32 ∨ policy.width = 64 := by
  unfold Policy.width
  rcases policy.sizeofWord_eq with h | h
  · rw [h]
    exact Or.inl rfl
  · rw [h]
    exact Or.inr rfl

theorem Policy.width_pos : 0 < policy.width := by
  rcases policy.width_eq with h | h <;> rw [h] <;> decide

/-- The bits of a word fit in 64 bits, and so do those of a block. -/
theorem Policy.exact_width : Exact policy.sizeofWord 8 := by
  unfold Exact
  have hwidth := policy.width_eq
  unfold Policy.width at hwidth
  change policy.sizeofWord.toNat * 8 < _
  omega

theorem Policy.bits_lt : policy.wordsPerBlock.toNat * policy.width < 2 ^ 64 := by
  have hwidth : policy.width ≤ 64 := by
    rcases policy.width_eq with hw | hw <;> omega
  calc
    policy.wordsPerBlock.toNat * policy.width ≤ 2 ^ 32 * 64 :=
      Nat.mul_le_mul policy.words_le hwidth
    _ < 2 ^ 64 := by decide

/-- The place of a block: it lies within the array, and is cut as it should be. -/
structure BlockPlace.Fits (policy : Policy key) (numBlocks : UInt64) (place : BlockPlace) :
    Prop where
  start : place.start.toNat + policy.wordsPerBlock.toNat ≤
    numBlocks.toNat * policy.wordsPerBlock.toNat
  word : place.bitsPerWord.toNat = policy.width
  block : place.bitsPerBlock.toNat = policy.wordsPerBlock.toNat * policy.width

/-- The first word of a block, which does not wrap. -/
theorem exact_start (hpos : 0 < numBlocks.toNat)
    (hwords : numBlocks.toNat * policy.wordsPerBlock.toNat < 2 ^ 64) (first : UInt64) :
    Exact (first % numBlocks) policy.wordsPerBlock := by
  have hle := Nat.mul_le_mul_right policy.wordsPerBlock.toNat
    (Nat.le_of_lt (toNat_mod_lt first hpos))
  exact Nat.lt_of_le_of_lt hle hwords

theorem start_le {blockIdx numBlocks : Nat} (words : Nat) (h : blockIdx < numBlocks) :
    blockIdx * words + words ≤ numBlocks * words := by
  rw [← Nat.succ_mul]
  exact Nat.mul_le_mul_right words h

variable {words : Nat}

theorem storeHashes_meets (keyOf : key) :
    (storeHashes policy keyOf (hashCount policy)).Meets (FilterRequest.InBounds words)
      (fun _ => True) := by
  refine Code.meets_loop (fun i _ hi => ?_) (Nat.le_of_eq (Nat.zero_add _))
  exact ⟨Nat.lt_of_lt_of_le hi hashCount_le, fun _ => trivial⟩

theorem findBlock_meets (hpos : 0 < numBlocks.toNat)
    (hwords : numBlocks.toNat * policy.wordsPerBlock.toNat < 2 ^ 64) (keyOf : key) :
    (findBlock policy numBlocks keyOf).Meets (FilterRequest.InBounds words)
      (BlockPlace.Fits policy numBlocks) := by
  refine Code.meets_bind (storeHashes_meets keyOf) fun _ _ => ?_
  refine ⟨Nat.zero_lt_succ 15, fun (first : UInt64) => ?_⟩
  have hstart := start_le policy.wordsPerBlock.toNat (toNat_mod_lt first hpos)
  have hexact := exact_start hpos hwords first
  have hwidth : (policy.sizeofWord * 8).toNat = policy.width :=
    policy.exact_width.toNat_mul
  have hbits : Exact policy.wordsPerBlock (policy.sizeofWord * 8) := by
    unfold Exact
    rw [hwidth]
    exact policy.bits_lt
  refine ⟨hexact, fun _ => ⟨policy.exact_width, fun _ => ⟨hbits, fun _ => ?_⟩⟩⟩
  constructor
  · change ((first % numBlocks) * policy.wordsPerBlock).toNat + _ ≤ _
    rw [hexact.toNat_mul]
    exact hstart
  · exact hwidth
  · change (policy.wordsPerBlock * (policy.sizeofWord * 8)).toNat = _
    rw [hbits.toNat_mul, hwidth]

/-- The word that a hash selects lies within its block, and the shift within the word. -/
theorem findBit_meets {place : BlockPlace} (hplace : place.Fits policy numBlocks) {i : Nat}
    (hi : i < 16) :
    (findBit policy place i).Meets (FilterRequest.InBounds words)
      (fun bit => bit.1.toNat < policy.wordsPerBlock.toNat) := by
  refine ⟨hi, fun (h : UInt64) => ⟨?_, fun _ => ?_⟩⟩
  · have hpos : 0 < place.bitsPerWord.toNat := by
      rw [hplace.word]
      exact policy.width_pos
    have hlt := toNat_mod_lt (h % place.bitsPerBlock) hpos
    rw [hplace.word] at hlt
    exact hlt
  · have hpos : 0 < place.bitsPerBlock.toNat := by
      rw [hplace.block]
      exact Nat.mul_pos policy.words_pos policy.width_pos
    have hlt := toNat_mod_lt h hpos
    rw [hplace.block, Nat.mul_comm] at hlt
    change (h % place.bitsPerBlock / place.bitsPerWord).toNat < _
    rw [UInt64.toNat_div, hplace.word]
    exact Nat.div_lt_of_lt_mul hlt

/-- What each access of a kernel comes to. -/
theorem index_lt {place : BlockPlace} (hplace : place.Fits policy numBlocks) {wordIdx : UInt64}
    (h : wordIdx.toNat < policy.wordsPerBlock.toNat) :
    place.start.toNat + wordIdx.toNat < numBlocks.toNat * policy.wordsPerBlock.toNat :=
  Nat.lt_of_lt_of_le (Nat.add_lt_add_left h _) hplace.start

theorem bloomAddKernel_meets (hpos : 0 < numBlocks.toNat)
    (hwords : numBlocks.toNat * policy.wordsPerBlock.toNat < 2 ^ 64) (keyOf : key) :
    (bloomAddKernel policy numBlocks keyOf).Meets
      (FilterRequest.InBounds (numBlocks.toNat * policy.wordsPerBlock.toNat))
      (fun _ => True) := by
  refine Code.meets_bind (findBlock_meets hpos hwords keyOf) fun place hplace => ?_
  refine Code.meets_loop (fun i _ hi => ?_) (Nat.le_refl 16)
  unfold bloomAddIteration
  split
  · exact trivial
  · refine Code.meets_bind (findBit_meets hplace hi) fun bit hbit => ?_
    exact ⟨index_lt hplace hbit, fun _ => trivial⟩

theorem bloomProbeKernel_meets (hpos : 0 < numBlocks.toNat)
    (hwords : numBlocks.toNat * policy.wordsPerBlock.toNat < 2 ^ 64) (keyOf : key) :
    (bloomProbeKernel policy numBlocks keyOf).Meets
      (FilterRequest.InBounds (numBlocks.toNat * policy.wordsPerBlock.toNat))
      (fun _ => True) := by
  refine Code.meets_bind (findBlock_meets hpos hwords keyOf) fun place hplace => ?_
  refine Code.meets_loop (fun i found hi => ?_) (Nat.le_refl 16)
  unfold bloomProbeIteration
  split
  · exact trivial
  · split
    · exact trivial
    · refine Code.meets_bind (findBit_meets hplace hi) fun bit hbit => ?_
      exact ⟨index_lt hplace hbit, fun _ => trivial⟩

end FilterBounds

/-!
# Bounds of the set
-/

theorem newStaticSet_eq_ok {capacity sizeofKey : UInt64} {mallocOk launchOk : Bool}
    {set : Allocated} (h : newStaticSet capacity sizeofKey mallocOk launchOk = .ok set) :
    0 < capacity.toNat ∧ set.extent = capacity ∧
      set.bytes.toNat = capacity.toNat * sizeofKey.toNat := by
  unfold newStaticSet at h
  split at h
  · cases h
  · rename_i hcapacity
    split at h
    · cases h
    · rename_i hbytes
      have hexact := exact_of_guard hbytes
      dsimp only at h
      split at h
      · cases h
      · split at h
        · cases h
        · cases h
          exact ⟨toNat_pos hcapacity, rfl, hexact.toNat_mul⟩

/-- The slot is one of so many. -/
def SlotRequest.InBounds {key : Type _} (slots : Nat) (q : SlotRequest key) : Prop :=
  q.index.toNat < slots

section SetBounds

variable {key : Type} {capacity : UInt64}

theorem slotIdx_lt (hpos : 0 < capacity.toNat) (hash : key -> UInt64 -> UInt64) (k : key)
    (probe : Nat) : (slotIdx capacity hash k probe).toNat < capacity.toNat :=
  toNat_mod_lt _ hpos

variable [DecidableEq key] (emptyKey : key) (hash : key -> UInt64 -> UInt64)

theorem setInsertKernel_meets (hpos : 0 < capacity.toNat) (k : key) :
    (setInsertKernel capacity emptyKey hash k).Meets (SlotRequest.InBounds capacity.toNat)
      (fun _ => True) := by
  refine Code.meets_loop (fun probe _ _ => ?_) (Nat.le_of_eq (Nat.zero_add _))
  exact ⟨slotIdx_lt hpos hash k probe, fun _ => trivial⟩

theorem setProbeKernel_meets (hpos : 0 < capacity.toNat) (k : key) :
    (setProbeKernel capacity emptyKey hash k).Meets (SlotRequest.InBounds capacity.toNat)
      (fun _ => True) := by
  refine Code.meets_loop (fun probe found _ => ?_) (Nat.le_of_eq (Nat.zero_add _))
  exact ⟨slotIdx_lt hpos hash k probe, fun _ => trivial⟩

theorem setRef_meets (hpos : 0 < capacity.toNat) (k : key) :
    (setRef capacity emptyKey hash k).Meets (SlotRequest.InBounds capacity.toNat)
      (fun _ => True) := by
  refine Code.meets_loop (fun probe result _ => ?_) (Nat.le_of_eq (Nat.zero_add _))
  exact ⟨slotIdx_lt hpos hash k probe, fun _ => trivial⟩

end SetBounds

/-!
# All accesses
-/

/-- An allocation of exactly so many elements has room for them. -/
theorem Allocated.count_eq {a : Allocated} {n : Nat} {sizeofElement : UInt64}
    (hbytes : a.bytes.toNat = n * sizeofElement.toNat) (hpos : 0 < sizeofElement.toNat) :
    a.count sizeofElement = n := by
  unfold Allocated.count
  rw [hbytes]
  exact Nat.mul_div_cancel n hpos

theorem Policy.sizeofWord_pos {key : Type _} (policy : Policy key) :
    0 < policy.sizeofWord.toNat := by
  rcases policy.sizeofWord_eq with h | h <;> rw [h] <;> decide

/--
A constructor that does not throw has asked `hipMalloc` for the exact product, and whatever
the hashes and the contents of memory are, the kernels and `set_ref` stay within it, within
the hash buffer and within their words, and no product of an index wraps.
-/
theorem accesses_in_bounds {filterKey : Type _} {setKey : Type} [DecidableEq setKey]
    (policy : Policy filterKey) (blockExtent capacity sizeofKey : UInt64)
    (hsize : 0 < sizeofKey.toNat) (mallocOk secondOk : Bool) :
    (forall filter : Allocated,
      newBloomFilter blockExtent policy.wordsPerBlock policy.sizeofWord mallocOk secondOk =
        .ok filter ->
      filter.bytes.toNat =
        blockExtent.toNat * policy.wordsPerBlock.toNat * policy.sizeofWord.toNat ∧
      forall (keyOf : filterKey) (q : FilterRequest policy.width),
        (bloomAddKernel policy filter.extent keyOf).Asks q ∨
          (bloomProbeKernel policy filter.extent keyOf).Asks q ->
        q.InBounds (filter.count policy.sizeofWord)) ∧
    (forall set : Allocated,
      newStaticSet capacity sizeofKey mallocOk secondOk = .ok set ->
      set.bytes.toNat = capacity.toNat * sizeofKey.toNat ∧
      forall (emptyKey : setKey) (hash : setKey -> UInt64 -> UInt64) (k : setKey)
        (q : SlotRequest setKey),
        (setInsertKernel set.extent emptyKey hash k).Asks q ∨
          (setProbeKernel set.extent emptyKey hash k).Asks q ∨
          (setRef set.extent emptyKey hash k).Asks q ->
        q.InBounds (set.count sizeofKey)) := by
  constructor
  · intro filter hfilter
    rcases newBloomFilter_eq_ok hfilter with ⟨hpos, hextent, hwords, hbytes⟩
    refine ⟨hbytes, fun keyOf q hasks => ?_⟩
    rw [Allocated.count_eq hbytes policy.sizeofWord_pos]
    rw [hextent] at hasks
    rcases hasks with hadd | hprobe
    · exact (bloomAddKernel_meets hpos hwords keyOf).asks hadd
    · exact (bloomProbeKernel_meets hpos hwords keyOf).asks hprobe
  · intro set hset
    rcases newStaticSet_eq_ok hset with ⟨hpos, hextent, hbytes⟩
    refine ⟨hbytes, fun emptyKey hash k q hasks => ?_⟩
    rw [Allocated.count_eq hbytes hsize]
    rw [hextent] at hasks
    rcases hasks with hinsert | hprobe | href
    · exact (setInsertKernel_meets emptyKey hash hpos k).asks hinsert
    · exact (setProbeKernel_meets emptyKey hash hpos k).asks hprobe
    · exact (setRef_meets emptyKey hash hpos k).asks href

/-- One 64-bit word a block, and twenty hash functions, more than the buffer holds. -/
def twentyHashes : Policy UInt64 :=
  { wordsPerBlock := 1
    sizeofWord := 8
    numHashFunctions := 20
    hash := fun k _ i => k + UInt64.ofNat i
    words_pos := by decide
    words_le := by decide
    sizeofWord_eq := Or.inr rfl }

theorem accesses_in_bounds_twentyHashes :
    ((24 : UInt64).toNat = 3 * 1 * 8 ∧
      forall (keyOf : UInt64) (q : FilterRequest twentyHashes.width),
        (bloomAddKernel twentyHashes 3 keyOf).Asks q ∨
          (bloomProbeKernel twentyHashes 3 keyOf).Asks q -> q.InBounds 3) ∧
    ((40 : UInt64).toNat = 5 * 8 ∧
      forall (emptyKey : UInt64) (hash : UInt64 -> UInt64 -> UInt64) (k : UInt64)
        (q : SlotRequest UInt64),
        (setInsertKernel 5 emptyKey hash k).Asks q ∨
          (setProbeKernel 5 emptyKey hash k).Asks q ∨
          (setRef 5 emptyKey hash k).Asks q -> q.InBounds 5) :=
  have hall := @accesses_in_bounds UInt64 UInt64 _ twentyHashes 3 5 8 (by decide) true true
  ⟨hall.1 { extent := 3, bytes := 24 } rfl, hall.2 { extent := 5, bytes := 40 } rfl⟩

end Accesses
end Cuco
end Cuda2Rocm
