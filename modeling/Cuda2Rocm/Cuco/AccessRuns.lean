import Cuda2Rocm.Cuco.Accesses
import Cuda2Rocm.Cuco.StaticSet.Runs

/-!
# Runs of the device code

Over memory that answers, the code of a thread does what the models of the filter and of
the set say: the constructors agree, each iteration touches the word or the slot that the
model names, and the kernels that only read come to the model's result.
-/

namespace Cuda2Rocm
namespace Cuco
namespace Accesses

open Foundation

/-!
# The set
-/

section Sets

variable {key : Type}

/-- The constructors accept the same extents and report the same errors. -/
theorem newStaticSet_extent (capacity sizeofKey : UInt64) (empty : key)
    (hash : DoubleHashing key) (mallocOk launchOk : Bool) :
    (newStaticSet capacity sizeofKey mallocOk launchOk).map (fun s => s.extent.toNat) =
      (StaticSet.construct capacity sizeofKey.toNat empty hash mallocOk launchOk).map
        (fun s => s.capacity) := by
  unfold newStaticSet StaticSet.construct
  by_cases hzero : capacity = 0
  · rw [if_pos hzero, dif_neg (by rw [hzero]; decide)]
    rfl
  · have hpos := toNat_pos hzero
    have hguard : (capacity ≠ 0 ∧ sizeofKey > SIZE_MAX / capacity) <->
        sizeofKey.toNat > sizeMax / capacity.toNat := by
      rw [guard_iff]
      exact and_iff_right hpos.ne'
    rw [if_neg hzero, dif_pos hpos]
    simp only [hguard]
    split
    · rfl
    · cases mallocOk <;> cases launchOk <;> rfl

variable {capacity : UInt64} (set : StaticSet key)

theorem slotIdx_eq (hcapacity : capacity.toNat = set.capacity) (k : key) (probe : Nat) :
    (slotIdx capacity set.hash.operator k probe).toNat = set.slotIdx k probe := by
  unfold slotIdx StaticSet.slotIdx
  rw [UInt64.toNat_mod, hcapacity]

variable [DecidableEq key]

/-- The device array answers. -/
def respondSlots : SlotRequest key -> set.Slots -> key × set.Slots
  | .atomicCAS i expected desired, slots =>
      if h : i.toNat < set.capacity then set.atomicCAS slots ⟨i.toNat, h⟩ expected desired
      else (set.emptyKey, slots)
  | .load i, slots =>
      if h : i.toNat < set.capacity then (slots ⟨i.toNat, h⟩, slots) else (set.emptyKey, slots)

theorem respondSlots_load (hcapacity : capacity.toNat = set.capacity) (k : key) (probe : Nat)
    (slots : set.Slots) :
    respondSlots set (.load (slotIdx capacity set.hash.operator k probe)) slots =
      (slots (set.slotIdx k probe), slots) := by
  have heq := slotIdx_eq set hcapacity k probe
  have hlt : (slotIdx capacity set.hash.operator k probe).toNat < set.capacity := by
    rw [heq]
    exact (set.slotIdx k probe).isLt
  simp only [respondSlots, dif_pos hlt]
  congr 2
  exact Fin.ext heq

theorem respondSlots_atomicCAS (hcapacity : capacity.toNat = set.capacity) (k : key)
    (probe : Nat) (expected desired : key) (slots : set.Slots) :
    respondSlots set (.atomicCAS (slotIdx capacity set.hash.operator k probe) expected desired)
        slots =
      set.atomicCAS slots (set.slotIdx k probe) expected desired := by
  have heq := slotIdx_eq set hcapacity k probe
  have hlt : (slotIdx capacity set.hash.operator k probe).toNat < set.capacity := by
    rw [heq]
    exact (set.slotIdx k probe).isLt
  simp only [respondSlots, dif_pos hlt]
  congr 1
  exact Fin.ext heq

/-- An iteration of the insert kernel goes on exactly if the thread of the model has not
returned, and leaves the slots that the model leaves. -/
theorem setInsertIteration_run (hcapacity : capacity.toNat = set.capacity) (k : key)
    (probe : Nat) (slots : set.Slots) :
    (setInsertIteration capacity set.emptyKey set.hash.operator k probe).run
        (respondSlots set) slots =
      (if (set.insertIteration slots k probe).1 = .returned k then .done () else .yield (),
        (set.insertIteration slots k probe).2) := by
  unfold setInsertIteration
  rw [Code.run_bind, atomicCAS, Code.run_askFor, respondSlots_atomicCAS set hcapacity,
    Code.run_pure]
  unfold StaticSet.insertIteration
  dsimp only
  split
  · rw [if_pos rfl]
  · split <;> rw [if_neg (by simp)]

theorem setProbeIteration_run (hcapacity : capacity.toNat = set.capacity) (k : key)
    (probe : Nat) (found : Bool) (slots : set.Slots) :
    (setProbeIteration capacity set.emptyKey set.hash.operator k probe found).run
        (respondSlots set) slots =
      (if slots (set.slotIdx k probe) = k then .done true
        else if slots (set.slotIdx k probe) = set.emptyKey then .done found
        else .yield found, slots) := by
  unfold setProbeIteration
  rw [Code.run_bind, loadSlot, Code.run_askFor, respondSlots_load set hcapacity, Code.run_pure]

/-- The loop of the probe kernel, from any of its iterations. -/
theorem setProbeLoop_run (hcapacity : capacity.toNat = set.capacity) (k : key)
    (found : Bool) (slots : set.Slots) (left probe : Nat) :
    ((Code.loop (setProbeIteration capacity set.emptyKey set.hash.operator k) probe left
        found).run (respondSlots set) slots).1 =
      set.probeLoop slots k probe left found := by
  induction left generalizing probe with
  | zero => rfl
  | succ left ih =>
      have hrun := setProbeIteration_run set hcapacity k probe found slots
      unfold StaticSet.probeLoop
      dsimp only
      by_cases hkey : slots (set.slotIdx k probe) = k
      · rw [if_pos hkey] at hrun ⊢
        rw [Code.run_loop_done hrun]
      · rw [if_neg hkey] at hrun ⊢
        by_cases hempty : slots (set.slotIdx k probe) = set.emptyKey
        · rw [if_pos hempty] at hrun ⊢
          rw [Code.run_loop_done hrun]
        · rw [if_neg hempty] at hrun ⊢
          rw [Code.run_loop_yield hrun]
          exact ih (probe + 1)

theorem setProbeKernel_run (hcapacity : capacity.toNat = set.capacity) (k : key)
    (slots : set.Slots) :
    ((setProbeKernel capacity set.emptyKey set.hash.operator k).run (respondSlots set) slots).1 =
      set.probeKernel slots k := by
  unfold setProbeKernel StaticSet.probeKernel
  rw [hcapacity]
  exact setProbeLoop_run set hcapacity k false slots set.capacity 0

/-- `set_ref` and the probe kernel are the same code. -/
theorem setRef_eq (capacity : UInt64) (emptyKey : key) (hash : key -> UInt64 -> UInt64)
    (k : key) : setRef capacity emptyKey hash k = setProbeKernel capacity emptyKey hash k := by
  unfold setRef setProbeKernel
  generalize capacity.toNat = left, (0 : Nat) = probe
  induction left generalizing probe with
  | zero => rfl
  | succ left ih =>
      rw [Code.loop_ask rfl, Code.loop_ask rfl]
      refine congrArg (Code.ask _) (funext fun slot => ?_)
      by_cases hkey : slot = k
      · simp only [if_pos hkey]
      · simp only [if_neg hkey]
        by_cases hempty : slot = emptyKey
        · simp only [if_pos hempty]
        · simp only [if_neg hempty]
          exact ih (probe + 1)

theorem setRef_run (hcapacity : capacity.toNat = set.capacity) (k : key) (slots : set.Slots) :
    ((setRef capacity set.emptyKey set.hash.operator k).run (respondSlots set) slots).1 =
      set.contains slots k := by
  rw [setRef_eq, setProbeKernel_run set hcapacity, set.probeKernel_eq_contains]

end Sets

/-!
# The filter
-/

section Filters

variable {key : Type _}

theorem newBloomFilter_extent (blockExtent wordsPerBlock sizeofWord : UInt64)
    (policy : FilterPolicy key) (hlayout : policy.wordsPerBlock = wordsPerBlock.toNat)
    (mallocOk memsetOk : Bool) :
    (newBloomFilter blockExtent wordsPerBlock sizeofWord mallocOk memsetOk).map
        (fun f => f.extent.toNat) =
      (BloomFilter.construct blockExtent policy sizeofWord.toNat mallocOk memsetOk).map
        (fun f => f.blockExtent) := by
  unfold newBloomFilter BloomFilter.construct
  by_cases hzero : blockExtent = 0
  · rw [if_pos hzero, dif_neg (by rw [hzero]; decide)]
    rfl
  · have hpos := toNat_pos hzero
    have hwords : (blockExtent ≠ 0 ∧ wordsPerBlock > SIZE_MAX / blockExtent) <->
        ¬ policy.wordsPerBlock ≤ sizeMax / blockExtent.toNat := by
      rw [guard_iff, hlayout, Nat.not_le]
      exact and_iff_right hpos.ne'
    rw [if_neg hzero, dif_pos hpos]
    by_cases hfits : policy.wordsPerBlock ≤ sizeMax / blockExtent.toNat
    · have hpasses := fun h => hwords.mp h hfits
      have htotal : (blockExtent * wordsPerBlock).toNat =
          blockExtent.toNat * policy.wordsPerBlock := by
        rw [(exact_of_guard hpasses).toNat_mul, hlayout]
      rw [if_neg hpasses, dif_pos hfits]
      simp only [guard_iff, htotal]
      split
      · rfl
      · cases mallocOk <;> cases memsetOk <;> rfl
    · rw [if_pos (hwords.mpr hfits), dif_neg hfits]
      rfl

/-- The policy at the level of the model of the filter. -/
abbrev Policy.toFilterPolicy (policy : Policy key) (hhashes : 0 < policy.numHashFunctions.toNat) :
    FilterPolicy key :=
  { wordBits := policy.width
    wordsPerBlock := policy.wordsPerBlock.toNat
    numHashFunctions := policy.numHashFunctions.toNat
    bits_pos := by
      rw [wrapSize_of_lt policy.bits_lt]
      exact Nat.mul_pos policy.words_pos policy.width_pos
    hashes_pos := hhashes
    hash := fun k n i => policy.hash k (UInt64.ofNat n) i }

/-- The filter of the model over so many blocks. -/
abbrev Policy.filter (policy : Policy key) (hhashes : 0 < policy.numHashFunctions.toNat)
    {numBlocks : UInt64} (hpos : 0 < numBlocks.toNat)
    (hwords : numBlocks.toNat * policy.wordsPerBlock.toNat < 2 ^ 64) : BloomFilter key :=
  { policy := policy.toFilterPolicy hhashes
    blockExtent := numBlocks.toNat
    blockExtent_pos := hpos
    words_le := Nat.le_sub_one_of_lt hwords }

/-- The hash buffer of a thread, and the device array. -/
structure FilterMemory (words width : Nat) where
  hashes : Nat -> UInt64
  bits : Fin words -> BitVec width

namespace FilterMemory

variable {words width : Nat}

def setHash (m : FilterMemory words width) (i : Nat) (value : UInt64) :
    FilterMemory words width :=
  { m with hashes := Function.update m.hashes i value }

def orWord (m : FilterMemory words width) (i : Fin words) (mask : BitVec width) :
    FilterMemory words width :=
  { m with bits := Function.update m.bits i (m.bits i ||| mask) }

/-- Memory answers; there is nothing behind the end of the array. -/
def respond : (q : FilterRequest width) -> FilterMemory words width ->
    q.Answer × FilterMemory words width
  | .storeHash i value, m => ((), m.setHash i value)
  | .loadHash i, m => (m.hashes i, m)
  | .product _ _, m => ((), m)
  | .shift _, m => ((), m)
  | .atomicOr start wordIdx mask, m =>
      if h : start.toNat + wordIdx.toNat < words then
        ((), m.orWord ⟨start.toNat + wordIdx.toNat, h⟩ mask)
      else ((), m)
  | .load start wordIdx, m =>
      if h : start.toNat + wordIdx.toNat < words then
        (m.bits ⟨start.toNat + wordIdx.toNat, h⟩, m)
      else (BitVec.ofNat width 0, m)

theorem respond_atomicOr (m : FilterMemory words width) {start wordIdx : UInt64}
    {i : Fin words} (hindex : start.toNat + wordIdx.toNat = i) (mask : BitVec width) :
    respond (.atomicOr start wordIdx mask) m = ((), m.orWord i mask) := by
  have hlt : start.toNat + wordIdx.toNat < words := by
    rw [hindex]
    exact i.isLt
  have hfin : (⟨start.toNat + wordIdx.toNat, hlt⟩ : Fin words) = i := Fin.ext hindex
  rw [← hfin]
  exact dif_pos hlt

theorem respond_load (m : FilterMemory words width) {start wordIdx : UInt64} {i : Fin words}
    (hindex : start.toNat + wordIdx.toNat = i) :
    respond (.load start wordIdx) m = (m.bits i, m) := by
  have hlt : start.toNat + wordIdx.toNat < words := by
    rw [hindex]
    exact i.isLt
  have hfin : (⟨start.toNat + wordIdx.toNat, hlt⟩ : Fin words) = i := Fin.ext hindex
  rw [← hfin]
  exact dif_pos hlt

end FilterMemory

section FilterRuns

variable {policy : Policy key} {words : Nat} {m : FilterMemory words policy.width} {k : key}

/-- The buffer holds the hashes of the key. -/
def FilterMemory.Holds (policy : Policy key) (m : FilterMemory words policy.width) (k : key) :
    Prop :=
  forall i, i < (hashCount policy).toNat -> m.hashes i = policy.hash k (hashCount policy) i

theorem storeHashes_run (m : FilterMemory words policy.width) (k : key) :
    exists m' : FilterMemory words policy.width,
      (storeHashes policy k (hashCount policy)).run FilterMemory.respond m = ((), m') ∧
        m'.bits = m.bits ∧ m'.Holds policy k := by
  suffices hloop : forall (left i : Nat) (m : FilterMemory words policy.width),
      exists m' : FilterMemory words policy.width,
        (Code.loop (fun i _ => do
          storeHash i (policy.hash k (hashCount policy) i)
          pure (.yield ())) i left () : FilterCode policy.width Unit).run
            FilterMemory.respond m = ((), m') ∧
        m'.bits = m.bits ∧ (forall j, j < i -> m'.hashes j = m.hashes j) ∧
        forall j, i ≤ j -> j < i + left ->
          m'.hashes j = policy.hash k (hashCount policy) j by
    rcases hloop (hashCount policy).toNat 0 m with ⟨m', hrun, hbits, _, hstored⟩
    exact ⟨m', hrun, hbits, fun i hi => hstored i (Nat.zero_le i) (by omega)⟩
  intro left
  induction left with
  | zero => exact fun i m => ⟨m, rfl, rfl, fun _ _ => rfl, fun j _ _ => by omega⟩
  | succ left ih =>
      intro i m
      rcases ih (i + 1) (m.setHash i (policy.hash k (hashCount policy) i)) with
        ⟨m', hrun, hbits, hbefore, hstored⟩
      refine ⟨m', ?_, hbits, fun j hj => ?_, fun j hlow hhigh => ?_⟩
      · rw [Code.run_loop_yield rfl]
        exact hrun
      · rw [hbefore j (by omega)]
        exact Function.update_of_ne (by omega) ..
      · by_cases hj : j = i
        · subst hj
          rw [hbefore j (by omega)]
          exact Function.update_self ..
        · exact hstored j (by omega) (by omega)

section Blocks

variable {numBlocks : UInt64} {hhashes : 0 < policy.numHashFunctions.toNat}
  {hpos : 0 < numBlocks.toNat}
  {hwords : numBlocks.toNat * policy.wordsPerBlock.toNat < 2 ^ 64}

theorem toNat_hashCount :
    (hashCount policy).toNat = (policy.filter hhashes hpos hwords).policy.hashCount := by
  unfold hashCount FilterPolicy.hashCount
  change _ = if policy.numHashFunctions.toNat > 16 then 16 else policy.numHashFunctions.toNat
  dsimp only
  have hiff : policy.numHashFunctions > 16 <-> policy.numHashFunctions.toNat > 16 :=
    UInt64.lt_iff_toNat_lt
  simp only [hiff]
  split <;> rfl

theorem hashCount_pos (hhashes : 0 < policy.numHashFunctions.toNat) :
    0 < (hashCount policy).toNat := by
  unfold hashCount
  dsimp only
  split
  · decide
  · exact hhashes

theorem hashes_eq (k : key) (i : Nat) :
    (policy.filter hhashes hpos hwords).hashes k i = policy.hash k (hashCount policy) i := by
  change policy.hash k (UInt64.ofNat (policy.filter hhashes hpos hwords).policy.hashCount) i = _
  rw [← toNat_hashCount, UInt64.ofNat_toNat]

/-- Where the kernels look for the block of a key. -/
theorem findBlock_run (hhashes : 0 < policy.numHashFunctions.toNat)
    (hpos : 0 < numBlocks.toNat)
    (hwords : numBlocks.toNat * policy.wordsPerBlock.toNat < 2 ^ 64)
    (m : FilterMemory words policy.width) (k : key) :
    exists (place : BlockPlace) (m' : FilterMemory words policy.width),
      (findBlock policy numBlocks k).run FilterMemory.respond m = (place, m') ∧
        m'.bits = m.bits ∧ m'.Holds policy k ∧ place.Fits policy numBlocks ∧
        place.start.toNat = (policy.filter hhashes hpos hwords).blockIdx k *
          policy.wordsPerBlock.toNat := by
  rcases storeHashes_run m k with ⟨m', hrun, hbits, hholds⟩
  have hmeets : (findBlock policy numBlocks k).Meets (FilterRequest.InBounds words)
      (BlockPlace.Fits policy numBlocks) := findBlock_meets hpos hwords k
  have hplace : ((findBlock policy numBlocks k).run FilterMemory.respond m).1.Fits policy
      numBlocks := hmeets.run m
  have hfirst : m'.hashes 0 = (policy.filter hhashes hpos hwords).hashes k 0 := by
    rw [hashes_eq]
    exact hholds 0 (hashCount_pos hhashes)
  unfold findBlock at hplace ⊢
  rw [Code.run_bind, hrun] at hplace ⊢
  refine ⟨_, m', rfl, hbits, hholds, hplace, ?_⟩
  change (m'.hashes 0 % numBlocks * policy.wordsPerBlock).toNat = _
  rw [(exact_start hpos hwords _).toNat_mul, UInt64.toNat_mod, hfirst]
  rfl

/-- The word and the mask of a hash are those of the model. -/
theorem findBit_run {place : BlockPlace} (hplace : place.Fits policy numBlocks)
    {m : FilterMemory words policy.width} {i : Nat}
    (hhash : m.hashes i = policy.hash k (hashCount policy) i) :
    exists (wordIdx : UInt64) (mask : BitVec policy.width),
      (findBit policy place i).run FilterMemory.respond m = ((wordIdx, mask), m) ∧
        wordIdx.toNat = (policy.filter hhashes hpos hwords).wordIdx k i ∧
        mask = (policy.filter hhashes hpos hwords).mask k i := by
  have hbits : (policy.filter hhashes hpos hwords).policy.bitsPerBlock =
      policy.wordsPerBlock.toNat * policy.width := wrapSize_of_lt policy.bits_lt
  have hbit : (m.hashes i % place.bitsPerBlock).toNat =
      (policy.filter hhashes hpos hwords).bitIdx k i := by
    unfold BloomFilter.bitIdx
    rw [UInt64.toNat_mod, hplace.block, hbits, hhash, hashes_eq]
  refine ⟨m.hashes i % place.bitsPerBlock / place.bitsPerWord,
    BitVec.ofNat policy.width 1 <<< (m.hashes i % place.bitsPerBlock % place.bitsPerWord).toNat,
    rfl, ?_, ?_⟩
  · rw [UInt64.toNat_div, hbit, hplace.word]
    rfl
  · have hoffset : (m.hashes i % place.bitsPerBlock % place.bitsPerWord).toNat =
        (policy.filter hhashes hpos hwords).bitOffset k i := by
      rw [UInt64.toNat_mod, hbit, hplace.word]
      rfl
    unfold BloomFilter.mask
    rw [← hoffset]

/-- The word of the array that an access of the block names. -/
theorem wordOf_eq {place : BlockPlace} {wordIdx : UInt64} {i : Nat}
    (hstart : place.start.toNat =
      (policy.filter hhashes hpos hwords).blockIdx k * policy.wordsPerBlock.toNat)
    (hword : wordIdx.toNat = (policy.filter hhashes hpos hwords).wordIdx k i) :
    place.start.toNat + wordIdx.toNat = (policy.filter hhashes hpos hwords).wordOf k i := by
  rw [hstart, hword]
  rfl

theorem bloomAddIteration_run {place : BlockPlace} (hplace : place.Fits policy numBlocks)
    (hstart : place.start.toNat =
      (policy.filter hhashes hpos hwords).blockIdx k * policy.wordsPerBlock.toNat)
    {m : FilterMemory (numBlocks.toNat * policy.wordsPerBlock.toNat) policy.width}
    (hholds : m.Holds policy k) {i : Nat} (hi : i < (hashCount policy).toNat) :
    (bloomAddIteration policy place i).run FilterMemory.respond m =
      (.yield (), { m with
        bits := (policy.filter hhashes hpos hwords).addIteration m.bits k i }) := by
  rcases findBit_run hplace (hholds i hi) with ⟨wordIdx, mask, hbit, hword, hmask⟩
  unfold bloomAddIteration
  rw [if_neg (Nat.not_le.mpr hi), Code.run_bind, hbit, Code.run_bind, atomicOr,
    Code.run_askFor, m.respond_atomicOr (wordOf_eq hstart hword), hmask]
  rfl

theorem bloomProbeIteration_run {place : BlockPlace} (hplace : place.Fits policy numBlocks)
    (hstart : place.start.toNat =
      (policy.filter hhashes hpos hwords).blockIdx k * policy.wordsPerBlock.toNat)
    {m : FilterMemory (numBlocks.toNat * policy.wordsPerBlock.toNat) policy.width}
    {bits : (policy.filter hhashes hpos hwords).Bits} (hbits : m.bits = bits)
    (hholds : m.Holds policy k) {i : Nat} (hi : i < (hashCount policy).toNat) :
    (bloomProbeIteration policy place i true).run FilterMemory.respond m =
      (.yield (if bits ((policy.filter hhashes hpos hwords).wordOf k i) &&&
        (policy.filter hhashes hpos hwords).mask k i = 0 then false else true), m) := by
  rcases findBit_run hplace (hholds i hi) with ⟨wordIdx, mask, hbit, hword, hmask⟩
  unfold bloomProbeIteration
  rw [if_neg (Nat.not_le.mpr hi), if_neg (by decide), Code.run_bind, hbit, Code.run_bind, load,
    Code.run_askFor, m.respond_load (wordOf_eq hstart hword), hmask, hbits]
  rfl

theorem bloomAddIteration_done {place : BlockPlace} {i : Nat}
    (hi : (hashCount policy).toNat ≤ i) (m : FilterMemory words policy.width) :
    (bloomAddIteration policy place i).run FilterMemory.respond m = (.done (), m) := by
  unfold bloomAddIteration
  rw [if_pos hi]
  rfl

theorem bloomProbeIteration_done {place : BlockPlace} {i : Nat} {found : Bool}
    (h : (hashCount policy).toNat ≤ i ∨ found = false) (m : FilterMemory words policy.width) :
    (bloomProbeIteration policy place i found).run FilterMemory.respond m =
      (.done found, m) := by
  unfold bloomProbeIteration
  split
  · rfl
  · rename_i hmore
    rw [if_pos (h.resolve_left hmore)]
    rfl

/-- A thread of `bloom_add_kernel` by itself makes the iterations of the model in turn. -/
theorem bloomAddKernel_run (hhashes : 0 < policy.numHashFunctions.toNat)
    (hpos : 0 < numBlocks.toNat)
    (hwords : numBlocks.toNat * policy.wordsPerBlock.toNat < 2 ^ 64)
    (m : FilterMemory (numBlocks.toNat * policy.wordsPerBlock.toNat) policy.width) (k : key) :
    ((bloomAddKernel policy numBlocks k).run FilterMemory.respond m).2.bits =
      (List.range (policy.filter hhashes hpos hwords).policy.hashCount).foldl
        (fun bits i => (policy.filter hhashes hpos hwords).addIteration bits k i) m.bits := by
  rcases findBlock_run hhashes hpos hwords m k with
    ⟨place, m', hrun, hbits, hholds, hplace, hstart⟩
  unfold bloomAddKernel
  rw [Code.run_bind, hrun, ← hbits, List.range_eq_range', ← toNat_hashCount]
  -- the loop from any of its iterations
  suffices hloop : forall (left i : Nat)
      (m : FilterMemory (numBlocks.toNat * policy.wordsPerBlock.toNat) policy.width),
      i + left = 16 -> m.Holds policy k ->
      ((Code.loop (fun i _ => bloomAddIteration policy place i) i left ()).run
          FilterMemory.respond m).2.bits =
        (List.range' i ((hashCount policy).toNat - i)).foldl
          (fun bits i => (policy.filter hhashes hpos hwords).addIteration bits k i) m.bits from
    hloop 16 0 m' rfl hholds
  have hcount : (hashCount policy).toNat ≤ 16 := hashCount_le
  intro left
  induction left with
  | zero =>
      intro i m hi _
      rw [Nat.sub_eq_zero_of_le (by omega)]
      rfl
  | succ left ih =>
      intro i m hi hholds
      by_cases hdone : (hashCount policy).toNat ≤ i
      · rw [Code.run_loop_done (bloomAddIteration_done hdone m), Nat.sub_eq_zero_of_le hdone]
        rfl
      · have hmore := Nat.not_le.mp hdone
        have hrange : List.range' i ((hashCount policy).toNat - i) =
            i :: List.range' (i + 1) ((hashCount policy).toNat - (i + 1)) := by
          rw [← List.range'_succ]
          congr 1
          omega
        have hnext := ih (i + 1) { m with
          bits := (policy.filter hhashes hpos hwords).addIteration m.bits k i } (by omega) hholds
        rw [Code.run_loop_yield (bloomAddIteration_run hplace hstart hholds hmore), hnext, hrange,
          List.foldl_cons]

theorem bloomProbeKernel_run (hhashes : 0 < policy.numHashFunctions.toNat)
    (hpos : 0 < numBlocks.toNat)
    (hwords : numBlocks.toNat * policy.wordsPerBlock.toNat < 2 ^ 64)
    (m : FilterMemory (numBlocks.toNat * policy.wordsPerBlock.toNat) policy.width) (k : key) :
    ((bloomProbeKernel policy numBlocks k).run FilterMemory.respond m).1 =
      (policy.filter hhashes hpos hwords).probeKernel m.bits k := by
  rcases findBlock_run hhashes hpos hwords m k with
    ⟨place, m', hrun, hbits, hholds, hplace, hstart⟩
  unfold bloomProbeKernel BloomFilter.probeKernel
  rw [Code.run_bind, hrun]
  suffices hloop : forall (left i : Nat) (found : Bool), i + left = 16 ->
      ((Code.loop (bloomProbeIteration policy place) i left found).run
          FilterMemory.respond m').1 =
        (policy.filter hhashes hpos hwords).probeLoop m.bits k i left found from
    hloop 16 0 true rfl
  intro left
  induction left with
  | zero => exact fun _ _ _ => rfl
  | succ left ih =>
      intro i found hi
      unfold BloomFilter.probeLoop
      rw [← toNat_hashCount]
      by_cases hdone : (hashCount policy).toNat ≤ i
      · rw [Code.run_loop_done (bloomProbeIteration_done (Or.inl hdone) m'), if_pos hdone]
      · rw [if_neg hdone]
        cases found with
        | false =>
            rw [Code.run_loop_done (bloomProbeIteration_done (Or.inr rfl) m'), if_pos rfl]
        | true =>
            have hmore := Nat.not_le.mp hdone
            have hgo : ¬ true = false := Bool.noConfusion
            rw [Code.run_loop_yield (bloomProbeIteration_run hplace hstart hbits hholds hmore),
              ih (i + 1) _ (by omega), if_neg hgo]
            split <;> rfl

end Blocks

end FilterRuns

end Filters

end Accesses
end Cuco
end Cuda2Rocm
