import Cuda2Rocm.Cuco.BloomFilter.Reach
import Cuda2Rocm.Cuco.StaticSet.LostKeys
import Cuda2Rocm.Foundation.Strides

/-!
# Odd strides

The probes of the set and the hashes of the default policy are walks with the same stride:
the upper half of the key's hash with its low bit set.  Such a stride is coprime to every
power of two, and a reduction to 64 bits on the way does not matter to the place modulo a
smaller power.
-/

namespace Cuda2Rocm
namespace Cuco

open Foundation

variable {key : Type _}

/-- Whatever the hash is, the stride is odd. -/
theorem stride_odd (h : UInt64) : ((h >>> 32) ||| 1).toNat % 2 = 1 := by
  rw [BloomFilter.toNat_stride]
  omega

/-- What both functors compute, modulo a power of two. -/
theorem toNat_sum_mod {m : Nat} (hm : m ≤ 64) (h : UInt64) (i : Nat) :
    (h + UInt64.ofNat i * ((h >>> 32) ||| 1)).toNat % 2 ^ m =
      walk (2 ^ m) h.toNat ((h >>> 32) ||| 1).toNat i := by
  rw [UInt64.toNat_add, UInt64.toNat_mul, UInt64.toNat_ofNat']
  exact walk_word hm _ _ i

/-- Different numbers below a power of two lead to different places modulo that power. -/
theorem sum_mod_inj {m : Nat} (hm : m ≤ 64) (h : UInt64) {i j : Nat} (hi : i < 2 ^ m)
    (hj : j < 2 ^ m)
    (heq : (h + UInt64.ofNat i * ((h >>> 32) ||| 1)).toNat % 2 ^ m =
      (h + UInt64.ofNat j * ((h >>> 32) ||| 1)).toNat % 2 ^ m) : i = j := by
  rw [toNat_sum_mod hm, toNat_sum_mod hm] at heq
  exact walk_inj h.toNat (coprime_two_pow (stride_odd h) m) hi hj heq

/-!
# Probes
-/

/-- `hash(key, probe) % capacity` where the capacity is `2 ^ m`. -/
def DoubleHashing.probedSlot (hashing : DoubleHashing key) (k : key) (m : Nat)
    (probe : Fin (2 ^ m)) : Fin (2 ^ m) :=
  ⟨(hashing.operator k (UInt64.ofNat probe)).toNat % 2 ^ m, Nat.mod_lt _ (Nat.two_pow_pos m)⟩

theorem DoubleHashing.probedSlot_eq {m : Nat} (hm : m ≤ 64) (hashing : DoubleHashing key)
    (k : key) :
    hashing.probedSlot k m =
      walkFin (hashing.hash_ k).toNat ((hashing.hash_ k >>> 32) ||| 1).toNat
        (Nat.two_pow_pos m) := by
  funext probe
  exact Fin.ext (toNat_sum_mod hm (hashing.hash_ k) probe)

theorem DoubleHashing.probedSlot_bijective {m : Nat} (hm : m ≤ 64)
    (hashing : DoubleHashing key) (k : key) : Function.Bijective (hashing.probedSlot k m) := by
  rw [probedSlot_eq hm]
  exact walkFin_bijective _ (coprime_two_pow (stride_odd _) m) (Nat.two_pow_pos m)

namespace StaticSet

variable {set : StaticSet key} {m : Nat}

/-- The exponent of a capacity, which is a `size_t`. -/
theorem exponent_le (hcapacity : set.capacity = 2 ^ m) : m ≤ 64 := by
  have hle := set.capacity_le
  rw [hcapacity] at hle
  have hlt : 2 ^ m < 2 ^ 64 := Nat.lt_of_le_of_lt hle (by decide)
  exact Nat.le_of_lt ((Nat.pow_lt_pow_iff_right (by decide)).mp hlt)

theorem slotIdx_inj (hcapacity : set.capacity = 2 ^ m) (k : key) {i j : Nat}
    (hi : i < set.capacity) (hj : j < set.capacity)
    (heq : set.slotIdx k i = set.slotIdx k j) : i = j := by
  have hval := congrArg Fin.val heq
  simp only [slotIdx, DoubleHashing.operator, hcapacity] at hval
  rw [hcapacity] at hi hj
  exact sum_mod_inj (exponent_le hcapacity) (set.hash.hash_ k) hi hj hval

/-- Within `capacity` probes every slot is looked at, and none is looked at twice. -/
theorem existsUnique_probe (hcapacity : set.capacity = 2 ^ m) (k : key)
    (slot : Fin set.capacity) :
    ∃! probe, probe < set.capacity ∧ set.slotIdx k probe = slot := by
  have hinj : Function.Injective (fun probe : Fin set.capacity => set.slotIdx k probe) := by
    intro i j h
    exact Fin.ext (slotIdx_inj hcapacity k i.isLt j.isLt h)
  rcases (Finite.injective_iff_surjective.mp hinj) slot with ⟨probe, hprobe⟩
  refine ⟨probe, ⟨probe.isLt, hprobe⟩, ?_⟩
  intro other hother
  exact slotIdx_inj hcapacity k hother.left probe.isLt (hother.right.trans hprobe.symm)

theorem card_reach (hcapacity : set.capacity = 2 ^ m) (k : key) :
    (OpenAddressing.reach set.slotIdx k set.capacity).card = set.capacity := by
  have hinj : Set.InjOn (set.slotIdx k) (Finset.range set.capacity) := by
    intro i hi j hj h
    exact slotIdx_inj hcapacity k (Finset.mem_range.mp hi) (Finset.mem_range.mp hj) h
  unfold OpenAddressing.reach
  rw [Finset.card_image_of_injOn hinj, Finset.card_range]

variable [DecidableEq key]

/-- A set whose capacity is a power of two only loses keys when there are more of them than
slots. -/
theorem inserted_keys_found_of_two_pow {events : List (InsertEvent key)}
    {s : InsertState set} (hcapacity : set.capacity = 2 ^ m)
    (hreal : forall k, k ∈ insertedKeys events -> k ≠ set.emptyKey)
    (hfew : (insertedKeys events).toFinset.card ≤ set.capacity)
    (hrun : set.insertMachine.run set.initial events = some s)
    (hdone : forall thread, thread ∈ s.threads -> thread.finished = true) :
    forall k, k ∈ insertedKeys events ->
      set.contains s.slots k = true ∧ set.probeKernel s.slots k = true := by
  apply inserted_keys_found_of_room hreal ?_ hrun hdone
  intro k _
  rw [card_reach hcapacity k]
  exact hfew

end StaticSet

/-!
# Bits
-/

namespace FilterPolicy

variable (policy : FilterPolicy key)

/-- The word of the block and the bit of the word that the kernels take from `out[i]` after
`hash(key, out, count)`. -/
def bitOf (k : key) (count i : Nat) : Nat × Nat :=
  let bitIdx := (policy.hash k count i).toNat % policy.bitsPerBlock
  (bitIdx / policy.wordBits, bitIdx % policy.wordBits)

/-- So many hashes of any key select different bits of the block. -/
structure SelectsDistinctBits (count : Nat) : Prop where
  within : forall k i, (policy.bitOf k count i).1 < policy.wordsPerBlock ∧
    (policy.bitOf k count i).2 < policy.wordBits
  distinct : forall k i j, i < count -> j < count -> i ≠ j ->
    policy.bitOf k count i ≠ policy.bitOf k count j

theorem bitOf_within (k : key) (count i : Nat) :
    (policy.bitOf k count i).1 < policy.wordsPerBlock ∧
      (policy.bitOf k count i).2 < policy.wordBits := by
  have hbit : (policy.hash k count i).toNat % policy.bitsPerBlock < policy.bitsPerBlock :=
    Nat.mod_lt _ policy.bits_pos
  have hblock := Nat.lt_of_lt_of_le hbit policy.bitsPerBlock_le
  rw [Nat.mul_comm] at hblock
  exact ⟨Nat.div_lt_of_lt_mul hblock, Nat.mod_lt _ policy.wordBits_pos⟩

/-- A word and a bit of it give the bit of the block back. -/
theorem bitIdx_of_bitOf (k : key) (count i : Nat) :
    (policy.bitOf k count i).1 * policy.wordBits + (policy.bitOf k count i).2 =
      (policy.hash k count i).toNat % policy.bitsPerBlock :=
  Nat.div_add_mod' _ _

end FilterPolicy

theorem defaultFilterPolicy_distinct {hash_ : key -> UInt64} {wordBits wordsPerBlock : Nat}
    {hbits : 0 < wrapSize (wordsPerBlock * wordBits)} {m count : Nat}
    (hblock : (defaultFilterPolicy hash_ wordBits wordsPerBlock hbits).bitsPerBlock = 2 ^ m)
    (hcount : count ≤ 2 ^ m) :
    (defaultFilterPolicy hash_ wordBits wordsPerBlock hbits).SelectsDistinctBits count := by
  have hm : m ≤ 64 := by
    have hlt : 2 ^ m < 2 ^ 64 := by
      rw [← hblock]
      exact Nat.mod_lt _ (by decide)
    exact Nat.le_of_lt ((Nat.pow_lt_pow_iff_right (by decide)).mp hlt)
  constructor
  · exact fun k i => FilterPolicy.bitOf_within _ k count i
  · intro k i j hi hj hne heq
    apply hne
    have hi' := FilterPolicy.bitIdx_of_bitOf
      (defaultFilterPolicy hash_ wordBits wordsPerBlock hbits) k count i
    have hj' := FilterPolicy.bitIdx_of_bitOf
      (defaultFilterPolicy hash_ wordBits wordsPerBlock hbits) k count j
    rw [heq, hj', hblock] at hi'
    exact sum_mod_inj hm (hash_ k) (Nat.lt_of_lt_of_le hi hcount)
      (Nat.lt_of_lt_of_le hj hcount) hi'.symm

/-!
# Full period
-/

/--
For every hash and every power of two up to `2 ^ 64` the probes are a bijection onto the
slots, so the loops of a set look at every slot once; and where the bits of a block are a
power of two, no fewer than the hashes, the default policy selects different bits.
-/
theorem odd_strides_visit_all (key : Type _) :
    (forall (hashing : DoubleHashing key) (k : key) (m : Nat), m ≤ 64 ->
      Function.Bijective (hashing.probedSlot k m)) ∧
    (forall (set : StaticSet key) (m : Nat), set.capacity = 2 ^ m ->
      forall k slot, ∃! probe, probe < set.capacity ∧ set.slotIdx k probe = slot) ∧
    (forall (hash_ : key -> UInt64) (wordBits wordsPerBlock : Nat)
      (hbits : 0 < wrapSize (wordsPerBlock * wordBits)) (m count : Nat),
      (defaultFilterPolicy hash_ wordBits wordsPerBlock hbits).bitsPerBlock = 2 ^ m ->
      count ≤ 2 ^ m ->
      (defaultFilterPolicy hash_ wordBits wordsPerBlock hbits).SelectsDistinctBits count) := by
  refine ⟨?_, ?_, ?_⟩
  · intro hashing k m hm
    exact hashing.probedSlot_bijective hm k
  · intro set m hcapacity k slot
    exact StaticSet.existsUnique_probe hcapacity k slot
  · intro hash_ wordBits wordsPerBlock hbits m count hblock hcount
    exact defaultFilterPolicy_distinct hblock hcount

/-- Four slots for 64-bit keys that are hashed to themselves. -/
def fourSlots : StaticSet UInt64 :=
  { capacity := 4
    capacity_pos := by decide
    capacity_le := by decide
    emptyKey := 0
    hash := { hash_ := fun k => k } }

/-- The probes of key 7 in four slots, and the seven bits of a key in 256. -/
theorem odd_strides_visit_all_fourSlots :
    Function.Bijective (fourSlots.hash.probedSlot 7 2) ∧
    (forall slot, ∃! probe, probe < fourSlots.capacity ∧ fourSlots.slotIdx 7 probe = slot) ∧
    (defaultFilterPolicy (id : UInt64 -> UInt64) 32 8
      BloomFilter.defaultBits_pos).SelectsDistinctBits 7 := by
  rcases odd_strides_visit_all UInt64 with ⟨hprobes, hslots, hbits⟩
  exact ⟨hprobes fourSlots.hash 7 2 (by decide), hslots fourSlots 2 rfl 7,
    hbits id 32 8 BloomFilter.defaultBits_pos 8 7 rfl (by decide)⟩

end Cuco
end Cuda2Rocm
