import Cuda2Rocm.Foundation.Copies
import Cuda2Rocm.Memory.FixedSizeHost.Model

/-!
# Allocation objects

A `multiple_blocks_allocation` lists its memory as blocks.  Those that
`allocate_multiple_blocks` makes are slices of one buffer.
-/

namespace Cuda2Rocm
namespace Memory
namespace FixedSizeHost

open Foundation

/-- `fixed_size_host_memory_resource::block`; the null pointer is 0. -/
structure Block where
  ptr : Nat
  bytes : Nat
deriving DecidableEq, Repr

/-- The memory of a block. -/
def Block.region (blk : Block) : Region := ⟨blk.ptr, blk.bytes⟩

/-- `default_block_size`. -/
def defaultBlockSize : Nat := 1 <<< 20

/-- `multiple_blocks_allocation`. -/
structure MultipleBlocksAllocation where
  blocks : List Block
  blockSize : Nat
  totalBytes : Nat
  arena : Option ArenaRef
deriving DecidableEq, Repr

namespace MultipleBlocksAllocation

/-- A default-constructed allocation. -/
def empty : MultipleBlocksAllocation :=
  { blocks := [], blockSize := defaultBlockSize, totalBytes := 0, arena := none }

/-- The blocks' bytes one behind the other. -/
def contents (alloc : MultipleBlocksAllocation) (memory : Nat -> UInt8) : List UInt8 :=
  alloc.blocks.flatMap (fun blk => blk.region.contents memory)

/-- The sum of the blocks' bytes. -/
def blockBytes (alloc : MultipleBlocksAllocation) : Nat :=
  totalLength (alloc.blocks.map Block.region)

end MultipleBlocksAllocation

/-!
# Slices of a buffer
-/

/-- The loop of `emplace_back` calls, from one block with so many to go. -/
def emplaceBlocks (ptr blockSize : Nat) : Nat -> Nat -> List Block
  | _, 0 => []
  | i, left + 1 =>
      { ptr := ptr + i * blockSize, bytes := blockSize } ::
        emplaceBlocks ptr blockSize (i + 1) left

/-- The object that `allocate_multiple_blocks` returns for a request and its buffer. -/
def grantedBlocks (blockSize : Nat) (request : Request) (ptr : Ptr) :
    MultipleBlocksAllocation :=
  { blocks := emplaceBlocks ptr blockSize 0 (request.bytes / blockSize)
    blockSize := blockSize
    totalBytes := request.bytes
    arena := request.arena }

/-- The blocks are the slices of a buffer of so many bytes: each at its place, in order,
disjoint, and without gaps. -/
structure Slices (ptr total blockSize : Nat) (blocks : List Block) : Prop where
  count : blocks.length * blockSize = total
  slice : forall i blk, blocks[i]? = some blk ->
    blk = Block.mk (ptr + i * blockSize) blockSize
  ordered : blocks.Pairwise (fun blk later => blk.ptr + blk.bytes ≤ later.ptr)
  covering : forall a, ptr ≤ a -> a < ptr + total ->
    exists blk, blk ∈ blocks ∧ blk.ptr ≤ a ∧ a < blk.ptr + blk.bytes

@[simp] theorem length_emplaceBlocks (ptr blockSize i left : Nat) :
    (emplaceBlocks ptr blockSize i left).length = left := by
  induction left generalizing i with
  | zero => rfl
  | succ left ih => rw [emplaceBlocks, List.length_cons, ih]

theorem getElem_emplaceBlocks (ptr blockSize : Nat) {i j left : Nat} (hj : j < left) :
    (emplaceBlocks ptr blockSize i left)[j]? =
      some { ptr := ptr + (i + j) * blockSize, bytes := blockSize } := by
  induction left generalizing i j with
  | zero => exact absurd hj (Nat.not_lt_zero j)
  | succ left ih =>
      cases j with
      | zero => rfl
      | succ j =>
          rw [emplaceBlocks, List.getElem?_cons_succ, ih (Nat.lt_of_succ_lt_succ hj),
            Nat.add_right_comm, Nat.add_assoc]

theorem le_ptr_of_mem_emplaceBlocks {ptr blockSize i left : Nat} {blk : Block}
    (h : blk ∈ emplaceBlocks ptr blockSize i left) : ptr + i * blockSize ≤ blk.ptr := by
  induction left generalizing i with
  | zero => exact absurd h List.not_mem_nil
  | succ left ih =>
      rcases List.mem_cons.mp h with rfl | hlater
      · exact Nat.le_refl _
      · have hle := ih hlater
        rw [Nat.succ_mul] at hle
        omega

theorem pairwise_emplaceBlocks (ptr blockSize i left : Nat) :
    (emplaceBlocks ptr blockSize i left).Pairwise
      (fun blk later => blk.ptr + blk.bytes ≤ later.ptr) := by
  induction left generalizing i with
  | zero => exact List.Pairwise.nil
  | succ left ih =>
      rw [emplaceBlocks]
      refine List.Pairwise.cons ?_ (ih (i + 1))
      intro later hlater
      have hle := le_ptr_of_mem_emplaceBlocks hlater
      rw [Nat.succ_mul] at hle
      show ptr + i * blockSize + blockSize ≤ later.ptr
      omega

/-- The blocks of a grant are the slices of its buffer. -/
theorem slices_grantedBlocks {blockSize : Nat} (hblock : 0 < blockSize) {request : Request}
    (hwhole : blockSize ∣ request.bytes) (ptr : Nat) :
    Slices ptr request.bytes blockSize (grantedBlocks blockSize request ptr).blocks := by
  have hcount : request.bytes / blockSize * blockSize = request.bytes :=
    Nat.div_mul_cancel hwhole
  have hlength : (grantedBlocks blockSize request ptr).blocks.length =
      request.bytes / blockSize := length_emplaceBlocks _ _ _ _
  have hget : forall i, i < request.bytes / blockSize ->
      (grantedBlocks blockSize request ptr).blocks[i]? =
        some { ptr := ptr + i * blockSize, bytes := blockSize } := by
    intro i hi
    have hat := getElem_emplaceBlocks ptr blockSize (i := 0) hi
    rw [Nat.zero_add] at hat
    exact hat
  constructor
  · rw [hlength]
    exact hcount
  · intro i blk hblk
    have hi : i < request.bytes / blockSize := by
      rw [← hlength]
      exact (List.getElem?_eq_some_iff.mp hblk).1
    rw [hget i hi] at hblk
    exact (Option.some.inj hblk).symm
  · exact pairwise_emplaceBlocks _ _ _ _
  · intro a hlow hhigh
    -- the slice that the address falls into
    have hstart : (a - ptr) / blockSize * blockSize ≤ a - ptr := Nat.div_mul_le_self _ _
    have hend : a - ptr < (a - ptr) / blockSize * blockSize + blockSize :=
      Nat.lt_div_mul_add hblock
    have hi : (a - ptr) / blockSize < request.bytes / blockSize := by
      rw [Nat.div_lt_iff_lt_mul hblock, hcount]
      omega
    refine ⟨_, List.mem_of_getElem? (hget _ hi), ?_, ?_⟩
    · show ptr + (a - ptr) / blockSize * blockSize ≤ a
      omega
    · show a < ptr + (a - ptr) / blockSize * blockSize + blockSize
      omega

end FixedSizeHost
end Memory
end Cuda2Rocm
