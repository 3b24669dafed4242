import Cuda2Rocm.Memory.FixedSizeHost.Blocks

/-!
# Host tables

A `host_table_allocation` is a list of blocks of pinned memory with the metadata of
the columns laid out in them.  Cloning its representation allocates one buffer of the
table's `total_bytes` and copies every block of the source into it, each in full.
-/

namespace Cuda2Rocm
namespace Cudf

open Foundation Memory.FixedSizeHost

/-- `host_table_allocation`; the column metadata is only ever copied. -/
structure HostTable (column : Type _) where
  allocation : Option MultipleBlocksAllocation
  columns : List column
  totalBytes : Nat

/-- `host_data_representation`. -/
structure HostData (column space : Type _) where
  table : Option (HostTable column)
  space : space

/-- What the HIP calls of `clone` return for their arguments.  An error is given by
its string, and a pointer of 0 is null. -/
structure HostHip where
  hipMallocHost : Nat -> Except String Nat
  hipMemcpyAsync : (dst src bytes : Nat) -> Option String

/-- The memory of the process, the regions written to, and the buffers freed. -/
structure HostMemory where
  bytes : Nat -> UInt8
  writes : List Region
  freed : List Nat

namespace HostData

variable {column space : Type _}

def mallocFailed (error : String) : String :=
  "cuCascade: hipMallocHost failed in host_data_representation::clone: " ++ error

def memcpyFailed (error : String) : String :=
  "cuCascade: hipMemcpyAsync failed in host_data_representation::clone: " ++ error

/-- `std::memset(new_buf, 0, total_bytes)`. -/
def memsetZero (s : HostMemory) (buf total : Nat) : HostMemory :=
  { s with
    bytes := fun a => if buf ≤ a ∧ a < buf + total then 0 else s.bytes a
    writes := s.writes ++ [⟨buf, total⟩] }

/-- The loop over the blocks of the source; `dst` has moved behind those copied. -/
def copyBlocks (hip : HostHip) (buf : Nat) : List Block -> Nat -> HostMemory ->
    Except String Nat × HostMemory
  | [], _, s => (.ok buf, s)
  | blk :: rest, dst, s =>
      if blk.ptr ≠ 0 ∧ 0 < blk.bytes then
        match hip.hipMemcpyAsync dst blk.ptr blk.bytes with
        | some error =>
            (.error (memcpyFailed error), { s with freed := s.freed ++ [buf] })
        | none =>
            copyBlocks hip buf rest (dst + blk.bytes)
              { s with
                bytes := copyRegion s.bytes dst blk.region
                writes := s.writes ++ [⟨dst, blk.bytes⟩] }
      else copyBlocks hip buf rest dst s

/-- The new buffer, null for a table without bytes, filled from the source. -/
def cloneBuffer (hip : HostHip) (table : HostTable column) (s : HostMemory) :
    Except String Nat × HostMemory :=
  if 0 < table.totalBytes then
    match hip.hipMallocHost table.totalBytes with
    | .error error => (.error (mallocFailed error), s)
    | .ok buf =>
        if buf = 0 then (.error (mallocFailed "no error"), s)
        else
          match table.allocation with
          | some alloc => copyBlocks hip buf alloc.blocks buf s
          | none => (.ok buf, memsetZero s buf table.totalBytes)
  else (.ok 0, s)

/-- The allocation object of the clone. -/
def cloneAllocation (buf total : Nat) : MultipleBlocksAllocation :=
  if 0 < total ∧ buf ≠ 0 then
    { MultipleBlocksAllocation.empty with
      blocks := [{ ptr := buf, bytes := total }]
      totalBytes := total }
  else MultipleBlocksAllocation.empty

/-- `host_data_representation::clone`. -/
def clone (hip : HostHip) (rep : HostData column space) (s : HostMemory) :
    Except String (HostData column space) × HostMemory :=
  match rep.table with
  | none => (.ok { table := none, space := rep.space }, s)
  | some table =>
      match cloneBuffer hip table s with
      | (.error text, s') => (.error text, s')
      | (.ok buf, s') =>
          (.ok { table := some { allocation := some (cloneAllocation buf table.totalBytes)
                                 columns := table.columns
                                 totalBytes := table.totalBytes }
                 space := rep.space }, s')

/-!
# The copy loop
-/

/-- The blocks that the loop does not skip. -/
def copied (blocks : List Block) : List Region :=
  (blocks.filter (fun blk => blk.ptr ≠ 0 ∧ 0 < blk.bytes)).map Block.region

/-- Where every copy succeeds, the loop lays the blocks end to end from `dst` on. -/
theorem copyBlocks_eq {hip : HostHip} (hok : forall dst src n, hip.hipMemcpyAsync dst src n = none)
    (buf : Nat) (blocks : List Block) : forall (dst : Nat) (s : HostMemory),
      copyBlocks hip buf blocks dst s = (.ok buf,
        { s with
          bytes := copyPieces s.bytes dst (copied blocks)
          writes := s.writes ++ destinations dst (copied blocks) }) := by
  induction blocks with
  | nil =>
      intro dst s
      simp [copyBlocks, copied, copyPieces, destinations]
  | cons blk rest ih =>
      intro dst s
      by_cases hcopy : blk.ptr ≠ 0 ∧ 0 < blk.bytes
      · have hpieces : copied (blk :: rest) = blk.region :: copied rest := by
          simp [copied, hcopy]
        rw [copyBlocks, if_pos hcopy, hok, hpieces, copyPieces, destinations]
        simp only
        rw [ih, List.append_assoc]
        rfl
      · have hpieces : copied (blk :: rest) = copied rest := by
          simp [copied, hcopy]
        rw [copyBlocks, if_neg hcopy, hpieces, ih]

/-- Among non-null blocks only the empty ones are skipped. -/
theorem totalLength_copied {blocks : List Block} (hptr : forall blk, blk ∈ blocks -> blk.ptr ≠ 0) :
    totalLength (copied blocks) = totalLength (blocks.map Block.region) := by
  induction blocks with
  | nil => rfl
  | cons blk rest ih =>
      have hrest := ih fun other hother => hptr other (List.mem_cons_of_mem _ hother)
      have hblk := hptr blk List.mem_cons_self
      rw [List.map_cons, totalLength_cons, ← hrest]
      by_cases hbytes : 0 < blk.bytes
      · simp [copied, hblk, hbytes]
      · have hzero : blk.region.length = 0 := Nat.eq_zero_of_not_pos hbytes
        simp [copied, hbytes, hzero]

theorem flatMap_copied {blocks : List Block} (hptr : forall blk, blk ∈ blocks -> blk.ptr ≠ 0)
    (memory : Nat -> UInt8) :
    (copied blocks).flatMap (fun piece => piece.contents memory) =
      blocks.flatMap (fun blk => blk.region.contents memory) := by
  induction blocks with
  | nil => rfl
  | cons blk rest ih =>
      have hrest := ih fun other hother => hptr other (List.mem_cons_of_mem _ hother)
      have hblk := hptr blk List.mem_cons_self
      rw [List.flatMap_cons, ← hrest]
      by_cases hbytes : 0 < blk.bytes
      · simp [copied, hblk, hbytes]
      · have hnone : blk.region.contents memory = [] := by
          have hzero : blk.region.length = 0 := Nat.eq_zero_of_not_pos hbytes
          simp [Region.contents, window, hzero]
        simp [copied, hbytes, hnone]

/-!
# Exact clones
-/

/-- The clone stayed in its buffer, holds the table's bytes under the same metadata, and
left the source alone. -/
structure ClonedExactly (before after : HostMemory) (table : HostTable column)
    (alloc : MultipleBlocksAllocation) (buf : Nat) (cloned : HostData column space) :
    Prop where
  inBounds : exists writes, after.writes = before.writes ++ writes ∧
    forall r, r ∈ writes -> r.Within ⟨buf, table.totalBytes⟩
  copy : exists table' alloc', cloned.table = some table' ∧
    table'.allocation = some alloc' ∧ table'.columns = table.columns ∧
    table'.totalBytes = table.totalBytes ∧
    alloc'.contents after.bytes = (alloc.contents before.bytes).take table.totalBytes
  source : forall blk, blk ∈ alloc.blocks ->
    blk.region.contents after.bytes = blk.region.contents before.bytes

/-- What the clone of a table with an allocation comes to where the HIP calls succeed. -/
theorem clone_eq {hip : HostHip} {rep : HostData column space} {table : HostTable column}
    {alloc : MultipleBlocksAllocation} {buf : Nat} (s : HostMemory)
    (htable : rep.table = some table) (halloc : table.allocation = some alloc)
    (hpos : 0 < table.totalBytes) (hmalloc : hip.hipMallocHost table.totalBytes = .ok buf)
    (hbuf : buf ≠ 0) (hok : forall dst src n, hip.hipMemcpyAsync dst src n = none) :
    clone hip rep s =
      (.ok { table := some { allocation := some (cloneAllocation buf table.totalBytes)
                             columns := table.columns
                             totalBytes := table.totalBytes }
             space := rep.space },
        { s with
          bytes := copyPieces s.bytes buf (copied alloc.blocks)
          writes := s.writes ++ destinations buf (copied alloc.blocks) }) := by
  have hcloned : cloneBuffer hip table s = (.ok buf,
      { s with
        bytes := copyPieces s.bytes buf (copied alloc.blocks)
        writes := s.writes ++ destinations buf (copied alloc.blocks) }) := by
    rw [cloneBuffer, if_pos hpos, hmalloc]
    simp only [if_neg hbuf, halloc]
    exact copyBlocks_eq hok buf alloc.blocks buf s
  rw [clone, htable]
  simp only [hcloned]

theorem mem_copied {blocks : List Block} {piece : Region} (h : piece ∈ copied blocks) :
    exists blk, blk ∈ blocks ∧ blk.region = piece := by
  rcases List.mem_map.mp h with ⟨blk, hblk, rfl⟩
  exact ⟨blk, (List.mem_filter.mp hblk).1, rfl⟩

/--
For non-null blocks of at least `total_bytes` bytes, `clone` returns, and its clone is
exact exactly if the blocks have no byte more than `total_bytes`.
-/
theorem clone_exact_iff {hip : HostHip} {rep : HostData column space}
    {table : HostTable column} {alloc : MultipleBlocksAllocation} {buf : Nat}
    (s : HostMemory) (htable : rep.table = some table)
    (halloc : table.allocation = some alloc)
    (hptr : forall blk, blk ∈ alloc.blocks -> blk.ptr ≠ 0)
    (hsum : table.totalBytes ≤ alloc.blockBytes) (hpos : 0 < table.totalBytes)
    (hmalloc : hip.hipMallocHost table.totalBytes = .ok buf) (hbuf : buf ≠ 0)
    (hfresh : forall blk, blk ∈ alloc.blocks ->
      blk.region.Apart ⟨buf, table.totalBytes⟩)
    (hok : forall dst src n, hip.hipMemcpyAsync dst src n = none) :
    exists cloned after, clone hip rep s = (.ok cloned, after) ∧
      (ClonedExactly s after table alloc buf cloned <->
        alloc.blockBytes = table.totalBytes) := by
  refine ⟨_, _, clone_eq s htable halloc hpos hmalloc hbuf hok, ?_⟩
  have htotal : totalLength (copied alloc.blocks) = alloc.blockBytes :=
    totalLength_copied hptr
  constructor
  · rintro ⟨⟨writes, hwrites, hin⟩, _, _⟩
    have hnew : writes = destinations buf (copied alloc.blocks) :=
      (List.append_cancel_left hwrites).symm
    have hsome : copied alloc.blocks ≠ [] := by
      intro hnil
      rw [hnil] at htotal
      exact absurd (Nat.lt_of_lt_of_le hpos hsum) (by rw [← htotal]; exact Nat.lt_irrefl 0)
    -- the last copy ends where the blocks end
    rcases exists_mem_destinations_end (copied alloc.blocks) buf hsome with ⟨r, hr, hend⟩
    have hlast := (hin r (hnew ▸ hr)).2
    simp only at hlast
    omega
  · intro hexact
    have hlength : totalLength (copied alloc.blocks) = table.totalBytes := htotal.trans hexact
    have hapart : forall piece, piece ∈ copied alloc.blocks ->
        piece.Apart ⟨buf, totalLength (copied alloc.blocks)⟩ := by
      intro piece hpiece
      rcases mem_copied hpiece with ⟨blk, hblk, rfl⟩
      rw [hlength]
      exact hfresh blk hblk
    have hbytes := contents_copyPieces (copied alloc.blocks) s.bytes hapart
    rw [hlength, flatMap_copied hptr] at hbytes
    constructor
    · refine ⟨_, rfl, fun r hr => ?_⟩
      rw [← hlength]
      exact within_of_mem_destinations _ hr
    · refine ⟨_, _, rfl, rfl, rfl, rfl, ?_⟩
      have hclone : cloneAllocation buf table.totalBytes =
          { MultipleBlocksAllocation.empty with
            blocks := [{ ptr := buf, bytes := table.totalBytes }]
            totalBytes := table.totalBytes } := if_pos ⟨hpos, hbuf⟩
      have hwhole : (alloc.contents s.bytes).length = table.totalBytes := by
        change (alloc.blocks.flatMap fun blk => blk.region.contents s.bytes).length = _
        rw [← hbytes]
        exact length_window _ _ _
      rw [hclone, List.take_of_length_le (Nat.le_of_eq hwhole)]
      change (List.flatMap _ [_]) = _
      rw [List.flatMap_singleton]
      exact hbytes
    · intro blk hblk
      apply contents_copyPieces_of_apart
      rw [hlength]
      exact hfresh blk hblk

/-!
# Rounded blocks
-/

/-- HIP calls that succeed, with the buffer at 200. -/
def bufferAt200 : HostHip :=
  { hipMallocHost := fun _ => .ok 200
    hipMemcpyAsync := fun _ _ _ => none }

/-- One block of 16 bytes at 100. -/
def oneBlock : MultipleBlocksAllocation :=
  { MultipleBlocksAllocation.empty with
    blocks := [{ ptr := 100, bytes := 16 }]
    blockSize := 16
    totalBytes := 16 }

/-- A table of so many bytes in that block. -/
def tableOf (totalBytes : Nat) : HostTable Nat :=
  { allocation := some oneBlock, columns := [0], totalBytes := totalBytes }

/-- A memory in which each byte holds its address. -/
def addressBytes : HostMemory :=
  { bytes := fun a => UInt8.ofNat a, writes := [], freed := [] }

theorem oneBlock_apart {total : Nat} (blk : Block) (h : blk ∈ oneBlock.blocks) :
    blk.region.Apart ⟨200, total⟩ := by
  rcases List.mem_singleton.mp h with rfl
  intro a _ hhigh hin
  change a < 100 + 16 at hhigh
  change 200 ≤ a ∧ _ at hin
  omega

/-- The exact condition read for a table that fills its block. -/
theorem clone_exact_iff_wholeBlock :
    exists cloned after,
      clone bufferAt200 { table := some (tableOf 16), space := 0 } addressBytes =
        (.ok cloned, after) ∧
      (ClonedExactly addressBytes after (tableOf 16) oneBlock 200 cloned <->
        oneBlock.blockBytes = (tableOf 16).totalBytes) :=
  @clone_exact_iff _ _ bufferAt200 { table := some (tableOf 16), space := 0 } _ _ 200
    addressBytes rfl rfl (by decide) (by decide) (by decide) rfl (by decide) oneBlock_apart
    (fun _ _ _ => rfl)

/-- The clone of a 10-byte table in a 16-byte block writes 16 bytes into 10. -/
theorem clone_overruns_buffer :
    exists cloned after,
      clone bufferAt200 { table := some (tableOf 10), space := 0 } addressBytes =
        (.ok cloned, after) ∧
      after.writes = [⟨200, 16⟩] ∧
      ¬ ClonedExactly addressBytes after (tableOf 10) oneBlock 200 cloned := by
  refine ⟨_, _, rfl, rfl, ?_⟩
  rintro ⟨⟨writes, hwrites, hin⟩, _, _⟩
  have hwithin : Region.Within ⟨200, 16⟩ ⟨200, 10⟩ := by
    apply hin
    change [⟨200, 16⟩] = [] ++ writes at hwrites
    rw [List.nil_append] at hwrites
    rw [← hwrites]
    exact List.mem_singleton_self _
  exact absurd hwithin (by decide)

end HostData
end Cudf
end Cuda2Rocm
