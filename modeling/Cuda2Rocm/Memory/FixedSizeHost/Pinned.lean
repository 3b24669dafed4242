import Cuda2Rocm.Memory.FixedSizeHost.Moves

/-!
# Pinned memory

Every block of pinned memory has one owner: an entry of `live_allocs_`, a client that
holds its raw pointer, or a call between `hipMallocHost` and the entry or between the
entry and `hipFreeHost`.  What a call that threw has left pinned has none and is counted
as lost.
-/

namespace Cuda2Rocm
namespace Memory
namespace FixedSizeHost

open Foundation

/-- The memory a call in flight is responsible for. -/
def Frame.holding : Frame -> Multiset (Ptr × Nat)
  | .constructing request ptr => {(ptr, request.bytes)}
  | .freeing ptr bytes _ => {(ptr, bytes)}
  | _ => 0

def heldIn (threads : Table Thread Frame) : Multiset (Ptr × Nat) :=
  threads.sum (fun _ frame => frame.holding)

def liveBlocks (liveAllocs : Table AllocId Allocation) : Multiset (Ptr × Nat) :=
  liveAllocs.sum (fun _ alloc => {(alloc.ptr, alloc.bytes)})

def lostBlocks (lost : List Allocation) : Multiset (Ptr × Nat) :=
  lost.map (fun alloc => (alloc.ptr, alloc.bytes))

/-- Pinned memory and its owners agree, block by block. -/
def Owned (s : State) : Prop :=
  s.pinned.pairs =
    liveBlocks s.liveAllocs + s.singles.pairs + heldIn s.threads + lostBlocks s.lost

section Owners

variable {threads : Table Thread Frame} {thread : Thread}

theorem heldIn_insert {old : Frame} (h : threads.lookup thread = some old)
    (frame : Frame) :
    heldIn (threads.insert thread frame) + old.holding =
      heldIn threads + frame.holding :=
  Table.sum_replace h frame (fun _ frame => frame.holding)

theorem heldIn_same {old frame : Frame} (h : threads.lookup thread = some old)
    (hsame : frame.holding = old.holding) :
    heldIn (threads.insert thread frame) = heldIn threads := by
  have hsum := heldIn_insert h frame
  rw [hsame] at hsum
  exact add_right_cancel hsum

theorem heldIn_insert_new (h : threads.lookup thread = none) (frame : Frame) :
    heldIn (threads.insert thread frame) = frame.holding + heldIn threads :=
  Table.sum_insert_of_none h frame (fun _ frame => frame.holding)

theorem heldIn_idle {frame : Frame} (h : threads.lookup thread = none)
    (hzero : frame.holding = 0) :
    heldIn (threads.insert thread frame) = heldIn threads := by
  rw [heldIn_insert_new h, hzero, zero_add]

end Owners

section Steps

variable {c : Config} {s t : State} {e : Event}

theorem Owned.unmoved (h : Owned s) (hpinned : t.pinned = s.pinned)
    (hlive : t.liveAllocs = s.liveAllocs) (hsingles : t.singles = s.singles)
    (hthreads : heldIn t.threads = heldIn s.threads) (hlost : t.lost = s.lost) :
    Owned t := by
  unfold Owned
  rw [hpinned, hlive, hsingles, hthreads, hlost]
  exact h

theorem Frame.Fresh.holding_eq {frame : Frame} (h : frame.Fresh) :
    frame.holding = 0 := by
  cases h with
  | done outcome => rfl
  | reservation bytes => rfl
  | single bytes => rfl

theorem Owned.pinned_of_single (h : Owned s) {ptr : Ptr} {bytes : Nat}
    (hptr : s.singles.lookup ptr = some bytes) : s.pinned.lookup ptr = some bytes := by
  rw [← Table.mem_pairs, h]
  exact Multiset.mem_add.mpr (Or.inl (Multiset.mem_add.mpr (Or.inl
    (Multiset.mem_add.mpr (Or.inr (Table.mem_pairs.mpr hptr))))))

/-- The memory in the hands of a call in flight is pinned. -/
theorem Owned.pinned_of_holding (h : Owned s) {thread : Thread} {frame : Frame} {ptr : Ptr}
    {bytes : Nat} (hframe : s.threads.lookup thread = some frame)
    (hholding : frame.holding = {(ptr, bytes)}) : s.pinned.lookup ptr = some bytes := by
  rw [← Table.mem_pairs, h]
  have hsplit : heldIn s.threads = frame.holding + heldIn (s.threads.erase thread) :=
    Table.sum_of_lookup hframe (fun _ frame => frame.holding)
  rw [hsplit, hholding]
  exact Multiset.mem_add.mpr (Or.inl (Multiset.mem_add.mpr (Or.inr (Multiset.mem_add.mpr
    (Or.inl (Multiset.mem_singleton_self _))))))

theorem Owned.pinned_of_freeing (h : Owned s) {thread : Thread} {ptr : Ptr}
    {bytes credit : Nat}
    (hframe : s.threads.lookup thread = some (.freeing ptr bytes credit)) :
    s.pinned.lookup ptr = some bytes :=
  h.pinned_of_holding hframe rfl

theorem owned_take {id : AllocId} {thread : Thread} {alloc : Allocation} {credit : Nat}
    (h : Owned s) (hidle : s.threads.lookup thread = none)
    (halloc : s.liveAllocs.lookup id = some alloc) (arenas : Table Addr Arena) :
    Owned { s with
      arenas := arenas
      liveAllocs := s.liveAllocs.erase id
      threads := s.threads.insert thread (.freeing alloc.ptr alloc.bytes credit) } := by
  have hlive : liveBlocks s.liveAllocs =
      {(alloc.ptr, alloc.bytes)} + liveBlocks (s.liveAllocs.erase id) :=
    Table.sum_of_lookup halloc (fun _ alloc => {(alloc.ptr, alloc.bytes)})
  unfold Owned at h ⊢
  dsimp only
  rw [h, heldIn_insert_new hidle, hlive]
  simp only [Frame.holding]
  ac_rfl

theorem owned_takeSingle {thread : Thread} {ptr : Ptr} {bytes : Nat} (h : Owned s)
    (hidle : s.threads.lookup thread = none)
    (hptr : s.singles.lookup ptr = some bytes) :
    Owned { s with
      singles := s.singles.erase ptr
      threads := s.threads.insert thread (.freeing ptr bytes bytes) } := by
  have hsingles : s.singles.pairs = {(ptr, bytes)} + (s.singles.erase ptr).pairs :=
    Table.sum_of_lookup hptr (fun ptr bytes => {(ptr, bytes)})
  unfold Owned at h ⊢
  dsimp only
  rw [h, heldIn_insert_new hidle, hsingles]
  simp only [Frame.holding]
  ac_rfl

theorem owned_freed {thread : Thread} {ptr : Ptr} {bytes credit : Nat} (h : Owned s)
    (hframe : s.threads.lookup thread = some (.freeing ptr bytes credit)) :
    Owned (s.hipFreeHost thread ptr credit) := by
  have hpinned : s.pinned.pairs = {(ptr, bytes)} + (s.pinned.erase ptr).pairs :=
    Table.sum_of_lookup (h.pinned_of_freeing hframe) (fun ptr bytes => {(ptr, bytes)})
  have hheld := heldIn_insert hframe (.crediting (.deallocation credit) .load)
  simp only [Frame.holding, add_zero] at hheld
  unfold Owned at h ⊢
  rw [hpinned, ← hheld] at h
  simp only [State.hipFreeHost]
  apply add_left_cancel (a := ({(ptr, bytes)} : Multiset (Ptr × Nat)))
  rw [h]
  ac_rfl

theorem owned_malloc {thread : Thread} {ptr : Ptr} {request : Request} (h : Owned s)
    (hframe : s.threads.lookup thread = some (.allocating request))
    (hptr : s.pinned.lookup ptr = none) :
    Owned { s with
      pinned := s.pinned.insert ptr request.bytes
      threads := s.threads.insert thread (.constructing request ptr) } := by
  have hpinned : (s.pinned.insert ptr request.bytes).pairs =
      {(ptr, request.bytes)} + s.pinned.pairs :=
    Table.sum_insert_of_none hptr _ (fun ptr bytes => {(ptr, bytes)})
  have hheld := heldIn_insert hframe (.constructing request ptr)
  simp only [Frame.holding, add_zero] at hheld
  unfold Owned at h ⊢
  dsimp only
  rw [hpinned, hheld, h]
  ac_rfl

theorem owned_mallocSingle {thread : Thread} {ptr : Ptr} {bytes : Nat} (h : Owned s)
    (hframe : s.threads.lookup thread = some (.allocatingSingle bytes))
    (hptr : s.pinned.lookup ptr = none) (hfree : s.singles.lookup ptr = none) :
    Owned { s with
      pinned := s.pinned.insert ptr bytes
      singles := s.singles.insert ptr bytes
      threads := s.threads.insert thread (.done (.single ptr)) } := by
  have hpinned : (s.pinned.insert ptr bytes).pairs =
      {(ptr, bytes)} + s.pinned.pairs :=
    Table.sum_insert_of_none hptr _ (fun ptr bytes => {(ptr, bytes)})
  have hsingles : (s.singles.insert ptr bytes).pairs =
      {(ptr, bytes)} + s.singles.pairs :=
    Table.sum_insert_of_none hfree _ (fun ptr bytes => {(ptr, bytes)})
  have hheld : heldIn (s.threads.insert thread (.done (.single ptr))) =
      heldIn s.threads := heldIn_same hframe rfl
  unfold Owned at h ⊢
  dsimp only
  rw [hpinned, hsingles, hheld, h]
  ac_rfl

theorem owned_construct {thread : Thread} {id : AllocId} {request : Request} {ptr : Ptr}
    (h : Owned s)
    (hframe : s.threads.lookup thread = some (.constructing request ptr))
    (hid : s.liveAllocs.lookup id = none) :
    Owned { s with
      liveAllocs := s.liveAllocs.insert id
        { ptr := ptr, bytes := request.bytes, arena := request.arena }
      mutex := none
      threads := s.threads.insert thread (.done (.blocks (some id))) } := by
  have hlive : liveBlocks (s.liveAllocs.insert id
        { ptr := ptr, bytes := request.bytes, arena := request.arena }) =
      {(ptr, request.bytes)} + liveBlocks s.liveAllocs :=
    Table.sum_insert_of_none hid _ (fun _ alloc => {(alloc.ptr, alloc.bytes)})
  have hheld := heldIn_insert hframe (.done (.blocks (some id)))
  simp only [Frame.holding, add_zero] at hheld
  unfold Owned at h ⊢
  dsimp only
  rw [h, hlive, ← hheld]
  ac_rfl

/-- What a call leaves behind when it throws is lost. -/
theorem owned_throws {thread : Thread} {request : Request} {ptr : Ptr} (h : Owned s)
    (hframe : s.threads.lookup thread = some (.constructing request ptr))
    (exception : StdException) :
    Owned { s with
      lost := { ptr := ptr, bytes := request.bytes, arena := request.arena } :: s.lost
      mutex := none
      threads := s.threads.insert thread (.done (.raised exception)) } := by
  have hlost : lostBlocks
        ({ ptr := ptr, bytes := request.bytes, arena := request.arena } :: s.lost) =
      {(ptr, request.bytes)} + lostBlocks s.lost := rfl
  have hheld := heldIn_insert hframe (.done (.raised exception))
  simp only [Frame.holding, add_zero] at hheld
  unfold Owned at h ⊢
  dsimp only
  rw [h, hlost, ← hheld]
  ac_rfl

theorem Owned.single_free (h : Owned s) {ptr : Ptr} (hptr : s.pinned.lookup ptr = none) :
    s.singles.lookup ptr = none := by
  cases hlookup : s.singles.lookup ptr with
  | none => rfl
  | some bytes =>
      rw [h.pinned_of_single hlookup] at hptr
      cases hptr

theorem owned_move (h : Owned s) (hmove : Move c s e t) : Owned t := by
  cases hmove with
  | start hcalls hidle hfresh =>
      exact h.unmoved rfl rfl rfl (heldIn_idle hidle hfresh.holding_eq) rfl
  | startLocking hidle hbytes harena => exact h.unmoved rfl rfl rfl (heldIn_idle hidle rfl) rfl
  | take hidle hmutex halloc huntracked => exact owned_take h hidle halloc s.arenas
  | takeTracked hidle hmutex halloc href hfind => exact owned_take h hidle halloc _
  | takeSingle hidle hptr => exact owned_takeSingle h hidle hptr
  | destroyReleased hidle hmutex harena htracker =>
      exact h.unmoved rfl rfl rfl (heldIn_idle hidle rfl) rfl
  | destroy hidle hmutex harena htracker =>
      exact h.unmoved rfl rfl rfl (heldIn_idle hidle rfl) rfl
  | grow harena => exact h.unmoved rfl rfl rfl rfl rfl
  | chargeOn hframe hstep => exact h.unmoved rfl rfl rfl (heldIn_same hframe rfl) rfl
  | granted hframe hstep =>
      rename_i charge pc counter
      cases charge <;> exact h.unmoved rfl rfl rfl (heldIn_same hframe rfl) rfl
  | refused hframe hstep =>
      rename_i charge pc counter
      cases charge <;> exact h.unmoved rfl rfl rfl (heldIn_same hframe rfl) rfl
  | lock hframe hmutex => exact h.unmoved rfl rfl rfl (heldIn_same hframe rfl) rfl
  | lockRefused hframe hfind => exact h.unmoved rfl rfl rfl (heldIn_same hframe rfl) rfl
  | lockTracked hframe hmutex hfind =>
      exact h.unmoved rfl rfl rfl (heldIn_same hframe rfl) rfl
  | freed hframe => exact owned_freed h hframe
  | creditOn hframe => exact h.unmoved rfl rfl rfl (heldIn_same hframe rfl) rfl
  | credited hframe =>
      rename_i credit loop
      cases credit <;> exact h.unmoved rfl rfl rfl (heldIn_same hframe rfl) rfl
  | register hframe hfree hmutex =>
      exact h.unmoved rfl rfl rfl (heldIn_same hframe rfl) rfl
  | mallocFailed hframe => exact h.unmoved rfl rfl rfl (heldIn_same hframe rfl) rfl
  | mallocSingleFailed hframe => exact h.unmoved rfl rfl rfl (heldIn_same hframe rfl) rfl
  | malloc hframe hptr => exact owned_malloc h hframe hptr
  | mallocSingle hframe hptr =>
      exact owned_mallocSingle h hframe hptr (h.single_free hptr)
  | construct hframe hid => exact owned_construct h hframe hid
  | throws exception hframe => exact owned_throws h hframe exception
  | ret hframe =>
      refine h.unmoved rfl rfl rfl ?_ rfl
      have hsplit : heldIn s.threads = 0 + heldIn (s.threads.erase _) :=
        Table.sum_of_lookup hframe (fun _ frame => frame.holding)
      rw [hsplit, zero_add]

end Steps

theorem owned_initial : Owned State.initial := rfl

/-!
# Bytes
-/

/-- The bytes of pinned memory. -/
def State.pinnedBytes (s : State) : Nat := s.pinned.sum (fun _ bytes => bytes)

/-- The bytes of pinned memory in the hands of calls in flight. -/
def Frame.holdingBytes : Frame -> Nat
  | .constructing request _ => request.bytes
  | .freeing _ bytes _ => bytes
  | _ => 0

/-- The bytes of a multiset of blocks, as an additive map. -/
def blockBytes : Multiset (Ptr × Nat) →+ Nat where
  toFun blocks := (blocks.map Prod.snd).sum
  map_zero' := rfl
  map_add' first second := by rw [Multiset.map_add, Multiset.sum_add]

theorem blockBytes_singleton (block : Ptr × Nat) : blockBytes {block} = block.2 := by
  show (Multiset.map Prod.snd {block}).sum = block.2
  simp

theorem blockBytes_lost (lost : List Allocation) :
    blockBytes (lostBlocks lost) = (lost.map Allocation.bytes).sum := by
  show (Multiset.map Prod.snd (lostBlocks lost)).sum = _
  simp only [lostBlocks, Multiset.map_coe, List.map_map, Multiset.sum_coe]
  rfl

theorem blockBytes_holding (frame : Frame) :
    blockBytes frame.holding = frame.holdingBytes := by
  cases frame with
  | constructing request ptr => exact blockBytes_singleton _
  | freeing ptr bytes credit => exact blockBytes_singleton _
  | _ => exact map_zero blockBytes

/-- Pinned bytes are live, in raw pointers of clients, in the hands of a call, or lost. -/
theorem Owned.pinnedBytes_eq {s : State} (h : Owned s) :
    s.pinnedBytes = s.liveAllocs.sum (fun _ alloc => alloc.bytes) +
      s.singles.sum (fun _ bytes => bytes) +
      s.threads.sum (fun _ frame => frame.holdingBytes) +
      (s.lost.map Allocation.bytes).sum := by
  have hbytes := congrArg blockBytes h
  simp only [Table.pairs, liveBlocks, heldIn, map_add, Table.map_sum,
    blockBytes_singleton, blockBytes_holding, blockBytes_lost] at hbytes
  exact hbytes

end FixedSizeHost
end Memory
end Cuda2Rocm
