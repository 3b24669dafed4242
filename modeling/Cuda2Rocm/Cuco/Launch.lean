import Cuda2Rocm.Cuco.StaticSet.Model
import Cuda2Rocm.Foundation.GridStride

/-!
# Kernel launches

The host code computes the grid of a launch in 64 bits.  A grid dimension is cut
to 32 bits on its way to the device, and the kernels compute their indices and
the stride of the fill loop from 32-bit built-ins before they widen them.
-/

namespace Cuda2Rocm
namespace Cuco

open Foundation

/-!
# Geometry
-/

/-- The threads of a block, in every launch. -/
def blockDim : Nat := 256

/-- `(n + block - 1) / block`. -/
def gridFor (n : UInt64) : UInt64 :=
  let block : UInt64 := 256
  (n + block - 1) / block

/-- A grid dimension as the launch receives it. -/
def dim3 (grid : UInt64) : Nat := grid.toNat % 2 ^ 32

/-- A thread of a launched grid. -/
structure GridThread where
  blockIdx : Nat
  threadIdx : Nat
deriving DecidableEq, Repr

/-- The threads of so many blocks. -/
def GridThread.Started (grid : Nat) (thread : GridThread) : Prop :=
  thread.blockIdx < grid ∧ thread.threadIdx < blockDim

/-- `blockIdx.x * blockDim.x + threadIdx.x`. -/
def GridThread.index (thread : GridThread) : Nat :=
  (thread.blockIdx * blockDim + thread.threadIdx) % 2 ^ 32

/-- `gridDim.x * blockDim.x`. -/
def gridStride (grid : Nat) : Nat := grid * blockDim % 2 ^ 32

/-- What `hipGetLastError` reports after a launch: an error from before that nobody
asked for, or that of an empty grid, the only one that does not fit. -/
def launchFails (pending : Bool) (grid : Nat) : Bool := pending || grid == 0

/-!
# Batch calls

Each call either throws or has started the blocks of its grid, none where there
are no keys.
-/

/-- A batch kernel launched without a look at the error. -/
def launchUnchecked (n : UInt64) : Except String Nat :=
  if n = 0 then .ok 0
  else .ok (dim3 (gridFor n))

/-- A batch kernel launched, then the error asked for. -/
def launchChecked (pending : Bool) (what : String) (n : UInt64) : Except String Nat :=
  if n = 0 then .ok 0
  else if launchFails pending (dim3 (gridFor n)) then .error what
  else .ok (dim3 (gridFor n))

/-- `static_set::insert_async`. -/
def staticSetInsertAsync (n : UInt64) : Except String Nat := launchUnchecked n

/-- `static_set::contains_async`. -/
def staticSetContainsAsync (n : UInt64) : Except String Nat := launchUnchecked n

/-- `bloom_filter::add_async`. -/
def bloomFilterAddAsync (pending : Bool) (n : UInt64) : Except String Nat :=
  launchChecked pending "cuco::bloom_filter: add_async kernel launch failed" n

/-- `bloom_filter::contains_async`. -/
def bloomFilterContainsAsync (pending : Bool) (n : UInt64) : Except String Nat :=
  launchChecked pending "cuco::bloom_filter: contains_async kernel launch failed" n

/-- A thread of a batch kernel goes past `if (idx >= n) return` with this index. -/
def GridThread.Handles (n : UInt64) (thread : GridThread) (i : Nat) : Prop :=
  ¬ n.toNat ≤ thread.index ∧ thread.index = i

/-- A call throws, or exactly one of its threads handles each index. -/
def HandledOnce (n : UInt64) (call : Except String Nat) : Prop :=
  match call with
  | .error _ => True
  | .ok grid =>
      forall i, i < n.toNat ->
        ∃! thread : GridThread, thread.Started grid ∧ thread.Handles n i

theorem gridFor_toNat (n : UInt64) : (gridFor n).toNat = (n.toNat + 255) % 2 ^ 64 / 256 := by
  have hn := n.toNat_lt
  change (n + 256 - 1).toNat / 256 = _
  congr 1
  rw [UInt64.toNat_sub, UInt64.toNat_add]
  change (2 ^ 64 - 1 + (n.toNat + 256) % 2 ^ 64) % 2 ^ 64 = _
  omega

theorem index_lt (thread : GridThread) : thread.index < 2 ^ 32 :=
  Nat.mod_lt _ (by decide)

/-- Where its number of threads fits in 32 bits, a grid has one thread for an index. -/
theorem existsUnique_thread {grid i : Nat} (hfits : grid * blockDim ≤ 2 ^ 32)
    (hi : i < grid * blockDim) :
    ∃! thread : GridThread, thread.Started grid ∧ thread.index = i := by
  simp only [blockDim] at hfits hi
  refine ⟨⟨i / 256, i % 256⟩, ⟨⟨?_, ?_⟩, ?_⟩, ?_⟩
  · change i / 256 < grid
    omega
  · exact Nat.mod_lt _ (by decide)
  · change (i / 256 * 256 + i % 256) % 2 ^ 32 = i
    omega
  · rintro ⟨b, t⟩ ⟨⟨hb, ht⟩, hindex⟩
    change b < grid at hb
    change t < 256 at ht
    change (b * 256 + t) % 2 ^ 32 = i at hindex
    have hblock : b * 256 + t < 2 ^ 32 := by omega
    rw [Nat.mod_eq_of_lt hblock] at hindex
    have hbi : b = i / 256 := by omega
    have hti : t = i % 256 := by omega
    rw [hbi, hti]

/-- A launched batch is handled exactly once exactly if its indices fit in 32 bits. -/
theorem handledOnce_grid_iff {n : UInt64} (hn : n ≠ 0) :
    HandledOnce n (.ok (dim3 (gridFor n))) <-> n.toNat ≤ 2 ^ 32 := by
  have hpos : n.toNat ≠ 0 := fun hzero => hn (UInt64.toNat_inj.mp hzero)
  constructor
  · intro hhandled
    apply Nat.not_lt.mp
    intro hmany
    -- no thread computes this index
    rcases hhandled (2 ^ 32) hmany with ⟨thread, ⟨_, _, hindex⟩, _⟩
    exact absurd hindex (Nat.ne_of_lt (index_lt thread))
  · intro hfew i hi
    have hgrid : dim3 (gridFor n) = (n.toNat + 255) / 256 := by
      unfold dim3
      rw [gridFor_toNat]
      omega
    have hfits : dim3 (gridFor n) * blockDim ≤ 2 ^ 32 := by
      rw [hgrid]
      simp only [blockDim]
      omega
    have hcovers : i < dim3 (gridFor n) * blockDim := by
      rw [hgrid]
      simp only [blockDim]
      omega
    rcases existsUnique_thread hfits hcovers with ⟨thread, ⟨hstarted, hindex⟩, honly⟩
    refine ⟨thread, ⟨hstarted, ?_, hindex⟩, ?_⟩
    · rw [hindex]
      exact Nat.not_le.mpr hi
    · rintro other ⟨hother, _, hsame⟩
      exact honly other ⟨hother, hsame⟩

/-- Nothing is to be handled where there are no keys. -/
theorem handledOnce_of_empty {n : UInt64} (hn : n = 0) (call : Except String Nat) :
    HandledOnce n call := by
  subst hn
  cases call with
  | error _ => exact trivial
  | ok grid => exact fun i hi => absurd hi (Nat.not_lt_zero i)

theorem handledOnce_unchecked_iff (n : UInt64) :
    HandledOnce n (launchUnchecked n) <-> n.toNat ≤ 2 ^ 32 := by
  unfold launchUnchecked
  by_cases hn : n = 0
  · have hfew : n.toNat ≤ 2 ^ 32 := by
      rw [hn]
      decide
    exact ⟨fun _ => hfew, fun _ => handledOnce_of_empty hn _⟩
  · rw [if_neg hn]
    exact handledOnce_grid_iff hn

theorem handledOnce_checked_iff (pending : Bool) (what : String) (n : UInt64) :
    HandledOnce n (launchChecked pending what n) <->
      (n.toNat ≤ 2 ^ 32 ∨ pending = true ∨ dim3 (gridFor n) = 0) := by
  unfold launchChecked
  by_cases hn : n = 0
  · have hfew : n.toNat ≤ 2 ^ 32 := by
      rw [hn]
      decide
    exact ⟨fun _ => Or.inl hfew, fun _ => handledOnce_of_empty hn _⟩
  · rw [if_neg hn]
    by_cases hfails : launchFails pending (dim3 (gridFor n)) = true
    · rw [if_pos hfails]
      have hwhy : pending = true ∨ dim3 (gridFor n) = 0 := by
        simpa [launchFails] using hfails
      exact ⟨fun _ => Or.inr hwhy, fun _ => trivial⟩
    · rw [if_neg hfails, handledOnce_grid_iff hn]
      have hwhy : ¬ (pending = true ∨ dim3 (gridFor n) = 0) := by
        simpa [launchFails] using hfails
      exact ⟨Or.inl, fun hor => hor.resolve_right hwhy⟩

/-!
# The fill kernel
-/

/-- The grid that the constructor of `static_set` launches. -/
def fillGrid (capacity : UInt64) : UInt64 :=
  let grid := gridFor capacity
  if grid = 0 then 1 else grid

/-- A thread of `fill_empty_key_kernel` comes to its end, having written these slots. -/
def GridThread.Fills (grid : Nat) (capacity : UInt64) (thread : GridThread)
    (written : List Nat) : Prop :=
  StrideEnds (2 ^ 64) capacity.toNat (gridStride grid) thread.index written

/-- The kernel ends and has written every slot. -/
def FillsAll (grid : Nat) (capacity : UInt64) : Prop :=
  (forall thread : GridThread, thread.Started grid ->
    exists written, thread.Fills grid capacity written) ∧
  (forall i, i < capacity.toNat -> exists (thread : GridThread) (written : List Nat),
    thread.Started grid ∧ thread.Fills grid capacity written ∧ i ∈ written)

/-- The constructor, which asks for the error of its launch. -/
def StaticSet.constructOn (capacity : UInt64) (sizeofKey : Nat) (empty : key)
    (hash : DoubleHashing key) (mallocOk pending : Bool) : Except String (StaticSet key) :=
  StaticSet.construct capacity sizeofKey empty hash mallocOk
    (!launchFails pending (dim3 (fillGrid capacity)))

/-- What a capacity has to be for the stride of the fill loop not to step over the end
of the slots for ever. -/
def FillStrideFits (capacity : UInt64) : Prop :=
  Nat.gcd (gridStride (dim3 (fillGrid capacity))) (2 ^ 64) + capacity.toNat ≤ 2 ^ 64

instance (capacity : UInt64) : Decidable (FillStrideFits capacity) :=
  inferInstanceAs (Decidable (_ ≤ _))

/-- The loops of a started grid end and cover the slots exactly if the stride fits. -/
theorem fillsAll_iff {grid : Nat} {capacity : UInt64} (hgrid : 0 < grid)
    (hcapacity : 0 < capacity.toNat) :
    FillsAll grid capacity <->
      Nat.gcd (gridStride grid) (2 ^ 64) + capacity.toNat ≤ 2 ^ 64 := by
  constructor
  · rintro ⟨hends, _⟩
    have hfirst : GridThread.Started grid ⟨0, 0⟩ := ⟨hgrid, by decide⟩
    exact (strideEnds_zero_iff hcapacity (by decide)).mp (hends _ hfirst)
  · intro hroom
    have hends : forall thread : GridThread,
        exists written, thread.Fills grid capacity written := by
      intro thread
      have hstart : thread.index < 2 ^ 64 :=
        Nat.lt_trans (index_lt thread) (by decide)
      rcases reaches_of_gcd_add_le hcapacity hroom hstart with ⟨k, hk⟩
      exact strideEnds_of_reaches k hstart hk
    refine ⟨fun thread _ => hends thread, ?_⟩
    intro i hi
    have hstride : 0 < gridStride grid := by
      apply Nat.pos_of_ne_zero
      intro hzero
      rw [hzero, Nat.gcd_zero_left] at hroom
      omega
    -- the thread whose start is congruent to the slot
    have hrest : i % gridStride grid < gridStride grid := Nat.mod_lt _ hstride
    have hle : gridStride grid ≤ grid * blockDim := Nat.mod_le _ _
    have hlt : gridStride grid < 2 ^ 32 := Nat.mod_lt _ (by decide)
    let start := i % gridStride grid
    let thread : GridThread := ⟨start / 256, start % 256⟩
    have hstarted : thread.Started grid := by
      constructor
      · change i % gridStride grid / 256 < grid
        simp only [blockDim] at hle
        omega
      · exact Nat.mod_lt _ (by decide)
    have hindex : thread.index = start := by
      change (i % gridStride grid / 256 * 256 + i % gridStride grid % 256) % 2 ^ 32 =
        i % gridStride grid
      omega
    have hslot : thread.index + i / gridStride grid * gridStride grid = i := by
      rw [hindex, Nat.mul_comm]
      exact Nat.mod_add_div i (gridStride grid)
    rcases hends thread with ⟨written, hwritten⟩
    have hvisits := mem_of_strideEnds (by omega) (i / gridStride grid) hwritten
    rw [hslot] at hvisits
    exact ⟨thread, written, hstarted, hwritten, hvisits hi⟩

/-- The checks that the constructor makes before it returns a set. -/
theorem construct_eq_ok_iff (capacity : UInt64) (sizeofKey : Nat) (empty : key)
    (hash : DoubleHashing key) (mallocOk launchOk : Bool) :
    (exists set, StaticSet.construct capacity sizeofKey empty hash mallocOk launchOk = .ok set) <->
      0 < capacity.toNat ∧ sizeofKey ≤ sizeMax / capacity.toNat ∧ mallocOk = true ∧
        launchOk = true := by
  unfold StaticSet.construct
  by_cases hpos : 0 < capacity.toNat
  · rw [dif_pos hpos]
    by_cases hsize : sizeofKey > sizeMax / capacity.toNat
    · simp [hsize, Nat.not_le.mpr hsize]
    · cases mallocOk <;> cases launchOk <;> simp [hsize, hpos, Nat.not_lt.mp hsize]
  · simp [hpos]

/-- A constructor that returns leaves every slot written. -/
def FilledWhenBuilt (capacity : UInt64) (sizeofKey : Nat) (empty : key)
    (hash : DoubleHashing key) (mallocOk pending : Bool) : Prop :=
  forall set, StaticSet.constructOn capacity sizeofKey empty hash mallocOk pending = .ok set ->
    FillsAll (dim3 (fillGrid capacity)) capacity

theorem filledWhenBuilt_iff (capacity : UInt64) (sizeofKey : Nat) (empty : key)
    (hash : DoubleHashing key) (mallocOk pending : Bool) :
    FilledWhenBuilt capacity sizeofKey empty hash mallocOk pending <->
      (0 < capacity.toNat -> sizeofKey ≤ sizeMax / capacity.toNat -> mallocOk = true ->
        launchFails pending (dim3 (fillGrid capacity)) = false -> FillStrideFits capacity) := by
  have haccepted := construct_eq_ok_iff capacity sizeofKey empty hash mallocOk
    (!launchFails pending (dim3 (fillGrid capacity)))
  rw [Bool.not_eq_true'] at haccepted
  have hstarts : launchFails pending (dim3 (fillGrid capacity)) = false ->
      0 < dim3 (fillGrid capacity) := by
    intro hlaunch
    apply Nat.pos_of_ne_zero
    intro hzero
    rw [launchFails, hzero] at hlaunch
    simp at hlaunch
  constructor
  · intro hfilled hpos hsize hmalloc hlaunch
    rcases haccepted.mpr ⟨hpos, hsize, hmalloc, hlaunch⟩ with ⟨set, hset⟩
    exact (fillsAll_iff (hstarts hlaunch) hpos).mp (hfilled set hset)
  · intro hfits set hset
    rcases haccepted.mp ⟨set, hset⟩ with ⟨hpos, hsize, hmalloc, hlaunch⟩
    exact (fillsAll_iff (hstarts hlaunch) hpos).mpr (hfits hpos hsize hmalloc hlaunch)

/-!
# Coverage
-/

/--
When each call handles every index exactly once or reports an error, and when the
fill kernel of a constructed set ends and writes every slot.
-/
theorem indices_handled_once_iff (n capacity : UInt64) (sizeofKey : Nat) (empty : key)
    (hash : DoubleHashing key) (mallocOk pending : Bool) :
    (HandledOnce n (staticSetInsertAsync n) <-> n.toNat ≤ 2 ^ 32) ∧
    (HandledOnce n (staticSetContainsAsync n) <-> n.toNat ≤ 2 ^ 32) ∧
    (HandledOnce n (bloomFilterAddAsync pending n) <->
      (n.toNat ≤ 2 ^ 32 ∨ pending = true ∨ dim3 (gridFor n) = 0)) ∧
    (HandledOnce n (bloomFilterContainsAsync pending n) <->
      (n.toNat ≤ 2 ^ 32 ∨ pending = true ∨ dim3 (gridFor n) = 0)) ∧
    (FilledWhenBuilt capacity sizeofKey empty hash mallocOk pending <->
      (0 < capacity.toNat -> sizeofKey ≤ sizeMax / capacity.toNat -> mallocOk = true ->
        launchFails pending (dim3 (fillGrid capacity)) = false -> FillStrideFits capacity)) :=
  ⟨handledOnce_unchecked_iff n, handledOnce_unchecked_iff n,
    handledOnce_checked_iff pending _ n, handledOnce_checked_iff pending _ n,
    filledWhenBuilt_iff capacity sizeofKey empty hash mallocOk pending⟩

/-- One key more than 32 bits can index is never handled, and the fill loops of a set with
`2 ^ 32` slots of eight bytes never move. -/
theorem last_index_unhandled :
    ¬ HandledOnce 4294967297 (staticSetInsertAsync 4294967297) ∧
      ¬ HandledOnce 4294967297 (staticSetContainsAsync 4294967297) ∧
      ¬ HandledOnce 4294967297 (bloomFilterAddAsync false 4294967297) ∧
      ¬ HandledOnce 4294967297 (bloomFilterContainsAsync false 4294967297) ∧
      ¬ FilledWhenBuilt 4294967296 8 (0 : UInt64) ⟨id⟩ true false := by
  refine ⟨?_, ?_, ?_, ?_, ?_⟩
  · exact fun h => absurd ((handledOnce_unchecked_iff _).mp h) (by decide)
  · exact fun h => absurd ((handledOnce_unchecked_iff _).mp h) (by decide)
  · exact fun h => absurd ((handledOnce_checked_iff false _ _).mp h) (by decide)
  · exact fun h => absurd ((handledOnce_checked_iff false _ _).mp h) (by decide)
  · intro hfilled
    have hfits := (filledWhenBuilt_iff _ _ _ _ _ _).mp hfilled (by decide) (by decide)
      rfl (by decide)
    exact absurd hfits (by decide)

end Cuco
end Cuda2Rocm
