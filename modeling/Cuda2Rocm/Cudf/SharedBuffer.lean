import Cuda2Rocm.Cudf.GpuToHost
import Cuda2Rocm.Foundation.Handles

/-!
# Shared host buffers

The allocation object of a host table is held by `std::shared_ptr`s.  The clone of a
representation creates it with `new` and gives it to one control block, whose deleter
also frees the pinned buffer.  The converter from the GPU creates it in the control
block of a `make_shared` and then gives its address to a second control block.
-/

namespace Cuda2Rocm
namespace Cudf

open Foundation

/-- How an allocation object came to be. -/
inductive Origin where
  | makeShared
  | new
deriving DecidableEq, Repr

/-- What a control block does with its object at the end: destroy it in place, or free
some buffers and `delete` it. -/
inductive Deleter where
  | inPlace
  | freeAndDelete (buffers : List Nat)
deriving DecidableEq, Repr

/-- A `multiple_blocks_allocation`. -/
structure AllocationObject where
  number : Nat
  origin : Origin
deriving DecidableEq, Repr

/-- The buffers that a deleter frees. -/
def Deleter.freed : Deleter -> List Nat
  | .inPlace => []
  | .freeAndDelete buffers => buffers

/-- The deleter ends an object the way it was created. -/
def Deleter.Matches : Deleter -> Origin -> Prop
  | .inPlace, .makeShared => True
  | .freeAndDelete _, .new => True
  | _, _ => False

/-- The `shared_ptr`s to allocation objects. -/
abbrev SharedBuffers := Handles AllocationObject Deleter

namespace SharedBuffers

/-- The object that the converter creates. -/
def converted : AllocationObject := ⟨0, .makeShared⟩

/-- The object that a clone creates. -/
def cloned : AllocationObject := ⟨0, .new⟩

/-- The end of a handle that is known to be there. -/
def dropped (s : SharedBuffers) (i : Nat) : SharedBuffers := (s.drop i).getD s

/-- `host_table_allocation::create`: its parameter is a copy of the caller's handle and is
moved into the table; the caller's own handle, the first, goes when the caller returns. -/
def create (s : SharedBuffers) : SharedBuffers := dropped ((s.copy 0).getD s) 0

/-- The handles of the converter: an object of `make_shared`, and where there is a buffer
its address in a new `shared_ptr`, which is assigned over the first. -/
def convertHandles (hostBuf total : Nat) : SharedBuffers :=
  let alloc := Handles.own Handles.empty converted .inPlace
  if hostBuf ≠ 0 ∧ 0 < total then
    create (dropped (alloc.own converted (.freeAndDelete [hostBuf])) 0)
  else create alloc

/-- The handles of `host_data_representation::clone`. -/
def cloneHandles (newBuf : Nat) : SharedBuffers :=
  create (Handles.own Handles.empty cloned
    (.freeAndDelete (if newBuf ≠ 0 then [newBuf] else [])))

/-- The deleters that have run on an object. -/
def destructions (s : SharedBuffers) (o : AllocationObject) : List Deleter :=
  (s.destroyed.filter (fun entry => entry.1 = o)).map Prod.snd

/-- How often a buffer has been freed. -/
def frees (s : SharedBuffers) (buf : Nat) : Nat :=
  (s.destroyed.flatMap (fun entry => entry.2.freed)).count buf

/-- The object and its buffer stay while there is a handle, and afterwards have been
disposed of once, by the deleter that belongs to the object. -/
structure ReleasedProperly (s : SharedBuffers) (o : AllocationObject) (buf : Nat) : Prop where
  kept : s.Referred o -> destructions s o = [] ∧ frees s buf = 0
  ended : ¬ s.Referred o ->
    (exists d, destructions s o = [d] ∧ d.Matches o.origin) ∧ frees s buf = 1

theorem mem_destructions {s : SharedBuffers} {o : AllocationObject} {d : Deleter} :
    d ∈ destructions s o <-> (o, d) ∈ s.destroyed := by
  constructor
  · intro h
    rcases List.mem_map.mp h with ⟨entry, hentry, rfl⟩
    rcases List.mem_filter.mp hentry with ⟨hmem, hobject⟩
    have hsame : entry.1 = o := of_decide_eq_true hobject
    rw [← hsame]
    exact hmem
  · intro h
    exact List.mem_map.mpr ⟨(o, d), List.mem_filter.mpr ⟨h, decide_eq_true rfl⟩, rfl⟩

/-!
# The handles of the two creators
-/

/-- The converter's first control block is gone before it returns. -/
theorem convertHandles_eq {hostBuf total : Nat} (hbuf : hostBuf ≠ 0) (htotal : 0 < total) :
    convertHandles hostBuf total =
      { blocks := [⟨converted, .inPlace, 0⟩, ⟨converted, .freeAndDelete [hostBuf], 1⟩]
        handles := [1]
        destroyed := [(converted, .inPlace)] } := by
  rw [convertHandles, if_pos ⟨hbuf, htotal⟩]
  rfl

theorem cloneHandles_eq {newBuf : Nat} (hbuf : newBuf ≠ 0) :
    cloneHandles newBuf =
      { blocks := [⟨cloned, .freeAndDelete [newBuf], 1⟩], handles := [0], destroyed := [] } := by
  rw [cloneHandles, if_pos hbuf]
  rfl

theorem dropped_counted {s : SharedBuffers} (h : s.Counted) (i : Nat) :
    (dropped s i).Counted := by
  unfold dropped
  cases hdrop : s.drop i with
  | none => exact h
  | some t => exact (h.drop hdrop).1

theorem create_counted {s : SharedBuffers} (h : s.Counted) : (create s).Counted := by
  apply dropped_counted
  cases hcopy : s.copy 0 with
  | none => exact h
  | some t => exact (h.copy hcopy).1

theorem convertHandles_counted (hostBuf total : Nat) :
    (convertHandles hostBuf total).Counted := by
  have halloc := Handles.counted_empty.own converted Deleter.inPlace
  unfold convertHandles
  simp only
  split
  · exact create_counted (dropped_counted (halloc.own _ _) 0)
  · exact create_counted halloc

theorem cloneHandles_counted (newBuf : Nat) : (cloneHandles newBuf).Counted :=
  create_counted (Handles.counted_empty.own _ _)

/-- Once the converter has returned, its object has been destroyed under its handles. -/
theorem convertHandles_run {hostBuf total : Nat} (hbuf : hostBuf ≠ 0) (htotal : 0 < total)
    {events : List HandleEvent} {t : SharedBuffers}
    (hrun : Handles.machine.run (convertHandles hostBuf total) events = some t) :
    ¬ ReleasedProperly t converted hostBuf := by
  intro hproper
  have heq := convertHandles_eq hbuf htotal
  have hfirst : Deleter.inPlace ∈ destructions t converted := by
    apply mem_destructions.mpr
    apply Handles.destroyed_run hrun
    rw [heq]
    exact List.mem_singleton_self _
  by_cases hreferred : t.Referred converted
  · rw [(hproper.kept hreferred).1] at hfirst
    exact List.not_mem_nil hfirst
  · rcases (convertHandles_counted hostBuf total).run hrun with ⟨hcounted, howners⟩
    have hsecond : Deleter.freeAndDelete [hostBuf] ∈ destructions t converted := by
      apply mem_destructions.mpr
      apply hcounted.mem_destroyed_of_not_referred _ hreferred
      rw [howners, heq]
      exact List.mem_cons_of_mem _ (List.mem_singleton_self _)
    rcases (hproper.ended hreferred).1 with ⟨d, hd, -⟩
    rw [hd] at hfirst hsecond
    have hsame := (List.mem_singleton.mp hfirst).trans (List.mem_singleton.mp hsecond).symm
    cases hsame

/-- The object of a clone is disposed of properly, whatever happens to its handles. -/
theorem cloneHandles_run {newBuf : Nat} (hbuf : newBuf ≠ 0) {events : List HandleEvent}
    {t : SharedBuffers} (hrun : Handles.machine.run (cloneHandles newBuf) events = some t) :
    ReleasedProperly t cloned newBuf := by
  rcases (cloneHandles_counted newBuf).run hrun with ⟨hcounted, howners⟩
  rw [cloneHandles_eq hbuf] at howners
  rcases hcounted.destroyed_of_single howners with ⟨hkept, hended⟩
  constructor
  · intro hreferred
    simp [destructions, frees, hkept hreferred]
  · intro hgone
    refine ⟨⟨.freeAndDelete [newBuf], ?_, trivial⟩, ?_⟩
    · simp [destructions, hended hgone]
    · simp [frees, hended hgone, Deleter.freed]

/-!
# Representations with their handles
-/

variable {space : Type _}

/-- The converter, with the handles that it leaves. -/
def convert (hip : HostHip) (src : Source) (targetSpace : space) (s : HostMemory) :
    Except String (HostData ColumnMetadata space × SharedBuffers) × HostMemory :=
  match GpuToHost.convert hip src targetSpace s with
  | (.error text, s') => (.error text, s')
  | (.ok rep, s') =>
      (.ok (rep, convertHandles (GpuToHost.bufferStart rep) (GpuToHost.recordedBytes rep)), s')

/-- `host_data_representation::clone`, with the handles that it leaves. -/
def clone (hip : HostHip) (rep : HostData ColumnMetadata space) (s : HostMemory) :
    Except String (HostData ColumnMetadata space × SharedBuffers) × HostMemory :=
  match HostData.clone hip rep s with
  | (.error text, s') => (.error text, s')
  | (.ok copy, s') =>
      match rep.table with
      | none => (.ok (copy, Handles.empty), s')
      | some _ => (.ok (copy, cloneHandles (GpuToHost.bufferStart copy)), s')

theorem convert_handles {hip : HostHip} {columns : List ColumnView} {targetSpace : space}
    {s after : HostMemory} {rep : HostData ColumnMetadata space} {handles : SharedBuffers}
    (h : convert hip (.gpuTable columns) targetSpace s = (.ok (rep, handles), after))
    (hpos : 0 < GpuToHost.totalBytes columns) :
    GpuToHost.bufferStart rep ≠ 0 ∧
      handles = convertHandles (GpuToHost.bufferStart rep) (GpuToHost.totalBytes columns) := by
  rw [convert] at h
  cases hconvert : GpuToHost.convert hip (.gpuTable columns) targetSpace s with
  | mk result s' =>
      rw [hconvert] at h
      cases result with
      | error text => cases h
      | ok rep' =>
          cases h
          rcases GpuToHost.convert_ok hconvert with
            ⟨hostBuf, rfl, ⟨_, hbuf, _⟩ | ⟨hzero, _⟩⟩
          · have hstart : GpuToHost.bufferStart
                { table := some
                    { allocation := some
                        (GpuToHost.allocation hostBuf (GpuToHost.totalBytes columns))
                      columns := GpuToHost.metadata columns
                      totalBytes := GpuToHost.totalBytes columns }
                  space := targetSpace } = hostBuf := by
              simp [GpuToHost.bufferStart, GpuToHost.bufferOf, GpuToHost.allocation, hbuf, hpos,
                Memory.FixedSizeHost.Block.region]
            rw [hstart]
            exact ⟨hbuf, rfl⟩
          · exact absurd hzero hpos.ne'

theorem copyBlocks_buffer {hip : HostHip} {buf : Nat}
    (blocks : List Memory.FixedSizeHost.Block) :
    forall {dst result : Nat} {s after : HostMemory},
      HostData.copyBlocks hip buf blocks dst s = (.ok result, after) -> result = buf := by
  induction blocks with
  | nil =>
      intro dst result s after h
      cases h
      rfl
  | cons blk rest ih =>
      intro dst result s after h
      rw [HostData.copyBlocks] at h
      split at h
      · split at h
        · cases h
        · exact ih h
      · exact ih h

theorem cloneBuffer_ne_zero {hip : HostHip} {table : HostTable ColumnMetadata}
    {s after : HostMemory} {buf : Nat} (hpos : 0 < table.totalBytes)
    (h : HostData.cloneBuffer hip table s = (.ok buf, after)) : buf ≠ 0 := by
  rw [HostData.cloneBuffer, if_pos hpos] at h
  cases hmalloc : hip.hipMallocHost table.totalBytes with
  | error error =>
      rw [hmalloc] at h
      cases h
  | ok newBuf =>
      rw [hmalloc] at h
      by_cases hnull : newBuf = 0
      · rw [hnull] at h
        cases h
      · simp only [if_neg hnull] at h
        split at h
        · rw [copyBlocks_buffer _ h]
          exact hnull
        · cases h
          exact hnull

theorem clone_handles {hip : HostHip} {rep copy : HostData ColumnMetadata space}
    {table : HostTable ColumnMetadata} {s after : HostMemory} {handles : SharedBuffers}
    (htable : rep.table = some table) (hpos : 0 < table.totalBytes)
    (h : clone hip rep s = (.ok (copy, handles), after)) :
    GpuToHost.bufferStart copy ≠ 0 ∧ handles = cloneHandles (GpuToHost.bufferStart copy) := by
  rw [clone, HostData.clone, htable] at h
  cases hcloned : HostData.cloneBuffer hip table s with
  | mk result s' =>
      cases result with
      | error text =>
          simp only [hcloned] at h
          cases h
      | ok newBuf =>
          simp only [hcloned] at h
          cases h
          have hbuf := cloneBuffer_ne_zero hpos hcloned
          have hstart : GpuToHost.bufferStart
              { table := some
                  { allocation := some (HostData.cloneAllocation newBuf table.totalBytes)
                    columns := table.columns
                    totalBytes := table.totalBytes }
                space := rep.space } = newBuf := by
            simp [GpuToHost.bufferStart, GpuToHost.bufferOf, HostData.cloneAllocation, hbuf, hpos,
              Memory.FixedSizeHost.Block.region]
          rw [hstart]
          exact ⟨hbuf, rfl⟩

/--
No sequence of copies and drops makes the disposal of a converted table's allocation
proper; that of a cloned table's allocation is proper after every one.
-/
theorem converted_never_released_properly {hip : HostHip} {columns : List ColumnView}
    {targetSpace : space} {s after : HostMemory} {rep : HostData ColumnMetadata space}
    {handles : SharedBuffers} (hpos : 0 < GpuToHost.totalBytes columns)
    (h : convert hip (.gpuTable columns) targetSpace s = (.ok (rep, handles), after)) :
    (forall events t, Handles.machine.run handles events = some t ->
      ¬ ReleasedProperly t converted (GpuToHost.bufferStart rep)) ∧
    (forall (source copy : HostData ColumnMetadata space) table before cloneHip copyHandles
      cloneAfter, source.table = some table -> 0 < table.totalBytes ->
      clone cloneHip source before = (.ok (copy, copyHandles), cloneAfter) ->
      forall events t, Handles.machine.run copyHandles events = some t ->
        ReleasedProperly t cloned (GpuToHost.bufferStart copy)) := by
  constructor
  · intro events t hrun
    rcases convert_handles h hpos with ⟨hbuf, rfl⟩
    exact convertHandles_run hbuf hpos hrun
  · intro source copy table before cloneHip copyHandles cloneAfter htable htotal hclone events
      t hrun
    rcases clone_handles htable htotal hclone with ⟨hbuf, rfl⟩
    exact cloneHandles_run hbuf hrun

/-- A converted table of four bytes. -/
def fourBytes : HostData ColumnMetadata Nat :=
  { table := some { allocation := some (GpuToHost.allocation 200 4)
                    columns := [{ numRows := 1 }]
                    totalBytes := 4 }
    space := 7 }

def fourByteColumn : List ColumnView := [⟨4, 100, 1, GpuToHost.four_le_sizeMax⟩]

/-- The memory after its conversion. -/
def fourBytesCopied : HostMemory :=
  { HostData.addressBytes with
    bytes := copyRegion HostData.addressBytes.bytes 200 ⟨100, 4⟩
    writes := [⟨200, 4⟩] }

/-- The handles once the only one of them is dropped. -/
def fourBytesDropped : SharedBuffers :=
  { blocks := [⟨converted, .inPlace, 0⟩, ⟨converted, .freeAndDelete [200], 0⟩]
    handles := []
    destroyed := [(converted, .inPlace), (converted, .freeAndDelete [200])] }

/-- The result read for a table of four bytes whose only handle is dropped. -/
theorem converted_never_released_properly_fourBytes :
    ¬ ReleasedProperly fourBytesDropped converted (GpuToHost.bufferStart fourBytes) :=
  (@converted_never_released_properly _ HostData.bufferAt200 fourByteColumn 7
    HostData.addressBytes fourBytesCopied fourBytes (convertHandles 200 4) (by decide) rfl).1
    [.drop 0] fourBytesDropped rfl

/-- A converted table of four bytes: one deleter has run under the handle that is left, and
a second one runs when it is dropped. -/
theorem converted_destroyed_twice :
    convert HostData.bufferAt200 (.gpuTable fourByteColumn) 7 HostData.addressBytes =
        (.ok (fourBytes, convertHandles 200 4), fourBytesCopied) ∧
      (convertHandles 200 4).Referred converted ∧
      destructions (convertHandles 200 4) converted = [.inPlace] ∧
      Handles.machine.run (convertHandles 200 4) [.drop 0] = some fourBytesDropped ∧
      destructions fourBytesDropped converted = [.inPlace, .freeAndDelete [200]] ∧
      ¬ ReleasedProperly fourBytesDropped converted 200 := by
  refine ⟨rfl, ⟨1, List.mem_singleton_self 1, _, rfl, rfl⟩, rfl, rfl, rfl, ?_⟩
  intro hproper
  have hgone : ¬ fourBytesDropped.Referred converted := by
    rintro ⟨b, hb, _⟩
    exact List.not_mem_nil hb
  rcases (hproper.ended hgone).1 with ⟨d, hd, -⟩
  cases hd

end SharedBuffers
end Cudf
end Cuda2Rocm
