import Cuda2Rocm.Cudf.HostData
import Cuda2Rocm.Foundation.Words

/-!
# From a GPU table to host memory

The built-in converter that spills a table sums up the sizes of its columns,
allocates one pinned buffer of that many bytes and copies the columns into it one
behind the other, leaving out those that have no data.  The metadata of the columns is
built in a loop of its own.
-/

namespace Cuda2Rocm
namespace Cudf

open Foundation Memory.FixedSizeHost

/-- What a table view tells of a column: the size of its allocation, where its data is
on the device, 0 for null, and its rows. -/
structure ColumnView where
  allocSize : Nat
  data : Nat
  size : Int
  fits : allocSize ≤ sizeMax

/-- `column_metadata`, with the defaults of its fields. -/
structure ColumnMetadata where
  name : String := ""
  typeId : Int := 0
  size : Int := 0
  nullable : Bool := false
  numRows : Int := 0
  scale : Int := 0
  hasData : Bool := false
  dataOffset : Nat := 0
  dataSize : Nat := 0
  nullCount : Int := 0
  hasNullMask : Bool := false
  nullMaskOffset : Nat := 0
  nullMaskSize : Nat := 0
  children : List ColumnMetadata := []

/-- The representation handed to the converter, as far as its `dynamic_cast` looks. -/
inductive Source where
  | gpuTable (columns : List ColumnView)
  /-- A GPU representation whose table is null. -/
  | gpuNull
  | other

namespace ColumnView

/-- The bytes of the column on the device. -/
def region (col : ColumnView) : Region := ⟨col.data, col.allocSize⟩

end ColumnView

namespace GpuToHost

variable {space : Type _}

def notGpu : String := "cuCascade: gpu→host converter called on non-gpu source"

/-- What `get_table_view` throws for a null table. -/
def noTable : String := "cuCascade: gpu_table has no table"

def mallocFailed (error : String) : String :=
  "cuCascade: hipMallocHost failed in gpu→host converter: " ++ error

def memcpyFailed (error : String) : String :=
  "cuCascade: hipMemcpyAsync D2H failed in gpu→host converter: " ++ error

/-- The loop that sums up the sizes, in `std::size_t`. -/
def sumSizes (total : Nat) : List ColumnView -> Nat
  | [] => total
  | col :: rest => sumSizes (wrapSize (total + col.allocSize)) rest

/-- `total_bytes`. -/
def totalBytes (columns : List ColumnView) : Nat := sumSizes 0 columns

/-- The loop that copies the columns; `dst` moves only behind those it copies. -/
def copyColumns (hip : HostHip) (hostBuf : Nat) : List ColumnView -> Nat -> HostMemory ->
    Except String Nat × HostMemory
  | [], _, s => (.ok hostBuf, s)
  | col :: rest, dst, s =>
      if 0 < col.allocSize ∧ col.data ≠ 0 then
        match hip.hipMemcpyAsync dst col.data col.allocSize with
        | some error =>
            (.error (memcpyFailed error), { s with freed := s.freed ++ [hostBuf] })
        | none =>
            copyColumns hip hostBuf rest (dst + col.allocSize)
              { s with
                bytes := copyRegion s.bytes dst col.region
                writes := s.writes ++ [⟨dst, col.allocSize⟩] }
      else copyColumns hip hostBuf rest dst s

/-- The host buffer, null for a table without bytes, filled from the columns. -/
def fillBuffer (hip : HostHip) (columns : List ColumnView) (s : HostMemory) :
    Except String Nat × HostMemory :=
  if 0 < totalBytes columns then
    match hip.hipMallocHost (totalBytes columns) with
    | .error error => (.error (mallocFailed error), s)
    | .ok hostBuf =>
        if hostBuf = 0 then (.error (mallocFailed "no error"), s)
        else copyColumns hip hostBuf columns hostBuf s
  else (.ok 0, s)

/-- The allocation object around the buffer. -/
def allocation (hostBuf total : Nat) : MultipleBlocksAllocation :=
  if hostBuf ≠ 0 ∧ 0 < total then
    { MultipleBlocksAllocation.empty with
      blocks := [{ ptr := hostBuf, bytes := total }]
      totalBytes := total }
  else MultipleBlocksAllocation.empty

/-- The loop that builds the metadata. -/
def metadata (columns : List ColumnView) : List ColumnMetadata :=
  columns.map fun col => { numRows := col.size }

/-- The converter from `gpu_table_representation` to `host_data_representation`. -/
def convert (hip : HostHip) (src : Source) (targetSpace : space) (s : HostMemory) :
    Except String (HostData ColumnMetadata space) × HostMemory :=
  match src with
  | .other => (.error notGpu, s)
  | .gpuNull => (.error noTable, s)
  | .gpuTable columns =>
      match fillBuffer hip columns s with
      | (.error text, s') => (.error text, s')
      | (.ok hostBuf, s') =>
          (.ok { table := some { allocation := some (allocation hostBuf (totalBytes columns))
                                 columns := metadata columns
                                 totalBytes := totalBytes columns }
                 space := targetSpace }, s')

/-!
# The sum of the sizes
-/

/-- The exact sum. -/
def sizes (columns : List ColumnView) : Nat := (columns.map ColumnView.allocSize).sum

@[simp] theorem sizes_nil : sizes [] = 0 := rfl

@[simp] theorem sizes_cons (col : ColumnView) (rest : List ColumnView) :
    sizes (col :: rest) = col.allocSize + sizes rest := by
  simp [sizes]

theorem sizes_append (first second : List ColumnView) :
    sizes (first ++ second) = sizes first + sizes second := by
  simp [sizes]

/-- The loop sums up modulo the width of its type. -/
theorem sumSizes_eq (columns : List ColumnView) : forall {total : Nat}, total < 2 ^ 64 ->
    sumSizes total columns = wrapSize (total + sizes columns) := by
  induction columns with
  | nil =>
      intro total htotal
      exact (wrapSize_of_lt htotal).symm
  | cons col rest ih =>
      intro total _
      have hnext : wrapSize (total + col.allocSize) < 2 ^ 64 := Nat.mod_lt _ (Nat.two_pow_pos 64)
      rw [sumSizes, ih hnext, sizes_cons]
      unfold wrapSize
      rw [Nat.mod_add_mod, Nat.add_assoc]

theorem totalBytes_eq (columns : List ColumnView) :
    totalBytes columns = wrapSize (sizes columns) := by
  rw [totalBytes, sumSizes_eq columns (Nat.two_pow_pos 64), Nat.zero_add]

/-- The sum is exact exactly if it fits. -/
theorem totalBytes_exact_iff (columns : List ColumnView) :
    totalBytes columns = sizes columns <-> sizes columns < 2 ^ 64 := by
  rw [totalBytes_eq]
  exact Nat.mod_eq_iff_lt (Nat.two_pow_pos 64).ne'

/-!
# The copies
-/

/-- The columns that the loop does not skip. -/
def copied (columns : List ColumnView) : List Region :=
  (columns.filter (fun col => 0 < col.allocSize ∧ col.data ≠ 0)).map ColumnView.region

theorem copied_append (first second : List ColumnView) :
    copied (first ++ second) = copied first ++ copied second := by
  simp [copied]

/-- The loop copies this one. -/
def Copied (col : ColumnView) : Prop := 0 < col.allocSize ∧ col.data ≠ 0

instance (col : ColumnView) : Decidable (Copied col) := inferInstanceAs (Decidable (_ ∧ _))

theorem copied_cons_of {col : ColumnView} (h : Copied col) (rest : List ColumnView) :
    copied (col :: rest) = col.region :: copied rest := by
  simp [copied, h.1, h.2]

theorem copied_cons_of_not {col : ColumnView} (h : ¬ Copied col) (rest : List ColumnView) :
    copied (col :: rest) = copied rest := by
  have hskip : ¬ (0 < col.allocSize ∧ col.data ≠ 0) := h
  simp [copied, hskip]

/-- A copy loop that comes to its end has laid the columns end to end. -/
theorem copyColumns_ok {hip : HostHip} {hostBuf : Nat} (columns : List ColumnView) :
    forall {dst buf : Nat} {s after : HostMemory},
      copyColumns hip hostBuf columns dst s = (.ok buf, after) ->
        buf = hostBuf ∧
        after = { s with
          bytes := copyPieces s.bytes dst (copied columns)
          writes := s.writes ++ destinations dst (copied columns) } := by
  induction columns with
  | nil =>
      intro dst buf s after h
      cases h
      simp [copied, copyPieces, destinations]
  | cons col rest ih =>
      intro dst buf s after h
      rw [copyColumns] at h
      by_cases hcopy : Copied col
      · have hpieces := copied_cons_of hcopy rest
        rw [if_pos (show 0 < col.allocSize ∧ col.data ≠ 0 from hcopy)] at h
        cases hcall : hip.hipMemcpyAsync dst col.data col.allocSize with
        | some error =>
            rw [hcall] at h
            cases h
        | none =>
            rw [hcall] at h
            rcases ih h with ⟨hbuf, hafter⟩
            refine ⟨hbuf, hafter.trans ?_⟩
            rw [hpieces, copyPieces, destinations, List.append_assoc]
            rfl
      · have hpieces := copied_cons_of_not hcopy rest
        rw [if_neg (show ¬ (0 < col.allocSize ∧ col.data ≠ 0) from hcopy)] at h
        rw [hpieces]
        exact ih h

theorem totalLength_copied_le (columns : List ColumnView) :
    totalLength (copied columns) ≤ sizes columns := by
  induction columns with
  | nil => exact Nat.le_refl 0
  | cons col rest ih =>
      rw [sizes_cons]
      by_cases hcopy : Copied col
      · have hpieces := copied_cons_of hcopy rest
        rw [hpieces, totalLength_cons]
        exact Nat.add_le_add_left ih _
      · have hpieces := copied_cons_of_not hcopy rest
        rw [hpieces]
        exact Nat.le_add_left_of_le ih

/-- The cursor is at the sum of the sizes exactly if no column with bytes lacks data. -/
theorem totalLength_copied_eq_iff (columns : List ColumnView) :
    totalLength (copied columns) = sizes columns <->
      forall col, col ∈ columns -> 0 < col.allocSize -> col.data ≠ 0 := by
  induction columns with
  | nil => simp [copied, totalLength]
  | cons col rest ih =>
      rw [sizes_cons, List.forall_mem_cons, ← ih]
      by_cases hcopy : Copied col
      · have hpieces := copied_cons_of hcopy rest
        rw [hpieces, totalLength_cons]
        have hfirst : 0 < col.allocSize -> col.data ≠ 0 := fun _ => hcopy.2
        constructor
        · exact fun h => ⟨hfirst, Nat.add_left_cancel h⟩
        · exact fun h => congrArg (col.allocSize + ·) h.2
      · have hpieces := copied_cons_of_not hcopy rest
        have hle := totalLength_copied_le rest
        rw [hpieces]
        constructor
        · intro h
          have hempty : col.allocSize = 0 := by omega
          exact ⟨fun hpos => absurd hempty hpos.ne', by omega⟩
        · rintro ⟨hfirst, hrest⟩
          have hempty : col.allocSize = 0 := by
            by_contra hsome
            exact hcopy ⟨Nat.pos_of_ne_zero hsome, hfirst (Nat.pos_of_ne_zero hsome)⟩
          omega

/-!
# Conversions
-/

/-- What a conversion that returns has done. -/
theorem convert_ok {hip : HostHip} {columns : List ColumnView} {targetSpace : space}
    {s after : HostMemory} {rep : HostData ColumnMetadata space}
    (h : convert hip (.gpuTable columns) targetSpace s = (.ok rep, after)) :
    exists hostBuf,
      rep = { table := some { allocation := some (allocation hostBuf (totalBytes columns))
                              columns := metadata columns
                              totalBytes := totalBytes columns }
              space := targetSpace } ∧
      ((0 < totalBytes columns ∧ hostBuf ≠ 0 ∧
          hip.hipMallocHost (totalBytes columns) = .ok hostBuf ∧
          after = { s with
            bytes := copyPieces s.bytes hostBuf (copied columns)
            writes := s.writes ++ destinations hostBuf (copied columns) }) ∨
        (totalBytes columns = 0 ∧ hostBuf = 0 ∧ after = s)) := by
  rw [convert] at h
  cases hfill : fillBuffer hip columns s with
  | mk filled s' =>
      rw [hfill] at h
      cases filled with
      | error text => cases h
      | ok hostBuf =>
          cases h
          refine ⟨hostBuf, rfl, ?_⟩
          rw [fillBuffer] at hfill
          by_cases hpos : 0 < totalBytes columns
          · left
            rw [if_pos hpos] at hfill
            cases hmalloc : hip.hipMallocHost (totalBytes columns) with
            | error error =>
                rw [hmalloc] at hfill
                cases hfill
            | ok buf =>
                rw [hmalloc] at hfill
                by_cases hnull : buf = 0
                · rw [hnull] at hfill
                  cases hfill
                · simp only [if_neg hnull] at hfill
                  rcases copyColumns_ok columns hfill with ⟨rfl, hafter⟩
                  exact ⟨hpos, hnull, rfl, hafter⟩
          · right
            rw [if_neg hpos] at hfill
            cases hfill
            exact ⟨Nat.eq_zero_of_not_pos hpos, rfl, rfl⟩

/-- Where a table puts its buffer. -/
def bufferOf (rep : HostData ColumnMetadata space) : Option Region :=
  match rep.table with
  | none => none
  | some table =>
      match table.allocation with
      | none => none
      | some alloc => alloc.blocks.head?.map Block.region

/-- The bytes of a converted table lie in the one block of its allocation. -/
theorem bufferOf_convert {hip : HostHip} {columns : List ColumnView} {targetSpace : space}
    {s after : HostMemory} {rep : HostData ColumnMetadata space}
    (hpos : 0 < totalBytes columns)
    (h : convert hip (.gpuTable columns) targetSpace s = (.ok rep, after)) :
    exists hostBuf, bufferOf rep = some ⟨hostBuf, totalBytes columns⟩ ∧
      after = { s with
        bytes := copyPieces s.bytes hostBuf (copied columns)
        writes := s.writes ++ destinations hostBuf (copied columns) } := by
  rcases convert_ok h with ⟨hostBuf, rfl, ⟨_, hbuf, _, hafter⟩ | ⟨hzero, _⟩⟩
  · refine ⟨hostBuf, ?_, hafter⟩
    simp [bufferOf, allocation, hbuf, hpos, Block.region]
  · exact absurd hzero hpos.ne'

/-- Where the sum of the sizes fits, all copies stay in the buffer. -/
theorem copies_in_bounds {columns : List ColumnView} (hfits : sizes columns < 2 ^ 64)
    {hostBuf : Nat} {r : Region} (hr : r ∈ destinations hostBuf (copied columns)) :
    r.Within ⟨hostBuf, totalBytes columns⟩ := by
  rcases within_of_mem_destinations _ hr with ⟨hlow, hhigh⟩
  have hcopied := totalLength_copied_le columns
  have htotal := (totalBytes_exact_iff columns).mpr hfits
  simp only at hlow hhigh
  exact ⟨hlow, by simp only; omega⟩

/--
Where the sum fits and the buffer is fresh, a copied column lies in the buffer behind
the columns copied before it.
-/
theorem column_bytes {hip : HostHip} {first rest : List ColumnView} {col : ColumnView}
    {targetSpace : space} {s after : HostMemory} {rep : HostData ColumnMetadata space}
    (h : convert hip (.gpuTable (first ++ col :: rest)) targetSpace s = (.ok rep, after))
    (hfits : sizes (first ++ col :: rest) < 2 ^ 64) (hcopied : Copied col)
    (hfresh : forall other buf, other ∈ first ++ col :: rest -> bufferOf rep = some buf ->
      other.region.Apart buf) :
    exists buf, bufferOf rep = some buf ∧
      Region.contents after.bytes
        ⟨buf.start + totalLength (copied first), col.allocSize⟩ =
          col.region.contents s.bytes := by
  have htotal := (totalBytes_exact_iff _).mpr hfits
  have hpos : 0 < totalBytes (first ++ col :: rest) := by
    have hcol := hcopied.1
    rw [htotal, sizes_append, sizes_cons]
    omega
  rcases bufferOf_convert hpos h with ⟨hostBuf, hbuf, rfl⟩
  refine ⟨_, hbuf, ?_⟩
  have hpieces : copied (first ++ col :: rest) =
      copied first ++ col.region :: copied rest := by
    rw [copied_append, copied_cons_of hcopied]
  change Region.contents (copyPieces s.bytes hostBuf (copied (first ++ col :: rest)))
    ⟨hostBuf + totalLength (copied first), col.region.length⟩ = _
  have hlength := totalLength_copied_le (first ++ col :: rest)
  rw [hpieces] at hlength ⊢
  apply contents_copyPieces_at
  intro other hother
  rw [← hpieces] at hother
  rcases List.mem_map.mp hother with ⟨view, hview, rfl⟩
  apply (hfresh view _ (List.mem_filter.mp hview).1 hbuf).mono
  exact ⟨Nat.le_refl _, by simp only; omega⟩

/-!
# The recorded layout
-/

/-- The sum of the sizes of the columns before this one. -/
def startOf (columns : List ColumnView) (i : Nat) : Nat := sizes (columns.take i)

/-- The first address of a table's buffer, null where it has none. -/
def bufferStart (rep : HostData ColumnMetadata space) : Nat :=
  match bufferOf rep with
  | none => 0
  | some buf => buf.start

/-- The entries of the metadata. -/
def entries (rep : HostData ColumnMetadata space) : List ColumnMetadata :=
  match rep.table with
  | none => []
  | some table => table.columns

/-- `total_bytes` of the representation's table. -/
def recordedBytes (rep : HostData ColumnMetadata space) : Nat :=
  match rep.table with
  | none => 0
  | some table => table.totalBytes

/-- The range of the buffer that an entry delimits. -/
def rangeOf (rep : HostData ColumnMetadata space) (entry : ColumnMetadata) : Region :=
  ⟨bufferStart rep + entry.dataOffset, entry.dataSize⟩

/-- The buffer holds the columns end to end, and the metadata says where. -/
structure LayoutRecorded (before after : HostMemory) (columns : List ColumnView)
    (rep : HostData ColumnMetadata space) : Prop where
  total : recordedBytes rep = sizes columns
  inBounds : exists writes, after.writes = before.writes ++ writes ∧
    forall r, r ∈ writes -> r.Within ⟨bufferStart rep, recordedBytes rep⟩
  starts : forall (i : Nat) (col : ColumnView), columns[i]? = some col -> col.data ≠ 0 ->
    Region.contents after.bytes ⟨bufferStart rep + startOf columns i, col.allocSize⟩ =
      col.region.contents before.bytes
  length : (entries rep).length = columns.length
  delimited : forall (i : Nat) (col : ColumnView) entry, columns[i]? = some col ->
    (entries rep)[i]? = some entry ->
    entry.dataOffset = startOf columns i ∧ entry.dataSize = col.allocSize ∧
      entry.numRows = col.size
  disjoint : forall (i j : Nat) entry other, i ≠ j -> (entries rep)[i]? = some entry ->
    (entries rep)[j]? = some other -> (rangeOf rep entry).Apart (rangeOf rep other)
  recovered : forall (i : Nat) (col : ColumnView) entry, columns[i]? = some col ->
    (entries rep)[i]? = some entry -> col.data ≠ 0 ->
      (rangeOf rep entry).contents after.bytes = col.region.contents before.bytes

theorem sizes_eq_zero {columns : List ColumnView}
    (h : forall col, col ∈ columns -> col.allocSize = 0) : sizes columns = 0 := by
  apply List.sum_eq_zero
  intro n hn
  rcases List.mem_map.mp hn with ⟨col, hcol, rfl⟩
  exact h col hcol

theorem contents_of_length_zero (memory : Nat -> UInt8) {r : Region} (h : r.length = 0) :
    r.contents memory = [] := by
  simp [Region.contents, window, h]

/--
The converter records the layout of the table it copies exactly if there is nothing to
record: every column is without bytes.
-/
theorem layout_recorded_iff {hip : HostHip} {columns : List ColumnView} {targetSpace : space}
    {s after : HostMemory} {rep : HostData ColumnMetadata space}
    (h : convert hip (.gpuTable columns) targetSpace s = (.ok rep, after)) :
    LayoutRecorded s after columns rep <->
      forall col, col ∈ columns -> col.allocSize = 0 := by
  rcases convert_ok h with ⟨hostBuf, hrep, hcases⟩
  have hentries : entries rep = metadata columns := by
    rw [hrep]
    rfl
  constructor
  · intro hlayout col hcol
    rcases List.getElem?_of_mem hcol with ⟨i, hi⟩
    have hentry : (entries rep)[i]? = some { numRows := col.size } := by
      rw [hentries, metadata, List.getElem?_map, hi]
      rfl
    -- the entry keeps its default size
    exact (hlayout.delimited i col _ hi hentry).2.1.symm
  · intro hempty
    have hzero : totalBytes columns = 0 := by
      rw [totalBytes_eq, sizes_eq_zero hempty]
      rfl
    rcases hcases with ⟨hpos, _⟩ | ⟨_, _, rfl⟩
    · exact absurd hzero hpos.ne'
    have hcolumn : forall {i : Nat} {col : ColumnView}, columns[i]? = some col ->
        col.allocSize = 0 := fun hi => hempty _ (List.mem_of_getElem? hi)
    have hdefault : forall {i : Nat} {entry : ColumnMetadata},
        (entries rep)[i]? = some entry -> exists col, columns[i]? = some col ∧
          entry = { numRows := col.size } := by
      intro i entry hi
      rw [hentries, metadata, List.getElem?_map] at hi
      rcases Option.map_eq_some_iff.mp hi with ⟨col, hcol, rfl⟩
      exact ⟨col, hcol, rfl⟩
    constructor
    · rw [sizes_eq_zero hempty, hrep]
      exact hzero
    · exact ⟨[], (List.append_nil _).symm, fun r hr => absurd hr List.not_mem_nil⟩
    · intro i col hi _
      rw [contents_of_length_zero _ (hcolumn hi)]
      exact (contents_of_length_zero _ (hcolumn hi)).symm
    · rw [hentries, metadata, List.length_map]
    · intro i col entry hi hentry
      rcases hdefault hentry with ⟨col', hcol', rfl⟩
      rw [hi] at hcol'
      cases hcol'
      have hstart : startOf columns i = 0 :=
        sizes_eq_zero fun col hcol => hempty col (List.mem_of_mem_take hcol)
      exact ⟨hstart.symm, (hcolumn hi).symm, rfl⟩
    · intro i j entry other _ hentry _ a hlow hhigh
      rcases hdefault hentry with ⟨col, _, rfl⟩
      exact absurd hhigh (Nat.not_lt_of_le hlow)
    · intro i col entry hi hentry _
      rcases hdefault hentry with ⟨col', _, rfl⟩
      have hrange : (rangeOf rep { numRows := col'.size }).length = 0 := rfl
      rw [contents_of_length_zero _ hrange]
      exact (contents_of_length_zero _ (hcolumn hi)).symm

/-!
# A table of two columns
-/

theorem four_le_sizeMax : 4 ≤ sizeMax := by decide

/-- Columns of four bytes each, at 100 and at 120. -/
def twoColumns : List ColumnView :=
  [⟨4, 100, 1, four_le_sizeMax⟩, ⟨4, 120, 1, four_le_sizeMax⟩]

/-- A column with rows but no bytes. -/
def emptyColumn : List ColumnView := [⟨0, 0, 3, Nat.zero_le sizeMax⟩]

/-- What the converter makes of a column without bytes. -/
def emptyConverted : HostData ColumnMetadata Nat :=
  { table := some { allocation := some MultipleBlocksAllocation.empty
                    columns := [{ numRows := 3 }]
                    totalBytes := 0 }
    space := 7 }

/-- The exact condition read for a table without bytes, which meets it, and for one of two
columns, which does not. -/
theorem layout_recorded_iff_bothTables :
    LayoutRecorded HostData.addressBytes HostData.addressBytes emptyColumn emptyConverted ∧
    exists rep after,
      convert HostData.bufferAt200 (.gpuTable twoColumns) 7 HostData.addressBytes =
        (.ok rep, after) ∧ ¬ LayoutRecorded HostData.addressBytes after twoColumns rep := by
  constructor
  · apply (@layout_recorded_iff _ HostData.bufferAt200 emptyColumn 7 HostData.addressBytes
      HostData.addressBytes emptyConverted rfl).mpr
    intro col hcol
    rw [List.eq_of_mem_singleton hcol]
  · refine ⟨_, _, rfl, fun hlayout => ?_⟩
    have hempty := (@layout_recorded_iff _ HostData.bufferAt200 twoColumns 7
      HostData.addressBytes _ _ rfl).mp hlayout
    exact absurd (hempty _ List.mem_cons_self) (Nat.succ_ne_zero 3)

/-- Two columns of four bytes: the buffer of eight bytes comes with entries of offset 0
and size 0. -/
theorem layout_not_recorded :
    exists rep after,
      convert HostData.bufferAt200 (.gpuTable twoColumns) 7 HostData.addressBytes =
        (.ok rep, after) ∧
      recordedBytes rep = 8 ∧ after.writes = [⟨200, 4⟩, ⟨204, 4⟩] ∧
      (entries rep).map (fun entry => (entry.dataOffset, entry.dataSize)) =
        [(0, 0), (0, 0)] ∧
      ¬ LayoutRecorded HostData.addressBytes after twoColumns rep := by
  refine ⟨_, _, rfl, rfl, rfl, rfl, ?_⟩
  intro hlayout
  exact absurd (hlayout.delimited 0 ⟨4, 100, 1, four_le_sizeMax⟩ { numRows := 1 } rfl rfl).2.1
    (by decide)

end GpuToHost
end Cudf
end Cuda2Rocm
