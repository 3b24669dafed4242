import Cuda2Rocm.Cuco.Launch
import Cuda2Rocm.Cuco.StaticSet.Queries
import Cuda2Rocm.Foundation.Streams

/-!
# The set on streams

The constructor only launches the fill kernel; the array holds anything until its threads
have written it.  Batches of insertions and of queries are launched on any stream, and the
destructor synchronises with the device before it frees the array.

A query reads what was stored last.  It could miss what a kernel of another stream stores,
but not what earlier kernels of its own stream have stored or met, and no answer below
rests on more.
-/

namespace Cuda2Rocm
namespace Cuco
namespace StaticSet

open Foundation
open Foundation.OpenAddressing

/-- A thread of one of the three kernels. -/
inductive SetThread (key : Type _) where
  /-- A thread of `fill_empty_key_kernel`, by its loop counter. -/
  | fill (i : Nat)
  | insert (thread : InsertThread key)
  | probe (thread : ProbeThread key)
deriving DecidableEq

variable {key : Type _} [DecidableEq key] (set : StaticSet key)

def ProbeThread.finished : ProbeThread key -> Bool
  | .probing _ _ => false
  | .answered _ _ => true

/-- The kernels of the set, the fill kernel launched with so many blocks. -/
def kernels (grid : Nat) : Program set.Slots (SetThread key) where
  left thread :=
    match thread with
    | .fill i => decide (set.capacity ≤ i)
    | .insert thread => thread.finished
    | .probe thread => thread.finished
  access slots thread :=
    match thread with
    | .fill i =>
        if h : i < set.capacity then
          (Function.update slots ⟨i, h⟩ set.emptyKey, .fill ((i + gridStride grid) % 2 ^ 64))
        else (slots, .fill i)
    | .insert (.probing k probe) =>
        let next := set.insertIteration slots k probe
        (next.2, .insert next.1)
    | .probe (.probing k probe) => (slots, .probe (set.probeIteration slots k probe))
    | thread => (slots, thread)

/-- The threads of the fill kernel. -/
def fillThreads (key : Type _) (grid : Nat) : List (SetThread key) :=
  (List.range grid).flatMap (fun block =>
    (List.range blockDim).map (fun thread => .fill (GridThread.index ⟨block, thread⟩)))

/-- `insert_async`, without the launch of an empty grid. -/
def insertKernel {stream : Type _} (on : stream) (keys : List key) :
    Kernel stream (SetThread key) :=
  { stream := on, threads := keys.map (fun k => .insert (.probing k 0)) }

/-- `contains_async`. -/
def containsKernel {stream : Type _} (on : stream) (keys : List key) :
    Kernel stream (SetThread key) :=
  { stream := on, threads := keys.map (fun k => .probe (.probing k 0)) }

/-- What the constructor leaves behind: unwritten slots and a launched kernel. -/
def launched {stream : Type _} (capacity : UInt64) (slots : set.Slots) (on : stream) :
    Device stream set.Slots (SetThread key) :=
  { memory := slots
    kernels := [{ stream := on, threads := fillThreads key (dim3 (fillGrid capacity)) }]
    freed := false }

/-- The set in use, as a constructor for so many slots has launched it. -/
def streamMachine (stream : Type _) [DecidableEq stream] (capacity : UInt64) :
    Machine (Device stream set.Slots (SetThread key))
      (Device.Event stream (SetThread key)) :=
  Device.machine (set.kernels (dim3 (fillGrid capacity)))

/-!
# What the kernels rely on
-/

/-- A thread of a batch as it is launched, when only these keys are inserted. -/
def FreshThread (keys : List key) : SetThread key -> Prop
  | .fill _ => False
  | .insert (.probing k probe) => probe = 0 ∧ k ≠ set.emptyKey ∧ k ∈ keys
  | .probe (.probing k probe) => probe = 0 ∧ k ≠ set.emptyKey
  | _ => False

instance (keys : List key) : DecidablePred (FreshThread set keys)
  | .fill _ => isFalse id
  | .insert (.probing _ _) => inferInstanceAs (Decidable (_ ∧ _ ∧ _))
  | .insert (.returned _) => isFalse id
  | .insert (.exhausted _) => isFalse id
  | .probe (.probing _ _) => inferInstanceAs (Decidable (_ ∧ _))
  | .probe (.answered _ _) => isFalse id

/-- Every slot is written or some thread of the fill kernel will come to it. -/
def Filling (grid : Nat) (slots : set.Slots) (threads : List (SetThread key)) : Prop :=
  (forall thread, thread ∈ threads -> exists i, thread = .fill i) ∧
  forall j : Fin set.capacity, slots j = set.emptyKey ∨ exists i visited,
    SetThread.fill i ∈ threads ∧
      StrideEnds (2 ^ 64) set.capacity (gridStride grid) i visited ∧ j.val ∈ visited

/-- Batches of these keys, on the stream of the constructor or once the slots are filled. -/
def OnStreams {stream : Type _} (capacity : UInt64) (keys : List key) :
    Device stream set.Slots (SetThread key) -> Device.Event stream (SetThread key) -> Prop :=
  Device.AfterSetUp (set.kernels (dim3 (fillGrid capacity))) (FreshThread set keys)

instance {stream : Type _} [DecidableEq stream] (capacity : UInt64) (keys : List key)
    (s : Device stream set.Slots (SetThread key)) (e : Device.Event stream (SetThread key)) :
    Decidable (OnStreams set capacity keys s e) :=
  inferInstanceAs (Decidable (Device.AfterSetUp _ _ s e))

variable {set}

/-- Inserted keys only, each placed. -/
def Filled (keys : List key) (slots : set.Slots) : Prop :=
  WellPlaced (set.board slots) set.slotIdx set.capacity ∧
    forall i k, set.board slots i = some k -> k ∈ keys

def SetThreadSound (keys : List key) (slots : set.Slots) : SetThread key -> Prop
  | .fill _ => False
  | .insert thread =>
      thread.keyOf ≠ set.emptyKey ∧ thread.keyOf ∈ keys ∧ ThreadSound slots thread
  | .probe (.probing k probe) => ProbeSound slots (.probing k probe)
  | .probe (.answered k found) => found = true -> k ∈ keys

/-- A query finds what an insertion of its key has put there. -/
def Heeds : SetThread key -> SetThread key -> Prop
  | .insert (.returned k), .probe (.answered k' found) => k = k' -> found = true
  | _, _ => True

theorem filling_access {grid : Nat} {slots : set.Slots} {threads : List (SetThread key)}
    {i : Nat} {thread : SetThread key} (h : Filling set grid slots threads)
    (hthread : threads[i]? = some thread) (hleft : (set.kernels grid).left thread = false) :
    Filling set grid ((set.kernels grid).access slots thread).1
      (threads.set i ((set.kernels grid).access slots thread).2) := by
  rcases h.left thread (List.mem_of_getElem? hthread) with ⟨c, rfl⟩
  have hlt : c < set.capacity := Nat.not_le.mp (of_decide_eq_false hleft)
  simp only [kernels, dif_pos hlt]
  constructor
  · intro other hother
    rcases List.mem_or_eq_of_mem_set hother with hold | rfl
    · exact h.left other hold
    · exact ⟨_, rfl⟩
  · intro j
    by_cases hj : j = ⟨c, hlt⟩
    · rw [hj, Function.update_self]
      exact Or.inl rfl
    · rw [Function.update_of_ne hj]
      rcases h.right j with hdone | ⟨c', visited, hmem, hends, hvisited⟩
      · exact Or.inl hdone
      · apply Or.inr
        by_cases hsame : c' = c
        · subst hsame
          rcases (strideEnds_iff_of_lt hlt visited).mp hends with ⟨rest, hrest, rfl⟩
          refine ⟨_, rest, List.mem_set (List.getElem?_eq_some_iff.mp hthread).1 _, hrest, ?_⟩
          rcases List.mem_cons.mp hvisited with hhere | hlater
          · exact absurd (Fin.ext hhere) hj
          · exact hlater
        · refine ⟨c', visited, mem_set_of_ne hthread ?_ hmem, hends, hvisited⟩
          intro heq
          exact hsame (SetThread.fill.inj heq)

/-- A fill kernel that has come to its end has written every slot. -/
theorem filled_of_filling {grid : Nat} {slots : set.Slots} {threads : List (SetThread key)}
    (h : Filling set grid slots threads) (hall : threads.all (set.kernels grid).left = true) :
    slots = set.filled := by
  funext j
  rcases h.right j with hdone | ⟨c, visited, hmem, hends, hvisited⟩
  · exact hdone
  · have hleft : set.capacity ≤ c := of_decide_eq_true (List.all_eq_true.mp hall _ hmem)
    rw [eq_nil_of_strideEnds hleft hends] at hvisited
    cases hvisited

/-!
# What one access keeps
-/

theorem setThreadSound_mono {keys : List key} {slots later : set.Slots}
    {thread : SetThread key} (hext : Extends (set.board slots) (set.board later))
    (h : SetThreadSound keys slots thread) : SetThreadSound keys later thread := by
  cases thread with
  | fill i => exact h
  | insert thread => exact ⟨h.1, h.2.1, threadSound_mono hext h.2.2⟩
  | probe thread =>
      cases thread with
      | probing k probe =>
          have hprobe : ProbeSound slots (.probing k probe) := h
          exact probeSound_mono hext hprobe
      | answered k found => exact h

/-- A thread that has not left is about to try a slot or to read one. -/
theorem running_cases {grid : Nat} {keys : List key} {slots : set.Slots}
    {thread : SetThread key} (h : SetThreadSound keys slots thread)
    (hleft : (set.kernels grid).left thread = false) :
    (exists k probe, thread = .insert (.probing k probe)) ∨
    (exists k probe, thread = .probe (.probing k probe)) := by
  cases thread with
  | fill i => exact absurd h id
  | insert thread =>
      cases thread with
      | probing k probe => exact Or.inl ⟨k, probe, rfl⟩
      | returned k => cases hleft
      | exhausted k => cases hleft
  | probe thread =>
      cases thread with
      | probing k probe => exact Or.inr ⟨k, probe, rfl⟩
      | answered k found => cases hleft

theorem extends_access {grid : Nat} {keys : List key} {slots : set.Slots}
    {thread : SetThread key} (h : SetThreadSound keys slots thread)
    (hleft : (set.kernels grid).left thread = false) :
    Extends (set.board slots) (set.board ((set.kernels grid).access slots thread).1) := by
  rcases running_cases h hleft with ⟨k, probe, rfl⟩ | ⟨k, probe, rfl⟩
  · exact extends_insertIteration slots probe h.1
  · exact extends_refl _

theorem filled_access {grid : Nat} {keys : List key} {slots : set.Slots}
    {thread : SetThread key} (hslots : Filled keys slots)
    (h : SetThreadSound keys slots thread) (hleft : (set.kernels grid).left thread = false) :
    Filled keys ((set.kernels grid).access slots thread).1 := by
  rcases running_cases h hleft with ⟨k, probe, rfl⟩ | ⟨k, probe, rfl⟩
  · rcases h with ⟨hk, hkeys, hprobe, hblocked⟩
    constructor
    · exact wellPlaced_insertIteration hslots.left hk hprobe hblocked
    · intro i x hx
      rcases board_insertIteration_some hk hx with rfl | hold
      · exact hkeys
      · exact hslots.right i x hold
  · exact hslots

theorem setThreadSound_access {grid : Nat} {keys : List key} {slots : set.Slots}
    {thread : SetThread key} (hslots : Filled keys slots)
    (h : SetThreadSound keys slots thread) (hleft : (set.kernels grid).left thread = false) :
    SetThreadSound keys ((set.kernels grid).access slots thread).1
      ((set.kernels grid).access slots thread).2 := by
  rcases running_cases h hleft with ⟨k, probe, rfl⟩ | ⟨k, probe, rfl⟩
  · rcases h with ⟨hk, hkeys, hprobe, hblocked⟩
    have hsame := keyOf_insertIteration slots k probe
    refine ⟨?_, ?_, threadSound_insertIteration hk hprobe hblocked⟩
    · rw [hsame]
      exact hk
    · rw [hsame]
      exact hkeys
  · change SetThreadSound keys slots (.probe (set.probeIteration slots k probe))
    have hnext := probeSound_probeIteration h
    rcases probeIteration_moment hslots.left h with hanswered | hpassed
    · rw [hanswered]
      intro hfound
      rcases mem_held_iff.mp (of_decide_eq_true hfound) with ⟨i, hi⟩
      exact hslots.right i k hi
    · rw [hpassed] at hnext ⊢
      exact hnext

/-- A query that ends after an insertion of its key has returned answers yes. -/
theorem heeds_access {grid : Nat} {keys : List key} {slots : set.Slots}
    {earlier thread : SetThread key} (hslots : Filled keys slots)
    (hearlier : SetThreadSound keys slots earlier) (h : SetThreadSound keys slots thread)
    (hleft : (set.kernels grid).left thread = false) :
    Heeds earlier ((set.kernels grid).access slots thread).2 := by
  rcases running_cases h hleft with ⟨k, probe, rfl⟩ | ⟨k, probe, rfl⟩
  · change Heeds earlier (.insert (set.insertIteration slots k probe).1)
    cases earlier with
    | fill i => trivial
    | insert thread => cases thread <;> trivial
    | probe thread => trivial
  · change Heeds earlier (.probe (set.probeIteration slots k probe))
    rcases probeIteration_moment hslots.left h with hanswered | hpassed
    · rw [hanswered]
      cases earlier with
      | fill i => trivial
      | insert thread =>
          cases thread with
          | probing x p => trivial
          | returned x =>
              rintro rfl
              exact decide_eq_true (mem_held_iff.mpr hearlier.2.2)
          | exhausted x => trivial
      | probe thread => trivial
    · rw [hpassed]
      cases earlier with
      | fill i => trivial
      | insert thread => cases thread <;> trivial
      | probe thread => trivial

/-- The kernels keep to the rules for setting a memory up. -/
theorem kernels_discipline (set : StaticSet key) (grid : Nat) (keys : List key) :
    Device.Discipline (set.kernels grid) (FreshThread set keys) (Filling set grid)
      (Filled keys) (SetThreadSound keys) := by
  constructor
  · exact fun m threads i t h hthread hleft => filling_access h hthread hleft
  · intro m threads h hall
    rw [filled_of_filling h hall]
    have hfree : forall i, set.board set.filled i = none :=
      fun i => board_eq_none_iff.mpr rfl
    constructor
    · intro i k hi
      rw [hfree i] at hi
      cases hi
    · intro i k hi
      rw [hfree i] at hi
      cases hi
  · intro m t _ hfresh
    rcases t with i | (⟨k, probe⟩ | k | k) | (⟨k, probe⟩ | ⟨k, found⟩)
    · exact hfresh
    · rcases hfresh with ⟨rfl, hk, hkeys⟩
      exact ⟨hk, hkeys, set.capacity_pos, blocked_zero _ _ k⟩
    · exact absurd hfresh id
    · exact absurd hfresh id
    · rcases hfresh with ⟨rfl, hk⟩
      exact ⟨hk, set.capacity_pos, blocked_zero _ _ k⟩
    · exact absurd hfresh id
  · exact fun m t hm ht hleft => filled_access hm ht hleft
  · exact fun m t hm ht hleft => setThreadSound_access hm ht hleft
  · exact fun m t u hm ht hleft hu => setThreadSound_mono (extends_access ht hleft) hu

/-!
# Every run
-/

omit [DecidableEq key] in
theorem mem_fillThreads {grid : Nat} {thread : GridThread} (h : thread.Started grid) :
    SetThread.fill thread.index ∈ fillThreads key grid := by
  apply List.mem_flatMap.mpr
  exists thread.blockIdx
  apply And.intro (List.mem_range.mpr h.left)
  apply List.mem_map.mpr
  exact ⟨thread.threadIdx, List.mem_range.mpr h.right, rfl⟩

omit [DecidableEq key] in
theorem filling_launched {grid : Nat} {capacity : UInt64}
    (hcapacity : set.capacity = capacity.toNat) (hfills : FillsAll grid capacity)
    (slots : set.Slots) : Filling set grid slots (fillThreads key grid) := by
  constructor
  · intro thread hthread
    rcases List.mem_flatMap.mp hthread with ⟨block, _, hblock⟩
    rcases List.mem_map.mp hblock with ⟨index, _, rfl⟩
    exact ⟨_, rfl⟩
  · intro j
    have hj : j.val < capacity.toNat := hcapacity ▸ j.isLt
    rcases hfills.right j.val hj with ⟨thread, visited, hstarted, hends, hvisited⟩
    refine Or.inr ⟨_, visited, mem_fillThreads hstarted, ?_, hvisited⟩
    rw [hcapacity]
    exact hends

omit [DecidableEq key] in
/-- A set that was constructed has the capacity that it was given. -/
theorem capacity_of_construct {capacity : UInt64} {sizeofKey : Nat} {empty : key}
    {hash : DoubleHashing key} {mallocOk launchOk : Bool}
    (h : construct capacity sizeofKey empty hash mallocOk launchOk = .ok set) :
    set.capacity = capacity.toNat := by
  unfold construct at h
  split at h
  · split at h
    · cases h
    · split at h
      · cases h
      · split at h
        · cases h
        · cases h
          rfl
  · cases h

variable {stream : Type _} [DecidableEq stream]

/--
Where every batch is launched on the stream of the constructor or once the fill kernel is
finished, a query launched behind an insertion on the same stream finds each key whose
thread has returned, whatever the slots held and whatever runs on other streams; no query
finds a key that nobody inserts; and no thread makes an access once the slots are freed.
-/
theorem same_stream_queries_find {capacity : UInt64} {sizeofKey : Nat} {empty : key}
    {hash : DoubleHashing key} {mallocOk pending : Bool} {slots : set.Slots} {on : stream}
    {keys : List key} {events : List (Device.Event stream (SetThread key))}
    {t : Device stream set.Slots (SetThread key)}
    (hbuilt : constructOn capacity sizeofKey empty hash mallocOk pending = .ok set)
    (hfits : FillStrideFits capacity)
    (hok : (set.streamMachine stream capacity).Along (OnStreams set capacity keys)
      (set.launched capacity slots on) events)
    (hrun : (set.streamMachine stream capacity).run (set.launched capacity slots on) events =
      some t) :
    (forall (j q : Nat) (earlier later : Kernel stream (SetThread key)) (k : key), 0 < j ->
      j < q -> t.kernels[j]? = some earlier -> t.kernels[q]? = some later ->
      earlier.stream = later.stream -> .insert (.returned k) ∈ earlier.threads ->
      .probe (.answered k false) ∉ later.threads) ∧
    (forall (q : Nat) (kernel : Kernel stream (SetThread key)) (k : key), 0 < q ->
      t.kernels[q]? = some kernel -> .probe (.answered k true) ∈ kernel.threads ->
      k ∈ keys) ∧
    (t.freed = true -> forall q i,
      (set.streamMachine stream capacity).step t (.access q i) = none) := by
  have hfills : FillsAll (dim3 (fillGrid capacity)) capacity := by
    apply (filledWhenBuilt_iff capacity sizeofKey empty hash mallocOk pending).mpr _ set hbuilt
    exact fun _ _ _ _ => hfits
  have hlaunched := filling_launched (capacity_of_construct hbuilt) hfills slots
  have hdiscipline := kernels_discipline set (dim3 (fillGrid capacity)) keys
  have hstart : Device.Orderly (set.kernels (dim3 (fillGrid capacity))) (FreshThread set keys)
      (Filling set (dim3 (fillGrid capacity))) (Filled keys) (SetThreadSound keys) Heeds
      (set.launched capacity slots on) := Device.orderly_launched hdiscipline hlaunched
  have horderly := Device.orderly_run hdiscipline
    (fun m x u hm hx hu _ hleft => heeds_access hm hx hu hleft) hstart hok hrun
  refine ⟨?_, ?_, ?_⟩
  · intro j q earlier later k hj hjq hearlier hlater hstream hreturned hanswered
    rcases horderly.follows j q earlier later _ _ hj hjq hearlier hlater hstream hreturned
      hanswered with hfresh | ⟨_, hheeds⟩
    · exact hfresh
    · cases hheeds rfl
  · intro q kernel k hq hkernel hanswered
    rcases horderly.setUp with ⟨first, hsetUp⟩
    by_cases hdone : first.finished (set.kernels (dim3 (fillGrid capacity))) = true
    · exact (hsetUp.after hdone).right q kernel hq hkernel _ hanswered rfl
    · rw [Bool.not_eq_true] at hdone
      exact absurd (((hsetUp.before hdone).right q kernel hq hkernel).right _ hanswered) id
  · exact fun hfreed => Device.no_access_of_freed horderly.idle hfreed

/-- The slots hold a key that nobody inserted until they are filled on stream 0; a batch and
a query follow on stream 1, and the set is destroyed. -/
def threeSlotsSchedule : List (Device.Event Nat (SetThread UInt64)) :=
  [.access 0 0, .access 0 1, .access 0 2, .submit (insertKernel 1 [5, 8]),
    .submit (containsKernel 1 [8]), .access 1 0, .access 1 1, .access 1 1, .access 2 0,
    .access 2 0, .destroy]

theorem same_stream_queries_find_threeSlots :
    exists t, (threeSlots.streamMachine Nat 3).run (threeSlots.launched 3 (fun _ => 8) 0)
        threeSlotsSchedule = some t ∧
      t.kernels[2]? ≠ some ⟨1, [.probe (.answered 8 false)]⟩ := by
  have hrun : ((threeSlots.streamMachine Nat 3).run (threeSlots.launched 3 (fun _ => 8) 0)
      threeSlotsSchedule).isSome = true := by decide +kernel
  have hreturned : ((threeSlots.streamMachine Nat 3).run
      (threeSlots.launched 3 (fun _ => 8) 0) threeSlotsSchedule).bind
        (fun t => t.kernels[1]?) =
          some ⟨1, [.insert (.returned 5), .insert (.returned 8)]⟩ := by decide +kernel
  rcases Option.isSome_iff_exists.mp hrun with ⟨t, ht⟩
  rw [ht] at hreturned
  have hbuilt : constructOn 3 8 0 ⟨fun k => k⟩ true false = .ok threeSlots := rfl
  have hok : (threeSlots.streamMachine Nat 3).Along (OnStreams threeSlots 3 [5, 8])
      (threeSlots.launched 3 (fun _ => 8) 0) threeSlotsSchedule := by decide +kernel
  refine ⟨t, ht, fun hlater => ?_⟩
  exact (same_stream_queries_find hbuilt (by decide +kernel) hok ht).left 1 2 _ _ 8 (by decide)
    (by decide) hreturned hlater rfl (by decide) (by decide)

end StaticSet
end Cuco
end Cuda2Rocm
