import Cuda2Rocm.Cuco.StaticSet.Streams
import Cuda2Rocm.Foundation.Draining

/-!
# Threads of the set by themselves

A thread of a batch tries or reads one slot after another and gives up after the last, so
it needs no other thread to leave its kernel, and neither does a thread of the fill kernel
whose loop ends.
-/

namespace Cuda2Rocm
namespace Cuco
namespace StaticSet

open Foundation

variable {key : Type _} [DecidableEq key]

/-- A thread of a batch as it is launched. -/
def BatchThread : SetThread key -> Prop
  | .insert (.probing _ probe) => probe = 0
  | .probe (.probing _ probe) => probe = 0
  | _ => False

instance : DecidablePred (@BatchThread key)
  | .fill _ => isFalse id
  | .insert (.probing _ _) => inferInstanceAs (Decidable (_ = _))
  | .insert (.returned _) => isFalse id
  | .insert (.exhausted _) => isFalse id
  | .probe (.probing _ _) => inferInstanceAs (Decidable (_ = _))
  | .probe (.answered _ _) => isFalse id

variable {set : StaticSet key} {grid : Nat}

/-- A thread that inserts leaves with the last slot at the latest. -/
theorem endsWithin_insert {n : Nat} {k : key} {probe : Nat} (h : set.capacity ≤ probe + n + 1) :
    (set.kernels grid).EndsWithin (n + 1) (.insert (.probing k probe)) := by
  induction n generalizing probe with
  | zero =>
      right
      intro slots
      apply Program.endsWithin_of_left
      have hlast : ¬ probe + 1 < set.capacity := Nat.not_lt.mpr h
      simp only [kernels, insertIteration, if_neg hlast]
      split <;> rfl
  | succ n ih =>
      right
      intro slots
      simp only [kernels, insertIteration]
      split
      · exact Program.endsWithin_of_left rfl
      · split
        · apply ih
          omega
        · exact Program.endsWithin_of_left rfl

/-- The same for a thread that queries. -/
theorem endsWithin_probe {n : Nat} {k : key} {probe : Nat} (h : set.capacity ≤ probe + n + 1) :
    (set.kernels grid).EndsWithin (n + 1) (.probe (.probing k probe)) := by
  induction n generalizing probe with
  | zero =>
      right
      intro slots
      apply Program.endsWithin_of_left
      have hlast : ¬ probe + 1 < set.capacity := Nat.not_lt.mpr h
      simp only [kernels, probeIteration, if_neg hlast]
      split
      · rfl
      · split <;> rfl
  | succ n ih =>
      right
      intro slots
      simp only [kernels, probeIteration]
      split
      · exact Program.endsWithin_of_left rfl
      · split
        · exact Program.endsWithin_of_left rfl
        · split
          · apply ih
            omega
          · exact Program.endsWithin_of_left rfl

theorem endsWithin_batch {thread : SetThread key} (h : BatchThread thread) :
    (set.kernels grid).EndsWithin set.capacity thread := by
  have hcapacity : set.capacity = set.capacity - 1 + 1 :=
    (Nat.sub_add_cancel set.capacity_pos).symm
  rw [hcapacity]
  cases thread with
  | fill i => exact absurd h id
  | insert thread =>
      cases thread with
      | probing k probe =>
          apply endsWithin_insert
          omega
      | returned k => exact absurd h id
      | exhausted k => exact absurd h id
  | probe thread =>
      cases thread with
      | probing k probe =>
          apply endsWithin_probe
          omega
      | answered k found => exact absurd h id

/-- A loop of the fill kernel that ends writes the slots that it visits. -/
theorem endsWithin_fill {visited : List Nat} : forall {i : Nat},
    StrideEnds (2 ^ 64) set.capacity (gridStride grid) i visited ->
      (set.kernels grid).EndsWithin visited.length (.fill i) := by
  induction visited with
  | nil =>
      intro i hends
      apply decide_eq_true
      apply Nat.not_lt.mp
      intro hlt
      rcases (strideEnds_iff_of_lt hlt []).mp hends with ⟨_, _, heq⟩
      cases heq
  | cons first rest ih =>
      intro i hends
      by_cases hlt : i < set.capacity
      · right
        intro slots
        rcases (strideEnds_iff_of_lt hlt (first :: rest)).mp hends with ⟨rest', hrest, heq⟩
        cases heq
        simp only [kernels, dif_pos hlt]
        exact ih hrest
      · exact Program.endsWithin_of_left (decide_eq_true (Nat.not_lt.mp hlt))

omit [DecidableEq key] in
theorem exists_of_mem_fillThreads {thread : SetThread key} (h : thread ∈ fillThreads key grid) :
    exists started : GridThread, started.Started grid ∧ thread = .fill started.index := by
  rcases List.mem_flatMap.mp h with ⟨block, hblock, hthread⟩
  rcases List.mem_map.mp hthread with ⟨inBlock, hinBlock, rfl⟩
  exact ⟨⟨block, inBlock⟩, ⟨List.mem_range.mp hblock, List.mem_range.mp hinBlock⟩, rfl⟩

variable {stream : Type _} [DecidableEq stream]

omit [DecidableEq stream] in
/-- The fill kernel comes to its end where its stride fits. -/
theorem drains_launched {capacity : UInt64} (hcapacity : set.capacity = capacity.toNat)
    (hfills : FillsAll (dim3 (fillGrid capacity)) capacity) (slots : set.Slots) (on : stream) :
    Device.Drains (set.kernels (dim3 (fillGrid capacity))) (set.launched capacity slots on) := by
  intro q i thread hthread
  cases q with
  | zero =>
      have hmem : thread ∈ fillThreads key (dim3 (fillGrid capacity)) :=
        List.mem_of_getElem? hthread
      rcases exists_of_mem_fillThreads hmem with ⟨started, hstarted, rfl⟩
      rcases hfills.left started hstarted with ⟨written, hwritten⟩
      unfold GridThread.Fills at hwritten
      rw [← hcapacity] at hwritten
      exact ⟨written.length, endsWithin_fill hwritten⟩
  | succ q => cases hthread

/-- Threads of the set are wait-free: beside any others, and before or after the slots are
filled, a thread of a batch makes no more accesses than there are slots; and where the
stride of the fill kernel fits, all kernels can come to their ends by accesses alone, for
which the destructor waits. -/
theorem set_threads_wait_free {capacity : UInt64} {sizeofKey : Nat} {empty : key}
    {hash : DoubleHashing key} {mallocOk pending : Bool} {slots : set.Slots} {on : stream}
    {events : List (Device.Event stream (SetThread key))}
    {t : Device stream set.Slots (SetThread key)}
    (hbuilt : constructOn capacity sizeofKey empty hash mallocOk pending = .ok set)
    (hok : (set.streamMachine stream capacity).Along (Device.SubmitsFresh BatchThread)
      (set.launched capacity slots on) events)
    (hrun : (set.streamMachine stream capacity).run (set.launched capacity slots on) events =
      some t) :
    (forall q i, 0 < q -> events.countP (Device.Event.accesses q i) ≤ set.capacity) ∧
      (FillStrideFits capacity ->
        Device.ComesToRest (set.kernels (dim3 (fillGrid capacity))) t) := by
  constructor
  · intro q i hq
    apply Device.accesses_le_run (fun _ h => endsWithin_batch h) hok hrun
    cases q with
    | zero => exact absurd hq (Nat.lt_irrefl 0)
    | succ q => rfl
  · intro hfits
    have hfills : FillsAll (dim3 (fillGrid capacity)) capacity := by
      apply (filledWhenBuilt_iff capacity sizeofKey empty hash mallocOk pending).mpr _ set
        hbuilt
      exact fun _ _ _ _ => hfits
    have hdrains := drains_launched (capacity_of_construct hbuilt) hfills slots on
    exact Device.comes_to_rest_run (fun _ h => endsWithin_batch h) hdrains hok hrun

/-- An insertion is launched before the slots are filled; it meets another key in each. -/
def beforeTheFill : List (Device.Event Nat (SetThread UInt64)) :=
  [.submit (insertKernel 1 [5]), .access 1 0, .access 0 1, .access 1 0, .access 1 0]

theorem set_threads_wait_free_beforeTheFill :
    exists t, (threeSlots.streamMachine Nat 3).run (threeSlots.launched 3 (fun _ => 8) 0)
        beforeTheFill = some t ∧
      beforeTheFill.countP (Device.Event.accesses 1 0) ≤ 3 ∧
      Device.ComesToRest (threeSlots.kernels (dim3 (fillGrid 3))) t := by
  have hbuilt : constructOn 3 8 0 ⟨fun k => k⟩ true false = .ok threeSlots := rfl
  have hok : (threeSlots.streamMachine Nat 3).Along (Device.SubmitsFresh BatchThread)
      (threeSlots.launched 3 (fun _ => 8) 0) beforeTheFill := by decide +kernel
  have hrun : ((threeSlots.streamMachine Nat 3).run (threeSlots.launched 3 (fun _ => 8) 0)
      beforeTheFill).isSome = true := by decide +kernel
  rcases Option.isSome_iff_exists.mp hrun with ⟨t, ht⟩
  have hwaitFree := set_threads_wait_free hbuilt hok ht
  exact ⟨t, ht, hwaitFree.left 1 0 Nat.one_pos, hwaitFree.right (by decide +kernel)⟩

end StaticSet
end Cuco
end Cuda2Rocm
