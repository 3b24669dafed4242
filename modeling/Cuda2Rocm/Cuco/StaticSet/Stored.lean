import Cuda2Rocm.Cuco.StaticSet.LostKeys

/-!
# What the slots store

Slots are filled once and in the order of the probe sequences.  So the lookups may stop
at the first empty slot, also while insert threads are still on their way.
-/

namespace Cuda2Rocm
namespace Cuco
namespace StaticSet

open Foundation
open Foundation.OpenAddressing

variable {key : Type _} [DecidableEq key]

/-- What holds of the slots while the given keys have been handed to insert threads. -/
structure Stored (set : StaticSet key) (keys : List key) (slots : set.Slots) : Prop where
  inserted : forall i, slots i ≠ set.emptyKey -> slots i ∈ keys
  once : forall i j, slots i ≠ set.emptyKey -> slots i = slots j -> i = j
  no_gap : forall i, slots i ≠ set.emptyKey ->
    exists p, p < set.capacity ∧ set.slotIdx (slots i) p = i ∧
      forall q, q < p -> slots (set.slotIdx (slots i) q) ≠ set.emptyKey
  contains_iff : forall k, k ≠ set.emptyKey ->
    (set.contains slots k = true <-> exists i, slots i = k)
  probeKernel_iff : forall k, k ≠ set.emptyKey ->
    (set.probeKernel slots k = true <-> exists i, slots i = k)
  found_inserted : forall k, k ≠ set.emptyKey ->
    (set.contains slots k = true ∨ set.probeKernel slots k = true) -> k ∈ keys

variable {set : StaticSet key}

theorem exists_board_iff {slots : set.Slots} {k : key} (hk : k ≠ set.emptyKey) :
    (exists i, set.board slots i = some k) <-> exists i, slots i = k := by
  constructor
  · rintro ⟨i, hi⟩
    exact ⟨i, (board_eq_some_iff.mp hi).left⟩
  · rintro ⟨i, hi⟩
    exact ⟨i, board_eq_some_iff.mpr ⟨hi, hk⟩⟩

/-- The invariant of the runs, read off the slots. -/
theorem Sound.stored {s : InsertState set} (hs : Sound s) :
    Stored set (s.threads.map InsertThread.keyOf) s.slots := by
  have hboard : forall i, s.slots i ≠ set.emptyKey ->
      set.board s.slots i = some (s.slots i) :=
    fun i hheld => board_eq_some_iff.mpr ⟨rfl, hheld⟩
  have hinserted : forall i, s.slots i ≠ set.emptyKey ->
      s.slots i ∈ s.threads.map InsertThread.keyOf := by
    intro i hheld
    rcases hs.inserted i _ (hboard i hheld) with ⟨thread, hthread, hkey⟩
    exact List.mem_map.mpr ⟨thread, hthread, hkey⟩
  have hcontains : forall k, k ≠ set.emptyKey ->
      (set.contains s.slots k = true <-> exists i, s.slots i = k) :=
    fun k hk => (contains_iff_held hs hk).trans (exists_board_iff hk)
  constructor
  · exact hinserted
  · intro i j hheld heq
    have hj := hboard j (heq ▸ hheld)
    rw [← heq] at hj
    exact placed_unique (hs.wellPlaced i _ (hboard i hheld)) (hs.wellPlaced j _ hj)
  · intro i hheld
    rcases hs.wellPlaced i _ (hboard i hheld) with ⟨p, hp, hseq, _, hblocked⟩
    refine ⟨p, hp, hseq, ?_⟩
    intro q hq hempty
    rcases hblocked q hq with ⟨other, hother, _⟩
    rw [board_eq_none_iff.mpr hempty] at hother
    cases hother
  · exact hcontains
  · intro k hk
    rw [probeKernel_eq_contains]
    exact hcontains k hk
  · intro k hk hfound
    rw [probeKernel_eq_contains, or_self, hcontains k hk] at hfound
    rcases hfound with ⟨i, rfl⟩
    exact hinserted i hk

theorem extends_step {s t : InsertState set} {e : InsertEvent key} (hs : Sound s)
    (h : set.insertMachine.step s e = some t) :
    Extends (set.board s.slots) (set.board t.slots) := by
  rcases insertMachine_step_cases h with
    ⟨keys, rfl, rfl⟩ | ⟨thread, k, probe, rfl, hthread, rfl⟩
  · exact extends_refl _
  · have hk : k ≠ set.emptyKey := hs.realKeys _ (List.mem_of_getElem? hthread)
    exact extends_insertIteration s.slots probe hk

/-- Slots keep their keys over whole runs. -/
theorem extends_run {s t : InsertState set} {events : List (InsertEvent key)}
    (hs : Sound s) (hreal : set.insertMachine.Along RealKeys s events)
    (hrun : set.insertMachine.run s events = some t) :
    Extends (set.board s.slots) (set.board t.slots) := by
  have hstep : forall u e v, Sound u ∧ Extends (set.board s.slots) (set.board u.slots) ->
      RealKeys u e -> set.insertMachine.step u e = some v ->
      Sound v ∧ Extends (set.board s.slots) (set.board v.slots) := by
    intro u e v hu hok h
    exact ⟨sound_step hu.left hok h, extends_trans hu.right (extends_step hu.left h)⟩
  exact (Machine.invariant_run hstep ⟨hs, extends_refl _⟩ hreal hrun).right

/--
At every point of every run the slots store inserted keys, each of them once and behind
no empty slot of its probe sequence; both lookups answer exactly whether a key is
stored; and whatever runs later leaves the stored keys where they are.
-/
theorem slots_store_soundly {events later : List (InsertEvent key)} {s t : InsertState set}
    (hreal : forall k, k ∈ insertedKeys (events ++ later) -> k ≠ set.emptyKey)
    (hrun : set.insertMachine.run set.initial events = some s)
    (hlater : set.insertMachine.run s later = some t) :
    Stored set (insertedKeys events) s.slots ∧
      forall i, s.slots i ≠ set.emptyKey -> t.slots i = s.slots i := by
  rw [insertedKeys_append] at hreal
  have hfirst : set.insertMachine.Along RealKeys set.initial events :=
    realKeys_of_insertedKeys (fun k hk => hreal k (List.mem_append_left _ hk))
  have hsecond : set.insertMachine.Along RealKeys s later :=
    realKeys_of_insertedKeys (fun k hk => hreal k (List.mem_append_right _ hk))
  have hsound : Sound s := sound_run hfirst hrun
  have hkeys : s.threads.map InsertThread.keyOf = insertedKeys events := keys_of_run hrun
  constructor
  · rw [← hkeys]
    exact hsound.stored
  · intro i hheld
    have hext := extends_run hsound hsecond hlater
    exact (board_eq_some_iff.mp (hext i _ (board_eq_some_iff.mpr ⟨rfl, hheld⟩))).left

/-- The first key is in its slot while the second thread is still probing. -/
theorem slots_store_soundly_midway :
    exists s t, threeSlots.insertMachine.run threeSlots.initial (twoKeyRun.take 3) = some s ∧
      threeSlots.insertMachine.run s (twoKeyRun.drop 3) = some t ∧
      Stored threeSlots (insertedKeys (twoKeyRun.take 3)) s.slots ∧
      forall i, s.slots i ≠ threeSlots.emptyKey -> t.slots i = s.slots i :=
  ⟨_, _, rfl, rfl, @slots_store_soundly _ _ _ (twoKeyRun.take 3) (twoKeyRun.drop 3) _ _
    twoKeyRun_real rfl rfl⟩

end StaticSet
end Cuco
end Cuda2Rocm
