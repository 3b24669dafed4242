import Cuda2Rocm.Cuco.StaticSet.LostKeys

/-!
# Probing for the empty key

The lookups compare a slot with the probed key before they compare it with the empty
key.  So a probe for the empty key itself is answered by any free slot on its way,
whether that key was ever inserted or not.
-/

namespace Cuda2Rocm
namespace Cuco
namespace StaticSet

open Foundation

variable {key : Type _} [DecidableEq key] {set : StaticSet key}

/-- Slots that are not empty hold keys of insert threads. -/
def HoldsInserted (s : InsertState set) : Prop :=
  forall i, s.slots i ≠ set.emptyKey -> s.slots i ∈ s.threads.map InsertThread.keyOf

/-- A lookup of either kind reports the key. -/
def Reported (slots : set.Slots) (k : key) : Prop :=
  set.contains slots k = true ∨ set.probeKernel slots k = true

instance (slots : set.Slots) (k : key) : Decidable (Reported slots k) :=
  inferInstanceAs (Decidable (_ ∨ _))

/-!
# What the lookups say of any key
-/

/-- A key that is reported is in one of the slots probed. -/
theorem slot_of_refLoop {slots : set.Slots} {k : key} :
    forall (left probe : Nat), set.refLoop slots k probe left = true ->
      exists p, probe ≤ p ∧ p < probe + left ∧ slots (set.slotIdx k p) = k := by
  intro left
  induction left with
  | zero =>
      intro probe h
      cases h
  | succ left ih =>
      intro probe h
      simp only [refLoop] at h
      split at h
      · rename_i hfound
        exact ⟨probe, Nat.le_refl _, by omega, hfound⟩
      · split at h
        · cases h
        · rcases ih (probe + 1) h with ⟨p, hlow, hhigh, hslot⟩
          exact ⟨p, by omega, by omega, hslot⟩

/-- Nothing stops a search for the empty key before its first empty slot. -/
theorem refLoop_emptyKey {slots : set.Slots} :
    forall (left probe p : Nat), probe ≤ p -> p < probe + left ->
      slots (set.slotIdx set.emptyKey p) = set.emptyKey ->
      set.refLoop slots set.emptyKey probe left = true := by
  intro left
  induction left with
  | zero =>
      intro probe p hlow hhigh _
      omega
  | succ left ih =>
      intro probe p hlow hhigh hslot
      simp only [refLoop]
      split
      · rfl
      · rename_i hother
        have hne : probe ≠ p := fun heq => hother (heq ▸ hslot)
        exact ih (probe + 1) p (by omega) (by omega) hslot

theorem reported_iff_contains {slots : set.Slots} {k : key} :
    Reported slots k <-> set.contains slots k = true := by
  unfold Reported
  rw [probeKernel_eq_contains, or_self]

theorem reported_emptyKey_iff {slots : set.Slots} :
    Reported slots set.emptyKey <->
      exists p, p < set.capacity ∧
        slots (set.slotIdx set.emptyKey p) = set.emptyKey := by
  rw [reported_iff_contains]
  constructor
  · intro h
    rcases slot_of_refLoop set.capacity 0 h with ⟨p, _, hlt, hslot⟩
    exact ⟨p, by omega, hslot⟩
  · rintro ⟨p, hlt, hslot⟩
    exact refLoop_emptyKey set.capacity 0 p (Nat.zero_le _) (by omega) hslot

/-!
# What insert threads write
-/

theorem slots_insertIteration (slots : set.Slots) (k : key) (probe : Nat)
    (i : Fin set.capacity) :
    (set.insertIteration slots k probe).2 i = slots i ∨
      (set.insertIteration slots k probe).2 i = k := by
  simp only [insertIteration, atomicCAS]
  split
  · by_cases hi : i = set.slotIdx k probe
    · subst hi
      exact Or.inr (Function.update_self _ _ _)
    · exact Or.inl (Function.update_of_ne hi _ _)
  · exact Or.inl rfl

theorem holdsInserted_step {s t : InsertState set} {e : InsertEvent key}
    (hs : HoldsInserted s) (h : set.insertMachine.step s e = some t) :
    HoldsInserted t := by
  rcases insertMachine_step_cases h with
    ⟨keys, rfl, rfl⟩ | ⟨thread, k, probe, rfl, hthread, rfl⟩
  · intro i hheld
    change _ ∈ List.map _ (s.threads ++ _)
    rw [List.map_append]
    exact List.mem_append_left _ (hs i hheld)
  · intro i hheld
    change (set.insertIteration s.slots k probe).2 i ≠ set.emptyKey at hheld
    change (set.insertIteration s.slots k probe).2 i ∈ List.map _ (s.threads.set thread _)
    rw [map_keyOf_set hthread (keyOf_insertIteration s.slots k probe)]
    rcases slots_insertIteration s.slots k probe i with hsame | hwritten
    · rw [hsame] at hheld ⊢
      exact hs i hheld
    · rw [hwritten]
      exact List.mem_map_of_mem (List.mem_of_getElem? hthread)

/-- No batch can put a key into the slots that it does not hold, empty keys or not. -/
theorem slot_mem_insertedKeys {events : List (InsertEvent key)} {s : InsertState set}
    (hrun : set.insertMachine.run set.initial events = some s) {i : Fin set.capacity}
    (hheld : s.slots i ≠ set.emptyKey) : s.slots i ∈ insertedKeys events := by
  have hstart : HoldsInserted set.initial := fun i hi => absurd rfl hi
  have hstep : forall (s : InsertState set) e t, HoldsInserted s ->
      set.insertMachine.step s e = some t -> HoldsInserted t :=
    fun _ _ _ hinv h => holdsInserted_step hinv h
  have hs : HoldsInserted s := Machine.invariant_run_always hstep hstart hrun
  have hkeys : s.threads.map InsertThread.keyOf = insertedKeys events := keys_of_run hrun
  rw [← hkeys]
  exact hs i hheld

/--
At every point of every run, a key that a lookup reports was inserted, exactly unless
it is the empty key, was not inserted, and a slot of its probe sequence is empty.
-/
theorem no_false_member_iff {events : List (InsertEvent key)} {s : InsertState set}
    (hrun : set.insertMachine.run set.initial events = some s) (k : key) :
    (Reported s.slots k -> k ∈ insertedKeys events) <->
      (k = set.emptyKey -> k ∈ insertedKeys events ∨
        forall p, p < set.capacity ->
          s.slots (set.slotIdx set.emptyKey p) ≠ set.emptyKey) := by
  constructor
  · rintro hmember rfl
    by_cases hreported : Reported s.slots set.emptyKey
    · exact Or.inl (hmember hreported)
    · right
      intro p hp hslot
      exact hreported (reported_emptyKey_iff.mpr ⟨p, hp, hslot⟩)
  · intro hcond hreported
    by_cases hk : k = set.emptyKey
    · subst hk
      rcases hcond rfl with hinserted | hfull
      · exact hinserted
      · rcases reported_emptyKey_iff.mp hreported with ⟨p, hp, hslot⟩
        exact absurd hslot (hfull p hp)
    · rcases slot_of_refLoop set.capacity 0 (reported_iff_contains.mp hreported) with
        ⟨p, _, _, hslot⟩
      have hheld : s.slots (set.slotIdx k p) ≠ set.emptyKey := by
        rw [hslot]
        exact hk
      have hmem := slot_mem_insertedKeys hrun hheld
      rw [hslot] at hmem
      exact hmem

/-- One key in three slots. -/
def oneKeyRun : List (InsertEvent UInt64) := [.insertAsync [7], .atomicCAS 0]

/-- The exact condition read for a key that is not there, which meets it, and for the empty
key, which does not. -/
theorem no_false_member_iff_oneKeyRun :
    exists s, threeSlots.insertMachine.run threeSlots.initial oneKeyRun = some s ∧
      (Reported s.slots (8 : UInt64) -> (8 : UInt64) ∈ insertedKeys oneKeyRun) ∧
      ¬ (Reported s.slots threeSlots.emptyKey ->
        threeSlots.emptyKey ∈ insertedKeys oneKeyRun) := by
  refine ⟨_, rfl, ?_, ?_⟩
  · apply (@no_false_member_iff _ _ threeSlots oneKeyRun _ rfl 8).mpr
    exact fun heq => absurd heq (by decide)
  · intro hmember
    have hcond := (@no_false_member_iff _ _ threeSlots oneKeyRun _ rfl _).mp hmember rfl
    rcases hcond with hinserted | hfull
    · exact absurd hinserted (by decide)
    · exact hfull 0 (by decide) (by decide)

/-- The empty key is reported beside one other key, and was not inserted. -/
theorem empty_key_reported :
    exists s, threeSlots.insertMachine.run threeSlots.initial oneKeyRun = some s ∧
      (forall thread, thread ∈ s.threads -> thread.finished = true) ∧
      threeSlots.contains s.slots threeSlots.emptyKey = true ∧
      threeSlots.probeKernel s.slots threeSlots.emptyKey = true ∧
      threeSlots.emptyKey ∉ insertedKeys oneKeyRun :=
  ⟨_, rfl, by decide, by decide, by decide, by decide⟩

end StaticSet
end Cuco
end Cuda2Rocm
