import Cuda2Rocm.Cuco.StaticSet.Stored
import Cuda2Rocm.Foundation.AtomicSets
import Cuda2Rocm.Foundation.Simulations

/-!
# Queries while keys go in

The threads of `set_probe_kernel`, and calls of `set_ref::operator()` inside other kernels,
read one slot at a time while insert threads change the array.  They read by plain loads,
which nothing orders with the compare-and-swaps of other threads: a load may miss the one
that has filled its slot, and see the empty key.  Whatever the interleaving, callers see a
set on which every insertion and every query happens at one moment, except that a query that
misses an insertion is denied its key.
-/

namespace Cuda2Rocm
namespace Cuco
namespace StaticSet

open Foundation
open Foundation.OpenAddressing

variable {key : Type _} [DecidableEq key]

/-- A thread of `set_probe_kernel`. -/
inductive ProbeThread (key : Type _) where
  /-- About to read the slot of this probe. -/
  | probing (k : key) (probe : Nat)
  /-- Wrote `out[idx]`. -/
  | answered (k : key) (found : Bool)
deriving DecidableEq

variable (set : StaticSet key)

/-- One iteration of the loop of `set_probe_kernel`. -/
def probeIteration (slots : set.Slots) (k : key) (probe : Nat) : ProbeThread key :=
  let slot := slots (set.slotIdx k probe)
  if slot = k then .answered k true
  else if slot = set.emptyKey then .answered k false
  else if probe + 1 < set.capacity then .probing k (probe + 1)
  else .answered k false

/-- The array with its insert threads, and every probe thread started so far. -/
structure QueryState where
  table : InsertState set
  queries : List (ProbeThread key)

def quiet : QueryState set :=
  { table := set.initial, queries := [] }

variable {set}

/-- What one read tells: the key is here, it is nowhere, or it may come later. -/
theorem probeIteration_cases (slots : set.Slots) {k : key} (probe : Nat)
    (hk : k ≠ set.emptyKey) :
    (set.board slots (set.slotIdx k probe) = some k ∧
      set.probeIteration slots k probe = .answered k true) ∨
    (set.board slots (set.slotIdx k probe) = none ∧
      set.probeIteration slots k probe = .answered k false) ∨
    (exists other, set.board slots (set.slotIdx k probe) = some other ∧ other ≠ k ∧
      set.probeIteration slots k probe =
        if probe + 1 < set.capacity then .probing k (probe + 1) else .answered k false) := by
  by_cases hfound : slots (set.slotIdx k probe) = k
  · apply Or.inl
    constructor
    · exact board_eq_some_iff.mpr ⟨hfound, hk⟩
    · simp only [probeIteration, hfound, if_true]
  · apply Or.inr
    by_cases hempty : slots (set.slotIdx k probe) = set.emptyKey
    · apply Or.inl
      constructor
      · exact board_eq_none_iff.mpr hempty
      · simp only [probeIteration, if_neg hfound, if_pos hempty]
    · apply Or.inr
      exists slots (set.slotIdx k probe)
      refine ⟨board_eq_some_iff.mpr ⟨rfl, hempty⟩, hfound, ?_⟩
      simp only [probeIteration, if_neg hfound, if_neg hempty]

/-- On a well placed board a key that was passed by at every slot is not held. -/
theorem not_held_of_blocked {slots : set.Slots} {k : key}
    (hboard : WellPlaced (set.board slots) set.slotIdx set.capacity)
    (hblocked : Blocked (set.board slots) set.slotIdx k set.capacity) (i : Fin set.capacity) :
    set.board slots i ≠ some k := by
  intro hi
  rcases hboard i k hi with ⟨p, hp, hseq, hheld, _⟩
  rcases hblocked p hp with ⟨other, hother, hne⟩
  rw [hseq, hheld] at hother
  exact hne (Option.some.inj hother).symm

/-- A key whose next slot is free, behind slots of other keys, is not held. -/
theorem not_held_of_free {slots : set.Slots} {k : key} {probe : Nat}
    (hboard : WellPlaced (set.board slots) set.slotIdx set.capacity)
    (hblocked : Blocked (set.board slots) set.slotIdx k probe)
    (hfree : set.board slots (set.slotIdx k probe) = none) (i : Fin set.capacity) :
    set.board slots i ≠ some k := by
  intro hi
  rcases hboard i k hi with ⟨p, _, hseq, hheld, hbefore⟩
  rcases Nat.lt_trichotomy p probe with hlt | rfl | hgt
  · rcases hblocked p hlt with ⟨other, hother, hne⟩
    rw [hseq, hheld] at hother
    exact hne (Option.some.inj hother).symm
  · rw [hseq, hheld] at hfree
    cases hfree
  · rcases hbefore probe hgt with ⟨other, hother, _⟩
    rw [hfree] at hother
    cases hother

/-!
# The invariant
-/

/-- What the progress of a probe thread says about the array. -/
def ProbeSound (slots : set.Slots) : ProbeThread key -> Prop
  | .probing k probe =>
      k ≠ set.emptyKey ∧ probe < set.capacity ∧
        Blocked (set.board slots) set.slotIdx k probe
  | .answered _ _ => True

theorem probeSound_mono {slots later : set.Slots} {thread : ProbeThread key}
    (hext : Extends (set.board slots) (set.board later)) (h : ProbeSound slots thread) :
    ProbeSound later thread := by
  cases thread with
  | probing k probe => exact ⟨h.1, h.2.1, blocked_mono hext h.2.2⟩
  | answered k found => exact h

theorem probeSound_probeIteration {slots : set.Slots} {k : key} {probe : Nat}
    (h : ProbeSound slots (.probing k probe)) :
    ProbeSound slots (set.probeIteration slots k probe) := by
  rcases h with ⟨hk, _, hblocked⟩
  rcases probeIteration_cases slots probe hk with ⟨_, heq⟩ | ⟨_, heq⟩ |
    ⟨other, hheld, hne, heq⟩
  · rw [heq]
    trivial
  · rw [heq]
    trivial
  · rw [heq]
    split
    · rename_i hmore
      exact ⟨hk, hmore, blocked_succ hblocked hheld hne⟩
    · trivial

/-- The keys in the array. -/
def held (slots : set.Slots) : Finset key :=
  (Finset.univ.image slots).erase set.emptyKey

theorem mem_held_iff {slots : set.Slots} {k : key} :
    k ∈ held slots <-> exists i, set.board slots i = some k := by
  simp only [held, Finset.mem_erase, Finset.mem_image, Finset.mem_univ, true_and,
    board_eq_some_iff]
  constructor
  · intro h
    rcases h with ⟨hk, i, hi⟩
    exact ⟨i, hi, hk⟩
  · intro h
    rcases h with ⟨i, hi, hk⟩
    exact ⟨hk, i, hi⟩

def InsertThread.call : InsertThread key -> Insertion key
  | .probing k _ => .waiting k
  | .returned k => .inserted k
  | .exhausted k => .refused k

def ProbeThread.call : ProbeThread key -> Query key
  | .probing k _ => .waiting k
  | .answered k found => .answered k found

/-- How many slots a key can go to. -/
def room (set : StaticSet key) (k : key) : Nat :=
  (reach set.slotIdx k set.capacity).card

/-- One read passes a slot by or answers as the set is at that moment. -/
theorem probeIteration_moment {slots : set.Slots} {k : key} {probe : Nat}
    (hboard : WellPlaced (set.board slots) set.slotIdx set.capacity)
    (hsound : ProbeSound slots (.probing k probe)) :
    set.probeIteration slots k probe = .answered k (decide (k ∈ held slots)) ∨
    set.probeIteration slots k probe = .probing k (probe + 1) := by
  rcases hsound with ⟨hk, hprobe, hblocked⟩
  have hdenied (hnot : forall i, set.board slots i ≠ some k) :
      decide (k ∈ held slots) = false := by
    apply decide_eq_false
    intro hmem
    rcases mem_held_iff.mp hmem with ⟨i, hi⟩
    exact hnot i hi
  rcases probeIteration_cases slots probe hk with ⟨hheld, heq⟩ | ⟨hfree, heq⟩ |
    ⟨other, hheld, hne, heq⟩
  · apply Or.inl
    rw [heq, decide_eq_true (mem_held_iff.mpr ⟨_, hheld⟩)]
  · apply Or.inl
    rw [heq, hdenied (not_held_of_free hboard hblocked hfree)]
  · rw [heq]
    split
    · exact Or.inr rfl
    · rename_i hlast
      have hall : Blocked (set.board slots) set.slotIdx k set.capacity := by
        have hnext := blocked_succ hblocked hheld hne
        rwa [show probe + 1 = set.capacity by omega] at hnext
      exact Or.inl (by rw [hdenied (not_held_of_blocked hboard hall)])

/-!
# Refinement
-/

end StaticSet
end Cuco
end Cuda2Rocm
