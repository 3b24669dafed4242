import Cuda2Rocm.Cuco.StaticSet.Model

/-!
# Runs of insert threads

The device array of a static set is an open-addressing board once the empty key
is read as a free slot.  Each compare-and-swap keeps every key at the first of
its slots that was free for it, so the lookups answer exactly whether a key is
held.
-/

namespace Cuda2Rocm
namespace Cuco
namespace StaticSet

open Foundation
open Foundation.OpenAddressing

variable {key : Type _} [DecidableEq key] (set : StaticSet key)

/-- The array with the empty key read as a free slot. -/
def board (slots : set.Slots) : Board (Fin set.capacity) key :=
  fun i => if slots i = set.emptyKey then none else some (slots i)

variable {set}

theorem board_eq_none_iff {slots : set.Slots} {i : Fin set.capacity} :
    set.board slots i = none <-> slots i = set.emptyKey := by
  unfold board
  constructor
  · intro h
    by_cases hempty : slots i = set.emptyKey
    · exact hempty
    · rw [if_neg hempty] at h
      cases h
  · intro h
    rw [if_pos h]

theorem board_eq_some_iff {slots : set.Slots} {i : Fin set.capacity} {k : key} :
    set.board slots i = some k <-> slots i = k ∧ k ≠ set.emptyKey := by
  unfold board
  constructor
  · intro h
    by_cases hempty : slots i = set.emptyKey
    · rw [if_pos hempty] at h
      cases h
    · rw [if_neg hempty] at h
      have hk : slots i = k := Option.some.inj h
      exact ⟨hk, by rw [← hk]; exact hempty⟩
  · intro h
    rw [if_neg (by rw [h.left]; exact h.right), h.left]

theorem board_update {slots : set.Slots} {i : Fin set.capacity} {k : key}
    (hk : k ≠ set.emptyKey) :
    set.board (Function.update slots i k) = put (set.board slots) i k := by
  funext j
  by_cases hj : j = i
  · subst hj
    simp [board, put, hk]
  · simp [board, put, Function.update_of_ne hj]

/-!
# Lookups as searches
-/

theorem refLoop_eq_search {slots : set.Slots} {k : key}
    (hk : k ≠ set.emptyKey) :
    forall (left probe : Nat), set.refLoop slots k probe left =
      search (set.board slots) (set.slotIdx k) k probe left := by
  intro left
  induction left with
  | zero =>
      intro probe
      rfl
  | succ left ih =>
      intro probe
      by_cases hfound : slots (set.slotIdx k probe) = k
      · have hheld : set.board slots (set.slotIdx k probe) = some k :=
          board_eq_some_iff.mpr ⟨hfound, hk⟩
        simp [refLoop, search, hfound, hheld]
      · by_cases hempty : slots (set.slotIdx k probe) = set.emptyKey
        · have hfree : set.board slots (set.slotIdx k probe) = none :=
            board_eq_none_iff.mpr hempty
          rw [hempty] at hfound
          simp [refLoop, search, hempty, hfree, hfound]
        · have hheld : set.board slots (set.slotIdx k probe) =
              some (slots (set.slotIdx k probe)) :=
            board_eq_some_iff.mpr ⟨rfl, hempty⟩
          simp only [refLoop, search, hheld, if_neg hfound, if_neg hempty]
          exact ih (probe + 1)

theorem probeLoop_eq_refLoop (slots : set.Slots) (k : key) :
    forall (left probe : Nat),
      set.probeLoop slots k probe left false = set.refLoop slots k probe left := by
  intro left
  induction left with
  | zero =>
      intro probe
      rfl
  | succ left ih =>
      intro probe
      simp only [probeLoop, refLoop, ih]

/-- Both lookups give the same answer for every key. -/
theorem probeKernel_eq_contains (slots : set.Slots) (k : key) :
    set.probeKernel slots k = set.contains slots k :=
  probeLoop_eq_refLoop slots k set.capacity 0

theorem contains_eq_search (slots : set.Slots) {k : key}
    (hk : k ≠ set.emptyKey) :
    set.contains slots k =
      search (set.board slots) (set.slotIdx k) k 0 set.capacity :=
  refLoop_eq_search hk set.capacity 0

/-!
# One compare-and-swap
-/

/--
What one iteration of the insert loop does: take a free slot, leave because the
key is there already, or go on behind another key.
-/
theorem insertIteration_cases (slots : set.Slots) {k : key} (probe : Nat)
    (hk : k ≠ set.emptyKey) :
    (set.board slots (set.slotIdx k probe) = none ∧
      (set.insertIteration slots k probe).1 = InsertThread.returned k ∧
      set.board (set.insertIteration slots k probe).2 =
        put (set.board slots) (set.slotIdx k probe) k) ∨
    (set.board slots (set.slotIdx k probe) = some k ∧
      (set.insertIteration slots k probe).1 = InsertThread.returned k ∧
      (set.insertIteration slots k probe).2 = slots) ∨
    (exists other, set.board slots (set.slotIdx k probe) = some other ∧
      other ≠ k ∧
      (set.insertIteration slots k probe).1 =
        (if probe + 1 < set.capacity then InsertThread.probing k (probe + 1)
          else InsertThread.exhausted k) ∧
      (set.insertIteration slots k probe).2 = slots) := by
  by_cases hempty : slots (set.slotIdx k probe) = set.emptyKey
  · apply Or.inl
    refine ⟨board_eq_none_iff.mpr hempty, ?_, ?_⟩
    · simp [insertIteration, atomicCAS, hempty]
    · simp only [insertIteration, atomicCAS, hempty, if_true]
      exact board_update hk
  · apply Or.inr
    by_cases hfound : slots (set.slotIdx k probe) = k
    · apply Or.inl
      refine ⟨board_eq_some_iff.mpr ⟨hfound, hk⟩, ?_, ?_⟩
      · simp [insertIteration, atomicCAS, hfound]
      · simp only [insertIteration, atomicCAS, if_neg hempty]
    · apply Or.inr
      refine ⟨slots (set.slotIdx k probe),
        board_eq_some_iff.mpr ⟨rfl, hempty⟩, hfound, ?_, ?_⟩
      · simp [insertIteration, atomicCAS, hempty, hfound]
      · simp only [insertIteration, atomicCAS, if_neg hempty]

theorem extends_insertIteration (slots : set.Slots) {k : key} (probe : Nat)
    (hk : k ≠ set.emptyKey) :
    Extends (set.board slots)
      (set.board (set.insertIteration slots k probe).2) := by
  rcases insertIteration_cases slots probe hk with
    ⟨hfree, _, hboard⟩ | ⟨_, _, hslots⟩ | ⟨_, _, _, _, hslots⟩
  · rw [hboard]
    exact extends_put hfree k
  · rw [hslots]
    exact extends_refl _
  · rw [hslots]
    exact extends_refl _

/-!
# The invariant
-/

/-- What the progress of a thread says about the array. -/
def ThreadSound (slots : set.Slots) : InsertThread key -> Prop
  | .probing k probe =>
      probe < set.capacity ∧ Blocked (set.board slots) set.slotIdx k probe
  | .returned k => exists i, set.board slots i = some k
  | .exhausted k => Blocked (set.board slots) set.slotIdx k set.capacity

/-- Invariant of every run whose batches hold no empty key. -/
structure Sound (s : InsertState set) : Prop where
  realKeys : forall thread, thread ∈ s.threads -> thread.keyOf ≠ set.emptyKey
  wellPlaced : WellPlaced (set.board s.slots) set.slotIdx set.capacity
  inserted : forall i k, set.board s.slots i = some k ->
    exists thread, thread ∈ s.threads ∧ thread.keyOf = k
  threads : forall thread, thread ∈ s.threads -> ThreadSound s.slots thread

/-- A batch has no key equal to the empty key. -/
def RealKeys (_ : InsertState set) : InsertEvent key -> Prop
  | .insertAsync keys => forall k, k ∈ keys -> k ≠ set.emptyKey
  | .atomicCAS _ => True

theorem threadSound_mono {slots later : set.Slots} {thread : InsertThread key}
    (hext : Extends (set.board slots) (set.board later))
    (h : ThreadSound slots thread) : ThreadSound later thread := by
  cases thread with
  | probing k probe =>
      exact ⟨h.left, blocked_mono hext h.right⟩
  | returned k =>
      rcases h with ⟨i, hi⟩
      exact ⟨i, hext i k hi⟩
  | exhausted k =>
      exact blocked_mono hext h

theorem sound_initial : Sound set.initial := by
  have hfree : forall i, set.board set.filled i = none :=
    fun i => board_eq_none_iff.mpr rfl
  constructor
  · intro thread hthread
    cases hthread
  · intro i k hi
    rw [show set.board set.initial.slots i = none from hfree i] at hi
    cases hi
  · intro i k hi
    rw [show set.board set.initial.slots i = none from hfree i] at hi
    cases hi
  · intro thread hthread
    cases hthread

theorem sound_insertAsync {s : InsertState set} {keys : List key}
    (hs : Sound s) (hreal : forall k, k ∈ keys -> k ≠ set.emptyKey) :
    Sound { s with
      threads := s.threads ++ keys.map (fun k => InsertThread.probing k 0) } := by
  have hmem : forall thread,
      thread ∈ s.threads ++ keys.map (fun k => InsertThread.probing k 0) ->
      thread ∈ s.threads ∨ exists k, k ∈ keys ∧ thread = .probing k 0 := by
    intro thread hthread
    rcases List.mem_append.mp hthread with hold | hnew
    · exact Or.inl hold
    · rcases List.mem_map.mp hnew with ⟨k, hk, heq⟩
      exact Or.inr ⟨k, hk, heq.symm⟩
  constructor
  · intro thread hthread
    rcases hmem thread hthread with hold | ⟨k, hk, rfl⟩
    · exact hs.realKeys thread hold
    · exact hreal k hk
  · exact hs.wellPlaced
  · intro i k hi
    rcases hs.inserted i k hi with ⟨thread, hthread, hkey⟩
    exact ⟨thread, List.mem_append_left _ hthread, hkey⟩
  · intro thread hthread
    rcases hmem thread hthread with hold | ⟨k, _, rfl⟩
    · exact hs.threads thread hold
    · exact ⟨set.capacity_pos, blocked_zero _ _ k⟩

/-- What a step of the machine is: a launch or one iteration of one thread. -/
theorem insertMachine_step_cases {s t : InsertState set} {e : InsertEvent key}
    (h : set.insertMachine.step s e = some t) :
    (exists keys, e = .insertAsync keys ∧ t = { s with
      threads := s.threads ++ keys.map (fun k => InsertThread.probing k 0) }) ∨
    (exists thread k probe, e = .atomicCAS thread ∧
      s.threads[thread]? = some (.probing k probe) ∧
      t = { slots := (set.insertIteration s.slots k probe).2
            threads := s.threads.set thread
              (set.insertIteration s.slots k probe).1 }) := by
  cases e with
  | insertAsync keys =>
      exact Or.inl ⟨keys, rfl, (Option.some.inj h).symm⟩
  | atomicCAS thread =>
      apply Or.inr
      simp only [insertMachine] at h
      cases hthread : s.threads[thread]? with
      | none =>
          rw [hthread] at h
          cases h
      | some found =>
          rw [hthread] at h
          cases found with
          | probing k probe =>
              exact ⟨thread, k, probe, rfl, hthread, (Option.some.inj h).symm⟩
          | returned k => cases h
          | exhausted k => cases h

theorem keyOf_insertIteration (slots : set.Slots) (k : key) (probe : Nat) :
    (set.insertIteration slots k probe).1.keyOf = k := by
  simp only [insertIteration]
  split
  · rfl
  · split <;> rfl

/-- One compare-and-swap keeps every key well placed. -/
theorem wellPlaced_insertIteration {slots : set.Slots} {k : key} {probe : Nat}
    (hboard : WellPlaced (set.board slots) set.slotIdx set.capacity)
    (hk : k ≠ set.emptyKey) (hprobe : probe < set.capacity)
    (hblocked : Blocked (set.board slots) set.slotIdx k probe) :
    WellPlaced (set.board (set.insertIteration slots k probe).2)
      set.slotIdx set.capacity := by
  rcases insertIteration_cases slots probe hk with
    ⟨hfree, _, hnext⟩ | ⟨_, _, hslots⟩ | ⟨_, _, _, _, hslots⟩
  · rw [hnext]
    exact wellPlaced_put hboard hprobe hfree hblocked
  · rw [hslots]
    exact hboard
  · rw [hslots]
    exact hboard

/-- One compare-and-swap leaves the thread with a true account of its progress. -/
theorem threadSound_insertIteration {slots : set.Slots} {k : key} {probe : Nat}
    (hk : k ≠ set.emptyKey) (hprobe : probe < set.capacity)
    (hblocked : Blocked (set.board slots) set.slotIdx k probe) :
    ThreadSound (set.insertIteration slots k probe).2
      (set.insertIteration slots k probe).1 := by
  rcases insertIteration_cases slots probe hk with
    ⟨_, hthread, hnext⟩ | ⟨hheld, hthread, hslots⟩ |
      ⟨other, hheld, hne, hthread, hslots⟩
  · rw [hthread]
    refine ⟨set.slotIdx k probe, ?_⟩
    rw [hnext, put, Function.update_self]
  · rw [hthread, hslots]
    exact ⟨set.slotIdx k probe, hheld⟩
  · rw [hthread, hslots]
    have hnext := blocked_succ hblocked hheld hne
    by_cases hmore : probe + 1 < set.capacity
    · rw [if_pos hmore]
      exact ⟨hmore, hnext⟩
    · rw [if_neg hmore]
      have hlast : probe + 1 = set.capacity := by omega
      rw [hlast] at hnext
      exact hnext

theorem board_insertIteration_some {slots : set.Slots} {k x : key} {probe : Nat}
    {i : Fin set.capacity} (hk : k ≠ set.emptyKey)
    (h : set.board (set.insertIteration slots k probe).2 i = some x) :
    x = k ∨ set.board slots i = some x := by
  rcases insertIteration_cases slots probe hk with
    ⟨_, _, hnext⟩ | ⟨_, _, hslots⟩ | ⟨_, _, _, _, hslots⟩
  · rw [hnext, put] at h
    by_cases hi : i = set.slotIdx k probe
    · subst hi
      rw [Function.update_self] at h
      exact Or.inl (Option.some.inj h).symm
    · rw [Function.update_of_ne hi] at h
      exact Or.inr h
  · rw [hslots] at h
    exact Or.inr h
  · rw [hslots] at h
    exact Or.inr h

theorem sound_atomicCAS {s : InsertState set} {thread probe : Nat} {k : key}
    (hs : Sound s) (hthread : s.threads[thread]? = some (.probing k probe)) :
    Sound { slots := (set.insertIteration s.slots k probe).2
            threads := s.threads.set thread
              (set.insertIteration s.slots k probe).1 } := by
  have hmem : InsertThread.probing k probe ∈ s.threads :=
    List.mem_of_getElem? hthread
  have hk : k ≠ set.emptyKey := hs.realKeys _ hmem
  have hprogress : ThreadSound s.slots (.probing k probe) := hs.threads _ hmem
  have hext := extends_insertIteration s.slots probe hk
  have hlt : thread < s.threads.length := by
    rcases List.getElem?_eq_some_iff.mp hthread with ⟨hlt, _⟩
    exact hlt
  constructor
  · intro other hother
    rcases List.mem_or_eq_of_mem_set hother with hold | rfl
    · exact hs.realKeys other hold
    · rw [keyOf_insertIteration]
      exact hk
  · exact wellPlaced_insertIteration hs.wellPlaced hk hprogress.left
      hprogress.right
  · intro i x hx
    rcases board_insertIteration_some hk hx with rfl | hold
    · refine ⟨(set.insertIteration s.slots x probe).1, ?_,
        keyOf_insertIteration s.slots x probe⟩
      exact List.mem_set hlt _
    · rcases hs.inserted i x hold with ⟨other, hother, hkey⟩
      rcases List.mem_iff_getElem?.mp hother with ⟨j, hj⟩
      by_cases hjt : j = thread
      · subst hjt
        rw [hthread] at hj
        cases hj
        refine ⟨(set.insertIteration s.slots k probe).1, List.mem_set hlt _, ?_⟩
        rw [keyOf_insertIteration]
        exact hkey
      · refine ⟨other, ?_, hkey⟩
        apply List.mem_iff_getElem?.mpr
        refine ⟨j, ?_⟩
        rw [List.getElem?_set_ne (Ne.symm hjt)]
        exact hj
  · intro other hother
    rcases List.mem_or_eq_of_mem_set hother with hold | rfl
    · exact threadSound_mono hext (hs.threads other hold)
    · exact threadSound_insertIteration hk hprogress.left hprogress.right

/-- Every step keeps the invariant, given batches without the empty key. -/
theorem sound_step {s t : InsertState set} {e : InsertEvent key}
    (hs : Sound s) (hreal : RealKeys s e)
    (h : set.insertMachine.step s e = some t) : Sound t := by
  rcases insertMachine_step_cases h with
    ⟨keys, rfl, rfl⟩ | ⟨thread, k, probe, rfl, hthread, rfl⟩
  · exact sound_insertAsync hs hreal
  · exact sound_atomicCAS hs hthread

theorem sound_run {s : InsertState set} {events : List (InsertEvent key)}
    (hreal : set.insertMachine.Along RealKeys set.initial events)
    (hrun : set.insertMachine.run set.initial events = some s) : Sound s := by
  have hstep : forall s e t, Sound s -> RealKeys s e ->
      set.insertMachine.step s e = some t -> Sound t :=
    fun _ _ _ hs hok h => sound_step hs hok h
  exact Machine.invariant_run hstep sound_initial hreal hrun

/-- The lookups report exactly the keys that some slot holds. -/
theorem contains_iff_held {s : InsertState set} (hs : Sound s) {k : key}
    (hk : k ≠ set.emptyKey) :
    set.contains s.slots k = true <-> exists i, set.board s.slots i = some k := by
  rw [contains_eq_search s.slots hk]
  exact search_iff_held hs.wellPlaced k

end StaticSet
end Cuco
end Cuda2Rocm
