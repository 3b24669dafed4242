import Cuda2Rocm.Cuco.StaticSet.Runs

/-!
# Which inserted keys are found again

A thread that runs out of probes drops its key without a trace.  The stride of
the probe sequence is odd but need not be coprime to the capacity, so this
happens while slots are still free.  The lookups find every inserted key exactly
when no thread fails at its last probe, and that is certain as long as each key
can reach as many slots as there are keys.
-/

namespace Cuda2Rocm
namespace Cuco
namespace StaticSet

open Foundation
open Foundation.OpenAddressing

variable {key : Type _} [DecidableEq key] {set : StaticSet key}

/-- All keys of the batches launched in a run, in order. -/
def insertedKeys : List (InsertEvent key) -> List key
  | [] => []
  | .insertAsync keys :: rest => keys ++ insertedKeys rest
  | .atomicCAS _ :: rest => insertedKeys rest

omit [DecidableEq key] in
theorem insertedKeys_append (events later : List (InsertEvent key)) :
    insertedKeys (events ++ later) = insertedKeys events ++ insertedKeys later := by
  induction events with
  | nil => rfl
  | cons e rest ih =>
      cases e with
      | insertAsync keys => simp [insertedKeys, ih]
      | atomicCAS thread => simp [insertedKeys, ih]

/-- A thread at its last probe meets a free slot or its own key. -/
def LastProbeLands (s : InsertState set) : InsertEvent key -> Prop
  | .insertAsync _ => True
  | .atomicCAS thread =>
      forall k probe, s.threads[thread]? = some (.probing k probe) ->
        probe + 1 = set.capacity ->
        s.slots (set.slotIdx k probe) = set.emptyKey ∨
          s.slots (set.slotIdx k probe) = k

/-- Some thread has run out of probes. -/
def SomeExhausted (s : InsertState set) : Prop :=
  exists k, InsertThread.exhausted k ∈ s.threads

omit [DecidableEq key] in
/-- A step of a thread leaves the keys of all threads alone. -/
theorem map_keyOf_set {threads : List (InsertThread key)} {thread : Nat}
    {old new : InsertThread key} (hold : threads[thread]? = some old)
    (hkey : new.keyOf = old.keyOf) :
    (threads.set thread new).map InsertThread.keyOf =
      threads.map InsertThread.keyOf := by
  rcases List.getElem?_eq_some_iff.mp hold with ⟨hlt, rfl⟩
  have hbound : thread < (threads.map InsertThread.keyOf).length := by
    simpa using hlt
  have hget : threads[thread].keyOf = (threads.map InsertThread.keyOf)[thread] := by
    simp
  rw [List.map_set, hkey, hget]
  exact List.set_getElem_self hbound

theorem keys_of_run {s t : InsertState set} {events : List (InsertEvent key)}
    (h : set.insertMachine.run s events = some t) :
    t.threads.map InsertThread.keyOf =
      s.threads.map InsertThread.keyOf ++ insertedKeys events := by
  induction events generalizing s with
  | nil =>
      cases h
      simp [insertedKeys]
  | cons e rest ih =>
      rcases Machine.run_cons_some h with ⟨u, hu, hrest⟩
      rw [ih hrest]
      rcases insertMachine_step_cases hu with
        ⟨keys, rfl, rfl⟩ | ⟨thread, k, probe, rfl, hthread, rfl⟩
      · simp [insertedKeys, InsertThread.keyOf, Function.comp_def]
      · have hsame : (s.threads.set thread
            (set.insertIteration s.slots k probe).1).map InsertThread.keyOf =
            s.threads.map InsertThread.keyOf :=
          map_keyOf_set hthread (keyOf_insertIteration s.slots k probe)
        simp only [insertedKeys, hsame]

theorem realKeys_of_insertedKeys {s : InsertState set} :
    forall {events : List (InsertEvent key)},
      (forall k, k ∈ insertedKeys events -> k ≠ set.emptyKey) ->
      set.insertMachine.Along RealKeys s events := by
  intro events
  induction events generalizing s with
  | nil =>
      intro _
      trivial
  | cons e rest ih =>
      intro h t _
      cases e with
      | insertAsync keys =>
          exact ⟨fun k hk => h k (List.mem_append_left _ hk),
            ih (fun k hk => h k (List.mem_append_right _ hk))⟩
      | atomicCAS thread =>
          exact ⟨trivial, ih h⟩

theorem someExhausted_step {s t : InsertState set} {e : InsertEvent key}
    (hs : SomeExhausted s) (h : set.insertMachine.step s e = some t) :
    SomeExhausted t := by
  rcases hs with ⟨k, hk⟩
  refine ⟨k, ?_⟩
  rcases insertMachine_step_cases h with
    ⟨keys, rfl, rfl⟩ | ⟨thread, x, probe, rfl, hthread, rfl⟩
  · exact List.mem_append_left _ hk
  · rcases List.mem_iff_getElem?.mp hk with ⟨j, hj⟩
    have hne : thread ≠ j := by
      intro heq
      rw [← heq, hthread] at hj
      cases hj
    apply List.mem_iff_getElem?.mpr
    refine ⟨j, ?_⟩
    rw [List.getElem?_set_ne hne]
    exact hj

/-- A thread that fails at its last probe is exhausted by it. -/
theorem someExhausted_of_not_lands {s t : InsertState set} {e : InsertEvent key}
    (h : set.insertMachine.step s e = some t) (hfail : ¬ LastProbeLands s e) :
    SomeExhausted t := by
  rcases insertMachine_step_cases h with
    ⟨keys, rfl, rfl⟩ | ⟨thread, k, probe, rfl, hthread, rfl⟩
  · exact absurd trivial hfail
  · have hmiss : probe + 1 = set.capacity ∧
        ¬ (s.slots (set.slotIdx k probe) = set.emptyKey ∨
          s.slots (set.slotIdx k probe) = k) := by
      by_contra hcontra
      apply hfail
      intro x p hx hp
      rw [hthread] at hx
      cases hx
      by_contra hslot
      exact hcontra ⟨hp, hslot⟩
    have hlt : thread < s.threads.length :=
      (List.getElem?_eq_some_iff.mp hthread).choose
    have hnext : (set.insertIteration s.slots k probe).1 = .exhausted k := by
      have hend : ¬ probe + 1 < set.capacity := by omega
      simp [insertIteration, atomicCAS, hmiss.right, hend]
    refine ⟨k, ?_⟩
    rw [← hnext]
    exact List.mem_set hlt _

/-- No thread is newly exhausted by a step whose last probe lands. -/
theorem not_someExhausted_step {s t : InsertState set} {e : InsertEvent key}
    (hsound : Sound s) (hs : ¬ SomeExhausted s) (hlands : LastProbeLands s e)
    (h : set.insertMachine.step s e = some t) : ¬ SomeExhausted t := by
  intro hexhausted
  rcases hexhausted with ⟨x, hx⟩
  rcases insertMachine_step_cases h with
    ⟨keys, rfl, rfl⟩ | ⟨thread, k, probe, rfl, hthread, rfl⟩
  · rcases List.mem_append.mp hx with hold | hnew
    · exact hs ⟨x, hold⟩
    · rcases List.mem_map.mp hnew with ⟨_, _, heq⟩
      cases heq
  · rcases List.mem_or_eq_of_mem_set hx with hold | heq
    · exact hs ⟨x, hold⟩
    · have hprogress := hsound.threads _ (List.mem_of_getElem? hthread)
      by_cases hmore : probe + 1 < set.capacity
      · simp only [insertIteration, hmore, if_true] at heq
        split at heq <;> cases heq
      · have hlast : probe + 1 = set.capacity := by
          have := hprogress.left
          omega
        have hslot := hlands k probe hthread hlast
        simp [insertIteration, atomicCAS, hslot] at heq

/-- The keys of exhausted threads are the only inserted keys not found. -/
theorem all_found_iff {s : InsertState set} (hs : Sound s)
    (hdone : forall thread, thread ∈ s.threads -> thread.finished = true) :
    (forall thread, thread ∈ s.threads ->
      set.contains s.slots thread.keyOf = true) <-> ¬ SomeExhausted s := by
  constructor
  · intro hfound hexhausted
    rcases hexhausted with ⟨k, hk⟩
    have hsearch := search_of_blocked (hs.threads _ hk) set.capacity 0
      (Nat.zero_add _)
    have hcontains := hfound _ hk
    rw [contains_eq_search s.slots (hs.realKeys _ hk)] at hcontains
    rw [show (InsertThread.exhausted k).keyOf = k from rfl] at hcontains
    rw [hsearch] at hcontains
    cases hcontains
  · intro hnone thread hthread
    rw [contains_iff_held hs (hs.realKeys _ hthread)]
    have hsound := hs.threads thread hthread
    cases thread with
    | probing k probe => cases hdone _ hthread
    | returned k => exact hsound
    | exhausted k => exact absurd ⟨k, hthread⟩ hnone

/-!
# Every inserted key is found exactly when every last probe lands
-/

/--
Once all threads have left the kernel, both lookups report every inserted key
exactly when each compare-and-swap at a last probe met a free slot or its key.
-/
theorem inserted_keys_found_iff {events : List (InsertEvent key)}
    {s : InsertState set}
    (hreal : forall k, k ∈ insertedKeys events -> k ≠ set.emptyKey)
    (hrun : set.insertMachine.run set.initial events = some s)
    (hdone : forall thread, thread ∈ s.threads -> thread.finished = true) :
    (forall k, k ∈ insertedKeys events ->
      set.contains s.slots k = true ∧ set.probeKernel s.slots k = true) <->
    set.insertMachine.Along LastProbeLands set.initial events := by
  have hrealRun : set.insertMachine.Along RealKeys set.initial events :=
    realKeys_of_insertedKeys hreal
  have hsound : Sound s := sound_run hrealRun hrun
  have hkeys : s.threads.map InsertThread.keyOf = insertedKeys events :=
    keys_of_run hrun
  have hfound : (forall k, k ∈ insertedKeys events ->
      set.contains s.slots k = true ∧ set.probeKernel s.slots k = true) <->
      ¬ SomeExhausted s := by
    rw [← all_found_iff hsound hdone, ← hkeys]
    constructor
    · intro h thread hthread
      exact (h _ (List.mem_map_of_mem hthread)).left
    · intro h k hk
      rcases List.mem_map.mp hk with ⟨thread, hthread, rfl⟩
      rw [probeKernel_eq_contains]
      exact ⟨h thread hthread, h thread hthread⟩
  rw [hfound]
  constructor
  · intro hnone
    exact Machine.along_of_not_closed
      (fun _ _ _ hc hstep => someExhausted_step hc hstep)
      (fun _ _ _ hstep hfail => someExhausted_of_not_lands hstep hfail)
      hrun hnone
  · intro hlands
    have hstep : forall s e t, (Sound s ∧ ¬ SomeExhausted s) ->
        (RealKeys s e ∧ LastProbeLands s e) ->
        set.insertMachine.step s e = some t -> Sound t ∧ ¬ SomeExhausted t := by
      intro s e t hinv hok h
      exact ⟨sound_step hinv.left hok.left h,
        not_someExhausted_step hinv.left hinv.right hok.right h⟩
    have hstart : Sound set.initial ∧ ¬ SomeExhausted set.initial := by
      refine ⟨sound_initial, ?_⟩
      intro hexhausted
      rcases hexhausted with ⟨k, hk⟩
      cases hk
    exact (Machine.invariant_run hstep hstart
      (Machine.throughout_and hrealRun hlands) hrun).right

/-!
# A dropped key

Three slots, 64-bit keys hashed to themselves.  Both keys below start at slot
zero with a stride divisible by three, so the second never leaves the slot that
the first one took.
-/

/-- A set of three slots over 64-bit keys with the identity hash. -/
def threeSlots : StaticSet UInt64 :=
  { capacity := 3
    capacity_pos := by decide
    capacity_le := by decide
    emptyKey := 0
    hash := { hash_ := fun k => k } }

/-- One batch of two keys; the second thread makes all three of its probes. -/
def twoKeyRun : List (InsertEvent UInt64) :=
  [.insertAsync [12884901888, 12884901891], .atomicCAS 0, .atomicCAS 1,
    .atomicCAS 1, .atomicCAS 1]

theorem twoKeyRun_real (k : UInt64) (hk : k ∈ insertedKeys twoKeyRun) :
    k ≠ threeSlots.emptyKey := by
  have hall : (insertedKeys twoKeyRun).all (fun k => decide (k ≠ threeSlots.emptyKey)) =
      true := by decide
  exact of_decide_eq_true (List.all_eq_true.mp hall k hk)

/-- The exact condition read at the run above, where the second key fails it. -/
theorem inserted_keys_found_iff_twoKeyRun :
    exists s, threeSlots.insertMachine.run threeSlots.initial twoKeyRun = some s ∧
      ((forall k, k ∈ insertedKeys twoKeyRun ->
        threeSlots.contains s.slots k = true ∧
          threeSlots.probeKernel s.slots k = true) <->
        threeSlots.insertMachine.Along LastProbeLands threeSlots.initial
          twoKeyRun) :=
  ⟨_, rfl, inserted_keys_found_iff twoKeyRun_real rfl (by decide)⟩

/-- The constructor accepts the set, and after the batch one of two keys in three
slots is gone although every thread has finished. -/
theorem inserted_key_not_found :
    construct 3 8 0 { hash_ := fun k => k } true true = .ok threeSlots ∧
    (insertedKeys twoKeyRun).toFinset.card ≤ threeSlots.capacity ∧
    (forall k, k ∈ insertedKeys twoKeyRun -> k ≠ threeSlots.emptyKey) ∧
    exists s, threeSlots.insertMachine.run threeSlots.initial twoKeyRun = some s ∧
      (forall thread, thread ∈ s.threads -> thread.finished = true) ∧
      12884901891 ∈ insertedKeys twoKeyRun ∧
      threeSlots.contains s.slots 12884901891 = false ∧
      threeSlots.probeKernel s.slots 12884901891 = false := by
  refine ⟨by rfl, by decide, twoKeyRun_real, _, rfl, ?_, by decide, by decide, by decide⟩
  decide

/-!
# Room for every key
-/

/--
Every inserted key is found once all threads have left the kernel, if each one
can reach as many slots as there are different keys.
-/
theorem inserted_keys_found_of_room {events : List (InsertEvent key)}
    {s : InsertState set}
    (hreal : forall k, k ∈ insertedKeys events -> k ≠ set.emptyKey)
    (hroom : forall k, k ∈ insertedKeys events ->
      (insertedKeys events).toFinset.card ≤
        (reach set.slotIdx k set.capacity).card)
    (hrun : set.insertMachine.run set.initial events = some s)
    (hdone : forall thread, thread ∈ s.threads -> thread.finished = true) :
    forall k, k ∈ insertedKeys events ->
      set.contains s.slots k = true ∧ set.probeKernel s.slots k = true := by
  have hrealRun : set.insertMachine.Along RealKeys set.initial events :=
    realKeys_of_insertedKeys hreal
  have hsound : Sound s := sound_run hrealRun hrun
  have hkeys : s.threads.map InsertThread.keyOf = insertedKeys events :=
    keys_of_run hrun
  have hmem : forall thread, thread ∈ s.threads ->
      thread.keyOf ∈ insertedKeys events := by
    intro thread hthread
    rw [← hkeys]
    exact List.mem_map_of_mem hthread
  have hnone : ¬ SomeExhausted s := by
    intro hexhausted
    rcases hexhausted with ⟨k, hk⟩
    have hkIn : k ∈ insertedKeys events := hmem _ hk
    have hheld : forall i x, set.board s.slots i = some x ->
        x ∈ (insertedKeys events).toFinset := by
      intro i x hx
      rcases hsound.inserted i x hx with ⟨thread, hthread, rfl⟩
      exact List.mem_toFinset.mpr (hmem thread hthread)
    have hfew := card_reach_le_of_blocked hsound.wellPlaced hheld
      (hsound.threads _ hk)
    have hless := Finset.card_erase_lt_of_mem (List.mem_toFinset.mpr hkIn)
    have hmany := hroom k hkIn
    omega
  intro k hk
  rw [← hkeys] at hk
  rcases List.mem_map.mp hk with ⟨thread, hthread, rfl⟩
  have hfound := (all_found_iff hsound hdone).mpr hnone thread hthread
  rw [probeKernel_eq_contains]
  exact ⟨hfound, hfound⟩

end StaticSet
end Cuco
end Cuda2Rocm
