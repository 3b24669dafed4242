import Cuda2Rocm.Cuco.BloomFilter.Runs

/-!
# Added keys are found

Order of batches, order of threads and repeated keys leave no trace in the
array, and no later add takes a key away again.
-/

namespace Cuda2Rocm
namespace Cuco
namespace BloomFilter

open Foundation

variable {key : Type _} {filter : BloomFilter key}

/-- A thread that has left the kernel takes no further part in a run. -/
theorem finished_persists_step {s t : AddState filter} {e : AddEvent key}
    (h : filter.addMachine.step s e = some t) {thread : AddThread key}
    (hthread : thread ∈ s.threads)
    (hdone : thread.finished filter.policy = true) : thread ∈ t.threads := by
  rcases addMachine_step_cases h with
    ⟨keys, rfl, rfl⟩ | ⟨i, running, rfl, hrunning, hopen, rfl⟩
  · exact List.mem_append_left _ hthread
  · rcases List.mem_iff_getElem?.mp hthread with ⟨j, hj⟩
    have hne : i ≠ j := by
      intro heq
      rw [heq, hj] at hrunning
      cases hrunning
      rw [hdone] at hopen
      cases hopen
    apply List.mem_iff_getElem?.mpr
    refine ⟨j, ?_⟩
    rw [List.getElem?_set_ne hne]
    exact hj

theorem finished_persists {s t : AddState filter} {events : List (AddEvent key)}
    (hrun : filter.addMachine.run s events = some t) {thread : AddThread key}
    (hthread : thread ∈ s.threads)
    (hdone : thread.finished filter.policy = true) : thread ∈ t.threads := by
  have hstep : forall s e t, thread ∈ s.threads ->
      filter.addMachine.step s e = some t -> thread ∈ t.threads :=
    fun _ _ _ hmem h => finished_persists_step h hmem hdone
  exact Machine.invariant_run_always hstep hthread hrun

/-- Runs that add the same keys leave the same array. -/
theorem bits_of_same_keys {s t : AddState filter}
    {first second : List (AddEvent key)}
    (hfirst : filter.addMachine.run filter.initial first = some s)
    (hsecond : filter.addMachine.run filter.initial second = some t)
    (hs : AllAdded s) (ht : AllAdded t)
    (hsame : forall k, k ∈ addedKeys first <-> k ∈ addedKeys second) :
    s.bits = t.bits := by
  apply ones_injective
  have hkeys : { k | k ∈ addedKeys first } = { k | k ∈ addedKeys second } :=
    Set.ext hsame
  rw [ones_of_run hfirst hs, ones_of_run hsecond ht, hkeys]

/-- The array of a union of key sets is the or of their arrays. -/
theorem bits_of_union {s t u : AddState filter}
    {first second both : List (AddEvent key)}
    (hfirst : filter.addMachine.run filter.initial first = some s)
    (hsecond : filter.addMachine.run filter.initial second = some t)
    (hboth : filter.addMachine.run filter.initial both = some u)
    (hs : AllAdded s) (ht : AllAdded t) (hu : AllAdded u)
    (hunion : forall k, k ∈ addedKeys both <->
      k ∈ addedKeys first ∨ k ∈ addedKeys second) :
    u.bits = fun j => s.bits j ||| t.bits j := by
  apply ones_injective
  have hkeys : { k | k ∈ addedKeys both } =
      { k | k ∈ addedKeys first } ∪ { k | k ∈ addedKeys second } :=
    Set.ext hunion
  rw [ones_or, ones_of_run hfirst hs, ones_of_run hsecond ht,
    ones_of_run hboth hu, hkeys, positionsOf_union]

/-- An added key is reported in every later state of the filter. -/
theorem probe_of_added {s t : AddState filter} {events more : List (AddEvent key)}
    (hrun : filter.addMachine.run filter.initial events = some s)
    (hdone : AllAdded s) (hmore : filter.addMachine.run s more = some t)
    {k : key} (hk : k ∈ addedKeys events) : filter.probeKernel t.bits k = true := by
  have hkeys : s.threads.map AddThread.keyOf = addedKeys events :=
    keys_of_add_run hrun
  rw [← hkeys] at hk
  rcases List.mem_map.mp hk with ⟨thread, hthread, rfl⟩
  have hfinished := hdone thread hthread
  have hall : filter.addMachine.run filter.initial (events ++ more) = some t := by
    rw [Machine.run_append, hrun]
    exact hmore
  exact probe_of_finished (exact_run hall)
    (finished_persists hmore hthread hfinished) hfinished

/--
The array depends on the set of added keys alone, the array of a union is the or
of the arrays, and every added key is found from then on.
-/
theorem added_keys_found_in_any_order (filter : BloomFilter key) :
    (forall (first second : List (AddEvent key)) (s t : AddState filter),
      filter.addMachine.run filter.initial first = some s ->
      filter.addMachine.run filter.initial second = some t ->
      AllAdded s -> AllAdded t ->
      (forall k, k ∈ addedKeys first <-> k ∈ addedKeys second) ->
      s.bits = t.bits) ∧
    (forall (first second both : List (AddEvent key)) (s t u : AddState filter),
      filter.addMachine.run filter.initial first = some s ->
      filter.addMachine.run filter.initial second = some t ->
      filter.addMachine.run filter.initial both = some u ->
      AllAdded s -> AllAdded t -> AllAdded u ->
      (forall k, k ∈ addedKeys both <->
        k ∈ addedKeys first ∨ k ∈ addedKeys second) ->
      u.bits = fun j => s.bits j ||| t.bits j) ∧
    (forall (events more : List (AddEvent key)) (s t : AddState filter),
      filter.addMachine.run filter.initial events = some s ->
      AllAdded s -> filter.addMachine.run s more = some t ->
      forall k, k ∈ addedKeys events -> filter.probeKernel t.bits k = true) := by
  refine ⟨?_, ?_, ?_⟩
  · intro first second s t hfirst hsecond hs ht hsame
    exact bits_of_same_keys hfirst hsecond hs ht hsame
  · intro first second both s t u hfirst hsecond hboth hs ht hu hunion
    exact bits_of_union hfirst hsecond hboth hs ht hu hunion
  · intro events more s t hrun hdone hmore k hk
    exact probe_of_added hrun hdone hmore hk

/-- One block under a policy of twenty hashes, of which the kernels use sixteen. -/
def oneBlock : BloomFilter UInt64 :=
  { policy :=
      { wordBits := 32
        wordsPerBlock := 1
        numHashFunctions := 20
        bits_pos := by decide
        hashes_pos := by decide
        hash := fun k _ i => k + UInt64.ofNat i }
    blockExtent := 1
    blockExtent_pos := by decide
    words_le := by decide }

/-- A batch of two keys, whose threads take turns. -/
def inTurns : List (AddEvent UInt64) :=
  .addAsync [3, 5] :: (List.replicate 16 [.atomicOr 0, .atomicOr 1]).flatten

/-- One of the keys begins alone, and a batch of both overtakes it. -/
def overtaking : List (AddEvent UInt64) :=
  .addAsync [5] :: .atomicOr 0 :: .addAsync [3, 5] ::
    (List.replicate 16 [.atomicOr 2, .atomicOr 1]).flatten ++ List.replicate 15 (.atomicOr 0)

/-- Both runs leave one array, in which the keys are found. -/
theorem added_keys_found_in_any_order_overtaking :
    exists s t, oneBlock.addMachine.run oneBlock.initial inTurns = some s ∧
      oneBlock.addMachine.run oneBlock.initial overtaking = some t ∧ s.bits = t.bits ∧
      oneBlock.probeKernel t.bits 3 = true ∧ oneBlock.probeKernel t.bits 5 = true := by
  rcases added_keys_found_in_any_order oneBlock with ⟨hsame, _, hfound⟩
  have hkeys : forall k : UInt64, k ∈ addedKeys inTurns <-> k ∈ addedKeys overtaking := by
    intro k
    change k ∈ [3, 5] <-> k ∈ [5, 3, 5]
    simp only [List.mem_cons, List.not_mem_nil, or_false]
    tauto
  have hfinds := hfound overtaking [] _ _ rfl (by decide) rfl
  exact ⟨_, _, rfl, rfl, hsame inTurns overtaking _ _ rfl rfl (by decide) (by decide) hkeys,
    hfinds 3 (by decide), hfinds 5 (by decide)⟩

end BloomFilter
end Cuco
end Cuda2Rocm
