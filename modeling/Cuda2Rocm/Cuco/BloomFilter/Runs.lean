import Cuda2Rocm.Cuco.BloomFilter.Model

/-!
# Runs of add threads

A bit array stands for the set of its one bits.  An atomic or adds one position
to that set, so however the threads interleave, the array ends up with the
positions of all added keys and nothing else.
-/

namespace Cuda2Rocm
namespace Cuco
namespace BloomFilter

open Foundation

variable {key : Type _} (filter : BloomFilter key)

/-- A bit of the array: its word and its offset in the word. -/
abbrev Position := Fin filter.words × Nat

/-- The one bits of an array. -/
def ones (bits : filter.Bits) : Set filter.Position :=
  { p | (bits p.1).getLsbD p.2 = true }

/-- The bit that the `i`-th hash of a key stands for. -/
def position (k : key) (i : Nat) : filter.Position :=
  (filter.wordOf k i, filter.bitOffset k i)

/-- The bits of the first `n` hashes of a key. -/
def positionsBelow (k : key) (n : Nat) : Set filter.Position :=
  { p | exists i, i < n ∧ filter.position k i = p }

/-- All bits of a key. -/
def positions (k : key) : Set filter.Position :=
  filter.positionsBelow k filter.policy.hashCount

/-- All bits of a set of keys. -/
def positionsOf (keys : Set key) : Set filter.Position :=
  { p | exists k, k ∈ keys ∧ p ∈ filter.positions k }

variable {filter}

theorem positionsOf_union (first second : Set key) :
    filter.positionsOf (first ∪ second) =
      filter.positionsOf first ∪ filter.positionsOf second := by
  ext p
  constructor
  · rintro ⟨k, hk, hp⟩
    rcases hk with hfirst | hsecond
    · exact Or.inl ⟨k, hfirst, hp⟩
    · exact Or.inr ⟨k, hsecond, hp⟩
  · rintro (⟨k, hk, hp⟩ | ⟨k, hk, hp⟩)
    · exact ⟨k, Or.inl hk, hp⟩
    · exact ⟨k, Or.inr hk, hp⟩

/-!
# Arrays as sets
-/

/-- An array is determined by its one bits. -/
theorem ones_injective {bits other : filter.Bits}
    (h : filter.ones bits = filter.ones other) : bits = other := by
  funext j
  apply BitVec.eq_of_getLsbD_eq
  intro b _
  have hmem : (j, b) ∈ filter.ones bits <-> (j, b) ∈ filter.ones other := by
    rw [h]
  have hiff : (bits j).getLsbD b = true <-> (other j).getLsbD b = true := hmem
  cases hleft : (bits j).getLsbD b <;> cases hright : (other j).getLsbD b
  · rfl
  · rw [hleft, hright] at hiff
    exact absurd (hiff.mpr rfl) (by decide)
  · rw [hleft, hright] at hiff
    exact absurd (hiff.mp rfl) (by decide)
  · rfl

theorem ones_zeroed : filter.ones filter.zeroed = ∅ := by
  ext p
  constructor
  · intro hp
    change (0 : BitVec filter.policy.wordBits).getLsbD p.2 = true at hp
    simp at hp
  · intro hp
    cases hp

theorem ones_or (bits other : filter.Bits) :
    filter.ones (fun j => bits j ||| other j) =
      filter.ones bits ∪ filter.ones other := by
  ext p
  simp [ones, BitVec.getLsbD_or]

theorem getLsbD_mask (k : key) (i b : Nat) :
    (filter.mask k i).getLsbD b = true <-> b = filter.bitOffset k i := by
  have hlt := filter.bitOffset_lt k i
  simp only [mask, BitVec.getLsbD_shiftLeft, BitVec.getLsbD_ofNat,
    Bool.and_eq_true, decide_eq_true_eq, Bool.not_eq_true', decide_eq_false_iff_not]
  constructor
  · rintro ⟨⟨_, hge⟩, _, hbit⟩
    by_contra hne
    have hpos : b - filter.bitOffset k i ≠ 0 := by omega
    rw [Nat.testBit_one_eq_true_iff_self_eq_zero] at hbit
    exact hpos hbit
  · intro hb
    subst hb
    refine ⟨⟨hlt, by omega⟩, by omega, ?_⟩
    simp

/-- One atomic or adds the position of its hash. -/
theorem ones_addIteration (bits : filter.Bits) (k : key) (i : Nat) :
    filter.ones (filter.addIteration bits k i) =
      insert (filter.position k i) (filter.ones bits) := by
  ext p
  rcases p with ⟨j, b⟩
  by_cases hj : j = filter.wordOf k i
  · subst hj
    simp only [ones, addIteration, Set.mem_ofPred_eq, Function.update_self,
      BitVec.getLsbD_or, Bool.or_eq_true, getLsbD_mask, Set.mem_insert_iff,
      position, Prod.mk.injEq, true_and]
    exact or_comm
  · have hne : (j, b) ≠ filter.position k i := by
      intro heq
      exact hj (congrArg Prod.fst heq)
    simp only [ones, addIteration, Set.mem_ofPred_eq, Function.update_of_ne hj,
      Set.mem_insert_iff, hne, false_or]

/-- A masked word vanishes exactly when its bit is not set. -/
theorem masked_eq_zero_iff (bits : filter.Bits) (k : key) (i : Nat) :
    bits (filter.wordOf k i) &&& filter.mask k i = 0 <->
      filter.position k i ∉ filter.ones bits := by
  have hbit : (filter.mask k i).getLsbD (filter.bitOffset k i) = true :=
    (getLsbD_mask k i _).mpr rfl
  constructor
  · intro hzero hmem
    have hone : (bits (filter.wordOf k i)).getLsbD (filter.bitOffset k i) = true :=
      hmem
    have hand : (bits (filter.wordOf k i) &&& filter.mask k i).getLsbD
        (filter.bitOffset k i) = true := by
      rw [BitVec.getLsbD_and, hone, hbit]
      rfl
    rw [hzero] at hand
    simp at hand
  · intro hnot
    apply BitVec.eq_of_getLsbD_eq
    intro b _
    rw [BitVec.getLsbD_and]
    by_cases hb : (filter.mask k i).getLsbD b = true
    · have hoffset := (getLsbD_mask k i b).mp hb
      subst hoffset
      have hoff : (bits (filter.wordOf k i)).getLsbD (filter.bitOffset k i) = false := by
        cases h : (bits (filter.wordOf k i)).getLsbD (filter.bitOffset k i) with
        | false => rfl
        | true => exact absurd h hnot
      rw [hoff]
      simp
    · rw [Bool.not_eq_true] at hb
      rw [hb]
      simp

/-!
# Probing
-/

theorem probeLoop_false (bits : filter.Bits) (k : key) (left i : Nat) :
    filter.probeLoop bits k i left false = false := by
  cases left with
  | zero => rfl
  | succ left =>
      simp only [probeLoop]
      split
      · rfl
      · rfl

theorem probeLoop_iff (bits : filter.Bits) (k : key) :
    forall (left i : Nat), i + left = 16 ->
      (filter.probeLoop bits k i left true = true <->
        forall j, i ≤ j -> j < filter.policy.hashCount ->
          filter.position k j ∈ filter.ones bits) := by
  intro left
  induction left with
  | zero =>
      intro i hi
      have hcount := filter.policy.hashCount_le
      constructor
      · intro _ j hij hj
        omega
      · intro _
        rfl
  | succ left ih =>
      intro i hi
      by_cases hend : i ≥ filter.policy.hashCount
      · simp only [probeLoop, hend, if_true]
        constructor
        · intro _ j hij hj
          omega
        · intro _
          trivial
      · by_cases hset : filter.position k i ∈ filter.ones bits
        · have hword : ¬ bits (filter.wordOf k i) &&& filter.mask k i = 0 :=
            fun hzero => (masked_eq_zero_iff bits k i).mp hzero hset
          simp only [probeLoop, if_neg hend, if_neg hword, Bool.true_eq_false,
            if_false]
          rw [ih (i + 1) (by omega)]
          constructor
          · intro h j hij hj
            rcases Nat.eq_or_lt_of_le hij with heq | hlt
            · rw [← heq]
              exact hset
            · exact h j hlt hj
          · intro h j hij hj
            exact h j (by omega) hj
        · have hword : bits (filter.wordOf k i) &&& filter.mask k i = 0 :=
            (masked_eq_zero_iff bits k i).mpr hset
          simp only [probeLoop, if_neg hend, if_pos hword, Bool.true_eq_false,
            if_false, probeLoop_false]
          constructor
          · intro h
            cases h
          · intro h
            exact absurd (h i (Nat.le_refl i) (by omega)) hset

/-- A probe reports a key exactly when all its bits are set. -/
theorem probeKernel_iff (bits : filter.Bits) (k : key) :
    filter.probeKernel bits k = true <->
      filter.positions k ⊆ filter.ones bits := by
  unfold probeKernel
  rw [probeLoop_iff bits k 16 0 rfl]
  constructor
  · rintro h p ⟨i, hi, rfl⟩
    exact h i (Nat.zero_le i) hi
  · intro h j _ hj
    exact h ⟨j, hj, rfl⟩

/-!
# The invariant
-/

/-- The one bits are those of the iterations that the threads have made. -/
def Exact (s : AddState filter) : Prop :=
  filter.ones s.bits =
    { p | exists thread, thread ∈ s.threads ∧
      p ∈ filter.positionsBelow thread.keyOf thread.next }

theorem finished_iff (thread : AddThread key) :
    thread.finished filter.policy = true <->
      filter.policy.hashCount ≤ thread.next := by
  have hcount := filter.policy.hashCount_le
  simp only [AddThread.finished, decide_eq_true_eq]
  constructor
  · intro h
    omega
  · intro h
    exact Or.inr h

/-- What a step of the machine is: a launch or one iteration of one thread. -/
theorem addMachine_step_cases {s t : AddState filter} {e : AddEvent key}
    (h : filter.addMachine.step s e = some t) :
    (exists keys, e = .addAsync keys ∧ t = { s with
      threads := s.threads ++ keys.map (fun k => { keyOf := k, next := 0 }) }) ∨
    (exists thread running, e = .atomicOr thread ∧
      s.threads[thread]? = some running ∧
      running.finished filter.policy = false ∧
      t = { bits := filter.addIteration s.bits running.keyOf running.next
            threads := s.threads.set thread
              { running with next := running.next + 1 } }) := by
  cases e with
  | addAsync keys =>
      exact Or.inl ⟨keys, rfl, (Option.some.inj h).symm⟩
  | atomicOr thread =>
      apply Or.inr
      simp only [addMachine] at h
      cases hthread : s.threads[thread]? with
      | none =>
          rw [hthread] at h
          cases h
      | some running =>
          rw [hthread] at h
          cases hfinished : running.finished filter.policy with
          | true =>
              simp [hfinished] at h
          | false =>
              simp only [hfinished, Bool.false_eq_true, if_false] at h
              exact ⟨thread, running, rfl, hthread, hfinished,
                (Option.some.inj h).symm⟩

theorem positionsBelow_succ (k : key) (n : Nat) :
    filter.positionsBelow k (n + 1) =
      insert (filter.position k n) (filter.positionsBelow k n) := by
  ext p
  constructor
  · rintro ⟨i, hi, rfl⟩
    rcases Nat.lt_succ_iff_lt_or_eq.mp hi with hlt | heq
    · exact Or.inr ⟨i, hlt, rfl⟩
    · subst heq
      exact Or.inl rfl
  · rintro (rfl | ⟨i, hi, rfl⟩)
    · exact ⟨n, Nat.lt_succ_self n, rfl⟩
    · exact ⟨i, Nat.lt_succ_of_lt hi, rfl⟩

theorem exact_step {s t : AddState filter} {e : AddEvent key}
    (hs : Exact s) (h : filter.addMachine.step s e = some t) : Exact t := by
  rcases addMachine_step_cases h with
    ⟨keys, rfl, rfl⟩ | ⟨thread, running, rfl, hthread, _, rfl⟩
  · -- new threads have made no iteration yet
    unfold Exact at hs ⊢
    rw [hs]
    ext p
    constructor
    · rintro ⟨thread, hthread, hp⟩
      exact ⟨thread, List.mem_append_left _ hthread, hp⟩
    · rintro ⟨thread, hthread, hp⟩
      rcases List.mem_append.mp hthread with hold | hnew
      · exact ⟨thread, hold, hp⟩
      · rcases List.mem_map.mp hnew with ⟨k, _, rfl⟩
        rcases hp with ⟨i, hi, _⟩
        exact absurd hi (Nat.not_lt_zero i)
  · -- the running thread gains the position that its atomic or sets
    have hmem : running ∈ s.threads := List.mem_of_getElem? hthread
    have hlt : thread < s.threads.length :=
      (List.getElem?_eq_some_iff.mp hthread).choose
    unfold Exact at hs ⊢
    rw [ones_addIteration, hs]
    ext p
    constructor
    · rintro (rfl | ⟨other, hother, hp⟩)
      · refine ⟨_, List.mem_set hlt _, ?_⟩
        rw [positionsBelow_succ]
        exact Or.inl rfl
      · rcases List.mem_iff_getElem?.mp hother with ⟨j, hj⟩
        by_cases hjt : thread = j
        · subst hjt
          rw [hthread] at hj
          cases hj
          refine ⟨_, List.mem_set hlt _, ?_⟩
          rw [positionsBelow_succ]
          exact Or.inr hp
        · refine ⟨other, List.mem_iff_getElem?.mpr ⟨j, ?_⟩, hp⟩
          rw [List.getElem?_set_ne hjt]
          exact hj
    · rintro ⟨other, hother, hp⟩
      rcases List.mem_or_eq_of_mem_set hother with hold | rfl
      · exact Or.inr ⟨other, hold, hp⟩
      · rw [positionsBelow_succ] at hp
        rcases hp with rfl | hp
        · exact Or.inl rfl
        · exact Or.inr ⟨running, hmem, hp⟩

theorem exact_initial : Exact (filter.initial) := by
  unfold Exact
  change filter.ones filter.zeroed = _
  rw [ones_zeroed]
  ext p
  constructor
  · intro hp
    cases hp
  · rintro ⟨thread, hthread, _⟩
    cases hthread

theorem exact_run {s : AddState filter} {events : List (AddEvent key)}
    (hrun : filter.addMachine.run filter.initial events = some s) : Exact s := by
  have hstep : forall s e t, Exact s ->
      filter.addMachine.step s e = some t -> Exact t :=
    fun _ _ _ hs h => exact_step hs h
  exact Machine.invariant_run_always hstep exact_initial hrun

/-- Threads keep their keys, and every added key has one. -/
theorem keys_of_add_run {s t : AddState filter} {events : List (AddEvent key)}
    (h : filter.addMachine.run s events = some t) :
    t.threads.map AddThread.keyOf =
      s.threads.map AddThread.keyOf ++ addedKeys events := by
  induction events generalizing s with
  | nil =>
      cases h
      simp [addedKeys]
  | cons e rest ih =>
      rcases Machine.run_cons_some h with ⟨u, hu, hrest⟩
      rw [ih hrest]
      rcases addMachine_step_cases hu with
        ⟨keys, rfl, rfl⟩ | ⟨thread, running, rfl, hthread, _, rfl⟩
      · simp [addedKeys, Function.comp_def]
      · rcases List.getElem?_eq_some_iff.mp hthread with ⟨hlt, hget⟩
        have hbound : thread < (s.threads.map AddThread.keyOf).length := by
          simpa using hlt
        have hkey : running.keyOf = (s.threads.map AddThread.keyOf)[thread] := by
          simp [hget]
        have hsame : (s.threads.set thread
            { running with next := running.next + 1 }).map AddThread.keyOf =
            s.threads.map AddThread.keyOf := by
          rw [List.map_set]
          change (s.threads.map AddThread.keyOf).set thread running.keyOf = _
          conv => lhs; rw [hkey]
          exact List.set_getElem_self _
        simp only [addedKeys, hsame]

/-- The counter of a thread never passes the number of hashes. -/
def CountersBounded (s : AddState filter) : Prop :=
  forall thread, thread ∈ s.threads -> thread.next ≤ filter.policy.hashCount

theorem countersBounded_step {s t : AddState filter} {e : AddEvent key}
    (hs : CountersBounded s) (h : filter.addMachine.step s e = some t) :
    CountersBounded t := by
  intro thread hthread
  rcases addMachine_step_cases h with
    ⟨keys, rfl, rfl⟩ | ⟨j, running, rfl, _, hfinished, rfl⟩
  · rcases List.mem_append.mp hthread with hold | hnew
    · exact hs thread hold
    · rcases List.mem_map.mp hnew with ⟨k, _, rfl⟩
      exact Nat.zero_le _
  · rcases List.mem_or_eq_of_mem_set hthread with hold | rfl
    · exact hs thread hold
    · have hopen : ¬ filter.policy.hashCount ≤ running.next := by
        intro hle
        rw [(finished_iff running).mpr hle] at hfinished
        cases hfinished
      exact Nat.lt_of_not_le hopen

theorem countersBounded_run {s : AddState filter} {events : List (AddEvent key)}
    (hrun : filter.addMachine.run filter.initial events = some s) :
    CountersBounded s := by
  have hstep : forall s e t, CountersBounded s ->
      filter.addMachine.step s e = some t -> CountersBounded t :=
    fun _ _ _ hs h => countersBounded_step hs h
  have hstart : CountersBounded filter.initial := by
    intro thread hthread
    cases hthread
  exact Machine.invariant_run_always hstep hstart hrun

/-!
# The array of a set of keys
-/

/-- All threads of a run have left the kernel. -/
def AllAdded (s : AddState filter) : Prop :=
  forall thread, thread ∈ s.threads -> thread.finished filter.policy = true

instance (s : AddState filter) : Decidable (AllAdded s) :=
  inferInstanceAs (Decidable (forall thread, thread ∈ s.threads ->
    thread.finished filter.policy = true))

/-- Once all threads are done the one bits are those of the added keys. -/
theorem ones_of_run {s : AddState filter} {events : List (AddEvent key)}
    (hrun : filter.addMachine.run filter.initial events = some s)
    (hdone : AllAdded s) :
    filter.ones s.bits = filter.positionsOf { k | k ∈ addedKeys events } := by
  have hexact : Exact s := exact_run hrun
  have hbounded : CountersBounded s := countersBounded_run hrun
  have hkeys : s.threads.map AddThread.keyOf = addedKeys events :=
    keys_of_add_run hrun
  have hcounter : forall thread, thread ∈ s.threads ->
      thread.next = filter.policy.hashCount := by
    intro thread hthread
    exact Nat.le_antisymm (hbounded thread hthread)
      ((finished_iff thread).mp (hdone thread hthread))
  rw [hexact, ← hkeys]
  ext p
  constructor
  · rintro ⟨thread, hthread, hp⟩
    rw [hcounter thread hthread] at hp
    exact ⟨thread.keyOf, List.mem_map_of_mem hthread, hp⟩
  · rintro ⟨k, hk, hp⟩
    rcases List.mem_map.mp hk with ⟨thread, hthread, rfl⟩
    refine ⟨thread, hthread, ?_⟩
    rw [hcounter thread hthread]
    exact hp

/-- A finished thread has its key reported, whatever other threads still do. -/
theorem probe_of_finished {s : AddState filter} (hs : Exact s)
    {thread : AddThread key} (hthread : thread ∈ s.threads)
    (hdone : thread.finished filter.policy = true) :
    filter.probeKernel s.bits thread.keyOf = true := by
  rw [probeKernel_iff, hs]
  rintro p ⟨i, hi, rfl⟩
  have hcount := (finished_iff thread).mp hdone
  exact ⟨thread, hthread, i, by omega, rfl⟩

end BloomFilter
end Cuco
end Cuda2Rocm
