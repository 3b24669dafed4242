import Cuda2Rocm.Cuco.BloomFilter.Membership
import Cuda2Rocm.Foundation.Streams

/-!
# The filter on streams

The constructor only queues the memset; the words hold anything until it has run.  Batches
of additions and of queries are launched on any stream, their threads interleave at their
accesses of the words, and the destructor synchronises with the device before it frees them.
-/

namespace Cuda2Rocm
namespace Cuco
namespace BloomFilter

open Foundation

variable {key : Type _} (filter : BloomFilter key)

/-- A thread of one of the kernels, or a word that the memset has to clear. -/
inductive FilterThread where
  | clear (word : Fin filter.words)
  | cleared
  | add (thread : AddThread key)
  /-- About to read the word of this hash, `found` being true so far. -/
  | probe (k : key) (i : Nat)
  /-- Wrote `out[idx]`. -/
  | answered (k : key) (found : Bool)

/-- One iteration of the loop of `bloom_probe_kernel` that reads a word, and the tests at the
top of the next one. -/
def probeIteration (bits : filter.Bits) (k : key) (i : Nat) : filter.FilterThread :=
  let found := !(bits (filter.wordOf k i) &&& filter.mask k i == 0)
  if i + 1 ≥ 16 ∨ i + 1 ≥ filter.policy.hashCount ∨ found = false then .answered k found
  else .probe k (i + 1)

/-- The memset and the two kernels, by single accesses. -/
def kernels : Program filter.Bits filter.FilterThread where
  left thread :=
    match thread with
    | .clear _ => false
    | .cleared => true
    | .add thread => thread.finished filter.policy
    | .probe _ _ => false
    | .answered _ _ => true
  access bits thread :=
    match thread with
    | .clear word => (Function.update bits word 0, .cleared)
    | .cleared => (bits, .cleared)
    | .add thread =>
        (filter.addIteration bits thread.keyOf thread.next,
          .add { thread with next := thread.next + 1 })
    | .probe k i => (bits, filter.probeIteration bits k i)
    | .answered k found => (bits, .answered k found)

/-- `add_async`, without the launch of an empty grid. -/
def addKernel {stream : Type _} (on : stream) (keys : List key) :
    Kernel stream filter.FilterThread :=
  { stream := on, threads := keys.map (fun k => .add { keyOf := k, next := 0 }) }

/-- `contains_async`. -/
def containsKernel {stream : Type _} (on : stream) (keys : List key) :
    Kernel stream filter.FilterThread :=
  { stream := on, threads := keys.map (fun k => .probe k 0) }

/-- What the constructor leaves behind: words that hold anything and a queued memset. -/
def constructed {stream : Type _} (bits : filter.Bits) (on : stream) :
    Device stream filter.Bits filter.FilterThread :=
  { memory := bits
    kernels := [{ stream := on, threads := (List.finRange filter.words).map .clear }]
    freed := false }

def streamMachine (stream : Type _) [DecidableEq stream] :
    Machine (Device stream filter.Bits filter.FilterThread)
      (Device.Event stream filter.FilterThread) :=
  Device.machine filter.kernels

/-!
# What the kernels rely on
-/

/-- A thread of a batch as it is launched, when only these keys are added. -/
def FreshThread (keys : List key) : filter.FilterThread -> Prop
  | .add thread => thread.next = 0 ∧ thread.keyOf ∈ keys
  | .probe _ i => i = 0
  | _ => False

instance [DecidableEq key] (keys : List key) : DecidablePred (filter.FreshThread keys)
  | .clear _ => isFalse id
  | .cleared => isFalse id
  | .add _ => inferInstanceAs (Decidable (_ ∧ _))
  | .probe _ _ => inferInstanceAs (Decidable (_ = _))
  | .answered _ _ => isFalse id

/-- Batches of these keys, on the stream of the constructor or once the memset is done. -/
def OnStreams {stream : Type _} (keys : List key) :
    Device stream filter.Bits filter.FilterThread ->
      Device.Event stream filter.FilterThread -> Prop :=
  Device.AfterSetUp filter.kernels (filter.FreshThread keys)

instance {stream : Type _} [DecidableEq stream] [DecidableEq key] (keys : List key)
    (s : Device stream filter.Bits filter.FilterThread)
    (e : Device.Event stream filter.FilterThread) : Decidable (filter.OnStreams keys s e) :=
  inferInstanceAs (Decidable (Device.AfterSetUp _ _ s e))

/-- Every word is clear or about to be. -/
def Clearing (bits : filter.Bits) (threads : List filter.FilterThread) : Prop :=
  (forall thread, thread ∈ threads -> thread = .cleared ∨ exists word, thread = .clear word) ∧
  forall word, bits word = 0 ∨ .clear word ∈ threads

/-- Only bits of the keys that are added. -/
def Within (keys : List key) (bits : filter.Bits) : Prop :=
  filter.ones bits ⊆ filter.positionsOf { k | k ∈ keys }

/-- What the progress of a thread says about the bits. -/
def FilterThreadSound (keys : List key) (bits : filter.Bits) : filter.FilterThread -> Prop
  | .clear _ => False
  | .cleared => False
  | .add thread => thread.keyOf ∈ keys ∧
      filter.positionsBelow thread.keyOf thread.next ⊆ filter.ones bits
  | .probe k i =>
      i < filter.policy.hashCount ∧ filter.positionsBelow k i ⊆ filter.ones bits
  | .answered k found => found = true -> filter.positions k ⊆ filter.ones bits

/-- A query finds the key of an addition that is over. -/
def Heeds : filter.FilterThread -> filter.FilterThread -> Prop
  | .add thread, .answered k found => thread.keyOf = k -> found = true
  | _, _ => True

variable {filter}

theorem ones_subset_access {bits : filter.Bits} {keys : List key}
    {thread : filter.FilterThread} (h : filter.FilterThreadSound keys bits thread) :
    filter.ones bits ⊆ filter.ones (filter.kernels.access bits thread).1 := by
  cases thread with
  | clear word => exact absurd h id
  | cleared => exact absurd h id
  | add thread =>
      simp only [kernels, ones_addIteration]
      exact Set.subset_insert _ _
  | probe k i => exact Set.Subset.refl _
  | answered k found => exact Set.Subset.refl _

/-- A read finds its bit set and goes on, finds all bits set, or finds one that is not. -/
theorem probeIteration_cases {bits : filter.Bits} {k : key} {i : Nat}
    (h : filter.positionsBelow k i ⊆ filter.ones bits) :
    (filter.probeIteration bits k i = .probe k (i + 1) ∧ i + 1 < filter.policy.hashCount ∧
      filter.positionsBelow k (i + 1) ⊆ filter.ones bits) ∨
    (filter.probeIteration bits k i = .answered k true ∧
      filter.positions k ⊆ filter.ones bits) ∨
    (filter.probeIteration bits k i = .answered k false ∧
      filter.position k i ∉ filter.ones bits) := by
  have hcount := filter.policy.hashCount_le
  by_cases hset : filter.position k i ∈ filter.ones bits
  · have hbelow : filter.positionsBelow k (i + 1) ⊆ filter.ones bits := by
      rw [positionsBelow_succ]
      exact Set.insert_subset hset h
    have hfound : (!(bits (filter.wordOf k i) &&& filter.mask k i == 0)) = true := by
      rw [Bool.not_eq_true', beq_eq_false_iff_ne]
      exact fun hzero => (masked_eq_zero_iff bits k i).mp hzero hset
    simp only [probeIteration, hfound, Bool.true_eq_false, or_false]
    split
    · rename_i hlast
      apply Or.inr ∘ Or.inl
      refine ⟨rfl, ?_⟩
      rintro p ⟨j, hj, rfl⟩
      exact hbelow ⟨j, by omega, rfl⟩
    · rename_i hmore
      exact Or.inl ⟨rfl, by omega, hbelow⟩
  · have hfound : (!(bits (filter.wordOf k i) &&& filter.mask k i == 0)) = false := by
      rw [Bool.not_eq_false', beq_iff_eq]
      exact (masked_eq_zero_iff bits k i).mpr hset
    apply Or.inr ∘ Or.inr
    simp only [probeIteration, hfound, or_true, if_true]
    exact ⟨trivial, hset⟩

theorem filterThreadSound_mono {keys : List key} {bits later : filter.Bits}
    {thread : filter.FilterThread} (hle : filter.ones bits ⊆ filter.ones later)
    (h : filter.FilterThreadSound keys bits thread) :
    filter.FilterThreadSound keys later thread := by
  cases thread with
  | clear word => exact h
  | cleared => exact h
  | add thread => exact ⟨h.left, Set.Subset.trans h.right hle⟩
  | probe k i => exact ⟨h.left, Set.Subset.trans h.right hle⟩
  | answered k found => exact fun hfound => Set.Subset.trans (h hfound) hle

theorem filterThreadSound_access {keys : List key} {bits : filter.Bits}
    {thread : filter.FilterThread} (h : filter.FilterThreadSound keys bits thread) :
    filter.FilterThreadSound keys (filter.kernels.access bits thread).1
      (filter.kernels.access bits thread).2 := by
  cases thread with
  | clear word => exact absurd h id
  | cleared => exact absurd h id
  | add thread =>
      apply And.intro h.left
      change filter.positionsBelow thread.keyOf (thread.next + 1) ⊆
        filter.ones (filter.addIteration bits thread.keyOf thread.next)
      rw [positionsBelow_succ, ones_addIteration]
      exact Set.insert_subset_insert h.right
  | probe k i =>
      change filter.FilterThreadSound keys bits (filter.probeIteration bits k i)
      rcases probeIteration_cases h.right with ⟨heq, hmore, hbelow⟩ | ⟨heq, hall⟩ |
        ⟨heq, _⟩
      · rw [heq]
        exact ⟨hmore, hbelow⟩
      · rw [heq]
        exact fun _ => hall
      · rw [heq]
        exact fun hfound => absurd hfound Bool.false_ne_true
  | answered k found => exact h

theorem within_access {keys : List key} {bits : filter.Bits} {thread : filter.FilterThread}
    (hbits : filter.Within keys bits) (h : filter.FilterThreadSound keys bits thread)
    (hleft : filter.kernels.left thread = false) :
    filter.Within keys (filter.kernels.access bits thread).1 := by
  cases thread with
  | clear word => exact absurd h id
  | cleared => exact absurd h id
  | add thread =>
      have hopen : thread.next < filter.policy.hashCount := by
        apply Nat.not_le.mp
        intro hle
        have hdone : filter.kernels.left (.add thread) = true := (finished_iff thread).mpr hle
        rw [hleft] at hdone
        cases hdone
      simp only [Within, kernels, ones_addIteration]
      exact Set.insert_subset ⟨thread.keyOf, h.left, thread.next, hopen, rfl⟩ hbits
  | probe k i => exact hbits
  | answered k found => exact hbits

/-- A query of a key whose bits are all set does not answer no. -/
theorem answers_of_positions {keys : List key} {bits : filter.Bits}
    {thread : filter.FilterThread} {k : key} (hset : filter.positions k ⊆ filter.ones bits)
    (h : filter.FilterThreadSound keys bits thread)
    (hleft : filter.kernels.left thread = false) :
    (filter.kernels.access bits thread).2 ≠ .answered k false := by
  cases thread with
  | clear word => exact absurd h id
  | cleared => exact absurd h id
  | add thread =>
      intro heq
      cases heq
  | probe x i =>
      change filter.probeIteration bits x i ≠ .answered k false
      rcases probeIteration_cases h.right with ⟨heq, _, _⟩ | ⟨heq, _⟩ | ⟨heq, hnot⟩
      · rw [heq]
        intro hanswered
        cases hanswered
      · rw [heq]
        intro hanswered
        cases hanswered
      · rw [heq]
        intro hanswered
        cases hanswered
        exact hnot (hset ⟨i, h.left, rfl⟩)
  | answered x found => cases hleft

theorem positions_of_finished {keys : List key} {bits : filter.Bits} {thread : AddThread key}
    (h : filter.FilterThreadSound keys bits (.add thread))
    (hdone : filter.kernels.left (.add thread) = true) :
    filter.positions thread.keyOf ⊆ filter.ones bits := by
  have hcount := (finished_iff thread).mp hdone
  rintro p ⟨i, hi, rfl⟩
  exact h.right ⟨i, by omega, rfl⟩

theorem heeds_access {keys : List key} {bits : filter.Bits}
    {earlier thread : filter.FilterThread}
    (hearlier : filter.FilterThreadSound keys bits earlier)
    (h : filter.FilterThreadSound keys bits thread)
    (hover : filter.kernels.left earlier = true)
    (hleft : filter.kernels.left thread = false) :
    filter.Heeds earlier (filter.kernels.access bits thread).2 := by
  cases earlier with
  | clear word => trivial
  | cleared => trivial
  | add adding =>
      have hnot := answers_of_positions (positions_of_finished hearlier hover) h hleft
      cases hanswer : (filter.kernels.access bits thread).2 with
      | clear word => trivial
      | cleared => trivial
      | add other => trivial
      | probe k i => trivial
      | answered k found =>
          intro hkey
          cases found with
          | true => rfl
          | false =>
              rw [hkey] at hnot
              exact absurd hanswer hnot
  | probe k i => trivial
  | answered k found => trivial

theorem clearing_access {bits : filter.Bits} {threads : List filter.FilterThread} {i : Nat}
    {thread : filter.FilterThread} (h : filter.Clearing bits threads)
    (hthread : threads[i]? = some thread) (hleft : filter.kernels.left thread = false) :
    filter.Clearing (filter.kernels.access bits thread).1
      (threads.set i (filter.kernels.access bits thread).2) := by
  rcases h.left thread (List.mem_of_getElem? hthread) with rfl | ⟨word, rfl⟩
  · cases hleft
  · constructor
    · intro other hother
      rcases List.mem_or_eq_of_mem_set hother with hold | rfl
      · exact h.left other hold
      · exact Or.inl rfl
    · intro other
      change Function.update bits word 0 other = 0 ∨ _
      by_cases hother : other = word
      · rw [hother, Function.update_self]
        exact Or.inl rfl
      · rw [Function.update_of_ne hother]
        rcases h.right other with hzero | hmem
        · exact Or.inl hzero
        · apply Or.inr (mem_set_of_ne hthread _ hmem)
          intro heq
          exact hother (FilterThread.clear.inj heq)

theorem hashCount_pos (policy : FilterPolicy key) : 0 < policy.hashCount := by
  have hpos := policy.hashes_pos
  simp only [FilterPolicy.hashCount]
  split <;> omega

/-- The kernels keep to the rules for setting a memory up. -/
theorem kernels_discipline (filter : BloomFilter key) (keys : List key) :
    Device.Discipline filter.kernels (filter.FreshThread keys) filter.Clearing
      (filter.Within keys) (filter.FilterThreadSound keys) := by
  constructor
  · exact fun m threads i t h hthread hleft => clearing_access h hthread hleft
  · intro m threads h hall
    have hzero : m = filter.zeroed := by
      funext word
      rcases h.right word with hzero | hmem
      · exact hzero
      · cases List.all_eq_true.mp hall _ hmem
    rw [hzero, Within, ones_zeroed]
    exact Set.empty_subset _
  · intro m t _ hfresh
    cases t with
    | clear word => exact hfresh
    | cleared => exact hfresh
    | add thread =>
        apply And.intro hfresh.right
        rw [hfresh.left]
        rintro p ⟨i, hi, _⟩
        exact absurd hi (Nat.not_lt_zero i)
    | probe k i =>
        have hzero : i = 0 := hfresh
        subst hzero
        apply And.intro (hashCount_pos filter.policy)
        rintro p ⟨i, hi, _⟩
        exact absurd hi (Nat.not_lt_zero i)
    | answered k found => exact absurd hfresh id
  · exact fun m t hm ht hleft => within_access hm ht hleft
  · exact fun m t _ ht _ => filterThreadSound_access ht
  · exact fun m t u _ ht _ hu => filterThreadSound_mono (ones_subset_access ht) hu

/-!
# Every run
-/

variable {stream : Type _} [DecidableEq stream]

/-- What holds in every run of a constructed filter that keeps to the streams. -/
def Orderly (keys : List key) (s : Device stream filter.Bits filter.FilterThread) : Prop :=
  Device.Orderly filter.kernels (filter.FreshThread keys) filter.Clearing (filter.Within keys)
    (filter.FilterThreadSound keys) filter.Heeds s

theorem orderly_step {keys : List key} {s t : Device stream filter.Bits filter.FilterThread}
    {e : Device.Event stream filter.FilterThread} (hs : Orderly keys s)
    (hok : filter.OnStreams keys s e) (h : (filter.streamMachine stream).step s e = some t) :
    Orderly keys t :=
  Device.orderly_step (kernels_discipline filter keys)
    (fun _ _ _ _ hx hu hover hleft => heeds_access hx hu hover hleft) hs hok h

omit [DecidableEq stream] in
theorem orderly_constructed (filter : BloomFilter key) (keys : List key) (bits : filter.Bits)
    (on : stream) : Orderly keys (filter.constructed bits on) := by
  apply Device.orderly_launched (kernels_discipline filter keys)
  constructor
  · intro thread hthread
    rcases List.mem_map.mp hthread with ⟨word, _, rfl⟩
    exact Or.inr ⟨word, rfl⟩
  · exact fun word => Or.inr (List.mem_map_of_mem (List.mem_finRange word))

/-- The memset is over, all bits of the key are set, and no query launched from some kernel
on denies it. -/
structure Told (k : key) (launched : Nat) (s : Device stream filter.Bits filter.FilterThread) :
    Prop where
  cleared : forall first : Kernel stream filter.FilterThread, s.kernels[0]? = some first ->
    first.finished filter.kernels = true
  set : filter.positions k ⊆ filter.ones s.memory
  told : forall (q : Nat) (kernel : Kernel stream filter.FilterThread), launched ≤ q ->
    s.kernels[q]? = some kernel -> .answered k false ∉ kernel.threads

theorem told_step {keys : List key} {s t : Device stream filter.Bits filter.FilterThread}
    {e : Device.Event stream filter.FilterThread} {k : key} {launched : Nat}
    (hs : Orderly keys s) (htold : Told k launched s) (hok : filter.OnStreams keys s e)
    (h : (filter.streamMachine stream).step s e = some t) : Told k launched t := by
  rcases hs.setUp with ⟨first, hsetUp⟩
  have hdone := htold.cleared first hsetUp.present
  have hlength : 0 < s.kernels.length := (List.getElem?_eq_some_iff.mp hsetUp.present).1
  rcases Device.step_cases h with ⟨new, rfl, _, rfl⟩ |
    ⟨q', i, kernel, running, rfl, hkernel, hrunning, hleft, hturn, rfl⟩ | ⟨rfl, _, _, rfl⟩
  · constructor
    · intro first' hfirst'
      apply htold.cleared first'
      change (s.kernels ++ [new])[0]? = some first' at hfirst'
      rw [List.getElem?_append_left hlength] at hfirst'
      exact hfirst'
    · exact htold.set
    · intro q kernel hq hkernel hanswered
      rcases Device.kernel_of_append hkernel with ⟨_, rfl⟩ | hold
      · exact hok.left _ hanswered
      · exact htold.told q kernel hq hold hanswered
  · have hq' : 0 < q' := by
      apply Nat.pos_of_ne_zero
      rintro rfl
      rw [hsetUp.present] at hkernel
      cases hkernel
      rw [Device.not_finished hrunning hleft] at hdone
      cases hdone
    have hsound := (hsetUp.after hdone).right q' kernel hq' hkernel running
      (List.mem_of_getElem? hrunning)
    constructor
    · intro first' hfirst'
      change (s.kernels.set q' _)[0]? = some first' at hfirst'
      rw [List.getElem?_set_ne (Nat.ne_of_gt hq')] at hfirst'
      exact htold.cleared first' hfirst'
    · exact Set.Subset.trans htold.set (ones_subset_access hsound)
    · intro q later hq hlater hanswered
      rcases Device.kernel_of_set hkernel hlater with ⟨rfl, rfl⟩ | ⟨_, hold⟩
      · rcases List.mem_or_eq_of_mem_set hanswered with hold | hnew
        · exact htold.told q kernel hq hkernel hold
        · exact answers_of_positions htold.set hsound hleft hnew.symm
      · exact htold.told q later hq hold hanswered
  · exact ⟨htold.cleared, htold.set, htold.told⟩

omit [DecidableEq stream] in
/-- An addition that is over has set all bits of its key. -/
theorem told_of_finished {keys : List key} {s : Device stream filter.Bits filter.FilterThread}
    {j : Nat} {kernel : Kernel stream filter.FilterThread} {thread : AddThread key}
    (hs : Orderly keys s) (hj : 0 < j) (hkernel : s.kernels[j]? = some kernel)
    (hmem : .add thread ∈ kernel.threads)
    (hover : thread.finished filter.policy = true) :
    Told thread.keyOf s.kernels.length s := by
  rcases hs.setUp with ⟨first, hsetUp⟩
  have hdone : first.finished filter.kernels = true := by
    by_contra hopen
    rw [Bool.not_eq_true] at hopen
    have hfresh := ((hsetUp.before hopen).right j kernel hj hkernel).right _ hmem
    have hcount := (finished_iff thread).mp hover
    have hpos := hashCount_pos filter.policy
    rw [hfresh.left] at hcount
    omega
  constructor
  · intro first' hfirst'
    rw [hsetUp.present] at hfirst'
    cases hfirst'
    exact hdone
  · exact positions_of_finished ((hsetUp.after hdone).right j kernel hj hkernel _ hmem) hover
  · intro q later hq hlater
    have hlt := (List.getElem?_eq_some_iff.mp hlater).1
    omega

/--
Where every batch is launched on the stream of the constructor or once the memset is done, a
query that comes after an addition, behind it on the same stream or launched when it is over,
never denies the key, whatever the words held and whatever runs on other streams; a query
says yes only where all bits of the key are set in the words, which then hold bits of added
keys only; and no thread makes an access once the words are freed.
-/
theorem added_keys_found_on_streams {bits : filter.Bits} {on : stream} {keys : List key}
    {first later : List (Device.Event stream filter.FilterThread)}
    {s t : Device stream filter.Bits filter.FilterThread}
    (hok : (filter.streamMachine stream).Along (filter.OnStreams keys)
      (filter.constructed bits on) (first ++ later))
    (hfirst : (filter.streamMachine stream).run (filter.constructed bits on) first = some s)
    (hlater : (filter.streamMachine stream).run s later = some t) :
    (forall (j q : Nat) (earlier kernel : Kernel stream filter.FilterThread)
      (thread : AddThread key), 0 < j -> j < q -> t.kernels[j]? = some earlier ->
      t.kernels[q]? = some kernel -> earlier.stream = kernel.stream ->
      .add thread ∈ earlier.threads -> .answered thread.keyOf false ∉ kernel.threads) ∧
    (forall (j q : Nat) (earlier kernel : Kernel stream filter.FilterThread)
      (thread : AddThread key), 0 < j -> s.kernels[j]? = some earlier ->
      .add thread ∈ earlier.threads -> thread.finished filter.policy = true ->
      s.kernels.length ≤ q -> t.kernels[q]? = some kernel ->
      .answered thread.keyOf false ∉ kernel.threads) ∧
    (forall (q : Nat) (kernel : Kernel stream filter.FilterThread) (k : key), 0 < q ->
      t.kernels[q]? = some kernel -> .answered k true ∈ kernel.threads ->
      filter.positions k ⊆ filter.ones t.memory ∧
        filter.ones t.memory ⊆ filter.positionsOf { k | k ∈ keys }) ∧
    (t.freed = true -> forall q i,
      (filter.streamMachine stream).step t (.access q i) = none) := by
  have hokFirst := Machine.along_append_left hok
  have hokLater := Machine.along_append_right hok hfirst
  have hsteps : forall u e v, Orderly keys u -> filter.OnStreams keys u e ->
      (filter.streamMachine stream).step u e = some v -> Orderly keys v :=
    fun u e v hu hhere hstep => orderly_step hu hhere hstep
  have hs := Machine.invariant_run hsteps (orderly_constructed filter keys bits on) hokFirst
    hfirst
  have ht := Machine.invariant_run hsteps hs hokLater hlater
  rcases ht.setUp with ⟨first, hsetUp⟩
  refine ⟨?_, ?_, ?_, ?_⟩
  · intro j q earlier kernel thread hj hjq hearlier hkernel hstream hmem hanswered
    rcases ht.follows j q earlier kernel _ _ hj hjq hearlier hkernel hstream hmem
      hanswered with hfresh | ⟨_, hheeds⟩
    · exact hfresh
    · cases hheeds rfl
  · intro j q earlier kernel thread hj hearlier hmem hover hq hkernel
    have hboth : forall u e v,
        Orderly keys u ∧ Told thread.keyOf s.kernels.length u -> filter.OnStreams keys u e ->
        (filter.streamMachine stream).step u e = some v ->
        Orderly keys v ∧ Told thread.keyOf s.kernels.length v :=
      fun u e v hu hhere hstep =>
        ⟨orderly_step hu.left hhere hstep, told_step hu.left hu.right hhere hstep⟩
    have htold := Machine.invariant_run hboth
      ⟨hs, told_of_finished hs hj hearlier hmem hover⟩ hokLater hlater
    exact htold.right.told q kernel hq hkernel
  · intro q kernel k hq hkernel hanswered
    by_cases hdone : first.finished filter.kernels = true
    · have hafter := hsetUp.after hdone
      exact ⟨hafter.right q kernel hq hkernel _ hanswered rfl, hafter.left⟩
    · rw [Bool.not_eq_true] at hdone
      exact absurd (((hsetUp.before hdone).right q kernel hq hkernel).right _ hanswered) id
  · exact fun hfreed => Device.no_access_of_freed ht.idle hfreed

/-- The memset clears a word of ones on stream 0, and a key is added on stream 1. -/
def oneBlockSchedule : List (Device.Event Nat oneBlock.FilterThread) :=
  .access 0 0 :: .submit (oneBlock.addKernel 1 [3]) :: List.replicate 16 (.access 1 0)

/-- A query of the key on stream 2, to its end. -/
def oneBlockQuery : List (Device.Event Nat oneBlock.FilterThread) :=
  .submit (oneBlock.containsKernel 2 [3]) :: List.replicate 16 (.access 2 0)

theorem added_keys_found_on_streams_oneBlock :
    exists s t, (oneBlock.streamMachine Nat).run (oneBlock.constructed (fun _ => 4294967295) 0)
        oneBlockSchedule = some s ∧
      (oneBlock.streamMachine Nat).run s oneBlockQuery = some t ∧
      t.kernels[2]? ≠ some ⟨2, [.answered 3 false]⟩ := by
  have hok : (oneBlock.streamMachine Nat).Along (oneBlock.OnStreams [3])
      (oneBlock.constructed (fun _ => 4294967295) 0) (oneBlockSchedule ++ oneBlockQuery) := by
    decide +kernel
  refine ⟨_, _, rfl, rfl, fun hlater => ?_⟩
  exact (added_keys_found_on_streams hok rfl rfl).right.left 1 2 _ _ ⟨3, 16⟩ (by decide) rfl
    List.mem_cons_self (by decide) (by decide) hlater List.mem_cons_self

end BloomFilter
end Cuco
end Cuda2Rocm
