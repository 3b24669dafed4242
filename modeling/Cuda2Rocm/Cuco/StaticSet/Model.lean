import Cuda2Rocm.Foundation.OpenAddressing
import Cuda2Rocm.Foundation.Runs
import Cuda2Rocm.Foundation.Words

/-!
# The static set

`cuco::static_set` is an open-addressing table in device memory.  A batch
insert starts one thread for each key; a thread walks the probe sequence of its
key with one atomic compare-and-swap per slot.  Lookups walk the same sequence
with plain reads.
-/

namespace Cuda2Rocm
namespace Cuco

open Foundation

/-- `double_hashing`, given by its hash functor. -/
structure DoubleHashing (key : Type _) where
  hash_ : key -> UInt64

/-- Probe number `probe` of a key, in 64-bit arithmetic. -/
def DoubleHashing.operator (hashing : DoubleHashing key) (k : key)
    (probe : UInt64) : UInt64 :=
  let h := hashing.hash_ k
  let h1 := h
  -- the low bit keeps the stride non-zero
  let h2 := (h >>> 32) ||| 1
  h1 + probe * h2

/-- The fields of `static_set` that no call changes. -/
structure StaticSet (key : Type _) where
  capacity : Nat
  capacity_pos : 0 < capacity
  /-- The capacity is a `size_t`, so no probe counter wraps. -/
  capacity_le : capacity ≤ sizeMax
  emptyKey : key
  hash : DoubleHashing key

namespace StaticSet

/-- The constructor; the flags say whether the two HIP calls succeed. -/
def construct (capacity : UInt64) (sizeofKey : Nat) (empty : key)
    (hash : DoubleHashing key) (mallocOk launchOk : Bool) :
    Except String (StaticSet key) :=
  if hpos : 0 < capacity.toNat then
    if sizeofKey > sizeMax / capacity.toNat then
      .error "cuco::static_set: capacity * sizeof(KeyT) overflows size_t"
    else if mallocOk = false then
      .error "cuco::static_set: hipMalloc failed"
    else if launchOk = false then
      .error "cuco::static_set: fill_empty_key_kernel launch failed"
    else
      .ok { capacity := capacity.toNat
            capacity_pos := hpos
            capacity_le := Nat.le_sub_one_of_lt capacity.toNat_lt
            emptyKey := empty
            hash := hash }
  else
    .error "cuco::static_set: capacity must be greater than 0"

variable {key : Type _} (set : StaticSet key)

/-- The device array, one key for each slot. -/
abbrev Slots := Fin set.capacity -> key

/-- Every slot holds the empty key once the fill kernel has run. -/
def filled : set.Slots := fun _ => set.emptyKey

/-- The slot that a probe of a key looks at. -/
def slotIdx (k : key) (probe : Nat) : Fin set.capacity :=
  ⟨(set.hash.operator k (UInt64.ofNat probe)).toNat % set.capacity,
    Nat.mod_lt _ set.capacity_pos⟩

variable [DecidableEq key]

/-!
# Lookups
-/

/-- The loop of `set_ref::operator()`, from a probe with so many to go. -/
def refLoop (slots : set.Slots) (k : key) : Nat -> Nat -> Bool
  | _, 0 => false
  | probe, left + 1 =>
      let slot := slots (set.slotIdx k probe)
      if slot = k then true
      else if slot = set.emptyKey then false
      else refLoop slots k (probe + 1) left

/-- `set_ref::operator()`, also reached as `set_ref::contains`. -/
def contains (slots : set.Slots) (k : key) : Bool :=
  set.refLoop slots k 0 set.capacity

/-- The loop of `set_probe_kernel`, which leaves through `break`. -/
def probeLoop (slots : set.Slots) (k : key) : Nat -> Nat -> Bool -> Bool
  | _, 0, found => found
  | probe, left + 1, found =>
      let slot := slots (set.slotIdx k probe)
      if slot = k then true
      else if slot = set.emptyKey then found
      else probeLoop slots k (probe + 1) left found

/-- What one thread of `set_probe_kernel` writes for its key. -/
def probeKernel (slots : set.Slots) (k : key) : Bool :=
  set.probeLoop slots k 0 set.capacity false

/-!
# Insertion
-/

/-- A thread of `set_insert_kernel`. -/
inductive InsertThread (key : Type _) where
  /-- About to compare-and-swap at the slot of this probe. -/
  | probing (k : key) (probe : Nat)
  /-- Left through the `return` in the loop. -/
  | returned (k : key)
  /-- Ran out of probes. -/
  | exhausted (k : key)
deriving DecidableEq

namespace InsertThread

/-- The key the thread was started for. -/
def keyOf : InsertThread key -> key
  | probing k _ => k
  | returned k => k
  | exhausted k => k

/-- The thread has left the kernel. -/
def finished : InsertThread key -> Bool
  | probing _ _ => false
  | returned _ => true
  | exhausted _ => true

end InsertThread

/-- The device array and every insert thread started so far. -/
structure InsertState where
  slots : set.Slots
  threads : List (InsertThread key)

/-- A batch is launched, or one thread makes its next compare-and-swap. -/
inductive InsertEvent (key : Type _) where
  | insertAsync (keys : List key)
  | atomicCAS (thread : Nat)

/-- `atomicCAS(&slots[i], expected, desired)`: the old value and the new array. -/
def atomicCAS (slots : set.Slots) (i : Fin set.capacity) (expected desired : key) :
    key × set.Slots :=
  let old := slots i
  (old, if old = expected then Function.update slots i desired else slots)

/-- One iteration of the loop of `set_insert_kernel`. -/
def insertIteration (slots : set.Slots) (k : key) (probe : Nat) :
    InsertThread key × set.Slots :=
  let cas := set.atomicCAS slots (set.slotIdx k probe) set.emptyKey k
  let thread :=
    if cas.1 = set.emptyKey ∨ cas.1 = k then InsertThread.returned k
    else if probe + 1 < set.capacity then InsertThread.probing k (probe + 1)
    else InsertThread.exhausted k
  (thread, cas.2)

/-- Threads interleave at their compare-and-swaps. -/
def insertMachine : Machine (InsertState set) (InsertEvent key) where
  step s e :=
    match e with
    | .insertAsync keys =>
        some { s with
          threads := s.threads ++ keys.map (fun k => InsertThread.probing k 0) }
    | .atomicCAS thread =>
        match s.threads[thread]? with
        | some (.probing k probe) =>
            let next := set.insertIteration s.slots k probe
            some { slots := next.2, threads := s.threads.set thread next.1 }
        | _ => none

/-- A freshly constructed set. -/
def initial : InsertState set :=
  { slots := set.filled, threads := [] }

end StaticSet

end Cuco
end Cuda2Rocm
