import Cuda2Rocm.Foundation.Words
import Mathlib.Algebra.BigOperators.Fin
import Mathlib.Logic.Function.Basic

/-!
# Data repositories

A `data_repository` keeps its batches in a vector of vectors, one for each partition,
and resizes the outer vector when a batch is added beyond its end.
-/

namespace Cuda2Rocm
namespace Data

open Foundation

/-- `partitions_` of a `data_repository`; a batch is given by a shared pointer, which may
be null. -/
structure Repository (batch : Type _) where
  partitions : List (List (Option batch))

namespace Repository

/-- Whether a call gets the memory it asks for. -/
inductive Memory where
  | enough
  /-- `resize` throws when it has to grow the outer vector. -/
  | noPartitions
  /-- `push_back` throws. -/
  | noSlot
deriving DecidableEq, Repr

/-- How `add_data_batch` ends. -/
inductive Added (batch : Type _) where
  | done (r : Repository batch)
  | threw (r : Repository batch)
  /-- An access beyond the end of the outer vector. -/
  | undefined (r : Repository batch)

variable {batch : Type _}

def empty : Repository batch := { partitions := [] }

/-- How many pointers are in all partitions together. -/
def elements (r : Repository batch) : Nat := (r.partitions.map List.length).sum

/-- `std::vector::resize`, or none where it throws and changes nothing. -/
def resize (partitions : List (List (Option batch))) (n : Nat) (memory : Memory) :
    Option (List (List (Option batch))) :=
  if n ≤ partitions.length then some (partitions.take n)
  else if memory = .noPartitions then none
  else some (partitions ++ List.replicate (n - partitions.length) [])

/-- `partitions_[partition_idx].push_back(batch)`.  The stored pointers have different
addresses, so there is no memory for more than `SIZE_MAX` of them. -/
def pushBack (r : Repository batch) (b : Option batch) (partition : Nat)
    (memory : Memory) : Added batch :=
  match r.partitions[partition]? with
  | none => .undefined r
  | some queue =>
      if memory = .noSlot ∨ sizeMax ≤ r.elements then .threw r
      else .done { partitions := r.partitions.set partition (queue ++ [b]) }

def addDataBatch (r : Repository batch) (b : Option batch) (partition : Nat)
    (memory : Memory) : Added batch :=
  if partition ≥ r.partitions.length then
    match resize r.partitions (wrapSize (partition + 1)) memory with
    | none => .threw r
    | some partitions => pushBack { partitions := partitions } b partition memory
  else pushBack r b partition memory

def popNextDataBatch (r : Repository batch) (partition : Nat) :
    Option batch × Repository batch :=
  match r.partitions[partition]? with
  | some (front :: rest) => (front, { partitions := r.partitions.set partition rest })
  | _ => (none, r)

section Ids

variable (getBatchId : batch -> UInt64)

/-- The test of the loops over a partition. -/
def hasId (id : UInt64) (b : Option batch) : Bool :=
  match b with
  | some b => getBatchId b == id
  | none => false

/-- The loop of `pop_data_batch_by_id`: the batch, and the partition without it. -/
def eraseById (id : UInt64) : List (Option batch) -> Option (Option batch × List (Option batch))
  | [] => none
  | b :: rest =>
      if hasId getBatchId id b then some (b, rest)
      else
        match eraseById id rest with
        | some (found, left) => some (found, b :: left)
        | none => none

def popDataBatchById (r : Repository batch) (id : UInt64) (partition : Nat) :
    Option batch × Repository batch :=
  match r.partitions[partition]? with
  | none => (none, r)
  | some queue =>
      match eraseById getBatchId id queue with
      | some (found, left) => (found, { partitions := r.partitions.set partition left })
      | none => (none, r)

def getDataBatchById (r : Repository batch) (id : UInt64) (partition : Nat) : Option batch :=
  match r.partitions[partition]? with
  | none => none
  | some queue =>
      match queue.find? (hasId getBatchId id) with
      | some found => found
      | none => none

def getBatchIds (r : Repository batch) (partition : Nat) : List UInt64 :=
  match r.partitions[partition]? with
  | none => []
  | some queue => queue.filterMap (Option.map getBatchId)

end Ids

def size (r : Repository batch) (partition : Nat) : Nat :=
  match r.partitions[partition]? with
  | some queue => queue.length
  | none => 0

/-- The sum is taken in `size_t`. -/
def totalSize (r : Repository batch) : Nat :=
  r.partitions.foldl (fun total queue => wrapSize (total + queue.length)) 0

def allEmpty (r : Repository batch) : Bool := r.partitions.all List.isEmpty

def numPartitions (r : Repository batch) : Nat := r.partitions.length

/-!
# Contents
-/

/-- The queue of a partition; a partition that does not exist is empty. -/
def content (r : Repository batch) (partition : Nat) : List (Option batch) :=
  (r.partitions[partition]?).getD []

section Contents

variable {r : Repository batch} {partition : Nat}

theorem content_of_getElem? {queue : List (Option batch)}
    (h : r.partitions[partition]? = some queue) : r.content partition = queue := by
  unfold content
  rw [h]
  rfl

theorem content_of_none (h : r.partitions[partition]? = none) : r.content partition = [] := by
  unfold content
  rw [h]
  rfl

/-- A partition that exists is replaced, and no other. -/
theorem content_set (hlt : partition < r.numPartitions) (queue : List (Option batch)) :
    content { partitions := r.partitions.set partition queue } =
      Function.update r.content partition queue := by
  funext other
  by_cases hother : other = partition
  · subst hother
    rw [Function.update_self]
    unfold content
    rw [List.getElem?_set_self hlt]
    rfl
  · rw [Function.update_of_ne hother]
    unfold content
    rw [List.getElem?_set_ne (Ne.symm hother)]

/-- New partitions are empty. -/
theorem content_grown (r : Repository batch) (n : Nat) :
    content { partitions := r.partitions ++ List.replicate n [] } = r.content := by
  funext other
  unfold content
  rcases Nat.lt_or_ge other r.partitions.length with hlt | hge
  · rw [List.getElem?_append_left hlt]
  · rw [List.getElem?_append_right hge, List.getElem?_eq_none hge, List.getElem?_replicate]
    split <;> rfl

theorem elements_set {old : List (Option batch)} (h : r.partitions[partition]? = some old)
    (queue : List (Option batch)) :
    elements { partitions := r.partitions.set partition queue } + old.length =
      r.elements + queue.length := by
  unfold elements
  rcases r with ⟨partitions⟩
  induction partitions generalizing partition with
  | nil => cases h
  | cons first rest ih =>
      cases partition with
      | zero =>
          cases h
          simp only [List.set_cons_zero, List.map_cons, List.sum_cons]
          omega
      | succ partition =>
          have hrest := ih h
          simp only [List.set_cons_succ, List.map_cons, List.sum_cons] at hrest ⊢
          omega

theorem elements_grown (r : Repository batch) (n : Nat) :
    elements { partitions := r.partitions ++ List.replicate n [] } = r.elements := by
  unfold elements
  simp

theorem size_eq (r : Repository batch) (partition : Nat) :
    r.size partition = (r.content partition).length := by
  unfold size content
  cases r.partitions[partition]? <;> rfl

theorem foldl_wrapSize :
    forall {partitions : List (List (Option batch))} {total : Nat},
      total + (partitions.map List.length).sum ≤ sizeMax ->
      partitions.foldl (fun total queue => wrapSize (total + queue.length)) total =
        total + (partitions.map List.length).sum
  | [], total, _ => rfl
  | queue :: rest, total, h => by
      simp only [List.map_cons, List.sum_cons] at h ⊢
      have hfits : wrapSize (total + queue.length) = total + queue.length := by
        apply wrapSize_of_lt
        unfold sizeMax at h
        omega
      rw [List.foldl_cons, hfits, foldl_wrapSize (by omega)]
      omega

/-- The sum does not wrap while the pointers fit into memory. -/
theorem totalSize_eq (h : r.elements ≤ sizeMax) : r.totalSize = r.elements := by
  unfold totalSize
  rw [foldl_wrapSize ((Nat.zero_add _).trans_le h)]
  exact Nat.zero_add _

theorem elements_eq_sum (r : Repository batch) :
    r.elements = ∑ p ∈ Finset.range r.numPartitions, (r.content p).length := by
  unfold elements numPartitions content
  induction r.partitions with
  | nil => rfl
  | cons queue rest ih =>
      rw [List.map_cons, List.sum_cons, ih, List.length_cons, Finset.sum_range_succ']
      exact Nat.add_comm _ _

theorem allEmpty_iff (r : Repository batch) :
    r.allEmpty = true <-> forall p, r.content p = [] := by
  unfold allEmpty
  rw [List.all_eq_true]
  constructor
  · intro h p
    rcases Option.eq_none_or_eq_some (r.partitions[p]?) with hnone | ⟨queue, hsome⟩
    · exact content_of_none hnone
    · rw [content_of_getElem? hsome]
      exact List.isEmpty_iff.mp (h queue (List.mem_of_getElem? hsome))
  · intro h queue hmem
    rcases List.mem_iff_getElem?.mp hmem with ⟨p, hp⟩
    have hempty := h p
    rw [content_of_getElem? hp] at hempty
    rw [hempty]
    rfl

theorem content_eq_nil_of_le (h : r.numPartitions ≤ partition) : r.content partition = [] :=
  content_of_none (List.getElem?_eq_none h)

end Contents

end Repository

end Data
end Cuda2Rocm
