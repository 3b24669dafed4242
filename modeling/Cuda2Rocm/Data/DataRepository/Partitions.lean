import Cuda2Rocm.Data.DataRepository.Model
import Cuda2Rocm.Foundation.Queues
import Cuda2Rocm.Foundation.Runs

/-!
# Partitions as queues

Beside the repository the same calls move a family of queues, one for each partition
index.  The repository is that family as long as the index of an added batch has a
successor.
-/

namespace Cuda2Rocm
namespace Data
namespace Repository

open Foundation

variable {batch : Type _}

inductive Event (batch : Type _) where
  | addDataBatch (b : Option batch) (partition : Nat) (memory : Memory)
  | popNextDataBatch (partition : Nat)
  | popDataBatchById (id : UInt64) (partition : Nat)

/-- The partition index a call is about. -/
def Event.partition : Event batch -> Nat
  | .addDataBatch _ partition _ => partition
  | .popNextDataBatch partition => partition
  | .popDataBatchById _ partition => partition

/-- The repository, whether a call has left its vectors, and the queues that the calls
are meant to move. -/
structure State (batch : Type _) where
  repository : Repository batch
  undefined : Bool
  queues : Queues Nat (Option batch)

def State.initial : State batch :=
  { repository := Repository.empty, undefined := false, queues := Queues.empty }

/-- Beside the call itself: an added batch is put at the back of its queue, a pop takes
out the oldest batch or the oldest with its id. -/
def step (getBatchId : batch -> UInt64) (s : State batch) (e : Event batch) :
    Option (State batch) :=
  if s.undefined = false ∧ e.partition ≤ sizeMax then
    match e with
    | .addDataBatch b partition memory =>
        match s.repository.addDataBatch b partition memory with
        | .done r => some { s with repository := r, queues := s.queues.push partition b }
        | .threw r => some { s with repository := r }
        | .undefined r => some { s with repository := r, undefined := true }
    | .popNextDataBatch partition =>
        some { s with
          repository := (s.repository.popNextDataBatch partition).2
          queues := s.queues.take partition (fun _ => true) }
    | .popDataBatchById id partition =>
        some { s with
          repository := (s.repository.popDataBatchById getBatchId id partition).2
          queues := s.queues.take partition (hasId getBatchId id) }
  else none

def repositoryMachine (getBatchId : batch -> UInt64) : Machine (State batch) (Event batch) where
  step := step getBatchId

/-!
# The calls on contents
-/

section Calls

variable {r : Repository batch} {partition : Nat}

theorem resize_spec {n : Nat} {memory : Memory} (hgrow : r.numPartitions ≤ n)
    {resized : List (List (Option batch))}
    (h : resize r.partitions n memory = some resized) :
    resized.length = n ∧ content { partitions := resized } = r.content ∧
      elements { partitions := resized } = r.elements := by
  unfold numPartitions at hgrow
  unfold resize at h
  split at h
  · cases h
    have heq : n = r.partitions.length := by omega
    rw [heq, List.take_length]
    exact ⟨rfl, rfl, rfl⟩
  · split at h
    · cases h
    · cases h
      refine ⟨?_, content_grown r _, elements_grown r _⟩
      rw [List.length_append, List.length_replicate]
      omega

/-- An addition that does its work, or throws for want of memory and leaves the contents
alone. -/
def AddsOrThrows (r : Repository batch) (b : Option batch) (partition : Nat)
    (memory : Memory) (added : Added batch) : Prop :=
  (exists r', added = .done r' ∧
    r'.content = Function.update r.content partition (r.content partition ++ [b]) ∧
    r'.elements = r.elements + 1 ∧ r.elements < sizeMax ∧
    r'.numPartitions ≤ max r.numPartitions (partition + 1)) ∨
  (exists r', added = .threw r' ∧ (memory ≠ .enough ∨ sizeMax ≤ r.elements) ∧
    r'.content = r.content ∧ r'.elements = r.elements ∧
    r'.numPartitions ≤ max r.numPartitions (partition + 1))

theorem pushBack_cases (b : Option batch) (memory : Memory)
    (hlt : partition < r.numPartitions) :
    AddsOrThrows r b partition memory (r.pushBack b partition memory) := by
  have hqueue : r.partitions[partition]? = some r.partitions[partition] :=
    List.getElem?_eq_getElem hlt
  unfold pushBack
  rw [hqueue]
  dsimp only
  split
  · rename_i hfull
    have hwant : memory ≠ .enough ∨ sizeMax ≤ r.elements := by
      rcases hfull with hslot | hfull
      · exact Or.inl (by rw [hslot]; decide)
      · exact Or.inr hfull
    exact Or.inr ⟨r, rfl, hwant, rfl, rfl, Nat.le_max_left _ _⟩
  · rename_i hroom
    refine Or.inl ⟨_, rfl, ?_, ?_, by omega, ?_⟩
    · rw [content_set hlt, content_of_getElem? hqueue]
    · have hset := elements_set hqueue (r.partitions[partition] ++ [b])
      rw [List.length_append, List.length_singleton] at hset
      omega
    · unfold numPartitions
      rw [List.length_set]
      exact Nat.le_max_left _ _

/-- What an addition below the top index does. -/
theorem addDataBatch_cases (b : Option batch) (memory : Memory)
    (hbelow : partition < sizeMax) :
    AddsOrThrows r b partition memory (r.addDataBatch b partition memory) := by
  have hnext : wrapSize (partition + 1) = partition + 1 := by
    apply wrapSize_of_lt
    unfold sizeMax at hbelow
    omega
  unfold addDataBatch
  rw [hnext]
  by_cases hbeyond : partition ≥ r.partitions.length
  · rw [if_pos hbeyond]
    rcases Option.eq_none_or_eq_some (resize r.partitions (partition + 1) memory) with
      hnone | ⟨resized, hresized⟩
    · rw [hnone]
      have hwant : memory ≠ .enough := by
        rintro rfl
        unfold resize at hnone
        split at hnone <;> cases hnone
      exact Or.inr ⟨r, rfl, Or.inl hwant, rfl, rfl, Nat.le_max_left _ _⟩
    · rw [hresized]
      have hspec := resize_spec (Nat.le_succ_of_le hbeyond) hresized
      have hmax : resized.length ≤ max r.numPartitions (partition + 1) :=
        hspec.left.trans_le (Nat.le_max_right _ _)
      have hcases := pushBack_cases (r := { partitions := resized }) b memory
        (Nat.lt_of_lt_of_eq (Nat.lt_succ_self partition) hspec.left.symm)
      unfold AddsOrThrows at hcases ⊢
      rw [hspec.right.left, hspec.right.right] at hcases
      rcases hcases with ⟨r', h, hcontent, hcount, hroom, hlength⟩ |
        ⟨r', h, hwant, hcontent, hcount, hlength⟩
      · exact Or.inl ⟨r', h, hcontent, hcount, hroom, hlength.trans (max_le hmax
          (Nat.le_max_right _ _))⟩
      · exact Or.inr ⟨r', h, hwant, hcontent, hcount, hlength.trans (max_le hmax
          (Nat.le_max_right _ _))⟩
  · rw [if_neg hbeyond]
    exact pushBack_cases b memory (Nat.lt_of_not_ge hbeyond)

/-- The index after the top one is 0, so the outer vector is emptied and then accessed
beyond its end. -/
theorem addDataBatch_top (b : Option batch) (memory : Memory) (h : r.numPartitions ≤ sizeMax) :
    r.addDataBatch b sizeMax memory = .undefined Repository.empty := by
  have hwrap : wrapSize (sizeMax + 1) = 0 := by decide
  unfold numPartitions at h
  unfold addDataBatch resize
  rw [hwrap, if_pos h, if_pos (Nat.zero_le _), List.take_zero]
  rfl

theorem popNextDataBatch_spec (r : Repository batch) (partition : Nat) :
    (r.popNextDataBatch partition).1 = (r.content partition).head?.join ∧
    (r.popNextDataBatch partition).2.content =
      Function.update r.content partition ((r.content partition).eraseP (fun _ => true)) ∧
    (r.popNextDataBatch partition).2.elements + (if r.size partition = 0 then 0 else 1) =
      r.elements ∧
    (r.popNextDataBatch partition).2.numPartitions = r.numPartitions := by
  rw [size_eq]
  unfold popNextDataBatch
  split
  · rename_i front rest hqueue
    have hlt := (List.getElem?_eq_some_iff.mp hqueue).choose
    have hset := elements_set hqueue rest
    rw [content_of_getElem? hqueue]
    refine ⟨rfl, content_set hlt rest, ?_, List.length_set⟩
    rw [List.length_cons] at hset ⊢
    rw [if_neg (Nat.succ_ne_zero _)]
    dsimp only
    omega
  · rename_i hnot
    have hempty : r.content partition = [] := by
      rcases Option.eq_none_or_eq_some (r.partitions[partition]?) with hnone | ⟨queue, hsome⟩
      · exact content_of_none hnone
      · rw [content_of_getElem? hsome]
        cases queue with
        | nil => rfl
        | cons front rest => exact absurd hsome (hnot front rest)
    refine ⟨?_, ?_, ?_, rfl⟩
    · rw [hempty]
      rfl
    · rw [hempty, List.eraseP_nil, ← hempty, Function.update_eq_self]
    · rw [hempty]
      rfl

theorem eraseById_eq (getBatchId : batch -> UInt64) (id : UInt64)
    (queue : List (Option batch)) :
    eraseById getBatchId id queue = (queue.find? (hasId getBatchId id)).map
      (fun found => (found, queue.eraseP (hasId getBatchId id))) := by
  induction queue with
  | nil => rfl
  | cons b rest ih =>
      unfold eraseById
      cases hb : hasId getBatchId id b with
      | true => simp [hb]
      | false =>
          simp only [Bool.false_eq_true, if_false, ih, List.find?_cons, hb, List.eraseP_cons]
          cases rest.find? (hasId getBatchId id) <;> rfl

theorem popDataBatchById_spec (getBatchId : batch -> UInt64) (r : Repository batch)
    (id : UInt64) (partition : Nat) :
    (r.popDataBatchById getBatchId id partition).1 =
      ((r.content partition).find? (hasId getBatchId id)).join ∧
    (r.popDataBatchById getBatchId id partition).2.content =
      Function.update r.content partition
        ((r.content partition).eraseP (hasId getBatchId id)) ∧
    (r.popDataBatchById getBatchId id partition).2.elements +
      (r.popDataBatchById getBatchId id partition).1.isSome.toNat = r.elements ∧
    (r.popDataBatchById getBatchId id partition).2.numPartitions = r.numPartitions := by
  unfold popDataBatchById
  split
  · rename_i hnone
    have hempty := content_of_none hnone
    refine ⟨?_, ?_, rfl, rfl⟩
    · rw [hempty]
      rfl
    · rw [hempty, List.eraseP_nil, ← hempty, Function.update_eq_self]
  · rename_i queue hqueue
    have hlt := (List.getElem?_eq_some_iff.mp hqueue).choose
    have hhere := content_of_getElem? hqueue
    rw [eraseById_eq]
    rcases Option.eq_none_or_eq_some (queue.find? (hasId getBatchId id)) with
      hfind | ⟨found, hfind⟩
    · have hsame : queue.eraseP (hasId getBatchId id) = queue :=
        List.eraseP_of_forall_not (List.find?_eq_none.mp hfind)
      rw [hhere, hfind, hsame]
      refine ⟨rfl, ?_, rfl, rfl⟩
      show r.content = _
      rw [← hhere, Function.update_eq_self]
    · rw [hhere, hfind]
      refine ⟨rfl, content_set hlt _, ?_, List.length_set⟩
      have hset := elements_set hqueue (queue.eraseP (hasId getBatchId id))
      have hmem := List.mem_of_find?_eq_some hfind
      have hwanted := List.find?_some hfind
      have hlength := List.length_eraseP_of_mem hmem hwanted
      have hpos := List.length_pos_of_mem hmem
      have hsome : found.isSome = true := by
        cases found with
        | none => cases hwanted
        | some b => rfl
      dsimp only [Option.map_some]
      rw [hsome, Bool.toNat_true]
      omega

theorem getDataBatchById_eq (getBatchId : batch -> UInt64) (r : Repository batch) (id : UInt64)
    (partition : Nat) : r.getDataBatchById getBatchId id partition =
      ((r.content partition).find? (hasId getBatchId id)).join := by
  unfold getDataBatchById content
  cases r.partitions[partition]? with
  | none => rfl
  | some queue =>
      dsimp only [Option.getD_some]
      cases queue.find? (hasId getBatchId id) <;> rfl

theorem getBatchIds_eq (getBatchId : batch -> UInt64) (r : Repository batch)
    (partition : Nat) :
    r.getBatchIds getBatchId partition =
      (r.content partition).filterMap (Option.map getBatchId) := by
  unfold getBatchIds content
  cases r.partitions[partition]? <;> rfl

end Calls

/-!
# Runs
-/

/-- What a call returns and does to the contents. -/
def Answers (getBatchId : batch -> UInt64) (s : State batch) (e : Event batch)
    (t : State batch) : Prop :=
  match e with
  | .addDataBatch b partition memory =>
      t.repository.content = Function.update s.repository.content partition
        (s.repository.content partition ++ [b]) ∨
      ((memory ≠ .enough ∨ sizeMax ≤ s.repository.elements) ∧
        t.repository.content = s.repository.content)
  | .popNextDataBatch partition =>
      (s.repository.popNextDataBatch partition).1 =
        (s.repository.content partition).head?.join ∧
      t.repository.content = Function.update s.repository.content partition
        (s.repository.content partition).tail
  | .popDataBatchById id partition =>
      (s.repository.popDataBatchById getBatchId id partition).1 =
        ((s.repository.content partition).find? (hasId getBatchId id)).join ∧
      t.repository.content = Function.update s.repository.content partition
        ((s.repository.content partition).eraseP (hasId getBatchId id))

/-- The functions that only look agree with the contents. -/
structure Observed (getBatchId : batch -> UInt64) (r : Repository batch) : Prop where
  size : forall p, r.size p = (r.content p).length
  totalSize : r.totalSize = ∑ p ∈ Finset.range r.numPartitions, (r.content p).length
  beyond : forall p, r.numPartitions ≤ p -> r.content p = []
  allEmpty : r.allEmpty = true <-> forall p, r.content p = []
  getBatchIds : forall p,
    r.getBatchIds getBatchId p = (r.content p).filterMap (Option.map getBatchId)
  getDataBatchById : forall id p, r.getDataBatchById getBatchId id p =
    ((r.content p).find? (hasId getBatchId id)).join

/-- A call moves its own queue as it should, and no other. -/
structure Queued (getBatchId : batch -> UInt64) (s : State batch) (e : Event batch)
    (t : State batch) : Prop where
  defined : t.undefined = false
  answers : Answers getBatchId s e t
  others : forall p, p ≠ e.partition -> t.repository.content p = s.repository.content p
  content_eq : t.repository.content = t.queues.held
  conserved : t.queues.Conserved
  observed : Observed getBatchId t.repository

/-- The index of an added batch has a successor in `size_t`. -/
def AddsBelowTop (_ : State batch) : Event batch -> Prop
  | .addDataBatch _ partition _ => partition ≠ sizeMax
  | _ => True

/-- Invariant of the runs that add below the top index. -/
structure InStep (s : State batch) : Prop where
  defined : s.undefined = false
  content_eq : s.repository.content = s.queues.held
  conserved : s.queues.Conserved
  elements_le : s.repository.elements ≤ sizeMax
  numPartitions_le : s.repository.numPartitions ≤ sizeMax

section Steps

variable {getBatchId : batch -> UInt64} {s t : State batch} {e : Event batch}

theorem observed_of_fits {r : Repository batch} (h : r.elements ≤ sizeMax) :
    Observed getBatchId r :=
  ⟨r.size_eq, (totalSize_eq h).trans r.elements_eq_sum, fun _ => content_eq_nil_of_le,
    r.allEmpty_iff, r.getBatchIds_eq getBatchId, r.getDataBatchById_eq getBatchId⟩

/-- The frame of a call follows from what it does to its own queue. -/
theorem others_of_answers (h : Answers getBatchId s e t) :
    forall p, p ≠ e.partition -> t.repository.content p = s.repository.content p := by
  intro p hp
  cases e with
  | addDataBatch b partition memory =>
      rcases h with h | ⟨_, h⟩
      · rw [h]
        exact Function.update_of_ne hp _ _
      · rw [h]
  | popNextDataBatch partition =>
      rw [h.right]
      exact Function.update_of_ne hp _ _
  | popDataBatchById id partition =>
      rw [h.right]
      exact Function.update_of_ne hp _ _

theorem InStep.queued (h : InStep t) (hanswers : Answers getBatchId s e t) :
    Queued getBatchId s e t :=
  ⟨h.defined, hanswers, others_of_answers hanswers, h.content_eq, h.conserved,
    observed_of_fits h.elements_le⟩

theorem eraseP_true (xs : List (Option batch)) : xs.eraseP (fun _ => true) = xs.tail := by
  cases xs <;> rfl

/-- An addition below the top index. -/
theorem inStep_add (h : InStep s) {b : Option batch} {partition : Nat} {memory : Memory}
    (hbelow : partition < sizeMax)
    (hstep : step getBatchId s (.addDataBatch b partition memory) = some t) :
    InStep t ∧ Answers getBatchId s (.addDataBatch b partition memory) t := by
  have hguard : s.undefined = false ∧
      (Event.addDataBatch b partition memory).partition ≤ sizeMax :=
    ⟨h.defined, Nat.le_of_lt hbelow⟩
  simp only [step, if_pos hguard] at hstep
  rcases addDataBatch_cases (r := s.repository) b memory hbelow with
    ⟨r, hr, hcontent, hcount, hroom, hlength⟩ | ⟨r, hr, hwant, hcontent, hcount, hlength⟩
  · rw [hr] at hstep
    cases hstep
    refine ⟨⟨h.defined, ?_, h.conserved.push partition b, ?_, ?_⟩, Or.inl hcontent⟩
    · show r.content = (s.queues.push partition b).held
      rw [hcontent, h.content_eq]
      rfl
    · exact hcount.trans_le hroom
    · exact hlength.trans (max_le h.numPartitions_le hbelow)
  · rw [hr] at hstep
    cases hstep
    refine ⟨⟨h.defined, hcontent.trans h.content_eq, h.conserved, ?_, ?_⟩,
      Or.inr ⟨hwant, hcontent⟩⟩
    · exact hcount.trans_le h.elements_le
    · exact hlength.trans (max_le h.numPartitions_le hbelow)

theorem inStep_step (h : InStep s) (hok : AddsBelowTop s e)
    (hstep : step getBatchId s e = some t) : InStep t ∧ Queued getBatchId s e t := by
  have hguard : s.undefined = false ∧ e.partition ≤ sizeMax := by
    by_contra hnot
    simp only [step, if_neg hnot] at hstep
    cases hstep
  cases e with
  | addDataBatch b partition memory =>
      have hnext := inStep_add h (Nat.lt_of_le_of_ne hguard.right hok) hstep
      exact ⟨hnext.left, hnext.left.queued hnext.right⟩
  | popNextDataBatch partition =>
      have hspec := s.repository.popNextDataBatch_spec partition
      simp only [step, if_pos hguard] at hstep
      cases hstep
      have hnext : InStep { s with
          repository := (s.repository.popNextDataBatch partition).2
          queues := s.queues.take partition (fun _ => true) } := by
        refine ⟨h.defined, ?_, h.conserved.take partition _,
          (Nat.le_of_add_right_le (Nat.le_of_eq hspec.right.right.left)).trans h.elements_le,
          hspec.right.right.right.trans_le h.numPartitions_le⟩
        show (s.repository.popNextDataBatch partition).2.content = _
        rw [hspec.right.left, h.content_eq]
        rfl
      refine ⟨hnext, hnext.queued ⟨hspec.left, ?_⟩⟩
      rw [← eraseP_true]
      exact hspec.right.left
  | popDataBatchById id partition =>
      have hspec := popDataBatchById_spec getBatchId s.repository id partition
      simp only [step, if_pos hguard] at hstep
      cases hstep
      have hnext : InStep { s with
          repository := (s.repository.popDataBatchById getBatchId id partition).2
          queues := s.queues.take partition (hasId getBatchId id) } := by
        refine ⟨h.defined, ?_, h.conserved.take partition _,
          (Nat.le_of_add_right_le (Nat.le_of_eq hspec.right.right.left)).trans h.elements_le,
          hspec.right.right.right.trans_le h.numPartitions_le⟩
        show (s.repository.popDataBatchById getBatchId id partition).2.content = _
        rw [hspec.right.left, h.content_eq]
        rfl
      exact ⟨hnext, hnext.queued ⟨hspec.left, hspec.right.left⟩⟩

/-- An addition at the top index leaves the vectors. -/
theorem addsBelowTop_of_defined (h : InStep s) (hstep : step getBatchId s e = some t)
    (hdefined : t.undefined = false) : AddsBelowTop s e := by
  cases e with
  | addDataBatch b partition memory =>
      rintro rfl
      have hguard : s.undefined = false ∧
          (Event.addDataBatch b sizeMax memory).partition ≤ sizeMax :=
        ⟨h.defined, Nat.le_refl _⟩
      simp only [step, if_pos hguard, addDataBatch_top b memory h.numPartitions_le] at hstep
      cases hstep
      cases hdefined
  | popNextDataBatch partition => trivial
  | popDataBatchById id partition => trivial

end Steps

theorem inStep_initial : InStep (State.initial : State batch) :=
  ⟨rfl, rfl, Queues.conserved_empty, Nat.zero_le _, Nat.zero_le _⟩

/-- The partitions are independent queues in a run exactly when no batch is added at the
top index. -/
theorem partitions_queued_iff (getBatchId : batch -> UInt64) (events : List (Event batch)) :
    (repositoryMachine getBatchId).Throughout (Queued getBatchId) State.initial events <->
      (repositoryMachine getBatchId).Along AddsBelowTop State.initial events := by
  have hstep : forall s e t, InStep s -> AddsBelowTop s e ->
      (repositoryMachine getBatchId).step s e = some t ->
      InStep t ∧ Queued getBatchId s e t :=
    fun s e t hs hok h => inStep_step hs hok h
  have hfail : forall s e t, InStep s -> (repositoryMachine getBatchId).step s e = some t ->
      Queued getBatchId s e t -> AddsBelowTop s e :=
    fun s e t hs h hgood => addsBelowTop_of_defined hs h hgood.defined
  exact Machine.throughout_iff_along hstep hfail inStep_initial

/-- A batch added at the top index drops the batch of partition 0 and is stored nowhere. -/
theorem batch_lost_by_top_index :
    exists s t : State UInt64,
      (repositoryMachine id).run State.initial [.addDataBatch (some 7) 0 .enough] = some s ∧
      (repositoryMachine id).step s (.addDataBatch (some 8) sizeMax .enough) = some t ∧
      s.repository.content 0 = [some 7] ∧ t.repository.content 0 = [] ∧
      t.undefined = true ∧
      ¬ (repositoryMachine id).Throughout (Queued id) State.initial
        [.addDataBatch (some 7) 0 .enough, .addDataBatch (some 8) sizeMax .enough] := by
  refine ⟨_, _, rfl, rfl, rfl, rfl, rfl, ?_⟩
  intro hgood
  cases ((hgood _ rfl).right _ rfl).left.defined

end Repository
end Data
end Cuda2Rocm
