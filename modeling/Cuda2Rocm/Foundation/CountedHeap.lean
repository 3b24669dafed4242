import Cuda2Rocm.Foundation.Runs
import Cuda2Rocm.Foundation.Table
import Mathlib.Data.List.Count

/-!
# Heaps of counted objects

Each object lives in a cell that counts the pointers to it.  Who copies a pointer retains
its cell, who gives one up releases it, and the last one to go takes the object with it.
The counts are right when they are those of the pointers there are, wherever these are kept.
-/

namespace Cuda2Rocm
namespace Foundation

structure Cell (object : Type _) where
  uses : Nat
  object : object

/-- The cells by their numbers, how many were made, and what was destroyed, in order. -/
structure CountedHeap (object : Type _) where
  cells : Table Nat (Cell object)
  made : Nat
  destroyed : List (Nat × object)

namespace CountedHeap

variable {object : Type _}

def empty : CountedHeap object := { cells := Table.empty, made := 0, destroyed := [] }

/-- A new object with one pointer to it, which is `made`. -/
def allocate (heap : CountedHeap object) (o : object) : CountedHeap object :=
  { heap with
    cells := heap.cells.insert heap.made { uses := 1, object := o }
    made := heap.made + 1 }

/-- A pointer, unless it is null, is copied. -/
def retain (heap : CountedHeap object) (pointer : Option Nat) : CountedHeap object :=
  match pointer with
  | none => heap
  | some x =>
      match heap.cells.lookup x with
      | none => heap
      | some cell =>
          { heap with cells := heap.cells.insert x { cell with uses := cell.uses + 1 } }

/-- A pointer, unless it is null, is given up. -/
def release (heap : CountedHeap object) (pointer : Option Nat) : CountedHeap object :=
  match pointer with
  | none => heap
  | some x =>
      match heap.cells.lookup x with
      | none => heap
      | some cell =>
          if cell.uses = 1 then
            { heap with
              cells := heap.cells.erase x
              destroyed := heap.destroyed ++ [(x, cell.object)] }
          else { heap with cells := heap.cells.insert x { cell with uses := cell.uses - 1 } }

/-- The object is changed in place. -/
def modify (heap : CountedHeap object) (x : Nat) (f : object -> object) : CountedHeap object :=
  match heap.cells.lookup x with
  | none => heap
  | some cell =>
      { heap with cells := heap.cells.insert x { cell with object := f cell.object } }

/-- The pointers to a cell that a single one is. -/
def pointsTo (pointer : Option Nat) (x : Nat) : Nat := if pointer = some x then 1 else 0

@[simp] theorem pointsTo_none (x : Nat) : pointsTo none x = 0 := rfl

@[simp] theorem pointsTo_self (x : Nat) : pointsTo (some x) x = 1 := if_pos rfl

theorem pointsTo_ne {x y : Nat} (h : x ≠ y) : pointsTo (some y) x = 0 :=
  if_neg (fun heq => h (Option.some.inj heq).symm)

/-- The cells count so many pointers each, and every object that was made is in its cell or
was destroyed once. -/
structure Counted (heap : CountedHeap object) (pointers : Nat -> Nat) : Prop where
  counted : forall x cell, heap.cells.lookup x = some cell ->
    cell.uses = pointers x ∧ cell.uses ≠ 0
  alive : forall x, pointers x ≠ 0 -> exists cell, heap.cells.lookup x = some cell
  once : forall x, (heap.cells.lookup x).isSome.toNat + (heap.destroyed.map Prod.fst).count x =
    if x < heap.made then 1 else 0

theorem counted_empty : (empty : CountedHeap object).Counted (fun _ => 0) where
  counted := fun _ _ h => by cases h
  alive := fun _ h => absurd rfl h
  once := fun _ => rfl

namespace Counted

variable {heap : CountedHeap object} {pointers : Nat -> Nat} {pointer : Option Nat}

/-- The next number is not in use. -/
theorem fresh (h : heap.Counted pointers) : heap.cells.lookup heap.made = none := by
  have honce := h.once heap.made
  rw [if_neg (Nat.lt_irrefl _)] at honce
  cases hlookup : heap.cells.lookup heap.made with
  | none => rfl
  | some cell =>
      rw [hlookup] at honce
      have hone : (some cell).isSome.toNat = 1 := rfl
      omega

theorem allocate (h : heap.Counted pointers) (o : object) :
    (heap.allocate o).Counted (fun x => pointers x + pointsTo (some heap.made) x) where
  counted := by
    intro x cell hcell
    rcases Table.lookup_of_lookup_insert hcell with ⟨rfl, rfl⟩ | ⟨hne, hold⟩
    · have hnone : pointers heap.made = 0 := by
        by_contra hsome
        rcases h.alive _ hsome with ⟨cell, hcell⟩
        rw [h.fresh] at hcell
        cases hcell
      rw [hnone, pointsTo_self]
      exact ⟨rfl, Nat.one_ne_zero⟩
    · rw [pointsTo_ne hne]
      exact h.counted x cell hold
  alive := by
    intro x hx
    by_cases hsame : x = heap.made
    · rw [hsame]
      exact ⟨_, Table.lookup_insert_self _ _ _⟩
    · rw [pointsTo_ne hsame] at hx
      rcases h.alive x hx with ⟨cell, hcell⟩
      exists cell
      exact (Table.lookup_insert_ne hsame _ _).trans hcell
  once := by
    intro x
    have honce := h.once x
    change ((heap.cells.insert heap.made { uses := 1, object := o }).lookup x).isSome.toNat +
      (heap.destroyed.map Prod.fst).count x = if x < heap.made + 1 then 1 else 0
    by_cases hsame : x = heap.made
    · rw [hsame, h.fresh, if_neg (Nat.lt_irrefl _)] at honce
      rw [hsame, Table.lookup_insert_self, if_pos (Nat.lt_succ_self _)]
      simp only [Option.isSome_some, Option.isSome_none, Bool.toNat_true,
        Bool.toNat_false] at honce ⊢
      omega
    · rw [Table.lookup_insert_ne hsame, honce]
      congr 1
      exact propext ⟨Nat.lt_succ_of_lt, fun hlt =>
        Nat.lt_of_le_of_ne (Nat.le_of_lt_succ hlt) hsame⟩

/-- A cell is replaced by one with another count. -/
theorem recount {x uses : Nat} {cell : Cell object} {pointers' : Nat -> Nat}
    (h : heap.Counted pointers) (hcell : heap.cells.lookup x = some cell)
    (hhere : uses = pointers' x) (hused : uses ≠ 0)
    (hothers : forall y, y ≠ x -> pointers' y = pointers y) (o : object) :
    Counted { heap with cells := heap.cells.insert x { uses := uses, object := o } }
      pointers' where
  counted := by
    intro y cell' hcell'
    rcases Table.lookup_of_lookup_insert hcell' with ⟨rfl, rfl⟩ | ⟨hne, hold⟩
    · exact ⟨hhere, hused⟩
    · rw [hothers y hne]
      exact h.counted y cell' hold
  alive := by
    intro y hy
    by_cases hsame : y = x
    · rw [hsame]
      exact ⟨_, Table.lookup_insert_self _ _ _⟩
    · rw [hothers y hsame] at hy
      rcases h.alive y hy with ⟨cell', hcell'⟩
      exists cell'
      exact (Table.lookup_insert_ne hsame _ _).trans hcell'
  once := by
    intro y
    have honce := h.once y
    by_cases hsame : y = x
    · rw [hsame, hcell] at honce
      rw [hsame]
      simp only [Table.lookup_insert_self]
      exact honce
    · simp only [Table.lookup_insert_ne hsame]
      exact honce

theorem retain (h : heap.Counted pointers)
    (hpointer : forall x, pointer = some x -> pointers x ≠ 0) :
    (heap.retain pointer).Counted (fun x => pointers x + pointsTo pointer x) := by
  cases pointer with
  | none => exact h
  | some x =>
      rcases h.alive x (hpointer x rfl) with ⟨cell, hcell⟩
      simp only [CountedHeap.retain, hcell]
      apply h.recount hcell
      · rw [pointsTo_self, (h.counted x cell hcell).left]
      · exact Nat.succ_ne_zero _
      · intro y hy
        rw [pointsTo_ne hy, Nat.add_zero]

theorem release (h : heap.Counted (fun x => pointers x + pointsTo pointer x)) :
    (heap.release pointer).Counted pointers := by
  cases pointer with
  | none => exact h
  | some x =>
      have hpointed : pointers x + pointsTo (some x) x ≠ 0 := by
        rw [pointsTo_self]
        exact Nat.succ_ne_zero _
      rcases h.alive x hpointed with ⟨cell, hcell⟩
      have huses : cell.uses = pointers x + 1 := by
        rw [(h.counted x cell hcell).left, pointsTo_self]
      simp only [CountedHeap.release, hcell]
      split
      · rename_i hlast
        have hnone : pointers x = 0 := by omega
        constructor
        · intro y cell' hcell'
          rcases Table.lookup_of_lookup_erase hcell' with ⟨hne, hold⟩
          have hcounted := h.counted y cell' hold
          rw [pointsTo_ne hne] at hcounted
          exact hcounted
        · intro y hy
          have hne : y ≠ x := by
            intro heq
            rw [heq] at hy
            exact hy hnone
          have hmore : pointers y + pointsTo (some x) y ≠ 0 := by
            rw [pointsTo_ne hne]
            exact hy
          rcases h.alive y hmore with ⟨cell', hcell'⟩
          exists cell'
          exact (Table.lookup_erase_ne hne _).trans hcell'
        · intro y
          have honce := h.once y
          rw [List.map_append, List.count_append, List.map_singleton, List.count_singleton]
          by_cases hsame : y = x
          · rw [hsame, hcell] at honce
            rw [hsame, Table.lookup_erase_self]
            simp only [Option.isSome_some, Option.isSome_none, Bool.toNat_true,
              Bool.toNat_false, beq_self_eq_true, if_true] at honce ⊢
            omega
          · have hdiffers : (x == y) = false := beq_false_of_ne (Ne.symm hsame)
            rw [Table.lookup_erase_ne hsame]
            simp only [hdiffers, Bool.false_eq_true, if_false, Nat.add_zero]
            exact honce
      · rename_i hmore
        apply h.recount hcell
        · omega
        · omega
        · intro y hy
          rw [pointsTo_ne hy, Nat.add_zero]

theorem modify (h : heap.Counted pointers) (x : Nat) (f : object -> object) :
    (heap.modify x f).Counted pointers := by
  unfold CountedHeap.modify
  split
  · exact h
  · rename_i cell hcell
    exact h.recount hcell (h.counted x cell hcell).left (h.counted x cell hcell).right
      (fun _ _ => rfl) _

end Counted

/-!
# What becomes of the objects
-/

/-- A quantity of all objects that were made, destroyed or not. -/
def total (heap : CountedHeap object) (f : object -> Nat) : Nat :=
  heap.cells.sum (fun _ cell => f cell.object) +
    (heap.destroyed.map (fun entry => f entry.2)).sum

variable (heap : CountedHeap object) (f : object -> Nat)

/-- A count is not part of an object. -/
theorem total_recount {heap : CountedHeap object} {x : Nat} {cell : Cell object}
    (hcell : heap.cells.lookup x = some cell) (uses : Nat) :
    total { heap with cells := heap.cells.insert x { cell with uses := uses } } f =
      heap.total f := by
  have hreplace := Table.sum_replace hcell { cell with uses := uses }
    (fun _ cell => f cell.object)
  simp only at hreplace
  unfold total
  simp only
  omega

theorem total_retain (pointer : Option Nat) :
    (heap.retain pointer).total f = heap.total f := by
  cases pointer with
  | none => rfl
  | some x =>
      unfold retain
      simp only
      split
      · rfl
      · rename_i cell hcell
        exact total_recount f hcell _

/-- What is released is destroyed or stays. -/
theorem total_release (pointer : Option Nat) :
    (heap.release pointer).total f = heap.total f := by
  cases pointer with
  | none => rfl
  | some x =>
      unfold release
      simp only
      split
      · rfl
      · rename_i cell hcell
        split
        · have herase := Table.sum_of_lookup hcell (fun _ cell => f cell.object)
          unfold total
          rw [List.map_append, List.sum_append, herase]
          simp only [List.map_cons, List.map_nil, List.sum_cons, List.sum_nil]
          omega
        · exact total_recount f hcell _

theorem total_allocate {heap : CountedHeap object} (hfresh : heap.cells.lookup heap.made = none)
    (o : object) : (heap.allocate o).total f = heap.total f + f o := by
  unfold total allocate
  rw [Table.sum_insert_of_none hfresh]
  simp only
  omega

theorem total_modify {heap : CountedHeap object} {x : Nat} {cell : Cell object}
    (hcell : heap.cells.lookup x = some cell) (g : object -> object) :
    (heap.modify x g).total f + f cell.object = heap.total f + f (g cell.object) := by
  have hreplace := Table.sum_replace hcell { cell with object := g cell.object }
    (fun _ cell => f cell.object)
  simp only at hreplace
  unfold total modify
  simp only [hcell]
  omega

end CountedHeap

end Foundation
end Cuda2Rocm
