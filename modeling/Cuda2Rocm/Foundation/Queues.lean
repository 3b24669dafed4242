import Mathlib.Data.List.Nodup
import Mathlib.Data.List.Perm.Basic
import Mathlib.Logic.Function.Basic

/-!
# Families of queues

One queue for each index.  An operation appends an item to one queue or takes the oldest
wanted item out of one.  What was added to each queue and what was taken out of it are
recorded beside the queues.
-/

namespace Cuda2Rocm
namespace Foundation

structure Queues (index : Type _) (item : Type _) where
  held : index -> List item
  added : index -> List item
  taken : index -> List item

namespace Queues

variable {index item : Type _}

def empty : Queues index item :=
  { held := fun _ => [], added := fun _ => [], taken := fun _ => [] }

/-- What is held was added in this order, and each added item is held or was taken, not
both. -/
structure Conserved (q : Queues index item) : Prop where
  ordered : forall i, (q.held i).Sublist (q.added i)
  shared : forall i, (q.held i ++ q.taken i).Perm (q.added i)

theorem conserved_empty : Conserved (empty : Queues index item) :=
  ⟨fun _ => List.Sublist.refl [], fun _ => List.Perm.refl []⟩

/-- The oldest wanted item, together with the others, is the whole queue. -/
theorem eraseP_append_find?_perm (wanted : item -> Bool) (xs : List item) :
    (xs.eraseP wanted ++ (xs.find? wanted).toList).Perm xs := by
  induction xs with
  | nil => exact List.Perm.refl []
  | cons x rest ih =>
      cases hx : wanted x with
      | true =>
          rw [List.eraseP_cons_of_pos hx, List.find?_cons_of_pos hx]
          exact List.perm_append_singleton x rest
      | false =>
          have hnot : ¬ wanted x = true := by rw [hx]; exact Bool.false_ne_true
          rw [List.eraseP_cons_of_neg hnot, List.find?_cons_of_neg hnot]
          exact List.Perm.cons x ih

variable [DecidableEq index]

def push (q : Queues index item) (i : index) (x : item) : Queues index item :=
  { q with
    held := Function.update q.held i (q.held i ++ [x])
    added := Function.update q.added i (q.added i ++ [x]) }

/-- Take out the oldest item that is wanted, if there is one. -/
def take (q : Queues index item) (i : index) (wanted : item -> Bool) : Queues index item :=
  { q with
    held := Function.update q.held i ((q.held i).eraseP wanted)
    taken := Function.update q.taken i
      (q.taken i ++ ((q.held i).find? wanted).toList) }

/-- Append an item to each queue of a list, as often as it is there. -/
def pushAll (q : Queues index item) (targets : List index) (x : item) : Queues index item :=
  targets.foldl (fun q i => q.push i x) q

/-- Put new queues in the place of some, and forget what these were. -/
def restart (q : Queues index item) (which : index -> Prop) [DecidablePred which]
    (items : index -> List item) : Queues index item :=
  { held := fun i => if which i then items i else q.held i
    added := fun i => if which i then items i else q.added i
    taken := fun i => if which i then [] else q.taken i }

section Steps

variable {q : Queues index item}

theorem Conserved.push (h : Conserved q) (i : index) (x : item) :
    Conserved (q.push i x) := by
  constructor
  · intro j
    simp only [Queues.push]
    by_cases hj : j = i
    · subst hj
      rw [Function.update_self, Function.update_self]
      exact (h.ordered j).append (List.Sublist.refl [x])
    · rw [Function.update_of_ne hj, Function.update_of_ne hj]
      exact h.ordered j
  · intro j
    simp only [Queues.push]
    by_cases hj : j = i
    · subst hj
      rw [Function.update_self, Function.update_self, List.append_assoc]
      have hswap : (q.held j ++ ([x] ++ q.taken j)).Perm (q.held j ++ (q.taken j ++ [x])) :=
        List.Perm.append_left _ List.perm_append_comm
      rw [← List.append_assoc (q.held j) (q.taken j)] at hswap
      exact hswap.trans ((h.shared j).append_right [x])
    · rw [Function.update_of_ne hj, Function.update_of_ne hj]
      exact h.shared j

theorem Conserved.take (h : Conserved q) (i : index) (wanted : item -> Bool) :
    Conserved (q.take i wanted) := by
  constructor
  · intro j
    simp only [Queues.take]
    by_cases hj : j = i
    · subst hj
      rw [Function.update_self]
      exact List.eraseP_sublist.trans (h.ordered j)
    · rw [Function.update_of_ne hj]
      exact h.ordered j
  · intro j
    simp only [Queues.take]
    by_cases hj : j = i
    · subst hj
      rw [Function.update_self, Function.update_self]
      have hswap : (List.eraseP wanted (q.held j) ++
            (q.taken j ++ ((q.held j).find? wanted).toList)).Perm
          (List.eraseP wanted (q.held j) ++ ((q.held j).find? wanted).toList ++ q.taken j) := by
        rw [List.append_assoc]
        exact List.Perm.append_left _ List.perm_append_comm
      have hwhole := (eraseP_append_find?_perm wanted (q.held j)).append_right (q.taken j)
      exact hswap.trans (hwhole.trans (h.shared j))
    · rw [Function.update_of_ne hj, Function.update_of_ne hj]
      exact h.shared j

theorem Conserved.pushAll (h : Conserved q) (targets : List index) (x : item) :
    Conserved (q.pushAll targets x) := by
  induction targets generalizing q with
  | nil => exact h
  | cons i rest ih => exact ih (h.push i x)

omit [DecidableEq index] in
theorem Conserved.restart (h : Conserved q) (which : index -> Prop) [DecidablePred which]
    (items : index -> List item) : Conserved (q.restart which items) := by
  constructor
  · intro i
    simp only [Queues.restart]
    split
    · exact List.Sublist.refl _
    · exact h.ordered i
  · intro i
    simp only [Queues.restart]
    split
    · rw [List.append_nil]
    · exact h.shared i

theorem added_pushAll (targets : List index) (x : item) (i : index) :
    (q.pushAll targets x).added i = q.added i ++ List.replicate (targets.count i) x := by
  induction targets generalizing q with
  | nil => exact (List.append_nil _).symm
  | cons j rest ih =>
      have hrest := ih (q := q.push j x)
      change (q.pushAll (j :: rest) x).added i = _ at hrest
      rw [hrest]
      simp only [Queues.push]
      by_cases hi : i = j
      · subst hi
        rw [Function.update_self, List.count_cons_self, List.append_assoc,
          List.replicate_succ]
        rfl
      · rw [Function.update_of_ne hi, List.count_cons_of_ne (Ne.symm hi)]

/-- Each queue of a list without repetition gets one item. -/
theorem nodup_pushed {targets : List index} (h : targets.Nodup) (i : index) (x : item) :
    (List.replicate (targets.count i) x).Nodup :=
  List.nodup_replicate.mpr (List.nodup_iff_count_le_one.mp h i)

/-!
# Queues whose items are taken from the front
-/

/-- What was taken from a queue was added before all that it holds. -/
def InOrder (q : Queues index item) (i : index) : Prop := q.added i = q.taken i ++ q.held i

theorem InOrder.push {i : index} (h : InOrder q i) (j : index) (x : item) :
    InOrder (q.push j x) i := by
  unfold InOrder at h ⊢
  simp only [Queues.push]
  by_cases hi : i = j
  · subst hi
    rw [Function.update_self, Function.update_self, h, List.append_assoc]
  · rw [Function.update_of_ne hi, Function.update_of_ne hi]
    exact h

theorem InOrder.pushAll {i : index} (h : InOrder q i) (targets : List index) (x : item) :
    InOrder (q.pushAll targets x) i := by
  induction targets generalizing q with
  | nil => exact h
  | cons j rest ih => exact ih (h.push j x)

/-- From the queue itself the oldest item is taken, whatever it is. -/
theorem InOrder.take {i j : index} (h : InOrder q i) {wanted : item -> Bool}
    (hfront : i = j -> forall x, wanted x = true) : InOrder (q.take j wanted) i := by
  unfold InOrder at h ⊢
  simp only [Queues.take]
  by_cases hi : i = j
  · have hall := hfront hi
    subst hi
    rw [Function.update_self, Function.update_self, h]
    cases q.held i with
    | nil => simp
    | cons x rest => simp [hall x]
  · rw [Function.update_of_ne hi, Function.update_of_ne hi]
    exact h

omit [DecidableEq index] in
theorem InOrder.restart {i : index} (h : InOrder q i) (which : index -> Prop)
    [DecidablePred which] (items : index -> List item) : InOrder (q.restart which items) i := by
  unfold InOrder at h ⊢
  simp only [Queues.restart]
  split
  · rfl
  · exact h

end Steps

end Queues

end Foundation
end Cuda2Rocm
