import Cuda2Rocm.Foundation.Runs
import Mathlib.Data.Finset.Card

/-!
# Atomic sets

What a set that many callers share is for: an insertion or a query is called, and some time
later it happens at once and its caller has the answer.  The set only grows.  An insertion
may be refused, when the set holds as many keys as the key in question has room for.  A
query that misses what others have inserted may be denied a key that the set holds.
-/

namespace Cuda2Rocm
namespace Foundation

/-- An insertion that was called. -/
inductive Insertion (key : Type _) where
  | waiting (k : key)
  | inserted (k : key)
  | refused (k : key)
deriving DecidableEq

/-- A query that was called. -/
inductive Query (key : Type _) where
  | waiting (k : key)
  | answered (k : key) (found : Bool)
deriving DecidableEq

/-- The keys in the set, and every call so far. -/
structure AtomicSet (key : Type _) where
  members : Finset key
  insertions : List (Insertion key)
  queries : List (Query key)

namespace AtomicSet

inductive Event (key : Type _) where
  | callInsert (keys : List key)
  | callQuery (keys : List key)
  | insert (call : Nat)
  | refuse (call : Nat)
  | answer (call : Nat)
  | deny (call : Nat)

variable {key : Type _} [DecidableEq key]

/-- Every call happens at one moment; `room` bounds when a key can be refused. -/
def machine (room : key -> Nat) : Machine (AtomicSet key) (Event key) where
  step s e :=
    match e with
    | .callInsert keys =>
        some { s with insertions := s.insertions ++ keys.map Insertion.waiting }
    | .callQuery keys => some { s with queries := s.queries ++ keys.map Query.waiting }
    | .insert call =>
        match s.insertions[call]? with
        | some (.waiting k) =>
            some { s with
              members := insert k s.members
              insertions := s.insertions.set call (.inserted k) }
        | _ => none
    | .refuse call =>
        match s.insertions[call]? with
        | some (.waiting k) =>
            if k ∉ s.members ∧ room k ≤ s.members.card then
              some { s with insertions := s.insertions.set call (.refused k) }
            else none
        | _ => none
    | .answer call =>
        match s.queries[call]? with
        | some (.waiting k) =>
            some { s with
              queries := s.queries.set call (.answered k (decide (k ∈ s.members))) }
        | _ => none
    | .deny call =>
        match s.queries[call]? with
        | some (.waiting k) =>
            some { s with queries := s.queries.set call (.answered k false) }
        | _ => none

def empty : AtomicSet key :=
  { members := ∅, insertions := [], queries := [] }

variable {room : key -> Nat}

/-- What a step can be. -/
theorem step_cases {s t : AtomicSet key} {e : Event key}
    (h : (machine room).step s e = some t) :
    (exists keys, e = .callInsert keys ∧
      t = { s with insertions := s.insertions ++ keys.map Insertion.waiting }) ∨
    (exists keys, e = .callQuery keys ∧
      t = { s with queries := s.queries ++ keys.map Query.waiting }) ∨
    (exists call k, e = .insert call ∧ s.insertions[call]? = some (.waiting k) ∧
      t = { s with
        members := insert k s.members
        insertions := s.insertions.set call (.inserted k) }) ∨
    (exists call k, e = .refuse call ∧ s.insertions[call]? = some (.waiting k) ∧
      k ∉ s.members ∧ room k ≤ s.members.card ∧
      t = { s with insertions := s.insertions.set call (.refused k) }) ∨
    (exists call k, e = .answer call ∧ s.queries[call]? = some (.waiting k) ∧
      t = { s with
        queries := s.queries.set call (.answered k (decide (k ∈ s.members))) }) ∨
    (exists call k, e = .deny call ∧ s.queries[call]? = some (.waiting k) ∧
      t = { s with queries := s.queries.set call (.answered k false) }) := by
  cases e with
  | callInsert keys => exact Or.inl ⟨keys, rfl, (Option.some.inj h).symm⟩
  | callQuery keys => exact Or.inr (Or.inl ⟨keys, rfl, (Option.some.inj h).symm⟩)
  | insert call =>
      apply Or.inr ∘ Or.inr ∘ Or.inl
      simp only [machine] at h
      split at h
      · rename_i k hcall
        exact ⟨call, k, rfl, hcall, (Option.some.inj h).symm⟩
      · cases h
  | refuse call =>
      apply Or.inr ∘ Or.inr ∘ Or.inr ∘ Or.inl
      simp only [machine] at h
      split at h
      · rename_i k hcall
        split at h
        · rename_i hfull
          exact ⟨call, k, rfl, hcall, hfull.left, hfull.right, (Option.some.inj h).symm⟩
        · cases h
      · cases h
  | answer call =>
      apply Or.inr ∘ Or.inr ∘ Or.inr ∘ Or.inr ∘ Or.inl
      simp only [machine] at h
      split at h
      · rename_i k hcall
        exact ⟨call, k, rfl, hcall, (Option.some.inj h).symm⟩
      · cases h
  | deny call =>
      apply Or.inr ∘ Or.inr ∘ Or.inr ∘ Or.inr ∘ Or.inr
      simp only [machine] at h
      split at h
      · rename_i k hcall
        exact ⟨call, k, rfl, hcall, (Option.some.inj h).symm⟩
      · cases h

/-!
# Every run
-/

/-- The key is held, and this query was not told otherwise. -/
def Told (k : key) (call : Nat) (s : AtomicSet key) : Prop :=
  k ∈ s.members ∧ s.queries[call]? ≠ some (.answered k false)

theorem told_step {s t : AtomicSet key} {e : Event key} {k : key} {call : Nat}
    (hs : Told k call s) (hsees : e ≠ .deny call) (h : (machine room).step s e = some t) :
    Told k call t := by
  rcases step_cases h with ⟨keys, _, rfl⟩ | ⟨keys, _, rfl⟩ | ⟨call', k', _, _, rfl⟩ |
    ⟨call', k', _, _, _, _, rfl⟩ | ⟨call', k', _, hcall, rfl⟩ | ⟨call', k', rfl, _, rfl⟩
  · exact hs
  · apply And.intro hs.left
    intro hlate
    rcases Nat.lt_or_ge call s.queries.length with hlt | hge
    · rw [List.getElem?_append_left hlt] at hlate
      exact hs.right hlate
    · rw [List.getElem?_append_right hge] at hlate
      rcases List.mem_map.mp (List.mem_of_getElem? hlate) with ⟨x, _, heq⟩
      cases heq
  · exact ⟨Finset.mem_insert_of_mem hs.left, hs.right⟩
  · exact hs
  · apply And.intro hs.left
    intro hlate
    by_cases hsame : call' = call
    · subst hsame
      rw [List.getElem?_set_self (List.getElem?_eq_some_iff.mp hcall).1, Option.some.injEq,
        Query.answered.injEq] at hlate
      rw [hlate.left] at hlate
      exact absurd hs.left (of_decide_eq_false hlate.right)
    · rw [List.getElem?_set_ne hsame] at hlate
      exact hs.right hlate
  · apply And.intro hs.left
    intro hlate
    have hsame : call' ≠ call := fun heq => hsees (by rw [heq])
    rw [List.getElem?_set_ne hsame] at hlate
    exact hs.right hlate

end AtomicSet
end Foundation
end Cuda2Rocm
