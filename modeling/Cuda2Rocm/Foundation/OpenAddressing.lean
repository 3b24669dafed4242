import Mathlib.Data.Fintype.Card
import Mathlib.Logic.Function.Basic

/-!
# Open addressing

A board assigns to each slot the key it holds, if any.  Every key comes with a
sequence of slots to try.  This module relates where keys sit on an insert-only
board to what a search along the same sequence finds.
-/

namespace Cuda2Rocm
namespace Foundation
namespace OpenAddressing

variable {slot key : Type _}

/-- What each slot holds. -/
abbrev Board (slot key : Type _) := slot -> Option key

/-- The first `n` slots a key tries all hold other keys. -/
def Blocked (board : Board slot key) (seq : key -> Nat -> slot) (k : key)
    (n : Nat) : Prop :=
  forall q, q < n -> exists other, board (seq k q) = some other ∧ other ≠ k

/-- A key sits at the first of its slots that was free for it. -/
def Placed (board : Board slot key) (seq : key -> Nat -> slot) (limit : Nat)
    (k : key) (i : slot) : Prop :=
  exists p, p < limit ∧ seq k p = i ∧ board i = some k ∧ Blocked board seq k p

/-- Every key on the board is placed. -/
def WellPlaced (board : Board slot key) (seq : key -> Nat -> slot)
    (limit : Nat) : Prop :=
  forall i k, board i = some k -> Placed board seq limit k i

/-- Every held slot keeps its key. -/
def Extends (board later : Board slot key) : Prop :=
  forall i k, board i = some k -> later i = some k

theorem extends_refl (board : Board slot key) : Extends board board :=
  fun _ _ h => h

theorem extends_trans {first second third : Board slot key}
    (h : Extends first second) (k : Extends second third) :
    Extends first third :=
  fun i x hx => k i x (h i x hx)

theorem blocked_zero (board : Board slot key) (seq : key -> Nat -> slot)
    (k : key) : Blocked board seq k 0 := by
  intro q hq
  cases hq

theorem blocked_succ {board : Board slot key} {seq : key -> Nat -> slot}
    {k other : key} {n : Nat} (h : Blocked board seq k n)
    (hheld : board (seq k n) = some other) (hne : other ≠ k) :
    Blocked board seq k (n + 1) := by
  intro q hq
  rcases Nat.lt_succ_iff_lt_or_eq.mp hq with hlt | heq
  · exact h q hlt
  · subst heq
    exact ⟨other, hheld, hne⟩

theorem blocked_mono {board later : Board slot key}
    {seq : key -> Nat -> slot} {k : key} {n : Nat}
    (hext : Extends board later) (h : Blocked board seq k n) :
    Blocked later seq k n := by
  intro q hq
  rcases h q hq with ⟨other, hheld, hne⟩
  exact ⟨other, hext _ _ hheld, hne⟩

theorem placed_mono {board later : Board slot key}
    {seq : key -> Nat -> slot} {limit : Nat} {k : key} {i : slot}
    (hext : Extends board later) (h : Placed board seq limit k i) :
    Placed later seq limit k i := by
  rcases h with ⟨p, hp, hseq, hheld, hblocked⟩
  exact ⟨p, hp, hseq, hext i k hheld, blocked_mono hext hblocked⟩

/-- A placed key sits at one slot only. -/
theorem placed_unique {board : Board slot key} {seq : key -> Nat -> slot}
    {limit : Nat} {k : key} {i j : slot} (hi : Placed board seq limit k i)
    (hj : Placed board seq limit k j) : i = j := by
  rcases hi with ⟨p, _, hip, hiheld, hpblocked⟩
  rcases hj with ⟨r, _, hjr, hjheld, hrblocked⟩
  rcases Nat.lt_trichotomy p r with hlt | heq | hgt
  · rcases hrblocked p hlt with ⟨other, hother, hne⟩
    rw [hip, hiheld] at hother
    exact absurd (Option.some.inj hother).symm hne
  · rw [← hip, ← hjr, heq]
  · rcases hpblocked r hgt with ⟨other, hother, hne⟩
    rw [hjr, hjheld] at hother
    exact absurd (Option.some.inj hother).symm hne

/-!
# Placing a key
-/

section Put

variable [DecidableEq slot]

/-- Put a key into a slot. -/
def put (board : Board slot key) (i : slot) (k : key) : Board slot key :=
  Function.update board i (some k)

theorem extends_put {board : Board slot key} {i : slot}
    (hfree : board i = none) (k : key) : Extends board (put board i k) := by
  intro j x hx
  have hne : j ≠ i := by
    intro heq
    rw [heq, hfree] at hx
    cases hx
  rw [put, Function.update_of_ne hne]
  exact hx

theorem placed_put {board : Board slot key} {seq : key -> Nat -> slot}
    {limit p : Nat} {k : key} (hp : p < limit)
    (hfree : board (seq k p) = none) (hblocked : Blocked board seq k p) :
    Placed (put board (seq k p) k) seq limit k (seq k p) :=
  ⟨p, hp, rfl, Function.update_self _ _ _,
    blocked_mono (extends_put hfree k) hblocked⟩

theorem wellPlaced_put {board : Board slot key} {seq : key -> Nat -> slot}
    {limit p : Nat} {k : key} (hboard : WellPlaced board seq limit)
    (hp : p < limit) (hfree : board (seq k p) = none)
    (hblocked : Blocked board seq k p) :
    WellPlaced (put board (seq k p) k) seq limit := by
  intro j x hx
  by_cases hj : j = seq k p
  · subst hj
    rw [put, Function.update_self] at hx
    cases hx
    exact placed_put hp hfree hblocked
  · rw [put, Function.update_of_ne hj] at hx
    exact placed_mono (extends_put hfree k) (hboard j x hx)

end Put

/-!
# Searching
-/

section Search

variable [DecidableEq key]

/-- Try the slots of a key in order until it or a free slot turns up. -/
def search (board : Board slot key) (seq : Nat -> slot) (k : key) :
    Nat -> Nat -> Bool
  | _, 0 => false
  | p, fuel + 1 =>
      match board (seq p) with
      | none => false
      | some held => if held = k then true else search board seq k (p + 1) fuel

/-- A search from a blocked prefix finds a key placed behind it. -/
theorem search_of_placed {board : Board slot key} {seq : key -> Nat -> slot}
    {k : key} {r : Nat} (hheld : board (seq k r) = some k)
    (hblocked : Blocked board seq k r) :
    forall (fuel p : Nat), p ≤ r -> r < p + fuel ->
      search board (seq k) k p fuel = true := by
  intro fuel
  induction fuel with
  | zero =>
      intro p hle hlt
      omega
  | succ fuel ih =>
      intro p hle hlt
      rcases Nat.lt_or_eq_of_le hle with hbefore | hhere
      · rcases hblocked p hbefore with ⟨other, hother, hne⟩
        simp only [search, hother, if_neg hne]
        exact ih (p + 1) hbefore (by omega)
      · subst hhere
        simp only [search, hheld, if_true]

theorem search_of_blocked {board : Board slot key} {seq : key -> Nat -> slot}
    {k : key} {n : Nat} (hblocked : Blocked board seq k n) :
    forall (fuel p : Nat), p + fuel = n ->
      search board (seq k) k p fuel = false := by
  intro fuel
  induction fuel with
  | zero =>
      intro p _
      rfl
  | succ fuel ih =>
      intro p hp
      rcases hblocked p (by omega) with ⟨other, hother, hne⟩
      simp only [search, hother, if_neg hne]
      exact ih (p + 1) (by omega)

/-- A successful search points at a slot that holds the key. -/
theorem held_of_search {board : Board slot key} {seq : Nat -> slot} {k : key} :
    forall (fuel p : Nat), search board seq k p fuel = true ->
      exists i, board i = some k
  | 0, _, h => by cases h
  | fuel + 1, p, h => by
      cases hheld : board (seq p) with
      | none =>
          simp only [search, hheld] at h
          cases h
      | some held =>
          simp only [search, hheld] at h
          by_cases hk : held = k
          · exact ⟨seq p, by rw [hheld, hk]⟩
          · rw [if_neg hk] at h
            exact held_of_search fuel (p + 1) h

/-- On a well placed board a search answers whether the key is held. -/
theorem search_iff_held {board : Board slot key} {seq : key -> Nat -> slot}
    {limit : Nat} (hboard : WellPlaced board seq limit) (k : key) :
    search board (seq k) k 0 limit = true <-> exists i, board i = some k := by
  constructor
  · exact held_of_search limit 0
  · intro h
    rcases h with ⟨i, hi⟩
    rcases hboard i k hi with ⟨r, hr, hseq, hheld, hblocked⟩
    rw [← hseq] at hheld
    exact search_of_placed hheld hblocked limit 0 (Nat.zero_le r) (by omega)

end Search

/-!
# Room
-/

section Room

variable [DecidableEq slot] [DecidableEq key]

/-- The slots a key tries within its first `n` probes. -/
def reach (seq : key -> Nat -> slot) (k : key) (n : Nat) : Finset slot :=
  (Finset.range n).image (seq k)

/--
On a well placed board a blocked key has as many other keys on the board as it
has slots to try.
-/
theorem card_reach_le_of_blocked {board : Board slot key}
    {seq : key -> Nat -> slot} {limit n : Nat} {k : key} {keys : Finset key}
    (hboard : WellPlaced board seq limit)
    (hkeys : forall i x, board i = some x -> x ∈ keys)
    (hblocked : Blocked board seq k n) :
    (reach seq k n).card ≤ (keys.erase k).card := by
  classical
  -- each slot in reach is sent to the key it holds; placed keys are unique
  have hheld : forall i, i ∈ reach seq k n ->
      exists x, board i = some x ∧ x ≠ k := by
    intro i hi
    rcases Finset.mem_image.mp hi with ⟨q, hq, rfl⟩
    exact hblocked q (Finset.mem_range.mp hq)
  apply Finset.card_le_card_of_injOn (fun i => (board i).getD k)
  · intro i hi
    rcases hheld i hi with ⟨x, hx, hne⟩
    simp only [hx, Option.getD_some]
    exact Finset.mem_erase.mpr ⟨hne, hkeys i x hx⟩
  · intro i hi j hj hij
    rcases hheld i hi with ⟨x, hx, _⟩
    rcases hheld j hj with ⟨y, hy, _⟩
    simp only [hx, hy, Option.getD_some] at hij
    subst hij
    exact placed_unique (hboard i x hx) (hboard j x hy)

end Room

end OpenAddressing
end Foundation
end Cuda2Rocm
