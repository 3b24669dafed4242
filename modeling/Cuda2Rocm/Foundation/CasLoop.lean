/-!
# Compare-exchange loops

A loop that loads a cell, computes a replacement from the value it saw, and
commits it by a weak compare-exchange, starting over with the reloaded value when
the exchange fails.  Each step below is one atomic access of the cell.
-/

namespace Cuda2Rocm
namespace Foundation

/-- Where a thread stands in such a loop; `cas` carries the value last seen. -/
inductive CasLoop where
  | load
  | cas (cur : Nat)
deriving DecidableEq, Repr

/-- What one step of the loop comes to; only a commit writes the cell. -/
inductive CasResult where
  | again (loop : CasLoop)
  | gaveUp
  | committed (replacement : Nat)
deriving DecidableEq, Repr

namespace CasLoop

/-- One step on the cell: `next` is the replacement for a value seen, or none where
the loop gives up; a weak exchange may fail spuriously. -/
def step (next : Nat -> Option Nat) (spurious : Bool) (cell : Nat) :
    CasLoop -> CasResult
  | load => .again (cas cell)
  | cas cur =>
      match next cur with
      | none => .gaveUp
      | some replacement =>
          if cell = cur ∧ spurious = false then .committed replacement
          else .again (cas cell)

/-- Everything a step of the loop can do. -/
theorem step_cases (next : Nat -> Option Nat) (spurious : Bool) (cell : Nat)
    (loop : CasLoop) :
    (step next spurious cell loop = .again (cas cell) ∧
      (loop = load ∨ exists cur, loop = cas cur ∧ (cell ≠ cur ∨ spurious = true))) ∨
    (exists cur, loop = cas cur ∧ next cur = none ∧
      step next spurious cell loop = .gaveUp) ∨
    (exists replacement, loop = cas cell ∧ next cell = some replacement ∧
      step next spurious cell loop = .committed replacement) := by
  cases loop with
  | load => exact Or.inl ⟨rfl, Or.inl rfl⟩
  | cas cur =>
      cases hnext : next cur with
      | none =>
          refine Or.inr (Or.inl ⟨cur, rfl, hnext, ?_⟩)
          simp [step, hnext]
      | some replacement =>
          by_cases hcell : cell = cur ∧ spurious = false
          · rcases hcell with ⟨rfl, hreal⟩
            refine Or.inr (Or.inr ⟨replacement, rfl, hnext, ?_⟩)
            simp [step, hnext, hreal]
          · left
            constructor
            · simp only [step, hnext, if_neg hcell]
            · refine Or.inr ⟨cur, rfl, ?_⟩
              cases Decidable.not_and_iff_not_or_not.mp hcell with
              | inl hne => exact Or.inl hne
              | inr hspurious =>
                  exact Or.inr (by simpa using hspurious)

/-!
# How far a loop still has to go
-/

/-- The steps to the end of the loop where nothing gets in its way. -/
def left (cell : Nat) : CasLoop -> Nat
  | load => 2
  | cas cur => if cur = cell then 1 else 2

theorem left_pos (cell : Nat) (loop : CasLoop) : 0 < loop.left cell := by
  cases loop with
  | load => exact Nat.succ_pos 1
  | cas cur =>
      simp only [left]
      split
      · exact Nat.succ_pos 0
      · exact Nat.succ_pos 1

theorem left_le (cell : Nat) (loop : CasLoop) : loop.left cell ≤ 2 := by
  cases loop with
  | load => exact Nat.le_refl 2
  | cas cur =>
      simp only [left]
      split
      · exact Nat.le_succ 1
      · exact Nat.le_refl 2

/-- A commit of another loop sets this one back by a step at most. -/
theorem left_moved (cell cell' : Nat) (loop : CasLoop) :
    loop.left cell' ≤ loop.left cell + 1 := by
  have hpos := left_pos cell loop
  have hle := left_le cell' loop
  omega

/-- Only a spurious failure keeps a loop where it is. -/
theorem left_again {next : Nat -> Option Nat} {spurious : Bool} {cell : Nat}
    {loop loop' : CasLoop} (h : step next spurious cell loop = .again loop') :
    loop'.left cell + 1 ≤ loop.left cell + spurious.toNat := by
  have hlast : (cas cell).left cell = 1 := by
    simp [left]
  rcases loop.step_cases next spurious cell with
    ⟨hstep, hloop⟩ | ⟨cur, _, _, hstep⟩ | ⟨replacement, _, _, hstep⟩
  · rw [hstep] at h
    cases h
    rw [hlast]
    rcases hloop with rfl | ⟨cur, rfl, hne | rfl⟩
    · exact Nat.le_add_right 2 _
    · have hstale : (cas cur).left cell = 2 := if_neg (fun heq => hne heq.symm)
      rw [hstale]
      exact Nat.le_add_right 2 _
    · exact Nat.add_le_add_right (left_pos cell _) 1
  · rw [hstep] at h
    cases h
  · rw [hstep] at h
    cases h

end CasLoop

end Foundation
end Cuda2Rocm
