import Mathlib.Data.Nat.ChineseRemainder
import Mathlib.Tactic.Ring

/-!
# Rotations of a window

A window of consecutive residues that is moved around a circle in equal steps.  Where no
step is longer than the window, the windows together cover an arc, and the circle once the
arc is as long as the circle.
-/

namespace Cuda2Rocm
namespace Foundation

variable {circle window moves step : Nat}

/-- The windows at the first multiples of the step cover an arc without gaps. -/
theorem exists_move_eq (hstep : step ≤ window) (hmoves : 0 < moves) {p : Nat}
    (hp : p < window + (moves - 1) * step) :
    exists k y, k < moves ∧ y < window ∧ y + k * step = p := by
  induction moves, hmoves using Nat.le_induction generalizing p with
  | base => exact ⟨0, p, Nat.one_pos, by simpa using hp, by simp⟩
  | succ moves hmoves ih =>
      by_cases hfirst : p < window
      · exact ⟨0, p, Nat.succ_pos moves, hfirst, by simp⟩
      · have hmult : (moves + 1 - 1) * step = (moves - 1) * step + step := by
          rw [← Nat.succ_mul]
          congr 1
          omega
        rcases ih (p := p - step) (by omega) with ⟨k, y, hk, hy, heq⟩
        refine ⟨k + 1, y, by omega, hy, ?_⟩
        rw [Nat.succ_mul]
        omega

/-- Such an arc covers the circle once it is long enough. -/
theorem exists_forward (hstep : step ≤ window) (hmoves : 0 < moves)
    (hlong : circle ≤ window + (moves - 1) * step) {p : Nat} (hp : p < circle) :
    exists k y, k < moves ∧ y < window ∧ y + k * step ≡ p [MOD circle] := by
  rcases exists_move_eq hstep hmoves (Nat.lt_of_lt_of_le hp hlong) with ⟨k, y, hk, hy, heq⟩
  exact ⟨k, y, hk, hy, heq ▸ Nat.ModEq.rfl⟩

/-- Moves that fall short of the whole circle by a step go around it backwards. -/
theorem exists_backward (hstep : step ≤ window) (hle : step ≤ circle) (hmoves : 0 < moves)
    (hlong : circle ≤ window + (moves - 1) * step) (hpos : 0 < circle) (p : Nat) :
    exists k y, k < moves ∧ y < window ∧ y + k * (circle - step) ≡ p [MOD circle] := by
  have hp := Nat.mod_lt (p + (moves - 1) * step) hpos
  rcases exists_forward hstep hmoves hlong hp with ⟨k, y, hk, hy, heq⟩
  refine ⟨moves - 1 - k, y, by omega, hy, ?_⟩
  -- both sides agree once all the moves are undone
  apply Nat.ModEq.add_right_cancel' ((moves - 1) * step)
  have hsplit : (moves - 1) * step = (moves - 1 - k) * step + k * step := by
    rw [← Nat.add_mul]
    congr 1
    omega
  have hwhole : (moves - 1 - k) * (circle - step) + (moves - 1 - k) * step =
      (moves - 1 - k) * circle := by
    rw [← Nat.mul_add]
    congr 1
    omega
  calc
    y + (moves - 1 - k) * (circle - step) + (moves - 1) * step
        = y + k * step + (moves - 1 - k) * circle := by
          rw [hsplit, ← hwhole]
          ring
    _ ≡ y + k * step [MOD circle] := by
          exact Nat.ModEq.symm (Nat.modEq_of_dvd (by simp))
    _ ≡ p + (moves - 1) * step [MOD circle] := heq.trans (Nat.mod_modEq _ _)

/-- The distance that a rotation moves a window, in the shorter direction. -/
def shorter (circle rotation : Nat) : Nat := min rotation (circle - rotation)

/-- The windows of a rotation cover the circle. -/
theorem exists_rotation {rotation : Nat} (hrotation : rotation < circle)
    (hshort : shorter circle rotation ≤ window) (hmoves : 0 < moves)
    (hlong : circle ≤ window + (moves - 1) * shorter circle rotation) (p : Nat) :
    exists k y, k < moves ∧ y < window ∧ y + k * rotation ≡ p [MOD circle] := by
  have hpos := Nat.zero_lt_of_lt hrotation
  unfold shorter at hshort hlong
  rcases Nat.le_total rotation (circle - rotation) with hforward | hbackward
  · rw [Nat.min_eq_left hforward] at hshort hlong
    rcases exists_forward hshort hmoves hlong (Nat.mod_lt p hpos) with ⟨k, y, hk, hy, heq⟩
    exact ⟨k, y, hk, hy, heq.trans (Nat.mod_modEq p circle)⟩
  · rw [Nat.min_eq_right hbackward] at hshort hlong
    rcases exists_backward hshort (Nat.sub_le _ _) hmoves hlong hpos p with ⟨k, y, hk, hy, heq⟩
    rw [Nat.sub_sub_self (Nat.le_of_lt hrotation)] at heq
    exact ⟨k, y, hk, hy, heq⟩

/-!
# Two coprime circles
-/

section Pairs

variable {n m : Nat}

/-- Two residues at once, below the product of the moduli. -/
theorem exists_residues (h : Nat.Coprime n m) (hn : 0 < n) (hm : 0 < m) (a b : Nat) :
    exists x, x < n * m ∧ x ≡ a [MOD n] ∧ x ≡ b [MOD m] :=
  ⟨Nat.chineseRemainder h a b, Nat.chineseRemainder_lt_mul h a b hn.ne' hm.ne',
    (Nat.chineseRemainder h a b).2.1, (Nat.chineseRemainder h a b).2.2⟩

/-- The rotation that moves by `a` around the one circle and by `b` around the other. -/
theorem exists_pair_rotation (h : Nat.Coprime n m) {rotation a b : Nat}
    (hrotation : rotation < n * m) (ha : rotation ≡ a [MOD n]) (hb : rotation ≡ b [MOD m])
    (hshort : shorter (n * m) rotation ≤ window) (hmoves : 0 < moves)
    (hlong : n * m ≤ window + (moves - 1) * shorter (n * m) rotation) (p q : Nat) :
    exists k y, k < moves ∧ y < window ∧ y + k * a ≡ p [MOD n] ∧ y + k * b ≡ q [MOD m] := by
  rcases exists_rotation hrotation hshort hmoves hlong (Nat.chineseRemainder h p q) with
    ⟨k, y, hk, hy, heq⟩
  rcases (Nat.modEq_and_modEq_iff_modEq_mul h).mpr heq with ⟨hp, hq⟩
  refine ⟨k, y, hk, hy, ?_, ?_⟩
  · exact ((ha.symm.mul_left k).add_left y).trans (hp.trans (Nat.chineseRemainder h p q).2.1)
  · exact ((hb.symm.mul_left k).add_left y).trans (hq.trans (Nat.chineseRemainder h p q).2.2)

end Pairs

end Foundation
end Cuda2Rocm
