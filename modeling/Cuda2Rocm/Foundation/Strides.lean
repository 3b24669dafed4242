import Mathlib.Data.Fintype.EquivFin
import Mathlib.Data.Nat.ModEq
import Mathlib.Data.Nat.Prime.Basic

/-!
# Strides around a circle

A walk around a circle of places that moves by the same stride each time.  Where the stride
is coprime to the number of places, the first moves of the walk visit each place once.
Words of a machine lie on a circle of a power of two.
-/

namespace Cuda2Rocm
namespace Foundation

/-- The place after so many moves. -/
def walk (places start stride moves : Nat) : Nat := (start + moves * stride) % places

section Coprime

variable {places stride : Nat} (start : Nat)

theorem walk_lt (hpos : 0 < places) (moves : Nat) :
    walk places start stride moves < places :=
  Nat.mod_lt _ hpos

/-- No place is visited twice within one circle. -/
theorem walk_inj (hcoprime : Nat.Coprime places stride) {i j : Nat} (hi : i < places)
    (hj : j < places) (h : walk places start stride i = walk places start stride j) :
    i = j := by
  have hmoves : i * stride ≡ j * stride [MOD places] := Nat.ModEq.add_left_cancel' start h
  have hsame : i ≡ j [MOD places] := Nat.ModEq.cancel_right_of_coprime hcoprime hmoves
  exact hsame.eq_of_lt_of_lt hi hj

/-- The walk as a map from moves to places. -/
def walkFin (stride : Nat) (hpos : 0 < places) (moves : Fin places) : Fin places :=
  ⟨walk places start stride moves, walk_lt start hpos moves⟩

theorem walkFin_bijective (hcoprime : Nat.Coprime places stride) (hpos : 0 < places) :
    Function.Bijective (walkFin start stride hpos) := by
  apply Finite.injective_iff_bijective.mp
  intro i j h
  exact Fin.ext (walk_inj start hcoprime i.isLt j.isLt (congrArg Fin.val h))

end Coprime

/-!
# Words
-/

section Words

variable {stride : Nat}

theorem coprime_two_pow (hodd : stride % 2 = 1) (m : Nat) : Nat.Coprime (2 ^ m) stride :=
  Nat.Coprime.pow_left m (Nat.coprime_two_left.mpr (Nat.odd_iff.mpr hodd))

/-- A walk that is reduced to words on its way ends where the walk in numbers does. -/
theorem walk_word {m width : Nat} (hm : m ≤ width) (start stride moves : Nat) :
    (start + moves % 2 ^ width * stride % 2 ^ width) % 2 ^ width % 2 ^ m =
      walk (2 ^ m) start stride moves := by
  have hdvd : 2 ^ m ∣ 2 ^ width := Nat.pow_dvd_pow 2 hm
  rw [Nat.mod_mod_of_dvd _ hdvd]
  have hmoves : moves % 2 ^ width ≡ moves [MOD 2 ^ m] :=
    (Nat.mod_modEq moves (2 ^ width)).of_dvd hdvd
  have hproduct : moves % 2 ^ width * stride % 2 ^ width ≡ moves * stride [MOD 2 ^ m] :=
    ((Nat.mod_modEq _ (2 ^ width)).of_dvd hdvd).trans (hmoves.mul_right stride)
  exact hproduct.add_left start

end Words

end Foundation
end Cuda2Rocm
