import Mathlib.Logic.Function.Basic
import Cuda2Rocm.Foundation.Strides

/-!
# Mixing steps

Hash functions mix a word by additions, xors, odd multiplications, rotations and xor-shifts.
Each of these keeps different words apart, and so does every chain of them.
-/

namespace Cuda2Rocm
namespace Foundation
namespace Mixing

variable {w : Nat}

theorem add_injective (c : BitVec w) : Function.Injective (fun x => x + c) :=
  fun _ _ h => (BitVec.add_left_inj c).mp h

theorem xor_injective (c : BitVec w) : Function.Injective (fun x => c ^^^ x) :=
  fun _ _ h => (BitVec.xor_right_inj c).mp h

/-- A product with an odd word is a walk from 0 by its stride. -/
theorem mul_injective {c : BitVec w} (hodd : c.toNat % 2 = 1) :
    Function.Injective (fun x => x * c) := by
  intro x y h
  have hnat := congrArg BitVec.toNat h
  simp only [BitVec.toNat_mul] at hnat
  apply BitVec.eq_of_toNat_eq
  apply walk_inj 0 (coprime_two_pow hodd w) x.isLt y.isLt
  unfold walk
  rw [Nat.zero_add, Nat.zero_add]
  exact hnat

/-- Every bit of the word is some bit of the rotated one. -/
theorem getLsbD_rotateLeft_back (x : BitVec w) (r : Nat) {i : Nat} (hi : i < w) :
    x.getLsbD i = (x.rotateLeft r).getLsbD (if i + r % w < w then i + r % w
      else i + r % w - w) := by
  have hr : r % w < w := Nat.mod_lt _ (Nat.zero_lt_of_lt hi)
  rw [BitVec.getLsbD_rotateLeft]
  split
  · rename_i hlow
    have hback : i + r % w - r % w = i := by omega
    rw [decide_eq_false (show ¬ i + r % w < r % w by omega), decide_eq_true hlow, hback]
    rfl
  · rename_i hhigh
    have hback : w - r % w + (i + r % w - w) = i := by omega
    rw [decide_eq_true (show i + r % w - w < r % w by omega), hback]
    rfl

theorem rotateLeft_injective (r : Nat) :
    Function.Injective (fun x : BitVec w => x.rotateLeft r) := by
  intro x y h
  apply BitVec.eq_of_getLsbD_eq
  intro i hi
  rw [getLsbD_rotateLeft_back x r hi, getLsbD_rotateLeft_back y r hi]
  exact congrArg (fun z : BitVec w => z.getLsbD _) h

/-- A difference that a shift does not move is none. -/
theorem xorShift_injective {s : Nat} (hs : 0 < s) :
    Function.Injective (fun x : BitVec w => x ^^^ (x >>> s)) := by
  intro x y h
  have hmoved : x ^^^ y = (x ^^^ y) >>> s := by
    rw [BitVec.ushiftRight_xor_distrib]
    apply (BitVec.xor_right_inj (y ^^^ (x >>> s))).mp
    calc
      (y ^^^ (x >>> s)) ^^^ (x ^^^ y) = (y ^^^ y) ^^^ (x ^^^ (x >>> s)) := by ac_rfl
      _ = (y ^^^ y) ^^^ (y ^^^ (y >>> s)) := congrArg (fun z => (y ^^^ y) ^^^ z) h
      _ = (y ^^^ (y >>> s)) ^^^ ((x >>> s) ^^^ (x >>> s)) := by
            rw [BitVec.xor_self, BitVec.xor_self, BitVec.xor_comm]
      _ = (y ^^^ (x >>> s)) ^^^ ((x >>> s) ^^^ (y >>> s)) := by ac_rfl
  have hnat : (x ^^^ y).toNat = (x ^^^ y).toNat / 2 ^ s := by
    rw [← Nat.shiftRight_eq_div_pow, ← BitVec.toNat_ushiftRight, ← hmoved]
  apply BitVec.xor_eq_zero_iff.mp
  apply BitVec.eq_of_toNat_eq
  by_contra hne
  have hpos : 0 < (x ^^^ y).toNat := Nat.pos_of_ne_zero hne
  have hless := Nat.div_lt_self hpos (Nat.one_lt_two_pow (Nat.ne_of_gt hs))
  omega

end Mixing
end Foundation
end Cuda2Rocm
