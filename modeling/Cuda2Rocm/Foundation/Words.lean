import Mathlib.Tactic.Linarith

/-!
# Machine integers

The sizes of the program are 64-bit unsigned words and its trackers 64-bit
signed words.  Both are kept as unbounded numbers here, and every operation that
can leave the range of its type goes through one of the reductions below.
-/

namespace Cuda2Rocm
namespace Foundation

/-- The largest 64-bit unsigned value. -/
def sizeMax : Nat := 2 ^ 64 - 1

/-- Reduction of a natural number to a 64-bit unsigned word. -/
def wrapSize (n : Nat) : Nat := n % 2 ^ 64

/-- Reduction of an integer to a 64-bit two's complement word. -/
def wrapInt (x : Int) : Int := (x + 2 ^ 63) % 2 ^ 64 - 2 ^ 63

/-- Cast from an unsigned to a signed word. -/
def toSigned (n : Nat) : Int := wrapInt n

/-- Cast from a signed to an unsigned word. -/
def toUnsigned (x : Int) : Nat := (x % 2 ^ 64).toNat

theorem wrapSize_of_lt {n : Nat} (h : n < 2 ^ 64) : wrapSize n = n :=
  Nat.mod_eq_of_lt h

theorem wrapInt_of_range {x : Int} (hlow : -2 ^ 63 ≤ x) (hhigh : x < 2 ^ 63) :
    wrapInt x = x := by
  unfold wrapInt
  omega

theorem wrapInt_range (x : Int) : -2 ^ 63 ≤ wrapInt x ∧ wrapInt x < 2 ^ 63 := by
  unfold wrapInt
  omega

theorem toSigned_of_lt {n : Nat} (h : n < 2 ^ 63) : toSigned n = n :=
  wrapInt_of_range (by omega) (by omega)

theorem toUnsigned_of_range {x : Int} (hlow : 0 ≤ x) (hhigh : x < 2 ^ 64) :
    (toUnsigned x : Int) = x := by
  unfold toUnsigned
  omega

theorem toUnsigned_wrapInt {x : Int} (hlow : 0 ≤ x) (hhigh : x < 2 ^ 63) :
    (toUnsigned (wrapInt x) : Int) = x := by
  rw [wrapInt_of_range (by omega) hhigh]
  exact toUnsigned_of_range hlow (by omega)

end Foundation
end Cuda2Rocm
