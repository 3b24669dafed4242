import Mathlib.SetTheory.Cardinal.Finite
import Cuda2Rocm.Cuco.XxHash.Implements
import Cuda2Rocm.Foundation.Mixing

/-!
# Keys of four and of eight bytes

Such a key is one word of the input, and what follows only mixes it: no two keys of one
width have the same hash, whatever the seed is.
-/

namespace Cuda2Rocm
namespace Cuco
namespace XxHash

open Foundation

/-!
# The definition
-/

namespace Published

open Mixing

theorem lane_inj {first second : List UInt8} (hlength : first.length = second.length)
    (hshort : first.length ≤ 8) (h : lane first = lane second) : first = second := by
  have hbound : forall bytes : List UInt8, bytes.length ≤ 8 ->
      littleEndian bytes % 2 ^ 64 = littleEndian bytes := by
    intro bytes hbytes
    apply Nat.mod_eq_of_lt
    exact Nat.lt_of_lt_of_le (littleEndian_lt bytes)
      (Nat.pow_le_pow_right (by decide) (by omega))
  have hnat := congrArg BitVec.toNat h
  unfold lane at hnat
  rw [BitVec.toNat_ofNat, BitVec.toNat_ofNat, hbound first hshort,
    hbound second (hlength ▸ hshort)] at hnat
  exact littleEndian_inj hlength hnat

theorem round_injective (acc : Word) : Function.Injective (round acc) := by
  have hproduct : Function.Injective (fun word : Word => word * PRIME64_2) :=
    mul_injective (by decide)
  have hsum : Function.Injective (fun word : Word => acc + word * PRIME64_2) := by
    intro x y h
    exact hproduct ((BitVec.add_right_inj acc).mp h)
  have hrotated := (rotateLeft_injective 31).comp hsum
  exact (mul_injective (c := PRIME64_1) (by decide)).comp hrotated

/-- A word of eight bytes is mixed into the state. -/
theorem mixWord_injective (acc : Word) :
    Function.Injective
      (fun word => (acc ^^^ round 0 word).rotateLeft 27 * PRIME64_1 + PRIME64_4) := by
  have hmixed := (xor_injective acc).comp (round_injective 0)
  have hrotated := (rotateLeft_injective 27).comp hmixed
  have hproduct := (mul_injective (c := PRIME64_1) (by decide)).comp hrotated
  exact (add_injective PRIME64_4).comp hproduct

/-- So is one of four bytes. -/
theorem mixHalfWord_injective (acc : Word) :
    Function.Injective
      (fun word => (acc ^^^ word * PRIME64_1).rotateLeft 23 * PRIME64_2 + PRIME64_3) := by
  have hmixed := (xor_injective acc).comp (mul_injective (c := PRIME64_1) (by decide))
  have hrotated := (rotateLeft_injective 23).comp hmixed
  have hproduct := (mul_injective (c := PRIME64_2) (by decide)).comp hrotated
  exact (add_injective PRIME64_3).comp hproduct

theorem avalanche_injective : Function.Injective avalanche := by
  have hfirst := (mul_injective (c := PRIME64_2) (by decide)).comp
    (xorShift_injective (w := 64) (s := 33) (by decide))
  have hsecond := (mul_injective (c := PRIME64_3) (by decide)).comp
    ((xorShift_injective (s := 29) (by decide)).comp hfirst)
  exact (xorShift_injective (s := 32) (by decide)).comp hsecond

/-- Fewer than eight words are no stripe. -/
theorem xxh64_of_lt {bytes : List UInt8} (hshort : bytes.length < 32) (seed : Word) :
    xxh64 bytes seed =
      avalanche (processRemaining (seed + PRIME64_5 + BitVec.ofNat 64 bytes.length) bytes) := by
  have hbehind : leftover 32 bytes = bytes := by
    unfold leftover
    rw [Nat.div_eq_of_lt hshort, Nat.zero_mul, List.drop_zero]
  unfold xxh64 processStripes
  rw [if_pos hshort, hbehind]

theorem xxh64_of_eight {bytes : List UInt8} (hlength : bytes.length = 8) (seed : Word) :
    xxh64 bytes seed =
      avalanche (((seed + PRIME64_5 + 8) ^^^ round 0 (lane bytes)).rotateLeft 27 * PRIME64_1 +
        PRIME64_4) := by
  have hwhole : chunks 8 bytes = [bytes] := by
    have hsplit := chunks_append (n := 8) (by decide) hlength []
    have hempty : chunks 8 ([] : List UInt8) = [] := chunks_of_lt (by decide)
    rw [List.append_nil, hempty] at hsplit
    exact hsplit
  have hnothing : leftover 8 bytes = [] := by
    unfold leftover
    rw [hlength]
    exact List.drop_eq_nil_of_le (Nat.le_of_eq hlength)
  rw [xxh64_of_lt (by omega)]
  unfold processRemaining
  rw [hwhole, hnothing, hlength]
  rfl

theorem xxh64_of_four {bytes : List UInt8} (hlength : bytes.length = 4) (seed : Word) :
    xxh64 bytes seed =
      avalanche (((seed + PRIME64_5 + 4) ^^^ lane bytes * PRIME64_1).rotateLeft 23 * PRIME64_2 +
        PRIME64_3) := by
  have hnone : chunks 8 bytes = [] := chunks_of_lt (by omega)
  have hall : leftover 8 bytes = bytes := by
    unfold leftover
    rw [hlength]
    rfl
  rw [xxh64_of_lt (by omega)]
  unfold processRemaining processTail
  rw [hnone, hall, if_neg (by omega), List.drop_eq_nil_of_le (Nat.le_of_eq hlength),
    List.take_of_length_le (Nat.le_of_eq hlength), hlength]
  rfl

/-- Strings of eight bytes with one hash are one string. -/
theorem xxh64_inj_of_eight {first second : List UInt8} (hfirst : first.length = 8)
    (hsecond : second.length = 8) {seed : Word} (h : xxh64 first seed = xxh64 second seed) :
    first = second := by
  rw [xxh64_of_eight hfirst, xxh64_of_eight hsecond] at h
  have hmixed := avalanche_injective h
  have hlane : lane first = lane second := mixWord_injective (seed + PRIME64_5 + 8) hmixed
  exact lane_inj (hfirst.trans hsecond.symm) (Nat.le_of_eq hfirst) hlane

theorem xxh64_inj_of_four {first second : List UInt8} (hfirst : first.length = 4)
    (hsecond : second.length = 4) {seed : Word} (h : xxh64 first seed = xxh64 second seed) :
    first = second := by
  rw [xxh64_of_four hfirst, xxh64_of_four hsecond] at h
  have hmixed := avalanche_injective h
  have hlane : lane first = lane second := mixHalfWord_injective (seed + PRIME64_5 + 4) hmixed
  exact lane_inj (hfirst.trans hsecond.symm) (by omega) hlane

end Published

/-!
# Objects
-/

theorem window_object {size : Nat} (bytes : Fin size -> UInt8) :
    window (object bytes) 0 size = List.ofFn bytes := by
  apply List.ext_getElem
  · simp
  · intro i hi _
    have hsize : i < size := by simpa using hi
    simp [window, object, hsize]

section Keys

variable (seed : UInt64)

theorem xxh64_eight_injective :
    Function.Injective (fun key : Fin 8 -> UInt8 => (xxh64 (object key) 8 seed).value) := by
  intro first second h
  have hword := congrArg UInt64.toBitVec h
  simp only [toBitVec_xxh64, window_object] at hword
  exact List.ofFn_injective
    (Published.xxh64_inj_of_eight (List.length_ofFn) (List.length_ofFn) hword)

theorem xxh64_four_injective :
    Function.Injective (fun key : Fin 4 -> UInt8 => (xxh64 (object key) 4 seed).value) := by
  intro first second h
  have hword := congrArg UInt64.toBitVec h
  simp only [toBitVec_xxh64, window_object] at hword
  exact List.ofFn_injective
    (Published.xxh64_inj_of_four (List.length_ofFn) (List.length_ofFn) hword)

end Keys

/-- There are as many strings of eight bytes as words. -/
theorem card_words : Nat.card UInt64 = Nat.card (Fin 8 -> UInt8) := by
  have hword : Nat.card UInt64 = 2 ^ 64 := by
    rw [Nat.card_congr (Equiv.mk UInt64.toFin UInt64.ofFin (fun _ => rfl) (fun _ => rfl)),
      Nat.card_fin]
    rfl
  have hbyte : Nat.card UInt8 = 2 ^ 8 := by
    rw [Nat.card_congr (Equiv.mk UInt8.toFin UInt8.ofFin (fun _ => rfl) (fun _ => rfl)),
      Nat.card_fin]
    rfl
  rw [Nat.card_fun, hword, hbyte, Nat.card_fin, ← Nat.pow_mul]

theorem xxh64_eight_bijective (seed : UInt64) :
    Function.Bijective (fun key : Fin 8 -> UInt8 => (xxh64 (object key) 8 seed).value) := by
  have hfinite : Finite UInt64 :=
    Finite.of_injective UInt64.toFin (fun _ _ => UInt64.toFin_inj.mp)
  exact (xxh64_eight_injective seed).bijective_of_nat_card_le (Nat.le_of_eq card_words)

/--
Whatever the seed is, `xxh64` is a bijection from the strings of eight bytes to the words,
and takes different strings of four bytes to different words; so the functors keep
different keys of either width apart.
-/
theorem no_collisions_at_fixed_width :
    (forall seed, Function.Bijective
      (fun key : Fin 8 -> UInt8 => (xxh64 (object key) 8 seed).value)) ∧
    (forall seed, Function.Injective
      (fun key : Fin 4 -> UInt8 => (xxh64 (object key) 4 seed).value)) ∧
    Function.Injective (xxhash64 : (Fin 8 -> UInt8) -> UInt64) ∧
    Function.Injective (defaultHashFunction : (Fin 8 -> UInt8) -> UInt64) ∧
    Function.Injective (xxhash64 : (Fin 4 -> UInt8) -> UInt64) ∧
    Function.Injective (defaultHashFunction : (Fin 4 -> UInt8) -> UInt64) :=
  ⟨xxh64_eight_bijective, xxh64_four_injective, xxh64_eight_injective 0,
    xxh64_eight_injective 0, xxh64_four_injective 0, xxh64_four_injective 0⟩

end XxHash
end Cuco
end Cuda2Rocm
