import Cuda2Rocm.Foundation.Chunks

/-!
# Computations that read memory

What such a computation returns, and the addresses it has read on its way, in order.
-/

namespace Cuda2Rocm
namespace Foundation

/-- A value, and the addresses that were read for it. -/
@[ext] structure Reading (alpha : Type _) where
  value : alpha
  reads : List Nat

namespace Reading

instance : Monad Reading where
  pure a := { value := a, reads := [] }
  bind x f := { value := (f x.value).value, reads := x.reads ++ (f x.value).reads }

/-- One cell of a memory is read. -/
def cell {beta : Type _} (memory : Nat -> beta) (address : Nat) : Reading beta :=
  { value := memory address, reads := [address] }

variable {alpha beta : Type _}

@[simp] theorem value_pure (a : alpha) : (pure a : Reading alpha).value = a := rfl

@[simp] theorem reads_pure (a : alpha) : (pure a : Reading alpha).reads = [] := rfl

@[simp] theorem value_bind (x : Reading alpha) (f : alpha -> Reading beta) :
    (x >>= f).value = (f x.value).value := rfl

@[simp] theorem reads_bind (x : Reading alpha) (f : alpha -> Reading beta) :
    (x >>= f).reads = x.reads ++ (f x.value).reads := rfl

@[simp] theorem value_cell (memory : Nat -> beta) (address : Nat) :
    (cell memory address).value = memory address := rfl

@[simp] theorem reads_cell (memory : Nat -> beta) (address : Nat) :
    (cell memory address).reads = [address] := rfl

/-!
# Loops with a stride
-/

section Stride

variable {memory : Nat -> beta} {state abstract : Type _} {n stop : Nat}
  {loop : Nat -> state -> Reading (state × Nat)} {body : Nat -> state -> Reading state}
  {abs : state -> abstract} {fold : abstract -> List beta -> abstract}

/-- What such a loop leaves from a pointer on: the fold over the whole chunks before its
end, and the pointer behind them. -/
structure Folds (memory : Nat -> beta) (abs : state -> abstract)
    (fold : abstract -> List beta -> abstract) (n stop p : Nat) (s : state)
    (result : Reading (state × Nat)) : Prop where
  value : abs result.value.1 = (chunks n (window memory p (stop - p))).foldl fold (abs s)
  pointer : result.value.2 = p + (stop - p) / n * n
  reads : result.reads = List.range' p ((stop - p) / n * n)

/-- A loop whose body takes in a stride folds over the chunks, reading each cell once. -/
theorem folds_of_stride (hn : 0 < n)
    (hloop : forall p s, loop p s =
      if p + n ≤ stop then body p s >>= loop (p + n) else pure (s, p))
    (hbody : forall p s, abs (body p s).value = fold (abs s) (window memory p n))
    (hreads : forall p s, (body p s).reads = List.range' p n) (p : Nat) (s : state) :
    Folds memory abs fold n stop p s (loop p s) := by
  rw [hloop p s]
  split
  · rename_i hmore
    have ih := folds_of_stride hn hloop hbody hreads (p + n) (body p s).value
    have hrest : stop - p = n + (stop - (p + n)) := by omega
    have hcount : (stop - p) / n * n = n + (stop - (p + n)) / n * n := by
      rw [hrest, Nat.add_div_left _ hn, Nat.succ_mul, Nat.add_comm]
    constructor
    · rw [hrest, ← window_append, chunks_append hn (length_window memory p n),
        List.foldl_cons, ← hbody p s]
      exact ih.value
    · rw [hcount, ← Nat.add_assoc]
      exact ih.pointer
    · rw [hcount, ← List.range'_append_1, ← hreads p s, ← ih.reads]
      rfl
  · rename_i hend
    have hfew : stop - p < n := by omega
    constructor
    · rw [chunks_of_lt (by rw [length_window]; exact hfew)]
      rfl
    · rw [Nat.div_eq_of_lt hfew, Nat.zero_mul]
      rfl
    · rw [Nat.div_eq_of_lt hfew, Nat.zero_mul]
      rfl
termination_by stop - p

end Stride

end Reading

/-!
# Numbers in little-endian order
-/

/-- The number whose bytes are given, the least significant one first. -/
def littleEndian : List UInt8 -> Nat
  | [] => 0
  | b :: rest => b.toNat + 2 ^ 8 * littleEndian rest

theorem littleEndian_lt (bytes : List UInt8) :
    littleEndian bytes < 2 ^ (8 * bytes.length) := by
  induction bytes with
  | nil => exact Nat.one_pos
  | cons b rest ih =>
      have hb := b.toNat_lt
      have hpow : 2 ^ (8 * (b :: rest).length) = 2 ^ 8 * 2 ^ (8 * rest.length) := by
        rw [List.length_cons, Nat.mul_succ, Nat.add_comm, Nat.pow_add]
      show b.toNat + 2 ^ 8 * littleEndian rest < _
      omega

/-- Numbers of so many bytes have one representation. -/
theorem littleEndian_inj {first second : List UInt8} (hlength : first.length = second.length)
    (h : littleEndian first = littleEndian second) : first = second := by
  induction first generalizing second with
  | nil => exact (List.eq_nil_of_length_eq_zero hlength.symm).symm
  | cons a rest ih =>
      cases second with
      | nil => cases hlength
      | cons b others =>
          have ha := a.toNat_lt
          have hb := b.toNat_lt
          change a.toNat + 2 ^ 8 * littleEndian rest =
            b.toNat + 2 ^ 8 * littleEndian others at h
          have hlow : a = b := UInt8.toNat_inj.mp (by omega)
          have hhigh : rest = others := ih (Nat.succ.inj hlength) (by omega)
          rw [hlow, hhigh]

/-- A further byte is the most significant one. -/
theorem littleEndian_concat (bytes : List UInt8) (b : UInt8) :
    littleEndian (bytes ++ [b]) = littleEndian bytes + 2 ^ (8 * bytes.length) * b.toNat := by
  induction bytes with
  | nil =>
      show b.toNat + 2 ^ 8 * 0 = 0 + 1 * b.toNat
      omega
  | cons first rest ih =>
      have hpow : 2 ^ (8 * (first :: rest).length) = 2 ^ 8 * 2 ^ (8 * rest.length) := by
        rw [List.length_cons, Nat.mul_succ, Nat.add_comm, Nat.pow_add]
      show first.toNat + 2 ^ 8 * littleEndian (rest ++ [b]) =
        first.toNat + 2 ^ 8 * littleEndian rest + _
      rw [ih, hpow, Nat.mul_add, Nat.mul_assoc, Nat.add_assoc]

/-- A byte that is shifted above the others, within so many bits. -/
theorem littleEndian_or_shiftLeft (bytes : List UInt8) (b : UInt8) {width : Nat}
    (hfits : 8 * bytes.length + 8 ≤ width) :
    littleEndian bytes ||| (b.toNat <<< (8 * bytes.length) % 2 ^ width) =
      littleEndian (bytes ++ [b]) := by
  have hlow := littleEndian_lt bytes
  have hall := littleEndian_lt (bytes ++ [b])
  have hwidth : 2 ^ (8 * (bytes ++ [b]).length) ≤ 2 ^ width := by
    apply Nat.pow_le_pow_right (by decide)
    rw [List.length_append]
    exact hfits
  have hor := Nat.shiftLeft_add_eq_or_of_lt hlow b.toNat
  rw [littleEndian_concat] at hall ⊢
  rw [Nat.shiftLeft_eq, Nat.mul_comm] at hor ⊢
  rw [Nat.mod_eq_of_lt (by omega), Nat.or_comm, ← hor, Nat.add_comm]

end Foundation
end Cuda2Rocm
