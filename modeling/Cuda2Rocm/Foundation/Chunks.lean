import Mathlib.Data.List.Basic
import Mathlib.Tactic.Linarith

/-!
# Chunks of lists and windows of memory

A loop that advances a pointer by a fixed stride, as long as a whole stride is left,
works through the whole chunks of the bytes before its end.  The lists here say what it
has seen and what it leaves over.
-/

namespace Cuda2Rocm
namespace Foundation

variable {alpha : Type _}

/-- The whole chunks of `n` elements that a list starts with. -/
def chunks (n : Nat) (xs : List alpha) : List (List alpha) :=
  (List.range (xs.length / n)).map (fun i => (xs.drop (i * n)).take n)

/-- What a list has behind its whole chunks. -/
def leftover (n : Nat) (xs : List alpha) : List alpha :=
  xs.drop (xs.length / n * n)

theorem chunks_of_lt {n : Nat} {xs : List alpha} (h : xs.length < n) :
    chunks n xs = [] := by
  unfold chunks
  rw [Nat.div_eq_of_lt h]
  rfl

/-- The number of chunks behind a first one. -/
theorem length_append_div {n : Nat} (hn : 0 < n) {first : List alpha}
    (hfirst : first.length = n) (rest : List alpha) :
    (first ++ rest).length / n = rest.length / n + 1 := by
  rw [List.length_append, hfirst, Nat.add_comm, Nat.add_div_right _ hn]

theorem chunks_append {n : Nat} (hn : 0 < n) {first : List alpha}
    (hfirst : first.length = n) (rest : List alpha) :
    chunks n (first ++ rest) = first :: chunks n rest := by
  unfold chunks
  rw [length_append_div hn hfirst, List.range_succ_eq_map, List.map_cons, List.map_map]
  congr 1
  · rw [Nat.zero_mul, List.drop_zero, ← hfirst, List.take_left]
  · apply List.map_congr_left
    intro i _
    have hskip : (i + 1) * n = first.length + i * n := by
      rw [hfirst, Nat.succ_mul, Nat.add_comm]
    show List.take n (List.drop ((i + 1) * n) (first ++ rest)) = _
    rw [hskip, List.drop_length_add_append]

/-!
# Windows
-/

/-- `n` cells of a memory from an address on. -/
def window (memory : Nat -> alpha) (p n : Nat) : List alpha :=
  (List.range' p n).map memory

@[simp] theorem length_window (memory : Nat -> alpha) (p n : Nat) :
    (window memory p n).length = n := by
  simp [window]

theorem window_append (memory : Nat -> alpha) (p m n : Nat) :
    window memory p m ++ window memory (p + m) n = window memory p (m + n) := by
  unfold window
  rw [← List.map_append, List.range'_append_1]

theorem drop_window (memory : Nat -> alpha) (p m n : Nat) :
    (window memory p (m + n)).drop m = window memory (p + m) n := by
  rw [← window_append]
  exact List.drop_left' (length_window memory p m)

theorem take_window (memory : Nat -> alpha) (p m n : Nat) :
    (window memory p (m + n)).take m = window memory p m := by
  rw [← window_append]
  exact List.take_left' (length_window memory p m)

/-- The leftover of a window is the window behind its whole chunks. -/
theorem leftover_window (memory : Nat -> alpha) (p size n : Nat) :
    leftover size (window memory p n) = window memory (p + n / size * size) (n % size) := by
  have hsplit : window memory p n = window memory p (n / size * size + n % size) := by
    rw [Nat.div_add_mod']
  unfold leftover
  rw [length_window, hsplit]
  exact drop_window memory p (n / size * size) (n % size)

end Foundation
end Cuda2Rocm
