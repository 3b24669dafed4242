import Mathlib.Data.Int.GCD

/-!
# Loops that step by a stride

`for (i = start; i < n; i += stride)` on a machine word.  The sum is reduced to
the word, so such a loop can step over the end of its range and come round again,
or not move at all.  It ends from every start exactly when the numbers past the
range are at least as many as the greatest common divisor of the stride and the
width of the word.
-/

namespace Cuda2Rocm
namespace Foundation

/-- The indices that the loop visits from `i` on, if it ends within the fuel. -/
def strideLoop (width n stride : Nat) : Nat -> Nat -> Option (List Nat)
  | 0, _ => none
  | fuel + 1, i =>
      if i < n then
        (strideLoop width n stride fuel ((i + stride) % width)).map (fun rest => i :: rest)
      else some []

/-- The loop comes to its end, having visited these indices. -/
def StrideEnds (width n stride start : Nat) (visited : List Nat) : Prop :=
  exists fuel, strideLoop width n stride fuel start = some visited

variable {width n stride : Nat}

/-- From a first index within the range, the loop is that of the next index. -/
theorem strideEnds_iff_of_lt {start : Nat} (hstart : start < n) (visited : List Nat) :
    StrideEnds width n stride start visited <->
      exists rest, StrideEnds width n stride ((start + stride) % width) rest ∧
        visited = start :: rest := by
  constructor
  · rintro ⟨fuel, hfuel⟩
    cases fuel with
    | zero => exact absurd hfuel (Option.some_ne_none visited).symm
    | succ fuel =>
        rw [strideLoop, if_pos hstart] at hfuel
        rcases Option.map_eq_some_iff.mp hfuel with ⟨rest, hrest, hvisited⟩
        exact ⟨rest, ⟨fuel, hrest⟩, hvisited.symm⟩
  · rintro ⟨rest, ⟨fuel, hfuel⟩, rfl⟩
    refine ⟨fuel + 1, ?_⟩
    rw [strideLoop, if_pos hstart, hfuel]
    rfl

theorem strideEnds_of_le {start : Nat} (hstart : n ≤ start) :
    StrideEnds width n stride start [] :=
  ⟨1, by rw [strideLoop, if_neg (Nat.not_lt.mpr hstart)]⟩

/-- A loop that starts past the range visits nothing. -/
theorem eq_nil_of_strideEnds {start : Nat} {visited : List Nat} (hstart : n ≤ start)
    (h : StrideEnds width n stride start visited) : visited = [] := by
  rcases h with ⟨fuel, hfuel⟩
  cases fuel with
  | zero => cases hfuel
  | succ fuel =>
      rw [strideLoop, if_neg (Nat.not_lt.mpr hstart)] at hfuel
      exact (Option.some.inj hfuel).symm

theorem mod_add_stride (start k : Nat) :
    ((start + stride) % width + k * stride) % width =
      (start + (k + 1) * stride) % width := by
  rw [Nat.mod_add_mod, Nat.succ_mul, Nat.add_assoc, Nat.add_comm stride]

/-- The loop ends once some step of it is past the range. -/
theorem strideEnds_of_reaches (k : Nat) : forall {start : Nat}, start < width ->
    n ≤ (start + k * stride) % width ->
    exists visited, StrideEnds width n stride start visited := by
  induction k with
  | zero =>
      intro start hstart hreach
      rw [Nat.zero_mul, Nat.add_zero, Nat.mod_eq_of_lt hstart] at hreach
      exact ⟨[], strideEnds_of_le hreach⟩
  | succ k ih =>
      intro start hstart hreach
      by_cases hin : start < n
      · have hnext : (start + stride) % width < width :=
          Nat.mod_lt _ (Nat.zero_lt_of_lt hstart)
        rw [← mod_add_stride] at hreach
        rcases ih hnext hreach with ⟨rest, hrest⟩
        exact ⟨start :: rest, (strideEnds_iff_of_lt hin _).mpr ⟨rest, hrest, rfl⟩⟩
      · exact ⟨[], strideEnds_of_le (Nat.not_lt.mp hin)⟩

/-- A loop that ends has taken a step past the range. -/
theorem reaches_of_strideEnds (visited : List Nat) : forall {start : Nat},
    start < width -> StrideEnds width n stride start visited ->
    exists k, n ≤ (start + k * stride) % width := by
  induction visited with
  | nil =>
      intro start hstart hends
      refine ⟨0, ?_⟩
      rw [Nat.zero_mul, Nat.add_zero, Nat.mod_eq_of_lt hstart]
      apply Nat.not_lt.mp
      intro hin
      rcases (strideEnds_iff_of_lt hin _).mp hends with ⟨_, _, hvisited⟩
      exact absurd hvisited (List.cons_ne_nil _ _).symm
  | cons first visited ih =>
      intro start hstart hends
      by_cases hin : start < n
      · rcases (strideEnds_iff_of_lt hin _).mp hends with ⟨rest, hrest, hvisited⟩
        have hrest' := (List.cons.inj hvisited).2 ▸ hrest
        rcases ih (Nat.mod_lt _ (Nat.zero_lt_of_lt hstart)) hrest' with ⟨k, hk⟩
        exact ⟨k + 1, by rw [← mod_add_stride]; exact hk⟩
      · refine ⟨0, ?_⟩
        rw [Nat.zero_mul, Nat.add_zero, Nat.mod_eq_of_lt hstart]
        exact Nat.not_lt.mp hin

/-- Before it leaves the range, the loop visits one index after another. -/
theorem mem_of_strideEnds (hn : n ≤ width) (m : Nat) : forall {start : Nat}
    {visited : List Nat}, StrideEnds width n stride start visited ->
    start + m * stride < n -> start + m * stride ∈ visited := by
  induction m with
  | zero =>
      intro start visited hends hin
      rw [Nat.zero_mul, Nat.add_zero] at hin ⊢
      rcases (strideEnds_iff_of_lt hin _).mp hends with ⟨rest, _, rfl⟩
      exact List.mem_cons_self
  | succ m ih =>
      intro start visited hends hin
      rw [Nat.succ_mul, Nat.add_comm (m * stride), ← Nat.add_assoc] at hin ⊢
      have hstart : start < n := by omega
      have hnext : (start + stride) % width = start + stride :=
        Nat.mod_eq_of_lt (by omega)
      rcases (strideEnds_iff_of_lt hstart _).mp hends with ⟨rest, hrest, rfl⟩
      rw [hnext] at hrest
      exact List.mem_cons_of_mem _ (ih hrest hin)

/-!
# Which starts lead out of the range
-/

/-- With enough numbers past the range, a step past it comes from every start. -/
theorem reaches_of_gcd_add_le (hn : 0 < n) (hroom : Nat.gcd stride width + n ≤ width)
    {start : Nat} (hstart : start < width) :
    exists k, n ≤ (start + k * stride) % width := by
  have hgcd : 0 < Nat.gcd stride width := Nat.gcd_pos_of_pos_right _ (by omega)
  rcases Nat.exists_mul_mod_eq_gcd (n := stride) (k := width) (by omega) with ⟨m, _, hm⟩
  -- the last number of the word that differs from the start by a multiple of the divisor
  let j := (width - 1 - start) / Nat.gcd stride width
  have hmul : Nat.gcd stride width * j + (width - 1 - start) % Nat.gcd stride width =
      width - 1 - start := Nat.div_add_mod _ _
  have hrest : (width - 1 - start) % Nat.gcd stride width < Nat.gcd stride width :=
    Nat.mod_lt _ hgcd
  have hmod : (m * j * stride) % width = (Nat.gcd stride width * j) % width := by
    rw [← hm, Nat.mod_mul_mod]
    rw [Nat.mul_comm (m * j), Nat.mul_assoc]
  refine ⟨m * j, ?_⟩
  rw [Nat.add_mod, hmod, ← Nat.add_mod, Nat.mod_eq_of_lt (by omega)]
  omega

/-- A loop that starts at 0 only meets multiples of the divisor. -/
theorem gcd_add_le_of_reaches {k : Nat} (hwidth : 0 < width)
    (hreach : n ≤ (0 + k * stride) % width) : Nat.gcd stride width + n ≤ width := by
  have hdvd : Nat.gcd stride width ∣ width - (0 + k * stride) % width := by
    apply Nat.dvd_sub (Nat.gcd_dvd_right _ _)
    rw [Nat.zero_add]
    exact (Nat.dvd_mod_iff (Nat.gcd_dvd_right _ _)).mpr
      (Nat.dvd_mul_left_of_dvd (Nat.gcd_dvd_left _ _) k)
  have hlt : (0 + k * stride) % width < width := Nat.mod_lt _ hwidth
  have hle := Nat.le_of_dvd (by omega) hdvd
  omega

/-- The loops from all starts end exactly if the one from 0 does. -/
theorem strideEnds_zero_iff (hn : 0 < n) (hwidth : 0 < width) :
    (exists visited, StrideEnds width n stride 0 visited) <->
      Nat.gcd stride width + n ≤ width := by
  constructor
  · rintro ⟨visited, hends⟩
    rcases reaches_of_strideEnds visited hwidth hends with ⟨k, hk⟩
    exact gcd_add_le_of_reaches hwidth hk
  · intro hroom
    rcases reaches_of_gcd_add_le hn hroom hwidth with ⟨k, hk⟩
    exact strideEnds_of_reaches k hwidth hk

end Foundation
end Cuda2Rocm
