import Mathlib.Data.Nat.Prime.Basic
import Mathlib.Tactic.IntervalCases
import Cuda2Rocm.Cuco.BloomFilter.Model
import Cuda2Rocm.Foundation.Rotations

/-!
# Blocks and bits within reach

The block of a key and the bits that are set in it are remainders of sums of the same
64-bit hash.  Which pairs of a block and a bit a probe can reach is a matter of how the
number of blocks and the 256 bits of a block lie to each other.
-/

namespace Cuda2Rocm
namespace Cuco
namespace BloomFilter

open Foundation

/-- `arrow_filter_policy::max_filter_blocks`. -/
def maxFilterBlocks : Nat := 2 ^ 31 / (8 * 4)

/-- The two policies. -/
inductive PolicyName where
  | default
  | arrow
deriving DecidableEq, Repr

theorem defaultBits_pos : 0 < wrapSize (8 * 32) := by decide

/-- The policy with its default arguments; a key stands for its 64-bit hash. -/
def PolicyName.policy : PolicyName -> FilterPolicy UInt64
  | .default => defaultFilterPolicy id 32 8 defaultBits_pos
  | .arrow => arrowFilterPolicy id

@[simp] theorem PolicyName.bitsPerBlock_eq (name : PolicyName) :
    name.policy.bitsPerBlock = 256 := by
  cases name <;> rfl

@[simp] theorem PolicyName.hashCount_eq (name : PolicyName) : name.policy.hashCount = 7 := by
  cases name <;> rfl

/-- A filter of so many blocks. -/
def sized (name : PolicyName) (n : Nat) (hpos : 0 < n) (hmax : n ≤ maxFilterBlocks) :
    BloomFilter UInt64 :=
  { policy := name.policy
    blockExtent := n
    blockExtent_pos := hpos
    words_le := by
      have hwords : name.policy.wordsPerBlock = 8 := by cases name <;> rfl
      rw [hwords]
      exact Nat.le_trans (Nat.mul_le_mul_right 8 hmax) (by decide) }

/-- Every hash function can set every bit of every block. -/
def AllBitsReachable (filter : BloomFilter UInt64) : Prop :=
  forall b t i, b < filter.blockExtent -> t < filter.policy.bitsPerBlock ->
    i < filter.policy.hashCount ->
    exists h, filter.blockIdx h = b ∧ filter.bitIdx h i = t

/-!
# What the policies compute
-/

section Values

variable {n : Nat} {hpos : 0 < n} {hmax : n ≤ maxFilterBlocks}

theorem or_one_eq (q : Nat) : q ||| 1 = 2 * (q / 2) + 1 := by
  have hhalf : (q ||| 1) / 2 = q / 2 := by
    rw [Nat.or_div_two]
    exact Nat.or_zero _
  have hodd : (q ||| 1) % 2 = 1 := Nat.or_mod_two_eq_one.mpr (Or.inr rfl)
  omega

/-- The stride of the double hashing: one more than twice the upper 31 bits. -/
theorem toNat_stride (h : UInt64) : ((h >>> 32) ||| 1).toNat = 2 * (h.toNat / 2 ^ 33) + 1 := by
  rw [UInt64.toNat_or, UInt64.toNat_shiftRight]
  change h.toNat >>> 32 ||| 1 = _
  rw [or_one_eq, Nat.shiftRight_eq_div_pow, Nat.div_div_eq_div_mul, ← Nat.pow_succ]

theorem blockIdx_default (h : UInt64) :
    (sized .default n hpos hmax).blockIdx h = h.toNat % n := by
  change (h + UInt64.ofNat 0 * ((h >>> 32) ||| 1)).toNat % n = _
  simp

theorem bitIdx_default (h : UInt64) {i : Nat} (hi : i < 7) :
    (sized .default n hpos hmax).bitIdx h i =
      (h.toNat + i * (2 * (h.toNat / 2 ^ 33) + 1)) % 256 := by
  change (h + UInt64.ofNat i * ((h >>> 32) ||| 1)).toNat % 256 = _
  rw [UInt64.toNat_add, UInt64.toNat_mul, toNat_stride,
    UInt64.toNat_ofNat_of_lt' (Nat.lt_trans hi (by decide))]
  generalize i * (2 * (h.toNat / 2 ^ 33) + 1) = z
  omega

theorem bitIdx_arrow_three (h : UInt64) : (sized .arrow n hpos hmax).bitIdx h 3 % 2 = 0 := by
  change ((h + 3 * (h * 0x9E3779B97F4A7C15)) >>> 5).toNat % 256 % 2 = 0
  rw [UInt64.toNat_shiftRight, UInt64.toNat_add, UInt64.toNat_mul, UInt64.toNat_mul]
  change ((h.toNat + 3 * (h.toNat * 0x9E3779B97F4A7C15 % 2 ^ 64) % 2 ^ 64) % 2 ^ 64) >>> 5 %
    256 % 2 = 0
  rw [Nat.shiftRight_eq_div_pow]
  omega

end Values

/-!
# Out of reach
-/

section OutOfReach

variable {n : Nat} {hpos : 0 < n} {hmax : n ≤ maxFilterBlocks}

/-- What is to be reached, in numbers. -/
theorem allBitsReachable_sized (name : PolicyName) :
    AllBitsReachable (sized name n hpos hmax) <->
      forall b t i, b < n -> t < 256 -> i < 7 ->
        exists h, (sized name n hpos hmax).blockIdx h = b ∧
          (sized name n hpos hmax).bitIdx h i = t := by
  have hbits : (sized name n hpos hmax).policy.bitsPerBlock = 256 := name.bitsPerBlock_eq
  have hcount : (sized name n hpos hmax).policy.hashCount = 7 := name.hashCount_eq
  unfold AllBitsReachable
  rw [hbits, hcount]
  rfl

theorem arrow_out_of_reach : ¬ AllBitsReachable (sized .arrow n hpos hmax) := by
  rw [allBitsReachable_sized]
  intro hall
  rcases hall 0 1 3 hpos (by decide) (by decide) with ⟨h, _, hbit⟩
  have heven : (sized .arrow n hpos hmax).bitIdx h 3 % 2 = 0 := bitIdx_arrow_three h
  rw [hbit] at heven
  cases heven

/-- Whatever the policy is, the block decides the parity of the bit of the first hash, where
both the number of blocks and that of the bits of a block are even. -/
theorem bitIdx_zero_parity {key : Type _} (filter : BloomFilter key)
    (hblocks : 2 ∣ filter.blockExtent) (hbits : 2 ∣ filter.policy.bitsPerBlock) (k : key) :
    filter.bitIdx k 0 % 2 = filter.blockIdx k % 2 := by
  unfold bitIdx blockIdx
  rw [Nat.mod_mod_of_dvd _ hbits, Nat.mod_mod_of_dvd _ hblocks]

theorem even_out_of_reach (name : PolicyName) (heven : n % 2 = 0) :
    ¬ AllBitsReachable (sized name n hpos hmax) := by
  rw [allBitsReachable_sized]
  intro hall
  rcases hall 0 1 0 hpos (by decide) (by decide) with ⟨h, hblock, hbit⟩
  have hbits : (sized name n hpos hmax).policy.bitsPerBlock = 256 := name.bitsPerBlock_eq
  have hparity := bitIdx_zero_parity (sized name n hpos hmax) (Nat.dvd_of_mod_eq_zero heven)
    (by rw [hbits]; decide) h
  rw [hblock, hbit] at hparity
  cases hparity

/-- The one odd number of blocks that the second hash goes around too slowly. -/
def slowBlocks : Nat := 50529027

/-- A move by `2 ^ 33` is one by two there. -/
theorem mod_slow (h : Nat) : h % slowBlocks = (h % 2 ^ 33 + 2 * (h / 2 ^ 33)) % slowBlocks := by
  have hsplit : h % 2 ^ 33 + 2 ^ 33 * (h / 2 ^ 33) =
      h % 2 ^ 33 + 2 * (h / 2 ^ 33) + 50529027 * (170 * (h / 2 ^ 33)) := by ring
  unfold slowBlocks
  conv_lhs => rw [← Nat.mod_add_div h (2 ^ 33), hsplit, Nat.add_mul_mod_self_left]

/-- The last multiple of 256 that is three more than a multiple is never arrived at. -/
theorem slow_gap {x : Nat} (hrange : x ≤ 255 * 50529027) (hblock : x % 50529027 = 3)
    (hbit : x % 256 = 0) : False := by
  omega

theorem slow_out_of_reach (hslow : n = slowBlocks) :
    ¬ AllBitsReachable (sized .default n hpos hmax) := by
  rw [allBitsReachable_sized]
  intro hall
  have hfour : 3 < n := by
    rw [hslow]
    decide
  rcases hall 3 1 1 hfour (by decide) (by decide) with ⟨h, hblock, hbit⟩
  have hlt := h.toNat_lt
  rw [blockIdx_default, hslow, mod_slow] at hblock
  rw [bitIdx_default h (by decide), Nat.one_mul] at hbit
  have hbit' : (h.toNat % 2 ^ 33 + 2 * (h.toNat / 2 ^ 33)) % 256 = 0 := by omega
  exact slow_gap (by omega) hblock hbit'

end OutOfReach

/-!
# Within reach
-/

section WithinReach

variable {n : Nat} {hpos : 0 < n} {hmax : n ≤ maxFilterBlocks}

theorem coprime_of_odd (hodd : n % 2 = 1) : Nat.Coprime n 256 := by
  have htwo : Nat.Coprime n 2 := Nat.coprime_two_right.mpr (Nat.odd_iff.mpr hodd)
  exact htwo.pow_right 8

/-- A rotation by two that does not go around comes from the one number of blocks. -/
theorem eq_slow (hodd : n % 2 = 1) (hmax : n ≤ maxFilterBlocks)
    (htwo : 2 ≡ 2 ^ 33 [MOD n]) (hshort : 2 ^ 33 + (2 ^ 31 - 1) * 2 < n * 256) :
    n = slowBlocks := by
  have hlimit : n ≤ 67108864 := hmax
  have hdvd : n ∣ 2 * (2 ^ 32 - 1) := (Nat.modEq_iff_dvd' (by decide)).mp htwo
  have hcoprime : Nat.Coprime n 2 := Nat.coprime_two_right.mpr (Nat.odd_iff.mpr hodd)
  rcases hcoprime.dvd_of_dvd_mul_left hdvd with ⟨d, hd⟩
  have hlow : 64 ≤ d := by
    by_contra hsmall
    have hprod : n * d ≤ n * 63 := Nat.mul_le_mul_left n (by omega)
    omega
  have hhigh : d ≤ 85 := by
    by_contra hbig
    have hprod : n * 86 ≤ n * d := Nat.mul_le_mul_left n (by omega)
    omega
  change n = 50529027
  interval_cases d <;> omega

/-- The rotation of a later hash is quick enough to cover all pairs. -/
theorem covers (hodd : n % 2 = 1) (hmax : n ≤ maxFilterBlocks) (hslow : n ≠ slowBlocks)
    {i rotation : Nat} (hi : 0 < i) (hlast : i < 7) (hrotation : rotation < n * 256)
    (hblock : rotation ≡ 2 ^ 33 [MOD n]) (hbit : rotation ≡ 2 * i [MOD 256]) :
    shorter (n * 256) rotation ≤ 2 ^ 33 ∧
      n * 256 ≤ 2 ^ 33 + (2 ^ 31 - 1) * shorter (n * 256) rotation := by
  have hlimit : n ≤ 67108864 := hmax
  have hmod : rotation % 256 = 2 * i := by
    rw [hbit]
    exact Nat.mod_eq_of_lt (by omega)
  unfold shorter
  constructor
  · omega
  · by_cases hquick : 4 ≤ min rotation (n * 256 - rotation)
    · omega
    · -- only a rotation by two is slower
      have htwo : rotation = 2 := by omega
      rw [htwo] at hblock ⊢
      by_contra hgap
      have hmin : min 2 (n * 256 - 2) = 2 := by omega
      rw [hmin] at hgap
      exact hslow (eq_slow hodd hmax hblock (Nat.not_le.mp hgap))

/-- A later hash reaches every bit of every block. -/
theorem within_reach_later (hodd : n % 2 = 1) (hslow : n ≠ slowBlocks) {b t i : Nat}
    (hb : b < n) (ht : t < 256) (hi : 0 < i) (hlast : i < 7) :
    exists h, (sized .default n hpos hmax).blockIdx h = b ∧
      (sized .default n hpos hmax).bitIdx h i = t := by
  have hcoprime := coprime_of_odd hodd
  rcases exists_residues hcoprime hpos (by decide) (2 ^ 33) (2 * i) with
    ⟨rotation, hrotation, hblock, hbit⟩
  rcases covers hodd hmax hslow hi hlast hrotation hblock hbit with ⟨hshort, hlong⟩
  rcases exists_pair_rotation hcoprime hrotation hblock hbit hshort (by decide) hlong b
    (t + 256 - i) with ⟨k, y, hk, hy, hfirst, hsecond⟩
  -- the upper 31 bits of the hash count the moves
  have hsize : y + k * 2 ^ 33 < 2 ^ 64 := by omega
  have hvalue : (UInt64.ofNat (y + k * 2 ^ 33)).toNat = y + k * 2 ^ 33 :=
    UInt64.toNat_ofNat_of_lt' hsize
  have hupper : (y + k * 2 ^ 33) / 2 ^ 33 = k := by omega
  refine ⟨UInt64.ofNat (y + k * 2 ^ 33), ?_, ?_⟩
  · rw [blockIdx_default, hvalue, hfirst]
    exact Nat.mod_eq_of_lt hb
  · rw [bitIdx_default _ hlast, hvalue, hupper]
    have hsplit : y + k * 2 ^ 33 + i * (2 * k + 1) =
        y + k * (2 * i) + i + 256 * (k * 2 ^ 25) := by ring
    have hsum : y + k * (2 * i) + i ≡ t + 256 - i + i [MOD 256] := hsecond.add_right i
    rw [hsplit, Nat.add_mul_mod_self_left, hsum]
    omega

/-- So does the first one. -/
theorem within_reach_first (hodd : n % 2 = 1) {b t : Nat} (hb : b < n) (ht : t < 256) :
    exists h, (sized .default n hpos hmax).blockIdx h = b ∧
      (sized .default n hpos hmax).bitIdx h 0 = t := by
  rcases exists_residues (coprime_of_odd hodd) hpos (by decide) b t with ⟨x, hx, hfirst, hsecond⟩
  have hlimit : n ≤ 67108864 := hmax
  have hsize : x < 2 ^ 64 := by omega
  have hvalue : (UInt64.ofNat x).toNat = x := UInt64.toNat_ofNat_of_lt' hsize
  refine ⟨UInt64.ofNat x, ?_, ?_⟩
  · rw [blockIdx_default, hvalue, hfirst]
    exact Nat.mod_eq_of_lt hb
  · rw [bitIdx_default _ (by decide), hvalue, Nat.zero_mul, Nat.add_zero, hsecond]
    exact Nat.mod_eq_of_lt ht

theorem within_reach (hodd : n % 2 = 1) (hslow : n ≠ slowBlocks) :
    AllBitsReachable (sized .default n hpos hmax) := by
  rw [allBitsReachable_sized]
  intro b t i hb ht hi
  rcases Nat.eq_zero_or_pos i with rfl | hlater
  · exact within_reach_first hodd hb ht
  · exact within_reach_later hodd hslow hb ht hlater hi

end WithinReach

/-- Which filters have every bit of every block within reach of every hash function. -/
theorem all_bits_reachable_iff (name : PolicyName) {n : Nat} (hpos : 0 < n)
    (hmax : n ≤ maxFilterBlocks) :
    AllBitsReachable (sized name n hpos hmax) <->
      (name = .default ∧ n % 2 = 1 ∧ n ≠ slowBlocks) := by
  cases name with
  | arrow =>
      refine ⟨fun hall => absurd hall arrow_out_of_reach, ?_⟩
      rintro ⟨hname, _⟩
      cases hname
  | default =>
      constructor
      · intro hall
        refine ⟨rfl, ?_, fun hslow => slow_out_of_reach hslow hall⟩
        by_contra heven
        exact even_out_of_reach .default (by omega) hall
      · rintro ⟨_, hodd, hslow⟩
        exact within_reach hodd hslow

theorem all_bits_reachable_iff_threeBlocks :
    AllBitsReachable (sized .default 3 (by decide) (by decide)) <->
      (PolicyName.default = .default ∧ 3 % 2 = 1 ∧ 3 ≠ slowBlocks) :=
  all_bits_reachable_iff .default (by decide) (by decide)

/-- With two blocks the first hash of the default policy cannot set an odd bit of the first
block, and with three the fourth of the arrow policy cannot set an odd bit of any. -/
theorem odd_bit_out_of_reach :
    ¬ AllBitsReachable (sized .default 2 (by decide) (by decide)) ∧
      ¬ AllBitsReachable (sized .arrow 3 (by decide) (by decide)) :=
  ⟨even_out_of_reach .default rfl, arrow_out_of_reach⟩

end BloomFilter
end Cuco
end Cuda2Rocm
