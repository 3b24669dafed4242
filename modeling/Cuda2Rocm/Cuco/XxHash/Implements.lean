import Cuda2Rocm.Cuco.XxHash.Model
import Cuda2Rocm.Cuco.XxHash.Published

/-!
# The code computes XXH64

Each loop of the code works through the whole chunks of the bytes in front of its
pointer, in order and without reading further.
-/

namespace Cuda2Rocm
namespace Cuco
namespace XxHash

open Foundation

/-!
# Words of the code and of the definition
-/

theorem toBitVec_prime1 : prime1.toBitVec = Published.PRIME64_1 := by decide
theorem toBitVec_prime2 : prime2.toBitVec = Published.PRIME64_2 := by decide
theorem toBitVec_prime3 : prime3.toBitVec = Published.PRIME64_3 := by decide
theorem toBitVec_prime4 : prime4.toBitVec = Published.PRIME64_4 := by decide
theorem toBitVec_prime5 : prime5.toBitVec = Published.PRIME64_5 := by decide

/-- Shifts and an `or` rotate. -/
theorem toBitVec_rotl (x : UInt64) {r : Nat} (hpos : 0 < r) (hlt : r < 64) :
    (rotl x r).toBitVec = x.toBitVec.rotateLeft r := by
  have hleft : r % 18446744073709551616 % 64 = r := by omega
  have hright : (64 - r) % 18446744073709551616 % 64 = 64 - r := by omega
  rw [BitVec.rotateLeft_def, Nat.mod_eq_of_lt hlt]
  simp [rotl, hleft, hright]

theorem toNat_or_byte {x k : UInt64} {bytes : List UInt8} (b : UInt8)
    (hx : x.toNat = littleEndian bytes) (hk : k.toNat = 8 * bytes.length)
    (hfits : k.toNat + 8 ≤ 64) :
    (x ||| (b.toUInt64 <<< k)).toNat = littleEndian (bytes ++ [b]) := by
  have hmod : 8 * bytes.length % 64 = 8 * bytes.length := Nat.mod_eq_of_lt (by omega)
  rw [UInt64.toNat_or, UInt64.toNat_shiftLeft, UInt8.toNat_toUInt64, hx, hk, hmod]
  exact littleEndian_or_shiftLeft bytes b (by omega)

theorem toNat_or_byte32 {x k : UInt32} {bytes : List UInt8} (b : UInt8)
    (hx : x.toNat = littleEndian bytes) (hk : k.toNat = 8 * bytes.length)
    (hfits : k.toNat + 8 ≤ 32) :
    (x ||| (b.toUInt32 <<< k)).toNat = littleEndian (bytes ++ [b]) := by
  have hmod : 8 * bytes.length % 32 = 8 * bytes.length := Nat.mod_eq_of_lt (by omega)
  rw [UInt32.toNat_or, UInt32.toNat_shiftLeft, UInt8.toNat_toUInt32, hx, hk, hmod]
  exact littleEndian_or_shiftLeft bytes b (by omega)

section Words

variable (input : Input) (d : Nat)

theorem toNat_read64 :
    (read64 input d).value.toNat = littleEndian (window input d 8) := by
  have h0 : (input d).toUInt64.toNat = littleEndian [input d] := UInt8.toNat_toUInt64 _
  have h1 := toNat_or_byte (k := 8) (input (d + 1)) h0 rfl (by decide)
  have h2 := toNat_or_byte (k := 16) (input (d + 2)) h1 rfl (by decide)
  have h3 := toNat_or_byte (k := 24) (input (d + 3)) h2 rfl (by decide)
  have h4 := toNat_or_byte (k := 32) (input (d + 4)) h3 rfl (by decide)
  have h5 := toNat_or_byte (k := 40) (input (d + 5)) h4 rfl (by decide)
  have h6 := toNat_or_byte (k := 48) (input (d + 6)) h5 rfl (by decide)
  have h7 := toNat_or_byte (k := 56) (input (d + 7)) h6 rfl (by decide)
  exact h7

theorem toNat_read32 :
    (read32 input d).value.toNat = littleEndian (window input d 4) := by
  have h0 : (input d).toUInt32.toNat = littleEndian [input d] := UInt8.toNat_toUInt32 _
  have h1 := toNat_or_byte32 (k := 8) (input (d + 1)) h0 rfl (by decide)
  have h2 := toNat_or_byte32 (k := 16) (input (d + 2)) h1 rfl (by decide)
  exact toNat_or_byte32 (k := 24) (input (d + 3)) h2 rfl (by decide)

theorem toBitVec_read64 :
    (read64 input d).value.toBitVec = Published.lane (window input d 8) := by
  apply BitVec.eq_of_toNat_eq
  have hlt := (read64 input d).value.toNat_lt
  rw [toNat_read64] at hlt
  rw [Published.lane, BitVec.toNat_ofNat, Nat.mod_eq_of_lt hlt]
  exact toNat_read64 input d

theorem toBitVec_read32 :
    (read32 input d).value.toUInt64.toBitVec = Published.lane (window input d 4) := by
  apply BitVec.eq_of_toNat_eq
  have hlt := (read32 input d).value.toUInt64.toNat_lt
  rw [UInt32.toNat_toUInt64, toNat_read32] at hlt
  rw [Published.lane, BitVec.toNat_ofNat, Nat.mod_eq_of_lt hlt, ← toNat_read32]
  exact UInt32.toNat_toUInt64 _

end Words

/-!
# Stripes
-/

/-- The accumulators of the definition. -/
def Lanes.accumulators (lanes : Lanes) : Published.Accumulators :=
  { acc1 := lanes.v1.toBitVec, acc2 := lanes.v2.toBitVec, acc3 := lanes.v3.toBitVec,
    acc4 := lanes.v4.toBitVec }

/-- The round of the definition, on a word of the code. -/
theorem toBitVec_round (v word : UInt64) :
    (rotl (v + word * prime2) 31 * prime1).toBitVec =
      Published.round v.toBitVec word.toBitVec := by
  rw [UInt64.toBitVec_mul, toBitVec_rotl _ (by decide) (by decide), UInt64.toBitVec_add,
    UInt64.toBitVec_mul, toBitVec_prime1, toBitVec_prime2]
  rfl

/-- The code leaves the addition to 0 out. -/
theorem toBitVec_round_zero (word : UInt64) :
    (rotl (word * prime2) 31 * prime1).toBitVec = Published.round 0 word.toBitVec := by
  rw [← UInt64.zero_add (word * prime2)]
  exact toBitVec_round 0 word

theorem toBitVec_mergeLane (h v : UInt64) :
    (mergeLane h v).toBitVec = Published.mergeAccumulator h.toBitVec v.toBitVec := by
  unfold mergeLane Published.mergeAccumulator
  rw [UInt64.toBitVec_add, UInt64.toBitVec_mul, UInt64.toBitVec_xor, toBitVec_round_zero,
    toBitVec_prime1, toBitVec_prime4]

theorem toBitVec_mergeLanes (lanes : Lanes) :
    (mergeLanes lanes).toBitVec = Published.converge lanes.accumulators := by
  simp only [mergeLanes, toBitVec_mergeLane, UInt64.toBitVec_add]
  rw [toBitVec_rotl _ (by decide) (by decide), toBitVec_rotl _ (by decide) (by decide),
    toBitVec_rotl _ (by decide) (by decide), toBitVec_rotl _ (by decide) (by decide)]
  rfl

section Stripes

variable (input : Input)

theorem toBitVec_takeLane (v : UInt64) (p : Nat) :
    (takeLane input v p).value.toBitVec =
      Published.round v.toBitVec (Published.lane (window input p 8)) := by
  rw [← toBitVec_read64]
  exact toBitVec_round v _

theorem accumulators_takeStripe (p : Nat) (lanes : Lanes) :
    (takeStripe input p lanes).value.accumulators =
      Published.processStripe lanes.accumulators (window input p 32) := by
  have hfirst : (window input p 32).take 8 = window input p 8 := take_window input p 8 24
  have hsecond : ((window input p 32).drop 8).take 8 = window input (p + 8) 8 := by
    rw [drop_window input p 8 24]
    exact take_window input (p + 8) 8 16
  have hthird : ((window input p 32).drop 16).take 8 = window input (p + 16) 8 := by
    rw [drop_window input p 16 16]
    exact take_window input (p + 16) 8 8
  have hfourth : ((window input p 32).drop 24).take 8 = window input (p + 24) 8 := by
    rw [drop_window input p 24 8]
    exact take_window input (p + 24) 8 0
  unfold Published.processStripe
  rw [hfirst, hsecond, hthird, hfourth]
  simp only [takeStripe, Reading.value_bind, Reading.value_pure, Lanes.accumulators,
    toBitVec_takeLane]

theorem reads_takeStripe (p : Nat) (lanes : Lanes) :
    (takeStripe input p lanes).reads = List.range' p 32 := rfl

/-- The loop over the stripes with its check before the body. -/
def stripesFrom (len p : Nat) (lanes : Lanes) : Reading (Lanes × Nat) :=
  if p + 32 ≤ len then stripeLoop input (len - 32) p lanes else pure (lanes, p)

theorem stripesFrom_eq (len p : Nat) (lanes : Lanes) :
    stripesFrom input len p lanes =
      if p + 32 ≤ len then takeStripe input p lanes >>= stripesFrom input len (p + 32)
      else pure (lanes, p) := by
  have hcheck : p + 32 ≤ len - 32 <-> p + 32 + 32 ≤ len := by omega
  unfold stripesFrom
  rw [stripeLoop]
  simp only [hcheck]

theorem folds_stripeLoop {len : Nat} (hlen : 32 ≤ len) (lanes : Lanes) :
    Reading.Folds input Lanes.accumulators Published.processStripe 32 len 0 lanes
      (stripeLoop input (len - 32) 0 lanes) := by
  have h : Reading.Folds input Lanes.accumulators Published.processStripe 32 len 0 lanes
      (stripesFrom input len 0 lanes) :=
    Reading.folds_of_stride (by decide) (stripesFrom_eq input len)
      (accumulators_takeStripe input) (reads_takeStripe input) 0 lanes
  unfold stripesFrom at h
  rw [if_pos (by omega)] at h
  exact h

/-- The stripes are hashed as defined, and the pointer is behind them. -/
theorem hashStripes_eq (len : Nat) (seed : UInt64) :
    (hashStripes input len seed).value.1.toBitVec =
        Published.processStripes (window input 0 len) seed.toBitVec ∧
      (hashStripes input len seed).value.2 = len / 32 * 32 ∧
      (hashStripes input len seed).reads = List.range' 0 (len / 32 * 32) := by
  unfold hashStripes Published.processStripes
  rw [length_window]
  split
  · rename_i hlen
    have h := folds_stripeLoop input hlen
      { v1 := seed + prime1 + prime2, v2 := seed + prime2, v3 := seed,
        v4 := seed - prime1 }
    rw [if_neg (by omega)]
    refine ⟨?_, ?_, ?_⟩
    · show (mergeLanes _).toBitVec = _
      rw [toBitVec_mergeLanes, h.value, Nat.sub_zero]
      rfl
    · simpa using h.pointer
    · simpa using h.reads
  · rename_i hshort
    have hlen : len < 32 := by omega
    rw [if_pos hlen, Nat.div_eq_of_lt hlen]
    exact ⟨rfl, rfl, rfl⟩

end Stripes

/-!
# The bytes behind the stripes
-/

section Tail

variable (input : Input) (stop : Nat)

theorem wordLoop_eq (p : Nat) (h : UInt64) :
    wordLoop input stop p h =
      if p + 8 ≤ stop then takeWord input p h >>= wordLoop input stop (p + 8)
      else pure (h, p) := by
  rw [wordLoop]

theorem toBitVec_takeWord (p : Nat) (h : UInt64) :
    (takeWord input p h).value.toBitVec =
      Published.processWord h.toBitVec (window input p 8) := by
  unfold Published.processWord
  rw [← toBitVec_read64]
  simp only [takeWord, Reading.value_bind, Reading.value_pure]
  rw [UInt64.toBitVec_add, UInt64.toBitVec_mul, toBitVec_prime1, toBitVec_prime4,
    toBitVec_rotl _ (by decide) (by decide), UInt64.toBitVec_xor, toBitVec_round_zero]

theorem reads_takeWord (p : Nat) (h : UInt64) :
    (takeWord input p h).reads = List.range' p 8 := rfl

theorem folds_wordLoop (p : Nat) (h : UInt64) :
    Reading.Folds input UInt64.toBitVec Published.processWord 8 stop p h
      (wordLoop input stop p h) :=
  Reading.folds_of_stride (by decide) (wordLoop_eq input stop) (toBitVec_takeWord input)
    (reads_takeWord input) p h

theorem toBitVec_halfWord (h : UInt64) (word : UInt32) :
    (rotl (h ^^^ (word.toUInt64 * prime1)) 23 * prime2 + prime3).toBitVec =
      (h.toBitVec ^^^ word.toUInt64.toBitVec * Published.PRIME64_1).rotateLeft 23 *
        Published.PRIME64_2 + Published.PRIME64_3 := by
  rw [UInt64.toBitVec_add, UInt64.toBitVec_mul, toBitVec_rotl _ (by decide) (by decide),
    UInt64.toBitVec_xor, UInt64.toBitVec_mul, toBitVec_prime1, toBitVec_prime2,
    toBitVec_prime3]

theorem toBitVec_byte (h : UInt64) (byte : UInt8) :
    (rotl (h ^^^ (byte.toUInt64 * prime5)) 11 * prime1).toBitVec =
      Published.processByte h.toBitVec byte := by
  have hlane : byte.toUInt64.toBitVec = Published.lane [byte] := by
    apply BitVec.eq_of_toNat_eq
    have hbyte := byte.toNat_lt
    show byte.toUInt64.toNat = (byte.toNat + 2 ^ 8 * 0) % 2 ^ 64
    rw [UInt8.toNat_toUInt64]
    omega
  rw [UInt64.toBitVec_mul, toBitVec_rotl _ (by decide) (by decide), UInt64.toBitVec_xor,
    UInt64.toBitVec_mul, toBitVec_prime1, toBitVec_prime5, hlane]
  rfl

/-- The single bytes at the end are taken in one by one. -/
theorem byteLoop_eq (p : Nat) (h : UInt64) :
    (byteLoop input stop p h).value.toBitVec =
        (window input p (stop - p)).foldl Published.processByte h.toBitVec ∧
      (byteLoop input stop p h).reads = List.range' p (stop - p) := by
  rw [byteLoop]
  split
  · rename_i hmore
    have ih := byteLoop_eq (p + 1) (rotl (h ^^^ ((input p).toUInt64 * prime5)) 11 * prime1)
    have hrest : stop - p = 1 + (stop - (p + 1)) := by omega
    rw [hrest, ← window_append, ← List.range'_append_1, List.foldl_append]
    constructor
    · refine ih.left.trans ?_
      rw [toBitVec_byte]
      rfl
    · rw [← ih.right]
      rfl
  · rename_i hend
    rw [Nat.sub_eq_zero_of_le (Nat.le_of_not_lt hend)]
    exact ⟨rfl, rfl⟩
termination_by stop - p

/-- The half word and the single bytes, which the code reads in this order. -/
def hashTail (p : Nat) (h : UInt64) : Reading UInt64 := do
  let (h, p) <- halfWord input stop p h
  byteLoop input stop p h

theorem hashTail_eq (p : Nat) (h : UInt64) :
    (hashTail input stop p h).value.toBitVec =
        Published.processTail h.toBitVec (window input p (stop - p)) ∧
      (hashTail input stop p h).reads = List.range' p (stop - p) := by
  unfold hashTail halfWord Published.processTail
  rw [length_window]
  split
  · rename_i hword
    have hrest : stop - p = 4 + (stop - (p + 4)) := by omega
    rw [if_neg (by omega), hrest, drop_window, take_window, ← List.range'_append_1]
    have hbytes := byteLoop_eq input stop (p + 4)
      (rotl (h ^^^ ((read32 input p).value.toUInt64 * prime1)) 23 * prime2 + prime3)
    constructor
    · refine hbytes.left.trans ?_
      rw [toBitVec_halfWord, toBitVec_read32]
      rfl
    · rw [← hbytes.right]
      rfl
  · rename_i hshort
    rw [if_pos (by omega)]
    exact byteLoop_eq input stop p h

theorem toBitVec_avalanche (h : UInt64) :
    (avalanche h).toBitVec = Published.avalanche h.toBitVec := by
  simp only [avalanche, Published.avalanche, UInt64.toBitVec_xor, UInt64.toBitVec_mul,
    UInt64.toBitVec_shiftRight, toBitVec_prime2, toBitVec_prime3]
  rfl

end Tail

theorem xxh64_eq (input : Input) (len : Nat) (seed : UInt64) :
    xxh64 input len seed =
      (hashStripes input len seed >>= fun start =>
        wordLoop input len start.2 (start.1 + UInt64.ofNat len) >>= fun words =>
          hashTail input len words.2 words.1 >>= fun h => pure (avalanche h)) := by
  apply Reading.ext
  · rfl
  · simp [xxh64, hashTail]

section Whole

variable (input : Input) (len : Nat)

/-- Where the words end that lie behind the stripes. -/
theorem pointer_words (h : UInt64) :
    (wordLoop input len (len / 32 * 32) h).value.2 =
      len / 32 * 32 + len % 32 / 8 * 8 := by
  have hafter : len - len / 32 * 32 = len % 32 := by omega
  have hpointer := (folds_wordLoop input len (len / 32 * 32) h).pointer
  rw [hafter] at hpointer
  exact hpointer

theorem toBitVec_xxh64 (seed : UInt64) :
    (xxh64 input len seed).value.toBitVec =
      Published.xxh64 (window input 0 len) seed.toBitVec := by
  rcases hashStripes_eq input len seed with ⟨hstripes, hbehind, _⟩
  rw [xxh64_eq]
  simp only [Reading.value_bind, Reading.value_pure]
  rw [hbehind]
  generalize hstart : (hashStripes input len seed).value.1 + UInt64.ofNat len = h
  have hlength : h.toBitVec =
      Published.processStripes (window input 0 len) seed.toBitVec + BitVec.ofNat 64 len := by
    rw [← hstart, UInt64.toBitVec_add, hstripes]
    rfl
  have hafter : len - len / 32 * 32 = len % 32 := by omega
  have hend : len - (len / 32 * 32 + len % 32 / 8 * 8) = len % 32 % 8 := by omega
  have hwords := (folds_wordLoop input len (len / 32 * 32) h).value
  rw [toBitVec_avalanche, (hashTail_eq input len _ _).left, hwords, pointer_words, hend, hafter,
    hlength]
  unfold Published.xxh64 Published.processRemaining
  rw [length_window, leftover_window, leftover_window, Nat.zero_add]

theorem reads_xxh64 (seed : UInt64) : (xxh64 input len seed).reads = List.range len := by
  rcases hashStripes_eq input len seed with ⟨_, hbehind, hread⟩
  rw [xxh64_eq]
  simp only [Reading.reads_bind, Reading.reads_pure, List.append_nil]
  rw [hbehind, hread]
  generalize (hashStripes input len seed).value.1 + UInt64.ofNat len = h
  have hafter : len - len / 32 * 32 = len % 32 := by omega
  have hend : len - (len / 32 * 32 + len % 32 / 8 * 8) = len % 32 % 8 := by omega
  have hwords := (folds_wordLoop input len (len / 32 * 32) h).reads
  rw [(hashTail_eq input len _ _).right, hwords, pointer_words, hend, hafter,
    List.range_eq_range', List.range'_append_1]
  have hjoin := List.range'_append_1 (s := 0) (m := len / 32 * 32)
    (n := len % 32 / 8 * 8 + len % 32 % 8)
  rw [Nat.zero_add] at hjoin
  rw [hjoin]
  congr 1
  omega

end Whole

/--
`xxh64` computes XXH64 of the first `len` bytes of its input, and reads each of them
once, in order, and no other byte.
-/
theorem xxh64_computes_published (input : Input) (len : Nat) (seed : UInt64) :
    (xxh64 input len seed).value.toBitVec =
        Published.xxh64 (window input 0 len) seed.toBitVec ∧
      (xxh64 input len seed).reads = List.range len :=
  ⟨toBitVec_xxh64 input len seed, reads_xxh64 input len seed⟩

/-- The published hash of the empty string. -/
example : (xxh64 (fun _ => 0) 0 0).value = 0xEF46DB3751D8E999 := by decide +kernel

/-- The published hash of the bytes `a`, `b`, `c`. -/
example : (xxh64 (fun i => UInt8.ofNat (97 + i)) 3 0).value = 0x44BC2CF5AD770999 := by
  decide +kernel

end XxHash
end Cuco
end Cuda2Rocm
