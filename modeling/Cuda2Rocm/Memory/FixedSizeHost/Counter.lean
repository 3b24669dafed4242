import Cuda2Rocm.Foundation.CasLoop
import Cuda2Rocm.Foundation.Words

/-!
# The committed-bytes counter of the host resource

`do_reserve` and `do_release` are the only functions that write
`total_allocated_`.  What they are called with is computed by signed 64-bit
arithmetic from the tracker of a reservation and the size of its arena.
-/

namespace Cuda2Rocm
namespace Memory
namespace FixedSizeHost

open Foundation

/-- `align_up`: round up to whole blocks, saturating at the largest size. -/
def alignUp (bytes blockSize : Nat) : Nat :=
  if blockSize = 0 then bytes
  else if bytes > sizeMax - (blockSize - 1) then sizeMax
  else (bytes + blockSize - 1) / blockSize * blockSize

/-- `alloc_bytes` of `allocate_multiple_blocks`: the whole blocks of a request. -/
def allocBytes (bytes blockSize : Nat) : Nat :=
  alignUp bytes blockSize / blockSize * blockSize

/-- `total_allocated_` and `peak_allocated_`. -/
structure Counter where
  total : Nat
  peak : Nat
deriving DecidableEq, Repr

/-!
# Charging
-/

/-- Where a call of `do_reserve` stands. -/
inductive DoReserve where
  | charge (loop : CasLoop)
  /-- The first load of `update_peak`. -/
  | readNow
  | raisePeak (now : Nat) (loop : CasLoop)
deriving DecidableEq, Repr

namespace DoReserve

/-- `do_reserve` at its first statement. -/
def start : DoReserve := .charge .load

/-- What one atomic step of `do_reserve` comes to. -/
inductive Result where
  | goesOn (pc : DoReserve) (counter : Counter)
  | returned (granted : Bool) (counter : Counter)
deriving DecidableEq, Repr

/-- The replacement of the counter; its sum cannot wrap once it is admitted. -/
def chargeNext (memLimit bytes cur : Nat) : Option Nat :=
  if cur > memLimit - bytes then none else some (cur + bytes)

/-- The replacement of the peak in `update_peak`. -/
def peakNext (now peak : Nat) : Option Nat := if now > peak then some now else none

/-- The next atomic step of `do_reserve(bytes, memLimit)`. -/
def step (memLimit bytes : Nat) (spurious : Bool) (c : Counter) : DoReserve -> Result
  | charge loop =>
      if bytes = 0 then .returned true c
      else if memLimit = 0 then
        .goesOn readNow { c with total := wrapSize (c.total + bytes) }
      else if bytes > memLimit then .returned false c
      else
        match loop.step (chargeNext memLimit bytes) spurious c.total with
        | .again loop' => .goesOn (charge loop') c
        | .gaveUp => .returned false c
        | .committed total => .goesOn readNow { c with total := total }
  | readNow => .goesOn (raisePeak c.total .load) c
  | raisePeak now loop =>
      match loop.step (peakNext now) spurious c.peak with
      | .again loop' => .goesOn (raisePeak now loop') c
      | .gaveUp => .returned true c
      | .committed peak => .returned true { c with peak := peak }

/-- What a call of `do_reserve` has added to the counter so far. -/
def added (bytes : Nat) : DoReserve -> Nat
  | charge _ => 0
  | readNow => bytes
  | raisePeak _ _ => bytes

@[simp] theorem added_start (bytes : Nat) : added bytes start = 0 := rfl

theorem chargeNext_some {memLimit bytes cur total : Nat}
    (h : chargeNext memLimit bytes cur = some total) (hbytes : bytes ≤ memLimit) :
    total = cur + bytes ∧ total ≤ memLimit := by
  unfold chargeNext at h
  split at h
  · cases h
  · cases h
    omega

/-- What a result of a bounded call says about the counter. -/
def Result.Bounded (memLimit bytes : Nat) (c : Counter) (pc : DoReserve) :
    Result -> Prop
  | .goesOn pc' c' =>
      c'.total + pc.added bytes = c.total + pc'.added bytes ∧
        (c'.total ≤ c.total ∨ c'.total ≤ memLimit)
  | .returned true c' => c'.total = c.total ∧ pc.added bytes = bytes
  | .returned false c' => c' = c ∧ pc.added bytes = 0

/-- Under a limit the counter moves by what the call has added, up to the limit. -/
theorem step_bounded {memLimit : Nat} (hlimit : memLimit ≠ 0) (bytes : Nat)
    (spurious : Bool) (c : Counter) (pc : DoReserve) :
    (pc.step memLimit bytes spurious c).Bounded memLimit bytes c pc := by
  cases pc with
  | charge loop =>
      simp only [step, if_neg hlimit]
      split
      · rename_i hzero
        exact ⟨rfl, hzero.symm⟩
      · split
        · exact ⟨rfl, rfl⟩
        · rename_i hle
          rcases loop.step_cases (chargeNext memLimit bytes) spurious c.total with
            ⟨h, _⟩ | ⟨cur, _, _, h⟩ | ⟨total, _, hnext, h⟩
          · rw [h]
            exact ⟨rfl, Or.inl (Nat.le_refl _)⟩
          · rw [h]
            exact ⟨rfl, rfl⟩
          · rw [h]
            have htotal := chargeNext_some hnext (Nat.not_lt.mp hle)
            exact ⟨by simpa [added] using htotal.left, Or.inr htotal.right⟩
  | readNow => exact ⟨rfl, Or.inl (Nat.le_refl _)⟩
  | raisePeak now loop =>
      simp only [step]
      rcases loop.step_cases (peakNext now) spurious c.peak with
        ⟨h, _⟩ | ⟨cur, _, _, h⟩ | ⟨peak, _, _, h⟩
      · rw [h]
        exact ⟨rfl, Or.inl (Nat.le_refl _)⟩
      · rw [h]
        exact ⟨rfl, rfl⟩
      · rw [h]
        exact ⟨rfl, rfl⟩

end DoReserve

/-!
# Crediting
-/

/-- The replacement of the counter in `do_release`, clamped at 0. -/
def creditNext (bytes cur : Nat) : Option Nat :=
  some (if cur ≥ bytes then cur - bytes else 0)

/-- The next atomic step of `do_release(bytes)`; `gaveUp` is its return without a
write. -/
def doReleaseStep (bytes : Nat) (spurious : Bool) (total : Nat) (loop : CasLoop) :
    CasResult :=
  if bytes = 0 then .gaveUp
  else loop.step (creditNext bytes) spurious total

/-- Everything a step of `do_release` can do. -/
theorem doReleaseStep_cases (bytes : Nat) (spurious : Bool) (total : Nat)
    (loop : CasLoop) :
    doReleaseStep bytes spurious total loop = .again (.cas total) ∨
    (bytes = 0 ∧ doReleaseStep bytes spurious total loop = .gaveUp) ∨
    doReleaseStep bytes spurious total loop =
      .committed (if total ≥ bytes then total - bytes else 0) := by
  unfold doReleaseStep
  split
  · rename_i hzero
    exact Or.inr (Or.inl ⟨hzero, rfl⟩)
  · rcases loop.step_cases (creditNext bytes) spurious total with
      ⟨h, _⟩ | ⟨cur, _, hnone, _⟩ | ⟨next, _, hnext, h⟩
    · exact Or.inl h
    · cases hnone
    · cases hnext
      exact Or.inr (Or.inr h)

/-!
# Charges and credits under a reservation
-/

/-- `upstream_tracked_bytes` under a reservation whose tracker stood at `pre`. -/
def chargeFor (size : Nat) (pre : Int) (bytes : Nat) : Nat :=
  let reservationSize := toSigned size
  let post := wrapInt (pre + toSigned bytes)
  if post ≤ reservationSize then 0
  else if pre < reservationSize then toUnsigned (wrapInt (post - reservationSize))
  else bytes

/-- The credit of `deallocate_multiple_blocks` under a live reservation. -/
def creditFor (size : Nat) (pre : Int) (bytes : Nat) : Nat :=
  let reservationSize := toSigned size
  let post := wrapInt (pre - toSigned bytes)
  if pre ≤ reservationSize then 0
  else if post < reservationSize then toUnsigned (wrapInt (pre - reservationSize))
  else bytes

/-- `reclaimed_bytes` of `release_reservation`. -/
def reclaimed (size : Nat) (tracker : Int) : Nat :=
  let current := max 0 tracker
  let arenaSize := toSigned size
  if arenaSize > current then toUnsigned (wrapInt (arenaSize - current)) else 0

/-- What of a reservation is not used up at some tracker value. -/
def room (size : Nat) (used : Int) : Nat := (size - used).toNat

/-- A charge makes up for the room that the request does not find. -/
theorem chargeFor_add_room {size bytes : Nat} {pre : Int} (hsize : size < 2 ^ 63)
    (hbytes : bytes < 2 ^ 63) (hlow : -2 ^ 63 ≤ pre) (hhigh : pre + bytes < 2 ^ 63) :
    chargeFor size pre bytes + room size pre = bytes + room size (pre + bytes) := by
  have hpost : wrapInt (pre + bytes) = pre + bytes :=
    wrapInt_of_range (by omega) hhigh
  unfold chargeFor room
  rw [toSigned_of_lt hsize, toSigned_of_lt hbytes, hpost]
  dsimp only
  split
  · omega
  · split
    · have hover : (toUnsigned (wrapInt (pre + bytes - size)) : Int) =
          pre + bytes - size :=
        toUnsigned_wrapInt (by omega) (by omega)
      omega
    · omega

/-- A credit gives back what the room regained does not cover. -/
theorem creditFor_add_room {size bytes : Nat} {pre : Int} (hsize : size < 2 ^ 63)
    (hbytes : bytes < 2 ^ 63) (hlow : -2 ^ 63 ≤ pre - bytes) (hhigh : pre < 2 ^ 63) :
    creditFor size pre bytes + room size (pre - bytes) = bytes + room size pre := by
  have hpost : wrapInt (pre - bytes) = pre - bytes :=
    wrapInt_of_range hlow (by omega)
  unfold creditFor room
  rw [toSigned_of_lt hsize, toSigned_of_lt hbytes, hpost]
  dsimp only
  split
  · omega
  · split
    · have hover : (toUnsigned (wrapInt (pre - size)) : Int) = pre - size :=
        toUnsigned_wrapInt (by omega) (by omega)
      omega
    · omega

/-- A release credits the room, where a tracker below 0 counts as 0. -/
theorem reclaimed_eq {size : Nat} (tracker : Int) (hsize : size < 2 ^ 63) :
    reclaimed size tracker = room size (max 0 tracker) := by
  unfold reclaimed room
  rw [toSigned_of_lt hsize]
  dsimp only
  split
  · have hover : (toUnsigned (wrapInt (size - max 0 tracker)) : Int) =
        size - max 0 tracker :=
      toUnsigned_wrapInt (by omega) (by omega)
    omega
  · omega

theorem chargeFor_le {size bytes : Nat} {pre : Int} (hsize : size < 2 ^ 63)
    (hbytes : bytes < 2 ^ 63) (hlow : -2 ^ 63 ≤ pre) (hhigh : pre + bytes < 2 ^ 63) :
    chargeFor size pre bytes ≤ bytes := by
  have h := chargeFor_add_room hsize hbytes hlow hhigh
  unfold room at h
  omega

/-- A request that fits beside what the tracker says is not charged. -/
theorem chargeFor_eq_zero {size bytes : Nat} {pre : Int} (hsize : size < 2 ^ 63)
    (hlow : -2 ^ 63 ≤ pre) (hbytes : bytes ≤ size) (hfits : pre + bytes ≤ size) :
    chargeFor size pre bytes = 0 := by
  have hpost : wrapInt (pre + bytes) = pre + bytes :=
    wrapInt_of_range (by omega) (by omega)
  unfold chargeFor
  rw [toSigned_of_lt hsize, toSigned_of_lt (Nat.lt_of_le_of_lt hbytes hsize), hpost]
  exact if_pos hfits

/-!
# Rounding
-/

theorem alignUp_le_sizeMax {bytes blockSize : Nat} (hblock : 0 < blockSize)
    (hfits : blockSize ≤ sizeMax) : alignUp bytes blockSize ≤ sizeMax := by
  unfold alignUp
  rw [if_neg (by omega)]
  split
  · exact Nat.le_refl _
  · have hdiv := Nat.div_mul_le_self (bytes + blockSize - 1) blockSize
    omega

theorem allocBytes_le_alignUp (bytes blockSize : Nat) :
    allocBytes bytes blockSize ≤ alignUp bytes blockSize :=
  Nat.div_mul_le_self _ _

/-- A request for something is a request for at least one block. -/
theorem allocBytes_pos {bytes blockSize : Nat} (hbytes : 0 < bytes)
    (hblock : 0 < blockSize) (hfits : blockSize ≤ sizeMax) :
    0 < allocBytes bytes blockSize := by
  have hround : blockSize ≤ alignUp bytes blockSize := by
    unfold alignUp
    rw [if_neg (by omega)]
    split
    · exact hfits
    · have hone : 1 ≤ (bytes + blockSize - 1) / blockSize := by
        rw [Nat.le_div_iff_mul_le hblock]
        omega
      exact Nat.le_mul_of_pos_left blockSize hone
  exact Nat.mul_pos (Nat.div_pos hround hblock) hblock

end FixedSizeHost
end Memory
end Cuda2Rocm
