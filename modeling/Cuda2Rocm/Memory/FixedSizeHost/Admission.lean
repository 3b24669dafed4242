import Cuda2Rocm.Memory.FixedSizeHost.AloneCalls
import Cuda2Rocm.Memory.FixedSizeHost.Granted

/-!
# Admission and the accessors

`get_available_memory` and `get_free_blocks` tell a client what is left below the limit.
A limit of 0 stands for none: admission then grants everything, while the accessors still
read it as a number.
-/

namespace Cuda2Rocm
namespace Memory
namespace FixedSizeHost

open Foundation

/-- `get_available_memory`. -/
def State.availableMemory (s : State) (c : Config) : Nat :=
  let used := s.counter.total
  if c.memLimit > used then c.memLimit - used else 0

/-- `get_free_blocks`. -/
def State.freeBlocks (s : State) (c : Config) : Nat :=
  s.availableMemory c / c.blockSize

/-!
# Rounding
-/

theorem alignUp_zero {blockSize : Nat} (hblock : 0 < blockSize) :
    alignUp 0 blockSize = 0 := by
  unfold alignUp
  rw [if_neg (by omega), if_neg (by omega), Nat.div_eq_of_lt (by omega), Nat.zero_mul]

theorem allocBytes_zero {blockSize : Nat} (hblock : 0 < blockSize) :
    allocBytes 0 blockSize = 0 := by
  unfold allocBytes
  rw [alignUp_zero hblock, Nat.zero_div, Nat.zero_mul]

/-- A request for at most a block is one for a block. -/
theorem allocBytes_single {bytes blockSize : Nat} (hbytes : 0 < bytes)
    (hle : bytes ≤ blockSize) (hfits : blockSize ≤ sizeMax) :
    allocBytes bytes blockSize = blockSize := by
  have hone : alignUp bytes blockSize / blockSize = 1 := by
    unfold alignUp
    rw [if_neg (by omega)]
    split
    · exact Nat.div_eq_of_lt_le (by omega) (by omega)
    · have hblocks : (bytes + blockSize - 1) / blockSize = 1 :=
        Nat.div_eq_of_lt_le (by omega) (by omega)
      rw [hblocks, Nat.one_mul, Nat.div_self (by omega)]
  unfold allocBytes
  rw [hone, Nat.one_mul]

/-!
# Agreement with the accessors
-/

/-- A call of `reserve` from this state yields a reservation exactly if the rounded size
is available, and takes exactly that away. -/
def ReserveAgrees (c : Config) (s : State) (thread : Thread) (bytes : Nat) : Prop :=
  forall during outcome t, EndsAlone c s thread (.reserve thread bytes) during outcome t ->
    ((exists addr, outcome = .reservation addr) <->
      alignUp bytes c.blockSize ≤ s.availableMemory c) ∧
    ((exists addr, outcome = .reservation addr) ->
      t.availableMemory c + alignUp bytes c.blockSize = s.availableMemory c)

/-- A call of `allocate_multiple_blocks` without a reservation is refused by the limit
exactly if a size exceeds what is available. -/
def AllocateAgrees (c : Config) (s : State) (thread : Thread) (bytes size : Nat) : Prop :=
  forall during outcome t,
    EndsAlone c s thread (.allocateMultipleBlocks thread bytes none) during outcome t ->
    (outcome = .threw (limitText c (allocBytes bytes c.blockSize)) <->
      s.availableMemory c < size)

/-- So many single blocks were allocated in a row. -/
inductive BlocksInRow (c : Config) (thread : Thread) (s : State) : Nat -> State -> Prop where
  | none : BlocksInRow c thread s 0 s
  | next {n bytes : Nat} {t u v : State} {during : List Event} {id : AllocId}
      (hrow : BlocksInRow c thread s n t) (hbytes : 0 < bytes) (hblock : bytes ≤ c.blockSize)
      (hcall : EndsAlone c t thread (.allocateMultipleBlocks thread bytes none) during
        (.blocks (some id)) u)
      (hret : step c u (.ret thread) = some v) : BlocksInRow c thread s (n + 1) v

/-- As many single blocks as are free pass the limit in a row, and one more does not. -/
def FreeBlocksAgree (c : Config) (s : State) (thread : Thread) : Prop :=
  forall n t, BlocksInRow c thread s n t ->
    forall bytes during outcome u, 0 < bytes -> bytes ≤ c.blockSize ->
      EndsAlone c t thread (.allocateMultipleBlocks thread bytes none) during outcome u ->
      (outcome = .threw (limitText c (allocBytes bytes c.blockSize)) <->
        s.freeBlocks c ≤ n)

section Agreement

variable {c : Config} {s t : State} {thread : Thread} {bytes : Nat}

/-- Admission and the accessor differ where there is no limit. -/
theorem admits_iff_available (c : Config) (s : State) (bytes : Nat) :
    Admits c s.counter.total bytes <->
      bytes = 0 ∨ c.memLimit = 0 ∨ bytes ≤ s.availableMemory c := by
  unfold Admits State.availableMemory
  dsimp only
  split <;> omega

/-- A charge that the limit admits is taken from what is available. -/
theorem available_of_charged (hlimit : c.memLimit ≠ 0 ∨ bytes = 0)
    (hadmits : Admits c s.counter.total bytes)
    (htotal : t.counter.total = chargedTotal c s.counter.total bytes) :
    t.availableMemory c + bytes = s.availableMemory c := by
  unfold chargedTotal at htotal
  unfold State.availableMemory
  dsimp only
  rw [htotal]
  by_cases hzero : bytes = 0
  · rw [if_pos hzero, hzero, Nat.add_zero]
  · have hpos : c.memLimit ≠ 0 := hlimit.resolve_right hzero
    rcases hadmits with hnone | hnone | ⟨hbytes, hroom⟩
    · exact absurd hnone hzero
    · exact absurd hnone hpos
    · rw [if_neg hzero, if_neg hpos]
      split <;> split <;> omega

theorem reserveAgrees_iff (hidle : s.threads.lookup thread = none) (hmutex : s.mutex = none)
    (hbytes : bytes ≤ sizeMax) :
    ReserveAgrees c s thread bytes <-> (c.memLimit ≠ 0 ∨ bytes = 0) := by
  have hzero : bytes = 0 -> alignUp bytes c.blockSize = 0 := by
    rintro rfl
    exact alignUp_zero c.blockSize_pos
  constructor
  · intro hagrees
    by_contra hnot
    have hlimit : c.memLimit = 0 := by
      by_contra hpos
      exact hnot (Or.inl hpos)
    have hpos : 0 < bytes := Nat.pos_of_ne_zero fun hnone => hnot (Or.inr hnone)
    rcases reserve_ends hidle hmutex hbytes with ⟨during, outcome, t, hends⟩
    have hgranted := (reserve_granted_iff hmutex hends).left.mpr (Or.inr (Or.inl hlimit))
    have hle := (hagrees during outcome t hends).left.mp hgranted
    have hsize := allocBytes_pos hpos c.blockSize_pos c.blockSize_le
    have hround := allocBytes_le_alignUp bytes c.blockSize
    have hnothing : s.availableMemory c = 0 := by
      unfold State.availableMemory
      rw [hlimit]
      exact if_neg (Nat.not_lt_zero _)
    omega
  · intro hlimit during outcome t hends
    have hgranted := reserve_granted_iff hmutex hends
    have hzero' : c.memLimit ≠ 0 ∨ alignUp bytes c.blockSize = 0 := hlimit.imp_right hzero
    constructor
    · rw [hgranted.left, admits_iff_available]
      omega
    · intro hyields
      exact available_of_charged hzero' (hgranted.left.mp hyields) (hgranted.right hyields)

/-- Every call without a reservation that runs alone ends the same way. -/
theorem refused_iff_exceeds {during : List Event} {outcome : Outcome}
    (hmutex : s.mutex = none)
    (hends : EndsAlone c s thread (.allocateMultipleBlocks thread bytes none) during
      outcome t) :
    outcome = .threw (limitText c (allocBytes bytes c.blockSize)) <->
      c.memLimit ≠ 0 ∧ s.availableMemory c < allocBytes bytes c.blockSize := by
  rcases Nat.eq_zero_or_pos bytes with rfl | hpos
  · rw [allocate_nothing hends, allocBytes_zero c.blockSize_pos]
    refine ⟨fun heq => Outcome.noConfusion heq, fun hless => ?_⟩
    exact absurd hless.right (Nat.not_lt_zero _)
  · have hsize := allocBytes_pos hpos c.blockSize_pos c.blockSize_le
    rw [allocate_refused_iff hpos hmutex hends, admits_iff_available]
    omega

theorem allocateAgrees_iff (hidle : s.threads.lookup thread = none)
    (hmutex : s.mutex = none) (hbytes : bytes ≤ sizeMax) (size : Nat) :
    AllocateAgrees c s thread bytes size <->
      (c.memLimit ≠ 0 ∧ s.availableMemory c < allocBytes bytes c.blockSize <->
        s.availableMemory c < size) := by
  constructor
  · intro hagrees
    rcases allocate_ends hidle hmutex hbytes with ⟨during, outcome, t, hends⟩
    exact (refused_iff_exceeds hmutex hends).symm.trans (hagrees during outcome t hends)
  · intro hsame during outcome t hends
    exact (refused_iff_exceeds hmutex hends).trans hsame

/-- A row of single blocks takes a block each from what is available. -/
theorem available_of_row (hlimit : c.memLimit ≠ 0) (hmutex : s.mutex = none) {n : Nat}
    (hrow : BlocksInRow c thread s n t) :
    t.mutex = none ∧ t.availableMemory c + n * c.blockSize = s.availableMemory c := by
  induction hrow with
  | none => exact ⟨hmutex, by rw [Nat.zero_mul, Nat.add_zero]⟩
  | next hrow hbytes hblock hcall hret ih =>
      rename_i u v during id
      rcases ih with ⟨hfree, hsum⟩
      rcases allocate_granted hbytes hfree hcall with ⟨hadmits, htotal, hafter⟩
      have hret' : v.mutex = u.mutex ∧ v.counter = u.counter := by
        simp only [step] at hret
        split at hret
        · cases hret
          exact ⟨rfl, rfl⟩
        · cases hret
      have htaken := available_of_charged (Or.inl hlimit) hadmits htotal
      have hsame : v.availableMemory c = u.availableMemory c := by
        unfold State.availableMemory
        rw [hret'.right]
      rw [allocBytes_single hbytes hblock c.blockSize_le] at htaken
      refine ⟨hret'.left.trans hafter, ?_⟩
      rw [hsame, Nat.succ_mul]
      omega

theorem freeBlocksAgree_iff (hidle : s.threads.lookup thread = none)
    (hmutex : s.mutex = none) : FreeBlocksAgree c s thread <-> c.memLimit ≠ 0 := by
  constructor
  · intro hagrees hlimit
    rcases allocate_ends hidle hmutex c.blockSize_le with ⟨during, outcome, t, hends⟩
    have hnothing : s.availableMemory c = 0 := by
      unfold State.availableMemory
      rw [hlimit]
      exact if_neg (Nat.not_lt_zero _)
    have hfree : s.freeBlocks c ≤ 0 := by
      unfold State.freeBlocks
      rw [hnothing, Nat.zero_div]
    have hrefused := (hagrees 0 s .none _ during outcome t c.blockSize_pos (Nat.le_refl _)
      hends).mpr hfree
    exact ((refused_iff_exceeds hmutex hends).mp hrefused).left hlimit
  · intro hlimit n t hrow bytes during outcome u hpos hblock hends
    rcases available_of_row hlimit hmutex hrow with ⟨hfree, hsum⟩
    rw [refused_iff_exceeds hfree hends, allocBytes_single hpos hblock c.blockSize_le]
    unfold State.freeBlocks
    rw [← Nat.lt_succ_iff, Nat.div_lt_iff_lt_mul c.blockSize_pos, Nat.succ_mul]
    omega

end Agreement

/--
In every state in which a client may call and nobody holds the mutex, for every size:
when a call of `reserve`, a call of `allocate_multiple_blocks` without a reservation, and
single blocks allocated in a row agree with the accessors.  The calls can come to their
end, and are run alone.
-/
theorem admission_agrees_iff (c : Config) {s : State} {thread : Thread} {bytes : Nat}
    (hidle : s.threads.lookup thread = none) (hmutex : s.mutex = none)
    (hbytes : bytes ≤ sizeMax) :
    (exists during outcome t,
      EndsAlone c s thread (.reserve thread bytes) during outcome t) ∧
    (ReserveAgrees c s thread bytes <-> (c.memLimit ≠ 0 ∨ bytes = 0)) ∧
    (exists during outcome t,
      EndsAlone c s thread (.allocateMultipleBlocks thread bytes none) during outcome t) ∧
    (AllocateAgrees c s thread bytes (allocBytes bytes c.blockSize) <->
      (c.memLimit ≠ 0 ∨ bytes = 0)) ∧
    (AllocateAgrees c s thread bytes (alignUp bytes c.blockSize) <->
      (c.memLimit ≠ 0 ∨ bytes = 0) ∧
        ¬ (allocBytes bytes c.blockSize ≤ s.availableMemory c ∧
          s.availableMemory c < alignUp bytes c.blockSize)) ∧
    (FreeBlocksAgree c s thread <-> c.memLimit ≠ 0) := by
  have hnothing : c.memLimit = 0 -> s.availableMemory c = 0 := by
    intro hlimit
    unfold State.availableMemory
    rw [hlimit]
    exact if_neg (Nat.not_lt_zero _)
  have hzero : bytes = 0 -> alignUp bytes c.blockSize = 0 := by
    rintro rfl
    exact alignUp_zero c.blockSize_pos
  have hpos : bytes ≠ 0 -> 0 < allocBytes bytes c.blockSize := fun hne =>
    allocBytes_pos (Nat.pos_of_ne_zero hne) c.blockSize_pos c.blockSize_le
  have hround := allocBytes_le_alignUp bytes c.blockSize
  refine ⟨reserve_ends hidle hmutex hbytes, reserveAgrees_iff hidle hmutex hbytes,
    allocate_ends hidle hmutex hbytes, ?_, ?_, freeBlocksAgree_iff hidle hmutex⟩
  · rw [allocateAgrees_iff hidle hmutex hbytes]
    omega
  · rw [allocateAgrees_iff hidle hmutex hbytes]
    omega

/-- Blocks of 16 bytes below a limit of two and a half. -/
def fortyBytes : Config where
  memLimit := 40
  blockSize := 16
  memLimit_le := by decide
  blockSize_pos := sixteen_pos
  blockSize_le := sixteen_le_sizeMax

/-- The exact conditions read for a request of two blocks from a fresh resource. -/
theorem admission_agrees_iff_fortyBytes :
    (exists during outcome t,
      EndsAlone fortyBytes State.initial 0 (.reserve 0 20) during outcome t) ∧
    (ReserveAgrees fortyBytes State.initial 0 20 <->
      (fortyBytes.memLimit ≠ 0 ∨ 20 = 0)) ∧
    (exists during outcome t, EndsAlone fortyBytes State.initial 0
      (.allocateMultipleBlocks 0 20 none) during outcome t) ∧
    (AllocateAgrees fortyBytes State.initial 0 20 (allocBytes 20 fortyBytes.blockSize) <->
      (fortyBytes.memLimit ≠ 0 ∨ 20 = 0)) ∧
    (AllocateAgrees fortyBytes State.initial 0 20 (alignUp 20 fortyBytes.blockSize) <->
      (fortyBytes.memLimit ≠ 0 ∨ 20 = 0) ∧
        ¬ (allocBytes 20 fortyBytes.blockSize ≤ State.initial.availableMemory fortyBytes ∧
          State.initial.availableMemory fortyBytes < alignUp 20 fortyBytes.blockSize)) ∧
    (FreeBlocksAgree fortyBytes State.initial 0 <-> fortyBytes.memLimit ≠ 0) :=
  admission_agrees_iff fortyBytes rfl rfl (by decide)

/-- The steps of thread 0 in `reserve`, without a limit. -/
def reserveSteps : List Event :=
  [.tick 0 false, .tick 0 false, .tick 0 false, .tick 0 false, .register 0 7]

/-- A fresh resource without a limit grants a block that its accessors deny. -/
theorem reserved_beyond_available :
    ¬ ReserveAgrees unlimited State.initial 0 16 ∧
      ¬ AllocateAgrees unlimited State.initial 0 16 (allocBytes 16 16) ∧
      ¬ FreeBlocksAgree unlimited State.initial 0 := by
  have hallocated : exists t, EndsAlone unlimited State.initial 0
      (.allocateMultipleBlocks 0 16 none) (lockToMalloc ++ [.construct 0 3])
      (.blocks (some 3)) t :=
    ⟨_, by simp [Solo, lockToMalloc, Event.thread], rfl, rfl⟩
  rcases hallocated with ⟨t, hallocated⟩
  refine ⟨fun hagrees => ?_, fun hagrees => ?_, fun hagrees => ?_⟩
  · have hreserved : exists t, EndsAlone unlimited State.initial 0 (.reserve 0 16)
        reserveSteps (.reservation 7) t :=
      ⟨_, by simp [Solo, reserveSteps, Event.thread], rfl, rfl⟩
    rcases hreserved with ⟨u, hreserved⟩
    have hle := (hagrees _ _ _ hreserved).left.mp ⟨7, rfl⟩
    exact absurd hle (by decide)
  · have hrefused := (hagrees _ _ _ hallocated).mpr (by decide)
    cases hrefused
  · have hrefused := (hagrees 0 _ .none 16 _ _ _ (by decide) (by decide) hallocated).mpr
      (by decide)
    cases hrefused

end FixedSizeHost
end Memory
end Cuda2Rocm
