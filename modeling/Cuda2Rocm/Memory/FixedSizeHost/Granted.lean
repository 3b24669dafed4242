import Cuda2Rocm.Memory.FixedSizeHost.Blocks
import Cuda2Rocm.Memory.FixedSizeHost.OwnSteps
import Cuda2Rocm.Memory.FixedSizeHost.Pinned

/-!
# Granted allocations

What a call of `allocate_multiple_blocks` that returns an allocation hands out: whole
blocks, cut from the buffer that was pinned for the call, and recorded with its size.
`align_up` saturates at the largest size, which need not be a whole number of blocks, so
the division that follows can fall short of the request.
-/

namespace Cuda2Rocm
namespace Memory
namespace FixedSizeHost

open Foundation

/-!
# Rounding
-/

theorem allocBytes_lt {bytes blockSize : Nat} (hblock : 0 < blockSize)
    (hfits : blockSize ≤ sizeMax) : allocBytes bytes blockSize < bytes + blockSize := by
  have hle := allocBytes_le_alignUp bytes blockSize
  unfold alignUp at hle
  rw [if_neg (by omega)] at hle
  split at hle
  · omega
  · have hdiv := Nat.div_mul_le_self (bytes + blockSize - 1) blockSize
    omega

/-- The rounding covers the requests that some whole number of blocks covers. -/
theorem le_allocBytes_iff {bytes blockSize : Nat} (hblock : 0 < blockSize)
    (hfits : blockSize ≤ sizeMax) :
    bytes ≤ allocBytes bytes blockSize <-> bytes ≤ sizeMax / blockSize * blockSize := by
  have htop : sizeMax / blockSize * blockSize ≤ sizeMax := Nat.div_mul_le_self _ _
  unfold allocBytes alignUp
  rw [if_neg (by omega)]
  split
  · exact Iff.rfl
  · rename_i hsmall
    have hround : (bytes + blockSize - 1) / blockSize * blockSize / blockSize * blockSize =
        (bytes + blockSize - 1) / blockSize * blockSize := by
      rw [Nat.mul_div_cancel _ hblock]
    have hcovers : bytes + blockSize - 1 <
        (bytes + blockSize - 1) / blockSize * blockSize + blockSize :=
      Nat.lt_div_mul_add hblock
    have hmono : (bytes + blockSize - 1) / blockSize * blockSize ≤
        sizeMax / blockSize * blockSize :=
      Nat.mul_le_mul_right _ (Nat.div_le_div_right (by omega))
    rw [hround]
    constructor
    · intro _
      omega
    · intro _
      omega

theorem dvd_allocBytes (bytes blockSize : Nat) : blockSize ∣ allocBytes bytes blockSize :=
  Nat.dvd_mul_left _ _

/-!
# The call
-/

/-- A call for so many bytes under an arena, or one that is over. -/
def InCall (thread : Thread) (bytes : Nat) (arena : Option ArenaRef) (s : State) : Prop :=
  exists frame, s.threads.lookup thread = some frame ∧
    (frame.asks = some (bytes, arena) ∨ exists outcome, frame = .done outcome)

section Steps

variable {c : Config} {s t : State} {e : Event} {thread : Thread} {bytes : Nat}
  {arena : Option ArenaRef}

theorem InCall.enter {frame : Frame} (hthreads : t.threads = s.threads.insert thread frame)
    (hframe : frame.asks = some (bytes, arena) ∨ exists outcome, frame = .done outcome) :
    InCall thread bytes arena t :=
  ⟨frame, by rw [hthreads]; exact Table.lookup_insert_self _ _ _, hframe⟩

/-- A call stays one for the same bytes under the same arena until it is over. -/
theorem inCall_move (h : InCall thread bytes arena s) (hmove : Move c s e t)
    (hret : e ≠ .ret thread) : InCall thread bytes arena t := by
  rcases h with ⟨frame, hframe, hcall⟩
  by_cases hown : e.thread = some thread
  · have hidle : forall {P : Prop}, s.threads.lookup thread = none -> P := by
      intro P hnone
      rw [hframe] at hnone
      cases hnone
    have hasks : forall {old : Frame}, s.threads.lookup thread = some old ->
        (forall outcome, old ≠ .done outcome) -> old.asks = some (bytes, arena) := by
      intro old hold hopen
      rw [hframe] at hold
      cases hold
      exact hcall.resolve_right fun ⟨outcome, hdone⟩ => hopen outcome hdone
    cases hmove with
    | start hcalls hnone hfresh =>
        have hactor := thread_of_calls hcalls
        rw [hown] at hactor
        cases hactor
        exact hidle hnone
    | startLocking hnone hbytes harena =>
        cases hown
        exact hidle hnone
    | take hnone hmutex halloc huntracked =>
        cases hown
        exact hidle hnone
    | takeTracked hnone hmutex halloc href hfind =>
        cases hown
        exact hidle hnone
    | takeSingle hnone hptr =>
        cases hown
        exact hidle hnone
    | destroyReleased hnone hmutex harena htracker =>
        cases hown
        exact hidle hnone
    | destroy hnone hmutex harena htracker =>
        cases hown
        exact hidle hnone
    | grow harena => cases hown
    | chargeOn hold hstep =>
        rename_i charge pc pc' counter
        cases hown
        have hold' := hasks hold (fun _ => Frame.noConfusion)
        refine InCall.enter rfl (Or.inl ?_)
        cases charge <;> exact hold'
    | granted hold hstep =>
        rename_i charge pc counter
        cases hown
        have hold' := hasks hold (fun _ => Frame.noConfusion)
        cases charge with
        | reservation bytes => cases hold'
        | blocks request => exact InCall.enter rfl (Or.inl hold')
        | single bytes => cases hold'
    | refused hold hstep =>
        rename_i charge pc counter
        cases hown
        cases charge with
        | reservation bytes => exact InCall.enter rfl (Or.inr ⟨_, rfl⟩)
        | blocks request => exact InCall.enter rfl (Or.inr ⟨_, rfl⟩)
        | single bytes => exact InCall.enter rfl (Or.inr ⟨_, rfl⟩)
    | lock hold hmutex =>
        cases hown
        have hold' := hasks hold (fun _ => Frame.noConfusion)
        exact InCall.enter rfl (Or.inl hold')
    | lockRefused hold hfind =>
        cases hown
        exact InCall.enter rfl (Or.inr ⟨_, rfl⟩)
    | lockTracked hold hmutex hfind =>
        cases hown
        have hold' := hasks hold (fun _ => Frame.noConfusion)
        exact InCall.enter rfl (Or.inl hold')
    | freed hold =>
        cases hown
        cases hasks hold (fun _ => Frame.noConfusion)
    | creditOn hold =>
        rename_i credit loop
        cases hown
        have hold' := hasks hold (fun _ => Frame.noConfusion)
        refine InCall.enter rfl (Or.inl ?_)
        cases credit <;> exact hold'
    | credited hold =>
        rename_i credit loop
        cases hown
        cases credit with
        | deallocation bytes => exact InCall.enter rfl (Or.inr ⟨_, rfl⟩)
        | blocks request text => exact InCall.enter rfl (Or.inr ⟨_, rfl⟩)
        | single bytes text => exact InCall.enter rfl (Or.inr ⟨_, rfl⟩)
        | release addr bytes => exact InCall.enter rfl (Or.inr ⟨_, rfl⟩)
    | register hold hfree hmutex =>
        cases hown
        exact InCall.enter rfl (Or.inr ⟨_, rfl⟩)
    | mallocFailed hold =>
        cases hown
        have hold' := hasks hold (fun _ => Frame.noConfusion)
        exact InCall.enter rfl (Or.inl hold')
    | mallocSingleFailed hold =>
        cases hown
        cases hasks hold (fun _ => Frame.noConfusion)
    | malloc hold hptr =>
        cases hown
        have hold' := hasks hold (fun _ => Frame.noConfusion)
        exact InCall.enter rfl (Or.inl hold')
    | mallocSingle hold hptr =>
        cases hown
        exact InCall.enter rfl (Or.inr ⟨_, rfl⟩)
    | construct hold hid =>
        cases hown
        exact InCall.enter rfl (Or.inr ⟨_, rfl⟩)
    | throws exception hold =>
        cases hown
        exact InCall.enter rfl (Or.inr ⟨_, rfl⟩)
    | ret hold =>
        cases hown
        exact absurd rfl hret
  · exact ⟨frame, (lookup_of_others hmove hown).trans hframe, hcall⟩

/-- `allocate_multiple_blocks` starts as a call for the rounded size, unless it asks for
nothing. -/
theorem inCall_start {res : Option Addr} (hbytes : 0 < bytes)
    (hstep : step c s (.allocateMultipleBlocks thread bytes res) = some t) :
    exists arena, InCall thread (allocBytes bytes c.blockSize) arena t := by
  have hzero : bytes ≠ 0 := Nat.pos_iff_ne_zero.mp hbytes
  simp only [step] at hstep
  split at hstep
  · unfold State.startBlocks at hstep
    rw [if_neg hzero] at hstep
    split at hstep
    · cases hstep
      exact ⟨none, InCall.enter rfl (Or.inl rfl)⟩
    · split at hstep
      · cases hstep
      · split at hstep
        · cases hstep
          exact ⟨_, InCall.enter rfl (Or.inl rfl)⟩
        · cases hstep
  · cases hstep

/-!
# What was recorded
-/

/-- The charge of a request was computed for its whole size, by which the tracker of its
arena was moved before. -/
def RequestRecorded (arenas : Table Addr Arena) (request : Request) : Prop :=
  match request.arena with
  | none => request.charge = request.bytes
  | some ref => exists found size pre, arenas.lookup ref.addr = some found ∧
      found.tracker = some (wrapInt (pre + toSigned request.bytes)) ∧
      request.charge = chargeFor size pre request.bytes

/-- The requests of locked sections are recorded. -/
def Recorded (arenas : Table Addr Arena) : Section -> Prop
  | .blocks request => RequestRecorded arenas request
  | .release _ => True

/-- Growing an arena leaves its tracker alone. -/
theorem recorded_grow {arenas : Table Addr Arena} {addr : Addr} {old : Arena} (n : Nat)
    (hold : arenas.lookup addr = some old) {request : Request}
    (h : RequestRecorded arenas request) :
    RequestRecorded (arenas.insert addr { old with size := Memory.growBy old.size n })
      request := by
  unfold RequestRecorded at h ⊢
  split at h
  · exact h
  · rename_i ref href
    rcases h with ⟨found, size, pre, hfound, htracker, hcharge⟩
    rw [Table.lookup_insert]
    split
    · rename_i heq
      rw [heq, hold] at hfound
      cases hfound
      exact ⟨_, size, pre, rfl, htracker, hcharge⟩
    · exact ⟨found, size, pre, hfound, htracker, hcharge⟩

theorem recorded_move (h : Guarded Recorded s) (hmove : Move c s e t) :
    Guarded Recorded t := by
  refine h.move hmove ?_ ?_ ?_ ?_
  · exact fun _ => rfl
  · intro thread spurious bytes ref arena pre _ _ _ _
    refine ⟨{ arena with tracker := some (wrapInt (pre + toSigned bytes)) }, arena.size, pre,
      Table.lookup_insert_self _ _ _, ?_, ?_⟩
    · dsimp only
    · dsimp only
  · exact fun _ _ _ => trivial
  · intro addr n old part _ hold hpart
    cases part with
    | release target => exact trivial
    | blocks request => exact recorded_grow n hold hpart

/-- The memory of a call that has not made its allocation yet is pinned. -/
theorem Owned.pinned_of_constructing (h : Owned s) {request : Request} {ptr : Ptr}
    (hframe : s.threads.lookup thread = some (.constructing request ptr)) :
    s.pinned.lookup ptr = some request.bytes :=
  h.pinned_of_holding hframe rfl

end Steps

/-!
# Covered requests
-/

/-- What the end of a call for `bytes` bytes hands out: at least that many in as few whole
blocks as possible, cut from the buffer that was pinned for it, and recorded as such in
`live_allocs_`, in the tracker of its arena, and in its charge. -/
structure GrantCovers (c : Config) (bytes : Nat) (request : Request) (ptr : Ptr)
    (id : AllocId) (s : State) (alloc : MultipleBlocksAllocation) : Prop where
  whole : c.blockSize ∣ alloc.totalBytes
  enough : bytes ≤ alloc.totalBytes
  tight : alloc.totalBytes < bytes + c.blockSize
  slices : Slices ptr alloc.totalBytes c.blockSize alloc.blocks
  pinned : s.pinned.lookup ptr = some alloc.totalBytes
  live : s.liveAllocs.lookup id =
    some { ptr := ptr, bytes := alloc.totalBytes, arena := alloc.arena }
  amount : request.bytes = alloc.totalBytes
  recorded : RequestRecorded s.arenas request

/-- The last step of `allocate_multiple_blocks`. -/
theorem step_construct {c : Config} {s t : State} {thread : Thread} {id : AllocId}
    (hstep : step c s (.construct thread id) = some t) :
    exists request ptr, s.threads.lookup thread = some (.constructing request ptr) ∧
      t.arenas = s.arenas ∧ t.pinned = s.pinned ∧
      t.liveAllocs.lookup id =
        some { ptr := ptr, bytes := request.bytes, arena := request.arena } := by
  simp only [step, State.tickConstruct] at hstep
  split at hstep
  · rename_i request ptr hframe _
    split at hstep
    · cases hstep
      exact ⟨request, ptr, hframe, rfl, rfl, Table.lookup_insert_self _ _ _⟩
    · cases hstep
  · cases hstep

/--
A call of `allocate_multiple_blocks` that returns an allocation, whatever other threads
do meanwhile and however `hipMallocHost` fails or succeeds, has covered its request
exactly if some whole number of blocks below `2 ^ 64` covers it.
-/
theorem grant_covers_iff {c : Config} {before during : List Event} {s t u : State}
    (thread : Thread) {bytes : Nat} (res : Option Addr) (id : AllocId) (hbytes : 0 < bytes)
    (hrun : (hostMachine c).run State.initial before = some s)
    (hcall : (hostMachine c).run s
      (.allocateMultipleBlocks thread bytes res :: during) = some t)
    (hret : Event.ret thread ∉ during)
    (hend : step c t (.construct thread id) = some u) :
    exists request ptr, t.threads.lookup thread = some (.constructing request ptr) ∧
      (GrantCovers c bytes request ptr id u (grantedBlocks c.blockSize request ptr) <->
        bytes ≤ sizeMax / c.blockSize * c.blockSize) := by
  rcases step_construct hend with ⟨request, ptr, hframe, harenas, hpinned, hlive⟩
  refine ⟨request, ptr, hframe, ?_⟩
  rcases Machine.run_cons_some hcall with ⟨v, hstart, hrest⟩
  rcases inCall_start hbytes hstart with ⟨arena, hincall⟩
  -- the size asked for at the call is the one granted
  have hsize : request.bytes = allocBytes bytes c.blockSize := by
    have hstays : forall s e t, InCall thread (allocBytes bytes c.blockSize) arena s ->
        e ≠ .ret thread -> (hostMachine c).step s e = some t ->
        InCall thread (allocBytes bytes c.blockSize) arena t :=
      fun s e t h hok hstep => inCall_move h (step_move hstep) hok
    have hevents : forall e, e ∈ during -> e ≠ .ret thread := by
      rintro e he rfl
      exact hret he
    rcases Machine.invariant_run hstays hincall (Machine.along_of_events hevents) hrest with
      ⟨frame, hlookup, hasks⟩
    rw [hframe] at hlookup
    cases hlookup
    rcases hasks with hasks | ⟨outcome, hdone⟩
    · change some (request.bytes, request.arena) = _ at hasks
      exact congrArg Prod.fst (Option.some.inj hasks)
    · cases hdone
  have hreached : (hostMachine c).run State.initial
      (before ++ .allocateMultipleBlocks thread bytes res :: during) = some t := by
    rw [Machine.run_append, hrun]
    exact hcall
  have howned : Owned t := Machine.invariant_run_always
    (fun s e t h (hstep : step c s e = some t) => owned_move h (step_move hstep))
    owned_initial hreached
  have hrecorded : Guarded Recorded t := Machine.invariant_run_always
    (fun s e t h (hstep : step c s e = some t) => recorded_move h (step_move hstep))
    (guarded_initial _) hreached
  constructor
  · intro hcovers
    have henough := hcovers.enough
    change bytes ≤ request.bytes at henough
    rw [hsize] at henough
    exact (le_allocBytes_iff c.blockSize_pos c.blockSize_le).mp henough
  · intro hfits
    have hwhole : c.blockSize ∣ request.bytes := by
      rw [hsize]
      exact dvd_allocBytes bytes c.blockSize
    constructor
    · exact hwhole
    · show bytes ≤ request.bytes
      rw [hsize]
      exact (le_allocBytes_iff c.blockSize_pos c.blockSize_le).mpr hfits
    · show request.bytes < bytes + c.blockSize
      rw [hsize]
      exact allocBytes_lt c.blockSize_pos c.blockSize_le
    · exact slices_grantedBlocks c.blockSize_pos hwhole ptr
    · rw [hpinned]
      exact howned.pinned_of_constructing hframe
    · exact hlive
    · rfl
    · rw [harenas]
      exact (hrecorded thread _ _ hframe rfl).right

/-- The steps of thread 0 from its lock to the end of `hipMallocHost`, without a limit. -/
def lockToMalloc : List Event :=
  [.tick 0 false, .tick 0 false, .tick 0 false, .tick 0 false, .tick 0 false,
    .hipMallocHost 0 (.ok 4096)]

theorem sixteen_pos : 0 < 16 := by decide

theorem sixteen_le_sizeMax : 16 ≤ sizeMax := by decide

/-- Blocks of 16 bytes without a limit. -/
def unlimited : Config where
  memLimit := 0
  blockSize := 16
  memLimit_le := Nat.zero_le sizeMax
  blockSize_pos := sixteen_pos
  blockSize_le := sixteen_le_sizeMax

/-- The exact condition read for a request of one block and a bit. -/
theorem grant_covers_iff_twentyBytes :
    exists t u request ptr, (hostMachine unlimited).run State.initial
        (.allocateMultipleBlocks 0 20 none :: lockToMalloc) = some t ∧
      step unlimited t (.construct 0 7) = some u ∧
      t.threads.lookup 0 = some (.constructing request ptr) ∧
      (GrantCovers unlimited 20 request ptr 7 u (grantedBlocks 16 request ptr) <->
        20 ≤ sizeMax / 16 * 16) := by
  have hret : Event.ret 0 ∉ lockToMalloc := by simp [lockToMalloc]
  rcases @grant_covers_iff unlimited [] lockToMalloc State.initial _ _ 0 20 none 7 (by decide)
    rfl rfl hret rfl with ⟨request, ptr, hframe, hcovers⟩
  exact ⟨_, _, request, ptr, rfl, rfl, hframe, hcovers⟩

/-- Blocks of 10000000000000000000 bytes, of which only one fits into `2 ^ 64`. -/
def hugeBlocks : Config where
  memLimit := 0
  blockSize := 10000000000000000000
  memLimit_le := Nat.zero_le sizeMax
  blockSize_pos := by decide
  blockSize_le := by decide

/-- A request for one byte more than such a block is granted the block alone. -/
theorem request_beyond_block_short :
    exists t u request ptr, (hostMachine hugeBlocks).run State.initial
        (.allocateMultipleBlocks 0 10000000000000000001 none :: lockToMalloc) = some t ∧
      step hugeBlocks t (.construct 0 7) = some u ∧
      t.threads.lookup 0 = some (.constructing request ptr) ∧
      (grantedBlocks hugeBlocks.blockSize request ptr).blocks =
        [{ ptr := 4096, bytes := 10000000000000000000 }] ∧
      ¬ GrantCovers hugeBlocks 10000000000000000001 request ptr 7 u
        (grantedBlocks hugeBlocks.blockSize request ptr) :=
  ⟨_, _, _, _, rfl, rfl, rfl, rfl, fun h => absurd h.enough (by decide)⟩

end FixedSizeHost
end Memory
end Cuda2Rocm
