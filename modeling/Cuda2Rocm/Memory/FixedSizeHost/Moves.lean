import Cuda2Rocm.Memory.FixedSizeHost.Model

/-!
# What a step of the host resource can do

Every invariant of the resource is proved by cases on the relation below, which
lists the enabled steps with their guards and the states they lead to.
-/

namespace Cuda2Rocm
namespace Memory
namespace FixedSizeHost

open Foundation

/-- The thread of an event that calls a function without a choice from outside. -/
def Event.calls : Event -> Option Thread
  | .reserve thread _ => some thread
  | .allocateMultipleBlocks thread _ _ => some thread
  | .deallocateMultipleBlocks thread _ => some thread
  | .allocate thread _ => some thread
  | _ => none

/-- Frames that calls outside of the mutex start in. -/
inductive Frame.Fresh : Frame -> Prop where
  | done (outcome : Outcome) : Fresh (.done outcome)
  | reservation (bytes : Nat) : Fresh (.charging (.reservation bytes) .start)
  | single (bytes : Nat) : Fresh (.charging (.single bytes) .start)

/-- The deallocation of an allocation finds no tracker. -/
def State.Untracked (s : State) (alloc : Allocation) : Prop :=
  forall ref, alloc.arena = some ref -> s.findTracker ref.addr = none

/-- The counter after `do_release`. -/
def State.totalAfter (s : State) (credit : Credit) : Nat :=
  if s.counter.total ≥ credit.bytes then s.counter.total - credit.bytes else 0

inductive Move (c : Config) (s : State) : Event -> State -> Prop where
  | start {e : Event} {thread : Thread} {frame : Frame}
      (hcalls : e.calls = some thread)
      (hidle : s.threads.lookup thread = none) (hfresh : frame.Fresh) :
      Move c s e (s.setFrame thread frame)
  | startLocking {thread : Thread} {bytes : Nat} {res : Option Addr}
      {arena : Option ArenaRef} (hidle : s.threads.lookup thread = none)
      (hbytes : 0 < bytes)
      (harena : forall ref, arena = some ref ->
        exists a, s.arenas.lookup ref.addr = some a ∧ a.rid = ref.rid) :
      Move c s (.allocateMultipleBlocks thread bytes res)
        (s.setFrame thread (.locking (allocBytes bytes c.blockSize) arena))
  | take {thread : Thread} {id : AllocId} {alloc : Allocation}
      (hidle : s.threads.lookup thread = none) (hmutex : s.mutex = none)
      (halloc : s.liveAllocs.lookup id = some alloc) (huntracked : s.Untracked alloc) :
      Move c s (.deallocateMultipleBlocks thread id)
        { s with
          liveAllocs := s.liveAllocs.erase id
          threads := s.threads.insert thread
            (.freeing alloc.ptr alloc.bytes alloc.bytes) }
  | takeTracked {thread : Thread} {id : AllocId} {alloc : Allocation} {ref : ArenaRef}
      {arena : Arena} {pre : Int}
      (hidle : s.threads.lookup thread = none) (hmutex : s.mutex = none)
      (halloc : s.liveAllocs.lookup id = some alloc) (href : alloc.arena = some ref)
      (hfind : s.findTracker ref.addr = some (arena, pre)) :
      Move c s (.deallocateMultipleBlocks thread id)
        { s with
          arenas := s.setTracker ref.addr arena (wrapInt (pre - toSigned alloc.bytes))
          liveAllocs := s.liveAllocs.erase id
          threads := s.threads.insert thread (.freeing alloc.ptr alloc.bytes
            (creditFor arena.size pre alloc.bytes)) }
  | takeSingle {thread : Thread} {ptr : Ptr} {bytes : Nat}
      (hidle : s.threads.lookup thread = none)
      (hptr : s.singles.lookup ptr = some bytes) :
      Move c s (.deallocate thread ptr)
        { s with
          singles := s.singles.erase ptr
          threads := s.threads.insert thread (.freeing ptr bytes bytes) }
  | destroyReleased {thread : Thread} {addr : Addr} {arena : Arena}
      (hidle : s.threads.lookup thread = none) (hmutex : s.mutex = none)
      (harena : s.arenas.lookup addr = some arena) (htracker : arena.tracker = none) :
      Move c s (.destroy thread addr)
        { s with
          arenas := s.arenas.erase addr
          threads := s.threads.insert thread (.done .finished) }
  | destroy {thread : Thread} {addr : Addr} {arena : Arena} {tracker : Int}
      (hidle : s.threads.lookup thread = none) (hmutex : s.mutex = none)
      (harena : s.arenas.lookup addr = some arena)
      (htracker : arena.tracker = some tracker) :
      Move c s (.destroy thread addr)
        { s with
          arenas := s.arenas.insert addr { arena with held := false, tracker := none }
          mutex := some thread
          threads := s.threads.insert thread
            (.crediting (.release addr (reclaimed arena.size tracker)) .load) }
  | grow {addr : Addr} {n : Nat} {arena : Arena}
      (harena : s.arenas.lookup addr = some arena) :
      Move c s (.growBy addr n)
        { s with
          arenas := s.arenas.insert addr
            { arena with size := Memory.growBy arena.size n } }
  | chargeOn {thread : Thread} {spurious : Bool} {charge : Charge}
      {pc pc' : DoReserve} {counter : Counter}
      (hframe : s.threads.lookup thread = some (.charging charge pc))
      (hstep : pc.step c.memLimit charge.bytes spurious s.counter =
        .goesOn pc' counter) :
      Move c s (.tick thread spurious)
        { s with
          counter := counter
          threads := s.threads.insert thread (.charging charge pc') }
  | granted {thread : Thread} {spurious : Bool} {charge : Charge} {pc : DoReserve}
      {counter : Counter}
      (hframe : s.threads.lookup thread = some (.charging charge pc))
      (hstep : pc.step c.memLimit charge.bytes spurious s.counter =
        .returned true counter) :
      Move c s (.tick thread spurious)
        ({ s with counter := counter }.granted thread charge)
  | refused {thread : Thread} {spurious : Bool} {charge : Charge} {pc : DoReserve}
      {counter : Counter}
      (hframe : s.threads.lookup thread = some (.charging charge pc))
      (hstep : pc.step c.memLimit charge.bytes spurious s.counter =
        .returned false counter) :
      Move c s (.tick thread spurious)
        ({ s with counter := counter }.refused c thread charge)
  | lock {thread : Thread} {spurious : Bool} {bytes : Nat}
      (hframe : s.threads.lookup thread = some (.locking bytes none))
      (hmutex : s.mutex = none) :
      Move c s (.tick thread spurious)
        { s with
          mutex := some thread
          threads := s.threads.insert thread
            (.charging (.blocks { bytes := bytes, arena := none, charge := bytes })
              .start) }
  | lockRefused {thread : Thread} {spurious : Bool} {bytes : Nat} {ref : ArenaRef}
      {text : String}
      (hframe : s.threads.lookup thread = some (.locking bytes (some ref)))
      (hfind : s.findTracker ref.addr = none) :
      Move c s (.tick thread spurious) (s.setFrame thread (.done (.threw text)))
  | lockTracked {thread : Thread} {spurious : Bool} {bytes : Nat} {ref : ArenaRef}
      {arena : Arena} {pre : Int}
      (hframe : s.threads.lookup thread = some (.locking bytes (some ref)))
      (hmutex : s.mutex = none)
      (hfind : s.findTracker ref.addr = some (arena, pre)) :
      Move c s (.tick thread spurious)
        { s with
          arenas := s.setTracker ref.addr arena (wrapInt (pre + toSigned bytes))
          mutex := some thread
          threads := s.threads.insert thread
            (.charging (.blocks { bytes := bytes, arena := some ref,
                                  charge := chargeFor arena.size pre bytes })
              .start) }
  | freed {thread : Thread} {spurious : Bool} {ptr : Ptr} {bytes credit : Nat}
      (hframe : s.threads.lookup thread = some (.freeing ptr bytes credit)) :
      Move c s (.tick thread spurious) (s.hipFreeHost thread ptr credit)
  | creditOn {thread : Thread} {spurious : Bool} {credit : Credit} {loop : CasLoop}
      (hframe : s.threads.lookup thread = some (.crediting credit loop)) :
      Move c s (.tick thread spurious)
        (s.setFrame thread (.crediting credit (.cas s.counter.total)))
  | credited {thread : Thread} {spurious : Bool} {credit : Credit} {loop : CasLoop}
      (hframe : s.threads.lookup thread = some (.crediting credit loop)) :
      Move c s (.tick thread spurious)
        ((s.setTotal (s.totalAfter credit)).credited thread credit)
  | register {thread : Thread} {addr : Addr} {bytes : Nat}
      (hframe : s.threads.lookup thread = some (.registering bytes))
      (hfree : s.arenas.lookup addr = none) (hmutex : s.mutex = none) :
      Move c s (.register thread addr)
        { s with
          arenas := s.arenas.insert addr
            { rid := s.created.length, size := bytes, charged := bytes, held := true,
              tracker := some 0 }
          threads := s.threads.insert thread (.done (.reservation addr))
          created := s.created ++ [addr] }
  | mallocFailed {thread : Thread} {error text : String} {request : Request}
      (hframe : s.threads.lookup thread = some (.allocating request)) :
      Move c s (.hipMallocHost thread (.error error))
        (s.setFrame thread (.crediting (.blocks request text) .load))
  | mallocSingleFailed {thread : Thread} {error text : String} {bytes : Nat}
      (hframe : s.threads.lookup thread = some (.allocatingSingle bytes)) :
      Move c s (.hipMallocHost thread (.error error))
        (s.setFrame thread (.crediting (.single bytes text) .load))
  | malloc {thread : Thread} {ptr : Ptr} {request : Request}
      (hframe : s.threads.lookup thread = some (.allocating request))
      (hptr : s.pinned.lookup ptr = none) :
      Move c s (.hipMallocHost thread (.ok ptr))
        { s with
          pinned := s.pinned.insert ptr request.bytes
          threads := s.threads.insert thread (.constructing request ptr) }
  | mallocSingle {thread : Thread} {ptr : Ptr} {bytes : Nat}
      (hframe : s.threads.lookup thread = some (.allocatingSingle bytes))
      (hptr : s.pinned.lookup ptr = none) :
      Move c s (.hipMallocHost thread (.ok ptr))
        { s with
          pinned := s.pinned.insert ptr bytes
          singles := s.singles.insert ptr bytes
          threads := s.threads.insert thread (.done (.single ptr)) }
  | construct {thread : Thread} {id : AllocId} {request : Request} {ptr : Ptr}
      (hframe : s.threads.lookup thread = some (.constructing request ptr))
      (hid : s.liveAllocs.lookup id = none) :
      Move c s (.construct thread id)
        { s with
          liveAllocs := s.liveAllocs.insert id
            { ptr := ptr, bytes := request.bytes, arena := request.arena }
          mutex := none
          threads := s.threads.insert thread (.done (.blocks (some id))) }
  | throws {thread : Thread} {request : Request} {ptr : Ptr}
      (exception : StdException)
      (hframe : s.threads.lookup thread = some (.constructing request ptr)) :
      Move c s (.throws thread exception)
        { s with
          lost := { ptr := ptr, bytes := request.bytes, arena := request.arena } :: s.lost
          mutex := none
          threads := s.threads.insert thread (.done (.raised exception)) }
  | ret {thread : Thread} {outcome : Outcome}
      (hframe : s.threads.lookup thread = some (.done outcome)) :
      Move c s (.ret thread) { s with threads := s.threads.erase thread }

section Inversion

variable {c : Config} {s t : State} {thread : Thread}

theorem move_startBlocks {bytes : Nat} {res : Option Addr}
    (hidle : s.threads.lookup thread = none)
    (h : s.startBlocks c thread bytes res = some t) :
    Move c s (.allocateMultipleBlocks thread bytes res) t := by
  unfold State.startBlocks at h
  split at h
  · cases h
    exact .start rfl hidle (.done _)
  · rename_i hne
    have hpos : 0 < bytes := Nat.pos_of_ne_zero hne
    split at h
    · cases h
      exact .startLocking hidle hpos (fun ref href => by cases href)
    · split at h
      · cases h
      · rename_i arena harena
        split at h
        · cases h
          refine .startLocking hidle hpos ?_
          intro ref href
          cases href
          exact ⟨arena, harena, rfl⟩
        · cases h

theorem move_startDeallocBlocks (id : AllocId)
    (hidle : s.threads.lookup thread = none) (hmutex : s.mutex = none) :
    Move c s (.deallocateMultipleBlocks thread id) (s.startDeallocBlocks thread id) := by
  unfold State.startDeallocBlocks
  split
  · exact .start rfl hidle (.done _)
  · rename_i alloc halloc
    dsimp only
    split
    · rename_i hnone
      refine .take hidle hmutex halloc ?_
      intro ref href
      rw [hnone] at href
      cases href
    · rename_i ref href
      split
      · rename_i hfind
        refine .take hidle hmutex halloc ?_
        intro ref' href'
        rw [href] at href'
        cases href'
        exact hfind
      · rename_i arena pre hfind
        exact .takeTracked hidle hmutex halloc href hfind

theorem move_tickLock {bytes : Nat} {arena : Option ArenaRef} (spurious : Bool)
    (hframe : s.threads.lookup thread = some (.locking bytes arena))
    (hmutex : s.mutex = none) :
    Move c s (.tick thread spurious) (s.tickLock thread bytes arena) := by
  cases arena with
  | none => exact .lock hframe hmutex
  | some ref =>
      unfold State.tickLock
      dsimp only
      split
      · rename_i hfind
        exact .lockRefused hframe hfind
      · rename_i found pre hfind
        exact .lockTracked hframe hmutex hfind

theorem move_tickCharge {charge : Charge} {pc : DoReserve} (spurious : Bool)
    (hframe : s.threads.lookup thread = some (.charging charge pc)) :
    Move c s (.tick thread spurious) (s.tickCharge c thread charge pc spurious) := by
  unfold State.tickCharge
  split
  · rename_i pc' counter hstep
    exact .chargeOn hframe hstep
  · rename_i counter hstep
    exact .granted hframe hstep
  · rename_i counter hstep
    exact .refused hframe hstep

theorem move_tickCredit {credit : Credit} {loop : CasLoop} (spurious : Bool)
    (hframe : s.threads.lookup thread = some (.crediting credit loop)) :
    Move c s (.tick thread spurious) (s.tickCredit thread credit loop spurious) := by
  unfold State.tickCredit
  rcases doReleaseStep_cases credit.bytes spurious s.counter.total loop with
    h | ⟨hzero, h⟩ | h
  · rw [h]
    exact .creditOn hframe
  · rw [h]
    have htotal : s.totalAfter credit = s.counter.total := by
      unfold State.totalAfter
      rw [hzero, if_pos (Nat.zero_le _), Nat.sub_zero]
    have hmove : Move c s (.tick thread spurious)
        ((s.setTotal (s.totalAfter credit)).credited thread credit) := .credited hframe
    rw [htotal] at hmove
    exact hmove
  · rw [h]
    exact .credited hframe

theorem move_tickFrame {spurious : Bool} (h : s.tickFrame c thread spurious = some t) :
    Move c s (.tick thread spurious) t := by
  unfold State.tickFrame at h
  split at h
  · rename_i charge pc hframe
    cases h
    exact move_tickCharge spurious hframe
  · rename_i bytes arena hframe
    split at h
    · rename_i hmutex
      cases h
      exact move_tickLock spurious hframe hmutex
    · cases h
  · rename_i ptr bytes credit hframe
    cases h
    exact .freed hframe
  · rename_i credit loop hframe
    cases h
    exact move_tickCredit spurious hframe
  · cases h

theorem move_tickMalloc {result : Except String Ptr}
    (h : s.tickMalloc thread result = some t) :
    Move c s (.hipMallocHost thread result) t := by
  unfold State.tickMalloc at h
  split at h
  · rename_i request error hframe
    cases h
    exact .mallocFailed hframe
  · rename_i request ptr hframe
    split at h
    · cases h
    · rename_i hptr
      cases h
      exact .malloc hframe hptr
  · rename_i bytes error hframe
    cases h
    exact .mallocSingleFailed hframe
  · rename_i bytes ptr hframe
    split at h
    · cases h
    · rename_i hptr
      cases h
      exact .mallocSingle hframe hptr
  · cases h

/-- Every enabled step is listed. -/
theorem step_move {e : Event} (h : step c s e = some t) : Move c s e t := by
  cases e with
  | reserve thread bytes =>
      simp only [step] at h
      split at h
      · rename_i hguard
        cases h
        unfold State.startReserve
        dsimp only
        split
        · exact .start rfl hguard.left (.done _)
        · exact .start rfl hguard.left (.reservation _)
      · cases h
  | allocateMultipleBlocks thread bytes res =>
      simp only [step] at h
      split at h
      · rename_i hguard
        exact move_startBlocks hguard.left h
      · cases h
  | deallocateMultipleBlocks thread id =>
      simp only [step] at h
      split at h
      · rename_i hguard
        cases h
        exact move_startDeallocBlocks id hguard.left hguard.right
      · cases h
  | allocate thread bytes =>
      simp only [step] at h
      split at h
      · rename_i hguard
        cases h
        unfold State.startSingle
        split
        · exact .start rfl hguard.left (.done _)
        · exact .start rfl hguard.left (.single _)
      · cases h
  | deallocate thread ptr =>
      simp only [step] at h
      split at h
      · rename_i bytes hidle hptr
        cases h
        exact .takeSingle hidle hptr
      · cases h
  | destroy thread addr =>
      simp only [step] at h
      split at h
      · rename_i arena hidle harena hmutex
        split at h
        · cases h
          unfold State.startDestroy
          split
          · rename_i htracker
            exact .destroyReleased hidle hmutex harena htracker
          · rename_i tracker htracker
            exact .destroy hidle hmutex harena htracker
        · cases h
      · cases h
  | growBy addr n =>
      simp only [step] at h
      split at h
      · cases h
      · rename_i arena harena
        split at h
        · cases h
          exact .grow harena
        · cases h
  | tick thread spurious => exact move_tickFrame h
  | register thread addr =>
      simp only [step, State.registerArena] at h
      split at h
      · rename_i bytes hframe hfree hmutex
        cases h
        exact .register hframe hfree hmutex
      · cases h
  | hipMallocHost thread result => exact move_tickMalloc h
  | construct thread id =>
      simp only [step, State.tickConstruct] at h
      split at h
      · rename_i request ptr hframe hid
        split at h
        · cases h
          exact .construct hframe hid
        · cases h
      · cases h
  | throws thread exception =>
      simp only [step, State.tickThrow] at h
      split at h
      · rename_i request ptr hframe
        split at h
        · cases h
          exact .throws exception hframe
        · cases h
      · cases h
  | ret thread =>
      simp only [step] at h
      split at h
      · rename_i outcome hframe
        cases h
        exact .ret hframe
      · cases h

end Inversion

end FixedSizeHost
end Memory
end Cuda2Rocm
