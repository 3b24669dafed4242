import Cuda2Rocm.Foundation.Runs
import Cuda2Rocm.Foundation.Table
import Cuda2Rocm.Memory.FixedSizeHost.Counter
import Cuda2Rocm.Memory.Reservation

/-!
# The fixed-size host resource

`fixed_size_host_memory_resource` hands out pinned host memory, with or without a
reservation.  Its counter is atomic; trackers and live allocations are guarded by
one mutex, which `allocate_multiple_blocks` and `release_reservation` keep while
they work on the counter.  A step below is one access of the counter, one call of
the HIP runtime, or one locked section that does neither.

The object of an allocation, its `blocks_` and its entry are made after the charge and
after `hipMallocHost`.  Any of them may throw, and nothing is taken back then.  The
small objects of a reservation are taken to be made without failure.
-/

namespace Cuda2Rocm
namespace Memory
namespace FixedSizeHost

open Foundation

abbrev Thread := Nat

/-- The address of an arena, which a later arena may get again. -/
abbrev Addr := Nat

/-- The address of an allocation object. -/
abbrev AllocId := Nat

/-- A pointer to pinned memory, not null. -/
abbrev Ptr := Nat

/-- `mem_limit_` and `block_size_`. -/
structure Config where
  memLimit : Nat
  blockSize : Nat
  memLimit_le : memLimit ≤ sizeMax
  blockSize_pos : 0 < blockSize
  blockSize_le : blockSize ≤ sizeMax

/-- `blocks_.max_size()`: a block takes 16 bytes, and a vector less than `2 ^ 63`. -/
def maxBlocks : Nat := 2 ^ 59 - 1

/-- An arena pointer, and the number of the reservation it was taken from.  The code
only has the pointer. -/
structure ArenaRef where
  addr : Addr
  rid : Nat
deriving DecidableEq, Repr

/-- An arena that was not destroyed yet.  `rid` counts reservations, `charged` is what
was charged for this one, `held` says that its handle is alive, and `tracker` is its
entry in `active_reservations_`. -/
structure Arena where
  rid : Nat
  size : Nat
  charged : Nat
  held : Bool
  tracker : Option Int
deriving DecidableEq, Repr

/-- An entry of `live_allocs_`, with the `arena_` of the object it is keyed by. -/
structure Allocation where
  ptr : Ptr
  bytes : Nat
  arena : Option ArenaRef
deriving DecidableEq, Repr

/-- The locals of `allocate_multiple_blocks`: `alloc_bytes`, the arena when there is
a tracker, and `upstream_tracked_bytes`. -/
structure Request where
  bytes : Nat
  arena : Option ArenaRef
  charge : Nat
deriving DecidableEq, Repr

/-- Exceptions of the standard library that a call lets through. -/
inductive StdException where
  | badAlloc
  | lengthError
deriving DecidableEq, Repr

/-- How a call ends. -/
inductive Outcome where
  | reservation (arena : Addr)
  /-- An allocation, or none for the empty one. -/
  | blocks (id : Option AllocId)
  | single (ptr : Ptr)
  | null
  | finished
  | threw (text : String)
  | raised (exception : StdException)
deriving DecidableEq, Repr

/-- The three calls of `do_reserve`. -/
inductive Charge where
  | reservation (bytes : Nat)
  | blocks (request : Request)
  | single (bytes : Nat)
deriving DecidableEq, Repr

/-- The calls of `do_release`; a failed allocation throws the text afterwards. -/
inductive Credit where
  | deallocation (bytes : Nat)
  | blocks (request : Request) (text : String)
  | single (bytes : Nat) (text : String)
  | release (arena : Addr) (bytes : Nat)
deriving DecidableEq, Repr

def Charge.bytes : Charge -> Nat
  | .reservation bytes => bytes
  | .blocks request => request.charge
  | .single bytes => bytes

def Credit.bytes : Credit -> Nat
  | .deallocation bytes => bytes
  | .blocks request _ => request.charge
  | .single bytes _ => bytes
  | .release _ bytes => bytes

/-- A thread inside a call, by what it does next. -/
inductive Frame where
  | charging (charge : Charge) (pc : DoReserve)
  /-- `reserve` before it makes and registers the arena. -/
  | registering (bytes : Nat)
  /-- `allocate_multiple_blocks` before it locks the mutex. -/
  | locking (bytes : Nat) (arena : Option ArenaRef)
  | allocating (request : Request)
  /-- Memory is there, the allocation object and its entry are not. -/
  | constructing (request : Request) (ptr : Ptr)
  | allocatingSingle (bytes : Nat)
  /-- Before `hipFreeHost`, with the size of the memory and what is credited next. -/
  | freeing (ptr : Ptr) (bytes : Nat) (credit : Nat)
  | crediting (credit : Credit) (loop : CasLoop)
  | done (outcome : Outcome)
deriving DecidableEq, Repr

/-- The fields of the resource, the memory pinned, the raw pointers clients hold, the
calls in flight, and the addresses of all arenas so far.  `lost` is what was pinned and
charged for allocations that never got their object. -/
structure State where
  counter : Counter
  arenas : Table Addr Arena
  liveAllocs : Table AllocId Allocation
  lost : List Allocation
  singles : Table Ptr Nat
  pinned : Table Ptr Nat
  mutex : Option Thread
  threads : Table Thread Frame
  created : List Addr

/-- What a client or a thread does next. -/
inductive Event where
  | reserve (thread : Thread) (bytes : Nat)
  | allocateMultipleBlocks (thread : Thread) (bytes : Nat) (res : Option Addr)
  | deallocateMultipleBlocks (thread : Thread) (id : AllocId)
  | allocate (thread : Thread) (bytes : Nat)
  | deallocate (thread : Thread) (ptr : Ptr)
  /-- The destructor of a reservation. -/
  | destroy (thread : Thread) (arena : Addr)
  | growBy (arena : Addr) (n : Nat)
  | tick (thread : Thread) (spurious : Bool)
  /-- The arena is made at an address and registered. -/
  | register (thread : Thread) (arena : Addr)
  /-- `hipMallocHost` gives a pointer, or fails with the given error string. -/
  | hipMallocHost (thread : Thread) (result : Except String Ptr)
  /-- The allocation object is made at an address and registered. -/
  | construct (thread : Thread) (id : AllocId)
  /-- `make_unique`, `blocks_.reserve` or the entry throws. -/
  | throws (thread : Thread) (exception : StdException)
  | ret (thread : Thread)

namespace State

def initial : State :=
  { counter := { total := 0, peak := 0 }, arenas := Table.empty,
    liveAllocs := Table.empty, lost := [], singles := Table.empty, pinned := Table.empty,
    mutex := none, threads := Table.empty, created := [] }

def setFrame (s : State) (thread : Thread) (frame : Frame) : State :=
  { s with threads := s.threads.insert thread frame }

/-- `active_reservations_.find`, which only knows the address. -/
def findTracker (s : State) (addr : Addr) : Option (Arena × Int) :=
  match s.arenas.lookup addr with
  | none => none
  | some arena =>
      match arena.tracker with
      | none => none
      | some tracker => some (arena, tracker)

/-- The arena after its tracker was written. -/
def setTracker (s : State) (addr : Addr) (arena : Arena) (tracker : Int) :
    Table Addr Arena :=
  s.arenas.insert addr { arena with tracker := some tracker }

/-- `get_total_reserved_bytes`. -/
def totalReservedBytes (s : State) : Nat :=
  wrapSize (s.arenas.sum (fun _ arena =>
    match arena.tracker with
    | none => 0
    | some _ => arena.size))

/-!
# Starting a call
-/

def startReserve (s : State) (c : Config) (thread : Thread) (bytes : Nat) : State :=
  let rounded := alignUp bytes c.blockSize
  if c.memLimit ≠ 0 ∧ rounded > c.memLimit then
    s.setFrame thread (.done (.threw
      ("cuCascade: fixed_size_host_memory_resource: reservation size " ++
        toString rounded ++ " exceeds memory limit " ++ toString c.memLimit)))
  else s.setFrame thread (.charging (.reservation rounded) .start)

/-- `allocate_multiple_blocks` up to its lock; the client has the handle of `res`. -/
def startBlocks (s : State) (c : Config) (thread : Thread) (bytes : Nat)
    (res : Option Addr) : Option State :=
  if bytes = 0 then some (s.setFrame thread (.done (.blocks none)))
  else
    match res with
    | none =>
        some (s.setFrame thread (.locking (allocBytes bytes c.blockSize) none))
    | some addr =>
        match s.arenas.lookup addr with
        | none => none
        | some arena =>
            if arena.held then
              some (s.setFrame thread (.locking (allocBytes bytes c.blockSize)
                (some { addr := addr, rid := arena.rid })))
            else none

/-- `deallocate_multiple_blocks` up to the end of its locked section.  An empty
allocation has no entry. -/
def startDeallocBlocks (s : State) (thread : Thread) (id : AllocId) : State :=
  match s.liveAllocs.lookup id with
  | none => s.setFrame thread (.done .finished)
  | some alloc =>
      let taken := { s with liveAllocs := s.liveAllocs.erase id }
      match alloc.arena with
      | none => taken.setFrame thread (.freeing alloc.ptr alloc.bytes alloc.bytes)
      | some ref =>
          match s.findTracker ref.addr with
          | none => taken.setFrame thread (.freeing alloc.ptr alloc.bytes alloc.bytes)
          | some (arena, pre) =>
              { taken with
                arenas := s.setTracker ref.addr arena
                  (wrapInt (pre - toSigned alloc.bytes))
                threads := s.threads.insert thread (.freeing alloc.ptr alloc.bytes
                  (creditFor arena.size pre alloc.bytes)) }

def startSingle (s : State) (thread : Thread) (bytes : Nat) : State :=
  if bytes = 0 then s.setFrame thread (.done .null)
  else s.setFrame thread (.charging (.single bytes) .start)

/-- `~reservation` up to `do_release`; an arena without a tracker was released. -/
def startDestroy (s : State) (thread : Thread) (addr : Addr) (arena : Arena) : State :=
  match arena.tracker with
  | none =>
      { s with
        arenas := s.arenas.erase addr
        threads := s.threads.insert thread (.done .finished) }
  | some tracker =>
      { s with
        arenas := s.arenas.insert addr { arena with held := false, tracker := none }
        mutex := some thread
        threads := s.threads.insert thread
          (.crediting (.release addr (reclaimed arena.size tracker)) .load) }

/-!
# Going on
-/

/-- The tracker after `fetch_sub` in a rollback of `allocate_multiple_blocks`. -/
def rollBack (s : State) (request : Request) : Table Addr Arena :=
  match request.arena with
  | none => s.arenas
  | some ref =>
      match s.findTracker ref.addr with
      | none => s.arenas
      | some (arena, tracker) =>
          s.setTracker ref.addr arena (wrapInt (tracker - toSigned request.bytes))

/-- A failing `allocate_multiple_blocks` rolls the tracker back, unlocks and throws. -/
def failBlocks (s : State) (thread : Thread) (request : Request) (text : String) :
    State :=
  { s with
    arenas := s.rollBack request
    mutex := none
    threads := s.threads.insert thread (.done (.threw text)) }

/-- The beginning of the texts thrown for the limit. -/
def oomText (bytes : Nat) : String :=
  "cuCascade: fixed_size_host_memory_resource OOM: cannot allocate " ++
    toString bytes ++ " bytes "

/-- `do_reserve` has returned true. -/
def granted (s : State) (thread : Thread) : Charge -> State
  | .reservation bytes => s.setFrame thread (.registering bytes)
  | .blocks request => s.setFrame thread (.allocating request)
  | .single bytes => s.setFrame thread (.allocatingSingle bytes)

/-- `do_reserve` has returned false. -/
def refused (s : State) (c : Config) (thread : Thread) : Charge -> State
  | .reservation _ => s.setFrame thread (.done .null)
  | .blocks request =>
      s.failBlocks thread request
        (oomText request.bytes ++ "(upstream_tracked=" ++ toString request.charge ++
          ") within memory limit " ++ toString c.memLimit)
  | .single bytes =>
      s.setFrame thread (.done (.threw
        (oomText bytes ++ "within memory limit " ++ toString c.memLimit)))

def tickCharge (s : State) (c : Config) (thread : Thread) (charge : Charge)
    (pc : DoReserve) (spurious : Bool) : State :=
  match pc.step c.memLimit charge.bytes spurious s.counter with
  | .goesOn pc' counter =>
      { s with counter := counter }.setFrame thread (.charging charge pc')
  | .returned true counter => { s with counter := counter }.granted thread charge
  | .returned false counter => { s with counter := counter }.refused c thread charge

/-- `allocate_multiple_blocks` from its lock to `do_reserve`. -/
def tickLock (s : State) (thread : Thread) (bytes : Nat) : Option ArenaRef -> State
  | none =>
      { s with
        mutex := some thread
        threads := s.threads.insert thread
          (.charging (.blocks { bytes := bytes, arena := none, charge := bytes })
            .start) }
  | some ref =>
      match s.findTracker ref.addr with
      | none =>
          s.setFrame thread (.done (.threw
            ("cuCascade: fixed_size_host_memory_resource: " ++
              "reservation has been freed already")))
      | some (arena, pre) =>
          { s with
            arenas := s.setTracker ref.addr arena (wrapInt (pre + toSigned bytes))
            mutex := some thread
            threads := s.threads.insert thread
              (.charging (.blocks { bytes := bytes, arena := some ref,
                                    charge := chargeFor arena.size pre bytes })
                .start) }

/-- What follows `do_release`. -/
def credited (s : State) (thread : Thread) : Credit -> State
  | .deallocation _ => s.setFrame thread (.done .finished)
  | .blocks request text => s.failBlocks thread request text
  | .single _ text => s.setFrame thread (.done (.threw text))
  | .release addr _ =>
      { s with
        arenas := s.arenas.erase addr
        mutex := none
        threads := s.threads.insert thread (.done .finished) }

def setTotal (s : State) (total : Nat) : State :=
  { s with counter := { s.counter with total := total } }

def tickCredit (s : State) (thread : Thread) (credit : Credit) (loop : CasLoop)
    (spurious : Bool) : State :=
  match doReleaseStep credit.bytes spurious s.counter.total loop with
  | .again loop' => s.setFrame thread (.crediting credit loop')
  | .gaveUp => s.credited thread credit
  | .committed total => (s.setTotal total).credited thread credit

/-- `hipFreeHost`. -/
def hipFreeHost (s : State) (thread : Thread) (ptr : Ptr) (credit : Nat) : State :=
  { s with
    pinned := s.pinned.erase ptr
    threads := s.threads.insert thread (.crediting (.deallocation credit) .load) }

/-- The next step of a call that needs no choice from outside. -/
def tickFrame (s : State) (c : Config) (thread : Thread) (spurious : Bool) :
    Option State :=
  match s.threads.lookup thread with
  | some (.charging charge pc) => some (s.tickCharge c thread charge pc spurious)
  | some (.locking bytes arena) =>
      if s.mutex = none then some (s.tickLock thread bytes arena) else none
  | some (.freeing ptr _ credit) => some (s.hipFreeHost thread ptr credit)
  | some (.crediting credit loop) => some (s.tickCredit thread credit loop spurious)
  | _ => none

/-- The arena is made where no arena is, and its tracker starts at 0. -/
def registerArena (s : State) (thread : Thread) (addr : Addr) : Option State :=
  match s.threads.lookup thread, s.arenas.lookup addr, s.mutex with
  | some (.registering bytes), none, none =>
      some { s with
        arenas := s.arenas.insert addr
          { rid := s.created.length, size := bytes, charged := bytes, held := true,
            tracker := some 0 }
        threads := s.threads.insert thread (.done (.reservation addr))
        created := s.created ++ [addr] }
  | _, _, _ => none

def mallocText (name error : String) : String :=
  "cuCascade: hipMallocHost failed in fixed_size_host_memory_resource::" ++ name ++
    ": " ++ error

/-- `hipMallocHost` in either allocating function; a pointer given is not in use. -/
def tickMalloc (s : State) (thread : Thread) (result : Except String Ptr) :
    Option State :=
  match s.threads.lookup thread, result with
  | some (.allocating request), .error error =>
      some (s.setFrame thread (.crediting
        (.blocks request (mallocText "allocate_multiple_blocks" error)) .load))
  | some (.allocating request), .ok ptr =>
      match s.pinned.lookup ptr with
      | some _ => none
      | none =>
          some { s with
            pinned := s.pinned.insert ptr request.bytes
            threads := s.threads.insert thread (.constructing request ptr) }
  | some (.allocatingSingle bytes), .error error =>
      some (s.setFrame thread (.crediting
        (.single bytes (mallocText "allocate" error)) .load))
  | some (.allocatingSingle bytes), .ok ptr =>
      match s.pinned.lookup ptr with
      | some _ => none
      | none =>
          some { s with
            pinned := s.pinned.insert ptr bytes
            singles := s.singles.insert ptr bytes
            threads := s.threads.insert thread (.done (.single ptr)) }
  | _, _ => none

/-- The end of `allocate_multiple_blocks`. -/
def tickConstruct (s : State) (c : Config) (thread : Thread) (id : AllocId) :
    Option State :=
  match s.threads.lookup thread, s.liveAllocs.lookup id with
  | some (.constructing request ptr), none =>
      if request.bytes / c.blockSize ≤ maxBlocks then
        some { s with
          liveAllocs := s.liveAllocs.insert id
            { ptr := ptr, bytes := request.bytes, arena := request.arena }
          mutex := none
          threads := s.threads.insert thread (.done (.blocks (some id))) }
      else none
  | _, _ => none

/-- The other end of it: the heap is exhausted, or `blocks_.reserve` is asked for too many
blocks.  The mutex is given up; counter, tracker and pinned memory stay as they are. -/
def tickThrow (s : State) (c : Config) (thread : Thread) (exception : StdException) :
    Option State :=
  match s.threads.lookup thread with
  | some (.constructing request ptr) =>
      if exception = .badAlloc ∨ maxBlocks < request.bytes / c.blockSize then
        some { s with
          lost := { ptr := ptr, bytes := request.bytes, arena := request.arena } :: s.lost
          mutex := none
          threads := s.threads.insert thread (.done (.raised exception)) }
      else none
  | _ => none

end State

/-- One call, one step of a call in flight, or one return. -/
def step (c : Config) (s : State) : Event -> Option State
  | .reserve thread bytes =>
      if s.threads.lookup thread = none ∧ bytes ≤ sizeMax then
        some (s.startReserve c thread bytes)
      else none
  | .allocateMultipleBlocks thread bytes res =>
      if s.threads.lookup thread = none ∧ bytes ≤ sizeMax then
        s.startBlocks c thread bytes res
      else none
  | .deallocateMultipleBlocks thread id =>
      if s.threads.lookup thread = none ∧ s.mutex = none then
        some (s.startDeallocBlocks thread id)
      else none
  | .allocate thread bytes =>
      if s.threads.lookup thread = none ∧ bytes ≤ sizeMax then
        some (s.startSingle thread bytes)
      else none
  | .deallocate thread ptr =>
      match s.threads.lookup thread, s.singles.lookup ptr with
      | none, some bytes =>
          some { s with
            singles := s.singles.erase ptr
            threads := s.threads.insert thread (.freeing ptr bytes bytes) }
      | _, _ => none
  | .destroy thread addr =>
      match s.threads.lookup thread, s.arenas.lookup addr, s.mutex with
      | none, some arena, none =>
          if arena.held then some (s.startDestroy thread addr arena) else none
      | _, _, _ => none
  | .growBy addr n =>
      match s.arenas.lookup addr with
      | none => none
      | some arena =>
          if arena.held then
            some { s with
              arenas := s.arenas.insert addr
                { arena with size := Memory.growBy arena.size n } }
          else none
  | .tick thread spurious => s.tickFrame c thread spurious
  | .register thread addr => s.registerArena thread addr
  | .hipMallocHost thread result => s.tickMalloc thread result
  | .construct thread id => s.tickConstruct c thread id
  | .throws thread exception => s.tickThrow c thread exception
  | .ret thread =>
      match s.threads.lookup thread with
      | some (.done _) => some { s with threads := s.threads.erase thread }
      | _ => none

/-- Any number of threads over one host resource. -/
def hostMachine (c : Config) : Machine State Event where
  step := step c

end FixedSizeHost
end Memory
end Cuda2Rocm
