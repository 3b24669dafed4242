import Mathlib.Logic.Function.Basic
import Cuda2Rocm.Foundation.Runs
import Cuda2Rocm.Foundation.Table
import Cuda2Rocm.Foundation.Words

/-!
# The resource adaptor

`reservation_aware_resource_adaptor` passes allocations on to an upstream resource,
falls back to managed and to pinned memory, and keeps a counter for each stream and
one for all.  Its tracker mutex guards every access to them, so a locked section is
one step; upstream calls happen between locked sections.
-/

namespace Cuda2Rocm
namespace Memory
namespace ResourceAdaptor

open Foundation

abbrev Stream := Nat

abbrev Ptr := Nat

abbrev Thread := Nat

/-- The functions that memory comes from, each with one that frees it. -/
inductive Source where
  /-- `upstream_.allocate`, freed by `upstream_.deallocate`. -/
  | upstream
  /-- `hipMallocManaged`, freed by `hipFree`. -/
  | managed
  /-- `hipMallocHost`, freed by `hipFreeHost`. -/
  | pinned
deriving DecidableEq, Repr

/-- The arguments of `allocate`, and of `deallocate` beside the pointer. -/
structure Call where
  stream : Stream
  bytes : Nat
  alignment : Nat
deriving DecidableEq, Repr

/-!
# The adaptor
-/

/-- `stream_state`; of an attached policy only its presence is kept. -/
structure StreamState where
  currentBytes : Nat
  peakBytes : Nat
  oomPolicy : Bool
deriving DecidableEq, Repr

/-- `stream_state` as the map default-constructs it. -/
def StreamState.fresh : StreamState :=
  { currentBytes := 0, peakBytes := 0, oomPolicy := false }

/-- `spilled_alloc`. -/
structure Spilled where
  bytes : Nat
  isUvm : Bool
deriving DecidableEq, Repr

/-- The fields of the adaptor behind its mutex. -/
structure Adaptor where
  totalAllocated : Nat
  streamTracker : Table Stream StreamState
  hostSpilled : Table Ptr Spilled

namespace Adaptor

def initial : Adaptor :=
  { totalAllocated := 0, streamTracker := Table.empty, hostSpilled := Table.empty }

/-- `stream_tracker_[stream]`, which inserts an absent stream. -/
def tracker (a : Adaptor) (stream : Stream) : StreamState :=
  (a.streamTracker.lookup stream).getD StreamState.fresh

/-- `clamped_sub`. -/
def clampedSub (cur bytes : Nat) : Nat :=
  if cur > bytes then cur - bytes else 0

/-- `charge_stream`, and the same statements at the three other places that charge. -/
def chargeStream (a : Adaptor) (stream : Stream) (bytes : Nat) : Adaptor :=
  let state := a.tracker stream
  let now := wrapSize (state.currentBytes + bytes)
  let peak := if now > state.peakBytes then now else state.peakBytes
  { a with
    streamTracker := a.streamTracker.insert stream
      { state with currentBytes := now, peakBytes := peak }
    totalAllocated := wrapSize (a.totalAllocated + bytes) }

/-- The credit of either path of `deallocate`. -/
def creditStream (a : Adaptor) (stream : Stream) (bytes : Nat) : Adaptor :=
  { a with
    streamTracker :=
      match a.streamTracker.lookup stream with
      | none => a.streamTracker
      | some state => a.streamTracker.insert stream
          { state with currentBytes := clampedSub state.currentBytes bytes }
    totalAllocated := clampedSub a.totalAllocated bytes }

/-- The locked read at the start of `allocate`. -/
def touch (a : Adaptor) (stream : Stream) : Adaptor :=
  { a with streamTracker := a.streamTracker.insert stream (a.tracker stream) }

/-- The entry a spill leaves in `host_spilled_`. -/
def spill (a : Adaptor) (ptr : Ptr) (bytes : Nat) (isUvm : Bool) : Adaptor :=
  { a with hostSpilled := a.hostSpilled.insert ptr { bytes := bytes, isUvm := isUvm } }

def unspill (a : Adaptor) (ptr : Ptr) : Adaptor :=
  { a with hostSpilled := a.hostSpilled.erase ptr }

/-- `attach_reservation_to_tracker`, as far as its policy goes. -/
def attach (a : Adaptor) (stream : Stream) (oomPolicy : Bool) : Adaptor :=
  { a with
    streamTracker := a.streamTracker.insert stream
      { a.tracker stream with oomPolicy := oomPolicy } }

/-- An out-of-memory policy is attached to the stream. -/
def hasPolicy (a : Adaptor) (stream : Stream) : Bool :=
  match a.streamTracker.lookup stream with
  | none => false
  | some state => state.oomPolicy

/-- `current_bytes` of a stream, 0 where there is no entry. -/
def currentOf (a : Adaptor) (stream : Stream) : Nat := (a.tracker stream).currentBytes

/-- `get_peak_allocated_bytes`. -/
def peakOf (a : Adaptor) (stream : Stream) : Nat :=
  match a.streamTracker.lookup stream with
  | none => 0
  | some state => state.peakBytes

end Adaptor

/-- The reservation limit refuses the request. -/
def exceedsLimit (reservationLimit current bytes : Nat) : Bool :=
  decide (reservationLimit ≠ 0 ∧
    (bytes > reservationLimit ∨ current > reservationLimit - bytes))

/-!
# The memory around it
-/

/-- Memory some source has handed to the adaptor and that was not freed since.
`owner` is the call that has not returned it yet. -/
structure Block where
  source : Source
  serial : Nat
  size : Nat
  alignment : Nat
  owner : Option Thread
deriving DecidableEq, Repr

/-- One call of a freeing function. -/
structure Free where
  serial : Nat
  freedBy : Source
  size : Nat
  alignment : Nat
deriving DecidableEq, Repr

/-- A pointer `allocate` has returned, until its memory is freed. -/
structure Grant where
  call : Call
  deallocating : Option Thread
deriving DecidableEq, Repr

/-- The memory of the sources, what was freed, and what clients were given. -/
structure World where
  heap : Table Ptr Block
  produced : List Source
  frees : List Free
  held : Table Ptr Grant

namespace World

def initial : World :=
  { heap := Table.empty, produced := [], frees := [], held := Table.empty }

/-- A source hands out memory at a pointer that is not in use. -/
def produce (w : World) (ptr : Ptr) (source : Source) (size alignment : Nat)
    (owner : Thread) : World :=
  { w with
    heap := w.heap.insert ptr
      { source := source, serial := w.produced.length, size := size,
        alignment := alignment, owner := some owner }
    produced := w.produced ++ [source] }

/-- The pointer goes to the client. -/
def handOut (w : World) (ptr : Ptr) (call : Call) : World :=
  match w.heap.lookup ptr with
  | none => w
  | some block =>
      { w with
        heap := w.heap.insert ptr { block with owner := none }
        held := w.held.insert ptr { call := call, deallocating := none } }

/-- A freeing function is called on the pointer. -/
def free (w : World) (ptr : Ptr) (freedBy : Source) (size alignment : Nat) : World :=
  match w.heap.lookup ptr with
  | none => w
  | some block =>
      { w with
        heap := w.heap.erase ptr
        held := w.held.erase ptr
        frees := w.frees ++
          [{ serial := block.serial, freedBy := freedBy, size := size,
             alignment := alignment }] }

end World

/-!
# Calls
-/

/-- The exceptions `allocate` can end in. -/
inductive Failure where
  | runtimeError (text : String)
  /-- The exception of the upstream resource, or one of a policy. -/
  | rethrown
deriving DecidableEq, Repr

inductive Outcome where
  | returned (ptr : Ptr)
  | threw (failure : Failure)
  | deallocated
deriving DecidableEq, Repr

/-- A thread inside `allocate` or `deallocate`, by what it does next. -/
inductive Frame where
  | check (call : Call)
  | limitExceeded (call : Call)
  | upstream (call : Call)
  | managed (call : Call)
  | chargeManaged (call : Call) (ptr : Ptr)
  | pinned (call : Call)
  | chargePinned (call : Call) (ptr : Ptr)
  | allTiersFailed (call : Call)
  | charge (call : Call) (ptr : Ptr)
  | deallocCheck (call : Call) (ptr : Ptr)
  | deallocUpstream (call : Call) (ptr : Ptr)
  | deallocCredit (call : Call)
  | done (outcome : Outcome)
deriving DecidableEq, Repr

/-- How an attached policy ends: with an exception, with null, or with a pointer its
retry function got it, for a size of its choice. -/
inductive PolicyResult where
  | threw
  | null
  | retried (ptr : Ptr) (size : Nat)
deriving DecidableEq, Repr

/-- The adaptor, the memory around it, the calls in flight, and the largest value
`current_bytes` of each stream has had. -/
structure State where
  adaptor : Adaptor
  world : World
  threads : Table Thread Frame
  highest : Stream -> Nat

/-- What a thread or the client does next. -/
inductive Event where
  | allocate (thread : Thread) (call : Call)
  | deallocate (thread : Thread) (ptr : Ptr)
  | attach (stream : Stream) (oomPolicy : Bool)
  /-- A locked section, or the unlocked `upstream_.deallocate`. -/
  | proceed (thread : Thread)
  /-- A source is asked for memory and gives a pointer or fails. -/
  | request (thread : Thread) (result : Option Ptr)
  /-- The locked section that hands the failure to the attached policy. -/
  | handleOom (thread : Thread) (result : PolicyResult)
  | ret (thread : Thread)
deriving DecidableEq, Repr

namespace State

def initial : State :=
  { adaptor := Adaptor.initial, world := World.initial, threads := Table.empty,
    highest := fun _ => 0 }

def setFrame (s : State) (thread : Thread) (frame : Frame) : State :=
  { s with threads := s.threads.insert thread frame }

/-- The locked check against the reservation limit. -/
def checkLimit (s : State) (reservationLimit : Nat) (thread : Thread) (call : Call) :
    State :=
  let touched := { s with adaptor := s.adaptor.touch call.stream }
  if exceedsLimit reservationLimit (s.adaptor.currentOf call.stream) call.bytes then
    touched.setFrame thread (.limitExceeded call)
  else touched.setFrame thread (.upstream call)

/-- A charge that ends `allocate`. -/
def finishAllocate (s : State) (thread : Thread) (call : Call) (ptr : Ptr) : State :=
  { s with
    adaptor := s.adaptor.chargeStream call.stream call.bytes
    world := s.world.handOut ptr call
    threads := s.threads.insert thread (.done (.returned ptr)) }

/-- A charge that ends `allocate` with spilled memory. -/
def finishSpill (s : State) (thread : Thread) (call : Call) (ptr : Ptr)
    (isUvm : Bool) : State :=
  { s with adaptor := s.adaptor.spill ptr call.bytes isUvm }.finishAllocate
    thread call ptr

/-- The first locked section of `deallocate`. -/
def deallocCheck (s : State) (thread : Thread) (call : Call) (ptr : Ptr) : State :=
  match s.adaptor.hostSpilled.lookup ptr with
  | some spilled =>
      { s with
        adaptor := (s.adaptor.unspill ptr).creditStream call.stream call.bytes
        world := s.world.free ptr (if spilled.isUvm then .managed else .pinned)
          call.bytes call.alignment
        threads := s.threads.insert thread (.done .deallocated) }
  | none => s.setFrame thread (.deallocUpstream call ptr)

/-- The last locked section of `deallocate`. -/
def deallocCredit (s : State) (thread : Thread) (call : Call) : State :=
  { s with
    adaptor := s.adaptor.creditStream call.stream call.bytes
    threads := s.threads.insert thread (.done .deallocated) }

/-- The locked section or upstream deallocation a frame stands before. -/
def tickSection (s : State) (reservationLimit : Nat) (thread : Thread) :
    Option State :=
  match s.threads.lookup thread with
  | some (.check call) => some (s.checkLimit reservationLimit thread call)
  | some (.chargeManaged call ptr) => some (s.finishSpill thread call ptr true)
  | some (.chargePinned call ptr) => some (s.finishSpill thread call ptr false)
  | some (.charge call ptr) => some (s.finishAllocate thread call ptr)
  | some (.deallocCheck call ptr) => some (s.deallocCheck thread call ptr)
  | some (.deallocUpstream call ptr) =>
      some { s with
        world := s.world.free ptr .upstream call.bytes call.alignment
        threads := s.threads.insert thread (.deallocCredit call) }
  | some (.deallocCredit call) => some (s.deallocCredit thread call)
  | _ => none

/-- Memory of a source comes into the hands of a call. -/
def take (s : State) (thread : Thread) (ptr : Ptr) (source : Source)
    (size alignment : Nat) (frame : Frame) : Option State :=
  match s.world.heap.lookup ptr with
  | some _ => none
  | none =>
      some { s with
        world := s.world.produce ptr source size alignment thread
        threads := s.threads.insert thread frame }

/-- A frame asks its source; a failure moves on to the next tier. -/
def tickObtain (s : State) (thread : Thread) (result : Option Ptr) : Option State :=
  match s.threads.lookup thread, result with
  | some (.upstream call), some ptr =>
      s.take thread ptr .upstream call.bytes call.alignment (.charge call ptr)
  | some (.upstream call), none => some (s.setFrame thread (.managed call))
  | some (.managed call), some ptr =>
      s.take thread ptr .managed call.bytes 0 (.chargeManaged call ptr)
  | some (.managed call), none => some (s.setFrame thread (.pinned call))
  | some (.pinned call), some ptr =>
      s.take thread ptr .pinned call.bytes 0 (.chargePinned call ptr)
  | some (.pinned call), none => some (s.setFrame thread (.allTiersFailed call))
  | _, _ => none

/-- The exception `allocate` ends in when nothing was recovered. -/
def limitFailure : Failure :=
  .runtimeError
    "cuCascade: reservation limit exceeded in reservation_aware_resource_adaptor::allocate"

/-- A policy is asked, when there is one; a pointer it recovers is charged, anything
else ends the call in the given exception or in the policy's own. -/
def askPolicy (s : State) (thread : Thread) (call : Call) (failure : Failure)
    (result : PolicyResult) : Option State :=
  if s.adaptor.hasPolicy call.stream then
    match result with
    | .threw => some (s.setFrame thread (.done (.threw .rethrown)))
    | .null => some (s.setFrame thread (.done (.threw failure)))
    | .retried ptr size =>
        s.take thread ptr .upstream size 0 (.charge call ptr)
  else some (s.setFrame thread (.done (.threw failure)))

def tickHandleOom (s : State) (thread : Thread) (result : PolicyResult) :
    Option State :=
  match s.threads.lookup thread with
  | some (.limitExceeded call) => s.askPolicy thread call limitFailure result
  | some (.allTiersFailed call) => s.askPolicy thread call .rethrown result
  | _ => none

/-- A client hands back a pointer it holds, with the arguments it got it for. -/
def startDeallocate (s : State) (thread : Thread) (ptr : Ptr) : Option State :=
  match s.threads.lookup thread, s.world.held.lookup ptr with
  | none, some grant =>
      match grant.deallocating with
      | some _ => none
      | none =>
          some { s with
            world := { s.world with
              held := s.world.held.insert ptr
                { grant with deallocating := some thread } }
            threads := s.threads.insert thread (.deallocCheck grant.call ptr) }
  | _, _ => none

/-- The step proper. -/
def advance (s : State) (reservationLimit : Nat) : Event -> Option State
  | .allocate thread call =>
      match s.threads.lookup thread with
      | some _ => none
      | none => some (s.setFrame thread (.check call))
  | .deallocate thread ptr => s.startDeallocate thread ptr
  | .attach stream oomPolicy =>
      some { s with adaptor := s.adaptor.attach stream oomPolicy }
  | .proceed thread => s.tickSection reservationLimit thread
  | .request thread result => s.tickObtain thread result
  | .handleOom thread result => s.tickHandleOom thread result
  | .ret thread =>
      match s.threads.lookup thread with
      | some (.done _) => some { s with threads := s.threads.erase thread }
      | _ => none

/-- The history takes in the counters after each step. -/
def observe (before after : State) : State :=
  { after with
    highest := fun stream =>
      Nat.max (before.highest stream) (after.adaptor.currentOf stream) }

end State

/-- Any number of threads over one adaptor. -/
def adaptorMachine (reservationLimit : Nat) : Machine State Event where
  step s e := (s.advance reservationLimit e).map (State.observe s)

end ResourceAdaptor
end Memory
end Cuda2Rocm
