import Cuda2Rocm.Foundation.Table
import Cuda2Rocm.Memory.ReservationManager.Model

/-!
# The life of a manager

Clients own the reservations they get from `request_reservation` and destroy them
when they like, also while `shutdown` runs and after the manager is gone.  The
destructor runs two nested callbacks: the space's own release, which then calls the
one of the manager.  A step below is one atomic access, or the clearing of the spaces.
-/

namespace Cuda2Rocm
namespace Memory
namespace ReservationManager

open Foundation

namespace Lifecycle

abbrev Thread := Nat

/-- The address of a reservation. -/
abbrev Addr := Nat

/-- A reservation owned by a client: its space, and what its callback captured. -/
structure Held where
  space : Nat
  bytes : Nat
deriving DecidableEq, Repr

/-- A thread inside a call, by what it does next. -/
inductive Frame where
  | requesting (request : Request) (pc : Pc)
  /-- `release_reservation` of the space, on behalf of a destructor. -/
  | releasing (space bytes : Nat) (loop : CasLoop)
  /-- The manager's callback before it loads the flag. -/
  | readingFlag
  /-- The manager's callback before its `fetch_sub`. -/
  | decrementing
  | storingFlag
  | clearing
  | storingZero
  | done

/-- The counters of the spaces and of the manager, what is still alive, the
reservations clients own, and the calls in flight.  The spaces are destroyed together,
so one flag says whether they are alive. -/
structure State where
  reserved : Nat -> Nat
  activeReservations : Nat
  shutdownFlag : Bool
  spacesAlive : Bool
  managerAlive : Bool
  live : Table Addr Held
  threads : Table Thread Frame

/-- What a client or a thread does next. -/
inductive Event where
  | request (thread : Thread) (strategy : Strategy) (bytes : Nat)
  /-- The destructor of a reservation. -/
  | destroy (thread : Thread) (addr : Addr)
  | shutdown (thread : Thread)
  /-- The destructor of the manager. -/
  | destroyManager
  | tick (thread : Thread) (spurious : Bool)
  /-- A call returns; a reservation is handed over at its address. -/
  | ret (thread : Thread) (addr : Addr)

namespace Frame

/-- Frames of `shutdown`. -/
def isShutdown : Frame -> Bool
  | storingFlag => true
  | clearing => true
  | storingZero => true
  | _ => false

def isRequest : Frame -> Bool
  | requesting _ _ => true
  | _ => false

def isReleasing : Frame -> Bool
  | releasing _ _ _ => true
  | _ => false

def isReadingFlag : Frame -> Bool
  | readingFlag => true
  | _ => false

def isDecrementing : Frame -> Bool
  | decrementing => true
  | _ => false

def isBusy : Frame -> Bool
  | done => false
  | _ => true

/-- Frames of a destructor that has not come to the end of its callbacks. -/
def isCallback (frame : Frame) : Bool :=
  frame.isReleasing || frame.isReadingFlag || frame.isDecrementing

/-- Frames whose reservation is in the manager's count. -/
def isCounted : Frame -> Bool
  | requesting _ (.returned (.reservation _ _)) => true
  | releasing _ _ _ => true
  | readingFlag => true
  | decrementing => true
  | _ => false

end Frame

namespace State

def initial : State :=
  { reserved := fun _ => 0, activeReservations := 0, shutdownFlag := false,
    spacesAlive := true, managerAlive := true, live := Table.empty,
    threads := Table.empty }

def setFrame (s : State) (thread : Thread) (frame : Frame) : State :=
  { s with threads := s.threads.insert thread frame }

/-- How many calls are at frames of a kind. -/
def callsIn (s : State) (kind : Frame -> Bool) : Nat :=
  s.threads.sum (fun _ frame => if kind frame then 1 else 0)

def liveCount (s : State) : Nat := s.live.sum (fun _ _ => 1)

/-- How many reservations the manager should count. -/
def counted (s : State) : Nat := s.liveCount + s.callsIn Frame.isCounted

/-- The spaces a request sees; `shutdown` empties the list. -/
def allSpaces (s : State) (spaces : List SpaceInfo) : List SpaceInfo :=
  if s.spacesAlive then spaces else []

/-- One step of a request, on the counters all calls share.  There are fewer
reservations than addresses. -/
def tickRequest (s : State) (thread : Thread) (request : Request) (pc : Pc)
    (spurious : Bool) : Option State :=
  if s.counted < sizeMax then
    match ({ start s.reserved s.activeReservations with pc := pc }).tick request
        spurious with
    | none => none
    | some u =>
        some { s with
          reserved := u.reserved
          activeReservations := u.activeReservations
          threads := s.threads.insert thread (.requesting request u.pc) }
  else none

/-- The next atomic step of the space's `release_reservation`. -/
def tickReleasing (s : State) (thread : Thread) (space bytes : Nat) (loop : CasLoop)
    (spurious : Bool) : State :=
  match CasLoop.step (Space.releaseNext bytes) spurious (s.reserved space) loop with
  | .again loop' => s.setFrame thread (.releasing space bytes loop')
  | .gaveUp => s.setFrame thread .readingFlag
  | .committed next =>
      { s with
        reserved := Function.update s.reserved space next
        threads := s.threads.insert thread .readingFlag }

def tickFrame (s : State) (thread : Thread) (spurious : Bool) : Option State :=
  match s.threads.lookup thread with
  | some (.requesting request pc) => s.tickRequest thread request pc spurious
  | some (.releasing space bytes loop) =>
      some (s.tickReleasing thread space bytes loop spurious)
  | some .readingFlag =>
      some (s.setFrame thread (if s.shutdownFlag then .done else .decrementing))
  | some .decrementing =>
      some { s with
        activeReservations := wrapSize (s.activeReservations + sizeMax)
        threads := s.threads.insert thread .done }
  | some .storingFlag =>
      some { s with
        shutdownFlag := true
        threads := s.threads.insert thread .clearing }
  | some .clearing =>
      some { s with
        spacesAlive := false
        threads := s.threads.insert thread .storingZero }
  | some .storingZero =>
      some { s with
        activeReservations := 0
        threads := s.threads.insert thread .done }
  | _ => none

/-- A call returns to its client. -/
def returnCall (s : State) (thread : Thread) (addr : Addr) : Option State :=
  match s.threads.lookup thread with
  | some .done => some { s with threads := s.threads.erase thread }
  | some (.requesting _ (.returned (.reservation space size))) =>
      match s.live.lookup addr with
      | some _ => none
      | none =>
          some { s with
            live := s.live.insert addr { space := space, bytes := size }
            threads := s.threads.erase thread }
  | some (.requesting _ (.returned _)) =>
      some { s with threads := s.threads.erase thread }
  | _ => none

end State

/-- One call, one step of a call in flight, or one return.  Requests and `shutdown` share
the vectors of spaces without a lock, so clients keep them apart, and the manager is
destroyed when neither is in flight. -/
def step (spaces : List SpaceInfo) (s : State) : Event -> Option State
  | .request thread strategy bytes =>
      if s.threads.lookup thread = none ∧ s.managerAlive ∧ bytes ≤ sizeMax ∧
          s.callsIn Frame.isShutdown = 0 then
        some (s.setFrame thread (.requesting
          { spaces := s.allSpaces spaces, strategy := strategy, bytes := bytes }
          (.check 0)))
      else none
  | .destroy thread addr =>
      match s.threads.lookup thread, s.live.lookup addr with
      | none, some held =>
          some { s with
            live := s.live.erase addr
            threads := s.threads.insert thread
              (.releasing held.space held.bytes .load) }
      | _, _ => none
  | .shutdown thread =>
      if s.threads.lookup thread = none ∧ s.managerAlive ∧
          s.callsIn Frame.isRequest = 0 ∧ s.callsIn Frame.isShutdown = 0 then
        some (s.setFrame thread .storingFlag)
      else none
  | .destroyManager =>
      if s.managerAlive ∧ s.callsIn Frame.isRequest = 0 ∧
          s.callsIn Frame.isShutdown = 0 then
        some { s with spacesAlive := false, managerAlive := false }
      else none
  | .tick thread spurious => s.tickFrame thread spurious
  | .ret thread addr => s.returnCall thread addr

/-- Any number of threads over one manager. -/
def lifecycleMachine (spaces : List SpaceInfo) : Machine State Event where
  step := step spaces

/-!
# What a step can do
-/

inductive Move (spaces : List SpaceInfo) (s : State) : Event -> State -> Prop where
  | request {thread : Thread} {strategy : Strategy} {bytes : Nat}
      (hidle : s.threads.lookup thread = none) (halive : s.managerAlive = true)
      (hshut : s.callsIn Frame.isShutdown = 0) :
      Move spaces s (.request thread strategy bytes)
        (s.setFrame thread (.requesting
          { spaces := s.allSpaces spaces, strategy := strategy, bytes := bytes }
          (.check 0)))
  | destroy {thread : Thread} {addr : Addr} {held : Held}
      (hidle : s.threads.lookup thread = none)
      (hlive : s.live.lookup addr = some held) :
      Move spaces s (.destroy thread addr)
        { s with
          live := s.live.erase addr
          threads := s.threads.insert thread (.releasing held.space held.bytes .load) }
  | shutdown {thread : Thread} (hidle : s.threads.lookup thread = none)
      (halive : s.managerAlive = true) (hrequest : s.callsIn Frame.isRequest = 0)
      (hshut : s.callsIn Frame.isShutdown = 0) :
      Move spaces s (.shutdown thread) (s.setFrame thread .storingFlag)
  | destroyManager (halive : s.managerAlive = true)
      (hrequest : s.callsIn Frame.isRequest = 0)
      (hshut : s.callsIn Frame.isShutdown = 0) :
      Move spaces s .destroyManager { s with spacesAlive := false, managerAlive := false }
  | search {thread : Thread} {spurious : Bool} {request : Request} {pc : Pc}
      {u : ReservationManager.State}
      (hframe : s.threads.lookup thread = some (.requesting request pc))
      (hroom : s.counted < sizeMax)
      (htick : ({ start s.reserved s.activeReservations with pc := pc }).tick request
        spurious = some u) :
      Move spaces s (.tick thread spurious)
        { s with
          reserved := u.reserved
          activeReservations := u.activeReservations
          threads := s.threads.insert thread (.requesting request u.pc) }
  | releasing {thread : Thread} {spurious : Bool} {space bytes : Nat}
      {loop loop' : CasLoop}
      (hframe : s.threads.lookup thread = some (.releasing space bytes loop)) :
      Move spaces s (.tick thread spurious)
        (s.setFrame thread (.releasing space bytes loop'))
  | released {thread : Thread} {spurious : Bool} {space bytes : Nat} {loop : CasLoop}
      {reserved : Nat -> Nat}
      (hframe : s.threads.lookup thread = some (.releasing space bytes loop)) :
      Move spaces s (.tick thread spurious)
        { s with
          reserved := reserved
          threads := s.threads.insert thread .readingFlag }
  | readSet {thread : Thread} {spurious : Bool}
      (hframe : s.threads.lookup thread = some .readingFlag)
      (hflag : s.shutdownFlag = true) :
      Move spaces s (.tick thread spurious) (s.setFrame thread .done)
  | readUnset {thread : Thread} {spurious : Bool}
      (hframe : s.threads.lookup thread = some .readingFlag)
      (hflag : s.shutdownFlag = false) :
      Move spaces s (.tick thread spurious) (s.setFrame thread .decrementing)
  | decrement {thread : Thread} {spurious : Bool}
      (hframe : s.threads.lookup thread = some .decrementing) :
      Move spaces s (.tick thread spurious)
        { s with
          activeReservations := wrapSize (s.activeReservations + sizeMax)
          threads := s.threads.insert thread .done }
  | storeFlag {thread : Thread} {spurious : Bool}
      (hframe : s.threads.lookup thread = some .storingFlag) :
      Move spaces s (.tick thread spurious)
        { s with
          shutdownFlag := true
          threads := s.threads.insert thread .clearing }
  | clear {thread : Thread} {spurious : Bool}
      (hframe : s.threads.lookup thread = some .clearing) :
      Move spaces s (.tick thread spurious)
        { s with
          spacesAlive := false
          threads := s.threads.insert thread .storingZero }
  | storeZero {thread : Thread} {spurious : Bool}
      (hframe : s.threads.lookup thread = some .storingZero) :
      Move spaces s (.tick thread spurious)
        { s with
          activeReservations := 0
          threads := s.threads.insert thread .done }
  | ret {thread : Thread} {addr : Addr} {frame : Frame}
      (hframe : s.threads.lookup thread = some frame)
      (hended : frame.isCounted = false ∧ frame.isShutdown = false) :
      Move spaces s (.ret thread addr) { s with threads := s.threads.erase thread }
  | handOver {thread : Thread} {addr : Addr} {request : Request} {space size : Nat}
      (hframe : s.threads.lookup thread =
        some (.requesting request (.returned (.reservation space size))))
      (hfree : s.live.lookup addr = none) :
      Move spaces s (.ret thread addr)
        { s with
          live := s.live.insert addr { space := space, bytes := size }
          threads := s.threads.erase thread }

section Inversion

variable {spaces : List SpaceInfo} {s t : State} {thread : Thread}

theorem move_tickFrame {spurious : Bool} (h : s.tickFrame thread spurious = some t) :
    Move spaces s (.tick thread spurious) t := by
  unfold State.tickFrame at h
  split at h
  · rename_i request pc hframe
    unfold State.tickRequest at h
    split at h
    · rename_i hroom
      split at h
      · cases h
      · rename_i u htick
        cases h
        exact .search hframe hroom htick
    · cases h
  · rename_i space bytes loop hframe
    cases h
    unfold State.tickReleasing
    split
    · exact .releasing hframe
    · exact .released hframe
    · exact .released hframe
  · rename_i hframe
    cases h
    split
    · rename_i hflag
      exact .readSet hframe hflag
    · rename_i hflag
      exact .readUnset hframe (by simpa using hflag)
  · rename_i hframe
    cases h
    exact .decrement hframe
  · rename_i hframe
    cases h
    exact .storeFlag hframe
  · rename_i hframe
    cases h
    exact .clear hframe
  · rename_i hframe
    cases h
    exact .storeZero hframe
  · cases h

theorem move_returnCall {addr : Addr} (h : s.returnCall thread addr = some t) :
    Move spaces s (.ret thread addr) t := by
  unfold State.returnCall at h
  split at h
  · rename_i hframe
    cases h
    exact .ret hframe ⟨rfl, rfl⟩
  · rename_i request space size hframe
    split at h
    · cases h
    · rename_i hfree
      cases h
      exact .handOver hframe hfree
  · rename_i request answer hnot hframe
    cases h
    refine .ret hframe ⟨?_, rfl⟩
    cases answer with
    | reservation space size => exact absurd rfl (hnot space size)
    | null => rfl
    | threw text => rfl
  · cases h

/-- Every enabled step is listed. -/
theorem step_move {e : Event} (h : step spaces s e = some t) : Move spaces s e t := by
  cases e with
  | request thread strategy bytes =>
      simp only [step] at h
      split at h
      · rename_i hguard
        cases h
        exact .request hguard.left hguard.right.left hguard.right.right.right
      · cases h
  | destroy thread addr =>
      simp only [step] at h
      split at h
      · rename_i held hidle hlive
        cases h
        exact .destroy hidle hlive
      · cases h
  | shutdown thread =>
      simp only [step] at h
      split at h
      · rename_i hguard
        cases h
        exact .shutdown hguard.left hguard.right.left hguard.right.right.left
          hguard.right.right.right
      · cases h
  | destroyManager =>
      simp only [step] at h
      split at h
      · rename_i hguard
        cases h
        exact .destroyManager hguard.left hguard.right.left hguard.right.right
      · cases h
  | tick thread spurious => exact move_tickFrame h
  | ret thread addr => exact move_returnCall h

end Inversion

end Lifecycle

end ReservationManager
end Memory
end Cuda2Rocm
