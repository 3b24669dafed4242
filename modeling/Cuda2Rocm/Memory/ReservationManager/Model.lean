import Mathlib.Logic.Function.Basic
import Cuda2Rocm.Memory.Space.Model

/-!
# Requesting a reservation

`memory_reservation_manager::request_reservation` makes two passes over its spaces.
The first looks for a matching space with room and reserves there; the second,
entered when the first found none or lost a race, asks one space again without
throwing.  Other threads reserve and release between its atomic steps.
-/

namespace Cuda2Rocm
namespace Memory
namespace ReservationManager

open Foundation

/-- `Tier`. -/
inductive Tier where
  | gpu
  | host
  | disk
  | size
deriving DecidableEq, Repr

/-- `memory_space_id`. -/
structure SpaceId where
  tier : Tier
  deviceId : Int
deriving DecidableEq, Repr

/-- `reservation_request_strategy`, by its `matches`; an override is handed the space
itself, so it may tell spaces of one id apart by their position. -/
structure Strategy where
  matchesSpace : Nat -> SpaceId -> Bool

namespace Strategy

def anyMemorySpaceInTierWithPreference (tier : Tier) (preferredDevice : Int) :
    Strategy where
  matchesSpace _ id :=
    if id.tier ≠ tier then false
    else decide (preferredDevice < 0 ∨ id.deviceId = preferredDevice)

def anyMemorySpaceInTier (tier : Tier) : Strategy where
  matchesSpace _ id := decide (id.tier = tier)

def anyMemorySpaceInTiers (tiers : List Tier) : Strategy where
  matchesSpace _ id := tiers.contains id.tier

def specificMemorySpace (wanted : SpaceId) : Strategy where
  matchesSpace _ id := decide (id = wanted)

def anyMemorySpaceToDowngrade : Strategy where
  matchesSpace _ id := decide (id.tier = .gpu)

def anyMemorySpaceToUpgrade : Strategy where
  matchesSpace _ id := decide (id.tier ≠ .gpu)

end Strategy

/-- The fields of a memory space that do not change during a call. -/
structure SpaceInfo where
  id : SpaceId
  max : Nat
deriving DecidableEq, Repr

/-- The manager's `all_spaces_` and the arguments of a call. -/
structure Request where
  spaces : List SpaceInfo
  strategy : Strategy
  bytes : Nat

namespace Request

variable (request : Request)

/-- There is a space at this position and the strategy matches it. -/
def matchesAt (i : Nat) : Bool :=
  match request.spaces[i]? with
  | none => false
  | some space => request.strategy.matchesSpace i space.id

/-- `get_max_memory` of the space at a position. -/
def maxOf (i : Nat) : Nat :=
  match request.spaces[i]? with
  | none => 0
  | some space => space.max

theorem lt_of_matchesAt {i : Nat} (h : request.matchesAt i = true) :
    i < request.spaces.length := by
  unfold matchesAt at h
  split at h
  · cases h
  · rename_i space hspace
    exact (List.getElem?_eq_some_iff.mp hspace).choose

end Request

/-- How a call returns; a reservation knows its space and its size. -/
inductive Answer where
  | reservation (space : Nat) (size : Nat)
  | null
  | threw (text : String)
deriving DecidableEq, Repr

/-- Where the call stands.  `lost` is the space of the exception caught in the first
pass, if there was one. -/
inductive Pc where
  | check (i : Nat)
  | makeReservation (i : Nat) (loop : CasLoop)
  | scan (i : Nat) (lost : Option Nat)
  | makeReservationOrNull (i : Nat) (loop : CasLoop) (lost : Option Nat)
  | count (i : Nat)
  | returned (answer : Answer)
deriving DecidableEq, Repr

/-- The counters of the spaces, the call, and what the history of the call says. -/
structure State where
  reserved : Nat -> Nat
  activeReservations : Nat
  pc : Pc
  /-- Spaces found too full by a check of the call. -/
  seenFull : List Nat
  /-- The largest value each counter has had since the call began. -/
  peak : Nat -> Nat
  /-- Steps of the call, of other threads, and spurious failures so far. -/
  ticks : Nat
  others : Nat
  failures : Nat

/-- A step of the call, or a commit of another thread. -/
inductive Event where
  | tick (spurious : Bool)
  | otherReserve (i : Nat) (bytes : Nat)
  | otherRelease (i : Nat) (bytes : Nat)
deriving DecidableEq, Repr

namespace State

def setPc (s : State) (pc : Pc) : State := { s with pc := pc }

def markFull (s : State) (i : Nat) : State := { s with seenFull := i :: s.seenFull }

/-- A commit on the counter of one space. -/
def setReserved (s : State) (i value : Nat) : State :=
  { s with
    reserved := Function.update s.reserved i value
    peak := Function.update s.peak i (Nat.max (s.peak i) value) }

variable (request : Request) (s : State)

/-- The first pass at one space. -/
def tickCheck (i : Nat) : State :=
  if i < request.spaces.length then
    if request.matchesAt i then
      if Space.available (request.maxOf i) (s.reserved i) ≥ request.bytes then
        s.setPc (.makeReservation i .load)
      else (s.markFull i).setPc (.check (i + 1))
    else s.setPc (.check (i + 1))
  else s.setPc (.scan 0 none)

/-- One atomic step of `make_reservation`; its exception ends the first pass. -/
def tickMakeReservation (i : Nat) (loop : CasLoop) (spurious : Bool) : State :=
  match CasLoop.step (Space.reserveNext .throwing (request.maxOf i) request.bytes)
      spurious (s.reserved i) loop with
  | .again loop' => s.setPc (.makeReservation i loop')
  | .gaveUp => (s.markFull i).setPc (.scan 0 (some i))
  | .committed next => (s.setReserved i next).setPc (.count i)

/-- The second pass at one space. -/
def tickScan (i : Nat) (lost : Option Nat) : State :=
  if i < request.spaces.length then
    if request.matchesAt i then s.setPc (.makeReservationOrNull i .load lost)
    else s.setPc (.scan (i + 1) lost)
  else
    s.setPc (.returned
      (.threw "cuCascade: no memory space can satisfy reservation request"))

/-- One atomic step of `make_reservation_or_null`; its answer is returned as it is. -/
def tickMakeReservationOrNull (i : Nat) (loop : CasLoop) (lost : Option Nat)
    (spurious : Bool) : State :=
  match CasLoop.step (Space.reserveNext .orNull (request.maxOf i) request.bytes)
      spurious (s.reserved i) loop with
  | .again loop' => s.setPc (.makeReservationOrNull i loop' lost)
  | .gaveUp => (s.markFull i).setPc (.returned .null)
  | .committed next => (s.setReserved i next).setPc (.count i)

/-- The next step of the call, when it has not returned. -/
def tick (spurious : Bool) : Option State :=
  match s.pc with
  | .check i => some (s.tickCheck request i)
  | .makeReservation i loop => some (s.tickMakeReservation request i loop spurious)
  | .scan i lost => some (s.tickScan request i lost)
  | .makeReservationOrNull i loop lost =>
      some (s.tickMakeReservationOrNull request i loop lost spurious)
  | .count i =>
      some { s with
        activeReservations := wrapSize (s.activeReservations + 1)
        pc := .returned (.reservation i request.bytes) }
  | .returned _ => none

end State

/-- One event of the system around the call. -/
def step (request : Request) (s : State) (e : Event) : Option State :=
  match e with
  | .tick spurious =>
      match s.tick request spurious with
      | none => none
      | some t => some { t with
          ticks := t.ticks + 1
          failures := t.failures + (if spurious then 1 else 0) }
  | .otherReserve i bytes =>
      if bytes ≤ Space.available (request.maxOf i) (s.reserved i) then
        some { s.setReserved i (s.reserved i + bytes) with others := s.others + 1 }
      else none
  | .otherRelease i bytes =>
      if bytes ≤ s.reserved i then
        some { s.setReserved i (s.reserved i - bytes) with others := s.others + 1 }
      else none

def requestMachine (request : Request) : Machine State Event where
  step := step request

/-- The call has just begun, with these counters. -/
def start (reserved : Nat -> Nat) (activeReservations : Nat) : State :=
  { reserved := reserved
    activeReservations := activeReservations
    pc := .check 0
    seenFull := []
    peak := reserved
    ticks := 0
    others := 0
    failures := 0 }

/-!
# What a step of the call can do
-/

/-- The steps of the call with their guards and the states they lead to. -/
inductive Tick (request : Request) (spurious : Bool) (s : State) : State -> Prop where
  | found {i : Nat} (hpc : s.pc = .check i) (hmatch : request.matchesAt i = true) :
      Tick request spurious s (s.setPc (.makeReservation i .load))
  | short {i : Nat} (hpc : s.pc = .check i) (hlt : i < request.spaces.length)
      (hshort : Space.available (request.maxOf i) (s.reserved i) < request.bytes) :
      Tick request spurious s ((s.markFull i).setPc (.check (i + 1)))
  | skip {i : Nat} (hpc : s.pc = .check i) (hlt : i < request.spaces.length)
      (hskip : request.matchesAt i = false) :
      Tick request spurious s (s.setPc (.check (i + 1)))
  | searched {i : Nat} (hpc : s.pc = .check i) (hend : request.spaces.length ≤ i) :
      Tick request spurious s (s.setPc (.scan 0 none))
  | retry {i : Nat} {loop : CasLoop} (hpc : s.pc = .makeReservation i loop)
      (hwhy : loop = .load ∨
        exists cur, loop = .cas cur ∧ (s.reserved i ≠ cur ∨ spurious = true)) :
      Tick request spurious s (s.setPc (.makeReservation i (.cas (s.reserved i))))
  | lose {i cur : Nat} (hpc : s.pc = .makeReservation i (.cas cur))
      (hnone : Space.reserveNext .throwing (request.maxOf i) request.bytes cur = none) :
      Tick request spurious s ((s.markFull i).setPc (.scan 0 (some i)))
  | win {i next : Nat} (hpc : s.pc = .makeReservation i (.cas (s.reserved i)))
      (hnext : Space.reserveNext .throwing (request.maxOf i) request.bytes
        (s.reserved i) = some next) :
      Tick request spurious s ((s.setReserved i next).setPc (.count i))
  | scanFound {i : Nat} {lost : Option Nat} (hpc : s.pc = .scan i lost)
      (hmatch : request.matchesAt i = true) :
      Tick request spurious s (s.setPc (.makeReservationOrNull i .load lost))
  | scanSkip {i : Nat} {lost : Option Nat} (hpc : s.pc = .scan i lost)
      (hlt : i < request.spaces.length) (hskip : request.matchesAt i = false) :
      Tick request spurious s (s.setPc (.scan (i + 1) lost))
  | scanEnd {i : Nat} {lost : Option Nat} (hpc : s.pc = .scan i lost)
      (hend : request.spaces.length ≤ i) (text : String) :
      Tick request spurious s (s.setPc (.returned (.threw text)))
  | retryOrNull {i : Nat} {loop : CasLoop} {lost : Option Nat}
      (hpc : s.pc = .makeReservationOrNull i loop lost)
      (hwhy : loop = .load ∨
        exists cur, loop = .cas cur ∧ (s.reserved i ≠ cur ∨ spurious = true)) :
      Tick request spurious s
        (s.setPc (.makeReservationOrNull i (.cas (s.reserved i)) lost))
  | refuse {i cur : Nat} {lost : Option Nat}
      (hpc : s.pc = .makeReservationOrNull i (.cas cur) lost)
      (hnone : Space.reserveNext .orNull (request.maxOf i) request.bytes cur = none) :
      Tick request spurious s ((s.markFull i).setPc (.returned .null))
  | winOrNull {i next : Nat} {lost : Option Nat}
      (hpc : s.pc = .makeReservationOrNull i (.cas (s.reserved i)) lost)
      (hnext : Space.reserveNext .orNull (request.maxOf i) request.bytes
        (s.reserved i) = some next) :
      Tick request spurious s ((s.setReserved i next).setPc (.count i))
  | count {i : Nat} (hpc : s.pc = .count i) :
      Tick request spurious s
        { s with
          activeReservations := wrapSize (s.activeReservations + 1)
          pc := .returned (.reservation i request.bytes) }

section Inversion

variable {request : Request} {s t : State} {spurious : Bool} {i : Nat}

theorem tick_tickCheck (hpc : s.pc = .check i) :
    Tick request spurious s (s.tickCheck request i) := by
  unfold State.tickCheck
  split
  · rename_i hlt
    split
    · rename_i hmatch
      split
      · exact .found hpc hmatch
      · rename_i hshort
        exact .short hpc hlt (Nat.lt_of_not_le hshort)
    · rename_i hskip
      exact .skip hpc hlt (Bool.eq_false_of_not_eq_true hskip)
  · rename_i hend
    exact .searched hpc (Nat.le_of_not_lt hend)

theorem tick_tickMakeReservation {loop : CasLoop} (hpc : s.pc = .makeReservation i loop) :
    Tick request spurious s (s.tickMakeReservation request i loop spurious) := by
  unfold State.tickMakeReservation
  rcases loop.step_cases
      (Space.reserveNext .throwing (request.maxOf i) request.bytes) spurious
      (s.reserved i) with ⟨h, hwhy⟩ | ⟨cur, rfl, hnone, h⟩ | ⟨next, rfl, hnext, h⟩
  · rw [h]
    exact .retry hpc hwhy
  · rw [h]
    exact .lose hpc hnone
  · rw [h]
    exact .win hpc hnext

theorem tick_tickScan {lost : Option Nat} (hpc : s.pc = .scan i lost) :
    Tick request spurious s (s.tickScan request i lost) := by
  unfold State.tickScan
  split
  · rename_i hlt
    split
    · rename_i hmatch
      exact .scanFound hpc hmatch
    · rename_i hskip
      exact .scanSkip hpc hlt (Bool.eq_false_of_not_eq_true hskip)
  · rename_i hend
    exact .scanEnd hpc (Nat.le_of_not_lt hend) _

theorem tick_tickMakeReservationOrNull {loop : CasLoop} {lost : Option Nat}
    (hpc : s.pc = .makeReservationOrNull i loop lost) :
    Tick request spurious s
      (s.tickMakeReservationOrNull request i loop lost spurious) := by
  unfold State.tickMakeReservationOrNull
  rcases loop.step_cases
      (Space.reserveNext .orNull (request.maxOf i) request.bytes) spurious
      (s.reserved i) with ⟨h, hwhy⟩ | ⟨cur, rfl, hnone, h⟩ | ⟨next, rfl, hnext, h⟩
  · rw [h]
    exact .retryOrNull hpc hwhy
  · rw [h]
    exact .refuse hpc hnone
  · rw [h]
    exact .winOrNull hpc hnext

theorem tick_cases (h : s.tick request spurious = some t) : Tick request spurious s t := by
  unfold State.tick at h
  split at h
  · rename_i i hpc
    cases h
    exact tick_tickCheck hpc
  · rename_i i loop hpc
    cases h
    exact tick_tickMakeReservation hpc
  · rename_i i lost hpc
    cases h
    exact tick_tickScan hpc
  · rename_i i loop lost hpc
    cases h
    exact tick_tickMakeReservationOrNull hpc
  · rename_i i hpc
    cases h
    exact .count hpc
  · cases h

end Inversion

end ReservationManager
end Memory
end Cuda2Rocm
