import Cuda2Rocm.Memory.ResourceAdaptor.Tracker
import Cuda2Rocm.Memory.Space.Model

/-!
# Who owns a reservation

A reservation belongs to the client that made it, or to the entry of a stream it is
attached to.  Its destructor runs the release callback, which credits the space that it
came from.
-/

namespace Cuda2Rocm
namespace Memory
namespace ResourceAdaptor
namespace Ownership

open Foundation

/-- The counters of a `memory_space`. -/
structure Capacity where
  max : Nat
  reserved : Nat
deriving DecidableEq, Repr

/-- What has become of the reservations that were attached, by the calls alone. -/
structure History where
  /-- The reservation that the last attaching to a stream was given. -/
  last : Table Stream ReservationId
  attached : List ReservationId
  replaced : List ReservationId
  /-- Those whose stream has been reset since they were attached. -/
  reset : List ReservationId
  /-- Those destroyed by the client that held them. -/
  dropped : List ReservationId

namespace History

def initial : History :=
  { last := Table.empty, attached := [], replaced := [], reset := [], dropped := [] }

def attach (h : History) (stream : Stream) (rid : Option ReservationId) : History :=
  { h with
    last :=
      match rid with
      | none => h.last.erase stream
      | some rid => h.last.insert stream rid
    attached := h.attached ++ rid.toList
    replaced := h.replaced ++ (h.last.lookup stream).toList }

def resetStream (h : History) (stream : Stream) : History :=
  { h with reset := h.reset ++ (h.last.lookup stream).toList }

def drop (h : History) (rid : ReservationId) : History :=
  { h with dropped := h.dropped ++ [rid] }

end History

/-- The adaptor until it is destroyed, the spaces, all reservations made so far, those
that clients hold, and the release callbacks that have run. -/
structure State where
  adaptor : Option Tracker.State
  spaces : Nat -> Capacity
  made : Table ReservationId Reservation
  nextRid : ReservationId
  held : Table ReservationId Reservation
  releases : List ReservationId
  history : History

inductive Event where
  /-- A client asks a space for a reservation. -/
  | reserve (space : Nat) (flavor : Space.Flavor) (bytes : Nat)
  /-- A client destroys a reservation that it holds. -/
  | drop (rid : ReservationId)
  | call (e : ResourceAdaptor.Event)
  | attach (stream : Stream) (rid : Option ReservationId) (limitPolicy : Option LimitPolicy)
      (oomPolicy : Bool)
  | reset (stream : Stream)
  | destroy

namespace State

def initial (max : Nat -> UInt64) : State :=
  { adaptor := some Tracker.State.initial
    spaces := fun space => { max := (max space).toNat, reserved := 0 }
    made := Table.empty, nextRid := 0, held := Table.empty, releases := []
    history := History.initial }

/-- The reservation that the entry of a stream owns. -/
def attachedAt (s : State) (stream : Stream) : Option Reservation :=
  s.adaptor.bind (fun tracker => tracker.reservationOf stream)

/-- `release_reservation`, its loop in one step. -/
def credit (spaces : Nat -> Capacity) (r : Reservation) : Nat -> Capacity :=
  let capacity := spaces r.space
  Function.update spaces r.space
    { capacity with
      reserved := (Space.releaseNext r.size capacity.reserved).getD capacity.reserved }

/-- `~reservation`. -/
def release (s : State) (r : Reservation) : State :=
  { s with spaces := credit s.spaces r, releases := s.releases ++ [r.rid] }

def releaseAll (s : State) (reservations : List Reservation) : State :=
  reservations.foldl release s

/-- What a space grants is a reservation in the hands of the client. -/
def reserve (s : State) (space : Nat) (flavor : Space.Flavor) (bytes : Nat) : State :=
  let capacity := s.spaces space
  match flavor.amount capacity.max bytes capacity.reserved with
  | none => s
  | some granted =>
      let r := { rid := s.nextRid, space := space, size := granted }
      { s with
        spaces := Function.update s.spaces space
          { capacity with reserved := capacity.reserved + granted }
        made := s.made.insert s.nextRid r
        held := s.held.insert s.nextRid r
        nextRid := s.nextRid + 1 }

/-- The reservation goes from the client to the stream, and the one it replaces is
destroyed. -/
def attach (s : State) (tracker : Tracker.State) (stream : Stream) (r : Option Reservation)
    (limitPolicy : Option LimitPolicy) (oomPolicy : Bool) : State :=
  { s with
    adaptor := some (Tracker.attach tracker stream r limitPolicy oomPolicy)
    held := (r.map Reservation.rid).elim s.held s.held.erase
    history := s.history.attach stream (r.map Reservation.rid) }.releaseAll
      (tracker.reservationOf stream).toList

end State

/-- Reservations that the entries of the streams own. -/
def attachedReservations (tracker : Tracker.State) : List Reservation :=
  tracker.attached.values.filterMap Attachment.reservation

/-- The adaptor is only destroyed with no call inside it. -/
def step (reservationLimit : Nat) (s : State) : Event -> Option State
  | .reserve space flavor bytes => some (s.reserve space flavor bytes)
  | .drop rid =>
      match s.held.lookup rid with
      | none => none
      | some r =>
          some ({ s with
            held := s.held.erase rid
            history := s.history.drop rid }.release r)
  | .call e =>
      match s.adaptor with
      | none => none
      | some tracker =>
          (Tracker.stepCall reservationLimit tracker e).map
            (fun tracker => { s with adaptor := some tracker })
  | .attach stream rid limitPolicy oomPolicy =>
      match s.adaptor, rid with
      | none, _ => none
      | some tracker, none => some (s.attach tracker stream none limitPolicy oomPolicy)
      | some tracker, some rid =>
          match s.held.lookup rid with
          | none => none
          | some r => some (s.attach tracker stream (some r) limitPolicy oomPolicy)
  | .reset stream =>
      match s.adaptor with
      | none => none
      | some tracker =>
          some { s with
            adaptor := some (Tracker.reset tracker stream)
            history := s.history.resetStream stream }
  | .destroy =>
      match s.adaptor with
      | none => none
      | some tracker =>
          if tracker.core.threads.values.isEmpty then
            some ({ s with adaptor := none }.releaseAll (attachedReservations tracker))
          else none

/-- Clients, spaces and one adaptor. -/
def ownershipMachine (reservationLimit : Nat) : Machine State Event where
  step := step reservationLimit

/-!
# Reservations released on time
-/

/-- A reservation that a client holds. -/
def State.Held (s : State) (rid : ReservationId) : Prop :=
  (s.held.lookup rid).isSome = true

/-- Attached, and neither replaced nor reset since, to an adaptor that still exists. -/
def State.StillAttached (s : State) (rid : ReservationId) : Prop :=
  rid ∈ s.history.attached ∧ rid ∉ s.history.replaced ∧ rid ∉ s.history.reset ∧
    s.adaptor.isSome = true

instance (s : State) (rid : ReservationId) : Decidable (s.Held rid) := by
  unfold State.Held
  infer_instance

instance (s : State) (rid : ReservationId) : Decidable (s.StillAttached rid) := by
  unfold State.StillAttached
  infer_instance

/-- Attached reservations are released once and on time, and the counter of a space is
the sum of what is still attached or held. -/
structure ReleasedOnTime (s : State) : Prop where
  once : s.releases.Nodup
  released_iff : forall rid, rid ∈ s.releases <->
    rid ∈ s.history.dropped ∨ rid ∈ s.history.replaced ∨ rid ∈ s.history.reset ∨
      (rid ∈ s.history.attached ∧ s.adaptor = none)
  reserved_eq : forall space, (s.spaces space).reserved =
    s.made.sum (fun rid r =>
      if r.space = space ∧ (s.Held rid ∨ s.StillAttached rid) then r.size else 0)

/-- A stream is only reset while no reservation is attached to it. -/
def ResetsUnattached (s : State) : Event -> Prop
  | .reset stream => s.attachedAt stream = none
  | _ => True

end Ownership
end ResourceAdaptor
end Memory
end Cuda2Rocm
