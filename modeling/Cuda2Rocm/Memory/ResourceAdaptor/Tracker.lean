import Cuda2Rocm.Memory.ResourceAdaptor.Runs

/-!
# Reservations and policies of a stream

`attach_reservation_to_tracker` leaves a reservation, a limit policy and an
out-of-memory policy in the entry of a stream.  The calls of the adaptor read the last
of the three; the other two are kept here, beside the adaptor.
-/

namespace Cuda2Rocm
namespace Memory
namespace ResourceAdaptor

open Foundation

abbrev ReservationId := Nat

/-- A `reservation` by the space that made it and the size of its arena. -/
structure Reservation where
  rid : ReservationId
  space : Nat
  size : Nat
deriving DecidableEq, Repr

/-- `reservation_limit_policy`, the three that come with it and any other. -/
inductive LimitPolicy where
  | ignoreLimit
  | failLimit
  | increaseLimit
  | other (canReserve : Nat -> Nat -> Bool)

/-- `can_reserve`, which only the failing one of the three overrides. -/
def LimitPolicy.canReserve (policy : LimitPolicy) (requested current : Nat) : Bool :=
  match policy with
  | .ignoreLimit => true
  | .failLimit => false
  | .increaseLimit => true
  | .other canReserve => canReserve requested current

def LimitPolicy.isFail : LimitPolicy -> Bool
  | .failLimit => true
  | _ => false

/-- The fields of `stream_state` that `attach_reservation_to_tracker` stores, less the
out-of-memory policy. -/
structure Attachment where
  reservation : Option Reservation
  limitPolicy : Option LimitPolicy

/-- `reset_stream_reservation`. -/
def Adaptor.resetStream (a : Adaptor) (stream : Stream) : Adaptor :=
  match a.streamTracker.lookup stream with
  | none => a
  | some state =>
      { a with
        streamTracker := a.streamTracker.insert stream
          { state with currentBytes := 0, peakBytes := 0 } }

namespace Tracker

/-- The adaptor with its attachments.  `refused` tells of which threads the attached
limit policy would have refused the call, as far as no out-of-memory policy has recovered
memory for it. -/
structure State where
  core : ResourceAdaptor.State
  attached : Table Stream Attachment
  refused : Thread -> Bool

inductive Event where
  /-- A step of `allocate` or `deallocate`. -/
  | call (e : ResourceAdaptor.Event)
  | attach (stream : Stream) (reservation : Option Reservation)
      (limitPolicy : Option LimitPolicy) (oomPolicy : Bool)
  | reset (stream : Stream)

namespace State

def initial : State :=
  { core := ResourceAdaptor.State.initial, attached := Table.empty,
    refused := fun _ => false }

/-- The reservation attached to a stream. -/
def reservationOf (s : State) (stream : Stream) : Option Reservation :=
  (s.attached.lookup stream).bind Attachment.reservation

def limitPolicyOf (s : State) (stream : Stream) : Option LimitPolicy :=
  (s.attached.lookup stream).bind Attachment.limitPolicy

/-- The limit policy attached to the stream together with a reservation answers no to
a call that goes beyond the size of the reservation. -/
def refuses (s : State) (call : Call) : Bool :=
  let current := s.core.adaptor.currentOf call.stream
  match s.reservationOf call.stream, s.limitPolicyOf call.stream with
  | some reservation, some policy =>
      decide (current + call.bytes > reservation.size) &&
        !policy.canReserve call.bytes current
  | _, _ => false

/-- A pointer that the attached out-of-memory policy gets by its retry. -/
def recovers (s : State) (thread : Thread) : PolicyResult -> Bool
  | .retried _ _ =>
      match s.core.threads.lookup thread with
      | some (.limitExceeded call) => s.core.adaptor.hasPolicy call.stream
      | some (.allTiersFailed call) => s.core.adaptor.hasPolicy call.stream
      | _ => false
  | _ => false

/-- What a step of a call tells about refusals. -/
def recordRefusal (s : State) : ResourceAdaptor.Event -> Thread -> Bool
  | .proceed thread =>
      match s.core.threads.lookup thread with
      | some (.check call) => Function.update s.refused thread (s.refuses call)
      | _ => s.refused
  | .handleOom thread result =>
      if s.recovers thread result then Function.update s.refused thread false
      else s.refused
  | _ => s.refused

end State

/-- A step of a call; attaching goes through its own event. -/
def stepCall (reservationLimit : Nat) (s : State) (e : ResourceAdaptor.Event) :
    Option State :=
  match e with
  | .attach _ _ => none
  | _ =>
      ((adaptorMachine reservationLimit).step s.core e).map
        (fun core => { s with core := core, refused := s.recordRefusal e })

/-- `attach_reservation_to_tracker`. -/
def attach (s : State) (stream : Stream) (reservation : Option Reservation)
    (limitPolicy : Option LimitPolicy) (oomPolicy : Bool) : State :=
  { s with
    core := ResourceAdaptor.State.observe s.core
      { s.core with adaptor := s.core.adaptor.attach stream oomPolicy }
    attached := s.attached.insert stream
      { reservation := reservation, limitPolicy := limitPolicy } }

def reset (s : State) (stream : Stream) : State :=
  { s with core := { s.core with adaptor := s.core.adaptor.resetStream stream } }

def step (reservationLimit : Nat) (s : State) : Event -> Option State
  | .call e => stepCall reservationLimit s e
  | .attach stream reservation limitPolicy oomPolicy =>
      some (attach s stream reservation limitPolicy oomPolicy)
  | .reset stream => some (reset s stream)

end Tracker

/-- Any number of threads over one adaptor, with what clients attach to its streams. -/
def trackerMachine (reservationLimit : Nat) : Machine Tracker.State Tracker.Event where
  step := Tracker.step reservationLimit

namespace Tracker

/-- A step of a call is one of the adaptor, which leaves the attachments alone. -/
theorem stepCall_cases {s t : State} {reservationLimit : Nat} {e : ResourceAdaptor.Event}
    (h : (trackerMachine reservationLimit).step s (.call e) = some t) :
    exists core, (forall stream oomPolicy, e ≠ .attach stream oomPolicy) ∧
      s.core.advance reservationLimit e = some core ∧
      t = { s with
        core := ResourceAdaptor.State.observe s.core core
        refused := s.recordRefusal e } := by
  change stepCall reservationLimit s e = some t at h
  unfold stepCall at h
  split at h
  · cases h
  · rename_i hattach
    rcases Option.map_eq_some_iff.mp h with ⟨_, hcore, rfl⟩
    rcases Option.map_eq_some_iff.mp hcore with ⟨core, hadvance, rfl⟩
    exact ⟨core, fun stream oomPolicy heq => hattach stream oomPolicy heq, hadvance, rfl⟩

end Tracker

end ResourceAdaptor
end Memory
end Cuda2Rocm
