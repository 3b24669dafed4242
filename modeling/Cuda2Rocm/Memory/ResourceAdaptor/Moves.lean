import Cuda2Rocm.Memory.ResourceAdaptor.Model

/-!
# What a step of the adaptor can do

Every invariant of the adaptor is proved by cases on the relation below, which lists the
enabled steps with their guards and the states they lead to.
-/

namespace Cuda2Rocm
namespace Memory
namespace ResourceAdaptor

open Foundation

/-- A step taken by a thread inside its call. -/
def Event.isBy (thread : Thread) : Event -> Bool
  | .proceed other => decide (other = thread)
  | .request other _ => decide (other = thread)
  | .handleOom other _ => decide (other = thread)
  | _ => false

/-- A call that gets no memory goes on to its next tier, or ends in an exception. -/
inductive Frame.Fails : Frame -> Frame -> Prop where
  | upstream (call : Call) : Fails (.upstream call) (.managed call)
  | managed (call : Call) : Fails (.managed call) (.pinned call)
  | pinned (call : Call) : Fails (.pinned call) (.allTiersFailed call)
  | limitExceeded (call : Call) (failure : Failure) :
      Fails (.limitExceeded call) (.done (.threw failure))
  | allTiersFailed (call : Call) (failure : Failure) :
      Fails (.allTiersFailed call) (.done (.threw failure))

/-- A call that gets memory, from a source or through an attached policy. -/
inductive Frame.Takes (a : Adaptor) (ptr : Ptr) : Source -> Frame -> Frame -> Prop where
  | upstream (call : Call) : Takes a ptr .upstream (.upstream call) (.charge call ptr)
  | managed (call : Call) : Takes a ptr .managed (.managed call) (.chargeManaged call ptr)
  | pinned (call : Call) : Takes a ptr .pinned (.pinned call) (.chargePinned call ptr)
  | limitExceeded (call : Call) (hpolicy : a.hasPolicy call.stream = true) :
      Takes a ptr .upstream (.limitExceeded call) (.charge call ptr)
  | allTiersFailed (call : Call) (hpolicy : a.hasPolicy call.stream = true) :
      Takes a ptr .upstream (.allTiersFailed call) (.charge call ptr)

inductive Move (reservationLimit : Nat) (s : State) : Event -> State -> Prop where
  | allocate {thread : Thread} {call : Call} (hidle : s.threads.lookup thread = none) :
      Move reservationLimit s (.allocate thread call) (s.setFrame thread (.check call))
  | deallocate {thread : Thread} {ptr : Ptr} {grant : Grant}
      (hidle : s.threads.lookup thread = none) (hheld : s.world.held.lookup ptr = some grant)
      (hfree : grant.deallocating = none) :
      Move reservationLimit s (.deallocate thread ptr)
        { s with
          world := { s.world with
            held := s.world.held.insert ptr { grant with deallocating := some thread } }
          threads := s.threads.insert thread (.deallocCheck grant.call ptr) }
  | attach {stream : Stream} {oomPolicy : Bool} :
      Move reservationLimit s (.attach stream oomPolicy)
        { s with adaptor := s.adaptor.attach stream oomPolicy }
  | refuse {thread : Thread} {call : Call}
      (hframe : s.threads.lookup thread = some (.check call)) :
      Move reservationLimit s (.proceed thread)
        { s with
          adaptor := s.adaptor.touch call.stream
          threads := s.threads.insert thread (.limitExceeded call) }
  | pass {thread : Thread} {call : Call}
      (hframe : s.threads.lookup thread = some (.check call))
      (hpasses : exceedsLimit reservationLimit (s.adaptor.currentOf call.stream) call.bytes =
        false) :
      Move reservationLimit s (.proceed thread)
        { s with
          adaptor := s.adaptor.touch call.stream
          threads := s.threads.insert thread (.upstream call) }
  | chargeManaged {thread : Thread} {call : Call} {ptr : Ptr}
      (hframe : s.threads.lookup thread = some (.chargeManaged call ptr)) :
      Move reservationLimit s (.proceed thread) (s.finishSpill thread call ptr true)
  | chargePinned {thread : Thread} {call : Call} {ptr : Ptr}
      (hframe : s.threads.lookup thread = some (.chargePinned call ptr)) :
      Move reservationLimit s (.proceed thread) (s.finishSpill thread call ptr false)
  | charge {thread : Thread} {call : Call} {ptr : Ptr}
      (hframe : s.threads.lookup thread = some (.charge call ptr)) :
      Move reservationLimit s (.proceed thread) (s.finishAllocate thread call ptr)
  | freeSpilled {thread : Thread} {call : Call} {ptr : Ptr} {spilled : Spilled}
      (hframe : s.threads.lookup thread = some (.deallocCheck call ptr))
      (hspilled : s.adaptor.hostSpilled.lookup ptr = some spilled) :
      Move reservationLimit s (.proceed thread)
        { s with
          adaptor := (s.adaptor.unspill ptr).creditStream call.stream call.bytes
          world := s.world.free ptr (if spilled.isUvm then .managed else .pinned)
            call.bytes call.alignment
          threads := s.threads.insert thread (.done .deallocated) }
  | passOn {thread : Thread} {call : Call} {ptr : Ptr}
      (hframe : s.threads.lookup thread = some (.deallocCheck call ptr))
      (hspilled : s.adaptor.hostSpilled.lookup ptr = none) :
      Move reservationLimit s (.proceed thread) (s.setFrame thread (.deallocUpstream call ptr))
  | freeUpstream {thread : Thread} {call : Call} {ptr : Ptr}
      (hframe : s.threads.lookup thread = some (.deallocUpstream call ptr)) :
      Move reservationLimit s (.proceed thread)
        { s with
          world := s.world.free ptr .upstream call.bytes call.alignment
          threads := s.threads.insert thread (.deallocCredit call) }
  | credit {thread : Thread} {call : Call}
      (hframe : s.threads.lookup thread = some (.deallocCredit call)) :
      Move reservationLimit s (.proceed thread) (s.deallocCredit thread call)
  | fail {e : Event} {thread : Thread} {old frame : Frame} (hby : e.isBy thread = true)
      (hframe : s.threads.lookup thread = some old) (hfails : old.Fails frame) :
      Move reservationLimit s e (s.setFrame thread frame)
  | take {e : Event} {thread : Thread} {ptr : Ptr} {source : Source} {size alignment : Nat}
      {old frame : Frame} (hby : e.isBy thread = true)
      (hframe : s.threads.lookup thread = some old)
      (htakes : Frame.Takes s.adaptor ptr source old frame)
      (hfresh : s.world.heap.lookup ptr = none) :
      Move reservationLimit s e
        { s with
          world := s.world.produce ptr source size alignment thread
          threads := s.threads.insert thread frame }
  | ret {thread : Thread} {outcome : Outcome}
      (hframe : s.threads.lookup thread = some (.done outcome)) :
      Move reservationLimit s (.ret thread) { s with threads := s.threads.erase thread }

section Inversion

variable {s t : State} {reservationLimit : Nat} {thread : Thread}

theorem move_checkLimit {call : Call}
    (hframe : s.threads.lookup thread = some (.check call)) :
    Move reservationLimit s (.proceed thread)
      (s.checkLimit reservationLimit thread call) := by
  unfold State.checkLimit
  split
  · exact .refuse hframe
  · rename_i hpasses
    exact .pass hframe (Bool.eq_false_of_not_eq_true hpasses)

theorem move_deallocCheck {call : Call} {ptr : Ptr}
    (hframe : s.threads.lookup thread = some (.deallocCheck call ptr)) :
    Move reservationLimit s (.proceed thread) (s.deallocCheck thread call ptr) := by
  unfold State.deallocCheck
  split
  · rename_i spilled hspilled
    exact .freeSpilled hframe hspilled
  · rename_i hspilled
    exact .passOn hframe hspilled

theorem move_tickSection (h : s.tickSection reservationLimit thread = some t) :
    Move reservationLimit s (.proceed thread) t := by
  unfold State.tickSection at h
  split at h
  · rename_i call hframe
    cases h
    exact move_checkLimit hframe
  · rename_i call ptr hframe
    cases h
    exact .chargeManaged hframe
  · rename_i call ptr hframe
    cases h
    exact .chargePinned hframe
  · rename_i call ptr hframe
    cases h
    exact .charge hframe
  · rename_i call ptr hframe
    cases h
    exact move_deallocCheck hframe
  · rename_i call ptr hframe
    cases h
    exact .freeUpstream hframe
  · rename_i call hframe
    cases h
    exact .credit hframe
  · cases h

theorem move_take {e : Event} {ptr : Ptr} {source : Source} {size alignment : Nat}
    {old frame : Frame} (hby : e.isBy thread = true)
    (hframe : s.threads.lookup thread = some old)
    (htakes : Frame.Takes s.adaptor ptr source old frame)
    (h : s.take thread ptr source size alignment frame = some t) :
    Move reservationLimit s e t := by
  unfold State.take at h
  split at h
  · cases h
  · rename_i hfresh
    cases h
    exact .take hby hframe htakes hfresh

theorem move_tickObtain {result : Option Ptr} (h : s.tickObtain thread result = some t) :
    Move reservationLimit s (.request thread result) t := by
  have hby : forall result, (Event.request thread result).isBy thread = true :=
    fun _ => decide_eq_true rfl
  unfold State.tickObtain at h
  split at h
  · rename_i call ptr hframe
    exact move_take (hby _) hframe (.upstream call) h
  · rename_i call hframe
    cases h
    exact .fail (hby _) hframe (.upstream call)
  · rename_i call ptr hframe
    exact move_take (hby _) hframe (.managed call) h
  · rename_i call hframe
    cases h
    exact .fail (hby _) hframe (.managed call)
  · rename_i call ptr hframe
    exact move_take (hby _) hframe (.pinned call) h
  · rename_i call hframe
    cases h
    exact .fail (hby _) hframe (.pinned call)
  · cases h

/-- A policy that recovers no pointer leaves an exception. -/
theorem move_askPolicy {e : Event} {call : Call} {failure : Failure} {result : PolicyResult}
    {old : Frame} (hby : e.isBy thread = true)
    (hframe : s.threads.lookup thread = some old)
    (hfails : forall failure, old.Fails (.done (.threw failure)))
    (htakes : forall ptr, s.adaptor.hasPolicy call.stream = true ->
      Frame.Takes s.adaptor ptr .upstream old (.charge call ptr))
    (h : s.askPolicy thread call failure result = some t) : Move reservationLimit s e t := by
  unfold State.askPolicy at h
  split at h
  · rename_i hpolicy
    cases result with
    | threw =>
        cases h
        exact .fail hby hframe (hfails _)
    | null =>
        cases h
        exact .fail hby hframe (hfails _)
    | retried ptr size => exact move_take hby hframe (htakes ptr hpolicy) h
  · cases h
    exact .fail hby hframe (hfails _)

theorem move_tickHandleOom {result : PolicyResult}
    (h : s.tickHandleOom thread result = some t) :
    Move reservationLimit s (.handleOom thread result) t := by
  have hby : (Event.handleOom thread result).isBy thread = true := decide_eq_true rfl
  unfold State.tickHandleOom at h
  split at h
  · rename_i call hframe
    exact move_askPolicy hby hframe (.limitExceeded call)
      (fun _ hpolicy => .limitExceeded call hpolicy) h
  · rename_i call hframe
    exact move_askPolicy hby hframe (.allTiersFailed call)
      (fun _ hpolicy => .allTiersFailed call hpolicy) h
  · cases h

theorem advance_move {e : Event} (h : s.advance reservationLimit e = some t) :
    Move reservationLimit s e t := by
  cases e with
  | allocate thread call =>
      simp only [State.advance] at h
      split at h
      · cases h
      · rename_i hidle
        cases h
        exact .allocate hidle
  | deallocate thread ptr =>
      simp only [State.advance, State.startDeallocate] at h
      split at h
      · rename_i grant hidle hheld
        split at h
        · cases h
        · rename_i hfree
          cases h
          exact .deallocate hidle hheld hfree
      · cases h
  | attach stream oomPolicy =>
      cases h
      exact .attach
  | proceed thread => exact move_tickSection h
  | request thread result => exact move_tickObtain h
  | handleOom thread result => exact move_tickHandleOom h
  | ret thread =>
      simp only [State.advance] at h
      split at h
      · rename_i outcome hframe
        cases h
        exact .ret hframe
      · cases h

end Inversion

end ResourceAdaptor
end Memory
end Cuda2Rocm
