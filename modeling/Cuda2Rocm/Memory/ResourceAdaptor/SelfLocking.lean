import Cuda2Rocm.Foundation.Callbacks
import Cuda2Rocm.Memory.ResourceAdaptor.Tracker

/-!
# Policies that call back

`allocate` runs `handle_oom` of the attached policy in the critical section in which it
found the policy.  The handler gets a retry function, which takes no lock, and it may know
the adaptor, of which almost every public method begins with a critical section.
-/

namespace Cuda2Rocm
namespace Memory
namespace ResourceAdaptor
namespace SelfLocking

open Foundation

/-- The public methods. -/
inductive Method where
  | allocate (call : Call)
  | deallocate (call : Call) (ptr : Ptr)
  | getPeakAllocatedBytes (stream : Stream)
  | resetStreamReservation (stream : Stream)
  | defragment
  | attachReservationToTracker (stream : Stream) (oomPolicy : Bool)
  /-- The conversion to `device_async_resource_ref`. -/
  | toResourceRef
deriving DecidableEq, Repr

/-- What the methods other than `allocate` and `deallocate` return. -/
inductive Answer where
  | none
  | peak (bytes : Nat)
  | attached
  | upstreamRef
deriving DecidableEq, Repr

/-- A place in the code between two critical sections, or before the first one. -/
inductive Point where
  /-- In `allocate` or `deallocate`. -/
  | call (frame : Frame)
  | getPeak (stream : Stream)
  | reset (stream : Stream)
  | countSpilled
  | trim (spilled : Nat)
  | attach (stream : Stream) (oomPolicy : Bool)
  | answered (answer : Answer)
deriving DecidableEq, Repr

namespace Point

/-- A `lock_guard` on `tracker_mutex_` is what comes next. -/
def Locks : Point -> Prop
  | .call (.upstream _) => False
  | .call (.managed _) => False
  | .call (.pinned _) => False
  | .call (.deallocUpstream _ _) => False
  | .call (.done _) => False
  | .trim _ => False
  | .answered _ => False
  | _ => True

instance (p : Point) : Decidable p.Locks := by
  unfold Locks
  split <;> infer_instance

/-- Nothing comes next but the return. -/
def Quiet : Point -> Prop
  | .answered _ => True
  | _ => False

theorem not_locks_of_quiet {p : Point} (h : p.Quiet) : ¬ p.Locks := by
  cases p with
  | answered answer => exact id
  | call frame => exact absurd h id
  | getPeak stream => exact absurd h id
  | reset stream => exact absurd h id
  | countSpilled => exact absurd h id
  | trim spilled => exact absurd h id
  | attach stream oomPolicy => exact absurd h id

end Point

/-- Where a method begins. -/
def entry : Method -> Point
  | .allocate call => .call (.check call)
  | .deallocate call ptr => .call (.deallocCheck call ptr)
  | .getPeakAllocatedBytes stream => .getPeak stream
  | .resetStreamReservation stream => .reset stream
  | .defragment => .countSpilled
  | .attachReservationToTracker stream oomPolicy => .attach stream oomPolicy
  | .toResourceRef => .answered .upstreamRef

/-- Every method but the conversion begins with the lock. -/
theorem entry_locks_iff (method : Method) :
    (entry method).Locks <-> method ≠ .toResourceRef := by
  cases method <;> simp [entry, Point.Locks]

/-- The adaptor, its lock, and what every thread is about. -/
structure State where
  adaptor : Adaptor
  locked : Locked Point

/-- What `handle_oom` comes to: an exception, null, or a pointer. -/
inductive HandlerResult where
  | threw
  | null
  | pointer (ptr : Ptr)
deriving DecidableEq, Repr

/-- What a thread does next. -/
inductive Event where
  /-- A method is called, by the client or by the handler that the thread is in. -/
  | call (thread : Thread) (method : Method)
  /-- The thread tries to lock the mutex. -/
  | lock (thread : Thread)
  /-- A critical section runs to its end, or up to the call of a handler. -/
  | run (thread : Thread)
  /-- A call outside of critical sections, of the upstream resource or of HIP. -/
  | request (thread : Thread) (result : Option Ptr)
  /-- The handler calls its retry function, which goes to the upstream resource. -/
  | retry (thread : Thread) (result : Option Ptr)
  | handlerReturn (thread : Thread) (result : HandlerResult)
  | ret (thread : Thread)
deriving DecidableEq, Repr

/-- The exception that a path of recovery ends in without a pointer. -/
def failureAt : Frame -> Failure
  | .limitExceeded _ => State.limitFailure
  | _ => .rethrown

/-- The call whose handler runs in this section, when its stream has a policy. -/
def handlerCall (a : Adaptor) : Point -> Option Call
  | .call (.limitExceeded call) => if a.hasPolicy call.stream then some call else none
  | .call (.allTiersFailed call) => if a.hasPolicy call.stream then some call else none
  | _ => none

/-- A critical section that calls no handler: the adaptor after it, and what comes next. -/
def runSection (reservationLimit : Nat) (a : Adaptor) : Point -> Adaptor × Point
  | .call (.check call) =>
      (a.touch call.stream,
        if exceedsLimit reservationLimit (a.currentOf call.stream) call.bytes then
          .call (.limitExceeded call)
        else .call (.upstream call))
  | .call (.limitExceeded call) => (a, .call (.done (.threw (failureAt (.limitExceeded call)))))
  | .call (.allTiersFailed call) => (a, .call (.done (.threw (failureAt (.allTiersFailed call)))))
  | .call (.chargeManaged call ptr) =>
      ((a.spill ptr call.bytes true).chargeStream call.stream call.bytes,
        .call (.done (.returned ptr)))
  | .call (.chargePinned call ptr) =>
      ((a.spill ptr call.bytes false).chargeStream call.stream call.bytes,
        .call (.done (.returned ptr)))
  | .call (.charge call ptr) =>
      (a.chargeStream call.stream call.bytes, .call (.done (.returned ptr)))
  | .call (.deallocCheck call ptr) =>
      match a.hostSpilled.lookup ptr with
      | some _ =>
          ((a.unspill ptr).creditStream call.stream call.bytes, .call (.done .deallocated))
      | none => (a, .call (.deallocUpstream call ptr))
  | .call (.deallocCredit call) =>
      (a.creditStream call.stream call.bytes, .call (.done .deallocated))
  | .getPeak stream => (a, .answered (.peak (a.peakOf stream)))
  | .reset stream => (a.resetStream stream, .answered .none)
  | .countSpilled => (a, .trim a.hostSpilled.values.length)
  | .attach stream oomPolicy => (a.attach stream oomPolicy, .answered .attached)
  | p => (a, p)

/-- What comes after a call of the upstream resource or of HIP. -/
def afterRequest : Point -> Option Ptr -> Option Point
  | .call (.upstream call), some ptr => some (.call (.charge call ptr))
  | .call (.upstream call), none => some (.call (.managed call))
  | .call (.managed call), some ptr => some (.call (.chargeManaged call ptr))
  | .call (.managed call), none => some (.call (.pinned call))
  | .call (.pinned call), some ptr => some (.call (.chargePinned call ptr))
  | .call (.pinned call), none => some (.call (.allTiersFailed call))
  | .call (.deallocUpstream call _), _ => some (.call (.deallocCredit call))
  | .trim _, _ => some (.answered .none)
  | _, _ => none

/-- What comes after the handler that was called at this point. -/
def afterHandler (p : Point) (result : HandlerResult) : Option Point :=
  match p with
  | .call (.limitExceeded call) =>
      match result with
      | .threw => some (.call (.done (.threw .rethrown)))
      | .null => some (.call (.done (.threw (failureAt (.limitExceeded call)))))
      | .pointer ptr => some (.call (.charge call ptr))
  | .call (.allTiersFailed call) =>
      match result with
      | .threw => some (.call (.done (.threw .rethrown)))
      | .null => some (.call (.done (.threw (failureAt (.allTiersFailed call)))))
      | .pointer ptr => some (.call (.charge call ptr))
  | _ => none

/-- A method has come to its end. -/
def ended : Point -> Bool
  | .call (.done _) => true
  | .answered _ => true
  | _ => false

namespace State

/-- No thread is in the adaptor. -/
def idle (a : Adaptor) : State :=
  { adaptor := a, locked := { owner := none, activities := fun _ => [] } }

def setLocked (s : State) (thread : Thread) (owner : Option Thread)
    (stack : List (Activity Point)) : State :=
  { s with locked := s.locked.set thread owner stack }

/-- One step of a thread; an attempt to lock a mutex that is not free changes nothing. -/
def step (reservationLimit : Nat) (s : State) : Event -> Option State
  | .call thread method =>
      match s.locked.activities thread with
      | [] => some (s.setLocked thread s.locked.owner [.outside (entry method)])
      | .calling p :: rest =>
          some (s.setLocked thread s.locked.owner
            (.outside (entry method) :: .calling p :: rest))
      | _ => none
  | .lock thread =>
      match s.locked.activities thread with
      | .outside p :: rest =>
          if p.Locks then
            if s.locked.owner = none then
              some (s.setLocked thread (some thread) (.inside p :: rest))
            else some s
          else none
      | _ => none
  | .run thread =>
      match s.locked.activities thread with
      | .inside p :: rest =>
          match handlerCall s.adaptor p with
          | some _ => some (s.setLocked thread s.locked.owner (.calling p :: rest))
          | none =>
              some ({ s with adaptor := (runSection reservationLimit s.adaptor p).1 }.setLocked
                thread none
                (.outside (runSection reservationLimit s.adaptor p).2 :: rest))
      | _ => none
  | .request thread result =>
      match s.locked.activities thread with
      | .outside p :: rest =>
          match afterRequest p result with
          | some q => some (s.setLocked thread s.locked.owner (.outside q :: rest))
          | none => none
      | _ => none
  | .retry thread _ =>
      match s.locked.activities thread with
      | .calling _ :: _ => some s
      | _ => none
  | .handlerReturn thread result =>
      match s.locked.activities thread with
      | .calling p :: rest =>
          match afterHandler p result with
          | some q => some (s.setLocked thread none (.outside q :: rest))
          | none => none
      | _ => none
  | .ret thread =>
      match s.locked.activities thread with
      | .outside p :: rest =>
          if ended p then some (s.setLocked thread s.locked.owner rest) else none
      | _ => none

end State

/-- Any number of threads over one adaptor and its mutex. -/
def lockMachine (reservationLimit : Nat) : Machine State Event where
  step := State.step reservationLimit

/-!
# Steps as moves
-/

/-- The thread that takes the step. -/
def Event.thread : Event -> Thread
  | .call thread _ => thread
  | .lock thread => thread
  | .run thread => thread
  | .request thread _ => thread
  | .retry thread _ => thread
  | .handlerReturn thread _ => thread
  | .ret thread => thread

section Steps

variable {reservationLimit : Nat} {s t : State}

theorem not_locks_of_afterRequest {p q : Point} {result : Option Ptr}
    (h : afterRequest p result = some q) : ¬ p.Locks ∧ ¬ p.Quiet := by
  unfold afterRequest at h
  split at h <;> simp_all [Point.Locks, Point.Quiet]

theorem not_locks_of_ended {p : Point} (h : ended p = true) : ¬ p.Locks := by
  unfold ended at h
  split at h <;> simp_all [Point.Locks]

theorem step_move {e : Event} (h : s.step reservationLimit e = some t) :
    Locked.Move Point.Locks Point.Quiet e.thread s.locked t.locked := by
  cases e with
  | call thread method =>
      simp only [State.step] at h
      split at h
      · rename_i hstack
        cases h
        exact .enter _ hstack
      · rename_i p rest hstack
        cases h
        exact .callBack _ hstack
      · cases h
  | lock thread =>
      simp only [State.step] at h
      split at h
      · rename_i p rest hstack
        split at h
        · rename_i hlocks
          split at h
          · rename_i hfree
            cases h
            exact .acquire hstack hlocks hfree
          · cases h
            exact .stay
        · cases h
      · cases h
  | run thread =>
      simp only [State.step] at h
      split at h
      · rename_i p rest hstack
        split at h
        · cases h
          exact .call hstack
        · cases h
          exact .release _ hstack trivial
      · cases h
  | request thread result =>
      simp only [State.step] at h
      split at h
      · rename_i p rest hstack
        split at h
        · rename_i q hq
          cases h
          rcases not_locks_of_afterRequest hq with ⟨hlocks, hquiet⟩
          exact .advance q hstack hlocks hquiet
        · cases h
      · cases h
  | retry thread result =>
      simp only [State.step] at h
      split at h
      · cases h
        exact .stay
      · cases h
  | handlerReturn thread result =>
      simp only [State.step] at h
      split at h
      · rename_i p rest hstack
        split at h
        · cases h
          exact .release _ hstack trivial
        · cases h
      · cases h
  | ret thread =>
      simp only [State.step] at h
      split at h
      · rename_i p rest hstack
        split at h
        · rename_i hended
          cases h
          exact .leave hstack (not_locks_of_ended hended)
        · cases h
      · cases h

/-- A callback starts the method that it calls. -/
theorem step_callBack {e : Event} {p q : Point} {rest : List (Activity Point)}
    (h : s.step reservationLimit e = some t)
    (hbefore : s.locked.activities e.thread = .calling q :: rest)
    (hafter : t.locked.activities e.thread = .outside p :: .calling q :: rest) :
    exists method, e = .call e.thread method ∧ p = entry method := by
  cases e with
  | call thread method =>
      change s.locked.activities thread = _ at hbefore
      simp only [State.step, hbefore] at h
      cases h
      change (s.locked.set thread _ _).activities thread = _ at hafter
      rw [Locked.activities_set_self] at hafter
      cases hafter
      exact ⟨method, rfl, rfl⟩
  | lock thread =>
      change s.locked.activities thread = _ at hbefore
      simp only [State.step, hbefore] at h
      cases h
  | run thread =>
      change s.locked.activities thread = _ at hbefore
      simp only [State.step, hbefore] at h
      cases h
  | request thread result =>
      change s.locked.activities thread = _ at hbefore
      simp only [State.step, hbefore] at h
      cases h
  | retry thread result =>
      change s.locked.activities thread = _ at hbefore
      simp only [State.step, hbefore] at h
      cases h
      change s.locked.activities thread = _ at hafter
      rw [hbefore] at hafter
      cases hafter
  | handlerReturn thread result =>
      change s.locked.activities thread = _ at hbefore
      simp only [State.step, hbefore] at h
      split at h
      · cases h
        change (s.locked.set thread _ _).activities thread = _ at hafter
        rw [Locked.activities_set_self] at hafter
        have hlength := congrArg List.length (List.cons.inj hafter).2
        simp at hlength
      · cases h
  | ret thread =>
      change s.locked.activities thread = _ at hbefore
      simp only [State.step, hbefore] at h
      cases h

end Steps

/-!
# Policies that call no method that locks
-/

/-- The step does not try to lock a mutex that its thread has locked. -/
def NoSelfLock (s : State) (e : Event) : Prop :=
  forall thread, e = .lock thread -> s.locked.owner ≠ some thread

/-- A handler calls nothing of the adaptor but its conversion. -/
def CallsHarmlessly (s : State) (e : Event) : Prop :=
  forall thread method, e = .call thread method -> s.locked.activities thread ≠ [] ->
    method = .toResourceRef

theorem callsHarmlessly_call_iff {s : State} {thread : Thread} {method : Method} :
    ((s.locked.activities thread).isEmpty = true ∨ method = .toResourceRef) <->
      CallsHarmlessly s (.call thread method) := by
  rw [List.isEmpty_iff]
  constructor
  · intro h other method' heq hsome
    cases heq
    exact h.resolve_left hsome
  · intro h
    by_cases hnone : s.locked.activities thread = []
    · exact Or.inl hnone
    · exact Or.inr (h thread method rfl hnone)

instance (s : State) (e : Event) : Decidable (CallsHarmlessly s e) :=
  match e with
  | .call _ _ => decidable_of_iff _ callsHarmlessly_call_iff
  | .lock _ => isTrue (fun _ _ heq => Event.noConfusion heq)
  | .run _ => isTrue (fun _ _ heq => Event.noConfusion heq)
  | .request _ _ => isTrue (fun _ _ heq => Event.noConfusion heq)
  | .retry _ _ => isTrue (fun _ _ heq => Event.noConfusion heq)
  | .handlerReturn _ _ => isTrue (fun _ _ heq => Event.noConfusion heq)
  | .ret _ => isTrue (fun _ _ heq => Event.noConfusion heq)

theorem call_of_not_harmless {s : State} {e : Event} (h : ¬ CallsHarmlessly s e) :
    exists thread method, e = .call thread method ∧ s.locked.activities thread ≠ [] ∧
      method ≠ .toResourceRef := by
  unfold CallsHarmlessly at h
  push Not at h
  exact h

section Runs

variable {reservationLimit : Nat} {s t : State}

/-- The lock has at most one holder, and callbacks are harmless. -/
structure Quiet (s : State) : Prop where
  exclusive : s.locked.Exclusive
  calm : s.locked.Calm Point.Quiet

theorem exclusive_step {e : Event} (h : s.locked.Exclusive)
    (hstep : (lockMachine reservationLimit).step s e = some t) : t.locked.Exclusive :=
  h.move (step_move hstep)

theorem Quiet.step {e : Event} (h : Quiet s) (hok : CallsHarmlessly s e)
    (hstep : (lockMachine reservationLimit).step s e = some t) : Quiet t := by
  have hquiet : forall p : Point, p.Quiet -> ¬ p.Locks := fun _ => Point.not_locks_of_quiet
  refine ⟨exclusive_step h.exclusive hstep, h.calm.move hquiet (step_move hstep) ?_⟩
  intro p q rest hbefore hafter
  rcases step_callBack hstep hbefore hafter with ⟨method, he, rfl⟩
  have hsome : s.locked.activities e.thread ≠ [] := by
    rw [hbefore]
    exact List.cons_ne_nil _ _
  rw [hok _ _ he hsome]
  trivial

theorem Quiet.noSelfLock {e : Event} (h : Quiet s)
    (hstep : (lockMachine reservationLimit).step s e = some t) : NoSelfLock s e := by
  intro thread he
  subst he
  change s.step reservationLimit (.lock thread) = some t at hstep
  simp only [State.step] at hstep
  split at hstep
  · rename_i p rest hstack
    split at hstep
    · rename_i hlocks
      exact h.calm.owner_ne h.exclusive (fun _ => Point.not_locks_of_quiet) hstack hlocks
    · cases hstep
  · cases hstep

/-- A handler that calls another method is stuck before its lock. -/
theorem selfBlocked_of_call {thread : Thread} {method : Method}
    (hstep : (lockMachine reservationLimit).step s (.call thread method) = some t)
    (hsome : s.locked.activities thread ≠ []) (hmethod : method ≠ .toResourceRef) :
    t.locked.SelfBlocked Point.Locks thread := by
  change s.step reservationLimit (.call thread method) = some t at hstep
  simp only [State.step] at hstep
  split at hstep
  · rename_i hnone
    exact absurd hnone hsome
  · rename_i p rest hstack
    cases hstep
    refine ⟨entry method, .calling p :: rest, Locked.activities_set_self .., ?_, ?_⟩
    · exact (entry_locks_iff method).mpr hmethod
    · rw [Locked.holders_calling]
      exact Nat.succ_ne_zero _
  · cases hstep

/-- The next attempt of a thread that is stuck is one on its own lock. -/
theorem lock_of_selfBlocked {thread : Thread} (hexclusive : s.locked.Exclusive)
    (h : s.locked.SelfBlocked Point.Locks thread) :
    (lockMachine reservationLimit).step s (.lock thread) = some s ∧
      ¬ NoSelfLock s (.lock thread) := by
  have howner := h.owner hexclusive
  rcases h with ⟨p, rest, hstack, hlocks, -⟩
  constructor
  · change s.step reservationLimit (.lock thread) = some s
    simp [State.step, hstack, hlocks, howner]
  · exact fun hgood => hgood thread rfl howner

/--
No step of a run, and none that could follow it, tries to lock a mutex that its thread
has, exactly if the handlers have called nothing of the adaptor but its conversion, beside
their retry functions.
-/
theorem no_self_lock_iff (a : Adaptor) {events : List Event}
    (hrun : (lockMachine reservationLimit).run (State.idle a) events = some t) :
    ((lockMachine reservationLimit).Along NoSelfLock (State.idle a) events ∧
      forall e u, (lockMachine reservationLimit).step t e = some u -> NoSelfLock t e) <->
    (lockMachine reservationLimit).Along CallsHarmlessly (State.idle a) events := by
  have hexclusive : (State.idle a).locked.Exclusive := fun _ => rfl
  constructor
  · rintro ⟨_, hnext⟩
    by_contra hmissed
    have hkept : forall u e v, u.locked.Exclusive ->
        (lockMachine reservationLimit).step u e = some v -> v.locked.Exclusive :=
      fun _ _ _ h hstep => exclusive_step h hstep
    have hstuck : forall u e v, u.locked.Exclusive ->
        (exists thread, u.locked.SelfBlocked Point.Locks thread) ->
        (lockMachine reservationLimit).step u e = some v ->
        exists thread, v.locked.SelfBlocked Point.Locks thread := by
      rintro u e v hu ⟨thread, hthread⟩ hstep
      exact ⟨thread, hthread.move hu (step_move hstep)⟩
    have hfail : forall u e v, u.locked.Exclusive ->
        (lockMachine reservationLimit).step u e = some v -> ¬ CallsHarmlessly u e ->
        exists thread, v.locked.SelfBlocked Point.Locks thread := by
      intro u e v _ hstep hbad
      rcases call_of_not_harmless hbad with ⟨thread, method, rfl, hsome, hmethod⟩
      exact ⟨thread, selfBlocked_of_call hstep hsome hmethod⟩
    have hend := Machine.invariant_run_always hkept hexclusive hrun
    have hblocked := Machine.closed_of_not_along hkept hstuck hfail hexclusive hrun hmissed
    rcases hblocked with ⟨thread, hthread⟩
    rcases lock_of_selfBlocked hend hthread with ⟨hstep, hbad⟩
    exact hbad (hnext _ _ hstep)
  · intro hok
    have hquiet : Quiet (State.idle a) := by
      refine ⟨hexclusive, fun thread b rest hstack => ?_⟩
      cases hstack
    have hkept : forall u e v, Quiet u -> CallsHarmlessly u e ->
        (lockMachine reservationLimit).step u e = some v -> Quiet v :=
      fun _ _ _ h hcalls hstep => h.step hcalls hstep
    constructor
    · exact Machine.throughout_of_invariant
        (fun u e v h hcalls hstep => ⟨hkept u e v h hcalls hstep, h.noSelfLock hstep⟩)
        hquiet hok
    · intro e u hstep
      exact (Machine.invariant_run hkept hquiet hok hrun).noSelfLock hstep

end Runs

/-- 32 bytes on stream 1. -/
def call32 : Call := { stream := 1, bytes := 32, alignment := 0 }

/-- A policy is attached, an allocation exceeds a limit of 16 bytes, and the handler runs. -/
def toHandler : List Event :=
  [.call 7 (.attachReservationToTracker 1 true), .lock 7, .run 7, .ret 7,
    .call 7 (.allocate call32), .lock 7, .run 7, .lock 7, .run 7]

/-- The handler asks for the upstream resource, retries, and returns what it got. -/
def retries : List Event :=
  toHandler ++ [.call 7 .toResourceRef, .ret 7, .retry 7 (some 5),
    .handlerReturn 7 (.pointer 5), .lock 7, .run 7, .ret 7]

theorem no_self_lock_iff_retries : exists t,
    (lockMachine 16).run (State.idle Adaptor.initial) retries = some t ∧
      (((lockMachine 16).Along NoSelfLock (State.idle Adaptor.initial) retries ∧
          forall e u, (lockMachine 16).step t e = some u -> NoSelfLock t e) <->
        (lockMachine 16).Along CallsHarmlessly (State.idle Adaptor.initial) retries) :=
  ⟨_, rfl, no_self_lock_iff Adaptor.initial rfl⟩

/-- The handler defragments before it retries, and waits for the lock that its own
`allocate` has. -/
theorem defragment_locks_itself : exists t,
    (lockMachine 16).run (State.idle Adaptor.initial)
        (toHandler ++ [.call 7 .defragment]) = some t ∧
      (lockMachine 16).step t (.lock 7) = some t ∧ t.locked.owner = some 7 ∧
      ¬ NoSelfLock t (.lock 7) :=
  ⟨_, rfl, rfl, rfl, fun h => h 7 rfl rfl⟩

end SelfLocking
end ResourceAdaptor
end Memory
end Cuda2Rocm
