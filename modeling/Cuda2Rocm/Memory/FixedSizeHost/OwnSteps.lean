import Cuda2Rocm.Memory.FixedSizeHost.Shares

/-!
# The steps of one call

What one call has changed so far is what it has in flight: the counter by its charge,
a tracker by its request.  A call that throws an error of its own has nothing in flight
at its end.
-/

namespace Cuda2Rocm
namespace Memory
namespace FixedSizeHost

open Foundation

/-- The thread that takes a step; clients grow reservations outside of any call. -/
def Event.thread : Event -> Option Thread
  | .reserve thread _ => some thread
  | .allocateMultipleBlocks thread _ _ => some thread
  | .deallocateMultipleBlocks thread _ => some thread
  | .allocate thread _ => some thread
  | .deallocate thread _ => some thread
  | .destroy thread _ => some thread
  | .growBy _ _ => none
  | .tick thread _ => some thread
  | .register thread _ => some thread
  | .hipMallocHost thread _ => some thread
  | .construct thread _ => some thread
  | .throws thread _ => some thread
  | .ret thread => some thread

/-- The steps of one thread. -/
def Event.by (thread : Thread) (e : Event) : Bool := decide (e.thread = some thread)

theorem thread_of_calls {e : Event} {thread : Thread} (h : e.calls = some thread) :
    e.thread = some thread := by
  cases e <;> first | exact h | cases h

/-- What a thread has charged, or will credit. -/
def State.inFlightOf (s : State) (thread : Thread) : Nat :=
  match s.threads.lookup thread with
  | none => 0
  | some frame => frame.inFlight

/-- What a thread has added to the tracker at an address and may take back. -/
def State.pendingOf (s : State) (thread : Thread) (addr : Addr) : Nat :=
  match s.threads.lookup thread with
  | none => 0
  | some frame => frame.under (atAddr addr 0)

/-- `allocated_bytes` of the tracker at an address. -/
def State.trackerAt (s : State) (addr : Addr) : Int :=
  match s.findTracker addr with
  | none => 0
  | some found => found.2

section Steps

variable {c : Config} {s t : State} {e : Event} {thread : Thread}

/-- Steps of other threads leave a thread's frame alone. -/
theorem lookup_of_others (hmove : Move c s e t) (hother : e.thread ≠ some thread) :
    t.threads.lookup thread = s.threads.lookup thread := by
  have hinsert : forall actor frame, e.thread = some actor ->
      (s.threads.insert actor frame).lookup thread = s.threads.lookup thread := by
    intro actor frame hactor
    apply Table.lookup_insert_ne
    rintro rfl
    exact hother hactor
  cases hmove with
  | start hcalls hidle hfresh => exact hinsert _ _ (thread_of_calls hcalls)
  | grow harena => rfl
  | granted hframe hstep =>
      rename_i charge pc counter
      cases charge <;> exact hinsert _ _ rfl
  | refused hframe hstep =>
      rename_i charge pc counter
      cases charge <;> exact hinsert _ _ rfl
  | credited hframe =>
      rename_i credit loop
      cases credit <;> exact hinsert _ _ rfl
  | ret hframe =>
      apply Table.lookup_erase_ne
      rintro rfl
      exact hother rfl
  | _ => exact hinsert _ _ rfl

/-- What a thread inside a call can do. -/
theorem busy_step {frame : Frame}
    (hframe : s.threads.lookup thread = some frame) (hown : e.thread = some thread)
    (hstep : step c s e = some t) :
    (exists spurious, s.tickFrame c thread spurious = some t) ∨
    (exists addr, s.registerArena thread addr = some t) ∨
    (exists result, s.tickMalloc thread result = some t) ∨
    (exists id, s.tickConstruct c thread id = some t) ∨
    (exists exception, s.tickThrow c thread exception = some t) ∨ e = .ret thread := by
  have hbusy : s.threads.lookup thread ≠ none := by
    rw [hframe]
    exact Option.some_ne_none frame
  cases e with
  | growBy addr n => cases hown
  | tick actor spurious =>
      cases hown
      exact .inl ⟨spurious, hstep⟩
  | register actor addr =>
      cases hown
      exact .inr (.inl ⟨addr, hstep⟩)
  | hipMallocHost actor result =>
      cases hown
      exact .inr (.inr (.inl ⟨result, hstep⟩))
  | construct actor id =>
      cases hown
      exact .inr (.inr (.inr (.inl ⟨id, hstep⟩)))
  | throws actor exception =>
      cases hown
      exact .inr (.inr (.inr (.inr (.inl ⟨exception, hstep⟩))))
  | ret actor =>
      cases hown
      exact .inr (.inr (.inr (.inr (.inr rfl))))
  | reserve actor bytes =>
      cases hown
      simp only [step, hbusy, false_and, if_false] at hstep
      cases hstep
  | allocateMultipleBlocks actor bytes res =>
      cases hown
      simp only [step, hbusy, false_and, if_false] at hstep
      cases hstep
  | deallocateMultipleBlocks actor id =>
      cases hown
      simp only [step, hbusy, false_and, if_false] at hstep
      cases hstep
  | allocate actor bytes =>
      cases hown
      simp only [step, hbusy, false_and, if_false] at hstep
      cases hstep
  | deallocate actor ptr =>
      cases hown
      simp only [step, hframe] at hstep
      cases hstep
  | destroy actor addr =>
      cases hown
      simp only [step, hframe] at hstep
      cases hstep

/-- A step of a thread that changes just what the thread has in flight. -/
structure Settles (thread : Thread) (s t : State) : Prop where
  total : t.counter.total + s.inFlightOf thread = s.counter.total + t.inFlightOf thread
  trackers : forall addr, t.trackerAt addr + s.pendingOf thread addr =
    s.trackerAt addr + t.pendingOf thread addr
  live : t.liveAllocs = s.liveAllocs
  lost : t.lost = s.lost

theorem inFlightOf_eq {frame : Frame} (h : s.threads.lookup thread = some frame) :
    s.inFlightOf thread = frame.inFlight := by
  unfold State.inFlightOf
  rw [h]

theorem pendingOf_eq {frame : Frame} (h : s.threads.lookup thread = some frame)
    (addr : Addr) : s.pendingOf thread addr = frame.under (atAddr addr 0) := by
  unfold State.pendingOf
  rw [h]

theorem trackerAt_congr (h : t.arenas = s.arenas) (addr : Addr) :
    t.trackerAt addr = s.trackerAt addr := by
  unfold State.trackerAt State.findTracker
  rw [h]

/-- A step that only puts another frame in place. -/
theorem Settles.replace {frame : Frame} (hthreads : t.threads = s.threads.insert thread frame)
    (hlive : t.liveAllocs = s.liveAllocs) (hlost : t.lost = s.lost)
    (harenas : t.arenas = s.arenas)
    (htotal : t.counter.total + s.inFlightOf thread = s.counter.total + frame.inFlight)
    (hunder : forall addr, s.pendingOf thread addr = frame.under (atAddr addr 0)) :
    Settles thread s t := by
  have hlookup : t.threads.lookup thread = some frame := by
    rw [hthreads]
    exact Table.lookup_insert_self _ _ _
  refine ⟨?_, ?_, hlive, hlost⟩
  · rw [inFlightOf_eq hlookup]
    exact htotal
  · intro addr
    rw [pendingOf_eq hlookup, trackerAt_congr harenas, hunder]

end Steps

end FixedSizeHost
end Memory
end Cuda2Rocm
