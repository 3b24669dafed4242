import Cuda2Rocm.Memory.FixedSizeHost.Moves
import Cuda2Rocm.Memory.FixedSizeHost.Peak

/-!
# The peak of the host resource

A run of the host resource is, as far as the counter is concerned, a run of calls of
`do_reserve` and `do_release`; what else its threads do leaves the counter alone.  So the
peak of the resource tracks its total as well.
-/

namespace Cuda2Rocm
namespace Memory
namespace FixedSizeHost

open Foundation

/-- The call of `do_reserve` or `do_release` that a thread of the resource is in. -/
def Frame.counterCall : Frame -> Option CounterCall
  | .charging charge pc => some (.doReserve charge.bytes pc)
  | .crediting credit loop => some (.doRelease credit.bytes loop)
  | _ => none

/-- A state of the resource and one of its counter. -/
structure Follows (s : State) (a : CounterState) : Prop where
  counter : a.counter = s.counter
  calls : forall thread,
    a.calls.lookup thread = (s.threads.lookup thread).bind Frame.counterCall

namespace Follows

variable {s t : State} {a : CounterState} {thread : Thread} {frame : Frame}

/-- A thread goes on outside of the two functions. -/
theorem outside (h : Follows s a) (hcounter : t.counter = s.counter)
    (hthreads : t.threads = s.threads.insert thread frame)
    (hbefore : (s.threads.lookup thread).bind Frame.counterCall = none)
    (hafter : frame.counterCall = none) : Follows t a where
  counter := h.counter.trans hcounter.symm
  calls := by
    intro other
    rw [h.calls, hthreads, Table.lookup_insert]
    split
    · rename_i heq
      rw [heq, hbefore]
      exact hafter.symm
    · rfl

/-- A thread calls one of the two functions. -/
theorem enter (h : Follows s a) {call : CounterCall} (hcounter : t.counter = s.counter)
    (hthreads : t.threads = s.threads.insert thread frame)
    (hbefore : (s.threads.lookup thread).bind Frame.counterCall = none)
    (hafter : frame.counterCall = some call) :
    exists b, a.call thread call = some b ∧ Follows t b := by
  have hidle : a.calls.lookup thread = none := (h.calls thread).trans hbefore
  refine ⟨{ a with calls := a.calls.insert thread call }, ?_, ?_, ?_⟩
  · unfold CounterState.call
    rw [hidle]
  · exact h.counter.trans hcounter.symm
  · intro other
    rw [hthreads, Table.lookup_insert, Table.lookup_insert]
    split
    · exact hafter.symm
    · exact h.calls other

/-- A call is still the same after a step. -/
theorem goOn (h : Follows s a) {call : CounterCall} {counter : Counter}
    (hcounter : t.counter = counter)
    (hthreads : t.threads = s.threads.insert thread frame)
    (hafter : frame.counterCall = some call) :
    Follows t { counter := counter, calls := a.calls.insert thread call } where
  counter := hcounter.symm
  calls := by
    intro other
    rw [hthreads, Table.lookup_insert, Table.lookup_insert]
    split
    · exact hafter.symm
    · exact h.calls other

/-- A call has returned. -/
theorem leave (h : Follows s a) {counter : Counter} (hcounter : t.counter = counter)
    (hthreads : t.threads = s.threads.insert thread frame)
    (hafter : frame.counterCall = none) :
    Follows t { counter := counter, calls := a.calls.erase thread } where
  counter := hcounter.symm
  calls := by
    intro other
    rw [hthreads, Table.lookup_insert, Table.lookup_erase]
    split
    · exact hafter.symm
    · exact h.calls other

end Follows

/-!
# What follows a call
-/

section After

variable (s : State) (thread : Thread)

theorem threads_granted (charge : Charge) : exists frame,
    (s.granted thread charge).threads = s.threads.insert thread frame ∧
      frame.counterCall = none := by
  cases charge with
  | reservation bytes => exact ⟨_, rfl, rfl⟩
  | blocks request => exact ⟨_, rfl, rfl⟩
  | single bytes => exact ⟨_, rfl, rfl⟩

theorem counter_granted (charge : Charge) : (s.granted thread charge).counter = s.counter := by
  cases charge <;> rfl

theorem threads_refused (c : Config) (charge : Charge) : exists frame,
    (s.refused c thread charge).threads = s.threads.insert thread frame ∧
      frame.counterCall = none := by
  cases charge with
  | reservation bytes => exact ⟨_, rfl, rfl⟩
  | blocks request => exact ⟨_, rfl, rfl⟩
  | single bytes => exact ⟨_, rfl, rfl⟩

theorem counter_refused (c : Config) (charge : Charge) :
    (s.refused c thread charge).counter = s.counter := by
  cases charge <;> rfl

theorem threads_credited (credit : Credit) : exists frame,
    (s.credited thread credit).threads = s.threads.insert thread frame ∧
      frame.counterCall = none := by
  cases credit with
  | deallocation bytes => exact ⟨_, rfl, rfl⟩
  | blocks request text => exact ⟨_, rfl, rfl⟩
  | single bytes text => exact ⟨_, rfl, rfl⟩
  | release arena bytes => exact ⟨_, rfl, rfl⟩

theorem counter_credited (credit : Credit) :
    (s.credited thread credit).counter = s.counter := by
  cases credit <;> rfl

end After

/-!
# Steps
-/

section Steps

variable {c : Config} {s t : State} {a : CounterState} {thread : Thread}

theorem follows_tickCharge (h : Follows s a) {charge : Charge} {pc : DoReserve}
    (spurious : Bool) (hframe : s.threads.lookup thread = some (.charging charge pc)) :
    exists b, a.tick c.memLimit thread spurious = some b ∧
      Follows (s.tickCharge c thread charge pc spurious) b := by
  have hcall : a.calls.lookup thread = some (.doReserve charge.bytes pc) := by
    rw [h.calls, hframe]
    rfl
  unfold CounterState.tick State.tickCharge
  rw [hcall, h.counter]
  dsimp only
  generalize pc.step c.memLimit charge.bytes spurious s.counter = result
  cases result with
  | goesOn pc' counter => exact ⟨_, rfl, h.goOn rfl rfl rfl⟩
  | returned granted counter =>
      cases granted with
      | true =>
          rcases threads_granted { s with counter := counter } thread charge with
            ⟨frame, hthreads, hafter⟩
          exact ⟨_, rfl, h.leave (counter_granted _ thread charge) hthreads hafter⟩
      | false =>
          rcases threads_refused { s with counter := counter } thread c charge with
            ⟨frame, hthreads, hafter⟩
          exact ⟨_, rfl, h.leave (counter_refused _ thread c charge) hthreads hafter⟩

theorem follows_tickCredit (h : Follows s a) {credit : Credit} {loop : CasLoop}
    (spurious : Bool) (hframe : s.threads.lookup thread = some (.crediting credit loop)) :
    exists b, a.tick c.memLimit thread spurious = some b ∧
      Follows (s.tickCredit thread credit loop spurious) b := by
  have hcall : a.calls.lookup thread = some (.doRelease credit.bytes loop) := by
    rw [h.calls, hframe]
    rfl
  unfold CounterState.tick State.tickCredit
  rw [hcall, h.counter]
  dsimp only
  generalize doReleaseStep credit.bytes spurious s.counter.total loop = result
  cases result with
  | again loop' => exact ⟨_, rfl, h.goOn rfl rfl rfl⟩
  | gaveUp =>
      rcases threads_credited s thread credit with ⟨frame, hthreads, hafter⟩
      exact ⟨_, rfl, h.leave (counter_credited s thread credit) hthreads hafter⟩
  | committed total =>
      rcases threads_credited (s.setTotal total) thread credit with ⟨frame, hthreads, hafter⟩
      exact ⟨_, rfl, h.leave (counter_credited _ thread credit) hthreads hafter⟩

theorem follows_charging (h : Follows s a) {charge : Charge} {pc : DoReserve}
    {spurious : Bool} (hframe : s.threads.lookup thread = some (.charging charge pc))
    (hstep : step c s (.tick thread spurious) = some t) :
    exists e b, (counterMachine c.memLimit).step a e = some b ∧ Follows t b := by
  simp only [step, State.tickFrame, hframe] at hstep
  cases hstep
  exact ⟨.tick thread spurious, follows_tickCharge h spurious hframe⟩

theorem follows_crediting (h : Follows s a) {credit : Credit} {loop : CasLoop}
    {spurious : Bool} (hframe : s.threads.lookup thread = some (.crediting credit loop))
    (hstep : step c s (.tick thread spurious) = some t) :
    exists e b, (counterMachine c.memLimit).step a e = some b ∧ Follows t b := by
  simp only [step, State.tickFrame, hframe] at hstep
  cases hstep
  exact ⟨.tick thread spurious, follows_tickCredit h spurious hframe⟩

/-- Every step of the resource leaves the counter alone or is a step of it. -/
theorem follows_step {e : Event} (h : Follows s a) (hstep : step c s e = some t) :
    Follows t a ∨
      exists e' b, (counterMachine c.memLimit).step a e' = some b ∧ Follows t b := by
  have hidleCall : forall {thread : Thread}, s.threads.lookup thread = none ->
      (s.threads.lookup thread).bind Frame.counterCall = none := by
    intro thread hidle
    rw [hidle]
    rfl
  have hframeCall : forall {thread : Thread} {frame : Frame},
      s.threads.lookup thread = some frame -> frame.counterCall = none ->
      (s.threads.lookup thread).bind Frame.counterCall = none := by
    intro thread frame hframe hnone
    rw [hframe]
    exact hnone
  cases step_move hstep with
  | start _ hidle hfresh =>
      have hbefore := hidleCall hidle
      cases hfresh with
      | done outcome => exact Or.inl (h.outside rfl rfl hbefore rfl)
      | reservation bytes => exact Or.inr ⟨.doReserve _ _, h.enter rfl rfl hbefore rfl⟩
      | single bytes => exact Or.inr ⟨.doReserve _ _, h.enter rfl rfl hbefore rfl⟩
  | startLocking hidle _ _ => exact Or.inl (h.outside rfl rfl (hidleCall hidle) rfl)
  | take hidle _ _ _ => exact Or.inl (h.outside rfl rfl (hidleCall hidle) rfl)
  | takeTracked hidle _ _ _ _ => exact Or.inl (h.outside rfl rfl (hidleCall hidle) rfl)
  | takeSingle hidle _ => exact Or.inl (h.outside rfl rfl (hidleCall hidle) rfl)
  | destroyReleased hidle _ _ _ => exact Or.inl (h.outside rfl rfl (hidleCall hidle) rfl)
  | destroy hidle _ _ _ =>
      exact Or.inr ⟨.doRelease _ _, h.enter rfl rfl (hidleCall hidle) rfl⟩
  | grow _ => exact Or.inl ⟨h.counter, h.calls⟩
  | chargeOn hframe _ => exact Or.inr (follows_charging h hframe hstep)
  | granted hframe _ => exact Or.inr (follows_charging h hframe hstep)
  | refused hframe _ => exact Or.inr (follows_charging h hframe hstep)
  | lock hframe _ =>
      exact Or.inr ⟨.doReserve _ _, h.enter rfl rfl (hframeCall hframe rfl) rfl⟩
  | lockRefused hframe _ => exact Or.inl (h.outside rfl rfl (hframeCall hframe rfl) rfl)
  | lockTracked hframe _ _ =>
      exact Or.inr ⟨.doReserve _ _, h.enter rfl rfl (hframeCall hframe rfl) rfl⟩
  | freed hframe =>
      exact Or.inr ⟨.doRelease _ _, h.enter rfl rfl (hframeCall hframe rfl) rfl⟩
  | creditOn hframe => exact Or.inr (follows_crediting h hframe hstep)
  | credited hframe => exact Or.inr (follows_crediting h hframe hstep)
  | register hframe _ _ => exact Or.inl (h.outside rfl rfl (hframeCall hframe rfl) rfl)
  | mallocFailed hframe =>
      exact Or.inr ⟨.doRelease _ _, h.enter rfl rfl (hframeCall hframe rfl) rfl⟩
  | mallocSingleFailed hframe =>
      exact Or.inr ⟨.doRelease _ _, h.enter rfl rfl (hframeCall hframe rfl) rfl⟩
  | malloc hframe _ => exact Or.inl (h.outside rfl rfl (hframeCall hframe rfl) rfl)
  | mallocSingle hframe _ => exact Or.inl (h.outside rfl rfl (hframeCall hframe rfl) rfl)
  | construct hframe _ => exact Or.inl (h.outside rfl rfl (hframeCall hframe rfl) rfl)
  | throws _ hframe => exact Or.inl (h.outside rfl rfl (hframeCall hframe rfl) rfl)
  | ret hframe =>
      left
      constructor
      · exact h.counter
      · intro other
        rw [h.calls, Table.lookup_erase]
        split
        · rename_i heq
          rw [heq]
          exact hframeCall hframe rfl
        · rfl

end Steps

/-!
# Runs
-/

theorem follows_initial : Follows .initial .initial := ⟨rfl, fun _ => rfl⟩

/-- A run of the resource is one of its counter, with the same largest total. -/
theorem exists_counter_run {c : Config} {events : List Event} {s : State}
    (hrun : (hostMachine c).run .initial events = some s) :
    exists events' a, (counterMachine c.memLimit).run .initial events' = some a ∧
      Follows s a ∧ highestTotal c.memLimit events' =
        (hostMachine c).highest (fun u => u.counter.total) .initial events := by
  have hsame : forall u a, Follows u a -> u.counter.total = a.counter.total := by
    intro u a hfollows
    rw [hfollows.counter]
  exact Machine.exists_run_of_simulation hsame (fun u a e v hu huv => follows_step hu huv)
    follows_initial hrun

theorem resource_peak_never_decreases {c : Config} (events : List Event) :
    (hostMachine c).Throughout (fun u _ v => u.counter.peak ≤ v.counter.peak)
      .initial events := by
  have hstep : forall u e v, (exists a h, Follows u a ∧ a.Kept h) -> True ->
      (hostMachine c).step u e = some v ->
      (exists a h, Follows v a ∧ a.Kept h) ∧ u.counter.peak ≤ v.counter.peak := by
    intro u e v hu _ huv
    rcases hu with ⟨a, h, hfollows, hkept⟩
    rw [← hfollows.counter]
    rcases follows_step hfollows huv with hstays | ⟨e', b, hb, hmoves⟩
    · rw [← hstays.counter]
      exact ⟨⟨a, h, hstays, hkept⟩, Nat.le_refl _⟩
    · have hnext := peakStep hkept hb
      rw [← hmoves.counter]
      exact ⟨⟨b, _, hmoves, hnext.kept⟩, hnext.peak_le⟩
  exact Machine.throughout_of_invariant hstep ⟨_, _, follows_initial, kept_initial⟩
    (Machine.along_of_events (fun _ _ => trivial))

/-- The peak of the resource is not above the largest total so far, and not below the total
while no thread is in `do_reserve`. -/
theorem resource_peak_tracks_total {c : Config} {events : List Event} {s : State}
    (hrun : (hostMachine c).run .initial events = some s) :
    s.counter.peak ≤ (hostMachine c).highest (fun u => u.counter.total) .initial events ∧
      ((forall thread charge pc, s.threads.lookup thread ≠ some (.charging charge pc)) ->
        s.counter.total ≤ s.counter.peak) := by
  rcases exists_counter_run hrun with ⟨events', a, hcounter, hfollows, hhighest⟩
  have hkept := kept_run hcounter
  rw [← hhighest, ← hfollows.counter]
  refine ⟨hkept.peak_le, ?_⟩
  intro hidle
  apply hkept.total_le_peak
  intro thread bytes pc hcall
  rw [hfollows.calls] at hcall
  rcases Option.bind_eq_some_iff.mp hcall with ⟨frame, hframe, hframeCall⟩
  cases frame with
  | charging charge pc' => exact hidle thread charge pc' hframe
  | _ => cases hframeCall

end FixedSizeHost
end Memory
end Cuda2Rocm
