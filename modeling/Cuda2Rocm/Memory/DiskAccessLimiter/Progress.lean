import Cuda2Rocm.Foundation.Amortised
import Cuda2Rocm.Memory.DiskAccessLimiter

/-!
# Progress of the disk access limiter

The loops of `try_acquire` and `release` hold no lock.  A call is sent back by the commit of
another call or by an exchange that fails without a reason, so that all calls together take a
bounded number of steps, in whatever order they come.
-/

namespace Cuda2Rocm
namespace Memory
namespace DiskAccessLimiter

open Foundation

/-- The call has not returned yet. -/
def Call.inFlight : Call -> Bool
  | .acquiring _ => true
  | .releasing _ => true
  | .tried _ => false
  | .released => false

/-- The steps a call has left, and one more for each call that its own commit may send
back. -/
def Call.credit (bound current : Nat) : Call -> Nat
  | .acquiring loop => loop.left current + bound
  | .releasing loop => loop.left current + bound
  | .tried _ => 0
  | .released => 0

namespace State

/-- The calls that have not returned yet. -/
def unfinished (s : State) : Nat := s.calls.countP Call.inFlight

def credit (bound : Nat) (s : State) : Nat := (s.calls.map (Call.credit bound s.current)).sum

end State

/-- Calls made by an event. -/
def Event.made : Event -> Nat
  | .tryAcquire => 1
  | .release => 1
  | .tick _ _ => 0

/-- Atomic accesses of an event. -/
def Event.ticks : Event -> Nat
  | .tick _ _ => 1
  | _ => 0

/-- Exchanges that the event lets fail without a reason. -/
def Event.spurious : Event -> Nat
  | .tick _ spurious => spurious.toNat
  | _ => 0

/-!
# What a step costs
-/

theorem Call.credit_moved (bound current current' : Nat) (call : Call) :
    call.credit bound current' ≤ call.credit bound current + 1 := by
  cases call with
  | acquiring loop =>
      have h := loop.left_moved current current'
      simp only [Call.credit]
      omega
  | releasing loop =>
      have h := loop.left_moved current current'
      simp only [Call.credit]
      omega
  | tried acquired => exact Nat.zero_le 1
  | released => exact Nat.zero_le 1

/-- A call goes on by itself, or it returns and may send the others back. -/
theorem Call.step_credit {max bound current next : Nat} {spurious : Bool} {call after : Call}
    (h : call.step max spurious current = some (next, after)) :
    (next = current ∧
      1 + after.credit bound current ≤ call.credit bound current + spurious.toNat) ∨
    1 + after.credit bound current + bound ≤ call.credit bound current := by
  cases call with
  | acquiring loop =>
      have hpos := loop.left_pos current
      simp only [Call.step] at h
      split at h
      · rename_i loop' hagain
        cases h
        have hleft := CasLoop.left_again hagain
        left
        simp only [Call.credit, true_and]
        omega
      · cases h
        right
        simp only [Call.credit]
        omega
      · cases h
        right
        simp only [Call.credit]
        omega
  | releasing loop =>
      have hpos := loop.left_pos current
      simp only [Call.step] at h
      split at h
      · rename_i loop' hagain
        cases h
        have hleft := CasLoop.left_again hagain
        left
        simp only [Call.credit, true_and]
        omega
      · cases h
        right
        simp only [Call.credit]
        omega
      · cases h
        right
        simp only [Call.credit]
        omega
  | tried acquired => cases h
  | released => cases h

section Steps

variable {bound : Nat} {s t : State}

/-- A tick moves one call and the counter. -/
theorem tick_some {call : Nat} {spurious : Bool} (h : s.tick call spurious = some t) :
    exists before next after, s.calls[call]? = some before ∧
      before.step s.max spurious s.current = some (next, after) ∧
      t = { s with current := next, calls := s.calls.set call after } := by
  unfold State.tick at h
  split at h
  · cases h
  · rename_i before hbefore
    split at h
    · cases h
    · rename_i next after hstep
      cases h
      exact ⟨before, next, after, hbefore, hstep, rfl⟩

theorem credit_tick {call : Nat} {spurious : Bool} (hbound : s.calls.length ≤ bound)
    (h : s.tick call spurious = some t) :
    1 + t.credit bound ≤ s.credit bound + spurious.toNat := by
  rcases tick_some h with ⟨before, next, after, hbefore, hstep, rfl⟩
  unfold State.credit
  dsimp only
  rcases @Call.step_credit _ bound _ _ _ _ _ hstep with ⟨rfl, hpaid⟩ | hpaid
  · exact sum_map_set_le hbefore hbound (fun c => Nat.le_add_right _ 0) (by omega)
  · exact sum_map_set_le hbefore hbound (fun c => c.credit_moved bound s.current next)
      (by omega)

theorem credit_made (call : Call) (hfresh : call = .acquiring .load ∨ call = .releasing .load) :
    State.credit bound { s with calls := s.calls ++ [call] } = s.credit bound + (2 + bound) := by
  have hcall : call.credit bound s.current = 2 + bound := by
    rcases hfresh with rfl | rfl
    · rfl
    · rfl
  unfold State.credit
  dsimp only
  rw [List.map_append, List.sum_append, List.map_singleton, List.sum_singleton, hcall]

/-- Every step pays for itself out of the credit of the calls. -/
theorem credit_step {e : Event} (hbound : s.calls.length ≤ bound) (h : step s e = some t) :
    e.ticks + t.credit bound ≤
      s.credit bound + ((2 + bound) * e.made + 1 * e.spurious) := by
  cases e with
  | tryAcquire =>
      cases h
      rw [credit_made _ (Or.inl rfl)]
      simp [Event.ticks, Event.made, Event.spurious]
  | release =>
      cases h
      rw [credit_made _ (Or.inr rfl)]
      simp [Event.ticks, Event.made, Event.spurious]
  | tick call spurious =>
      have hpaid := credit_tick hbound h
      simp only [Event.ticks, Event.made, Event.spurious]
      omega

theorem length_step {e : Event} (h : step s e = some t) :
    t.calls.length = s.calls.length + e.made := by
  cases e with
  | tryAcquire =>
      cases h
      exact List.length_append
  | release =>
      cases h
      exact List.length_append
  | tick call spurious =>
      rcases tick_some h with ⟨before, next, after, _, _, rfl⟩
      exact List.length_set

/-- Each call that has not returned has credit left. -/
theorem unfinished_le_credit (bound : Nat) (s : State) : s.unfinished ≤ s.credit bound := by
  unfold State.unfinished State.credit
  induction s.calls with
  | nil => exact Nat.le_refl 0
  | cons call rest ih =>
      rw [List.countP_cons, List.map_cons, List.sum_cons]
      cases call with
      | acquiring loop =>
          have hpos := loop.left_pos s.current
          simp only [Call.inFlight, Call.credit, if_true]
          omega
      | releasing loop =>
          have hpos := loop.left_pos s.current
          simp only [Call.inFlight, Call.credit, if_true]
          omega
      | tried acquired => simpa [Call.inFlight, Call.credit] using ih
      | released => simpa [Call.inFlight, Call.credit] using ih

/-- Whoever is in flight can go on. -/
theorem exists_tick (h : s.unfinished ≠ 0) : exists call t, s.tick call false = some t := by
  rcases List.countP_pos_iff.mp (Nat.pos_of_ne_zero h) with ⟨before, hmem, hflight⟩
  rcases List.mem_iff_getElem?.mp hmem with ⟨call, hcall⟩
  exists call
  have hstep : exists result, before.step s.max false s.current = some result := by
    cases before with
    | acquiring loop =>
        simp only [Call.step]
        split
        · exact ⟨_, rfl⟩
        · exact ⟨_, rfl⟩
        · exact ⟨_, rfl⟩
    | releasing loop =>
        simp only [Call.step]
        split
        · exact ⟨_, rfl⟩
        · exact ⟨_, rfl⟩
        · exact ⟨_, rfl⟩
    | tried acquired => cases hflight
    | released => cases hflight
  rcases hstep with ⟨⟨next, after⟩, hstep⟩
  rw [State.tick, hcall]
  dsimp only
  rw [hstep]
  exact ⟨_, rfl⟩

end Steps

/-!
# Runs
-/

/-- The event is an access by a call in flight that does not fail without a reason. -/
def Event.Undisturbed (e : Event) : Prop := exists call, e = .tick call false

/-- What is promised of the calls of a run. -/
structure LockFree (events : List Event) (s : State) : Prop where
  bounded : total Event.ticks events + s.unfinished ≤
    (2 + s.calls.length) * s.calls.length + total Event.spurious events
  returns : exists later t, (forall e, e ∈ later -> e.Undisturbed) ∧
    limiterMachine.run s later = some t ∧ t.calls.length = s.calls.length ∧ t.unfinished = 0

theorem ticks_le {max : UInt64} {events : List Event} {s : State}
    (hrun : limiterMachine.run (State.initial max) events = some s) :
    total Event.ticks events + s.credit s.calls.length ≤
      (2 + s.calls.length) * s.calls.length + total Event.spurious events := by
  have hsize : forall (u : State) e v, limiterMachine.step u e = some v ->
      v.calls.length = u.calls.length + e.made := fun _ _ _ h => length_step h
  have hpay : forall bound (u : State) e v, u.calls.length ≤ bound ->
      limiterMachine.step u e = some v ->
      e.ticks + v.credit bound ≤
        u.credit bound + ((2 + bound) * e.made + 1 * e.spurious) :=
    fun _ _ _ _ hbound h => credit_step hbound h
  have hcalls : s.calls.length = total Event.made events := by
    rw [Machine.size_run hsize hrun]
    exact Nat.zero_add _
  have hpaid := Machine.total_cost_le_of_calls (fun u e v h => (hsize u e v h).le) hpay rfl
    (fun _ => rfl) hrun
  rw [← hcalls, Nat.one_mul] at hpaid
  exact hpaid

/-- Left to themselves, the calls in flight return. -/
theorem returns_from (s : State) : exists later t, (forall e, e ∈ later -> e.Undisturbed) ∧
    limiterMachine.run s later = some t ∧ t.calls.length = s.calls.length ∧
    t.unfinished = 0 := by
  have hmove : forall u : State, u.calls.length = s.calls.length -> u.unfinished ≠ 0 ->
      exists e v, Event.Undisturbed e ∧ limiterMachine.step u e = some v ∧
        v.calls.length = s.calls.length ∧ v.calls.length ≤ u.calls.length ∧
        forall bound, u.calls.length ≤ bound -> v.credit bound < u.credit bound := by
    intro u hu hflight
    rcases exists_tick hflight with ⟨call, v, hv⟩
    have hlength : v.calls.length = u.calls.length := @length_step u v (.tick call false) hv
    refine ⟨.tick call false, v, ⟨call, rfl⟩, hv, hlength.trans hu, hlength.le, ?_⟩
    intro bound hbound
    have hpaid := credit_tick hbound hv
    simp only [Bool.toNat_false] at hpaid
    omega
  exact Machine.exists_run_to_rest hmove rfl

/-- Calls on a limiter, made by any number of threads and interleaved in any way, take a
number of steps that is bounded by the number of calls, and none of them can be stuck. -/
theorem limiter_lock_free (max : UInt64) (events : List Event) (s : State)
    (hrun : limiterMachine.run (State.initial max) events = some s) : LockFree events s := by
  have hticks := ticks_le hrun
  have hunfinished := unfinished_le_credit s.calls.length s
  constructor
  · omega
  · exact returns_from s

/-- Two calls in each other's way: of three that come to exchange the same value one
commits, and the others have to come back. -/
def inTheWay : List Event :=
  [.tryAcquire, .tryAcquire, .tryAcquire, .tick 0 false, .tick 1 false, .tick 2 false,
    .tick 2 false, .tick 1 false, .tick 0 true, .tick 1 false, .tick 0 false]

theorem limiter_lock_free_inTheWay :
    exists s, limiterMachine.run (State.initial 2) inTheWay = some s ∧ s.unfinished = 1 ∧
      LockFree inTheWay s :=
  ⟨_, rfl, rfl, limiter_lock_free 2 inTheWay _ rfl⟩

end DiskAccessLimiter
end Memory
end Cuda2Rocm
