import Cuda2Rocm.Memory.Space.Resizing

/-!
# Progress of a memory space

No call on a space waits for another one.  A commit can send a reserving function back to
its load of the limit, and so can an exchange that fails without a reason; a changed limit
sends nobody back.
-/

namespace Cuda2Rocm
namespace Memory
namespace Space
namespace Resizing

open Foundation

/-- The accesses of a reserving function to its end where nothing gets in its way. -/
def Stage.left (cell : Nat) : Stage -> Nat
  | .loadReserved => 3
  | .loadMax cur => if cur = cell then 2 else 4
  | .exchange cur _ => if cur = cell then 1 else 3

/-- The call has not returned yet. -/
def Call.inFlight : Call -> Bool
  | .reserving _ _ _ => true
  | .releasing _ _ => true
  | .returned _ => false

/-- The accesses a call has left, and two more for each call that its own commit may send
back. -/
def Call.credit (bound cell : Nat) : Call -> Nat
  | .reserving _ _ stage => stage.left cell + 2 * bound
  | .releasing _ loop => loop.left cell + 2 * bound
  | .returned _ => 0

namespace State

/-- The calls that have not returned yet. -/
def unfinished (s : State) : Nat := s.calls.countP Call.inFlight

def credit (bound : Nat) (s : State) : Nat := (s.calls.map (Call.credit bound s.reserved)).sum

end State

/-- Calls made by an event. -/
def Event.made : Event -> Nat
  | .reserve _ _ => 1
  | .destroy _ => 1
  | _ => 0

/-- Atomic accesses of the calls in flight. -/
def Event.ticks : Event -> Nat
  | .tick _ _ => 1
  | _ => 0

/-- Exchanges that the event lets fail without a reason. -/
def Event.spurious : Event -> Nat
  | .tick _ spurious => spurious.toNat
  | _ => 0

/-!
# What a step costs
-/

theorem Stage.left_pos (cell : Nat) (stage : Stage) : 0 < stage.left cell := by
  cases stage with
  | loadReserved => exact Nat.succ_pos 2
  | loadMax cur =>
      simp only [Stage.left]
      split
      · exact Nat.succ_pos 1
      · exact Nat.succ_pos 3
  | exchange cur granted =>
      simp only [Stage.left]
      split
      · exact Nat.succ_pos 0
      · exact Nat.succ_pos 2

/-- A commit of another call costs two accesses at most. -/
theorem Stage.left_moved (cell cell' : Nat) (stage : Stage) :
    stage.left cell' ≤ stage.left cell + 2 := by
  cases stage with
  | loadReserved => exact Nat.le_add_right 3 2
  | loadMax cur =>
      simp only [Stage.left]
      split <;> split <;> omega
  | exchange cur granted =>
      simp only [Stage.left]
      split <;> split <;> omega

theorem Call.credit_moved (bound cell cell' : Nat) (call : Call) :
    call.credit bound cell' ≤ call.credit bound cell + 2 := by
  cases call with
  | reserving flavor bytes stage =>
      have h := stage.left_moved cell cell'
      simp only [Call.credit]
      omega
  | releasing bytes loop =>
      have h := loop.left_moved cell cell'
      simp only [Call.credit]
      omega
  | returned outcome => exact Nat.zero_le 2

section Steps

variable {bound : Nat} {s t : State}

/-- A call goes on, and the counter stays. -/
theorem credit_setCall {call spurious : Nat} {before after : Call}
    (hbound : s.calls.length ≤ bound) (hcall : s.calls[call]? = some before)
    (hpaid : 1 + after.credit bound s.reserved ≤
      before.credit bound s.reserved + 2 * spurious) :
    1 + (s.setCall call after).credit bound ≤ s.credit bound + 2 * spurious :=
  sum_map_set_le hcall hbound (fun _ => Nat.le_add_right _ 0) (by omega)

/-- A call returns, and the counter may have changed under all the others. -/
theorem credit_returned {call spurious : Nat} {before : Call} {outcome : Outcome}
    (hbound : s.calls.length ≤ bound) (hcall : s.calls[call]? = some before)
    (hpaid : 1 + 2 * bound ≤ before.credit bound s.reserved)
    (hcalls : t.calls = s.calls.set call (.returned outcome)) :
    1 + t.credit bound ≤ s.credit bound + 2 * spurious := by
  have hreturned : (Call.returned outcome).credit bound s.reserved = 0 := rfl
  unfold State.credit
  rw [hcalls]
  exact sum_map_set_le hcall hbound (fun c => c.credit_moved bound s.reserved t.reserved)
    (by omega)

theorem credit_reserving {call : Nat} {flavor : Flavor} {bytes : UInt64} {stage : Stage}
    (spurious : Bool) (hbound : s.calls.length ≤ bound)
    (hcall : s.calls[call]? = some (.reserving flavor bytes stage)) :
    1 + (s.tickReserving call flavor bytes stage spurious).credit bound ≤
      s.credit bound + 2 * spurious.toNat := by
  cases stage with
  | loadReserved =>
      apply credit_setCall hbound hcall
      simp only [Call.credit, Stage.left, if_true]
      omega
  | loadMax cur =>
      simp only [State.tickReserving]
      split
      · apply credit_returned hbound hcall
        · have hpos := (Stage.loadMax cur).left_pos s.reserved
          simp only [Call.credit]
          omega
        · rfl
      · apply credit_setCall hbound hcall
        simp only [Call.credit, Stage.left]
        split
        · omega
        · omega
  | exchange cur granted =>
      simp only [State.tickReserving]
      by_cases hsame : s.reserved = cur ∧ spurious = false
      · rw [if_pos hsame]
        apply credit_returned hbound hcall
        · have hpos := (Stage.exchange cur granted).left_pos s.reserved
          simp only [Call.credit]
          omega
        · rfl
      · rw [if_neg hsame]
        apply credit_setCall hbound hcall
        simp only [Call.credit, Stage.left, if_true]
        by_cases hcur : cur = s.reserved
        · -- the exchange could have succeeded
          have hspurious : spurious = true := by
            simpa [hcur] using hsame
          rw [if_pos hcur, hspurious, Bool.toNat_true]
          omega
        · rw [if_neg hcur]
          omega

theorem credit_releasing {call bytes : Nat} {loop : CasLoop} (spurious : Bool)
    (hbound : s.calls.length ≤ bound)
    (hcall : s.calls[call]? = some (.releasing bytes loop)) :
    1 + (s.tickReleasing call bytes loop spurious).credit bound ≤
      s.credit bound + 2 * spurious.toNat := by
  have hpos := loop.left_pos s.reserved
  have hreturns : 1 + 2 * bound ≤ (Call.releasing bytes loop).credit bound s.reserved := by
    simp only [Call.credit]
    omega
  unfold State.tickReleasing
  split
  · rename_i loop' hagain
    have hleft := CasLoop.left_again hagain
    apply credit_setCall hbound hcall
    simp only [Call.credit]
    omega
  · exact credit_returned hbound hcall hreturns rfl
  · exact credit_returned hbound hcall hreturns rfl

theorem credit_tick {call : Nat} {spurious : Bool} (hbound : s.calls.length ≤ bound)
    (h : step s (.tick call spurious) = some t) :
    1 + t.credit bound ≤ s.credit bound + 2 * spurious.toNat := by
  simp only [step] at h
  split at h
  · rename_i hcall
    cases h
    exact credit_reserving spurious hbound hcall
  · rename_i hcall
    cases h
    exact credit_releasing spurious hbound hcall
  · cases h

theorem credit_made {live : Table Nat Reserved} {call : Call}
    (hcall : call.credit bound s.reserved ≤ 3 + 2 * bound) :
    State.credit bound { s with live := live, calls := s.calls ++ [call] } ≤
      s.credit bound + (3 + 2 * bound) := by
  unfold State.credit
  dsimp only
  rw [List.map_append, List.sum_append, List.map_singleton, List.sum_singleton]
  omega

/-- Every step pays for itself out of the credit of the calls. -/
theorem credit_step {e : Event} (hbound : s.calls.length ≤ bound) (h : step s e = some t) :
    e.ticks + t.credit bound ≤
      s.credit bound + ((3 + 2 * bound) * e.made + 2 * e.spurious) := by
  cases e with
  | reserve flavor bytes =>
      cases h
      have hmade := @credit_made bound s s.live (.reserving flavor bytes .loadReserved)
        (Nat.le_refl _)
      simpa [Event.ticks, Event.made, Event.spurious] using hmade
  | destroy rid =>
      simp only [step] at h
      split at h
      · cases h
      · rename_i r _
        cases h
        have hcall : (Call.releasing r.captured .load).credit bound s.reserved ≤
            3 + 2 * bound := Nat.add_le_add_right (Nat.le_succ 2) _
        have hmade := @credit_made bound s (s.live.erase rid) _ hcall
        simpa [Event.ticks, Event.made, Event.spurious] using hmade
  | growBy rid n =>
      simp only [step] at h
      split at h
      · cases h
      · cases h
        exact (Nat.zero_add _).le
  | setMaxMemory bytes =>
      cases h
      exact (Nat.zero_add _).le
  | tick call spurious =>
      have hpaid := credit_tick hbound h
      simpa [Event.ticks, Event.made, Event.spurious] using hpaid

theorem length_step {e : Event} (h : step s e = some t) :
    t.calls.length = s.calls.length + e.made := by
  cases step_move h with
  | reserve flavor bytes => exact List.length_append
  | destroy _ => exact List.length_append
  | growBy _ => rfl
  | setMaxMemory bytes => rfl
  | loaded _ => exact List.length_set
  | refused _ _ => exact List.length_set
  | admitted _ _ => exact List.length_set
  | granted _ => exact List.length_set
  | failed _ _ => exact List.length_set
  | releasing _ =>
      unfold State.tickReleasing
      split
      · exact List.length_set
      · exact List.length_set
      · exact List.length_set

/-- Each call that has not returned has credit left. -/
theorem unfinished_le_credit (bound : Nat) (s : State) : s.unfinished ≤ s.credit bound := by
  unfold State.unfinished State.credit
  induction s.calls with
  | nil => exact Nat.le_refl 0
  | cons call rest ih =>
      rw [List.countP_cons, List.map_cons, List.sum_cons]
      cases call with
      | reserving flavor bytes stage =>
          have hpos := stage.left_pos s.reserved
          simp only [Call.inFlight, Call.credit, if_true]
          omega
      | releasing bytes loop =>
          have hpos := loop.left_pos s.reserved
          simp only [Call.inFlight, Call.credit, if_true]
          omega
      | returned outcome => simpa [Call.inFlight, Call.credit] using ih

/-- Whoever is in flight can go on. -/
theorem exists_tick (h : s.unfinished ≠ 0) :
    exists call t, step s (.tick call false) = some t := by
  rcases List.countP_pos_iff.mp (Nat.pos_of_ne_zero h) with ⟨before, hmem, hflight⟩
  rcases List.mem_iff_getElem?.mp hmem with ⟨call, hcall⟩
  exists call
  simp only [step, hcall]
  cases before with
  | reserving flavor bytes stage => exact ⟨_, rfl⟩
  | releasing bytes loop => exact ⟨_, rfl⟩
  | returned outcome => cases hflight

end Steps

/-!
# Runs
-/

/-- The event is an access by a call in flight that does not fail without a reason. -/
def Event.Undisturbed (e : Event) : Prop := exists call, e = .tick call false

/-- What is promised of the calls of a run. -/
structure LockFree (events : List Event) (s : State) : Prop where
  bounded : total Event.ticks events + s.unfinished ≤
    (3 + 2 * s.calls.length) * s.calls.length + 2 * total Event.spurious events
  returns : exists later t, (forall e, e ∈ later -> e.Undisturbed) ∧
    resizingMachine.run s later = some t ∧ t.calls.length = s.calls.length ∧
    t.unfinished = 0

theorem ticks_le {events : List Event} {s : State}
    (hrun : resizingMachine.run State.initial events = some s) :
    total Event.ticks events + s.credit s.calls.length ≤
      (3 + 2 * s.calls.length) * s.calls.length + 2 * total Event.spurious events := by
  have hsize : forall (u : State) e v, resizingMachine.step u e = some v ->
      v.calls.length = u.calls.length + e.made := fun _ _ _ h => length_step h
  have hpay : forall bound (u : State) e v, u.calls.length ≤ bound ->
      resizingMachine.step u e = some v ->
      e.ticks + v.credit bound ≤
        u.credit bound + ((3 + 2 * bound) * e.made + 2 * e.spurious) :=
    fun _ _ _ _ hbound h => credit_step hbound h
  have hcalls : s.calls.length = total Event.made events := by
    rw [Machine.size_run hsize hrun]
    exact Nat.zero_add _
  rw [hcalls]
  exact Machine.total_cost_le_of_calls (fun u e v h => (hsize u e v h).le) hpay rfl
    (fun _ => rfl) hrun

/-- Left to themselves, the calls in flight return. -/
theorem returns_from (s : State) : exists later t, (forall e, e ∈ later -> e.Undisturbed) ∧
    resizingMachine.run s later = some t ∧ t.calls.length = s.calls.length ∧
    t.unfinished = 0 := by
  have hmove : forall u : State, u.calls.length = s.calls.length -> u.unfinished ≠ 0 ->
      exists e v, Event.Undisturbed e ∧ resizingMachine.step u e = some v ∧
        v.calls.length = s.calls.length ∧ v.calls.length ≤ u.calls.length ∧
        forall bound, u.calls.length ≤ bound -> v.credit bound < u.credit bound := by
    intro u hu hflight
    rcases exists_tick hflight with ⟨call, v, hv⟩
    have hlength : v.calls.length = u.calls.length := length_step hv
    refine ⟨.tick call false, v, ⟨call, rfl⟩, hv, hlength.trans hu, hlength.le, ?_⟩
    intro bound hbound
    have hpaid := credit_tick hbound hv
    simp only [Bool.toNat_false] at hpaid
    omega
  exact Machine.exists_run_to_rest hmove rfl

/-- Reservations, releases and changes of the limit at once: the calls take a number of
accesses that is bounded by their number, and none of them can be stuck. -/
theorem reservations_lock_free (events : List Event) (s : State)
    (hrun : resizingMachine.run State.initial events = some s) : LockFree events s := by
  have hticks := ticks_le hrun
  have hunfinished := unfinished_le_credit s.calls.length s
  constructor
  · omega
  · exact returns_from s

/-- The second call is sent back by the commit of the first, then by an exchange that fails
without a reason, and is still in flight. -/
def sentBack : List Event :=
  [.setMaxMemory 10, .reserve .orNull 4, .reserve .upto 8, .tick 0 false, .tick 1 false,
    .tick 0 false, .tick 1 false, .tick 0 false, .tick 1 false, .tick 1 false, .tick 1 true]

theorem reservations_lock_free_sentBack :
    exists s, resizingMachine.run State.initial sentBack = some s ∧ s.unfinished = 1 ∧
      s.reserved = 4 ∧ LockFree sentBack s :=
  ⟨_, rfl, rfl, rfl, reservations_lock_free sentBack _ rfl⟩

end Resizing
end Space
end Memory
end Cuda2Rocm
