import Cuda2Rocm.Foundation.Simulations
import Cuda2Rocm.Memory.Space.Resizing

/-!
# A limit that does not change

While nobody changes the limit, it makes no difference when it is loaded: every run in which
the load of the limit and the exchange are two steps is a run of the space machine, in which
they are one.
-/

namespace Cuda2Rocm
namespace Memory
namespace Space
namespace Resizing

open Foundation

/-- Where a call stands for the space machine, which forgets what it is about to grant. -/
def Call.frame : Call -> Frame
  | .reserving flavor bytes .loadReserved => .reserving flavor bytes.toNat .load
  | .reserving flavor bytes (.loadMax cur) => .reserving flavor bytes.toNat (.cas cur)
  | .reserving flavor bytes (.exchange cur _) => .reserving flavor bytes.toNat (.cas cur)
  | .releasing bytes loop => .releasing bytes loop
  | .returned outcome => .done outcome

/-- The same space, with each call in a thread of its own. -/
structure SameSpace (s : State) (a : Space.State) : Prop where
  max_eq : a.max = s.max
  reserved_eq : a.reserved = s.reserved
  live_eq : a.live = s.live
  nextRid_eq : a.nextRid = s.nextRid
  threads : forall thread, a.threads.lookup thread = (s.calls[thread]?).map Call.frame
  promised : forall flavor bytes cur granted,
    Call.reserving flavor bytes (.exchange cur granted) ∈ s.calls ->
      flavor.amount s.max bytes.toNat cur = some granted

/-- The limit is left alone. -/
def KeepsLimit : Event -> Prop
  | .setMaxMemory _ => False
  | _ => True

section Steps

variable {s t : State} {a : Space.State}

theorem lookup_set {call : Nat} {before : Call} (h : SameSpace s a)
    (hcall : s.calls[call]? = some before) (after : Call) (thread : Nat) :
    (a.threads.insert call after.frame).lookup thread =
      ((s.calls.set call after)[thread]?).map Call.frame := by
  rcases List.getElem?_eq_some_iff.mp hcall with ⟨hlt, _⟩
  rw [Table.lookup_insert, List.getElem?_set]
  by_cases heq : thread = call
  · rw [if_pos heq, if_pos heq.symm, if_pos (heq ▸ hlt)]
    rfl
  · rw [if_neg heq, if_neg (Ne.symm heq)]
    exact h.threads thread

theorem lookup_append (h : SameSpace s a) (call : Call) (thread : Nat) :
    (a.threads.insert s.calls.length call.frame).lookup thread =
      ((s.calls ++ [call])[thread]?).map Call.frame := by
  rw [Table.lookup_insert]
  by_cases heq : thread = s.calls.length
  · rw [if_pos heq, heq, List.getElem?_concat_length]
    rfl
  · rw [if_neg heq, h.threads]
    by_cases hlt : thread < s.calls.length
    · rw [List.getElem?_append_left hlt]
    · have hout : (s.calls ++ [call]).length ≤ thread := by
        rw [List.length_append, List.length_singleton]
        omega
      rw [List.getElem?_eq_none (Nat.le_of_not_lt hlt), List.getElem?_eq_none hout]

theorem SameSpace.frame (h : SameSpace s a) {call : Nat} {before : Call}
    (hcall : s.calls[call]? = some before) : a.threads.lookup call = some before.frame := by
  rw [h.threads, hcall]
  rfl

/-- A call that is made, in both. -/
theorem SameSpace.append (h : SameSpace s a) {live : Table Nat Reserved} {call : Call}
    (hcall : forall flavor bytes cur granted,
      call ≠ .reserving flavor bytes (.exchange cur granted)) :
    SameSpace { s with live := live, calls := s.calls ++ [call] }
      { a with live := live, threads := a.threads.insert s.calls.length call.frame } := by
  refine ⟨h.max_eq, h.reserved_eq, rfl, h.nextRid_eq, lookup_append h call, ?_⟩
  intro flavor bytes cur granted hmem
  rcases List.mem_append.mp hmem with hold | hnew
  · exact h.promised flavor bytes cur granted hold
  · exact absurd (List.mem_singleton.mp hnew).symm (hcall flavor bytes cur granted)

theorem promised_set (h : SameSpace s a) {call : Nat} {after : Call}
    (hafter : forall flavor bytes cur granted,
      after = .reserving flavor bytes (.exchange cur granted) ->
        flavor.amount s.max bytes.toNat cur = some granted) :
    forall flavor bytes cur granted,
      Call.reserving flavor bytes (.exchange cur granted) ∈ s.calls.set call after ->
        flavor.amount s.max bytes.toNat cur = some granted := by
  intro flavor bytes cur granted hmem
  rcases List.mem_or_eq_of_mem_set hmem with hold | hnew
  · exact h.promised flavor bytes cur granted hold
  · exact hafter flavor bytes cur granted hnew.symm

/-- A call that goes on, in both. -/
theorem SameSpace.setCall (h : SameSpace s a) {call : Nat} {before after : Call}
    (hcall : s.calls[call]? = some before)
    (hafter : forall flavor bytes cur granted,
      after ≠ .reserving flavor bytes (.exchange cur granted)) :
    SameSpace (s.setCall call after) (a.setFrame call after.frame) :=
  ⟨h.max_eq, h.reserved_eq, h.live_eq, h.nextRid_eq, lookup_set h hcall after,
    promised_set h fun _ _ _ _ heq => absurd heq (hafter _ _ _ _)⟩

/-- The access of a release, in both. -/
theorem SameSpace.releasing (h : SameSpace s a) {call bytes : Nat} {loop : CasLoop}
    (spurious : Bool) (hcall : s.calls[call]? = some (.releasing bytes loop)) :
    SameSpace (s.tickReleasing call bytes loop spurious)
      (a.tickReleasing call bytes loop spurious) := by
  unfold State.tickReleasing Space.State.tickReleasing
  rw [h.reserved_eq]
  cases CasLoop.step (releaseNext bytes) spurious s.reserved loop with
  | again loop' => exact h.setCall hcall (fun _ _ _ _ heq => by cases heq)
  | gaveUp => exact h.setCall hcall (fun _ _ _ _ heq => by cases heq)
  | committed next =>
      exact ⟨h.max_eq, rfl, h.live_eq, h.nextRid_eq, lookup_set h hcall (.returned .released),
        promised_set h fun _ _ _ _ heq => by cases heq⟩

/-- The exchange of a grant, in both. -/
theorem SameSpace.grant (h : SameSpace s a) {call granted : Nat} {before : Call}
    (hcall : s.calls[call]? = some before) :
    SameSpace (s.grant call s.reserved granted) (a.grant call granted) := by
  have hthreads := lookup_set h hcall (.returned (.reservation s.nextRid))
  unfold Space.State.grant
  rw [h.reserved_eq, h.live_eq, h.nextRid_eq]
  exact ⟨h.max_eq, rfl, rfl, rfl, hthreads, promised_set h fun _ _ _ _ heq => by cases heq⟩

/-- A step of a call is the step of its thread, or the grant is computed and nothing shows. -/
theorem sameSpace_step {e : Event} (h : SameSpace s a) (hok : KeepsLimit e)
    (hstep : step s e = some t) :
    SameSpace t a ∨ exists e' b, spaceMachine.step a e' = some b ∧ SameSpace t b := by
  rcases a with ⟨max, reserved, live, nextRid, threads⟩
  have hsame := h
  rcases h with ⟨rfl, rfl, rfl, rfl, hthreads, hpromised⟩
  have hidle : threads.lookup s.calls.length = none := by
    rw [hthreads, List.getElem?_eq_none (Nat.le_refl _)]
    rfl
  have hframe : forall {call : Nat} {before : Call}, s.calls[call]? = some before ->
      threads.lookup call = some before.frame := hsame.frame
  cases step_move hstep with
  | reserve flavor bytes =>
      right
      refine ⟨.reserve s.calls.length flavor bytes.toNat, _, ?_,
        hsame.append (fun _ _ _ _ heq => by cases heq)⟩
      have hbytes : bytes.toNat ≤ sizeMax := Nat.le_pred_of_lt bytes.toNat_lt
      simp only [spaceMachine, Space.step]
      rw [hidle]
      dsimp only
      rw [if_pos hbytes]
      rfl
  | @destroy rid r hlive =>
      right
      refine ⟨.destroy s.calls.length rid, _, ?_,
        hsame.append (fun _ _ _ _ heq => by cases heq)⟩
      simp only [spaceMachine, Space.step]
      rw [hidle, hlive]
      rfl
  | @growBy rid n r hlive =>
      right
      let grown := s.live.insert rid { r with size := Memory.growBy r.size n.toNat }
      refine ⟨.growBy rid n.toNat, ⟨s.max, s.reserved, grown, s.nextRid, threads⟩, ?_,
        ⟨rfl, rfl, rfl, rfl, hthreads, hpromised⟩⟩
      simp only [spaceMachine, Space.step]
      rw [hlive]
  | setMaxMemory bytes => exact absurd hok id
  | @loaded call spurious flavor bytes hcall =>
      right
      refine ⟨.tick call spurious, _, ?_, hsame.setCall hcall (fun _ _ _ _ heq => by cases heq)⟩
      simp only [spaceMachine, Space.step]
      rw [hframe hcall]
      rfl
  | @refused call cur spurious flavor bytes hcall hnone =>
      right
      refine ⟨.tick call spurious, _, ?_, hsame.setCall hcall (fun _ _ _ _ heq => by cases heq)⟩
      have hnext : reserveNext flavor s.max bytes.toNat cur = none := by
        rw [reserveNext, hnone]
        rfl
      simp only [spaceMachine, Space.step]
      rw [hframe hcall]
      simp only [Call.frame, Space.State.tickReserving, CasLoop.step, hnext]
  | @admitted call cur granted spurious flavor bytes hcall hgranted =>
      -- the space machine computes the grant with the exchange
      left
      refine ⟨rfl, rfl, rfl, rfl, ?_, ?_⟩
      · intro thread
        have hset := lookup_set hsame hcall
          (.reserving flavor bytes (.exchange cur granted)) thread
        refine Eq.trans ?_ hset
        rw [Table.lookup_insert]
        split
        · rename_i heq
          have hold := hframe hcall
          rw [heq]
          exact hold
        · rfl
      · apply promised_set hsame
        intro flavor' bytes' cur' granted' heq
        cases heq
        exact hgranted
  | @granted call granted flavor bytes hcall =>
      right
      refine ⟨.tick call false, _, ?_, hsame.grant hcall⟩
      have hnext : reserveNext flavor s.max bytes.toNat s.reserved =
          some (s.reserved + granted) := by
        rw [reserveNext, hpromised _ _ _ _ (List.mem_of_getElem? hcall)]
        rfl
      simp only [spaceMachine, Space.step]
      rw [hframe hcall]
      simp only [Call.frame, Space.State.tickReserving, CasLoop.step, hnext, and_self, if_true,
        Nat.add_sub_cancel_left]
      rfl
  | @failed call cur granted spurious flavor bytes hcall hfailed =>
      right
      refine ⟨.tick call spurious, _, ?_, hsame.setCall hcall (fun _ _ _ _ heq => by cases heq)⟩
      have hnext : reserveNext flavor s.max bytes.toNat cur = some (cur + granted) := by
        rw [reserveNext, hpromised _ _ _ _ (List.mem_of_getElem? hcall)]
        rfl
      have hnot : ¬ (s.reserved = cur ∧ spurious = false) := by
        intro hboth
        rcases hfailed with hne | htrue
        · exact hne hboth.left
        · rw [hboth.right] at htrue
          cases htrue
      simp only [spaceMachine, Space.step]
      rw [hframe hcall]
      simp only [Call.frame, Space.State.tickReserving, CasLoop.step, hnext, if_neg hnot]
  | @releasing call bytes spurious loop hcall =>
      right
      refine ⟨.tick call spurious, _, ?_, hsame.releasing spurious hcall⟩
      simp only [spaceMachine, Space.step]
      rw [hframe hcall]
      rfl

end Steps

/-- A run on a space whose limit is set once is a run of the space machine under that limit:
it ends with the same counter, the same live reservations and the same results of the calls,
and the counter has been as high. -/
theorem constant_limit_refines (max : UInt64) (events : List Event) (s : State)
    (hfixed : forall bytes, Event.setMaxMemory bytes ∉ events)
    (hrun : resizingMachine.run State.initial (.setMaxMemory max :: events) = some s) :
    exists events' a, spaceMachine.run (Space.State.initial max) events' = some a ∧
      SameSpace s a ∧
      spaceMachine.highest (fun u => u.reserved) (Space.State.initial max) events' =
        resizingMachine.highest (fun u => u.reserved) State.initial
          (.setMaxMemory max :: events) := by
  rcases Machine.run_cons_some hrun with ⟨u, hu, hrest⟩
  rw [Machine.highest_cons _ _ hu]
  cases hu
  have hinitial : SameSpace { State.initial with max := max.toNat }
      (Space.State.initial max) :=
    ⟨rfl, rfl, rfl, rfl, fun _ => rfl, fun _ _ _ _ hmem => absurd hmem List.not_mem_nil⟩
  have hkeeps : forall v : State, resizingMachine.Along (fun _ e => KeepsLimit e) v events := by
    intro v
    apply Machine.along_of_events
    intro e he
    cases e with
    | setMaxMemory bytes => exact hfixed bytes he
    | reserve flavor bytes => trivial
    | destroy rid => trivial
    | growBy rid n => trivial
    | tick call spurious => trivial
  have hequal : forall (v : State) (a : Space.State), SameSpace v a -> v.reserved = a.reserved :=
    fun _ _ hsame => hsame.reserved_eq.symm
  rcases Machine.exists_run_of_simulation_along (N := spaceMachine) hequal
    (fun v a e w hva hok hvw => sameSpace_step hva hok hvw) hinitial (hkeeps _) hrest with
    ⟨events', a, ha, hsame, hhighest⟩
  refine ⟨events', a, ha, hsame, ?_⟩
  rw [hhighest]
  exact (Nat.zero_max _).symm

/-- Two reservations race; the loser is sent back to the limit and gets what is left. -/
def raced : List Event :=
  [.reserve .throwing 6, .reserve .upto 8, .tick 0 false, .tick 1 false, .tick 1 false,
    .tick 0 false, .tick 0 false, .tick 1 false, .tick 1 false, .tick 1 false, .destroy 0,
    .tick 2 false, .tick 2 true, .tick 2 false]

theorem constant_limit_refines_raced :
    exists s, resizingMachine.run State.initial (.setMaxMemory 10 :: raced) = some s ∧
      s.calls = [.returned (.reservation 0), .returned (.reservation 1), .returned .released] ∧
      s.reserved = 4 ∧
      exists events' a, spaceMachine.run (Space.State.initial 10) events' = some a ∧
        SameSpace s a ∧
        spaceMachine.highest (fun u => u.reserved) (Space.State.initial 10) events' =
          resizingMachine.highest (fun u => u.reserved) State.initial
            (.setMaxMemory 10 :: raced) := by
  have hfixed : forall bytes, Event.setMaxMemory bytes ∉ raced := by
    intro bytes
    simp [raced]
  exact ⟨_, rfl, rfl, rfl, constant_limit_refines 10 raced _ hfixed rfl⟩

end Resizing
end Space
end Memory
end Cuda2Rocm
