import Cuda2Rocm.Memory.ResourceAdaptor.SelfLocking

/-!
# Calls that end

Whatever the calls in flight are waiting for, the memory that they ask for or the lock, they
can all come to their ends, as long as no handler has called a method that locks.  After
such a call the lock is never free again.
-/

namespace Cuda2Rocm
namespace Memory
namespace ResourceAdaptor
namespace SelfLocking

open Foundation

def Event.isCall : Event -> Bool
  | .call _ _ => true
  | _ => false

/-- Nobody is in the adaptor. -/
def AllEnded (s : State) : Prop := forall thread, s.locked.activities thread = []

/-!
# Steps to go
-/

namespace Point

/-- Steps from a point to the return, when upstream has memory and handlers return null. -/
def toGo : Point -> Nat
  | .call (.check _) => 6
  | .call (.limitExceeded _) => 4
  | .call (.upstream _) => 4
  | .call (.managed _) => 4
  | .call (.chargeManaged _ _) => 3
  | .call (.pinned _) => 4
  | .call (.chargePinned _ _) => 3
  | .call (.allTiersFailed _) => 4
  | .call (.charge _ _) => 3
  | .call (.deallocCheck _ _) => 6
  | .call (.deallocUpstream _ _) => 4
  | .call (.deallocCredit _) => 3
  | .call (.done _) => 1
  | .getPeak _ => 3
  | .reset _ => 3
  | .countSpilled => 4
  | .trim _ => 2
  | .attach _ _ => 3
  | .answered _ => 1

end Point

/-- The lock is the first of these steps, and the call of a handler the second. -/
def cost : Activity Point -> Nat
  | .outside p => p.toGo
  | .inside p => p.toGo - 1
  | .calling p => p.toGo - 2

/-- An activity where a method can be. -/
def Sits : Activity Point -> Prop
  | .outside _ => True
  | .inside p => p.Locks
  | .calling p => exists q, afterHandler p .null = some q ∧ q.toGo + 2 < p.toGo

section Points

variable {reservationLimit : Nat} {a : Adaptor} {p q : Point}

theorem toGo_pos (p : Point) : 0 < p.toGo := by
  cases p with
  | call frame => cases frame <;> exact Nat.succ_pos _
  | getPeak stream => exact Nat.succ_pos _
  | reset stream => exact Nat.succ_pos _
  | countSpilled => exact Nat.succ_pos _
  | trim spilled => exact Nat.succ_pos _
  | attach stream oomPolicy => exact Nat.succ_pos _
  | answered answer => exact Nat.succ_pos _

/-- A section ends with less to do than its lock and itself. -/
theorem toGo_runSection (hlocks : p.Locks) :
    (runSection reservationLimit a p).2.toGo + 1 < p.toGo := by
  cases p with
  | call frame =>
      cases frame with
      | check call =>
          simp only [runSection]
          split
          · exact Nat.lt_of_sub_pos Nat.zero_lt_one
          · exact Nat.lt_of_sub_pos Nat.zero_lt_one
      | deallocCheck call ptr =>
          simp only [runSection]
          split
          · exact Nat.lt_of_sub_pos (Nat.succ_pos 3)
          · exact Nat.lt_of_sub_pos Nat.zero_lt_one
      | limitExceeded call => exact Nat.lt_of_sub_pos (Nat.succ_pos 1)
      | allTiersFailed call => exact Nat.lt_of_sub_pos (Nat.succ_pos 1)
      | chargeManaged call ptr => exact Nat.lt_succ_self 2
      | chargePinned call ptr => exact Nat.lt_succ_self 2
      | charge call ptr => exact Nat.lt_succ_self 2
      | deallocCredit call => exact Nat.lt_succ_self 2
      | upstream call => exact absurd hlocks id
      | managed call => exact absurd hlocks id
      | pinned call => exact absurd hlocks id
      | deallocUpstream call ptr => exact absurd hlocks id
      | done outcome => exact absurd hlocks id
  | getPeak stream => exact Nat.lt_succ_self 2
  | reset stream => exact Nat.lt_succ_self 2
  | countSpilled => exact Nat.lt_succ_self 3
  | attach stream oomPolicy => exact Nat.lt_succ_self 2
  | trim spilled => exact absurd hlocks id
  | answered answer => exact absurd hlocks id

theorem sits_of_handlerCall {call : Call} (h : handlerCall a p = some call) :
    Sits (.calling p) := by
  unfold handlerCall at h
  split at h
  · exact ⟨_, rfl, Nat.lt_succ_self 3⟩
  · exact ⟨_, rfl, Nat.lt_succ_self 3⟩
  · cases h

/-- Outside of sections a method returns, or asks for memory and gets it. -/
theorem ended_or_request (hlocks : ¬ p.Locks) :
    ended p = true ∨ exists q, afterRequest p (some 0) = some q ∧ q.toGo < p.toGo := by
  cases p with
  | call frame =>
      cases frame with
      | upstream call => exact Or.inr ⟨_, rfl, Nat.lt_succ_self 3⟩
      | managed call => exact Or.inr ⟨_, rfl, Nat.lt_succ_self 3⟩
      | pinned call => exact Or.inr ⟨_, rfl, Nat.lt_succ_self 3⟩
      | deallocUpstream call ptr => exact Or.inr ⟨_, rfl, Nat.lt_succ_self 3⟩
      | done outcome => exact Or.inl rfl
      | check call => exact absurd trivial hlocks
      | limitExceeded call => exact absurd trivial hlocks
      | allTiersFailed call => exact absurd trivial hlocks
      | chargeManaged call ptr => exact absurd trivial hlocks
      | chargePinned call ptr => exact absurd trivial hlocks
      | charge call ptr => exact absurd trivial hlocks
      | deallocCheck call ptr => exact absurd trivial hlocks
      | deallocCredit call => exact absurd trivial hlocks
  | trim spilled => exact Or.inr ⟨_, rfl, Nat.lt_succ_self 1⟩
  | answered answer => exact Or.inl rfl
  | getPeak stream => exact absurd trivial hlocks
  | reset stream => exact absurd trivial hlocks
  | countSpilled => exact absurd trivial hlocks
  | attach stream oomPolicy => exact absurd trivial hlocks

end Points

/-!
# Runs of harmless handlers
-/

/-- Threads whose handlers are harmless, each where a method can be. -/
structure Alive (threads : Finset Thread) (s : State) : Prop where
  quiet : Quiet s
  sits : forall thread activity, activity ∈ s.locked.activities thread -> Sits activity
  idle : forall thread, thread ∉ threads -> s.locked.activities thread = []

section Steps

variable {reservationLimit : Nat} {s t : State} {threads : Finset Thread}

/-- One stack changes, where its new top sits. -/
theorem sits_set {thread : Thread} {owner : Option Thread} {stack : List (Activity Point)}
    (h : forall thread activity, activity ∈ s.locked.activities thread -> Sits activity)
    (hstack : forall activity, activity ∈ stack -> Sits activity) :
    forall other activity, activity ∈ (s.locked.set thread owner stack).activities other ->
      Sits activity := by
  intro other activity hmem
  by_cases hsame : other = thread
  · rw [hsame, Locked.activities_set_self] at hmem
    exact hstack activity hmem
  · rw [Locked.activities_set_ne hsame] at hmem
    exact h other activity hmem

/-- The top of one stack changes. -/
theorem sits_replace {thread : Thread} {owner : Option Thread} {old top : Activity Point}
    {rest : List (Activity Point)}
    (h : forall thread activity, activity ∈ s.locked.activities thread -> Sits activity)
    (hstack : s.locked.activities thread = old :: rest) (htop : Sits top) :
    forall other activity,
      activity ∈ (s.locked.set thread owner (top :: rest)).activities other ->
        Sits activity := by
  apply sits_set h
  intro activity hmem
  rcases List.mem_cons.mp hmem with heq | hold
  · rw [heq]
    exact htop
  · apply h thread
    rw [hstack]
    exact List.mem_cons_of_mem old hold

theorem sits_step {e : Event}
    (h : forall thread activity, activity ∈ s.locked.activities thread -> Sits activity)
    (hstep : (lockMachine reservationLimit).step s e = some t) :
    forall thread activity, activity ∈ t.locked.activities thread -> Sits activity := by
  change s.step reservationLimit e = some t at hstep
  cases e with
  | call thread method =>
      simp only [State.step] at hstep
      split at hstep
      · cases hstep
        apply sits_set h
        intro activity hmem
        rw [List.eq_of_mem_singleton hmem]
        trivial
      · rename_i p rest hstack
        cases hstep
        apply sits_set h
        intro activity hmem
        rcases List.mem_cons.mp hmem with heq | hold
        · rw [heq]
          trivial
        · apply h thread
          rw [hstack]
          exact hold
      · cases hstep
  | lock thread =>
      simp only [State.step] at hstep
      split at hstep
      · rename_i p rest hstack
        split at hstep
        · rename_i hlocks
          split at hstep
          · cases hstep
            exact sits_replace h hstack hlocks
          · cases hstep
            exact h
        · cases hstep
      · cases hstep
  | run thread =>
      simp only [State.step] at hstep
      split at hstep
      · rename_i p rest hstack
        split at hstep
        · rename_i call hcall
          cases hstep
          exact sits_replace h hstack (sits_of_handlerCall hcall)
        · cases hstep
          exact sits_replace h hstack trivial
      · cases hstep
  | request thread result =>
      simp only [State.step] at hstep
      split at hstep
      · rename_i p rest hstack
        split at hstep
        · cases hstep
          exact sits_replace h hstack trivial
        · cases hstep
      · cases hstep
  | retry thread result =>
      simp only [State.step] at hstep
      split at hstep
      · cases hstep
        exact h
      · cases hstep
  | handlerReturn thread result =>
      simp only [State.step] at hstep
      split at hstep
      · rename_i p rest hstack
        split at hstep
        · cases hstep
          exact sits_replace h hstack trivial
        · cases hstep
      · cases hstep
  | ret thread =>
      simp only [State.step] at hstep
      split at hstep
      · rename_i p rest hstack
        split at hstep
        · cases hstep
          apply sits_set h
          intro activity hmem
          apply h thread
          rw [hstack]
          exact List.mem_cons_of_mem _ hmem
        · cases hstep
      · cases hstep

theorem Alive.step {e : Event} (h : Alive threads s) (hok : CallsHarmlessly s e)
    (hmem : e.thread ∈ threads) (hstep : (lockMachine reservationLimit).step s e = some t) :
    Alive threads t where
  quiet := h.quiet.step hok hstep
  sits := sits_step h.sits hstep
  idle := by
    intro other hother
    have hne : other ≠ e.thread := by
      intro heq
      rw [heq] at hother
      exact hother hmem
    exact ((step_move hstep).activities_ne hne).trans (h.idle other hother)

/-- The steps other than calls can go on until all calls have ended. -/
theorem Alive.progress (h : Alive threads s) :
    AllEnded s ∨ exists e t, e.isCall = false ∧
      (lockMachine reservationLimit).step s e = some t ∧ Alive threads t ∧
      t.locked.toGo cost threads < s.locked.toGo cost threads := by
  by_cases hended : AllEnded s
  · exact Or.inl hended
  · apply Or.inr
    unfold AllEnded at hended
    push Not at hended
    rcases hended with ⟨busy, hbusy⟩
    rcases h.quiet.calm.exists_ready h.quiet.exclusive (fun _ => Point.not_locks_of_quiet)
      hbusy with ⟨thread, top, rest, hstack, hready⟩
    have hthread : thread ∈ threads := by
      by_contra hnot
      rw [h.idle thread hnot] at hstack
      cases hstack
    have hsits : Sits top := by
      apply h.sits thread
      rw [hstack]
      exact List.mem_cons_self
    have hgo : forall e u owner stack, e.isCall = false -> e.thread = thread ->
        s.step reservationLimit e = some u -> u.locked = s.locked.set thread owner stack ->
        (stack.map cost).sum < ((top :: rest).map cost).sum ->
        exists e t, e.isCall = false ∧ (lockMachine reservationLimit).step s e = some t ∧
          Alive threads t ∧ t.locked.toGo cost threads < s.locked.toGo cost threads := by
      intro e u owner stack hcall hby hstep hlocked hlt
      have hharmless : CallsHarmlessly s e := by
        intro other method heq
        rw [heq] at hcall
        cases hcall
      refine ⟨e, u, hcall, hstep, h.step hharmless (hby ▸ hthread) hstep, ?_⟩
      rw [hlocked]
      apply Locked.toGo_set_lt hthread
      rw [hstack]
      exact hlt
    cases top with
    | inside p =>
        cases hhandler : handlerCall s.adaptor p with
        | some call =>
            apply hgo (.run thread) (s.setLocked thread s.locked.owner (.calling p :: rest))
              s.locked.owner (.calling p :: rest) rfl rfl
            · simp only [State.step, hstack, hhandler]
            · rfl
            · rcases sits_of_handlerCall hhandler with ⟨q, _, hlt⟩
              simp only [List.map_cons, List.sum_cons, cost]
              omega
        | none =>
            have hlt : (runSection reservationLimit s.adaptor p).2.toGo + 1 < p.toGo :=
              toGo_runSection hsits
            apply hgo (.run thread) _ none
              (.outside (runSection reservationLimit s.adaptor p).2 :: rest) rfl rfl
            · simp only [State.step, hstack, hhandler]
              rfl
            · rfl
            · simp only [List.map_cons, List.sum_cons, cost]
              omega
    | calling p =>
        rcases hsits with ⟨q, hq, hlt⟩
        apply hgo (.handlerReturn thread .null) (s.setLocked thread none (.outside q :: rest))
          none (.outside q :: rest) rfl rfl
        · simp only [State.step, hstack, hq]
        · rfl
        · simp only [List.map_cons, List.sum_cons, cost]
          omega
    | outside p =>
        by_cases hlocks : p.Locks
        · have hfree : s.locked.owner = none := by
            rcases hready with hholds | ⟨q, heq, hfree⟩
            · exact absurd hholds id
            · cases heq
              exact hfree hlocks
          have hpos := toGo_pos p
          apply hgo (.lock thread) (s.setLocked thread (some thread) (.inside p :: rest))
            (some thread) (.inside p :: rest) rfl rfl
          · simp only [State.step, hstack, if_pos hlocks, if_pos hfree]
          · rfl
          · simp only [List.map_cons, List.sum_cons, cost]
            omega
        · have hpos := toGo_pos p
          rcases ended_or_request hlocks with hend | ⟨q, hq, hlt⟩
          · apply hgo (.ret thread) (s.setLocked thread s.locked.owner rest) s.locked.owner rest
              rfl rfl
            · simp only [State.step, hstack, if_pos hend]
            · rfl
            · simp only [List.map_cons, List.sum_cons, cost]
              omega
          · apply hgo (.request thread (some 0))
              (s.setLocked thread s.locked.owner (.outside q :: rest)) s.locked.owner
              (.outside q :: rest) rfl rfl
            · simp only [State.step, hstack, hq]
            · rfl
            · simp only [List.map_cons, List.sum_cons, cost]
              omega

end Steps

end SelfLocking
end ResourceAdaptor
end Memory
end Cuda2Rocm
