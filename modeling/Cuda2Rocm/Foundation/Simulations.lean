import Cuda2Rocm.Foundation.Runs

/-!
# Largest values and simulations

The largest value that an observation of the states has had in a run, runs of one machine
that follow those of another, and refinement mappings, under which a step of the finer
machine is one step of the coarser machine or none.
-/

namespace Cuda2Rocm
namespace Foundation
namespace Machine

variable {state : Type _} {event : Type _} (M : Machine state event)

/-- The largest value of an observation, in the states from the first to the last. -/
def highest (f : state -> Nat) : state -> List event -> Nat
  | s, [] => f s
  | s, e :: rest =>
      match M.step s e with
      | none => f s
      | some t => max (f s) (highest f t rest)

theorem highest_cons {f : state -> Nat} {s t : state} {e : event} (rest : List event)
    (hstep : M.step s e = some t) :
    M.highest f s (e :: rest) = max (f s) (M.highest f t rest) := by
  rw [highest, hstep]

theorem le_highest (f : state -> Nat) (s : state) (events : List event) :
    f s ≤ M.highest f s events := by
  cases events with
  | nil => exact Nat.le_refl _
  | cons e rest =>
      rw [highest]
      split
      · exact Nat.le_refl _
      · exact Nat.le_max_left _ _

variable {M}

/-- An invariant of a state and the largest value so far, which every step keeps. -/
theorem invariant_highest {f : state -> Nat} {inv : state -> Nat -> Prop}
    (hstep : forall s h e t, inv s h -> M.step s e = some t -> inv t (max h (f t))) :
    forall {events : List event} {s t : state},
      inv s (f s) -> M.run s events = some t -> inv t (M.highest f s events) := by
  have hgeneral : forall {events : List event} {s t : state} {h : Nat}, inv s h -> f s ≤ h ->
      M.run s events = some t -> inv t (max h (M.highest f s events)) := by
    intro events
    induction events with
    | nil =>
        intro s t h hinv hle hrun
        cases hrun
        rw [highest, Nat.max_eq_left hle]
        exact hinv
    | cons e rest ih =>
        intro s t h hinv hle hrun
        rcases run_cons_some hrun with ⟨u, hu, hrest⟩
        have hlater := ih (hstep s h e u hinv hu) (Nat.le_max_right h (f u)) hrest
        have hu_le := le_highest M f u rest
        have hsame : max (max h (f u)) (M.highest f u rest) =
            max h (max (f s) (M.highest f u rest)) := by omega
        rw [hsame, ← highest_cons M rest hu] at hlater
        exact hlater
  intro events s t hinv hrun
  have h := hgeneral hinv (Nat.le_refl _) hrun
  rw [Nat.max_eq_right (le_highest M f s events)] at h
  exact h

/-!
# Simulations
-/

section Simulation

variable {state' : Type _} {event' : Type _} {N : Machine state' event'}

/-- Where every step of one machine that meets the condition leaves the other in place or is
a step of it, the runs of such steps are runs of the second, with the same largest values. -/
theorem exists_run_of_simulation_along {related : state -> state' -> Prop}
    {ok : state -> event -> Prop} {f : state -> Nat} {g : state' -> Nat}
    (hsame : forall s a, related s a -> f s = g a)
    (hstep : forall s a e t, related s a -> ok s e -> M.step s e = some t ->
      related t a ∨ exists e' b, N.step a e' = some b ∧ related t b) :
    forall {events : List event} {s t : state} {a : state'}, related s a ->
      M.Along ok s events -> M.run s events = some t ->
      exists events' b, N.run a events' = some b ∧ related t b ∧
        N.highest g a events' = M.highest f s events := by
  intro events
  induction events with
  | nil =>
      intro s t a hrelated _ hrun
      cases hrun
      exact ⟨[], a, rfl, hrelated, (hsame s a hrelated).symm⟩
  | cons e rest ih =>
      intro s t a hrelated hok hrun
      rcases run_cons_some hrun with ⟨u, hu, hrest⟩
      have hhere := throughout_cons hok hu
      rw [highest_cons M rest hu]
      rcases hstep s a e u hrelated hhere.left hu with hstays | ⟨e', b, hb, hmoves⟩
      · rcases ih hstays hhere.right hrest with ⟨events', c, hc, hend, hhighest⟩
        refine ⟨events', c, hc, hend, ?_⟩
        have hle := le_highest M f u rest
        rw [hhighest, hsame s a hrelated, ← hsame u a hstays, Nat.max_eq_right hle]
      · rcases ih hmoves hhere.right hrest with ⟨events', c, hc, hend, hhighest⟩
        refine ⟨e' :: events', c, ?_, hend, ?_⟩
        · rw [run_cons, hb]
          exact hc
        · rw [highest_cons N events' hb, hhighest, hsame s a hrelated]

/-- Where every step of one machine leaves the other in place or is a step of it, the runs
of the first are runs of the second, with the same largest values. -/
theorem exists_run_of_simulation {related : state -> state' -> Prop} {f : state -> Nat}
    {g : state' -> Nat} (hsame : forall s a, related s a -> f s = g a)
    (hstep : forall s a e t, related s a -> M.step s e = some t ->
      related t a ∨ exists e' b, N.step a e' = some b ∧ related t b)
    {events : List event} {s t : state} {a : state'} (hrelated : related s a)
    (hrun : M.run s events = some t) :
    exists events' b, N.run a events' = some b ∧ related t b ∧
      N.highest g a events' = M.highest f s events := by
  have hsteps : forall s a e t, related s a -> True -> M.step s e = some t ->
      related t a ∨ exists e' b, N.step a e' = some b ∧ related t b :=
    fun s a e t hs _ h => hstep s a e t hs h
  exact exists_run_of_simulation_along hsame hsteps hrelated
    (along_of_events (fun _ _ => trivial)) hrun

end Simulation

/-!
# Refinement mappings
-/

section Refinement

variable {state' : Type _} {event' : Type _} (M)

variable {M} {N : Machine state' event'}

end Refinement

end Machine
end Foundation
end Cuda2Rocm
