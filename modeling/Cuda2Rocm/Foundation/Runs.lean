import Mathlib.Tactic.Linarith

/-!
# Runs of labelled machines

A machine takes one labelled event at a time; a disabled event has no
successor.  This module fixes runs over event lists, conditions and properties
judged on every step of a run, and the induction rules that carry a step lemma
to whole runs.
-/

namespace Cuda2Rocm
namespace Foundation

/-- A machine given by a partial step function. -/
structure Machine (state : Type _) (event : Type _) where
  step : state -> event -> Option state

namespace Machine

variable {state : Type _} {event : Type _} (M : Machine state event)

/-- The state after a list of events, when every one of them is enabled. -/
def run : state -> List event -> Option state
  | s, [] => some s
  | s, e :: rest =>
      match M.step s e with
      | none => none
      | some t => run t rest

/-- Every step taken along the events satisfies the transition predicate. -/
def Throughout (good : state -> event -> state -> Prop) :
    state -> List event -> Prop
  | _, [] => True
  | s, e :: rest =>
      forall t, M.step s e = some t -> good s e t ∧ Throughout good t rest

/-- Every step taken along the events meets a condition on the state before it. -/
def Along (ok : state -> event -> Prop) : state -> List event -> Prop :=
  M.Throughout (fun s e _ => ok s e)

/-- Every state reached along the events, the first one apart, is good. -/
def Reaches (good : state -> Prop) : state -> List event -> Prop :=
  M.Throughout (fun _ _ t => good t)

@[simp] theorem run_nil (s : state) : M.run s [] = some s := rfl

theorem run_cons (s : state) (e : event) (rest : List event) :
    M.run s (e :: rest) =
      match M.step s e with
      | none => none
      | some t => M.run t rest := rfl

variable {M}

theorem run_cons_some {s t : state} {e : event} {rest : List event}
    (h : M.run s (e :: rest) = some t) :
    exists u, M.step s e = some u ∧ M.run u rest = some t := by
  rw [run_cons] at h
  cases hstep : M.step s e with
  | none =>
      rw [hstep] at h
      cases h
  | some u =>
      rw [hstep] at h
      exact ⟨u, rfl, h⟩

theorem run_append {first : List event} {s : state} (second : List event) :
    M.run s (first ++ second) =
      (M.run s first).bind (fun u => M.run u second) := by
  induction first generalizing s with
  | nil => rfl
  | cons e rest ih =>
      rw [List.cons_append, run_cons, run_cons]
      cases M.step s e with
      | none => rfl
      | some u => exact ih

/-- A run up to its last event, and the last step. -/
theorem run_concat_some {first : List event} {s t : state} {e : event}
    (h : M.run s (first ++ [e]) = some t) :
    exists u, M.run s first = some u ∧ M.step u e = some t := by
  rw [run_append] at h
  rcases Option.bind_eq_some_iff.mp h with ⟨u, hfirst, hlast⟩
  rcases run_cons_some hlast with ⟨v, hstep, hnil⟩
  cases hnil
  exact ⟨u, hfirst, hstep⟩

/-- A step at which a property came true that a run does not start with. -/
theorem exists_turn {p : state -> Prop} {events : List event} {s t : state}
    (hrun : M.run s events = some t) (hbefore : ¬ p s) (hafter : p t) :
    exists first e rest u v, events = first ++ e :: rest ∧ M.run s first = some u ∧
      M.step u e = some v ∧ ¬ p u ∧ p v := by
  induction events generalizing s with
  | nil =>
      cases hrun
      exact absurd hafter hbefore
  | cons e rest ih =>
      rcases run_cons_some hrun with ⟨u, hstep, hrest⟩
      by_cases hu : p u
      · exact ⟨[], e, rest, s, u, rfl, rfl, hstep, hbefore, hu⟩
      · rcases ih hrest hu with ⟨first, e', rest', v, w, rfl, hfirst, hturn⟩
        refine ⟨e :: first, e', rest', v, w, rfl, ?_, hturn⟩
        rw [run_cons, hstep]
        exact hfirst

theorem throughout_nil (good : state -> event -> state -> Prop) (s : state) :
    M.Throughout good s [] := trivial

theorem throughout_cons {good : state -> event -> state -> Prop}
    {s u : state} {e : event} {rest : List event}
    (h : M.Throughout good s (e :: rest)) (hstep : M.step s e = some u) :
    good s e u ∧ M.Throughout good u rest :=
  h u hstep

theorem throughout_mono {good better : state -> event -> state -> Prop}
    (himp : forall s e t, good s e t -> better s e t) :
    forall {events : List event} {s : state},
      M.Throughout good s events -> M.Throughout better s events
  | [], _, _ => trivial
  | _ :: _, _, h => fun t hstep =>
      ⟨himp _ _ _ (h t hstep).left, throughout_mono himp (h t hstep).right⟩

theorem throughout_and {first second : state -> event -> state -> Prop} :
    forall {events : List event} {s : state},
      M.Throughout first s events -> M.Throughout second s events ->
      M.Throughout (fun s e t => first s e t ∧ second s e t) s events
  | [], _, _, _ => trivial
  | _ :: _, _, h, k => fun t hstep =>
      ⟨⟨(h t hstep).left, (k t hstep).left⟩,
        throughout_and (h t hstep).right (k t hstep).right⟩

/-- A property of the steps taken, as a condition before each of them. -/
theorem along_of_throughout {good : state -> event -> state -> Prop} {events : List event}
    {s : state} (h : M.Throughout good s events) :
    M.Along (fun s e => forall t, M.step s e = some t -> good s e t) s events := by
  induction events generalizing s with
  | nil => exact throughout_nil _ s
  | cons e rest ih =>
      intro t ht
      have hhere := throughout_cons h ht
      constructor
      · intro t' ht'
        rw [ht] at ht'
        cases ht'
        exact hhere.left
      · exact ih hhere.right

/-- Every step is followed by a good state: the same, as a condition before it. -/
theorem along_of_reaches {good : state -> Prop} {events : List event} {s : state}
    (h : M.Reaches good s events) :
    M.Along (fun s e => forall t, M.step s e = some t -> good t) s events :=
  along_of_throughout h

theorem along_append_left {ok : state -> event -> Prop} {first second : List event}
    {s : state} (h : M.Along ok s (first ++ second)) : M.Along ok s first := by
  induction first generalizing s with
  | nil => exact throughout_nil _ s
  | cons e rest ih =>
      intro t ht
      have hhere := throughout_cons h ht
      exact ⟨hhere.left, ih hhere.right⟩

theorem along_append_right {ok : state -> event -> Prop} {first second : List event}
    {s t : state} (h : M.Along ok s (first ++ second)) (hrun : M.run s first = some t) :
    M.Along ok t second := by
  induction first generalizing s with
  | nil =>
      cases hrun
      exact h
  | cons e rest ih =>
      rcases run_cons_some hrun with ⟨u, hu, hrest⟩
      exact ih (throughout_cons h hu).right hrest

/-- A condition on the events alone holds along them. -/
theorem along_of_events {ok : event -> Prop} {events : List event}
    (h : forall e, e ∈ events -> ok e) {s : state} :
    M.Along (fun _ e => ok e) s events := by
  induction events generalizing s with
  | nil => exact throughout_nil _ s
  | cons e rest ih =>
      intro t _
      exact ⟨h e List.mem_cons_self,
        ih (fun e' he' => h e' (List.mem_cons_of_mem e he'))⟩

/-- A decidable transition predicate is decided by running the events. -/
def decideThroughout (good : state -> event -> state -> Prop)
    [forall s e t, Decidable (good s e t)] :
    (events : List event) -> (s : state) -> Decidable (M.Throughout good s events)
  | [], _ => isTrue trivial
  | e :: rest, s =>
      match hstep : M.step s e with
      | none => isTrue (fun t ht => by rw [hstep] at ht; cases ht)
      | some u =>
          have := decideThroughout good rest u
          decidable_of_iff (good s e u ∧ M.Throughout good u rest)
            ⟨fun h t ht => by rw [hstep] at ht; cases ht; exact h,
              fun h => h u hstep⟩

instance (good : state -> event -> state -> Prop)
    [forall s e t, Decidable (good s e t)] (s : state) (events : List event) :
    Decidable (M.Throughout good s events) :=
  decideThroughout good events s

instance (good : state -> Prop) [DecidablePred good] (s : state)
    (events : List event) : Decidable (M.Reaches good s events) :=
  decideThroughout (fun _ _ t => good t) events s

instance (ok : state -> event -> Prop) [forall s e, Decidable (ok s e)] (s : state)
    (events : List event) : Decidable (M.Along ok s events) :=
  decideThroughout (fun s e _ => ok s e) events s

/-!
# Invariants

A step lemma under a condition gives a run lemma under the same condition on
every step.
-/

/-- An invariant kept by every step that meets the condition holds at the end. -/
theorem invariant_run {inv : state -> Prop} {ok : state -> event -> Prop}
    (hstep : forall s e t, inv s -> ok s e -> M.step s e = some t -> inv t) :
    forall {events : List event} {s t : state},
      inv s -> M.Along ok s events -> M.run s events = some t -> inv t
  | [], s, t, hinv, _, hrun => by
      cases hrun
      exact hinv
  | e :: rest, s, t, hinv, hok, hrun => by
      rcases run_cons_some hrun with ⟨u, hu, hrest⟩
      have hhere := throughout_cons hok hu
      exact invariant_run hstep (hstep s e u hinv hhere.left hu) hhere.right hrest

/-- An unconditional invariant holds at the end of every run. -/
theorem invariant_run_always {inv : state -> Prop}
    (hstep : forall s e t, inv s -> M.step s e = some t -> inv t) :
    forall {events : List event} {s t : state},
      inv s -> M.run s events = some t -> inv t
  | [], s, t, hinv, hrun => by
      cases hrun
      exact hinv
  | e :: rest, s, t, hinv, hrun => by
      rcases run_cons_some hrun with ⟨u, hu, hrest⟩
      exact invariant_run_always hstep (hstep s e u hinv hu) hrest

/-- Where a good step that lowers the rank is always possible until the goal is reached,
some run of such steps reaches it. -/
theorem exists_run_of_progress {inv goal : state -> Prop} {ok : event -> Prop}
    (rank : state -> Nat)
    (hprogress : forall s, inv s -> goal s ∨ exists e t, ok e ∧ M.step s e = some t ∧
      inv t ∧ rank t < rank s) :
    forall {s : state}, inv s -> exists events t, (forall e, e ∈ events -> ok e) ∧
      M.run s events = some t ∧ inv t ∧ goal t := by
  intro s
  -- the induction is on the rank of the state
  induction hrank : rank s using Nat.strong_induction_on generalizing s with
  | _ n ih =>
      intro hinv
      rcases hprogress s hinv with hgoal | ⟨e, t, he, hstep, hinvT, hlt⟩
      · exact ⟨[], s, fun _ h => absurd h List.not_mem_nil, rfl, hinv, hgoal⟩
      · rcases ih (rank t) (hrank ▸ hlt) rfl hinvT with
          ⟨events, u, hevents, hrun, hinvU, hgoal⟩
        refine ⟨e :: events, u, ?_, ?_, hinvU, hgoal⟩
        · intro e' he'
          rcases List.mem_cons.mp he' with rfl | hlater
          · exact he
          · exact hevents e' hlater
        · rw [run_cons, hstep]
          exact hrun

/-- A transition property that every good step has, along a good run. -/
theorem throughout_of_invariant {inv : state -> Prop}
    {ok : state -> event -> Prop} {good : state -> event -> state -> Prop}
    (hstep : forall s e t, inv s -> ok s e -> M.step s e = some t ->
      inv t ∧ good s e t) :
    forall {events : List event} {s : state},
      inv s -> M.Along ok s events -> M.Throughout good s events
  | [], _, _, _ => trivial
  | e :: rest, s, hinv, hok => fun t ht => by
      have hhere := throughout_cons hok ht
      have hnext := hstep s e t hinv hhere.left ht
      exact ⟨hnext.right, throughout_of_invariant hstep hnext.left hhere.right⟩

/--
The exact condition for a property of whole runs: steps that meet the condition
keep the invariant and are good, and a step that misses it is itself bad.
-/
theorem throughout_iff_along {inv : state -> Prop}
    {ok : state -> event -> Prop} {good : state -> event -> state -> Prop}
    (hstep : forall s e t, inv s -> ok s e -> M.step s e = some t ->
      inv t ∧ good s e t)
    (hfail : forall s e t, inv s -> M.step s e = some t -> good s e t -> ok s e) :
    forall {events : List event} {s : state}, inv s ->
      (M.Throughout good s events <-> M.Along ok s events) := by
  intro events s hinv
  constructor
  · intro hgood
    induction events generalizing s with
    | nil => exact throughout_nil _ s
    | cons e rest ih =>
        intro t ht
        have hhere := throughout_cons hgood ht
        have hok := hfail s e t hinv ht hhere.left
        exact ⟨hok, ih (hstep s e t hinv hok ht).left hhere.right⟩
  · exact throughout_of_invariant hstep hinv

/-- A run that ends outside a set no step leaves has met the condition whose
failure leads into that set. -/
theorem along_of_not_closed {closed : state -> Prop} {ok : state -> event -> Prop}
    (hclosed : forall s e t, closed s -> M.step s e = some t -> closed t)
    (hfail : forall s e t, M.step s e = some t -> ¬ ok s e -> closed t) :
    forall {events : List event} {s t : state},
      M.run s events = some t -> ¬ closed t -> M.Along ok s events
  | [], _, _, _, _ => trivial
  | e :: rest, s, t, hrun, hopen => fun u hu => by
      have hrest : M.run u rest = some t := by
        rw [run_cons, hu] at hrun
        exact hrun
      have hopenU : ¬ closed u := fun hc =>
        hopen (invariant_run_always hclosed hc hrest)
      constructor
      · by_contra hbad
        exact hopenU (hfail s e u hu hbad)
      · exact along_of_not_closed hclosed hfail hrest hopen

/-- A run with a step that misses the condition ends in a set that no step leaves, when
such a step leads into it. -/
theorem closed_of_not_along {inv closed : state -> Prop} {ok : state -> event -> Prop}
    (hinv : forall s e t, inv s -> M.step s e = some t -> inv t)
    (hclosed : forall s e t, inv s -> closed s -> M.step s e = some t -> closed t)
    (hfail : forall s e t, inv s -> M.step s e = some t -> ¬ ok s e -> closed t) :
    forall {events : List event} {s t : state}, inv s -> M.run s events = some t ->
      ¬ M.Along ok s events -> closed t
  | [], _, _, _, _, hmissed => absurd trivial hmissed
  | e :: rest, s, t, hs, hrun, hmissed => by
      rcases run_cons_some hrun with ⟨u, hu, hrest⟩
      have hnext := hinv s e u hs hu
      by_cases hlater : M.Along ok u rest
      · have hhere : ¬ ok s e := by
          intro hok
          apply hmissed
          intro v hv
          rw [hu] at hv
          cases hv
          exact ⟨hok, hlater⟩
        have hkept : forall v e w, (inv v ∧ closed v) -> M.step v e = some w ->
            inv w ∧ closed w :=
          fun v e w hv hstep => ⟨hinv v e w hv.1 hstep, hclosed v e w hv.1 hv.2 hstep⟩
        exact (invariant_run_always hkept ⟨hnext, hfail s e u hs hu hhere⟩ hrest).2
      · exact closed_of_not_along hinv hclosed hfail hnext hrest hlater

/-- Along a run that ends outside a set no step leaves, every step is good that
leads to a state outside of it. -/
theorem throughout_of_open {inv closed : state -> Prop} {ok : state -> event -> Prop}
    {good : state -> event -> state -> Prop}
    (hinv : forall s e t, inv s -> ok s e -> M.step s e = some t -> inv t)
    (hclosed : forall s e t, closed s -> ok s e -> M.step s e = some t -> closed t)
    (hgood : forall s e t, inv s -> ok s e -> M.step s e = some t -> ¬ closed t ->
      good s e t) :
    forall {events : List event} {s t : state}, inv s -> M.Along ok s events ->
      M.run s events = some t -> ¬ closed t -> M.Throughout good s events
  | [], _, _, _, _, _, _ => trivial
  | e :: rest, s, t, hs, hok, hrun, hopen => fun u hu => by
      have hhere := throughout_cons hok hu
      have hrest : M.run u rest = some t := by
        rw [run_cons, hu] at hrun
        exact hrun
      have hopenU : ¬ closed u := fun hc =>
        hopen (invariant_run hclosed hc hhere.right hrest)
      exact ⟨hgood s e u hs hhere.left hu hopenU,
        throughout_of_open hinv hclosed hgood (hinv s e u hs hhere.left hu) hhere.right
          hrest hopen⟩

/-- The same for a condition on the state before the step, without an invariant. -/
theorem along_of_open {closed : state -> Prop} {ok good : state -> event -> Prop}
    (hclosed : forall s e t, closed s -> ok s e -> M.step s e = some t -> closed t)
    (hgood : forall s e t, M.step s e = some t -> ¬ closed t -> good s e)
    {events : List event} {s t : state} (hok : M.Along ok s events)
    (hrun : M.run s events = some t) (hopen : ¬ closed t) : M.Along good s events := by
  have hinv : forall s e t, True -> ok s e -> M.step s e = some t -> True :=
    fun _ _ _ _ _ _ => trivial
  exact throughout_of_open hinv hclosed (fun s e t _ _ hstep hnot => hgood s e t hstep hnot)
    trivial hok hrun hopen

/-!
# Observers

What an observer who records every step of a run has written down at its end.
-/

variable (M)

def observe {history : Type _} (record : state -> history -> event -> history) :
    state -> history -> List event -> history
  | _, h, [] => h
  | s, h, e :: rest =>
      match M.step s e with
      | none => h
      | some t => observe record t (record s h e) rest

variable {M}

/-- An invariant of states and records that every step keeps. -/
theorem invariant_observe {history : Type _} {record : state -> history -> event -> history}
    {inv : state -> history -> Prop}
    (hstep : forall s h e t, inv s h -> M.step s e = some t -> inv t (record s h e)) :
    forall {events : List event} {s t : state} {h : history},
      inv s h -> M.run s events = some t -> inv t (M.observe record s h events)
  | [], s, t, h, hinv, hrun => by
      cases hrun
      exact hinv
  | e :: rest, s, t, h, hinv, hrun => by
      rcases run_cons_some hrun with ⟨u, hu, hrest⟩
      rw [observe, hu]
      exact invariant_observe hstep (hstep s h e u hinv hu) hrest

/-!
# Changes made by one party

The change of an integer observation that is due to the selected events of a
run, whatever the other events of the run do to it in between.
-/

variable (M)

/-- Sum of the changes of `f` over the selected steps of a run. -/
def changeBy (mine : event -> Bool) (f : state -> Int) : state -> List event -> Int
  | _, [] => 0
  | s, e :: rest =>
      match M.step s e with
      | none => 0
      | some t => (if mine e then f t - f s else 0) + changeBy mine f t rest

variable {M}

theorem changeBy_cons {mine : event -> Bool} {f : state -> Int}
    {s u : state} {e : event} (rest : List event) (hstep : M.step s e = some u) :
    M.changeBy mine f s (e :: rest) =
      (if mine e then f u - f s else 0) + M.changeBy mine f u rest := by
  rw [changeBy, hstep]

/--
The selected changes telescope to a potential that only the selected events
move.  States in `closed` are those the party does not leave; the run is taken
up to a state outside of it.
-/
theorem changeBy_eq_potential {inv closed : state -> Prop}
    {ok : state -> event -> Prop} {mine : event -> Bool}
    {f potential : state -> Int}
    (hinv : forall s e t, inv s -> ok s e -> M.step s e = some t -> inv t)
    (hclosed : forall s e t, closed s -> ok s e -> M.step s e = some t -> closed t)
    (hmine : forall s e t, inv s -> ok s e -> M.step s e = some t ->
      mine e = true -> ¬ closed t -> f t - f s = potential t - potential s)
    (hother : forall s e t, inv s -> ok s e -> M.step s e = some t ->
      mine e = false -> potential t = potential s) :
    forall {events : List event} {s t : state}, inv s -> M.Along ok s events ->
      M.run s events = some t -> ¬ closed t ->
      M.changeBy mine f s events = potential t - potential s := by
  have hstay : forall {events : List event} {s t : state}, closed s ->
      M.Along ok s events -> M.run s events = some t -> closed t :=
    fun hc hok hrun => invariant_run hclosed hc hok hrun
  intro events
  induction events with
  | nil =>
      intro s t _ _ hrun _
      cases hrun
      simp [changeBy]
  | cons e rest ih =>
      intro s t hs hok hrun hopen
      rcases run_cons_some hrun with ⟨u, hu, hrest⟩
      have hhere := throughout_cons hok hu
      have hopenU : ¬ closed u := fun hc => hopen (hstay hc hhere.right hrest)
      rw [changeBy_cons rest hu,
        ih (hinv s e u hs hhere.left hu) hhere.right hrest hopen]
      cases hm : mine e with
      | true =>
          have h := hmine s e u hs hhere.left hu hm hopenU
          simp only [if_true]
          linarith
      | false =>
          have h := hother s e u hs hhere.left hu hm
          simp only [Bool.false_eq_true, if_false]
          linarith

end Machine

/-!
# Lists of threads
-/

/-- Who is not the one that moves on stays in the list. -/
theorem mem_set_of_ne {α : Type _} {xs : List α} {i : Nat} {old new x : α}
    (hold : xs[i]? = some old) (hne : x ≠ old) (hx : x ∈ xs) : x ∈ xs.set i new := by
  rcases List.mem_iff_getElem?.mp hx with ⟨j, hj⟩
  apply List.mem_iff_getElem?.mpr
  exists j
  have hij : i ≠ j := by
    intro heq
    rw [heq, hj] at hold
    exact hne (Option.some.inj hold)
  rw [List.getElem?_set_ne hij]
  exact hj

end Foundation
end Cuda2Rocm
