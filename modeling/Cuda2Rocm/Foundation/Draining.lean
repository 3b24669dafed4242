import Cuda2Rocm.Foundation.Amortised
import Cuda2Rocm.Foundation.Streams
import Mathlib.Order.Lattice.Nat

/-!
# Kernels that come to their ends

A thread that leaves its kernel after so many accesses of its own, whatever it finds in the
memory, needs no help from the others.  Where all threads do, each of them is bounded in
every run, and the device can always be brought to rest by accesses alone.
-/

namespace Cuda2Rocm
namespace Foundation

variable {stream memory thread : Type _}

/-- The thread leaves within so many accesses, whatever they find. -/
def Program.EndsWithin (P : Program memory thread) : Nat -> thread -> Prop
  | 0, t => P.left t = true
  | n + 1, t => P.left t = true ∨ forall m, P.EndsWithin n (P.access m t).2

namespace Program

variable {P : Program memory thread} {n : Nat} {t : thread}

theorem endsWithin_of_left (h : P.left t = true) : P.EndsWithin n t := by
  cases n with
  | zero => exact h
  | succ n => exact Or.inl h

theorem EndsWithin.mono {m : Nat} (h : P.EndsWithin n t) (hle : n ≤ m) :
    P.EndsWithin m t := by
  induction n generalizing m t with
  | zero => exact endsWithin_of_left h
  | succ n ih =>
      cases m with
      | zero => exact absurd hle (Nat.not_succ_le_zero n)
      | succ m =>
          rcases h with hleft | hrest
          · exact Or.inl hleft
          · exact Or.inr (fun held => ih (hrest held) (Nat.le_of_succ_le_succ hle))

/-- A thread that has not left has an access to make, and leaves within the rest. -/
theorem EndsWithin.access (h : P.EndsWithin n t) (hleft : P.left t = false) :
    exists rest, n = rest + 1 ∧ forall m, P.EndsWithin rest (P.access m t).2 := by
  cases n with
  | zero =>
      have hzero : P.left t = true := h
      rw [hleft] at hzero
      cases hzero
  | succ n =>
      rcases h with hleft' | hrest
      · rw [hleft] at hleft'
        cases hleft'
      · exact ⟨n, rfl, hrest⟩

/-- The least such number, where there is one. -/
noncomputable def toGo (P : Program memory thread) (t : thread) : Nat :=
  sInf { n | P.EndsWithin n t }

/-- An access brings a thread that leaves some time nearer to it. -/
theorem toGo_access (h : exists n, P.EndsWithin n t) (hleft : P.left t = false) (m : memory) :
    P.toGo (P.access m t).2 < P.toGo t := by
  have hleast : P.EndsWithin (P.toGo t) t := Nat.sInf_mem h
  rcases hleast.access hleft with ⟨rest, hrest, hends⟩
  rw [hrest]
  exact Nat.lt_succ_of_le (Nat.sInf_le (hends m))

end Program

namespace Device

variable {P : Program memory thread}

/-- The thread at a position, if it was submitted. -/
def threadAt (s : Device stream memory thread) (q i : Nat) : Option thread :=
  s.kernels[q]?.bind (fun kernel => kernel.threads[i]?)

theorem threadAt_of_kernel {s : Device stream memory thread} {q i : Nat}
    {kernel : Kernel stream thread} (h : s.kernels[q]? = some kernel) :
    s.threadAt q i = kernel.threads[i]? := by
  rw [threadAt, h]
  rfl

variable (P) in
/-- What a thread may still take, or will be allowed when it is submitted. -/
def Allows (limit : Nat) (s : Device stream memory thread) (q i n : Nat) : Prop :=
  match s.threadAt q i with
  | some t => P.EndsWithin n t
  | none => limit ≤ n

variable (P) in
/-- Every thread on the device leaves within some number of accesses. -/
def Drains (s : Device stream memory thread) : Prop :=
  forall q i t, s.threadAt q i = some t -> exists n, P.EndsWithin n t

/-- The access that an event is. -/
def Event.isAccess : Event stream thread -> Bool
  | .access _ _ => true
  | _ => false

/-- The event is an access of the thread at this position. -/
def Event.accesses (q i : Nat) : Event stream thread -> Bool
  | .access q' i' => q' == q && i' == i
  | _ => false

instance {fresh : thread -> Prop} [DecidablePred fresh] (s : Device stream memory thread)
    (e : Event stream thread) : Decidable (SubmitsFresh fresh s e) :=
  match e with
  | .submit kernel => inferInstanceAs (Decidable (forall t, t ∈ kernel.threads -> fresh t))
  | .access _ _ => isTrue trivial
  | .destroy => isTrue trivial

/-!
# Threads after a step
-/

theorem threadAt_submit (s : Device stream memory thread) (new : Kernel stream thread)
    (q i : Nat) :
    threadAt { s with kernels := s.kernels ++ [new] } q i = s.threadAt q i ∨
      (s.threadAt q i = none ∧
        threadAt { s with kernels := s.kernels ++ [new] } q i = new.threads[i]?) := by
  unfold threadAt
  rcases Nat.lt_or_ge q s.kernels.length with hlt | hge
  · left
    rw [List.getElem?_append_left hlt]
  · cases heq : q - s.kernels.length with
    | zero =>
        right
        rw [List.getElem?_append_right hge, List.getElem?_eq_none hge, heq]
        exact ⟨rfl, rfl⟩
    | succ past =>
        left
        rw [List.getElem?_append_right hge, List.getElem?_eq_none hge, heq]
        rfl

/-- One thread of one kernel is replaced. -/
def replace (s : Device stream memory thread) (q i : Nat) (kernel : Kernel stream thread)
    (m : memory) (t : thread) : Device stream memory thread :=
  { s with
    memory := m
    kernels := s.kernels.set q { kernel with threads := kernel.threads.set i t } }

section Replace

variable {s : Device stream memory thread} {q i : Nat} {kernel : Kernel stream thread}
  {running next : thread}

theorem threadAt_replace_self (hkernel : s.kernels[q]? = some kernel)
    (hrunning : kernel.threads[i]? = some running) (m : memory) (t : thread) :
    (s.replace q i kernel m t).threadAt q i = some t := by
  unfold threadAt replace
  simp only
  rw [List.getElem?_set_self (List.getElem?_eq_some_iff.mp hkernel).1]
  exact List.getElem?_set_self (List.getElem?_eq_some_iff.mp hrunning).1

theorem threadAt_replace_ne (hkernel : s.kernels[q]? = some kernel) (m : memory) (t : thread)
    {q' i' : Nat} (hne : ¬ (q = q' ∧ i = i')) :
    (s.replace q i kernel m t).threadAt q' i' = s.threadAt q' i' := by
  unfold threadAt replace
  simp only
  by_cases hq : q = q'
  · subst hq
    rw [List.getElem?_set_self (List.getElem?_eq_some_iff.mp hkernel).1, hkernel]
    apply List.getElem?_set_ne
    exact fun hi => hne ⟨rfl, hi⟩
  · rw [List.getElem?_set_ne hq]

theorem drains_replace (hs : Drains P s) (hkernel : s.kernels[q]? = some kernel)
    (hrunning : kernel.threads[i]? = some running) (hleft : P.left running = false)
    (m m' : memory) :
    Drains P (s.replace q i kernel m' (P.access m running).2) := by
  intro q' i' t ht
  by_cases hhere : q = q' ∧ i = i'
  · rcases hhere with ⟨rfl, rfl⟩
    rw [threadAt_replace_self hkernel hrunning] at ht
    cases ht
    have hthread : s.threadAt q i = some running := by
      rw [threadAt_of_kernel hkernel, hrunning]
    rcases hs q i running hthread with ⟨n, hends⟩
    rcases hends.access hleft with ⟨rest, _, hrest⟩
    exact ⟨rest, hrest m⟩
  · rw [threadAt_replace_ne hkernel m' _ hhere] at ht
    exact hs q' i' t ht

variable (P) in
/-- The accesses that all threads have to go. -/
noncomputable def toGo (s : Device stream memory thread) : Nat :=
  (s.kernels.map (fun kernel => (kernel.threads.map P.toGo).sum)).sum

theorem toGo_replace (m : memory) (hkernel : s.kernels[q]? = some kernel)
    (hrunning : kernel.threads[i]? = some running) (hlt : P.toGo next < P.toGo running) :
    toGo P (s.replace q i kernel m next) < toGo P s := by
  have hthreads := sum_map_set hrunning P.toGo next
  have hkernels := sum_map_set hkernel (fun kernel => (kernel.threads.map P.toGo).sum)
    { kernel with threads := kernel.threads.set i next }
  unfold toGo replace
  simp only at hkernels ⊢
  omega

end Replace

/-- The first entry of a list that fails a test. -/
theorem exists_first_failure {α : Type _} {p : α -> Bool} {xs : List α}
    (h : xs.all p = false) :
    exists (q : Nat) (x : α), xs[q]? = some x ∧ p x = false ∧ (xs.take q).all p = true := by
  induction xs with
  | nil => cases h
  | cons x rest ih =>
      cases hx : p x with
      | false => exact ⟨0, x, rfl, hx, rfl⟩
      | true =>
          rw [List.all_cons, hx, Bool.true_and] at h
          rcases ih h with ⟨q, y, hy, hfails, hbefore⟩
          exists q + 1, y, hy, hfails
          rw [List.take_succ_cons, List.all_cons, hx, hbefore]
          rfl

variable [DecidableEq stream]

/-- An access of a thread whose turn it is. -/
theorem step_access {s : Device stream memory thread} {q i : Nat}
    {kernel : Kernel stream thread} {running : thread} (hkernel : s.kernels[q]? = some kernel)
    (hrunning : kernel.threads[i]? = some running) (hleft : P.left running = false)
    (hturn : mayRun P s q kernel.stream = true) :
    (machine P).step s (.access q i) = some (s.replace q i kernel
      (P.access s.memory running).1 (P.access s.memory running).2) := by
  simp only [machine, hkernel, hrunning]
  rw [if_pos ⟨hleft, hturn⟩]
  rfl

/-!
# Each thread by itself
-/

/-- New kernels are of threads that leave within the limit. -/
def SubmitsWithin (P : Program memory thread) (limit : Nat) :
    Device stream memory thread -> Event stream thread -> Prop :=
  SubmitsFresh (P.EndsWithin limit)

/-- What a step takes from the allowance of a thread. -/
theorem allows_step {limit q i n : Nat} {s t : Device stream memory thread}
    {e : Event stream thread} (hs : Allows P limit s q i n)
    (hok : SubmitsWithin P limit s e) (h : (machine P).step s e = some t) :
    exists rest, n = rest + (e.accesses q i).toNat ∧ Allows P limit t q i rest := by
  rcases step_cases h with ⟨new, rfl, _, rfl⟩ |
    ⟨q', i', kernel, running, rfl, hkernel, hrunning, hleft, _, rfl⟩ | ⟨rfl, _, _, rfl⟩
  · refine ⟨n, rfl, ?_⟩
    unfold Allows at hs ⊢
    rcases threadAt_submit s new q i with hsame | ⟨hnone, hnew⟩
    · rw [hsame]
      exact hs
    · rw [hnone] at hs
      rw [hnew]
      cases hthread : new.threads[i]? with
      | none => exact hs
      | some t =>
          have hends : P.EndsWithin limit t := hok t (List.mem_of_getElem? hthread)
          exact hends.mono hs
  · by_cases hhere : q' = q ∧ i' = i
    · rcases hhere with ⟨rfl, rfl⟩
      unfold Allows at hs
      rw [threadAt_of_kernel hkernel, hrunning] at hs
      rcases Program.EndsWithin.access hs hleft with ⟨rest, rfl, hrest⟩
      refine ⟨rest, by simp [Event.accesses], ?_⟩
      have hafter := threadAt_replace_self hkernel hrunning (P.access s.memory running).1
        (P.access s.memory running).2
      unfold replace at hafter
      unfold Allows
      rw [hafter]
      exact hrest s.memory
    · have hother := threadAt_replace_ne hkernel (i := i') (P.access s.memory running).1
        (P.access s.memory running).2 hhere
      refine ⟨n, ?_, ?_⟩
      · have hnot : (q' == q && i' == i) = false := by
          simpa using hhere
        simp [Event.accesses, hnot]
      · unfold replace at hother
        unfold Allows
        rw [hother]
        exact hs
  · exact ⟨n, rfl, hs⟩

/-- A thread makes no more accesses than it is allowed, whatever the others do. -/
theorem accesses_le {limit q i n : Nat} {events : List (Event stream thread)}
    {s t : Device stream memory thread} (hs : Allows P limit s q i n)
    (hok : (machine P).Along (SubmitsWithin P limit) s events)
    (hrun : (machine P).run s events = some t) : events.countP (Event.accesses q i) ≤ n := by
  induction events generalizing s n with
  | nil => exact Nat.zero_le n
  | cons e rest ih =>
      rcases Machine.run_cons_some hrun with ⟨u, hstep, hlater⟩
      have hhere := hok u hstep
      rcases allows_step hs hhere.left hstep with ⟨left, rfl, hu⟩
      have hrest := ih hu hhere.right hlater
      rw [List.countP_cons]
      cases haccess : Event.accesses q i e with
      | true => exact Nat.succ_le_succ hrest
      | false => exact hrest

/-!
# All threads together
-/

theorem drains_step {limit : Nat} {s t : Device stream memory thread}
    {e : Event stream thread} (hs : Drains P s) (hok : SubmitsWithin P limit s e)
    (h : (machine P).step s e = some t) : Drains P t := by
  intro q i thread hthread
  cases hbefore : s.threadAt q i with
  | none =>
      have hallows : Allows P limit s q i limit := by
        unfold Allows
        rw [hbefore]
      rcases allows_step hallows hok h with ⟨rest, _, hafter⟩
      unfold Allows at hafter
      rw [hthread] at hafter
      exact ⟨rest, hafter⟩
  | some old =>
      rcases hs q i old hbefore with ⟨n, hends⟩
      have hallows : Allows P limit s q i n := by
        unfold Allows
        rw [hbefore]
        exact hends
      rcases allows_step hallows hok h with ⟨rest, _, hafter⟩
      unfold Allows at hafter
      rw [hthread] at hafter
      exact ⟨rest, hafter⟩

/-- Accesses alone bring the device to rest: the first kernel that is not finished may run. -/
theorem exists_run_of_drains {s : Device stream memory thread}
    (hs : Drains P s) :
    exists later t, (forall e, e ∈ later -> Event.isAccess e = true) ∧
      (machine P).run s later = some t ∧ t.freed = s.freed ∧
      t.kernels.all (fun kernel => kernel.finished P) = true := by
  have hprogress : forall u : Device stream memory thread, Drains P u ∧ u.freed = s.freed ->
      u.kernels.all (fun kernel => kernel.finished P) = true ∨
      exists e v, Event.isAccess e = true ∧ (machine P).step u e = some v ∧
        (Drains P v ∧ v.freed = s.freed) ∧ toGo P v < toGo P u := by
    intro u hu
    by_cases hall : u.kernels.all (fun kernel => kernel.finished P) = true
    · exact Or.inl hall
    · right
      rcases exists_first_failure (Bool.eq_false_iff.mpr hall) with
        ⟨q, kernel, hkernel, hunfinished, hearlier⟩
      rcases exists_first_failure hunfinished with ⟨i, running, hrunning, hleft, _⟩
      have hturn : mayRun P u q kernel.stream = true := by
        apply List.all_eq_true.mpr
        intro earlier hmem
        have hdone := List.all_eq_true.mp hearlier earlier hmem
        rw [hdone, Bool.or_true]
      have hthread : u.threadAt q i = some running := by
        rw [threadAt_of_kernel hkernel, hrunning]
      exists .access q i, _, rfl, step_access hkernel hrunning hleft hturn
      constructor
      · exact ⟨drains_replace hu.left hkernel hrunning hleft _ _, hu.right⟩
      · exact toGo_replace _ hkernel hrunning
          (Program.toGo_access (hu.left q i running hthread) hleft u.memory)
  rcases Machine.exists_run_of_progress (toGo P) hprogress ⟨hs, rfl⟩ with
    ⟨later, t, hlater, hrun, ht, hdone⟩
  exact ⟨later, t, hlater, hrun, ht.right, hdone⟩

variable (P) in
/-- All kernels come to their ends by accesses alone, and the memory can be freed. -/
def ComesToRest (s : Device stream memory thread) : Prop :=
  exists later t, (forall e, e ∈ later -> Event.isAccess e = true) ∧
    (machine P).run s later = some t ∧ t.kernels.all (fun kernel => kernel.finished P) = true ∧
    (s.freed = false -> ((machine P).step t .destroy).isSome = true)

theorem submitsWithin_of_fresh {limit : Nat} {fresh : thread -> Prop}
    {events : List (Event stream thread)} {s : Device stream memory thread}
    (hfresh : forall x, fresh x -> P.EndsWithin limit x)
    (hok : (machine P).Along (SubmitsFresh fresh) s events) :
    (machine P).Along (SubmitsWithin P limit) s events := by
  apply Machine.throughout_mono _ hok
  intro u e v he
  cases e with
  | submit kernel => exact fun x hx => hfresh x (he x hx)
  | access q i => exact trivial
  | destroy => exact trivial

/-- Threads of submitted kernels that leave within a limit keep to it, whatever else runs. -/
theorem accesses_le_run {limit : Nat} {fresh : thread -> Prop}
    {events : List (Event stream thread)} {s t : Device stream memory thread}
    (hfresh : forall x, fresh x -> P.EndsWithin limit x)
    (hok : (machine P).Along (SubmitsFresh fresh) s events)
    (hrun : (machine P).run s events = some t) {q i : Nat} (hnone : s.threadAt q i = none) :
    events.countP (Event.accesses q i) ≤ limit := by
  have hallows : Allows P limit s q i limit := by
    unfold Allows
    rw [hnone]
  exact accesses_le hallows (submitsWithin_of_fresh hfresh hok) hrun

/-- A device on which everything leaves, and to which only such kernels are submitted, can
come to rest. -/
theorem comes_to_rest_run {limit : Nat} {fresh : thread -> Prop}
    {events : List (Event stream thread)} {s t : Device stream memory thread}
    (hfresh : forall x, fresh x -> P.EndsWithin limit x) (hs : Drains P s)
    (hok : (machine P).Along (SubmitsFresh fresh) s events)
    (hrun : (machine P).run s events = some t) : ComesToRest P t := by
  have hwithin := submitsWithin_of_fresh hfresh hok
  have ht := Machine.invariant_run (fun _ _ _ hu he h => drains_step hu he h) hs hwithin hrun
  rcases exists_run_of_drains ht with ⟨later, u, hlater, hu, hfreed, hdone⟩
  exists later, u, hlater, hu, hdone
  intro hlive
  rw [← hfreed] at hlive
  simp only [machine, hlive, hdone]
  rfl

end Device

end Foundation
end Cuda2Rocm
