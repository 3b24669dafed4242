import Cuda2Rocm.Foundation.Runs
import Mathlib.Algebra.Order.BigOperators.Group.Finset
import Mathlib.Data.Finset.Max
import Mathlib.Data.Fintype.Basic
import Mathlib.Logic.Function.Basic

/-!
# Threads with a common barrier

The threads of a block go through phases.  In each of them a thread makes its accesses to
the shared memory and arrives at the barrier, and it leaves the barrier when all threads
have arrived there.  So the phases of the block follow one another as if it were one thread,
and what holds of the block is shown phase by phase.
-/

namespace Cuda2Rocm
namespace Foundation

/-- What each thread does in each phase: where it starts, when it has arrived, and its
accesses until then. -/
structure Phases (index memory progress : Type _) where
  count : Nat
  start : Nat -> index -> progress
  arrived : Nat -> index -> progress -> Bool
  access : Nat -> index -> memory -> progress -> memory × progress

/-- The shared memory, and the phase of each thread and where it stands in it. -/
structure Block (index memory progress : Type _) where
  memory : memory
  phase : index -> Nat
  progress : index -> progress

namespace Block

variable {index memory progress : Type _}

inductive Event (index : Type _) where
  | access (thread : index)
  /-- The thread leaves the barrier. -/
  | pass (thread : index)

def launched (P : Phases index memory progress) (m : memory) : Block index memory progress :=
  { memory := m, phase := fun _ => 0, progress := P.start 0 }

/-- A thread has come to the barrier at the end of a phase, or past it. -/
def reached (P : Phases index memory progress) (s : Block index memory progress) (phase : Nat)
    (thread : index) : Bool :=
  decide (phase < s.phase thread) ||
    (decide (s.phase thread = phase) && P.arrived phase thread (s.progress thread))

variable [DecidableEq index] [Fintype index]

def machine (P : Phases index memory progress) :
    Machine (Block index memory progress) (Event index) where
  step s e :=
    match e with
    | .access thread =>
        if s.phase thread < P.count ∧
            P.arrived (s.phase thread) thread (s.progress thread) = false then
          let next := P.access (s.phase thread) thread s.memory (s.progress thread)
          some { s with
            memory := next.1
            progress := Function.update s.progress thread next.2 }
        else none
    | .pass thread =>
        if s.phase thread < P.count ∧
            forall other, s.reached P (s.phase thread) other = true then
          some { s with
            phase := Function.update s.phase thread (s.phase thread + 1)
            progress := Function.update s.progress thread
              (P.start (s.phase thread + 1) thread) }
        else none

/-!
# One phase after the other
-/

/-- The furthest phase of the block: its threads are in it, or about to leave the barrier
before it. -/
structure InPhase (P : Phases index memory progress) (s : Block index memory progress)
    (phase : Nat) : Prop where
  le : phase ≤ P.count
  someone : exists thread, s.phase thread = phase
  everyone : forall thread, s.phase thread = phase ∨ (s.phase thread + 1 = phase ∧
    P.arrived (s.phase thread) thread (s.progress thread) = true)

/-- Where the threads stand in a phase, the ones before it about to start. -/
def inPhase (P : Phases index memory progress) (s : Block index memory progress) (phase : Nat) :
    index -> progress :=
  fun thread => if s.phase thread = phase then s.progress thread else P.start phase thread

/-- A property of the memory and the threads in a phase that the accesses keep, and that
carries over to the next phase when all have arrived. -/
structure Kept (P : Phases index memory progress)
    (inv : Nat -> memory -> (index -> progress) -> Prop) : Prop where
  access : forall phase m stand thread, inv phase m stand -> phase < P.count ->
    P.arrived phase thread (stand thread) = false ->
    inv phase (P.access phase thread m (stand thread)).1
      (Function.update stand thread (P.access phase thread m (stand thread)).2)
  pass : forall phase m stand, inv phase m stand -> phase < P.count ->
    (forall thread, P.arrived phase thread (stand thread) = true) ->
    inv (phase + 1) m (P.start (phase + 1))

section Steps

variable {P : Phases index memory progress} {inv : Nat -> memory -> (index -> progress) -> Prop}
  {s t : Block index memory progress}

omit [DecidableEq index] [Fintype index] in
theorem inPhase_here {phase : Nat} {thread : index} (h : s.phase thread = phase) :
    s.inPhase P phase thread = s.progress thread := if_pos h

omit [DecidableEq index] [Fintype index] in
theorem inPhase_before {phase : Nat} {thread : index} (h : s.phase thread ≠ phase) :
    s.inPhase P phase thread = P.start phase thread := if_neg h

/-- The furthest phase, and what holds of the memory in it. -/
def Follows (P : Phases index memory progress)
    (inv : Nat -> memory -> (index -> progress) -> Prop) (s : Block index memory progress) :
    Prop :=
  exists phase, InPhase P s phase ∧ inv phase s.memory (s.inPhase P phase)

theorem follows_access (hkept : Kept P inv) (hs : Follows P inv s) {thread : index}
    (h : (machine P).step s (.access thread) = some t) : Follows P inv t := by
  rcases hs with ⟨phase, hphase, hinv⟩
  simp only [machine] at h
  split at h
  · rename_i hmay
    cases h
    have hhere : s.phase thread = phase := by
      rcases hphase.everyone thread with hhere | ⟨_, harrived⟩
      · exact hhere
      · rw [hmay.right] at harrived
        cases harrived
    have hcurrent : s.inPhase P phase thread = s.progress thread := inPhase_here hhere
    have hafter := hkept.access phase s.memory (s.inPhase P phase) thread hinv
      (hhere ▸ hmay.left) (by rw [hcurrent, ← hhere]; exact hmay.right)
    rw [hcurrent, ← hhere] at hafter
    exists phase
    constructor
    · constructor
      · exact hphase.le
      · exact hphase.someone
      · intro other
        by_cases hother : other = thread
        · rw [hother]
          exact Or.inl hhere
        · have heveryone := hphase.everyone other
          simp only [Function.update_of_ne hother]
          exact heveryone
    · have hstand : inPhase P { s with
          memory := (P.access (s.phase thread) thread s.memory (s.progress thread)).1
          progress := Function.update s.progress thread
            (P.access (s.phase thread) thread s.memory (s.progress thread)).2 } phase =
          Function.update (s.inPhase P phase) thread
            (P.access (s.phase thread) thread s.memory (s.progress thread)).2 := by
        funext other
        by_cases hother : other = thread
        · rw [hother, Function.update_self]
          rw [inPhase_here (by exact hhere)]
          exact Function.update_self _ _ _
        · rw [Function.update_of_ne hother]
          unfold inPhase
          simp only [Function.update_of_ne hother]
      rw [hstand, ← hhere]
      exact hafter
  · cases h

/-- Where one thread leaves the barrier, either all have just come to it, or the others are
ahead already. -/
theorem follows_pass (hkept : Kept P inv) (hs : Follows P inv s) {thread : index}
    (h : (machine P).step s (.pass thread) = some t) : Follows P inv t := by
  rcases hs with ⟨phase, hphase, hinv⟩
  simp only [machine] at h
  split at h
  · rename_i hmay
    cases h
    rcases hphase.everyone thread with hhere | ⟨hbefore, _⟩
    · -- the first one to leave
      subst hhere
      have hall : forall other, s.phase other = s.phase thread ∧
          P.arrived (s.phase thread) other (s.progress other) = true := by
        intro other
        have hreached := hmay.right other
        unfold reached at hreached
        rw [Bool.or_eq_true, Bool.and_eq_true, decide_eq_true_iff, decide_eq_true_iff] at hreached
        rcases hreached with hahead | hthere
        · rcases hphase.everyone other with hsame | ⟨hless, _⟩ <;> omega
        · exact hthere
      have harrived : forall other, P.arrived (s.phase thread) other
          (s.inPhase P (s.phase thread) other) = true := by
        intro other
        rw [inPhase_here (hall other).left]
        exact (hall other).right
      have hnext := hkept.pass _ _ _ hinv hmay.left harrived
      exists s.phase thread + 1
      constructor
      · constructor
        · exact hmay.left
        · exact ⟨thread, Function.update_self _ _ _⟩
        · intro other
          by_cases hother : other = thread
          · rw [hother]
            exact Or.inl (Function.update_self _ _ _)
          · right
            simp only [Function.update_of_ne hother]
            rw [(hall other).left]
            exact ⟨rfl, (hall other).right⟩
      · have hstand : inPhase P { s with
            phase := Function.update s.phase thread (s.phase thread + 1)
            progress := Function.update s.progress thread
              (P.start (s.phase thread + 1) thread) } (s.phase thread + 1) =
            P.start (s.phase thread + 1) := by
          funext other
          by_cases hother : other = thread
          · rw [hother, inPhase_here (Function.update_self _ _ _)]
            exact Function.update_self _ _ _
          · apply inPhase_before
            simp only [Function.update_of_ne hother]
            rw [(hall other).left]
            exact (Nat.succ_ne_self _).symm
        rw [hstand]
        exact hnext
    · -- others are in the next phase already
      subst hbefore
      exists s.phase thread + 1
      constructor
      · constructor
        · exact hphase.le
        · exact ⟨thread, Function.update_self _ _ _⟩
        · intro other
          by_cases hother : other = thread
          · rw [hother]
            exact Or.inl (Function.update_self _ _ _)
          · have heveryone := hphase.everyone other
            simp only [Function.update_of_ne hother]
            exact heveryone
      · have hstand : inPhase P { s with
            phase := Function.update s.phase thread (s.phase thread + 1)
            progress := Function.update s.progress thread
              (P.start (s.phase thread + 1) thread) } (s.phase thread + 1) =
            s.inPhase P (s.phase thread + 1) := by
          funext other
          by_cases hother : other = thread
          · rw [hother, inPhase_here (Function.update_self _ _ _),
              inPhase_before (Nat.succ_ne_self _).symm]
            exact Function.update_self _ _ _
          · unfold inPhase
            simp only [Function.update_of_ne hother]
        rw [hstand]
        exact hinv
  · cases h

theorem follows_step (hkept : Kept P inv) (hs : Follows P inv s) {e : Event index}
    (h : (machine P).step s e = some t) : Follows P inv t := by
  cases e with
  | access thread => exact follows_access hkept hs h
  | pass thread => exact follows_pass hkept hs h

/-- What the accesses and the barriers keep holds in every run, whatever its order. -/
theorem follows_run [Nonempty index] (hkept : Kept P inv) {m : memory}
    (hstart : inv 0 m (P.start 0)) {events : List (Event index)}
    (hrun : (machine P).run (launched P m) events = some s) : Follows P inv s := by
  have hlaunched : Follows P inv (launched P m) := by
    exists 0
    constructor
    · constructor
      · exact Nat.zero_le _
      · rcases ‹Nonempty index› with ⟨thread⟩
        exact ⟨thread, rfl⟩
      · exact fun _ => Or.inl rfl
    · exact hstart
  exact Machine.invariant_run_always (fun _ _ _ hu h => follows_step hkept hu h) hlaunched hrun

end Steps

/-!
# To the end
-/

section Ends

variable (P : Phases index memory progress) (left : Nat -> index -> progress -> Nat)

/-- The steps of a thread in so many phases from this one on. -/
def ahead (thread : index) : Nat -> Nat -> Nat
  | 0, _ => 0
  | phases + 1, phase =>
      left phase thread (P.start phase thread) + 1 + ahead thread phases (phase + 1)

/-- The steps that a thread has to go, when it is so many accesses from the barrier. -/
def toGo (s : Block index memory progress) (thread : index) : Nat :=
  if s.phase thread < P.count then
    left (s.phase thread) thread (s.progress thread) + 1 +
      ahead P left thread (P.count - s.phase thread - 1) (s.phase thread + 1)
  else 0

variable {P left}

omit [DecidableEq index] [Fintype index] in
theorem toGo_of_lt {s : Block index memory progress} {thread : index}
    (h : s.phase thread < P.count) :
    toGo P left s thread = left (s.phase thread) thread (s.progress thread) + 1 +
      ahead P left thread (P.count - s.phase thread - 1) (s.phase thread + 1) := if_pos h

/-- One thread is nearer to its end, and the others are where they were. -/
theorem sum_toGo_lt {s t : Block index memory progress} (thread : index)
    (hlt : toGo P left t thread < toGo P left s thread)
    (hothers : forall other, other ≠ thread -> toGo P left t other = toGo P left s other) :
    ∑ other, toGo P left t other < ∑ other, toGo P left s other := by
  apply Finset.sum_lt_sum
  · intro other _
    by_cases hother : other = thread
    · rw [hother]
      exact hlt.le
    · exact (hothers other hother).le
  · exact ⟨thread, Finset.mem_univ thread, hlt⟩

/-- A thread in the earliest phase makes an access or leaves the barrier. -/
theorem exists_step_of_busy
    (hleft : forall phase thread m p, P.arrived phase thread p = false ->
      left phase thread (P.access phase thread m p).2 < left phase thread p)
    (s : Block index memory progress) {busy : index} (hbusy : s.phase busy < P.count) :
    exists e t, (machine P).step s e = some t ∧
      ∑ thread, toGo P left t thread < ∑ thread, toGo P left s thread := by
  have hleast : exists thread, thread ∈ Finset.univ ∧
      forall other, other ∈ Finset.univ -> s.phase thread ≤ s.phase other :=
    Finset.exists_min_image Finset.univ s.phase ⟨busy, Finset.mem_univ busy⟩
  rcases hleast with ⟨earliest, _, hearliest⟩
  have hcount : s.phase earliest < P.count :=
    Nat.lt_of_le_of_lt (hearliest busy (Finset.mem_univ busy)) hbusy
  by_cases hall : forall other, s.reached P (s.phase earliest) other = true
  · exists .pass earliest, { s with
      phase := Function.update s.phase earliest (s.phase earliest + 1)
      progress := Function.update s.progress earliest
        (P.start (s.phase earliest + 1) earliest) }
    constructor
    · simp only [machine]
      rw [if_pos ⟨hcount, hall⟩]
    · apply sum_toGo_lt earliest
      · rw [toGo_of_lt hcount]
        unfold toGo
        simp only [Function.update_self]
        split
        · have hphases : P.count - s.phase earliest - 1 =
              (P.count - (s.phase earliest + 1) - 1) + 1 := by omega
          rw [hphases, ahead]
          omega
        · omega
      · intro other hother
        unfold toGo
        simp only [Function.update_of_ne hother]
  · rcases not_forall.mp hall with ⟨late, hlate⟩
    unfold reached at hlate
    rw [Bool.or_eq_true, Bool.and_eq_true, decide_eq_true_iff, decide_eq_true_iff] at hlate
    have hhere : s.phase late = s.phase earliest := by
      have hle := hearliest late (Finset.mem_univ late)
      omega
    have harrived : P.arrived (s.phase late) late (s.progress late) = false := by
      apply Bool.eq_false_iff.mpr
      intro harrived
      apply hlate
      right
      rw [hhere] at harrived
      exact ⟨hhere, harrived⟩
    have hlateCount : s.phase late < P.count := hhere ▸ hcount
    exists .access late, { s with
      memory := (P.access (s.phase late) late s.memory (s.progress late)).1
      progress := Function.update s.progress late
        (P.access (s.phase late) late s.memory (s.progress late)).2 }
    constructor
    · simp only [machine]
      rw [if_pos ⟨hlateCount, harrived⟩]
    · apply sum_toGo_lt late
      · have hless := hleft (s.phase late) late s.memory (s.progress late) harrived
        rw [toGo_of_lt hlateCount, toGo_of_lt (by exact hlateCount)]
        simp only [Function.update_self]
        omega
      · intro other hother
        unfold toGo
        simp only [Function.update_of_ne hother]

/-- From every state, all threads can come to the end of the last phase. -/
theorem exists_run_to_end
    (hleft : forall phase thread m p, P.arrived phase thread p = false ->
      left phase thread (P.access phase thread m p).2 < left phase thread p)
    (s : Block index memory progress) :
    exists later t, (machine P).run s later = some t ∧ forall thread, P.count ≤ t.phase thread := by
  have hprogress : forall u : Block index memory progress, True ->
      (forall thread, P.count ≤ u.phase thread) ∨
      exists e v, True ∧ (machine P).step u e = some v ∧ True ∧
        ∑ thread, toGo P left v thread < ∑ thread, toGo P left u thread := by
    intro u _
    by_cases hall : forall thread, P.count ≤ u.phase thread
    · exact Or.inl hall
    · rcases not_forall.mp hall with ⟨busy, hbusy⟩
      rcases exists_step_of_busy hleft u (Nat.not_le.mp hbusy) with ⟨e, v, hv, hlt⟩
      exact Or.inr ⟨e, v, trivial, hv, trivial, hlt⟩
  have hend : exists later t, (forall e, e ∈ later -> True) ∧
      (machine P).run s later = some t ∧ True ∧ forall thread, P.count ≤ t.phase thread :=
    Machine.exists_run_of_progress (fun u => ∑ thread, toGo P left u thread) hprogress trivial
  rcases hend with ⟨later, t, _, hrun, _, hdone⟩
  exact ⟨later, t, hrun, hdone⟩

end Ends

end Block

end Foundation
end Cuda2Rocm
