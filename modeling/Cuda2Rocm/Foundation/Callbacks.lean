import Mathlib.Algebra.Order.BigOperators.Group.Finset
import Mathlib.Logic.Function.Basic
import Mathlib.Tactic.Linarith

/-!
# Callbacks under a lock

Threads that run operations over one lock, which is not recursive.  An operation may call
back from within its critical section, and the callback may start operations of its own,
so a thread has a stack of activities.  An operation that a callback starts and that needs
the lock never gets it.
-/

namespace Cuda2Rocm
namespace Foundation

/-- An operation outside of a critical section, inside of one, or in a callback that it
makes from inside. -/
inductive Activity (point : Type _) where
  | outside (p : point)
  | inside (p : point)
  | calling (p : point)

/-- The activity keeps the lock. -/
def Activity.Holds {point : Type _} : Activity point -> Prop
  | .outside _ => False
  | .inside _ => True
  | .calling _ => True

/-- The owner of the lock, and what each thread is about, innermost first. -/
structure Locked (point : Type _) where
  owner : Option Nat
  activities : Nat -> List (Activity point)

namespace Locked

variable {point : Type _} {locks quiet : point -> Prop}

/-- A thread has another stack, and the lock another owner. -/
def set (s : Locked point) (thread : Nat) (owner : Option Nat) (stack : List (Activity point)) :
    Locked point :=
  { owner := owner, activities := Function.update s.activities thread stack }

@[simp] theorem activities_set_self (s : Locked point) (thread : Nat) (owner : Option Nat)
    (stack : List (Activity point)) : (s.set thread owner stack).activities thread = stack :=
  Function.update_self ..

theorem activities_set_ne {thread other : Nat} (h : other ≠ thread) (s : Locked point)
    (owner : Option Nat) (stack : List (Activity point)) :
    (s.set thread owner stack).activities other = s.activities other :=
  Function.update_of_ne h ..

/-- What a thread can do: points in `locks` are those before a critical section, and an
operation at a point in `quiet` can only end. -/
inductive Move (locks quiet : point -> Prop) (thread : Nat) (s : Locked point) :
    Locked point -> Prop where
  | stay : Move locks quiet thread s s
  | enter (p : point) (h : s.activities thread = []) :
      Move locks quiet thread s (s.set thread s.owner [.outside p])
  | callBack {q : point} {rest : List (Activity point)} (p : point)
      (h : s.activities thread = .calling q :: rest) :
      Move locks quiet thread s (s.set thread s.owner (.outside p :: .calling q :: rest))
  | acquire {p : point} {rest : List (Activity point)}
      (h : s.activities thread = .outside p :: rest) (hlocks : locks p)
      (hfree : s.owner = none) :
      Move locks quiet thread s (s.set thread (some thread) (.inside p :: rest))
  | call {p : point} {rest : List (Activity point)} (h : s.activities thread = .inside p :: rest) :
      Move locks quiet thread s (s.set thread s.owner (.calling p :: rest))
  | release {a : Activity point} {rest : List (Activity point)} (q : point)
      (h : s.activities thread = a :: rest) (hholds : a.Holds) :
      Move locks quiet thread s (s.set thread none (.outside q :: rest))
  | advance {p : point} {rest : List (Activity point)} (q : point)
      (h : s.activities thread = .outside p :: rest) (hlocks : ¬ locks p) (hquiet : ¬ quiet p) :
      Move locks quiet thread s (s.set thread s.owner (.outside q :: rest))
  | leave {p : point} {rest : List (Activity point)} (h : s.activities thread = .outside p :: rest)
      (hlocks : ¬ locks p) :
      Move locks quiet thread s (s.set thread s.owner rest)

theorem Move.activities_ne {s t : Locked point} {thread other : Nat}
    (h : Move locks quiet thread s t) (hne : other ≠ thread) :
    t.activities other = s.activities other := by
  cases h with
  | stay => rfl
  | enter _ _ => exact activities_set_ne hne ..
  | callBack _ _ => exact activities_set_ne hne ..
  | acquire _ _ _ => exact activities_set_ne hne ..
  | call _ => exact activities_set_ne hne ..
  | release _ _ _ => exact activities_set_ne hne ..
  | advance _ _ _ _ => exact activities_set_ne hne ..
  | leave _ _ => exact activities_set_ne hne ..

/-!
# Who holds the lock
-/

/-- The activities of a stack that keep the lock. -/
def holders : List (Activity point) -> Nat
  | [] => 0
  | .outside _ :: rest => holders rest
  | .inside _ :: rest => holders rest + 1
  | .calling _ :: rest => holders rest + 1

@[simp] theorem holders_nil : holders ([] : List (Activity point)) = 0 := rfl

@[simp] theorem holders_outside (p : point) (rest : List (Activity point)) :
    holders (.outside p :: rest) = holders rest := rfl

@[simp] theorem holders_inside (p : point) (rest : List (Activity point)) :
    holders (.inside p :: rest) = holders rest + 1 := rfl

@[simp] theorem holders_calling (p : point) (rest : List (Activity point)) :
    holders (.calling p :: rest) = holders rest + 1 := rfl

theorem holders_of_holds {a : Activity point} (h : a.Holds) (rest : List (Activity point)) :
    holders (a :: rest) = holders rest + 1 := by
  cases a with
  | outside p => exact absurd h id
  | inside p => exact holders_inside p rest
  | calling p => exact holders_calling p rest

/-- The owner of the lock, and nobody else, has an activity that keeps it, and only one. -/
def Exclusive (s : Locked point) : Prop :=
  forall thread, holders (s.activities thread) = if s.owner = some thread then 1 else 0

/-- The activities of the other threads and the owner decide. -/
theorem Exclusive.set {s : Locked point} (h : s.Exclusive) {thread : Nat}
    {owner : Option Nat} {stack : List (Activity point)}
    (hown : holders stack = if owner = some thread then 1 else 0)
    (hother : forall other, other ≠ thread -> (owner = some other <-> s.owner = some other)) :
    (s.set thread owner stack).Exclusive := by
  intro other
  by_cases hsame : other = thread
  · subst hsame
    rw [activities_set_self]
    exact hown
  · rw [activities_set_ne hsame, h other]
    exact if_congr (hother other hsame).symm rfl rfl

theorem Exclusive.move {s t : Locked point} {thread : Nat} (h : s.Exclusive)
    (hmove : Move locks quiet thread s t) : t.Exclusive := by
  have hmine := h thread
  cases hmove with
  | stay => exact h
  | enter p hstack =>
      rw [hstack] at hmine
      exact h.set (by rw [holders_outside]; exact hmine) fun _ _ => Iff.rfl
  | callBack p hstack =>
      rw [hstack] at hmine
      exact h.set (by rw [holders_outside]; exact hmine) fun _ _ => Iff.rfl
  | acquire hstack hlocks hfree =>
      rw [hstack, holders_outside, hfree, if_neg (by simp)] at hmine
      refine h.set ?_ fun other hne => ?_
      · rw [holders_inside, hmine, if_pos rfl]
      · rw [hfree]
        refine iff_of_false (fun heq => hne ?_) (by simp)
        exact (Option.some.inj heq).symm
  | call hstack =>
      rw [hstack, holders_inside] at hmine
      exact h.set (by rw [holders_calling]; exact hmine) fun _ _ => Iff.rfl
  | release q hstack hholds =>
      rw [hstack, holders_of_holds hholds] at hmine
      have howner : s.owner = some thread := by
        by_contra hne
        rw [if_neg hne] at hmine
        exact Nat.succ_ne_zero _ hmine
      rw [if_pos howner] at hmine
      refine h.set ?_ fun other hne => ?_
      · rw [holders_outside, if_neg (by simp)]
        exact Nat.succ.inj hmine
      · rw [howner]
        refine iff_of_false (by simp) (fun heq => hne ?_)
        exact (Option.some.inj heq).symm
  | advance q hstack _ _ =>
      rw [hstack, holders_outside] at hmine
      exact h.set (by rw [holders_outside]; exact hmine) fun _ _ => Iff.rfl
  | leave hstack _ =>
      rw [hstack, holders_outside] at hmine
      exact h.set hmine fun _ _ => Iff.rfl

/-!
# Threads that wait for themselves
-/

/-- The thread is about to enter a critical section, inside of one of its own. -/
def SelfBlocked (locks : point -> Prop) (s : Locked point) (thread : Nat) : Prop :=
  exists p rest, s.activities thread = .outside p :: rest ∧ locks p ∧ holders rest ≠ 0

theorem SelfBlocked.owner {s : Locked point} {thread : Nat} (h : SelfBlocked locks s thread)
    (hexcl : s.Exclusive) : s.owner = some thread := by
  rcases h with ⟨p, rest, hstack, _, hholds⟩
  have hmine := hexcl thread
  rw [hstack, holders_outside] at hmine
  by_contra hne
  rw [if_neg hne] at hmine
  exact hholds hmine

/-- Nothing that any thread does frees it. -/
theorem SelfBlocked.move {s t : Locked point} {blocked thread : Nat}
    (h : SelfBlocked locks s blocked) (hexcl : s.Exclusive)
    (hmove : Move locks quiet thread s t) : SelfBlocked locks t blocked := by
  have howner := h.owner hexcl
  rcases h with ⟨p, rest, hstack, hlocks, hholds⟩
  by_cases hsame : blocked = thread
  · subst hsame
    cases hmove with
    | stay => exact ⟨p, rest, hstack, hlocks, hholds⟩
    | enter _ hother => simp [hstack] at hother
    | callBack _ hother => simp [hstack] at hother
    | acquire _ _ hfree => simp [howner] at hfree
    | call hother => simp [hstack] at hother
    | release q hother hkeeps =>
        rw [hstack] at hother
        cases hother
        exact absurd hkeeps id
    | advance q hother hnot _ =>
        rw [hstack] at hother
        cases hother
        exact absurd hlocks hnot
    | leave hother hnot =>
        rw [hstack] at hother
        cases hother
        exact absurd hlocks hnot
  · have hkept := hmove.activities_ne hsame
    exact ⟨p, rest, hkept.trans hstack, hlocks, hholds⟩

/-- Callbacks start nothing but operations that are about to end. -/
def Calm (quiet : point -> Prop) (s : Locked point) : Prop :=
  forall thread a rest, s.activities thread = a :: rest ->
    rest = [] ∨ exists p q, a = .outside p ∧ quiet p ∧ rest = [.calling q]

theorem Calm.move {s t : Locked point} {thread : Nat} (h : s.Calm quiet)
    (hlocks : forall p, quiet p -> ¬ locks p)
    (hmove : Move locks quiet thread s t)
    (hcall : forall p q rest, s.activities thread = .calling q :: rest ->
      t.activities thread = .outside p :: .calling q :: rest -> quiet p) : t.Calm quiet := by
  intro other a rest hstack
  by_cases hsame : other = thread
  · subst hsame
    cases hmove with
    | stay => exact h other a rest hstack
    | enter p _ =>
        rw [activities_set_self] at hstack
        cases hstack
        exact Or.inl rfl
    | callBack p hold =>
        have hquiet := hcall p _ _ hold (activities_set_self ..)
        rw [activities_set_self] at hstack
        cases hstack
        right
        rcases h other _ _ hold with rfl | ⟨p', q', hat, _⟩
        · exact ⟨p, _, rfl, hquiet, rfl⟩
        · cases hat
    | acquire hold hneeds _ =>
        rw [activities_set_self] at hstack
        cases hstack
        rcases h other _ _ hold with hnil | ⟨p', q', hat, hquiet, _⟩
        · exact Or.inl hnil
        · cases hat
          exact absurd hneeds (hlocks _ hquiet)
    | call hold =>
        rw [activities_set_self] at hstack
        cases hstack
        rcases h other _ _ hold with hnil | ⟨p', q', hat, _⟩
        · exact Or.inl hnil
        · cases hat
    | release q hold hholds =>
        rw [activities_set_self] at hstack
        cases hstack
        rcases h other _ _ hold with hnil | ⟨p', q', hat, _⟩
        · exact Or.inl hnil
        · rw [hat] at hholds
          exact absurd hholds id
    | advance q hold _ hnot =>
        rw [activities_set_self] at hstack
        cases hstack
        rcases h other _ _ hold with hnil | ⟨p', q', hat, hquiet, _⟩
        · exact Or.inl hnil
        · cases hat
          exact absurd hquiet hnot
    | leave hold _ =>
        rw [activities_set_self] at hstack
        rcases h other _ _ hold with hnil | ⟨p', q', _, _, hrest⟩
        · rw [hnil] at hstack
          cases hstack
        · rw [hrest] at hstack
          cases hstack
          exact Or.inl rfl
  · have hkept := hmove.activities_ne hsame
    exact h other a rest (hkept.symm.trans hstack)

/-- Under calm callbacks nobody is about to take a lock that it has. -/
theorem Calm.owner_ne {s : Locked point} (h : s.Calm quiet) (hexcl : s.Exclusive)
    (hlocks : forall p, quiet p -> ¬ locks p) {thread : Nat} {p : point}
    {rest : List (Activity point)} (hstack : s.activities thread = .outside p :: rest)
    (hneeds : locks p) : s.owner ≠ some thread := by
  intro howner
  have hmine := hexcl thread
  rw [hstack, holders_outside, if_pos howner] at hmine
  rcases h thread _ _ hstack with rfl | ⟨p', q, hat, hquiet, _⟩
  · exact Nat.zero_ne_one hmine
  · cases hat
    exact hlocks p hquiet hneeds

/-!
# Who can go on
-/

/-- Under calm callbacks some thread can go on, unless none is about anything: it holds the
lock, does not need it, or finds it free. -/
theorem Calm.exists_ready {s : Locked point} (h : s.Calm quiet) (hexcl : s.Exclusive)
    (hlocks : forall p, quiet p -> ¬ locks p) {busy : Nat} (hbusy : s.activities busy ≠ []) :
    exists thread a rest, s.activities thread = a :: rest ∧
      (a.Holds ∨ exists p, a = .outside p ∧ (locks p -> s.owner = none)) := by
  cases howner : s.owner with
  | none =>
      rcases List.exists_cons_of_ne_nil hbusy with ⟨a, rest, hstack⟩
      exists busy, a, rest, hstack
      cases a with
      | outside p => exact Or.inr ⟨p, rfl, fun _ => rfl⟩
      | inside p => exact Or.inl trivial
      | calling p => exact Or.inl trivial
  | some thread =>
      have hmine := hexcl thread
      rw [if_pos howner] at hmine
      cases hstack : s.activities thread with
      | nil =>
          rw [hstack] at hmine
          cases hmine
      | cons a rest =>
          exists thread, a, rest, hstack
          cases a with
          | outside p =>
              rcases h thread _ _ hstack with hnil | ⟨q, _, heq, hquiet, _⟩
              · rw [hstack, hnil] at hmine
                cases hmine
              · cases heq
                exact Or.inr ⟨p, rfl, fun hneeds => absurd hneeds (hlocks p hquiet)⟩
          | inside p => exact Or.inl trivial
          | calling p => exact Or.inl trivial

/-- What threads have still to do, when each activity is worth a number of steps. -/
def toGo (cost : Activity point -> Nat) (threads : Finset Nat) (s : Locked point) : Nat :=
  ∑ thread ∈ threads, ((s.activities thread).map cost).sum

theorem toGo_set_lt {cost : Activity point -> Nat} {threads : Finset Nat} {s : Locked point}
    {thread : Nat} {owner : Option Nat} {stack : List (Activity point)} (hmem : thread ∈ threads)
    (hlt : (stack.map cost).sum < ((s.activities thread).map cost).sum) :
    (s.set thread owner stack).toGo cost threads < s.toGo cost threads := by
  apply Finset.sum_lt_sum
  · intro other _
    by_cases hsame : other = thread
    · rw [hsame, activities_set_self]
      exact Nat.le_of_lt hlt
    · rw [activities_set_ne hsame]
  · exists thread, hmem
    rw [activities_set_self]
    exact hlt

end Locked

end Foundation
end Cuda2Rocm
