import Mathlib.Logic.Basic

/-!
# Code that asks its surroundings

A piece of code ends with a result, or it asks for something (a load, an atomic operation)
and goes on with the answer.  What holds whatever the answers are holds beside any other
code that works on the same memory.
-/

namespace Cuda2Rocm
namespace Foundation

universe u v w

/-- Code with its requests, and what it does with each answer. -/
inductive Code (request : Type u) (answer : request -> Type v) (result : Type w) where
  | done (r : result)
  | ask (q : request) (next : answer q -> Code request answer result)

namespace Code

variable {request : Type u} {answer : request -> Type v}

def bind {first second : Type w} (code : Code request answer first)
    (next : first -> Code request answer second) : Code request answer second :=
  match code with
  | .done r => next r
  | .ask q rest => .ask q fun a => (rest a).bind next

instance : Monad (Code request answer) where
  pure := .done
  bind := bind

/-- One request, whose answer is the result. -/
def askFor (q : request) : Code request answer (answer q) := .ask q .done

/-- `for (i = first; left more times; ++i)`, left early where the body is done. -/
def loop {state : Type w} (body : Nat -> state -> Code request answer (ForInStep state)) :
    Nat -> Nat -> state -> Code request answer state
  | _, 0, s => pure s
  | i, left + 1, s => do
      match <- body i s with
      | .done t => pure t
      | .yield t => loop body (i + 1) left t

/-- An iteration that makes one request and decides from the answer whether to go on. -/
theorem loop_ask {answer : request -> Type w} {state : Type w}
    {body : Nat -> state -> Code request answer (ForInStep state)} {i : Nat} {s : state}
    {q : request} {decision : answer q -> ForInStep state}
    (h : body i s = askFor q >>= fun a => pure (decision a)) (left : Nat) :
    loop body i (left + 1) s = .ask q fun a =>
      match decision a with
      | .done t => pure t
      | .yield t => loop body (i + 1) left t := by
  rw [loop, h]
  rfl

/-!
# What is asked, and what comes out
-/

/-- Some answers lead to the request. -/
inductive Asks {result : Type w} : Code request answer result -> request -> Prop where
  | here {q : request} {next : answer q -> Code request answer result} : Asks (.ask q next) q
  | later {q q' : request} {next : answer q -> Code request answer result} (a : answer q)
      (h : Asks (next a) q') : Asks (.ask q next) q'

/-- Whatever the answers are, every request meets the one condition and the result the
other. -/
def Meets {result : Type w} (ok : request -> Prop) (post : result -> Prop) :
    Code request answer result -> Prop
  | .done r => post r
  | .ask q next => ok q ∧ forall a, (next a).Meets ok post

section Rules

variable {first second state : Type w} {ok : request -> Prop}

theorem Meets.asks {post : first -> Prop} {code : Code request answer first}
    (h : code.Meets ok post) {q : request} (hasks : code.Asks q) : ok q := by
  induction hasks with
  | here => exact h.1
  | later a _ ih => exact ih (h.2 a)

theorem meets_bind {post : second -> Prop} {mid : first -> Prop}
    {code : Code request answer first} {next : first -> Code request answer second}
    (hcode : code.Meets ok mid) (hnext : forall r, mid r -> (next r).Meets ok post) :
    (code >>= next).Meets ok post := by
  induction code with
  | done r => exact hnext r hcode
  | ask q rest ih => exact ⟨hcode.1, fun a => ih a (hcode.2 a)⟩

/-- A loop whose body, for every value of the counter in its range, meets the condition. -/
theorem meets_loop {body : Nat -> state -> Code request answer (ForInStep state)} {n : Nat}
    (hbody : forall i s, i < n -> (body i s).Meets ok (fun _ => True)) :
    forall {left i : Nat} {s : state}, i + left ≤ n ->
      (loop body i left s).Meets ok (fun _ => True)
  | 0, _, _, _ => trivial
  | left + 1, i, s, hrange => by
      refine meets_bind (hbody i s (by omega)) fun next _ => ?_
      cases next with
      | done t => exact trivial
      | yield t => exact meets_loop hbody (by omega)

end Rules

/-!
# Runs on a state that answers
-/

/-- The code by itself, over a state that answers its requests. -/
def run {result state : Type _} (respond : (q : request) -> state -> answer q × state) :
    Code request answer result -> state -> result × state
  | .done r, s => (r, s)
  | .ask q next, s => (next (respond q s).1).run respond (respond q s).2

section Runs

variable {first second state : Type w} {memory : Type _}
  {respond : (q : request) -> memory -> answer q × memory}

@[simp] theorem run_pure (r : first) (m : memory) :
    (pure r : Code request answer first).run respond m = (r, m) := rfl

@[simp] theorem run_askFor (q : request) (m : memory) :
    (askFor q : Code request answer (answer q)).run respond m = respond q m := rfl

theorem run_bind (code : Code request answer first) (next : first -> Code request answer second)
    (m : memory) :
    (code >>= next).run respond m =
      (next (code.run respond m).1).run respond (code.run respond m).2 := by
  induction code generalizing m with
  | done r => rfl
  | ask q rest ih => exact ih (respond q m).1 (respond q m).2

/-- A run is one way of answering. -/
theorem Meets.run {ok : request -> Prop} {post : first -> Prop}
    {code : Code request answer first} (h : code.Meets ok post) (m : memory) :
    post (code.run respond m).1 := by
  induction code generalizing m with
  | done r => exact h
  | ask q next ih => exact ih _ (h.2 _) _

section Loop

variable {body : Nat -> state -> Code request answer (ForInStep state)} {i : Nat} {s t : state}
  {m m' : memory}

theorem run_loop_done (h : (body i s).run respond m = (.done t, m')) (left : Nat) :
    (loop body i (left + 1) s).run respond m = (t, m') := by
  rw [loop, run_bind, h]
  rfl

theorem run_loop_yield (h : (body i s).run respond m = (.yield t, m')) (left : Nat) :
    (loop body i (left + 1) s).run respond m = (loop body (i + 1) left t).run respond m' := by
  rw [loop, run_bind, h]

end Loop

end Runs

end Code

end Foundation
end Cuda2Rocm
