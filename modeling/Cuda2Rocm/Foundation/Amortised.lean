import Cuda2Rocm.Foundation.Runs
import Cuda2Rocm.Foundation.Table

/-!
# Amortised costs

A potential that pays for the costs of single steps bounds the cost of a whole run.  What a
step may be granted can depend on how large the state becomes: where every call can set back
each of the others, the bound depends on how many there are.
-/

namespace Cuda2Rocm
namespace Foundation

/-- What the events of a list add up to. -/
def total {event : Type _} (price : event -> Nat) (events : List event) : Nat :=
  (events.map price).sum

section Totals

variable {event : Type _}

@[simp] theorem total_nil (price : event -> Nat) : total price [] = 0 := rfl

@[simp] theorem total_cons (price : event -> Nat) (e : event) (rest : List event) :
    total price (e :: rest) = price e + total price rest := by
  simp [total]

theorem total_mul_add (a b : Nat) (f g : event -> Nat) (events : List event) :
    total (fun e => a * f e + b * g e) events = a * total f events + b * total g events := by
  induction events with
  | nil => rfl
  | cons e rest ih =>
      rw [total_cons, total_cons, total_cons, ih, Nat.mul_add, Nat.mul_add]
      omega

end Totals

namespace Machine

variable {state event : Type _} {M : Machine state event} {size : state -> Nat}
  {gain cost : event -> Nat}

theorem size_run (hsize : forall s e t, M.step s e = some t -> size t = size s + gain e) :
    forall {events : List event} {s t : state}, M.run s events = some t ->
      size t = size s + total gain events := by
  intro events
  induction events with
  | nil =>
      intro s t hrun
      cases hrun
      rfl
  | cons e rest ih =>
      intro s t hrun
      rcases run_cons_some hrun with ⟨u, hu, hrest⟩
      rw [ih hrest, hsize s e u hu, total_cons]
      omega

/--
Each step pays its cost out of the potential and of what the event grants, while the state
is not larger than the bound; then so does every run that cannot outgrow it.
-/
theorem total_cost_le {potential : state -> Nat} {grant : event -> Nat} {bound : Nat}
    (hsize : forall s e t, M.step s e = some t -> size t ≤ size s + gain e)
    (hpay : forall s e t, size s ≤ bound -> M.step s e = some t ->
      cost e + potential t ≤ potential s + grant e) :
    forall {events : List event} {s t : state}, size s + total gain events ≤ bound ->
      M.run s events = some t ->
      total cost events + potential t ≤ potential s + total grant events := by
  intro events
  induction events with
  | nil =>
      intro s t _ hrun
      cases hrun
      simp
  | cons e rest ih =>
      intro s t hbound hrun
      rcases run_cons_some hrun with ⟨u, hu, hrest⟩
      rw [total_cons] at hbound
      have hgrows := hsize s e u hu
      have hpaid := hpay s e u (by omega) hu
      have hlater := ih (by omega) hrest
      rw [total_cons, total_cons]
      omega

/--
The same for calls that are made one by one, each of which brings a credit that depends on
how many calls there will be.
-/
theorem total_cost_le_of_calls {potential : Nat -> state -> Nat} {credit : Nat -> Nat}
    {setback : event -> Nat} {penalty : Nat}
    (hsize : forall s e t, M.step s e = some t -> size t ≤ size s + gain e)
    (hpay : forall bound s e t, size s ≤ bound -> M.step s e = some t ->
      cost e + potential bound t ≤
        potential bound s + (credit bound * gain e + penalty * setback e))
    {events : List event} {s t : state} (hempty : size s = 0)
    (hnothing : forall bound, potential bound s = 0) (hrun : M.run s events = some t) :
    total cost events + potential (total gain events) t ≤
      credit (total gain events) * total gain events + penalty * total setback events := by
  have hroom : size s + total gain events ≤ total gain events := by
    rw [hempty, Nat.zero_add]
  have hpaid := total_cost_le hsize (hpay (total gain events)) hroom hrun
  rw [hnothing, Nat.zero_add, total_mul_add] at hpaid
  exact hpaid

/-- Where somebody can always go on while calls are unfinished, and pays for it, some run
finishes them all. -/
theorem exists_run_to_rest {inv : state -> Prop} {unfinished : state -> Nat}
    {potential : Nat -> state -> Nat} {ok : event -> Prop}
    (hmove : forall s, inv s -> unfinished s ≠ 0 -> exists e t, ok e ∧
      M.step s e = some t ∧ inv t ∧ size t ≤ size s ∧
      forall bound, size s ≤ bound -> potential bound t < potential bound s)
    {s : state} (hs : inv s) : exists events t, (forall e, e ∈ events -> ok e) ∧
      M.run s events = some t ∧ inv t ∧ unfinished t = 0 := by
  have hprogress : forall u, inv u ∧ size u ≤ size s -> unfinished u = 0 ∨
      exists e v, ok e ∧ M.step u e = some v ∧ (inv v ∧ size v ≤ size s) ∧
        potential (size s) v < potential (size s) u := by
    intro u hu
    by_cases hdone : unfinished u = 0
    · exact Or.inl hdone
    · rcases hmove u hu.left hdone with ⟨e, v, hok, hstep, hv, hsize, hlower⟩
      exact Or.inr ⟨e, v, hok, hstep, ⟨hv, hsize.trans hu.right⟩, hlower (size s) hu.right⟩
  rcases exists_run_of_progress (potential (size s)) hprogress ⟨hs, Nat.le_refl _⟩ with
    ⟨events, t, hok, hrun, ht, hdone⟩
  exact ⟨events, t, hok, hrun, ht.left, hdone⟩

end Machine

/-!
# Sums over lists
-/

theorem sum_map_set {α : Type _} {xs : List α} {i : Nat} {old : α} (h : xs[i]? = some old)
    (f : α -> Nat) (new : α) :
    ((xs.set i new).map f).sum + f old = (xs.map f).sum + f new := by
  induction xs generalizing i with
  | nil => cases h
  | cons x rest ih =>
      cases i with
      | zero =>
          cases h
          simp only [List.set_cons_zero, List.map_cons, List.sum_cons]
          omega
      | succ i =>
          have hrest := ih h
          simp only [List.set_cons_succ, List.map_cons, List.sum_cons]
          omega

/-- Where each summand rises by at most so much, the sum rises by that much for each. -/
theorem sum_map_le_add {α : Type _} {f g : α -> Nat} {rise : Nat} (xs : List α)
    (h : forall x, g x ≤ f x + rise) :
    (xs.map g).sum ≤ (xs.map f).sum + rise * xs.length := by
  induction xs with
  | nil => exact Nat.zero_le _
  | cons x rest ih =>
      have hhere := h x
      have hlength : rise * (x :: rest).length = rise * rest.length + rise := by
        rw [List.length_cons, Nat.mul_succ]
      simp only [List.map_cons, List.sum_cons]
      omega

/-- One entry pays for its own change and for what that does to all the others. -/
theorem sum_map_set_le {α : Type _} {xs : List α} {i cost grant rise bound : Nat} {old new : α}
    {f g : α -> Nat} (h : xs[i]? = some old) (hbound : xs.length ≤ bound)
    (hrise : forall x, g x ≤ f x + rise)
    (hpay : cost + f new + rise * bound ≤ f old + grant) :
    cost + ((xs.set i new).map g).sum ≤ (xs.map f).sum + grant := by
  have hset := sum_map_set h f new
  have hothers := sum_map_le_add (xs.set i new) hrise
  have hlength : rise * (xs.set i new).length ≤ rise * bound := by
    rw [List.length_set]
    exact Nat.mul_le_mul_left rise hbound
  omega

/-!
# Sums over tables
-/

theorem Table.sum_const {key value : Type _} (n : Nat) (table : Table key value) :
    table.sum (fun _ _ => n) = n * table.sum (fun _ _ => 1) := by
  have h := Table.map_sum (AddMonoidHom.mulLeft n) (fun _ _ => 1) table
  simpa using h.symm

/-- The same in a table. -/
theorem Table.sum_insert_le {key value : Type _} [DecidableEq key] {table : Table key value}
    {k : key} {cost grant rise bound : Nat} {old new : value} {f g : value -> Nat}
    (h : table.lookup k = some old) (hbound : table.sum (fun _ _ => 1) ≤ bound)
    (hrise : forall v, g v ≤ f v + rise)
    (hpay : cost + f new + rise * bound ≤ f old + grant) :
    cost + (table.insert k new).sum (fun _ v => g v) ≤ table.sum (fun _ v => f v) + grant := by
  have hset := Table.sum_replace h new (fun _ v => f v)
  have hcount := Nat.add_right_cancel (Table.sum_replace h new (fun _ _ => 1))
  have hothers : (table.insert k new).sum (fun _ v => g v) ≤
      (table.insert k new).sum (fun _ v => f v) + rise * table.sum (fun _ _ => 1) :=
    calc
      (table.insert k new).sum (fun _ v => g v)
          ≤ (table.insert k new).sum (fun _ v => f v + rise) :=
            Table.sum_le_sum (fun _ v _ => hrise v)
      _ = (table.insert k new).sum (fun _ v => f v) +
            (table.insert k new).sum (fun _ _ => rise) := Table.sum_add _ _ _
      _ = (table.insert k new).sum (fun _ v => f v) + rise * table.sum (fun _ _ => 1) := by
            rw [Table.sum_const, hcount]
  have hlength := Nat.mul_le_mul_left rise hbound
  omega

end Foundation
end Cuda2Rocm
