import Cuda2Rocm.Foundation.CasLoop
import Cuda2Rocm.Foundation.Runs
import Cuda2Rocm.Foundation.Words

/-!
# The disk access limiter

A `disk_access_limiter` counts those that hold it.  `try_acquire` raises the counter while
it is below the maximum and `release` lowers it while it is above zero, each by a loop of
weak compare-exchanges.  Any number of calls run at once, and each step is one atomic access.
-/

namespace Cuda2Rocm
namespace Memory
namespace DiskAccessLimiter

open Foundation

/-- The replacement of the counter in the loop of `try_acquire`. -/
def acquireNext (max expected : Nat) : Option Nat :=
  if expected < max then some (wrapSize (expected + 1)) else none

/-- The replacement in the loop of `release`; `cur - 1` is taken in 64 bits. -/
def releaseNext (cur : Nat) : Option Nat :=
  if cur > 0 then some (wrapSize (cur + sizeMax)) else none

/-- A call of one of the two functions, in flight or returned. -/
inductive Call where
  | acquiring (loop : CasLoop)
  | tried (acquired : Bool)
  | releasing (loop : CasLoop)
  | released
deriving DecidableEq, Repr

/-- The limiter, and every call of it in the order in which they were made. -/
structure State where
  max : Nat
  current : Nat
  calls : List Call
deriving DecidableEq, Repr

inductive Event where
  | tryAcquire
  | release
  | tick (call : Nat) (spurious : Bool)
deriving DecidableEq, Repr

/-- The next atomic access of a call: the counter after it, and what becomes of the call. -/
def Call.step (max : Nat) (spurious : Bool) (current : Nat) : Call -> Option (Nat × Call)
  | .acquiring loop =>
      match loop.step (acquireNext max) spurious current with
      | .again loop' => some (current, .acquiring loop')
      | .gaveUp => some (current, .tried false)
      | .committed next => some (next, .tried true)
  | .releasing loop =>
      match loop.step releaseNext spurious current with
      | .again loop' => some (current, .releasing loop')
      | .gaveUp => some (current, .released)
      | .committed next => some (next, .released)
  | .tried _ => none
  | .released => none

/-- The call has acquired the limiter. -/
def Call.hasAcquired : Call -> Bool
  | .tried acquired => acquired
  | _ => false

/-- The call is a release that has not returned yet. -/
def Call.isReleasing : Call -> Bool
  | .releasing _ => true
  | _ => false

/-- The call is a release that has returned. -/
def Call.hasReleased : Call -> Bool
  | .released => true
  | _ => false

namespace State

def initial (max : UInt64) : State := { max := max.toNat, current := 0, calls := [] }

def tick (s : State) (call : Nat) (spurious : Bool) : Option State :=
  match s.calls[call]? with
  | none => none
  | some before =>
      match before.step s.max spurious s.current with
      | none => none
      | some (current, after) =>
          some { s with current := current, calls := s.calls.set call after }

/-- Calls of `try_acquire` that have returned true. -/
def acquired (s : State) : Nat := s.calls.countP Call.hasAcquired

/-- Releases that have not returned yet. -/
def inRelease (s : State) : Nat := s.calls.countP Call.isReleasing

/-- Releases that have returned. -/
def released (s : State) : Nat := s.calls.countP Call.hasReleased

/-- Those that have acquired the limiter and have not called `release` since. -/
def holders (s : State) : Nat := s.acquired - (s.inRelease + s.released)

end State

def step (s : State) : Event -> Option State
  | .tryAcquire => some { s with calls := s.calls ++ [.acquiring .load] }
  | .release => some { s with calls := s.calls ++ [.releasing .load] }
  | .tick call spurious => s.tick call spurious

def limiterMachine : Machine State Event := { step := step }

/-- A release is only called while fewer have been called than calls of `try_acquire` have
returned true, so that each has one of its own to follow. -/
def Paired (s : State) : Event -> Prop
  | .release => s.inRelease + s.released < s.acquired
  | _ => True

instance (s : State) (e : Event) : Decidable (Paired s e) := by
  cases e <;> unfold Paired <;> infer_instance

/-!
# Steps of a call
-/

/-- The counter is not above the maximum that the limiter was built with. -/
structure Bounded (max : UInt64) (s : State) : Prop where
  max_eq : s.max = max.toNat
  current_le : s.current ≤ s.max

theorem Bounded.max_le {max : UInt64} {s : State} (h : Bounded max s) : s.max ≤ sizeMax := by
  rw [h.max_eq]
  exact Nat.le_pred_of_lt max.toNat_lt

/-- Everything a step of a call can do to the counter. -/
inductive Call.Moves (max current : Nat) : Call -> Nat × Call -> Prop where
  | loaded (loop : CasLoop) :
      Moves max current (.acquiring loop) (current, .acquiring (.cas current))
  | admitted (hlt : current < max) :
      Moves max current (.acquiring (.cas current)) (current + 1, .tried true)
  | refused (seen : Nat) (hle : max ≤ seen) :
      Moves max current (.acquiring (.cas seen)) (current, .tried false)
  | reloaded (loop : CasLoop) :
      Moves max current (.releasing loop) (current, .releasing (.cas current))
  | lowered (next : Nat) (heq : current = next + 1) :
      Moves max current (.releasing (.cas current)) (next, .released)
  | ignored : Moves max current (.releasing (.cas 0)) (current, .released)

theorem acquireNext_some {max cur next : Nat} (h : acquireNext max cur = some next)
    (hmax : max ≤ sizeMax) : cur < max ∧ next = cur + 1 := by
  unfold acquireNext at h
  split at h
  · rename_i hlt
    cases h
    refine ⟨hlt, wrapSize_of_lt ?_⟩
    unfold sizeMax at hmax
    omega
  · cases h

theorem acquireNext_none {max cur : Nat} (h : acquireNext max cur = none) : max ≤ cur := by
  unfold acquireNext at h
  split at h
  · cases h
  · omega

theorem releaseNext_some {cur next : Nat} (h : releaseNext cur = some next)
    (hcur : cur ≤ sizeMax) : cur = next + 1 := by
  unfold releaseNext at h
  split at h
  · rename_i hpos
    have hnext := Option.some.inj h
    unfold sizeMax at hcur
    unfold wrapSize sizeMax at hnext
    omega
  · cases h

theorem releaseNext_none {cur : Nat} (h : releaseNext cur = none) : cur = 0 := by
  unfold releaseNext at h
  split at h
  · cases h
  · omega

theorem Call.step_moves {max current : Nat} {spurious : Bool} {call : Call}
    {result : Nat × Call} (hle : current ≤ max) (hmax : max ≤ sizeMax)
    (h : call.step max spurious current = some result) :
    call.Moves max current result := by
  cases call with
  | acquiring loop =>
      simp only [step] at h
      rcases loop.step_cases (acquireNext max) spurious current with
        ⟨hstep, _⟩ | ⟨seen, rfl, hnext, hstep⟩ | ⟨next, rfl, hnext, hstep⟩
      · rw [hstep] at h
        cases h
        exact .loaded loop
      · rw [hstep] at h
        cases h
        exact .refused seen (acquireNext_none hnext)
      · rw [hstep] at h
        cases h
        rcases acquireNext_some hnext hmax with ⟨hlt, rfl⟩
        exact .admitted hlt
  | tried acquired => cases h
  | releasing loop =>
      simp only [step] at h
      rcases loop.step_cases releaseNext spurious current with
        ⟨hstep, _⟩ | ⟨seen, rfl, hnext, hstep⟩ | ⟨next, rfl, hnext, hstep⟩
      · rw [hstep] at h
        cases h
        exact .reloaded loop
      · rw [hstep] at h
        cases h
        cases releaseNext_none hnext
        exact .ignored
      · rw [hstep] at h
        cases h
        exact .lowered next (releaseNext_some hnext (Nat.le_trans hle hmax))
  | released => cases h

/-- Everything a step can do: a call is made, or goes on. -/
inductive Moves (s : State) : Event -> State -> Prop where
  | tryAcquire : Moves s .tryAcquire { s with calls := s.calls ++ [.acquiring .load] }
  | release : Moves s .release { s with calls := s.calls ++ [.releasing .load] }
  | tick {call current : Nat} {spurious : Bool} {before after : Call}
      (hcall : s.calls[call]? = some before)
      (hmoves : before.Moves s.max s.current (current, after)) :
      Moves s (.tick call spurious) { s with current := current, calls := s.calls.set call after }

theorem step_moves {max : UInt64} {s t : State} {e : Event} (hs : Bounded max s)
    (h : limiterMachine.step s e = some t) : Moves s e t := by
  cases e with
  | tryAcquire =>
      cases h
      exact .tryAcquire
  | release =>
      cases h
      exact .release
  | tick call spurious =>
      change s.tick call spurious = some t at h
      unfold State.tick at h
      split at h
      · cases h
      · rename_i before hcall
        split at h
        · cases h
        · rename_i current after hstep
          cases h
          exact .tick hcall (Call.step_moves hs.current_le hs.max_le hstep)

/-!
# What the calls have done to the counter
-/

theorem bounded_initial (max : UInt64) : Bounded max (State.initial max) where
  max_eq := rfl
  current_le := Nat.zero_le _

/-- The guard of `release` keeps the bound, whatever is called. -/
theorem bounded_step {max : UInt64} {s t : State} {e : Event} (hs : Bounded max s)
    (h : Moves s e t) : Bounded max t := by
  cases h with
  | tryAcquire => exact ⟨hs.max_eq, hs.current_le⟩
  | release => exact ⟨hs.max_eq, hs.current_le⟩
  | tick hcall hmoves =>
      refine ⟨hs.max_eq, ?_⟩
      cases hmoves with
      | loaded loop => exact hs.current_le
      | admitted hlt => exact hlt
      | refused seen hle => exact hs.current_le
      | reloaded loop => exact hs.current_le
      | lowered next heq =>
          have hle := hs.current_le
          rw [heq] at hle
          exact Nat.le_of_succ_le hle
      | ignored => exact hs.current_le

theorem ite_eq_toNat (b : Bool) : (if b = true then 1 else 0) = b.toNat := by
  cases b <;> rfl

theorem countP_replace {α : Type _} {l : List α} {i : Nat} {old : α} (h : l[i]? = some old)
    (p : α -> Bool) (new : α) :
    (l.set i new).countP p + (p old).toNat = l.countP p + (p new).toNat := by
  rcases List.getElem?_eq_some_iff.mp h with ⟨hi, rfl⟩
  have hle : (p l[i]).toNat ≤ l.countP p := by
    rw [← ite_eq_toNat]
    exact List.boole_getElem_le_countP hi
  rw [List.countP_set hi, ite_eq_toNat, ite_eq_toNat]
  omega

/-- The counter is the number of acquisitions whose releases have not returned, and a
release that is about to exchange has seen a holder. -/
structure Balanced (s : State) : Prop where
  balance : s.current + s.released = s.acquired
  releases_le : s.inRelease + s.released ≤ s.acquired
  seen : forall cur, Call.releasing (.cas cur) ∈ s.calls -> 0 < cur

theorem balanced_initial (max : UInt64) : Balanced (State.initial max) where
  balance := rfl
  releases_le := Nat.le_refl _
  seen := fun _ hmem => absurd hmem List.not_mem_nil

namespace Balanced

variable {s : State} {call : Nat} {before : Call}

/-- There is a holder while a release is in flight. -/
theorem current_pos (h : Balanced s) {loop : CasLoop}
    (hcall : s.calls[call]? = some (.releasing loop)) : 0 < s.current := by
  have hin : 0 < s.inRelease :=
    List.countP_pos_iff.mpr ⟨_, List.mem_of_getElem? hcall, rfl⟩
  have hbalance := h.balance
  have hle := h.releases_le
  omega

/-- A call goes on: it is enough that the counter changes as the counts of it do. -/
theorem replace (h : Balanced s) (hcall : s.calls[call]? = some before) {current : Nat}
    {after : Call}
    (hbalance : current + after.hasReleased.toNat + before.hasAcquired.toNat =
      s.current + before.hasReleased.toNat + after.hasAcquired.toNat)
    (hreleases :
      after.isReleasing.toNat + after.hasReleased.toNat + before.hasAcquired.toNat ≤
        before.isReleasing.toNat + before.hasReleased.toNat + after.hasAcquired.toNat)
    (hseen : forall cur, after = .releasing (.cas cur) -> 0 < cur) :
    Balanced { s with current := current, calls := s.calls.set call after } := by
  have hacquired := countP_replace hcall Call.hasAcquired after
  have hreleasing := countP_replace hcall Call.isReleasing after
  have hreleased := countP_replace hcall Call.hasReleased after
  have hsum := h.balance
  have hle := h.releases_le
  unfold State.acquired State.released at hsum
  unfold State.acquired State.inRelease State.released at hle
  constructor
  · unfold State.acquired State.released
    dsimp only
    omega
  · unfold State.acquired State.inRelease State.released
    dsimp only
    omega
  · intro cur hmem
    rcases List.mem_or_eq_of_mem_set hmem with hold | hnew
    · exact h.seen cur hold
    · exact hseen cur hnew.symm

theorem tick (h : Balanced s) (hcall : s.calls[call]? = some before) {current : Nat}
    {after : Call} (hmoves : before.Moves s.max s.current (current, after)) :
    Balanced { s with current := current, calls := s.calls.set call after } := by
  have hother : forall {c : Call}, c.isReleasing = false ->
      forall cur, c = .releasing (.cas cur) -> 0 < cur := by
    rintro c hc cur rfl
    cases hc
  cases hmoves with
  | loaded loop => exact h.replace hcall rfl (Nat.le_refl _) (hother rfl)
  | admitted hlt => exact h.replace hcall rfl (Nat.zero_le _) (hother rfl)
  | refused seen hle => exact h.replace hcall rfl (Nat.le_refl _) (hother rfl)
  | reloaded loop =>
      have hseen : forall cur, Call.releasing (.cas s.current) = .releasing (.cas cur) ->
          0 < cur := by
        intro cur heq
        cases heq
        exact h.current_pos hcall
      exact h.replace hcall rfl (Nat.le_refl _) hseen
  | lowered next heq => exact h.replace hcall heq.symm (Nat.le_refl _) (hother rfl)
  | ignored => exact absurd (h.seen 0 (List.mem_of_getElem? hcall)) (Nat.lt_irrefl 0)

/-- A call is made. -/
theorem append (h : Balanced s) {call : Call} (hacquired : call.hasAcquired = false)
    (hreleased : call.hasReleased = false)
    (hroom : s.inRelease + s.released + call.isReleasing.toNat ≤ s.acquired)
    (hseen : forall cur, call ≠ .releasing (.cas cur)) :
    Balanced { s with calls := s.calls ++ [call] } := by
  have hsum := h.balance
  unfold State.acquired State.released at hsum
  unfold State.acquired State.inRelease State.released at hroom
  have hsingle : forall p : Call -> Bool,
      (s.calls ++ [call]).countP p = s.calls.countP p + (p call).toNat := by
    intro p
    rw [List.countP_append, List.countP_singleton, ite_eq_toNat]
  constructor
  · unfold State.acquired State.released
    dsimp only
    rw [hsingle, hsingle, hacquired, hreleased]
    exact hsum
  · unfold State.acquired State.inRelease State.released
    dsimp only
    rw [hsingle, hsingle, hsingle, hacquired, hreleased]
    dsimp only [Bool.toNat_false]
    omega
  · intro cur hmem
    rcases List.mem_append.mp hmem with hold | hnew
    · exact h.seen cur hold
    · exact absurd (List.mem_singleton.mp hnew).symm (hseen cur)

theorem step (h : Balanced s) {t : State} {e : Event} (hpaired : Paired s e)
    (hmoves : Moves s e t) : Balanced t := by
  cases hmoves with
  | tryAcquire => exact h.append rfl rfl h.releases_le (fun _ heq => by cases heq)
  | release => exact h.append rfl rfl hpaired (fun _ heq => by cases heq)
  | tick hcall hmoves => exact h.tick hcall hmoves

end Balanced

/-!
# What a refused call has read
-/

/-- The call has read, by a step of its own, a counter that was not below the maximum. -/
def ReadFull (max : UInt64) (events : List Event) (call : Nat) : Prop :=
  exists first spurious rest u v, events = first ++ .tick call spurious :: rest ∧
    limiterMachine.run (State.initial max) first = some u ∧
    limiterMachine.step u (.tick call spurious) = some v ∧
    v.calls[call]? = some (.acquiring (.cas u.current)) ∧ max.toNat ≤ u.current

theorem ReadFull.append {max : UInt64} {events : List Event} {call : Nat}
    (h : ReadFull max events call) (later : List Event) :
    ReadFull max (events ++ later) call := by
  rcases h with ⟨first, spurious, rest, u, v, rfl, hread⟩
  refine ⟨first, spurious, rest ++ later, u, v, ?_, hread⟩
  rw [List.append_assoc, List.cons_append]

/-- A call is where it was, has just been made, or has gone on. -/
theorem Moves.turn {s t : State} {e : Event} (h : Moves s e t) {call : Nat} {after : Call}
    (hbefore : s.calls[call]? ≠ some after) (hafter : t.calls[call]? = some after) :
    after = .acquiring .load ∨ after = .releasing .load ∨
      exists spurious before current, e = .tick call spurious ∧
        s.calls[call]? = some before ∧ before.Moves s.max s.current (current, after) := by
  have hlast : forall {c : Call}, (s.calls ++ [c])[call]? = some after -> after = c := by
    intro c hc
    rw [List.getElem?_append] at hc
    split at hc
    · exact absurd hc hbefore
    · exact List.mem_singleton.mp (List.mem_of_getElem? hc)
  cases h with
  | tryAcquire => exact Or.inl (hlast hafter)
  | release => exact Or.inr (Or.inl (hlast hafter))
  | @tick other current spurious before after' hcall hmoves =>
      by_cases hother : other = call
      · cases hother
        rcases List.getElem?_eq_some_iff.mp hcall with ⟨hlt, _⟩
        rw [List.getElem?_set_self hlt] at hafter
        cases hafter
        exact Or.inr (Or.inr ⟨spurious, before, current, rfl, hcall, hmoves⟩)
      · rw [List.getElem?_set_ne hother] at hafter
        exact absurd hafter hbefore

section Runs

variable {max : UInt64} {events : List Event} {s : State}

theorem bounded_run (hrun : limiterMachine.run (State.initial max) events = some s) :
    Bounded max s := by
  have hstep : forall u e v, Bounded max u -> limiterMachine.step u e = some v ->
      Bounded max v := fun u e v hu huv => bounded_step hu (step_moves hu huv)
  exact Machine.invariant_run_always hstep (bounded_initial max) hrun

/-- What `try_acquire` is about to exchange it has read. -/
theorem seen_was_read (hrun : limiterMachine.run (State.initial max) events = some s)
    {call seen : Nat} (hcall : s.calls[call]? = some (.acquiring (.cas seen)))
    (hle : max.toNat ≤ seen) : ReadFull max events call := by
  have hinitial : (State.initial max).calls[call]? ≠ some (.acquiring (.cas seen)) := by
    intro h
    cases h
  rcases Machine.exists_turn (p := fun u : State =>
    u.calls[call]? = some (.acquiring (.cas seen))) hrun hinitial hcall with
    ⟨first, e, rest, u, v, rfl, hfirst, hstep, hbefore, hafter⟩
  have hmoves := step_moves (bounded_run hfirst) hstep
  rcases hmoves.turn hbefore hafter with heq | heq | ⟨spurious, before, _, rfl, _, hturn⟩
  · cases heq
  · cases heq
  · cases hturn with
    | loaded loop => exact ⟨first, spurious, rest, u, v, rfl, hfirst, hstep, hafter, hle⟩

/-- A call returns false after it has read that the limiter is full. -/
theorem refused_has_read (hrun : limiterMachine.run (State.initial max) events = some s)
    {call : Nat} (hcall : s.calls[call]? = some (.tried false)) :
    ReadFull max events call := by
  have hinitial : (State.initial max).calls[call]? ≠ some (.tried false) := by
    intro h
    cases h
  rcases Machine.exists_turn (p := fun u : State => u.calls[call]? = some (.tried false))
    hrun hinitial hcall with ⟨first, e, rest, u, v, rfl, hfirst, hstep, hbefore, hafter⟩
  have hbounded := bounded_run hfirst
  have hmoves := step_moves hbounded hstep
  rcases hmoves.turn hbefore hafter with heq | heq | ⟨spurious, before, _, rfl, hold, hturn⟩
  · cases heq
  · cases heq
  · cases hturn with
    | refused seen hle =>
        rw [hbounded.max_eq] at hle
        exact (seen_was_read hfirst hold hle).append (.tick call spurious :: rest)

end Runs

/-!
# Runs
-/

theorem Balanced.current_eq {s : State} (h : Balanced s) : s.current = s.holders + s.inRelease := by
  have hbalance := h.balance
  have hle := h.releases_le
  unfold State.holders
  omega

/-- No step moves the counter by more than one, so it never wraps. -/
def MovesByOne (s t : State) : Prop :=
  t.current = s.current ∨ t.current = s.current + 1 ∨ s.current = t.current + 1

theorem Moves.by_one {s t : State} {e : Event} (h : Moves s e t) : MovesByOne s t := by
  cases h with
  | tryAcquire => exact Or.inl rfl
  | release => exact Or.inl rfl
  | tick hcall hmoves =>
      cases hmoves with
      | loaded loop => exact Or.inl rfl
      | admitted hlt => exact Or.inr (Or.inl rfl)
      | refused seen hle => exact Or.inl rfl
      | reloaded loop => exact Or.inl rfl
      | lowered next heq => exact Or.inr (Or.inr heq)
      | ignored => exact Or.inl rfl

theorem balanced_run {max : UInt64} {events : List Event} {s : State}
    (hpaired : limiterMachine.Along Paired (State.initial max) events)
    (hrun : limiterMachine.run (State.initial max) events = some s) : Balanced s := by
  have hstep : forall u e v, Bounded max u ∧ Balanced u -> Paired u e ->
      limiterMachine.step u e = some v -> Bounded max v ∧ Balanced v := by
    intro u e v hu hok huv
    have hmoves := step_moves hu.left huv
    exact ⟨bounded_step hu.left hmoves, hu.right.step hok hmoves⟩
  exact (Machine.invariant_run hstep ⟨bounded_initial max, balanced_initial max⟩ hpaired
    hrun).right

theorem moves_by_one (max : UInt64) (events : List Event) :
    limiterMachine.Throughout (fun u _ v => MovesByOne u v) (State.initial max) events := by
  have hstep : forall u e v, Bounded max u -> True -> limiterMachine.step u e = some v ->
      Bounded max v ∧ MovesByOne u v := by
    intro u e v hu _ huv
    have hmoves := step_moves hu huv
    exact ⟨bounded_step hu hmoves, hmoves.by_one⟩
  exact Machine.throughout_of_invariant hstep (bounded_initial max)
    (Machine.along_of_events (fun _ _ => trivial))

/-- A limiter below its maximum admits the next call that runs undisturbed, also after
releases that were not paired: none of them disables it. -/
theorem admits_when_free {max : UInt64} {events : List Event} {s : State}
    (hrun : limiterMachine.run (State.initial max) events = some s) (hlt : s.current < s.max) :
    limiterMachine.run s
        [.tryAcquire, .tick s.calls.length false, .tick s.calls.length false] =
      some { s with current := s.current + 1, calls := s.calls ++ [.tried true] } := by
  have hle := (bounded_run hrun).max_le
  have hnext : acquireNext s.max s.current = some (s.current + 1) := by
    unfold sizeMax at hle
    rw [acquireNext, if_pos hlt, wrapSize_of_lt (by omega)]
  simp [Machine.run_cons, limiterMachine, step, State.tick, Call.step, CasLoop.step, hnext]

/-- What is promised of a limiter at the end of a run. -/
structure NeverOverAdmits (max : UInt64) (events : List Event) (s : State) : Prop where
  holders_eq : s.inRelease = 0 -> s.holders = s.current
  holders_le : s.holders ≤ max.toNat
  current_le : s.current ≤ max.toNat
  no_wrap : limiterMachine.Throughout (fun u _ v => MovesByOne u v) (State.initial max) events
  read_full : forall call, s.calls[call]? = some (.tried false) -> ReadFull max events call

/-- A limiter whose releases are paired with acquisitions never has more holders than its
maximum, and refuses only a call that has read a full counter. -/
theorem limiter_never_over_admits (max : UInt64) (events : List Event) (s : State)
    (hpaired : limiterMachine.Along Paired (State.initial max) events)
    (hrun : limiterMachine.run (State.initial max) events = some s) :
    NeverOverAdmits max events s := by
  have hbounded := bounded_run hrun
  have hcurrent := (balanced_run hpaired hrun).current_eq
  have hle : s.current ≤ max.toNat := by
    rw [← hbounded.max_eq]
    exact hbounded.current_le
  constructor
  · intro hidle
    rw [hcurrent, hidle, Nat.add_zero]
  · rw [hcurrent] at hle
    exact Nat.le_of_add_right_le hle
  · exact hle
  · exact moves_by_one max events
  · intro call hcall
    exact refused_has_read hrun hcall

/-- Two calls race for a limiter of one.  A third is refused on what it has read although
the winner has released meanwhile, and a fourth is admitted. -/
def oneHolder : List Event :=
  [.tryAcquire, .tryAcquire, .tick 0 false, .tick 1 false, .tick 0 false, .tick 1 false,
    .tick 1 false, .release, .tick 2 false, .tryAcquire, .tick 2 true, .tick 3 false,
    .tick 2 false, .tick 3 false, .tryAcquire, .tick 4 false, .tick 4 false]

theorem limiter_never_over_admits_oneHolder :
    exists s, limiterMachine.run (State.initial 1) oneHolder = some s ∧
      s.calls = [.tried true, .tried false, .released, .tried false, .tried true] ∧
      s.current = 1 ∧ NeverOverAdmits 1 oneHolder s :=
  ⟨_, rfl, rfl, rfl, limiter_never_over_admits 1 oneHolder _ (by decide) rfl⟩

end DiskAccessLimiter
end Memory
end Cuda2Rocm
