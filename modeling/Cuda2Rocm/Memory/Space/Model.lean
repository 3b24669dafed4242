import Cuda2Rocm.Foundation.CasLoop
import Cuda2Rocm.Foundation.Runs
import Cuda2Rocm.Foundation.Table
import Cuda2Rocm.Memory.Reservation

/-!
# Reservations on a memory space

A `memory_space` bounds the bytes reserved on it by a compare-exchange loop on one
counter.  Three functions reserve, the destructor of a reservation gives back what
its callback captured, and `grow_by` only touches the arena.
-/

namespace Cuda2Rocm
namespace Memory
namespace Space

open Foundation

/-- `get_available_memory` for a value read from the counter. -/
def available (max reserved : Nat) : Nat :=
  if max > reserved then max - reserved else 0

/-- `make_reservation`, `make_reservation_or_null` and `make_reservation_upto`. -/
inductive Flavor where
  | throwing
  | orNull
  | upto
deriving DecidableEq, Repr

/-- What is granted against the counter value seen, or none where the loop ends
without a reservation. -/
def Flavor.amount (flavor : Flavor) (max bytes cur : Nat) : Option Nat :=
  match flavor with
  | .throwing => if bytes > available max cur then none else some bytes
  | .orNull => if bytes > available max cur then none else some bytes
  | .upto =>
      let actual := min bytes (available max cur)
      if actual = 0 then none else some actual

/-- The replacement of the counter in the loop of a reserving function. -/
def reserveNext (flavor : Flavor) (max bytes cur : Nat) : Option Nat :=
  (flavor.amount max bytes cur).map (cur + ·)

/-- The replacement of the counter in the loop of `release_reservation`. -/
def releaseNext (bytes cur : Nat) : Option Nat :=
  if cur ≥ bytes then some (cur - bytes) else none

/-- How a call ends. -/
inductive Outcome where
  | reservation (rid : Nat)
  | null
  | threw (text : String)
  | released
deriving DecidableEq, Repr

/-- How a reserving function ends when nothing is granted. -/
def Flavor.refusal : Flavor -> Outcome
  | .throwing => .threw "cuCascade: insufficient memory for reservation"
  | .orNull => .null
  | .upto => .null

/-- A live reservation: the size of its arena and the bytes its callback releases. -/
structure Reserved where
  size : Nat
  captured : Nat
deriving DecidableEq, Repr

/-- A thread inside a call. -/
inductive Frame where
  | reserving (flavor : Flavor) (bytes : Nat) (loop : CasLoop)
  | releasing (bytes : Nat) (loop : CasLoop)
  | done (outcome : Outcome)
deriving DecidableEq, Repr

/-- The counters of a space, its live reservations and the threads in its calls. -/
structure State where
  max : Nat
  reserved : Nat
  live : Table Nat Reserved
  nextRid : Nat
  threads : Table Nat Frame

inductive Event where
  | reserve (thread : Nat) (flavor : Flavor) (bytes : Nat)
  | destroy (thread : Nat) (rid : Nat)
  | growBy (rid : Nat) (n : Nat)
  | tick (thread : Nat) (spurious : Bool)
  | ret (thread : Nat)
deriving DecidableEq, Repr

namespace State

/-- A space after `set_max_memory`. -/
def initial (max : UInt64) : State :=
  { max := max.toNat, reserved := 0, live := Table.empty, nextRid := 0,
    threads := Table.empty }

def setFrame (s : State) (thread : Nat) (frame : Frame) : State :=
  { s with threads := s.threads.insert thread frame }

/-- The next atomic step of a reserving function. -/
def tickReserving (s : State) (thread : Nat) (flavor : Flavor) (bytes : Nat)
    (loop : CasLoop) (spurious : Bool) : State :=
  match CasLoop.step (reserveNext flavor s.max bytes) spurious s.reserved loop with
  | .again loop' => s.setFrame thread (.reserving flavor bytes loop')
  | .gaveUp => s.setFrame thread (.done flavor.refusal)
  | .committed next =>
      let actual := next - s.reserved
      { s with
        reserved := next
        live := s.live.insert s.nextRid { size := actual, captured := actual }
        nextRid := s.nextRid + 1
        threads := s.threads.insert thread (.done (.reservation s.nextRid)) }

/-- The next atomic step of `release_reservation`. -/
def tickReleasing (s : State) (thread : Nat) (bytes : Nat) (loop : CasLoop)
    (spurious : Bool) : State :=
  match CasLoop.step (releaseNext bytes) spurious s.reserved loop with
  | .again loop' => s.setFrame thread (.releasing bytes loop')
  | .gaveUp => s.setFrame thread (.done .released)
  | .committed next =>
      { s with
        reserved := next
        threads := s.threads.insert thread (.done .released) }

end State

/-- One call, one atomic step of a call in flight, or one return. -/
def step (s : State) (e : Event) : Option State :=
  match e with
  | .reserve thread flavor bytes =>
      match s.threads.lookup thread with
      | some _ => none
      | none =>
          if bytes ≤ sizeMax then
            some (s.setFrame thread (.reserving flavor bytes .load))
          else none
  | .destroy thread rid =>
      match s.threads.lookup thread, s.live.lookup rid with
      | none, some reserved =>
          some { s with
            live := s.live.erase rid
            threads := s.threads.insert thread (.releasing reserved.captured .load) }
      | _, _ => none
  | .growBy rid n =>
      match s.live.lookup rid with
      | none => none
      | some reserved =>
          some { s with
            live := s.live.insert rid
              { reserved with size := Memory.growBy reserved.size n } }
  | .tick thread spurious =>
      match s.threads.lookup thread with
      | some (.reserving flavor bytes loop) =>
          some (s.tickReserving thread flavor bytes loop spurious)
      | some (.releasing bytes loop) =>
          some (s.tickReleasing thread bytes loop spurious)
      | _ => none
  | .ret thread =>
      match s.threads.lookup thread with
      | some (.done _) => some { s with threads := s.threads.erase thread }
      | _ => none

/-- Any number of threads over one memory space. -/
def spaceMachine : Machine State Event where
  step := step

/-!
# What is granted fits
-/

/-- A positive grant keeps the counter within the maximum. -/
theorem amount_fits {flavor : Flavor} {max bytes cur granted : Nat}
    (h : flavor.amount max bytes cur = some granted) :
    granted = 0 ∨ cur + granted ≤ max := by
  have hle : granted ≤ available max cur := by
    cases flavor with
    | throwing =>
        simp only [Flavor.amount] at h
        split at h
        · cases h
        · cases h
          omega
    | orNull =>
        simp only [Flavor.amount] at h
        split at h
        · cases h
        · cases h
          omega
    | upto =>
        simp only [Flavor.amount] at h
        split at h
        · cases h
        · cases h
          exact Nat.min_le_right _ _
  unfold available at hle
  split at hle
  · omega
  · omega

theorem releaseNext_some {bytes cur next : Nat}
    (h : releaseNext bytes cur = some next) : cur = next + bytes := by
  unfold releaseNext at h
  split at h
  · cases h
    omega
  · cases h

theorem releaseNext_of_le {bytes cur : Nat} (h : bytes ≤ cur) :
    releaseNext bytes cur = some (cur - bytes) := by
  unfold releaseNext
  rw [if_pos h]

/-!
# What a step can do
-/

/-- The state after a committed exchange of a reserving function. -/
def State.grant (s : State) (thread granted : Nat) : State :=
  { s with
    reserved := s.reserved + granted
    live := s.live.insert s.nextRid { size := granted, captured := granted }
    nextRid := s.nextRid + 1
    threads := s.threads.insert thread (.done (.reservation s.nextRid)) }

/-- A step of a reserving function loads the counter, refuses by the value it has seen,
or commits what that value allows. -/
theorem tickReserving_cases (s : State) (thread : Nat) (flavor : Flavor) (bytes : Nat)
    (loop : CasLoop) (spurious : Bool) :
    s.tickReserving thread flavor bytes loop spurious =
        s.setFrame thread (.reserving flavor bytes (.cas s.reserved)) ∨
    (exists cur, loop = .cas cur ∧ flavor.amount s.max bytes cur = none ∧
      s.tickReserving thread flavor bytes loop spurious =
        s.setFrame thread (.done flavor.refusal)) ∨
    (exists granted, loop = .cas s.reserved ∧
      flavor.amount s.max bytes s.reserved = some granted ∧
      s.tickReserving thread flavor bytes loop spurious = s.grant thread granted) := by
  unfold State.tickReserving
  rcases loop.step_cases (reserveNext flavor s.max bytes) spurious s.reserved with
    ⟨hloop, _⟩ | ⟨cur, hcur, hnone, hloop⟩ | ⟨next, hcur, hnext, hloop⟩
  · rw [hloop]
    exact Or.inl rfl
  · rw [hloop]
    exact Or.inr (Or.inl ⟨cur, hcur, Option.map_eq_none_iff.mp hnone, rfl⟩)
  · rcases Option.map_eq_some_iff.mp hnext with ⟨granted, hgranted, rfl⟩
    refine Or.inr (Or.inr ⟨granted, hcur, hgranted, ?_⟩)
    rw [hloop]
    dsimp only
    rw [Nat.add_sub_cancel_left]
    rfl

/-- The enabled steps with their guards and the states they lead to. -/
inductive Move (s : State) : Event -> State -> Prop where
  | reserve {thread : Nat} {flavor : Flavor} {bytes : Nat}
      (hidle : s.threads.lookup thread = none) (hbytes : bytes ≤ sizeMax) :
      Move s (.reserve thread flavor bytes)
        (s.setFrame thread (.reserving flavor bytes .load))
  | destroy {thread rid : Nat} {r : Reserved} (hidle : s.threads.lookup thread = none)
      (hlive : s.live.lookup rid = some r) :
      Move s (.destroy thread rid)
        { s with
          live := s.live.erase rid
          threads := s.threads.insert thread (.releasing r.captured .load) }
  | growBy {rid n : Nat} {r : Reserved} (hlive : s.live.lookup rid = some r) :
      Move s (.growBy rid n)
        { s with live := s.live.insert rid { r with size := Memory.growBy r.size n } }
  | tickReserving {thread : Nat} {spurious : Bool} {flavor : Flavor} {bytes : Nat}
      {loop : CasLoop} (hframe : s.threads.lookup thread = some (.reserving flavor bytes loop)) :
      Move s (.tick thread spurious) (s.tickReserving thread flavor bytes loop spurious)
  | tickReleasing {thread : Nat} {spurious : Bool} {bytes : Nat} {loop : CasLoop}
      (hframe : s.threads.lookup thread = some (.releasing bytes loop)) :
      Move s (.tick thread spurious) (s.tickReleasing thread bytes loop spurious)
  | ret {thread : Nat} {outcome : Outcome}
      (hframe : s.threads.lookup thread = some (.done outcome)) :
      Move s (.ret thread) { s with threads := s.threads.erase thread }

theorem step_move {s t : State} {e : Event} (h : step s e = some t) : Move s e t := by
  cases e with
  | reserve thread flavor bytes =>
      simp only [step] at h
      split at h
      · cases h
      · rename_i hidle
        split at h
        · rename_i hbytes
          cases h
          exact .reserve hidle hbytes
        · cases h
  | destroy thread rid =>
      simp only [step] at h
      split at h
      · rename_i r hidle hlive
        cases h
        exact .destroy hidle hlive
      · cases h
  | growBy rid n =>
      simp only [step] at h
      split at h
      · cases h
      · rename_i r hlive
        cases h
        exact .growBy hlive
  | tick thread spurious =>
      simp only [step] at h
      split at h
      · rename_i flavor bytes loop hframe
        cases h
        exact .tickReserving hframe
      · rename_i bytes loop hframe
        cases h
        exact .tickReleasing hframe
      · cases h
  | ret thread =>
      simp only [step] at h
      split at h
      · rename_i outcome hframe
        cases h
        exact .ret hframe
      · cases h

end Space
end Memory
end Cuda2Rocm
