import Cuda2Rocm.Foundation.Amortised
import Cuda2Rocm.Memory.Space.Model

/-!
# A memory space whose limit changes

`set_max_memory` may store a new limit while other threads reserve.  A reserving function
then loads the limit in one atomic step and exchanges the counter in a later one, and what
it exchanges was computed from a limit that may be gone.  Here the three accesses of such a
function are three steps.
-/

namespace Cuda2Rocm
namespace Memory
namespace Space
namespace Resizing

open Foundation

/-- The next access of a reserving function: its load of the counter, its load of the limit
with the counter value seen, or its exchange. -/
inductive Stage where
  | loadReserved
  | loadMax (cur : Nat)
  | exchange (cur granted : Nat)
deriving DecidableEq, Repr

/-- A call on the space, in flight or returned. -/
inductive Call where
  | reserving (flavor : Flavor) (bytes : UInt64) (stage : Stage)
  | releasing (bytes : Nat) (loop : CasLoop)
  | returned (outcome : Outcome)
deriving DecidableEq, Repr

/-- A space, its live reservations, and every call on it in the order of the calls. -/
structure State where
  max : Nat
  reserved : Nat
  live : Table Nat Reserved
  nextRid : Nat
  calls : List Call

inductive Event where
  | reserve (flavor : Flavor) (bytes : UInt64)
  | destroy (rid : Nat)
  | growBy (rid : Nat) (n : UInt64)
  | setMaxMemory (bytes : UInt64)
  | tick (call : Nat) (spurious : Bool)
deriving DecidableEq, Repr

namespace State

/-- A space as its constructor leaves it: without a limit nothing can be reserved. -/
def initial : State :=
  { max := 0, reserved := 0, live := Table.empty, nextRid := 0, calls := [] }

def setCall (s : State) (call : Nat) (after : Call) : State :=
  { s with calls := s.calls.set call after }

/-- The exchange of a reserving function has succeeded. -/
def grant (s : State) (call cur granted : Nat) : State :=
  { s with
    reserved := cur + granted
    live := s.live.insert s.nextRid { size := granted, captured := granted }
    nextRid := s.nextRid + 1
    calls := s.calls.set call (.returned (.reservation s.nextRid)) }

/-- The next atomic access of a reserving function. -/
def tickReserving (s : State) (call : Nat) (flavor : Flavor) (bytes : UInt64) (stage : Stage)
    (spurious : Bool) : State :=
  match stage with
  | .loadReserved => s.setCall call (.reserving flavor bytes (.loadMax s.reserved))
  | .loadMax cur =>
      match flavor.amount s.max bytes.toNat cur with
      | none => s.setCall call (.returned flavor.refusal)
      | some granted => s.setCall call (.reserving flavor bytes (.exchange cur granted))
  | .exchange cur granted =>
      if s.reserved = cur ∧ spurious = false then s.grant call cur granted
      else s.setCall call (.reserving flavor bytes (.loadMax s.reserved))

/-- The next atomic access of `release_reservation`. -/
def tickReleasing (s : State) (call : Nat) (bytes : Nat) (loop : CasLoop) (spurious : Bool) :
    State :=
  match CasLoop.step (releaseNext bytes) spurious s.reserved loop with
  | .again loop' => s.setCall call (.releasing bytes loop')
  | .gaveUp => s.setCall call (.returned .released)
  | .committed next =>
      { s with reserved := next, calls := s.calls.set call (.returned .released) }

end State

/-- A call, a change of the limit, or one atomic access of a call in flight. -/
def step (s : State) : Event -> Option State
  | .reserve flavor bytes =>
      some { s with calls := s.calls ++ [.reserving flavor bytes .loadReserved] }
  | .destroy rid =>
      match s.live.lookup rid with
      | none => none
      | some r =>
          some { s with
            live := s.live.erase rid
            calls := s.calls ++ [.releasing r.captured .load] }
  | .growBy rid n =>
      match s.live.lookup rid with
      | none => none
      | some r =>
          some { s with
            live := s.live.insert rid { r with size := Memory.growBy r.size n.toNat } }
  | .setMaxMemory bytes => some { s with max := bytes.toNat }
  | .tick call spurious =>
      match s.calls[call]? with
      | some (.reserving flavor bytes stage) =>
          some (s.tickReserving call flavor bytes stage spurious)
      | some (.releasing bytes loop) => some (s.tickReleasing call bytes loop spurious)
      | _ => none

def resizingMachine : Machine State Event := { step := step }

/-!
# What a step can do
-/

/-- The enabled steps with their guards and the states they lead to. -/
inductive Move (s : State) : Event -> State -> Prop where
  | reserve (flavor : Flavor) (bytes : UInt64) :
      Move s (.reserve flavor bytes)
        { s with calls := s.calls ++ [.reserving flavor bytes .loadReserved] }
  | destroy {rid : Nat} {r : Reserved} (hlive : s.live.lookup rid = some r) :
      Move s (.destroy rid)
        { s with
          live := s.live.erase rid
          calls := s.calls ++ [.releasing r.captured .load] }
  | growBy {rid : Nat} {n : UInt64} {r : Reserved} (hlive : s.live.lookup rid = some r) :
      Move s (.growBy rid n)
        { s with live := s.live.insert rid { r with size := Memory.growBy r.size n.toNat } }
  | setMaxMemory (bytes : UInt64) : Move s (.setMaxMemory bytes) { s with max := bytes.toNat }
  | loaded {call : Nat} {spurious : Bool} {flavor : Flavor} {bytes : UInt64}
      (hcall : s.calls[call]? = some (.reserving flavor bytes .loadReserved)) :
      Move s (.tick call spurious)
        (s.setCall call (.reserving flavor bytes (.loadMax s.reserved)))
  | refused {call cur : Nat} {spurious : Bool} {flavor : Flavor} {bytes : UInt64}
      (hcall : s.calls[call]? = some (.reserving flavor bytes (.loadMax cur)))
      (hnone : flavor.amount s.max bytes.toNat cur = none) :
      Move s (.tick call spurious) (s.setCall call (.returned flavor.refusal))
  | admitted {call cur granted : Nat} {spurious : Bool} {flavor : Flavor} {bytes : UInt64}
      (hcall : s.calls[call]? = some (.reserving flavor bytes (.loadMax cur)))
      (hgranted : flavor.amount s.max bytes.toNat cur = some granted) :
      Move s (.tick call spurious)
        (s.setCall call (.reserving flavor bytes (.exchange cur granted)))
  | granted {call granted : Nat} {flavor : Flavor} {bytes : UInt64}
      (hcall : s.calls[call]? = some (.reserving flavor bytes (.exchange s.reserved granted))) :
      Move s (.tick call false) (s.grant call s.reserved granted)
  | failed {call cur granted : Nat} {spurious : Bool} {flavor : Flavor} {bytes : UInt64}
      (hcall : s.calls[call]? = some (.reserving flavor bytes (.exchange cur granted)))
      (hfailed : s.reserved ≠ cur ∨ spurious = true) :
      Move s (.tick call spurious)
        (s.setCall call (.reserving flavor bytes (.loadMax s.reserved)))
  | releasing {call bytes : Nat} {spurious : Bool} {loop : CasLoop}
      (hcall : s.calls[call]? = some (.releasing bytes loop)) :
      Move s (.tick call spurious) (s.tickReleasing call bytes loop spurious)

theorem tickReserving_move (s : State) {call : Nat} {flavor : Flavor} {bytes : UInt64}
    {stage : Stage} (spurious : Bool)
    (hcall : s.calls[call]? = some (.reserving flavor bytes stage)) :
    Move s (.tick call spurious) (s.tickReserving call flavor bytes stage spurious) := by
  cases stage with
  | loadReserved => exact .loaded hcall
  | loadMax cur =>
      simp only [State.tickReserving]
      split
      · rename_i hnone
        exact .refused hcall hnone
      · rename_i granted hgranted
        exact .admitted hcall hgranted
  | exchange cur granted =>
      simp only [State.tickReserving]
      by_cases hsame : s.reserved = cur ∧ spurious = false
      · rw [if_pos hsame]
        rcases hsame with ⟨rfl, rfl⟩
        exact .granted hcall
      · rw [if_neg hsame]
        apply Move.failed hcall
        rcases Decidable.not_and_iff_not_or_not.mp hsame with hne | hspurious
        · exact Or.inl hne
        · exact Or.inr (by simpa using hspurious)

theorem step_move {s t : State} {e : Event} (h : step s e = some t) : Move s e t := by
  cases e with
  | reserve flavor bytes =>
      cases h
      exact .reserve flavor bytes
  | destroy rid =>
      simp only [step] at h
      split at h
      · cases h
      · rename_i r hlive
        cases h
        exact .destroy hlive
  | growBy rid n =>
      simp only [step] at h
      split at h
      · cases h
      · rename_i r hlive
        cases h
        exact .growBy hlive
  | setMaxMemory bytes =>
      cases h
      exact .setMaxMemory bytes
  | tick call spurious =>
      simp only [step] at h
      split at h
      · rename_i flavor bytes stage hcall
        cases h
        exact tickReserving_move s spurious hcall
      · rename_i bytes loop hcall
        cases h
        exact .releasing hcall
      · cases h

/-!
# The counter
-/

/-- What a call in flight still has to take off the counter. -/
def Call.owed : Call -> Nat
  | .reserving _ _ _ => 0
  | .releasing bytes _ => bytes
  | .returned _ => 0

namespace State

/-- Bytes of reservations whose release has not reached the counter yet. -/
def inFlight (s : State) : Nat := (s.calls.map Call.owed).sum

/-- Bytes that the live reservations give back when they are destroyed. -/
def liveCaptured (s : State) : Nat := s.live.sum (fun _ r => r.captured)

end State

/-- The counter is what the live reservations and the releases in flight account for. -/
structure Accounted (s : State) : Prop where
  reserved_eq : s.reserved = s.liveCaptured + s.inFlight
  rid_lt : forall rid r, s.live.lookup rid = some r -> rid < s.nextRid
  seen_le : forall bytes cur, Call.releasing bytes (.cas cur) ∈ s.calls -> bytes ≤ cur

section Accounts

variable {s t : State}

theorem inFlight_set {call : Nat} {before : Call} (hcall : s.calls[call]? = some before)
    (after : Call) :
    ((s.calls.set call after).map Call.owed).sum + before.owed = s.inFlight + after.owed :=
  sum_map_set hcall Call.owed after

theorem inFlight_append (call : Call) :
    ((s.calls ++ [call]).map Call.owed).sum = s.inFlight + call.owed := by
  rw [List.map_append, List.sum_append, List.map_singleton, List.sum_singleton]
  rfl

theorem owed_le_inFlight {call : Call} (h : call ∈ s.calls) : call.owed ≤ s.inFlight :=
  List.le_sum_of_mem (List.mem_map_of_mem h)

/-- A call goes on without touching the counter. -/
theorem Accounted.setCall (h : Accounted s) {call : Nat} {before after : Call}
    (hcall : s.calls[call]? = some before) (howed : after.owed = before.owed)
    (hseen : forall bytes cur, after = .releasing bytes (.cas cur) -> bytes ≤ cur) :
    Accounted (s.setCall call after) := by
  constructor
  · have hset := inFlight_set hcall after
    have hsum := h.reserved_eq
    show s.reserved = s.liveCaptured + ((s.calls.set call after).map Call.owed).sum
    omega
  · exact h.rid_lt
  · intro bytes cur hmem
    rcases List.mem_or_eq_of_mem_set hmem with hold | hnew
    · exact h.seen_le bytes cur hold
    · exact hseen bytes cur hnew.symm

theorem Accounted.append (h : Accounted s) {live : Table Nat Reserved} {call : Call}
    (hsum : s.liveCaptured = live.sum (fun _ r => r.captured) + call.owed)
    (hlive : forall rid r, live.lookup rid = some r -> s.live.lookup rid = some r)
    (hseen : forall bytes cur, call ≠ .releasing bytes (.cas cur)) :
    Accounted { s with live := live, calls := s.calls ++ [call] } := by
  constructor
  · have hbefore := h.reserved_eq
    show s.reserved = live.sum _ + ((s.calls ++ [call]).map Call.owed).sum
    rw [inFlight_append]
    omega
  · intro rid r hlookup
    exact h.rid_lt rid r (hlive rid r hlookup)
  · intro bytes cur hmem
    rcases List.mem_append.mp hmem with hold | hnew
    · exact h.seen_le bytes cur hold
    · exact absurd (List.mem_singleton.mp hnew).symm (hseen bytes cur)

theorem Accounted.growBy (h : Accounted s) {rid size : Nat} {r : Reserved}
    (hlive : s.live.lookup rid = some r) :
    Accounted { s with live := s.live.insert rid { r with size := size } } := by
  constructor
  · have hsplit := Table.sum_replace hlive { r with size := size } (fun _ r => r.captured)
    have hsum := h.reserved_eq
    show s.reserved = (s.live.insert rid { r with size := size }).sum _ + s.inFlight
    rw [Nat.add_right_cancel hsplit]
    exact hsum
  · intro other r' hlookup
    rcases Table.lookup_of_lookup_insert hlookup with ⟨rfl, _⟩ | ⟨_, hold⟩
    · exact h.rid_lt _ r hlive
    · exact h.rid_lt other r' hold
  · exact h.seen_le

theorem Accounted.grant (h : Accounted s) {call granted : Nat} {flavor : Flavor}
    {bytes : UInt64}
    (hcall : s.calls[call]? = some (.reserving flavor bytes (.exchange s.reserved granted))) :
    Accounted (s.grant call s.reserved granted) := by
  have hfresh : s.live.lookup s.nextRid = none := by
    cases hlookup : s.live.lookup s.nextRid with
    | none => rfl
    | some r => exact absurd (h.rid_lt s.nextRid r hlookup) (Nat.lt_irrefl _)
  constructor
  · have hlive := Table.sum_insert_of_none hfresh
      { size := granted, captured := granted : Reserved } (fun _ r => r.captured)
    have hset := inFlight_set hcall (.returned (.reservation s.nextRid))
    have hsum := h.reserved_eq
    change _ = granted + s.liveCaptured at hlive
    simp only [Call.owed, Nat.add_zero] at hset
    show s.reserved + granted = (s.live.insert s.nextRid _).sum _ +
      ((s.calls.set call (.returned (.reservation s.nextRid))).map Call.owed).sum
    rw [hlive, hset]
    omega
  · intro rid r hlookup
    rcases Table.lookup_of_lookup_insert hlookup with ⟨rfl, _⟩ | ⟨_, hold⟩
    · exact Nat.lt_succ_self _
    · exact Nat.lt_succ_of_lt (h.rid_lt rid r hold)
  · intro b cur hmem
    rcases List.mem_or_eq_of_mem_set hmem with hold | hnew
    · exact h.seen_le b cur hold
    · cases hnew

theorem Accounted.releasing (h : Accounted s) {call bytes : Nat} {loop : CasLoop}
    (spurious : Bool) (hcall : s.calls[call]? = some (.releasing bytes loop)) :
    Accounted (s.tickReleasing call bytes loop spurious) := by
  have hmem := List.mem_of_getElem? hcall
  unfold State.tickReleasing
  rcases loop.step_cases (releaseNext bytes) spurious s.reserved with
    ⟨hstep, _⟩ | ⟨cur, hloop, hnone, _⟩ | ⟨next, _, hnext, hstep⟩
  · rw [hstep]
    apply h.setCall hcall
    · rfl
    · intro bytes' cur heq
      cases heq
      have howed := owed_le_inFlight hmem
      have hsum := h.reserved_eq
      simp only [Call.owed] at howed
      omega
  · -- what the loop has seen covers what it gives back, so that it does not give up
    subst hloop
    rw [releaseNext_of_le (h.seen_le bytes cur hmem)] at hnone
    cases hnone
  · rw [hstep]
    have hnext' := releaseNext_some hnext
    constructor
    · have hset := inFlight_set hcall (.returned .released)
      have hsum := h.reserved_eq
      simp only [Call.owed, Nat.add_zero] at hset
      show next = s.liveCaptured +
        ((s.calls.set call (.returned .released)).map Call.owed).sum
      omega
    · exact h.rid_lt
    · intro b cur hmem'
      rcases List.mem_or_eq_of_mem_set hmem' with hold | hnew
      · exact h.seen_le b cur hold
      · cases hnew

theorem accounted_step {e : Event} (hinv : Accounted s) (h : step s e = some t) :
    Accounted t := by
  cases step_move h with
  | reserve flavor bytes =>
      exact hinv.append rfl (fun _ _ hlookup => hlookup) (fun _ _ heq => by cases heq)
  | @destroy rid r hlive =>
      have hsplit := Table.sum_of_lookup hlive (fun _ r => r.captured)
      apply hinv.append
      · exact hsplit.trans (Nat.add_comm _ _)
      · intro other r' hlookup
        exact (Table.lookup_of_lookup_erase hlookup).right
      · intro bytes cur heq
        cases heq
  | growBy hlive => exact hinv.growBy hlive
  | setMaxMemory bytes => exact ⟨hinv.reserved_eq, hinv.rid_lt, hinv.seen_le⟩
  | loaded hcall => exact hinv.setCall hcall rfl (fun _ _ heq => by cases heq)
  | refused hcall _ => exact hinv.setCall hcall rfl (fun _ _ heq => by cases heq)
  | admitted hcall _ => exact hinv.setCall hcall rfl (fun _ _ heq => by cases heq)
  | granted hcall => exact hinv.grant hcall
  | failed hcall _ => exact hinv.setCall hcall rfl (fun _ _ heq => by cases heq)
  | releasing hcall => exact hinv.releasing _ hcall

end Accounts

theorem accounted_initial : Accounted State.initial where
  reserved_eq := rfl
  rid_lt := fun _ _ hlookup => by cases hlookup
  seen_le := fun _ _ hmem => absurd hmem List.not_mem_nil

theorem accounted_run {events : List Event} {s : State}
    (h : resizingMachine.run State.initial events = some s) : Accounted s := by
  have hstep : forall s e t, Accounted s -> resizingMachine.step s e = some t -> Accounted t :=
    fun _ _ _ hinv hs => accounted_step hinv hs
  exact Machine.invariant_run_always hstep accounted_initial h

/-!
# Limits
-/

/-- The limit in force and every grant that is about to be exchanged stay within `limit`. -/
structure Capped (limit : Nat) (s : State) : Prop where
  max_le : s.max ≤ limit
  promised_le : forall flavor bytes cur granted,
    Call.reserving flavor bytes (.exchange cur granted) ∈ s.calls ->
      granted = 0 ∨ cur + granted ≤ limit

/-- The event stores no limit above `limit`. -/
def SetsAtMost (limit : Nat) : Event -> Prop
  | .setMaxMemory bytes => bytes.toNat ≤ limit
  | _ => True

/-- The counter falls, or it stays within `limit`. -/
def FallsOrFits (limit : Nat) (s t : State) : Prop :=
  t.reserved ≤ s.reserved ∨ t.reserved ≤ limit

section Limits

variable {limit : Nat} {s t : State}

theorem Capped.of_calls (h : Capped limit s) {reserved nextRid : Nat}
    {live : Table Nat Reserved} {calls : List Call}
    (hcalls : forall flavor bytes cur granted,
      Call.reserving flavor bytes (.exchange cur granted) ∈ calls ->
      Call.reserving flavor bytes (.exchange cur granted) ∈ s.calls ∨
        granted = 0 ∨ cur + granted ≤ limit) :
    Capped limit { max := s.max, reserved, live, nextRid, calls } := by
  constructor
  · exact h.max_le
  · intro flavor bytes cur granted hmem
    rcases hcalls flavor bytes cur granted hmem with hold | hfits
    · exact h.promised_le flavor bytes cur granted hold
    · exact hfits

/-- A call that goes on promises nothing, or what the limit allows. -/
theorem Capped.set (h : Capped limit s) {reserved nextRid call : Nat}
    {live : Table Nat Reserved} {after : Call}
    (hafter : forall flavor bytes cur granted,
      after = .reserving flavor bytes (.exchange cur granted) ->
        granted = 0 ∨ cur + granted ≤ limit) :
    Capped limit { max := s.max, reserved, live, nextRid, calls := s.calls.set call after } := by
  apply h.of_calls
  intro flavor bytes cur granted hmem
  rcases List.mem_or_eq_of_mem_set hmem with hold | hnew
  · exact Or.inl hold
  · exact Or.inr (hafter flavor bytes cur granted hnew.symm)

theorem Capped.append (h : Capped limit s) {live : Table Nat Reserved} {call : Call}
    (hcall : forall flavor bytes cur granted,
      call ≠ .reserving flavor bytes (.exchange cur granted)) :
    Capped limit { s with live := live, calls := s.calls ++ [call] } := by
  apply h.of_calls
  intro flavor bytes cur granted hmem
  rcases List.mem_append.mp hmem with hold | hnew
  · exact Or.inl hold
  · exact absurd (List.mem_singleton.mp hnew).symm (hcall flavor bytes cur granted)

/-- What is granted is what the limit allowed when it was loaded. -/
theorem capped_step {e : Event} (hinv : Capped limit s) (hok : SetsAtMost limit e)
    (h : step s e = some t) : Capped limit t ∧ FallsOrFits limit s t := by
  cases step_move h with
  | reserve flavor bytes =>
      exact ⟨hinv.append (fun _ _ _ _ heq => by cases heq), Or.inl (Nat.le_refl _)⟩
  | destroy _ => exact ⟨hinv.append (fun _ _ _ _ heq => by cases heq), Or.inl (Nat.le_refl _)⟩
  | growBy _ => exact ⟨⟨hinv.max_le, hinv.promised_le⟩, Or.inl (Nat.le_refl _)⟩
  | setMaxMemory bytes => exact ⟨⟨hok, hinv.promised_le⟩, Or.inl (Nat.le_refl _)⟩
  | loaded _ => exact ⟨hinv.set (fun _ _ _ _ heq => by cases heq), Or.inl (Nat.le_refl _)⟩
  | refused _ _ => exact ⟨hinv.set (fun _ _ _ _ heq => by cases heq), Or.inl (Nat.le_refl _)⟩
  | admitted _ hgranted =>
      refine ⟨hinv.set ?_, Or.inl (Nat.le_refl _)⟩
      intro flavor bytes cur granted heq
      cases heq
      have hmax := hinv.max_le
      rcases amount_fits hgranted with hzero | hfits
      · exact Or.inl hzero
      · exact Or.inr (hfits.trans hmax)
  | @granted call granted flavor bytes hcall =>
      refine ⟨hinv.set (fun _ _ _ _ heq => by cases heq), ?_⟩
      have hpromised := hinv.promised_le flavor bytes s.reserved granted
        (List.mem_of_getElem? hcall)
      rcases hpromised with rfl | hfits
      · exact Or.inl (Nat.le_refl _)
      · exact Or.inr hfits
  | failed _ _ => exact ⟨hinv.set (fun _ _ _ _ heq => by cases heq), Or.inl (Nat.le_refl _)⟩
  | @releasing call bytes spurious loop _ =>
      unfold State.tickReleasing
      rcases loop.step_cases (releaseNext bytes) spurious s.reserved with
        ⟨hstep, _⟩ | ⟨_, _, _, hstep⟩ | ⟨next, _, hnext, hstep⟩
      · rw [hstep]
        exact ⟨hinv.set (fun _ _ _ _ heq => by cases heq), Or.inl (Nat.le_refl _)⟩
      · rw [hstep]
        exact ⟨hinv.set (fun _ _ _ _ heq => by cases heq), Or.inl (Nat.le_refl _)⟩
      · rw [hstep]
        refine ⟨hinv.set (fun _ _ _ _ heq => by cases heq), Or.inl ?_⟩
        rw [releaseNext_some hnext]
        exact Nat.le_add_right next bytes

/-- No limit above `limit` is stored in the events. -/
def LimitsAtMost (limit : Nat) (events : List Event) : Prop :=
  forall bytes, Event.setMaxMemory bytes ∈ events -> bytes.toNat ≤ limit

theorem LimitsAtMost.along {events : List Event} (h : LimitsAtMost limit events) (s : State) :
    resizingMachine.Along (fun _ e => SetsAtMost limit e) s events := by
  apply Machine.along_of_events
  intro e he
  cases e with
  | setMaxMemory bytes => exact h bytes he
  | reserve flavor bytes => trivial
  | destroy rid => trivial
  | growBy rid n => trivial
  | tick call spurious => trivial

theorem falls_or_fits {later : List Event} (hcapped : Capped limit s)
    (hlater : LimitsAtMost limit later) :
    resizingMachine.Throughout (fun u _ v => FallsOrFits limit u v) s later := by
  have hstep : forall u e v, Capped limit u -> SetsAtMost limit e ->
      resizingMachine.step u e = some v -> Capped limit v ∧ FallsOrFits limit u v :=
    fun _ _ _ hinv hok h => capped_step hinv hok h
  exact Machine.throughout_of_invariant hstep hcapped (hlater.along s)

theorem reserved_le_of_capped {events : List Event} (hcapped : Capped limit s)
    (hreserved : s.reserved ≤ limit) (hevents : LimitsAtMost limit events)
    (hrun : resizingMachine.run s events = some t) : t.reserved ≤ limit := by
  have hstep : forall u e v, Capped limit u ∧ u.reserved ≤ limit -> SetsAtMost limit e ->
      resizingMachine.step u e = some v -> Capped limit v ∧ v.reserved ≤ limit := by
    intro u e v hu hok h
    rcases capped_step hu.left hok h with ⟨hcapped, hfalls | hfits⟩
    · exact ⟨hcapped, hfalls.trans hu.right⟩
    · exact ⟨hcapped, hfits⟩
  exact (Machine.invariant_run hstep ⟨hcapped, hreserved⟩ (hevents.along s) hrun).right

end Limits

/-- What is promised of a space whose limit changes. -/
structure HoldsLimits (events : List Event) (s : State) : Prop where
  reserved_eq : s.reserved = s.liveCaptured + s.inFlight
  reserved_le : forall limit, LimitsAtMost limit events -> s.reserved ≤ limit
  lowered : forall limit, Capped limit s -> forall later, LimitsAtMost limit later ->
    resizingMachine.Throughout (fun u _ v => FallsOrFits limit u v) s later

/-- Reservations and changes of the limit at once: the counter stays exact and never exceeds
the largest limit of the run, and a lowered limit binds every grant but those that were
about to be exchanged. -/
theorem changed_limits_hold (events : List Event) (s : State)
    (hrun : resizingMachine.run State.initial events = some s) : HoldsLimits events s := by
  constructor
  · exact (accounted_run hrun).reserved_eq
  · intro limit hevents
    have hinitial : Capped limit State.initial :=
      ⟨Nat.zero_le limit, fun _ _ _ _ hmem => absurd hmem List.not_mem_nil⟩
    exact reserved_le_of_capped hinitial (Nat.zero_le limit) hevents hrun
  · intro limit hcapped later hlater
    exact falls_or_fits hcapped hlater

/-- The limit is lowered between the load of it and the exchange: the grant of the first
call goes through, and the second call is refused by the new limit. -/
def lowered : List Event :=
  [.setMaxMemory 10, .reserve .throwing 8, .reserve .upto 8, .tick 0 false, .tick 0 false,
    .tick 1 false, .setMaxMemory 5, .tick 0 false, .tick 1 false, .tick 1 false, .tick 1 false,
    .destroy 0, .tick 2 false, .tick 2 false]

theorem changed_limits_hold_lowered :
    exists s, resizingMachine.run State.initial lowered = some s ∧ s.reserved = 0 ∧
      s.calls = [.returned (.reservation 0), .returned .null, .returned .released] ∧
      HoldsLimits lowered s :=
  ⟨_, rfl, rfl, rfl, changed_limits_hold lowered _ rfl⟩

end Resizing
end Space
end Memory
end Cuda2Rocm
