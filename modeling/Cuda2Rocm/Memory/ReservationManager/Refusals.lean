import Cuda2Rocm.Memory.ReservationManager.Model

/-!
# Refusals of a request

A refusal is right when every matching space was seen too full.  The one way to a
wrong refusal is a lost race in the first pass: the spaces behind the lost one are
never asked, because the second pass answers with its first matching space.
-/

namespace Cuda2Rocm
namespace Memory
namespace ReservationManager

open Foundation

variable {request : Request} {s t : State}

/-- A space that had room for the request in every state since the call began. -/
def RoomThroughout (request : Request) (s : State) (i : Nat) : Prop :=
  request.bytes ≤ Space.available (request.maxOf i) (s.peak i)

/-- What the call may answer. -/
structure AnswersRightly (request : Request) (s : State) : Prop where
  granted : forall i size, s.pc = .returned (.reservation i size) ->
    request.matchesAt i = true ∧ size = request.bytes
  refused : s.pc = .returned .null ->
    forall i, request.matchesAt i = true -> i ∈ s.seenFull
  threw : forall text, s.pc = .returned (.threw text) ->
    forall i, request.matchesAt i = false
  room : forall i, request.matchesAt i = true -> RoomThroughout request s i ->
    forall answer, s.pc = .returned answer ->
      exists j, answer = .reservation j request.bytes

/--
The second pass refuses only after the first one has asked every matching space:
no race was lost, or it was lost on the last matching space.
-/
def RefusesInformed (request : Request) (s : State) : Event -> Prop
  | .tick _ => forall i cur lost,
      s.pc = .makeReservationOrNull i (.cas cur) (some lost) ->
      Space.reserveNext .orNull (request.maxOf i) request.bytes cur = none ->
      forall j, lost < j -> request.matchesAt j = false
  | _ => True

/-- All matching spaces below a position were seen too full, and none from it on. -/
structure SeenBelow (request : Request) (seenFull : List Nat) (i : Nat) : Prop where
  seen : forall j, j < i -> request.matchesAt j = true -> j ∈ seenFull
  below : forall j, j ∈ seenFull -> j < i

/-- What the second pass knows from the first. -/
def Remembers (request : Request) (seenFull : List Nat) : Option Nat -> Prop
  | none => SeenBelow request seenFull request.spaces.length
  | some lost =>
      SeenBelow request seenFull (lost + 1) ∧ request.matchesAt lost = true

/-- What the position of the call says about the spaces asked so far. -/
def Explored (request : Request) (seenFull : List Nat) : Pc -> Prop
  | .check i => i ≤ request.spaces.length ∧ SeenBelow request seenFull i
  | .makeReservation i _ =>
      SeenBelow request seenFull i ∧ request.matchesAt i = true
  | .scan i lost => Remembers request seenFull lost ∧
      forall j, j < i -> request.matchesAt j = false
  | .makeReservationOrNull i _ lost => Remembers request seenFull lost ∧
      request.matchesAt i = true ∧ forall j, j < i -> request.matchesAt j = false
  | .count i => request.matchesAt i = true
  | .returned (.reservation i size) =>
      request.matchesAt i = true ∧ size = request.bytes
  | .returned .null => forall i, request.matchesAt i = true -> i ∈ seenFull
  | .returned (.threw _) => forall i, request.matchesAt i = false

/-- The counter value a loop of the call holds, with its space. -/
def Pc.held : Pc -> Option (Nat × Nat)
  | .makeReservation i (.cas cur) => some (i, cur)
  | .makeReservationOrNull i (.cas cur) _ => some (i, cur)
  | _ => none

/-- What the call has seen of a space was a value of its counter since the call
began. -/
structure SeenValues (request : Request) (s : State) : Prop where
  current : forall i, s.reserved i ≤ s.peak i
  full : forall i, i ∈ s.seenFull -> ¬ RoomThroughout request s i
  held : forall i cur, s.pc.held = some (i, cur) -> cur ≤ s.peak i

theorem available_antitone {max small large : Nat} (h : small ≤ large) :
    Space.available max large ≤ Space.available max small := by
  unfold Space.available
  split
  · split
    · omega
    · omega
  · exact Nat.zero_le _

/-- A value too large for the request belongs to a space that ran short of room. -/
theorem not_room_of_seen {i cur : Nat} (hseen : cur ≤ s.peak i)
    (hfull : Space.available (request.maxOf i) cur < request.bytes) :
    ¬ RoomThroughout request s i := by
  intro hroom
  have hle : Space.available (request.maxOf i) (s.peak i) ≤ _ :=
    available_antitone hseen
  unfold RoomThroughout at hroom
  omega

theorem reserveNext_none_throwing {max bytes cur : Nat}
    (h : Space.reserveNext .throwing max bytes cur = none) :
    Space.available max cur < bytes := by
  by_contra hle
  simp [Space.reserveNext, Space.Flavor.amount, hle] at h

theorem reserveNext_none_orNull {max bytes cur : Nat}
    (h : Space.reserveNext .orNull max bytes cur = none) :
    Space.available max cur < bytes := by
  by_contra hle
  simp [Space.reserveNext, Space.Flavor.amount, hle] at h

/-!
# Values seen
-/

theorem SeenValues.setPc (h : SeenValues request s) {pc : Pc}
    (hheld : forall i cur, pc.held = some (i, cur) -> cur ≤ s.peak i) :
    SeenValues request (s.setPc pc) :=
  { current := h.current, full := h.full, held := hheld }

theorem SeenValues.setPc_of_none (h : SeenValues request s) {pc : Pc}
    (hnone : pc.held = none) : SeenValues request (s.setPc pc) := by
  apply h.setPc
  intro i cur hheld
  rw [hnone] at hheld
  cases hheld

theorem SeenValues.markFull (h : SeenValues request s) {i cur : Nat}
    (hseen : cur ≤ s.peak i)
    (hfull : Space.available (request.maxOf i) cur < request.bytes) :
    SeenValues request (s.markFull i) := by
  constructor
  · exact h.current
  · intro j hj
    rcases List.mem_cons.mp hj with rfl | hold
    · exact not_room_of_seen hseen hfull
    · exact h.full j hold
  · exact h.held

theorem peak_le_setReserved (s : State) (i value j : Nat) :
    s.peak j ≤ (s.setReserved i value).peak j := by
  simp only [State.setReserved, Function.update_apply]
  split
  · rename_i hji
    rw [hji]
    exact Nat.le_max_left _ _
  · exact Nat.le_refl _

theorem SeenValues.setReserved (h : SeenValues request s) (i value : Nat) :
    SeenValues request (s.setReserved i value) := by
  constructor
  · intro j
    simp only [State.setReserved, Function.update_apply]
    split
    · exact Nat.le_max_right _ _
    · exact h.current j
  · intro j hj hroom
    have hle : Space.available (request.maxOf j) _ ≤ _ :=
      available_antitone (peak_le_setReserved s i value j)
    exact h.full j hj (Nat.le_trans hroom hle)
  · intro j cur hheld
    exact Nat.le_trans (h.held j cur hheld) (peak_le_setReserved s i value j)

/-- A loop that goes on holds the value it has just read. -/
theorem SeenValues.setPc_of_current (h : SeenValues request s) {pc : Pc} {i : Nat}
    (hheld : pc.held = some (i, s.reserved i)) : SeenValues request (s.setPc pc) := by
  apply h.setPc
  intro j cur hcur
  rw [hheld] at hcur
  cases hcur
  exact h.current i

theorem seenValues_tick {spurious : Bool} (hinv : SeenValues request s)
    (htick : Tick request spurious s t) : SeenValues request t := by
  cases htick with
  | found _ _ => exact hinv.setPc_of_none rfl
  | short _ _ hshort => exact (hinv.markFull (hinv.current _) hshort).setPc_of_none rfl
  | skip _ _ _ => exact hinv.setPc_of_none rfl
  | searched _ _ => exact hinv.setPc_of_none rfl
  | retry _ _ => exact hinv.setPc_of_current rfl
  | lose hpc hnone =>
      have hseen := hinv.held _ _ (congrArg Pc.held hpc)
      exact (hinv.markFull hseen (reserveNext_none_throwing hnone)).setPc_of_none rfl
  | win _ _ => exact (hinv.setReserved _ _).setPc_of_none rfl
  | scanFound _ _ => exact hinv.setPc_of_none rfl
  | scanSkip _ _ _ => exact hinv.setPc_of_none rfl
  | scanEnd _ _ _ => exact hinv.setPc_of_none rfl
  | retryOrNull _ _ => exact hinv.setPc_of_current rfl
  | refuse hpc hnone =>
      have hseen := hinv.held _ _ (congrArg Pc.held hpc)
      exact (hinv.markFull hseen (reserveNext_none_orNull hnone)).setPc_of_none rfl
  | winOrNull _ _ => exact (hinv.setReserved _ _).setPc_of_none rfl
  | count _ =>
      exact
        { current := hinv.current
          full := hinv.full
          held := fun j cur hheld => by cases hheld }

theorem step_tick {spurious : Bool} (h : step request s (.tick spurious) = some t) :
    exists u, Tick request spurious s u ∧
      t = { u with
        ticks := u.ticks + 1
        failures := u.failures + (if spurious then 1 else 0) } := by
  simp only [step] at h
  split at h
  · cases h
  · rename_i u hu
    exact ⟨u, tick_cases hu, (Option.some.inj h).symm⟩

theorem step_other {e : Event} (h : step request s e = some t)
    (hother : forall spurious, e ≠ .tick spurious) :
    exists i value, t = { s.setReserved i value with others := s.others + 1 } := by
  cases e with
  | tick spurious => exact absurd rfl (hother spurious)
  | otherReserve i bytes =>
      simp only [step] at h
      split at h
      · exact ⟨i, _, (Option.some.inj h).symm⟩
      · cases h
  | otherRelease i bytes =>
      simp only [step] at h
      split at h
      · exact ⟨i, _, (Option.some.inj h).symm⟩
      · cases h

theorem seenValues_step {e : Event} (hinv : SeenValues request s)
    (h : step request s e = some t) : SeenValues request t := by
  have hother : (forall spurious, e ≠ .tick spurious) -> SeenValues request t := by
    intro hne
    rcases step_other h hne with ⟨i, value, rfl⟩
    have hset := hinv.setReserved i value
    exact { current := hset.current, full := hset.full, held := hset.held }
  cases e with
  | tick spurious =>
      rcases step_tick h with ⟨u, hu, rfl⟩
      have hnext := seenValues_tick hinv hu
      exact { current := hnext.current, full := hnext.full, held := hnext.held }
  | otherReserve i bytes => exact hother (fun _ heq => by cases heq)
  | otherRelease i bytes => exact hother (fun _ heq => by cases heq)

/-!
# Spaces asked
-/

section Exploration

variable {seenFull : List Nat} {i : Nat}

theorem SeenBelow.next (h : SeenBelow request seenFull i)
    (hskip : request.matchesAt i = false) : SeenBelow request seenFull (i + 1) := by
  constructor
  · intro j hj hmatch
    rcases Nat.lt_succ_iff_lt_or_eq.mp hj with hlt | rfl
    · exact h.seen j hlt hmatch
    · rw [hskip] at hmatch
      cases hmatch
  · intro j hj
    exact Nat.lt_succ_of_lt (h.below j hj)

theorem SeenBelow.cons (h : SeenBelow request seenFull i) :
    SeenBelow request (i :: seenFull) (i + 1) := by
  constructor
  · intro j hj hmatch
    rcases Nat.lt_succ_iff_lt_or_eq.mp hj with hlt | rfl
    · exact List.mem_cons_of_mem i (h.seen j hlt hmatch)
    · exact List.mem_cons_self
  · intro j hj
    rcases List.mem_cons.mp hj with rfl | hold
    · exact Nat.lt_succ_self j
    · exact Nat.lt_succ_of_lt (h.below j hold)

/-- When a first pass without a lost race or with one at the last matching space is
over, all matching spaces were seen too full. -/
theorem Remembers.all_seen {lost : Option Nat} (h : Remembers request seenFull lost)
    (hlast : forall l, lost = some l -> forall j, l < j -> request.matchesAt j = false)
    {j : Nat} (hmatch : request.matchesAt j = true) : j ∈ seenFull := by
  cases lost with
  | none => exact h.seen j (request.lt_of_matchesAt hmatch) hmatch
  | some l =>
      apply h.left.seen j _ hmatch
      by_contra hlt
      have hfalse := hlast l rfl j (by omega)
      rw [hfalse] at hmatch
      cases hmatch

end Exploration

theorem unmatched_succ {i : Nat} (hnone : forall j, j < i -> request.matchesAt j = false)
    (hskip : request.matchesAt i = false) :
    forall j, j < i + 1 -> request.matchesAt j = false := by
  intro j hj
  rcases Nat.lt_succ_iff_lt_or_eq.mp hj with hlt | rfl
  · exact hnone j hlt
  · exact hskip

/-- A step of the call takes what it explored along, when it refuses informed. -/
theorem explored_tick {spurious : Bool} (hinv : Explored request s.seenFull s.pc)
    (hok : RefusesInformed request s (.tick spurious))
    (htick : Tick request spurious s t) : Explored request t.seenFull t.pc := by
  cases htick with
  | found hpc hmatch =>
      rw [hpc] at hinv
      exact ⟨hinv.right, hmatch⟩
  | short hpc hlt _ =>
      rw [hpc] at hinv
      exact ⟨hlt, hinv.right.cons⟩
  | skip hpc hlt hskip =>
      rw [hpc] at hinv
      exact ⟨hlt, hinv.right.next hskip⟩
  | searched hpc hend =>
      rw [hpc] at hinv
      have hseen := hinv.right
      rw [Nat.le_antisymm hinv.left hend] at hseen
      exact ⟨hseen, fun j hj => absurd hj (Nat.not_lt_zero j)⟩
  | retry hpc _ =>
      rw [hpc] at hinv
      exact hinv
  | lose hpc _ =>
      rw [hpc] at hinv
      exact ⟨⟨hinv.left.cons, hinv.right⟩, fun j hj => absurd hj (Nat.not_lt_zero j)⟩
  | win hpc _ =>
      rw [hpc] at hinv
      exact hinv.right
  | scanFound hpc hmatch =>
      rw [hpc] at hinv
      exact ⟨hinv.left, hmatch, hinv.right⟩
  | scanSkip hpc _ hskip =>
      rw [hpc] at hinv
      exact ⟨hinv.left, unmatched_succ hinv.right hskip⟩
  | scanEnd hpc hend text =>
      rw [hpc] at hinv
      intro j
      cases hmatch : request.matchesAt j with
      | false => rfl
      | true =>
          have hlt := request.lt_of_matchesAt hmatch
          have hfalse := hinv.right j (hlt.trans_le hend)
          rw [hmatch] at hfalse
          cases hfalse
  | retryOrNull hpc _ =>
      rw [hpc] at hinv
      exact hinv
  | @refuse i cur lost hpc hnone =>
      rw [hpc] at hinv
      intro j hj
      apply List.mem_cons_of_mem i
      apply hinv.left.all_seen _ hj
      intro l hl
      subst hl
      exact hok i cur l hpc hnone
  | winOrNull hpc _ =>
      rw [hpc] at hinv
      exact hinv.right.left
  | count hpc =>
      rw [hpc] at hinv
      exact ⟨hinv, rfl⟩

theorem explored_step {e : Event} (hinv : Explored request s.seenFull s.pc)
    (hok : RefusesInformed request s e) (h : step request s e = some t) :
    Explored request t.seenFull t.pc := by
  have hother : (forall spurious, e ≠ .tick spurious) ->
      Explored request t.seenFull t.pc := by
    intro hne
    rcases step_other h hne with ⟨i, value, rfl⟩
    exact hinv
  cases e with
  | tick spurious =>
      rcases step_tick h with ⟨u, hu, rfl⟩
      have hnext := explored_tick hinv hok hu
      exact hnext
  | otherReserve i bytes => exact hother (fun _ heq => by cases heq)
  | otherRelease i bytes => exact hother (fun _ heq => by cases heq)

/-!
# Right answers
-/

/-- The invariant of a call that has only refused informed. -/
structure OnTrack (request : Request) (s : State) : Prop where
  explored : Explored request s.seenFull s.pc
  values : SeenValues request s

theorem OnTrack.answersRightly (h : OnTrack request s) : AnswersRightly request s := by
  have hexplored := h.explored
  have hrefused : s.pc = .returned .null ->
      forall i, request.matchesAt i = true -> i ∈ s.seenFull := by
    intro hpc
    rw [hpc] at hexplored
    exact hexplored
  have hthrew : forall text, s.pc = .returned (.threw text) ->
      forall i, request.matchesAt i = false := by
    intro text hpc
    rw [hpc] at hexplored
    exact hexplored
  have hgranted : forall i size, s.pc = .returned (.reservation i size) ->
      request.matchesAt i = true ∧ size = request.bytes := by
    intro i size hpc
    rw [hpc] at hexplored
    exact hexplored
  refine ⟨hgranted, hrefused, hthrew, ?_⟩
  intro i hmatch hroom answer hpc
  cases answer with
  | reservation j size =>
      have hsize := (hgranted j size hpc).right
      exact ⟨j, by rw [hsize]⟩
  | null => exact absurd hroom (h.values.full i (hrefused hpc i hmatch))
  | threw text =>
      have hfalse := hthrew text hpc i
      rw [hmatch] at hfalse
      cases hfalse

/-- An uninformed refusal leaves a matching space unasked. -/
theorem refusesInformed_of_answer {e : Event} (hinv : OnTrack request s)
    (h : step request s e = some t) (hgood : AnswersRightly request t) :
    RefusesInformed request s e := by
  cases e with
  | tick spurious =>
      intro i cur lost hpc hgive j hj
      cases hmatch : request.matchesAt j with
      | false => rfl
      | true =>
          have hexplored := hinv.explored
          rw [hpc] at hexplored
          rcases hexplored with ⟨⟨hseen, hlost⟩, _, hnone⟩
          have hgaveUp : CasLoop.step
              (Space.reserveNext .orNull (request.maxOf i) request.bytes) spurious
              (s.reserved i) (.cas cur) = .gaveUp := by
            simp [CasLoop.step, hgive]
          simp only [step, State.tick, hpc, State.tickMakeReservationOrNull, hgaveUp] at h
          cases h
          have hasked := hgood.refused rfl j hmatch
          rcases List.mem_cons.mp hasked with rfl | hold
          · -- the first matching space comes no later than the lost one
            have hfalse := hnone lost hj
            rw [hlost] at hfalse
            cases hfalse
          · have hbelow := hseen.below j hold
            omega
  | otherReserve i bytes => trivial
  | otherRelease i bytes => trivial

/-!
# The call returns

Each step of the call brings it closer to its end, except a failed exchange; and an
exchange only fails spuriously or because another thread has moved the counter since
the call last read it.
-/

/-- Steps a call has at most in front of it, failed exchanges apart. -/
def Pc.remaining (n : Nat) : Pc -> Nat
  | .check i => (n - i) + n + 7
  | .makeReservation _ .load => n + 6
  | .makeReservation _ (.cas _) => n + 5
  | .scan i _ => (n - i) + 4
  | .makeReservationOrNull _ .load _ => 3
  | .makeReservationOrNull _ (.cas _) _ => 2
  | .count _ => 1
  | .returned _ => 0

/-- The value a loop of the call holds is out of date. -/
def stale (s : State) : Nat :=
  match s.pc.held with
  | none => 0
  | some (i, cur) => if s.reserved i = cur then 0 else 1

theorem stale_le (s : State) : stale s ≤ 1 := by
  unfold stale
  split
  · exact Nat.zero_le 1
  · split
    · exact Nat.zero_le 1
    · exact Nat.le_refl 1

/-- The steps of the call so far are paid for by the way it has come, by the other
threads and by spurious failures. -/
def Paid (request : Request) (s : State) : Prop :=
  s.ticks + s.pc.remaining request.spaces.length + stale s ≤
    2 * request.spaces.length + 7 + s.others + s.failures

theorem stale_of_held_none (h : s.pc.held = none) : stale s = 0 := by
  unfold stale
  rw [h]

theorem stale_of_held {i cur : Nat} (h : s.pc.held = some (i, cur))
    (hcur : s.reserved i = cur) : stale s = 0 := by
  unfold stale
  rw [h]
  exact if_pos hcur

theorem stale_of_moved {i cur : Nat} (h : s.pc.held = some (i, cur))
    (hcur : s.reserved i ≠ cur) : stale s = 1 := by
  unfold stale
  rw [h]
  exact if_neg hcur

/-- A loop that goes on has read the counter, or its exchange was made to fail. -/
theorem remaining_retry {spurious : Bool} {i n : Nat} {loop : CasLoop} (pc : CasLoop -> Pc)
    (hheld : forall cur, (pc (.cas cur)).held = some (i, cur))
    (hload : forall cur, (pc (.cas cur)).remaining n + 1 = (pc .load).remaining n)
    (hpc : s.pc = pc loop)
    (hwhy : loop = .load ∨
      exists cur, loop = .cas cur ∧ (s.reserved i ≠ cur ∨ spurious = true)) :
    (pc (.cas (s.reserved i))).remaining n + stale (s.setPc (pc (.cas (s.reserved i)))) + 1 ≤
      s.pc.remaining n + stale s + (if spurious then 1 else 0) := by
  have hnow := hload (s.reserved i)
  rw [stale_of_held (s := s.setPc (pc (.cas (s.reserved i)))) (hheld _) rfl, hpc]
  rcases hwhy with rfl | ⟨cur, rfl, hmoved | rfl⟩
  · omega
  · have hthen := hload cur
    rw [stale_of_moved (by rw [hpc]; exact hheld cur) hmoved]
    omega
  · have hthen := hload cur
    rw [if_pos rfl]
    omega

/-- A step of the call gets closer to the end, or was made to fail. -/
theorem remaining_tick {spurious : Bool} (htick : Tick request spurious s t) :
    t.pc.remaining request.spaces.length + stale t + 1 ≤
      s.pc.remaining request.spaces.length + stale s + (if spurious then 1 else 0) := by
  have hcloser : forall {u : State}, u.pc.held = none ->
      u.pc.remaining request.spaces.length < s.pc.remaining request.spaces.length ->
      u.pc.remaining request.spaces.length + stale u + 1 ≤
        s.pc.remaining request.spaces.length + stale s + (if spurious then 1 else 0) := by
    intro u hnone hlt
    rw [stale_of_held_none hnone]
    omega
  cases htick with
  | found hpc hmatch =>
      refine hcloser rfl ?_
      simp only [hpc, State.setPc, Pc.remaining]
      omega
  | short hpc hlt _ =>
      refine hcloser rfl ?_
      simp only [hpc, State.setPc, Pc.remaining]
      omega
  | skip hpc hlt _ =>
      refine hcloser rfl ?_
      simp only [hpc, State.setPc, Pc.remaining]
      omega
  | searched hpc _ =>
      refine hcloser rfl ?_
      simp only [hpc, State.setPc, Pc.remaining]
      omega
  | @retry i loop hpc hwhy =>
      exact remaining_retry (.makeReservation i) (fun _ => rfl) (fun _ => rfl) hpc hwhy
  | lose hpc _ =>
      refine hcloser rfl ?_
      simp only [hpc, State.setPc, Pc.remaining]
      omega
  | win hpc _ =>
      refine hcloser rfl ?_
      simp only [hpc, State.setPc, Pc.remaining]
      omega
  | scanFound hpc _ =>
      refine hcloser rfl ?_
      simp only [hpc, State.setPc, Pc.remaining]
      omega
  | scanSkip hpc hlt _ =>
      refine hcloser rfl ?_
      simp only [hpc, State.setPc, Pc.remaining]
      omega
  | scanEnd hpc _ _ =>
      refine hcloser rfl ?_
      simp only [hpc, State.setPc, Pc.remaining]
      omega
  | @retryOrNull i loop lost hpc hwhy =>
      exact remaining_retry (fun loop => .makeReservationOrNull i loop lost) (fun _ => rfl)
        (fun _ => rfl) hpc hwhy
  | refuse hpc _ =>
      refine hcloser rfl ?_
      simp only [hpc, State.setPc, Pc.remaining]
      omega
  | winOrNull hpc _ =>
      refine hcloser rfl ?_
      simp only [hpc, State.setPc, Pc.remaining]
      omega
  | count hpc =>
      refine hcloser rfl ?_
      simp only [hpc, Pc.remaining]
      omega

theorem tick_frame {spurious : Bool} (htick : Tick request spurious s t) :
    t.ticks = s.ticks ∧ t.others = s.others ∧ t.failures = s.failures := by
  cases htick <;> exact ⟨rfl, rfl, rfl⟩

theorem paid_step {e : Event} (hinv : Paid request s)
    (h : step request s e = some t) : Paid request t := by
  have hother : (forall spurious, e ≠ .tick spurious) -> Paid request t := by
    intro hne
    rcases step_other h hne with ⟨i, value, rfl⟩
    have hstale := stale_le { s.setReserved i value with others := s.others + 1 }
    unfold Paid at hinv ⊢
    simp only [State.setReserved] at hstale ⊢
    omega
  cases e with
  | tick spurious =>
      rcases step_tick h with ⟨u, hu, rfl⟩
      have hcloser := remaining_tick hu
      have hframe := tick_frame hu
      unfold Paid at hinv ⊢
      change u.ticks + 1 + u.pc.remaining request.spaces.length + stale u ≤
        2 * request.spaces.length + 7 + u.others +
          (u.failures + (if spurious then 1 else 0))
      omega
  | otherReserve i bytes => exact hother (fun _ heq => by cases heq)
  | otherRelease i bytes => exact hother (fun _ heq => by cases heq)

theorem tick_isSome (hopen : forall answer, s.pc ≠ .returned answer)
    (spurious : Bool) : exists u, step request s (.tick spurious) = some u := by
  have htick : exists u, s.tick request spurious = some u := by
    unfold State.tick
    split
    · exact ⟨_, rfl⟩
    · exact ⟨_, rfl⟩
    · exact ⟨_, rfl⟩
    · exact ⟨_, rfl⟩
    · exact ⟨_, rfl⟩
    · rename_i answer hpc
      exact absurd hpc (hopen answer)
  rcases htick with ⟨u, hu⟩
  simp only [step, hu]
  exact ⟨_, rfl⟩

theorem onTrack_start (request : Request) (reserved : Nat -> Nat) (active : Nat) :
    OnTrack request (start reserved active) := by
  constructor
  · refine ⟨Nat.zero_le _, ?_, ?_⟩
    · intro j hj
      exact absurd hj (Nat.not_lt_zero j)
    · intro j hj
      cases hj
  · constructor
    · intro i
      exact Nat.le_refl _
    · intro i hi
      cases hi
    · intro i cur hheld
      cases hheld

theorem paid_start (request : Request) (reserved : Nat -> Nat) (active : Nat) :
    Paid request (start reserved active) := by
  have hstale : stale (start reserved active) = 0 := stale_of_held_none rfl
  unfold Paid
  rw [hstale]
  simp only [start, Pc.remaining]
  omega

/--
Whatever other threads do, a request answers rightly in every state reached exactly
when it refuses informed; and it returns, after a number of its own steps bounded by
the number of spaces and of interferences.
-/
theorem request_answers_rightly_iff (request : Request) (reserved : Nat -> Nat)
    (active : Nat) (events : List Event) :
    ((requestMachine request).Reaches (AnswersRightly request)
        (start reserved active) events <->
      (requestMachine request).Along (RefusesInformed request)
        (start reserved active) events) ∧
    (forall s, (requestMachine request).run (start reserved active) events = some s ->
      s.ticks ≤ 2 * request.spaces.length + 7 + s.others + s.failures ∧
        ((forall answer, s.pc ≠ .returned answer) ->
          forall spurious, exists t, step request s (.tick spurious) = some t)) := by
  constructor
  · have hstep : forall s e t, OnTrack request s -> RefusesInformed request s e ->
        (requestMachine request).step s e = some t ->
        OnTrack request t ∧ AnswersRightly request t := by
      intro s e t hinv hok h
      have hnext : OnTrack request t :=
        { explored := explored_step hinv.explored hok h
          values := seenValues_step hinv.values h }
      exact ⟨hnext, hnext.answersRightly⟩
    have hfail : forall s e t, OnTrack request s ->
        (requestMachine request).step s e = some t -> AnswersRightly request t ->
        RefusesInformed request s e :=
      fun s e t hinv h hgood => refusesInformed_of_answer hinv h hgood
    exact Machine.throughout_iff_along hstep hfail
      (onTrack_start request reserved active)
  · intro s hrun
    constructor
    · have hpaid : forall s e t, Paid request s ->
          (requestMachine request).step s e = some t -> Paid request t :=
        fun _ _ _ hinv h => paid_step hinv h
      have hend := Machine.invariant_run_always hpaid
        (paid_start request reserved active) hrun
      unfold Paid at hend
      omega
    · intro hopen spurious
      exact tick_isSome hopen spurious

/-- Two matching spaces of ten bytes each. -/
def twoSpaces : Request :=
  { spaces := [{ id := { tier := .gpu, deviceId := 0 }, max := 10 },
      { id := { tier := .gpu, deviceId := 1 }, max := 10 }]
    strategy := Strategy.anyMemorySpaceInTier .gpu
    bytes := 10 }

/-- Another thread takes the first space after the check; the second one, empty all
along, is never asked. -/
theorem refused_beside_empty_space :
    exists s, (requestMachine twoSpaces).run (start (fun _ => 0) 0)
        [.tick false, .otherReserve 0 10, .tick false, .tick false, .tick false,
          .tick false, .tick false] = some s ∧
      s.pc = .returned .null ∧ twoSpaces.matchesAt 1 = true ∧
      RoomThroughout twoSpaces s 1 := by
  refine ⟨_, rfl, rfl, rfl, ?_⟩
  unfold RoomThroughout
  decide

end ReservationManager
end Memory
end Cuda2Rocm
