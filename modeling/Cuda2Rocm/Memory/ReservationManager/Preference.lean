import Cuda2Rocm.Memory.ReservationManager.Refusals

/-!
# Requests with a preferred device

`any_memory_space_in_tier_with_preference` names a tier and a device.  Its `matches`
turns every space on another device away, so a request that nobody interferes with is
granted on the preferred device or not at all.
-/

namespace Cuda2Rocm
namespace Memory
namespace ReservationManager

open Foundation

/-- The space at this position has room for the request, by these counters. -/
def Room (request : Request) (reserved : Nat -> Nat) (i : Nat) : Prop :=
  request.bytes ≤ Space.available (request.maxOf i) (reserved i)

namespace Request

variable (request : Request)

/-- The space at this position is of the tier. -/
def InTier (tier : Tier) (i : Nat) : Prop :=
  exists space, request.spaces[i]? = some space ∧ space.id.tier = tier

/-- The space at this position is the one of the tier and device. -/
def Preferred (tier : Tier) (device : Int) (i : Nat) : Prop :=
  exists space, request.spaces[i]? = some space ∧
    space.id = { tier := tier, deviceId := device }

variable {request}

/-- With a preferred device, only its space matches. -/
theorem matchesAt_preference_iff {tier : Tier} {device : Int}
    (hstrategy : request.strategy =
      Strategy.anyMemorySpaceInTierWithPreference tier device) (hdevice : 0 ≤ device)
    {i : Nat} : request.matchesAt i = true <-> request.Preferred tier device i := by
  unfold matchesAt Preferred
  rw [hstrategy]
  cases hspace : request.spaces[i]? with
  | none => simp
  | some space =>
      rcases space with ⟨⟨spaceTier, deviceId⟩, max⟩
      have hnegative : ¬ device < 0 := Int.not_lt.mpr hdevice
      by_cases htier : spaceTier = tier
      · simp [Strategy.anyMemorySpaceInTierWithPreference, htier, hnegative]
      · simp [Strategy.anyMemorySpaceInTierWithPreference, htier]

end Request

/-!
# Calls without interference
-/

section Alone

variable {request : Request} {reserved : Nat -> Nat} {s t : State}

/-- No matching space before this one has room. -/
def NoneBefore (request : Request) (reserved : Nat -> Nat) (i : Nat) : Prop :=
  forall j, j < i -> request.matchesAt j = true -> ¬ Room request reserved j

/-- No matching space has room. -/
def NoneMatching (request : Request) (reserved : Nat -> Nat) : Prop :=
  forall j, request.matchesAt j = true -> ¬ Room request reserved j

theorem NoneBefore.next {i : Nat} (h : NoneBefore request reserved i)
    (hhere : request.matchesAt i = true -> ¬ Room request reserved i) :
    NoneBefore request reserved (i + 1) := by
  intro j hj
  rcases Nat.lt_succ_iff_lt_or_eq.mp hj with hlt | rfl
  · exact h j hlt
  · exact hhere

theorem NoneBefore.all {i : Nat} (h : NoneBefore request reserved i)
    (hend : request.spaces.length ≤ i) : NoneMatching request reserved := by
  intro j hmatch
  exact h j (Nat.lt_of_lt_of_le (request.lt_of_matchesAt hmatch) hend) hmatch

/-- An answer that goes by the room that there was when the call began. -/
structure Settled (request : Request) (reserved : Nat -> Nat) (answer : Answer) : Prop where
  granted : forall i size, answer = .reservation i size ->
    request.matchesAt i = true ∧ Room request reserved i ∧ size = request.bytes
  refused : (forall i size, answer ≠ .reservation i size) -> NoneMatching request reserved

/-- What the position of a call says that has been alone so far. -/
def Undisturbed (request : Request) (reserved : Nat -> Nat) (s : State) : Prop :=
  match s.pc with
  | .check i => s.reserved = reserved ∧ NoneBefore request reserved i
  | .makeReservation i loop => s.reserved = reserved ∧ request.matchesAt i = true ∧
      Room request reserved i ∧ (loop = .load ∨ loop = .cas (reserved i))
  | .scan _ _ => s.reserved = reserved ∧ NoneMatching request reserved
  | .makeReservationOrNull i loop _ => s.reserved = reserved ∧
      request.matchesAt i = true ∧ NoneMatching request reserved ∧
      (loop = .load ∨ loop = .cas (reserved i))
  | .count i => request.matchesAt i = true ∧ Room request reserved i
  | .returned answer => Settled request reserved answer

theorem settled_refusal {answer : Answer} (h : NoneMatching request reserved)
    (hanswer : forall i size, answer ≠ .reservation i size) :
    Settled request reserved answer where
  granted := fun i size heq => absurd heq (hanswer i size)
  refused := fun _ => h

theorem reserveNext_of_room {i : Nat} (h : Room request reserved i) :
    Space.reserveNext .throwing (request.maxOf i) request.bytes (reserved i) ≠ none := by
  intro hnone
  exact Nat.not_lt_of_le h (reserveNext_none_throwing hnone)

theorem room_of_reserveNext {i next : Nat}
    (h : Space.reserveNext .orNull (request.maxOf i) request.bytes (reserved i) = some next) :
    Room request reserved i := by
  by_contra hfull
  unfold Room at hfull
  simp [Space.reserveNext, Space.Flavor.amount, Nat.lt_of_not_le hfull] at h

/-- The first pass reserves where its check finds room. -/
theorem room_of_found {spurious : Bool} {i : Nat} (hpc : s.pc = .check i)
    (hmatch : request.matchesAt i = true)
    (h : s.tick request spurious = some (s.setPc (.makeReservation i .load))) :
    Room request s.reserved i := by
  by_contra hfull
  have hshort : ¬ Space.available (request.maxOf i) (s.reserved i) ≥ request.bytes := hfull
  have hlt := request.lt_of_matchesAt hmatch
  simp only [State.tick, hpc, State.tickCheck, if_pos hlt, hmatch, if_true, if_neg hshort] at h
  have hpcs := congrArg State.pc (Option.some.inj h)
  cases hpcs

/-- One step of the call, with nobody else on the counters. -/
theorem undisturbed_tick {spurious : Bool} (hinv : Undisturbed request reserved s)
    (h : s.tick request spurious = some t) : Undisturbed request reserved t := by
  unfold Undisturbed at hinv
  cases tick_cases h with
  | found hpc hmatch =>
      rw [hpc] at hinv
      have hroom := room_of_found hpc hmatch h
      rw [hinv.1] at hroom
      exact ⟨hinv.1, hmatch, hroom, Or.inl rfl⟩
  | short hpc hlt hshort =>
      rw [hpc] at hinv
      rw [hinv.1] at hshort
      exact ⟨hinv.1, hinv.2.next fun _ => Nat.not_le_of_lt hshort⟩
  | skip hpc hlt hskip =>
      rw [hpc] at hinv
      refine ⟨hinv.1, hinv.2.next fun hmatch => ?_⟩
      rw [hskip] at hmatch
      cases hmatch
  | searched hpc hend =>
      rw [hpc] at hinv
      exact ⟨hinv.1, hinv.2.all hend⟩
  | retry hpc hwhy =>
      rw [hpc] at hinv
      exact ⟨hinv.1, hinv.2.1, hinv.2.2.1, Or.inr (by rw [hinv.1])⟩
  | lose hpc hnone =>
      -- what the loop has seen is the value that the check saw
      rw [hpc] at hinv
      rcases hinv with ⟨_, _, hroom, hload | hcas⟩
      · cases hload
      · cases hcas
        exact absurd hnone (reserveNext_of_room hroom)
  | win hpc hnext =>
      rw [hpc] at hinv
      exact ⟨hinv.2.1, hinv.2.2.1⟩
  | scanFound hpc hmatch =>
      rw [hpc] at hinv
      exact ⟨hinv.1, hmatch, hinv.2, Or.inl rfl⟩
  | scanSkip hpc hlt hskip =>
      rw [hpc] at hinv
      exact hinv
  | scanEnd hpc hend text =>
      rw [hpc] at hinv
      exact settled_refusal hinv.2 fun _ _ => Answer.noConfusion
  | retryOrNull hpc hwhy =>
      rw [hpc] at hinv
      exact ⟨hinv.1, hinv.2.1, hinv.2.2.1, Or.inr (by rw [hinv.1])⟩
  | refuse hpc hnone =>
      rw [hpc] at hinv
      exact settled_refusal hinv.2.2.1 fun _ _ => Answer.noConfusion
  | winOrNull hpc hnext =>
      rw [hpc] at hinv
      rw [hinv.1] at hnext
      exact absurd (room_of_reserveNext hnext) (hinv.2.2.1 _ hinv.2.1)
  | count hpc =>
      rw [hpc] at hinv
      constructor
      · intro i size hanswer
        cases hanswer
        exact ⟨hinv.1, hinv.2, rfl⟩
      · exact fun hnone => absurd rfl (hnone _ _)

/-- The event is a step of the call itself. -/
def IsTick : Event -> Prop
  | .tick _ => True
  | _ => False

theorem undisturbed_step {e : Event} (hinv : Undisturbed request reserved s)
    (htick : IsTick e) (h : step request s e = some t) : Undisturbed request reserved t := by
  cases e with
  | tick spurious =>
      simp only [step] at h
      cases hcall : s.tick request spurious with
      | none =>
          rw [hcall] at h
          cases h
      | some u =>
          rw [hcall] at h
          cases h
          have hnext := undisturbed_tick hinv hcall
          exact hnext
  | otherReserve i bytes => exact absurd htick id
  | otherRelease i bytes => exact absurd htick id

theorem undisturbed_start (request : Request) (reserved : Nat -> Nat) (active : Nat) :
    Undisturbed request reserved (start reserved active) :=
  ⟨rfl, fun _ hj => absurd hj (Nat.not_lt_zero _)⟩

/-- A call without interference goes by the room that there was when it began. -/
theorem settled_of_run {active : Nat} {events : List Event} {answer : Answer}
    (halone : forall e, e ∈ events -> IsTick e)
    (hrun : (requestMachine request).run (start reserved active) events = some s)
    (hreturned : s.pc = .returned answer) : Settled request reserved answer := by
  have hkept : forall u e v, Undisturbed request reserved u -> IsTick e ->
      (requestMachine request).step u e = some v -> Undisturbed request reserved v :=
    fun _ _ _ hinv htick hstep => undisturbed_step hinv htick hstep
  have hend := Machine.invariant_run hkept (undisturbed_start request reserved active)
    (Machine.along_of_events halone) hrun
  unfold Undisturbed at hend
  rw [hreturned] at hend
  exact hend

/-- A call that nobody interferes with comes to an end. -/
theorem exists_returned (request : Request) (reserved : Nat -> Nat) (active : Nat) :
    exists events s answer, (forall e, e ∈ events -> IsTick e) ∧
      (requestMachine request).run (start reserved active) events = some s ∧
      s.pc = .returned answer := by
  have hprogress : forall s : State, True -> (exists answer, s.pc = .returned answer) ∨
      exists e t, IsTick e ∧ (requestMachine request).step s e = some t ∧ True ∧
        t.pc.remaining request.spaces.length + stale t <
          s.pc.remaining request.spaces.length + stale s := by
    intro s _
    by_cases hopen : exists answer, s.pc = .returned answer
    · exact Or.inl hopen
    · right
      rcases tick_isSome (fun answer h => hopen ⟨answer, h⟩) false with ⟨t, ht⟩
      rcases step_tick ht with ⟨u, hu, rfl⟩
      refine ⟨.tick false, _, trivial, ht, trivial, ?_⟩
      have hcloser := remaining_tick hu
      change u.pc.remaining request.spaces.length + stale u < _
      simp only [Bool.false_eq_true, if_false] at hcloser
      omega
  rcases Machine.exists_run_of_progress
      (fun s : State => s.pc.remaining request.spaces.length + stale s) hprogress
      (trivial : True) with ⟨events, s, hevents, hrun, _, answer, hanswer⟩
  exact ⟨events, s, answer, hevents, hrun, hanswer⟩

end Alone

/-!
# What a preference promises
-/

/-- The answer of a request that prefers a device: its space, where that has room, else
another one of the tier with room, else none. -/
structure PreferenceKept (request : Request) (reserved : Nat -> Nat) (tier : Tier)
    (device : Int) (answer : Answer) : Prop where
  preferred : (exists i, request.Preferred tier device i ∧ Room request reserved i) ->
    exists i, answer = .reservation i request.bytes ∧ request.Preferred tier device i ∧
      Room request reserved i
  otherwise : ¬ (exists i, request.Preferred tier device i ∧ Room request reserved i) ->
    (exists i, request.InTier tier i ∧ Room request reserved i) ->
      exists i, answer = .reservation i request.bytes ∧ request.InTier tier i ∧
        Room request reserved i
  refused : (forall i size, answer ≠ .reservation i size) ->
    forall i, request.InTier tier i -> ¬ Room request reserved i

section

variable {request : Request} {tier : Tier} {device : Int} {reserved : Nat -> Nat}

theorem preferenceKept_iff_of_settled {answer : Answer}
    (hmatches : forall i, request.matchesAt i = true <-> request.Preferred tier device i)
    (h : Settled request reserved answer) :
    PreferenceKept request reserved tier device answer <->
      (exists i, request.Preferred tier device i ∧ Room request reserved i) ∨
        forall i, request.InTier tier i -> ¬ Room request reserved i := by
  have hgranted : forall {i size}, answer = .reservation i size ->
      request.Preferred tier device i ∧ Room request reserved i ∧ size = request.bytes := by
    intro i size hanswer
    rcases h.granted i size hanswer with ⟨hmatch, hroom, hsize⟩
    exact ⟨(hmatches i).mp hmatch, hroom, hsize⟩
  constructor
  · intro hkept
    by_cases hpreferred : exists i, request.Preferred tier device i ∧ Room request reserved i
    · exact Or.inl hpreferred
    · right
      apply hkept.refused
      intro i size hanswer
      rcases hgranted hanswer with ⟨hpref, hroom, -⟩
      exact hpreferred ⟨i, hpref, hroom⟩
  · intro hcondition
    have hserved : (exists i, request.Preferred tier device i ∧ Room request reserved i) ->
        exists i, answer = .reservation i request.bytes ∧
          request.Preferred tier device i ∧ Room request reserved i := by
      rintro ⟨i, hpref, hroom⟩
      by_contra hnone
      refine h.refused (fun j size hanswer => ?_) i ((hmatches i).mpr hpref) hroom
      rcases hgranted hanswer with ⟨hpref', hroom', rfl⟩
      exact hnone ⟨j, hanswer, hpref', hroom'⟩
    constructor
    · exact hserved
    · rintro hno ⟨i, htier, hroom⟩
      rcases hcondition with hsome | hnone
      · exact absurd hsome hno
      · exact absurd hroom (hnone i htier)
    · intro hanswer
      rcases hcondition with hsome | hnone
      · rcases hserved hsome with ⟨i, hi, -⟩
        exact absurd hi (hanswer i _)
      · exact hnone

/--
A request with a preferred device that runs alone comes to an end, and keeps to what a
preference promises exactly if the preferred space has room or no space of the tier has.
-/
theorem preference_kept_iff
    (hstrategy : request.strategy =
      Strategy.anyMemorySpaceInTierWithPreference tier device) (hdevice : 0 ≤ device)
    (reserved : Nat -> Nat) (active : Nat) :
    (forall events s answer, (forall e, e ∈ events -> IsTick e) ->
      (requestMachine request).run (start reserved active) events = some s ->
      s.pc = .returned answer ->
        (PreferenceKept request reserved tier device answer <->
          (exists i, request.Preferred tier device i ∧ Room request reserved i) ∨
            forall i, request.InTier tier i -> ¬ Room request reserved i)) ∧
    (exists events s answer, (forall e, e ∈ events -> IsTick e) ∧
      (requestMachine request).run (start reserved active) events = some s ∧
      s.pc = .returned answer) := by
  constructor
  · intro events s answer halone hrun hreturned
    apply preferenceKept_iff_of_settled
    · exact fun i => Request.matchesAt_preference_iff hstrategy hdevice
    · exact settled_of_run halone hrun hreturned
  · exact exists_returned request reserved active

end

/-!
# Two devices
-/

/-- Two GPUs of ten bytes each, of which a request of ten bytes prefers the first. -/
def firstPreferred : Request :=
  { spaces := [{ id := { tier := .gpu, deviceId := 0 }, max := 10 },
      { id := { tier := .gpu, deviceId := 1 }, max := 10 }]
    strategy := Strategy.anyMemorySpaceInTierWithPreference .gpu 0
    bytes := 10 }

/-- The first GPU is taken. -/
def firstTaken : Nat -> Nat := fun i => if i = 0 then 10 else 0

/-- The exact condition read for the two of them. -/
theorem preference_kept_iff_firstPreferred :
    (forall events s answer, (forall e, e ∈ events -> IsTick e) ->
      (requestMachine firstPreferred).run (start (fun _ => 0) 0) events = some s ->
      s.pc = .returned answer ->
        (PreferenceKept firstPreferred (fun _ => 0) .gpu 0 answer <->
          (exists i, firstPreferred.Preferred .gpu 0 i ∧ Room firstPreferred (fun _ => 0) i) ∨
            forall i, firstPreferred.InTier .gpu i ->
              ¬ Room firstPreferred (fun _ => 0) i)) ∧
    (exists events s answer, (forall e, e ∈ events -> IsTick e) ∧
      (requestMachine firstPreferred).run (start (fun _ => 0) 0) events = some s ∧
      s.pc = .returned answer) :=
  preference_kept_iff rfl (Int.le_refl 0) (fun _ => 0) 0

/-- With the first GPU taken the request returns null, although the second one is empty. -/
theorem refused_beside_other_device :
    exists s, (requestMachine firstPreferred).run (start firstTaken 0)
        [.tick false, .tick false, .tick false, .tick false, .tick false, .tick false] =
          some s ∧
      s.pc = .returned .null ∧
      firstPreferred.InTier .gpu 1 ∧ Room firstPreferred firstTaken 1 ∧
      ¬ PreferenceKept firstPreferred firstTaken .gpu 0 .null := by
  have htier : firstPreferred.InTier .gpu 1 := ⟨_, rfl, rfl⟩
  have hroom : Room firstPreferred firstTaken 1 := by
    unfold Room
    decide
  refine ⟨_, rfl, rfl, htier, hroom, fun hkept => ?_⟩
  exact hkept.refused (fun _ _ => Answer.noConfusion) 1 htier hroom

end ReservationManager
end Memory
end Cuda2Rocm
