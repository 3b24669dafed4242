import Cuda2Rocm.Foundation.Amortised
import Cuda2Rocm.Memory.ReservationManager.ActiveCount
import Cuda2Rocm.Memory.ReservationManager.Refusals

/-!
# Requests beside all other calls

A request was looked at by itself, among threads of which nothing is known but that they
reserve what fits and release what is reserved.  In the whole system these threads are
other requests and destructors, since clients keep `shutdown` and requests apart, and each
request of a run is such a request by itself.
-/

namespace Cuda2Rocm
namespace Memory
namespace ReservationManager

open Foundation

namespace Lifecycle

/-!
# What a step does to the counters
-/

/-- The counters after a step: as before, or a commit of the thread. -/
inductive Commits (spaces : List SpaceInfo) (s : State) : Event -> (Nat -> Nat) -> Prop where
  | none (e : Event) : Commits spaces s e s.reserved
  | reserve {thread : Thread} {spurious : Bool} {request : Request} {pc : Pc} {i bytes : Nat}
      (hframe : s.threads.lookup thread = some (.requesting request pc))
      (hfits : bytes ≤ Space.available (request.maxOf i) (s.reserved i)) :
      Commits spaces s (.tick thread spurious)
        (Function.update s.reserved i (s.reserved i + bytes))
  | release {thread : Thread} {spurious : Bool} {i bytes : Nat} {loop : CasLoop}
      (hframe : s.threads.lookup thread = some (.releasing i bytes loop))
      (hheld : bytes ≤ s.reserved i) :
      Commits spaces s (.tick thread spurious)
        (Function.update s.reserved i (s.reserved i - bytes))

section Commits

variable {spaces : List SpaceInfo} {s t : State} {e : Event}

theorem reserveNext_some {flavor : Space.Flavor} {max bytes cur next : Nat}
    (hflavor : flavor ≠ .upto) (h : Space.reserveNext flavor max bytes cur = some next) :
    next = cur + bytes ∧ bytes ≤ Space.available max cur := by
  have hfits : bytes ≤ Space.available max cur := by
    by_contra hnot
    have hmore : bytes > Space.available max cur := Nat.lt_of_not_le hnot
    cases flavor with
    | throwing => simp [Space.reserveNext, Space.Flavor.amount, hmore] at h
    | orNull => simp [Space.reserveNext, Space.Flavor.amount, hmore] at h
    | upto => exact hflavor rfl
  have hnot : ¬ bytes > Space.available max cur := Nat.not_lt.mpr hfits
  constructor
  · cases flavor with
    | throwing => simpa [Space.reserveNext, Space.Flavor.amount, hnot] using h.symm
    | orNull => simpa [Space.reserveNext, Space.Flavor.amount, hnot] using h.symm
    | upto => exact absurd rfl hflavor
  · exact hfits

/-- A step of a request leaves the counters, or adds to one of them what fits. -/
theorem tick_reserved_cases {request : Request} {spurious : Bool}
    {r u : ReservationManager.State} (h : Tick request spurious r u) :
    u.reserved = r.reserved ∨
      exists i, request.bytes ≤ Space.available (request.maxOf i) (r.reserved i) ∧
        u.reserved = Function.update r.reserved i (r.reserved i + request.bytes) := by
  cases h with
  | @win i next hpc hnext =>
      rcases reserveNext_some (by decide) hnext with ⟨rfl, hfits⟩
      exact Or.inr ⟨i, hfits, rfl⟩
  | @winOrNull i next lost hpc hnext =>
      rcases reserveNext_some (by decide) hnext with ⟨rfl, hfits⟩
      exact Or.inr ⟨i, hfits, rfl⟩
  | _ => exact Or.inl rfl

theorem commits_search {thread : Thread} {spurious : Bool} {request : Request} {pc : Pc}
    {u : ReservationManager.State}
    (hframe : s.threads.lookup thread = some (.requesting request pc))
    (htick : ({ start s.reserved s.activeReservations with pc := pc }).tick request spurious =
      some u) : Commits spaces s (.tick thread spurious) u.reserved := by
  rcases tick_reserved_cases (tick_cases htick) with hsame | ⟨i, hfits, hupdated⟩
  · rw [hsame]
    exact .none _
  · rw [hupdated]
    exact .reserve hframe hfits

theorem commits_releasing {thread : Thread} {i bytes : Nat} {loop : CasLoop} {spurious : Bool}
    (hframe : s.threads.lookup thread = some (.releasing i bytes loop)) :
    Commits spaces s (.tick thread spurious)
      (s.tickReleasing thread i bytes loop spurious).reserved := by
  unfold State.tickReleasing
  rcases loop.step_cases (Space.releaseNext bytes) spurious (s.reserved i) with
    ⟨h, _⟩ | ⟨cur, _, _, h⟩ | ⟨next, _, hnext, h⟩
  · rw [h]
    exact .none _
  · rw [h]
    exact .none _
  · rw [h]
    have hcur := Space.releaseNext_some hnext
    have hnow : next = s.reserved i - bytes := by omega
    rw [hnow]
    exact .release hframe (by omega)

theorem commits_of_eq (h : t.reserved = s.reserved) : Commits spaces s e t.reserved := by
  rw [h]
  exact .none e

theorem step_commits (h : step spaces s e = some t) : Commits spaces s e t.reserved := by
  cases step_move h with
  | search hframe hroom htick => exact commits_search hframe htick
  | releasing hframe => exact commits_of_eq rfl
  | @released thread spurious i bytes loop reserved hframe =>
      simp only [step, State.tickFrame, hframe] at h
      have hcommits : Commits spaces s (.tick thread spurious)
          (s.tickReleasing thread i bytes loop spurious).reserved := commits_releasing hframe
      rw [Option.some.inj h] at hcommits
      exact hcommits
  | _ => exact commits_of_eq rfl

end Commits

/-!
# The spaces of the requests in flight
-/

/-- The requests in flight see the spaces that are there now. -/
def SeesSpaces (spaces : List SpaceInfo) (s : State) : Prop :=
  forall thread request pc, s.threads.lookup thread = some (.requesting request pc) ->
    request.spaces = s.allSpaces spaces

section Spaces

variable {spaces : List SpaceInfo} {s t : State} {e : Event}

theorem SeesSpaces.insert (h : SeesSpaces spaces s) {thread : Thread} {frame : Frame}
    (hthreads : t.threads = s.threads.insert thread frame)
    (halive : t.spacesAlive = s.spacesAlive)
    (hframe : forall request pc, frame = .requesting request pc ->
      request.spaces = s.allSpaces spaces) : SeesSpaces spaces t := by
  intro other request pc hlookup
  unfold State.allSpaces
  rw [halive]
  rw [hthreads] at hlookup
  rcases Table.lookup_of_lookup_insert hlookup with ⟨_, hnew⟩ | ⟨_, hold⟩
  · exact hframe request pc hnew.symm
  · exact h other request pc hold

theorem SeesSpaces.erase (h : SeesSpaces spaces s) {thread : Thread}
    (hthreads : t.threads = s.threads.erase thread) (halive : t.spacesAlive = s.spacesAlive) :
    SeesSpaces spaces t := by
  intro other request pc hlookup
  unfold State.allSpaces
  rw [halive]
  rw [hthreads] at hlookup
  exact h other request pc (Table.lookup_of_lookup_erase hlookup).right

/-- Where no request is in flight, the spaces may go. -/
theorem seesSpaces_of_none (hnone : s.callsIn Frame.isRequest = 0)
    (hthreads : forall thread request pc,
      t.threads.lookup thread = some (.requesting request pc) ->
      s.threads.lookup thread = some (.requesting request pc)) : SeesSpaces spaces t := by
  intro thread request pc hlookup
  have hnot := callsIn_eq_zero.mp hnone thread _ (hthreads thread request pc hlookup)
  cases hnot

theorem seesSpaces_move (h : SeesSpaces spaces s) (hphases : Phases s)
    (hmove : Move spaces s e t) : SeesSpaces spaces t := by
  cases hmove with
  | request hidle halive hshut =>
      refine h.insert rfl rfl ?_
      intro request pc heq
      cases heq
      rfl
  | destroy hidle hlive => exact h.insert rfl rfl (fun _ _ heq => by cases heq)
  | shutdown hidle halive hrequest hshut =>
      exact h.insert rfl rfl (fun _ _ heq => by cases heq)
  | destroyManager halive hrequest hshut =>
      exact seesSpaces_of_none hrequest (fun _ _ _ hlookup => hlookup)
  | search hframe hroom htick =>
      refine h.insert rfl rfl ?_
      intro request pc heq
      cases heq
      exact h _ _ _ hframe
  | clear hframe =>
      rcases hphases.apart with hnone | hnone
      · apply seesSpaces_of_none hnone
        intro other request pc hlookup
        rcases Table.lookup_of_lookup_insert hlookup with ⟨_, hnew⟩ | ⟨_, hold⟩
        · cases hnew
        · exact hold
      · have hnot := callsIn_eq_zero.mp hnone _ _ hframe
        cases hnot
  | ret hframe hended => exact h.erase rfl rfl
  | handOver hframe hfree => exact h.erase rfl rfl
  | _ => exact h.insert rfl rfl (fun _ _ heq => by cases heq)

end Spaces

/-!
# One request among the others
-/

/-- The request of a thread, and what it is by itself. -/
structure Alike (thread : Thread) (request : Request) (s : State)
    (r : ReservationManager.State) : Prop where
  frame : s.threads.lookup thread = some (.requesting request r.pc)
  reserved : s.reserved = r.reserved

/-- The thread that takes a step. -/
def Event.thread : Event -> Option Thread
  | .request thread _ _ => some thread
  | .destroy thread _ => some thread
  | .shutdown thread => some thread
  | .destroyManager => none
  | .tick thread _ => some thread
  | .ret thread _ => some thread

/-- Steps of the calls of a thread. -/
def Event.ticksOf (thread : Thread) : Event -> Nat
  | .tick other _ => if other = thread then 1 else 0
  | _ => 0

/-- Steps of the calls of all other threads. -/
def Event.ticksBeside (thread : Thread) : Event -> Nat
  | .tick other _ => if other = thread then 0 else 1
  | _ => 0

/-- Exchanges of a thread that the event lets fail without a reason. -/
def Event.failuresOf (thread : Thread) : Event -> Nat
  | .tick other spurious => if other = thread ∧ spurious = true then 1 else 0
  | _ => 0

section Simulation

variable {spaces : List SpaceInfo} {s t : State} {e : Event} {thread : Thread}
  {request : Request} {r : ReservationManager.State}

/-- A step of a request depends on where it stands and on the counters. -/
theorem tick_alike {a u : ReservationManager.State} (b : ReservationManager.State)
    {spurious : Bool} (h : a.tick request spurious = some u) (hpc : a.pc = b.pc)
    (hreserved : a.reserved = b.reserved) :
    exists v, b.tick request spurious = some v ∧ v.pc = u.pc ∧ v.reserved = u.reserved := by
  unfold State.tick at h ⊢
  rw [← hpc]
  split at h
  · cases h
    refine ⟨_, rfl, ?_⟩
    unfold State.tickCheck
    rw [← hreserved]
    split
    · split
      · split
        · exact ⟨rfl, hreserved.symm⟩
        · exact ⟨rfl, hreserved.symm⟩
      · exact ⟨rfl, hreserved.symm⟩
    · exact ⟨rfl, hreserved.symm⟩
  · cases h
    refine ⟨_, rfl, ?_⟩
    unfold State.tickMakeReservation
    rw [← hreserved]
    split
    · exact ⟨rfl, hreserved.symm⟩
    · exact ⟨rfl, hreserved.symm⟩
    · exact ⟨rfl, congrArg (fun c => Function.update c _ _) hreserved.symm⟩
  · cases h
    refine ⟨_, rfl, ?_⟩
    unfold State.tickScan
    split
    · split
      · exact ⟨rfl, hreserved.symm⟩
      · exact ⟨rfl, hreserved.symm⟩
    · exact ⟨rfl, hreserved.symm⟩
  · cases h
    refine ⟨_, rfl, ?_⟩
    unfold State.tickMakeReservationOrNull
    rw [← hreserved]
    split
    · exact ⟨rfl, hreserved.symm⟩
    · exact ⟨rfl, hreserved.symm⟩
    · exact ⟨rfl, congrArg (fun c => Function.update c _ _) hreserved.symm⟩
  · cases h
    exact ⟨_, rfl, rfl, hreserved.symm⟩
  · cases h

/-- The other threads leave the frame of a thread alone. -/
theorem lookup_of_move (hmove : Move spaces s e t) (hother : e.thread ≠ some thread) :
    t.threads.lookup thread = s.threads.lookup thread := by
  have hne : forall {other : Thread}, some other ≠ some thread -> thread ≠ other :=
    fun hne heq => hne (congrArg some heq.symm)
  cases hmove with
  | destroyManager halive hrequest hshut => rfl
  | ret hframe hended => exact Table.lookup_erase_ne (hne hother) _
  | handOver hframe hfree => exact Table.lookup_erase_ne (hne hother) _
  | _ => exact Table.lookup_insert_ne (hne hother) _ _

/-- What the single call has made of a step: none or one of its own. -/
structure Followed (thread : Thread) (request : Request) (e : Event) (t : State)
    (r r' : ReservationManager.State) : Prop where
  alike : Alike thread request t r'
  ticks : r'.ticks = r.ticks + e.ticksOf thread
  others : r'.others ≤ r.others + e.ticksBeside thread
  failures : r'.failures = r.failures + e.failuresOf thread

/-- Own steps of the thread. -/
theorem follow_own {spurious : Bool} (h : Alike thread request s r)
    (hstep : step spaces s (.tick thread spurious) = some t) :
    exists r', (requestMachine request).run r [.tick spurious] = some r' ∧
      Followed thread request (.tick thread spurious) t r r' := by
  simp only [step, State.tickFrame, h.frame, State.tickRequest] at hstep
  split at hstep
  · split at hstep
    · cases hstep
    · rename_i u htick
      cases hstep
      rcases tick_alike r htick rfl h.reserved with ⟨v, hv, hpc, hreserved⟩
      have hframe := tick_frame (tick_cases hv)
      refine ⟨{ v with
        ticks := v.ticks + 1
        failures := v.failures + (if spurious then 1 else 0) }, ?_, ?_⟩
      · simp only [Machine.run, requestMachine, ReservationManager.step, hv]
      · constructor
        · constructor
          · rw [hpc]
            exact Table.lookup_insert_self _ _ _
          · exact hreserved.symm
        · simp only [hframe.left, Event.ticksOf, if_true]
        · simp only [hframe.right.left]
          exact Nat.le_add_right _ _
        · simp only [hframe.right.right, Event.failuresOf, true_and]
  · cases hstep

theorem maxOf_of_spaces {request' : Request} (h : request'.spaces = request.spaces) (i : Nat) :
    request'.maxOf i = request.maxOf i := by
  unfold Request.maxOf
  rw [h]

/-- Steps of all other threads. -/
theorem follow_other (hspaces : SeesSpaces spaces s) (h : Alike thread request s r)
    (hother : e.thread ≠ some thread) (hstep : step spaces s e = some t) :
    exists events r', (requestMachine request).run r events = some r' ∧
      Followed thread request e t r r' := by
  have hframe : t.threads.lookup thread = some (.requesting request r.pc) := by
    rw [lookup_of_move (step_move hstep) hother]
    exact h.frame
  have hcommits := step_commits hstep
  have hfailures : e.failuresOf thread = 0 := by
    cases e with
    | tick other spurious =>
        have hne : ¬ (other = thread ∧ spurious = true) :=
          fun heq => hother (congrArg some heq.left)
        exact if_neg hne
    | _ => rfl
  have hticks : e.ticksOf thread = 0 := by
    cases e with
    | tick other spurious => exact if_neg (fun heq => hother (congrArg some heq))
    | _ => rfl
  -- a commit of another thread is an event of its own for the single call
  have hcommit : forall (e' : ReservationManager.Event) (i value : Nat),
      ReservationManager.step request r e' =
        some { r.setReserved i value with others := r.others + 1 } ->
      t.reserved = Function.update r.reserved i value -> e.ticksBeside thread = 1 ->
      exists events r', (requestMachine request).run r events = some r' ∧
        Followed thread request e t r r' := by
    intro e' i value he' hafter hbeside
    refine ⟨[e'], { r.setReserved i value with others := r.others + 1 }, ?_, ⟨hframe, hafter⟩,
      ?_, ?_, ?_⟩
    · simp only [Machine.run, requestMachine, he']
    · rw [hticks]
      rfl
    · rw [hbeside]
    · rw [hfailures]
      rfl
  generalize hafter : t.reserved = after at hcommits hcommit
  cases hcommits with
  | none e =>
      refine ⟨[], r, rfl, ⟨hframe, hafter.trans h.reserved⟩, ?_, Nat.le_add_right _ _, ?_⟩
      · rw [hticks]
        rfl
      · rw [hfailures]
        rfl
  | @reserve other spurious request' pc i bytes hsearch hfits =>
      have hmax := maxOf_of_spaces
        ((hspaces _ _ _ hsearch).trans (hspaces _ _ _ h.frame).symm) i
      rw [hmax, h.reserved] at hfits
      apply hcommit (.otherReserve i bytes) i (r.reserved i + bytes)
      · simp only [ReservationManager.step, if_pos hfits]
      · rw [h.reserved]
      · exact if_neg (fun heq => hother (congrArg some heq))
  | @release other spurious i bytes loop hreleasing hheld =>
      rw [h.reserved] at hheld
      apply hcommit (.otherRelease i bytes) i (r.reserved i - bytes)
      · simp only [ReservationManager.step, if_pos hheld]
      · rw [h.reserved]
      · exact if_neg (fun heq => hother (congrArg some heq))

theorem follow_step (hspaces : SeesSpaces spaces s) (h : Alike thread request s r)
    (hstays : forall addr, e ≠ .ret thread addr) (hstep : step spaces s e = some t) :
    exists events r', (requestMachine request).run r events = some r' ∧
      Followed thread request e t r r' := by
  by_cases hother : e.thread = some thread
  · cases e with
    | tick other spurious =>
        cases hother
        rcases follow_own h hstep with ⟨r', hrun, hfollowed⟩
        exact ⟨_, r', hrun, hfollowed⟩
    | request other strategy bytes =>
        cases hother
        simp [step, h.frame] at hstep
    | destroy other addr =>
        cases hother
        simp [step, h.frame] at hstep
    | shutdown other =>
        cases hother
        simp [step, h.frame] at hstep
    | destroyManager => cases hother
    | ret other addr =>
        cases hother
        exact absurd rfl (hstays addr)
  · exact follow_other hspaces h hother hstep

/-- What the single call has made of a run. -/
structure FollowedAlong (thread : Thread) (request : Request) (events : List Event) (t : State)
    (r r' : ReservationManager.State) : Prop where
  alike : Alike thread request t r'
  ticks : r'.ticks = r.ticks + total (Event.ticksOf thread) events
  others : r'.others ≤ r.others + total (Event.ticksBeside thread) events
  failures : r'.failures = r.failures + total (Event.failuresOf thread) events

theorem follow_run : forall {during : List Event} {s : State} {r : ReservationManager.State},
    Phases s -> SeesSpaces spaces s -> Alike thread request s r ->
    (forall addr, Event.ret thread addr ∉ during) ->
    (lifecycleMachine spaces).run s during = some t ->
    exists events r', (requestMachine request).run r events = some r' ∧
      FollowedAlong thread request during t r r' := by
  intro during
  induction during with
  | nil =>
      intro s r hphases hspaces h hstays hrun
      cases hrun
      exact ⟨[], r, rfl, h, rfl, Nat.le_refl _, rfl⟩
  | cons e rest ih =>
      intro s r hphases hspaces h hstays hrun
      rcases Machine.run_cons_some hrun with ⟨u, hu, hrest⟩
      have hmove := step_move hu
      have hhere : forall addr, e ≠ .ret thread addr := by
        intro addr heq
        exact hstays addr (heq ▸ List.mem_cons_self)
      rcases follow_step hspaces h hhere hu with ⟨first, r', hfirst, hfollowed⟩
      have hlater : forall addr, Event.ret thread addr ∉ rest :=
        fun addr hmem => hstays addr (List.mem_cons_of_mem e hmem)
      rcases ih (phases_move hphases hmove) (seesSpaces_move hspaces hphases hmove)
        hfollowed.alike hlater hrest with ⟨second, r'', hsecond, hend⟩
      refine ⟨first ++ second, r'', ?_, hend.alike, ?_, ?_, ?_⟩
      · rw [Machine.run_append, hfirst]
        exact hsecond
      · have hticks := hfollowed.ticks
        rw [hend.ticks, total_cons]
        omega
      · have hothers := hfollowed.others
        have hmore := hend.others
        rw [total_cons]
        omega
      · have hfailures := hfollowed.failures
        rw [hend.failures, total_cons]
        omega

end Simulation

/-!
# What a request answers
-/

/-- A reservation is on a matching space and of the requested size; a request is refused
where a space matches, and throws where none does. -/
def Founded (request : Request) : Answer -> Prop
  | .reservation i size => request.matchesAt i = true ∧ size = request.bytes
  | .null => exists i, request.matchesAt i = true
  | .threw _ => forall i, request.matchesAt i = false

/-- What the position of a request says about the matching spaces. -/
def Grounded (request : Request) : Pc -> Prop
  | .check _ => True
  | .makeReservation i _ => request.matchesAt i = true
  | .scan i _ => forall j, j < i -> request.matchesAt j = false
  | .makeReservationOrNull i _ _ => request.matchesAt i = true
  | .count i => request.matchesAt i = true
  | .returned answer => Founded request answer

section Answers

variable {request : Request} {r r' : ReservationManager.State}

theorem grounded_tick {spurious : Bool} (h : Grounded request r.pc)
    (htick : Tick request spurious r r') : Grounded request r'.pc := by
  cases htick with
  | found hpc hmatch => exact hmatch
  | short hpc hlt hshort => trivial
  | skip hpc hlt hskip => trivial
  | searched hpc hend => exact fun j hj => absurd hj (Nat.not_lt_zero j)
  | retry hpc hwhy =>
      rw [hpc] at h
      exact h
  | lose hpc hnone => exact fun j hj => absurd hj (Nat.not_lt_zero j)
  | win hpc hnext =>
      rw [hpc] at h
      exact h
  | scanFound hpc hmatch => exact hmatch
  | scanSkip hpc hlt hskip =>
      rw [hpc] at h
      exact unmatched_succ h hskip
  | scanEnd hpc hend text =>
      rw [hpc] at h
      intro i
      cases hmatch : request.matchesAt i with
      | false => rfl
      | true =>
          have hnot := h i ((request.lt_of_matchesAt hmatch).trans_le hend)
          rw [hmatch] at hnot
          cases hnot
  | retryOrNull hpc hwhy =>
      rw [hpc] at h
      exact h
  | refuse hpc hnone =>
      rw [hpc] at h
      exact ⟨_, h⟩
  | winOrNull hpc hnext =>
      rw [hpc] at h
      exact h
  | count hpc =>
      rw [hpc] at h
      exact ⟨h, rfl⟩

theorem grounded_step {e : ReservationManager.Event} (h : Grounded request r.pc)
    (hstep : ReservationManager.step request r e = some r') : Grounded request r'.pc := by
  have hother : (forall spurious, e ≠ .tick spurious) -> Grounded request r'.pc := by
    intro hne
    rcases step_other hstep hne with ⟨i, value, rfl⟩
    exact h
  cases e with
  | tick spurious =>
      rcases step_tick hstep with ⟨u, hu, rfl⟩
      have hnext := grounded_tick h hu
      exact hnext
  | otherReserve i bytes => exact hother (fun _ heq => by cases heq)
  | otherRelease i bytes => exact hother (fun _ heq => by cases heq)

theorem grounded_run {events : List ReservationManager.Event} {reserved : Nat -> Nat}
    {active : Nat} (hrun : (requestMachine request).run (start reserved active) events = some r) :
    Grounded request r.pc := by
  have hkept : forall (u : ReservationManager.State) e v, Grounded request u.pc ->
      (requestMachine request).step u e = some v -> Grounded request v.pc :=
    fun _ _ _ h hstep => grounded_step h hstep
  have hstart : Grounded request (start reserved active).pc := trivial
  exact Machine.invariant_run_always hkept hstart hrun

theorem paid_run {events : List ReservationManager.Event} {reserved : Nat -> Nat}
    {active : Nat} (hrun : (requestMachine request).run (start reserved active) events = some r) :
    Paid request r := by
  have hkept : forall (u : ReservationManager.State) e v, Paid request u ->
      (requestMachine request).step u e = some v -> Paid request v :=
    fun _ _ _ h hstep => paid_step h hstep
  exact Machine.invariant_run_always hkept (paid_start request reserved active) hrun

end Answers

/-!
# Every request of a run
-/

/-- What is promised of a request that a thread has made in one state and that has not
returned to its client when another is reached. -/
structure StandsAlone (thread : Thread) (request : Request) (during : List Event)
    (s t : State) : Prop where
  /-- By itself the request comes to the same, among threads that reserve what fits and
  release what is reserved. -/
  alone : exists events r,
    (requestMachine request).run (start s.reserved s.activeReservations) events = some r ∧
      FollowedAlong thread request during t (start s.reserved s.activeReservations) r
  steps : total (Event.ticksOf thread) during ≤ 2 * request.spaces.length + 7 +
    total (Event.ticksBeside thread) during + total (Event.failuresOf thread) during
  answer : forall answer,
    t.threads.lookup thread = some (.requesting request (.returned answer)) ->
      Founded request answer

/-- Any number of requests and destructors at once, with calls of `shutdown` before and after
requests: each request is one by itself, whatever the other calls are. -/
theorem requests_stand_alone (spaces : List SpaceInfo) (before during : List Event)
    (s t : State) (thread : Thread) (strategy : Strategy) (bytes : Nat)
    (hbefore : (lifecycleMachine spaces).run State.initial before = some s)
    (hduring : (lifecycleMachine spaces).run s (.request thread strategy bytes :: during) =
      some t)
    (hstays : forall addr, Event.ret thread addr ∉ during) :
    StandsAlone thread { spaces := s.allSpaces spaces, strategy := strategy, bytes := bytes }
      during s t := by
  have hinitial : Phases (State.initial) ∧ SeesSpaces spaces State.initial := by
    constructor
    · exact phases_initial
    · intro other request pc hlookup
      cases hlookup
  have hkept : forall (u : State) e v, (Phases u ∧ SeesSpaces spaces u) ->
      (lifecycleMachine spaces).step u e = some v -> Phases v ∧ SeesSpaces spaces v :=
    fun _ _ _ hu h =>
      ⟨phases_move hu.left (step_move h), seesSpaces_move hu.right hu.left (step_move h)⟩
  have hs := Machine.invariant_run_always hkept hinitial hbefore
  rcases Machine.run_cons_some hduring with ⟨u, hu, hrest⟩
  have hbegun := hkept s _ u hs hu
  have hmade : u = s.setFrame thread (.requesting
      { spaces := s.allSpaces spaces, strategy := strategy, bytes := bytes } (.check 0)) := by
    simp only [lifecycleMachine, step] at hu
    split at hu
    · exact (Option.some.inj hu).symm
    · cases hu
  have halike : Alike thread
      { spaces := s.allSpaces spaces, strategy := strategy, bytes := bytes } u
      (start s.reserved s.activeReservations) := by
    rw [hmade]
    exact ⟨Table.lookup_insert_self _ _ _, rfl⟩
  rcases follow_run hbegun.left hbegun.right halike hstays hrest with
    ⟨events, r, hrun, hfollowed⟩
  constructor
  · exact ⟨events, r, hrun, hfollowed⟩
  · have hpaid := paid_run hrun
    have hticks := hfollowed.ticks
    have hothers := hfollowed.others
    have hfailures := hfollowed.failures
    unfold Paid at hpaid
    simp only [start] at hticks hothers hfailures
    omega
  · intro answer hanswer
    have hgrounded := grounded_run hrun
    have hframe := hanswer.symm.trans hfollowed.alike.frame
    have hpc : Pc.returned answer = r.pc := by
      injection hframe with hsame
      injection hsame
    rw [← hpc] at hgrounded
    exact hgrounded

/-- A request has been made and has taken no step. -/
def otherRequestMade : State := State.initial.setFrame 1 (.requesting twoSpaces (.check 0))

/-- It takes the first space between the check and the exchange of a second request. -/
def overtakenRequest : List Event :=
  [.tick 0 false, .tick 1 false, .tick 1 false, .tick 1 false, .tick 0 false, .tick 0 false,
    .tick 0 false, .tick 0 false, .tick 0 false]

theorem requests_stand_alone_overtaken : exists t,
    (lifecycleMachine twoSpaces.spaces).run State.initial
      [.request 1 twoSpaces.strategy 10] = some otherRequestMade ∧
    (lifecycleMachine twoSpaces.spaces).run otherRequestMade
      (.request 0 twoSpaces.strategy 10 :: overtakenRequest) = some t ∧
    t.threads.lookup 0 = some (.requesting twoSpaces (.returned .null)) ∧
    StandsAlone 0
      { spaces := otherRequestMade.allSpaces twoSpaces.spaces
        strategy := twoSpaces.strategy
        bytes := 10 } overtakenRequest otherRequestMade t :=
  ⟨_, rfl, rfl, rfl, requests_stand_alone twoSpaces.spaces [.request 1 twoSpaces.strategy 10]
    overtakenRequest otherRequestMade _ 0 twoSpaces.strategy 10 rfl rfl
    (by simp [overtakenRequest])⟩

end Lifecycle

end ReservationManager
end Memory
end Cuda2Rocm
