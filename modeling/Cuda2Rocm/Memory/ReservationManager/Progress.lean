import Cuda2Rocm.Foundation.Amortised
import Cuda2Rocm.Memory.ReservationManager.BesideOthers

/-!
# Progress of the manager's calls

No request and no destructor waits for another call, and neither does `shutdown`.  A commit
on a space sets back the loops on that space by one access each.
-/

namespace Cuda2Rocm
namespace Memory
namespace ReservationManager

open Foundation

namespace Lifecycle

/-- A request that has reserved nothing yet. -/
def mayCommit : Pc -> Bool
  | .count _ => false
  | .returned _ => false
  | _ => true

/-- A request by itself, at a position and with the counters of the system. -/
def atPc (reserved : Nat -> Nat) (pc : Pc) : ReservationManager.State :=
  { start reserved 0 with pc := pc }

/-- The accesses a request has left where nothing gets in its way, an exchange that is bound
to fail included. -/
def pcLeft (request : Request) (reserved : Nat -> Nat) (pc : Pc) : Nat :=
  pc.remaining request.spaces.length + stale (atPc reserved pc)

/-- The steps a call has left, and one more for each call that its commit may set back. -/
def Frame.credit (bound : Nat) (reserved : Nat -> Nat) : Frame -> Nat
  | .requesting request pc =>
      pcLeft request reserved pc + (if mayCommit pc then bound else 0)
  | .releasing space _ loop => loop.left (reserved space) + 2 + bound
  | .readingFlag => 2
  | .decrementing => 1
  | .storingFlag => 3
  | .clearing => 2
  | .storingZero => 1
  | .done => 0

/-- The call has steps of its own to take. -/
def Frame.unfinished : Frame -> Bool
  | .requesting _ (.returned _) => false
  | .done => false
  | _ => true

namespace State

/-- The calls in flight, and those whose return is left. -/
def calls (s : State) : Nat := s.threads.sum (fun _ _ => 1)

def credit (bound : Nat) (s : State) : Nat :=
  s.threads.sum (fun _ frame => frame.credit bound s.reserved)

end State

/-- Calls made by an event. -/
def Event.made : Event -> Nat
  | .request _ _ _ => 1
  | .destroy _ _ => 1
  | .shutdown _ => 1
  | _ => 0

/-- Steps of the calls in flight. -/
def Event.ticks : Event -> Nat
  | .tick _ _ => 1
  | _ => 0

/-- Exchanges that the event lets fail without a reason. -/
def Event.spurious : Event -> Nat
  | .tick _ spurious => spurious.toNat
  | _ => 0

/-!
# What a step costs
-/

theorem stale_congr {a b : ReservationManager.State} (hpc : a.pc = b.pc)
    (hreserved : a.reserved = b.reserved) : stale a = stale b := by
  unfold stale
  rw [hpc, hreserved]

theorem credit_moved (bound : Nat) (reserved reserved' : Nat -> Nat) (frame : Frame) :
    frame.credit bound reserved' ≤ frame.credit bound reserved + 1 := by
  cases frame with
  | requesting request pc =>
      have hstale := stale_le (atPc reserved' pc)
      simp only [Frame.credit, pcLeft]
      omega
  | releasing space bytes loop =>
      have hleft := loop.left_moved (reserved space) (reserved' space)
      simp only [Frame.credit]
      omega
  | _ => exact Nat.le_succ _

section Steps

variable {spaces : List SpaceInfo} {bound : Nat} {s t : State} {e : Event} {thread : Thread}
  {old frame : Frame}

/-- A call goes on, and the counters stay. -/
theorem credit_goesOn {spurious : Nat} (hold : s.threads.lookup thread = some old)
    (hthreads : t.threads = s.threads.insert thread frame) (hreserved : t.reserved = s.reserved)
    (hpaid : 1 + frame.credit bound s.reserved ≤ old.credit bound s.reserved + spurious) :
    1 + t.credit bound ≤ s.credit bound + spurious := by
  have hsum := Table.sum_replace hold frame (fun _ frame => frame.credit bound s.reserved)
  unfold State.credit
  rw [hthreads, hreserved]
  omega

/-- A call commits, and may set back all the others. -/
theorem credit_commits (hbound : s.calls ≤ bound) (hold : s.threads.lookup thread = some old)
    (hthreads : t.threads = s.threads.insert thread frame)
    (hpaid : 1 + frame.credit bound s.reserved + bound ≤ old.credit bound s.reserved) :
    1 + t.credit bound ≤ s.credit bound := by
  unfold State.credit
  rw [hthreads]
  exact @Table.sum_insert_le _ _ _ s.threads thread 1 0 1 bound old frame
    (fun frame => frame.credit bound s.reserved) (fun frame => frame.credit bound t.reserved)
    hold hbound (credit_moved bound s.reserved t.reserved) (by omega)

/-- A step of a request that commits nothing, or the one that does. -/
theorem tick_left {request : Request} {r u : ReservationManager.State} {spurious : Bool}
    (h : r.tick request spurious = some u) :
    (u.reserved = r.reserved ∧ (mayCommit u.pc = true -> mayCommit r.pc = true) ∧
      pcLeft request r.reserved u.pc + 1 ≤ pcLeft request r.reserved r.pc + spurious.toNat) ∨
    (mayCommit r.pc = true ∧ mayCommit u.pc = false ∧
      forall reserved', pcLeft request reserved' u.pc + 1 ≤ pcLeft request r.reserved r.pc) := by
  have htick := tick_cases h
  have hcloser := remaining_tick htick
  have hbefore : stale r = stale (atPc r.reserved r.pc) := stale_congr rfl rfl
  have hspurious : (if spurious = true then 1 else 0) = spurious.toNat := by
    cases spurious <;> rfl
  rw [hbefore, hspurious] at hcloser
  have hstays : u.reserved = r.reserved -> (mayCommit u.pc = true -> mayCommit r.pc = true) ->
      (u.reserved = r.reserved ∧ (mayCommit u.pc = true -> mayCommit r.pc = true) ∧
        pcLeft request r.reserved u.pc + 1 ≤
          pcLeft request r.reserved r.pc + spurious.toNat) := by
    intro hsame hmay
    have hafter : stale u = stale (atPc r.reserved u.pc) := stale_congr rfl hsame
    rw [hafter] at hcloser
    exact ⟨hsame, hmay, hcloser⟩
  have hcommits : forall {pc : Pc}, r.pc = pc -> mayCommit pc = true ->
      mayCommit r.pc = true := by
    intro pc hpc hmay
    rw [hpc]
    exact hmay
  cases htick with
  | @win i next hpc hnext =>
      right
      refine ⟨hcommits hpc rfl, rfl, ?_⟩
      intro reserved'
      unfold pcLeft
      rw [hpc]
      change 1 + 0 + 1 ≤ request.spaces.length + 5 + _
      omega
  | @winOrNull i next lost hpc hnext =>
      right
      refine ⟨hcommits hpc rfl, rfl, ?_⟩
      intro reserved'
      unfold pcLeft
      rw [hpc]
      change 1 + 0 + 1 ≤ 2 + _
      omega
  | found hpc _ => exact Or.inl (hstays rfl (fun _ => hcommits hpc rfl))
  | short hpc _ _ => exact Or.inl (hstays rfl (fun _ => hcommits hpc rfl))
  | skip hpc _ _ => exact Or.inl (hstays rfl (fun _ => hcommits hpc rfl))
  | searched hpc _ => exact Or.inl (hstays rfl (fun _ => hcommits hpc rfl))
  | retry hpc _ => exact Or.inl (hstays rfl (fun _ => hcommits hpc rfl))
  | lose hpc _ => exact Or.inl (hstays rfl (fun _ => hcommits hpc rfl))
  | scanFound hpc _ => exact Or.inl (hstays rfl (fun _ => hcommits hpc rfl))
  | scanSkip hpc _ _ => exact Or.inl (hstays rfl (fun _ => hcommits hpc rfl))
  | scanEnd hpc _ _ => exact Or.inl (hstays rfl (fun hmay => by cases hmay))
  | retryOrNull hpc _ => exact Or.inl (hstays rfl (fun _ => hcommits hpc rfl))
  | refuse hpc _ => exact Or.inl (hstays rfl (fun hmay => by cases hmay))
  | count hpc => exact Or.inl (hstays rfl (fun hmay => by cases hmay))

/-- A step of a request pays for itself and for the loops it sets back. -/
theorem credit_search (hbound : s.calls ≤ bound) {request : Request} {pc : Pc}
    {spurious : Bool} {u : ReservationManager.State}
    (hframe : s.threads.lookup thread = some (.requesting request pc))
    (htick : ({ start s.reserved s.activeReservations with pc := pc }).tick request spurious =
      some u)
    (hthreads : t.threads = s.threads.insert thread (.requesting request u.pc))
    (hreserved : t.reserved = u.reserved) :
    1 + t.credit bound ≤ s.credit bound + spurious.toNat := by
  rcases tick_left htick with ⟨hsame, hmay, hleft⟩ | ⟨hmay, hnot, hleft⟩
  · change pcLeft request s.reserved u.pc + 1 ≤
      pcLeft request s.reserved pc + spurious.toNat at hleft
    change mayCommit u.pc = true -> mayCommit pc = true at hmay
    apply credit_goesOn hframe hthreads (hreserved.trans hsame)
    simp only [Frame.credit]
    by_cases hcommits : mayCommit u.pc = true
    · rw [if_pos hcommits, if_pos (hmay hcommits)]
      omega
    · rw [if_neg hcommits]
      omega
  · have hpaid : 1 + (Frame.requesting request u.pc).credit bound s.reserved + bound ≤
        (Frame.requesting request pc).credit bound s.reserved := by
      have hhere : pcLeft request s.reserved u.pc + 1 ≤ pcLeft request s.reserved pc :=
        hleft s.reserved
      have hfirst : mayCommit pc = true := hmay
      simp only [Frame.credit, hfirst, hnot, if_true, Bool.false_eq_true, if_false]
      omega
    have hcommits := credit_commits hbound hframe hthreads hpaid
    omega

theorem credit_releasing (hbound : s.calls ≤ bound) {space bytes : Nat} {loop : CasLoop}
    (spurious : Bool)
    (hframe : s.threads.lookup thread = some (.releasing space bytes loop)) :
    1 + (s.tickReleasing thread space bytes loop spurious).credit bound ≤
      s.credit bound + spurious.toNat := by
  have hpos := loop.left_pos (s.reserved space)
  unfold State.tickReleasing
  split
  · rename_i loop' hagain
    have hleft := CasLoop.left_again hagain
    refine credit_goesOn hframe rfl rfl ?_
    simp only [Frame.credit]
    omega
  · refine credit_goesOn hframe rfl rfl ?_
    simp only [Frame.credit]
    omega
  · have hpaid : 1 + Frame.readingFlag.credit bound s.reserved + bound ≤
        (Frame.releasing space bytes loop).credit bound s.reserved := by
      simp only [Frame.credit]
      omega
    apply Nat.le_add_right_of_le
    exact credit_commits hbound hframe rfl hpaid

theorem credit_tick {spurious : Bool} (hbound : s.calls ≤ bound)
    (h : step spaces s (.tick thread spurious) = some t) :
    1 + t.credit bound ≤ s.credit bound + spurious.toNat := by
  cases step_move h with
  | search hframe hroom htick => exact credit_search hbound hframe htick rfl rfl
  | @releasing thread' spurious' space bytes loop loop' hframe =>
      simp only [step, State.tickFrame, hframe] at h
      rw [← Option.some.inj h]
      exact credit_releasing hbound spurious hframe
  | @released thread' spurious' space bytes loop reserved hframe =>
      simp only [step, State.tickFrame, hframe] at h
      rw [← Option.some.inj h]
      exact credit_releasing hbound spurious hframe
  | readSet hframe hflag =>
      exact credit_goesOn hframe rfl rfl (Nat.le_add_right_of_le (Nat.le_succ 1))
  | readUnset hframe hflag =>
      exact credit_goesOn hframe rfl rfl (Nat.le_add_right_of_le (Nat.le_refl 2))
  | decrement hframe => exact credit_goesOn hframe rfl rfl (Nat.le_add_right_of_le (Nat.le_refl 1))
  | storeFlag hframe => exact credit_goesOn hframe rfl rfl (Nat.le_add_right_of_le (Nat.le_refl 3))
  | clear hframe => exact credit_goesOn hframe rfl rfl (Nat.le_add_right_of_le (Nat.le_refl 2))
  | storeZero hframe => exact credit_goesOn hframe rfl rfl (Nat.le_add_right_of_le (Nat.le_refl 1))

/-- A call begins with the steps it has before it. -/
theorem credit_begins (hidle : s.threads.lookup thread = none)
    (hthreads : t.threads = s.threads.insert thread frame) (hreserved : t.reserved = s.reserved)
    {price : Nat} (hprice : frame.credit bound s.reserved ≤ price) :
    t.credit bound ≤ s.credit bound + price := by
  have hsum := Table.sum_insert_of_none hidle frame (fun _ frame => frame.credit bound s.reserved)
  unfold State.credit
  rw [hthreads, hreserved]
  omega

theorem credit_ended (hframe : s.threads.lookup thread = some frame)
    (hthreads : t.threads = s.threads.erase thread) (hreserved : t.reserved = s.reserved) :
    t.credit bound ≤ s.credit bound := by
  have hsum := Table.sum_of_lookup hframe (fun _ frame => frame.credit bound s.reserved)
  unfold State.credit
  rw [hthreads, hreserved]
  omega

theorem length_allSpaces (spaces : List SpaceInfo) (s : State) :
    (s.allSpaces spaces).length ≤ spaces.length := by
  unfold State.allSpaces
  split
  · exact Nat.le_refl _
  · exact Nat.zero_le _

theorem credit_step (hbound : s.calls ≤ bound) (h : step spaces s e = some t) :
    e.ticks + t.credit bound ≤
      s.credit bound + ((2 * spaces.length + 7 + bound) * e.made + 1 * e.spurious) := by
  cases e with
  | tick thread spurious =>
      have hpaid := credit_tick hbound h
      simpa [Event.ticks, Event.made, Event.spurious] using hpaid
  | request thread strategy bytes =>
      cases step_move h with
      | request hidle halive hshut =>
          have hlength := length_allSpaces spaces s
          have hprice : (Frame.requesting
              { spaces := s.allSpaces spaces, strategy := strategy, bytes := bytes }
              (.check 0)).credit bound s.reserved ≤ 2 * spaces.length + 7 + bound := by
            have hstale : stale (atPc s.reserved (.check 0)) = 0 := rfl
            simp only [Frame.credit, pcLeft, Pc.remaining, mayCommit, if_true, hstale]
            omega
          have hbegins := credit_begins (t := s.setFrame thread (.requesting
            { spaces := s.allSpaces spaces, strategy := strategy, bytes := bytes }
            (.check 0))) hidle rfl rfl hprice
          simpa [Event.ticks, Event.made, Event.spurious] using hbegins
  | destroy thread addr =>
      cases step_move h with
      | @destroy _ _ held hidle hlive =>
          have hprice : (Frame.releasing held.space held.bytes .load).credit bound s.reserved ≤
              2 * spaces.length + 7 + bound := by
            change 2 + 2 + bound ≤ _
            omega
          have hbegins := credit_begins (t := { s with
            live := s.live.erase addr
            threads := s.threads.insert thread (.releasing held.space held.bytes .load) })
            hidle rfl rfl hprice
          simpa [Event.ticks, Event.made, Event.spurious] using hbegins
  | shutdown thread =>
      cases step_move h with
      | shutdown hidle halive hrequest hshut =>
          have hprice : Frame.storingFlag.credit bound s.reserved ≤
              2 * spaces.length + 7 + bound := by
            change 3 ≤ _
            omega
          have hbegins := credit_begins (t := s.setFrame thread .storingFlag) hidle rfl rfl hprice
          simpa [Event.ticks, Event.made, Event.spurious] using hbegins
  | destroyManager =>
      cases step_move h with
      | destroyManager halive hrequest hshut => exact (Nat.zero_add _).le
  | ret thread addr =>
      have hends : t.credit bound ≤ s.credit bound := by
        cases step_move h with
        | ret hframe hended => exact credit_ended hframe rfl rfl
        | handOver hframe hfree => exact credit_ended hframe rfl rfl
      simpa [Event.ticks, Event.made, Event.spurious] using hends

/-!
# How many calls there are
-/

theorem calls_goesOn (hold : s.threads.lookup thread = some old)
    (hthreads : t.threads = s.threads.insert thread frame) : t.calls = s.calls := by
  unfold State.calls
  rw [hthreads]
  exact Nat.add_right_cancel (Table.sum_replace hold frame (fun _ _ => 1))

theorem calls_begins (hidle : s.threads.lookup thread = none)
    (hthreads : t.threads = s.threads.insert thread frame) : t.calls = 1 + s.calls := by
  unfold State.calls
  rw [hthreads]
  exact Table.sum_insert_of_none hidle frame (fun _ _ => 1)

theorem calls_ended (hframe : s.threads.lookup thread = some frame)
    (hthreads : t.threads = s.threads.erase thread) : s.calls = 1 + t.calls := by
  unfold State.calls
  rw [hthreads]
  exact Table.sum_of_lookup hframe (fun _ _ => 1)

/-- What an event does to the calls in flight and to the reservations that clients own. -/
theorem population_step (h : step spaces s e = some t) :
    t.calls ≤ s.calls + e.made ∧ t.liveCount + t.calls ≤ s.liveCount + s.calls + e.made := by
  have hgoesOn : t.live = s.live -> t.calls = s.calls ->
      t.calls ≤ s.calls + e.made ∧
        t.liveCount + t.calls ≤ s.liveCount + s.calls + e.made := by
    intro hlive hcalls
    unfold State.liveCount
    rw [hlive, hcalls]
    exact ⟨Nat.le_add_right _ _, Nat.le_add_right _ _⟩
  cases step_move h with
  | @request thread strategy bytes hidle halive hshut =>
      have hcalls := calls_begins (t := s.setFrame thread (.requesting
        { spaces := s.allSpaces spaces, strategy := strategy, bytes := bytes } (.check 0)))
        hidle rfl
      rw [hcalls]
      simp only [State.setFrame, State.liveCount, Event.made]
      omega
  | @destroy thread addr held hidle hlive =>
      have hcalls := calls_begins (t := { s with
        live := s.live.erase addr
        threads := s.threads.insert thread (.releasing held.space held.bytes .load) }) hidle rfl
      have hcount := Table.sum_of_lookup hlive (fun _ _ => 1)
      rw [hcalls]
      simp only [State.liveCount, Event.made]
      omega
  | @shutdown thread hidle halive hrequest hshut =>
      have hcalls := calls_begins (t := s.setFrame thread .storingFlag) hidle rfl
      rw [hcalls]
      simp only [State.setFrame, State.liveCount, Event.made]
      omega
  | destroyManager halive hrequest hshut => exact ⟨Nat.le_refl _, Nat.le_refl _⟩
  | @ret thread addr frame hframe hended =>
      have hcalls := calls_ended (t := { s with threads := s.threads.erase thread }) hframe rfl
      rw [hcalls]
      simp only [State.liveCount, Event.made]
      omega
  | @handOver thread addr request space size hframe hfree =>
      have hcalls := calls_ended (t := { s with
        live := s.live.insert addr { space := space, bytes := size }
        threads := s.threads.erase thread }) hframe rfl
      have hcount := Table.sum_insert_of_none hfree { space := space, bytes := size }
        (fun _ (_ : Held) => 1)
      rw [hcalls]
      simp only [State.liveCount, Event.made]
      omega
  | search hframe hroom htick => exact hgoesOn rfl (calls_goesOn hframe rfl)
  | releasing hframe => exact hgoesOn rfl (calls_goesOn hframe rfl)
  | released hframe => exact hgoesOn rfl (calls_goesOn hframe rfl)
  | readSet hframe hflag => exact hgoesOn rfl (calls_goesOn hframe rfl)
  | readUnset hframe hflag => exact hgoesOn rfl (calls_goesOn hframe rfl)
  | decrement hframe => exact hgoesOn rfl (calls_goesOn hframe rfl)
  | storeFlag hframe => exact hgoesOn rfl (calls_goesOn hframe rfl)
  | clear hframe => exact hgoesOn rfl (calls_goesOn hframe rfl)
  | storeZero hframe => exact hgoesOn rfl (calls_goesOn hframe rfl)

/-- The manager counts no more than what clients own and what is in flight. -/
theorem counted_le (s : State) : s.counted ≤ s.liveCount + s.calls := by
  unfold State.counted State.calls State.callsIn
  apply Nat.add_le_add_left
  apply Table.sum_le_sum
  intro thread frame hlookup
  split
  · exact Nat.le_refl 1
  · exact Nat.zero_le 1

/-- A call that has not come to its end has credit left. -/
theorem Frame.credit_pos {frame : Frame} (h : frame.unfinished = true) (bound : Nat)
    (reserved : Nat -> Nat) : 0 < frame.credit bound reserved := by
  cases frame with
  | requesting request pc =>
      have hpos : 0 < pc.remaining request.spaces.length := by
        cases pc with
        | returned answer => cases h
        | makeReservation i loop =>
            cases loop with
            | load => exact Nat.succ_pos _
            | cas cur => exact Nat.succ_pos _
        | makeReservationOrNull i loop lost =>
            cases loop with
            | load => exact Nat.succ_pos _
            | cas cur => exact Nat.succ_pos _
        | _ => exact Nat.succ_pos _
      simp only [Frame.credit, pcLeft]
      omega
  | releasing space bytes loop =>
      have hpos := loop.left_pos (reserved space)
      simp only [Frame.credit]
      omega
  | done => cases h
  | _ => exact Nat.succ_pos _

theorem unfinished_le_credit (bound : Nat) (s : State) :
    s.callsIn Frame.unfinished ≤ s.credit bound := by
  unfold State.callsIn State.credit
  apply Table.sum_le_sum
  intro thread frame hlookup
  split
  · rename_i hbusy
    exact Frame.credit_pos hbusy bound s.reserved
  · exact Nat.zero_le _

/-- Whoever is in flight can take a step, while the manager's count has room. -/
theorem exists_tick (hroom : s.counted < sizeMax) (h : s.callsIn Frame.unfinished ≠ 0) :
    exists thread t, step spaces s (.tick thread false) = some t := by
  rcases not_callsIn_eq_zero h with ⟨thread, frame, hframe, hbusy⟩
  exists thread
  simp only [step, State.tickFrame, hframe]
  cases frame with
  | requesting request pc =>
      have hopen : forall answer, pc ≠ .returned answer := by
        intro answer heq
        rw [heq] at hbusy
        cases hbusy
      have htick : exists u, ({ start s.reserved s.activeReservations with pc := pc } :
          ReservationManager.State).tick request false = some u := by
        rcases @tick_isSome request { start s.reserved s.activeReservations with pc := pc }
          hopen false with ⟨v, hv⟩
        simp only [ReservationManager.step] at hv
        split at hv
        · cases hv
        · rename_i u hu
          exact ⟨u, hu⟩
      rcases htick with ⟨u, hu⟩
      simp only [State.tickRequest, if_pos hroom, hu]
      exact ⟨_, rfl⟩
  | done => cases hbusy
  | _ => exact ⟨_, rfl⟩

end Steps

/-!
# Runs
-/

/-- The event is a step of a call in flight, and no exchange fails in it without a reason. -/
def Event.Undisturbed (e : Event) : Prop := exists thread, e = .tick thread false

theorem ticks_le {spaces : List SpaceInfo} {events : List Event} {s : State}
    (hrun : (lifecycleMachine spaces).run State.initial events = some s) :
    total Event.ticks events + s.credit (total Event.made events) ≤
      (2 * spaces.length + 7 + total Event.made events) * total Event.made events +
        total Event.spurious events := by
  have hsize : forall (u : State) e v, (lifecycleMachine spaces).step u e = some v ->
      v.calls ≤ u.calls + e.made := fun _ _ _ h => (population_step h).left
  have hpay : forall bound (u : State) e v, u.calls ≤ bound ->
      (lifecycleMachine spaces).step u e = some v ->
      e.ticks + v.credit bound ≤
        u.credit bound + ((2 * spaces.length + 7 + bound) * e.made + 1 * e.spurious) :=
    fun _ _ _ _ hbound h => credit_step hbound h
  have hcost : total Event.ticks events + s.credit (total Event.made events) ≤
      (2 * spaces.length + 7 + total Event.made events) * total Event.made events +
        1 * total Event.spurious events :=
    Machine.total_cost_le_of_calls hsize hpay rfl (fun _ => rfl) hrun
  rw [Nat.one_mul] at hcost
  exact hcost

/-- Left to themselves, the calls in flight come to their ends. -/
theorem returns_from (spaces : List SpaceInfo) {s : State}
    (hroom : s.liveCount + s.calls < sizeMax) :
    exists later t, (forall e, e ∈ later -> e.Undisturbed) ∧
      (lifecycleMachine spaces).run s later = some t ∧ t.callsIn Frame.unfinished = 0 := by
  have hmove : forall u : State, u.liveCount + u.calls < sizeMax ->
      u.callsIn Frame.unfinished ≠ 0 ->
      exists e v, Event.Undisturbed e ∧ (lifecycleMachine spaces).step u e = some v ∧
        v.liveCount + v.calls < sizeMax ∧ v.calls ≤ u.calls ∧
        forall bound, u.calls ≤ bound -> v.credit bound < u.credit bound := by
    intro u hu hflight
    have hcounted := counted_le u
    have htick : exists thread v, step spaces u (.tick thread false) = some v :=
      exists_tick (by omega) hflight
    rcases htick with ⟨thread, v, hv⟩
    have hpopulation := population_step hv
    simp only [Event.made, Nat.add_zero] at hpopulation
    refine ⟨.tick thread false, v, ⟨thread, rfl⟩, hv, by omega, hpopulation.left, ?_⟩
    intro bound hbound
    have hpaid := credit_tick hbound hv
    simp only [Bool.toNat_false] at hpaid
    omega
  rcases Machine.exists_run_to_rest hmove hroom with ⟨later, t, hok, hrun, _, hdone⟩
  exact ⟨later, t, hok, hrun, hdone⟩

/-- A request is sent back by the commit of another one, and by an exchange that fails
without a reason. -/
def sentBack : List Event :=
  [.request 0 twoSpaces.strategy 4, .request 1 twoSpaces.strategy 4, .tick 0 false,
    .tick 1 false, .tick 0 false, .tick 1 false, .tick 0 false, .tick 1 false, .tick 1 true]

end Lifecycle

end ReservationManager
end Memory
end Cuda2Rocm
