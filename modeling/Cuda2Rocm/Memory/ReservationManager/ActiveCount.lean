import Cuda2Rocm.Memory.ReservationManager.Teardown

/-!
# The count of active reservations

The manager's callback loads the flag and decrements in two steps, and `shutdown` sets
the flag and resets the count in two others.  The count is right exactly as long as no
callback decrements what was reset after it had seen the flag unset.
-/

namespace Cuda2Rocm
namespace Memory
namespace ReservationManager

open Foundation

namespace Lifecycle

/-- A `fetch_sub` does not take the count below 0. -/
def NeverWraps (s : State) : Event -> Prop
  | .tick thread _ =>
      match s.threads.lookup thread with
      | some .decrementing => s.activeReservations ≠ 0
      | _ => True
  | _ => True

/-- Before `shutdown` and with no call in flight the count is the number of live
reservations; once `shutdown` and all callbacks have come to an end it is 0. -/
def CountsLive (t : State) : Prop :=
  (t.shutdownFlag = false -> t.callsIn Frame.isBusy = 0 ->
    t.activeReservations = t.liveCount) ∧
  (t.shutdownFlag = true -> t.callsIn Frame.isShutdown = 0 ->
    t.callsIn Frame.isCallback = 0 -> t.activeReservations = 0)

/-- `shutdown` resets the count while no callback is between its load and its
`fetch_sub`. -/
def ResetsAlone (s : State) : Event -> Prop
  | .tick thread _ =>
      match s.threads.lookup thread with
      | some .storingZero => s.callsIn Frame.isDecrementing = 0
      | _ => True
  | _ => True

/-- The event is a step of a thread that is at a frame of a kind. -/
def State.stepsAt (s : State) (kind : Frame -> Bool) : Event -> Bool
  | .tick thread _ => (s.threads.lookup thread).any kind
  | _ => false

def Frame.isStoringZero : Frame -> Bool
  | .storingZero => true
  | _ => false

theorem neverWraps_iff (s : State) (e : Event) : NeverWraps s e <->
    (s.stepsAt Frame.isDecrementing e = true -> s.activeReservations ≠ 0) := by
  cases e with
  | tick thread spurious =>
      dsimp only [NeverWraps, State.stepsAt]
      generalize s.threads.lookup thread = found
      rcases found with _ | frame
      · simp
      · cases frame <;> simp [Frame.isDecrementing]
  | _ => simp [NeverWraps, State.stepsAt]

theorem resetsAlone_iff (s : State) (e : Event) : ResetsAlone s e <->
    (s.stepsAt Frame.isStoringZero e = true -> s.callsIn Frame.isDecrementing = 0) := by
  cases e with
  | tick thread spurious =>
      dsimp only [ResetsAlone, State.stepsAt]
      generalize s.threads.lookup thread = found
      rcases found with _ | frame
      · simp
      · cases frame <;> simp [Frame.isStoringZero]
  | _ => simp [ResetsAlone, State.stepsAt]

instance (s : State) (e : Event) : Decidable (NeverWraps s e) :=
  decidable_of_iff _ (neverWraps_iff s e).symm

instance (t : State) : Decidable (CountsLive t) :=
  inferInstanceAs (Decidable (_ ∧ _))

instance (s : State) (e : Event) : Decidable (ResetsAlone s e) :=
  decidable_of_iff _ (resetsAlone_iff s e).symm

/-!
# Steps of a request
-/

/-- Positions from which a call that sees no space will not reach a reservation. -/
def isSearching : Pc -> Bool
  | .check _ => true
  | .scan _ _ => true
  | .returned .null => true
  | .returned (.threw _) => true
  | _ => false

/-- A call that returns a reservation. -/
def isGranted : Pc -> Bool
  | .returned (.reservation _ _) => true
  | _ => false

theorem isCounted_requesting (request : Request) (pc : Pc) :
    Frame.isCounted (.requesting request pc) = isGranted pc := by
  cases pc with
  | returned answer => cases answer <;> rfl
  | _ => rfl

section Requests

variable {request : Request} {reserved : Nat -> Nat} {active : Nat} {pc : Pc}
variable {spurious : Bool} {u : ReservationManager.State}

/-- The count moves when a reservation is counted, just before the call returns it. -/
theorem tick_count_cases
    (h : ({ start reserved active with pc := pc }).tick request spurious = some u) :
    (isGranted pc = false ∧ isGranted u.pc = true ∧
      u.activeReservations = wrapSize (active + 1)) ∨
    (isGranted pc = false ∧ isGranted u.pc = false ∧ u.activeReservations = active) := by
  have hopen : forall {pc' : Pc}, pc = pc' -> isGranted pc' = false ->
      isGranted pc = false := by
    rintro pc' rfl hnot
    exact hnot
  cases tick_cases h with
  | count hpc => exact Or.inl ⟨hopen hpc rfl, rfl, rfl⟩
  | found hpc _ => exact Or.inr ⟨hopen hpc rfl, rfl, rfl⟩
  | short hpc _ _ => exact Or.inr ⟨hopen hpc rfl, rfl, rfl⟩
  | skip hpc _ _ => exact Or.inr ⟨hopen hpc rfl, rfl, rfl⟩
  | searched hpc _ => exact Or.inr ⟨hopen hpc rfl, rfl, rfl⟩
  | retry hpc _ => exact Or.inr ⟨hopen hpc rfl, rfl, rfl⟩
  | lose hpc _ => exact Or.inr ⟨hopen hpc rfl, rfl, rfl⟩
  | win hpc _ => exact Or.inr ⟨hopen hpc rfl, rfl, rfl⟩
  | scanFound hpc _ => exact Or.inr ⟨hopen hpc rfl, rfl, rfl⟩
  | scanSkip hpc _ _ => exact Or.inr ⟨hopen hpc rfl, rfl, rfl⟩
  | scanEnd hpc _ _ => exact Or.inr ⟨hopen hpc rfl, rfl, rfl⟩
  | retryOrNull hpc _ => exact Or.inr ⟨hopen hpc rfl, rfl, rfl⟩
  | refuse hpc _ => exact Or.inr ⟨hopen hpc rfl, rfl, rfl⟩
  | winOrNull hpc _ => exact Or.inr ⟨hopen hpc rfl, rfl, rfl⟩

/-- A call that sees no space goes on searching, and counts nothing. -/
theorem tick_searching (hspaces : request.spaces = []) (hpc : isSearching pc = true)
    (h : ({ start reserved active with pc := pc }).tick request spurious = some u) :
    isSearching u.pc = true ∧ u.activeReservations = active := by
  have hnone : forall i, ¬ i < request.spaces.length := by
    intro i
    rw [hspaces]
    exact Nat.not_lt_zero i
  cases pc with
  | check i =>
      cases h
      unfold State.tickCheck
      rw [if_neg (hnone i)]
      exact ⟨rfl, rfl⟩
  | scan i lost =>
      cases h
      unfold State.tickScan
      rw [if_neg (hnone i)]
      exact ⟨rfl, rfl⟩
  | returned answer => cases h
  | _ => cases hpc

end Requests

/-!
# Phases of a teardown
-/

section Counts

variable {s t : State} {thread : Thread} {old frame : Frame}

theorem callsIn_insert (kind : Frame -> Bool) (h : s.threads.lookup thread = some old)
    (ht : t.threads = s.threads.insert thread frame) :
    t.callsIn kind + (if kind old then 1 else 0) =
      s.callsIn kind + (if kind frame then 1 else 0) := by
  unfold State.callsIn
  rw [ht]
  exact Table.sum_replace h frame (fun _ frame => if kind frame then 1 else 0)

theorem callsIn_insert_new (kind : Frame -> Bool) (h : s.threads.lookup thread = none)
    (ht : t.threads = s.threads.insert thread frame) :
    t.callsIn kind = (if kind frame then 1 else 0) + s.callsIn kind := by
  unfold State.callsIn
  rw [ht]
  exact Table.sum_insert_of_none h frame (fun _ frame => if kind frame then 1 else 0)

theorem callsIn_erase (kind : Frame -> Bool) (h : s.threads.lookup thread = some old)
    (ht : t.threads = s.threads.erase thread) :
    s.callsIn kind = (if kind old then 1 else 0) + t.callsIn kind := by
  unfold State.callsIn
  rw [ht]
  exact Table.sum_of_lookup h (fun _ frame => if kind frame then 1 else 0)

theorem callsIn_same (kind : Frame -> Bool) (h : s.threads.lookup thread = some old)
    (ht : t.threads = s.threads.insert thread frame) (hkind : kind frame = kind old) :
    t.callsIn kind = s.callsIn kind := by
  have hsum := callsIn_insert kind h ht
  rw [hkind] at hsum
  exact Nat.add_right_cancel hsum

theorem callsIn_idle (kind : Frame -> Bool) (h : s.threads.lookup thread = none)
    (ht : t.threads = s.threads.insert thread frame) (hkind : kind frame = false) :
    t.callsIn kind = s.callsIn kind := by
  have hsum := callsIn_insert_new kind h ht
  rw [hkind] at hsum
  simpa using hsum

theorem callsIn_ended (kind : Frame -> Bool) (h : s.threads.lookup thread = some old)
    (ht : t.threads = s.threads.erase thread) (hkind : kind old = false) :
    t.callsIn kind = s.callsIn kind := by
  have hsum := callsIn_erase kind h ht
  rw [hkind] at hsum
  simpa using hsum.symm

theorem callsIn_pos (kind : Frame -> Bool) (h : s.threads.lookup thread = some old)
    (hkind : kind old = true) :
    0 < s.callsIn kind := by
  have hle := Table.le_sum h (fun _ frame => if kind frame then 1 else 0)
  rw [hkind] at hle
  exact hle

end Counts

/-- What the phase of a `shutdown` says about the flags, and dead spaces about requests. -/
def PhaseFits (flag spacesAlive : Bool) : Frame -> Prop
  | .clearing => flag = true
  | .storingZero => flag = true ∧ spacesAlive = false
  | .requesting request pc => spacesAlive = false ->
      request.spaces = [] ∧ isSearching pc = true
  | _ => True

/-- Requests and `shutdown` keep apart, and the flag means that the spaces are gone or
about to go. -/
structure Phases (s : State) : Prop where
  apart : s.callsIn Frame.isRequest = 0 ∨ s.callsIn Frame.isShutdown = 0
  alone : s.callsIn Frame.isShutdown ≤ 1
  fits : s.Each (PhaseFits s.shutdownFlag s.spacesAlive)
  cleared : s.shutdownFlag = true -> s.callsIn Frame.isShutdown = 0 ->
    s.spacesAlive = false

section Steps

variable {spaces : List SpaceInfo} {s t : State} {e : Event}

/-- A step after which no more requests are in flight, and `shutdown` is where it was. -/
theorem Phases.keep (h : Phases s)
    (hrequests : t.callsIn Frame.isRequest ≤ s.callsIn Frame.isRequest)
    (hshutdowns : t.callsIn Frame.isShutdown = s.callsIn Frame.isShutdown)
    (hflag : t.shutdownFlag = s.shutdownFlag) (hspaces : t.spacesAlive = s.spacesAlive)
    (hfits : t.Each (PhaseFits s.shutdownFlag s.spacesAlive)) : Phases t := by
  constructor
  · rw [hshutdowns]
    rcases h.apart with hzero | hzero
    · exact Or.inl (Nat.eq_zero_of_le_zero (hrequests.trans_eq hzero))
    · exact Or.inr hzero
  · rw [hshutdowns]
    exact h.alone
  · rw [hflag, hspaces]
    exact hfits
  · rw [hflag, hspaces, hshutdowns]
    exact h.cleared

/-- A step of a call that is neither a request nor a `shutdown`, before and after. -/
theorem Phases.replace (h : Phases s) {thread : Thread} {old frame : Frame}
    (hframe : s.threads.lookup thread = some old)
    (hthreads : t.threads = s.threads.insert thread frame)
    (hflag : t.shutdownFlag = s.shutdownFlag) (hspaces : t.spacesAlive = s.spacesAlive)
    (hrequest : frame.isRequest = old.isRequest)
    (hshutdown : frame.isShutdown = old.isShutdown)
    (hfits : PhaseFits s.shutdownFlag s.spacesAlive old ->
      PhaseFits s.shutdownFlag s.spacesAlive frame) : Phases t :=
  h.keep (Nat.le_of_eq (callsIn_same Frame.isRequest hframe hthreads hrequest))
    (callsIn_same Frame.isShutdown hframe hthreads hshutdown) hflag hspaces
    (h.fits.insert hthreads (hfits (h.fits thread old hframe)))

/-- The return of a call that is no `shutdown`. -/
theorem Phases.ended (h : Phases s) {thread : Thread} {old : Frame}
    (hframe : s.threads.lookup thread = some old)
    (hthreads : t.threads = s.threads.erase thread)
    (hflag : t.shutdownFlag = s.shutdownFlag) (hspaces : t.spacesAlive = s.spacesAlive)
    (hshutdown : old.isShutdown = false) : Phases t := by
  have hrequests := callsIn_erase Frame.isRequest hframe hthreads
  refine h.keep ?_ (callsIn_ended Frame.isShutdown hframe hthreads hshutdown) hflag hspaces
    (h.fits.erase hthreads)
  omega

theorem phases_storeFlag (h : Phases s) {thread : Thread}
    (hframe : s.threads.lookup thread = some .storingFlag) :
    Phases { s with
      shutdownFlag := true
      threads := s.threads.insert thread .clearing } := by
  have hsame : forall kind : Frame -> Bool, kind .clearing = kind .storingFlag ->
      State.callsIn { s with
        shutdownFlag := true
        threads := s.threads.insert thread .clearing } kind = s.callsIn kind :=
    fun kind hkind => callsIn_same kind hframe rfl hkind
  refine ⟨?_, ?_, ?_, ?_⟩
  · rw [hsame _ rfl, hsame _ rfl]
    exact h.apart
  · rw [hsame _ rfl]
    exact h.alone
  · refine State.Each.insert (s := s) ?_ rfl rfl
    intro other frame hother
    have hold := h.fits other frame hother
    cases frame <;> first | exact hold | exact ⟨rfl, hold.right⟩ | rfl
  · intro _ hzero
    rw [hsame _ rfl] at hzero
    have hpos := callsIn_pos Frame.isShutdown hframe rfl
    omega

/-- The spaces go while no request is in flight. -/
theorem phases_clear (h : Phases s) {thread : Thread}
    (hframe : s.threads.lookup thread = some .clearing) :
    Phases { s with
      spacesAlive := false
      threads := s.threads.insert thread .storingZero } := by
  have hsame : forall kind : Frame -> Bool, kind .storingZero = kind .clearing ->
      State.callsIn { s with
        spacesAlive := false
        threads := s.threads.insert thread .storingZero } kind = s.callsIn kind :=
    fun kind hkind => callsIn_same kind hframe rfl hkind
  have hpos := callsIn_pos Frame.isShutdown hframe rfl
  have hflag : s.shutdownFlag = true := h.fits thread _ hframe
  have hrequest : s.callsIn Frame.isRequest = 0 := by
    rcases h.apart with hzero | hzero
    · exact hzero
    · omega
  refine ⟨?_, ?_, ?_, fun _ _ => rfl⟩
  · rw [hsame _ rfl, hsame _ rfl]
    exact h.apart
  · rw [hsame _ rfl]
    exact h.alone
  · refine State.Each.insert (s := s) ?_ rfl ⟨hflag, rfl⟩
    intro other frame hother
    have hold := h.fits other frame hother
    have hnot := callsIn_eq_zero.mp hrequest other frame hother
    cases frame <;> first | exact hold | exact ⟨hold.left, rfl⟩ | cases hnot

/-- The one `shutdown` in flight comes to its end. -/
theorem phases_storeZero (h : Phases s) {thread : Thread}
    (hframe : s.threads.lookup thread = some .storingZero) :
    Phases { s with
      activeReservations := 0
      threads := s.threads.insert thread .done } := by
  have hfits : s.shutdownFlag = true ∧ s.spacesAlive = false := h.fits thread _ hframe
  have hshutdowns := callsIn_insert Frame.isShutdown hframe
    (t := { s with
      activeReservations := 0
      threads := s.threads.insert thread .done }) rfl
  have hpos := callsIn_pos Frame.isShutdown hframe rfl
  have halone := h.alone
  simp only [Frame.isShutdown, if_true, Bool.false_eq_true, if_false] at hshutdowns
  exact ⟨Or.inr (by omega), by omega, h.fits.insert rfl trivial, fun _ _ => hfits.right⟩

theorem phases_move (h : Phases s) (hmove : Move spaces s e t) : Phases t := by
  cases hmove with
  | request hidle halive hshut =>
      rename_i thread strategy bytes
      have hshutdowns := callsIn_idle Frame.isShutdown hidle
        (t := s.setFrame thread (.requesting
          { spaces := s.allSpaces spaces, strategy := strategy, bytes := bytes } (.check 0)))
        rfl rfl
      refine ⟨Or.inr (hshutdowns.trans hshut), ?_, h.fits.insert rfl ?_, ?_⟩
      · rw [hshutdowns]
        exact h.alone
      · intro hdead
        unfold State.allSpaces
        rw [hdead]
        exact ⟨rfl, rfl⟩
      · intro hflag _
        exact h.cleared hflag hshut
  | destroy hidle hlive =>
      exact h.keep (Nat.le_of_eq (callsIn_idle _ hidle rfl rfl)) (callsIn_idle _ hidle rfl rfl)
        rfl rfl (h.fits.insert rfl trivial)
  | shutdown hidle halive hrequest hshut =>
      rename_i thread
      have hrequests := callsIn_idle Frame.isRequest hidle
        (t := s.setFrame thread .storingFlag) rfl rfl
      have hshutdowns := callsIn_insert_new Frame.isShutdown hidle
        (t := s.setFrame thread .storingFlag) rfl
      rw [hshut] at hshutdowns
      refine ⟨Or.inl (hrequests.trans hrequest), Nat.le_of_eq hshutdowns,
        h.fits.insert rfl trivial, ?_⟩
      intro _ hzero
      rw [hshutdowns] at hzero
      cases hzero
  | destroyManager halive hrequest hshut =>
      refine ⟨Or.inr hshut, h.alone, ?_, fun _ _ => rfl⟩
      intro thread frame hframe
      have hnot := callsIn_eq_zero.mp hrequest thread frame hframe
      have hnone := callsIn_eq_zero.mp hshut thread frame hframe
      cases frame with
      | requesting request pc => cases hnot
      | clearing => cases hnone
      | storingZero => cases hnone
      | _ => exact True.intro
  | search hframe hroom htick =>
      refine h.replace hframe rfl rfl rfl rfl rfl ?_
      intro hfits hdead
      have hold := hfits hdead
      exact ⟨hold.left, (tick_searching hold.left hold.right htick).left⟩
  | releasing hframe => exact h.replace hframe rfl rfl rfl rfl rfl (fun _ => trivial)
  | released hframe => exact h.replace hframe rfl rfl rfl rfl rfl (fun _ => trivial)
  | readSet hframe hset => exact h.replace hframe rfl rfl rfl rfl rfl (fun _ => trivial)
  | readUnset hframe hunset => exact h.replace hframe rfl rfl rfl rfl rfl (fun _ => trivial)
  | decrement hframe => exact h.replace hframe rfl rfl rfl rfl rfl (fun _ => trivial)
  | storeFlag hframe => exact phases_storeFlag h hframe
  | clear hframe => exact phases_clear h hframe
  | storeZero hframe => exact phases_storeZero h hframe
  | ret hframe hended => exact h.ended hframe rfl rfl rfl hended.right
  | handOver hframe hfree => exact h.ended hframe rfl rfl rfl rfl

end Steps

theorem phases_initial : Phases State.initial := by
  refine ⟨Or.inl rfl, Nat.zero_le _, ?_, fun hflag => by cases hflag⟩
  intro thread frame hframe
  cases hframe

/-!
# The count
-/

/-- The count is what it should be until the flag is set, and 0 once `shutdown` is
through; in between it covers the callbacks that will still decrement it. -/
structure Counted (s : State) : Prop where
  phases : Phases s
  bounded : s.activeReservations ≤ sizeMax
  before : s.shutdownFlag = false -> s.activeReservations = s.counted
  during : s.shutdownFlag = true ->
    s.callsIn Frame.isDecrementing ≤ s.activeReservations
  after : s.shutdownFlag = true -> s.callsIn Frame.isShutdown = 0 ->
    s.activeReservations = 0 ∧ s.callsIn Frame.isDecrementing = 0

/-- A `fetch_sub` on a positive count. -/
theorem wrapSize_add_sizeMax {active : Nat} (hpos : 0 < active) (hle : active ≤ sizeMax) :
    wrapSize (active + sizeMax) + 1 = active := by
  unfold wrapSize sizeMax at *
  omega

theorem decrementing_le_counted (s : State) :
    s.callsIn Frame.isDecrementing ≤ s.callsIn Frame.isCounted := by
  apply Table.sum_le_sum
  intro thread frame _
  cases frame <;> simp [Frame.isDecrementing, Frame.isCounted]

section Steps

variable {spaces : List SpaceInfo} {s t : State} {e : Event}

theorem Counted.steady (h : Counted s) (hphases : Phases t)
    (hactive : t.activeReservations = s.activeReservations)
    (hflag : t.shutdownFlag = s.shutdownFlag) (hcounted : t.counted = s.counted)
    (hdecrementing : t.callsIn Frame.isDecrementing = s.callsIn Frame.isDecrementing)
    (hshutdown : s.callsIn Frame.isShutdown ≤ t.callsIn Frame.isShutdown) :
    Counted t := by
  refine ⟨hphases, ?_, ?_, ?_, ?_⟩
  · rw [hactive]
    exact h.bounded
  · rw [hflag, hactive, hcounted]
    exact h.before
  · rw [hflag, hactive, hdecrementing]
    exact h.during
  · rw [hflag, hactive, hdecrementing]
    exact fun hset hzero => h.after hset (by omega)

theorem Counted.replace (h : Counted s) (hphases : Phases t) {thread : Thread}
    {old frame : Frame} (hframe : s.threads.lookup thread = some old)
    (hthreads : t.threads = s.threads.insert thread frame) (hlive : t.live = s.live)
    (hactive : t.activeReservations = s.activeReservations)
    (hflag : t.shutdownFlag = s.shutdownFlag)
    (hcounted : s.shutdownFlag = false -> frame.isCounted = old.isCounted)
    (hdecrementing : s.shutdownFlag = true -> frame.isDecrementing = old.isDecrementing)
    (hshutdown : frame.isShutdown = old.isShutdown) : Counted t := by
  refine ⟨hphases, ?_, ?_, ?_, ?_⟩
  · rw [hactive]
    exact h.bounded
  · rw [hflag, hactive]
    intro hunset
    unfold State.counted State.liveCount
    rw [hlive, callsIn_same Frame.isCounted hframe hthreads (hcounted hunset)]
    exact h.before hunset
  · rw [hflag, hactive]
    intro hset
    rw [callsIn_same Frame.isDecrementing hframe hthreads (hdecrementing hset)]
    exact h.during hset
  · rw [hflag, hactive]
    intro hset
    rw [callsIn_same Frame.isDecrementing hframe hthreads (hdecrementing hset),
      callsIn_same Frame.isShutdown hframe hthreads hshutdown]
    exact h.after hset

theorem Counted.of_unset (hphases : Phases t) (hflag : t.shutdownFlag = false)
    (hbounded : t.activeReservations ≤ sizeMax)
    (hbefore : t.activeReservations = t.counted) : Counted t := by
  have hno : forall {goal : Prop}, t.shutdownFlag = true -> goal := by
    intro goal hset
    rw [hflag] at hset
    cases hset
  exact ⟨hphases, hbounded, fun _ => hbefore, fun hset => hno hset, fun hset => hno hset⟩

theorem Counted.of_set (hphases : Phases t) (hflag : t.shutdownFlag = true)
    (hbounded : t.activeReservations ≤ sizeMax)
    (hduring : t.callsIn Frame.isDecrementing ≤ t.activeReservations)
    (hafter : t.callsIn Frame.isShutdown = 0 ->
      t.activeReservations = 0 ∧ t.callsIn Frame.isDecrementing = 0) : Counted t := by
  refine ⟨hphases, hbounded, ?_, fun _ => hduring, fun _ => hafter⟩
  intro hunset
  rw [hflag] at hunset
  cases hunset

/-- A request moves the count only while `shutdown` has not begun. -/
theorem search_after_flag (h : Phases s) {thread : Thread} {spurious : Bool}
    {request : Request} {pc : Pc} {u : ReservationManager.State}
    (hframe : s.threads.lookup thread = some (.requesting request pc))
    (htick : ({ start s.reserved s.activeReservations with pc := pc }).tick request
      spurious = some u) (hflag : s.shutdownFlag = true) :
    isGranted u.pc = false ∧ u.activeReservations = s.activeReservations := by
  have hpos := callsIn_pos Frame.isRequest hframe rfl
  have hshut : s.callsIn Frame.isShutdown = 0 := by
    rcases h.apart with hzero | hzero
    · omega
    · exact hzero
  have hfits := h.fits thread _ hframe (h.cleared hflag hshut)
  have hsearching := tick_searching hfits.left hfits.right htick
  refine ⟨?_, hsearching.right⟩
  have hpc := hsearching.left
  cases hupc : u.pc with
  | returned answer =>
      rw [hupc] at hpc
      cases answer with
      | reservation space size => cases hpc
      | null => rfl
      | threw text => rfl
  | _ => rfl

theorem counted_search (h : Counted s) {thread : Thread} {spurious : Bool}
    {request : Request} {pc : Pc} {u : ReservationManager.State}
    (hframe : s.threads.lookup thread = some (.requesting request pc))
    (hroom : s.counted < sizeMax)
    (htick : ({ start s.reserved s.activeReservations with pc := pc }).tick request
      spurious = some u)
    (hphases : Phases { s with
      reserved := u.reserved
      activeReservations := u.activeReservations
      threads := s.threads.insert thread (.requesting request u.pc) }) :
    Counted { s with
      reserved := u.reserved
      activeReservations := u.activeReservations
      threads := s.threads.insert thread (.requesting request u.pc) } := by
  have hcounts := callsIn_insert Frame.isCounted hframe
    (t := { s with
      reserved := u.reserved
      activeReservations := u.activeReservations
      threads := s.threads.insert thread (.requesting request u.pc) }) rfl
  have hdecrements := callsIn_same Frame.isDecrementing hframe
    (t := { s with
      reserved := u.reserved
      activeReservations := u.activeReservations
      threads := s.threads.insert thread (.requesting request u.pc) }) rfl rfl
  have hshutdowns := callsIn_same Frame.isShutdown hframe
    (t := { s with
      reserved := u.reserved
      activeReservations := u.activeReservations
      threads := s.threads.insert thread (.requesting request u.pc) }) rfl rfl
  rw [isCounted_requesting, isCounted_requesting] at hcounts
  rcases tick_count_cases htick with ⟨hnot, hgranted, hactive⟩ | ⟨hnot, hnot', hactive⟩
  · rcases Bool.eq_false_or_eq_true s.shutdownFlag with hflag | hflag
    · have hnone := (search_after_flag h.phases hframe htick hflag).left
      rw [hgranted] at hnone
      cases hnone
    · have hbefore := h.before hflag
      rw [hnot, hgranted] at hcounts
      simp only [Bool.false_eq_true, if_false, if_true] at hcounts
      have hsum : wrapSize (s.activeReservations + 1) = s.counted + 1 := by
        rw [hbefore]
        apply wrapSize_of_lt
        unfold sizeMax at hroom
        omega
      refine Counted.of_unset hphases hflag ?_ ?_
      · show u.activeReservations ≤ sizeMax
        omega
      · show u.activeReservations = s.liveCount + _
        unfold State.counted at hsum
        omega
  · rw [hnot, hnot'] at hcounts
    refine h.steady hphases hactive rfl ?_ hdecrements (Eq.ge hshutdowns)
    exact congrArg (s.liveCount + ·) (Nat.add_right_cancel hcounts)

/-- The count covers a callback that is about to decrement it. -/
theorem Counted.pos (h : Counted s) {thread : Thread}
    (hframe : s.threads.lookup thread = some .decrementing) : 0 < s.activeReservations := by
  have hpos := callsIn_pos Frame.isDecrementing hframe rfl
  rcases Bool.eq_false_or_eq_true s.shutdownFlag with hflag | hflag
  · exact hpos.trans_le (h.during hflag)
  · have hbefore := h.before hflag
    have hle := decrementing_le_counted s
    unfold State.counted at hbefore
    omega

theorem counted_decrement (h : Counted s) {thread : Thread} {active : Nat}
    (hframe : s.threads.lookup thread = some .decrementing)
    (hactive : active + 1 = s.activeReservations)
    (hphases : Phases { s with
      activeReservations := active
      threads := s.threads.insert thread .done }) :
    Counted { s with
      activeReservations := active
      threads := s.threads.insert thread .done } := by
  have hcounts := callsIn_insert Frame.isCounted hframe
    (t := { s with
      activeReservations := active
      threads := s.threads.insert thread .done }) rfl
  have hdecrements := callsIn_insert Frame.isDecrementing hframe
    (t := { s with
      activeReservations := active
      threads := s.threads.insert thread .done }) rfl
  have hshutdowns := callsIn_same Frame.isShutdown hframe
    (t := { s with
      activeReservations := active
      threads := s.threads.insert thread .done }) rfl rfl
  simp only [Frame.isCounted, Frame.isDecrementing, if_true, Bool.false_eq_true,
    if_false] at hcounts hdecrements
  have hbounded := h.bounded
  refine ⟨hphases, ?_, ?_, ?_, ?_⟩
  · show active ≤ sizeMax
    omega
  · intro hflag
    have hbefore := h.before hflag
    show active = s.liveCount + _
    unfold State.counted at hbefore
    omega
  · intro hflag
    have hduring := h.during hflag
    show _ ≤ active
    omega
  · intro hflag hzero
    have hafter := h.after hflag (hshutdowns ▸ hzero)
    omega

theorem counted_move (h : Counted s) (hok : ResetsAlone s e) (hmove : Move spaces s e t) :
    NeverWraps s e ∧ Counted t := by
  have hphases := phases_move h.phases hmove
  cases hmove with
  | request hidle halive hshut =>
      refine ⟨trivial, h.steady hphases rfl rfl ?_ (callsIn_idle _ hidle rfl rfl)
        (Eq.ge (callsIn_idle _ hidle rfl rfl))⟩
      exact congrArg (s.liveCount + ·) (callsIn_idle _ hidle rfl rfl)
  | destroy hidle hlive =>
      rename_i thread addr held
      have hcounts := callsIn_insert_new Frame.isCounted hidle
        (t := { s with
          live := s.live.erase addr
          threads := s.threads.insert thread
            (.releasing held.space held.bytes .load) }) rfl
      have hlives : s.liveCount = 1 + (s.live.erase addr).sum (fun _ _ => 1) :=
        Table.sum_of_lookup hlive (fun _ _ => 1)
      refine ⟨trivial, h.steady hphases rfl rfl ?_ (callsIn_idle _ hidle rfl rfl)
        (Eq.ge (callsIn_idle _ hidle rfl rfl))⟩
      simp only [Frame.isCounted, if_true] at hcounts
      show (s.live.erase addr).sum (fun _ _ => 1) + _ = _
      unfold State.counted
      omega
  | shutdown hidle halive hrequest hshut =>
      refine ⟨trivial, h.steady hphases rfl rfl ?_ (callsIn_idle _ hidle rfl rfl)
        (hshut ▸ Nat.zero_le _)⟩
      exact congrArg (s.liveCount + ·) (callsIn_idle _ hidle rfl rfl)
  | destroyManager halive hrequest hshut =>
      exact ⟨trivial, h.steady hphases rfl rfl rfl rfl (Nat.le_refl _)⟩
  | search hframe hroom htick =>
      refine ⟨?_, counted_search h hframe hroom htick hphases⟩
      simp only [NeverWraps, hframe]
  | releasing hframe =>
      exact ⟨by simp only [NeverWraps, hframe], h.replace hphases hframe rfl rfl rfl rfl
        (fun _ => rfl) (fun _ => rfl) rfl⟩
  | released hframe =>
      exact ⟨by simp only [NeverWraps, hframe], h.replace hphases hframe rfl rfl rfl rfl
        (fun _ => rfl) (fun _ => rfl) rfl⟩
  | readSet hframe hset =>
      refine ⟨by simp only [NeverWraps, hframe], h.replace hphases hframe rfl rfl rfl rfl
        ?_ (fun _ => rfl) rfl⟩
      intro hunset
      rw [hset] at hunset
      cases hunset
  | readUnset hframe hunset =>
      refine ⟨by simp only [NeverWraps, hframe], h.replace hphases hframe rfl rfl rfl rfl
        (fun _ => rfl) ?_ rfl⟩
      intro hset
      rw [hunset] at hset
      cases hset
  | decrement hframe =>
      have hpos := h.pos hframe
      refine ⟨?_, counted_decrement h hframe (wrapSize_add_sizeMax hpos h.bounded) hphases⟩
      simp only [NeverWraps, hframe]
      omega
  | storeFlag hframe =>
      rename_i thread spurious
      have hsame : forall kind : Frame -> Bool, kind .clearing = kind .storingFlag ->
          State.callsIn { s with
            shutdownFlag := true
            threads := s.threads.insert thread .clearing } kind = s.callsIn kind :=
        fun kind hkind => callsIn_same kind hframe rfl hkind
      refine ⟨by simp only [NeverWraps, hframe],
        Counted.of_set hphases rfl h.bounded ?_ ?_⟩
      · rw [hsame Frame.isDecrementing rfl]
        show _ ≤ s.activeReservations
        rcases Bool.eq_false_or_eq_true s.shutdownFlag with hflag | hflag
        · exact h.during hflag
        · have hbefore := h.before hflag
          have hle := decrementing_le_counted s
          unfold State.counted at hbefore
          omega
      · rw [hsame Frame.isShutdown rfl]
        intro hzero
        have hpos := callsIn_pos Frame.isShutdown hframe rfl
        omega
  | clear hframe =>
      exact ⟨by simp only [NeverWraps, hframe], h.replace hphases hframe rfl rfl rfl rfl
        (fun _ => rfl) (fun _ => rfl) rfl⟩
  | storeZero hframe =>
      rename_i thread spurious
      have hfits : s.shutdownFlag = true ∧ s.spacesAlive = false :=
        h.phases.fits thread _ hframe
      have hnone : s.callsIn Frame.isDecrementing = 0 := by
        simp only [ResetsAlone, hframe] at hok
        exact hok
      have hsame : State.callsIn { s with
            activeReservations := 0
            threads := s.threads.insert thread .done } Frame.isDecrementing = 0 :=
        Eq.trans (callsIn_same _ hframe rfl rfl) hnone
      exact ⟨by simp only [NeverWraps, hframe],
        Counted.of_set hphases hfits.left (Nat.zero_le _) (Nat.le_of_eq hsame)
          (fun _ => ⟨rfl, hsame⟩)⟩
  | ret hframe hended =>
      rename_i thread addr frame
      have hnot : frame.isDecrementing = false := by
        cases frame <;> first | rfl | cases hended.left
      refine ⟨trivial, h.steady hphases rfl rfl ?_ (callsIn_ended _ hframe rfl hnot)
        (Eq.ge (callsIn_ended _ hframe rfl hended.right))⟩
      exact congrArg (s.liveCount + ·) (callsIn_ended _ hframe rfl hended.left)
  | handOver hframe hfree =>
      rename_i thread addr request space size
      have hcounts := callsIn_erase Frame.isCounted hframe
        (t := { s with
          live := s.live.insert addr { space := space, bytes := size }
          threads := s.threads.erase thread }) rfl
      have hlives : (s.live.insert addr { space := space, bytes := size }).sum
          (fun _ _ => 1) = 1 + s.liveCount :=
        Table.sum_insert_of_none hfree _ (fun _ _ => 1)
      refine ⟨trivial, h.steady hphases rfl rfl ?_ (callsIn_ended _ hframe rfl rfl)
        (Eq.ge (callsIn_ended _ hframe rfl rfl))⟩
      simp only [Frame.isCounted, if_true] at hcounts
      show (s.live.insert addr _).sum (fun _ _ => 1) + _ = _
      unfold State.counted
      omega

theorem countsLive_of_counted (h : Counted s) : CountsLive s := by
  constructor
  · intro hflag hbusy
    have hnone : s.callsIn Frame.isCounted = 0 := by
      rw [callsIn_eq_zero] at hbusy ⊢
      intro thread frame hframe
      have hnot := hbusy thread frame hframe
      cases frame with
      | done => rfl
      | _ => cases hnot
    have hbefore := h.before hflag
    unfold State.counted at hbefore
    omega
  · intro hflag hshutdown _
    exact (h.after hflag hshutdown).left

/-!
# Overdrawn counts
-/

/-- A callback is about to decrement what `shutdown` has reset. -/
structure Overdrawn (s : State) : Prop where
  phases : Phases s
  flag : s.shutdownFlag = true
  cleared : s.spacesAlive = false
  zero : s.activeReservations = 0
  pending : 0 < s.callsIn Frame.isDecrementing

/-- No step counts a reservation any more, so the callback's own step is the one that
wraps. -/
theorem overdrawn_move (h : Overdrawn s) (hok : NeverWraps s e) (hmove : Move spaces s e t) :
    Overdrawn t := by
  have hphases := phases_move h.phases hmove
  have hpending := h.pending
  cases hmove with
  | request hidle halive hshut =>
      exact ⟨hphases, h.flag, h.cleared, h.zero,
        hpending.trans_eq (Eq.symm (callsIn_idle _ hidle rfl rfl))⟩
  | destroy hidle hlive =>
      exact ⟨hphases, h.flag, h.cleared, h.zero,
        hpending.trans_eq (Eq.symm (callsIn_idle _ hidle rfl rfl))⟩
  | shutdown hidle halive hrequest hshut =>
      exact ⟨hphases, h.flag, h.cleared, h.zero,
        hpending.trans_eq (Eq.symm (callsIn_idle _ hidle rfl rfl))⟩
  | destroyManager halive hrequest hshut =>
      exact ⟨hphases, h.flag, rfl, h.zero, hpending⟩
  | search hframe hroom htick =>
      have hsame := (search_after_flag h.phases hframe htick h.flag).right
      exact ⟨hphases, h.flag, h.cleared, hsame.trans h.zero,
        hpending.trans_eq (Eq.symm (callsIn_same _ hframe rfl rfl))⟩
  | releasing hframe =>
      exact ⟨hphases, h.flag, h.cleared, h.zero,
        hpending.trans_eq (Eq.symm (callsIn_same _ hframe rfl rfl))⟩
  | released hframe =>
      exact ⟨hphases, h.flag, h.cleared, h.zero,
        hpending.trans_eq (Eq.symm (callsIn_same _ hframe rfl rfl))⟩
  | readSet hframe hset =>
      exact ⟨hphases, h.flag, h.cleared, h.zero,
        hpending.trans_eq (Eq.symm (callsIn_same _ hframe rfl rfl))⟩
  | readUnset hframe hunset =>
      have hset := h.flag
      rw [hunset] at hset
      cases hset
  | decrement hframe =>
      simp only [NeverWraps, hframe] at hok
      exact absurd h.zero hok
  | storeFlag hframe =>
      exact ⟨hphases, rfl, h.cleared, h.zero,
        hpending.trans_eq (Eq.symm (callsIn_same _ hframe rfl rfl))⟩
  | clear hframe =>
      exact ⟨hphases, h.flag, rfl, h.zero,
        hpending.trans_eq (Eq.symm (callsIn_same _ hframe rfl rfl))⟩
  | storeZero hframe =>
      exact ⟨hphases, h.flag, h.cleared, rfl,
        hpending.trans_eq (Eq.symm (callsIn_same _ hframe rfl rfl))⟩
  | ret hframe hended =>
      rename_i thread addr frame
      have hnot : frame.isDecrementing = false := by
        cases frame <;> first | rfl | cases hended.left
      exact ⟨hphases, h.flag, h.cleared, h.zero,
        hpending.trans_eq (Eq.symm (callsIn_ended _ hframe rfl hnot))⟩
  | handOver hframe hfree =>
      exact ⟨hphases, h.flag, h.cleared, h.zero,
        hpending.trans_eq (Eq.symm (callsIn_ended _ hframe rfl rfl))⟩

/-- A reset that is not alone overdraws the count. -/
theorem resetsAlone_of_not_overdrawn (h : Phases s) (hmove : Move spaces s e t)
    (hopen : ¬ Overdrawn t) : ResetsAlone s e := by
  have hphases := phases_move h hmove
  cases hmove with
  | storeZero hframe =>
      rename_i thread spurious
      have hfits : s.shutdownFlag = true ∧ s.spacesAlive = false := h.fits thread _ hframe
      simp only [ResetsAlone, hframe]
      by_contra hsome
      apply hopen
      refine ⟨hphases, hfits.left, hfits.right, rfl, ?_⟩
      exact (Nat.pos_of_ne_zero hsome).trans_eq (Eq.symm (callsIn_same _ hframe rfl rfl))
  | search hframe hroom htick => simp only [ResetsAlone, hframe]
  | releasing hframe => simp only [ResetsAlone, hframe]
  | released hframe => simp only [ResetsAlone, hframe]
  | readSet hframe hset => simp only [ResetsAlone, hframe]
  | readUnset hframe hunset => simp only [ResetsAlone, hframe]
  | decrement hframe => simp only [ResetsAlone, hframe]
  | storeFlag hframe => simp only [ResetsAlone, hframe]
  | clear hframe => simp only [ResetsAlone, hframe]
  | _ => trivial

end Steps

theorem counted_initial : Counted State.initial :=
  Counted.of_unset phases_initial rfl (Nat.zero_le _) rfl

/--
The count of active reservations does not wrap and counts the live reservations when
`shutdown` stores 0 while no callback is between its load of the flag and its
`fetch_sub`.  In a run that lets these callbacks come to an end that is the only way.
-/
theorem active_count_iff (spaces : List SpaceInfo) (events : List Event) :
    ((lifecycleMachine spaces).Along ResetsAlone State.initial events ->
      (lifecycleMachine spaces).Throughout (fun s e t => NeverWraps s e ∧ CountsLive t)
        State.initial events) ∧
    forall t, (lifecycleMachine spaces).run State.initial events = some t ->
      t.callsIn Frame.isDecrementing = 0 ->
      ((lifecycleMachine spaces).Throughout (fun s e t => NeverWraps s e ∧ CountsLive t)
          State.initial events <->
        (lifecycleMachine spaces).Along ResetsAlone State.initial events) := by
  have hcounts : (lifecycleMachine spaces).Along ResetsAlone State.initial events ->
      (lifecycleMachine spaces).Throughout (fun s e t => NeverWraps s e ∧ CountsLive t)
        State.initial events := by
    refine Machine.throughout_of_invariant ?_ counted_initial
    intro s e t hs hok h
    have hnext := counted_move hs hok (step_move h)
    exact ⟨hnext.right, hnext.left, countsLive_of_counted hnext.right⟩
  refine ⟨hcounts, ?_⟩
  intro t hrun hended
  constructor
  · intro hgood
    have hnever : (lifecycleMachine spaces).Along NeverWraps State.initial events :=
      Machine.throughout_mono (fun _ _ _ h => h.left) hgood
    have hphases : forall s e t, Phases s -> NeverWraps s e ->
        (lifecycleMachine spaces).step s e = some t -> Phases t :=
      fun s e t hs _ h => phases_move hs (step_move h)
    have hstay : forall s e t, Overdrawn s -> NeverWraps s e ->
        (lifecycleMachine spaces).step s e = some t -> Overdrawn t :=
      fun s e t hs hok h => overdrawn_move hs hok (step_move h)
    have halone : forall s e t, Phases s -> NeverWraps s e ->
        (lifecycleMachine spaces).step s e = some t -> ¬ Overdrawn t -> ResetsAlone s e :=
      fun s e t hs _ h hopen => resetsAlone_of_not_overdrawn hs (step_move h) hopen
    refine Machine.throughout_of_open hphases hstay halone phases_initial hnever hrun ?_
    intro hover
    exact absurd hended (Nat.ne_of_gt hover.pending)
  · exact hcounts

/-- A reservation that is destroyed before `shutdown`. -/
theorem active_count_iff_inTime :
    (lifecycleMachine oneSpace).Throughout (fun s e t => NeverWraps s e ∧ CountsLive t)
        State.initial (obtainReservation ++ destroyReservation ++ runShutdown) <->
      (lifecycleMachine oneSpace).Along ResetsAlone State.initial
        (obtainReservation ++ destroyReservation ++ runShutdown) :=
  (active_count_iff oneSpace _).right _ rfl (by decide +kernel)

/-- A callback loads the unset flag, `shutdown` runs, the callback decrements: the count
is the largest there is, and stays so when all calls have come to an end. -/
theorem active_count_wraps :
    exists s, (lifecycleMachine oneSpace).run State.initial
        (obtainReservation ++ [.destroy 0 100, .tick 0 false, .tick 0 false, .tick 0 false,
          .shutdown 1, .tick 1 false, .tick 1 false, .tick 1 false, .ret 1 0]) = some s ∧
      ¬ NeverWraps s (.tick 0 false) ∧
      exists t, (lifecycleMachine oneSpace).run s [.tick 0 false, .ret 0 0] = some t ∧
        t.activeReservations = sizeMax ∧ t.callsIn Frame.isBusy = 0 ∧ ¬ CountsLive t :=
  ⟨_, rfl, by decide +kernel, _, rfl, by decide +kernel, by decide +kernel,
    by decide +kernel⟩

end Lifecycle

end ReservationManager
end Memory
end Cuda2Rocm
