import Cuda2Rocm.Memory.ReservationManager.Lifecycle

/-!
# Late releases

The space's own release runs first and consults no flag, so a reservation that is
destroyed after its space was cleared reads and writes a dead space; and only
`shutdown` sets the flag that keeps the manager's callback away from a dead manager.
-/

namespace Cuda2Rocm
namespace Memory
namespace ReservationManager

open Foundation

namespace Lifecycle

/-- A callback reads or writes its space or the manager only while that is alive. -/
def TouchesAlive (s : State) : Event -> Prop
  | .tick thread _ =>
      match s.threads.lookup thread with
      | some (.releasing _ _ _) => s.spacesAlive = true
      | some .decrementing => s.managerAlive = true
      | _ => True
  | _ => True

/-- Reservations are destroyed while their spaces are alive, and the teardown waits for
the destructors that it would pull the ground from under. -/
def TearsDownQuietly (s : State) : Event -> Prop
  | .destroy _ _ => s.spacesAlive = true
  | .tick thread _ =>
      match s.threads.lookup thread with
      | some .clearing => s.callsIn Frame.isReleasing = 0
      | _ => True
  | .destroyManager =>
      s.callsIn Frame.isReleasing = 0 ∧ s.callsIn Frame.isDecrementing = 0 ∧
        (s.shutdownFlag = true ∨ s.callsIn Frame.isReadingFlag = 0)
  | _ => True

instance (s : State) (e : Event) : Decidable (TouchesAlive s e) := by
  unfold TouchesAlive
  split
  · split <;> infer_instance
  · infer_instance

instance (s : State) (e : Event) : Decidable (TearsDownQuietly s e) := by
  unfold TearsDownQuietly
  split
  · infer_instance
  · split <;> infer_instance
  · infer_instance
  · infer_instance

/-- A fact about the frames of all calls in flight. -/
def State.Each (s : State) (p : Frame -> Prop) : Prop :=
  forall thread frame, s.threads.lookup thread = some frame -> p frame

section Frames

variable {s t : State} {p : Frame -> Prop} {thread : Thread} {frame : Frame}

theorem State.Each.insert (h : s.Each p) (ht : t.threads = s.threads.insert thread frame)
    (hframe : p frame) : t.Each p := by
  intro other frame' hlookup
  rw [ht] at hlookup
  rcases Table.lookup_of_lookup_insert hlookup with ⟨_, rfl⟩ | ⟨_, hold⟩
  · exact hframe
  · exact h other frame' hold

theorem State.Each.erase (h : s.Each p) (ht : t.threads = s.threads.erase thread) :
    t.Each p := by
  intro other frame' hlookup
  rw [ht] at hlookup
  exact h other frame' (Table.lookup_of_lookup_erase hlookup).right

theorem callsIn_eq_zero {kind : Frame -> Bool} :
    s.callsIn kind = 0 <-> s.Each (fun frame => kind frame = false) := by
  constructor
  · intro hzero thread frame hframe
    have hle := Table.le_sum hframe (fun _ frame => if kind frame then 1 else 0)
    change _ ≤ s.callsIn kind at hle
    cases hkind : kind frame with
    | false => rfl
    | true =>
        rw [hkind, hzero] at hle
        exact absurd hle (by decide)
  · intro h
    refine (Table.sum_congr ?_).trans (Table.sum_zero s.threads)
    intro thread frame hframe
    rw [h thread frame hframe]
    rfl

theorem not_callsIn_eq_zero {kind : Frame -> Bool} (h : ¬ s.callsIn kind = 0) :
    exists thread frame, s.threads.lookup thread = some frame ∧ kind frame = true := by
  by_contra hnone
  apply h
  rw [callsIn_eq_zero]
  intro thread frame hframe
  cases hkind : kind frame with
  | false => rfl
  | true => exact absurd ⟨thread, frame, hframe, hkind⟩ hnone

end Frames

/-!
# Quiet teardowns
-/

/-- No call is about to touch what is dead. -/
structure Quiet (s : State) : Prop where
  releasing : s.spacesAlive = false -> s.Each (fun frame => frame.isReleasing = false)
  decrementing : s.managerAlive = false ->
    s.Each (fun frame => frame.isDecrementing = false)
  readingFlag : s.managerAlive = false -> s.shutdownFlag = false ->
    s.Each (fun frame => frame.isReadingFlag = false)
  shutdown : s.managerAlive = false -> s.Each (fun frame => frame.isShutdown = false)
  spaces_dead : s.managerAlive = false -> s.spacesAlive = false

section Steps

variable {spaces : List SpaceInfo} {s t : State} {e : Event}

/-- A step whose new frame is not in a callback and which kills nothing. -/
theorem Quiet.insert (h : Quiet s) {thread : Thread} {frame : Frame}
    (hthreads : t.threads = s.threads.insert thread frame)
    (hspaces : t.spacesAlive = s.spacesAlive) (hmanager : t.managerAlive = s.managerAlive)
    (hflag : t.shutdownFlag = s.shutdownFlag)
    (hreleasing : s.spacesAlive = false -> frame.isReleasing = false)
    (hdecrementing : s.managerAlive = false -> frame.isDecrementing = false)
    (hreading : s.managerAlive = false -> s.shutdownFlag = false ->
      frame.isReadingFlag = false)
    (hshutdown : s.managerAlive = false -> frame.isShutdown = false) : Quiet t := by
  constructor
  · intro hdead
    rw [hspaces] at hdead
    exact (h.releasing hdead).insert hthreads (hreleasing hdead)
  · intro hdead
    rw [hmanager] at hdead
    exact (h.decrementing hdead).insert hthreads (hdecrementing hdead)
  · intro hdead hunset
    rw [hmanager] at hdead
    rw [hflag] at hunset
    exact (h.readingFlag hdead hunset).insert hthreads (hreading hdead hunset)
  · intro hdead
    rw [hmanager] at hdead
    exact (h.shutdown hdead).insert hthreads (hshutdown hdead)
  · intro hdead
    rw [hmanager] at hdead
    rw [hspaces]
    exact h.spaces_dead hdead

theorem Quiet.erase (h : Quiet s) {thread : Thread}
    (hthreads : t.threads = s.threads.erase thread)
    (hspaces : t.spacesAlive = s.spacesAlive) (hmanager : t.managerAlive = s.managerAlive)
    (hflag : t.shutdownFlag = s.shutdownFlag) : Quiet t := by
  constructor
  · intro hdead
    rw [hspaces] at hdead
    exact (h.releasing hdead).erase hthreads
  · intro hdead
    rw [hmanager] at hdead
    exact (h.decrementing hdead).erase hthreads
  · intro hdead hunset
    rw [hmanager] at hdead
    rw [hflag] at hunset
    exact (h.readingFlag hdead hunset).erase hthreads
  · intro hdead
    rw [hmanager] at hdead
    exact (h.shutdown hdead).erase hthreads
  · intro hdead
    rw [hmanager] at hdead
    rw [hspaces]
    exact h.spaces_dead hdead

/-- A frame that is there rules out the state in which none of its kind is. -/
theorem State.Each.absurd_of {kind : Frame -> Bool} {thread : Thread} {frame : Frame}
    {goal : Prop} (h : s.Each (fun frame => kind frame = false))
    (hframe : s.threads.lookup thread = some frame) (hkind : kind frame = true) : goal := by
  have hfalse := h thread frame hframe
  dsimp only at hfalse
  rw [hkind] at hfalse
  cases hfalse

theorem quiet_move (h : Quiet s) (hok : TearsDownQuietly s e) (hmove : Move spaces s e t) :
    Quiet t := by
  have hno : forall {goal : Prop}, s.managerAlive = true -> s.managerAlive = false ->
      goal := by
    intro goal halive hdead
    rw [halive] at hdead
    cases hdead
  cases hmove with
  | request hidle halive hshut =>
      exact h.insert rfl rfl rfl rfl (fun _ => rfl) (fun _ => rfl) (fun _ _ => rfl)
        (fun _ => rfl)
  | destroy hidle hlive =>
      refine h.insert rfl rfl rfl rfl ?_ (fun _ => rfl) (fun _ _ => rfl) (fun _ => rfl)
      intro hdead
      change s.spacesAlive = true at hok
      rw [hok] at hdead
      cases hdead
  | shutdown hidle halive hrequest hshut =>
      exact h.insert rfl rfl rfl rfl (fun _ => rfl) (fun _ => rfl) (fun _ _ => rfl)
        (hno halive)
  | destroyManager halive hrequest hshut =>
      rcases hok with ⟨hreleasing, hdecrementing, hreading⟩
      refine ⟨fun _ => callsIn_eq_zero.mp hreleasing, fun _ => callsIn_eq_zero.mp hdecrementing,
        ?_, fun _ => callsIn_eq_zero.mp hshut, fun _ => rfl⟩
      intro _ hunset
      rcases hreading with hset | hnone
      · change s.shutdownFlag = false at hunset
        rw [hset] at hunset
        cases hunset
      · exact callsIn_eq_zero.mp hnone
  | search hframe hroom htick =>
      exact h.insert rfl rfl rfl rfl (fun _ => rfl) (fun _ => rfl) (fun _ _ => rfl)
        (fun _ => rfl)
  | releasing hframe =>
      exact h.insert rfl rfl rfl rfl (fun hdead => (h.releasing hdead).absurd_of hframe rfl)
        (fun _ => rfl) (fun _ _ => rfl) (fun _ => rfl)
  | released hframe =>
      exact h.insert rfl rfl rfl rfl (fun _ => rfl) (fun _ => rfl)
        (fun hdead _ => (h.releasing (h.spaces_dead hdead)).absurd_of hframe rfl)
        (fun _ => rfl)
  | readSet hframe hflag =>
      exact h.insert rfl rfl rfl rfl (fun _ => rfl) (fun _ => rfl) (fun _ _ => rfl)
        (fun _ => rfl)
  | readUnset hframe hflag =>
      exact h.insert rfl rfl rfl rfl (fun _ => rfl)
        (fun hdead => (h.readingFlag hdead hflag).absurd_of hframe rfl) (fun _ _ => rfl)
        (fun _ => rfl)
  | decrement hframe =>
      exact h.insert rfl rfl rfl rfl (fun _ => rfl) (fun _ => rfl) (fun _ _ => rfl)
        (fun _ => rfl)
  | storeFlag hframe =>
      refine ⟨fun hdead => (h.releasing hdead).insert rfl rfl,
        fun hdead => (h.decrementing hdead).insert rfl rfl, ?_,
        fun hdead => (h.shutdown hdead).absurd_of hframe rfl, h.spaces_dead⟩
      intro _ hunset
      cases hunset
  | clear hframe =>
      have hreleasing : s.callsIn Frame.isReleasing = 0 := by
        simp only [TearsDownQuietly, hframe] at hok
        exact hok
      exact ⟨fun _ => (callsIn_eq_zero.mp hreleasing).insert rfl rfl,
        fun hdead => (h.decrementing hdead).insert rfl rfl,
        fun hdead hunset => (h.readingFlag hdead hunset).insert rfl rfl,
        fun hdead => (h.shutdown hdead).absurd_of hframe rfl, fun _ => rfl⟩
  | storeZero hframe =>
      exact h.insert rfl rfl rfl rfl (fun _ => rfl) (fun _ => rfl) (fun _ _ => rfl)
        (fun _ => rfl)
  | ret hframe hended => exact h.erase rfl rfl rfl rfl
  | handOver hframe hfree => exact h.erase rfl rfl rfl rfl

theorem touchesAlive_of_quiet (h : Quiet s) (e : Event) : TouchesAlive s e := by
  cases e with
  | tick thread spurious =>
      simp only [TouchesAlive]
      split
      · rename_i space bytes loop hframe
        cases halive : s.spacesAlive with
        | true => rfl
        | false => exact (h.releasing halive).absurd_of hframe rfl
      · rename_i hframe
        cases halive : s.managerAlive with
        | true => rfl
        | false => exact (h.decrementing halive).absurd_of hframe rfl
      · trivial
  | _ => trivial

/-!
# Doomed callbacks
-/

/-- A frame whose thread will touch what is dead, if it ever goes on. -/
def DoomedFrame (s : State) (frame : Frame) : Prop :=
  (frame.isReleasing = true ∧ s.spacesAlive = false) ∨
  (frame.isDecrementing = true ∧ s.managerAlive = false) ∨
  (frame.isReadingFlag = true ∧ s.managerAlive = false ∧ s.shutdownFlag = false ∧
    s.Each (fun frame => frame.isShutdown = false))

def Doomed (s : State) : Prop :=
  exists thread frame, s.threads.lookup thread = some frame ∧ DoomedFrame s frame

/-- A callback on its own stays doomed: nothing comes alive again. -/
theorem Doomed.of_others {actor : Thread} (h : Doomed s) (frame : Frame)
    (hactor : forall old, s.threads.lookup actor = some old -> ¬ DoomedFrame s old)
    (hthreads : t.threads = s.threads.insert actor frame ∨
      t.threads = s.threads.erase actor)
    (hspaces : s.spacesAlive = false -> t.spacesAlive = false)
    (hmanager : s.managerAlive = false -> t.managerAlive = false)
    (hflag : s.managerAlive = false -> s.Each (fun frame => frame.isShutdown = false) ->
      t.shutdownFlag = s.shutdownFlag ∧ frame.isShutdown = false) : Doomed t := by
  rcases h with ⟨thread, old, hold, hdoomed⟩
  have hne : thread ≠ actor := by
    rintro rfl
    exact hactor old hold hdoomed
  have hlookup : t.threads.lookup thread = some old := by
    rcases hthreads with heq | heq
    · rw [heq, Table.lookup_insert_ne hne]
      exact hold
    · rw [heq, Table.lookup_erase_ne hne]
      exact hold
  refine ⟨thread, old, hlookup, ?_⟩
  rcases hdoomed with ⟨hkind, hdead⟩ | ⟨hkind, hdead⟩ | ⟨hkind, hdead, hunset, hnone⟩
  · exact Or.inl ⟨hkind, hspaces hdead⟩
  · exact Or.inr (Or.inl ⟨hkind, hmanager hdead⟩)
  · have hsame := hflag hdead hnone
    refine Or.inr (Or.inr ⟨hkind, hmanager hdead, hsame.left ▸ hunset, ?_⟩)
    rcases hthreads with heq | heq
    · exact hnone.insert heq hsame.right
    · exact hnone.erase heq

theorem not_doomed_of_lookup {thread : Thread} {frame : Frame}
    (hframe : s.threads.lookup thread = some frame) (hnot : frame.isCallback = false) :
    forall old, s.threads.lookup thread = some old -> ¬ DoomedFrame s old := by
  intro old hold hdoomed
  rw [hframe] at hold
  cases hold
  unfold Frame.isCallback at hnot
  rcases hdoomed with ⟨hkind, _⟩ | ⟨hkind, _⟩ | ⟨hkind, _⟩ <;> simp [hkind] at hnot

/-- Nor is a callback that only touches what is alive. -/
theorem not_doomed_of_alive {thread : Thread} {frame : Frame}
    (hframe : s.threads.lookup thread = some frame)
    (hspaces : frame.isReleasing = true -> s.spacesAlive = true)
    (hmanager : frame.isDecrementing = true -> s.managerAlive = true)
    (hflag : frame.isReadingFlag = true -> s.managerAlive = true ∨ s.shutdownFlag = true) :
    forall old, s.threads.lookup thread = some old -> ¬ DoomedFrame s old := by
  intro old hold hdoomed
  rw [hframe] at hold
  cases hold
  rcases hdoomed with ⟨hkind, hdead⟩ | ⟨hkind, hdead⟩ | ⟨hkind, hdead, hunset, _⟩
  · rw [hspaces hkind] at hdead
    cases hdead
  · rw [hmanager hkind] at hdead
    cases hdead
  · rcases hflag hkind with halive | hset
    · rw [halive] at hdead
      cases hdead
    · rw [hset] at hunset
      cases hunset

theorem not_doomed_of_idle {thread : Thread} (hidle : s.threads.lookup thread = none) :
    forall old, s.threads.lookup thread = some old -> ¬ DoomedFrame s old := by
  intro old hold
  rw [hidle] at hold
  cases hold

/-- A doomed callback stays doomed as long as nothing dead is touched. -/
theorem doomed_move (h : Doomed s) (hok : TouchesAlive s e) (hmove : Move spaces s e t) :
    Doomed t := by
  cases hmove with
  | request hidle halive hshut =>
      exact h.of_others _ (not_doomed_of_idle hidle) (Or.inl rfl) id id
        (fun _ _ => ⟨rfl, rfl⟩)
  | destroy hidle hlive =>
      exact h.of_others _ (not_doomed_of_idle hidle) (Or.inl rfl) id id
        (fun _ _ => ⟨rfl, rfl⟩)
  | shutdown hidle halive hrequest hshut =>
      refine h.of_others _ (not_doomed_of_idle hidle) (Or.inl rfl) id id ?_
      intro hdead
      rw [halive] at hdead
      cases hdead
  | destroyManager halive hrequest hshut =>
      rcases h with ⟨thread, frame, hframe, hdoomed⟩
      refine ⟨thread, frame, hframe, ?_⟩
      rcases hdoomed with ⟨hkind, _⟩ | ⟨hkind, _⟩ | ⟨hkind, _, hunset, hnone⟩
      · exact Or.inl ⟨hkind, rfl⟩
      · exact Or.inr (Or.inl ⟨hkind, rfl⟩)
      · exact Or.inr (Or.inr ⟨hkind, rfl, hunset, hnone⟩)
  | search hframe hroom htick =>
      exact h.of_others _ (not_doomed_of_lookup hframe rfl) (Or.inl rfl) id id
        (fun _ _ => ⟨rfl, rfl⟩)
  | releasing hframe =>
      simp only [TouchesAlive, hframe] at hok
      have hnot := not_doomed_of_alive hframe (fun _ => hok) Bool.noConfusion Bool.noConfusion
      exact h.of_others _ hnot (Or.inl rfl) id id (fun _ _ => ⟨rfl, rfl⟩)
  | released hframe =>
      simp only [TouchesAlive, hframe] at hok
      have hnot := not_doomed_of_alive hframe (fun _ => hok) Bool.noConfusion Bool.noConfusion
      exact h.of_others _ hnot (Or.inl rfl) id id (fun _ _ => ⟨rfl, rfl⟩)
  | readSet hframe hset =>
      have hnot := not_doomed_of_alive hframe Bool.noConfusion Bool.noConfusion
        (fun _ => Or.inr hset)
      exact h.of_others _ hnot (Or.inl rfl) id id (fun _ _ => ⟨rfl, rfl⟩)
  | readUnset hframe hunset =>
      cases halive : s.managerAlive with
      | false =>
          exact ⟨_, .decrementing, Table.lookup_insert_self _ _ _,
            Or.inr (Or.inl ⟨rfl, halive⟩)⟩
      | true =>
          have hnot := not_doomed_of_alive hframe Bool.noConfusion Bool.noConfusion
            (fun _ => Or.inl halive)
          exact h.of_others _ hnot (Or.inl rfl) id id (fun _ _ => ⟨rfl, rfl⟩)
  | decrement hframe =>
      simp only [TouchesAlive, hframe] at hok
      have hnot := not_doomed_of_alive hframe Bool.noConfusion (fun _ => hok) Bool.noConfusion
      exact h.of_others _ hnot (Or.inl rfl) id id (fun _ _ => ⟨rfl, rfl⟩)
  | storeFlag hframe =>
      exact h.of_others _ (not_doomed_of_lookup hframe rfl) (Or.inl rfl) id id
        (fun _ hnone => hnone.absurd_of hframe rfl)
  | clear hframe =>
      exact h.of_others _ (not_doomed_of_lookup hframe rfl) (Or.inl rfl) (fun _ => rfl) id
        (fun _ hnone => hnone.absurd_of hframe rfl)
  | storeZero hframe =>
      exact h.of_others _ (not_doomed_of_lookup hframe rfl) (Or.inl rfl) id id
        (fun _ hnone => hnone.absurd_of hframe rfl)
  | ret hframe hended =>
      rename_i thread addr frame
      refine h.of_others .done (not_doomed_of_lookup hframe ?_) (Or.inr rfl)
        id id (fun _ _ => ⟨rfl, rfl⟩)
      cases frame <;> first | rfl | cases hended.left
  | handOver hframe hfree =>
      exact h.of_others .done (not_doomed_of_lookup hframe rfl) (Or.inr rfl)
        id id (fun _ _ => ⟨rfl, rfl⟩)

/-- A teardown that is not quiet dooms a callback. -/
theorem tearsDownQuietly_of_not_doomed (h : step spaces s e = some t)
    (hopen : ¬ Doomed t) : TearsDownQuietly s e := by
  have hmove := step_move h
  cases hmove with
  | destroy hidle hlive =>
      rename_i thread addr held
      cases halive : s.spacesAlive with
      | true => exact halive
      | false =>
          exact absurd ⟨thread, _, Table.lookup_insert_self _ _ _,
            Or.inl ⟨rfl, halive⟩⟩ hopen
  | destroyManager halive hrequest hshut =>
      refine ⟨?_, ?_, ?_⟩
      · by_contra hsome
        rcases not_callsIn_eq_zero hsome with ⟨thread, frame, hframe, hkind⟩
        exact hopen ⟨thread, frame, hframe, Or.inl ⟨hkind, rfl⟩⟩
      · by_contra hsome
        rcases not_callsIn_eq_zero hsome with ⟨thread, frame, hframe, hkind⟩
        exact hopen ⟨thread, frame, hframe, Or.inr (Or.inl ⟨hkind, rfl⟩)⟩
      · cases hflag : s.shutdownFlag with
        | true => exact Or.inl rfl
        | false =>
            right
            by_contra hsome
            rcases not_callsIn_eq_zero hsome with ⟨thread, frame, hframe, hkind⟩
            exact hopen ⟨thread, frame, hframe,
              Or.inr (Or.inr ⟨hkind, rfl, hflag, callsIn_eq_zero.mp hshut⟩)⟩
  | clear hframe =>
      rename_i thread spurious
      simp only [TearsDownQuietly, hframe]
      by_contra hsome
      rcases not_callsIn_eq_zero hsome with ⟨other, frame, hother, hkind⟩
      have hne : other ≠ thread := by
        rintro rfl
        rw [hframe] at hother
        cases hother
        cases hkind
      refine hopen ⟨other, frame, ?_, Or.inl ⟨hkind, rfl⟩⟩
      exact (Table.lookup_insert_ne hne _ _).trans hother
  | search hframe hroom htick => simp only [TearsDownQuietly, hframe]
  | readSet hframe hset => simp only [TearsDownQuietly, hframe]
  | readUnset hframe hunset => simp only [TearsDownQuietly, hframe]
  | releasing hframe => simp only [TearsDownQuietly, hframe]
  | released hframe => simp only [TearsDownQuietly, hframe]
  | decrement hframe => simp only [TearsDownQuietly, hframe]
  | storeFlag hframe => simp only [TearsDownQuietly, hframe]
  | storeZero hframe => simp only [TearsDownQuietly, hframe]
  | _ => trivial

end Steps

theorem quiet_initial : Quiet State.initial := by
  have hnone : forall kind : Frame -> Bool,
      State.initial.Each (fun frame => kind frame = false) := by
    intro kind thread frame hframe
    cases hframe
  exact ⟨fun _ => hnone _, fun _ => hnone _, fun _ _ => hnone _, fun _ => hnone _,
    fun hdead => by cases hdead⟩

/--
Callbacks of reservations touch nothing dead when no reservation is destroyed after its
space, the spaces are cleared while no destructor is at them, and the manager is
destroyed while none is on its way to it.  In a run that lets all destructors come to
an end they touch nothing dead only then.
-/
theorem late_releases_inert_iff (spaces : List SpaceInfo) (events : List Event) :
    ((lifecycleMachine spaces).Along TearsDownQuietly State.initial events ->
      (lifecycleMachine spaces).Along TouchesAlive State.initial events) ∧
    forall t, (lifecycleMachine spaces).run State.initial events = some t ->
      t.callsIn Frame.isCallback = 0 ->
      ((lifecycleMachine spaces).Along TouchesAlive State.initial events <->
        (lifecycleMachine spaces).Along TearsDownQuietly State.initial events) := by
  have hquiet : (lifecycleMachine spaces).Along TearsDownQuietly State.initial events ->
      (lifecycleMachine spaces).Along TouchesAlive State.initial events :=
    Machine.throughout_of_invariant
      (fun s e t hs hok h => ⟨quiet_move hs hok (step_move h), touchesAlive_of_quiet hs e⟩)
      quiet_initial
  refine ⟨hquiet, ?_⟩
  intro t hrun hended
  have hopen : ¬ Doomed t := by
    rintro ⟨thread, frame, hframe, hdoomed⟩
    have hnot := callsIn_eq_zero.mp hended thread frame hframe
    exact not_doomed_of_lookup hframe hnot frame hframe hdoomed
  constructor
  · intro htouches
    have hstay : forall s e t, Doomed s -> TouchesAlive s e ->
        (lifecycleMachine spaces).step s e = some t -> Doomed t :=
      fun s e t hs hok h => doomed_move hs hok (step_move h)
    have hgood : forall s e t, (lifecycleMachine spaces).step s e = some t -> ¬ Doomed t ->
        TearsDownQuietly s e :=
      fun s e t h hnot => tearsDownQuietly_of_not_doomed h hnot
    exact Machine.along_of_open hstay hgood htouches hrun hopen
  · exact hquiet

/-- One device with 10 bytes. -/
def oneSpace : List SpaceInfo := [{ id := { tier := .gpu, deviceId := 0 }, max := 10 }]

/-- A client gets a reservation of 4 bytes at address 100. -/
def obtainReservation : List Event :=
  [.request 0 (.anyMemorySpaceInTier .gpu) 4, .tick 0 false, .tick 0 false, .tick 0 false,
    .tick 0 false, .ret 0 100]

def destroyReservation : List Event :=
  [.destroy 0 100, .tick 0 false, .tick 0 false, .tick 0 false, .tick 0 false, .ret 0 0]

def runShutdown : List Event :=
  [.shutdown 0, .tick 0 false, .tick 0 false, .tick 0 false, .ret 0 0]

/-- A reservation that is destroyed before `shutdown` and the manager's end. -/
theorem late_releases_inert_iff_inTime :
    (lifecycleMachine oneSpace).Along TouchesAlive State.initial
        (obtainReservation ++ destroyReservation ++ runShutdown ++ [.destroyManager]) <->
      (lifecycleMachine oneSpace).Along TearsDownQuietly State.initial
        (obtainReservation ++ destroyReservation ++ runShutdown ++ [.destroyManager]) :=
  (late_releases_inert_iff oneSpace _).right _ rfl (by decide +kernel)

/-- A reservation that outlives `shutdown` reads and writes its dead space; one that
outlives a manager without `shutdown` writes the dead manager as well. -/
theorem late_release_touches_dead :
    (exists s, (lifecycleMachine oneSpace).run State.initial
        (obtainReservation ++ runShutdown ++ [.destroy 0 100]) = some s ∧
      ¬ TouchesAlive s (.tick 0 false) ∧
      exists t, (lifecycleMachine oneSpace).step s (.tick 0 false) = some t) ∧
    exists s, (lifecycleMachine oneSpace).run State.initial
        (obtainReservation ++ [.destroyManager, .destroy 0 100, .tick 0 false,
          .tick 0 false, .tick 0 false]) = some s ∧
      ¬ TouchesAlive s (.tick 0 false) ∧ s.managerAlive = false ∧
      s.callsIn Frame.isDecrementing = 1 :=
  ⟨⟨_, rfl, by decide +kernel, _, rfl⟩, _, rfl, by decide +kernel, rfl, by decide +kernel⟩

end Lifecycle

end ReservationManager
end Memory
end Cuda2Rocm
