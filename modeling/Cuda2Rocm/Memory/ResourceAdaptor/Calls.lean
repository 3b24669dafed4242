import Cuda2Rocm.Memory.ResourceAdaptor.Runs

/-!
# Calls over whole runs

What a call leaves behind: a deallocation or a successful allocation in the
counters, nothing where the call throws.
-/

namespace Cuda2Rocm
namespace Memory
namespace ResourceAdaptor

open Foundation

/-!
# Calls that throw
-/

/-- A frame a call to `allocate` can be in before it has returned a pointer. -/
def Frame.isAllocate : Frame -> Bool
  | .deallocCheck _ _ => false
  | .deallocUpstream _ _ => false
  | .deallocCredit _ => false
  | .done (.returned _) => false
  | .done .deallocated => false
  | _ => true

/-- The thread is inside `allocate`, or has just left it. -/
def InAllocate (thread : Thread) (s : State) : Prop :=
  exists frame, s.threads.lookup thread = some frame ∧
    (frame.isAllocate = true ∨ exists ptr, frame = .done (.returned ptr))

/-- The thread has left `allocate` with a pointer. -/
def HasReturned (thread : Thread) (s : State) : Prop :=
  exists ptr, s.threads.lookup thread = some (.done (.returned ptr))

section Throwing

variable {s t : State} {reservationLimit : Nat} {thread : Thread}

/-- A step of one thread replaces its frame and no other. -/
def Replaces (s t : State) (thread : Thread) (frame : Frame) : Prop :=
  t.threads = s.threads.insert thread frame

/-- Where a frame of `allocate` or `deallocate` can go in one step. -/
structure Successor (s t : State) (thread : Thread) : Prop where
  replaces : exists old frame, s.threads.lookup thread = some old ∧
    Replaces s t thread frame ∧
    (old.isAllocate = true ->
      frame.isAllocate = true ∨ exists ptr, frame = .done (.returned ptr)) ∧
    (forall outcome, old ≠ .done outcome)

theorem Frame.Fails.isAllocate {old frame : Frame} (h : old.Fails frame) :
    frame.isAllocate = true := by
  cases h <;> rfl

theorem Frame.Takes.isAllocate {a : Adaptor} {ptr : Ptr} {source : Source}
    {old frame : Frame} (h : Frame.Takes a ptr source old frame) :
    frame.isAllocate = true := by
  cases h <;> rfl

theorem Event.isBy_unique {e : Event} {other : Thread} (h : e.isBy thread = true)
    (hother : e.isBy other = true) : thread = other := by
  cases e with
  | proceed actor => exact (of_decide_eq_true h).symm.trans (of_decide_eq_true hother)
  | request actor result => exact (of_decide_eq_true h).symm.trans (of_decide_eq_true hother)
  | handleOom actor result =>
      exact (of_decide_eq_true h).symm.trans (of_decide_eq_true hother)
  | _ => cases h

theorem successor_move {e : Event} (hmove : Move reservationLimit s e t)
    (hmine : e.isBy thread = true) : Successor s t thread := by
  cases hmove with
  | allocate _ => cases hmine
  | deallocate _ _ _ => cases hmine
  | attach => cases hmine
  | ret _ => cases hmine
  | refuse hframe =>
      cases of_decide_eq_true hmine
      exact ⟨_, _, hframe, rfl, fun _ => Or.inl rfl, nofun⟩
  | pass hframe hpasses =>
      cases of_decide_eq_true hmine
      exact ⟨_, _, hframe, rfl, fun _ => Or.inl rfl, nofun⟩
  | @chargeManaged _ call ptr hframe =>
      cases of_decide_eq_true hmine
      exact ⟨_, _, hframe, rfl, fun _ => Or.inr ⟨ptr, rfl⟩, nofun⟩
  | @chargePinned _ call ptr hframe =>
      cases of_decide_eq_true hmine
      exact ⟨_, _, hframe, rfl, fun _ => Or.inr ⟨ptr, rfl⟩, nofun⟩
  | @charge _ call ptr hframe =>
      cases of_decide_eq_true hmine
      exact ⟨_, _, hframe, rfl, fun _ => Or.inr ⟨ptr, rfl⟩, nofun⟩
  | freeSpilled hframe hspilled =>
      cases of_decide_eq_true hmine
      exact ⟨_, _, hframe, rfl, nofun, nofun⟩
  | passOn hframe hspilled =>
      cases of_decide_eq_true hmine
      exact ⟨_, _, hframe, rfl, nofun, nofun⟩
  | freeUpstream hframe =>
      cases of_decide_eq_true hmine
      exact ⟨_, _, hframe, rfl, nofun, nofun⟩
  | credit hframe =>
      cases of_decide_eq_true hmine
      exact ⟨_, _, hframe, rfl, nofun, nofun⟩
  | fail hby hframe hfails =>
      cases Event.isBy_unique hby hmine
      refine ⟨_, _, hframe, rfl, fun _ => Or.inl hfails.isAllocate, ?_⟩
      rintro outcome rfl
      cases hfails
  | take hby hframe htakes hfresh =>
      cases Event.isBy_unique hby hmine
      refine ⟨_, _, hframe, rfl, fun _ => Or.inl htakes.isAllocate, ?_⟩
      rintro outcome rfl
      cases htakes

/-- Until it returns from its frame, a thread in a call only moves by its own steps. -/
theorem lookup_move {e : Event} {frame : Frame} (hmove : Move reservationLimit s e t)
    (hframe : s.threads.lookup thread = some frame) (hother : e.isBy thread = false)
    (hret : e ≠ .ret thread) : t.threads.lookup thread = some frame := by
  have hkeep : forall {actor : Thread} (frame' : Frame), e.isBy actor = true ->
      (s.threads.insert actor frame').lookup thread = some frame := by
    intro actor frame' hby
    have hne : thread ≠ actor := by
      rintro rfl
      rw [hby] at hother
      cases hother
    exact (Table.lookup_insert_ne hne _ _).trans hframe
  have hstart : forall {actor : Thread} (frame' : Frame), s.threads.lookup actor = none ->
      (s.threads.insert actor frame').lookup thread = some frame := by
    intro actor frame' hidle
    have hne : thread ≠ actor := by
      rintro rfl
      rw [hframe] at hidle
      cases hidle
    exact (Table.lookup_insert_ne hne _ _).trans hframe
  cases hmove with
  | allocate hidle => exact hstart _ hidle
  | deallocate hidle _ _ => exact hstart _ hidle
  | attach => exact hframe
  | fail hby _ _ => exact hkeep _ hby
  | take hby _ _ _ => exact hkeep _ hby
  | ret _ =>
      have hne : thread ≠ _ := fun heq => hret (congrArg Event.ret heq.symm)
      exact (Table.lookup_erase_ne hne _).trans hframe
  | _ => exact hkeep _ (decide_eq_true rfl)

theorem inAllocate_step {e : Event} (hinv : InAllocate thread s)
    (hret : e ≠ .ret thread)
    (h : (adaptorMachine reservationLimit).step s e = some t) :
    InAllocate thread t := by
  rcases step_move h with ⟨u, hu, rfl⟩
  rcases hinv with ⟨frame, hframe, hwhere⟩
  cases hmine : e.isBy thread with
  | false =>
      have hsame := lookup_move hu hframe hmine hret
      exact ⟨frame, hsame, hwhere⟩
  | true =>
      rcases (successor_move hu hmine).replaces with
        ⟨old, next, hold, hreplaces, hnext, hopen⟩
      rw [hframe] at hold
      cases hold
      refine ⟨next, ?_, ?_⟩
      · show u.threads.lookup thread = some next
        rw [hreplaces]
        exact Table.lookup_insert_self _ _ _
      · rcases hwhere with hallocate | ⟨ptr, hreturned⟩
        · exact hnext hallocate
        · exact absurd hreturned (hopen _)

theorem hasReturned_step {e : Event} (hinv : HasReturned thread s)
    (hret : e ≠ .ret thread)
    (h : (adaptorMachine reservationLimit).step s e = some t) :
    HasReturned thread t := by
  rcases step_move h with ⟨u, hu, rfl⟩
  rcases hinv with ⟨ptr, hframe⟩
  cases hmine : e.isBy thread with
  | false =>
      have hsame := lookup_move hu hframe hmine hret
      exact ⟨ptr, hsame⟩
  | true =>
      rcases (successor_move hu hmine).replaces with ⟨old, _, hold, _, _, hopen⟩
      rw [hframe] at hold
      cases hold
      exact absurd rfl (hopen _)

/-- A step of a call that has not returned a pointer changes no counter. -/
theorem sameCounters_of_mine {e : Event} (hinv : InAllocate thread s)
    (hmine : e.isBy thread = true) (hopen : ¬ HasReturned thread t)
    (h : (adaptorMachine reservationLimit).step s e = some t) :
    SameCounters s.adaptor t.adaptor := by
  cases counterStep_step h with
  | same hsame => exact hsame
  | charge other call ptr spilled hevent hadaptor hreturned =>
      subst hevent
      have heq : other = thread := by simpa [Event.isBy] using hmine
      subst heq
      exact absurd ⟨ptr, hreturned⟩ hopen
  | credit other call frame spilled hevent hframe hdealloc hadaptor =>
      subst hevent
      have heq : other = thread := by simpa [Event.isBy] using hmine
      subst heq
      rcases hinv with ⟨frame', hframe', hwhere⟩
      rw [hframe] at hframe'
      cases hframe'
      rcases hwhere with hallocate | ⟨ptr, rfl⟩
      · cases frame <;> simp_all [Frame.isAllocate, Frame.isDeallocate]
      · cases hdealloc

/-- The steps of a call that ends in an exception change nothing that is observed of
the counters and of the spills, whatever other threads change in between. -/
theorem changeBy_of_threw {observe : Adaptor -> Int}
    (hobserve : forall a b, SameCounters a b -> observe b = observe a)
    {call : Call} {events : List Event}
    (hframe : s.threads.lookup thread = some (.check call))
    (hnoret : forall e, e ∈ events -> e ≠ .ret thread)
    (hrun : (adaptorMachine reservationLimit).run s events = some t)
    {failure : Failure}
    (hthrew : t.threads.lookup thread = some (.done (.threw failure))) :
    (adaptorMachine reservationLimit).changeBy (Event.isBy thread)
      (fun s => observe s.adaptor) s events = 0 := by
  have hstart : InAllocate thread s := ⟨_, hframe, Or.inl rfl⟩
  have hok : (adaptorMachine reservationLimit).Along (fun _ e => e ≠ .ret thread)
      s events := Machine.along_of_events hnoret
  have hopen : ¬ HasReturned thread t := by
    rintro ⟨ptr, hreturned⟩
    rw [hthrew] at hreturned
    cases hreturned
  have hinv : forall s e t, InAllocate thread s -> e ≠ .ret thread ->
      (adaptorMachine reservationLimit).step s e = some t -> InAllocate thread t :=
    fun _ _ _ h hret hs => inAllocate_step h hret hs
  have hclosed : forall s e t, HasReturned thread s -> e ≠ .ret thread ->
      (adaptorMachine reservationLimit).step s e = some t -> HasReturned thread t :=
    fun _ _ _ h hret hs => hasReturned_step h hret hs
  have hmine : forall s e t, InAllocate thread s -> e ≠ .ret thread ->
      (adaptorMachine reservationLimit).step s e = some t -> e.isBy thread = true ->
      ¬ HasReturned thread t -> observe t.adaptor - observe s.adaptor = 0 - 0 := by
    intro s e t h _ hs hm hnot
    rw [hobserve _ _ (sameCounters_of_mine h hm hnot hs)]
    omega
  exact Machine.changeBy_eq_potential hinv hclosed hmine
    (fun _ _ _ _ _ _ _ => rfl) hstart hok hrun hopen

end Throwing

/-!
# Exactness
-/

/-- No call is in flight. -/
def Quiet (s : State) : Prop :=
  forall thread frame, s.threads.lookup thread = some frame ->
    exists outcome, frame = .done outcome

/-- Bytes of the pointers clients hold, on all streams or on one. -/
def State.liveBytes (s : State) : Nat :=
  s.world.held.sum (fun _ g => g.call.bytes)

def State.liveBytesOn (s : State) (stream : Stream) : Nat :=
  s.world.held.sum (fun _ g => if g.call.stream = stream then g.call.bytes else 0)

theorem owedShares_of_quiet {s : State} (h : Quiet s) (share : Call -> Nat) :
    owedShares s.threads share = 0 := by
  have hzero : owedShares s.threads share = s.threads.sum (fun _ _ => 0) := by
    apply Table.sum_congr
    intro thread frame hframe
    rcases h thread frame hframe with ⟨outcome, rfl⟩
    rfl
  rw [hzero]
  exact Table.sum_zero s.threads

/-- What every run keeps as long as the sums fit. -/
structure Accounts (s : State) : Prop where
  exact : Exact s.adaptor s.world s.threads
  peaks : PeaksTrack s

instance (s : State) : Decidable (SumsFit s) :=
  inferInstanceAs (Decidable (_ < _))

theorem accounts_step {s t : State} {reservationLimit : Nat} {e : Event}
    (hinv : Accounts s) (h : (adaptorMachine reservationLimit).step s e = some t)
    (hfit : SumsFit t) : Accounts t := by
  rcases step_move h with ⟨u, hu, heq⟩
  refine ⟨?_, peaksTrack_step hinv.peaks h⟩
  subst heq
  have hnext := exact_move hinv.exact hu hfit
  exact hnext

theorem accounts_initial : Accounts State.initial := by
  constructor
  · exact placed_initial.exact rfl (fun _ => rfl)
  · intro stream
    exact ⟨rfl, Nat.le_refl 0⟩

theorem accounts_run {reservationLimit : Nat} {events : List Event} {s : State}
    (hrun : (adaptorMachine reservationLimit).run State.initial events = some s)
    (hfit : (adaptorMachine reservationLimit).Reaches SumsFit State.initial events) :
    Accounts s := by
  have hstep : forall s e t, Accounts s ->
      (forall t, (adaptorMachine reservationLimit).step s e = some t -> SumsFit t) ->
      (adaptorMachine reservationLimit).step s e = some t -> Accounts t :=
    fun _ _ t hinv hfits h => accounts_step hinv h (hfits t h)
  exact Machine.invariant_run hstep accounts_initial (Machine.along_of_reaches hfit)
    hrun

/--
In every run in which the sums stay below 2^64: the counters are exact whenever no
call is in flight, and the spills are then the live pointers that are not
upstream's; peaks are the largest values reached; memory is freed once, by the
function of its source, or still there; and a call that throws changes nothing.
-/
theorem accounting_exact (reservationLimit : Nat) (events : List Event) (s : State)
    (hrun : (adaptorMachine reservationLimit).run State.initial events = some s)
    (hfit : (adaptorMachine reservationLimit).Reaches SumsFit State.initial events) :
    (Quiet s ->
      s.adaptor.totalAllocated = s.liveBytes ∧
      (forall stream, s.adaptor.currentOf stream = s.liveBytesOn stream) ∧
      (forall ptr spilled, s.adaptor.hostSpilled.lookup ptr = some spilled <->
        exists g b, s.world.held.lookup ptr = some g ∧
          s.world.heap.lookup ptr = some b ∧ b.source ≠ .upstream ∧
          spilled = { bytes := g.call.bytes
                      isUvm := decide (b.source = .managed) }) ∧
      (forall ptr g, s.world.held.lookup ptr = some g -> g.deallocating = none) ∧
      (forall ptr b, s.world.heap.lookup ptr = some b ->
        exists g, s.world.held.lookup ptr = some g)) ∧
    (forall stream, s.adaptor.peakOf stream = s.highest stream) ∧
    FreesMatch s.world ∧
    (forall (thread : Thread) (call : Call) (more : List Event) (t : State)
        (failure : Failure) (observe : Adaptor -> Int),
      s.threads.lookup thread = some (.check call) ->
      (forall e, e ∈ more -> e ≠ .ret thread) ->
      (adaptorMachine reservationLimit).run s more = some t ->
      t.threads.lookup thread = some (.done (.threw failure)) ->
      (forall a b, SameCounters a b -> observe b = observe a) ->
      (adaptorMachine reservationLimit).changeBy (Event.isBy thread)
        (fun s => observe s.adaptor) s more = 0) := by
  have haccounts := accounts_run hrun hfit
  have hexact := haccounts.exact
  refine ⟨?_, ?_, hexact.frees, ?_⟩
  · intro hquiet
    have hcharged : forall share,
        charged s.world s.threads share = heldShares s.world share := by
      intro share
      unfold charged
      rw [owedShares_of_quiet hquiet share, Nat.add_zero]
    refine ⟨?_, ?_, ?_, ?_, ?_⟩
    · rw [hexact.total, hcharged]
      rfl
    · intro stream
      rw [hexact.current, hcharged]
      rfl
    · intro ptr spilled
      rw [hexact.spills]
      exact spillOf_eq_some_iff
    · intro ptr g hg
      cases hthread : g.deallocating with
      | none => rfl
      | some thread =>
          have hfreer : s.world.freer ptr = some (thread, g.call) := by
            rw [freer_of_lookup hg, hthread]
            rfl
          have hfreeing := (hexact.custody.returning ptr thread g.call).mp hfreer
          unfold freeing at hfreeing
          rcases Option.bind_eq_some_iff.mp hfreeing with ⟨frame, hframe, hhas⟩
          rcases hquiet thread frame hframe with ⟨outcome, rfl⟩
          cases hhas
    · intro ptr b hb
      cases howner : b.owner with
      | none => exact (hexact.custody.held_iff ptr).mpr ⟨b, hb, howner⟩
      | some thread =>
          have hobtainer : s.world.obtainer ptr = some (thread, b.source) := by
            rw [obtainer_of_lookup hb, howner]
            rfl
          have huncharged :=
            (hexact.custody.obtained ptr thread b.source).mp hobtainer
          unfold uncharged at huncharged
          rcases Option.bind_eq_some_iff.mp huncharged with ⟨frame, hframe, hhas⟩
          rcases hquiet thread frame hframe with ⟨outcome, rfl⟩
          cases hhas
  · intro stream
    exact (haccounts.peaks stream).left
  · intro thread call more t failure observe hframe hnoret hmore hthrew hobserve
    exact changeBy_of_threw hobserve hframe hnoret hmore hthrew

/-- Two allocations on one stream, the second spilled to managed memory; the first is
deallocated again. -/
def spillRun : List Event :=
  [.allocate 0 { stream := 5, bytes := 16, alignment := 8 }, .proceed 0,
    .allocate 1 { stream := 5, bytes := 24, alignment := 8 }, .request 0 (some 100),
    .proceed 1, .request 1 none, .proceed 0, .request 1 (some 200), .proceed 1,
    .ret 0, .deallocate 0 100, .proceed 0, .proceed 0, .proceed 0, .ret 0, .ret 1]

/-- The spilled bytes are what that run leaves in the counters. -/
theorem accounting_exact_spillRun :
    exists s, (adaptorMachine 0).run State.initial spillRun = some s ∧
      s.adaptor.totalAllocated = s.liveBytes ∧ s.liveBytes = 24 ∧
      s.adaptor.peakOf 5 = s.highest 5 ∧ s.highest 5 = 40 := by
  have h := accounting_exact 0 spillRun _ rfl (by decide)
  refine ⟨_, rfl, (h.left ?_).left, by decide, h.right.left 5, by decide⟩
  intro thread frame hframe
  cases hframe

end ResourceAdaptor
end Memory
end Cuda2Rocm
