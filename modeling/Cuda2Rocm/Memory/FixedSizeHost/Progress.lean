import Cuda2Rocm.Foundation.Amortised
import Cuda2Rocm.Memory.FixedSizeHost.Sections

/-!
# Progress of the host resource

A thread that holds the mutex works on the counter and calls the HIP runtime, and it never
waits for another thread.  So nobody waits for ever, and since each commit sends a thread
back by a step at most, all calls together take a bounded number of steps.
-/

namespace Cuda2Rocm
namespace Memory
namespace FixedSizeHost

open Foundation

/-!
# The mutex is held by somebody
-/

/-- Whoever holds the mutex is in a locked section. -/
def Occupied (s : State) : Prop :=
  forall thread, s.mutex = some thread -> exists frame part,
    s.threads.lookup thread = some frame ∧ frame.inSection = some part

section Mutex

variable {c : Config} {s t : State}

/-- A step of one thread with the mutex free afterwards. -/
theorem occupied_of_free (hmutex : t.mutex = none) : Occupied t := by
  intro thread hheld
  rw [hmutex] at hheld
  cases hheld

/-- A step of one thread that takes the mutex. -/
theorem occupied_of_taken {thread : Thread} {frame : Frame} {part : Section}
    (hthreads : t.threads = s.threads.insert thread frame) (hmutex : t.mutex = some thread)
    (hpart : frame.inSection = some part) : Occupied t := by
  intro other hheld
  rw [hmutex] at hheld
  cases hheld
  rw [hthreads, Table.lookup_insert_self]
  exact ⟨frame, part, rfl, hpart⟩

/-- A step of one thread that leaves the mutex as it is. -/
theorem Occupied.kept (h : Occupied s) {thread : Thread} {frame : Frame}
    (hthreads : t.threads = s.threads.insert thread frame) (hmutex : t.mutex = s.mutex)
    (hframe : forall old part, s.threads.lookup thread = some old ->
      old.inSection = some part -> frame.inSection = some part) : Occupied t := by
  intro other hheld
  rw [hmutex] at hheld
  rcases h other hheld with ⟨old, part, hold, hpart⟩
  rw [hthreads]
  by_cases heq : other = thread
  · cases heq
    rw [Table.lookup_insert_self]
    exact ⟨frame, part, rfl, hframe old part hold hpart⟩
  · rw [Table.lookup_insert_ne heq]
    exact ⟨old, part, hold, hpart⟩

/-- The thread that goes on was in no section. -/
theorem Occupied.outside (h : Occupied s) {thread : Thread} {frame old : Frame}
    (hold : s.threads.lookup thread = some old) (hout : old.inSection = none)
    (hthreads : t.threads = s.threads.insert thread frame) (hmutex : t.mutex = s.mutex) :
    Occupied t := by
  apply h.kept hthreads hmutex
  intro old' part hold' hpart
  rw [hold] at hold'
  cases hold'
  rw [hout] at hpart
  cases hpart

/-- A thread begins a call. -/
theorem Occupied.begins (h : Occupied s) {thread : Thread} {frame : Frame}
    (hidle : s.threads.lookup thread = none)
    (hthreads : t.threads = s.threads.insert thread frame) (hmutex : t.mutex = s.mutex) :
    Occupied t := by
  apply h.kept hthreads hmutex
  intro old part hold
  rw [hidle] at hold
  cases hold

/-- The thread that goes on stays in its section. -/
theorem Occupied.inside (h : Occupied s) {thread : Thread} {frame old : Frame}
    (hold : s.threads.lookup thread = some old)
    (hthreads : t.threads = s.threads.insert thread frame) (hmutex : t.mutex = s.mutex)
    (hsame : frame.inSection = old.inSection) : Occupied t := by
  apply h.kept hthreads hmutex
  intro old' part hold' hpart
  rw [hold] at hold'
  cases hold'
  rw [hsame]
  exact hpart

theorem occupied_step {e : Event} (h : Occupied s) (hstep : step c s e = some t) :
    Occupied t := by
  cases step_move hstep with
  | start hcalls hidle hfresh => exact h.begins hidle rfl rfl
  | startLocking hidle hbytes harena => exact h.begins hidle rfl rfl
  | take hidle hmutex halloc huntracked => exact h.begins hidle rfl rfl
  | takeTracked hidle hmutex halloc href hfind => exact h.begins hidle rfl rfl
  | takeSingle hidle hptr => exact h.begins hidle rfl rfl
  | destroyReleased hidle hmutex harena htracker => exact h.begins hidle rfl rfl
  | destroy hidle hmutex harena htracker => exact occupied_of_taken rfl rfl rfl
  | grow harena => exact h
  | @chargeOn thread spurious charge pc pc' counter hframe hcharge =>
      have hsame : (Frame.charging charge pc').inSection =
          (Frame.charging charge pc).inSection := by
        cases charge <;> rfl
      exact h.inside hframe rfl rfl hsame
  | @granted thread spurious charge pc counter hframe hcharge =>
      cases charge with
      | reservation bytes => exact h.outside hframe rfl rfl rfl
      | blocks request => exact h.inside hframe rfl rfl rfl
      | single bytes => exact h.outside hframe rfl rfl rfl
  | @refused thread spurious charge pc counter hframe hcharge =>
      cases charge with
      | reservation bytes => exact h.outside hframe rfl rfl rfl
      | blocks request => exact occupied_of_free rfl
      | single bytes => exact h.outside hframe rfl rfl rfl
  | lock hframe hmutex => exact occupied_of_taken rfl rfl rfl
  | lockRefused hframe hfind => exact h.outside hframe rfl rfl rfl
  | lockTracked hframe hmutex hfind => exact occupied_of_taken rfl rfl rfl
  | freed hframe => exact h.outside hframe rfl rfl rfl
  | @creditOn thread spurious credit loop hframe =>
      have hsame : (Frame.crediting credit (.cas s.counter.total)).inSection =
          (Frame.crediting credit loop).inSection := by
        cases credit <;> rfl
      exact h.inside hframe rfl rfl hsame
  | @credited thread spurious credit loop hframe =>
      cases credit with
      | deallocation bytes => exact h.outside hframe rfl rfl rfl
      | blocks request text => exact occupied_of_free rfl
      | single bytes text => exact h.outside hframe rfl rfl rfl
      | release addr bytes => exact occupied_of_free rfl
  | register hframe hfree hmutex => exact h.outside hframe rfl rfl rfl
  | mallocFailed hframe => exact h.inside hframe rfl rfl rfl
  | mallocSingleFailed hframe => exact h.outside hframe rfl rfl rfl
  | malloc hframe hptr => exact h.inside hframe rfl rfl rfl
  | mallocSingle hframe hptr => exact h.outside hframe rfl rfl rfl
  | construct hframe hid => exact occupied_of_free rfl
  | throws exception hframe => exact occupied_of_free rfl
  | @ret thread outcome hframe =>
      intro other hheld
      rcases h other hheld with ⟨frame, part, hlookup, hpart⟩
      refine ⟨frame, part, ?_, hpart⟩
      show (s.threads.erase thread).lookup other = some frame
      rw [Table.lookup_erase_ne, hlookup]
      intro heq
      rw [heq, hframe] at hlookup
      cases hlookup
      cases hpart

end Mutex

/-!
# What is left of a call
-/

/-- The accesses `do_reserve` has left where nothing gets in its way. -/
def DoReserve.left (counter : Counter) : DoReserve -> Nat
  | charge loop => loop.left counter.total + 3
  | readNow => 3
  | raisePeak _ loop => loop.left counter.peak

/-- The values that `do_reserve` has still to store. -/
def DoReserve.commits : DoReserve -> Nat
  | charge _ => 2
  | readNow => 1
  | raisePeak _ _ => 1

/-- One more access for each other call that a store may send back. -/
def DoReserve.credit (bound : Nat) (counter : Counter) (pc : DoReserve) : Nat :=
  pc.left counter + pc.commits * bound

/-- The same for what comes after `do_reserve`: an allocation can fail, and then its charge
is given back. -/
def Charge.credit (bound : Nat) : Charge -> Nat
  | .reservation _ => 1
  | .blocks _ => 3 + bound
  | .single _ => 3 + bound

/-- The same for a call. -/
def Frame.credit (bound : Nat) (counter : Counter) : Frame -> Nat
  | .charging charge pc => pc.credit bound counter + charge.credit bound
  | .registering _ => 1
  | .locking _ _ => 9 + 3 * bound
  | .allocating _ => 3 + bound
  | .constructing _ _ => 1
  | .allocatingSingle _ => 3 + bound
  | .freeing _ _ _ => 3 + bound
  | .crediting _ loop => loop.left counter.total + bound
  | .done _ => 0

/-- The call has not come to its end yet. -/
def Frame.outstanding : Frame -> Nat
  | .done _ => 0
  | _ => 1

namespace State

/-- The threads inside a call. -/
def callers (s : State) : Nat := s.threads.sum (fun _ _ => 1)

/-- The calls that have not come to their ends yet. -/
def unfinished (s : State) : Nat := s.threads.sum (fun _ frame => frame.outstanding)

def credit (bound : Nat) (s : State) : Nat :=
  s.threads.sum (fun _ frame => frame.credit bound s.counter)

end State

/-- Calls made by an event. -/
def Event.made : Event -> Nat
  | .reserve _ _ => 1
  | .allocateMultipleBlocks _ _ _ => 1
  | .deallocateMultipleBlocks _ _ => 1
  | .allocate _ _ => 1
  | .deallocate _ _ => 1
  | .destroy _ _ => 1
  | _ => 0

/-- Steps of calls in flight. -/
def Event.steps : Event -> Nat
  | .tick _ _ => 1
  | .register _ _ => 1
  | .hipMallocHost _ _ => 1
  | .construct _ _ => 1
  | .throws _ _ => 1
  | _ => 0

/-- Exchanges that the event lets fail without a reason. -/
def Event.spurious : Event -> Nat
  | .tick _ spurious => spurious.toNat
  | _ => 0

theorem DoReserve.left_pos (counter : Counter) (pc : DoReserve) : 0 < pc.left counter := by
  cases pc with
  | charge loop => exact Nat.add_pos_right _ (Nat.succ_pos 2)
  | readNow => exact Nat.succ_pos 2
  | raisePeak now loop => exact loop.left_pos counter.peak

theorem DoReserve.commits_pos (pc : DoReserve) : 0 < pc.commits := by
  cases pc with
  | charge loop => exact Nat.succ_pos 1
  | readNow => exact Nat.succ_pos 0
  | raisePeak now loop => exact Nat.succ_pos 0

/-- The last step of `do_reserve` can be paid for. -/
theorem DoReserve.credit_ge (bound : Nat) (counter : Counter) (pc : DoReserve) :
    1 + bound ≤ pc.credit bound counter :=
  Nat.add_le_add (pc.left_pos counter) (Nat.le_mul_of_pos_left bound pc.commits_pos)

/-- A store of another call sends a call back by one access at most. -/
theorem Frame.credit_moved (bound : Nat) (counter counter' : Counter) (frame : Frame) :
    frame.credit bound counter' ≤ frame.credit bound counter + 1 := by
  cases frame with
  | charging charge pc =>
      have hleft : pc.left counter' ≤ pc.left counter + 1 := by
        cases pc with
        | charge loop =>
            have h := loop.left_moved counter.total counter'.total
            simp only [DoReserve.left]
            omega
        | readNow => exact Nat.le_succ 3
        | raisePeak now loop => exact loop.left_moved counter.peak counter'.peak
      simp only [Frame.credit, DoReserve.credit]
      omega
  | crediting credit loop =>
      have h := loop.left_moved counter.total counter'.total
      simp only [Frame.credit]
      omega
  | registering bytes => exact Nat.le_succ _
  | locking bytes arena => exact Nat.le_succ _
  | allocating request => exact Nat.le_succ _
  | constructing request ptr => exact Nat.le_succ _
  | allocatingSingle bytes => exact Nat.le_succ _
  | freeing ptr bytes credit => exact Nat.le_succ _
  | done outcome => exact Nat.le_succ _

/-- A step of `do_reserve` by itself, or one that may send the others back. -/
theorem DoReserve.credit_step {memLimit bytes bound : Nat} {spurious : Bool}
    {counter counter' : Counter} {pc pc' : DoReserve}
    (h : pc.step memLimit bytes spurious counter = .goesOn pc' counter') :
    (counter' = counter ∧
      1 + pc'.credit bound counter ≤ pc.credit bound counter + spurious.toNat) ∨
    1 + pc'.credit bound counter + bound ≤ pc.credit bound counter := by
  cases pc with
  | charge loop =>
      have hpos := loop.left_pos counter.total
      simp only [DoReserve.step] at h
      split at h
      · cases h
      · split at h
        · cases h
          right
          simp only [DoReserve.credit, DoReserve.left, DoReserve.commits]
          omega
        · split at h
          · cases h
          · split at h
            · rename_i loop' hagain
              cases h
              have hleft := CasLoop.left_again hagain
              left
              simp only [DoReserve.credit, DoReserve.left, DoReserve.commits, true_and]
              omega
            · cases h
            · cases h
              right
              simp only [DoReserve.credit, DoReserve.left, DoReserve.commits]
              omega
  | readNow =>
      cases h
      left
      simp only [DoReserve.credit, DoReserve.left, DoReserve.commits, CasLoop.left, true_and]
      omega
  | raisePeak now loop =>
      simp only [DoReserve.step] at h
      split at h
      · rename_i loop' hagain
        cases h
        have hleft := CasLoop.left_again hagain
        left
        simp only [DoReserve.credit, DoReserve.left, DoReserve.commits, true_and]
        omega
      · cases h
      · cases h

section Steps

variable {c : Config} {s t : State} {bound : Nat} {thread : Thread}

/-- A call goes on by itself, or stores something. -/
theorem credit_goesOn {old new : Frame} {spurious : Nat} (hbound : s.callers ≤ bound)
    (hframe : s.threads.lookup thread = some old)
    (hthreads : t.threads = s.threads.insert thread new)
    (hpaid : (t.counter = s.counter ∧
        1 + new.credit bound s.counter ≤ old.credit bound s.counter + spurious) ∨
      1 + new.credit bound s.counter + bound ≤ old.credit bound s.counter + spurious) :
    1 + t.credit bound ≤ s.credit bound + spurious := by
  unfold State.credit
  rw [hthreads]
  rcases hpaid with ⟨hcounter, hpaid⟩ | hpaid
  · rw [hcounter]
    exact Table.sum_insert_le hframe hbound (fun _ => Nat.le_add_right _ 0) (by omega)
  · exact Table.sum_insert_le hframe hbound
      (fun frame => frame.credit_moved bound s.counter t.counter) (by omega)

theorem credit_begins {new : Frame} (hidle : s.threads.lookup thread = none)
    (hthreads : t.threads = s.threads.insert thread new) (hcounter : t.counter = s.counter)
    (hnew : new.credit bound s.counter ≤ 9 + 3 * bound) :
    t.credit bound ≤ s.credit bound + (9 + 3 * bound) := by
  unfold State.credit
  rw [hthreads, hcounter, Table.sum_insert_of_none hidle]
  omega

theorem credit_tickCharge {charge : Charge} {pc : DoReserve} (spurious : Bool)
    (hbound : s.callers ≤ bound)
    (hframe : s.threads.lookup thread = some (.charging charge pc)) :
    1 + (s.tickCharge c thread charge pc spurious).credit bound ≤
      s.credit bound + spurious.toNat := by
  have hge := pc.credit_ge bound s.counter
  unfold State.tickCharge
  split
  · rename_i pc' counter hstep
    apply credit_goesOn hbound hframe rfl
    rcases @DoReserve.credit_step _ _ bound _ _ _ _ _ hstep with ⟨rfl, hpaid⟩ | hpaid
    · left
      simp only [State.setFrame, Frame.credit, true_and]
      omega
    · right
      simp only [Frame.credit]
      omega
  · cases charge with
    | reservation bytes =>
        apply credit_goesOn hbound hframe rfl
        right
        simp only [Frame.credit, Charge.credit]
        omega
    | blocks request =>
        apply credit_goesOn hbound hframe rfl
        right
        simp only [Frame.credit, Charge.credit]
        omega
    | single bytes =>
        apply credit_goesOn hbound hframe rfl
        right
        simp only [Frame.credit, Charge.credit]
        omega
  · cases charge with
    | reservation bytes =>
        apply credit_goesOn hbound hframe rfl
        right
        simp only [Frame.credit, Charge.credit]
        omega
    | blocks request =>
        apply credit_goesOn hbound hframe rfl
        right
        simp only [Frame.credit, Charge.credit]
        omega
    | single bytes =>
        apply credit_goesOn hbound hframe rfl
        right
        simp only [Frame.credit, Charge.credit]
        omega

/-- After `do_release` a call is at its end. -/
theorem credited_threads (s : State) (thread : Thread) (credit : Credit) :
    exists outcome, (s.credited thread credit).threads =
      s.threads.insert thread (.done outcome) := by
  cases credit with
  | deallocation bytes => exact ⟨_, rfl⟩
  | blocks request text => exact ⟨_, rfl⟩
  | single bytes text => exact ⟨_, rfl⟩
  | release addr bytes => exact ⟨_, rfl⟩

theorem credit_tickCredit {credit : Credit} {loop : CasLoop} (spurious : Bool)
    (hbound : s.callers ≤ bound)
    (hframe : s.threads.lookup thread = some (.crediting credit loop)) :
    1 + (s.tickCredit thread credit loop spurious).credit bound ≤
      s.credit bound + spurious.toNat := by
  have hpos := loop.left_pos s.counter.total
  have hcredited : forall u : State, u.threads = s.threads ->
      1 + (u.credited thread credit).credit bound ≤ s.credit bound + spurious.toNat := by
    intro u hu
    rcases credited_threads u thread credit with ⟨outcome, hthreads⟩
    rw [hu] at hthreads
    apply credit_goesOn hbound hframe hthreads
    right
    simp only [Frame.credit]
    omega
  unfold State.tickCredit
  split
  · rename_i loop' hagain
    apply credit_goesOn hbound hframe rfl
    left
    unfold doReleaseStep at hagain
    split at hagain
    · cases hagain
    · have hleft := CasLoop.left_again hagain
      simp only [State.setFrame, Frame.credit, true_and]
      omega
  · exact hcredited s rfl
  · exact hcredited _ rfl

theorem credit_tickLock {bytes : Nat} {arena : Option ArenaRef} (spurious : Bool)
    (hbound : s.callers ≤ bound)
    (hframe : s.threads.lookup thread = some (.locking bytes arena)) :
    1 + (s.tickLock thread bytes arena).credit bound ≤ s.credit bound + spurious.toNat := by
  have hstart : forall request, 1 + (Frame.charging (.blocks request) .start).credit bound
      s.counter ≤ (Frame.locking bytes arena).credit bound s.counter + spurious.toNat := by
    intro request
    simp only [Frame.credit, DoReserve.credit, DoReserve.start, DoReserve.left,
      DoReserve.commits, Charge.credit, CasLoop.left]
    omega
  cases arena with
  | none => exact credit_goesOn hbound hframe rfl (Or.inl ⟨rfl, hstart _⟩)
  | some ref =>
      simp only [State.tickLock]
      split
      · apply credit_goesOn hbound hframe rfl
        left
        simp only [State.setFrame, Frame.credit, true_and]
        omega
      · exact credit_goesOn hbound hframe rfl (Or.inl ⟨rfl, hstart _⟩)

theorem credit_tick {spurious : Bool} (hbound : s.callers ≤ bound)
    (h : s.tickFrame c thread spurious = some t) :
    1 + t.credit bound ≤ s.credit bound + spurious.toNat := by
  unfold State.tickFrame at h
  split at h
  · rename_i hframe
    cases h
    exact credit_tickCharge spurious hbound hframe
  · rename_i hframe
    split at h
    · cases h
      exact credit_tickLock spurious hbound hframe
    · cases h
  · rename_i hframe
    cases h
    apply credit_goesOn hbound hframe rfl
    left
    simp only [State.hipFreeHost, Frame.credit, CasLoop.left, true_and]
    omega
  · rename_i hframe
    cases h
    exact credit_tickCredit spurious hbound hframe
  · cases h

theorem Event.made_of_calls {e : Event} (h : e.calls = some thread) :
    e.made = 1 ∧ e.steps = 0 ∧ e.spurious = 0 := by
  cases e with
  | reserve thread bytes => exact ⟨rfl, rfl, rfl⟩
  | allocateMultipleBlocks thread bytes res => exact ⟨rfl, rfl, rfl⟩
  | deallocateMultipleBlocks thread id => exact ⟨rfl, rfl, rfl⟩
  | allocate thread bytes => exact ⟨rfl, rfl, rfl⟩
  | deallocate thread ptr => cases h
  | destroy thread addr => cases h
  | growBy addr n => cases h
  | tick thread spurious => cases h
  | register thread addr => cases h
  | hipMallocHost thread result => cases h
  | construct thread id => cases h
  | throws thread exception => cases h
  | ret thread => cases h

theorem Frame.Fresh.credit_le {frame : Frame} (h : frame.Fresh) (bound : Nat)
    (counter : Counter) : frame.credit bound counter ≤ 9 + 3 * bound := by
  cases h with
  | done outcome => exact Nat.zero_le _
  | reservation bytes =>
      simp only [Frame.credit, DoReserve.credit, DoReserve.start, DoReserve.left,
        DoReserve.commits, Charge.credit, CasLoop.left]
      omega
  | single bytes =>
      simp only [Frame.credit, DoReserve.credit, DoReserve.start, DoReserve.left,
        DoReserve.commits, Charge.credit, CasLoop.left]
      omega

/-- A step of a call whose frame is worth less afterwards, with the counter as before. -/
theorem credit_lowered {old new : Frame} (hbound : s.callers ≤ bound)
    (hframe : s.threads.lookup thread = some old)
    (hthreads : t.threads = s.threads.insert thread new) (hcounter : t.counter = s.counter)
    (hpaid : 1 + new.credit bound s.counter ≤ old.credit bound s.counter) :
    1 + t.credit bound ≤ s.credit bound :=
  @credit_goesOn s t bound thread old new 0 hbound hframe hthreads (Or.inl ⟨hcounter, hpaid⟩)

/-- Every step pays for itself out of the credit of the calls. -/
theorem credit_step {e : Event} (hbound : s.callers ≤ bound) (h : step c s e = some t) :
    e.steps + t.credit bound ≤
      s.credit bound + ((9 + 3 * bound) * e.made + 1 * e.spurious) := by
  have htick : forall {thread : Thread} {spurious : Bool}, e = .tick thread spurious ->
      e.steps + t.credit bound ≤
        s.credit bound + ((9 + 3 * bound) * e.made + 1 * e.spurious) := by
    intro thread spurious heq
    cases heq
    have hpaid := credit_tick hbound h
    simpa [Event.steps, Event.made, Event.spurious] using hpaid
  have hbegins : forall {thread : Thread} {new : Frame}, s.threads.lookup thread = none ->
      t.threads = s.threads.insert thread new -> t.counter = s.counter ->
      new.credit bound s.counter ≤ 9 + 3 * bound -> e.made = 1 -> e.steps = 0 ->
      e.steps + t.credit bound ≤
        s.credit bound + ((9 + 3 * bound) * e.made + 1 * e.spurious) := by
    intro thread new hidle hthreads hcounter hnew hmade hsteps
    have hcredit := credit_begins hidle hthreads hcounter hnew
    rw [hmade, hsteps]
    omega
  have hgoes : e.steps = 1 -> 1 + t.credit bound ≤ s.credit bound -> e.steps + t.credit bound ≤
      s.credit bound + ((9 + 3 * bound) * e.made + 1 * e.spurious) := by
    intro hsteps hpaid
    rw [hsteps]
    exact Nat.le_add_right_of_le hpaid
  have hfreeing : forall ptr bytes credit, (Frame.freeing ptr bytes credit).credit bound
      s.counter ≤ 9 + 3 * bound := by
    intro ptr bytes credit
    simp only [Frame.credit]
    omega
  cases step_move h with
  | start hcalls hidle hfresh =>
      have hevent := Event.made_of_calls hcalls
      exact hbegins hidle rfl rfl (hfresh.credit_le bound s.counter) hevent.left
        hevent.right.left
  | startLocking hidle hbytes harena => exact hbegins hidle rfl rfl (Nat.le_refl _) rfl rfl
  | take hidle hmutex halloc huntracked =>
      exact hbegins hidle rfl rfl (hfreeing _ _ _) rfl rfl
  | takeTracked hidle hmutex halloc href hfind =>
      exact hbegins hidle rfl rfl (hfreeing _ _ _) rfl rfl
  | takeSingle hidle hptr => exact hbegins hidle rfl rfl (hfreeing _ _ _) rfl rfl
  | destroyReleased hidle hmutex harena htracker =>
      exact hbegins hidle rfl rfl (Nat.zero_le _) rfl rfl
  | destroy hidle hmutex harena htracker =>
      apply hbegins hidle rfl rfl
      · simp only [Frame.credit, CasLoop.left]
        omega
      · rfl
      · rfl
  | grow harena => exact Nat.le_add_right_of_le (Nat.zero_add _).le
  | chargeOn hframe hcharge => exact htick rfl
  | granted hframe hcharge => exact htick rfl
  | refused hframe hcharge => exact htick rfl
  | lock hframe hmutex => exact htick rfl
  | lockRefused hframe hfind => exact htick rfl
  | lockTracked hframe hmutex hfind => exact htick rfl
  | freed hframe => exact htick rfl
  | creditOn hframe => exact htick rfl
  | credited hframe => exact htick rfl
  | register hframe hfree hmutex =>
      exact hgoes rfl (credit_lowered hbound hframe rfl rfl (Nat.le_refl _))
  | mallocFailed hframe =>
      apply hgoes rfl
      refine credit_lowered hbound hframe rfl rfl ?_
      simp only [Frame.credit, CasLoop.left]
      omega
  | mallocSingleFailed hframe =>
      apply hgoes rfl
      refine credit_lowered hbound hframe rfl rfl ?_
      simp only [Frame.credit, CasLoop.left]
      omega
  | malloc hframe hptr =>
      apply hgoes rfl
      refine credit_lowered hbound hframe rfl rfl ?_
      simp only [Frame.credit]
      omega
  | mallocSingle hframe hptr =>
      apply hgoes rfl
      refine credit_lowered hbound hframe rfl rfl ?_
      simp only [Frame.credit]
      omega
  | construct hframe hid =>
      exact hgoes rfl (credit_lowered hbound hframe rfl rfl (Nat.le_refl _))
  | throws exception hframe =>
      exact hgoes rfl (credit_lowered hbound hframe rfl rfl (Nat.le_refl _))
  | @ret thread outcome hframe =>
      have herase := Table.sum_of_lookup hframe (fun _ frame => frame.credit bound s.counter)
      have hsame : s.credit bound = 0 + State.credit bound { s with
          threads := s.threads.erase thread } := herase
      rw [hsame]
      exact Nat.le_add_right _ _

/-- What becomes of the threads: one begins a call, goes on with it, or returns. -/
theorem move_threads {e : Event} (h : Move c s e t) :
    (exists thread new, s.threads.lookup thread = none ∧ e.made = 1 ∧
      t.threads = s.threads.insert thread new) ∨
    (exists thread old new, s.threads.lookup thread = some old ∧
      t.threads = s.threads.insert thread new) ∨
    t.threads = s.threads ∨
    exists thread old, s.threads.lookup thread = some old ∧
      t.threads = s.threads.erase thread := by
  cases h with
  | start hcalls hidle hfresh =>
      exact Or.inl ⟨_, _, hidle, (Event.made_of_calls hcalls).left, rfl⟩
  | startLocking hidle hbytes harena => exact Or.inl ⟨_, _, hidle, rfl, rfl⟩
  | take hidle hmutex halloc huntracked => exact Or.inl ⟨_, _, hidle, rfl, rfl⟩
  | takeTracked hidle hmutex halloc href hfind => exact Or.inl ⟨_, _, hidle, rfl, rfl⟩
  | takeSingle hidle hptr => exact Or.inl ⟨_, _, hidle, rfl, rfl⟩
  | destroyReleased hidle hmutex harena htracker => exact Or.inl ⟨_, _, hidle, rfl, rfl⟩
  | destroy hidle hmutex harena htracker => exact Or.inl ⟨_, _, hidle, rfl, rfl⟩
  | grow harena => exact Or.inr (Or.inr (Or.inl rfl))
  | chargeOn hframe hcharge => exact Or.inr (Or.inl ⟨_, _, _, hframe, rfl⟩)
  | @granted thread spurious charge pc counter hframe hcharge =>
      cases charge with
      | reservation bytes => exact Or.inr (Or.inl ⟨_, _, _, hframe, rfl⟩)
      | blocks request => exact Or.inr (Or.inl ⟨_, _, _, hframe, rfl⟩)
      | single bytes => exact Or.inr (Or.inl ⟨_, _, _, hframe, rfl⟩)
  | @refused thread spurious charge pc counter hframe hcharge =>
      cases charge with
      | reservation bytes => exact Or.inr (Or.inl ⟨_, _, _, hframe, rfl⟩)
      | blocks request => exact Or.inr (Or.inl ⟨_, _, _, hframe, rfl⟩)
      | single bytes => exact Or.inr (Or.inl ⟨_, _, _, hframe, rfl⟩)
  | lock hframe hmutex => exact Or.inr (Or.inl ⟨_, _, _, hframe, rfl⟩)
  | lockRefused hframe hfind => exact Or.inr (Or.inl ⟨_, _, _, hframe, rfl⟩)
  | lockTracked hframe hmutex hfind => exact Or.inr (Or.inl ⟨_, _, _, hframe, rfl⟩)
  | freed hframe => exact Or.inr (Or.inl ⟨_, _, _, hframe, rfl⟩)
  | creditOn hframe => exact Or.inr (Or.inl ⟨_, _, _, hframe, rfl⟩)
  | @credited thread spurious credit loop hframe =>
      rcases credited_threads (s.setTotal (s.totalAfter credit)) thread credit with
        ⟨outcome, hthreads⟩
      exact Or.inr (Or.inl ⟨thread, _, .done outcome, hframe, hthreads⟩)
  | register hframe hfree hmutex => exact Or.inr (Or.inl ⟨_, _, _, hframe, rfl⟩)
  | mallocFailed hframe => exact Or.inr (Or.inl ⟨_, _, _, hframe, rfl⟩)
  | mallocSingleFailed hframe => exact Or.inr (Or.inl ⟨_, _, _, hframe, rfl⟩)
  | malloc hframe hptr => exact Or.inr (Or.inl ⟨_, _, _, hframe, rfl⟩)
  | mallocSingle hframe hptr => exact Or.inr (Or.inl ⟨_, _, _, hframe, rfl⟩)
  | construct hframe hid => exact Or.inr (Or.inl ⟨_, _, _, hframe, rfl⟩)
  | throws exception hframe => exact Or.inr (Or.inl ⟨_, _, _, hframe, rfl⟩)
  | ret hframe => exact Or.inr (Or.inr (Or.inr ⟨_, _, hframe, rfl⟩))

theorem callers_step {e : Event} (h : step c s e = some t) : t.callers ≤ s.callers + e.made := by
  unfold State.callers
  rcases move_threads (step_move h) with ⟨thread, new, hidle, hmade, hthreads⟩ |
    ⟨thread, old, new, hframe, hthreads⟩ | hthreads | ⟨thread, old, hframe, hthreads⟩
  · rw [hthreads, hmade, Table.sum_insert_of_none hidle]
    exact (Nat.add_comm _ _).le
  · rw [hthreads, Nat.add_right_cancel (Table.sum_replace hframe new (fun _ _ => 1))]
    exact Nat.le_add_right _ _
  · rw [hthreads]
    exact Nat.le_add_right _ _
  · have herase := Table.sum_of_lookup hframe (fun _ _ => 1)
    rw [hthreads]
    omega

/-- Each call that is not at its end has credit left. -/
theorem unfinished_le_credit (bound : Nat) (s : State) : s.unfinished ≤ s.credit bound := by
  apply Table.sum_le_sum
  intro thread frame _
  cases frame with
  | charging charge pc =>
      have hge := pc.credit_ge bound s.counter
      simp only [Frame.outstanding, Frame.credit]
      omega
  | crediting credit loop =>
      have hpos := loop.left_pos s.counter.total
      simp only [Frame.outstanding, Frame.credit]
      omega
  | registering bytes => exact Nat.le_refl 1
  | locking bytes arena =>
      simp only [Frame.outstanding, Frame.credit]
      omega
  | allocating request =>
      simp only [Frame.outstanding, Frame.credit]
      omega
  | constructing request ptr => exact Nat.le_refl 1
  | allocatingSingle bytes =>
      simp only [Frame.outstanding, Frame.credit]
      omega
  | freeing ptr bytes credit =>
      simp only [Frame.outstanding, Frame.credit]
      omega
  | done outcome => exact Nat.zero_le _

/-!
# Somebody can go on
-/

/-- The event is a step of a call in flight that does not fail without a reason. -/
def Event.Undisturbed (e : Event) : Prop := e.steps = 1 ∧ e.spurious = 0

/-- A call that is not at its end can go on when the mutex is free, and in a locked section
also when it is not. -/
theorem exists_step_of_frame {frame : Frame} (hframe : s.threads.lookup thread = some frame)
    (hflight : frame.outstanding ≠ 0) (hmutex : s.mutex = none ∨ frame.inSection ≠ none) :
    exists e, Event.Undisturbed e ∧ exists t, step c s e = some t := by
  have hfree : frame.inSection = none -> s.mutex = none := by
    intro hout
    rcases hmutex with hnone | hin
    · exact hnone
    · exact absurd hout hin
  cases frame with
  | charging charge pc =>
      exists .tick thread false, ⟨rfl, rfl⟩
      simp only [step, State.tickFrame, hframe]
      exact ⟨_, rfl⟩
  | registering bytes =>
      rcases s.arenas.exists_free with ⟨addr, haddr⟩
      exists .register thread addr, ⟨rfl, rfl⟩
      simp only [step, State.registerArena, hframe, haddr, hfree rfl]
      exact ⟨_, rfl⟩
  | locking bytes arena =>
      exists .tick thread false, ⟨rfl, rfl⟩
      simp only [step, State.tickFrame, hframe, if_pos (hfree rfl)]
      exact ⟨_, rfl⟩
  | allocating request =>
      rcases s.pinned.exists_free with ⟨ptr, hptr⟩
      exists .hipMallocHost thread (.ok ptr), ⟨rfl, rfl⟩
      simp only [step, State.tickMalloc, hframe, hptr]
      exact ⟨_, rfl⟩
  | constructing request ptr =>
      by_cases hblocks : request.bytes / c.blockSize ≤ maxBlocks
      · rcases s.liveAllocs.exists_free with ⟨id, hid⟩
        exists .construct thread id, ⟨rfl, rfl⟩
        simp only [step, State.tickConstruct, hframe, hid, if_pos hblocks]
        exact ⟨_, rfl⟩
      · exists .throws thread .lengthError, ⟨rfl, rfl⟩
        simp only [step, State.tickThrow, hframe, if_pos (Or.inr (Nat.lt_of_not_le hblocks))]
        exact ⟨_, rfl⟩
  | allocatingSingle bytes =>
      rcases s.pinned.exists_free with ⟨ptr, hptr⟩
      exists .hipMallocHost thread (.ok ptr), ⟨rfl, rfl⟩
      simp only [step, State.tickMalloc, hframe, hptr]
      exact ⟨_, rfl⟩
  | freeing ptr bytes credit =>
      exists .tick thread false, ⟨rfl, rfl⟩
      simp only [step, State.tickFrame, hframe]
      exact ⟨_, rfl⟩
  | crediting credit loop =>
      exists .tick thread false, ⟨rfl, rfl⟩
      simp only [step, State.tickFrame, hframe]
      exact ⟨_, rfl⟩
  | done outcome => exact absurd rfl hflight

/-- No deadlock: the mutex is free for whoever waits for it, or its holder can go on. -/
theorem exists_step (hoccupied : Occupied s) (h : s.unfinished ≠ 0) :
    exists e, Event.Undisturbed e ∧ exists t, step c s e = some t := by
  cases hmutex : s.mutex with
  | some holder =>
      rcases hoccupied holder hmutex with ⟨frame, part, hframe, hpart⟩
      have hflight : frame.outstanding ≠ 0 := by
        intro hzero
        cases frame with
        | done outcome => cases hpart
        | _ => cases hzero
      apply exists_step_of_frame hframe hflight
      right
      rw [hpart]
      exact Option.some_ne_none part
  | none =>
      by_contra hstuck
      apply h
      have hdone : forall thread frame, s.threads.lookup thread = some frame ->
          frame.outstanding = 0 := by
        intro thread frame hframe
        by_contra hflight
        exact hstuck (exists_step_of_frame hframe hflight (Or.inl hmutex))
      unfold State.unfinished
      rw [Table.sum_congr hdone]
      exact Table.sum_zero s.threads

end Steps

/-!
# Runs
-/

/-- What is promised of the calls of a run. -/
structure Progresses (c : Config) (events : List Event) (s : State) : Prop where
  bounded : total Event.steps events + s.unfinished ≤
    (9 + 3 * total Event.made events) * total Event.made events +
      total Event.spurious events
  returns : exists later t, (forall e, e ∈ later -> Event.Undisturbed e) ∧
    (hostMachine c).run s later = some t ∧ t.unfinished = 0

theorem occupied_initial : Occupied State.initial := occupied_of_free rfl

theorem occupied_run {c : Config} {events : List Event} {s : State}
    (hrun : (hostMachine c).run State.initial events = some s) : Occupied s := by
  have hstep : forall u e v, Occupied u -> (hostMachine c).step u e = some v -> Occupied v :=
    fun _ _ _ hu h => occupied_step hu h
  exact Machine.invariant_run_always hstep occupied_initial hrun

theorem steps_le {c : Config} {events : List Event} {s : State}
    (hrun : (hostMachine c).run State.initial events = some s) :
    total Event.steps events + s.credit (total Event.made events) ≤
      (9 + 3 * total Event.made events) * total Event.made events +
        total Event.spurious events := by
  have hsize : forall (u : State) e v, (hostMachine c).step u e = some v ->
      v.callers ≤ u.callers + e.made := fun _ _ _ h => callers_step h
  have hpay : forall bound (u : State) e v, u.callers ≤ bound ->
      (hostMachine c).step u e = some v ->
      e.steps + v.credit bound ≤
        u.credit bound + ((9 + 3 * bound) * e.made + 1 * e.spurious) :=
    fun _ _ _ _ hbound h => credit_step hbound h
  have hpaid := Machine.total_cost_le_of_calls hsize hpay rfl (fun _ => rfl) hrun
  rw [Nat.one_mul] at hpaid
  exact hpaid

/-- Left to themselves, the calls in flight come to their ends. -/
theorem returns_from {c : Config} {s : State} (hoccupied : Occupied s) :
    exists later t, (forall e, e ∈ later -> Event.Undisturbed e) ∧
      (hostMachine c).run s later = some t ∧ t.unfinished = 0 := by
  have hmove : forall u : State, Occupied u -> u.unfinished ≠ 0 ->
      exists e v, Event.Undisturbed e ∧ (hostMachine c).step u e = some v ∧ Occupied v ∧
        v.callers ≤ u.callers ∧
        forall bound, u.callers ≤ bound -> v.credit bound < u.credit bound := by
    intro u hu hflight
    rcases @exists_step c u hu hflight with ⟨e, hundisturbed, v, hv⟩
    have hmade : e.made = 0 := by
      cases e <;> first | rfl | cases hundisturbed.left
    have hcallers := callers_step hv
    rw [hmade] at hcallers
    refine ⟨e, v, hundisturbed, hv, occupied_step hu hv, hcallers, ?_⟩
    intro bound hbound
    have hpaid := credit_step hbound hv
    rw [hmade, hundisturbed.left, hundisturbed.right] at hpaid
    omega
  rcases Machine.exists_run_to_rest hmove hoccupied with ⟨later, t, hlater, hrun, _, hdone⟩
  exact ⟨later, t, hlater, hrun, hdone⟩

/-- Calls on the host resource, from any number of threads and interleaved in any way, never
deadlock, and they take a number of steps that is bounded by the number of calls. -/
theorem host_calls_progress (c : Config) (events : List Event) (s : State)
    (hrun : (hostMachine c).run State.initial events = some s) : Progresses c events s := by
  have hsteps := steps_le hrun
  have hunfinished := unfinished_le_credit (total Event.made events) s
  constructor
  · omega
  · exact returns_from (occupied_run hrun)

/-- A limit of two blocks of 12 bytes. -/
def twoBlocks : Config where
  memLimit := 24
  blockSize := 12
  memLimit_le := by decide
  blockSize_pos := by decide
  blockSize_le := by decide

/-- Thread 0 holds the mutex and has loaded the counter, thread 1 waits for the mutex, and
thread 2 stores the counter without it, so thread 0 has to try again. -/
def behindTheMutex : List Event :=
  [.allocateMultipleBlocks 0 12 none, .tick 0 false, .tick 0 false,
    .allocateMultipleBlocks 1 12 none, .allocate 2 12, .tick 2 false, .tick 2 false,
    .tick 0 true, .tick 0 true]

theorem host_calls_progress_behindTheMutex :
    exists s, (hostMachine twoBlocks).run State.initial behindTheMutex = some s ∧
      s.mutex = some 0 ∧ (s.tickFrame twoBlocks 1 false).isNone ∧ s.unfinished = 3 ∧
      Progresses twoBlocks behindTheMutex s :=
  ⟨_, rfl, rfl, rfl, by decide +kernel, host_calls_progress twoBlocks behindTheMutex _ rfl⟩

end FixedSizeHost
end Memory
end Cuda2Rocm
