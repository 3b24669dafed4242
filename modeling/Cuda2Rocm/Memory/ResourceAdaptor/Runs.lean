import Cuda2Rocm.Memory.ResourceAdaptor.Placement

/-!
# Accounting over whole runs
-/

namespace Cuda2Rocm
namespace Memory
namespace ResourceAdaptor

open Foundation

/-- The accounts of a state between two steps. -/
structure Exact (adaptor : Adaptor) (world : World) (threads : Table Thread Frame) :
    Prop where
  custody : Custody world threads
  frees : FreesMatch world
  spills : forall ptr, adaptor.hostSpilled.lookup ptr = world.spillOf ptr
  total : adaptor.totalAllocated = charged world threads Call.bytes
  current : forall stream,
    adaptor.currentOf stream = charged world threads (Call.onStream stream)

/-- The pointers whose charge stands fit a 64-bit counter. -/
def SumsFit (s : State) : Prop :=
  charged s.world s.threads Call.bytes < 2 ^ 64

section Steps

variable {a b : Adaptor} {w : World} {threads : Table Thread Frame} {thread : Thread}

theorem Exact.placed (h : Exact a w threads) : Placed a w threads :=
  ⟨h.custody, h.frees, h.spills⟩

/-- Memory in its place, and the counters that go with it. -/
theorem Placed.exact (h : Placed a w threads)
    (htotal : a.totalAllocated = charged w threads Call.bytes)
    (hcurrent : forall stream,
      a.currentOf stream = charged w threads (Call.onStream stream)) :
    Exact a w threads where
  custody := h.custody
  frees := h.frees
  spills := h.spills
  total := htotal
  current := hcurrent

theorem Exact.move (h : Exact a w threads) (hsame : SameCounters a b) {w' : World}
    {threads' : Table Thread Frame} (hplaced : Placed b w' threads')
    (hcharged : forall share, charged w' threads' share = charged w threads share) :
    Exact b w' threads' := by
  apply hplaced.exact
  · rw [hsame.total, hcharged]
    exact h.total
  · intro stream
    rw [hsame.current, hcharged]
    exact h.current stream

/-- A frame that neither obtains, frees nor owes memory. -/
def Frame.idle (frame : Frame) : Prop :=
  frame.uncharged = none ∧ frame.freeing = none ∧ forall share, frame.owed share = 0

theorem charged_handOut {ptr : Ptr} {block : Block} {old frame : Frame} {call : Call}
    {share : Call -> Nat} (hblock : w.heap.lookup ptr = some block)
    (hnotheld : w.held.lookup ptr = none) (hold : threads.lookup thread = some old)
    (hsame : frame.owed share = old.owed share) :
    charged (w.handOut ptr call) (threads.insert thread frame) share =
      charged w threads share + share call := by
  have hsum := owedShares_insert share hold frame
  have hheld := heldShares_insert_of_none share hnotheld
    { call := call, deallocating := none }
    (w.heap.insert ptr { block with owner := none })
  simp only at hheld
  rw [handOut_eq hblock]
  unfold charged
  omega

/-- A charge ends the call: the counters take in what the client is given. -/
theorem Exact.finish (h : Exact a w threads) {ptr : Ptr} {source : Source}
    {old : Frame} {call : Call} {spilled : Table Ptr Spilled}
    (hold : threads.lookup thread = some old)
    (hhas : old.uncharged = some (ptr, source))
    (howed : forall share, old.owed share = 0)
    (hfit : charged (w.handOut ptr call)
      (threads.insert thread (.done (.returned ptr))) Call.bytes < 2 ^ 64)
    (hplaced : Placed ({ a with hostSpilled := spilled }.chargeStream call.stream call.bytes)
      (w.handOut ptr call) (threads.insert thread (.done (.returned ptr)))) :
    Exact ({ a with hostSpilled := spilled }.chargeStream call.stream call.bytes)
      (w.handOut ptr call) (threads.insert thread (.done (.returned ptr))) := by
  rcases h.placed.obtained_block hold hhas with ⟨block, hblock, _, _, hnotheld⟩
  have hcharged : forall share,
      charged (w.handOut ptr call)
        (threads.insert thread (.done (.returned ptr))) share =
      charged w threads share + share call := by
    intro share
    exact charged_handOut hblock hnotheld hold (by rw [howed share]; rfl)
  apply hplaced.exact
  · have htotal := h.total
    rw [hcharged] at hfit ⊢
    show wrapSize (a.totalAllocated + call.bytes) = _
    rw [htotal]
    exact wrapSize_of_lt hfit
  · intro stream
    have hle := charged_onStream_le (w.handOut ptr call)
      (threads.insert thread (.done (.returned ptr))) stream
    have hcurrent := h.current
    rw [hcharged] at hle ⊢
    rw [Adaptor.currentOf_chargeStream]
    split
    · rename_i heq
      subst heq
      have hshare : call.onStream call.stream = call.bytes := if_pos rfl
      rw [hshare] at hle ⊢
      show wrapSize (a.currentOf call.stream + call.bytes) = _
      rw [hcurrent]
      exact wrapSize_of_lt (by omega)
    · rename_i hne
      have hshare : call.onStream stream = 0 := if_neg (fun heq => hne heq.symm)
      rw [hshare, Nat.add_zero]
      exact hcurrent stream

theorem Exact.credited (h : Exact a w threads) {call : Call} {w' : World}
    {threads' : Table Thread Frame} {spilled : Table Ptr Spilled}
    (hcharged : forall share,
      charged w' threads' share + share call = charged w threads share)
    (hplaced : Placed ({ a with hostSpilled := spilled }.creditStream call.stream call.bytes)
      w' threads') :
    Exact ({ a with hostSpilled := spilled }.creditStream call.stream call.bytes)
      w' threads' := by
  apply hplaced.exact
  · have htotal := h.total
    have hshare := hcharged Call.bytes
    show Adaptor.clampedSub a.totalAllocated call.bytes = _
    rw [Adaptor.clampedSub_eq]
    omega
  · intro stream
    have hcurrent := h.current stream
    have hshare := hcharged (Call.onStream stream)
    rw [Adaptor.currentOf_creditStream]
    split
    · rename_i heq
      subst heq
      have hown : call.onStream call.stream = call.bytes := if_pos rfl
      show a.currentOf call.stream - call.bytes = _
      omega
    · rename_i hne
      have hother : call.onStream stream = 0 := if_neg (fun heq => hne heq.symm)
      show a.currentOf stream = _
      omega

end Steps

/-!
# Steps of calls
-/

section Moves

variable {s t : State} {reservationLimit : Nat} {e : Event}

theorem Frame.Fails.idle {old frame : Frame} (h : old.Fails frame) :
    old.idle ∧ frame.idle := by
  cases h <;> exact ⟨⟨rfl, rfl, fun _ => rfl⟩, rfl, rfl, fun _ => rfl⟩

theorem Frame.Takes.owed_eq {a : Adaptor} {ptr : Ptr} {source : Source} {old frame : Frame}
    (h : Frame.Takes a ptr source old frame) (share : Call -> Nat) :
    frame.owed share = old.owed share := by
  cases h <;> rfl

/-- Every step keeps the accounts, as long as the sums fit. -/
theorem exact_move (h : Exact s.adaptor s.world s.threads)
    (hmove : Move reservationLimit s e t) (hfit : SumsFit t) :
    Exact t.adaptor t.world t.threads := by
  have hplaced := placed_move h.placed hmove
  cases hmove with
  | allocate hidle =>
      exact h.move (SameCounters.refl _) hplaced (fun share => charged_newFrame share hidle rfl)
  | @deallocate thread ptr grant hidle hheld hfree =>
      refine h.move (SameCounters.refl _) hplaced ?_
      intro share
      have hsum := heldShares_replace share hheld
        { grant with deallocating := some thread }
      have hframe := owedShares_insert_of_none share hidle
        (.deallocCheck grant.call ptr)
      simp only [Frame.owed, Nat.zero_add] at hframe
      simp only at hsum
      unfold charged
      dsimp only
      omega
  | attach => exact h.move (s.adaptor.sameCounters_attach _ _) hplaced (fun _ => rfl)
  | refuse hframe =>
      exact h.move (s.adaptor.sameCounters_touch _) hplaced
        (fun share => charged_setFrame share hframe rfl)
  | pass hframe hpasses =>
      exact h.move (s.adaptor.sameCounters_touch _) hplaced
        (fun share => charged_setFrame share hframe rfl)
  | chargeManaged hframe => exact h.finish hframe rfl (fun _ => rfl) hfit hplaced
  | chargePinned hframe => exact h.finish hframe rfl (fun _ => rfl) hfit hplaced
  | charge hframe => exact h.finish hframe rfl (fun _ => rfl) hfit hplaced
  | @freeSpilled thread call ptr spilled hframe hspilled =>
      refine h.credited ?_ hplaced
      intro share
      rcases h.placed.freeing_block hframe rfl with ⟨block, g, hblock, _, hg, hcall⟩
      have hheld := heldShares_free share hblock hg
        (if spilled.isUvm then .managed else .pinned) call.bytes call.alignment
      have howed := owedShares_insert share hframe (.done .deallocated)
      rw [hcall] at hheld
      simp only [Frame.owed, Nat.add_zero] at howed
      unfold charged
      dsimp only
      omega
  | passOn hframe hspilled =>
      exact h.move (SameCounters.refl _) hplaced
        (fun share => charged_setFrame share hframe rfl)
  | @freeUpstream thread call ptr hframe =>
      refine h.move (SameCounters.refl _) hplaced ?_
      intro share
      rcases h.placed.freeing_block hframe rfl with ⟨block, g, hblock, _, hg, hcall⟩
      have hheld := heldShares_free share hblock hg .upstream call.bytes call.alignment
      have howed := owedShares_insert share hframe (.deallocCredit call)
      rw [hcall] at hheld
      simp only [Frame.owed, Nat.add_zero] at howed
      unfold charged
      dsimp only
      omega
  | @credit thread call hframe =>
      refine h.credited ?_ hplaced
      intro share
      have howed := owedShares_insert share hframe (.done .deallocated)
      simp only [Frame.owed, Nat.add_zero] at howed
      unfold charged
      dsimp only [State.deallocCredit]
      omega
  | fail _ hframe hfails =>
      refine h.move (SameCounters.refl _) hplaced (fun share => ?_)
      refine charged_setFrame share hframe ?_
      rw [hfails.idle.left.right.right, hfails.idle.right.right.right]
  | take _ hframe htakes hfresh =>
      exact h.move (SameCounters.refl _) hplaced
        (fun share => charged_setFrame share hframe (htakes.owed_eq share))
  | ret hframe =>
      refine h.move (SameCounters.refl _) hplaced (fun share => ?_)
      have hsum := owedShares_erase share hframe
      simp only [Frame.owed, Nat.zero_add] at hsum
      unfold charged
      dsimp only
      omega

/-!
# What a step does to the counters
-/

/-- A frame of a call to `deallocate`. -/
def Frame.isDeallocate : Frame -> Bool
  | .deallocCheck _ _ => true
  | .deallocUpstream _ _ => true
  | .deallocCredit _ => true
  | _ => false

/-- A step leaves the counters alone, or is the charge with which an allocation
returns, or a credit of a deallocation. -/
inductive CounterStep (s : State) (e : Event) (t : State) : Prop where
  | same (h : SameCounters s.adaptor t.adaptor)
  | charge (thread : Thread) (call : Call) (ptr : Ptr) (spilled : Table Ptr Spilled)
      (hevent : e = .proceed thread)
      (hadaptor : t.adaptor =
        { s.adaptor with hostSpilled := spilled }.chargeStream call.stream call.bytes)
      (hreturned : t.threads.lookup thread = some (.done (.returned ptr)))
  | credit (thread : Thread) (call : Call) (frame : Frame)
      (spilled : Table Ptr Spilled)
      (hevent : e = .proceed thread)
      (hframe : s.threads.lookup thread = some frame)
      (hdealloc : frame.isDeallocate = true)
      (hadaptor : t.adaptor =
        { s.adaptor with hostSpilled := spilled }.creditStream call.stream call.bytes)

theorem counterStep_move (hmove : Move reservationLimit s e t) : CounterStep s e t := by
  cases hmove with
  | allocate _ => exact .same (SameCounters.refl _)
  | deallocate _ _ _ => exact .same (SameCounters.refl _)
  | attach => exact .same (s.adaptor.sameCounters_attach _ _)
  | refuse _ => exact .same (s.adaptor.sameCounters_touch _)
  | pass _ _ => exact .same (s.adaptor.sameCounters_touch _)
  | @chargeManaged thread call ptr _ =>
      exact .charge thread call ptr _ rfl rfl (Table.lookup_insert_self _ _ _)
  | @chargePinned thread call ptr _ =>
      exact .charge thread call ptr _ rfl rfl (Table.lookup_insert_self _ _ _)
  | @charge thread call ptr _ =>
      exact .charge thread call ptr s.adaptor.hostSpilled rfl rfl
        (Table.lookup_insert_self _ _ _)
  | @freeSpilled thread call ptr _ hframe _ =>
      exact .credit thread call _ (s.adaptor.hostSpilled.erase ptr) rfl hframe rfl rfl
  | passOn _ _ => exact .same (SameCounters.refl _)
  | freeUpstream _ => exact .same (SameCounters.refl _)
  | @credit thread call hframe =>
      exact .credit thread call _ s.adaptor.hostSpilled rfl hframe rfl rfl
  | fail _ _ _ => exact .same (SameCounters.refl _)
  | take _ _ _ _ => exact .same (SameCounters.refl _)
  | ret _ => exact .same (SameCounters.refl _)

end Moves

/-!
# Peaks
-/

/-- The peak of every stream is the largest value its counter has had. -/
def PeaksTrack (s : State) : Prop :=
  forall stream, s.adaptor.peakOf stream = s.highest stream ∧
    s.adaptor.currentOf stream ≤ s.highest stream

theorem SameCounters.peak_eq {a b : Adaptor} (h : SameCounters a b) {stream : Stream}
    (hle : a.currentOf stream ≤ a.peakOf stream) :
    b.peakOf stream = Nat.max (a.peakOf stream) (b.currentOf stream) := by
  rw [h.peak, h.current]
  exact (Nat.max_eq_left hle).symm

/-- After a step the peak is the larger one of the peak before and the value now. -/
theorem peakOf_move {s t : State} {reservationLimit : Nat} {e : Event}
    (hmove : Move reservationLimit s e t) {stream : Stream}
    (hle : s.adaptor.currentOf stream ≤ s.adaptor.peakOf stream) :
    t.adaptor.peakOf stream =
      Nat.max (s.adaptor.peakOf stream) (t.adaptor.currentOf stream) := by
  cases counterStep_move hmove with
  | same h => exact h.peak_eq hle
  | charge thread call ptr spilled hevent hadaptor hreturned =>
      rw [hadaptor, Adaptor.peakOf_chargeStream, Adaptor.currentOf_chargeStream]
      split
      · rename_i heq
        rw [heq]
        rfl
      · exact (Nat.max_eq_left hle).symm
  | credit thread call frame spilled hevent hframe hdealloc hadaptor =>
      rw [hadaptor, Adaptor.peakOf_creditStream, Adaptor.currentOf_creditStream]
      symm
      apply Nat.max_eq_left
      split
      · rename_i heq
        subst heq
        exact Nat.le_trans (Nat.sub_le _ _) hle
      · exact hle

section Machine

variable {s t : State} {reservationLimit : Nat} {e : Event}

theorem step_move (h : (adaptorMachine reservationLimit).step s e = some t) :
    exists u, Move reservationLimit s e u ∧ t = s.observe u := by
  rcases Option.map_eq_some_iff.mp h with ⟨u, hu, heq⟩
  exact ⟨u, advance_move hu, heq.symm⟩

theorem peaksTrack_step (hinv : PeaksTrack s)
    (h : (adaptorMachine reservationLimit).step s e = some t) : PeaksTrack t := by
  rcases step_move h with ⟨u, hu, rfl⟩
  intro stream
  rcases hinv stream with ⟨hpeak, hcurrent⟩
  rw [← hpeak] at hcurrent
  have hnext := peakOf_move hu hcurrent
  constructor
  · show u.adaptor.peakOf stream =
      Nat.max (s.highest stream) (u.adaptor.currentOf stream)
    rw [hnext, hpeak]
  · exact Nat.le_max_right _ _

theorem counterStep_step (h : (adaptorMachine reservationLimit).step s e = some t) :
    CounterStep s e t := by
  rcases step_move h with ⟨u, hu, rfl⟩
  cases counterStep_move hu with
  | same hsame => exact .same hsame
  | charge thread call ptr spilled hevent hadaptor hreturned =>
      exact .charge thread call ptr spilled hevent hadaptor hreturned
  | credit thread call frame spilled hevent hframe hdealloc hadaptor =>
      exact .credit thread call frame spilled hevent hframe hdealloc hadaptor

end Machine

end ResourceAdaptor
end Memory
end Cuda2Rocm
