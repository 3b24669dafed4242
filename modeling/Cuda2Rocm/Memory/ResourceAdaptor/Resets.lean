import Cuda2Rocm.Memory.ResourceAdaptor.Calls
import Cuda2Rocm.Memory.ResourceAdaptor.Tracker

/-!
# Streams that are reset

`reset_stream_reservation` sets the counters of a stream to 0 beside calls in flight and
whatever memory of the stream is live.  Memory that was charged before is credited after it
all the same, as far as the counter goes.
-/

namespace Cuda2Rocm
namespace Memory
namespace ResourceAdaptor
namespace Resets

open Foundation

/-- What is kept of the counters: all of the total, and of a stream no more than the charges
that stand. -/
structure Undercounted (s : State) : Prop where
  placed : Placed s.adaptor s.world s.threads
  total : s.adaptor.totalAllocated = charged s.world s.threads Call.bytes
  current_le : forall stream,
    s.adaptor.currentOf stream ≤ charged s.world s.threads (Call.onStream stream)
  current_le_peak : forall stream, s.adaptor.currentOf stream ≤ s.adaptor.peakOf stream
  peak_le : forall stream, s.adaptor.peakOf stream ≤ s.highest stream

/-- The counter of each stream is the sum of its charges that stand. -/
def StreamsExact (s : State) : Prop :=
  forall stream, s.adaptor.currentOf stream = charged s.world s.threads (Call.onStream stream)

/-- A stream is reset when none of its charges stands. -/
def ResetsIdle (s : Tracker.State) : Tracker.Event -> Prop
  | .reset stream => charged s.core.world s.core.threads (Call.onStream stream) = 0
  | _ => True

instance (s : Tracker.State) : forall e, Decidable (ResetsIdle s e)
  | .reset _ => inferInstanceAs (Decidable (_ = _))
  | .call _ => isTrue trivial
  | .attach _ _ _ _ => isTrue trivial

/-!
# Charges and credits
-/

/-- A step leaves counters and charges alone, or changes both by the share of one call. -/
inductive Accounted (s t : State) : Prop where
  | same (hcounters : SameCounters s.adaptor t.adaptor)
      (hcharged : forall share,
        charged t.world t.threads share = charged s.world s.threads share)
  | charge (call : Call) (spilled : Table Ptr Spilled)
      (hadaptor : t.adaptor =
        { s.adaptor with hostSpilled := spilled }.chargeStream call.stream call.bytes)
      (hcharged : forall share,
        charged t.world t.threads share = charged s.world s.threads share + share call)
  | credit (call : Call) (spilled : Table Ptr Spilled)
      (hadaptor : t.adaptor =
        { s.adaptor with hostSpilled := spilled }.creditStream call.stream call.bytes)
      (hcharged : forall share,
        charged t.world t.threads share + share call = charged s.world s.threads share)

section Moves

variable {s t : State} {reservationLimit : Nat} {e : Event}

theorem charged_finish (h : Placed s.adaptor s.world s.threads) {thread : Thread} {ptr : Ptr}
    {source : Source} {old : Frame} (call : Call)
    (hold : s.threads.lookup thread = some old) (hhas : old.uncharged = some (ptr, source))
    (howed : forall share, old.owed share = 0) (share : Call -> Nat) :
    charged (s.world.handOut ptr call)
        (s.threads.insert thread (.done (.returned ptr))) share =
      charged s.world s.threads share + share call := by
  rcases h.obtained_block hold hhas with ⟨block, hblock, _, _, hnotheld⟩
  apply charged_handOut hblock hnotheld hold
  rw [howed share]
  rfl

/-- Memory that is freed stays charged as far as the next frame owes it. -/
theorem charged_free (h : Placed s.adaptor s.world s.threads) {thread : Thread} {ptr : Ptr}
    {old frame : Frame} {call : Call} (hold : s.threads.lookup thread = some old)
    (hfreeing : old.freeing = some (ptr, call)) (howed : forall share, old.owed share = 0)
    (freedBy : Source) (share : Call -> Nat) :
    charged (s.world.free ptr freedBy call.bytes call.alignment)
        (s.threads.insert thread frame) share + share call =
      charged s.world s.threads share + frame.owed share := by
  rcases h.freeing_block hold hfreeing with ⟨block, g, hblock, _, hg, hcall⟩
  have hheld := heldShares_free share hblock hg freedBy call.bytes call.alignment
  have hframe := owedShares_insert share hold frame
  rw [hcall] at hheld
  rw [howed share] at hframe
  unfold charged
  omega

theorem accounted_move (h : Placed s.adaptor s.world s.threads)
    (hmove : Move reservationLimit s e t) : Accounted s t := by
  cases hmove with
  | allocate hidle =>
      exact .same (SameCounters.refl _) (fun share => charged_newFrame share hidle rfl)
  | @deallocate thread ptr grant hidle hheld hfree =>
      refine .same (SameCounters.refl s.adaptor) ?_
      intro share
      have hsum := heldShares_replace share hheld { grant with deallocating := some thread }
      have hframe := owedShares_insert_of_none share hidle (.deallocCheck grant.call ptr)
      simp only [Frame.owed, Nat.zero_add] at hframe
      simp only at hsum
      unfold charged
      dsimp only
      omega
  | attach => exact .same (s.adaptor.sameCounters_attach _ _) (fun _ => rfl)
  | refuse hframe =>
      exact .same (s.adaptor.sameCounters_touch _)
        (fun share => charged_setFrame share hframe rfl)
  | pass hframe hpasses =>
      exact .same (s.adaptor.sameCounters_touch _)
        (fun share => charged_setFrame share hframe rfl)
  | @chargeManaged thread call ptr hframe =>
      exact .charge call _ rfl (charged_finish h call hframe rfl (fun _ => rfl))
  | @chargePinned thread call ptr hframe =>
      exact .charge call _ rfl (charged_finish h call hframe rfl (fun _ => rfl))
  | @charge thread call ptr hframe =>
      exact .charge call s.adaptor.hostSpilled rfl
        (charged_finish h call hframe rfl (fun _ => rfl))
  | @freeSpilled thread call ptr spilled hframe hspilled =>
      exact .credit call (s.adaptor.hostSpilled.erase ptr) rfl
        (fun share => charged_free h hframe rfl (fun _ => rfl) _ share)
  | passOn hframe hspilled =>
      exact .same (SameCounters.refl _) (fun share => charged_setFrame share hframe rfl)
  | @freeUpstream thread call ptr hframe =>
      refine .same (SameCounters.refl s.adaptor) ?_
      intro share
      have hfree : charged (s.world.free ptr .upstream call.bytes call.alignment)
            (s.threads.insert thread (.deallocCredit call)) share + share call =
          charged s.world s.threads share + share call :=
        charged_free h hframe rfl (fun _ => rfl) .upstream share
      exact Nat.add_right_cancel hfree
  | @credit thread call hframe =>
      refine .credit call s.adaptor.hostSpilled rfl ?_
      intro share
      have howed := owedShares_insert share hframe (.done .deallocated)
      simp only [Frame.owed, Nat.add_zero] at howed
      unfold charged
      dsimp only [State.deallocCredit]
      omega
  | fail _ hframe hfails =>
      refine .same (SameCounters.refl s.adaptor) ?_
      intro share
      apply charged_setFrame share hframe
      rw [hfails.idle.left.right.right, hfails.idle.right.right.right]
  | take _ hframe htakes hfresh =>
      exact .same (SameCounters.refl _)
        (fun share => charged_setFrame share hframe (htakes.owed_eq share))
  | ret hframe =>
      refine .same (SameCounters.refl s.adaptor) ?_
      intro share
      have hsum := owedShares_erase share hframe
      simp only [Frame.owed, Nat.zero_add] at hsum
      unfold charged
      dsimp only
      omega

theorem total_accounted (h : s.adaptor.totalAllocated = charged s.world s.threads Call.bytes)
    (hstep : Accounted s t) (hfit : SumsFit t) :
    t.adaptor.totalAllocated = charged t.world t.threads Call.bytes := by
  cases hstep with
  | same hcounters hcharged =>
      rw [hcounters.total, hcharged]
      exact h
  | charge call spilled hadaptor hcharged =>
      unfold SumsFit at hfit
      rw [hcharged] at hfit ⊢
      rw [hadaptor]
      show wrapSize (s.adaptor.totalAllocated + call.bytes) = _
      rw [h]
      exact wrapSize_of_lt hfit
  | credit call spilled hadaptor hcharged =>
      have hshare := hcharged Call.bytes
      rw [hadaptor]
      show Adaptor.clampedSub s.adaptor.totalAllocated call.bytes = _
      rw [Adaptor.clampedSub_eq]
      omega

/-- A counter moves with the charges of its stream, until a credit finds it at 0. -/
theorem currentOf_accounted (hstep : Accounted s t) (hfit : SumsFit t) (stream : Stream)
    (hle : s.adaptor.currentOf stream ≤ charged s.world s.threads (Call.onStream stream)) :
    (exists more,
      t.adaptor.currentOf stream = s.adaptor.currentOf stream + more ∧
      charged t.world t.threads (Call.onStream stream) =
        charged s.world s.threads (Call.onStream stream) + more) ∨
    (exists less,
      t.adaptor.currentOf stream = s.adaptor.currentOf stream - less ∧
      charged t.world t.threads (Call.onStream stream) =
        charged s.world s.threads (Call.onStream stream) - less) := by
  cases hstep with
  | same hcounters hcharged =>
      exact Or.inl ⟨0, hcounters.current stream, hcharged _⟩
  | charge call spilled hadaptor hcharged =>
      have hshare := hcharged (Call.onStream stream)
      apply Or.inl
      refine ⟨call.onStream stream, ?_, hshare⟩
      rw [hadaptor, Adaptor.currentOf_chargeStream]
      unfold Call.onStream
      split
      · rename_i heq
        rw [if_pos heq.symm, heq]
        apply wrapSize_of_lt
        have hown : call.onStream stream = call.bytes := if_pos heq.symm
        have htotal := charged_onStream_le t.world t.threads stream
        unfold SumsFit at hfit
        rw [heq] at hown hle hshare htotal
        change s.adaptor.currentOf call.stream + call.bytes < 2 ^ 64
        omega
      · rename_i hne
        rw [if_neg (Ne.symm hne)]
        rfl
  | credit call spilled hadaptor hcharged =>
      have hshare := hcharged (Call.onStream stream)
      apply Or.inr
      refine ⟨call.onStream stream, ?_, by omega⟩
      rw [hadaptor, Adaptor.currentOf_creditStream]
      unfold Call.onStream
      split
      · rename_i heq
        rw [if_pos heq.symm, heq]
        rfl
      · rename_i hne
        rw [if_neg (Ne.symm hne)]
        rfl

end Moves

/-!
# Resets
-/

section Reset

theorem tracker_resetStream (a : Adaptor) (stream other : Stream) :
    (a.resetStream stream).currentOf other =
        (if other = stream then 0 else a.currentOf other) ∧
      (a.resetStream stream).peakOf other = (if other = stream then 0 else a.peakOf other) := by
  rw [Adaptor.peakOf_eq, Adaptor.peakOf_eq]
  unfold Adaptor.resetStream Adaptor.currentOf
  cases hlookup : a.streamTracker.lookup stream with
  | none =>
      have hfresh : a.tracker stream = StreamState.fresh := by
        unfold Adaptor.tracker
        rw [hlookup]
        rfl
      dsimp only
      by_cases hother : other = stream
      · rw [if_pos hother, if_pos hother, hother, hfresh]
        exact ⟨rfl, rfl⟩
      · rw [if_neg hother, if_neg hother]
        exact ⟨rfl, rfl⟩
  | some state =>
      dsimp only
      rw [Adaptor.tracker_insert]
      split
      · exact ⟨rfl, rfl⟩
      · exact ⟨rfl, rfl⟩

theorem total_resetStream (a : Adaptor) (stream : Stream) :
    (a.resetStream stream).totalAllocated = a.totalAllocated ∧
      (a.resetStream stream).hostSpilled = a.hostSpilled := by
  unfold Adaptor.resetStream
  split
  · exact ⟨rfl, rfl⟩
  · exact ⟨rfl, rfl⟩

end Reset

/-!
# Runs
-/

section Steps

variable {s t : Tracker.State} {reservationLimit : Nat} {e : Tracker.Event}

theorem undercounted_move {c u : State} {e : Event} (h : Undercounted c)
    (hmove : Move reservationLimit c e u) (hfit : SumsFit u) :
    Undercounted (c.observe u) := by
  have haccounted := accounted_move h.placed hmove
  have hpeak : forall stream, u.adaptor.peakOf stream =
      Nat.max (c.adaptor.peakOf stream) (u.adaptor.currentOf stream) :=
    fun stream => peakOf_move hmove (h.current_le_peak stream)
  have hplaced := placed_move h.placed hmove
  have htotal := total_accounted h.total haccounted hfit
  constructor
  · exact hplaced
  · exact htotal
  · intro stream
    have hle := h.current_le stream
    rcases currentOf_accounted haccounted hfit stream hle with
      ⟨more, hcurrent, hcharged⟩ | ⟨less, hcurrent, hcharged⟩
    · exact hcurrent.trans_le ((Nat.add_le_add_right hle more).trans_eq hcharged.symm)
    · exact hcurrent.trans_le ((Nat.sub_le_sub_right hle less).trans_eq hcharged.symm)
  · intro stream
    exact (Nat.le_max_right _ _).trans_eq (hpeak stream).symm
  · intro stream
    apply (hpeak stream).trans_le
    apply Nat.max_le.mpr
    constructor
    · exact (h.peak_le stream).trans (Nat.le_max_left _ _)
    · exact Nat.le_max_right _ _

theorem streamsExact_move {c u : State} {e : Event} (h : Undercounted c)
    (hexact : StreamsExact c) (hmove : Move reservationLimit c e u) (hfit : SumsFit u) :
    StreamsExact u := by
  intro stream
  have hsame := hexact stream
  rcases currentOf_accounted (accounted_move h.placed hmove) hfit stream
    (h.current_le stream) with ⟨more, hcurrent, hcharged⟩ | ⟨less, hcurrent, hcharged⟩
  · rw [hcurrent, hcharged, hsame]
  · rw [hcurrent, hcharged, hsame]

theorem undercounted_reset (h : Undercounted s.core) (stream : Stream) :
    Undercounted (Tracker.reset s stream).core := by
  have hsame := total_resetStream s.core.adaptor stream
  constructor
  · exact h.placed.move hsame.right h.placed.custody
  · exact hsame.left.trans h.total
  · intro other
    apply (tracker_resetStream s.core.adaptor stream other).left.trans_le
    split
    · exact Nat.zero_le _
    · exact h.current_le other
  · intro other
    have hboth := tracker_resetStream s.core.adaptor stream other
    apply hboth.left.trans_le
    apply le_of_le_of_eq _ hboth.right.symm
    split
    · exact Nat.le_refl 0
    · exact h.current_le_peak other
  · intro other
    apply (tracker_resetStream s.core.adaptor stream other).right.trans_le
    split
    · exact Nat.zero_le _
    · exact h.peak_le other

/-- A reset leaves all other counters and all charges alone, so it is exact where it sets
to 0 what is 0. -/
theorem streamsExact_reset_iff (hexact : StreamsExact s.core) (stream : Stream) :
    StreamsExact (Tracker.reset s stream).core <-> ResetsIdle s (.reset stream) := by
  constructor
  · intro h
    have hzero := (tracker_resetStream s.core.adaptor stream stream).left
    rw [if_pos rfl] at hzero
    exact (h stream).symm.trans hzero
  · intro hidle other
    apply (tracker_resetStream s.core.adaptor stream other).left.trans
    split
    · rename_i heq
      rw [heq]
      exact hidle.symm
    · exact hexact other

theorem move_of_attach (limit : Nat) (c : State) (stream : Stream) (oomPolicy : Bool) :
    Move limit c (.attach stream oomPolicy)
      { c with adaptor := c.adaptor.attach stream oomPolicy } := .attach

theorem undercounted_step (h : Undercounted s.core)
    (hstep : (trackerMachine reservationLimit).step s e = some t) (hfit : SumsFit t.core) :
    Undercounted t.core := by
  cases e with
  | call e =>
      rcases Tracker.stepCall_cases hstep with ⟨core, _, hadvance, rfl⟩
      exact undercounted_move h (advance_move hadvance) hfit
  | attach stream reservation limitPolicy oomPolicy =>
      cases hstep
      exact undercounted_move h (move_of_attach reservationLimit s.core stream oomPolicy) hfit
  | reset stream =>
      cases hstep
      exact undercounted_reset h stream

theorem streamsExact_step_iff (h : Undercounted s.core) (hexact : StreamsExact s.core)
    (hstep : (trackerMachine reservationLimit).step s e = some t) (hfit : SumsFit t.core) :
    StreamsExact t.core <-> ResetsIdle s e := by
  cases e with
  | call e =>
      rcases Tracker.stepCall_cases hstep with ⟨core, _, hadvance, rfl⟩
      have hnext := streamsExact_move h hexact (advance_move hadvance) hfit
      exact ⟨fun _ => trivial, fun _ => hnext⟩
  | attach stream reservation limitPolicy oomPolicy =>
      cases hstep
      have hnext := streamsExact_move h hexact
        (move_of_attach reservationLimit s.core stream oomPolicy) hfit
      exact ⟨fun _ => trivial, fun _ => hnext⟩
  | reset stream =>
      cases hstep
      exact streamsExact_reset_iff hexact stream

end Steps

theorem undercounted_initial : Undercounted State.initial := by
  constructor
  · exact placed_initial
  · rfl
  · exact fun _ => Nat.le_refl 0
  · exact fun _ => Nat.le_refl 0
  · exact fun _ => Nat.le_refl 0

/--
However streams are reset beside the calls in flight, the total, the spills and the frees
stay right and no stream is counted for more than its charges that stand.  The counters of
the streams stay right in exactly the runs in which each stream is reset idle.
-/
theorem undercounted_by_resets (reservationLimit : Nat) (events : List Tracker.Event)
    (hfit : (trackerMachine reservationLimit).Reaches (fun s => SumsFit s.core)
      Tracker.State.initial events) :
    (forall s, (trackerMachine reservationLimit).run Tracker.State.initial events = some s ->
      Undercounted s.core) ∧
    ((trackerMachine reservationLimit).Reaches (fun s => StreamsExact s.core)
        Tracker.State.initial events <->
      (trackerMachine reservationLimit).Along ResetsIdle Tracker.State.initial events) := by
  constructor
  · intro s hrun
    have hkeep : forall (s : Tracker.State) e t, Undercounted s.core ->
        (forall t, (trackerMachine reservationLimit).step s e = some t -> SumsFit t.core) ->
        (trackerMachine reservationLimit).step s e = some t -> Undercounted t.core :=
      fun s e t hs hok h => undercounted_step hs h (hok t h)
    exact Machine.invariant_run hkeep undercounted_initial (Machine.along_of_reaches hfit) hrun
  · have hinitial : Undercounted State.initial ∧ StreamsExact State.initial :=
      ⟨undercounted_initial, fun _ => rfl⟩
    constructor
    · intro hexact
      have hkeep : forall (s : Tracker.State) e t,
          (Undercounted s.core ∧ StreamsExact s.core) ->
          (forall t, (trackerMachine reservationLimit).step s e = some t ->
            StreamsExact t.core ∧ SumsFit t.core) ->
          (trackerMachine reservationLimit).step s e = some t ->
          (Undercounted t.core ∧ StreamsExact t.core) ∧ ResetsIdle s e := by
        intro s e t hs hok h
        have hgood := hok t h
        have ht := undercounted_step hs.left h hgood.right
        have hidle := (streamsExact_step_iff hs.left hs.right h hgood.right).mp hgood.left
        exact ⟨⟨ht, hgood.left⟩, hidle⟩
      exact Machine.throughout_of_invariant hkeep hinitial
        (Machine.along_of_reaches (Machine.throughout_and hexact hfit))
    · intro hidle
      have hkeep : forall (s : Tracker.State) e t,
          (Undercounted s.core ∧ StreamsExact s.core) ->
          (ResetsIdle s e ∧
            forall t, (trackerMachine reservationLimit).step s e = some t ->
              SumsFit t.core) ->
          (trackerMachine reservationLimit).step s e = some t ->
          (Undercounted t.core ∧ StreamsExact t.core) ∧ StreamsExact t.core := by
        intro s e t hs hok h
        have hfits := hok.right t h
        have ht := undercounted_step hs.left h hfits
        have hexact := (streamsExact_step_iff hs.left hs.right h hfits).mpr hok.left
        exact ⟨⟨ht, hexact⟩, hexact⟩
      exact Machine.throughout_of_invariant hkeep hinitial
        (Machine.throughout_and hidle (Machine.along_of_reaches hfit))

/-- A stream is reset while 16 bytes of it are live, which are freed when 24 more are. -/
def resetInUse : List Tracker.Event :=
  [.call (.allocate 0 { stream := 5, bytes := 16, alignment := 8 }), .call (.proceed 0),
    .call (.request 0 (some 100)), .call (.proceed 0), .call (.ret 0), .reset 5,
    .call (.allocate 0 { stream := 5, bytes := 24, alignment := 8 }), .call (.proceed 0),
    .call (.request 0 (some 200)), .call (.proceed 0), .call (.ret 0),
    .call (.deallocate 0 100), .call (.proceed 0), .call (.proceed 0), .call (.proceed 0)]

/-- Of the 24 bytes that are left the stream is counted for 8. -/
theorem undercounted_by_resets_resetInUse :
    exists s, (trackerMachine 0).run Tracker.State.initial resetInUse = some s ∧
      s.core.adaptor.totalAllocated = charged s.core.world s.core.threads Call.bytes ∧
      s.core.adaptor.totalAllocated = 24 ∧ s.core.adaptor.currentOf 5 = 8 ∧
      ¬ (trackerMachine 0).Reaches (fun s => StreamsExact s.core) Tracker.State.initial
        resetInUse := by
  have h := undercounted_by_resets 0 resetInUse (by decide +kernel)
  refine ⟨_, rfl, (h.left _ rfl).total, rfl, rfl, ?_⟩
  intro hexact
  exact absurd (h.right.mp hexact) (by decide +kernel)

end Resets
end ResourceAdaptor
end Memory
end Cuda2Rocm
