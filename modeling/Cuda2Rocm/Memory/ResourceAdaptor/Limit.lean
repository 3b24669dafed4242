import Cuda2Rocm.Memory.ResourceAdaptor.Runs

/-!
# The reservation limit

The limit is checked in one locked section and charged in a later one.  Between
them other calls on the stream pass the same check against the same counter.
-/

namespace Cuda2Rocm
namespace Memory
namespace ResourceAdaptor

open Foundation

/-- A request that was admitted and not charged yet. -/
def Frame.pending : Frame -> Option Call
  | .upstream call => some call
  | .managed call => some call
  | .chargeManaged call _ => some call
  | .pinned call => some call
  | .chargePinned call _ => some call
  | .charge call _ => some call
  | _ => none

/-- The bytes a frame will add to the counter of a stream. -/
def Frame.pendingOn (stream : Stream) (frame : Frame) : Nat :=
  match frame.pending with
  | none => 0
  | some call => call.onStream stream

/-- The bytes admitted on a stream and not charged yet. -/
def pendingOn (threads : Table Thread Frame) (stream : Stream) : Nat :=
  threads.sum (fun _ frame => frame.pendingOn stream)

/-- The counters of all streams are within the limit. -/
def WithinLimit (reservationLimit : Nat) (s : State) : Prop :=
  forall stream, s.adaptor.currentOf stream ≤ reservationLimit

/--
The check of a request that passes finds room for it beside what was admitted on
its stream before and is not charged yet.
-/
def AdmitsWithin (reservationLimit : Nat) (s : State) : Event -> Prop
  | .proceed thread =>
      match s.threads.lookup thread with
      | some (.check call) =>
          exceedsLimit reservationLimit (s.adaptor.currentOf call.stream) call.bytes =
            false ->
          s.adaptor.currentOf call.stream + pendingOn s.threads call.stream +
            call.bytes ≤ reservationLimit
      | _ => True
  | _ => True

instance (reservationLimit : Nat) (s : State) (e : Event) :
    Decidable (AdmitsWithin reservationLimit s e) := by
  unfold AdmitsWithin
  cases e with
  | proceed thread => dsimp only; split <;> infer_instance
  | _ => exact isTrue trivial

/-- The event attaches no out-of-memory policy. -/
def Event.attachesNone : Event -> Bool
  | .attach _ oomPolicy => !oomPolicy
  | _ => true

/-- Counters and admitted requests together are within the limit, and no policy is
attached. -/
structure Admitted (reservationLimit : Nat) (s : State) : Prop where
  within : forall stream,
    s.adaptor.currentOf stream + pendingOn s.threads stream ≤ reservationLimit
  no_policy : forall stream, s.adaptor.hasPolicy stream = false

section Pending

variable {threads : Table Thread Frame} {thread : Thread}

theorem pendingOn_insert {old : Frame} (h : threads.lookup thread = some old)
    (frame : Frame) (stream : Stream) :
    pendingOn (threads.insert thread frame) stream + old.pendingOn stream =
      pendingOn threads stream + frame.pendingOn stream :=
  Table.sum_replace h frame (fun _ f => f.pendingOn stream)

theorem pendingOn_insert_of_none (h : threads.lookup thread = none) (frame : Frame)
    (stream : Stream) :
    pendingOn (threads.insert thread frame) stream =
      frame.pendingOn stream + pendingOn threads stream :=
  Table.sum_insert_of_none h frame (fun _ f => f.pendingOn stream)

theorem pendingOn_erase {old : Frame} (h : threads.lookup thread = some old)
    (stream : Stream) :
    pendingOn threads stream =
      old.pendingOn stream + pendingOn (threads.erase thread) stream :=
  Table.sum_of_lookup h (fun _ f => f.pendingOn stream)

end Pending

section Policies

variable {a : Adaptor} {stream : Stream}

/-- Policies of a stream after its entry was stored again. -/
theorem hasPolicy_eq (a : Adaptor) (stream : Stream) :
    a.hasPolicy stream = (a.tracker stream).oomPolicy := by
  unfold Adaptor.hasPolicy Adaptor.tracker
  cases a.streamTracker.lookup stream with
  | none => rfl
  | some state => rfl

theorem hasPolicy_touch (a : Adaptor) (stream other : Stream) :
    (a.touch stream).hasPolicy other = a.hasPolicy other := by
  rw [hasPolicy_eq, hasPolicy_eq]
  unfold Adaptor.touch
  rw [Adaptor.tracker_insert]
  split
  · rename_i heq
    rw [heq]
  · rfl

theorem hasPolicy_chargeStream (a : Adaptor) (stream : Stream) (bytes : Nat)
    (other : Stream) :
    (a.chargeStream stream bytes).hasPolicy other = a.hasPolicy other := by
  rw [hasPolicy_eq, hasPolicy_eq]
  unfold Adaptor.chargeStream
  rw [Adaptor.tracker_insert]
  split
  · rename_i heq
    rw [heq]
  · rfl

theorem hasPolicy_creditStream (a : Adaptor) (stream : Stream) (bytes : Nat)
    (other : Stream) :
    (a.creditStream stream bytes).hasPolicy other = a.hasPolicy other := by
  rw [hasPolicy_eq, hasPolicy_eq]
  unfold Adaptor.creditStream
  cases hlookup : a.streamTracker.lookup stream with
  | none => rfl
  | some state =>
      rw [Adaptor.tracker_insert]
      split
      · rename_i heq
        rw [heq]
        unfold Adaptor.tracker
        rw [hlookup]
        rfl
      · rfl

theorem hasPolicy_attach (a : Adaptor) (stream : Stream) (oomPolicy : Bool)
    (other : Stream) :
    (a.attach stream oomPolicy).hasPolicy other =
      if other = stream then oomPolicy else a.hasPolicy other := by
  rw [hasPolicy_eq, hasPolicy_eq]
  unfold Adaptor.attach
  rw [Adaptor.tracker_insert]
  split
  · rfl
  · rfl

end Policies

section Steps

variable {s t : State} {limit : UInt64} {thread : Thread}

/-- A frame that admits no more than the one before leaves the bound alone. -/
theorem Admitted.setFrame {adaptor : Adaptor} {world : World} {old frame : Frame}
    {highest : Stream -> Nat} (h : Admitted limit.toNat s)
    (hold : s.threads.lookup thread = some old)
    (hless : forall stream, frame.pendingOn stream ≤ old.pendingOn stream)
    (hcurrent : forall stream, adaptor.currentOf stream ≤ s.adaptor.currentOf stream)
    (hpolicy : forall stream, adaptor.hasPolicy stream = s.adaptor.hasPolicy stream) :
    Admitted limit.toNat
      { adaptor := adaptor, world := world,
        threads := s.threads.insert thread frame, highest := highest } := by
  constructor
  · intro stream
    have hwithin := h.within stream
    have hsum := pendingOn_insert hold frame stream
    have hframe := hless stream
    have hadaptor := hcurrent stream
    show adaptor.currentOf stream + pendingOn (s.threads.insert thread frame) stream ≤ _
    omega
  · intro stream
    exact (hpolicy stream).trans (h.no_policy stream)

theorem Admitted.newFrame {world : World} {frame : Frame} (h : Admitted limit.toNat s)
    (hidle : s.threads.lookup thread = none) (hpending : frame.pending = none) :
    Admitted limit.toNat
      { s with world := world, threads := s.threads.insert thread frame } := by
  refine ⟨?_, h.no_policy⟩
  intro stream
  have hnothing : frame.pendingOn stream = 0 := by
    unfold Frame.pendingOn
    rw [hpending]
  show s.adaptor.currentOf stream + pendingOn (s.threads.insert thread frame) stream ≤ _
  rw [pendingOn_insert_of_none hidle, hnothing, Nat.zero_add]
  exact h.within stream

/-- A check that passes with room beside everything admitted before. -/
theorem Admitted.passes {call : Call} (h : Admitted limit.toNat s)
    (hold : s.threads.lookup thread = some (.check call))
    (hroom : s.adaptor.currentOf call.stream + pendingOn s.threads call.stream +
      call.bytes ≤ limit.toNat) :
    Admitted limit.toNat
      { s with
        adaptor := s.adaptor.touch call.stream
        threads := s.threads.insert thread (.upstream call) } := by
  have hsame := s.adaptor.sameCounters_touch call.stream
  constructor
  · intro stream
    have hwithin := h.within stream
    have hsum := pendingOn_insert hold (.upstream call) stream
    have hzero : Frame.pendingOn stream (.check call) = 0 := rfl
    have hcurrent := hsame.current stream
    show (s.adaptor.touch call.stream).currentOf stream +
      pendingOn (s.threads.insert thread (.upstream call)) stream ≤ _
    change _ = _ + call.onStream stream at hsum
    unfold Call.onStream at hsum
    split at hsum
    · rename_i heq
      subst heq
      omega
    · omega
  · intro stream
    exact (hasPolicy_touch s.adaptor call.stream stream).trans (h.no_policy stream)

/-- A charge turns admitted bytes into counted ones. -/
theorem admitted_finish {call : Call} {ptr : Ptr} {old : Frame} {world : World}
    {highest : Stream -> Nat} (spilled : Table Ptr Spilled)
    (h : Admitted limit.toNat s) (hold : s.threads.lookup thread = some old)
    (hpending : old.pending = some call) :
    Admitted limit.toNat
      { adaptor := { s.adaptor with hostSpilled := spilled }.chargeStream
          call.stream call.bytes
        world := world
        threads := s.threads.insert thread (.done (.returned ptr))
        highest := highest } := by
  have hword := limit.toNat_lt
  constructor
  · intro stream
    have hwithin := h.within stream
    have hsum := pendingOn_insert hold (.done (.returned ptr)) stream
    have hshare : old.pendingOn stream = call.onStream stream := by
      unfold Frame.pendingOn
      rw [hpending]
    have hzero : Frame.pendingOn stream (.done (.returned ptr)) = 0 := rfl
    show ({ s.adaptor with hostSpilled := spilled }.chargeStream
        call.stream call.bytes).currentOf stream +
      pendingOn (s.threads.insert thread (.done (.returned ptr))) stream ≤ _
    rw [Adaptor.currentOf_chargeStream]
    unfold Call.onStream at hshare
    split
    · rename_i heq
      subst heq
      rw [if_pos rfl] at hshare
      have hfit : wrapSize (s.adaptor.currentOf call.stream + call.bytes) =
          s.adaptor.currentOf call.stream + call.bytes := wrapSize_of_lt (by omega)
      change wrapSize (s.adaptor.currentOf call.stream + call.bytes) + _ ≤ _
      omega
    · rename_i hne
      rw [if_neg (fun heq => hne heq.symm)] at hshare
      change s.adaptor.currentOf stream + _ ≤ _
      omega
  · intro stream
    exact (hasPolicy_chargeStream _ call.stream call.bytes stream).trans
      (h.no_policy stream)

theorem currentOf_creditStream_le (a : Adaptor) (stream : Stream) (bytes : Nat)
    (other : Stream) :
    (a.creditStream stream bytes).currentOf other ≤ a.currentOf other := by
  rw [Adaptor.currentOf_creditStream]
  split
  · rename_i heq
    subst heq
    exact Nat.sub_le _ _
  · exact Nat.le_refl _

theorem Frame.Fails.pendingOn_le {old frame : Frame} (h : old.Fails frame)
    (stream : Stream) : frame.pendingOn stream ≤ old.pendingOn stream := by
  cases h with
  | upstream call => exact Nat.le_refl _
  | managed call => exact Nat.le_refl _
  | pinned call => exact Nat.zero_le _
  | limitExceeded call failure => exact Nat.zero_le _
  | allTiersFailed call failure => exact Nat.zero_le _

/-- Without a policy a request that found no memory is not heard of again. -/
theorem Frame.Takes.pending_eq {a : Adaptor} {ptr : Ptr} {source : Source}
    {old frame : Frame} (h : Frame.Takes a ptr source old frame)
    (hnone : forall stream, a.hasPolicy stream = false) : frame.pending = old.pending := by
  cases h with
  | upstream call => rfl
  | managed call => rfl
  | pinned call => rfl
  | limitExceeded call hpolicy =>
      rw [hnone] at hpolicy
      cases hpolicy
  | allTiersFailed call hpolicy =>
      rw [hnone] at hpolicy
      cases hpolicy

theorem admitted_move {e : Event} (h : Admitted limit.toNat s)
    (hok : AdmitsWithin limit.toNat s e) (hnone : e.attachesNone = true)
    (hmove : Move limit.toNat s e t) : Admitted limit.toNat t := by
  have hsame : forall stream, s.adaptor.currentOf stream ≤ s.adaptor.currentOf stream :=
    fun _ => Nat.le_refl _
  cases hmove with
  | allocate hidle => exact h.newFrame hidle rfl
  | deallocate hidle _ _ => exact h.newFrame hidle rfl
  | @attach stream oomPolicy =>
      have hoff : oomPolicy = false := by simpa [Event.attachesNone] using hnone
      subst hoff
      have hcounters := s.adaptor.sameCounters_attach stream false
      constructor
      · intro other
        show (s.adaptor.attach stream false).currentOf other + _ ≤ _
        rw [hcounters.current]
        exact h.within other
      · intro other
        show (s.adaptor.attach stream false).hasPolicy other = false
        rw [hasPolicy_attach, h.no_policy, ite_self]
  | @refuse thread call hframe =>
      exact h.setFrame hframe (fun _ => Nat.le_refl _)
        (fun stream => Nat.le_of_eq ((s.adaptor.sameCounters_touch call.stream).current stream))
        (fun stream => hasPolicy_touch s.adaptor call.stream stream)
  | pass hframe hpasses =>
      simp only [AdmitsWithin, hframe] at hok
      exact h.passes hframe (hok hpasses)
  | chargeManaged hframe => exact admitted_finish _ h hframe rfl
  | chargePinned hframe => exact admitted_finish _ h hframe rfl
  | charge hframe => exact admitted_finish s.adaptor.hostSpilled h hframe rfl
  | @freeSpilled thread call _ _ hframe _ =>
      exact h.setFrame hframe (fun _ => Nat.le_refl _)
        (fun stream => currentOf_creditStream_le _ call.stream call.bytes stream)
        (fun stream => hasPolicy_creditStream _ call.stream call.bytes stream)
  | passOn hframe _ => exact h.setFrame hframe (fun _ => Nat.le_refl _) hsame (fun _ => rfl)
  | freeUpstream hframe =>
      exact h.setFrame hframe (fun _ => Nat.le_refl _) hsame (fun _ => rfl)
  | @credit thread call hframe =>
      exact h.setFrame hframe (fun _ => Nat.le_refl _)
        (fun stream => currentOf_creditStream_le _ call.stream call.bytes stream)
        (fun stream => hasPolicy_creditStream _ call.stream call.bytes stream)
  | fail _ hframe hfails => exact h.setFrame hframe hfails.pendingOn_le hsame (fun _ => rfl)
  | take _ hframe htakes _ =>
      refine h.setFrame hframe ?_ hsame (fun _ => rfl)
      intro stream
      unfold Frame.pendingOn
      rw [htakes.pending_eq h.no_policy]
  | @ret thread outcome hframe =>
      refine ⟨?_, h.no_policy⟩
      intro stream
      have hwithin := h.within stream
      have hsum := pendingOn_erase hframe stream
      show s.adaptor.currentOf stream + pendingOn (s.threads.erase thread) stream ≤ _
      omega

end Steps

theorem admitted_initial (limit : UInt64) : Admitted limit.toNat State.initial := by
  constructor
  · intro stream
    exact Nat.zero_le _
  · intro stream
    rfl

/--
Without policies, the counters of all streams stay within the limit in every run in
which each check that passes finds room beside what was admitted before and is not
charged yet.
-/
theorem within_limit_of_admitted (limit : UInt64) (events : List Event)
    (hnone : forall e, e ∈ events -> e.attachesNone = true)
    (hok : (adaptorMachine limit.toNat).Along (AdmitsWithin limit.toNat)
      State.initial events) :
    (adaptorMachine limit.toNat).Reaches (WithinLimit limit.toNat)
      State.initial events := by
  have hstep : forall s e t, Admitted limit.toNat s ->
      (AdmitsWithin limit.toNat s e ∧ e.attachesNone = true) ->
      (adaptorMachine limit.toNat).step s e = some t ->
      Admitted limit.toNat t ∧ WithinLimit limit.toNat t := by
    intro s e t hinv hcond h
    rcases step_move h with ⟨u, hu, rfl⟩
    have hnext := admitted_move hinv hcond.left hcond.right hu
    refine ⟨{ within := hnext.within, no_policy := hnext.no_policy }, ?_⟩
    intro stream
    exact Nat.le_trans (Nat.le_add_right _ _) (hnext.within stream)
  have hboth := Machine.throughout_and hok
    (Machine.along_of_events (M := adaptorMachine limit.toNat) hnone)
  exact Machine.throughout_of_invariant hstep (admitted_initial limit) hboth

/-- Six and four of ten bytes, both admitted before either is charged; the six are freed. -/
def sixAndFour : List Event :=
  [.allocate 0 { stream := 0, bytes := 6, alignment := 0 },
    .allocate 1 { stream := 0, bytes := 4, alignment := 0 },
    .proceed 0, .proceed 1, .request 1 (some 200), .request 0 (some 100), .proceed 0,
    .proceed 1, .ret 0, .deallocate 0 100, .proceed 0, .proceed 0, .proceed 0, .ret 0]

theorem within_limit_of_admitted_sixAndFour :
    ((adaptorMachine 10).run State.initial sixAndFour).isSome = true ∧
      (adaptorMachine (10 : UInt64).toNat).Reaches (WithinLimit (10 : UInt64).toNat)
        State.initial sixAndFour :=
  ⟨by decide, within_limit_of_admitted 10 sixAndFour (by decide) (by decide)⟩

/-- Two threads on one stream both pass the check before either is charged. -/
theorem limit_exceeded_by_two :
    exists events s, (forall e, e ∈ events -> e.attachesNone = true) ∧
      (adaptorMachine 10).run State.initial events = some s ∧ ¬ WithinLimit 10 s := by
  refine ⟨[.allocate 0 { stream := 0, bytes := 6, alignment := 0 },
    .allocate 1 { stream := 0, bytes := 6, alignment := 0 },
    .proceed 0, .proceed 1, .request 0 (some 100), .request 1 (some 200),
    .proceed 0, .proceed 1], _, by decide, rfl, ?_⟩
  intro h
  have hcharged := h 0
  revert hcharged
  decide

end ResourceAdaptor
end Memory
end Cuda2Rocm
