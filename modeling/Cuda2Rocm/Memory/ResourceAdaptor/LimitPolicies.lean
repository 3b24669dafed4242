import Cuda2Rocm.Memory.ResourceAdaptor.Limit
import Cuda2Rocm.Memory.ResourceAdaptor.Tracker

/-!
# Attached limit policies

`allocate` decides by its own limit alone.  An attached limit policy is stored and never
asked, so what it would refuse is not refused.
-/

namespace Cuda2Rocm
namespace Memory
namespace ResourceAdaptor

open Foundation

/-- What a call has returned. -/
def Frame.returned : Frame -> Option Ptr
  | .done (.returned ptr) => some ptr
  | _ => none

/-- A frame that is not about to have memory for a client, and has returned none. -/
def Frame.Unserved (frame : Frame) : Prop :=
  frame.pending = none ∧ frame.returned = none

namespace Tracker

/-- The size of the reservation that is attached to a stream together with the failing
limit policy, and with no out-of-memory policy. -/
def failSize (attached : Table Stream Attachment) (a : Adaptor) (stream : Stream) :
    Option Nat :=
  match attached.lookup stream with
  | some ⟨some reservation, some policy⟩ =>
      if policy.isFail && !a.hasPolicy stream then some reservation.size else none
  | _ => none

namespace State

/-- The counter of a stream with everything that may still be added to it. -/
def committedOn (s : State) (stream : Stream) : Nat :=
  s.core.adaptor.currentOf stream + pendingOn s.core.threads stream

/-- Where the failing policy stands alone, the call has room beside all others. -/
def HasRoom (s : State) (call : Call) : Prop :=
  match failSize s.attached s.core.adaptor call.stream with
  | none => True
  | some size => s.committedOn call.stream + call.bytes ≤ size

end State

/-- What the limit policy refuses at its check, `reservation_limit_` refuses too; and where
the failing policy stands alone, it is attached with room for the calls in flight, and a
check that passes finds room beside them. -/
def PolicyHeeded (reservationLimit : Nat) (s : State) : Event -> Prop
  | .call (.proceed thread) =>
      match s.core.threads.lookup thread with
      | some (.check call) =>
          exceedsLimit reservationLimit (s.core.adaptor.currentOf call.stream) call.bytes =
            false ->
          s.refuses call = false ∧ s.HasRoom call
      | _ => True
  | .attach stream (some reservation) (some .failLimit) false =>
      s.committedOn stream ≤ reservation.size
  | _ => True

instance (s : State) (call : Call) : Decidable (s.HasRoom call) := by
  unfold State.HasRoom
  split <;> infer_instance

instance (reservationLimit : Nat) (s : State) (e : Event) :
    Decidable (PolicyHeeded reservationLimit s e) := by
  unfold PolicyHeeded
  split
  · split <;> infer_instance
  · infer_instance
  · infer_instance

/-- A step under which the attached limit policies are enforced. -/
structure PolicyEnforced (reservationLimit : Nat) (s : State) (e : Event) (t : State) :
    Prop where
  refused_unreturned : forall thread ptr,
    t.core.threads.lookup thread = some (.done (.returned ptr)) -> t.refused thread = false
  decided_by_limit : forall thread call policy, e = .call (.proceed thread) ->
    s.core.threads.lookup thread = some (.check call) ->
    s.limitPolicyOf call.stream = some policy ->
    policy.canReserve call.bytes (s.core.adaptor.currentOf call.stream) = true ->
    t.core.threads.lookup thread =
      some (if exceedsLimit reservationLimit (s.core.adaptor.currentOf call.stream)
        call.bytes then .limitExceeded call else .upstream call)
  within_reservation : forall stream size,
    failSize t.attached t.core.adaptor stream = some size ->
    t.core.adaptor.currentOf stream ≤ size

/-!
# The invariant
-/

/-- Refused calls are not served, and where the failing policy stands alone, the counter has
room for everything that may still be added to it. -/
structure Enforced (a : Adaptor) (threads : Table Thread Frame)
    (attached : Table Stream Attachment) (refused : Thread -> Bool) : Prop where
  unserved : forall thread frame, threads.lookup thread = some frame ->
    refused thread = true -> frame.Unserved
  within : forall stream size, failSize attached a stream = some size ->
    a.currentOf stream + pendingOn threads stream ≤ size

section Frames

variable {a b : Adaptor} {threads : Table Thread Frame} {attached : Table Stream Attachment}
  {refused refused' : Thread -> Bool} {thread : Thread} {old frame : Frame}

theorem failSize_congr {stream : Stream} (h : b.hasPolicy stream = a.hasPolicy stream) :
    failSize attached b stream = failSize attached a stream := by
  unfold failSize
  rw [h]

/-- The failing policy does not stand alone beside an out-of-memory policy. -/
theorem hasPolicy_of_failSize {stream : Stream} {size : Nat}
    (h : failSize attached a stream = some size) : a.hasPolicy stream = false := by
  unfold failSize at h
  split at h
  · split at h
    · rename_i hboth
      simp only [Bool.and_eq_true, Bool.not_eq_true'] at hboth
      exact hboth.right
    · cases h
  · cases h

theorem pendingOn_of_pending_none {stream : Stream} (h : frame.pending = none) :
    frame.pendingOn stream = 0 := by
  unfold Frame.pendingOn
  rw [h]

/-- A call on its way to memory was not refused. -/
theorem Enforced.allowed (h : Enforced a threads attached refused)
    (hold : threads.lookup thread = some old) (hpending : old.pending ≠ none) :
    refused thread = false := by
  by_contra hrefused
  exact hpending (h.unserved thread old hold (by simpa using hrefused)).left

/-- A thread goes on to a frame that the reservations have room for. -/
theorem Enforced.replace (h : Enforced a threads attached refused)
    (hold : threads.lookup thread = some old)
    (hsame : forall other, other ≠ thread -> refused other = refused' other)
    (hpolicy : forall stream, b.hasPolicy stream = a.hasPolicy stream)
    (hunserved : refused' thread = true -> frame.Unserved)
    (hroom : forall stream size, failSize attached a stream = some size ->
      b.currentOf stream + pendingOn threads stream + frame.pendingOn stream ≤
      size + old.pendingOn stream) :
    Enforced b (threads.insert thread frame) attached refused' := by
  constructor
  · intro other f hf hrefused
    rcases Table.lookup_of_lookup_insert hf with ⟨rfl, rfl⟩ | ⟨hne, hlookup⟩
    · exact hunserved hrefused
    · rw [← hsame other hne] at hrefused
      exact h.unserved other f hlookup hrefused
  · intro stream size hsize
    rw [failSize_congr (hpolicy stream)] at hsize
    have hroom := hroom stream size hsize
    have hsum := pendingOn_insert hold frame stream
    omega

theorem Enforced.goOn (h : Enforced a threads attached refused)
    (hold : threads.lookup thread = some old)
    (hsame : forall other, other ≠ thread -> refused other = refused' other)
    (hpolicy : forall stream, b.hasPolicy stream = a.hasPolicy stream)
    (hunserved : frame.Unserved)
    (hcurrent : forall stream, b.currentOf stream ≤ a.currentOf stream) :
    Enforced b (threads.insert thread frame) attached refused' := by
  apply h.replace hold hsame hpolicy (fun _ => hunserved)
  intro stream size hsize
  have hwithin := h.within stream size hsize
  have hless := hcurrent stream
  rw [pendingOn_of_pending_none hunserved.left]
  omega

theorem Enforced.stay (h : Enforced a threads attached refused)
    (hold : threads.lookup thread = some old)
    (hunserved : refused thread = true -> frame.Unserved)
    (hpending : frame.pending = old.pending) :
    Enforced a (threads.insert thread frame) attached refused := by
  apply h.replace hold (fun _ _ => rfl) (fun _ => rfl) hunserved
  intro stream size hsize
  have hwithin := h.within stream size hsize
  have hsame : frame.pendingOn stream = old.pendingOn stream := by
    unfold Frame.pendingOn
    rw [hpending]
  omega

/-- A call that starts adds nothing yet. -/
theorem Enforced.newFrame (h : Enforced a threads attached refused)
    (hidle : threads.lookup thread = none) (hunserved : frame.Unserved) :
    Enforced a (threads.insert thread frame) attached refused := by
  constructor
  · intro other f hf hrefused
    rcases Table.lookup_of_lookup_insert hf with ⟨rfl, rfl⟩ | ⟨_, hlookup⟩
    · exact hunserved
    · exact h.unserved other f hlookup hrefused
  · intro stream size hsize
    rw [pendingOn_insert_of_none hidle, pendingOn_of_pending_none hunserved.left,
      Nat.zero_add]
    exact h.within stream size hsize

theorem Enforced.erase (h : Enforced a threads attached refused)
    (hold : threads.lookup thread = some old) :
    Enforced a (threads.erase thread) attached refused := by
  constructor
  · intro other f hf hrefused
    exact h.unserved other f (Table.lookup_of_lookup_erase hf).right hrefused
  · intro stream size hsize
    have hwithin := h.within stream size hsize
    have hsum := pendingOn_erase hold stream
    omega

/-- A charge turns what was admitted into what is counted. -/
theorem Enforced.charged (h : Enforced a threads attached refused)
    (hold : threads.lookup thread = some old) {call : Call} {ptr : Ptr}
    (hpending : old.pending = some call) (spilled : Table Ptr Spilled) :
    Enforced ({ a with hostSpilled := spilled }.chargeStream call.stream call.bytes)
      (threads.insert thread (.done (.returned ptr))) attached refused := by
  have hallowed : refused thread = false := by
    apply h.allowed hold
    rw [hpending]
    exact Option.some_ne_none call
  apply h.replace hold (fun _ _ => rfl)
  · intro stream
    exact hasPolicy_chargeStream _ call.stream call.bytes stream
  · intro hrefused
    rw [hallowed] at hrefused
    cases hrefused
  · intro stream size hsize
    have hwithin := h.within stream size hsize
    have hshare : old.pendingOn stream = call.onStream stream := by
      unfold Frame.pendingOn
      rw [hpending]
    rw [pendingOn_of_pending_none rfl, hshare, Adaptor.currentOf_chargeStream]
    unfold Call.onStream
    split
    · rename_i heq
      subst heq
      have hwrap : wrapSize (a.currentOf call.stream + call.bytes) ≤
          a.currentOf call.stream + call.bytes := Nat.mod_le _ _
      rw [if_pos rfl]
      change wrapSize (a.currentOf call.stream + call.bytes) + _ + 0 ≤ _
      omega
    · rename_i hne
      rw [if_neg (fun heq => hne heq.symm)]
      change a.currentOf stream + _ + 0 ≤ _
      omega

end Frames

/-!
# Steps
-/

/-- The invariant at a state. -/
def State.Enforced (s : State) : Prop :=
  Tracker.Enforced s.core.adaptor s.core.threads s.attached s.refused

section Steps

variable {s t : State} {core : ResourceAdaptor.State} {reservationLimit : Nat}
  {thread : Thread}

/-- The check lets a call through that has room and that the policy does not refuse. -/
theorem State.Enforced.check (h : s.Enforced) {call : Call}
    (hframe : s.core.threads.lookup thread = some (.check call))
    (hok : exceedsLimit reservationLimit (s.core.adaptor.currentOf call.stream) call.bytes =
      false -> s.refuses call = false ∧ s.HasRoom call) :
    Tracker.Enforced (s.core.checkLimit reservationLimit thread call).adaptor
      (s.core.checkLimit reservationLimit thread call).threads s.attached
      (Function.update s.refused thread (s.refuses call)) := by
  have hsame : forall other, other ≠ thread ->
      s.refused other = Function.update s.refused thread (s.refuses call) other :=
    fun other hne => (Function.update_of_ne hne _ _).symm
  have hcurrent := (s.core.adaptor.sameCounters_touch call.stream).current
  have hpolicy := hasPolicy_touch s.core.adaptor call.stream
  unfold State.checkLimit
  split
  · exact Tracker.Enforced.goOn h hframe hsame hpolicy ⟨rfl, rfl⟩
      (fun stream => Nat.le_of_eq (hcurrent stream))
  · rename_i hpasses
    rcases hok (Bool.eq_false_of_not_eq_true hpasses) with ⟨hallowed, hcommitted⟩
    apply Tracker.Enforced.replace h hframe hsame hpolicy
    · intro hrefused
      rw [Function.update_self, hallowed] at hrefused
      cases hrefused
    · intro stream size hsize
      have hwithin := h.within stream size hsize
      rw [hcurrent]
      change _ + call.onStream stream ≤ _
      unfold Call.onStream
      split
      · rename_i heq
        subst heq
        rw [State.HasRoom, hsize] at hcommitted
        change s.core.adaptor.currentOf call.stream +
          pendingOn s.core.threads call.stream + call.bytes ≤ size at hcommitted
        omega
      · omega

/-- A locked section of a call that is past its check. -/
theorem State.Enforced.section (h : s.Enforced)
    (hsection : s.core.tickSection reservationLimit thread = some core)
    (hok : PolicyHeeded reservationLimit s (.call (.proceed thread))) :
    Tracker.Enforced core.adaptor core.threads s.attached
      (s.recordRefusal (.proceed thread)) := by
  unfold State.tickSection at hsection
  simp only [PolicyHeeded] at hok
  simp only [State.recordRefusal]
  split at hsection
  · rename_i call hframe
    cases hsection
    simp only [hframe] at hok ⊢
    exact h.check hframe hok
  · rename_i call ptr hframe
    cases hsection
    simp only [hframe]
    exact Tracker.Enforced.charged h hframe rfl _
  · rename_i call ptr hframe
    cases hsection
    simp only [hframe]
    exact Tracker.Enforced.charged h hframe rfl _
  · rename_i call ptr hframe
    cases hsection
    simp only [hframe]
    exact Tracker.Enforced.charged h hframe rfl s.core.adaptor.hostSpilled
  · rename_i call ptr hframe
    cases hsection
    simp only [hframe]
    unfold ResourceAdaptor.State.deallocCheck
    split
    · exact Tracker.Enforced.goOn h hframe (fun _ _ => rfl)
        (hasPolicy_creditStream _ call.stream call.bytes) ⟨rfl, rfl⟩
        (currentOf_creditStream_le _ call.stream call.bytes)
    · exact Tracker.Enforced.stay h hframe (fun _ => ⟨rfl, rfl⟩) rfl
  · rename_i call ptr hframe
    cases hsection
    simp only [hframe]
    exact Tracker.Enforced.stay h hframe (fun _ => ⟨rfl, rfl⟩) rfl
  · rename_i call hframe
    cases hsection
    simp only [hframe]
    exact Tracker.Enforced.goOn h hframe (fun _ _ => rfl)
      (hasPolicy_creditStream _ call.stream call.bytes) ⟨rfl, rfl⟩
      (currentOf_creditStream_le _ call.stream call.bytes)
  · cases hsection

/-- A call on its way to memory takes its next step there. -/
theorem State.Enforced.onward (h : s.Enforced) {old frame : Frame}
    (hold : s.core.threads.lookup thread = some old) (hasks : old.pending ≠ none)
    (hpending : frame.pending = old.pending) :
    Tracker.Enforced s.core.adaptor (s.core.threads.insert thread frame) s.attached
      s.refused := by
  apply Tracker.Enforced.stay h hold _ hpending
  intro hrefused
  rw [Tracker.Enforced.allowed h hold hasks] at hrefused
  cases hrefused

theorem State.Enforced.taken (h : s.Enforced) {ptr : Ptr} {source : Source}
    {size alignment : Nat} {old frame : Frame}
    (hold : s.core.threads.lookup thread = some old) (hasks : old.pending ≠ none)
    (htake : s.core.take thread ptr source size alignment frame = some core)
    (hpending : frame.pending = old.pending) :
    Tracker.Enforced core.adaptor core.threads s.attached s.refused := by
  unfold ResourceAdaptor.State.take at htake
  split at htake
  · cases htake
  · cases htake
    exact h.onward hold hasks hpending

theorem State.Enforced.request (h : s.Enforced) {result : Option Ptr}
    (hobtain : s.core.tickObtain thread result = some core) :
    Tracker.Enforced core.adaptor core.threads s.attached s.refused := by
  unfold ResourceAdaptor.State.tickObtain at hobtain
  split at hobtain
  · rename_i call ptr hframe
    exact h.taken hframe (Option.some_ne_none call) hobtain rfl
  · rename_i call hframe
    cases hobtain
    exact h.onward hframe (Option.some_ne_none call) rfl
  · rename_i call ptr hframe
    exact h.taken hframe (Option.some_ne_none call) hobtain rfl
  · rename_i call hframe
    cases hobtain
    exact h.onward hframe (Option.some_ne_none call) rfl
  · rename_i call ptr hframe
    exact h.taken hframe (Option.some_ne_none call) hobtain rfl
  · rename_i call hframe
    cases hobtain
    exact Tracker.Enforced.goOn h hframe (fun _ _ => rfl) (fun _ => rfl)
      ⟨rfl, rfl⟩ (fun _ => Nat.le_refl _)
  · cases hobtain

/-- A policy is only asked on a stream where the failing limit policy does not stand
alone. -/
theorem State.Enforced.askPolicy (h : s.Enforced) {call : Call} {failure : Failure}
    {result : PolicyResult} {old : Frame} (hold : s.core.threads.lookup thread = some old)
    (hrecovering : forall ptr size, s.recovers thread (.retried ptr size) =
      s.core.adaptor.hasPolicy call.stream)
    (hask : s.core.askPolicy thread call failure result = some core) :
    Tracker.Enforced core.adaptor core.threads s.attached
      (s.recordRefusal (.handleOom thread result)) := by
  have hsame : forall other, other ≠ thread ->
      s.refused other = s.recordRefusal (.handleOom thread result) other := by
    intro other hne
    simp only [State.recordRefusal]
    split
    · rw [Function.update_of_ne hne]
    · rfl
  have hfailed : forall failure, Tracker.Enforced s.core.adaptor
      (s.core.threads.insert thread (.done (.threw failure))) s.attached
      (s.recordRefusal (.handleOom thread result)) := by
    intro failure
    exact Tracker.Enforced.goOn h hold hsame (fun _ => rfl) ⟨rfl, rfl⟩
      (fun _ => Nat.le_refl _)
  unfold ResourceAdaptor.State.askPolicy at hask
  split at hask
  · rename_i hpolicy
    cases result with
    | threw =>
        cases hask
        exact hfailed _
    | null =>
        cases hask
        exact hfailed _
    | retried ptr size =>
        have hrecord : s.recordRefusal (.handleOom thread (.retried ptr size)) =
            Function.update s.refused thread false := by
          simp only [State.recordRefusal]
          rw [hrecovering, if_pos hpolicy]
        change s.core.take thread ptr .upstream size 0 (.charge call ptr) = some core at hask
        unfold ResourceAdaptor.State.take at hask
        split at hask
        · cases hask
        · cases hask
          apply Tracker.Enforced.replace h hold hsame (fun _ => rfl)
          · intro hrefused
            rw [hrecord, Function.update_self] at hrefused
            cases hrefused
          · intro stream limit hsize
            have hwithin := h.within stream limit hsize
            -- the recovered bytes go to another stream
            have hne : call.stream ≠ stream := by
              intro heq
              rw [heq, hasPolicy_of_failSize hsize] at hpolicy
              cases hpolicy
            have hnothing : Frame.pendingOn stream (.charge call ptr) = 0 := if_neg hne
            rw [hnothing]
            omega
  · cases hask
    exact hfailed _

theorem State.Enforced.handleOom (h : s.Enforced) {result : PolicyResult}
    (hoom : s.core.tickHandleOom thread result = some core) :
    Tracker.Enforced core.adaptor core.threads s.attached
      (s.recordRefusal (.handleOom thread result)) := by
  unfold ResourceAdaptor.State.tickHandleOom at hoom
  split at hoom
  · rename_i call hframe
    exact h.askPolicy hframe (fun _ _ => by simp only [State.recovers, hframe]) hoom
  · rename_i call hframe
    exact h.askPolicy hframe (fun _ _ => by simp only [State.recovers, hframe]) hoom
  · cases hoom

theorem State.Enforced.call {e : ResourceAdaptor.Event} (h : s.Enforced)
    (hok : PolicyHeeded reservationLimit s (.call e))
    (hattach : forall stream oomPolicy, e ≠ .attach stream oomPolicy)
    (hadvance : s.core.advance reservationLimit e = some core) :
    Tracker.Enforced core.adaptor core.threads s.attached (s.recordRefusal e) := by
  cases e with
  | allocate thread call =>
      simp only [ResourceAdaptor.State.advance] at hadvance
      split at hadvance
      · cases hadvance
      · rename_i hidle
        cases hadvance
        exact Tracker.Enforced.newFrame h hidle ⟨rfl, rfl⟩
  | deallocate thread ptr =>
      simp only [ResourceAdaptor.State.advance, ResourceAdaptor.State.startDeallocate]
        at hadvance
      split at hadvance
      · rename_i grant hidle hheld
        split at hadvance
        · cases hadvance
        · cases hadvance
          exact Tracker.Enforced.newFrame h hidle ⟨rfl, rfl⟩
      · cases hadvance
  | attach stream oomPolicy => exact absurd rfl (hattach stream oomPolicy)
  | proceed thread => exact h.section hadvance hok
  | request thread result => exact h.request hadvance
  | handleOom thread result => exact h.handleOom hadvance
  | ret thread =>
      simp only [ResourceAdaptor.State.advance] at hadvance
      split at hadvance
      · rename_i outcome hframe
        cases hadvance
        exact Tracker.Enforced.erase h hframe
      · cases hadvance

/-- Attaching changes the size for one stream only. -/
theorem failSize_attach {attached : Table Stream Attachment} {a : Adaptor}
    {stream other : Stream} {attachment : Attachment} {oomPolicy : Bool} {size : Nat}
    (hsize : failSize (attached.insert stream attachment) (a.attach stream oomPolicy) other =
      some size) :
    (other = stream ∧ oomPolicy = false ∧ exists reservation,
      attachment = ⟨some reservation, some .failLimit⟩ ∧ reservation.size = size) ∨
    failSize attached a other = some size := by
  unfold failSize at hsize ⊢
  rw [hasPolicy_attach, Table.lookup_insert] at hsize
  by_cases heq : other = stream
  · rw [if_pos heq] at hsize
    split at hsize
    · rename_i reservation policy hattachment
      cases hattachment
      rw [if_pos heq] at hsize
      split at hsize
      · rename_i hboth
        cases hsize
        cases policy with
        | failLimit =>
            exact .inl ⟨heq, by simpa [LimitPolicy.isFail] using hboth, reservation, rfl, rfl⟩
        | _ => cases hboth
      · cases hsize
    · cases hsize
  · rw [if_neg heq, if_neg heq] at hsize
    exact .inr hsize

theorem State.Enforced.attach (h : s.Enforced) {stream : Stream}
    {reservation : Option Reservation} {limitPolicy : Option LimitPolicy} {oomPolicy : Bool}
    (hok : PolicyHeeded reservationLimit s
      (.attach stream reservation limitPolicy oomPolicy)) :
    (Tracker.attach s stream reservation limitPolicy oomPolicy).Enforced := by
  have hcurrent := (s.core.adaptor.sameCounters_attach stream oomPolicy).current
  constructor
  · exact h.unserved
  · intro other size hsize
    change (s.core.adaptor.attach stream oomPolicy).currentOf other +
      pendingOn s.core.threads other ≤ size
    rw [hcurrent]
    rcases failSize_attach hsize with ⟨rfl, rfl, attachedReservation, hattachment, rfl⟩ | hkept
    · cases hattachment
      exact hok
    · exact h.within other size hkept

theorem currentOf_resetStream_le (a : Adaptor) (stream other : Stream) :
    (a.resetStream stream).currentOf other ≤ a.currentOf other := by
  unfold Adaptor.resetStream
  split
  · exact Nat.le_refl _
  · unfold Adaptor.currentOf
    rw [Adaptor.tracker_insert]
    split
    · exact Nat.zero_le _
    · exact Nat.le_refl _

theorem hasPolicy_resetStream (a : Adaptor) (stream other : Stream) :
    (a.resetStream stream).hasPolicy other = a.hasPolicy other := by
  rw [hasPolicy_eq, hasPolicy_eq]
  unfold Adaptor.resetStream
  cases hlookup : a.streamTracker.lookup stream with
  | none => rfl
  | some state =>
      rw [Adaptor.tracker_insert]
      split
      · rename_i heq
        rw [heq]
        unfold Adaptor.tracker
        rw [hlookup]
        rfl
      · rfl

theorem State.Enforced.reset (h : s.Enforced) (stream : Stream) :
    (Tracker.reset s stream).Enforced := by
  constructor
  · exact h.unserved
  · intro other size hsize
    change failSize s.attached (s.core.adaptor.resetStream stream) other = some size at hsize
    rw [failSize_congr (hasPolicy_resetStream s.core.adaptor stream other)] at hsize
    have hwithin := h.within other size hsize
    have hless := currentOf_resetStream_le s.core.adaptor stream other
    change (s.core.adaptor.resetStream stream).currentOf other +
      pendingOn s.core.threads other ≤ size
    omega

theorem enforced_step {e : Event} (h : s.Enforced) (hok : PolicyHeeded reservationLimit s e)
    (hstep : (trackerMachine reservationLimit).step s e = some t) : t.Enforced := by
  cases e with
  | call e =>
      rcases stepCall_cases hstep with ⟨core, hattach, hadvance, rfl⟩
      have hnext := h.call hok hattach hadvance
      exact hnext
  | attach stream reservation limitPolicy oomPolicy =>
      cases hstep
      exact h.attach hok
  | reset stream =>
      cases hstep
      exact h.reset stream

/-- Past its check a call stands where the limit alone has put it. -/
theorem decided_by_check {call : Call}
    (hframe : s.core.threads.lookup thread = some (.check call))
    (hstep : (trackerMachine reservationLimit).step s (.call (.proceed thread)) = some t) :
    t.core.threads.lookup thread =
      some (if exceedsLimit reservationLimit (s.core.adaptor.currentOf call.stream)
        call.bytes then .limitExceeded call else .upstream call) := by
  rcases stepCall_cases hstep with ⟨core, _, hadvance, rfl⟩
  change core.threads.lookup thread = _
  simp only [ResourceAdaptor.State.advance, ResourceAdaptor.State.tickSection, hframe,
    Option.some.injEq] at hadvance
  rw [← hadvance]
  unfold State.checkLimit
  split
  · exact Table.lookup_insert_self _ _ _
  · exact Table.lookup_insert_self _ _ _

theorem policyEnforced_step {e : Event} (hnext : t.Enforced)
    (hstep : (trackerMachine reservationLimit).step s e = some t) :
    PolicyEnforced reservationLimit s e t where
  refused_unreturned thread ptr hreturned := by
    by_contra hrefused
    have hunserved := hnext.unserved thread _ hreturned (by simpa using hrefused)
    cases hunserved.right
  decided_by_limit thread call policy heq hframe _ _ := by
    cases heq
    exact decided_by_check hframe hstep
  within_reservation stream size hsize :=
    Nat.le_trans (Nat.le_add_right _ _) (hnext.within stream size hsize)

end Steps

theorem enforced_initial : State.initial.Enforced := by
  constructor
  · intro thread frame hframe
    cases hframe
  · intro stream size hsize
    cases hsize

/--
Attached limit policies are enforced in every run in which the limit refuses what they
refuse, and in which the failing policy is attached, and checks pass, with room for the
calls in flight.
-/
theorem limit_policies_enforced (reservationLimit : Nat) (events : List Event)
    (hok : (trackerMachine reservationLimit).Along (PolicyHeeded reservationLimit)
      State.initial events) :
    (trackerMachine reservationLimit).Throughout (PolicyEnforced reservationLimit)
      State.initial events := by
  apply Machine.throughout_of_invariant _ enforced_initial hok
  intro s e t hs he hstep
  have hnext := enforced_step hs he hstep
  exact ⟨hnext, policyEnforced_step hnext hstep⟩

/-- Ten bytes reserved under the failing policy and a limit of ten, of which six are
allocated; the limit refuses six more, and no policy recovers them. -/
def sixOfTenReserved : List Event :=
  [.attach 1 (some ⟨0, 0, 10⟩) (some .failLimit) false,
    .call (.allocate 0 ⟨1, 6, 0⟩), .call (.proceed 0), .call (.request 0 (some 100)),
    .call (.proceed 0), .call (.ret 0),
    .call (.allocate 0 ⟨1, 6, 0⟩), .call (.proceed 0), .call (.handleOom 0 .null)]

theorem limit_policies_enforced_sixOfTen :
    ((trackerMachine 10).run State.initial sixOfTenReserved).isSome = true ∧
      (trackerMachine 10).Throughout (PolicyEnforced 10) State.initial sixOfTenReserved :=
  ⟨by decide, limit_policies_enforced 10 sixOfTenReserved (by decide)⟩

/-- Twenty bytes allocated under the failing policy and a reservation of ten. -/
def twentyOfTenReserved : List Event :=
  [.attach 1 (some ⟨0, 0, 10⟩) (some .failLimit) false,
    .call (.allocate 0 ⟨1, 20, 0⟩), .call (.proceed 0), .call (.request 0 (some 100)),
    .call (.proceed 0)]

/-- The policy is not asked: the bytes are returned, and the counter is twice the
reservation. -/
theorem failing_policy_not_asked :
    ¬ (trackerMachine 0).Throughout (PolicyEnforced 0) State.initial twentyOfTenReserved ∧
    exists t, (trackerMachine 0).run State.initial twentyOfTenReserved = some t ∧
      t.refused 0 = true ∧ t.core.threads.lookup 0 = some (.done (.returned 100)) ∧
      failSize t.attached t.core.adaptor 1 = some 10 ∧
      t.core.adaptor.currentOf 1 = 20 := by
  refine ⟨?_, _, rfl, rfl, rfl, rfl, rfl⟩
  intro hall
  have hcharge := ((((hall _ rfl).right _ rfl).right _ rfl).right _ rfl).right _ rfl
  have hallowed := hcharge.left.refused_unreturned 0 100 rfl
  exact Bool.noConfusion hallowed

end Tracker
end ResourceAdaptor
end Memory
end Cuda2Rocm
