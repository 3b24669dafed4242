import Cuda2Rocm.Memory.Space.Model

/-!
# The counter of a memory space

The counter is the sum of what the callbacks of live reservations captured and of
what releases in flight still have to give back.  It never exceeds the maximum.
-/

namespace Cuda2Rocm
namespace Memory
namespace Space

open Foundation

/-- What a release in flight still has to take off the counter. -/
def Frame.owed : Frame -> Nat
  | .reserving _ _ _ => 0
  | .releasing bytes _ => bytes
  | .done _ => 0

/-- Bytes of reservations whose release has not reached the counter yet. -/
def State.inFlight (s : State) : Nat := s.threads.sum (fun _ frame => frame.owed)

/-- Sum of `size()` over the live reservations. -/
def State.liveSizes (s : State) : Nat := s.live.sum (fun _ r => r.size)

/-- Sum of the bytes the live reservations' callbacks captured. -/
def State.liveCaptured (s : State) : Nat := s.live.sum (fun _ r => r.captured)

/-- What holds of the counter in every state, grown reservations or not. -/
structure Accounted (s : State) : Prop where
  reserved_eq : s.reserved = s.liveCaptured + s.inFlight
  reserved_le : s.reserved ≤ s.max
  max_le : s.max ≤ sizeMax
  rid_lt : forall rid r, s.live.lookup rid = some r -> rid < s.nextRid
  seen_le : forall thread bytes cur,
    s.threads.lookup thread = some (.releasing bytes (.cas cur)) -> bytes ≤ cur

section Frames

variable {s : State}

theorem inFlight_setFrame {thread : Nat} {old : Frame}
    (h : s.threads.lookup thread = some old) (frame : Frame) :
    (s.setFrame thread frame).inFlight + old.owed = s.inFlight + frame.owed :=
  Table.sum_replace h frame (fun _ f => f.owed)

theorem inFlight_newFrame {thread : Nat} (h : s.threads.lookup thread = none)
    (frame : Frame) : (s.setFrame thread frame).inFlight = frame.owed + s.inFlight :=
  Table.sum_insert_of_none h frame (fun _ f => f.owed)

theorem owed_le_inFlight {thread : Nat} {frame : Frame}
    (h : s.threads.lookup thread = some frame) : frame.owed ≤ s.inFlight :=
  Table.le_sum h (fun _ f => f.owed)

theorem Accounted.setFrame (hinv : Accounted s) {thread : Nat} {frame : Frame}
    (howed : (s.setFrame thread frame).inFlight = s.inFlight)
    (hseen : forall bytes cur, frame = .releasing bytes (.cas cur) -> bytes ≤ cur) :
    Accounted (s.setFrame thread frame) := by
  constructor
  · show s.reserved = s.liveCaptured + (s.setFrame thread frame).inFlight
    rw [howed]
    exact hinv.reserved_eq
  · exact hinv.reserved_le
  · exact hinv.max_le
  · exact hinv.rid_lt
  · intro other bytes cur hlookup
    rcases Table.lookup_of_lookup_insert hlookup with ⟨_, heq⟩ | ⟨_, hold⟩
    · exact hseen bytes cur heq.symm
    · exact hinv.seen_le other bytes cur hold

end Frames

section Steps

variable {s t : State}

theorem releasing_seen_le (hinv : Accounted s) {thread bytes : Nat} {loop : CasLoop}
    (hframe : s.threads.lookup thread = some (.releasing bytes loop)) :
    bytes ≤ s.reserved := by
  have howed := owed_le_inFlight hframe
  have hsum := hinv.reserved_eq
  change bytes ≤ s.inFlight at howed
  omega

theorem accounted_grant (hinv : Accounted s) {thread granted : Nat} {frame : Frame}
    (hframe : s.threads.lookup thread = some frame) (hnothing : frame.owed = 0)
    (hfits : s.reserved + granted ≤ s.max) : Accounted (s.grant thread granted) := by
  have hfresh : s.live.lookup s.nextRid = none := by
    cases hlookup : s.live.lookup s.nextRid with
    | none => rfl
    | some r => exact absurd (hinv.rid_lt s.nextRid r hlookup) (Nat.lt_irrefl _)
  constructor
  · have hlive := Table.sum_insert_of_none hfresh
      { size := granted, captured := granted : Reserved } (fun _ r => r.captured)
    have howed := inFlight_setFrame hframe (.done (.reservation s.nextRid))
    have hsum := hinv.reserved_eq
    rw [hnothing] at howed
    simp only [Frame.owed, Nat.add_zero] at howed
    show s.reserved + granted = (s.live.insert s.nextRid _).sum _ +
      (s.setFrame thread (.done (.reservation s.nextRid))).inFlight
    rw [hlive, howed]
    change s.reserved + granted = granted + s.liveCaptured + s.inFlight
    omega
  · exact hfits
  · exact hinv.max_le
  · intro rid r hlookup
    rcases Table.lookup_of_lookup_insert hlookup with ⟨rfl, _⟩ | ⟨_, hold⟩
    · exact Nat.lt_succ_self _
    · exact Nat.lt_succ_of_lt (hinv.rid_lt rid r hold)
  · intro other b cur hlookup
    rcases Table.lookup_of_lookup_insert hlookup with ⟨_, heq⟩ | ⟨_, hold⟩
    · cases heq
    · exact hinv.seen_le other b cur hold

theorem accounted_tickReserving (hinv : Accounted s) {thread : Nat} {flavor : Flavor}
    {bytes : Nat} {loop : CasLoop} (spurious : Bool)
    (hframe : s.threads.lookup thread = some (.reserving flavor bytes loop)) :
    Accounted (s.tickReserving thread flavor bytes loop spurious) := by
  rcases tickReserving_cases s thread flavor bytes loop spurious with
    h | ⟨cur, _, _, h⟩ | ⟨granted, _, hgranted, h⟩
  · rw [h]
    apply hinv.setFrame
    · have howed := inFlight_setFrame hframe (.reserving flavor bytes (.cas s.reserved))
      simpa [Frame.owed] using howed
    · intro b cur heq
      cases heq
  · rw [h]
    apply hinv.setFrame
    · have howed := inFlight_setFrame hframe (.done flavor.refusal)
      simpa [Frame.owed] using howed
    · intro b cur heq
      cases heq
  · rw [h]
    have hfits := amount_fits hgranted
    have hle := hinv.reserved_le
    exact accounted_grant hinv hframe rfl (by omega)

theorem accounted_tickReleasing (hinv : Accounted s) {thread bytes : Nat}
    {loop : CasLoop} (spurious : Bool)
    (hframe : s.threads.lookup thread = some (.releasing bytes loop)) :
    Accounted (s.tickReleasing thread bytes loop spurious) := by
  have hreserved := releasing_seen_le hinv hframe
  unfold State.tickReleasing
  rcases loop.step_cases (releaseNext bytes) spurious s.reserved with
    ⟨h, _⟩ | ⟨cur, hloop, hnone, h⟩ | ⟨next, _, hnext, h⟩
  · rw [h]
    apply hinv.setFrame
    · have howed := inFlight_setFrame hframe (.releasing bytes (.cas s.reserved))
      simpa [Frame.owed] using howed
    · intro b cur heq
      cases heq
      exact hreserved
  · -- the values seen never fall below what is owed, so the loop does not give up
    subst hloop
    rw [releaseNext_of_le (hinv.seen_le thread bytes cur hframe)] at hnone
    cases hnone
  · rw [h]
    have hnext' := releaseNext_some hnext
    constructor
    · have howed := inFlight_setFrame hframe (.done .released)
      have hsum := hinv.reserved_eq
      simp only [Frame.owed, Nat.add_zero] at howed
      show next = s.liveCaptured + (s.setFrame thread (.done .released)).inFlight
      omega
    · show next ≤ s.max
      have hle := hinv.reserved_le
      omega
    · exact hinv.max_le
    · exact hinv.rid_lt
    · intro other b cur hlookup
      rcases Table.lookup_of_lookup_insert hlookup with ⟨_, heq⟩ | ⟨_, hold⟩
      · cases heq
      · exact hinv.seen_le other b cur hold

theorem accounted_destroy (hinv : Accounted s) {thread rid : Nat} {r : Reserved}
    (hfree : s.threads.lookup thread = none) (hlive : s.live.lookup rid = some r) :
    Accounted { s with
      live := s.live.erase rid
      threads := s.threads.insert thread (.releasing r.captured .load) } := by
  constructor
  · have hsplit := Table.sum_of_lookup hlive (fun _ r => r.captured)
    have howed := inFlight_newFrame hfree (.releasing r.captured .load)
    have hsum := hinv.reserved_eq
    show s.reserved = (s.live.erase rid).sum _ +
      (s.setFrame thread (.releasing r.captured .load)).inFlight
    rw [howed]
    change s.liveCaptured = _ at hsplit
    simp only [Frame.owed]
    omega
  · exact hinv.reserved_le
  · exact hinv.max_le
  · intro other r' hlookup
    exact hinv.rid_lt other r' (Table.lookup_of_lookup_erase hlookup).right
  · intro other b cur hlookup
    rcases Table.lookup_of_lookup_insert hlookup with ⟨_, heq⟩ | ⟨_, hold⟩
    · cases heq
    · exact hinv.seen_le other b cur hold

theorem accounted_growBy (hinv : Accounted s) {rid size : Nat} {r : Reserved}
    (hlive : s.live.lookup rid = some r) :
    Accounted { s with live := s.live.insert rid { r with size := size } } := by
  constructor
  · have hsplit := Table.sum_replace hlive { r with size := size }
      (fun _ r => r.captured)
    have hsum := hinv.reserved_eq
    show s.reserved = (s.live.insert rid { r with size := size }).sum _ + s.inFlight
    rw [Nat.add_right_cancel hsplit]
    exact hsum
  · exact hinv.reserved_le
  · exact hinv.max_le
  · intro other r' hlookup
    rcases Table.lookup_of_lookup_insert hlookup with ⟨rfl, _⟩ | ⟨_, hold⟩
    · exact hinv.rid_lt _ r hlive
    · exact hinv.rid_lt other r' hold
  · exact hinv.seen_le

theorem accounted_ret (hinv : Accounted s) {thread : Nat} {outcome : Outcome}
    (hframe : s.threads.lookup thread = some (.done outcome)) :
    Accounted { s with threads := s.threads.erase thread } := by
  constructor
  · have hsplit := Table.sum_of_lookup hframe (fun _ f => f.owed)
    have hsum := hinv.reserved_eq
    show s.reserved = s.liveCaptured + (s.threads.erase thread).sum _
    change s.inFlight = 0 + _ at hsplit
    rw [Nat.zero_add] at hsplit
    rw [← hsplit]
    exact hsum
  · exact hinv.reserved_le
  · exact hinv.max_le
  · exact hinv.rid_lt
  · intro other b cur hlookup
    exact hinv.seen_le other b cur (Table.lookup_of_lookup_erase hlookup).right

theorem accounted_step {e : Event} (hinv : Accounted s) (h : step s e = some t) :
    Accounted t := by
  cases step_move h with
  | reserve hidle _ =>
      apply hinv.setFrame
      · rw [inFlight_newFrame hidle]
        exact Nat.zero_add _
      · intro b cur heq
        cases heq
  | destroy hidle hlive => exact accounted_destroy hinv hidle hlive
  | growBy hlive => exact accounted_growBy hinv hlive
  | tickReserving hframe => exact accounted_tickReserving hinv _ hframe
  | tickReleasing hframe => exact accounted_tickReleasing hinv _ hframe
  | ret hframe => exact accounted_ret hinv hframe

end Steps

theorem accounted_initial (max : UInt64) : Accounted (State.initial max) := by
  constructor
  · rfl
  · exact Nat.zero_le _
  · have h := max.toNat_lt
    show max.toNat ≤ sizeMax
    unfold sizeMax
    omega
  · intro rid r hlookup
    cases hlookup
  · intro thread bytes cur hlookup
    cases hlookup

theorem accounted_run {max : UInt64} {events : List Event} {s : State}
    (h : spaceMachine.run (State.initial max) events = some s) : Accounted s := by
  have hstep : forall s e t, Accounted s -> spaceMachine.step s e = some t ->
      Accounted t := fun _ _ _ hinv hs => accounted_step hinv hs
  exact Machine.invariant_run_always hstep (accounted_initial max) h

/-!
# Sizes of live reservations

Only growth separates the size of a live reservation from what its callback gives
back.
-/

/-- The sizes of the live reservations, with the releases in flight, make up the
counter and stay within the maximum. -/
def SizesMatchReserved (s : State) : Prop :=
  s.liveSizes + s.inFlight = s.reserved ∧ s.liveSizes ≤ s.max

/-- No `grow_by` changes the size of an arena. -/
def GrowsNothing (s : State) : Event -> Prop
  | .growBy rid n => forall r, s.live.lookup rid = some r ->
      n = 0 ∨ r.size = sizeMax
  | _ => True

/-- Accounts of a space none of whose live reservations has grown. -/
structure Ungrown (s : State) : Prop where
  accounted : Accounted s
  size_eq : forall rid r, s.live.lookup rid = some r -> r.size = r.captured

theorem Ungrown.liveSizes_eq {s : State} (h : Ungrown s) :
    s.liveSizes = s.liveCaptured :=
  Table.sum_congr h.size_eq

theorem Ungrown.sizesMatchReserved {s : State} (h : Ungrown s) :
    SizesMatchReserved s := by
  have hsum := h.accounted.reserved_eq
  have hmax := h.accounted.reserved_le
  have heq := h.liveSizes_eq
  constructor
  · omega
  · omega

theorem Ungrown.size_le {s : State} (h : Ungrown s) {rid : Nat} {r : Reserved}
    (hlive : s.live.lookup rid = some r) : r.size ≤ sizeMax := by
  have hshare : r.captured ≤ s.liveCaptured := Table.le_sum hlive (fun _ r => r.captured)
  have hsum := h.accounted.reserved_eq
  have hmax := h.accounted.reserved_le
  have hword := h.accounted.max_le
  rw [h.size_eq rid r hlive]
  omega

/-- Apart from growth no step separates a size from the captured bytes. -/
theorem ungrown_step {s t : State} {e : Event} (hinv : Ungrown s)
    (hok : GrowsNothing s e) (h : step s e = some t) : Ungrown t := by
  refine ⟨accounted_step hinv.accounted h, ?_⟩
  cases step_move h with
  | reserve _ _ => exact hinv.size_eq
  | destroy _ _ =>
      intro other r hlookup
      exact hinv.size_eq other r (Table.lookup_of_lookup_erase hlookup).right
  | @growBy rid n r hlive =>
      intro other r' hlookup
      rcases Table.lookup_of_lookup_insert hlookup with ⟨_, rfl⟩ | ⟨_, hold⟩
      · show Memory.growBy r.size n = r.captured
        rw [(growBy_eq_self_iff (hinv.size_le hlive)).mpr (hok r hlive)]
        exact hinv.size_eq rid r hlive
      · exact hinv.size_eq other r' hold
  | @tickReserving thread spurious flavor bytes loop _ =>
      rcases tickReserving_cases s thread flavor bytes loop spurious with
        heq | ⟨_, _, _, heq⟩ | ⟨granted, _, _, heq⟩
      · rw [heq]
        exact hinv.size_eq
      · rw [heq]
        exact hinv.size_eq
      · rw [heq]
        intro other r' hlookup
        rcases Table.lookup_of_lookup_insert hlookup with ⟨_, rfl⟩ | ⟨_, hold⟩
        · rfl
        · exact hinv.size_eq other r' hold
  | tickReleasing _ =>
      unfold State.tickReleasing
      split
      · exact hinv.size_eq
      · exact hinv.size_eq
      · exact hinv.size_eq
  | ret _ => exact hinv.size_eq

/-- A growth that changes a size leaves the counter behind. -/
theorem growsNothing_of_match {s t : State} {e : Event} (hinv : Ungrown s)
    (h : step s e = some t) (hgood : SizesMatchReserved t) : GrowsNothing s e := by
  cases e with
  | growBy rid n =>
      intro r hlive
      have ht : t = { s with
          live := s.live.insert rid
            { r with size := Memory.growBy r.size n } } := by
        simp only [step, hlive] at h
        exact (Option.some.inj h).symm
      subst ht
      have hsplit := Table.sum_replace hlive
        { r with size := Memory.growBy r.size n } (fun _ r => r.size)
      have hbefore := hinv.sizesMatchReserved.left
      have hafter := hgood.left
      change _ + s.inFlight = s.reserved at hafter
      change s.liveSizes + s.inFlight = s.reserved at hbefore
      change _ + r.size = s.liveSizes + Memory.growBy r.size n at hsplit
      unfold State.liveSizes at hafter
      apply (growBy_eq_self_iff (hinv.size_le hlive)).mp
      simp only at hafter
      omega
  | reserve thread flavor bytes => trivial
  | destroy thread rid => trivial
  | tick thread spurious => trivial
  | ret thread => trivial

theorem ungrown_initial (max : UInt64) : Ungrown (State.initial max) := by
  refine ⟨accounted_initial max, ?_⟩
  intro rid r hlookup
  cases hlookup

/-- On a memory space, sizes and counter agree in every state reached exactly when
no `grow_by` changes a size. -/
theorem sizesMatchReserved_iff (max : UInt64) (events : List Event) :
    spaceMachine.Reaches SizesMatchReserved (State.initial max) events <->
      spaceMachine.Along GrowsNothing (State.initial max) events := by
  have hstep : forall s e t, Ungrown s -> GrowsNothing s e ->
      spaceMachine.step s e = some t -> Ungrown t ∧ SizesMatchReserved t := by
    intro s e t hinv hok h
    have hnext := ungrown_step hinv hok h
    exact ⟨hnext, hnext.sizesMatchReserved⟩
  have hfail : forall s e t, Ungrown s -> spaceMachine.step s e = some t ->
      SizesMatchReserved t -> GrowsNothing s e :=
    fun s e t hinv h hgood => growsNothing_of_match hinv h hgood
  exact Machine.throughout_iff_along hstep hfail (ungrown_initial max)

end Space
end Memory
end Cuda2Rocm
