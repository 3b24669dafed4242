import Cuda2Rocm.Memory.ReservationManager.BesideOthers

/-!
# The counters of all spaces

What is reserved on a space is what clients hold there, what requests have reserved there
and not returned yet, and what destructors have not given back yet.
-/

namespace Cuda2Rocm
namespace Memory
namespace ReservationManager

open Foundation

namespace Lifecycle

/-- The bytes of a reservation on a space. -/
def Held.on (space : Nat) (held : Held) : Nat := if held.space = space then held.bytes else 0

/-- The bytes on a space that a call is answerable for. -/
def Frame.on (space : Nat) : Frame -> Nat
  | .requesting request (.count i) => if i = space then request.bytes else 0
  | .requesting _ (.returned (.reservation i size)) => if i = space then size else 0
  | .releasing i bytes _ => if i = space then bytes else 0
  | _ => 0

/-- The bytes on a space that anybody is answerable for. -/
def State.heldOn (s : State) (space : Nat) : Nat :=
  s.live.sum (fun _ held => held.on space) + s.threads.sum (fun _ frame => frame.on space)

/-- `get_max_memory` of a space; a space that is not there has no room. -/
def maxAt (spaces : List SpaceInfo) (space : Nat) : Nat :=
  match spaces[space]? with
  | none => 0
  | some info => info.max

/-- A destructor has seen no less than what it gives back. -/
def Frame.SeesEnough : Frame -> Prop
  | .releasing _ bytes (.cas cur) => bytes ≤ cur
  | _ => True

structure Accounted (spaces : List SpaceInfo) (s : State) : Prop where
  exact : forall space, s.reserved space = s.heldOn space
  fits : forall space, s.reserved space ≤ maxAt spaces space
  seen : s.Each Frame.SeesEnough

section Steps

variable {spaces : List SpaceInfo} {s t : State} {e : Event} {thread : Thread} {old frame : Frame}

theorem heldOn_insert (h : s.threads.lookup thread = some old)
    (hthreads : t.threads = s.threads.insert thread frame) (hlive : t.live = s.live)
    (space : Nat) : t.heldOn space + old.on space = s.heldOn space + frame.on space := by
  have hsum := Table.sum_replace h frame (fun _ frame => frame.on space)
  unfold State.heldOn
  rw [hthreads, hlive]
  omega

theorem heldOn_insert_new (h : s.threads.lookup thread = none)
    (hthreads : t.threads = s.threads.insert thread frame) (hlive : t.live = s.live)
    (space : Nat) : t.heldOn space = s.heldOn space + frame.on space := by
  have hsum := Table.sum_insert_of_none h frame (fun _ frame => frame.on space)
  unfold State.heldOn
  rw [hthreads, hlive]
  omega

theorem on_le_heldOn (h : s.threads.lookup thread = some frame) (space : Nat) :
    frame.on space ≤ s.heldOn space := by
  have hle := Table.le_sum h (fun _ frame => frame.on space)
  unfold State.heldOn
  omega

/-- A step that leaves the counters and what everybody is answerable for. -/
theorem Accounted.keep (h : Accounted spaces s) (hreserved : t.reserved = s.reserved)
    (hheld : forall space, t.heldOn space = s.heldOn space) (hseen : t.Each Frame.SeesEnough) :
    Accounted spaces t where
  exact := by
    intro space
    rw [hreserved, hheld]
    exact h.exact space
  fits := by
    intro space
    rw [hreserved]
    exact h.fits space
  seen := hseen

/-- A call goes on, and is answerable for the same bytes. -/
theorem Accounted.goesOn (h : Accounted spaces s) (hold : s.threads.lookup thread = some old)
    (hthreads : t.threads = s.threads.insert thread frame) (hlive : t.live = s.live)
    (hreserved : t.reserved = s.reserved) (hon : forall space, frame.on space = old.on space)
    (hseen : frame.SeesEnough) : Accounted spaces t := by
  apply h.keep hreserved
  · intro space
    have hsum := heldOn_insert hold hthreads hlive space
    rw [hon space] at hsum
    exact Nat.add_right_cancel hsum
  · exact h.seen.insert hthreads hseen

/-- A call begins, answerable for nothing. -/
theorem Accounted.begins (h : Accounted spaces s) (hidle : s.threads.lookup thread = none)
    (hthreads : t.threads = s.threads.insert thread frame) (hlive : t.live = s.live)
    (hreserved : t.reserved = s.reserved) (hon : forall space, frame.on space = 0)
    (hseen : frame.SeesEnough) : Accounted spaces t := by
  apply h.keep hreserved
  · intro space
    rw [heldOn_insert_new hidle hthreads hlive space, hon space]
    rfl
  · exact h.seen.insert hthreads hseen

theorem accounted_destroy (h : Accounted spaces s) {addr : Addr} {held : Held}
    (hidle : s.threads.lookup thread = none) (hlive : s.live.lookup addr = some held) :
    Accounted spaces { s with
      live := s.live.erase addr
      threads := s.threads.insert thread (.releasing held.space held.bytes .load) } := by
  refine h.keep rfl ?_ (h.seen.insert rfl trivial)
  intro space
  have hthreads := Table.sum_insert_of_none hidle (.releasing held.space held.bytes .load)
    (fun _ (frame : Frame) => frame.on space)
  have hsum := Table.sum_of_lookup hlive (fun _ held => held.on space)
  have hsame : (Frame.releasing held.space held.bytes .load).on space = held.on space := rfl
  unfold State.heldOn
  dsimp only
  omega

theorem accounted_ended (h : Accounted spaces s) (hframe : s.threads.lookup thread = some frame)
    (hnothing : forall space, frame.on space = 0) :
    Accounted spaces { s with threads := s.threads.erase thread } := by
  refine h.keep rfl ?_ (h.seen.erase rfl)
  intro space
  have hsum := Table.sum_of_lookup hframe (fun _ frame => frame.on space)
  have hzero := hnothing space
  unfold State.heldOn
  dsimp only
  omega

theorem accounted_handOver (h : Accounted spaces s) {addr : Addr} {request : Request}
    {i size : Nat}
    (hframe : s.threads.lookup thread =
      some (.requesting request (.returned (.reservation i size))))
    (hfree : s.live.lookup addr = none) :
    Accounted spaces { s with
      live := s.live.insert addr { space := i, bytes := size }
      threads := s.threads.erase thread } := by
  refine h.keep rfl ?_ (h.seen.erase rfl)
  intro space
  have hthreads := Table.sum_of_lookup hframe (fun _ frame => frame.on space)
  have hsum := Table.sum_insert_of_none hfree { space := i, bytes := size }
    (fun _ (held : Held) => held.on space)
  have hsame : (Frame.requesting request (.returned (.reservation i size))).on space =
      Held.on space { space := i, bytes := size } := rfl
  unfold State.heldOn
  dsimp only
  omega

theorem accounted_returnCall (h : Accounted spaces s) {addr : Addr}
    (hret : s.returnCall thread addr = some t) : Accounted spaces t := by
  unfold State.returnCall at hret
  split at hret
  · rename_i hframe
    cases hret
    exact accounted_ended h hframe (fun _ => rfl)
  · rename_i request i size hframe
    split at hret
    · cases hret
    · rename_i hfree
      cases hret
      exact accounted_handOver h hframe hfree
  · rename_i request answer hnot hframe
    cases hret
    apply accounted_ended h hframe
    intro space
    cases answer with
    | reservation i size => exact absurd rfl (hnot i size)
    | null => rfl
    | threw text => rfl
  · cases hret

/-!
# Commits
-/

/-- What a request is answerable for changes with the counters. -/
theorem tick_on {request : Request} {spurious : Bool} {r u : ReservationManager.State}
    (h : Tick request spurious r u) (space : Nat) :
    u.reserved space + (Frame.requesting request r.pc).on space =
      r.reserved space + (Frame.requesting request u.pc).on space := by
  cases h with
  | @win i next hpc hnext =>
      rcases reserveNext_some (by decide) hnext with ⟨rfl, _⟩
      rw [hpc]
      by_cases hspace : space = i
      · rw [hspace]
        simp [Frame.on, State.setPc, State.setReserved]
      · simp [Frame.on, State.setPc, State.setReserved, Function.update_of_ne hspace,
          Ne.symm hspace]
  | @winOrNull i next lost hpc hnext =>
      rcases reserveNext_some (by decide) hnext with ⟨rfl, _⟩
      rw [hpc]
      by_cases hspace : space = i
      · rw [hspace]
        simp [Frame.on, State.setPc, State.setReserved]
      · simp [Frame.on, State.setPc, State.setReserved, Function.update_of_ne hspace,
          Ne.symm hspace]
  | found hpc _ => rw [hpc]; rfl
  | short hpc _ _ => rw [hpc]; rfl
  | skip hpc _ _ => rw [hpc]; rfl
  | searched hpc _ => rw [hpc]; rfl
  | retry hpc _ => rw [hpc]; rfl
  | lose hpc _ => rw [hpc]; rfl
  | scanFound hpc _ => rw [hpc]; rfl
  | scanSkip hpc _ _ => rw [hpc]; rfl
  | scanEnd hpc _ _ => rw [hpc]; rfl
  | retryOrNull hpc _ => rw [hpc]; rfl
  | refuse hpc _ => rw [hpc]; rfl
  | count hpc => rw [hpc]; rfl

theorem maxOf_le_maxAt {request : Request}
    (h : request.spaces = s.allSpaces spaces) (space : Nat) :
    request.maxOf space ≤ maxAt spaces space := by
  unfold Request.maxOf maxAt
  rw [h]
  unfold State.allSpaces
  cases s.spacesAlive with
  | true => exact Nat.le_refl _
  | false => exact Nat.zero_le _

theorem le_of_available {max cur bytes : Nat} (h : bytes ≤ Space.available max cur) :
    bytes = 0 ∨ cur + bytes ≤ max := by
  unfold Space.available at h
  split at h <;> omega

theorem accounted_search (h : Accounted spaces s) (hspaces : SeesSpaces spaces s)
    {spurious : Bool} {request : Request} {pc : Pc} {u : ReservationManager.State}
    (hframe : s.threads.lookup thread = some (.requesting request pc))
    (htick : ({ start s.reserved s.activeReservations with pc := pc }).tick request spurious =
      some u) :
    Accounted spaces { s with
      reserved := u.reserved
      activeReservations := u.activeReservations
      threads := s.threads.insert thread (.requesting request u.pc) } := by
  constructor
  · intro space
    have hheld := heldOn_insert (t := { s with
      reserved := u.reserved
      activeReservations := u.activeReservations
      threads := s.threads.insert thread (.requesting request u.pc) }) hframe rfl rfl space
    have hon := tick_on (tick_cases htick) space
    have hexact := h.exact space
    change u.reserved space + (Frame.requesting request pc).on space =
      s.reserved space + (Frame.requesting request u.pc).on space at hon
    dsimp only at hheld ⊢
    omega
  · intro space
    have hfits := h.fits space
    rcases tick_reserved_cases (tick_cases htick) with hsame | ⟨i, hroom, hupdated⟩
    · dsimp only
      rw [hsame]
      exact hfits
    · dsimp only
      rw [hupdated]
      by_cases hspace : space = i
      · rw [hspace, Function.update_self]
        rw [hspace] at hfits
        have hmax := maxOf_le_maxAt (hspaces _ _ _ hframe) i
        change request.bytes ≤ Space.available (request.maxOf i) (s.reserved i) at hroom
        change s.reserved i + request.bytes ≤ maxAt spaces i
        rcases le_of_available hroom with hzero | hle <;> omega
      · rw [Function.update_of_ne hspace]
        exact hfits
  · exact h.seen.insert rfl trivial

/-- A destructor finds no less than it gives back. -/
theorem bytes_le_reserved (h : Accounted spaces s) {i bytes : Nat} {loop : CasLoop}
    (hframe : s.threads.lookup thread = some (.releasing i bytes loop)) :
    bytes ≤ s.reserved i := by
  have hle := on_le_heldOn hframe i
  rw [← h.exact i] at hle
  simpa [Frame.on] using hle

/-- No destructor keeps what it should give back. -/
theorem never_gives_up (h : Accounted spaces s) {i bytes : Nat} {loop : CasLoop}
    (hframe : s.threads.lookup thread = some (.releasing i bytes loop)) (spurious : Bool) :
    loop.step (Space.releaseNext bytes) spurious (s.reserved i) ≠ .gaveUp := by
  intro hgave
  rcases loop.step_cases (Space.releaseNext bytes) spurious (s.reserved i) with
    ⟨hstep, _⟩ | ⟨cur, hloop, hnone, _⟩ | ⟨next, _, _, hstep⟩
  · rw [hstep] at hgave
    cases hgave
  · have hseen : Frame.SeesEnough (.releasing i bytes loop) := h.seen _ _ hframe
    rw [hloop] at hseen
    rw [Space.releaseNext_of_le hseen] at hnone
    cases hnone
  · rw [hstep] at hgave
    cases hgave

theorem accounted_releasing (h : Accounted spaces s) {i bytes : Nat} {loop : CasLoop}
    (hframe : s.threads.lookup thread = some (.releasing i bytes loop)) (spurious : Bool) :
    Accounted spaces (s.tickReleasing thread i bytes loop spurious) := by
  have hheld := bytes_le_reserved h hframe
  have hgives := never_gives_up h hframe spurious
  unfold State.tickReleasing
  split
  · rename_i loop' hagain
    refine h.goesOn hframe rfl rfl rfl (fun _ => rfl) ?_
    rcases loop.step_cases (Space.releaseNext bytes) spurious (s.reserved i) with
      ⟨hstep, _⟩ | ⟨cur, _, _, hstep⟩ | ⟨next, _, _, hstep⟩
    · rw [hstep] at hagain
      cases hagain
      exact hheld
    · rw [hstep] at hagain
      cases hagain
    · rw [hstep] at hagain
      cases hagain
  · rename_i hgave
    exact absurd hgave hgives
  · rename_i next hcommitted
    have hnext : s.reserved i = next + bytes := by
      rcases loop.step_cases (Space.releaseNext bytes) spurious (s.reserved i) with
        ⟨hstep, _⟩ | ⟨cur, _, _, hstep⟩ | ⟨next', _, hsome, hstep⟩
      · rw [hstep] at hcommitted
        cases hcommitted
      · rw [hstep] at hcommitted
        cases hcommitted
      · rw [hstep] at hcommitted
        cases hcommitted
        exact Space.releaseNext_some hsome
    constructor
    · intro space
      have hsum := heldOn_insert (t := { s with
        reserved := Function.update s.reserved i next
        threads := s.threads.insert thread .readingFlag }) hframe rfl rfl space
      have hexact := h.exact space
      dsimp only
      by_cases hspace : space = i
      · subst hspace
        rw [Function.update_self]
        simp only [Frame.on, if_true] at hsum
        omega
      · rw [Function.update_of_ne hspace]
        simp only [Frame.on, if_neg (Ne.symm hspace)] at hsum
        omega
    · intro space
      have hfits := h.fits space
      dsimp only
      by_cases hspace : space = i
      · subst hspace
        rw [Function.update_self]
        omega
      · rw [Function.update_of_ne hspace]
        exact hfits
    · exact h.seen.insert rfl trivial

theorem accounted_step (h : Accounted spaces s) (hspaces : SeesSpaces spaces s)
    (hstep : step spaces s e = some t) : Accounted spaces t := by
  cases e with
  | ret thread addr => exact accounted_returnCall h hstep
  | tick thread spurious =>
      cases step_move hstep with
      | search hframe hroom htick => exact accounted_search h hspaces hframe htick
      | readSet hframe hflag => exact h.goesOn hframe rfl rfl rfl (fun _ => rfl) trivial
      | readUnset hframe hflag => exact h.goesOn hframe rfl rfl rfl (fun _ => rfl) trivial
      | decrement hframe => exact h.goesOn hframe rfl rfl rfl (fun _ => rfl) trivial
      | storeFlag hframe => exact h.goesOn hframe rfl rfl rfl (fun _ => rfl) trivial
      | clear hframe => exact h.goesOn hframe rfl rfl rfl (fun _ => rfl) trivial
      | storeZero hframe => exact h.goesOn hframe rfl rfl rfl (fun _ => rfl) trivial
      | @releasing thread' spurious' i bytes loop loop' hframe =>
          simp only [step, State.tickFrame, hframe] at hstep
          rw [← Option.some.inj hstep]
          exact accounted_releasing h hframe spurious
      | @released thread' spurious' i bytes loop reserved hframe =>
          simp only [step, State.tickFrame, hframe] at hstep
          rw [← Option.some.inj hstep]
          exact accounted_releasing h hframe spurious
  | request thread strategy bytes =>
      cases step_move hstep with
      | request hidle halive hshut => exact h.begins hidle rfl rfl rfl (fun _ => rfl) trivial
  | destroy thread addr =>
      cases step_move hstep with
      | destroy hidle hlive => exact accounted_destroy h hidle hlive
  | shutdown thread =>
      cases step_move hstep with
      | shutdown hidle halive hrequest hshut =>
          exact h.begins hidle rfl rfl rfl (fun _ => rfl) trivial
  | destroyManager =>
      cases step_move hstep with
      | destroyManager halive hrequest hshut =>
          exact h.keep rfl (fun _ => rfl) h.seen

end Steps

/-!
# Every run
-/

/-- What holds of the counters of spaces that are there. -/
structure CountersExact (spaces : List SpaceInfo) (s : State) : Prop where
  /-- What is reserved is what somebody is answerable for. -/
  exact : forall space, s.reserved space = s.heldOn space
  /-- No space is promised beyond its limit. -/
  fits : forall space, s.reserved space ≤ maxAt spaces space
  /-- Destructors give back what their reservations took. -/
  given_back : forall thread space bytes loop spurious,
    s.threads.lookup thread = some (.releasing space bytes loop) ->
      loop.step (Space.releaseNext bytes) spurious (s.reserved space) ≠ .gaveUp

/-- Requests and destructors of any number of threads lose and invent no reserved byte on
any space, until `shutdown` has cleared the spaces. -/
theorem reservations_accounted (spaces : List SpaceInfo) (events : List Event) (s : State)
    (hrun : (lifecycleMachine spaces).run State.initial events = some s)
    (_halive : s.spacesAlive = true) : CountersExact spaces s := by
  have hinitial : Accounted spaces State.initial ∧ Phases State.initial ∧
      SeesSpaces spaces State.initial := by
    constructor
    · constructor
      · exact fun _ => rfl
      · exact fun _ => Nat.zero_le _
      · intro thread frame hlookup
        cases hlookup
    · constructor
      · exact phases_initial
      · intro thread request pc hlookup
        cases hlookup
  have hkept : forall (u : State) e v,
      (Accounted spaces u ∧ Phases u ∧ SeesSpaces spaces u) ->
      (lifecycleMachine spaces).step u e = some v ->
      Accounted spaces v ∧ Phases v ∧ SeesSpaces spaces v := by
    intro u e v hu h
    have hmove := step_move h
    exact ⟨accounted_step hu.left hu.right.right h, phases_move hu.right.left hmove,
      seesSpaces_move hu.right.right hu.right.left hmove⟩
  have hs := (Machine.invariant_run_always hkept hinitial hrun).left
  constructor
  · exact hs.exact
  · exact hs.fits
  · intro thread space bytes loop spurious hframe
    exact never_gives_up hs hframe spurious

/-- A reservation is on its way back while another request holds what it has reserved. -/
def halfway : List Event :=
  [.request 0 twoSpaces.strategy 7, .tick 0 false, .tick 0 false, .tick 0 false, .tick 0 false,
    .ret 0 100, .destroy 0 100, .tick 0 false, .request 1 twoSpaces.strategy 3, .tick 1 false,
    .tick 1 false, .tick 1 false]

theorem reservations_accounted_halfway : exists s,
    (lifecycleMachine twoSpaces.spaces).run State.initial halfway = some s ∧
    s.reserved 0 = 10 ∧ CountersExact twoSpaces.spaces s :=
  ⟨_, rfl, rfl, reservations_accounted twoSpaces.spaces halfway _ rfl rfl⟩

end Lifecycle

end ReservationManager
end Memory
end Cuda2Rocm
