import Cuda2Rocm.Memory.FixedSizeHost.Isolation
import Cuda2Rocm.Memory.FixedSizeHost.OwnSteps

/-!
# The guarantee of a reservation

What a reservation has room for is allocated under it without a charge to the counter,
whatever other clients do.  A tracker may fall behind the allocations under its
reservation, when deallocations of orphans find it; it must not run ahead of them, as it
does when allocations are lost.
-/

namespace Cuda2Rocm
namespace Memory
namespace FixedSizeHost

open Foundation

/-- A live reservation, of a size that a signed word holds, has room for the bytes beside
the live allocations under it. -/
def State.HasRoom (s : State) (ref : ArenaRef) (bytes : Nat) : Prop :=
  exists arena, s.arenas.lookup ref.addr = some arena ∧ arena.rid = ref.rid ∧
    arena.held = true ∧ arena.size < 2 ^ 63 ∧
    liveUnder (own ref.addr ref.rid) s.liveAllocs + bytes ≤ arena.size

/-- What can still be allocated under a live reservation. -/
def State.roomOf (s : State) (ref : ArenaRef) : Option Nat :=
  match s.arenas.lookup ref.addr with
  | none => none
  | some arena =>
      if arena.rid = ref.rid ∧ arena.held = true then
        some (arena.size - liveUnder (own ref.addr ref.rid) s.liveAllocs)
      else none

/-- A call of `allocate_multiple_blocks` that goes through without a charge: it has
succeeded, or failed in `hipMallocHost` or after it, or is on its way to one of these. -/
inductive Frame.Honoured (bytes : Nat) (ref : ArenaRef) : Frame -> Prop where
  | charging : Honoured bytes ref
      (.charging (.blocks { bytes := bytes, arena := some ref, charge := 0 }) .start)
  | allocating : Honoured bytes ref
      (.allocating { bytes := bytes, arena := some ref, charge := 0 })
  | constructing (ptr : Ptr) : Honoured bytes ref
      (.constructing { bytes := bytes, arena := some ref, charge := 0 } ptr)
  | failing (error : String) (loop : CasLoop) : Honoured bytes ref
      (.crediting (.blocks { bytes := bytes, arena := some ref, charge := 0 }
        (State.mallocText "allocate_multiple_blocks" error)) loop)
  | succeeded (id : AllocId) : Honoured bytes ref (.done (.blocks (some id)))
  | failed (error : String) : Honoured bytes ref
      (.done (.threw (State.mallocText "allocate_multiple_blocks" error)))
  | raised (exception : StdException) : Honoured bytes ref (.done (.raised exception))

/-- A step while a call of the thread is honoured: the call's own steps leave the counter
and the room of every other reservation as they are. -/
structure HonouredStep (thread : Thread) (bytes : Nat) (ref : ArenaRef) (s : State)
    (e : Event) (t : State) : Prop where
  frame : exists frame, t.threads.lookup thread = some frame ∧ frame.Honoured bytes ref
  total : e.thread = some thread -> t.counter.total = s.counter.total
  others : e.thread = some thread -> forall other, other ≠ ref ->
    t.roomOf other = s.roomOf other

/-- A call starts without a charge: it is over if it is for nothing, and about to lock the
mutex otherwise. -/
structure StartsFree (c : Config) (thread : Thread) (bytes : Nat) (res : Option Addr)
    (s t : State) : Prop where
  frame : exists arena, arena.map ArenaRef.addr = res ∧ t.threads.lookup thread =
    some (if bytes = 0 then .done (.blocks none)
      else .locking (allocBytes bytes c.blockSize) arena)
  total : t.counter.total = s.counter.total
  others : forall other, t.roomOf other = s.roomOf other

def Event.isDeallocation : Event -> Bool
  | .deallocateMultipleBlocks _ _ => true
  | _ => false

/-- By how much a tracker is behind what was charged under its reservation, on words. -/
def State.shortOf (s : State) (found : Found) : Int :=
  (s.chargedUnder (own found.ref.addr found.arena.rid) - found.pre) % 2 ^ 64

/-- Allocations find no tracker but their own reservation's; what deallocations under
other reservations take off a tracker comes to at most `2 ^ 63` bytes. -/
def ChargesOwn (s : State) (e : Event) : Prop :=
  forall found, found ∈ s.trackerFound e ->
    found.arena.rid = found.ref.rid ∨
      e.isDeallocation = true ∧ s.shortOf found + found.bytes ≤ 2 ^ 63

instance (s : State) (e : Event) : Decidable (ChargesOwn s e) :=
  inferInstanceAs (Decidable (forall found, found ∈ s.trackerFound e -> _))

/-- No call under the reservation throws after `hipMallocHost`. -/
abbrev LosesNoneOf (ref : ArenaRef) : State -> Event -> Prop :=
  LosesOnly (fun arena => arena ≠ some ref)

/-- A tracker that is at most `2 ^ 63` behind. -/
def Behind (tracker used : Int) : Prop := (used - tracker) % 2 ^ 64 ≤ 2 ^ 63

/-- No tracker is ahead of what was charged under its reservation. -/
structure Dependable (s : State) : Prop where
  sections : Sections s
  own_tracker : Guarded OwnTracker s
  behind : Tracked Behind own s.arenas s.chargedUnder
  known : Asked (Known s.created.length) s
  rid_lt : RidsBelow s
  tracked : forall addr arena, s.arenas.lookup addr = some arena -> arena.held = true ->
    arena.tracker.isSome = true

section Steps

variable {c : Config} {s t : State} {e : Event}

theorem ChargesOwn.lock {thread : Thread} {spurious : Bool} {bytes : Nat} {ref : ArenaRef}
    {arena : Arena} {pre : Int} (h : ChargesOwn s (.tick thread spurious))
    (hframe : s.threads.lookup thread = some (.locking bytes (some ref)))
    (hfind : s.findTracker ref.addr = some (arena, pre)) : arena.rid = ref.rid := by
  rcases h _ (trackerFound_lock spurious hframe hfind) with hrid | ⟨hdealloc, _⟩
  · exact hrid
  · cases hdealloc

theorem ChargesOwn.dealloc {thread : Thread} {id : AllocId} {alloc : Allocation}
    {ref : ArenaRef} {arena : Arena} {pre : Int}
    (h : ChargesOwn s (.deallocateMultipleBlocks thread id))
    (halloc : s.liveAllocs.lookup id = some alloc) (href : alloc.arena = some ref)
    (hfind : s.findTracker ref.addr = some (arena, pre)) (hrid : arena.rid ≠ ref.rid) :
    (s.chargedUnder (own ref.addr arena.rid) - pre) % 2 ^ 64 + alloc.bytes ≤ 2 ^ 63 := by
  have hfound := h _ (trackerFound_dealloc thread halloc href hfind)
  unfold State.shortOf at hfound
  rcases hfound with hsame | ⟨_, hshort⟩
  · exact absurd hsame hrid
  · exact hshort

/-- The same bytes on a tracker and on its count leave it as far behind as it was. -/
theorem behind_add {tracker used : Int} (h : Behind tracker used) (bytes : Nat) :
    Behind (wrapInt (tracker + toSigned bytes)) (used + bytes) := by
  unfold Behind at h ⊢
  unfold toSigned wrapInt
  omega

theorem behind_sub {tracker used : Int} (h : Behind tracker used) (bytes : Nat) :
    Behind (wrapInt (tracker - toSigned bytes)) (used + -(bytes : Int)) := by
  unfold Behind at h ⊢
  unfold toSigned wrapInt
  omega

/-- Bytes taken off a tracker alone. -/
theorem behind_stranger {tracker used : Int} {bytes : Nat}
    (h : (used - tracker) % 2 ^ 64 + bytes ≤ 2 ^ 63) :
    Behind (wrapInt (tracker - toSigned bytes)) (used + 0) := by
  unfold Behind toSigned wrapInt
  omega

theorem behind_move (h : Dependable s) (hok : ChargesOwn s e) (hmove : Move c s e t) :
    Tracked Behind own t.arenas t.chargedUnder := by
  have hpre : forall {ref : ArenaRef} {arena : Arena} {pre : Int},
      s.findTracker ref.addr = some (arena, pre) ->
      Behind pre (s.chargedUnder (own ref.addr arena.rid)) := by
    intro ref arena pre hfind
    have harena := findTracker_eq_some.mp hfind
    exact h.behind ref.addr arena pre harena.left harena.right
  refine tracked_move_of own_addr h.behind h.sections ?_ ?_ ?_ ?_ hmove
  · intro thread spurious bytes ref arena pre he hframe hfind
    subst he
    rw [if_pos (own_of_rid (hok.lock hframe hfind))]
    exact behind_add (hpre hfind) bytes
  · intro thread id alloc ref arena pre he halloc href hfind
    subst he
    by_cases hrid : arena.rid = ref.rid
    · rw [if_pos (own_of_rid hrid)]
      exact behind_sub (hpre hfind) alloc.bytes
    · rw [own_of_rid_ne (Ne.symm hrid), if_neg Bool.false_ne_true]
      exact behind_stranger (hok.dealloc halloc href hfind hrid)
  · intro thread frame request ref arena tracker hframe hpart href hfind
    have hrid := (h.own_tracker thread frame _ hframe hpart).right ref arena href
      (findTracker_eq_some.mp hfind).left
    rw [if_pos (own_of_rid hrid)]
    exact behind_sub (hpre hfind) request.bytes
  · intro addr
    rw [chargedUnder_unused h.known addr]
    unfold Behind
    decide

theorem tracked_insert {arenas : Table Addr Arena}
    (h : forall addr arena, arenas.lookup addr = some arena -> arena.held = true ->
      arena.tracker.isSome = true) (addr : Addr) {new : Arena}
    (hnew : new.held = true -> new.tracker.isSome = true) :
    forall other arena, (arenas.insert addr new).lookup other = some arena ->
      arena.held = true -> arena.tracker.isSome = true := by
  intro other arena hlookup hheld
  rcases Table.lookup_of_lookup_insert hlookup with ⟨_, rfl⟩ | ⟨_, hold⟩
  · exact hnew hheld
  · exact h other arena hold hheld

theorem tracked_rollBack (h : forall addr arena, s.arenas.lookup addr = some arena ->
      arena.held = true -> arena.tracker.isSome = true) (request : Request) :
    forall addr arena, (s.rollBack request).lookup addr = some arena ->
      arena.held = true -> arena.tracker.isSome = true := by
  unfold State.rollBack
  split
  · exact h
  · split
    · exact h
    · exact tracked_insert h _ (fun _ => rfl)

theorem heldTracked_move (h : forall addr arena, s.arenas.lookup addr = some arena ->
      arena.held = true -> arena.tracker.isSome = true) (hmove : Move c s e t) :
    forall addr arena, t.arenas.lookup addr = some arena -> arena.held = true ->
      arena.tracker.isSome = true := by
  have herase : forall addr other arena, (s.arenas.erase addr).lookup other = some arena ->
      arena.held = true -> arena.tracker.isSome = true :=
    fun _ other arena hlookup => h other arena (Table.lookup_of_lookup_erase hlookup).right
  cases hmove with
  | takeTracked _ _ _ _ _ => exact tracked_insert h _ (fun _ => rfl)
  | destroyReleased _ _ _ _ => exact herase _
  | destroy _ _ _ _ => exact tracked_insert h _ (fun hheld => nomatch hheld)
  | grow harena =>
      rename_i addr n arena
      exact tracked_insert h addr (fun hheld => h addr arena harena hheld)
  | granted hframe hstep =>
      rename_i charge pc counter
      cases charge <;> exact h
  | refused hframe hstep =>
      rename_i charge pc counter
      cases charge with
      | reservation bytes => exact h
      | blocks request => exact tracked_rollBack h request
      | single bytes => exact h
  | lockTracked _ _ _ => exact tracked_insert h _ (fun _ => rfl)
  | credited hframe =>
      rename_i credit loop
      cases credit with
      | deallocation bytes => exact h
      | blocks request text => exact tracked_rollBack h request
      | single bytes text => exact h
      | release addr bytes => exact herase addr
  | register _ _ _ => exact tracked_insert h _ (fun _ => rfl)
  | _ => exact h

theorem dependable_step (h : Dependable s) (hok : ChargesOwn s e)
    (hstep : step c s e = some t) : Dependable t := by
  have hmove := step_move hstep
  refine ⟨sections_move h.sections hmove, ownTracker_move h.own_tracker ?_ hmove,
    behind_move h hok hmove, known_move h.known h.rid_lt hmove, ridsBelow_move h.rid_lt hmove,
    heldTracked_move h.tracked hmove⟩
  intro thread spurious bytes ref arena pre he hframe hfind
  subst he
  exact hok.lock hframe hfind

/-- Where there is room the tracker is found, and the request is not charged. -/
theorem uncharged_of_hasRoom (h : Dependable s) (hmutex : s.mutex = none) {ref : ArenaRef}
    {bytes request : Nat} (hlost : LostOnly (fun arena => arena ≠ some ref) s)
    (hroom : s.HasRoom ref request) (hle : bytes ≤ request) :
    exists arena pre, s.findTracker ref.addr = some (arena, pre) ∧
      chargeFor arena.size pre bytes = 0 := by
  rcases hroom with ⟨arena, harena, hrid, hheld, hsize, hfits⟩
  rcases Option.isSome_iff_exists.mp (h.tracked ref.addr arena harena hheld) with
    ⟨pre, htracker⟩
  have hbehind := h.behind ref.addr arena pre harena htracker
  have hrange := h.sections.range ref.addr arena pre harena htracker
  have hpending : pendingUnder (own ref.addr arena.rid) s.threads = 0 :=
    Guarded.pendingUnder_eq_zero h.own_tracker hmutex _
  have hnone : lostUnder (own ref.addr ref.rid) s.lost = 0 := by
    apply hlost.lostUnder_eq
    intro other hkind
    exact decide_eq_false fun heq => hkind (congrArg some heq)
  unfold State.chargedUnder Behind at hbehind
  rw [hpending, hrid, hnone] at hbehind
  refine ⟨arena, pre, findTracker_eq_some.mpr ⟨harena, htracker⟩, ?_⟩
  exact chargeFor_eq_zero hsize hrange.left (by omega) (by omega)

/-!
# The steps of an honoured call
-/

theorem roomOf_congr (harenas : t.arenas = s.arenas) (hlive : t.liveAllocs = s.liveAllocs)
    {other : ArenaRef} : t.roomOf other = s.roomOf other := by
  unfold State.roomOf
  rw [harenas, hlive]

/-- Trackers do not count for the room. -/
theorem roomOf_setTracker {addr : Addr} {arena : Arena} {pre tracker : Int}
    (hfind : s.findTracker addr = some (arena, pre))
    (harenas : t.arenas = s.setTracker addr arena tracker)
    (hlive : t.liveAllocs = s.liveAllocs) {other : ArenaRef} :
    t.roomOf other = s.roomOf other := by
  unfold State.roomOf
  rw [harenas, hlive, State.setTracker, Table.lookup_insert]
  by_cases heq : other.addr = addr
  · rw [if_pos heq, heq, (findTracker_eq_some.mp hfind).left]
  · rw [if_neg heq]

theorem roomOf_rollBack (request : Request) (harenas : t.arenas = s.rollBack request)
    (hlive : t.liveAllocs = s.liveAllocs) {other : ArenaRef} :
    t.roomOf other = s.roomOf other := by
  unfold State.rollBack at harenas
  split at harenas
  · exact roomOf_congr harenas hlive
  · split at harenas
    · exact roomOf_congr harenas hlive
    · rename_i hfind
      exact roomOf_setTracker hfind harenas hlive

/-- An allocation takes room from its own reservation only. -/
theorem roomOf_construct {id : AllocId} {alloc : Allocation} {ref other : ArenaRef}
    (hid : s.liveAllocs.lookup id = none) (href : alloc.arena = some ref)
    (harenas : t.arenas = s.arenas) (hlive : t.liveAllocs = s.liveAllocs.insert id alloc)
    (hne : other ≠ ref) : t.roomOf other = s.roomOf other := by
  have hzero : bytesUnder (own other.addr other.rid) alloc.arena alloc.bytes = 0 := by
    apply bytesUnder_of_not
    intro found hfound
    rw [href] at hfound
    cases hfound
    exact decide_eq_false (fun heq => hne heq.symm)
  have hsame : liveUnder (own other.addr other.rid) t.liveAllocs =
      liveUnder (own other.addr other.rid) s.liveAllocs := by
    rw [hlive, liveUnder_insert _ hid, hzero, Nat.zero_add]
  unfold State.roomOf
  rw [harenas, hsame]

variable {thread : Thread} {bytes : Nat} {ref : ArenaRef}

/-- A step that only puts another frame of the call in place. -/
theorem HonouredStep.replace {frame : Frame}
    (hthreads : t.threads = s.threads.insert thread frame) (hframe : frame.Honoured bytes ref)
    (htotal : t.counter.total = s.counter.total)
    (hrooms : forall other, other ≠ ref -> t.roomOf other = s.roomOf other) :
    HonouredStep thread bytes ref s e t where
  frame := by
    rw [hthreads]
    exact ⟨frame, Table.lookup_insert_self _ _ _, hframe⟩
  total := fun _ => htotal
  others := fun _ => hrooms

/-- The request of an honoured call. -/
def uncharged (bytes : Nat) (ref : ArenaRef) : Request :=
  { bytes := bytes, arena := some ref, charge := 0 }

theorem honoured_own {frame : Frame} (hframe : s.threads.lookup thread = some frame)
    (h : frame.Honoured bytes ref) (hown : e.thread = some thread) (hret : e ≠ .ret thread)
    (hstep : step c s e = some t) : HonouredStep thread bytes ref s e t := by
  have hsame : forall other, other ≠ ref -> s.roomOf other = s.roomOf other :=
    fun _ _ => rfl
  rcases busy_step hframe hown hstep with ⟨spurious, hnext⟩ | ⟨addr, hnext⟩ |
    ⟨result, hnext⟩ | ⟨id, hnext⟩ | ⟨exception, hnext⟩ | heq
  · cases h with
    | charging =>
        simp only [State.tickFrame, hframe] at hnext
        cases hnext
        exact .replace rfl .allocating rfl hsame
    | failing error loop =>
        simp only [State.tickFrame, hframe] at hnext
        have hfail : t = s.failBlocks thread (uncharged bytes ref)
            (State.mallocText "allocate_multiple_blocks" error) := (Option.some.inj hnext).symm
        subst hfail
        refine .replace rfl (.failed error) rfl ?_
        intro other _
        apply roomOf_rollBack (uncharged bytes ref)
        · rfl
        · rfl
    | _ =>
        simp only [State.tickFrame, hframe] at hnext
        cases hnext
  · simp only [State.registerArena] at hnext
    split at hnext
    · rename_i hregistering _ _
      rw [hframe] at hregistering
      cases hregistering
      cases h
    · cases hnext
  · cases h with
    | allocating =>
        simp only [State.tickMalloc, hframe] at hnext
        cases result with
        | error error =>
            cases hnext
            exact .replace rfl (.failing error .load) rfl hsame
        | ok ptr =>
            dsimp only at hnext
            split at hnext
            · cases hnext
            · cases hnext
              exact .replace rfl (.constructing ptr) rfl hsame
    | _ =>
        simp only [State.tickMalloc, hframe] at hnext
        cases hnext
  · cases h with
    | constructing ptr =>
        simp only [State.tickConstruct, hframe] at hnext
        split at hnext
        · rename_i request ptr' hconstructing hid
          cases hconstructing
          split at hnext
          · cases hnext
            exact .replace rfl (.succeeded id) rfl
              (fun other hne => roomOf_construct hid rfl rfl rfl hne)
          · cases hnext
        · cases hnext
    | _ =>
        simp only [State.tickConstruct, hframe] at hnext
        cases hnext
  · cases h with
    | constructing ptr =>
        simp only [State.tickThrow, hframe] at hnext
        split at hnext
        · cases hnext
          exact .replace rfl (.raised exception) rfl hsame
        · cases hnext
    | _ =>
        simp only [State.tickThrow, hframe] at hnext
        cases hnext
  · exact absurd heq hret

/-- Where there is room, the call goes through its lock without a charge. -/
theorem honoured_lock (h : Dependable s) {spurious : Bool} {request : Nat}
    (hframe : s.threads.lookup thread = some (.locking bytes (some ref)))
    (hlost : LostOnly (fun arena => arena ≠ some ref) s)
    (hroom : s.HasRoom ref request) (hle : bytes ≤ request)
    (hstep : step c s (.tick thread spurious) = some t) :
    HonouredStep thread bytes ref s (.tick thread spurious) t := by
  simp only [step, State.tickFrame, hframe] at hstep
  split at hstep
  · rename_i hmutex
    rcases uncharged_of_hasRoom h hmutex hlost hroom hle with ⟨arena, pre, hfind, hcharge⟩
    cases hstep
    simp only [State.tickLock, hfind, hcharge]
    refine .replace rfl .charging rfl ?_
    intro other _
    apply roomOf_setTracker hfind
    · rfl
    · rfl
  · cases hstep

/-- Every step up to the return of an honoured call, whoever takes it. -/
theorem honoured_step (h : exists frame, s.threads.lookup thread = some frame ∧
      frame.Honoured bytes ref) (hret : e ≠ .ret thread) (hstep : step c s e = some t) :
    HonouredStep thread bytes ref s e t := by
  rcases h with ⟨frame, hframe, hhonoured⟩
  by_cases hown : e.thread = some thread
  · exact honoured_own hframe hhonoured hown hret hstep
  · refine ⟨⟨frame, ?_, hhonoured⟩, fun heq => absurd heq hown, fun heq => absurd heq hown⟩
    rw [lookup_of_others (step_move hstep) hown]
    exact hframe

theorem startsFree_step {res : Option Addr}
    (hstep : step c s (.allocateMultipleBlocks thread bytes res) = some t) :
    StartsFree c thread bytes res s t := by
  have hframe : forall frame, (s.setFrame thread frame).threads.lookup thread = some frame :=
    fun frame => Table.lookup_insert_self _ _ _
  simp only [step] at hstep
  split at hstep
  · unfold State.startBlocks at hstep
    split at hstep
    · rename_i hzero
      cases hstep
      cases res with
      | none => exact ⟨⟨none, rfl, by rw [hframe, if_pos hzero]⟩, rfl, fun _ => rfl⟩
      | some addr =>
          exact ⟨⟨some { addr := addr, rid := 0 }, rfl, by rw [hframe, if_pos hzero]⟩, rfl,
            fun _ => rfl⟩
    · rename_i hne
      split at hstep
      · cases hstep
        exact ⟨⟨none, rfl, by rw [hframe, if_neg hne]⟩, rfl, fun _ => rfl⟩
      · split at hstep
        · cases hstep
        · split at hstep
          · cases hstep
            exact ⟨⟨some _, rfl, by rw [hframe, if_neg hne]⟩, rfl, fun _ => rfl⟩
          · cases hstep
  · cases hstep

end Steps

theorem dependable_initial : Dependable State.initial := by
  refine ⟨sections_initial, guarded_initial _, ?_, asked_initial _, ?_, ?_⟩
  · intro addr arena tracker harena
    cases harena
  · intro addr arena harena
    cases harena
  · intro addr arena harena
    cases harena

/--
As long as allocations find no tracker but their own, a call that is about to lock the
mutex where its reservation has room for the rounded request, and has lost nothing, is
never refused: until it returns, its steps charge nothing and take no room from any other
reservation.
-/
theorem reservation_honoured {c : Config} {before : List Event} {s : State}
    (hok : (hostMachine c).Along ChargesOwn State.initial before)
    (hrun : (hostMachine c).run State.initial before = some s) (thread : Thread)
    (bytes : Nat) :
    (forall res t, (hostMachine c).step s (.allocateMultipleBlocks thread bytes res) = some t ->
      StartsFree c thread bytes res s t) ∧
    forall ref, (hostMachine c).Along (LosesNoneOf ref) State.initial before ->
      s.threads.lookup thread =
        some (.locking (allocBytes bytes c.blockSize) (some ref)) ->
      s.HasRoom ref (alignUp bytes c.blockSize) ->
      forall spurious after, Event.ret thread ∉ after ->
        (hostMachine c).Throughout (HonouredStep thread (allocBytes bytes c.blockSize) ref) s
          (.tick thread spurious :: after) := by
  refine ⟨fun res t hstep => startsFree_step hstep, ?_⟩
  intro ref hloses hframe hroom spurious after hret
  have hkeep : forall s e t, Dependable s -> ChargesOwn s e ->
      (hostMachine c).step s e = some t -> Dependable t :=
    fun s e t h hok hstep => dependable_step h hok hstep
  have hdependable := Machine.invariant_run hkeep dependable_initial hok hrun
  have hspare : forall s e t, LostOnly (fun arena => arena ≠ some ref) s ->
      LosesNoneOf ref s e -> (hostMachine c).step s e = some t ->
      LostOnly (fun arena => arena ≠ some ref) t :=
    fun s e t h hok hstep => lostOnly_move h hok (step_move hstep)
  have hlost := Machine.invariant_run hspare (lostOnly_initial _) hloses hrun
  have hnever : forall e, e ∈ after -> e ≠ .ret thread := by
    rintro e he rfl
    exact hret he
  have hstays : forall s e t, (exists frame, s.threads.lookup thread = some frame ∧
      frame.Honoured (allocBytes bytes c.blockSize) ref) -> e ≠ .ret thread ->
      (hostMachine c).step s e = some t ->
      (exists frame, t.threads.lookup thread = some frame ∧
        frame.Honoured (allocBytes bytes c.blockSize) ref) ∧
      HonouredStep thread (allocBytes bytes c.blockSize) ref s e t := by
    intro s e t hs hne hstep
    have hnext := honoured_step hs hne hstep
    exact ⟨hnext.frame, hnext⟩
  intro t hstep
  have hlock := honoured_lock hdependable hframe hlost hroom (allocBytes_le_alignUp _ _) hstep
  exact ⟨hlock, Machine.throughout_of_invariant hstays hlock.frame
    (Machine.along_of_events hnever)⟩

/-- Two blocks are reserved at address 7, another client takes the other two, and one of
the reserved blocks is in use when the second one is asked for. -/
def fullBesideReservation : List Event :=
  [.reserve 0 32, .tick 0 false, .tick 0 false, .tick 0 false, .tick 0 false,
    .tick 0 false, .register 0 7, .ret 0,
    .allocate 1 32, .tick 1 false, .tick 1 false, .tick 1 false, .tick 1 false,
    .tick 1 false, .hipMallocHost 1 (.ok 2000), .ret 1,
    .allocateMultipleBlocks 0 9 (some 7), .tick 0 false, .tick 0 false,
    .hipMallocHost 0 (.ok 1000), .construct 0 50, .ret 0,
    .allocateMultipleBlocks 0 9 (some 7)]

theorem reservation_honoured_fullBesideReservation :
    exists s, (hostMachine fourBlocks).run State.initial fullBesideReservation = some s ∧
      (hostMachine fourBlocks).Throughout (HonouredStep 0 16 { addr := 7, rid := 0 }) s
        [.tick 0 false, .tick 0 false, .hipMallocHost 0 (.ok 3000), .construct 0 60] := by
  have hok : (hostMachine fourBlocks).Along ChargesOwn State.initial
      fullBesideReservation := by decide +kernel
  have hloses : (hostMachine fourBlocks).Along (LosesNoneOf { addr := 7, rid := 0 })
      State.initial fullBesideReservation := by decide +kernel
  have hroom : alignUp 9 fourBlocks.blockSize = 16 := by decide
  refine ⟨_, rfl, (reservation_honoured hok rfl 0 9).right { addr := 7, rid := 0 }
    hloses rfl ?_ false _ (by simp)⟩
  exact ⟨_, rfl, rfl, rfl, by decide, by decide +kernel⟩

/-- A call takes the address of its arena, 7; before it locks the mutex the reservation is
destroyed and all four blocks are reserved again at address 7.  The call goes on. -/
def chargedToStranger : List Event :=
  [.reserve 0 64, .tick 0 false, .tick 0 false, .tick 0 false, .tick 0 false,
    .tick 0 false, .register 0 7, .ret 0,
    .allocateMultipleBlocks 1 64 (some 7),
    .destroy 0 7, .tick 0 false, .tick 0 false, .ret 0,
    .reserve 0 64, .tick 0 false, .tick 0 false, .tick 0 false, .tick 0 false,
    .tick 0 false, .register 0 7, .ret 0,
    .tick 1 false, .tick 1 false, .hipMallocHost 1 (.ok 1000), .construct 1 50, .ret 1,
    .allocateMultipleBlocks 0 64 (some 7)]

/-- The second reservation has room for four blocks and is refused all of them. -/
theorem reservation_not_honoured :
    exists s t, (hostMachine fourBlocks).run State.initial chargedToStranger = some s ∧
      s.threads.lookup 0 = some (.locking 64 (some { addr := 7, rid := 1 })) ∧
      s.HasRoom { addr := 7, rid := 1 } 64 ∧
      (hostMachine fourBlocks).run s [.tick 0 false, .tick 0 false, .tick 0 false] = some t ∧
      t.threads.lookup 0 = some (.done (.threw
        (State.oomText 64 ++ "(upstream_tracked=64) within memory limit 64"))) := by
  refine ⟨_, _, rfl, rfl, ?_, rfl, by decide +kernel⟩
  exact ⟨_, rfl, rfl, rfl, by decide, by decide +kernel⟩

end FixedSizeHost
end Memory
end Cuda2Rocm
