import Cuda2Rocm.Memory.FixedSizeHost.Arenas
import Cuda2Rocm.Memory.FixedSizeHost.Requests

/-!
# Isolation of reservations

An allocation keeps the address of its arena after its reservation is gone, and a new
arena may get that address.  Reservations are isolated from each other exactly as
long as every lookup by address finds the tracker of the reservation it was meant for,
and no allocation is lost under one.
-/

namespace Cuda2Rocm
namespace Memory
namespace FixedSizeHost

open Foundation

/-- Chooses the reservation with this arena and number. -/
def own (addr : Addr) (rid : Nat) (ref : ArenaRef) : Bool :=
  decide (ref = { addr := addr, rid := rid })

theorem own_addr (addr : Addr) (rid : Nat) (ref : ArenaRef) (h : own addr rid ref = true) :
    ref.addr = addr := by
  have heq : ref = { addr := addr, rid := rid } := by simpa [own] using h
  rw [heq]

/-- The bytes of live allocations under chosen arenas, with the one that is being made
while the mutex is held. -/
def State.usedUnder (s : State) (mine : ArenaRef -> Bool) : Nat :=
  liveUnder mine s.liveAllocs + pendingUnder mine s.threads

/-- Every tracker is the sum of the allocations made under its very reservation. -/
def TrackersExact (s : State) : Prop :=
  Tracked (fun tracker used => tracker = used) own s.arenas s.usedUnder

/-- Every tracker is the sum of what was charged under its very reservation. -/
def TrackersCharged (s : State) : Prop :=
  Tracked (fun tracker used => tracker = used) own s.arenas s.chargedUnder

/-- The reservation an arena pointer was taken from is live. -/
def State.isLive (s : State) (ref : ArenaRef) : Prop :=
  exists arena tracker,
    s.findTracker ref.addr = some (arena, tracker) ∧ arena.rid = ref.rid

/-- Deallocating an allocation that has outlived its reservation credits its full size
and writes no tracker. -/
def CreditsInFull (s : State) (e : Event) (t : State) : Prop :=
  match e with
  | .deallocateMultipleBlocks thread id =>
      forall alloc ref, s.liveAllocs.lookup id = some alloc ->
        alloc.arena = some ref -> ¬ s.isLive ref ->
        t.threads.lookup thread =
          some (.freeing alloc.ptr alloc.bytes alloc.bytes) ∧ t.arenas = s.arenas
  | _ => True

/-- A lookup that finds a tracker finds the one of its own reservation, with room for
the sum in 64 bits. -/
def FindsOwn (s : State) (e : Event) : Prop :=
  forall found, found ∈ s.trackerFound e ->
    found.arena.rid = found.ref.rid ∧ found.post < 2 ^ 63

instance (s : State) (e : Event) : Decidable (FindsOwn s e) :=
  inferInstanceAs (Decidable (forall found, found ∈ s.trackerFound e -> _))

/-- A call that throws after `hipMallocHost` was made under an arena of a kind. -/
def LosesOnly (kind : Option ArenaRef -> Prop) (s : State) : Event -> Prop
  | .throws thread _ =>
      match s.threads.lookup thread with
      | some (.constructing request _) => kind request.arena
      | _ => True
  | _ => True

instance (kind : Option ArenaRef -> Prop) [DecidablePred kind] (s : State) (e : Event) :
    Decidable (LosesOnly kind s e) := by
  unfold LosesOnly
  split
  · split <;> infer_instance
  · infer_instance

/-- No call under a reservation throws after `hipMallocHost`. -/
abbrev LosesNothing : State -> Event -> Prop := LosesOnly (fun arena => arena = none)

/-- Whatever is lost was made under an arena of a kind. -/
def LostOnly (kind : Option ArenaRef -> Prop) (s : State) : Prop :=
  forall alloc, alloc ∈ s.lost -> kind alloc.arena

/-- What is lost was not made under a reservation. -/
abbrev NothingLost : State -> Prop := LostOnly (fun arena => arena = none)

/-- The tracker a section works on is the one of its own reservation. -/
def OwnTracker (arenas : Table Addr Arena) : Section -> Prop
  | .blocks request => forall ref arena, request.arena = some ref ->
      arenas.lookup ref.addr = some arena -> arena.rid = ref.rid
  | .release _ => True

/-- Requests are for something, and their reservations were made before. -/
def Known (reservations bytes : Nat) (arena : Option ArenaRef) : Prop :=
  0 < bytes ∧ bytes ≤ sizeMax ∧ forall ref, arena = some ref -> ref.rid < reservations

/-- Reservations have the numbers below the next one. -/
def RidsBelow (s : State) : Prop :=
  forall addr arena, s.arenas.lookup addr = some arena -> arena.rid < s.created.length

/-- Reservations that have been isolated from each other so far. -/
structure Isolated (s : State) : Prop where
  sections : Sections s
  own_tracker : Guarded OwnTracker s
  exact : TrackersCharged s
  known : Asked (Known s.created.length) s
  rid_lt : forall addr arena, s.arenas.lookup addr = some arena ->
    arena.rid < s.created.length

section Steps

variable {c : Config} {s t : State} {e : Event}

/-- Allocations are lost by calls that throw. -/
theorem lost_of_move (hmove : Move c s e t) :
    t.lost = s.lost ∨ exists thread exception request ptr, e = .throws thread exception ∧
      s.threads.lookup thread = some (.constructing request ptr) ∧
      t.lost = { ptr := ptr, bytes := request.bytes, arena := request.arena } :: s.lost := by
  cases hmove with
  | granted hframe hstep =>
      rename_i charge pc counter
      cases charge <;> exact Or.inl rfl
  | refused hframe hstep =>
      rename_i charge pc counter
      cases charge <;> exact Or.inl rfl
  | credited hframe =>
      rename_i credit loop
      cases credit <;> exact Or.inl rfl
  | throws exception hframe => exact Or.inr ⟨_, _, _, _, rfl, hframe, rfl⟩
  | _ => exact Or.inl rfl

theorem lostOnly_move {kind : Option ArenaRef -> Prop} (h : LostOnly kind s)
    (hok : LosesOnly kind s e) (hmove : Move c s e t) : LostOnly kind t := by
  intro alloc halloc
  rcases lost_of_move hmove with hsame | ⟨thread, exception, request, ptr, rfl, hframe, hlost⟩
  · rw [hsame] at halloc
    exact h alloc halloc
  · rw [hlost] at halloc
    rcases List.mem_cons.mp halloc with rfl | hold
    · simp only [LosesOnly, hframe] at hok
      exact hok
    · exact h alloc hold

theorem LostOnly.lostUnder_eq {kind : Option ArenaRef -> Prop} (h : LostOnly kind s)
    {mine : ArenaRef -> Bool} (hmine : forall ref, kind (some ref) -> mine ref = false) :
    lostUnder mine s.lost = 0 := by
  apply lostUnder_of_not
  intro alloc halloc ref href
  have hkind := h alloc halloc
  rw [href] at hkind
  exact hmine ref hkind

/-- Where nothing is lost, what was charged is live or being made. -/
theorem chargedUnder_of_nothingLost (h : NothingLost s) (mine : ArenaRef -> Bool) :
    s.chargedUnder mine = s.usedUnder mine := by
  unfold State.chargedUnder State.usedUnder
  rw [LostOnly.lostUnder_eq h (fun _ hkind => by cases hkind), Nat.add_zero]

theorem TrackersCharged.exact (h : TrackersCharged s) (hnone : NothingLost s) :
    TrackersExact s :=
  Tracked.congr h (fun mine => (chargedUnder_of_nothingLost hnone mine).symm)

theorem FindsOwn.lock {thread : Thread} {spurious : Bool} {bytes : Nat} {ref : ArenaRef}
    {arena : Arena} {pre : Int} (h : FindsOwn s (.tick thread spurious))
    (hframe : s.threads.lookup thread = some (.locking bytes (some ref)))
    (hfind : s.findTracker ref.addr = some (arena, pre)) :
    arena.rid = ref.rid ∧ pre + bytes < 2 ^ 63 :=
  h _ (trackerFound_lock spurious hframe hfind)

theorem FindsOwn.dealloc {thread : Thread} {id : AllocId} {alloc : Allocation}
    {ref : ArenaRef} {arena : Arena} {pre : Int}
    (h : FindsOwn s (.deallocateMultipleBlocks thread id))
    (halloc : s.liveAllocs.lookup id = some alloc) (href : alloc.arena = some ref)
    (hfind : s.findTracker ref.addr = some (arena, pre)) : arena.rid = ref.rid :=
  (h _ (trackerFound_dealloc thread halloc href hfind)).left

theorem own_of_rid {ref : ArenaRef} {rid : Nat} (h : rid = ref.rid) :
    own ref.addr rid ref = true := by
  subst h
  exact decide_eq_true rfl

theorem own_of_rid_ne {addr : Addr} {ref : ArenaRef} {rid : Nat} (h : ref.rid ≠ rid) :
    own addr rid ref = false := by
  apply decide_eq_false
  intro heq
  rw [heq] at h
  exact h rfl

/-- Nothing is charged under a reservation that is still to be made. -/
theorem chargedUnder_unused (h : Asked (Known s.created.length) s) (addr : Addr) :
    s.chargedUnder (own addr s.created.length) = 0 := by
  apply Asked.chargedUnder_eq_zero
  refine h.mono ?_
  intro bytes arena hknown ref href
  exact own_of_rid_ne (Nat.ne_of_lt (hknown.right.right ref href))

theorem ownTracker_move (h : Guarded OwnTracker s)
    (hok : forall thread spurious bytes ref arena pre, e = .tick thread spurious ->
      s.threads.lookup thread = some (.locking bytes (some ref)) ->
      s.findTracker ref.addr = some (arena, pre) -> arena.rid = ref.rid)
    (hmove : Move c s e t) : Guarded OwnTracker t := by
  refine h.move hmove ?_ ?_ ?_ ?_
  · intro bytes ref arena href
    cases href
  · intro thread spurious bytes ref arena pre he hframe _ hfind ref' arena' href harena'
    cases href
    rw [State.setTracker, Table.lookup_insert_self] at harena'
    cases harena'
    exact hok thread spurious bytes ref arena pre he hframe hfind
  · intro addr arena _
    exact trivial
  · intro addr n arena part _ harena hfits
    cases part with
    | release target => exact trivial
    | blocks request =>
        intro ref new href hnew
        rcases Table.lookup_of_lookup_insert hnew with ⟨heq, rfl⟩ | ⟨_, hold⟩
        · exact hfits ref arena href (heq ▸ harena)
        · exact hfits ref new href hold

/-- A tracker that is exact and within its range takes a smaller amount off exactly. -/
theorem wrapInt_sub_of_le {tracker : Int} {bytes used : Nat} (hexact : tracker = used)
    (hle : bytes ≤ used) (hhigh : tracker < 2 ^ 63) :
    wrapInt (tracker - toSigned bytes) = tracker - bytes := by
  rw [toSigned_of_lt (by omega), wrapInt_of_range (by omega) (by omega)]

theorem exact_move (h : Isolated s) (hok : FindsOwn s e) (hmove : Move c s e t) :
    TrackersCharged t := by
  refine tracked_move own_addr ?_ h.exact h.sections ?_ ?_ ?_ ?_ hmove
  · intro x y d hxy
    rw [hxy]
  · intro thread spurious bytes ref arena pre he hframe hfind
    subst he
    rcases hok.lock hframe hfind with ⟨hrid, hhigh⟩
    have harena := findTracker_eq_some.mp hfind
    have hpre := h.exact ref.addr arena pre harena.left harena.right
    refine ⟨own_of_rid hrid, ?_⟩
    rw [toSigned_of_lt (by omega), wrapInt_of_range (by omega) hhigh]
  · intro thread id alloc ref arena pre he halloc href hfind
    subst he
    have hrid := hok.dealloc halloc href hfind
    have harena := findTracker_eq_some.mp hfind
    have hrange := h.sections.range _ _ _ harena.left harena.right
    refine ⟨own_of_rid hrid, ?_⟩
    exact wrapInt_sub_of_le (h.exact ref.addr arena pre harena.left harena.right)
      (le_chargedUnder_of_live halloc href (own_of_rid hrid)) hrange.right
  · intro thread frame request ref arena tracker hframe hpart href hfind
    have harena := findTracker_eq_some.mp hfind
    have hrid := (h.own_tracker thread frame _ hframe hpart).right ref arena href
      harena.left
    have hrange := h.sections.range _ _ _ harena.left harena.right
    refine ⟨own_of_rid hrid, ?_⟩
    exact wrapInt_sub_of_le (h.exact ref.addr arena tracker harena.left harena.right)
      (le_chargedUnder_of_inSection hframe hpart href (own_of_rid hrid)) hrange.right
  · intro addr
    rw [chargedUnder_unused h.known addr]
    rfl

theorem known_move (h : Asked (Known s.created.length) s) (hlt : RidsBelow s)
    (hmove : Move c s e t) : Asked (Known t.created.length) t := by
  rcases created_prefix hmove with ⟨added, hcreated⟩
  have hstep : Asked (Known s.created.length) t := by
    refine h.move ?_ hmove
    intro thread bytes res arena _ hbytes harena
    refine ⟨allocBytes_pos hbytes c.blockSize_pos c.blockSize_le, ?_, ?_⟩
    · exact Nat.le_trans (allocBytes_le_alignUp _ _)
        (alignUp_le_sizeMax c.blockSize_pos c.blockSize_le)
    · intro ref href
      rcases harena ref href with ⟨found, hfound, hrid⟩
      rw [← hrid]
      exact hlt ref.addr found hfound
  refine hstep.mono ?_
  intro bytes arena hknown
  refine ⟨hknown.left, hknown.right.left, ?_⟩
  intro ref href
  have hlt := hknown.right.right ref href
  rw [hcreated, List.length_append]
  omega

theorem ridsBelow_move (h : RidsBelow s) (hmove : Move c s e t) : RidsBelow t := by
  intro addr arena harena
  rcases created_prefix hmove with ⟨added, hcreated⟩
  rcases arena_origin hmove harena with ⟨old, hold, hkept⟩ |
    ⟨old, n, _, hold, rfl⟩ | ⟨thread, _, hrid, _, _, happend⟩
  · have hlt := h addr old hold
    rw [hcreated, List.length_append, hkept.rid]
    omega
  · have hlt := h addr old hold
    rw [hcreated, List.length_append]
    exact Nat.lt_add_right _ hlt
  · rw [hrid, happend, List.length_append]
    exact Nat.lt_succ_self _

theorem isolated_move (h : Isolated s) (hok : FindsOwn s e) (hmove : Move c s e t) :
    Isolated t := by
  refine ⟨sections_move h.sections hmove, ownTracker_move h.own_tracker ?_ hmove,
    exact_move h hok hmove, known_move h.known h.rid_lt hmove, ridsBelow_move h.rid_lt hmove⟩
  intro thread spurious bytes ref arena pre he hframe hfind
  subst he
  exact (hok.lock hframe hfind).left

/-- An orphan's lookup finds nothing when it does not find a stranger's tracker. -/
theorem creditsInFull_step (hok : FindsOwn s e) (h : step c s e = some t) :
    CreditsInFull s e t := by
  cases e with
  | deallocateMultipleBlocks thread id =>
      intro alloc ref halloc href horphan
      have hfind : s.findTracker ref.addr = none := by
        cases hfound : s.findTracker ref.addr with
        | none => rfl
        | some found =>
            exact absurd ⟨found.1, found.2, hfound, hok.dealloc halloc href hfound⟩
              horphan
      simp only [step] at h
      split at h
      · cases h
        simp only [State.startDeallocBlocks, halloc, href, hfind]
        exact ⟨Table.lookup_insert_self _ _ _, rfl⟩
      · cases h
  | _ => trivial

/-!
# Why the condition is needed
-/

/-- An amount that is not 0 moves a tracker. -/
theorem wrapInt_add_ne (tracker : Int) {bytes : Nat} (hpos : 0 < bytes)
    (hle : bytes ≤ sizeMax) :
    wrapInt (tracker + toSigned bytes) ≠ tracker := by
  unfold toSigned wrapInt
  unfold sizeMax at hle
  omega

theorem wrapInt_sub_ne (tracker : Int) {bytes : Nat} (hpos : 0 < bytes)
    (hle : bytes ≤ sizeMax) :
    wrapInt (tracker - toSigned bytes) ≠ tracker := by
  unfold toSigned wrapInt
  unfold sizeMax at hle
  omega

/-- A request that adds to a stranger's tracker, or beyond 64 bits, spoils it. -/
theorem findsOwn_lock {thread : Thread} {spurious : Bool} (h : Isolated s)
    (hnone : NothingLost s)
    (hstep : step c s (.tick thread spurious) = some t) (hgood : TrackersExact t) :
    FindsOwn s (.tick thread spurious) := by
  intro found hfound
  cases finds_of_trackerFound hfound with
  | @lock _ bytes ref arena pre _ hframe hfind =>
      have harena := findTracker_eq_some.mp hfind
      have hpre := h.exact.exact hnone ref.addr arena pre harena.left harena.right
      rcases h.known.frames thread _ bytes (some ref) hframe rfl with ⟨hpos, hle, _⟩
      simp only [step, State.tickFrame, hframe] at hstep
      split at hstep
      · cases hstep
        simp only [State.tickLock, hfind] at hgood
        have hafter := hgood ref.addr _ _ (Table.lookup_insert_self _ _ _) rfl
        have hsum := pendingUnder_insert (own ref.addr arena.rid) hframe
          (.charging (.blocks { bytes := bytes, arena := some ref,
                                charge := chargeFor arena.size pre bytes }) .start)
        simp only [Frame.under, Frame.inSection, Section.under, bytesUnder] at hsum
        simp only [State.usedUnder] at hafter hpre
        dsimp only
        by_cases hrid : ref.rid = arena.rid
        · rw [if_pos (own_of_rid hrid.symm)] at hsum
          refine ⟨hrid.symm, ?_⟩
          have hpost := (wrapInt_range (pre + toSigned bytes)).right
          omega
        · rw [own_of_rid_ne hrid] at hsum
          simp only [Bool.false_eq_true, if_false, Nat.add_zero] at hsum
          exact absurd (by omega) (wrapInt_add_ne pre hpos hle)
      · cases hstep

/-- A deallocation that takes from a stranger's tracker spoils it. -/
theorem findsOwn_dealloc {thread : Thread} {id : AllocId} (h : Isolated s)
    (hnone : NothingLost s)
    (hstep : step c s (.deallocateMultipleBlocks thread id) = some t)
    (hgood : TrackersExact t) : FindsOwn s (.deallocateMultipleBlocks thread id) := by
  intro found hfound
  cases finds_of_trackerFound hfound with
  | @dealloc _ alloc ref arena pre _ halloc href hfind =>
      have harena := findTracker_eq_some.mp hfind
      have hrange := h.sections.range _ _ _ harena.left harena.right
      have hpre := h.exact.exact hnone ref.addr arena pre harena.left harena.right
      rcases h.known.live id alloc halloc with ⟨hpos, hle, _⟩
      dsimp only
      refine ⟨?_, by omega⟩
      by_contra hrid
      simp only [step] at hstep
      split at hstep
      · rename_i hidle
        cases hstep
        simp only [State.startDeallocBlocks, halloc, href, hfind] at hgood
        have hafter := hgood ref.addr _ _ (Table.lookup_insert_self _ _ _) rfl
        have hsplit := liveUnder_erase (own ref.addr arena.rid) halloc
        rw [href] at hsplit
        simp only [bytesUnder, own_of_rid_ne (fun heq => hrid heq.symm),
          Bool.false_eq_true, if_false, Nat.zero_add] at hsplit
        have hpending : pendingUnder (own ref.addr arena.rid)
            (s.threads.insert thread (.freeing alloc.ptr alloc.bytes
              (creditFor arena.size pre alloc.bytes))) =
            pendingUnder (own ref.addr arena.rid) s.threads :=
          pendingUnder_idle hidle.left rfl
        simp only [State.usedUnder, hpending] at hafter hpre
        exact wrapInt_sub_ne pre hpos hle (by omega)
      · cases hstep

theorem findsOwn_of_exact (h : Isolated s) (hnone : NothingLost s)
    (hstep : step c s e = some t) (hgood : TrackersExact t) : FindsOwn s e := by
  cases e with
  | tick thread spurious => exact findsOwn_lock h hnone hstep hgood
  | deallocateMultipleBlocks thread id => exact findsOwn_dealloc h hnone hstep hgood
  | _ =>
      intro found hfound
      cases hfound

/-- A loss under a reservation spoils its tracker, which still counts the request. -/
theorem losesNothing_of_exact (h : Isolated s) (hnone : NothingLost s)
    (hstep : step c s e = some t) (hgood : TrackersExact t) : LosesNothing s e := by
  cases e with
  | throws thread exception =>
      cases step_move hstep with
      | start hcalls _ _ => cases hcalls
      | @throws _ request ptr _ hframe =>
          simp only [LosesOnly, hframe]
          by_contra hsome
          rcases Option.ne_none_iff_exists'.mp hsome with ⟨ref, href⟩
          rcases (h.sections.guarded thread _ _ hframe rfl).right ref href with
            ⟨arena, tracker, harena, htracker⟩
          have hrid := (h.own_tracker thread _ _ hframe rfl).right ref arena href harena
          have hpos := (h.known.frames thread _ _ _ hframe rfl).left
          have hpre := h.exact.exact hnone ref.addr arena tracker harena htracker
          have hafter := hgood ref.addr arena tracker harena htracker
          have hsum := pendingUnder_insert (own ref.addr arena.rid) hframe
            (.done (.raised exception))
          simp only [Frame.under, Frame.inSection, Section.under, href,
            bytesUnder_of_mine (own_of_rid hrid), Nat.add_zero] at hsum
          simp only [State.usedUnder] at hafter hpre
          omega
  | _ => trivial

end Steps

theorem isolated_initial : Isolated State.initial := by
  refine ⟨sections_initial, guarded_initial _, ?_, asked_initial _, ?_⟩
  · intro addr arena tracker harena
    cases harena
  · intro addr arena harena
    cases harena

theorem lostOnly_initial (kind : Option ArenaRef -> Prop) : LostOnly kind State.initial := by
  intro alloc halloc
  cases halloc

/--
Whatever addresses arenas get, orphans are credited in full and trackers are exact
after every step exactly when no lookup finds the tracker of another reservation,
no tracker is asked for more than 64 bits hold, and no call under a reservation throws
after `hipMallocHost`.
-/
theorem reservations_isolated_iff (c : Config) (events : List Event) :
    (hostMachine c).Throughout (fun s e t => CreditsInFull s e t ∧ TrackersExact t)
        State.initial events <->
      (hostMachine c).Along (fun s e => FindsOwn s e ∧ LosesNothing s e)
        State.initial events := by
  have hstep : forall s e t, Isolated s ∧ NothingLost s ->
      FindsOwn s e ∧ LosesNothing s e -> (hostMachine c).step s e = some t ->
      (Isolated t ∧ NothingLost t) ∧ CreditsInFull s e t ∧ TrackersExact t := by
    intro s e t hinv hok h
    have hnext := isolated_move hinv.left hok.left (step_move h)
    have hnone := lostOnly_move hinv.right hok.right (step_move h)
    exact ⟨⟨hnext, hnone⟩, creditsInFull_step hok.left h, hnext.exact.exact hnone⟩
  have hfail : forall s e t, Isolated s ∧ NothingLost s ->
      (hostMachine c).step s e = some t -> CreditsInFull s e t ∧ TrackersExact t ->
      FindsOwn s e ∧ LosesNothing s e :=
    fun s e t hinv h hgood =>
      ⟨findsOwn_of_exact hinv.left hinv.right h hgood.right,
        losesNothing_of_exact hinv.left hinv.right h hgood.right⟩
  exact Machine.throughout_iff_along hstep hfail ⟨isolated_initial, lostOnly_initial _⟩

/-- A resource of four blocks of 16 bytes. -/
def fourBlocks : Config where
  memLimit := 64
  blockSize := 16
  memLimit_le := by decide
  blockSize_pos := by decide
  blockSize_le := by decide

/-- A block is allocated under a reservation at address 7, the reservation is
destroyed, another one is made at address 7, and the block is deallocated. -/
def reusedArena : List Event :=
  [.reserve 0 16, .tick 0 false, .tick 0 false, .tick 0 false, .tick 0 false,
    .tick 0 false, .register 0 7, .ret 0,
    .allocateMultipleBlocks 0 16 (some 7), .tick 0 false, .tick 0 false,
    .hipMallocHost 0 (.ok 1000), .construct 0 50, .ret 0,
    .destroy 0 7, .tick 0 false, .ret 0,
    .reserve 0 16, .tick 0 false, .tick 0 false, .tick 0 false, .tick 0 false,
    .tick 0 false, .register 0 7, .ret 0,
    .deallocateMultipleBlocks 0 50]

/-- The second reservation's tracker falls below 0 and nothing will be credited. -/
theorem stranger_charged_on_reuse :
    exists s, (hostMachine fourBlocks).run State.initial reusedArena = some s ∧
      s.findTracker 7 = some
        ({ rid := 1, size := 16, charged := 16, held := true, tracker := some (-16) },
          -16) ∧
      s.threads.lookup 0 = some (.freeing 1000 16 0) ∧ ¬ TrackersExact s := by
  refine ⟨_, rfl, by decide +kernel, by decide +kernel, ?_⟩
  intro hexact
  have hused := hexact 7 _ (-16) rfl (by decide +kernel)
  revert hused
  decide +kernel

end FixedSizeHost
end Memory
end Cuda2Rocm
