import Cuda2Rocm.Memory.FixedSizeHost.Sections

/-!
# Trackers and the allocations under them

A tracker is meant to be the sum of the allocations made under its reservation.  The
code finds trackers by address, so this module counts allocations by an arbitrary
choice of arena pointers and carries a relation between trackers and such counts
through every step.
-/

namespace Cuda2Rocm
namespace Memory
namespace FixedSizeHost

open Foundation

/-- The bytes of a request, when it was made under a chosen arena. -/
def bytesUnder (mine : ArenaRef -> Bool) (arena : Option ArenaRef) (bytes : Nat) : Nat :=
  match arena with
  | none => 0
  | some ref => if mine ref then bytes else 0

/-- The bytes a locked section has added to trackers of chosen arenas. -/
def Section.under (mine : ArenaRef -> Bool) : Section -> Nat
  | .blocks request => bytesUnder mine request.arena request.bytes
  | .release _ => 0

def Frame.under (mine : ArenaRef -> Bool) (frame : Frame) : Nat :=
  match frame.inSection with
  | none => 0
  | some part => part.under mine

def liveUnder (mine : ArenaRef -> Bool) (liveAllocs : Table AllocId Allocation) : Nat :=
  liveAllocs.sum (fun _ alloc => bytesUnder mine alloc.arena alloc.bytes)

def pendingUnder (mine : ArenaRef -> Bool) (threads : Table Thread Frame) : Nat :=
  threads.sum (fun _ frame => frame.under mine)

def lostUnder (mine : ArenaRef -> Bool) (lost : List Allocation) : Nat :=
  (lost.map (fun alloc => bytesUnder mine alloc.arena alloc.bytes)).sum

/-- The bytes charged under chosen arenas: of live allocations, of the one that is being
made while the mutex is held, and of lost ones. -/
def State.chargedUnder (s : State) (mine : ArenaRef -> Bool) : Nat :=
  liveUnder mine s.liveAllocs + pendingUnder mine s.threads + lostUnder mine s.lost

section Counts

variable {mine : ArenaRef -> Bool} {liveAllocs : Table AllocId Allocation}
variable {threads : Table Thread Frame} {thread : Thread}

theorem liveUnder_insert (mine : ArenaRef -> Bool) {id : AllocId} (h : liveAllocs.lookup id = none)
    (alloc : Allocation) :
    liveUnder mine (liveAllocs.insert id alloc) =
      bytesUnder mine alloc.arena alloc.bytes + liveUnder mine liveAllocs :=
  Table.sum_insert_of_none h alloc (fun _ alloc => bytesUnder mine alloc.arena alloc.bytes)

theorem liveUnder_erase (mine : ArenaRef -> Bool) {id : AllocId} {alloc : Allocation}
    (h : liveAllocs.lookup id = some alloc) :
    liveUnder mine liveAllocs =
      bytesUnder mine alloc.arena alloc.bytes + liveUnder mine (liveAllocs.erase id) :=
  Table.sum_of_lookup h (fun _ alloc => bytesUnder mine alloc.arena alloc.bytes)

theorem lostUnder_cons (mine : ArenaRef -> Bool) (alloc : Allocation)
    (lost : List Allocation) :
    lostUnder mine (alloc :: lost) =
      bytesUnder mine alloc.arena alloc.bytes + lostUnder mine lost := rfl

theorem pendingUnder_insert (mine : ArenaRef -> Bool) {old : Frame}
    (h : threads.lookup thread = some old) (frame : Frame) :
    pendingUnder mine (threads.insert thread frame) + old.under mine =
      pendingUnder mine threads + frame.under mine :=
  Table.sum_replace h frame (fun _ frame => frame.under mine)

theorem pendingUnder_insert_new (h : threads.lookup thread = none) (frame : Frame) :
    pendingUnder mine (threads.insert thread frame) =
      frame.under mine + pendingUnder mine threads :=
  Table.sum_insert_of_none h frame (fun _ frame => frame.under mine)

theorem pendingUnder_same {old frame : Frame} (h : threads.lookup thread = some old)
    (hsame : frame.under mine = old.under mine) :
    pendingUnder mine (threads.insert thread frame) = pendingUnder mine threads := by
  have hsum : pendingUnder mine (threads.insert thread frame) + old.under mine =
      pendingUnder mine threads + frame.under mine := pendingUnder_insert mine h frame
  omega

theorem pendingUnder_idle {frame : Frame} (h : threads.lookup thread = none)
    (hzero : frame.under mine = 0) :
    pendingUnder mine (threads.insert thread frame) = pendingUnder mine threads := by
  rw [pendingUnder_insert_new h, hzero, Nat.zero_add]

theorem Frame.Fresh.under_eq {frame : Frame} (h : frame.Fresh) :
    frame.under mine = 0 := by
  unfold Frame.under
  rw [h.inSection_eq]

theorem pendingUnder_erase {outcome : Outcome}
    (h : threads.lookup thread = some (.done outcome)) :
    pendingUnder mine (threads.erase thread) = pendingUnder mine threads := by
  have hsplit : pendingUnder mine threads =
      Frame.under mine (.done outcome) + pendingUnder mine (threads.erase thread) :=
    Table.sum_of_lookup h (fun _ frame => frame.under mine)
  rw [hsplit]
  exact (Nat.zero_add _).symm

theorem bytesUnder_of_not {arena : Option ArenaRef} {bytes : Nat}
    (h : forall ref, arena = some ref -> mine ref = false) :
    bytesUnder mine arena bytes = 0 := by
  cases arena with
  | none => rfl
  | some ref =>
      show (if mine ref then bytes else 0) = 0
      rw [h ref rfl]
      rfl

theorem bytesUnder_of_mine {ref : ArenaRef} (h : mine ref = true) (bytes : Nat) :
    bytesUnder mine (some ref) bytes = bytes := by
  show (if mine ref then bytes else 0) = bytes
  rw [h]
  rfl

theorem bytesUnder_le (mine : ArenaRef -> Bool) (arena : Option ArenaRef) (bytes : Nat) :
    bytesUnder mine arena bytes ≤ bytes := by
  unfold bytesUnder
  split
  · exact Nat.zero_le _
  · split
    · exact Nat.le_refl _
    · exact Nat.zero_le _

theorem lostUnder_of_not {lost : List Allocation}
    (h : forall alloc, alloc ∈ lost ->
      forall ref, alloc.arena = some ref -> mine ref = false) :
    lostUnder mine lost = 0 := by
  unfold lostUnder
  rw [List.sum_eq_zero]
  intro amount hamount
  rcases List.mem_map.mp hamount with ⟨alloc, halloc, rfl⟩
  exact bytesUnder_of_not (h alloc halloc)

theorem Guarded.pendingUnder_eq_zero {fits : Table Addr Arena -> Section -> Prop}
    {s : State} (h : Guarded fits s) (hmutex : s.mutex = none) (mine : ArenaRef -> Bool) :
    pendingUnder mine s.threads = 0 := by
  refine (Table.sum_congr ?_).trans (Table.sum_zero s.threads)
  intro thread frame hframe
  unfold Frame.under
  rw [h.outside hmutex hframe]

end Counts

/-!
# A relation between trackers and counts
-/

/-- Every tracker is related to the count of its arena's address and number. -/
def Tracked (related : Int -> Int -> Prop) (near : Addr -> Nat -> ArenaRef -> Bool)
    (arenas : Table Addr Arena) (count : (ArenaRef -> Bool) -> Nat) : Prop :=
  forall addr arena tracker, arenas.lookup addr = some arena ->
    arena.tracker = some tracker -> related tracker (count (near addr arena.rid))

section Relation

variable {related : Int -> Int -> Prop} {near : Addr -> Nat -> ArenaRef -> Bool}
variable {arenas : Table Addr Arena} {count count' : (ArenaRef -> Bool) -> Nat}

theorem Tracked.congr (h : Tracked related near arenas count)
    (hcount : forall mine, count' mine = count mine) :
    Tracked related near arenas count' := by
  intro addr arena tracker harena htracker
  rw [hcount]
  exact h addr arena tracker harena htracker

theorem Tracked.erase (h : Tracked related near arenas count) (addr : Addr) :
    Tracked related near (arenas.erase addr) count := by
  intro other arena tracker harena htracker
  exact h other arena tracker (Table.lookup_of_lookup_erase harena).right htracker

/-- One arena is written; the counts of the others stay. -/
theorem Tracked.insert (h : Tracked related near arenas count) {addr : Addr} {new : Arena}
    (hnew : forall tracker, new.tracker = some tracker ->
      related tracker (count' (near addr new.rid)))
    (hothers : forall other arena tracker, other ≠ addr ->
      arenas.lookup other = some arena -> arena.tracker = some tracker ->
      count' (near other arena.rid) = count (near other arena.rid)) :
    Tracked related near (arenas.insert addr new) count' := by
  intro other arena tracker harena htracker
  rcases Table.lookup_of_lookup_insert harena with ⟨rfl, rfl⟩ | ⟨hne, hold⟩
  · exact hnew tracker htracker
  · rw [hothers other arena tracker hne hold htracker]
    exact h other arena tracker hold htracker

end Relation

section Steps

variable {related : Int -> Int -> Prop} {near : Addr -> Nat -> ArenaRef -> Bool}
variable {c : Config} {s t : State} {e : Event}

theorem Tracked.unmoved (h : Tracked related near s.arenas s.chargedUnder)
    (harenas : t.arenas = s.arenas) (hlive : t.liveAllocs = s.liveAllocs)
    (hlost : t.lost = s.lost)
    (hthreads : forall mine, pendingUnder mine t.threads = pendingUnder mine s.threads) :
    Tracked related near t.arenas t.chargedUnder := by
  rw [harenas]
  refine h.congr ?_
  intro mine
  unfold State.chargedUnder
  rw [hlive, hlost, hthreads]

/-- An allocation whose arena has no tracker counts for none. -/
theorem tracked_take
    (hnear : forall addr rid ref, near addr rid ref = true -> ref.addr = addr)
    {thread : Thread} {id : AllocId} {alloc : Allocation}
    (h : Tracked related near s.arenas s.chargedUnder)
    (hidle : s.threads.lookup thread = none)
    (halloc : s.liveAllocs.lookup id = some alloc) (huntracked : s.Untracked alloc)
    (credit : Nat) :
    Tracked related near s.arenas (State.chargedUnder { s with
      liveAllocs := s.liveAllocs.erase id
      threads := s.threads.insert thread (.freeing alloc.ptr alloc.bytes credit) }) := by
  intro addr arena tracker harena htracker
  have hold := h addr arena tracker harena htracker
  have hsplit := liveUnder_erase (near addr arena.rid) halloc
  have hzero : bytesUnder (near addr arena.rid) alloc.arena alloc.bytes = 0 := by
    apply bytesUnder_of_not
    intro ref href
    cases hmine : near addr arena.rid ref with
    | false => rfl
    | true =>
        have hfind := huntracked ref href
        rw [hnear addr arena.rid ref hmine,
          findTracker_eq_some.mpr ⟨harena, htracker⟩] at hfind
        cases hfind
  have hpending : pendingUnder (near addr arena.rid)
      (s.threads.insert thread (.freeing alloc.ptr alloc.bytes credit)) =
      pendingUnder (near addr arena.rid) s.threads := pendingUnder_idle hidle rfl
  unfold State.chargedUnder at hold ⊢
  dsimp only
  rw [hpending]
  rw [hsplit, hzero, Nat.zero_add] at hold
  exact hold

variable (hnear : forall addr rid ref, near addr rid ref = true -> ref.addr = addr)

include hnear

/-- A tracker that is written while its count moves. -/
theorem tracked_write {ref : ArenaRef} {arena : Arena} {pre new delta : Int}
    {count' : (ArenaRef -> Bool) -> Nat}
    (h : Tracked related near s.arenas s.chargedUnder)
    (hfind : s.findTracker ref.addr = some (arena, pre))
    (hcount : forall mine, (count' mine : Int) =
      s.chargedUnder mine + if mine ref then delta else 0)
    (hnew : related new (s.chargedUnder (near ref.addr arena.rid) +
      if near ref.addr arena.rid ref then delta else 0)) :
    Tracked related near (s.setTracker ref.addr arena new) count' := by
  have harena := findTracker_eq_some.mp hfind
  refine h.insert ?_ ?_
  · intro tracker htracker
    cases htracker
    rw [hcount]
    exact hnew
  · intro other arena' tracker hne _ _
    have hother := hcount (near other arena'.rid)
    rw [if_neg] at hother
    · omega
    · intro htrue
      exact hne (hnear other arena'.rid ref htrue).symm

theorem tracked_failBlocks {thread : Thread} {frame : Frame} {request : Request}
    (h : Tracked related near s.arenas s.chargedUnder) (hsec : Sections s)
    (hframe : s.threads.lookup thread = some frame)
    (hpart : frame.inSection = some (.blocks request))
    (hback : forall ref arena tracker, request.arena = some ref ->
      s.findTracker ref.addr = some (arena, tracker) ->
      related (wrapInt (tracker - toSigned request.bytes))
        (s.chargedUnder (near ref.addr arena.rid) +
          if near ref.addr arena.rid ref then -(request.bytes : Int) else 0))
    (text : String) :
    Tracked related near (s.rollBack request) (State.chargedUnder { s with
      threads := s.threads.insert thread (.done (.threw text)) }) := by
  have hunder : forall mine, frame.under mine =
      bytesUnder mine request.arena request.bytes := by
    intro mine
    unfold Frame.under
    rw [hpart]
    rfl
  have hpending : forall mine,
      pendingUnder mine (s.threads.insert thread (.done (.threw text))) +
        bytesUnder mine request.arena request.bytes = pendingUnder mine s.threads := by
    intro mine
    rw [← hunder]
    exact pendingUnder_insert mine hframe (.done (.threw text))
  unfold State.rollBack
  cases href : request.arena with
  | none =>
      refine h.congr ?_
      intro mine
      have hsum := hpending mine
      rw [href] at hsum
      simp only [bytesUnder, Nat.add_zero] at hsum
      simp only [State.chargedUnder, hsum]
  | some ref =>
      rcases (hsec.guarded thread frame _ hframe hpart).right ref href with
        ⟨arena, tracker, harena, htracker⟩
      have hfind := findTracker_eq_some.mpr ⟨harena, htracker⟩
      dsimp only
      rw [hfind]
      refine tracked_write hnear h hfind ?_ (hback ref arena tracker href hfind)
      intro mine
      have hsum := hpending mine
      rw [href] at hsum
      simp only [bytesUnder] at hsum
      simp only [State.chargedUnder]
      split
      · rename_i htrue
        rw [if_pos htrue] at hsum
        omega
      · rename_i hfalse
        rw [if_neg hfalse] at hsum
        omega

/--
Trackers stay related to their counts: it is enough that whatever is written to one is
related to its count after the step.
-/
theorem tracked_move_of (h : Tracked related near s.arenas s.chargedUnder) (hsec : Sections s)
    (hlock : forall thread spurious bytes ref arena pre, e = .tick thread spurious ->
      s.threads.lookup thread = some (.locking bytes (some ref)) ->
      s.findTracker ref.addr = some (arena, pre) ->
      related (wrapInt (pre + toSigned bytes)) (s.chargedUnder (near ref.addr arena.rid) +
        if near ref.addr arena.rid ref then (bytes : Int) else 0))
    (htake : forall thread id alloc ref arena pre,
      e = .deallocateMultipleBlocks thread id ->
      s.liveAllocs.lookup id = some alloc -> alloc.arena = some ref ->
      s.findTracker ref.addr = some (arena, pre) ->
      related (wrapInt (pre - toSigned alloc.bytes)) (s.chargedUnder (near ref.addr arena.rid) +
        if near ref.addr arena.rid ref then -(alloc.bytes : Int) else 0))
    (hback : forall thread frame request ref arena tracker,
      s.threads.lookup thread = some frame ->
      frame.inSection = some (.blocks request) -> request.arena = some ref ->
      s.findTracker ref.addr = some (arena, tracker) ->
      related (wrapInt (tracker - toSigned request.bytes))
        (s.chargedUnder (near ref.addr arena.rid) +
          if near ref.addr arena.rid ref then -(request.bytes : Int) else 0))
    (hregister : forall addr, related 0 (s.chargedUnder (near addr s.created.length)))
    (hmove : Move c s e t) : Tracked related near t.arenas t.chargedUnder := by
  cases hmove with
  | start hcalls hidle hfresh =>
      exact h.unmoved rfl rfl rfl (fun _ => pendingUnder_idle hidle hfresh.under_eq)
  | startLocking hidle hbytes harena =>
      exact h.unmoved rfl rfl rfl (fun _ => pendingUnder_idle hidle rfl)
  | take hidle hmutex halloc huntracked =>
      exact tracked_take hnear h hidle halloc huntracked _
  | takeTracked hidle hmutex halloc href hfind =>
      rename_i id alloc ref arena pre
      refine tracked_write hnear h hfind ?_ (htake _ _ _ _ _ _ rfl halloc href hfind)
      intro mine
      have hsplit := liveUnder_erase mine halloc
      rw [href] at hsplit
      simp only [bytesUnder] at hsplit
      simp only [State.chargedUnder]
      rw [pendingUnder_idle hidle rfl]
      split
      · rename_i htrue
        rw [if_pos htrue] at hsplit
        omega
      · rename_i hfalse
        rw [if_neg hfalse] at hsplit
        omega
  | takeSingle hidle hptr => exact h.unmoved rfl rfl rfl (fun _ => pendingUnder_idle hidle rfl)
  | destroyReleased hidle hmutex harena htracker =>
      refine (h.erase _).congr ?_
      intro mine
      simp only [State.chargedUnder]
      rw [pendingUnder_idle hidle rfl]
  | destroy hidle hmutex harena htracker =>
      refine h.insert ?_ ?_
      · intro tracker hnone
        cases hnone
      · intro other arena' tracker _ _ _
        simp only [State.chargedUnder]
        rw [pendingUnder_idle hidle rfl]
  | grow harena =>
      rename_i addr n arena
      refine h.insert ?_ (fun _ _ _ _ _ _ => rfl)
      intro tracker htracker
      exact h addr arena tracker harena htracker
  | chargeOn hframe hstep =>
      rename_i charge pc pc' counter
      refine h.unmoved rfl rfl rfl ?_
      intro mine
      cases charge <;> exact pendingUnder_same hframe rfl
  | granted hframe hstep =>
      rename_i charge pc counter
      cases charge <;> exact h.unmoved rfl rfl rfl (fun _ => pendingUnder_same hframe rfl)
  | refused hframe hstep =>
      rename_i charge pc counter
      cases charge with
      | reservation bytes => exact h.unmoved rfl rfl rfl (fun _ => pendingUnder_same hframe rfl)
      | blocks request =>
          exact tracked_failBlocks hnear h hsec hframe rfl
            (fun ref arena tracker => hback _ _ request ref arena tracker hframe rfl) _
      | single bytes => exact h.unmoved rfl rfl rfl (fun _ => pendingUnder_same hframe rfl)
  | lock hframe hmutex => exact h.unmoved rfl rfl rfl (fun _ => pendingUnder_same hframe rfl)
  | lockRefused hframe hfind =>
      exact h.unmoved rfl rfl rfl (fun _ => pendingUnder_same hframe rfl)
  | lockTracked hframe hmutex hfind =>
      rename_i thread spurious bytes ref arena pre
      refine tracked_write hnear h hfind ?_ (hlock _ _ _ _ _ _ rfl hframe hfind)
      intro mine
      have hsum := pendingUnder_insert mine hframe
        (.charging (.blocks { bytes := bytes, arena := some ref,
                              charge := chargeFor arena.size pre bytes }) .start)
      simp only [Frame.under, Frame.inSection, Section.under, bytesUnder] at hsum
      simp only [State.chargedUnder]
      split
      · rename_i htrue
        rw [if_pos htrue] at hsum
        omega
      · rename_i hfalse
        rw [if_neg hfalse] at hsum
        omega
  | freed hframe => exact h.unmoved rfl rfl rfl (fun _ => pendingUnder_same hframe rfl)
  | creditOn hframe =>
      rename_i credit loop
      refine h.unmoved rfl rfl rfl ?_
      intro mine
      cases credit <;> exact pendingUnder_same hframe rfl
  | credited hframe =>
      rename_i credit loop
      cases credit with
      | deallocation bytes =>
          exact h.unmoved rfl rfl rfl (fun _ => pendingUnder_same hframe rfl)
      | blocks request text =>
          exact tracked_failBlocks hnear h hsec hframe rfl
            (fun ref arena tracker => hback _ _ request ref arena tracker hframe rfl) _
      | single bytes text =>
          exact h.unmoved rfl rfl rfl (fun _ => pendingUnder_same hframe rfl)
      | release addr bytes =>
          refine (h.erase addr).congr ?_
          intro mine
          have hsum := pendingUnder_insert mine hframe (.done .finished)
          simp only [Frame.under, Frame.inSection, Section.under, Nat.add_zero] at hsum
          simp only [State.credited, State.chargedUnder, State.setTotal]
          rw [hsum]
  | register hframe hfree hmutex =>
      rename_i thread addr bytes
      have hsame : forall mine, pendingUnder mine
          (s.threads.insert thread (.done (.reservation addr))) =
          pendingUnder mine s.threads := fun _ => pendingUnder_same hframe rfl
      refine h.insert ?_ ?_
      · intro tracker htracker
        cases htracker
        simp only [State.chargedUnder, hsame]
        exact hregister addr
      · intro other arena' tracker _ _ _
        simp only [State.chargedUnder, hsame]
  | mallocFailed hframe => exact h.unmoved rfl rfl rfl (fun _ => pendingUnder_same hframe rfl)
  | mallocSingleFailed hframe =>
      exact h.unmoved rfl rfl rfl (fun _ => pendingUnder_same hframe rfl)
  | malloc hframe hptr => exact h.unmoved rfl rfl rfl (fun _ => pendingUnder_same hframe rfl)
  | mallocSingle hframe hptr =>
      exact h.unmoved rfl rfl rfl (fun _ => pendingUnder_same hframe rfl)
  | construct hframe hid =>
      rename_i thread id request ptr
      refine h.congr ?_
      intro mine
      have hsum := pendingUnder_insert mine hframe (.done (.blocks (some id)))
      have hlive := liveUnder_insert mine hid
        { ptr := ptr, bytes := request.bytes, arena := request.arena }
      simp only [Frame.under, Frame.inSection, Section.under, Nat.add_zero] at hsum
      dsimp only at hlive
      simp only [State.chargedUnder]
      omega
  | throws exception hframe =>
      rename_i thread request ptr
      refine h.congr ?_
      intro mine
      have hsum := pendingUnder_insert mine hframe (.done (.raised exception))
      have hlost := lostUnder_cons mine
        { ptr := ptr, bytes := request.bytes, arena := request.arena } s.lost
      simp only [Frame.under, Frame.inSection, Section.under, Nat.add_zero] at hsum
      dsimp only at hlost
      simp only [State.chargedUnder]
      omega
  | ret hframe => exact h.unmoved rfl rfl rfl (fun _ => pendingUnder_erase hframe)

/--
Trackers stay related to their counts: it is enough that the arithmetic is exact and
that lookups find trackers that count the request.
-/
theorem tracked_move (hshift : forall x y d : Int, related x y -> related (x + d) (y + d))
    (h : Tracked related near s.arenas s.chargedUnder) (hsec : Sections s)
    (hlock : forall thread spurious bytes ref arena pre, e = .tick thread spurious ->
      s.threads.lookup thread = some (.locking bytes (some ref)) ->
      s.findTracker ref.addr = some (arena, pre) ->
      near ref.addr arena.rid ref = true ∧
        wrapInt (pre + toSigned bytes) = pre + bytes)
    (htake : forall thread id alloc ref arena pre,
      e = .deallocateMultipleBlocks thread id ->
      s.liveAllocs.lookup id = some alloc -> alloc.arena = some ref ->
      s.findTracker ref.addr = some (arena, pre) ->
      near ref.addr arena.rid ref = true ∧
        wrapInt (pre - toSigned alloc.bytes) = pre - alloc.bytes)
    (hback : forall thread frame request ref arena tracker,
      s.threads.lookup thread = some frame ->
      frame.inSection = some (.blocks request) -> request.arena = some ref ->
      s.findTracker ref.addr = some (arena, tracker) ->
      near ref.addr arena.rid ref = true ∧
        wrapInt (tracker - toSigned request.bytes) = tracker - request.bytes)
    (hregister : forall addr, related 0 (s.chargedUnder (near addr s.created.length)))
    (hmove : Move c s e t) : Tracked related near t.arenas t.chargedUnder := by
  have hwrite : forall {ref : ArenaRef} {arena : Arena} {pre new delta : Int},
      s.findTracker ref.addr = some (arena, pre) ->
      near ref.addr arena.rid ref = true -> new = pre + delta ->
      related new (s.chargedUnder (near ref.addr arena.rid) +
        if near ref.addr arena.rid ref then delta else 0) := by
    rintro ref arena pre new delta hfind hmine rfl
    have harena := findTracker_eq_some.mp hfind
    rw [if_pos hmine]
    exact hshift _ _ _ (h ref.addr arena pre harena.left harena.right)
  refine tracked_move_of hnear h hsec ?_ ?_ ?_ hregister hmove
  · intro thread spurious bytes ref arena pre he hframe hfind
    have hexact := hlock thread spurious bytes ref arena pre he hframe hfind
    exact hwrite hfind hexact.left hexact.right
  · intro thread id alloc ref arena pre he halloc href hfind
    have hexact := htake thread id alloc ref arena pre he halloc href hfind
    exact hwrite hfind hexact.left hexact.right
  · intro thread frame request ref arena tracker hframe hpart href hfind
    have hexact := hback thread frame request ref arena tracker hframe hpart href hfind
    exact hwrite hfind hexact.left hexact.right

end Steps

end FixedSizeHost
end Memory
end Cuda2Rocm
