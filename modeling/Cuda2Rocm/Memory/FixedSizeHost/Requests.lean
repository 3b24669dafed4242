import Cuda2Rocm.Memory.FixedSizeHost.Trackers

/-!
# Requests for blocks

An allocation has its size and its arena from the call that made it.  What holds of
them when `allocate_multiple_blocks` is called holds as long as the allocation lives.
-/

namespace Cuda2Rocm
namespace Memory
namespace FixedSizeHost

open Foundation

/-- The size and the arena of a request for blocks in flight. -/
def Frame.asks (frame : Frame) : Option (Nat × Option ArenaRef) :=
  match frame with
  | .locking bytes arena => some (bytes, arena)
  | _ =>
      match frame.inSection with
      | some (.blocks request) => some (request.bytes, request.arena)
      | _ => none

/-- A fact about the sizes and arenas of all allocations, live, lost or being made. -/
structure Asked (fits : Nat -> Option ArenaRef -> Prop) (s : State) : Prop where
  live : forall id alloc, s.liveAllocs.lookup id = some alloc ->
    fits alloc.bytes alloc.arena
  lost : forall alloc, alloc ∈ s.lost -> fits alloc.bytes alloc.arena
  frames : forall thread frame bytes arena, s.threads.lookup thread = some frame ->
    frame.asks = some (bytes, arena) -> fits bytes arena

theorem asks_of_inSection {frame : Frame} {request : Request}
    (h : frame.inSection = some (.blocks request)) :
    frame.asks = some (request.bytes, request.arena) := by
  unfold Frame.asks
  split
  · cases h
  · rw [h]

theorem Frame.Fresh.asks_eq {frame : Frame} (h : frame.Fresh) : frame.asks = none := by
  cases h with
  | done outcome => rfl
  | reservation bytes => rfl
  | single bytes => rfl

section Requests

variable {fits fits' : Nat -> Option ArenaRef -> Prop} {c : Config} {s t : State}
variable {e : Event}

theorem Asked.mono (himp : forall bytes arena, fits bytes arena -> fits' bytes arena)
    (h : Asked fits s) : Asked fits' s :=
  ⟨fun id alloc halloc => himp _ _ (h.live id alloc halloc),
    fun alloc halloc => himp _ _ (h.lost alloc halloc),
    fun thread frame bytes arena hframe hasks =>
      himp _ _ (h.frames thread frame bytes arena hframe hasks)⟩

/-- A step whose new frame asks for what an old one did, or for nothing. -/
theorem Asked.replace (h : Asked fits s) {thread : Thread} {frame : Frame}
    (hlive : forall id alloc, t.liveAllocs.lookup id = some alloc ->
      s.liveAllocs.lookup id = some alloc)
    (hlost : t.lost = s.lost) (hthreads : t.threads = s.threads.insert thread frame)
    (hframe : forall bytes arena, frame.asks = some (bytes, arena) ->
      fits bytes arena) : Asked fits t := by
  constructor
  · intro id alloc halloc
    exact h.live id alloc (hlive id alloc halloc)
  · intro alloc halloc
    rw [hlost] at halloc
    exact h.lost alloc halloc
  · intro other frame' bytes arena hlookup hasks
    rw [hthreads] at hlookup
    rcases Table.lookup_of_lookup_insert hlookup with ⟨_, rfl⟩ | ⟨_, hold⟩
    · exact hframe bytes arena hasks
    · exact h.frames other frame' bytes arena hold hasks

/-- A step whose new frame asks for nothing. -/
theorem Asked.aside (h : Asked fits s) {thread : Thread} {frame : Frame}
    (hlive : forall id alloc, t.liveAllocs.lookup id = some alloc ->
      s.liveAllocs.lookup id = some alloc)
    (hlost : t.lost = s.lost) (hthreads : t.threads = s.threads.insert thread frame)
    (hframe : frame.asks = none) : Asked fits t := by
  refine h.replace hlive hlost hthreads ?_
  intro bytes arena hasks
  rw [hframe] at hasks
  cases hasks

theorem Asked.failBlocks (h : Asked fits s) {thread : Thread} {request : Request}
    (u : State) (hlive : u.liveAllocs = s.liveAllocs) (hlost : u.lost = s.lost)
    (hthreads : u.threads = s.threads) (text : String) :
    Asked fits (u.failBlocks thread request text) := by
  have hinsert : (u.failBlocks thread request text).threads =
      s.threads.insert thread (.done (.threw text)) := by
    show u.threads.insert thread _ = _
    rw [hthreads]
  refine h.aside ?_ hlost hinsert rfl
  intro id alloc halloc
  change u.liveAllocs.lookup id = some alloc at halloc
  rw [hlive] at halloc
  exact halloc

/-- Only a call of `allocate_multiple_blocks` makes a new request. -/
theorem Asked.move (h : Asked fits s)
    (hstart : forall thread bytes res arena,
      e = .allocateMultipleBlocks thread bytes res -> 0 < bytes ->
      (forall ref, arena = some ref ->
        exists a, s.arenas.lookup ref.addr = some a ∧ a.rid = ref.rid) ->
      fits (allocBytes bytes c.blockSize) arena)
    (hmove : Move c s e t) : Asked fits t := by
  have hsame : forall id alloc, s.liveAllocs.lookup id = some alloc ->
      s.liveAllocs.lookup id = some alloc := fun _ _ halloc => halloc
  have herase : forall erased id alloc,
      (s.liveAllocs.erase erased).lookup id = some alloc ->
      s.liveAllocs.lookup id = some alloc :=
    fun _ _ _ halloc => (Table.lookup_of_lookup_erase halloc).right
  cases hmove with
  | start hcalls hidle hfresh => exact h.aside hsame rfl rfl hfresh.asks_eq
  | startLocking hidle hbytes harena =>
      refine h.replace hsame rfl rfl ?_
      intro bytes arena hasks
      cases hasks
      exact hstart _ _ _ _ rfl hbytes harena
  | take hidle hmutex halloc huntracked => exact h.aside (herase _) rfl rfl rfl
  | takeTracked hidle hmutex halloc href hfind => exact h.aside (herase _) rfl rfl rfl
  | takeSingle hidle hptr => exact h.aside hsame rfl rfl rfl
  | destroyReleased hidle hmutex harena htracker => exact h.aside hsame rfl rfl rfl
  | destroy hidle hmutex harena htracker => exact h.aside hsame rfl rfl rfl
  | grow harena => exact ⟨h.live, h.lost, h.frames⟩
  | chargeOn hframe hstep =>
      rename_i charge pc pc' counter
      refine h.replace hsame rfl rfl ?_
      intro bytes arena hasks
      refine h.frames _ _ bytes arena hframe ?_
      cases charge <;> exact hasks
  | granted hframe hstep =>
      rename_i charge pc counter
      cases charge with
      | reservation bytes => exact h.aside hsame rfl rfl rfl
      | blocks request =>
          exact h.replace hsame rfl rfl (fun _ _ hasks => h.frames _ _ _ _ hframe hasks)
      | single bytes => exact h.aside hsame rfl rfl rfl
  | refused hframe hstep =>
      rename_i charge pc counter
      cases charge with
      | reservation bytes => exact h.aside hsame rfl rfl rfl
      | blocks request => exact h.failBlocks { s with counter := counter } rfl rfl rfl _
      | single bytes => exact h.aside hsame rfl rfl rfl
  | lock hframe hmutex =>
      exact h.replace hsame rfl rfl (fun _ _ hasks => h.frames _ _ _ _ hframe hasks)
  | lockRefused hframe hfind => exact h.aside hsame rfl rfl rfl
  | lockTracked hframe hmutex hfind =>
      exact h.replace hsame rfl rfl (fun _ _ hasks => h.frames _ _ _ _ hframe hasks)
  | freed hframe => exact h.aside hsame rfl rfl rfl
  | creditOn hframe =>
      rename_i credit loop
      refine h.replace hsame rfl rfl ?_
      intro bytes arena hasks
      refine h.frames _ _ bytes arena hframe ?_
      cases credit <;> exact hasks
  | credited hframe =>
      rename_i credit loop
      cases credit with
      | deallocation bytes => exact h.aside hsame rfl rfl rfl
      | blocks request text =>
          exact h.failBlocks (s.setTotal (s.totalAfter (.blocks request text))) rfl rfl rfl
            text
      | single bytes text => exact h.aside hsame rfl rfl rfl
      | release addr bytes => exact h.aside hsame rfl rfl rfl
  | register hframe hfree hmutex => exact h.aside hsame rfl rfl rfl
  | mallocFailed hframe =>
      exact h.replace hsame rfl rfl (fun _ _ hasks => h.frames _ _ _ _ hframe hasks)
  | mallocSingleFailed hframe => exact h.aside hsame rfl rfl rfl
  | malloc hframe hptr =>
      exact h.replace hsame rfl rfl (fun _ _ hasks => h.frames _ _ _ _ hframe hasks)
  | mallocSingle hframe hptr => exact h.aside hsame rfl rfl rfl
  | construct hframe hid =>
      constructor
      · intro id alloc halloc
        rcases Table.lookup_of_lookup_insert halloc with ⟨_, rfl⟩ | ⟨_, hold⟩
        · exact h.frames _ _ _ _ hframe rfl
        · exact h.live id alloc hold
      · exact h.lost
      · intro other frame bytes arena hlookup hasks
        rcases Table.lookup_of_lookup_insert hlookup with ⟨_, rfl⟩ | ⟨_, hold⟩
        · cases hasks
        · exact h.frames other frame bytes arena hold hasks
  | throws exception hframe =>
      constructor
      · exact h.live
      · intro alloc halloc
        rcases List.mem_cons.mp halloc with rfl | hold
        · exact h.frames _ _ _ _ hframe rfl
        · exact h.lost alloc hold
      · intro other frame bytes arena hlookup hasks
        rcases Table.lookup_of_lookup_insert hlookup with ⟨_, rfl⟩ | ⟨_, hold⟩
        · cases hasks
        · exact h.frames other frame bytes arena hold hasks
  | ret hframe =>
      exact ⟨h.live, h.lost, fun other frame bytes arena hlookup hasks =>
        h.frames other frame bytes arena (Table.lookup_of_lookup_erase hlookup).right
          hasks⟩

theorem asked_initial (fits : Nat -> Option ArenaRef -> Prop) : Asked fits State.initial := by
  constructor
  · intro id alloc halloc
    cases halloc
  · intro alloc halloc
    cases halloc
  · intro thread frame bytes arena hlookup
    cases hlookup

/-- A count of arenas that nobody asked for is 0. -/
theorem Asked.chargedUnder_eq_zero {mine : ArenaRef -> Bool}
    (h : Asked (fun _ arena => forall ref, arena = some ref -> mine ref = false) s) :
    s.chargedUnder mine = 0 := by
  have hlive : liveUnder mine s.liveAllocs = 0 := by
    unfold liveUnder
    rw [← Table.sum_zero s.liveAllocs]
    exact Table.sum_congr (fun id alloc halloc => bytesUnder_of_not (h.live id alloc halloc))
  have hlost : lostUnder mine s.lost = 0 := lostUnder_of_not h.lost
  have hpending : pendingUnder mine s.threads = 0 := by
    unfold pendingUnder
    rw [← Table.sum_zero s.threads]
    apply Table.sum_congr
    intro thread frame hframe
    unfold Frame.under
    cases hpart : frame.inSection with
    | none => rfl
    | some part =>
        cases part with
        | release addr => rfl
        | blocks request =>
            exact bytesUnder_of_not
              (h.frames thread frame _ _ hframe (asks_of_inSection hpart))
  unfold State.chargedUnder
  omega

theorem le_chargedUnder_of_inSection {mine : ArenaRef -> Bool} {thread : Thread}
    {frame : Frame} {request : Request} {ref : ArenaRef}
    (hframe : s.threads.lookup thread = some frame)
    (hpart : frame.inSection = some (.blocks request)) (href : request.arena = some ref)
    (hmine : mine ref = true) : request.bytes ≤ s.chargedUnder mine := by
  have hle : frame.under mine ≤ pendingUnder mine s.threads :=
    Table.le_sum hframe (fun _ frame => frame.under mine)
  have hunder : frame.under mine = request.bytes := by
    unfold Frame.under
    rw [hpart]
    show bytesUnder mine request.arena request.bytes = request.bytes
    rw [href]
    exact bytesUnder_of_mine hmine _
  unfold State.chargedUnder
  omega

theorem le_chargedUnder_of_live {mine : ArenaRef -> Bool} {id : AllocId}
    {alloc : Allocation} {ref : ArenaRef} (halloc : s.liveAllocs.lookup id = some alloc)
    (href : alloc.arena = some ref) (hmine : mine ref = true) :
    alloc.bytes ≤ s.chargedUnder mine := by
  have hle : bytesUnder mine alloc.arena alloc.bytes ≤ liveUnder mine s.liveAllocs :=
    Table.le_sum halloc (fun _ alloc => bytesUnder mine alloc.arena alloc.bytes)
  rw [href, bytesUnder_of_mine hmine] at hle
  unfold State.chargedUnder
  omega

end Requests

end FixedSizeHost
end Memory
end Cuda2Rocm
