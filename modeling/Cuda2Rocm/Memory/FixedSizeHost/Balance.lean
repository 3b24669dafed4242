import Cuda2Rocm.Memory.FixedSizeHost.Pinned
import Cuda2Rocm.Memory.FixedSizeHost.Sections

/-!
# What the counter stands for

The counter covers the bytes that are live or lost, what reservations have not used up,
and what calls in flight have charged or will credit.  No step loses any of it, whatever
addresses the arenas get, as long as the 64-bit arithmetic is exact and no arena
grows; a release gains where the tracker it reads has fallen below 0.
-/

namespace Cuda2Rocm
namespace Memory
namespace FixedSizeHost

open Foundation

/-- What a reservation has not used up by its tracker. -/
def Arena.unused (arena : Arena) : Nat :=
  match arena.tracker with
  | none => 0
  | some tracker => room arena.size tracker

/-- Bytes of a request that are in a tracker already and will not be charged. -/
def Charge.unbacked : Charge -> Nat
  | .blocks request => request.bytes - request.charge
  | _ => 0

/-- What a call in `do_release` leaves to others when it is through. -/
def Credit.owed : Credit -> Nat
  | .deallocation bytes => bytes
  | .blocks request _ => request.bytes
  | .single bytes _ => bytes
  | .release _ bytes => bytes

/-- The share of a call in flight in the counter and the trackers. -/
def Frame.owed : Frame -> Nat
  | .charging charge pc => charge.unbacked + pc.added charge.bytes
  | .registering bytes => bytes
  | .locking _ _ => 0
  | .allocating request => request.bytes
  | .constructing request _ => request.bytes
  | .allocatingSingle bytes => bytes
  | .freeing _ _ credit => credit
  | .crediting credit _ => credit.owed
  | .done _ => 0

def unusedIn (arenas : Table Addr Arena) : Nat := arenas.sum (fun _ arena => arena.unused)

def liveIn (liveAllocs : Table AllocId Allocation) : Nat :=
  liveAllocs.sum (fun _ alloc => alloc.bytes)

def lostIn (lost : List Allocation) : Nat := (lost.map Allocation.bytes).sum

def singlesIn (singles : Table Ptr Nat) : Nat := singles.sum (fun _ bytes => bytes)

def owedIn (threads : Table Thread Frame) : Nat := threads.sum (fun _ frame => frame.owed)

/-- Everything the counter has to cover. -/
def State.committed (s : State) : Nat :=
  liveIn s.liveAllocs + lostIn s.lost + singlesIn s.singles + unusedIn s.arenas +
    owedIn s.threads

section Totals

variable {arenas : Table Addr Arena} {liveAllocs : Table AllocId Allocation}
variable {threads : Table Thread Frame} {addr : Addr} {thread : Thread}

theorem unusedIn_insert {old : Arena} (h : arenas.lookup addr = some old) (new : Arena) :
    unusedIn (arenas.insert addr new) + old.unused = unusedIn arenas + new.unused :=
  Table.sum_replace h new (fun _ arena => arena.unused)

theorem unusedIn_insert_new (h : arenas.lookup addr = none) (new : Arena) :
    unusedIn (arenas.insert addr new) = new.unused + unusedIn arenas :=
  Table.sum_insert_of_none h new (fun _ arena => arena.unused)

theorem unusedIn_erase {old : Arena} (h : arenas.lookup addr = some old) :
    unusedIn arenas = old.unused + unusedIn (arenas.erase addr) :=
  Table.sum_of_lookup h (fun _ arena => arena.unused)

theorem liveIn_insert {id : AllocId} (h : liveAllocs.lookup id = none)
    (alloc : Allocation) :
    liveIn (liveAllocs.insert id alloc) = alloc.bytes + liveIn liveAllocs :=
  Table.sum_insert_of_none h alloc (fun _ alloc => alloc.bytes)

theorem liveIn_erase {id : AllocId} {alloc : Allocation}
    (h : liveAllocs.lookup id = some alloc) :
    liveIn liveAllocs = alloc.bytes + liveIn (liveAllocs.erase id) :=
  Table.sum_of_lookup h (fun _ alloc => alloc.bytes)

theorem lostIn_cons (alloc : Allocation) (lost : List Allocation) :
    lostIn (alloc :: lost) = alloc.bytes + lostIn lost := rfl

theorem owedIn_insert {old : Frame} (h : threads.lookup thread = some old)
    (frame : Frame) :
    owedIn (threads.insert thread frame) + old.owed = owedIn threads + frame.owed :=
  Table.sum_replace h frame (fun _ frame => frame.owed)

theorem owedIn_insert_new (h : threads.lookup thread = none) (frame : Frame) :
    owedIn (threads.insert thread frame) = frame.owed + owedIn threads :=
  Table.sum_insert_of_none h frame (fun _ frame => frame.owed)

/-- For any amount: unfolding a computed one here would be slow. -/
theorem owedIn_release (h : threads.lookup thread = none) (addr : Addr) (bytes : Nat) :
    owedIn (threads.insert thread (.crediting (.release addr bytes) .load)) =
      bytes + owedIn threads :=
  owedIn_insert_new h _

theorem owedIn_erase {old : Frame} (h : threads.lookup thread = some old) :
    owedIn threads = old.owed + owedIn (threads.erase thread) :=
  Table.sum_of_lookup h (fun _ frame => frame.owed)

theorem owed_le {old : Frame} (h : threads.lookup thread = some old) :
    old.owed ≤ owedIn threads :=
  Table.le_sum h (fun _ frame => frame.owed)

end Totals

theorem Frame.Fresh.owed_eq {frame : Frame} (h : frame.Fresh) : frame.owed = 0 := by
  cases h with
  | done outcome => rfl
  | reservation bytes => rfl
  | single bytes => rfl

/-!
# Conditions
-/

/-- A tracker found by a lookup, with the pointer it was looked up by, and the exact
value it should get. -/
structure Found where
  ref : ArenaRef
  arena : Arena
  pre : Int
  post : Int
  bytes : Nat

/-- The tracker that an allocation or a deallocation finds in its locked section. -/
def State.trackerFound (s : State) : Event -> Option Found
  | .tick thread _ =>
      match s.threads.lookup thread with
      | some (.locking bytes (some ref)) =>
          (s.findTracker ref.addr).map (fun found =>
            { ref := ref, arena := found.1, pre := found.2, post := found.2 + bytes,
              bytes := bytes })
      | _ => none
  | .deallocateMultipleBlocks _ id =>
      match s.liveAllocs.lookup id with
      | none => none
      | some alloc =>
          match alloc.arena with
          | none => none
          | some ref =>
              (s.findTracker ref.addr).map (fun found =>
                { ref := ref, arena := found.1, pre := found.2,
                  post := found.2 - alloc.bytes, bytes := alloc.bytes })
  | _ => none

/-- The arena whose reservation is destroyed. -/
def State.arenaDestroyed (s : State) : Event -> Option Arena
  | .destroy _ addr => s.arenas.lookup addr
  | _ => none

/-- The signed 64-bit arithmetic on trackers does not leave its range. -/
def CastsExact (s : State) (e : Event) : Prop :=
  (forall found, found ∈ s.trackerFound e ->
    found.arena.size < 2 ^ 63 ∧ found.bytes < 2 ^ 63 ∧
      -2 ^ 63 ≤ found.post ∧ found.post < 2 ^ 63) ∧
  (forall arena, arena ∈ s.arenaDestroyed e -> arena.size < 2 ^ 63)

/-- No `grow_by` changes the size of an arena. -/
def GrowsNothing (s : State) : Event -> Prop
  | .growBy addr n => forall arena, arena ∈ s.arenas.lookup addr ->
      n = 0 ∨ arena.size = sizeMax
  | _ => True

instance (s : State) (e : Event) : Decidable (CastsExact s e) :=
  inferInstanceAs (Decidable (_ ∧ _))

instance (s : State) (e : Event) : Decidable (GrowsNothing s e) := by
  unfold GrowsNothing
  split <;> infer_instance

/-- The two ways in which a tracker is found. -/
inductive Finds (s : State) : Event -> Found -> Prop where
  | lock {thread : Thread} {bytes : Nat} {ref : ArenaRef} {arena : Arena} {pre : Int}
      (spurious : Bool)
      (hframe : s.threads.lookup thread = some (.locking bytes (some ref)))
      (hfind : s.findTracker ref.addr = some (arena, pre)) :
      Finds s (.tick thread spurious)
        { ref := ref, arena := arena, pre := pre, post := pre + bytes, bytes := bytes }
  | dealloc {id : AllocId} {alloc : Allocation} {ref : ArenaRef} {arena : Arena} {pre : Int}
      (thread : Thread) (halloc : s.liveAllocs.lookup id = some alloc)
      (href : alloc.arena = some ref) (hfind : s.findTracker ref.addr = some (arena, pre)) :
      Finds s (.deallocateMultipleBlocks thread id)
        { ref := ref, arena := arena, pre := pre, post := pre - alloc.bytes,
          bytes := alloc.bytes }

theorem finds_of_trackerFound {s : State} {e : Event} {found : Found}
    (h : found ∈ s.trackerFound e) : Finds s e found := by
  cases e with
  | tick thread spurious =>
      simp only [State.trackerFound] at h
      split at h
      · rename_i bytes ref hframe
        rcases Option.mem_map.mp h with ⟨⟨arena, pre⟩, hfind, rfl⟩
        exact .lock spurious hframe hfind
      · cases h
  | deallocateMultipleBlocks thread id =>
      simp only [State.trackerFound] at h
      split at h
      · cases h
      · rename_i alloc halloc
        split at h
        · cases h
        · rename_i ref href
          rcases Option.mem_map.mp h with ⟨⟨arena, pre⟩, hfind, rfl⟩
          exact .dealloc thread halloc href hfind
  | _ => cases h

theorem trackerFound_lock {s : State} {thread : Thread} {bytes : Nat} {ref : ArenaRef}
    {arena : Arena} {pre : Int} (spurious : Bool)
    (hframe : s.threads.lookup thread = some (.locking bytes (some ref)))
    (hfind : s.findTracker ref.addr = some (arena, pre)) :
    { ref := ref, arena := arena, pre := pre, post := pre + bytes, bytes := bytes } ∈
      s.trackerFound (.tick thread spurious) := by
  simp [State.trackerFound, hframe, hfind]

theorem trackerFound_dealloc {s : State} {id : AllocId} {alloc : Allocation}
    {ref : ArenaRef} {arena : Arena} {pre : Int} (thread : Thread)
    (halloc : s.liveAllocs.lookup id = some alloc) (href : alloc.arena = some ref)
    (hfind : s.findTracker ref.addr = some (arena, pre)) :
    { ref := ref, arena := arena, pre := pre, post := pre - alloc.bytes,
      bytes := alloc.bytes } ∈
      s.trackerFound (.deallocateMultipleBlocks thread id) := by
  simp [State.trackerFound, halloc, href, hfind]

theorem CastsExact.lock {s : State} {thread : Thread} {spurious : Bool} {bytes : Nat}
    {ref : ArenaRef} {arena : Arena} {pre : Int}
    (h : CastsExact s (.tick thread spurious))
    (hframe : s.threads.lookup thread = some (.locking bytes (some ref)))
    (hfind : s.findTracker ref.addr = some (arena, pre)) :
    arena.size < 2 ^ 63 ∧ bytes < 2 ^ 63 ∧ -2 ^ 63 ≤ pre + bytes ∧
      pre + bytes < 2 ^ 63 :=
  h.left _ (trackerFound_lock spurious hframe hfind)

theorem CastsExact.dealloc {s : State} {thread : Thread} {id : AllocId}
    {alloc : Allocation} {ref : ArenaRef} {arena : Arena} {pre : Int}
    (h : CastsExact s (.deallocateMultipleBlocks thread id))
    (halloc : s.liveAllocs.lookup id = some alloc) (href : alloc.arena = some ref)
    (hfind : s.findTracker ref.addr = some (arena, pre)) :
    arena.size < 2 ^ 63 ∧ alloc.bytes < 2 ^ 63 ∧ -2 ^ 63 ≤ pre - alloc.bytes ∧
      pre - alloc.bytes < 2 ^ 63 :=
  h.left _ (trackerFound_dealloc thread halloc href hfind)

theorem growBy_of_nothing {bytes n : Nat} (h : n = 0 ∨ bytes = sizeMax) :
    Memory.growBy bytes n = bytes := by
  unfold Memory.growBy
  split
  · omega
  · omega

/-- A growth that adds nothing stores the arena as it is. -/
theorem insert_growBy {arenas : Table Addr Arena} {addr : Addr} {arena : Arena} {n : Nat}
    (h : n = 0 ∨ arena.size = sizeMax) :
    arenas.insert addr { arena with size := Memory.growBy arena.size n } =
      arenas.insert addr arena := by
  rw [growBy_of_nothing h]

/-!
# Prices
-/

/-- The charge of a request is what its reservation has no room for, and its rollback
is exact. -/
def Priced (arenas : Table Addr Arena) : Section -> Prop
  | .blocks request =>
      request.charge ≤ request.bytes ∧
      (request.arena = none -> request.charge = request.bytes) ∧
      (forall ref arena tracker, request.arena = some ref ->
        arenas.lookup ref.addr = some arena -> arena.tracker = some tracker ->
        wrapInt (tracker - toSigned request.bytes) = tracker - request.bytes ∧
        room arena.size (tracker - request.bytes) + request.charge =
          room arena.size tracker + request.bytes)
  | .release _ => True

section Steps

variable {c : Config} {s t : State} {e : Event}

theorem priced_lockTracked {arenas : Table Addr Arena} {addr : Addr} {rid : Nat}
    {arena : Arena} {pre : Int} {bytes : Nat} (hsize : arena.size < 2 ^ 63)
    (hbytes : bytes < 2 ^ 63) (hlow : -2 ^ 63 ≤ pre) (hhigh : pre + bytes < 2 ^ 63) :
    Priced (arenas.insert addr
        { arena with tracker := some (wrapInt (pre + toSigned bytes)) })
      (.blocks { bytes := bytes, arena := some { addr := addr, rid := rid },
                 charge := chargeFor arena.size pre bytes }) := by
  have hle := chargeFor_le hsize hbytes hlow hhigh
  simp only [Priced]
  refine ⟨hle, fun h => (Option.some_ne_none _ h).elim, ?_⟩
  intro ref new tracker href hnew htracker
  cases href
  rw [Table.lookup_insert_self] at hnew
  cases hnew
  cases htracker
  rw [toSigned_of_lt hbytes, wrapInt_of_range (by omega) hhigh]
  constructor
  · exact wrapInt_of_range (by omega) (by omega)
  · have hroom := chargeFor_add_room hsize hbytes hlow hhigh
    dsimp only
    rw [Int.add_sub_cancel]
    omega

theorem priced_move (hsec : Sections s) (h : Guarded Priced s) (hexact : CastsExact s e)
    (hgrows : GrowsNothing s e) (hmove : Move c s e t) : Guarded Priced t := by
  refine h.move hmove ?_ ?_ ?_ ?_
  · intro bytes
    exact ⟨Nat.le_refl _, fun _ => rfl, fun _ _ _ href => by cases href⟩
  · intro thread spurious bytes ref arena pre he hframe _ hfind
    subst he
    rcases hexact.lock hframe hfind with ⟨hsize, hbytes, _, hhigh⟩
    have harena := findTracker_eq_some.mp hfind
    have hrange := hsec.range _ _ _ harena.left harena.right
    exact priced_lockTracked hsize hbytes hrange.left hhigh
  · intro addr arena _
    exact trivial
  · intro addr n arena part he harena hfits
    subst he
    rw [insert_growBy (hgrows arena harena)]
    cases part with
    | release target => exact trivial
    | blocks request =>
        refine ⟨hfits.left, hfits.right.left, ?_⟩
        intro ref new tracker href hnew htracker
        rcases Table.lookup_of_lookup_insert hnew with ⟨heq, rfl⟩ | ⟨_, hold⟩
        · exact hfits.right.right ref new tracker href (heq ▸ harena) htracker
        · exact hfits.right.right ref new tracker href hold htracker

/-!
# The balance of a step
-/

/-- What a release leaves on the counter when it takes a tracker below 0 for 0. -/
def Arena.forgiven (arena : Arena) : Nat :=
  match arena.tracker with
  | none => 0
  | some tracker => room arena.size tracker - room arena.size (max 0 tracker)

def State.forgiven (s : State) (e : Event) : Nat :=
  match s.arenaDestroyed e with
  | none => 0
  | some arena => arena.forgiven

theorem forgiven_of_calls {thread : Thread} (h : e.calls = some thread) :
    s.forgiven e = 0 := by
  cases e <;> first | rfl | cases h

/-- A rollback of the tracker gives back the room that the request had taken. -/
theorem unusedIn_rollBack {request : Request} (hkeeps : KeepsTracker s.arenas (.blocks request))
    (hpriced : Priced s.arenas (.blocks request)) :
    unusedIn (s.rollBack request) + request.charge =
      unusedIn s.arenas + request.bytes := by
  unfold State.rollBack
  cases href : request.arena with
  | none =>
      dsimp only
      rw [hpriced.right.left href]
  | some ref =>
      rcases hkeeps ref href with ⟨arena, tracker, harena, htracker⟩
      have hprice := hpriced.right.right ref arena tracker href harena htracker
      dsimp only
      rw [findTracker_eq_some.mpr ⟨harena, htracker⟩]
      dsimp only [State.setTracker]
      rw [hprice.left]
      have hsum := unusedIn_insert harena
        { arena with tracker := some (tracker - request.bytes) }
      have hold : arena.unused = room arena.size tracker := by
        unfold Arena.unused
        rw [htracker]
      have hnew : Arena.unused { arena with tracker := some (tracker - request.bytes) } =
          room arena.size (tracker - request.bytes) := rfl
      omega

/-- What is credited is owed. -/
theorem credit_bytes_le (hpriced : Guarded Priced s) {thread : Thread} {credit : Credit}
    {loop : CasLoop} (hframe : s.threads.lookup thread = some (.crediting credit loop)) :
    credit.bytes ≤ credit.owed := by
  cases credit with
  | blocks request text => exact (hpriced _ _ _ hframe rfl).right.left
  | deallocation bytes => exact Nat.le_refl _
  | single bytes text => exact Nat.le_refl _
  | release addr bytes => exact Nat.le_refl _

/-- What is credited is on the counter. -/
theorem credit_covered (hpriced : Guarded Priced s)
    (hcovered : s.committed ≤ s.counter.total) {thread : Thread} {credit : Credit}
    {loop : CasLoop} (hframe : s.threads.lookup thread = some (.crediting credit loop)) :
    credit.bytes ≤ s.counter.total := by
  have hbytes := credit_bytes_le hpriced hframe
  have howed := owed_le hframe
  change credit.owed ≤ _ at howed
  unfold State.committed at hcovered
  omega

theorem balance_granted (hpriced : Guarded Priced s) {thread : Thread} {charge : Charge}
    {pc : DoReserve} {counter : Counter}
    (hframe : s.threads.lookup thread = some (.charging charge pc))
    (hcharged : pc.added charge.bytes = charge.bytes)
    (htotal : counter.total = s.counter.total) :
    ({ s with counter := counter }.granted thread charge).counter.total + s.committed =
      s.counter.total + ({ s with counter := counter }.granted thread charge).committed := by
  cases charge with
  | reservation bytes =>
      have hsum := owedIn_insert hframe (.registering bytes)
      simp only [State.granted, State.setFrame, State.committed]
      simp only [Frame.owed, Charge.unbacked, Charge.bytes] at hsum hcharged
      omega
  | blocks request =>
      have hle := (hpriced _ _ _ hframe rfl).right.left
      have hsum := owedIn_insert hframe (.allocating request)
      simp only [State.granted, State.setFrame, State.committed]
      simp only [Frame.owed, Charge.unbacked, Charge.bytes] at hsum hcharged
      omega
  | single bytes =>
      have hsum := owedIn_insert hframe (.allocatingSingle bytes)
      simp only [State.granted, State.setFrame, State.committed]
      simp only [Frame.owed, Charge.unbacked, Charge.bytes] at hsum hcharged
      omega

theorem balance_refused (hsec : Sections s) (hpriced : Guarded Priced s)
    {thread : Thread} {charge : Charge} {pc : DoReserve}
    (hframe : s.threads.lookup thread = some (.charging charge pc))
    (hcharged : pc.added charge.bytes = 0) :
    (s.refused c thread charge).counter.total + s.committed =
      s.counter.total + (s.refused c thread charge).committed := by
  cases charge with
  | reservation bytes =>
      have hsum := owedIn_insert hframe (.done .null)
      simp only [State.refused, State.setFrame, State.committed]
      simp only [Frame.owed, Charge.unbacked] at hsum
      omega
  | blocks request =>
      have hkeeps := (hsec.guarded _ _ _ hframe rfl).right
      have hprice := (hpriced _ _ _ hframe rfl).right
      have hback := unusedIn_rollBack hkeeps hprice
      have hle := hprice.left
      simp only [State.refused, State.failBlocks, State.committed]
      have hsum := owedIn_insert hframe (.done (.threw
        (State.oomText request.bytes ++ "(upstream_tracked=" ++
          toString request.charge ++ ") within memory limit " ++ toString c.memLimit)))
      simp only [Frame.owed, Charge.unbacked] at hsum
      omega
  | single bytes =>
      simp only [State.refused, State.setFrame, State.committed]
      have hsum := owedIn_insert hframe (.done (.threw
        (State.oomText bytes ++ "within memory limit " ++ toString c.memLimit)))
      simp only [Frame.owed, Charge.unbacked] at hsum
      omega

theorem balance_credited (hsec : Sections s) (hpriced : Guarded Priced s)
    (hcovered : s.committed ≤ s.counter.total) {thread : Thread} {credit : Credit}
    {loop : CasLoop} (hframe : s.threads.lookup thread = some (.crediting credit loop)) :
    ((s.setTotal (s.totalAfter credit)).credited thread credit).counter.total +
        s.committed =
      s.counter.total +
        ((s.setTotal (s.totalAfter credit)).credited thread credit).committed := by
  have hle := credit_covered hpriced hcovered hframe
  have htotal : s.totalAfter credit + credit.bytes = s.counter.total := by
    unfold State.totalAfter
    rw [if_pos hle]
    omega
  cases credit with
  | deallocation bytes =>
      have hsum := owedIn_insert hframe (.done .finished)
      simp only [State.credited, State.setFrame, State.setTotal, State.committed]
      simp only [Frame.owed, Credit.owed, Credit.bytes] at hsum htotal
      omega
  | blocks request text =>
      have hkeeps := (hsec.guarded _ _ _ hframe rfl).right
      have hprice := (hpriced _ _ _ hframe rfl).right
      have hback := unusedIn_rollBack hkeeps hprice
      have hsum := owedIn_insert hframe (.done (.threw text))
      have hsame : (s.setTotal (s.totalAfter (.blocks request text))).rollBack request =
          s.rollBack request := rfl
      simp only [State.credited, State.failBlocks, State.committed, hsame]
      simp only [State.setTotal]
      simp only [Frame.owed, Credit.owed, Credit.bytes] at hsum htotal
      omega
  | single bytes text =>
      have hsum := owedIn_insert hframe (.done (.threw text))
      simp only [State.credited, State.setFrame, State.setTotal, State.committed]
      simp only [Frame.owed, Credit.owed, Credit.bytes] at hsum htotal
      omega
  | release addr bytes =>
      rcases (hsec.guarded _ _ _ hframe rfl).right with ⟨arena, harena, htracker⟩
      have hunused : arena.unused = 0 := by
        unfold Arena.unused
        rw [htracker]
      have hsum := owedIn_insert hframe (.done .finished)
      have hroom := unusedIn_erase harena
      simp only [State.credited, State.setTotal, State.committed]
      simp only [Frame.owed, Credit.owed, Credit.bytes] at hsum htotal
      omega

theorem balance_takeTracked (hsec : Sections s) {thread : Thread} {id : AllocId}
    {alloc : Allocation} {ref : ArenaRef} {arena : Arena} {pre : Int}
    (hexact : CastsExact s (.deallocateMultipleBlocks thread id))
    (hidle : s.threads.lookup thread = none)
    (halloc : s.liveAllocs.lookup id = some alloc) (href : alloc.arena = some ref)
    (hfind : s.findTracker ref.addr = some (arena, pre)) :
    s.committed = State.committed { s with
      arenas := s.setTracker ref.addr arena (wrapInt (pre - toSigned alloc.bytes))
      liveAllocs := s.liveAllocs.erase id
      threads := s.threads.insert thread (.freeing alloc.ptr alloc.bytes
        (creditFor arena.size pre alloc.bytes)) } := by
  rcases hexact.dealloc halloc href hfind with ⟨hsize, hbytes, hlow, hhigh⟩
  have harena := findTracker_eq_some.mp hfind
  have hrange := hsec.range _ _ _ harena.left harena.right
  have hcredit := creditFor_add_room hsize hbytes hlow hrange.right
  have hroom := unusedIn_insert harena.left
    { arena with tracker := some (wrapInt (pre - toSigned alloc.bytes)) }
  rw [toSigned_of_lt hbytes, wrapInt_of_range hlow hhigh] at hroom ⊢
  have hold : arena.unused = room arena.size pre := by
    unfold Arena.unused
    rw [harena.right]
  rw [hold] at hroom
  have hsum := owedIn_insert_new hidle (.freeing alloc.ptr alloc.bytes
    (creditFor arena.size pre alloc.bytes))
  have hlive := liveIn_erase halloc
  simp only [Frame.owed] at hsum
  simp only [Arena.unused] at hroom
  simp only [State.committed, State.setTracker]
  clear hsize hbytes hlow hhigh hrange
  omega

theorem balance_lockTracked (hsec : Sections s) {thread : Thread} {spurious : Bool}
    {bytes : Nat} {ref : ArenaRef} {arena : Arena} {pre : Int}
    (hexact : CastsExact s (.tick thread spurious))
    (hframe : s.threads.lookup thread = some (.locking bytes (some ref)))
    (hfind : s.findTracker ref.addr = some (arena, pre)) :
    s.committed = State.committed { s with
      arenas := s.setTracker ref.addr arena (wrapInt (pre + toSigned bytes))
      mutex := some thread
      threads := s.threads.insert thread
        (.charging (.blocks { bytes := bytes, arena := some ref,
                              charge := chargeFor arena.size pre bytes })
          .start) } := by
  rcases hexact.lock hframe hfind with ⟨hsize, hbytes, hlow, hhigh⟩
  have harena := findTracker_eq_some.mp hfind
  have hrange := hsec.range _ _ _ harena.left harena.right
  have hcharge := chargeFor_add_room hsize hbytes hrange.left hhigh
  have hle := chargeFor_le hsize hbytes hrange.left hhigh
  have hroom := unusedIn_insert harena.left
    { arena with tracker := some (wrapInt (pre + toSigned bytes)) }
  rw [toSigned_of_lt hbytes, wrapInt_of_range hlow hhigh] at hroom ⊢
  have hold : arena.unused = room arena.size pre := by
    unfold Arena.unused
    rw [harena.right]
  rw [hold] at hroom
  have hsum := owedIn_insert hframe
    (.charging (.blocks { bytes := bytes, arena := some ref,
                          charge := chargeFor arena.size pre bytes }) .start)
  simp only [Frame.owed, Charge.unbacked, DoReserve.added_start] at hsum
  simp only [Arena.unused] at hroom
  simp only [State.committed, State.setTracker]
  clear hsize hbytes hlow hhigh hrange
  omega

/-- A release credits the room there is, short of what it forgives. -/
theorem reclaimed_add_forgiven {arena : Arena} {tracker : Int}
    (htracker : arena.tracker = some tracker) (hsize : arena.size < 2 ^ 63) :
    reclaimed arena.size tracker + arena.forgiven = arena.unused := by
  unfold Arena.forgiven Arena.unused
  rw [reclaimed_eq tracker hsize, htracker]
  dsimp only
  unfold room
  omega

theorem balance_destroy {thread : Thread} {addr : Addr} {arena : Arena} {tracker : Int}
    (hexact : CastsExact s (.destroy thread addr))
    (hidle : s.threads.lookup thread = none)
    (harena : s.arenas.lookup addr = some arena)
    (htracker : arena.tracker = some tracker) :
    s.committed = State.committed { s with
      arenas := s.arenas.insert addr { arena with held := false, tracker := none }
      mutex := some thread
      threads := s.threads.insert thread
        (.crediting (.release addr (reclaimed arena.size tracker)) .load) } +
      s.forgiven (.destroy thread addr) := by
  have hreclaimed := reclaimed_add_forgiven htracker (hexact.right arena harena)
  have hsum := owedIn_release hidle addr (reclaimed arena.size tracker)
  have hroom := unusedIn_insert harena { arena with held := false, tracker := none }
  have hnone : Arena.unused { arena with held := false, tracker := none } = 0 := rfl
  have hforgiven : s.forgiven (.destroy thread addr) = arena.forgiven := by
    simp only [State.forgiven, State.arenaDestroyed, harena]
  rw [hforgiven]
  simp only [State.committed]
  omega

/--
The balance: whatever a step adds to the counter it adds to what the counter covers,
and the other way round.  Only what a release forgives is left over.
-/
theorem balance_move (howned : Owned s) (hsec : Sections s) (hpriced : Guarded Priced s)
    (hlimit : c.memLimit ≠ 0) (hcovered : s.committed ≤ s.counter.total)
    (hexact : CastsExact s e) (hgrows : GrowsNothing s e) (hmove : Move c s e t) :
    t.counter.total + s.committed =
      s.counter.total + t.committed + s.forgiven e := by
  cases hmove with
  | start hcalls hidle hfresh =>
      rename_i frame
      have hsum := owedIn_insert_new hidle frame
      rw [hfresh.owed_eq] at hsum
      rw [forgiven_of_calls hcalls]
      simp only [State.committed, State.setFrame]
      omega
  | startLocking hidle hbytes harena =>
      rename_i bytes res arena
      have hsum := owedIn_insert_new hidle (.locking (allocBytes bytes c.blockSize) arena)
      simp only [Frame.owed] at hsum
      simp only [State.committed, State.setFrame, State.forgiven, State.arenaDestroyed]
      omega
  | take hidle hmutex halloc huntracked =>
      rename_i id alloc
      have hsum := owedIn_insert_new hidle (.freeing alloc.ptr alloc.bytes alloc.bytes)
      have hlive := liveIn_erase halloc
      simp only [Frame.owed] at hsum
      simp only [State.committed, State.forgiven, State.arenaDestroyed]
      omega
  | takeTracked hidle hmutex halloc href hfind =>
      have hsame := balance_takeTracked hsec hexact hidle halloc href hfind
      simp only [State.forgiven, State.arenaDestroyed]
      omega
  | takeSingle hidle hptr =>
      rename_i ptr bytes
      have hsum := owedIn_insert_new hidle (.freeing ptr bytes bytes)
      have hsingle : singlesIn s.singles = bytes + singlesIn (s.singles.erase ptr) :=
        Table.sum_of_lookup hptr (fun _ bytes => bytes)
      simp only [Frame.owed] at hsum
      simp only [State.committed, State.forgiven, State.arenaDestroyed]
      omega
  | destroyReleased hidle hmutex harena htracker =>
      rename_i addr arena
      have hsum := owedIn_insert_new hidle (.done .finished)
      have hroom := unusedIn_erase harena
      have hunused : arena.unused = 0 := by
        unfold Arena.unused
        rw [htracker]
      have hforgiven : arena.forgiven = 0 := by
        unfold Arena.forgiven
        rw [htracker]
      simp only [Frame.owed] at hsum
      simp only [State.committed, State.forgiven, State.arenaDestroyed, harena]
      omega
  | destroy hidle hmutex harena htracker =>
      have hbalance := balance_destroy hexact hidle harena htracker
      dsimp only at hbalance ⊢
      omega
  | grow harena =>
      rename_i addr n arena
      rw [insert_growBy (hgrows arena harena)]
      have hroom := unusedIn_insert harena arena
      simp only [State.committed, State.forgiven, State.arenaDestroyed]
      omega
  | chargeOn hframe hstep =>
      rename_i thread spurious charge pc pc' counter
      have hbounded := pc.step_bounded hlimit charge.bytes spurious s.counter
      rw [hstep] at hbounded
      have hadded := hbounded.left
      have hsum := owedIn_insert hframe (.charging charge pc')
      simp only [Frame.owed] at hsum
      simp only [State.committed, State.forgiven, State.arenaDestroyed]
      omega
  | granted hframe hstep =>
      rename_i thread spurious charge pc counter
      have hbounded := pc.step_bounded hlimit charge.bytes spurious s.counter
      rw [hstep] at hbounded
      have hbalance := balance_granted hpriced hframe hbounded.right hbounded.left
      simp only [State.forgiven, State.arenaDestroyed]
      omega
  | refused hframe hstep =>
      rename_i thread spurious charge pc counter
      have hbounded := pc.step_bounded hlimit charge.bytes spurious s.counter
      rw [hstep] at hbounded
      have hsame : counter = s.counter := hbounded.left
      subst hsame
      have hbalance := balance_refused (c := c) hsec hpriced hframe hbounded.right
      simp only [State.forgiven, State.arenaDestroyed]
      omega
  | lock hframe hmutex =>
      rename_i bytes
      have hsum := owedIn_insert hframe
        (.charging (.blocks { bytes := bytes, arena := none, charge := bytes }) .start)
      simp only [Frame.owed, Charge.unbacked, DoReserve.added_start] at hsum
      simp only [State.committed, State.forgiven, State.arenaDestroyed]
      omega
  | lockRefused hframe hfind =>
      rename_i ref text
      have hsum := owedIn_insert hframe (.done (.threw text))
      simp only [Frame.owed] at hsum
      simp only [State.committed, State.setFrame, State.forgiven, State.arenaDestroyed]
      omega
  | lockTracked hframe hmutex hfind =>
      have hsame := balance_lockTracked hsec hexact hframe hfind
      simp only [State.forgiven, State.arenaDestroyed]
      omega
  | freed hframe =>
      rename_i ptr bytes credit
      have hsum := owedIn_insert hframe (.crediting (.deallocation credit) .load)
      simp only [Frame.owed, Credit.owed] at hsum
      simp only [State.committed, State.hipFreeHost, State.forgiven,
        State.arenaDestroyed]
      omega
  | creditOn hframe =>
      rename_i credit loop
      have hsum := owedIn_insert hframe (.crediting credit (.cas s.counter.total))
      simp only [Frame.owed] at hsum
      simp only [State.committed, State.setFrame, State.forgiven, State.arenaDestroyed]
      omega
  | credited hframe =>
      have hbalance := balance_credited hsec hpriced hcovered hframe
      simp only [State.forgiven, State.arenaDestroyed]
      omega
  | register hframe hfree hmutex =>
      rename_i addr bytes
      have hsum := owedIn_insert hframe (.done (.reservation addr))
      have hroom := unusedIn_insert_new hfree
        { rid := s.created.length, size := bytes, charged := bytes, held := true,
          tracker := some 0 }
      simp only [Frame.owed] at hsum
      simp only [Arena.unused, room] at hroom
      simp only [State.committed, State.forgiven, State.arenaDestroyed]
      omega
  | mallocFailed hframe =>
      rename_i text request
      have hsum := owedIn_insert hframe (.crediting (.blocks request text) .load)
      simp only [Frame.owed, Credit.owed] at hsum
      simp only [State.committed, State.setFrame, State.forgiven, State.arenaDestroyed]
      omega
  | mallocSingleFailed hframe =>
      rename_i text bytes
      have hsum := owedIn_insert hframe (.crediting (.single bytes text) .load)
      simp only [Frame.owed, Credit.owed] at hsum
      simp only [State.committed, State.setFrame, State.forgiven, State.arenaDestroyed]
      omega
  | malloc hframe hptr =>
      rename_i ptr request
      have hsum := owedIn_insert hframe (.constructing request ptr)
      simp only [Frame.owed] at hsum
      simp only [State.committed, State.forgiven, State.arenaDestroyed]
      omega
  | mallocSingle hframe hptr =>
      rename_i ptr bytes
      have hsum := owedIn_insert hframe (.done (.single ptr))
      have hsingle : singlesIn (s.singles.insert ptr bytes) =
          bytes + singlesIn s.singles :=
        Table.sum_insert_of_none (howned.single_free hptr) bytes (fun _ bytes => bytes)
      simp only [Frame.owed] at hsum
      simp only [State.committed, State.forgiven, State.arenaDestroyed]
      omega
  | construct hframe hid =>
      rename_i id request ptr
      have hsum := owedIn_insert hframe (.done (.blocks (some id)))
      have hlive := liveIn_insert hid
        { ptr := ptr, bytes := request.bytes, arena := request.arena }
      simp only [Frame.owed] at hsum
      dsimp only at hlive
      simp only [State.committed, State.forgiven, State.arenaDestroyed]
      omega
  | throws exception hframe =>
      rename_i request ptr
      have hsum := owedIn_insert hframe (.done (.raised exception))
      have hlost := lostIn_cons
        { ptr := ptr, bytes := request.bytes, arena := request.arena } s.lost
      simp only [Frame.owed] at hsum
      dsimp only at hlost
      simp only [State.committed, State.forgiven, State.arenaDestroyed]
      omega
  | ret hframe =>
      have hsum := owedIn_erase hframe
      simp only [Frame.owed] at hsum
      simp only [State.committed, State.forgiven, State.arenaDestroyed]
      omega

end Steps

end FixedSizeHost
end Memory
end Cuda2Rocm
