import Cuda2Rocm.Memory.FixedSizeHost.Covered

/-!
# Shares of the counter

What the counter covers splits by reservations: into what each of them has a claim
to, what was allocated under none of them, and the calls in flight.
-/

namespace Cuda2Rocm
namespace Memory
namespace FixedSizeHost

open Foundation

/-- What a section has put into a tracker and will not charge. -/
def Section.backed : Section -> Nat
  | .blocks request => request.bytes - request.charge
  | .release _ => 0

def Section.arena : Section -> Option ArenaRef
  | .blocks request => request.arena
  | .release _ => none

def Frame.backed (frame : Frame) : Nat :=
  match frame.inSection with
  | none => 0
  | some part => part.backed

def Frame.arena (frame : Frame) : Option ArenaRef :=
  match frame.inSection with
  | none => none
  | some part => part.arena

def backedUnder (mine : ArenaRef -> Bool) (threads : Table Thread Frame) : Nat :=
  threads.sum (fun _ frame => bytesUnder mine frame.arena frame.backed)

/-- What a call in flight has charged, or will credit. -/
def Frame.inFlight : Frame -> Nat
  | .charging charge pc => pc.added charge.bytes
  | .registering bytes => bytes
  | .locking _ _ => 0
  | .allocating request => request.charge
  | .constructing request _ => request.charge
  | .allocatingSingle bytes => bytes
  | .freeing _ _ credit => credit
  | .crediting credit _ => credit.bytes
  | .done _ => 0

def State.inFlight (s : State) : Nat := s.threads.sum (fun _ frame => frame.inFlight)

/-- The sizes of the live reservations. -/
def reservedIn (arenas : Table Addr Arena) : Nat :=
  arenas.sum (fun _ arena =>
    match arena.tracker with
    | none => 0
    | some _ => arena.size)

theorem totalReservedBytes_le (s : State) : s.totalReservedBytes ≤ reservedIn s.arenas :=
  Nat.mod_le _ _

/-- A call is owed what it has in flight and what its tracker already backs. -/
theorem Frame.owed_eq {frame : Frame}
    (hle : forall request, frame.inSection = some (.blocks request) ->
      request.charge ≤ request.bytes) : frame.owed = frame.inFlight + frame.backed := by
  cases frame with
  | charging charge pc =>
      cases charge with
      | blocks request => exact Nat.add_comm _ _
      | reservation bytes => exact Nat.add_comm _ _
      | single bytes => exact Nat.add_comm _ _
  | allocating request =>
      have hcharge := hle request rfl
      show request.bytes = request.charge + (request.bytes - request.charge)
      omega
  | constructing request ptr =>
      have hcharge := hle request rfl
      show request.bytes = request.charge + (request.bytes - request.charge)
      omega
  | crediting credit loop =>
      cases credit with
      | blocks request text =>
          have hcharge := hle request rfl
          show request.bytes = request.charge + (request.bytes - request.charge)
          omega
      | deallocation bytes => rfl
      | single bytes text => rfl
      | release addr bytes => rfl
  | registering bytes => rfl
  | locking bytes arena => rfl
  | allocatingSingle bytes => rfl
  | freeing ptr bytes credit => rfl
  | done outcome => rfl

section Sums

variable {c : Config} {s : State}

theorem owedIn_eq (hpriced : Guarded Priced s) :
    owedIn s.threads = s.inFlight + s.threads.sum (fun _ frame => frame.backed) := by
  unfold owedIn State.inFlight
  rw [← Table.sum_add]
  apply Table.sum_congr
  intro thread frame hframe
  exact Frame.owed_eq (fun request hpart => (hpriced thread frame _ hframe hpart).right.left)

/-- A total over calls in sections has one share at most. -/
theorem sum_of_section {fits : Table Addr Arena -> Section -> Prop} (h : Guarded fits s)
    {thread : Thread} {frame : Frame} {part : Section}
    (hframe : s.threads.lookup thread = some frame) (hpart : frame.inSection = some part)
    {f : Frame -> Nat} (hf : forall frame, frame.inSection = none -> f frame = 0) :
    s.threads.sum (fun _ frame => f frame) = f frame := by
  rw [Table.sum_of_lookup hframe]
  have hrest : (s.threads.erase thread).sum (fun _ frame => f frame) = 0 := by
    refine (Table.sum_congr ?_).trans (Table.sum_zero (s.threads.erase thread))
    intro other frame' hother
    have hold := Table.lookup_of_lookup_erase hother
    exact hf frame' (h.alone hframe hpart hold.left hold.right)
  rw [hrest]
  exact Nat.add_zero _

/-- Taking a request in flight out of its tracker gives back the room it is priced at. -/
theorem room_settled (hpriced : Guarded Priced s) {addr : Addr} {arena : Arena}
    {tracker : Int} (harena : s.arenas.lookup addr = some arena)
    (htracker : arena.tracker = some tracker) {mine : ArenaRef -> Bool}
    (hmine : forall ref, mine ref = true -> ref.addr = addr) :
    room arena.size (tracker - pendingUnder mine s.threads) =
      room arena.size tracker + backedUnder mine s.threads := by
  by_cases hsome : exists thread frame request ref,
      s.threads.lookup thread = some frame ∧
      frame.inSection = some (.blocks request) ∧ request.arena = some ref ∧
      mine ref = true
  · rcases hsome with ⟨thread, frame, request, ref, hframe, hpart, href, htrue⟩
    have hprice := (hpriced thread frame _ hframe hpart).right
    have hroom := (hprice.right.right ref arena tracker href
      (by rw [hmine ref htrue]; exact harena) htracker).right
    have hle := hprice.left
    have hpending : pendingUnder mine s.threads = request.bytes := by
      refine (sum_of_section hpriced hframe hpart (f := Frame.under mine) ?_).trans ?_
      · intro frame' hnone
        unfold Frame.under
        rw [hnone]
      · unfold Frame.under
        rw [hpart]
        show bytesUnder mine request.arena request.bytes = request.bytes
        rw [href]
        exact bytesUnder_of_mine htrue _
    have hbacked : backedUnder mine s.threads = request.bytes - request.charge := by
      refine (sum_of_section hpriced hframe hpart
        (f := fun frame => bytesUnder mine frame.arena frame.backed) ?_).trans ?_
      · intro frame' hnone
        unfold Frame.arena
        rw [hnone]
        rfl
      · unfold Frame.arena Frame.backed
        rw [hpart]
        show bytesUnder mine request.arena (request.bytes - request.charge) = _
        rw [href]
        exact bytesUnder_of_mine htrue _
    rw [hpending, hbacked]
    omega
  · have hnone : forall thread frame request, s.threads.lookup thread = some frame ->
        frame.inSection = some (.blocks request) -> forall ref,
        request.arena = some ref -> mine ref = false := by
      intro thread frame request hframe hpart ref href
      cases htrue : mine ref with
      | false => rfl
      | true => exact absurd ⟨thread, frame, request, ref, hframe, hpart, href, htrue⟩ hsome
    have hpending : pendingUnder mine s.threads = 0 := by
      refine (Table.sum_congr ?_).trans (Table.sum_zero s.threads)
      intro thread frame hframe
      unfold Frame.under
      split
      · rfl
      · rename_i part hpart
        cases part with
        | release target => rfl
        | blocks request =>
            exact bytesUnder_of_not (hnone thread frame request hframe hpart)
    have hbacked : backedUnder mine s.threads = 0 := by
      refine (Table.sum_congr ?_).trans (Table.sum_zero s.threads)
      intro thread frame hframe
      unfold Frame.arena
      split
      · rfl
      · rename_i part hpart
        cases part with
        | release target => rfl
        | blocks request =>
            exact bytesUnder_of_not (hnone thread frame request hframe hpart)
    rw [hpending, hbacked]
    simp

/-- What an arena pointer was taken from has a tracker that counts it. -/
def countedIn (near : Addr -> Nat -> ArenaRef -> Bool) (arenas : Table Addr Arena)
    (arena : Option ArenaRef) : Bool :=
  match arena with
  | none => false
  | some ref =>
      match arenas.lookup ref.addr with
      | none => false
      | some found => found.tracker.isSome && near ref.addr found.rid ref

/-- Bytes split by the reservations they are counted for, and those that none counts. -/
theorem sum_by_arena {key value : Type _} [DecidableEq key]
    {near : Addr -> Nat -> ArenaRef -> Bool}
    (hnear : forall addr rid ref, near addr rid ref = true -> ref.addr = addr)
    (arenas : Table Addr Arena) (table : Table key value)
    (arenaOf : value -> Option ArenaRef) (bytes : value -> Nat) :
    arenas.sum (fun addr arena =>
        if arena.tracker.isSome then
          table.sum (fun _ v => bytesUnder (near addr arena.rid) (arenaOf v) (bytes v))
        else 0) +
      table.sum (fun _ v => if countedIn near arenas (arenaOf v) then 0 else bytes v) =
      table.sum (fun _ v => bytes v) := by
  have hsplit := Table.sum_by_home arenas table (fun v => (arenaOf v).map ArenaRef.addr)
    (fun arena v => arena.tracker.isSome &&
      match arenaOf v with
      | none => false
      | some ref => near ref.addr arena.rid ref) bytes
  rw [← hsplit]
  congr 1
  · apply Table.sum_congr
    intro addr arena _
    cases htracker : arena.tracker with
    | none => simp [Table.sum_zero]
    | some tracker =>
        simp only [Option.isSome_some, if_true, Bool.true_and]
        apply Table.sum_congr
        intro k v _
        cases harena : arenaOf v with
        | none => simp [bytesUnder]
        | some ref =>
            by_cases haddr : ref.addr = addr
            · subst haddr
              simp [bytesUnder]
            · have hfalse : near addr arena.rid ref = false := by
                cases htrue : near addr arena.rid ref with
                | false => rfl
                | true => exact absurd (hnear addr arena.rid ref htrue) haddr
              simp [bytesUnder, haddr, hfalse]
  · apply Table.sum_congr
    intro k v _
    have hcounted : countedIn near arenas (arenaOf v) =
        arenas.houses (fun v => (arenaOf v).map ArenaRef.addr)
          (fun arena v => arena.tracker.isSome &&
            match arenaOf v with
            | none => false
            | some ref => near ref.addr arena.rid ref) v := by
      unfold countedIn Table.houses
      dsimp only
      cases arenaOf v with
      | none => rfl
      | some ref =>
          dsimp only [Option.map_some]
          cases arenas.lookup ref.addr with
          | none => rfl
          | some found => rfl
    rw [hcounted]

/-- The same for lost allocations. -/
theorem lost_by_arena {near : Addr -> Nat -> ArenaRef -> Bool}
    (hnear : forall addr rid ref, near addr rid ref = true -> ref.addr = addr)
    (arenas : Table Addr Arena) (lost : List Allocation) :
    arenas.sum (fun addr arena =>
        if arena.tracker.isSome then lostUnder (near addr arena.rid) lost else 0) +
      (lost.map (fun alloc =>
        if countedIn near arenas alloc.arena then 0 else alloc.bytes)).sum =
      lostIn lost := by
  induction lost with
  | nil =>
      refine (Nat.add_zero _).trans ((Table.sum_congr ?_).trans (Table.sum_zero arenas))
      intro addr arena _
      exact ite_self 0
  | cons alloc lost ih =>
      -- one allocation is a table with one entry
      have hsum : forall f : Allocation -> Nat,
          ((Table.empty : Table AllocId Allocation).insert 0 alloc).sum (fun _ v => f v) =
            f alloc :=
        fun f => Table.sum_insert_of_none (Table.lookup_empty 0) alloc (fun _ v => f v)
      have hone := sum_by_arena hnear arenas
        ((Table.empty : Table AllocId Allocation).insert 0 alloc)
        Allocation.arena Allocation.bytes
      simp only [hsum] at hone
      have hsplit : arenas.sum (fun addr arena => if arena.tracker.isSome then
            lostUnder (near addr arena.rid) (alloc :: lost) else 0) =
          arenas.sum (fun addr arena => if arena.tracker.isSome then
            bytesUnder (near addr arena.rid) alloc.arena alloc.bytes else 0) +
          arenas.sum (fun addr arena => if arena.tracker.isSome then
            lostUnder (near addr arena.rid) lost else 0) := by
        rw [← Table.sum_add]
        apply Table.sum_congr
        intro addr arena _
        split
        · exact lostUnder_cons _ _ _
        · rfl
      rw [hsplit, List.map_cons, List.sum_cons, lostIn_cons]
      omega

/-- A live reservation's size is made up of its room and of what is allocated, being
allocated or lost at its address. -/
theorem size_le_shares (h : Balanced c s) {addr : Addr} {arena : Arena} {tracker : Int}
    (harena : s.arenas.lookup addr = some arena) (htracker : arena.tracker = some tracker) :
    arena.size ≤ room arena.size tracker + backedUnder (atAddr addr arena.rid) s.threads +
      liveUnder (atAddr addr arena.rid) s.liveAllocs +
      lostUnder (atAddr addr arena.rid) s.lost := by
  have hroom := room_settled h.priced harena htracker (atAddr_addr addr arena.rid)
  have hle := h.at_most addr arena tracker harena htracker
  unfold State.chargedUnder at hle
  unfold room at hroom ⊢
  omega

/-- The sizes of the live reservations are covered. -/
theorem reservedIn_le (h : Balanced c s) : reservedIn s.arenas ≤ s.committed := by
  have hlive := sum_by_arena (fun addr rid ref => atAddr_addr addr rid ref) s.arenas
    s.liveAllocs Allocation.arena Allocation.bytes
  have hbacked := sum_by_arena (fun addr rid ref => atAddr_addr addr rid ref) s.arenas
    s.threads Frame.arena Frame.backed
  have hlost := lost_by_arena (fun addr rid ref => atAddr_addr addr rid ref) s.arenas s.lost
  have hsum : reservedIn s.arenas ≤ s.arenas.sum (fun addr arena => arena.unused +
      ((if arena.tracker.isSome then
          backedUnder (atAddr addr arena.rid) s.threads else 0) +
        ((if arena.tracker.isSome then
            liveUnder (atAddr addr arena.rid) s.liveAllocs else 0) +
          (if arena.tracker.isSome then
            lostUnder (atAddr addr arena.rid) s.lost else 0)))) := by
    apply Table.sum_le_sum
    intro addr arena harena
    cases htracker : arena.tracker with
    | none => exact Nat.zero_le _
    | some tracker =>
        have hle := size_le_shares h harena htracker
        have hunused : arena.unused = room arena.size tracker := by
          unfold Arena.unused
          rw [htracker]
        simp only [Option.isSome_some, if_true]
        omega
  rw [Table.sum_add, Table.sum_add, Table.sum_add] at hsum
  change _ ≤ unusedIn s.arenas + _ at hsum
  have howed := owedIn_eq h.priced
  unfold State.committed liveIn
  unfold backedUnder liveUnder at hsum
  omega

end Sums

end FixedSizeHost
end Memory
end Cuda2Rocm
