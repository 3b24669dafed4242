import Cuda2Rocm.Memory.FixedSizeHost.Isolation
import Cuda2Rocm.Memory.FixedSizeHost.OwnSteps

/-!
# Exact accounts

Under a limit below `2 ^ 62`, with arenas that neither grow nor get the address of an
earlier one, the counter is in every reached state exactly what reservations, live
allocations and calls in flight add up to.  What a call loses that throws after
`hipMallocHost` counts as live from then on, for nobody can free it.
-/

namespace Cuda2Rocm
namespace Memory
namespace FixedSizeHost

open Foundation

/-- Rounded requests are below `2 ^ 62`, no arena grows, and every arena has an address
of its own. -/
def Ordinary (c : Config) (s : State) : Event -> Prop
  | .allocateMultipleBlocks _ bytes _ => alignUp bytes c.blockSize < 2 ^ 62
  | .growBy addr n => GrowsNothing s (.growBy addr n)
  | .register _ addr => addr ∉ s.created
  | _ => True

instance (c : Config) (s : State) (e : Event) : Decidable (Ordinary c s e) :=
  match e with
  | .allocateMultipleBlocks _ _ _ => inferInstanceAs (Decidable (_ < _))
  | .growBy addr n => inferInstanceAs (Decidable (GrowsNothing s (.growBy addr n)))
  | .register _ addr => inferInstanceAs (Decidable (addr ∉ s.created))
  | .reserve _ _ => isTrue trivial
  | .deallocateMultipleBlocks _ _ => isTrue trivial
  | .allocate _ _ => isTrue trivial
  | .deallocate _ _ => isTrue trivial
  | .destroy _ _ => isTrue trivial
  | .tick _ _ => isTrue trivial
  | .hipMallocHost _ _ => isTrue trivial
  | .construct _ _ => isTrue trivial
  | .throws _ _ => isTrue trivial
  | .ret _ => isTrue trivial

theorem Ordinary.growsNothing {c : Config} {s : State} {e : Event} (h : Ordinary c s e) :
    GrowsNothing s e := by
  cases e with
  | growBy addr n => exact h
  | _ => trivial

/-- Numbers of reservations tell their addresses apart. -/
structure Numbered (s : State) : Prop where
  distinct : s.created.Nodup
  arenas : forall addr arena, s.arenas.lookup addr = some arena ->
    s.created[arena.rid]? = some addr
  asked : Asked (fun _ arena => forall ref, arena = some ref ->
    s.created[ref.rid]? = some ref.addr) s

/-- The invariant of ordinary runs. -/
structure Exact (c : Config) (s : State) : Prop where
  balanced : Balanced c s
  isolated : Isolated s
  numbered : Numbered s
  modest : Asked (fun bytes _ => bytes < 2 ^ 62) s
  sizes : forall addr arena, s.arenas.lookup addr = some arena -> arena.size ≤ c.memLimit
  settled : s.counter.total = s.committed

section Steps

variable {c : Config} {s t : State} {e : Event}

theorem numbered_move (h : Numbered s) (hord : Ordinary c s e) (hmove : Move c s e t) :
    Numbered t := by
  rcases created_prefix hmove with ⟨added, hcreated⟩
  have hkeep : forall {i : Nat} {addr : Addr}, s.created[i]? = some addr ->
      t.created[i]? = some addr := by
    intro i addr hi
    rw [hcreated, List.getElem?_append_left (List.getElem?_eq_some_iff.mp hi).choose]
    exact hi
  constructor
  · rcases created_of_move hmove with hsame | ⟨thread, addr, rfl, happend⟩
    · rw [hsame]
      exact h.distinct
    · rw [happend, List.nodup_append]
      refine ⟨h.distinct, List.nodup_singleton addr, ?_⟩
      intro old hold new hnew heq
      rw [List.mem_singleton] at hnew
      exact hord (hnew ▸ heq ▸ hold)
  · intro addr arena harena
    rcases arena_origin hmove harena with ⟨old, hold, hkept⟩ |
      ⟨old, n, _, hold, rfl⟩ | ⟨thread, _, hrid, _, _, happend⟩
    · rw [hkept.rid]
      exact hkeep (h.arenas addr old hold)
    · exact hkeep (h.arenas addr old hold)
    · rw [hrid, happend, List.getElem?_append_right (Nat.le_refl _), Nat.sub_self]
      rfl
  · refine (h.asked.move ?_ hmove).mono ?_
    · intro thread bytes res arena _ _ harena ref href
      rcases harena ref href with ⟨found, hfound, hrid⟩
      rw [← hrid]
      exact h.arenas ref.addr found hfound
    · intro bytes arena hasked ref href
      exact hkeep (hasked ref href)

theorem Numbered.rid_eq (h : Numbered s) {ref : ArenaRef} {arena : Arena}
    (href : s.created[ref.rid]? = some ref.addr)
    (harena : s.arenas.lookup ref.addr = some arena) : arena.rid = ref.rid := by
  have hsame := h.arenas ref.addr arena harena
  have hlt := (List.getElem?_eq_some_iff.mp hsame).choose
  exact (List.getElem?_inj hlt h.distinct).mp (hsame.trans href.symm)

theorem modest_move (h : Asked (fun bytes _ => bytes < 2 ^ 62) s)
    (hord : Ordinary c s e) (hmove : Move c s e t) :
    Asked (fun bytes _ => bytes < 2 ^ 62) t := by
  refine h.move ?_ hmove
  intro thread bytes res arena he _ _
  subst he
  exact Nat.lt_of_le_of_lt (allocBytes_le_alignUp _ _) hord

theorem sizes_move (h : Exact c s) (hord : Ordinary c s e) (hmove : Move c s e t) :
    forall addr arena, t.arenas.lookup addr = some arena -> arena.size ≤ c.memLimit := by
  intro addr arena harena
  rcases arena_origin hmove harena with ⟨old, hold, hkept⟩ |
    ⟨old, n, he, hold, rfl⟩ | ⟨thread, _, _, hframe, _, _⟩
  · rw [hkept.size]
    exact h.sizes addr old hold
  · subst he
    have hsame := growBy_of_nothing (hord.growsNothing old hold)
    dsimp only
    rw [hsame]
    exact h.sizes addr old hold
  · have howed := owed_le hframe
    change arena.size ≤ _ at howed
    have hcovered := h.balanced.covered
    have hbounded := h.balanced.bounded
    unfold State.committed at hcovered
    omega

/-- The bytes of live and lost allocations under chosen arenas. -/
def State.heldUnder (s : State) (mine : ArenaRef -> Bool) : Nat :=
  liveUnder mine s.liveAllocs + lostUnder mine s.lost

theorem liveUnder_le (mine : ArenaRef -> Bool) (liveAllocs : Table AllocId Allocation) :
    liveUnder mine liveAllocs ≤ liveIn liveAllocs := by
  apply Table.sum_le_sum
  intro id alloc _
  exact bytesUnder_le mine alloc.arena alloc.bytes

theorem lostUnder_le (mine : ArenaRef -> Bool) (lost : List Allocation) :
    lostUnder mine lost ≤ lostIn lost := by
  apply List.sum_le_sum
  intro alloc _
  exact bytesUnder_le mine alloc.arena alloc.bytes

/-- With the mutex free a tracker is what is live or lost under its reservation. -/
theorem Exact.tracker_eq (h : Exact c s) (hmutex : s.mutex = none) {addr : Addr}
    {arena : Arena} {tracker : Int} (hfind : s.findTracker addr = some (arena, tracker)) :
    tracker = s.heldUnder (own addr arena.rid) ∧ tracker ≤ c.memLimit := by
  have harena := findTracker_eq_some.mp hfind
  have hexact := h.isolated.exact addr arena tracker harena.left harena.right
  have hzero := h.isolated.own_tracker.pendingUnder_eq_zero hmutex (own addr arena.rid)
  have hle := liveUnder_le (own addr arena.rid) s.liveAllocs
  have hlost := lostUnder_le (own addr arena.rid) s.lost
  have hcovered := h.balanced.covered
  have hbounded := h.balanced.bounded
  unfold State.chargedUnder at hexact
  unfold State.committed at hcovered
  unfold State.heldUnder
  omega

/-- A lookup of an ordinary run finds its own tracker, and the sum has room. -/
theorem Exact.found (h : Exact c s) (hlimit : c.memLimit < 2 ^ 62)
    (hstep : step c s e = some t) : forall found, found ∈ s.trackerFound e ->
      found.arena.rid = found.ref.rid ∧ found.arena.size < 2 ^ 63 ∧
        found.bytes < 2 ^ 63 ∧ -2 ^ 63 ≤ found.post ∧ found.post < 2 ^ 63 := by
  intro found hfound
  cases finds_of_trackerFound hfound with
  | @lock thread bytes ref arena pre spurious hframe hfind =>
      have harena := (findTracker_eq_some.mp hfind).left
      have hsize := h.sizes ref.addr arena harena
      have hbytes := h.modest.frames thread _ bytes (some ref) hframe rfl
      have hrid := h.numbered.rid_eq
        (h.numbered.asked.frames thread _ bytes (some ref) hframe rfl ref rfl) harena
      simp only [step, State.tickFrame, hframe] at hstep
      split at hstep
      · rename_i hmutex
        have htracker := h.tracker_eq hmutex hfind
        dsimp only
        omega
      · cases hstep
  | @dealloc id alloc ref arena pre thread halloc href hfind =>
      have harena := (findTracker_eq_some.mp hfind).left
      have hsize := h.sizes ref.addr arena harena
      have hbytes := h.modest.live id alloc halloc
      have hrid := h.numbered.rid_eq (h.numbered.asked.live id alloc halloc ref href) harena
      simp only [step] at hstep
      split at hstep
      · rename_i hidle
        have htracker := h.tracker_eq hidle.right hfind
        dsimp only
        omega
      · cases hstep

theorem Exact.castsExact (h : Exact c s) (hlimit : c.memLimit < 2 ^ 62)
    (hstep : step c s e = some t) : CastsExact s e := by
  constructor
  · intro found hfound
    exact (h.found hlimit hstep found hfound).right
  · intro arena harena
    cases e with
    | destroy thread addr =>
        have hsize := h.sizes addr arena harena
        omega
    | _ => cases harena

theorem Exact.findsOwn (h : Exact c s) (hlimit : c.memLimit < 2 ^ 62)
    (hstep : step c s e = some t) : FindsOwn s e := by
  intro found hfound
  have hall := h.found hlimit hstep found hfound
  exact ⟨hall.left, hall.right.right.right.right⟩

/-- A tracker that counts allocations is never below 0. -/
theorem Exact.forgiven_eq (h : Exact c s) (e : Event) : s.forgiven e = 0 := by
  unfold State.forgiven
  split
  · rfl
  · rename_i arena hdestroyed
    cases e with
    | destroy thread addr =>
        change s.arenas.lookup addr = some arena at hdestroyed
        unfold Arena.forgiven
        split
        · rfl
        · rename_i tracker htracker
          have hexact := h.isolated.exact addr arena tracker hdestroyed htracker
          rw [max_eq_right (by omega), Nat.sub_self]
    | _ => cases hdestroyed

theorem exact_step (hpos : c.memLimit ≠ 0) (hlimit : c.memLimit < 2 ^ 62) (h : Exact c s)
    (hord : Ordinary c s e) (hstep : step c s e = some t) : Exact c t := by
  have hmove := step_move hstep
  have hexact := h.castsExact hlimit hstep
  have hbalance := balance_move h.balanced.owned h.balanced.sections h.balanced.priced
    hpos h.balanced.covered hexact hord.growsNothing hmove
  have hforgiven := h.forgiven_eq e
  have hsettled := h.settled
  exact {
    balanced := balanced_step hpos h.balanced hexact hord.growsNothing hstep
    isolated := isolated_move h.isolated (h.findsOwn hlimit hstep) hmove
    numbered := numbered_move h.numbered hord hmove
    modest := modest_move h.modest hord hmove
    sizes := sizes_move h hord hmove
    settled := by omega }

end Steps

theorem exact_initial (c : Config) : Exact c State.initial where
  balanced := balanced_initial c
  isolated := isolated_initial
  numbered := {
    distinct := List.nodup_nil
    arenas := by
      intro addr arena harena
      cases harena
    asked := asked_initial _ }
  modest := asked_initial _
  sizes := by
    intro addr arena harena
    cases harena
  settled := rfl

/-!
# The accounts
-/

/-- What the live reservations stand for: the size of each, or what is live or lost under
it where that is more. -/
def State.reservationShares (s : State) : Nat :=
  s.arenas.sum (fun addr arena =>
    if arena.tracker.isSome then max arena.size (s.heldUnder (own addr arena.rid)) else 0)

/-- What the live reservations have not used up. -/
def State.unconsumed (s : State) : Nat :=
  s.arenas.sum (fun addr arena =>
    if arena.tracker.isSome then arena.size - s.heldUnder (own addr arena.rid) else 0)

/-- Live and lost allocations made without a reservation, or under one that was
released. -/
def State.unreserved (s : State) : Nat :=
  s.liveAllocs.sum (fun _ alloc =>
    if countedIn own s.arenas alloc.arena then 0 else alloc.bytes) +
  (s.lost.map (fun alloc =>
    if countedIn own s.arenas alloc.arena then 0 else alloc.bytes)).sum

/-- `do_release` credits what is on the counter, whatever value it has seen. -/
def NeverClamped (s : State) : Prop :=
  forall thread credit loop, s.threads.lookup thread = some (.crediting credit loop) ->
    credit.bytes ≤ s.counter.total ∧ forall cur, loop = .cas cur -> credit.bytes ≤ cur

/-- The accounts of a reached state. -/
structure Accounts (c : Config) (s : State) : Prop where
  total : s.counter.total =
    s.reservationShares + s.unreserved + singlesIn s.singles + s.inFlight
  within : liveIn s.liveAllocs + lostIn s.lost + singlesIn s.singles + s.unconsumed ≤
    c.memLimit
  pinned : s.pinnedBytes = liveIn s.liveAllocs + singlesIn s.singles +
    s.threads.sum (fun _ frame => frame.holdingBytes) + lostIn s.lost
  unclamped : NeverClamped s

section Accounting

variable {c : Config} {s t : State}

/-- A reservation's share is its room, what it backs, and what is live or lost under it. -/
theorem share_eq (h : Exact c s) {addr : Addr} {arena : Arena} {tracker : Int}
    (harena : s.arenas.lookup addr = some arena) (htracker : arena.tracker = some tracker) :
    max arena.size (s.heldUnder (own addr arena.rid)) =
      room arena.size tracker + (backedUnder (own addr arena.rid) s.threads +
        (liveUnder (own addr arena.rid) s.liveAllocs +
          lostUnder (own addr arena.rid) s.lost)) := by
  have hroom := room_settled h.balanced.priced harena htracker (own_addr addr arena.rid)
  have hexact := h.isolated.exact addr arena tracker harena htracker
  unfold State.chargedUnder at hexact
  unfold State.heldUnder
  unfold room at hroom ⊢
  omega

/-- Whatever a call backs is counted by a live reservation. -/
theorem backed_counted (h : Exact c s) {thread : Thread} {frame : Frame}
    (hframe : s.threads.lookup thread = some frame) :
    (if countedIn own s.arenas frame.arena then 0 else frame.backed) = 0 := by
  cases hpart : frame.inSection with
  | none =>
      unfold Frame.backed
      rw [hpart]
      split <;> rfl
  | some part =>
      unfold Frame.arena Frame.backed
      rw [hpart]
      cases part with
      | release target => exact ite_self 0
      | blocks request =>
          show (if countedIn own s.arenas request.arena then 0
            else request.bytes - request.charge) = 0
          cases href : request.arena with
          | none =>
              have hcharge := (h.balanced.priced thread frame _ hframe hpart).right.right.left
                href
              rw [hcharge, Nat.sub_self]
              exact ite_self 0
          | some ref =>
              rcases (h.balanced.sections.guarded thread frame _ hframe hpart).right ref href
                with ⟨arena, tracker, harena, htracker⟩
              have hrid := (h.isolated.own_tracker thread frame _ hframe hpart).right ref
                arena href harena
              have hcounted : countedIn own s.arenas (some ref) = true := by
                unfold countedIn
                simp only [harena, htracker, Option.isSome_some, Bool.true_and]
                exact own_of_rid hrid
              rw [hcounted]
              rfl

theorem reservationShares_eq (h : Exact c s) :
    s.reservationShares = unusedIn s.arenas +
      (s.arenas.sum (fun addr arena => if arena.tracker.isSome then
          backedUnder (own addr arena.rid) s.threads else 0) +
        (s.arenas.sum (fun addr arena => if arena.tracker.isSome then
            liveUnder (own addr arena.rid) s.liveAllocs else 0) +
          s.arenas.sum (fun addr arena => if arena.tracker.isSome then
            lostUnder (own addr arena.rid) s.lost else 0))) := by
  unfold State.reservationShares unusedIn
  rw [← Table.sum_add, ← Table.sum_add, ← Table.sum_add]
  apply Table.sum_congr
  intro addr arena harena
  unfold Arena.unused
  cases htracker : arena.tracker with
  | none => rfl
  | some tracker =>
      simp only [Option.isSome_some, if_true]
      exact share_eq h harena htracker

/-- The counter, by reservations. -/
theorem total_eq (h : Exact c s) : s.counter.total =
    s.reservationShares + s.unreserved + singlesIn s.singles + s.inFlight := by
  have hlive := sum_by_arena own_addr s.arenas s.liveAllocs Allocation.arena
    Allocation.bytes
  have hbacked := sum_by_arena own_addr s.arenas s.threads Frame.arena Frame.backed
  have hlost := lost_by_arena own_addr s.arenas s.lost
  have hcounted : s.threads.sum (fun _ frame =>
      if countedIn own s.arenas frame.arena then 0 else frame.backed) = 0 :=
    (Table.sum_congr (fun _ _ hframe => backed_counted h hframe)).trans
      (Table.sum_zero s.threads)
  have hshares := reservationShares_eq h
  have howed := owedIn_eq h.balanced.priced
  have hsettled := h.settled
  rw [hcounted] at hbacked
  unfold backedUnder liveUnder at hshares
  unfold State.committed liveIn at hsettled
  unfold State.unreserved
  omega

end Accounting

end FixedSizeHost
end Memory
end Cuda2Rocm
