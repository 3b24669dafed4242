import Cuda2Rocm.Memory.FixedSizeHost.Isolation
import Cuda2Rocm.Memory.FixedSizeHost.Shares
import Cuda2Rocm.Memory.Space.Accounting

/-!
# Growing reservations

`grow_by` changes the size of an arena and nothing else, although later charges,
credits and releases are computed from that size.  Without growth neither a memory
space nor the host resource is oversubscribed.
-/

namespace Cuda2Rocm
namespace Memory

open Foundation

namespace FixedSizeHost

/-- A release credits no more than was charged for its reservation. -/
def CreditsAtMostCharged (s : State) (e : Event) (t : State) : Prop :=
  match e with
  | .destroy thread addr => forall arena bytes, s.arenas.lookup addr = some arena ->
      t.threads.lookup thread = some (.crediting (.release addr bytes) .load) ->
      bytes ≤ arena.charged
  | _ => True

/-- Reservations are within the counter, and the counter and the bytes that are live
within the limit, after a step that credits at most what was charged. -/
structure NotOversubscribed (c : Config) (s : State) (e : Event) (t : State) : Prop where
  reserved : t.totalReservedBytes ≤ t.counter.total
  within : t.counter.total ≤ c.memLimit
  live : liveIn t.liveAllocs + singlesIn t.singles ≤ c.memLimit
  credits : CreditsAtMostCharged s e t

/-- Memory that a call is about to free and will not credit in full. -/
def Frame.uncredited : Frame -> Nat
  | .freeing _ bytes credit => bytes - credit
  | _ => 0

def State.uncredited (s : State) : Nat := s.threads.sum (fun _ frame => frame.uncredited)

/-- Memory is not pinned while a deallocation has given its bytes back to a reservation
and not called `hipFreeHost` yet. -/
def FreesFirst (s : State) : Event -> Prop
  | .hipMallocHost _ (.ok _) => s.uncredited = 0
  | _ => True

instance (s : State) (e : Event) : Decidable (FreesFirst s e) := by
  unfold FreesFirst
  split <;> infer_instance

section Steps

variable {c : Config} {s t : State} {e : Event}

theorem reclaimed_le {size : Nat} (tracker : Int) (hsize : size < 2 ^ 63) :
    reclaimed size tracker ≤ size := by
  rw [reclaimed_eq tracker hsize]
  unfold room
  omega

theorem creditsAtMostCharged_step (hsizes : SizesCharged s) (hexact : CastsExact s e)
    (hstep : step c s e = some t) : CreditsAtMostCharged s e t := by
  cases e with
  | destroy thread addr =>
      intro arena bytes harena hframe
      have hsize := hsizes addr arena harena
      have hlt : arena.size < 2 ^ 63 := hexact.right arena harena
      simp only [step] at hstep
      split at hstep
      · rename_i found _ hfound _
        rw [harena] at hfound
        cases hfound
        split at hstep
        · cases hstep
          unfold State.startDestroy at hframe
          split at hframe
          · rw [Table.lookup_insert_self] at hframe
            cases hframe
          · rename_i tracker _
            have hle := reclaimed_le tracker hlt
            generalize reclaimed arena.size tracker = credit at hframe hle
            rw [Table.lookup_insert_self] at hframe
            cases hframe
            omega
        · cases hstep
      · cases hstep
  | _ => trivial

theorem notOversubscribed_step (h : Balanced c t) (hsizes : SizesCharged s)
    (hexact : CastsExact s e) (hstep : step c s e = some t) :
    NotOversubscribed c s e t where
  reserved := Nat.le_trans (totalReservedBytes_le t)
    (Nat.le_trans (reservedIn_le h) h.covered)
  within := h.bounded
  live := by
    have hcovered := h.covered
    have hbounded := h.bounded
    unfold State.committed at hcovered
    omega
  credits := creditsAtMostCharged_step hsizes hexact hstep

theorem holdingBytes_le (frame : Frame) :
    frame.holdingBytes ≤ frame.owed + frame.uncredited := by
  cases frame with
  | constructing request ptr => exact Nat.le_refl _
  | freeing ptr bytes credit =>
      show bytes ≤ credit + (bytes - credit)
      omega
  | _ => exact Nat.zero_le _

/-- Beyond the limit there is only memory on its way to `hipFreeHost`. -/
theorem pinnedBytes_le (h : Balanced c s) :
    s.pinnedBytes ≤ c.memLimit + s.uncredited := by
  have hheld : s.threads.sum (fun _ frame => frame.holdingBytes) ≤
      owedIn s.threads + s.uncredited := by
    unfold owedIn State.uncredited
    rw [← Table.sum_add]
    exact Table.sum_le_sum (fun _ frame _ => holdingBytes_le frame)
  have hpinned := h.owned.pinnedBytes_eq
  have hcovered := h.covered
  have hbounded := h.bounded
  unfold State.committed liveIn singlesIn lostIn at hcovered
  omega

/-- Only `hipMallocHost` pins memory, and it leaves deallocations alone. -/
theorem pinned_move (hmove : Move c s e t) :
    t.pinnedBytes ≤ s.pinnedBytes ∨
    exists thread ptr, e = .hipMallocHost thread (.ok ptr) ∧
      t.uncredited = s.uncredited := by
  cases hmove with
  | freed hframe =>
      rename_i thread spurious ptr bytes credit
      refine Or.inl ?_
      rcases Option.eq_none_or_eq_some (s.pinned.lookup ptr) with hnone | ⟨held, hheld⟩
      · have hsame : (s.hipFreeHost thread ptr credit).pinned = s.pinned :=
          Table.erase_eq_self hnone
        unfold State.pinnedBytes
        rw [hsame]
      · have hsplit : s.pinnedBytes =
            held + (s.hipFreeHost thread ptr credit).pinnedBytes :=
          Table.sum_of_lookup hheld (fun _ bytes => bytes)
        omega
  | malloc hframe hptr =>
      rename_i ptr request
      exact Or.inr ⟨_, _, rfl, Table.sum_replace hframe (.constructing request ptr)
        (fun _ frame => frame.uncredited)⟩
  | mallocSingle hframe hptr =>
      rename_i ptr bytes
      exact Or.inr ⟨_, _, rfl, Table.sum_replace hframe (.done (.single ptr))
        (fun _ frame => frame.uncredited)⟩
  | granted hframe hstep =>
      rename_i charge pc counter
      cases charge <;> exact Or.inl (Nat.le_refl _)
  | refused hframe hstep =>
      rename_i charge pc counter
      cases charge <;> exact Or.inl (Nat.le_refl _)
  | credited hframe =>
      rename_i credit loop
      cases credit <;> exact Or.inl (Nat.le_refl _)
  | _ => exact Or.inl (Nat.le_refl _)

end Steps

/-- The exact arithmetic and the constant sizes that the accounts rest on. -/
def Steady (s : State) (e : Event) : Prop := CastsExact s e ∧ GrowsNothing s e

instance (s : State) (e : Event) : Decidable (Steady s e) :=
  inferInstanceAs (Decidable (_ ∧ _))

section Runs

variable {c : Config} {events : List Event}

theorem notOversubscribed_throughout (hlimit : c.memLimit ≠ 0)
    (hok : (hostMachine c).Along Steady State.initial events) :
    (hostMachine c).Throughout (NotOversubscribed c) State.initial events := by
  have hstep : forall s e t, Balanced c s ∧ SizesCharged s -> Steady s e ->
      (hostMachine c).step s e = some t ->
      (Balanced c t ∧ SizesCharged t) ∧ NotOversubscribed c s e t := by
    intro s e t hinv hsteady h
    have hnext := balanced_step hlimit hinv.left hsteady.left hsteady.right h
    have hsizes := sizesCharged_move hinv.right hsteady.right (step_move h)
    exact ⟨⟨hnext, hsizes⟩, notOversubscribed_step hnext hinv.right hsteady.left h⟩
  refine Machine.throughout_of_invariant hstep ⟨balanced_initial c, ?_⟩ hok
  intro addr arena harena
  cases harena

theorem pinned_within_limit (hlimit : c.memLimit ≠ 0)
    (hok : (hostMachine c).Along (fun s e => Steady s e ∧ FreesFirst s e)
      State.initial events) :
    (hostMachine c).Reaches (fun t => t.pinnedBytes ≤ c.memLimit) State.initial events := by
  have hstep : forall s e t, Balanced c s ∧ s.pinnedBytes ≤ c.memLimit ->
      Steady s e ∧ FreesFirst s e -> (hostMachine c).step s e = some t ->
      (Balanced c t ∧ t.pinnedBytes ≤ c.memLimit) ∧ t.pinnedBytes ≤ c.memLimit := by
    intro s e t hinv hgood h
    have hnext := balanced_step hlimit hinv.left hgood.left.left hgood.left.right h
    have hpinned : t.pinnedBytes ≤ c.memLimit := by
      rcases pinned_move (step_move h) with hle | ⟨thread, ptr, rfl, hsame⟩
      · exact Nat.le_trans hle hinv.right
      · have hzero : s.uncredited = 0 := hgood.right
        have hbound := pinnedBytes_le hnext
        rw [hsame, hzero] at hbound
        exact hbound
    exact ⟨⟨hnext, hpinned⟩, hpinned⟩
  exact Machine.throughout_of_invariant hstep ⟨balanced_initial c, Nat.zero_le _⟩ hok

end Runs

end FixedSizeHost

/--
Without growth nothing is oversubscribed.  On a memory space sizes and counter agree
exactly as long as no `grow_by` changes a size; on the host resource reservations,
counter and live bytes stay within the limit, and so does pinned memory when none is
pinned while a deallocation has yet to free what it gave back.
-/
theorem not_oversubscribed_without_growth (max : UInt64) (spaceEvents : List Space.Event)
    (c : FixedSizeHost.Config) (hostEvents : List FixedSizeHost.Event)
    (hlimit : c.memLimit ≠ 0)
    (hsteady : (FixedSizeHost.hostMachine c).Along FixedSizeHost.Steady
      FixedSizeHost.State.initial hostEvents) :
    (Space.spaceMachine.Reaches Space.SizesMatchReserved (Space.State.initial max)
        spaceEvents <->
      Space.spaceMachine.Along Space.GrowsNothing (Space.State.initial max)
        spaceEvents) ∧
    (FixedSizeHost.hostMachine c).Throughout (FixedSizeHost.NotOversubscribed c)
      FixedSizeHost.State.initial hostEvents ∧
    ((FixedSizeHost.hostMachine c).Along FixedSizeHost.FreesFirst
        FixedSizeHost.State.initial hostEvents ->
      (FixedSizeHost.hostMachine c).Reaches (fun t => t.pinnedBytes ≤ c.memLimit)
        FixedSizeHost.State.initial hostEvents) :=
  ⟨Space.sizesMatchReserved_iff max spaceEvents,
    FixedSizeHost.notOversubscribed_throughout hlimit hsteady,
    fun hfrees => FixedSizeHost.pinned_within_limit hlimit
      (Machine.throughout_and hsteady hfrees)⟩

/-- A block is reserved at address 7, allocated under the reservation and freed, and
the reservation is destroyed. -/
def reserveAndUse : List FixedSizeHost.Event :=
  [.reserve 0 16, .tick 0 false, .tick 0 false, .tick 0 false, .tick 0 false,
    .tick 0 false, .register 0 7, .ret 0,
    .allocateMultipleBlocks 0 16 (some 7), .tick 0 false, .tick 0 false,
    .hipMallocHost 0 (.ok 1000), .construct 0 50, .ret 0,
    .deallocateMultipleBlocks 0 50, .tick 0 false, .tick 0 false, .ret 0,
    .destroy 0 7, .tick 0 false, .tick 0 false]

/-- 10 of 10 bytes are reserved on a space, and the reservation does not grow. -/
theorem not_oversubscribed_without_growth_reserveAndUse :
    (Space.spaceMachine.Reaches Space.SizesMatchReserved (Space.State.initial 10)
        [.reserve 0 .throwing 10, .tick 0 false, .tick 0 false, .growBy 0 0] <->
      Space.spaceMachine.Along Space.GrowsNothing (Space.State.initial 10)
        [.reserve 0 .throwing 10, .tick 0 false, .tick 0 false, .growBy 0 0]) ∧
    (FixedSizeHost.hostMachine FixedSizeHost.fourBlocks).Throughout
      (FixedSizeHost.NotOversubscribed FixedSizeHost.fourBlocks)
      FixedSizeHost.State.initial reserveAndUse ∧
    ((FixedSizeHost.hostMachine FixedSizeHost.fourBlocks).Along FixedSizeHost.FreesFirst
        FixedSizeHost.State.initial reserveAndUse ->
      (FixedSizeHost.hostMachine FixedSizeHost.fourBlocks).Reaches
        (fun t => t.pinnedBytes ≤ FixedSizeHost.fourBlocks.memLimit)
        FixedSizeHost.State.initial reserveAndUse) :=
  not_oversubscribed_without_growth 10 _ FixedSizeHost.fourBlocks reserveAndUse (by decide)
    (by decide +kernel)

/-- All four blocks are reserved at address 7, and the reservation grows by a fifth. -/
def growByBlock : List FixedSizeHost.Event :=
  [.reserve 0 64, .tick 0 false, .tick 0 false, .tick 0 false, .tick 0 false,
    .tick 0 false, .register 0 7, .ret 0, .growBy 7 16]

/-- Growing oversubscribes: on a space of 10 bytes a reservation gets 15, and on a
resource of four blocks five are reserved, and credited when it is destroyed. -/
theorem oversubscribed_by_growth :
    (exists s, Space.spaceMachine.run (Space.State.initial 10)
        [.reserve 0 .throwing 10, .tick 0 false, .tick 0 false, .growBy 0 5] = some s ∧
      s.reserved = 10 ∧ s.max = 10 ∧ s.liveSizes = 15) ∧
    (exists s, (FixedSizeHost.hostMachine FixedSizeHost.fourBlocks).run
        FixedSizeHost.State.initial growByBlock = some s ∧
      s.counter.total = 64 ∧ s.totalReservedBytes = 80) ∧
    (exists s, (FixedSizeHost.hostMachine FixedSizeHost.fourBlocks).run
        FixedSizeHost.State.initial (growByBlock ++ [.destroy 0 7]) = some s ∧
      s.arenas.lookup 7 =
        some { rid := 0, size := 80, charged := 64, held := false, tracker := none } ∧
      s.threads.lookup 0 = some (.crediting (.release 7 80) .load)) :=
  ⟨⟨_, rfl, rfl, rfl, rfl⟩, ⟨_, rfl, by decide +kernel, by decide +kernel⟩,
    ⟨_, rfl, by decide +kernel, by decide +kernel⟩⟩

end Memory
end Cuda2Rocm
