import Cuda2Rocm.Memory.FixedSizeHost.Balance
import Cuda2Rocm.Memory.FixedSizeHost.Requests

/-!
# The counter covers everything

In every run without growth and with exact arithmetic the counter covers the live
and lost bytes, the reservations and the calls in flight, and stays within the limit.  This
holds whatever addresses the arenas get.
-/

namespace Cuda2Rocm
namespace Memory
namespace FixedSizeHost

open Foundation

/-- Chooses whatever was made with an arena at this address. -/
def atAddr (addr : Addr) (_rid : Nat) (ref : ArenaRef) : Bool := decide (ref.addr = addr)

theorem atAddr_addr (addr : Addr) (rid : Nat) (ref : ArenaRef)
    (h : atAddr addr rid ref = true) : ref.addr = addr :=
  of_decide_eq_true h

/-- The counter covers what it has to and is within the limit. -/
structure Balanced (c : Config) (s : State) : Prop where
  owned : Owned s
  sections : Sections s
  priced : Guarded Priced s
  covered : s.committed ≤ s.counter.total
  bounded : s.counter.total ≤ c.memLimit
  seen_le : forall thread credit cur,
    s.threads.lookup thread = some (.crediting credit (.cas cur)) -> credit.bytes ≤ cur
  at_most : Tracked (fun tracker used => tracker ≤ used) atAddr s.arenas s.chargedUnder

section Steps

variable {c : Config} {s t : State} {e : Event}

/-- No step takes the counter beyond the limit. -/
theorem bounded_move (hlimit : c.memLimit ≠ 0) (h : s.counter.total ≤ c.memLimit)
    (hmove : Move c s e t) : t.counter.total ≤ c.memLimit := by
  cases hmove with
  | chargeOn hframe hstep =>
      rename_i thread spurious charge pc pc' counter
      have hbounded := pc.step_bounded hlimit charge.bytes spurious s.counter
      rw [hstep] at hbounded
      rcases hbounded.right with hle | hle
      · exact Nat.le_trans hle h
      · exact hle
  | granted hframe hstep =>
      rename_i thread spurious charge pc counter
      have hbounded := pc.step_bounded hlimit charge.bytes spurious s.counter
      rw [hstep] at hbounded
      have hsame : counter.total = s.counter.total := hbounded.left
      have hle : counter.total ≤ c.memLimit := by omega
      cases charge <;> exact hle
  | refused hframe hstep =>
      rename_i thread spurious charge pc counter
      have hbounded := pc.step_bounded hlimit charge.bytes spurious s.counter
      rw [hstep] at hbounded
      have hsame : counter = s.counter := hbounded.left
      subst hsame
      cases charge <;> exact h
  | credited hframe =>
      rename_i credit loop
      have hle : s.totalAfter credit ≤ c.memLimit := by
        unfold State.totalAfter
        split
        · omega
        · exact Nat.zero_le _
      cases credit <;> exact hle
  | _ => exact h

/-- The value a release has seen is at least what it credits. -/
theorem seen_move (hpriced : Guarded Priced s) (hcovered : s.committed ≤ s.counter.total)
    (h : forall thread credit cur,
      s.threads.lookup thread = some (.crediting credit (.cas cur)) -> credit.bytes ≤ cur)
    (hmove : Move c s e t) : forall thread credit cur,
      t.threads.lookup thread = some (.crediting credit (.cas cur)) ->
      credit.bytes ≤ cur := by
  have hinsert : forall thread frame,
      (forall credit cur, frame = .crediting credit (.cas cur) -> credit.bytes ≤ cur) ->
      forall other credit cur,
        (s.threads.insert thread frame).lookup other =
          some (.crediting credit (.cas cur)) -> credit.bytes ≤ cur := by
    intro thread frame hframe other credit cur hlookup
    rcases Table.lookup_of_lookup_insert hlookup with ⟨_, heq⟩ | ⟨_, hold⟩
    · exact hframe credit cur heq.symm
    · exact h other credit cur hold
  cases hmove with
  | start hcalls hidle hfresh =>
      refine hinsert _ _ ?_
      intro credit cur heq
      subst heq
      cases hfresh
  | grow harena => exact h
  | granted hframe hstep =>
      rename_i charge pc counter
      cases charge <;> exact hinsert _ _ (fun _ _ heq => by cases heq)
  | refused hframe hstep =>
      rename_i charge pc counter
      cases charge <;> exact hinsert _ _ (fun _ _ heq => by cases heq)
  | creditOn hframe =>
      refine hinsert _ _ ?_
      intro credit cur heq
      cases heq
      exact credit_covered hpriced hcovered hframe
  | credited hframe =>
      rename_i credit loop
      cases credit <;> exact hinsert _ _ (fun _ _ heq => by cases heq)
  | ret hframe =>
      intro other credit cur hlookup
      exact h other credit cur (Table.lookup_of_lookup_erase hlookup).right
  | _ => exact hinsert _ _ (fun _ _ heq => by cases heq)

theorem atMost_move (h : Balanced c s) (hexact : CastsExact s e) (hmove : Move c s e t) :
    Tracked (fun tracker used => tracker ≤ used) atAddr t.arenas t.chargedUnder := by
  have hmine : forall ref rid, atAddr ref.addr rid ref = true :=
    fun _ _ => decide_eq_true rfl
  refine tracked_move atAddr_addr ?_ h.at_most h.sections ?_ ?_ ?_ ?_ hmove
  · intro x y d hxy
    omega
  · intro thread spurious bytes ref arena pre he hframe hfind
    subst he
    rcases hexact.lock hframe hfind with ⟨_, hbytes, hlow, hhigh⟩
    rw [toSigned_of_lt hbytes, wrapInt_of_range hlow hhigh]
    exact ⟨hmine ref _, rfl⟩
  · intro thread id alloc ref arena pre he halloc href hfind
    subst he
    rcases hexact.dealloc halloc href hfind with ⟨_, hbytes, hlow, hhigh⟩
    rw [toSigned_of_lt hbytes, wrapInt_of_range hlow hhigh]
    exact ⟨hmine ref _, rfl⟩
  · intro thread frame request ref arena tracker hframe hpart href hfind
    have harena := findTracker_eq_some.mp hfind
    have hprice := (h.priced thread frame _ hframe hpart).right.right.right ref arena
      tracker href harena.left harena.right
    exact ⟨hmine ref _, hprice.left⟩
  · intro addr
    exact Int.natCast_nonneg _

theorem balanced_step (hlimit : c.memLimit ≠ 0) (h : Balanced c s)
    (hexact : CastsExact s e) (hgrows : GrowsNothing s e) (hstep : step c s e = some t) :
    Balanced c t := by
  have hmove := step_move hstep
  have hbalance := balance_move h.owned h.sections h.priced hlimit h.covered hexact
    hgrows hmove
  have hcovered := h.covered
  exact {
    owned := owned_move h.owned hmove
    sections := sections_move h.sections hmove
    priced := priced_move h.sections h.priced hexact hgrows hmove
    covered := by omega
    bounded := bounded_move hlimit h.bounded hmove
    seen_le := seen_move h.priced h.covered h.seen_le hmove
    at_most := atMost_move h hexact hmove }

end Steps

theorem balanced_initial (c : Config) : Balanced c State.initial where
  owned := owned_initial
  sections := sections_initial
  priced := guarded_initial _
  covered := Nat.le_refl _
  bounded := Nat.zero_le _
  seen_le := by
    intro thread credit cur hlookup
    cases hlookup
  at_most := by
    intro addr arena tracker hlookup
    cases hlookup

end FixedSizeHost
end Memory
end Cuda2Rocm
