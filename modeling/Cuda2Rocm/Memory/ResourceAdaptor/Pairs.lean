import Cuda2Rocm.Memory.ResourceAdaptor.Calls

/-!
# Sizes and alignments of upstream memory

`allocate` asks upstream for the size and the alignment of the call, unless a policy
recovers the memory: its retry asks for a size of the policy's choice, and for the default
alignment.  `deallocate` always hands back what its caller passes.
-/

namespace Cuda2Rocm
namespace Memory
namespace ResourceAdaptor

open Foundation

/-- The call that is left to its policy. -/
def Frame.recovering : Frame -> Option Call
  | .limitExceeded call => some call
  | .allTiersFailed call => some call
  | _ => none

def State.recovering (s : State) (thread : Thread) : Option Call :=
  (s.threads.lookup thread).bind Frame.recovering

/-- A policy that recovers memory gets the size of the call, for a call with the default
alignment. -/
def RetriesAsAsked (s : State) : Event -> Prop
  | .handleOom thread (.retried _ size) => forall call, call ∈ s.recovering thread ->
      s.adaptor.hasPolicy call.stream = true -> size = call.bytes ∧ call.alignment = 0
  | _ => True

instance (s : State) (e : Event) : Decidable (RetriesAsAsked s e) := by
  unfold RetriesAsAsked
  split <;> infer_instance

/-- Upstream memory that a step gives to a client was asked for with the arguments of the
call, and upstream memory that a step frees goes back to upstream with the arguments it
was asked for with. -/
structure PairsMatch (s : State) (_ : Event) (t : State) : Prop where
  returned : forall ptr b g, s.world.heap.lookup ptr = some b -> b.source = .upstream ->
    s.world.held.lookup ptr = none -> t.world.held.lookup ptr = some g ->
    b.size = g.call.bytes ∧ b.alignment = g.call.alignment
  freed : forall ptr b, s.world.heap.lookup ptr = some b -> b.source = .upstream ->
    t.world.heap.lookup ptr = none ->
    t.world.frees = s.world.frees ++
      [{ serial := b.serial, freedBy := .upstream, size := b.size,
         alignment := b.alignment }]

/-!
# Where blocks and grants come from
-/

section Origins

variable {s t : State} {reservationLimit : Nat} {e : Event} {thread : Thread} {ptr : Ptr}

/-- A block but for its owner. -/
structure Block.Same (old new : Block) : Prop where
  source : old.source = new.source
  serial : old.serial = new.serial
  size : old.size = new.size
  alignment : old.alignment = new.alignment

theorem Block.Same.refl (b : Block) : b.Same b := ⟨rfl, rfl, rfl, rfl⟩

theorem same_of_handOut {w : World} {target : Ptr} {call : Call} {b : Block}
    (hblock : (w.handOut target call).heap.lookup ptr = some b) :
    exists old, w.heap.lookup ptr = some old ∧ old.Same b := by
  unfold World.handOut at hblock
  split at hblock
  · exact ⟨b, hblock, .refl b⟩
  · rename_i old hold
    rcases Table.lookup_of_lookup_insert hblock with ⟨rfl, rfl⟩ | ⟨_, hsame⟩
    · exact ⟨old, hold, ⟨rfl, rfl, rfl, rfl⟩⟩
    · exact ⟨b, hsame, .refl b⟩

theorem same_of_free {w : World} {target : Ptr} {freedBy : Source} {size alignment : Nat}
    {b : Block} (hblock : (w.free target freedBy size alignment).heap.lookup ptr = some b) :
    exists old, w.heap.lookup ptr = some old ∧ old.Same b := by
  unfold World.free at hblock
  split at hblock
  · exact ⟨b, hblock, .refl b⟩
  · exact ⟨b, (Table.lookup_of_lookup_erase hblock).right, .refl b⟩

/-- A block stays what it was, or is new at its pointer. -/
theorem block_origin (hmove : Move reservationLimit s e t) {b : Block}
    (hblock : t.world.heap.lookup ptr = some b) :
    (exists old, s.world.heap.lookup ptr = some old ∧ old.Same b) ∨
      s.world.heap.lookup ptr = none := by
  cases hmove with
  | chargeManaged hframe => exact .inl (same_of_handOut hblock)
  | chargePinned hframe => exact .inl (same_of_handOut hblock)
  | charge hframe => exact .inl (same_of_handOut hblock)
  | freeSpilled hframe hspilled => exact .inl (same_of_free hblock)
  | freeUpstream hframe => exact .inl (same_of_free hblock)
  | take _ hframe htakes hfresh =>
      rcases Table.lookup_of_lookup_insert hblock with ⟨rfl, _⟩ | ⟨_, hsame⟩
      · exact .inr hfresh
      · exact .inl ⟨b, hsame, .refl b⟩
  | _ => exact .inl ⟨b, hblock, .refl b⟩

/-- A grant was there before, or is made for the memory of a call that returns it. -/
theorem grant_origin (hmove : Move reservationLimit s e t) {g : Grant}
    (hheld : t.world.held.lookup ptr = some g) :
    (exists old, s.world.held.lookup ptr = some old ∧ old.call = g.call) ∨
    (exists thread frame source, s.threads.lookup thread = some frame ∧
      frame.uncharged = some (ptr, source) ∧
      (source = .upstream -> frame = .charge g.call ptr)) := by
  have hhanded : forall {thread : Thread} {frame : Frame} {source : Source} {call : Call}
      {target : Ptr}, s.threads.lookup thread = some frame ->
      frame.uncharged = some (target, source) ->
      (source = .upstream -> frame = .charge call target) ->
      (s.world.handOut target call).held.lookup ptr = some g ->
      (exists old, s.world.held.lookup ptr = some old ∧ old.call = g.call) ∨
      (exists thread frame source, s.threads.lookup thread = some frame ∧
        frame.uncharged = some (ptr, source) ∧
        (source = .upstream -> frame = .charge g.call ptr)) := by
    intro thread frame source call target hframe huncharged hcall hgrant
    unfold World.handOut at hgrant
    split at hgrant
    · exact .inl ⟨g, hgrant, rfl⟩
    · rcases Table.lookup_of_lookup_insert hgrant with ⟨rfl, rfl⟩ | ⟨_, hsame⟩
      · exact .inr ⟨thread, frame, source, hframe, huncharged, hcall⟩
      · exact .inl ⟨g, hsame, rfl⟩
  have hfreed : forall {target : Ptr} {freedBy : Source} {size alignment : Nat},
      (s.world.free target freedBy size alignment).held.lookup ptr = some g ->
      s.world.held.lookup ptr = some g := by
    intro target freedBy size alignment hgrant
    unfold World.free at hgrant
    split at hgrant
    · exact hgrant
    · exact (Table.lookup_of_lookup_erase hgrant).right
  cases hmove with
  | deallocate hidle hold hfree =>
      rcases Table.lookup_of_lookup_insert hheld with ⟨rfl, rfl⟩ | ⟨_, hsame⟩
      · exact .inl ⟨_, hold, rfl⟩
      · exact .inl ⟨g, hsame, rfl⟩
  | chargeManaged hframe => exact hhanded hframe rfl (fun h => Source.noConfusion h) hheld
  | chargePinned hframe => exact hhanded hframe rfl (fun h => Source.noConfusion h) hheld
  | charge hframe => exact hhanded hframe rfl (fun _ => rfl) hheld
  | freeSpilled hframe hspilled => exact .inl ⟨g, hfreed hheld, rfl⟩
  | freeUpstream hframe => exact .inl ⟨g, hfreed hheld, rfl⟩
  | _ => exact .inl ⟨g, hheld, rfl⟩

/-- How a call comes by upstream memory: what it asks for, and how. -/
inductive Obtains (s : State) (thread : Thread) (call : Call) (ptr : Ptr) :
    Event -> Nat -> Nat -> Prop where
  | direct (hframe : s.threads.lookup thread = some (.upstream call)) :
      Obtains s thread call ptr (.request thread (some ptr)) call.bytes call.alignment
  | recovered (size : Nat) (hrecovering : call ∈ s.recovering thread)
      (hpolicy : s.adaptor.hasPolicy call.stream = true) :
      Obtains s thread call ptr (.handleOom thread (.retried ptr size)) size 0

theorem take_spec {size alignment : Nat} {source : Source} {actor : Thread}
    {target : Ptr} {frame : Frame}
    (h : s.take actor target source size alignment frame = some t) :
    t.world = s.world.produce target source size alignment actor ∧
      t.threads = s.threads.insert actor frame := by
  unfold State.take at h
  split at h
  · cases h
  · cases h
    exact ⟨rfl, rfl⟩

/-- A call that newly has upstream memory has just asked for it. -/
theorem charge_origin (h : s.advance reservationLimit e = some t) {call : Call}
    (hnew : t.threads.lookup thread = some (.charge call ptr))
    (hold : s.threads.lookup thread ≠ some (.charge call ptr)) :
    exists size alignment, Obtains s thread call ptr e size alignment ∧
      t.world = s.world.produce ptr .upstream size alignment thread := by
  have hother : forall {actor : Thread} {frame : Frame},
      t.threads = s.threads.insert actor frame ->
      (forall call ptr, frame ≠ .charge call ptr) ->
      exists size alignment, Obtains s thread call ptr e size alignment ∧
        t.world = s.world.produce ptr .upstream size alignment thread := by
    intro actor frame hthreads hne
    rw [hthreads] at hnew
    rcases Table.lookup_of_lookup_insert hnew with ⟨_, heq⟩ | ⟨_, hsame⟩
    · exact absurd heq.symm (hne _ _)
    · exact absurd hsame hold
  have htaken : forall {actor : Thread} {target : Ptr} {call' : Call} {size alignment : Nat},
      s.take actor target .upstream size alignment (.charge call' target) = some t ->
      (actor = thread ∧ target = ptr ∧ call' = call) ∧
        t.world = s.world.produce ptr .upstream size alignment thread := by
    intro actor target call' size alignment htake
    rcases take_spec htake with ⟨hworld, hthreads⟩
    rw [hthreads] at hnew
    rcases Table.lookup_of_lookup_insert hnew with ⟨heq, hframe⟩ | ⟨_, hsame⟩
    · cases heq
      cases hframe
      exact ⟨⟨rfl, rfl, rfl⟩, hworld⟩
    · exact absurd hsame hold
  cases e with
  | request actor result =>
      simp only [State.advance, State.tickObtain] at h
      split at h
      · rename_i call' target hframe
        rcases htaken h with ⟨⟨rfl, rfl, rfl⟩, hworld⟩
        exact ⟨_, _, .direct hframe, hworld⟩
      · cases h
        exact hother rfl (by simp)
      · exact hother (take_spec h).right (by simp)
      · cases h
        exact hother rfl (by simp)
      · exact hother (take_spec h).right (by simp)
      · cases h
        exact hother rfl (by simp)
      · cases h
  | handleOom actor result =>
      have hasked : forall {call' : Call} {failure : Failure},
          call' ∈ s.recovering actor ->
          s.askPolicy actor call' failure result = some t ->
          exists size alignment,
            Obtains s thread call ptr (.handleOom actor result) size alignment ∧
            t.world = s.world.produce ptr .upstream size alignment thread := by
        intro call' failure hrecovering hask
        unfold State.askPolicy at hask
        split at hask
        · rename_i hpolicy
          cases result with
          | threw =>
              cases hask
              exact hother rfl (by simp)
          | null =>
              cases hask
              exact hother rfl (by simp)
          | retried target size =>
              rcases htaken hask with ⟨⟨rfl, rfl, rfl⟩, hworld⟩
              exact ⟨_, _, .recovered size hrecovering hpolicy, hworld⟩
        · cases hask
          exact hother rfl (by simp)
      simp only [State.advance, State.tickHandleOom] at h
      split at h
      · rename_i call' hframe
        exact hasked (by simp [State.recovering, hframe, Frame.recovering]) h
      · rename_i call' hframe
        exact hasked (by simp [State.recovering, hframe, Frame.recovering]) h
      · cases h
  | attach stream oomPolicy =>
      cases h
      exact absurd hnew hold
  | ret actor =>
      simp only [State.advance] at h
      split at h
      · cases h
        exact absurd (Table.lookup_of_lookup_erase hnew).right hold
      · cases h
  | allocate actor call' =>
      simp only [State.advance] at h
      split at h
      · cases h
      · cases h
        exact hother rfl (by simp)
  | deallocate actor target =>
      simp only [State.advance, State.startDeallocate] at h
      split at h
      · split at h
        · cases h
        · cases h
          exact hother rfl (by simp)
      · cases h
  | proceed actor =>
      simp only [State.advance, State.tickSection] at h
      split at h
      · rw [State.checkLimit, Option.some.injEq] at h
        split at h
        · subst h
          exact hother rfl (by simp)
        · subst h
          exact hother rfl (by simp)
      · cases h
        exact hother rfl (by simp)
      · cases h
        exact hother rfl (by simp)
      · cases h
        exact hother rfl (by simp)
      · rw [State.deallocCheck, Option.some.injEq] at h
        split at h
        · subst h
          exact hother rfl (by simp)
        · subst h
          exact hother rfl (by simp)
      · cases h
        exact hother rfl (by simp)
      · cases h
        exact hother rfl (by simp)
      · cases h

end Origins

/-!
# The invariant
-/

/-- Memory is in its place, and upstream memory was asked for with the arguments of the
call that has it or that returned it. -/
structure Paired (s : State) : Prop where
  placed : Placed s.adaptor s.world s.threads
  obtained : forall thread call ptr b, s.threads.lookup thread = some (.charge call ptr) ->
    s.world.heap.lookup ptr = some b -> b.size = call.bytes ∧ b.alignment = call.alignment
  held : forall ptr b g, s.world.heap.lookup ptr = some b -> b.source = .upstream ->
    s.world.held.lookup ptr = some g ->
    b.size = g.call.bytes ∧ b.alignment = g.call.alignment

section Steps

variable {s t : State} {reservationLimit : Nat} {e : Event}

/-- What a policy recovers as asked has the pair of the call. -/
theorem Obtains.pair {thread : Thread} {call : Call} {ptr : Ptr} {size alignment : Nat}
    (h : Obtains s thread call ptr e size alignment) (hok : RetriesAsAsked s e) :
    size = call.bytes ∧ alignment = call.alignment := by
  cases h with
  | direct hframe => exact ⟨rfl, rfl⟩
  | recovered size hrecovering hpolicy =>
      have hasked := hok call hrecovering hpolicy
      exact ⟨hasked.left, hasked.right.symm⟩

/-- Upstream memory that comes to a client was with a call that has it for this grant. -/
theorem Placed.charge_of_granted (h : Placed s.adaptor s.world s.threads)
    (hmove : Move reservationLimit s e t) {ptr : Ptr} {b : Block} {g : Grant}
    (hblock : s.world.heap.lookup ptr = some b) (hsource : b.source = .upstream)
    (hnone : s.world.held.lookup ptr = none) (hheld : t.world.held.lookup ptr = some g) :
    exists thread, s.threads.lookup thread = some (.charge g.call ptr) := by
  rcases grant_origin hmove hheld with ⟨old, hold, _⟩ |
    ⟨thread, frame, source, hframe, huncharged, hcharge⟩
  · rw [hnone] at hold
    cases hold
  · rcases h.obtained_block hframe huncharged with ⟨b', hb', _, hsource', _⟩
    rw [hblock] at hb'
    cases hb'
    rw [hcharge (hsource'.symm.trans hsource)] at hframe
    exact ⟨thread, hframe⟩

theorem paired_advance (h : Paired s) (hok : RetriesAsAsked s e)
    (hadvance : s.advance reservationLimit e = some t) : Paired t := by
  have hmove := advance_move hadvance
  have hplaced := placed_move h.placed hmove
  constructor
  · exact hplaced
  · intro thread call ptr b hframe hblock
    by_cases hold : s.threads.lookup thread = some (.charge call ptr)
    · -- the call had the memory before, and the block is still the same
      rcases h.placed.obtained_block hold rfl with ⟨b₀, hb₀, _⟩
      rcases block_origin hmove hblock with ⟨old, hsame, hkept⟩ | hnone
      · rw [← hkept.size, ← hkept.alignment]
        exact h.obtained thread call ptr old hold hsame
      · rw [hb₀] at hnone
        cases hnone
    · rcases charge_origin hadvance hframe hold with ⟨size, alignment, hobtains, hworld⟩
      rw [hworld] at hblock
      rcases Table.lookup_of_lookup_insert hblock with ⟨_, rfl⟩ | ⟨hne, _⟩
      · exact hobtains.pair hok
      · exact absurd rfl hne
  · intro ptr b g hblock hsource hheld
    rcases block_origin hmove hblock with ⟨old, hold, hkept⟩ | hfresh
    · rw [← hkept.size, ← hkept.alignment]
      have hsourceOld := hkept.source.trans hsource
      cases hgrant : s.world.held.lookup ptr with
      | none =>
          rcases h.placed.charge_of_granted hmove hold hsourceOld hgrant hheld with
            ⟨thread, hframe⟩
          exact h.obtained thread g.call ptr old hframe hold
      | some g₀ =>
          rcases grant_origin hmove hheld with ⟨g₁, hg₁, hcall⟩ |
            ⟨thread, frame, source, hframe, huncharged, _⟩
          · rw [← hcall]
            exact h.held ptr old g₁ hold hsourceOld hg₁
          · rcases h.placed.obtained_block hframe huncharged with ⟨_, _, _, _, hnone⟩
            rw [hgrant] at hnone
            cases hnone
    · -- fresh memory is with no client
      rcases grant_origin hmove hheld with ⟨old, hold, _⟩ |
        ⟨thread, frame, source, hframe, huncharged, _⟩
      · rw [h.placed.held_none hfresh] at hold
        cases hold
      · rcases h.placed.obtained_block hframe huncharged with ⟨b₀, hb₀, _⟩
        rw [hfresh] at hb₀
        cases hb₀

/-- Where the pairs match, a step gives out and frees upstream memory with its pair. -/
theorem pairsMatch_of_paired (h : Paired s) (hmove : Move reservationLimit s e t) :
    PairsMatch s e t := by
  constructor
  · intro ptr b g hblock hsource hnone hheld
    rcases h.placed.charge_of_granted hmove hblock hsource hnone hheld with ⟨thread, hframe⟩
    exact h.obtained thread g.call ptr b hframe hblock
  · intro ptr b hblock hsource hfreed
    have hhanded : forall target call,
        (s.world.handOut target call).heap.lookup ptr ≠ none := by
      intro target call hnone
      unfold World.handOut at hnone
      split at hnone
      · rw [hblock] at hnone
        cases hnone
      · rw [Table.lookup_insert] at hnone
        split at hnone
        · cases hnone
        · rw [hblock] at hnone
          cases hnone
    have herased : forall {target : Ptr} {freedBy : Source} {size alignment : Nat},
        (s.world.free target freedBy size alignment).heap.lookup ptr = none ->
        target = ptr := by
      intro target freedBy size alignment hnone
      by_contra hne
      unfold World.free at hnone
      split at hnone
      · rw [hblock] at hnone
        cases hnone
      · rw [Table.lookup_erase_ne (fun heq => hne heq.symm), hblock] at hnone
        cases hnone
    cases hmove with
    | chargeManaged hframe => exact absurd hfreed (hhanded _ _)
    | chargePinned hframe => exact absurd hfreed (hhanded _ _)
    | charge hframe => exact absurd hfreed (hhanded _ _)
    | freeSpilled hframe hspilled =>
        cases herased hfreed
        have hspill := h.placed.source_of_spilled hframe hblock hspilled
        rw [hsource] at hspill
        split at hspill
        · cases hspill
        · cases hspill
    | freeUpstream hframe =>
        cases herased hfreed
        rcases h.placed.freeing_block hframe rfl with ⟨_, g, _, _, hg, rfl⟩
        have hpair := h.held ptr b g hblock hsource hg
        dsimp only
        rw [free_eq hblock, hpair.left, hpair.right]
    | take _ hframe htakes hfresh =>
        dsimp only [World.produce] at hfreed
        rw [Table.lookup_insert] at hfreed
        split at hfreed
        · cases hfreed
        · rw [hblock] at hfreed
          cases hfreed
    | _ => exact absurd (hfreed.symm.trans hblock) (by simp)

/-!
# The other direction
-/

/-- A call has upstream memory that it did not ask for with its own arguments. -/
def Mispaired (s : State) : Prop :=
  exists thread call ptr b, s.threads.lookup thread = some (.charge call ptr) ∧
    s.world.heap.lookup ptr = some b ∧ ¬ (b.size = call.bytes ∧ b.alignment = call.alignment)

/-- A call with upstream memory waits for its charge, or returns the memory. -/
theorem charge_leaves (h : Placed s.adaptor s.world s.threads)
    (hadvance : s.advance reservationLimit e = some t) {thread : Thread} {call : Call}
    {ptr : Ptr} (hframe : s.threads.lookup thread = some (.charge call ptr)) :
    t.threads.lookup thread = some (.charge call ptr) ∨
      t.world.held.lookup ptr = some { call := call, deallocating := none } := by
  cases hmine : e.isBy thread with
  | false =>
      refine .inl (lookup_move (advance_move hadvance) hframe hmine ?_)
      rintro rfl
      simp only [State.advance, hframe] at hadvance
      cases hadvance
  | true =>
      cases e with
      | proceed actor =>
          cases of_decide_eq_true hmine
          simp only [State.advance, State.tickSection, hframe, Option.some.injEq] at hadvance
          rcases h.obtained_block hframe rfl with ⟨b, hb, _⟩
          refine .inr ?_
          rw [← hadvance]
          dsimp only [State.finishAllocate]
          rw [handOut_eq hb]
          exact Table.lookup_insert_self _ _ _
      | request actor result =>
          cases of_decide_eq_true hmine
          simp only [State.advance, State.tickObtain, hframe] at hadvance
          cases hadvance
      | handleOom actor result =>
          cases of_decide_eq_true hmine
          simp only [State.advance, State.tickHandleOom, hframe] at hadvance
          cases hadvance
      | _ => cases hmine

/-- A call with memory of another pair keeps it until it returns it. -/
theorem mispaired_advance (h : Placed s.adaptor s.world s.threads) (hmis : Mispaired s)
    (hadvance : s.advance reservationLimit e = some t) (hgood : PairsMatch s e t) :
    Mispaired t := by
  have hmove := advance_move hadvance
  rcases hmis with ⟨thread, call, ptr, b, hframe, hblock, hbad⟩
  rcases h.obtained_block hframe rfl with ⟨b', hb', _, hsource, hnone⟩
  rw [hblock] at hb'
  cases hb'
  rcases charge_leaves h hadvance hframe with hstays | hreturned
  · rcases (placed_move h hmove).obtained_block hstays rfl with ⟨b₁, hb₁, _⟩
    rcases block_origin hmove hb₁ with ⟨old, hold, hkept⟩ | hfresh
    · rw [hblock] at hold
      cases hold
      refine ⟨thread, call, ptr, b₁, hstays, hb₁, ?_⟩
      rw [← hkept.size, ← hkept.alignment]
      exact hbad
    · rw [hblock] at hfresh
      cases hfresh
  · exact absurd (hgood.returned ptr b _ hblock hsource hnone hreturned) hbad

/-- A recovery that is not as asked leaves a call with memory of another pair. -/
theorem retriesAsAsked_of_not_mispaired (hadvance : s.advance reservationLimit e = some t)
    (hnot : ¬ Mispaired t) : RetriesAsAsked s e := by
  unfold RetriesAsAsked
  split
  · rename_i thread ptr size
    intro call hrecovering hpolicy
    by_contra hbad
    have hasked : s.askPolicy thread call State.limitFailure (.retried ptr size) = some t ∨
        s.askPolicy thread call .rethrown (.retried ptr size) = some t := by
      rcases Option.bind_eq_some_iff.mp hrecovering with ⟨frame, hframe, hcall⟩
      simp only [State.advance, State.tickHandleOom, hframe] at hadvance
      cases frame with
      | limitExceeded call' =>
          cases hcall
          exact .inl hadvance
      | allTiersFailed call' =>
          cases hcall
          exact .inr hadvance
      | _ => cases hcall
    have htaken : s.take thread ptr .upstream size 0 (.charge call ptr) = some t := by
      simp only [State.askPolicy, hpolicy, if_true, or_self] at hasked
      exact hasked
    rcases take_spec htaken with ⟨hworld, hthreads⟩
    refine hnot ⟨thread, call, ptr,
      { source := .upstream, serial := s.world.produced.length, size := size,
        alignment := 0, owner := some thread }, ?_, ?_, ?_⟩
    · rw [hthreads]
      exact Table.lookup_insert_self _ _ _
    · rw [hworld]
      exact Table.lookup_insert_self _ _ _
    · exact fun hpair => hbad ⟨hpair.left, hpair.right.symm⟩
  · trivial

end Steps

theorem paired_initial : Paired State.initial where
  placed := placed_initial
  obtained := by
    intro thread call ptr b hframe
    cases hframe
  held := by
    intro ptr b g hblock
    cases hblock

section Machine

variable {s t : State} {reservationLimit : Nat} {e : Event}

theorem step_advance (h : (adaptorMachine reservationLimit).step s e = some t) :
    exists u, s.advance reservationLimit e = some u ∧ t = s.observe u := by
  rcases Option.map_eq_some_iff.mp h with ⟨u, hu, heq⟩
  exact ⟨u, hu, heq.symm⟩

theorem placed_step (h : Placed s.adaptor s.world s.threads)
    (hstep : (adaptorMachine reservationLimit).step s e = some t) :
    Placed t.adaptor t.world t.threads := by
  rcases step_advance hstep with ⟨u, hu, rfl⟩
  have hnext := placed_move h (advance_move hu)
  exact hnext

theorem paired_step (h : Paired s) (hok : RetriesAsAsked s e)
    (hstep : (adaptorMachine reservationLimit).step s e = some t) :
    Paired t ∧ PairsMatch s e t := by
  rcases step_advance hstep with ⟨u, hu, rfl⟩
  have hnext := paired_advance h hok hu
  have hpairs := pairsMatch_of_paired h (advance_move hu)
  exact ⟨⟨hnext.placed, hnext.obtained, hnext.held⟩, ⟨hpairs.returned, hpairs.freed⟩⟩

theorem mispaired_step (h : Placed s.adaptor s.world s.threads) (hmis : Mispaired s)
    (hgood : forall u, (adaptorMachine reservationLimit).step s e = some u ->
      PairsMatch s e u)
    (hstep : (adaptorMachine reservationLimit).step s e = some t) : Mispaired t := by
  have hpairs := hgood t hstep
  rcases step_advance hstep with ⟨u, hu, rfl⟩
  have hnext := mispaired_advance h hmis hu ⟨hpairs.returned, hpairs.freed⟩
  exact hnext

end Machine

/--
In every run in which policies recover memory as it was asked for, every pointer that
upstream memory is returned at was requested with the arguments of the call, and goes back
to upstream with them.  In a run at whose end no call still has upstream memory of its own,
this is also necessary.
-/
theorem upstream_pairs_match (reservationLimit : Nat) (events : List Event) :
    ((adaptorMachine reservationLimit).Along RetriesAsAsked State.initial events ->
      (adaptorMachine reservationLimit).Throughout PairsMatch State.initial events) ∧
    forall t, (adaptorMachine reservationLimit).run State.initial events = some t ->
      (forall thread call ptr, t.threads.lookup thread ≠ some (.charge call ptr)) ->
      ((adaptorMachine reservationLimit).Throughout PairsMatch State.initial events <->
        (adaptorMachine reservationLimit).Along RetriesAsAsked State.initial events) := by
  have hmatched : (adaptorMachine reservationLimit).Along RetriesAsAsked State.initial
      events -> (adaptorMachine reservationLimit).Throughout PairsMatch State.initial
      events := by
    have hpaired : forall s e t, Paired s -> RetriesAsAsked s e ->
        (adaptorMachine reservationLimit).step s e = some t ->
        Paired t ∧ PairsMatch s e t :=
      fun s e t h hok hstep => paired_step h hok hstep
    exact Machine.throughout_of_invariant hpaired paired_initial
  refine ⟨hmatched, ?_⟩
  intro t hrun hended
  refine ⟨fun hthroughout => ?_, hmatched⟩
  have hplaced : forall s e t, Placed s.adaptor s.world s.threads ->
      (forall u, (adaptorMachine reservationLimit).step s e = some u -> PairsMatch s e u) ->
      (adaptorMachine reservationLimit).step s e = some t ->
      Placed t.adaptor t.world t.threads := fun s e t h _ hstep => placed_step h hstep
  have hstays : forall s e t, Placed s.adaptor s.world s.threads ∧ Mispaired s ->
      (forall u, (adaptorMachine reservationLimit).step s e = some u -> PairsMatch s e u) ->
      (adaptorMachine reservationLimit).step s e = some t ->
      Placed t.adaptor t.world t.threads ∧ Mispaired t :=
    fun s e t h hgood hstep =>
      ⟨placed_step h.left hstep, mispaired_step h.left h.right hgood hstep⟩
  have hasked : forall s e t, Placed s.adaptor s.world s.threads ->
      (forall u, (adaptorMachine reservationLimit).step s e = some u -> PairsMatch s e u) ->
      (adaptorMachine reservationLimit).step s e = some t ->
      ¬ (Placed t.adaptor t.world t.threads ∧ Mispaired t) -> RetriesAsAsked s e := by
    intro s e t h _ hstep hnot
    have hnext := placed_step h hstep
    rcases step_advance hstep with ⟨u, hu, rfl⟩
    exact retriesAsAsked_of_not_mispaired hu (fun hmis => hnot ⟨hnext, hmis⟩)
  refine Machine.throughout_of_open hplaced hstays hasked placed_initial
    (Machine.along_of_throughout hthroughout) hrun ?_
  rintro ⟨_, thread, call, ptr, b, hframe, _⟩
  exact hended thread call ptr hframe

/-- A call of 20 bytes with the default alignment, over the limit of 10 bytes, which the
policy of its stream recovers; the memory is then handed back. -/
def recoveredRun : List Event :=
  [.attach 1 true, .allocate 0 { stream := 1, bytes := 20, alignment := 0 }, .proceed 0,
    .handleOom 0 (.retried 5 20), .proceed 0, .ret 0, .deallocate 0 5, .proceed 0,
    .proceed 0, .proceed 0, .ret 0]

/-- The condition and its converse read for memory that is recovered as asked. -/
theorem upstream_pairs_match_recovered :
    (adaptorMachine 10).Throughout PairsMatch State.initial recoveredRun ∧
      exists t, (adaptorMachine 10).run State.initial recoveredRun = some t ∧
        ((adaptorMachine 10).Throughout PairsMatch State.initial recoveredRun <->
          (adaptorMachine 10).Along RetriesAsAsked State.initial recoveredRun) := by
  refine ⟨(upstream_pairs_match 10 recoveredRun).left (by decide), _, rfl,
    (upstream_pairs_match 10 recoveredRun).right _ rfl ?_⟩
  intro thread call ptr hframe
  cases hframe

/-- The same call with an alignment of 256, until the policy has its memory. -/
def recoverAligned : List Event :=
  [.attach 1 true, .allocate 0 { stream := 1, bytes := 20, alignment := 256 }, .proceed 0,
    .handleOom 0 (.retried 5 20)]

def handBack : List Event := [.proceed 0, .ret 0, .deallocate 0 5, .proceed 0]

/-- Memory recovered for a call with an alignment is returned without it, and goes back to
upstream with it. -/
theorem recovered_pair_differs :
    (exists s t, (adaptorMachine 10).run State.initial recoverAligned = some s ∧
      (adaptorMachine 10).step s (.proceed 0) = some t ∧ ¬ PairsMatch s (.proceed 0) t) ∧
    (exists s t, (adaptorMachine 10).run State.initial (recoverAligned ++ handBack) = some s ∧
      (adaptorMachine 10).step s (.proceed 0) = some t ∧
      t.world.frees = [{ serial := 0, freedBy := .upstream, size := 20, alignment := 256 }] ∧
      ¬ PairsMatch s (.proceed 0) t) := by
  refine ⟨⟨_, _, rfl, rfl, fun h => ?_⟩, ⟨_, _, rfl, rfl, rfl, fun h => ?_⟩⟩
  · exact absurd (h.returned 5 _ _ rfl rfl rfl rfl).right (by decide)
  · exact absurd (h.freed 5 _ rfl rfl rfl) (by decide)

end ResourceAdaptor
end Memory
end Cuda2Rocm
