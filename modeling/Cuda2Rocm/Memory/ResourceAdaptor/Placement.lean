import Cuda2Rocm.Memory.ResourceAdaptor.Accounting
import Cuda2Rocm.Memory.ResourceAdaptor.Moves

/-!
# Where memory is

Whatever the counters say, every pointer is with the call or the client that has it,
`host_spilled_` has the pointers that are not upstream's, and what was freed was freed by
the function of its source.
-/

namespace Cuda2Rocm
namespace Memory
namespace ResourceAdaptor

open Foundation

/-- Memory is in one place, known for what it is, and freed accordingly. -/
structure Placed (adaptor : Adaptor) (world : World) (threads : Table Thread Frame) :
    Prop where
  custody : Custody world threads
  frees : FreesMatch world
  spills : forall ptr, adaptor.hostSpilled.lookup ptr = world.spillOf ptr

/-- A frame with no memory in its hands. -/
def Frame.EmptyHanded (frame : Frame) : Prop :=
  frame.uncharged = none ∧ frame.freeing = none

section Steps

variable {a b : Adaptor} {w : World} {threads : Table Thread Frame} {thread : Thread}

theorem Placed.move (h : Placed a w threads) (hsame : b.hostSpilled = a.hostSpilled)
    {threads' : Table Thread Frame} (hcustody : Custody w threads') :
    Placed b w threads' := by
  constructor
  · exact hcustody
  · exact h.frees
  · intro ptr
    rw [hsame]
    exact h.spills ptr

theorem Placed.moveFrame (h : Placed a w threads) (hsame : b.hostSpilled = a.hostSpilled)
    {old frame : Frame} (hold : threads.lookup thread = some old) (hempty : old.EmptyHanded)
    (hframe : frame.EmptyHanded) : Placed b w (threads.insert thread frame) := by
  apply h.move hsame
  apply h.custody.setFrame
  · rw [hframe.left, uncharged_of_lookup hold, hempty.left]
  · rw [hframe.right, freeing_of_lookup hold, hempty.right]
  · intro call ptr block heq
    rw [heq] at hframe
    cases hframe.right

theorem Placed.newFrame (h : Placed a w threads) {frame : Frame}
    (hnone : threads.lookup thread = none) (hframe : frame.EmptyHanded) :
    Placed a w (threads.insert thread frame) := by
  apply h.move rfl
  apply h.custody.setFrame
  · rw [hframe.left, uncharged_of_none hnone]
  · rw [hframe.right, freeing_of_none hnone]
  · intro call ptr block heq
    rw [heq] at hframe
    cases hframe.right

theorem Placed.held_none (h : Placed a w threads) {ptr : Ptr}
    (hfresh : w.heap.lookup ptr = none) : w.held.lookup ptr = none := by
  cases hheld : w.held.lookup ptr with
  | none => rfl
  | some g =>
      rcases (h.custody.held_iff ptr).mp ⟨g, hheld⟩ with ⟨block, hblock, _⟩
      rw [hfresh] at hblock
      cases hblock

theorem Placed.produce (h : Placed a w threads) {ptr : Ptr} {source : Source}
    (size alignment : Nat) {old frame : Frame}
    (hfresh : w.heap.lookup ptr = none)
    (hold : threads.lookup thread = some old) (hempty : old.EmptyHanded)
    (hframe : frame.uncharged = some (ptr, source)) (hfrees : frame.freeing = none) :
    Placed a (w.produce ptr source size alignment thread)
      (threads.insert thread frame) := by
  constructor
  · apply h.custody.produce size alignment hfresh _ _ hframe hfrees
    · rw [uncharged_of_lookup hold, hempty.left]
    · rw [freeing_of_lookup hold, hempty.right]
  · exact h.frees.produce source size alignment thread hfresh
  · intro other
    rw [h.spills]
    unfold World.spillOf World.produce
    rw [Table.lookup_insert]
    by_cases heq : other = ptr
    · rw [heq, h.held_none hfresh]
    · rw [if_neg heq]

theorem Placed.obtained_block (h : Placed a w threads) {old : Frame} {ptr : Ptr}
    {source : Source} (hold : threads.lookup thread = some old)
    (hhas : old.uncharged = some (ptr, source)) :
    exists block, w.heap.lookup ptr = some block ∧ block.owner = some thread ∧
      block.source = source ∧ w.held.lookup ptr = none := by
  have hobtainer : w.obtainer ptr = some (thread, source) := by
    apply (h.custody.obtained ptr thread source).mpr
    rw [uncharged_of_lookup hold]
    exact hhas
  rcases block_of_obtainer hobtainer with ⟨block, hblock, howner, hsource⟩
  refine ⟨block, hblock, howner, hsource, ?_⟩
  cases hheld : w.held.lookup ptr with
  | none => rfl
  | some g =>
      rcases (h.custody.held_iff ptr).mp ⟨g, hheld⟩ with ⟨block', hblock', hnone⟩
      rw [hblock] at hblock'
      cases hblock'
      rw [howner] at hnone
      cases hnone

theorem Placed.finish (h : Placed a w threads) {ptr : Ptr} {source : Source}
    {old : Frame} {call : Call} {spilled : Table Ptr Spilled} (stream : Stream) (bytes : Nat)
    (hold : threads.lookup thread = some old)
    (hhas : old.uncharged = some (ptr, source)) (hfreeing : old.freeing = none)
    (hspilled : forall other, spilled.lookup other =
      if other = ptr then
        if source = .upstream then none
        else some { bytes := call.bytes, isUvm := decide (source = .managed) }
      else a.hostSpilled.lookup other) :
    Placed ({ a with hostSpilled := spilled }.chargeStream stream bytes)
      (w.handOut ptr call) (threads.insert thread (.done (.returned ptr))) := by
  rcases h.obtained_block hold hhas with ⟨block, hblock, _, hsource, _⟩
  constructor
  · apply h.custody.handOut call _ _ rfl rfl
    · exact source
    · rw [uncharged_of_lookup hold]
      exact hhas
    · rw [freeing_of_lookup hold]
      exact hfreeing
  · rw [handOut_eq hblock]
    exact h.frees.relabel (c := { block with owner := none }) hblock rfl rfl _
  · intro other
    show spilled.lookup other = _
    rw [hspilled other, handOut_eq hblock]
    unfold World.spillOf
    simp only [Table.lookup_insert]
    split
    · rw [← hsource]
    · exact h.spills other

/-- The block and the grant of memory a call is about to free. -/
theorem Placed.freeing_block (h : Placed a w threads) {old : Frame} {ptr : Ptr}
    {call : Call} (hold : threads.lookup thread = some old)
    (hhas : old.freeing = some (ptr, call)) :
    exists block g, w.heap.lookup ptr = some block ∧ block.owner = none ∧
      w.held.lookup ptr = some g ∧ g.call = call := by
  have hfreer : w.freer ptr = some (thread, call) := by
    apply (h.custody.returning ptr thread call).mpr
    rw [freeing_of_lookup hold]
    exact hhas
  rcases grant_of_freer hfreer with ⟨g, hg, _, hcall⟩
  rcases (h.custody.held_iff ptr).mp ⟨g, hg⟩ with ⟨block, hblock, howner⟩
  exact ⟨block, g, hblock, howner, hg, hcall⟩

theorem spillOf_free {ptr : Ptr} {block : Block} (hblock : w.heap.lookup ptr = some block)
    (freedBy : Source) (size alignment : Nat) (other : Ptr) :
    (w.free ptr freedBy size alignment).spillOf other =
      if other = ptr then none else w.spillOf other := by
  rw [free_eq hblock]
  unfold World.spillOf
  simp only [Table.lookup_erase]
  by_cases heq : other = ptr
  · simp only [if_pos heq]
  · simp only [if_neg heq]

/-- What `host_spilled_` says of memory that is about to be freed is its source. -/
theorem Placed.source_of_spilled (h : Placed a w threads) {ptr : Ptr} {call : Call}
    {spilled : Spilled} {block : Block}
    (hold : threads.lookup thread = some (.deallocCheck call ptr))
    (hblock : w.heap.lookup ptr = some block)
    (hspilled : a.hostSpilled.lookup ptr = some spilled) :
    block.source = if spilled.isUvm then .managed else .pinned := by
  rcases h.freeing_block hold rfl with ⟨block', g, hblock', _, hg, _⟩
  rw [hblock] at hblock'
  cases hblock'
  have hentry := h.spills ptr
  rw [hspilled] at hentry
  unfold World.spillOf at hentry
  rw [hg, hblock] at hentry
  simp only at hentry
  split at hentry
  · cases hentry
  · cases hentry
    cases hsource : block.source with
    | upstream =>
        rename_i hne
        exact absurd hsource hne
    | managed => rfl
    | pinned => rfl

theorem Placed.freeSpilled (h : Placed a w threads) {ptr : Ptr} {call : Call}
    {spilled : Spilled} (hold : threads.lookup thread = some (.deallocCheck call ptr))
    (hspilled : a.hostSpilled.lookup ptr = some spilled) :
    Placed ((a.unspill ptr).creditStream call.stream call.bytes)
      (w.free ptr (if spilled.isUvm then .managed else .pinned) call.bytes
        call.alignment)
      (threads.insert thread (.done .deallocated)) := by
  rcases h.freeing_block hold rfl with ⟨block, g, hblock, howner, hg, hcall⟩
  constructor
  · apply h.custody.free hblock _ _ _ _ _ rfl rfl
    · exact call
    · rw [freeing_of_lookup hold]
      rfl
    · rw [uncharged_of_lookup hold]
      rfl
  · exact h.frees.free hblock (h.source_of_spilled hold hblock hspilled) _ _
  · intro other
    rw [spillOf_free hblock]
    show (a.hostSpilled.erase ptr).lookup other = _
    rw [Table.lookup_erase]
    split
    · rfl
    · exact h.spills other

/-- Memory that is not spilled is upstream's. -/
theorem Placed.passOn (h : Placed a w threads) {ptr : Ptr} {call : Call}
    (hold : threads.lookup thread = some (.deallocCheck call ptr))
    (hspilled : a.hostSpilled.lookup ptr = none) :
    Placed a w (threads.insert thread (.deallocUpstream call ptr)) := by
  rcases h.freeing_block hold rfl with ⟨block, g, hblock, howner, hg, hcall⟩
  apply h.move rfl
  apply h.custody.setFrame
  · rw [uncharged_of_lookup hold]
    rfl
  · rw [freeing_of_lookup hold]
    rfl
  · intro call' ptr' block' heq hblock'
    cases heq
    rw [hblock] at hblock'
    cases hblock'
    have hentry := h.spills ptr
    rw [hspilled] at hentry
    unfold World.spillOf at hentry
    rw [hg, hblock] at hentry
    simp only at hentry
    split at hentry
    · rename_i hsource
      exact hsource
    · cases hentry

theorem Placed.freeUpstream (h : Placed a w threads) {ptr : Ptr} {call : Call}
    (hold : threads.lookup thread = some (.deallocUpstream call ptr)) :
    Placed a (w.free ptr .upstream call.bytes call.alignment)
      (threads.insert thread (.deallocCredit call)) := by
  rcases h.freeing_block hold rfl with ⟨block, g, hblock, howner, hg, hcall⟩
  have hsource := h.custody.normal thread call ptr block hold hblock
  constructor
  · apply h.custody.free hblock _ _ _ _ _ rfl rfl
    · exact call
    · rw [freeing_of_lookup hold]
      rfl
    · rw [uncharged_of_lookup hold]
      rfl
  · exact h.frees.free hblock hsource _ _
  · intro other
    rw [spillOf_free hblock, h.spills]
    split
    · rename_i heq
      rw [heq]
      unfold World.spillOf
      rw [hg, hblock]
      simp only [hsource, if_true]
    · rfl

theorem Placed.startDeallocate (h : Placed a w threads) {ptr : Ptr} {grant : Grant}
    (hnone : threads.lookup thread = none) (hheld : w.held.lookup ptr = some grant)
    (hfree : grant.deallocating = none) :
    Placed a { w with
        held := w.held.insert ptr { grant with deallocating := some thread } }
      (threads.insert thread (.deallocCheck grant.call ptr)) := by
  constructor
  · exact h.custody.startDeallocate hnone hheld hfree
  · exact
      { by_source := h.frees.by_source
        once := h.frees.once
        left := h.frees.left
        known := h.frees.known
        distinct := h.frees.distinct }
  · intro other
    rw [h.spills]
    unfold World.spillOf
    rw [Table.lookup_insert]
    by_cases heq : other = ptr
    · rw [heq, hheld, if_pos rfl]
      cases w.heap.lookup ptr with
      | none => rfl
      | some block => rfl
    · rw [if_neg heq]

theorem Placed.spilled_none (h : Placed a w threads) {call : Call} {ptr : Ptr}
    (hold : threads.lookup thread = some (.charge call ptr)) :
    a.hostSpilled.lookup ptr = none := by
  rcases h.obtained_block hold rfl with ⟨block, hblock, _, hsource, _⟩
  rw [h.spills]
  unfold World.spillOf
  rw [hblock]
  cases w.held.lookup ptr with
  | none => rfl
  | some g => simp only [hsource, if_true]

end Steps

/-!
# Steps of calls
-/

section Moves

variable {s t : State} {reservationLimit : Nat} {e : Event}

theorem Frame.Fails.emptyHanded {old frame : Frame} (h : old.Fails frame) :
    old.EmptyHanded ∧ frame.EmptyHanded := by
  cases h <;> exact ⟨⟨rfl, rfl⟩, rfl, rfl⟩

theorem Frame.Takes.emptyHanded {a : Adaptor} {ptr : Ptr} {source : Source}
    {old frame : Frame} (h : Frame.Takes a ptr source old frame) : old.EmptyHanded := by
  cases h <;> exact ⟨rfl, rfl⟩

theorem Frame.Takes.uncharged_eq {a : Adaptor} {ptr : Ptr} {source : Source}
    {old frame : Frame} (h : Frame.Takes a ptr source old frame) :
    frame.uncharged = some (ptr, source) ∧ frame.freeing = none := by
  cases h <;> exact ⟨rfl, rfl⟩

/-- Every step keeps memory in its place. -/
theorem placed_move (h : Placed s.adaptor s.world s.threads)
    (hmove : Move reservationLimit s e t) : Placed t.adaptor t.world t.threads := by
  cases hmove with
  | allocate hidle => exact h.newFrame hidle ⟨rfl, rfl⟩
  | deallocate hidle hheld hfree => exact h.startDeallocate hidle hheld hfree
  | attach =>
      refine h.move ?_ h.custody
      rfl
  | refuse hframe =>
      refine h.moveFrame ?_ hframe ⟨rfl, rfl⟩ ?_
      · rfl
      · exact ⟨rfl, rfl⟩
  | pass hframe hpasses =>
      refine h.moveFrame ?_ hframe ⟨rfl, rfl⟩ ?_
      · rfl
      · exact ⟨rfl, rfl⟩
  | chargeManaged hframe =>
      refine h.finish _ _ hframe rfl rfl ?_
      intro other
      rw [Table.lookup_insert]
      rfl
  | chargePinned hframe =>
      refine h.finish _ _ hframe rfl rfl ?_
      intro other
      rw [Table.lookup_insert]
      rfl
  | charge hframe =>
      refine h.finish _ _ hframe rfl rfl ?_
      intro other
      split
      · rename_i heq
        rw [heq, h.spilled_none hframe, if_pos rfl]
      · rfl
  | freeSpilled hframe hspilled => exact h.freeSpilled hframe hspilled
  | passOn hframe hspilled => exact h.passOn hframe hspilled
  | freeUpstream hframe => exact h.freeUpstream hframe
  | credit hframe =>
      refine h.moveFrame ?_ hframe ⟨rfl, rfl⟩ ?_
      · rfl
      · exact ⟨rfl, rfl⟩
  | fail _ hframe hfails =>
      exact h.moveFrame rfl hframe hfails.emptyHanded.left hfails.emptyHanded.right
  | take _ hframe htakes hfresh =>
      exact h.produce _ _ hfresh hframe htakes.emptyHanded htakes.uncharged_eq.left
        htakes.uncharged_eq.right
  | ret hframe => exact h.move rfl (h.custody.ret hframe)

end Moves

theorem placed_initial : Placed Adaptor.initial World.initial Table.empty := by
  constructor
  · constructor
    · intro ptr thread source
      exact ⟨nofun, nofun⟩
    · intro ptr thread call
      exact ⟨nofun, nofun⟩
    · intro ptr
      exact ⟨nofun, nofun⟩
    · intro thread call ptr b hframe
      cases hframe
  · constructor
    · intro f hf
      cases hf
    · exact List.nodup_nil
    · intro n hn
      exact absurd hn (Nat.not_lt_zero n)
    · intro ptr b hb
      cases hb
    · exact Table.pairwise_empty _
  · intro ptr
    rfl

end ResourceAdaptor
end Memory
end Cuda2Rocm
