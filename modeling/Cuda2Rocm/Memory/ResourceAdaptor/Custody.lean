import Cuda2Rocm.Foundation.Matching
import Cuda2Rocm.Memory.ResourceAdaptor.Model

/-!
# Custody of memory

Memory a source has produced is with the call that asked for it, then with the
client, then with the call that deallocates it; it is freed there, once, by the
function of its source.
-/

namespace Cuda2Rocm
namespace Memory
namespace ResourceAdaptor

open Foundation

/-!
# Who holds a pointer
-/

/-- The memory a call has obtained and not returned yet, with its source. -/
def Frame.uncharged : Frame -> Option (Ptr × Source)
  | .chargeManaged _ ptr => some (ptr, .managed)
  | .chargePinned _ ptr => some (ptr, .pinned)
  | .charge _ ptr => some (ptr, .upstream)
  | _ => none

/-- The memory a call is about to free, with the arguments it was given. -/
def Frame.freeing : Frame -> Option (Ptr × Call)
  | .deallocCheck call ptr => some (ptr, call)
  | .deallocUpstream call ptr => some (ptr, call)
  | _ => none

def uncharged (threads : Table Thread Frame) (thread : Thread) :
    Option (Ptr × Source) :=
  (threads.lookup thread).bind Frame.uncharged

def freeing (threads : Table Thread Frame) (thread : Thread) :
    Option (Ptr × Call) :=
  (threads.lookup thread).bind Frame.freeing

/-- The call that has obtained the memory at a pointer. -/
def World.obtainer (w : World) (ptr : Ptr) : Option (Thread × Source) :=
  (w.heap.lookup ptr).bind (fun b => b.owner.map (fun thread => (thread, b.source)))

/-- The call that is about to free the memory at a pointer. -/
def World.freer (w : World) (ptr : Ptr) : Option (Thread × Call) :=
  (w.held.lookup ptr).bind
    (fun g => g.deallocating.map (fun thread => (thread, g.call)))

/-- The entry that `host_spilled_` should have for a pointer. -/
def World.spillOf (w : World) (ptr : Ptr) : Option Spilled :=
  match w.held.lookup ptr, w.heap.lookup ptr with
  | some g, some b =>
      if b.source = .upstream then none
      else some { bytes := g.call.bytes, isUvm := decide (b.source = .managed) }
  | _, _ => none

/-- Memory is with a call that knows it, or with a client; what a client handed back
is with a call that knows it. -/
structure Custody (world : World) (threads : Table Thread Frame) : Prop where
  obtained : Matching world.obtainer (uncharged threads)
  returning : Matching world.freer (freeing threads)
  held_iff : forall ptr, (exists g, world.held.lookup ptr = some g) <->
    exists b, world.heap.lookup ptr = some b ∧ b.owner = none
  normal : forall thread call ptr b,
    threads.lookup thread = some (.deallocUpstream call ptr) ->
    world.heap.lookup ptr = some b -> b.source = .upstream

section Threads

variable {threads : Table Thread Frame} {thread : Thread} {frame : Frame}

theorem uncharged_insert (threads : Table Thread Frame) (thread : Thread)
    (frame : Frame) (other : Thread) :
    uncharged (threads.insert thread frame) other =
      if other = thread then frame.uncharged else uncharged threads other := by
  unfold uncharged
  rw [Table.lookup_insert]
  split
  · rfl
  · rfl

theorem freeing_insert (threads : Table Thread Frame) (thread : Thread)
    (frame : Frame) (other : Thread) :
    freeing (threads.insert thread frame) other =
      if other = thread then frame.freeing else freeing threads other := by
  unfold freeing
  rw [Table.lookup_insert]
  split
  · rfl
  · rfl

theorem uncharged_of_lookup (h : threads.lookup thread = some frame) :
    uncharged threads thread = frame.uncharged := by
  unfold uncharged
  rw [h]
  rfl

theorem freeing_of_lookup (h : threads.lookup thread = some frame) :
    freeing threads thread = frame.freeing := by
  unfold freeing
  rw [h]
  rfl

theorem uncharged_of_none (h : threads.lookup thread = none) :
    uncharged threads thread = none := by
  unfold uncharged
  rw [h]
  rfl

theorem freeing_of_none (h : threads.lookup thread = none) :
    freeing threads thread = none := by
  unfold freeing
  rw [h]
  rfl

/-- Replacing a frame by one with the same claim changes no claim. -/
theorem uncharged_insert_same
    (h : frame.uncharged = uncharged threads thread) (other : Thread) :
    uncharged (threads.insert thread frame) other = uncharged threads other := by
  rw [uncharged_insert]
  split
  · rename_i heq
    rw [heq, h]
  · rfl

theorem freeing_insert_same
    (h : frame.freeing = freeing threads thread) (other : Thread) :
    freeing (threads.insert thread frame) other = freeing threads other := by
  rw [freeing_insert]
  split
  · rename_i heq
    rw [heq, h]
  · rfl

end Threads

section Worlds

variable {w : World} {ptr : Ptr}

theorem obtainer_of_lookup {b : Block} (h : w.heap.lookup ptr = some b) :
    w.obtainer ptr = b.owner.map (fun thread => (thread, b.source)) := by
  unfold World.obtainer
  rw [h]
  rfl

theorem obtainer_of_none (h : w.heap.lookup ptr = none) : w.obtainer ptr = none := by
  unfold World.obtainer
  rw [h]
  rfl

theorem freer_of_lookup {g : Grant} (h : w.held.lookup ptr = some g) :
    w.freer ptr = g.deallocating.map (fun thread => (thread, g.call)) := by
  unfold World.freer
  rw [h]
  rfl

theorem block_of_obtainer {thread : Thread} {source : Source}
    (h : w.obtainer ptr = some (thread, source)) :
    exists b, w.heap.lookup ptr = some b ∧ b.owner = some thread ∧ b.source = source := by
  unfold World.obtainer at h
  rcases Option.bind_eq_some_iff.mp h with ⟨b, hb, howner⟩
  rcases Option.map_eq_some_iff.mp howner with ⟨owner, hown, heq⟩
  cases heq
  exact ⟨b, hb, hown, rfl⟩

theorem grant_of_freer {thread : Thread} {call : Call}
    (h : w.freer ptr = some (thread, call)) :
    exists g, w.held.lookup ptr = some g ∧ g.deallocating = some thread ∧
      g.call = call := by
  unfold World.freer at h
  rcases Option.bind_eq_some_iff.mp h with ⟨g, hg, hthread⟩
  rcases Option.map_eq_some_iff.mp hthread with ⟨owner, hown, heq⟩
  cases heq
  exact ⟨g, hg, hown, rfl⟩

theorem spillOf_eq_some_iff {spilled : Spilled} :
    w.spillOf ptr = some spilled <->
      exists g b, w.held.lookup ptr = some g ∧ w.heap.lookup ptr = some b ∧
        b.source ≠ .upstream ∧
        spilled = { bytes := g.call.bytes, isUvm := decide (b.source = .managed) } := by
  constructor
  · intro h
    unfold World.spillOf at h
    split at h
    · rename_i g b hg hb
      split at h
      · cases h
      · rename_i hsource
        exact ⟨g, b, hg, hb, hsource, (Option.some.inj h).symm⟩
    · cases h
  · rintro ⟨g, b, hg, hb, hsource, rfl⟩
    unfold World.spillOf
    rw [hg, hb]
    exact if_neg hsource

theorem free_eq {b : Block} (h : w.heap.lookup ptr = some b) (freedBy : Source)
    (size alignment : Nat) :
    w.free ptr freedBy size alignment =
      { w with
        heap := w.heap.erase ptr
        held := w.held.erase ptr
        frees := w.frees ++
          [{ serial := b.serial, freedBy := freedBy, size := size,
             alignment := alignment }] } := by
  simp only [World.free, h]

theorem handOut_eq {b : Block} (h : w.heap.lookup ptr = some b) (call : Call) :
    w.handOut ptr call =
      { w with
        heap := w.heap.insert ptr { b with owner := none }
        held := w.held.insert ptr { call := call, deallocating := none } } := by
  simp only [World.handOut, h]

end Worlds

section Moves

variable {w : World} {threads : Table Thread Frame} {thread : Thread}

/-- A call without memory moves to a frame without memory. -/
theorem Custody.setFrame (h : Custody w threads) {frame : Frame}
    (hobtained : frame.uncharged = uncharged threads thread)
    (hreturning : frame.freeing = freeing threads thread)
    (hnormal : forall call ptr b, frame = .deallocUpstream call ptr ->
      w.heap.lookup ptr = some b -> b.source = .upstream) :
    Custody w (threads.insert thread frame) := by
  constructor
  · exact h.obtained.congr (fun _ => rfl) (uncharged_insert_same hobtained)
  · exact h.returning.congr (fun _ => rfl) (freeing_insert_same hreturning)
  · exact h.held_iff
  · intro other call ptr b hlookup hb
    rcases Table.lookup_of_lookup_insert hlookup with ⟨_, heq⟩ | ⟨_, hold⟩
    · exact hnormal call ptr b heq.symm hb
    · exact h.normal other call ptr b hold hb

theorem Custody.produce (h : Custody w threads) {ptr : Ptr} {source : Source}
    (size alignment : Nat) {frame : Frame} (hfresh : w.heap.lookup ptr = none)
    (hidle : uncharged threads thread = none) (hkeeps : freeing threads thread = none)
    (hframe : frame.uncharged = some (ptr, source)) (hfrees : frame.freeing = none) :
    Custody (w.produce ptr source size alignment thread)
      (threads.insert thread frame) := by
  constructor
  · refine h.obtained.link (obtainer_of_none hfresh) hidle (n := source) ?_ ?_
    · intro other
      unfold World.obtainer World.produce
      rw [Table.lookup_insert]
      split
      · rfl
      · rfl
    · intro other
      rw [uncharged_insert, hframe]
  · refine h.returning.congr (fun _ => rfl) (freeing_insert_same ?_)
    rw [hfrees, hkeeps]
  · intro other
    refine (h.held_iff other).trans ?_
    unfold World.produce
    simp only [Table.lookup_insert]
    split
    · rename_i heq
      rw [heq, hfresh]
      simp
    · rfl
  · intro other call q b hlookup hb
    rcases Table.lookup_of_lookup_insert hlookup with ⟨_, rfl⟩ | ⟨_, hold⟩
    · cases hfrees
    · rcases Table.lookup_of_lookup_insert hb with ⟨rfl, _⟩ | ⟨_, hblock⟩
      · have hmatch := (h.returning q other call).mpr
          (by rw [freeing_of_lookup hold]; rfl)
        rcases grant_of_freer hmatch with ⟨g, hg, _⟩
        rcases (h.held_iff q).mp ⟨g, hg⟩ with ⟨b', hb', _⟩
        rw [hfresh] at hb'
        cases hb'
      · exact h.normal other call q b hold hblock

theorem Custody.handOut (h : Custody w threads) {ptr : Ptr} {source : Source}
    (call : Call) {frame : Frame} (hhas : uncharged threads thread = some (ptr, source))
    (hkeeps : freeing threads thread = none)
    (hframe : frame.uncharged = none) (hfrees : frame.freeing = none) :
    Custody (w.handOut ptr call) (threads.insert thread frame) := by
  rcases block_of_obtainer ((h.obtained ptr thread source).mpr hhas) with
    ⟨b, hb, howner, hsource⟩
  have hnotheld : w.held.lookup ptr = none := by
    cases hheld : w.held.lookup ptr with
    | none => rfl
    | some g =>
        rcases (h.held_iff ptr).mp ⟨g, hheld⟩ with ⟨b', hb', hnone⟩
        rw [hb] at hb'
        cases hb'
        rw [howner] at hnone
        cases hnone
  rw [handOut_eq hb call]
  constructor
  · refine h.obtained.unlink hhas ?_ ?_
    · intro other
      unfold World.obtainer
      rw [Table.lookup_insert]
      split
      · rfl
      · rfl
    · intro other
      rw [uncharged_insert, hframe]
  · refine h.returning.congr ?_ (freeing_insert_same (by rw [hfrees, hkeeps]))
    intro other
    unfold World.freer
    rw [Table.lookup_insert]
    split
    · rename_i heq
      rw [heq, hnotheld]
      rfl
    · rfl
  · intro other
    simp only [Table.lookup_insert]
    split
    · simp
    · exact h.held_iff other
  · intro other c q b' hlookup hb'
    rcases Table.lookup_of_lookup_insert hlookup with ⟨_, rfl⟩ | ⟨_, hold⟩
    · cases hfrees
    · rcases Table.lookup_of_lookup_insert hb' with ⟨rfl, rfl⟩ | ⟨_, hblock⟩
      · exact h.normal other c q b hold hb
      · exact h.normal other c q b' hold hblock

theorem Custody.startDeallocate (h : Custody w threads) {ptr : Ptr} {grant : Grant}
    (hidle : threads.lookup thread = none) (hheld : w.held.lookup ptr = some grant)
    (hfree : grant.deallocating = none) :
    Custody { w with
        held := w.held.insert ptr { grant with deallocating := some thread } }
      (threads.insert thread (.deallocCheck grant.call ptr)) := by
  constructor
  · refine h.obtained.congr (fun _ => rfl) (uncharged_insert_same ?_)
    rw [uncharged_of_none hidle]
    rfl
  · refine h.returning.link (i := ptr) (n := grant.call) ?_ (freeing_of_none hidle)
      ?_ ?_
    · rw [freer_of_lookup hheld, hfree]
      rfl
    · intro other
      unfold World.freer
      rw [Table.lookup_insert]
      split
      · rfl
      · rfl
    · intro other
      rw [freeing_insert]
      rfl
  · intro other
    refine Iff.trans ?_ (h.held_iff other)
    simp only [Table.lookup_insert]
    split
    · rename_i heq
      rw [heq, hheld]
      simp
    · rfl
  · intro other call q b hlookup hb
    rcases Table.lookup_of_lookup_insert hlookup with ⟨_, heq⟩ | ⟨_, hold⟩
    · cases heq
    · exact h.normal other call q b hold hb

theorem Custody.free (h : Custody w threads) {ptr : Ptr} {call : Call} {b : Block}
    (hblock : w.heap.lookup ptr = some b) (freedBy : Source) (size alignment : Nat)
    {frame : Frame} (hhas : freeing threads thread = some (ptr, call))
    (hidle : uncharged threads thread = none)
    (hframe : frame.uncharged = none) (hfrees : frame.freeing = none) :
    Custody (w.free ptr freedBy size alignment) (threads.insert thread frame) := by
  rcases grant_of_freer ((h.returning ptr thread call).mpr hhas) with ⟨g, hg, _⟩
  rcases (h.held_iff ptr).mp ⟨g, hg⟩ with ⟨b', hb', howner⟩
  rw [hblock] at hb'
  cases hb'
  rw [free_eq hblock]
  constructor
  · refine h.obtained.congr ?_ (uncharged_insert_same (by rw [hframe, hidle]))
    intro other
    unfold World.obtainer
    rw [Table.lookup_erase]
    split
    · rename_i heq
      rw [heq, hblock]
      simp [howner]
    · rfl
  · refine h.returning.unlink hhas ?_ ?_
    · intro other
      unfold World.freer
      rw [Table.lookup_erase]
      split
      · rfl
      · rfl
    · intro other
      rw [freeing_insert, hfrees]
  · intro other
    simp only [Table.lookup_erase]
    split
    · simp
    · exact h.held_iff other
  · intro other c q b' hlookup hb'
    rcases Table.lookup_of_lookup_insert hlookup with ⟨_, rfl⟩ | ⟨_, hold⟩
    · cases hfrees
    · exact h.normal other c q b' hold (Table.lookup_of_lookup_erase hb').right

theorem Custody.ret (h : Custody w threads) {outcome : Outcome}
    (hframe : threads.lookup thread = some (.done outcome)) :
    Custody w (threads.erase thread) := by
  have hlookup : forall other, other ≠ thread ->
      (threads.erase thread).lookup other = threads.lookup other :=
    fun other hne => Table.lookup_erase_ne hne threads
  constructor
  · refine h.obtained.congr (fun _ => rfl) ?_
    intro other
    by_cases heq : other = thread
    · rw [heq, uncharged_of_none (Table.lookup_erase_self _ _),
        uncharged_of_lookup hframe]
      rfl
    · unfold uncharged
      rw [hlookup other heq]
  · refine h.returning.congr (fun _ => rfl) ?_
    intro other
    by_cases heq : other = thread
    · rw [heq, freeing_of_none (Table.lookup_erase_self _ _),
        freeing_of_lookup hframe]
      rfl
    · unfold freeing
      rw [hlookup other heq]
  · exact h.held_iff
  · intro other call ptr b hother hb
    exact h.normal other call ptr b (Table.lookup_of_lookup_erase hother).right hb

end Moves

end ResourceAdaptor
end Memory
end Cuda2Rocm
