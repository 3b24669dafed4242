import Cuda2Rocm.Memory.ResourceAdaptor.Custody

/-!
# Exact accounting of the adaptor

Both counters are sums over the pointers whose charge stands: those the clients
hold, those handed back and not freed yet, and those freed upstream whose credit is
still to come.
-/

namespace Cuda2Rocm
namespace Memory
namespace ResourceAdaptor

open Foundation

/-!
# Counters
-/

/-- Two states of the adaptor with the same counters and the same spills. -/
structure SameCounters (a b : Adaptor) : Prop where
  total : b.totalAllocated = a.totalAllocated
  current : forall stream, b.currentOf stream = a.currentOf stream
  peak : forall stream, b.peakOf stream = a.peakOf stream
  spilled : b.hostSpilled = a.hostSpilled

theorem SameCounters.refl (a : Adaptor) : SameCounters a a :=
  ⟨rfl, fun _ => rfl, fun _ => rfl, rfl⟩

namespace Adaptor

variable {a : Adaptor} {stream : Stream}

theorem peakOf_eq (a : Adaptor) (stream : Stream) :
    a.peakOf stream = (a.tracker stream).peakBytes := by
  unfold peakOf tracker
  cases a.streamTracker.lookup stream with
  | none => rfl
  | some state => rfl

/-- The entry of a stream after one entry was stored. -/
theorem tracker_insert (a : Adaptor) (stream : Stream) (state : StreamState)
    (total : Nat) (spilled : Table Ptr Spilled) (other : Stream) :
    Adaptor.tracker
        { totalAllocated := total
          streamTracker := a.streamTracker.insert stream state
          hostSpilled := spilled } other =
      if other = stream then state else a.tracker other := by
  unfold tracker
  rw [Table.lookup_insert]
  split
  · rfl
  · rfl

theorem clampedSub_eq (cur bytes : Nat) : clampedSub cur bytes = cur - bytes := by
  unfold clampedSub
  split
  · rfl
  · omega

theorem currentOf_chargeStream (a : Adaptor) (stream : Stream) (bytes : Nat)
    (other : Stream) :
    (a.chargeStream stream bytes).currentOf other =
      if other = stream then wrapSize (a.currentOf stream + bytes)
      else a.currentOf other := by
  unfold currentOf chargeStream
  rw [tracker_insert]
  split
  · rfl
  · rfl

theorem peakOf_chargeStream (a : Adaptor) (stream : Stream) (bytes : Nat)
    (other : Stream) :
    (a.chargeStream stream bytes).peakOf other =
      if other = stream then
        Nat.max (a.peakOf stream) (wrapSize (a.currentOf stream + bytes))
      else a.peakOf other := by
  rw [peakOf_eq, peakOf_eq, peakOf_eq]
  unfold currentOf chargeStream
  rw [tracker_insert]
  split
  · show (if _ > _ then _ else _) = _
    split
    · rename_i h
      exact (Nat.max_eq_right (Nat.le_of_lt h)).symm
    · rename_i h
      exact (Nat.max_eq_left (Nat.le_of_not_lt h)).symm
  · rfl

theorem currentOf_creditStream (a : Adaptor) (stream : Stream) (bytes : Nat)
    (other : Stream) :
    (a.creditStream stream bytes).currentOf other =
      if other = stream then a.currentOf stream - bytes else a.currentOf other := by
  unfold creditStream currentOf
  cases hlookup : a.streamTracker.lookup stream with
  | none =>
      have hzero : (a.tracker stream).currentBytes = 0 := by
        unfold tracker
        rw [hlookup]
        rfl
      show (a.tracker other).currentBytes = _
      by_cases heq : other = stream
      · rw [if_pos heq, heq, hzero, Nat.zero_sub]
      · rw [if_neg heq]
  | some state =>
      rw [tracker_insert]
      split
      · rw [clampedSub_eq]
        unfold tracker
        rw [hlookup]
        rfl
      · rfl

theorem peakOf_creditStream (a : Adaptor) (stream : Stream) (bytes : Nat)
    (other : Stream) : (a.creditStream stream bytes).peakOf other = a.peakOf other := by
  rw [peakOf_eq, peakOf_eq]
  unfold creditStream
  cases hlookup : a.streamTracker.lookup stream with
  | none => rfl
  | some state =>
      rw [tracker_insert]
      split
      · rename_i heq
        rw [heq]
        unfold tracker
        rw [hlookup]
        rfl
      · rfl

theorem sameCounters_touch (a : Adaptor) (stream : Stream) :
    SameCounters a (a.touch stream) := by
  have htracker : forall other, (a.touch stream).tracker other = a.tracker other := by
    intro other
    unfold touch
    rw [tracker_insert]
    split
    · rename_i heq
      rw [heq]
    · rfl
  constructor
  · rfl
  · intro other
    unfold currentOf
    rw [htracker]
  · intro other
    rw [peakOf_eq, peakOf_eq, htracker]
  · rfl

theorem sameCounters_attach (a : Adaptor) (stream : Stream) (oomPolicy : Bool) :
    SameCounters a (a.attach stream oomPolicy) := by
  constructor
  · rfl
  · intro other
    unfold currentOf attach
    rw [tracker_insert]
    split
    · rename_i heq
      rw [heq]
    · rfl
  · intro other
    rw [peakOf_eq, peakOf_eq]
    unfold attach
    rw [tracker_insert]
    split
    · rename_i heq
      rw [heq]
    · rfl
  · rfl

end Adaptor

/-!
# Charges that stand
-/

/-- The share of a call in the counter of a stream. -/
def Call.onStream (stream : Stream) (call : Call) : Nat :=
  if call.stream = stream then call.bytes else 0

/-- What a call in flight still has to credit for memory it has freed. -/
def Frame.owed (share : Call -> Nat) : Frame -> Nat
  | .deallocCredit call => share call
  | _ => 0

/-- The shares of the pointers clients hold and of those not freed yet. -/
def heldShares (world : World) (share : Call -> Nat) : Nat :=
  world.held.sum (fun _ g => share g.call)

/-- The shares calls in flight still have to credit. -/
def owedShares (threads : Table Thread Frame) (share : Call -> Nat) : Nat :=
  threads.sum (fun _ frame => frame.owed share)

/-- The shares of all pointers whose charge stands. -/
def charged (world : World) (threads : Table Thread Frame) (share : Call -> Nat) :
    Nat :=
  heldShares world share + owedShares threads share

theorem onStream_le (stream : Stream) (call : Call) :
    call.onStream stream ≤ call.bytes := by
  unfold Call.onStream
  split
  · exact Nat.le_refl _
  · exact Nat.zero_le _

theorem charged_onStream_le (world : World) (threads : Table Thread Frame)
    (stream : Stream) :
    charged world threads (Call.onStream stream) ≤ charged world threads Call.bytes := by
  unfold charged
  apply Nat.add_le_add
  · exact Table.sum_le_sum (fun _ g _ => onStream_le stream g.call)
  · apply Table.sum_le_sum
    intro thread frame _
    cases frame with
    | deallocCredit call => exact onStream_le stream call
    | _ => exact Nat.le_refl _

section Shares

variable {world : World} {threads : Table Thread Frame} {thread : Thread}
  (share : Call -> Nat)

theorem owedShares_insert {old : Frame} (h : threads.lookup thread = some old)
    (frame : Frame) :
    owedShares (threads.insert thread frame) share + old.owed share =
      owedShares threads share + frame.owed share :=
  Table.sum_replace h frame (fun _ f => f.owed share)

theorem owedShares_insert_of_none (h : threads.lookup thread = none) (frame : Frame) :
    owedShares (threads.insert thread frame) share =
      frame.owed share + owedShares threads share :=
  Table.sum_insert_of_none h frame (fun _ f => f.owed share)

theorem owedShares_erase {old : Frame} (h : threads.lookup thread = some old) :
    owedShares threads share =
      old.owed share + owedShares (threads.erase thread) share :=
  Table.sum_of_lookup h (fun _ f => f.owed share)

theorem charged_setFrame {old frame : Frame} (h : threads.lookup thread = some old)
    (hsame : frame.owed share = old.owed share) :
    charged world (threads.insert thread frame) share = charged world threads share := by
  have hsum := owedShares_insert share h frame
  unfold charged
  omega

theorem charged_newFrame {frame : Frame} (h : threads.lookup thread = none)
    (hzero : frame.owed share = 0) :
    charged world (threads.insert thread frame) share = charged world threads share := by
  have hsum := owedShares_insert_of_none share h frame
  unfold charged
  omega

theorem heldShares_insert_of_none {w : World} {ptr : Ptr}
    (h : w.held.lookup ptr = none) (g : Grant) (heap : Table Ptr Block) :
    heldShares { w with heap := heap, held := w.held.insert ptr g } share =
      share g.call + heldShares w share :=
  Table.sum_insert_of_none h g (fun _ g => share g.call)

theorem heldShares_replace {w : World} {ptr : Ptr} {old : Grant}
    (h : w.held.lookup ptr = some old) (g : Grant) :
    heldShares { w with held := w.held.insert ptr g } share + share old.call =
      heldShares w share + share g.call :=
  Table.sum_replace h g (fun _ g => share g.call)

theorem heldShares_free {w : World} {ptr : Ptr} {b : Block} {g : Grant}
    (hblock : w.heap.lookup ptr = some b) (hheld : w.held.lookup ptr = some g)
    (freedBy : Source) (size alignment : Nat) :
    heldShares (w.free ptr freedBy size alignment) share + share g.call =
      heldShares w share := by
  rw [free_eq hblock]
  have hsum := Table.sum_of_lookup hheld (fun _ g => share g.call)
  unfold heldShares
  show (w.held.erase ptr).sum _ + _ = _
  omega

end Shares

/-!
# Frees
-/

/-- Every free is by the function of the source, no memory is freed twice, and what
is not freed is still there. -/
structure FreesMatch (world : World) : Prop where
  by_source : forall f, f ∈ world.frees ->
    world.produced[f.serial]? = some f.freedBy
  once : (world.frees.map Free.serial).Nodup
  left : forall n, n < world.produced.length ->
    (n ∉ world.frees.map Free.serial <->
      exists ptr b, world.heap.lookup ptr = some b ∧ b.serial = n)
  known : forall ptr b, world.heap.lookup ptr = some b ->
    world.produced[b.serial]? = some b.source
  distinct : world.heap.Pairwise (fun b c => b.serial ≠ c.serial)

theorem FreesMatch.produce {w : World} (h : FreesMatch w) {ptr : Ptr}
    (source : Source) (size alignment : Nat) (owner : Thread)
    (hfresh : w.heap.lookup ptr = none) :
    FreesMatch (w.produce ptr source size alignment owner) := by
  have hlt : forall p b, w.heap.lookup p = some b -> b.serial < w.produced.length := by
    intro p b hb
    exact (List.getElem?_eq_some_iff.mp (h.known p b hb)).choose
  have hkeep : forall (n : Nat) (x : Source), w.produced[n]? = some x ->
      (w.produced ++ [source])[n]? = some x := by
    intro n x hx
    rw [List.getElem?_append_left (List.getElem?_eq_some_iff.mp hx).choose]
    exact hx
  constructor
  · intro f hf
    exact hkeep f.serial f.freedBy (h.by_source f hf)
  · exact h.once
  · intro n hn
    unfold World.produce
    simp only [Table.lookup_insert]
    by_cases heq : n = w.produced.length
    · subst heq
      constructor
      · intro _
        exact ⟨ptr, _, if_pos rfl, rfl⟩
      · intro _ hmem
        rcases List.mem_map.mp hmem with ⟨f, hf, hserial⟩
        have hknown := (List.getElem?_eq_some_iff.mp (h.by_source f hf)).choose
        omega
    · have hn' : n < w.produced.length := by
        have hlen : (w.produced ++ [source]).length = w.produced.length + 1 := by simp
        change n < (w.produced ++ [source]).length at hn
        omega
      refine (h.left n hn').trans ?_
      constructor
      · rintro ⟨p, b, hb, hserial⟩
        refine ⟨p, b, ?_, hserial⟩
        rw [if_neg]
        · exact hb
        · intro hp
          rw [hp, hfresh] at hb
          cases hb
      · rintro ⟨p, b, hb, hserial⟩
        split at hb
        · cases hb
          exact absurd hserial.symm heq
        · exact ⟨p, b, hb, hserial⟩
  · intro p b hb
    rcases Table.lookup_of_lookup_insert hb with ⟨_, rfl⟩ | ⟨_, hold⟩
    · show (w.produced ++ [source])[w.produced.length]? = some source
      simp
    · exact hkeep b.serial b.source (h.known p b hold)
  · refine (Table.pairwise_insert_iff (fun _ _ hne => hne.symm) h.distinct ptr _).mpr ?_
    intro j c _ hc
    have hserial := hlt j c hc
    show w.produced.length ≠ c.serial
    omega

theorem FreesMatch.relabel {w : World} (h : FreesMatch w) {ptr : Ptr} {b c : Block}
    (hblock : w.heap.lookup ptr = some b) (hserial : c.serial = b.serial)
    (hsource : c.source = b.source) (held : Table Ptr Grant) :
    FreesMatch { w with heap := w.heap.insert ptr c, held := held } := by
  constructor
  · exact h.by_source
  · exact h.once
  · intro n hn
    refine (h.left n hn).trans ?_
    simp only [Table.lookup_insert]
    constructor
    · rintro ⟨p, b', hb', hn'⟩
      by_cases heq : p = ptr
      · rw [heq, hblock] at hb'
        cases hb'
        exact ⟨ptr, c, if_pos rfl, hserial.trans hn'⟩
      · exact ⟨p, b', by rw [if_neg heq]; exact hb', hn'⟩
    · rintro ⟨p, b', hb', hn'⟩
      split at hb'
      · cases hb'
        exact ⟨ptr, b, hblock, hserial.symm.trans hn'⟩
      · exact ⟨p, b', hb', hn'⟩
  · intro p b' hb'
    rcases Table.lookup_of_lookup_insert hb' with ⟨_, rfl⟩ | ⟨_, hold⟩
    · show w.produced[b'.serial]? = some b'.source
      rw [hserial, hsource]
      exact h.known ptr b hblock
    · exact h.known p b' hold
  · refine (Table.pairwise_insert_iff (fun _ _ hne => hne.symm) h.distinct ptr c).mpr ?_
    intro j d hne hd
    show c.serial ≠ d.serial
    rw [hserial]
    exact h.distinct ptr j b d hne.symm hblock hd

theorem FreesMatch.free {w : World} (h : FreesMatch w) {ptr : Ptr} {b : Block}
    (hblock : w.heap.lookup ptr = some b) {freedBy : Source}
    (hsource : b.source = freedBy) (size alignment : Nat) :
    FreesMatch (w.free ptr freedBy size alignment) := by
  have hknown := h.known ptr b hblock
  have hlt : b.serial < w.produced.length := (List.getElem?_eq_some_iff.mp hknown).choose
  have hnew : b.serial ∉ w.frees.map Free.serial :=
    (h.left b.serial hlt).mpr ⟨ptr, b, hblock, rfl⟩
  rw [free_eq hblock]
  constructor
  · intro f hf
    rcases List.mem_append.mp hf with hold | hnewest
    · exact h.by_source f hold
    · rw [List.mem_singleton.mp hnewest, ← hsource]
      exact hknown
  · simp only [List.map_append, List.map_cons, List.map_nil]
    rw [List.nodup_append]
    refine ⟨h.once, by simp, ?_⟩
    intro n hn m hm heq
    rw [List.mem_singleton.mp hm] at heq
    rw [heq] at hn
    exact hnew hn
  · intro n hn
    simp only [List.map_append, List.map_cons, List.map_nil, List.mem_append,
      List.mem_singleton, Table.lookup_erase, not_or]
    constructor
    · rintro ⟨hold, hne⟩
      rcases (h.left n hn).mp hold with ⟨p, c, hc, hserial⟩
      refine ⟨p, c, ?_, hserial⟩
      rw [if_neg]
      · exact hc
      · intro hp
        rw [hp, hblock] at hc
        cases hc
        exact hne hserial.symm
    · rintro ⟨p, c, hc, hserial⟩
      split at hc
      · cases hc
      · rename_i hp
        refine ⟨(h.left n hn).mpr ⟨p, c, hc, hserial⟩, ?_⟩
        rw [← hserial]
        exact h.distinct p ptr c b hp hc hblock
  · intro p c hc
    exact h.known p c (Table.lookup_of_lookup_erase hc).right
  · exact Table.pairwise_erase h.distinct ptr

end ResourceAdaptor
end Memory
end Cuda2Rocm
