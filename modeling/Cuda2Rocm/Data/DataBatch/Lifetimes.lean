import Cuda2Rocm.Data.DataBatch.Location
import Cuda2Rocm.Foundation.CountedHeap

/-!
# Lifetimes of representations and of their writer events

Batches and views own representations through shared pointers.  A representation makes its
writer event when it is first recorded, and its destructor destroys it, so the events live
exactly as long as somebody owns the representation that made them.
-/

namespace Cuda2Rocm
namespace Data
namespace DataBatch
namespace Lifetimes

open Foundation
open Foundation.CountedHeap

abbrev HolderId := Nat

/-- A `hipEvent_t`; no two events share one. -/
abbrev EventHandle := Nat

/-- An object with a shared pointer to a representation. -/
inductive Holder where
  | batch (batch : Batch)
  | view (view : View)
deriving DecidableEq, Repr

def Holder.data : Holder -> Option Ref
  | .batch b => b.data
  | .view v => v.data

/-- A representation with its `writer_event_`. -/
structure Written where
  representation : Representation
  writerEvent : Option EventHandle
deriving DecidableEq, Repr

/-- A representation as its constructor leaves it. -/
def Written.fresh (r : Representation) : Written := { representation := r, writerEvent := none }

/-- The batches and views of the clients, the representations, and the number of events
created. -/
structure State where
  holders : Table HolderId Holder
  heap : CountedHeap Written
  created : Nat

/-- The calls of the clients.  `copy` and `move` construct the target, or assign to it where
it exists.  An event may fail to be created, and to be recorded. -/
inductive Event where
  | make (new : HolderId) (batchId : UInt64) (data : Option Representation)
      (space : Option Nat)
  | toReadOnly (batch new : HolderId)
  | toMutable (batch new : HolderId)
  | tryToReadOnly (batch : HolderId)
  | tryToMutable (batch : HolderId)
  | copy (source target : HolderId)
  | move (source target : HolderId)
  | readonlyToMutable (source new : HolderId)
  | mutableToReadonly (source new : HolderId)
  | setData (target : HolderId) (data : Option Representation)
  | clone (source new : HolderId) (newBatchId : UInt64) (failure : Option String)
  | cloneTo (source new : HolderId) (newBatchId : UInt64) (targetSpace : Nat)
      (outcome : Except String RepresentationKind)
  | recordWriterEvent (view : HolderId) (creates : Bool)
  | rebindStream (view : HolderId)
  | destroy (holder : HolderId)

namespace State

def initial : State := { holders := Table.empty, heap := CountedHeap.empty, created := 0 }

/-- The pointer at a holder, null where there is no holder. -/
def dataAt (s : State) (id : HolderId) : Option Ref :=
  (s.holders.lookup id).bind Holder.data

/-- A holder with a copy of a pointer is constructed, or assigned to. -/
def hold (s : State) (id : HolderId) (holder : Holder) : State :=
  { s with
    holders := s.holders.insert id holder
    heap := (s.heap.retain holder.data).release (s.dataAt id) }

/-- A holder of the next representation takes it from a unique pointer. -/
def own (s : State) (id : HolderId) (r : Representation) (holder : Holder) : State :=
  { s with
    holders := s.holders.insert id holder
    heap := (s.heap.allocate (Written.fresh r)).release (s.dataAt id) }

/-- Other fields of a holder change. -/
def relabel (s : State) (id : HolderId) (holder : Holder) : State :=
  { s with holders := s.holders.insert id holder }

def drop (s : State) (id : HolderId) : State :=
  { s with holders := s.holders.erase id, heap := s.heap.release (s.dataAt id) }

/-- The batch and the view that it hands out. -/
def handOut (s : State) (id new : HolderId) (result : Except String (Batch × View)) : State :=
  match result with
  | .error _ => s
  | .ok (batch, view) => (s.relabel id (.batch batch)).hold new (.view view)

/-- A batch of the next representation, unless something threw before. -/
def addBatch (s : State) (new : HolderId) (r : Representation) (result : Except String Batch) :
    State :=
  match result with
  | .error _ => s
  | .ok batch => s.own new r (.batch batch)

/-- `record_writer_event`, up to the record itself. -/
def recordWriterEvent (s : State) (ref : Ref) (creates : Bool) : State :=
  match (s.heap.cells.lookup ref).bind (fun cell => cell.object.writerEvent) with
  | some _ => s
  | none =>
      if creates then
        { s with
          heap := s.heap.modify ref
            (fun written => { written with writerEvent := some s.created })
          created := s.created + 1 }
      else s

/-- The object that `get_shared_data` refers to. -/
def object? (s : State) (data : Option Ref) : Option Written :=
  data.bind (fun ref => (s.heap.cells.lookup ref).map Cell.object)

/-- The events that destructors of representations have destroyed. -/
def destroyedEvents (s : State) : List EventHandle :=
  s.heap.destroyed.filterMap (fun entry => entry.2.writerEvent)

end State

/-- The target of a copy or move is new, or a view of the same class. -/
def State.assignable (s : State) (kind : ViewKind) (target : HolderId) : Bool :=
  match s.holders.lookup target with
  | none => true
  | some (.view old) => old.kind == kind
  | some (.batch _) => false

/-- One call of a client. -/
def step (s : State) : Event -> Option State
  | .make new batchId data space =>
      if s.holders.lookup new = none then
        match data with
        | none => some (s.hold new (.batch (Batch.make batchId none space)))
        | some r => some (s.own new r (.batch (Batch.make batchId (some s.heap.made) space)))
      else none
  | .toReadOnly id new =>
      match s.holders.lookup id, s.holders.lookup new with
      | some (.batch batch), none => some (s.handOut id new batch.toReadOnly)
      | _, _ => none
  | .toMutable id new =>
      match s.holders.lookup id, s.holders.lookup new with
      | some (.batch batch), none => some (s.handOut id new batch.toMutable)
      | _, _ => none
  | .tryToReadOnly id =>
      match s.holders.lookup id with
      | some (.batch batch) => some (s.relabel id (.batch batch.tryToReadOnly.fst))
      | _ => none
  | .tryToMutable id =>
      match s.holders.lookup id with
      | some (.batch batch) => some (s.relabel id (.batch batch.tryToMutable.fst))
      | _ => none
  | .copy source target =>
      match s.holders.lookup source with
      | some (.view v) =>
          if v.kind = .readOnly ∧ s.assignable .readOnly target then
            some (s.hold target (.view v))
          else none
      | _ => none
  | .move source target =>
      match s.holders.lookup source with
      | some (.view v) =>
          if source = target then some s
          else if s.assignable v.kind target then
            -- a copy, then the source gives its pointer up
            some ((s.hold target (.view v)).hold source (.view v.movedFrom))
          else none
      | _ => none
  | .readonlyToMutable source new =>
      match s.holders.lookup source, s.holders.lookup new with
      | some (.view v), none =>
          if v.kind = .readOnly then some (s.hold new (.view v.readonlyToMutable)) else none
      | _, _ => none
  | .mutableToReadonly source new =>
      match s.holders.lookup source, s.holders.lookup new with
      | some (.view v), none =>
          if v.kind = .mutable then some (s.hold new (.view v.mutableToReadonly)) else none
      | _, _ => none
  | .setData target data =>
      match s.holders.lookup target with
      | some (.view v) =>
          if v.kind = .mutable then
            match data with
            | none => some (s.hold target (.view (v.setData none)))
            | some r => some (s.own target r (.view (v.setData (some s.heap.made))))
          else none
      | _ => none
  | .clone source new newBatchId failure =>
      match s.holders.lookup source, s.holders.lookup new with
      | some (.view v), none =>
          if v.kind = .readOnly then
            match s.object? v.data with
            | none => some s
            | some written =>
                match written.representation.clone failure with
                | .error _ => some s
                | .ok copied => some (s.addBatch new copied (v.clone newBatchId s.heap.made))
          else none
      | _, _ => none
  | .cloneTo source new newBatchId targetSpace outcome =>
      match s.holders.lookup source, s.holders.lookup new with
      | some (.view v), none =>
          match outcome with
          | .error _ => some s
          | .ok kind =>
              some (s.addBatch new { kind := kind, space := targetSpace }
                (v.cloneTo newBatchId (some targetSpace) (.ok s.heap.made)))
      | _, _ => none
  | .recordWriterEvent id creates =>
      match s.holders.lookup id with
      | some (.view v) => v.data.map (fun ref => s.recordWriterEvent ref creates)
      | _ => none
  | .rebindStream id =>
      match s.holders.lookup id with
      | some (.view v) => v.data.map (fun _ => s)
      | _ => none
  | .destroy id => if s.holders.lookup id = none then none else some (s.drop id)

def machine : Machine State Event where
  step := step

/-!
# Pointers
-/

namespace State

/-- The holders that point to a representation. -/
def pointers (s : State) (ref : Ref) : Nat :=
  s.holders.sum (fun _ holder => pointsTo holder.data ref)

variable {s : State}

theorem pointers_insert (s : State) (id : HolderId) (holder : Holder) (ref : Ref) :
    (s.holders.insert id holder).sum (fun _ holder => pointsTo holder.data ref) +
        pointsTo (s.dataAt id) ref =
      s.pointers ref + pointsTo holder.data ref := by
  unfold pointers dataAt
  cases hlookup : s.holders.lookup id with
  | none =>
      rw [Table.sum_insert_of_none hlookup, Option.bind_none, pointsTo_none, Nat.add_zero]
      exact Nat.add_comm _ _
  | some old => exact Table.sum_replace hlookup holder _

theorem pointers_erase (s : State) (id : HolderId) (ref : Ref) :
    (s.holders.erase id).sum (fun _ holder => pointsTo holder.data ref) +
      pointsTo (s.dataAt id) ref = s.pointers ref := by
  unfold pointers dataAt
  cases hlookup : s.holders.lookup id with
  | none =>
      rw [Table.erase_eq_self hlookup]
      rfl
  | some old =>
      rw [Table.sum_of_lookup hlookup]
      exact Nat.add_comm _ _

theorem pointers_ne_zero {id : HolderId} {holder : Holder} {ref : Ref}
    (hlookup : s.holders.lookup id = some holder) (hdata : holder.data = some ref) :
    s.pointers ref ≠ 0 := by
  have hle := Table.le_sum hlookup (fun _ holder => pointsTo holder.data ref)
  rw [hdata, pointsTo_self] at hle
  exact Nat.ne_of_gt hle

theorem exists_of_pointers {ref : Ref} (h : s.pointers ref ≠ 0) :
    exists id holder, s.holders.lookup id = some holder ∧ holder.data = some ref := by
  by_contra hnone
  apply h
  have hzero : forall id holder, s.holders.lookup id = some holder ->
      pointsTo holder.data ref = 0 := by
    intro id holder hlookup
    apply if_neg
    intro hdata
    exact hnone ⟨id, holder, hlookup, hdata⟩
  unfold pointers
  rw [Table.sum_congr hzero]
  exact Table.sum_zero s.holders

end State

/-!
# What a call keeps
-/

/-- The counts are those of the pointers, and every event that was created belongs to one
representation, destroyed or not. -/
structure Sound (s : State) : Prop where
  counted : s.heap.Counted s.pointers
  events : forall event, s.heap.total (fun written => pointsTo written.writerEvent event) =
    if event < s.created then 1 else 0

namespace Sound

open State

variable {s : State} {id : HolderId} {holder : Holder}

theorem hold (h : Sound s) (hdata : forall ref, holder.data = some ref -> s.pointers ref ≠ 0) :
    Sound (s.hold id holder) where
  counted := by
    apply Counted.release
    have hretained := h.counted.retain hdata
    have hsame : (fun ref => (s.hold id holder).pointers ref + pointsTo (s.dataAt id) ref) =
        fun ref => s.pointers ref + pointsTo holder.data ref :=
      funext (pointers_insert s id holder)
    rw [hsame]
    exact hretained
  events := by
    intro event
    have hevents := h.events event
    simp only [State.hold, total_release, total_retain]
    exact hevents

theorem own (h : Sound s) (r : Representation) (hdata : holder.data = some s.heap.made) :
    Sound (s.own id r holder) where
  counted := by
    apply Counted.release
    have hallocated := h.counted.allocate (Written.fresh r)
    have hsame : (fun ref => (s.own id r holder).pointers ref + pointsTo (s.dataAt id) ref) =
        fun ref => s.pointers ref + pointsTo (some s.heap.made) ref := by
      rw [← hdata]
      exact funext (pointers_insert s id holder)
    rw [hsame]
    exact hallocated
  events := by
    intro event
    have hevents := h.events event
    simp only [State.own, total_release, total_allocate _ h.counted.fresh]
    exact hevents

/-- A holder that keeps its pointer. -/
theorem relabel (h : Sound s) (hdata : holder.data = s.dataAt id) :
    Sound (s.relabel id holder) where
  counted := by
    have hsame : (s.relabel id holder).pointers = s.pointers := by
      funext ref
      have hinsert := pointers_insert s id holder ref
      rw [hdata] at hinsert
      exact Nat.add_right_cancel hinsert
    rw [hsame]
    exact h.counted
  events := h.events

theorem drop (h : Sound s) : Sound (s.drop id) where
  counted := by
    apply Counted.release
    have hsame : (fun ref => (s.drop id).pointers ref + pointsTo (s.dataAt id) ref) =
        s.pointers := funext (pointers_erase s id)
    rw [hsame]
    exact h.counted
  events := by
    intro event
    have hevents := h.events event
    simp only [State.drop, total_release]
    exact hevents

theorem recordWriterEvent (h : Sound s) {ref : Ref} (hpointed : s.pointers ref ≠ 0)
    (creates : Bool) : Sound (s.recordWriterEvent ref creates) := by
  rcases h.counted.alive ref hpointed with ⟨cell, hcell⟩
  unfold State.recordWriterEvent
  rw [hcell]
  simp only [Option.bind_some]
  split
  · exact h
  · rename_i hnone
    split
    · constructor
      · have hmodify := h.counted.modify ref
          (fun written => { written with writerEvent := some s.created })
        exact hmodify
      · intro event
        have hevents := h.events event
        have hmodify := total_modify (fun written => pointsTo written.writerEvent event) hcell
          (fun written => { written with writerEvent := some s.created })
        rw [hnone, hevents] at hmodify
        simp only [pointsTo_none, Nat.add_zero] at hmodify
        simp only
        rw [hmodify]
        by_cases hnew : event = s.created
        · rw [hnew, pointsTo_self, if_neg (Nat.lt_irrefl _), if_pos (Nat.lt_succ_self _)]
        · rw [pointsTo_ne hnew, Nat.add_zero]
          congr 1
          apply propext
          omega
    · exact h

end Sound

/-- A copy of the pointer of another holder. -/
theorem Sound.holdCopy {s : State} (h : Sound s) {id new : HolderId} {holder copied : Holder}
    (hlookup : s.holders.lookup id = some holder)
    (hdata : copied.data = holder.data ∨ copied.data = none) : Sound (s.hold new copied) := by
  apply h.hold
  intro ref href
  rcases hdata with hsame | hnull
  · rw [hsame] at href
    exact State.pointers_ne_zero hlookup href
  · rw [hnull] at href
    cases href

theorem Sound.handOut {s : State} (h : Sound s) {id new : HolderId} {batch : Batch}
    (hlookup : s.holders.lookup id = some (.batch batch)) {result : Except String (Batch × View)}
    (hresult : forall batch' view, result = .ok (batch', view) ->
      batch'.data = batch.data ∧ view.data = batch.data) : Sound (s.handOut id new result) := by
  cases result with
  | error text => exact h
  | ok handed =>
      rcases handed with ⟨batch', view⟩
      rcases hresult batch' view rfl with ⟨hbatch, hview⟩
      have hat : s.dataAt id = batch.data := by
        rw [State.dataAt, hlookup]
        rfl
      have hrelabelled : Sound (s.relabel id (.batch batch')) :=
        h.relabel (hbatch.trans hat.symm)
      have hat' : (s.relabel id (.batch batch')).holders.lookup id = some (.batch batch') :=
        Table.lookup_insert_self _ _ _
      apply hrelabelled.holdCopy hat'
      left
      exact hview.trans hbatch.symm

theorem Sound.addBatch {s : State} (h : Sound s) {new : HolderId} (r : Representation)
    {result : Except String Batch}
    (hresult : forall batch, result = .ok batch -> batch.data = some s.heap.made) :
    Sound (s.addBatch new r result) := by
  cases result with
  | error text => exact h
  | ok batch => exact h.own r (hresult batch rfl)

theorem View.clone_data {v : View} {newBatchId : UInt64} {copied : Ref} {batch : Batch}
    (h : v.clone newBatchId copied = .ok batch) : batch.data = some copied := by
  unfold View.clone at h
  split at h
  · cases h
  · cases h
    rfl

theorem View.cloneTo_data {v : View} {newBatchId : UInt64} {space : Option Nat} {made : Ref}
    {batch : Batch} (h : v.cloneTo newBatchId space (.ok made) = .ok batch) :
    batch.data = some made := by
  unfold View.cloneTo at h
  split at h
  · split at h <;> cases h
  · cases h
    rfl

theorem sound_step {s t : State} {e : Event} (hs : Sound s) (h : step s e = some t) :
    Sound t := by
  cases e with
  | make new batchId data space =>
      simp only [step] at h
      split at h
      · cases data with
        | none =>
            cases h
            exact hs.hold (fun ref href => by cases href)
        | some r =>
            cases h
            exact hs.own r rfl
      · cases h
  | toReadOnly id new =>
      simp only [step] at h
      split at h
      · rename_i batch hlookup hnew
        cases h
        apply hs.handOut hlookup
        intro batch' view hresult
        rcases batch.toReadOnly_cases with ⟨_, text, herror⟩ | ⟨_, hok⟩
        · rw [herror] at hresult
          cases hresult
        · rw [hok] at hresult
          cases hresult
          exact ⟨rfl, rfl⟩
      · cases h
  | toMutable id new =>
      simp only [step] at h
      split at h
      · rename_i batch hlookup hnew
        cases h
        apply hs.handOut hlookup
        intro batch' view hresult
        rcases batch.toMutable_cases with ⟨_, text, herror⟩ | ⟨_, hok⟩
        · rw [herror] at hresult
          cases hresult
        · rw [hok] at hresult
          cases hresult
          exact ⟨rfl, rfl⟩
      · cases h
  | tryToReadOnly id =>
      simp only [step] at h
      split at h
      · rename_i batch hlookup
        cases h
        apply hs.relabel
        rw [State.dataAt, hlookup]
        exact batch.tryToReadOnly_data
      · cases h
  | tryToMutable id =>
      simp only [step] at h
      split at h
      · rename_i batch hlookup
        cases h
        apply hs.relabel
        rw [State.dataAt, hlookup]
        exact batch.tryToMutable_data
      · cases h
  | copy source target =>
      simp only [step] at h
      split at h
      · rename_i v hlookup
        split at h
        · cases h
          exact hs.holdCopy hlookup (Or.inl rfl)
        · cases h
      · cases h
  | move source target =>
      simp only [step] at h
      split at h
      · rename_i v hlookup
        split at h
        · cases h
          exact hs
        · split at h
          · cases h
            have hcopied : Sound (s.hold target (.view v)) := hs.holdCopy hlookup (Or.inl rfl)
            exact hcopied.hold (fun ref href => by cases href)
          · cases h
      · cases h
  | readonlyToMutable source new =>
      simp only [step] at h
      split at h
      · rename_i v hlookup hnew
        split at h
        · cases h
          exact hs.holdCopy hlookup (Or.inl rfl)
        · cases h
      · cases h
  | mutableToReadonly source new =>
      simp only [step] at h
      split at h
      · rename_i v hlookup hnew
        split at h
        · cases h
          exact hs.holdCopy hlookup (Or.inl rfl)
        · cases h
      · cases h
  | setData target data =>
      simp only [step] at h
      split at h
      · rename_i v hlookup
        split at h
        · cases data with
          | none =>
              cases h
              exact hs.hold (fun ref href => by cases href)
          | some r =>
              cases h
              exact hs.own r rfl
        · cases h
      · cases h
  | clone source new newBatchId failure =>
      simp only [step] at h
      split at h
      · rename_i v hlookup hnew
        split at h
        · split at h
          · cases h
            exact hs
          · split at h
            · cases h
              exact hs
            · rename_i copied hcopied
              cases h
              exact hs.addBatch copied (fun batch hbatch => View.clone_data hbatch)
        · cases h
      · cases h
  | cloneTo source new newBatchId targetSpace outcome =>
      simp only [step] at h
      split at h
      · rename_i v hlookup hnew
        split at h
        · cases h
          exact hs
        · cases h
          exact hs.addBatch _ (fun batch hbatch => View.cloneTo_data hbatch)
      · cases h
  | recordWriterEvent id creates =>
      simp only [step] at h
      split at h
      · rename_i v hlookup
        rcases Option.map_eq_some_iff.mp h with ⟨ref, href, rfl⟩
        exact hs.recordWriterEvent (State.pointers_ne_zero hlookup href) creates
      · cases h
  | rebindStream id =>
      simp only [step] at h
      split at h
      · rcases Option.map_eq_some_iff.mp h with ⟨_, _, rfl⟩
        exact hs
      · cases h
  | destroy id =>
      simp only [step] at h
      split at h
      · cases h
      · cases h
        exact hs.drop

theorem sound_initial : Sound State.initial where
  counted := counted_empty
  events := fun _ => rfl

/-!
# Every run
-/

namespace State

/-- The representations that live and whose writer event is this one. -/
def holdsEvent (s : State) (event : EventHandle) : Nat :=
  s.heap.cells.sum (fun _ cell => pointsTo cell.object.writerEvent event)

theorem count_destroyedEvents (s : State) (event : EventHandle) :
    s.destroyedEvents.count event =
      (s.heap.destroyed.map (fun entry => pointsTo entry.2.writerEvent event)).sum := by
  unfold destroyedEvents
  induction s.heap.destroyed with
  | nil => rfl
  | cons entry rest ih =>
      rw [List.map_cons, List.sum_cons, ← ih]
      cases hevent : entry.2.writerEvent with
      | none =>
          rw [List.filterMap_cons, hevent]
          exact (Nat.zero_add _).symm
      | some h =>
          rw [List.filterMap_cons, hevent, List.count_cons, Nat.add_comm]
          congr 1
          unfold pointsTo
          simp only [beq_iff_eq, Option.some.injEq]

end State

/-- What is promised of the representations and of the events. -/
structure LivesWithOwners (s : State) : Prop where
  /-- A representation lives as long as a batch or a view points to it. -/
  owned : forall ref, (exists cell, s.heap.cells.lookup ref = some cell) <->
    exists id holder, s.holders.lookup id = some holder ∧ holder.data = some ref
  /-- Each one that was made lives, or was destroyed once. -/
  once : forall ref, (s.heap.cells.lookup ref).isSome.toNat +
    (s.heap.destroyed.map Prod.fst).count ref = if ref < s.heap.made then 1 else 0
  /-- Each event that was created is that of one living representation, or was destroyed
  once. -/
  eventsOnce : forall event, s.holdsEvent event + s.destroyedEvents.count event =
    if event < s.created then 1 else 0
  /-- No view or batch leads to a destroyed event. -/
  usable : forall id holder written event, s.holders.lookup id = some holder ->
    s.object? holder.data = some written -> written.writerEvent = some event ->
    event ∉ s.destroyedEvents

theorem events_live_with_owners (events : List Event) (s : State)
    (hrun : machine.run State.initial events = some s) : LivesWithOwners s := by
  have hstep : forall u e v, Sound u -> machine.step u e = some v -> Sound v :=
    fun _ _ _ hu h => sound_step hu h
  have hsound : Sound s := Machine.invariant_run_always hstep sound_initial hrun
  have honce : forall event, s.holdsEvent event + s.destroyedEvents.count event =
      if event < s.created then 1 else 0 := by
    intro event
    rw [s.count_destroyedEvents event]
    exact hsound.events event
  constructor
  · intro ref
    constructor
    · intro hcell
      rcases hcell with ⟨cell, hcell⟩
      have hcounted := hsound.counted.counted ref cell hcell
      apply State.exists_of_pointers
      rw [← hcounted.left]
      exact hcounted.right
    · intro howner
      rcases howner with ⟨id, holder, hlookup, hdata⟩
      exact hsound.counted.alive ref (State.pointers_ne_zero hlookup hdata)
  · exact hsound.counted.once
  · exact honce
  · intro id holder written event hlookup hobject hevent hdestroyed
    rcases Option.bind_eq_some_iff.mp hobject with ⟨ref, _, hfound⟩
    rcases Option.map_eq_some_iff.mp hfound with ⟨cell, hcell, rfl⟩
    have hheld := Table.le_sum hcell (fun _ cell => pointsTo cell.object.writerEvent event)
    rw [hevent, pointsTo_self] at hheld
    have hcount := List.count_pos_iff.mpr hdestroyed
    have htotal := honce event
    unfold State.holdsEvent at htotal
    split at htotal <;> omega

/-- A representation whose event was recorded loses its last owner, while a clone of it and
the representation that replaced it in a mutable view live on. -/
def ownersGone : List Event :=
  [.make 0 1 (some { kind := .gpuTable, space := 3 }) (some 3), .toReadOnly 0 1,
    .recordWriterEvent 1 true, .copy 1 2, .clone 1 3 2 none, .readonlyToMutable 2 4,
    .setData 4 (some { kind := .hostData, space := 5 }), .recordWriterEvent 4 true,
    .rebindStream 4, .destroy 0, .destroy 1, .destroy 2]

theorem events_live_with_owners_ownersGone :
    exists s, machine.run State.initial ownersGone = some s ∧ s.created = 2 ∧
      s.destroyedEvents = [0] ∧ s.holdsEvent 1 = 1 ∧ LivesWithOwners s :=
  ⟨_, rfl, rfl, rfl, rfl, events_live_with_owners ownersGone _ rfl⟩

end Lifetimes
end DataBatch
end Data
end Cuda2Rocm
