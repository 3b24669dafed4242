import Cuda2Rocm.Foundation.Runs
import Cuda2Rocm.Foundation.Table

/-!
# Data batches and their views

A `data_batch` owns a data representation and hands out read-only and mutable
views, each with a shared pointer of its own to the representation.  A state flag
of the batch says what was last asked for; the conversions between the two kinds
of views are static and do not look at it.
-/

namespace Cuda2Rocm
namespace Data
namespace DataBatch

open Foundation

/-- `batch_state`. -/
inductive BatchState where
  | idle
  | readOnly
  | mutableLocked
deriving DecidableEq, Repr

/-- Identity of a representation object; no two objects share one. -/
abbrev Ref := Nat

/-- Identity of a view object of the client. -/
abbrev ViewId := Nat

/-- The fields of `data_batch` that its views are made from. -/
structure Batch where
  batchId : UInt64
  state : BatchState
  data : Option Ref
  space : Option Nat
deriving DecidableEq, Repr

/-- `read_only_data_batch` and `mutable_data_batch`. -/
inductive ViewKind where
  | readOnly
  | mutable
deriving DecidableEq, Repr

/-- A view: its shared pointer, its space and its batch id. -/
structure View where
  kind : ViewKind
  data : Option Ref
  space : Option Nat
  batchId : UInt64
deriving DecidableEq, Repr

/-!
# Functions of the batch
-/

namespace Batch

/-- `make`. -/
def make (batchId : UInt64) (data : Option Ref) (space : Option Nat) : Batch :=
  { batchId := batchId, state := .idle, data := data, space := space }

/-- A view constructed from the fields of the batch. -/
def view (batch : Batch) (kind : ViewKind) : View :=
  { kind := kind, data := batch.data, space := batch.space,
    batchId := batch.batchId }

def toReadOnly (batch : Batch) : Except String (Batch × View) :=
  if batch.state ≠ .mutableLocked ∧ batch.state ≠ .idle then
    .error "cuCascade: to_read_only from invalid state"
  else
    .ok ({ batch with state := .readOnly }, batch.view .readOnly)

def toMutable (batch : Batch) : Except String (Batch × View) :=
  if batch.state ≠ .readOnly ∧ batch.state ≠ .idle then
    .error "cuCascade: to_mutable from invalid state"
  else
    .ok ({ batch with state := .mutableLocked }, batch.view .mutable)

def tryToReadOnly (batch : Batch) : Batch × Bool :=
  if batch.state ≠ .mutableLocked ∧ batch.state ≠ .idle then (batch, false)
  else ({ batch with state := .readOnly }, true)

def tryToMutable (batch : Batch) : Batch × Bool :=
  if batch.state ≠ .readOnly ∧ batch.state ≠ .idle then (batch, false)
  else ({ batch with state := .mutableLocked }, true)

theorem toReadOnly_cases (batch : Batch) :
    (batch.state = .readOnly ∧ exists text, batch.toReadOnly = .error text) ∨
    (batch.state ≠ .readOnly ∧
      batch.toReadOnly =
        .ok ({ batch with state := .readOnly }, batch.view .readOnly)) := by
  cases hstate : batch.state with
  | idle => exact Or.inr ⟨by simp, by simp [toReadOnly, hstate]⟩
  | readOnly => exact Or.inl ⟨rfl, _, by simp [toReadOnly, hstate]; rfl⟩
  | mutableLocked => exact Or.inr ⟨by simp, by simp [toReadOnly, hstate]⟩

theorem toMutable_cases (batch : Batch) :
    (batch.state = .mutableLocked ∧ exists text, batch.toMutable = .error text) ∨
    (batch.state ≠ .mutableLocked ∧
      batch.toMutable =
        .ok ({ batch with state := .mutableLocked }, batch.view .mutable)) := by
  cases hstate : batch.state with
  | idle => exact Or.inr ⟨by simp, by simp [toMutable, hstate]⟩
  | readOnly => exact Or.inr ⟨by simp, by simp [toMutable, hstate]⟩
  | mutableLocked => exact Or.inl ⟨rfl, _, by simp [toMutable, hstate]; rfl⟩

@[simp] theorem tryToReadOnly_data (batch : Batch) :
    batch.tryToReadOnly.fst.data = batch.data := by
  unfold tryToReadOnly
  split <;> rfl

@[simp] theorem tryToMutable_data (batch : Batch) :
    batch.tryToMutable.fst.data = batch.data := by
  unfold tryToMutable
  split <;> rfl

end Batch

/-!
# Functions of the views
-/

namespace View

/-- A view constructed from the shared pointer, space and id of another one. -/
def ofKind (v : View) (kind : ViewKind) : View :=
  { v with kind := kind }

/-- `readonly_to_mutable`: the argument is read through its accessors and keeps
its shared pointer. -/
def readonlyToMutable (ro : View) : View := ro.ofKind .mutable

/-- `mutable_to_readonly`: as above. -/
def mutableToReadonly (mutableView : View) : View := mutableView.ofKind .readOnly

/-- What a move leaves behind: the shared pointer is gone, the rest stays. -/
def movedFrom (v : View) : View :=
  { v with data := none }

/-- `set_data`. -/
def setData (mutableView : View) (newData : Option Ref) : View :=
  { mutableView with data := newData }

/-- `read_only_data_batch::clone`; `copied` is the object the representation's
own `clone` makes. -/
def clone (ro : View) (newBatchId : UInt64) (copied : Ref) : Except String Batch :=
  match ro.data with
  | none => .error "cuCascade: read_only_data_batch::clone on null data"
  | some _ => .ok (Batch.make newBatchId (some copied) ro.space)

/-- `clone_to` of either kind of view; `converted` is what the registry's converter
made of the data, or its error. -/
def cloneTo (v : View) (newBatchId : UInt64) (targetSpace : Option Nat)
    (converted : Except String Ref) : Except String Batch :=
  match v.data with
  | none =>
      match v.kind with
      | .readOnly =>
          .error "cuCascade: read_only_data_batch::clone_to on null data"
      | .mutable =>
          .error "cuCascade: mutable_data_batch::clone_to on null data"
  | some _ =>
      match converted with
      | .error text => .error text
      | .ok made => .ok (Batch.make newBatchId (some made) targetSpace)

end View

/-!
# Runs over one batch
-/

/-- A view object of the client, with what the history of the run says of it. -/
structure Held where
  view : View
  /-- Its pointer was moved into another object. -/
  emptied : Bool
  /-- Number of `set_data` calls when it, or the view it stems from, was obtained. -/
  obtained : Nat
deriving DecidableEq, Repr

/-- A view holds its access until a move empties it. -/
abbrev Held.live (held : Held) : Prop := held.emptied = false

/-- A batch, the views of it, and the history of its representation. -/
structure Run where
  batch : Batch
  views : Table ViewId Held
  /-- The representation most recently set, the one of `make` at first. -/
  latest : Option Ref
  /-- Number of `set_data` calls. -/
  sets : Nat
  /-- The representation each clone was made from. -/
  clones : List (Batch × Option Ref)
  nextRef : Ref

/-- The calls a client can make.  `copy` and `move` construct the target, or assign
to it where it exists; both overloads of `to_idle` are moves. -/
inductive Event where
  | toReadOnly (new : ViewId)
  | toMutable (new : ViewId)
  | tryToReadOnly
  | tryToMutable
  | copy (source target : ViewId)
  | move (source target : ViewId)
  | readonlyToMutable (source new : ViewId)
  | mutableToReadonly (source new : ViewId)
  | setData (target : ViewId) (null : Bool)
  | clone (source : ViewId) (newBatchId : UInt64)
  | cloneTo (source : ViewId) (newBatchId : UInt64) (targetSpace : Option Nat)
      (failure : Option String)
  | destroy (target : ViewId)
deriving DecidableEq, Repr

namespace Run

/-- A batch as `make` leaves it, without views. -/
def initial (batchId : UInt64) (data : Option Ref) (space : Option Nat) : Run :=
  { batch := Batch.make batchId data space
    views := Table.empty
    latest := data
    sets := 0
    clones := []
    nextRef := data.elim 0 (· + 1) }

/-- A view handed out by the batch. -/
def acquire (s : Run) (new : ViewId) (result : Except String (Batch × View)) : Run :=
  match result with
  | .error _ => s
  | .ok (batch, view) =>
      { s with
        batch := batch
        views := s.views.insert new
          { view := view, emptied := false, obtained := s.sets } }

/-- A view made by a static conversion; one of an emptied view has no pointer
either. -/
def convert (s : Run) (held : Held) (new : ViewId) (view : View) : Run :=
  { s with views := s.views.insert new { held with view := view } }

/-- A clone, when it did not throw. -/
def addClone (s : Run) (source : View) (result : Except String Batch) : Run :=
  match result with
  | .error _ => s
  | .ok batch =>
      { s with
        clones := s.clones ++ [(batch, source.data)]
        nextRef := s.nextRef + 1 }

end Run

/-- A target of a copy or move is new, or a view of the same class. -/
def assignable (views : Table ViewId Held) (kind : ViewKind) (target : ViewId) :
    Bool :=
  match views.lookup target with
  | none => true
  | some old => old.view.kind == kind

/-- One call of the client. -/
def step (s : Run) (e : Event) : Option Run :=
  match e with
  | .toReadOnly new =>
      if s.views.lookup new = none then some (s.acquire new s.batch.toReadOnly)
      else none
  | .toMutable new =>
      if s.views.lookup new = none then some (s.acquire new s.batch.toMutable)
      else none
  | .tryToReadOnly => some { s with batch := s.batch.tryToReadOnly.fst }
  | .tryToMutable => some { s with batch := s.batch.tryToMutable.fst }
  | .copy source target =>
      match s.views.lookup source with
      | none => none
      | some held =>
          if held.view.kind = .readOnly ∧ assignable s.views .readOnly target then
            some { s with views := s.views.insert target held }
          else none
  | .move source target =>
      match s.views.lookup source with
      | none => none
      | some held =>
          if source = target then some s
          else if assignable s.views held.view.kind target then
            some { s with
              views := (s.views.insert source
                { held with view := held.view.movedFrom, emptied := true }).insert
                  target held }
          else none
  | .readonlyToMutable source new =>
      match s.views.lookup source with
      | none => none
      | some held =>
          if held.view.kind = .readOnly ∧ s.views.lookup new = none then
            some (s.convert held new held.view.readonlyToMutable)
          else none
  | .mutableToReadonly source new =>
      match s.views.lookup source with
      | none => none
      | some held =>
          if held.view.kind = .mutable ∧ s.views.lookup new = none then
            some (s.convert held new held.view.mutableToReadonly)
          else none
  | .setData target null =>
      match s.views.lookup target with
      | none => none
      | some held =>
          if held.view.kind = .mutable then
            let newData := if null then none else some s.nextRef
            some { s with
              views := s.views.insert target
                { view := held.view.setData newData
                  emptied := false
                  obtained := s.sets + 1 }
              latest := newData
              sets := s.sets + 1
              nextRef := s.nextRef + 1 }
          else none
  | .clone source newBatchId =>
      match s.views.lookup source with
      | none => none
      | some held =>
          if held.view.kind = .readOnly then
            some (s.addClone held.view (held.view.clone newBatchId s.nextRef))
          else none
  | .cloneTo source newBatchId targetSpace failure =>
      match s.views.lookup source with
      | none => none
      | some held =>
          let converted := match failure with
            | none => .ok s.nextRef
            | some text => .error text
          some (s.addClone held.view
            (held.view.cloneTo newBatchId targetSpace converted))
  | .destroy target =>
      if s.views.lookup target = none then none
      else some { s with views := s.views.erase target }

def batchMachine : Machine Run Event where
  step := step

end DataBatch
end Data
end Cuda2Rocm
