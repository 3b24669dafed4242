import Cuda2Rocm.Data.DataBatch.Model
import Cuda2Rocm.Memory.ReservationManager.Model

/-!
# Where a batch says it is

The space of a batch is stored in the batch and its views, and once more in the
representation that they hold.  The tier is stored nowhere: the read-only view and the
representations each report one of their own.
-/

namespace Cuda2Rocm
namespace Data
namespace DataBatch

open Foundation

open Memory.ReservationManager (Tier)

/-- The classes derived from `idata_representation`. -/
inductive RepresentationKind where
  | gpuTable
  | hostData
  | hostDataPacked
  | diskData
deriving DecidableEq, Repr

/-- A representation, by its class and its `space_`. -/
structure Representation where
  kind : RepresentationKind
  space : Nat
deriving DecidableEq, Repr

namespace Representation

/-- `get_memory_space`; no class overrides it. -/
def getMemorySpace (r : Representation) : Nat := r.space

/-- `get_current_tier`; no class overrides it. -/
def getCurrentTier (_ : Representation) : Tier := .gpu

/-- `clone` of each class; `failure` is what a copy of bytes may throw. -/
def clone (r : Representation) (failure : Option String) : Except String Representation :=
  match r.kind with
  | .diskData => .error "cuCascade stub: disk_data clone"
  | _ =>
      match failure with
      | some text => .error text
      | none => .ok { kind := r.kind, space := r.space }

theorem clone_space {r copied : Representation} {failure : Option String}
    (h : r.clone failure = .ok copied) : copied.space = r.space := by
  unfold clone at h
  split at h
  · cases h
  · split at h
    · cases h
    · cases h
      rfl

end Representation

namespace View

/-- `read_only_data_batch::get_current_tier`. -/
def getCurrentTier (_ : View) : Tier := .gpu

/-- `get_memory_space` of either kind of view. -/
def getMemorySpace (v : View) : Option Nat := v.space

end View

/-!
# Chains of batches
-/

/-- A batch, with the space of its last conversion, or of its `make`. -/
structure Placed where
  batch : Batch
  given : Nat

/-- The representations by their identities, and the batches made so far. -/
structure Chain where
  objects : List Representation
  batches : List Placed

/-- The calls that make a batch.  A conversion is done by a converter that builds a
representation of some class in the target space, or throws. -/
inductive ChainEvent where
  | make (batchId : UInt64) (r : Representation)
  | clone (source : Nat) (newBatchId : UInt64) (failure : Option String)
  | cloneTo (source : Nat) (kind : ViewKind) (newBatchId : UInt64) (targetSpace : Nat)
      (outcome : Except String RepresentationKind)

namespace Chain

def initial : Chain := { objects := [], batches := [] }

/-- The representation that a shared pointer refers to. -/
def object? (s : Chain) (data : Option Ref) : Option Representation :=
  match data with
  | none => none
  | some ref => s.objects[ref]?

/-- A new representation, and the batch that was made from it, when it was. -/
def add (s : Chain) (r : Representation) (given : Nat) (result : Except String Batch) : Chain :=
  match result with
  | .error _ => s
  | .ok batch =>
      { objects := s.objects ++ [r], batches := s.batches ++ [{ batch := batch, given := given }] }

/-- The state after a call; one that throws leaves everything as it is. -/
def step (s : Chain) : ChainEvent -> Option Chain
  | .make batchId r =>
      some (s.add r r.getMemorySpace
        (.ok (Batch.make batchId (some s.objects.length) (some r.getMemorySpace))))
  | .clone source newBatchId failure =>
      match s.batches[source]? with
      | none => none
      | some placed =>
          match s.object? placed.batch.data with
          | none => some s
          | some r =>
              match r.clone failure with
              | .error _ => some s
              | .ok copied =>
                  some (s.add copied placed.given
                    ((placed.batch.view .readOnly).clone newBatchId s.objects.length))
  | .cloneTo source kind newBatchId targetSpace outcome =>
      match s.batches[source]? with
      | none => none
      | some placed =>
          match outcome with
          | .error text =>
              some (s.add { kind := .gpuTable, space := targetSpace } targetSpace
                ((placed.batch.view kind).cloneTo newBatchId (some targetSpace) (.error text)))
          | .ok made =>
              some (s.add { kind := made, space := targetSpace } targetSpace
                ((placed.batch.view kind).cloneTo newBatchId (some targetSpace)
                  (.ok s.objects.length)))

def machine : Machine Chain ChainEvent where
  step := step

/-- The batch and its representation are in the space given. -/
structure InPlace (s : Chain) (placed : Placed) : Prop where
  space : placed.batch.space = some placed.given
  object : exists ref r, placed.batch.data = some ref ∧ s.objects[ref]? = some r ∧
    r.space = placed.given

/-- All batches of the chain are. -/
def AllInPlace (s : Chain) : Prop := forall placed, placed ∈ s.batches -> s.InPlace placed

variable {s t : Chain}

theorem InPlace.mono {placed : Placed} (h : s.InPlace placed) {r : Representation}
    {batches : List Placed} :
    InPlace { objects := s.objects ++ [r], batches := batches } placed := by
  rcases h.object with ⟨ref, r', hdata, hobject, hspace⟩
  refine ⟨h.space, ref, r', hdata, ?_, hspace⟩
  have hlt := (List.getElem?_eq_some_iff.mp hobject).choose
  rw [List.getElem?_append_left hlt]
  exact hobject

theorem AllInPlace.add (h : s.AllInPlace) {r : Representation} {given : Nat}
    {result : Except String Batch} (hspace : r.space = given)
    (hresult : forall batch, result = .ok batch ->
      batch.space = some given ∧ batch.data = some s.objects.length) :
    (s.add r given result).AllInPlace := by
  cases result with
  | error text => exact h
  | ok batch =>
      rcases hresult batch rfl with ⟨hgiven, hdata⟩
      intro placed hplaced
      rcases List.mem_append.mp hplaced with hold | hnew
      · exact (h placed hold).mono
      · rw [List.mem_singleton.mp hnew]
        refine ⟨hgiven, s.objects.length, r, hdata, ?_, hspace⟩
        change (s.objects ++ [r])[s.objects.length]? = some r
        rw [List.getElem?_append_right (Nat.le_refl _), Nat.sub_self]
        rfl

/-- Every call keeps the batches and their representations together. -/
theorem allInPlace_step {e : ChainEvent} (h : s.AllInPlace) (hstep : machine.step s e = some t) :
    t.AllInPlace := by
  change step s e = some t at hstep
  cases e with
  | make batchId r =>
      cases hstep
      apply h.add rfl
      intro batch hbatch
      cases hbatch
      exact ⟨rfl, rfl⟩
  | clone source newBatchId failure =>
      simp only [step] at hstep
      cases hsource : s.batches[source]? with
      | none =>
          rw [hsource] at hstep
          cases hstep
      | some placed =>
          rw [hsource] at hstep
          rcases h placed (List.mem_of_getElem? hsource) with ⟨hspace, ref, r, hdata, hobject, hr⟩
          have hfound : s.object? placed.batch.data = some r := by
            rw [hdata]
            exact hobject
          simp only [hfound] at hstep
          cases hcopied : r.clone failure with
          | error text =>
              rw [hcopied] at hstep
              cases hstep
              exact h
          | ok copied =>
              rw [hcopied] at hstep
              cases hstep
              apply h.add ((Representation.clone_space hcopied).trans hr)
              intro batch hbatch
              have hmade : (placed.batch.view .readOnly).clone newBatchId s.objects.length =
                  .ok (Batch.make newBatchId (some s.objects.length) placed.batch.space) := by
                simp [View.clone, Batch.view, hdata]
              rw [hmade] at hbatch
              cases hbatch
              exact ⟨hspace, rfl⟩
  | cloneTo source kind newBatchId targetSpace outcome =>
      simp only [step] at hstep
      cases hsource : s.batches[source]? with
      | none =>
          rw [hsource] at hstep
          cases hstep
      | some placed =>
          rw [hsource] at hstep
          rcases h placed (List.mem_of_getElem? hsource) with ⟨_, ref, _, hdata, _, _⟩
          cases outcome with
          | error text =>
              cases hstep
              apply h.add rfl
              intro batch hbatch
              simp [View.cloneTo, Batch.view, hdata] at hbatch
          | ok made =>
              cases hstep
              apply h.add rfl
              intro batch hbatch
              have hmade : (placed.batch.view kind).cloneTo newBatchId (some targetSpace)
                  (.ok s.objects.length) =
                    .ok (Batch.make newBatchId (some s.objects.length) (some targetSpace)) := by
                simp [View.cloneTo, Batch.view, hdata]
              rw [hmade] at hbatch
              cases hbatch
              exact ⟨rfl, rfl⟩

theorem allInPlace_run {events : List ChainEvent} (hrun : machine.run initial events = some s) :
    s.AllInPlace := by
  have hkept : forall u e v, u.AllInPlace -> machine.step u e = some v -> v.AllInPlace :=
    fun _ _ _ h hstep => allInPlace_step h hstep
  exact Machine.invariant_run_always hkept (fun _ h => absurd h List.not_mem_nil) hrun

/-- Views and representation agree on the space, and both tell its tier. -/
structure LocatedAlike (s : Chain) (tierOf : Nat -> Tier) (placed : Placed) : Prop where
  views : forall kind, (placed.batch.view kind).getMemorySpace = some placed.given
  representation : exists r, s.object? placed.batch.data = some r ∧
    r.getMemorySpace = placed.given ∧ r.getCurrentTier = tierOf placed.given
  tier : (placed.batch.view .readOnly).getCurrentTier = tierOf placed.given

/--
After any chain of calls a batch tells its location rightly exactly if its space is of the
tier that everything reports.
-/
theorem located_alike_iff {events : List ChainEvent}
    (hrun : machine.run initial events = some s) (tierOf : Nat -> Tier) {placed : Placed}
    (hplaced : placed ∈ s.batches) :
    s.LocatedAlike tierOf placed <-> tierOf placed.given = .gpu := by
  constructor
  · exact fun halike => halike.tier.symm
  · intro htier
    rcases allInPlace_run hrun placed hplaced with ⟨hspace, ref, r, hdata, hobject, hr⟩
    constructor
    · exact fun _ => hspace
    · refine ⟨r, ?_, hr, htier.symm⟩
      rw [hdata]
      exact hobject
    · exact htier.symm

/-!
# A batch that was spilled
-/

/-- Space 0 is of the GPU tier, the others of the host tier. -/
def firstIsGpu (space : Nat) : Tier := if space = 0 then .gpu else .host

/-- A batch made in space 0, and what its conversion to space 1 makes. -/
def spilled : Chain :=
  { objects := [⟨.gpuTable, 0⟩, ⟨.hostData, 1⟩]
    batches := [⟨Batch.make 7 (some 0) (some 0), 0⟩, ⟨Batch.make 8 (some 1) (some 1), 1⟩] }

/-- The exact condition read for the batch that was not spilled. -/
theorem located_alike_iff_made :
    spilled.LocatedAlike firstIsGpu ⟨Batch.make 7 (some 0) (some 0), 0⟩ <->
      firstIsGpu 0 = .gpu :=
  @located_alike_iff spilled
    [.make 7 ⟨.gpuTable, 0⟩, .cloneTo 0 .readOnly 8 1 (.ok .hostData)] rfl firstIsGpu
    ⟨Batch.make 7 (some 0) (some 0), 0⟩ List.mem_cons_self

/-- The spilled batch is in a host space and reports the GPU tier. -/
theorem spilled_reports_gpu :
    machine.run initial [.make 7 ⟨.gpuTable, 0⟩, .cloneTo 0 .readOnly 8 1 (.ok .hostData)] =
        some spilled ∧
      (Batch.make 8 (some 1) (some 1)).space = some 1 ∧ firstIsGpu 1 = .host ∧
      ((Batch.make 8 (some 1) (some 1)).view .readOnly).getCurrentTier = .gpu ∧
      ¬ spilled.LocatedAlike firstIsGpu ⟨Batch.make 8 (some 1) (some 1), 1⟩ := by
  refine ⟨rfl, rfl, rfl, rfl, fun halike => ?_⟩
  have htier := halike.tier
  cases htier

end Chain

end DataBatch
end Data
end Cuda2Rocm
