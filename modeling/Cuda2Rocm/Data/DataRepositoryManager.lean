import Cuda2Rocm.Data.DataRepository.Partitions
import Cuda2Rocm.Foundation.Table

/-!
# The repository manager

A `data_repository_manager` owns its repositories by operator and port.  It guards
against null entries everywhere except where batches are delivered, and a repository
that is put under a key in use replaces the old one together with what that one holds.
-/

namespace Cuda2Rocm
namespace Data
namespace RepositoryManager

open Foundation

variable {batch : Type _}

/-- `operator_port_key`. -/
structure OperatorPortKey where
  operatorId : Nat
  portName : String
deriving DecidableEq, Repr

structure LeakedRepositoryInfo where
  operatorId : Nat
  portName : String
  batchCount : Nat
deriving DecidableEq, Repr

/-- `repos_`, whose entries may be null; how the calls so far went; and how many batches
they delivered, popped and reported as leaked. -/
structure State (batch : Type _) where
  repos : Table OperatorPortKey (Option (Repository batch))
  /-- An absent repository was dereferenced. -/
  undefined : Bool
  /-- The last call left by an exception. -/
  threw : Bool
  delivered : Nat
  popped : Nat
  reported : Nat

inductive Event (batch : Type _) where
  | addNewRepository (key : OperatorPortKey) (repo : Option (Repository batch))
  /-- `memory` says what the deliveries of the call get, one after the other. -/
  | addDataBatch (b : Option batch) (targets : List OperatorPortKey)
      (memory : Nat -> Repository.Memory)
  | popNextDataBatch (key : OperatorPortKey) (partition : Nat)
  | popDataBatchById (key : OperatorPortKey) (id : UInt64) (partition : Nat)
  | clearAllRepositories

namespace State

def initial : State batch :=
  { repos := Table.empty, undefined := false, threw := false, delivered := 0, popped := 0,
    reported := 0 }

/-- `get_repository`. -/
def getRepository (s : State batch) (key : OperatorPortKey) : Option (Repository batch) :=
  (s.repos.lookup key).join

/-- `add_new_repository`; what the repository already holds is delivered with it. -/
def addNewRepository (s : State batch) (key : OperatorPortKey)
    (repo : Option (Repository batch)) : State batch :=
  { s with
    repos := s.repos.insert key repo
    threw := false
    delivered := s.delivered + (repo.elim 0 Repository.elements) }

/-- The loop of `add_data_batch`, before delivery number `n`. -/
def deliver (b : Option batch) (memory : Nat -> Repository.Memory) :
    List OperatorPortKey -> Nat -> State batch -> State batch
  | [], _, s => s
  | key :: rest, n, s =>
      match s.repos.lookup key with
      | none => deliver b memory rest n s
      | some none => { s with undefined := true }
      | some (some repo) =>
          match repo.addDataBatch b 0 (memory n) with
          | .done repo =>
              deliver b memory rest (n + 1)
                { s with
                  repos := s.repos.insert key (some repo)
                  delivered := s.delivered + 1 }
          | .threw repo => { s with repos := s.repos.insert key (some repo), threw := true }
          | .undefined _ => { s with undefined := true }

def addDataBatch (s : State batch) (b : Option batch) (targets : List OperatorPortKey)
    (memory : Nat -> Repository.Memory) : State batch :=
  deliver b memory targets 0 { s with threw := false }

/-- What `clear_all_repositories` returns; the order of the map is unspecified. -/
def leaked (s : State batch) : Multiset LeakedRepositoryInfo :=
  s.repos.sum (fun key repo =>
    match repo with
    | some repo =>
        if repo.allEmpty then 0
        else
          {{ operatorId := key.operatorId, portName := key.portName,
             batchCount := repo.totalSize }}
    | none => 0)

def clearAllRepositories (s : State batch) : State batch :=
  { s with
    repos := Table.empty
    threw := false
    reported := s.reported + (s.leaked.map LeakedRepositoryInfo.batchCount).sum }

/-- Batches in the repositories that the manager reaches. -/
def held (s : State batch) : Nat :=
  s.repos.sum (fun _ repo => repo.elim 0 Repository.elements)

end State

/-- Pops go through `get_repository`.  A repository that is handed over fits into
memory, and so do the indices of its partitions. -/
def step (getBatchId : batch -> UInt64) (s : State batch) (e : Event batch) :
    Option (State batch) :=
  if s.undefined = false then
    match e with
    | .addNewRepository key repo =>
        if forall r, repo = some r ->
            r.elements ≤ sizeMax ∧ r.numPartitions ≤ sizeMax then
          some (s.addNewRepository key repo)
        else none
    | .addDataBatch b targets memory => some (s.addDataBatch b targets memory)
    | .popNextDataBatch key partition =>
        match s.getRepository key with
        | some repo =>
            some { s with
              repos := s.repos.insert key (some (repo.popNextDataBatch partition).2)
              threw := false
              popped := s.popped + (if repo.size partition = 0 then 0 else 1) }
        | none => none
    | .popDataBatchById key id partition =>
        match s.getRepository key with
        | some repo =>
            let answer := repo.popDataBatchById getBatchId id partition
            some { s with
              repos := s.repos.insert key (some answer.2)
              threw := false
              popped := s.popped + answer.1.isSome.toNat }
        | none => none
    | .clearAllRepositories => some s.clearAllRepositories
  else none

def managerMachine (getBatchId : batch -> UInt64) : Machine (State batch) (Event batch) where
  step := step getBatchId

/-!
# Conservation
-/

/-- Nothing absent was dereferenced, and every delivered batch was popped, is held or was
reported. -/
structure Balanced (s : State batch) : Prop where
  defined : s.undefined = false
  balance : s.delivered = s.popped + s.held + s.reported

/-- A key is used again only once its repository is empty, and batches are delivered to no
null entry. -/
def LosesNothing (s : State batch) : Event batch -> Prop
  | .addNewRepository key _ =>
      forall r, s.repos.lookup key = some (some r) -> r.elements = 0
  | .addDataBatch _ targets _ =>
      forall key, key ∈ targets -> s.repos.lookup key ≠ some none
  | _ => True

/-- Invariant of the runs that lose nothing. -/
structure Sound (s : State batch) : Prop where
  balanced : Balanced s
  fits : forall key r, s.repos.lookup key = some (some r) ->
    r.elements ≤ sizeMax ∧ r.numPartitions ≤ sizeMax

section Steps

variable {s t : State batch} {key : OperatorPortKey} {repo repo' : Repository batch}

theorem held_replace {old : Option (Repository batch)} (h : s.repos.lookup key = some old)
    (new : Option (Repository batch)) :
    (s.repos.insert key new).sum (fun _ repo => repo.elim 0 Repository.elements) +
        old.elim 0 Repository.elements =
      s.held + new.elim 0 Repository.elements :=
  Table.sum_replace h new (fun _ repo => repo.elim 0 Repository.elements)

theorem held_new (h : s.repos.lookup key = none) (new : Option (Repository batch)) :
    (s.repos.insert key new).sum (fun _ repo => repo.elim 0 Repository.elements) =
      new.elim 0 Repository.elements + s.held :=
  Table.sum_insert_of_none h new (fun _ repo => repo.elim 0 Repository.elements)

/-- A repository that is changed in its place, and counted for what changed. -/
theorem Sound.replace (h : Sound s) (hlookup : s.repos.lookup key = some (some repo))
    (hrepos : t.repos = s.repos.insert key (some repo'))
    (hundefined : t.undefined = s.undefined)
    (hfits : repo'.elements ≤ sizeMax ∧ repo'.numPartitions ≤ sizeMax)
    (hcount : t.delivered + s.popped + s.reported + repo.elements =
      s.delivered + t.popped + t.reported + repo'.elements) : Sound t := by
  refine ⟨⟨hundefined.trans h.balanced.defined, ?_⟩, ?_⟩
  · have hsum := held_replace hlookup (some repo')
    have hbalance := h.balanced.balance
    have hheld : t.held = (s.repos.insert key (some repo')).sum
        (fun _ repo => repo.elim 0 Repository.elements) := by
      unfold State.held
      rw [hrepos]
    simp only [Option.elim] at hsum hheld
    omega
  · intro other r hother
    rw [hrepos] at hother
    rcases Table.lookup_of_lookup_insert hother with ⟨_, heq⟩ | ⟨_, hold⟩
    · cases heq
      exact hfits
    · exact h.fits other r hold

theorem lookup_of_getRepository (h : s.getRepository key = some repo) :
    s.repos.lookup key = some (some repo) := by
  unfold State.getRepository at h
  rcases Option.eq_none_or_eq_some (s.repos.lookup key) with hnone | ⟨found, hsome⟩
  · rw [hnone] at h
    cases h
  · rw [hsome] at h
    rw [hsome]
    exact congrArg some h

theorem zero_lt_sizeMax : 0 < sizeMax := by decide

/-- What is put under a key with an empty repository, a null entry or none. -/
theorem sound_addNewRepository (h : Sound s) {new : Option (Repository batch)}
    (hnew : forall r, new = some r -> r.elements ≤ sizeMax ∧ r.numPartitions ≤ sizeMax)
    (hok : forall r, s.repos.lookup key = some (some r) -> r.elements = 0) :
    Sound (s.addNewRepository key new) := by
  refine ⟨⟨h.balanced.defined, ?_⟩, ?_⟩
  · have hbalance := h.balanced.balance
    show s.delivered + new.elim 0 Repository.elements =
      s.popped + (s.repos.insert key new).sum _ + s.reported
    rcases Option.eq_none_or_eq_some (s.repos.lookup key) with hnone | ⟨old, hold⟩
    · have hsum := held_new hnone new
      omega
    · have hsum := held_replace hold new
      have hzero : old.elim 0 Repository.elements = 0 := by
        cases old with
        | none => rfl
        | some r => exact hok r hold
      omega
  · intro other r hother
    rcases Table.lookup_of_lookup_insert hother with ⟨_, heq⟩ | ⟨_, hold⟩
    · exact hnew r heq.symm
    · exact h.fits other r hold

/-- Deliveries to entries that are not null. -/
theorem sound_deliver {b : Option batch} {memory : Nat -> Repository.Memory}
    {targets : List OperatorPortKey} :
    forall {n : Nat} {s : State batch}, Sound s ->
      (forall key, key ∈ targets -> s.repos.lookup key ≠ some none) ->
      Sound (State.deliver b memory targets n s) := by
  induction targets with
  | nil => exact fun h _ => h
  | cons key rest ih =>
      intro n s h hok
      have hrest : forall other, other ∈ rest -> s.repos.lookup other ≠ some none :=
        fun other hother => hok other (List.mem_cons_of_mem key hother)
      unfold State.deliver
      split
      · exact ih h hrest
      · rename_i hnull
        exact absurd hnull (hok key List.mem_cons_self)
      · rename_i repo hrepo
        have hfits := h.fits key repo hrepo
        rcases Repository.addDataBatch_cases (r := repo) b (memory n) zero_lt_sizeMax with
          ⟨r, hr, _, hcount, hroom, hlength⟩ | ⟨r, hr, _, _, hcount, hlength⟩
        · rw [hr]
          apply ih
          · refine h.replace hrepo rfl rfl ⟨hcount.trans_le hroom, ?_⟩ ?_
            · exact hlength.trans (max_le hfits.right zero_lt_sizeMax)
            · dsimp only
              omega
          · intro other hother hnull
            rcases Table.lookup_of_lookup_insert hnull with ⟨_, heq⟩ | ⟨_, hold⟩
            · cases heq
            · exact hrest other hother hold
        · rw [hr]
          refine h.replace hrepo rfl rfl ⟨hcount.trans_le hfits.left, ?_⟩ ?_
          · exact hlength.trans (max_le hfits.right zero_lt_sizeMax)
          · dsimp only
            omega

/-- A call that comes to the end of its targets has dereferenced each null entry among
them. -/
theorem undefined_deliver {b : Option batch} {memory : Nat -> Repository.Memory}
    {targets : List OperatorPortKey} :
    forall {n : Nat} {s : State batch}, key ∈ targets -> s.repos.lookup key = some none ->
      (State.deliver b memory targets n s).threw = false ->
      (State.deliver b memory targets n s).undefined = true := by
  induction targets with
  | nil => exact fun hmem => absurd hmem List.not_mem_nil
  | cons first rest ih =>
      intro n s hmem hnull hended
      have hrest : s.repos.lookup first ≠ some none -> key ∈ rest := by
        intro hfirst
        rcases List.mem_cons.mp hmem with rfl | hin
        · exact absurd hnull hfirst
        · exact hin
      unfold State.deliver at hended ⊢
      split at hended
      · rename_i hnone
        exact ih (hrest (by rw [hnone]; exact fun heq => by cases heq)) hnull hended
      · rfl
      · rename_i repo hrepo
        have hin := hrest (by rw [hrepo]; exact fun heq => by cases heq)
        have hne : key ≠ first := by
          rintro rfl
          rw [hnull] at hrepo
          cases hrepo
        split at hended
        · exact ih hin ((Table.lookup_insert_ne hne _ _).trans hnull) hended
        · cases hended
        · rfl

/-- What is reported is all that is held. -/
theorem reported_eq_held (h : Sound s) :
    (s.leaked.map LeakedRepositoryInfo.batchCount).sum = s.held := by
  have hmap := Table.map_sum
    (Multiset.sumAddMonoidHom.comp (Multiset.mapAddMonoidHom LeakedRepositoryInfo.batchCount))
    (fun key repo =>
      match repo with
      | some repo =>
          if Repository.allEmpty repo then (0 : Multiset LeakedRepositoryInfo)
          else
            {{ operatorId := key.operatorId, portName := key.portName,
               batchCount := repo.totalSize }}
      | none => 0) s.repos
  refine Eq.trans hmap (Table.sum_congr ?_)
  intro key repo hlookup
  cases repo with
  | none => rfl
  | some r =>
      have hfits := h.fits key r hlookup
      dsimp only [Option.elim]
      split
      · rename_i hempty
        have hzero : r.elements = 0 := by
          rw [r.elements_eq_sum]
          refine Finset.sum_eq_zero (fun p _ => ?_)
          rw [r.allEmpty_iff.mp hempty p]
          rfl
        rw [hzero]
        rfl
      · exact Repository.totalSize_eq hfits.left

theorem sound_clearAllRepositories (h : Sound s) : Sound s.clearAllRepositories := by
  refine ⟨⟨h.balanced.defined, ?_⟩, ?_⟩
  · have hbalance := h.balanced.balance
    show s.delivered = s.popped + 0 + (s.reported +
      (s.leaked.map LeakedRepositoryInfo.batchCount).sum)
    rw [reported_eq_held h]
    omega
  · intro key r hlookup
    cases hlookup

variable {getBatchId : batch -> UInt64} {e : Event batch}

theorem sound_step (h : Sound s) (hok : LosesNothing s e)
    (hstep : step getBatchId s e = some t) : Sound t := by
  simp only [step, if_pos h.balanced.defined] at hstep
  cases e with
  | addNewRepository key new =>
      dsimp only at hstep
      split at hstep
      · rename_i hnew
        cases hstep
        exact sound_addNewRepository h hnew hok
      · cases hstep
  | addDataBatch b targets memory =>
      cases hstep
      exact sound_deliver ⟨⟨h.balanced.defined, h.balanced.balance⟩, h.fits⟩ hok
  | popNextDataBatch key partition =>
      dsimp only at hstep
      split at hstep
      · rename_i repo hrepo
        cases hstep
        have hlookup := lookup_of_getRepository hrepo
        have hfits := h.fits key repo hlookup
        have hspec := repo.popNextDataBatch_spec partition
        have hcount := hspec.right.right.left
        refine h.replace hlookup rfl rfl ⟨?_, ?_⟩ ?_
        · omega
        · exact hspec.right.right.right.trans_le hfits.right
        · dsimp only
          omega
      · cases hstep
  | popDataBatchById key id partition =>
      dsimp only at hstep
      split at hstep
      · rename_i repo hrepo
        cases hstep
        have hlookup := lookup_of_getRepository hrepo
        have hfits := h.fits key repo hlookup
        have hspec := Repository.popDataBatchById_spec getBatchId repo id partition
        have hcount := hspec.right.right.left
        refine h.replace hlookup rfl rfl ⟨?_, ?_⟩ ?_
        · omega
        · exact hspec.right.right.right.trans_le hfits.right
        · dsimp only
          omega
      · cases hstep
  | clearAllRepositories =>
      cases hstep
      exact sound_clearAllRepositories h

/-- A call that comes to its end with the balance kept has lost nothing. -/
theorem losesNothing_of_balanced (h : Sound s) (hstep : step getBatchId s e = some t)
    (hgood : Balanced t) (hended : t.threw = false) : LosesNothing s e := by
  simp only [step, if_pos h.balanced.defined] at hstep
  cases e with
  | addNewRepository key new =>
      dsimp only at hstep
      split at hstep
      · cases hstep
        intro r hlookup
        have hsum := held_replace hlookup new
        have hbefore := h.balanced.balance
        have hafter := hgood.balance
        change s.delivered + new.elim 0 Repository.elements =
          s.popped + (s.repos.insert key new).sum _ + s.reported at hafter
        change _ + r.elements = _ at hsum
        omega
      · cases hstep
  | addDataBatch b targets memory =>
      cases hstep
      intro key hmem hnull
      have hundefined := undefined_deliver (s := { s with threw := false }) hmem hnull hended
      have hdefined := hgood.defined
      change (State.deliver b memory targets 0 { s with threw := false }).undefined = false
        at hdefined
      rw [hundefined] at hdefined
      cases hdefined
  | popNextDataBatch key partition => trivial
  | popDataBatchById key id partition => trivial
  | clearAllRepositories => trivial

end Steps

theorem sound_initial : Sound (State.initial : State batch) := by
  refine ⟨⟨rfl, rfl⟩, ?_⟩
  intro key r hlookup
  cases hlookup

/--
Delivered batches are conserved when no repository with batches is replaced and batches
are delivered to no null entry.  In a run in which no delivery throws they are conserved
only then.
-/
theorem batches_conserved_iff (getBatchId : batch -> UInt64) (events : List (Event batch)) :
    ((managerMachine getBatchId).Along LosesNothing State.initial events ->
      (managerMachine getBatchId).Reaches Balanced State.initial events) ∧
    ((managerMachine getBatchId).Reaches (fun t => t.threw = false) State.initial events ->
      ((managerMachine getBatchId).Reaches Balanced State.initial events <->
        (managerMachine getBatchId).Along LosesNothing State.initial events)) := by
  have hkeep : forall s e t, Sound s -> LosesNothing s e ->
      (managerMachine getBatchId).step s e = some t -> Sound t ∧ Balanced t := by
    intro s e t hs hok h
    have hnext := sound_step hs hok h
    exact ⟨hnext, hnext.balanced⟩
  have hall : (managerMachine getBatchId).Along LosesNothing State.initial events ->
      (managerMachine getBatchId).Reaches Balanced State.initial events :=
    Machine.throughout_of_invariant hkeep sound_initial
  refine ⟨hall, fun hended => ⟨?_, hall⟩⟩
  intro hgood
  have hstep : forall s e t, Sound s ->
      (LosesNothing s e ∧
        forall t, (managerMachine getBatchId).step s e = some t -> t.threw = false) ->
      (managerMachine getBatchId).step s e = some t ->
      Sound t ∧ (Balanced t ∧ t.threw = false) :=
    fun s e t hs hok h =>
      ⟨sound_step hs hok.left h, (sound_step hs hok.left h).balanced, hok.right t h⟩
  have hfail : forall s e t, Sound s -> (managerMachine getBatchId).step s e = some t ->
      (Balanced t ∧ t.threw = false) -> (LosesNothing s e ∧
        forall t, (managerMachine getBatchId).step s e = some t -> t.threw = false) := by
    intro s e t hs h hend
    refine ⟨losesNothing_of_balanced hs h hend.left hend.right, ?_⟩
    intro t' ht'
    rw [h] at ht'
    cases ht'
    exact hend.right
  have hboth := (Machine.throughout_iff_along hstep hfail sound_initial).mp
    (Machine.throughout_and hgood hended)
  exact Machine.throughout_mono (fun _ _ _ hok => hok.left) hboth

/-- The key of the repository below. -/
def somePort : OperatorPortKey := { operatorId := 1, portName := "default" }

/-- A batch is delivered and popped before its key is used again. -/
def reuseWhenEmpty : List (Event UInt64) :=
  [.addNewRepository somePort (some Repository.empty),
    .addDataBatch (some 7) [somePort] (fun _ => .enough), .popNextDataBatch somePort 0,
    .addNewRepository somePort (some Repository.empty),
    .addDataBatch (some 8) [somePort] (fun _ => .enough), .clearAllRepositories]

theorem reuseWhenEmpty_ends : (managerMachine id).Reaches (fun t => t.threw = false)
    (State.initial : State UInt64) reuseWhenEmpty := by
  decide +kernel

theorem batches_conserved_iff_reuseWhenEmpty :
    (managerMachine id).Reaches Balanced (State.initial : State UInt64) reuseWhenEmpty <->
      (managerMachine id).Along LosesNothing State.initial reuseWhenEmpty :=
  (batches_conserved_iff id reuseWhenEmpty).right reuseWhenEmpty_ends

/-- A delivered batch is gone when its key is used again, and a delivery to a null entry
dereferences it. -/
theorem batch_lost_by_replacement :
    (exists s : State UInt64, (managerMachine id).run State.initial
        [.addNewRepository somePort (some Repository.empty),
          .addDataBatch (some 7) [somePort] (fun _ => .enough),
          .addNewRepository somePort (some Repository.empty)] = some s ∧
      s.delivered = 1 ∧ s.popped = 0 ∧ s.held = 0 ∧ s.reported = 0 ∧ ¬ Balanced s) ∧
    (exists s : State UInt64, (managerMachine id).run State.initial
        [.addNewRepository somePort none,
          .addDataBatch (some 7) [somePort] (fun _ => .enough)] = some s ∧
      s.undefined = true ∧ ¬ Balanced s) := by
  refine ⟨⟨_, rfl, rfl, rfl, rfl, rfl, ?_⟩, _, rfl, rfl, ?_⟩
  · intro hgood
    cases hgood.balance
  · intro hgood
    cases hgood.defined

end RepositoryManager
end Data
end Cuda2Rocm
