import Cuda2Rocm.Data.DataRepositoryManager

/-!
# Routing

Producers number their batches with `get_next_data_batch_id` and deliver each to the ports
of its consumers.  Behind each port wait queues, one for each partition, until another
repository is put in their place.
-/

namespace Cuda2Rocm
namespace Data
namespace RepositoryManager
namespace Routing

open Foundation

variable {batch : Type _}

/-- A partition of the repository under a key. -/
abbrev Place := OperatorPortKey × Nat

/-- The manager with what was added to each queue and taken out of it since its repository
was put there; and the ids that were answered, which producers still have or have used. -/
structure Routes (batch : Type _) where
  calls : State batch
  queues : Queues Place (Option batch)
  /-- `next_batch_id_`. -/
  nextBatchId : UInt64
  answered : Nat
  granted : List UInt64
  used : List UInt64

inductive RoutingEvent (batch : Type _) where
  | call (e : Event batch)
  | getNextDataBatchId

def Routes.initial : Routes batch :=
  { calls := State.initial, queues := Queues.empty, nextBatchId := 0, answered := 0,
    granted := [], used := [] }

/-- The targets that the loop of `add_data_batch` has served before it ends. -/
def served (b : Option batch) (memory : Nat -> Repository.Memory) :
    List OperatorPortKey -> Nat -> State batch -> List OperatorPortKey
  | [], _, _ => []
  | key :: rest, n, s =>
      match s.repos.lookup key with
      | none => served b memory rest n s
      | some none => []
      | some (some repo) =>
          match repo.addDataBatch b 0 (memory n) with
          | .done repo =>
              key :: served b memory rest (n + 1)
                { s with
                  repos := s.repos.insert key (some repo)
                  delivered := s.delivered + 1 }
          | .threw _ => []
          | .undefined _ => []

/-- The front place of a key, to which batches are delivered. -/
def front (key : OperatorPortKey) : Place := (key, 0)

/-- What a call does to the queues. -/
def record (getBatchId : batch -> UInt64) (s : State batch) (q : Queues Place (Option batch)) :
    Event batch -> Queues Place (Option batch)
  | .addNewRepository key repo =>
      q.restart (fun place => place.1 = key)
        (fun place => repo.elim [] (fun r => r.content place.2))
  | .addDataBatch b targets memory =>
      q.pushAll ((served b memory targets 0 { s with threw := false }).map front) b
  | .popNextDataBatch key partition => q.take (key, partition) (fun _ => true)
  | .popDataBatchById key id partition => q.take (key, partition) (Repository.hasId getBatchId id)
  | .clearAllRepositories => Queues.empty

/-- The id of a batch that is delivered. -/
def usedId (getBatchId : batch -> UInt64) : Event batch -> Option UInt64
  | .addDataBatch b _ _ => b.map getBatchId
  | _ => none

def step (getBatchId : batch -> UInt64) (s : Routes batch) :
    RoutingEvent batch -> Option (Routes batch)
  | .call e =>
      match RepositoryManager.step getBatchId s.calls e with
      | none => none
      | some t =>
          some { s with
            calls := t
            queues := record getBatchId s.calls s.queues e
            granted := (usedId getBatchId e).elim s.granted s.granted.erase
            used := (usedId getBatchId e).toList ++ s.used }
  | .getNextDataBatchId =>
      some { s with
        nextBatchId := s.nextBatchId + 1
        answered := s.answered + 1
        granted := s.nextBatchId :: s.granted }

def routingMachine (getBatchId : batch -> UInt64) :
    Machine (Routes batch) (RoutingEvent batch) where
  step := step getBatchId

def hasRepository (s : State batch) (key : OperatorPortKey) : Bool :=
  (s.getRepository key).isSome

/-- What a call returns, and to whom it delivers: to all targets that have a repository when
it returns, and to the first of them in any case. -/
def Answers (getBatchId : batch -> UInt64) (s : Routes batch) (e : RoutingEvent batch)
    (t : Routes batch) : Prop :=
  match e with
  | .call (.addDataBatch b targets _) =>
      exists reached, reached <+: targets.filter (hasRepository s.calls) ∧
        t.queues = s.queues.pushAll (reached.map front) b ∧
        (t.calls.threw = false -> t.calls.undefined = false ->
          reached = targets.filter (hasRepository s.calls))
  | .call (.popNextDataBatch key partition) =>
      exists r, s.calls.getRepository key = some r ∧
        (r.popNextDataBatch partition).1 = (s.queues.held (key, partition)).head?.join ∧
        t.queues = s.queues.take (key, partition) (fun _ => true)
  | .call (.popDataBatchById key id partition) =>
      exists r, s.calls.getRepository key = some r ∧
        (r.popDataBatchById getBatchId id partition).1 =
          ((s.queues.held (key, partition)).find? (Repository.hasId getBatchId id)).join ∧
        t.queues = s.queues.take (key, partition) (Repository.hasId getBatchId id)
  | _ => True

/-- The queues are what waits in the repositories. -/
def Waiting (s : State batch) (q : Queues Place (Option batch)) : Prop :=
  forall key partition,
    q.held (key, partition) = (s.getRepository key).elim [] (fun r => r.content partition)

structure Routed (getBatchId : batch -> UInt64) (s : Routes batch) (e : RoutingEvent batch)
    (t : Routes batch) : Prop where
  waiting : Waiting t.calls t.queues
  conserved : t.queues.Conserved
  answers : Answers getBatchId s e t

def PicksFrom (place : Place) : RoutingEvent batch -> Prop
  | .call (.popDataBatchById key _ partition) => (key, partition) = place
  | _ => False

/-- Repositories are empty when they are handed over.  A batch is delivered in one call, to
different ports, under an id that its producer was answered and uses for no other. -/
def UsesOwnIds (getBatchId : batch -> UInt64) (s : Routes batch) : RoutingEvent batch -> Prop
  | .call (.addNewRepository _ repo) => forall r, repo = some r -> r.elements = 0
  | .call (.addDataBatch b targets _) =>
      targets.Nodup ∧ exists x, b = some x ∧ getBatchId x ∈ s.granted
  | _ => True

/-- No id is there twice among what waits in a queue and what was taken out of it, and
`pop_data_batch_by_id` finds each batch that waits. -/
structure HandedOutOnce (getBatchId : batch -> UInt64) (q : Queues Place (Option batch)) :
    Prop where
  distinct : forall place,
    ((q.held place ++ q.taken place).map (Option.map getBatchId)).Nodup
  found : forall place x, some x ∈ q.held place ->
    (q.held place).find? (Repository.hasId getBatchId (getBatchId x)) = some (some x)

/-!
# Queues and repositories
-/

section Queues

variable {getBatchId : batch -> UInt64} {s t : State batch} {key : OperatorPortKey}
variable {q q' : Queues Place (Option batch)} {repo repo' : Repository batch}

theorem getRepository_insert_self (hrepos : t.repos = s.repos.insert key (some repo)) :
    t.getRepository key = some repo := by
  unfold State.getRepository
  rw [hrepos, Table.lookup_insert_self]
  rfl

theorem getRepository_insert_ne {other : OperatorPortKey} {new : Option (Repository batch)}
    (hrepos : t.repos = s.repos.insert key new) (hne : other ≠ key) :
    t.getRepository other = s.getRepository other := by
  unfold State.getRepository
  rw [hrepos, Table.lookup_insert_ne hne]

theorem getRepository_of_lookup (h : s.repos.lookup key = some (some repo)) :
    s.getRepository key = some repo := by
  unfold State.getRepository
  rw [h]
  rfl

theorem Waiting.held (h : Waiting s q) (hrepo : s.getRepository key = some repo)
    (partition : Nat) : q.held (key, partition) = repo.content partition := by
  rw [h key partition, hrepo]
  rfl

/-- A repository in which one queue changes. -/
theorem Waiting.change (h : Waiting s q) (hrepo : s.getRepository key = some repo)
    (hrepos : t.repos = s.repos.insert key (some repo')) {partition : Nat}
    {queue : List (Option batch)}
    (hcontent : repo'.content = Function.update repo.content partition queue)
    (hheld : q'.held = Function.update q.held (key, partition) queue) : Waiting t q' := by
  intro other partition'
  rw [hheld]
  by_cases hother : other = key
  · subst hother
    rw [getRepository_insert_self hrepos, Option.elim_some, hcontent]
    by_cases hpartition : partition' = partition
    · subst hpartition
      rw [Function.update_self, Function.update_self]
    · have hne : (other, partition') ≠ (other, partition) :=
        fun heq => hpartition (congrArg Prod.snd heq)
      rw [Function.update_of_ne hne, Function.update_of_ne hpartition]
      exact h.held hrepo partition'
  · have hne : (other, partition') ≠ (key, partition) :=
      fun heq => hother (congrArg Prod.fst heq)
    rw [Function.update_of_ne hne, getRepository_insert_ne hrepos hother]
    exact h other partition'

/-- A repository in which nothing changes that can be seen. -/
theorem Waiting.keep (h : Waiting s q) (hrepo : s.getRepository key = some repo)
    (hrepos : t.repos = s.repos.insert key (some repo'))
    (hcontent : repo'.content = repo.content) : Waiting t q := by
  have hfront : repo'.content = Function.update repo.content 0 (repo.content 0) := by
    rw [hcontent, Function.update_eq_self]
  have hsame : q.held = Function.update q.held (key, 0) (repo.content 0) := by
    rw [← h.held hrepo 0, Function.update_eq_self]
  exact h.change hrepo hrepos hfront hsame

/-- The oldest wanted batch is popped from a queue. -/
theorem Waiting.pop (h : Waiting s q) (hrepo : s.getRepository key = some repo)
    (hrepos : t.repos = s.repos.insert key (some repo')) {partition : Nat}
    {wanted : Option batch -> Bool}
    (hcontent : repo'.content =
      Function.update repo.content partition ((repo.content partition).eraseP wanted)) :
    Waiting t (q.take (key, partition) wanted) := by
  apply h.change hrepo hrepos hcontent
  rw [← h.held hrepo partition]
  rfl

theorem waiting_deliver {b : Option batch} {memory : Nat -> Repository.Memory}
    {targets : List OperatorPortKey} :
    forall {n : Nat} {s : State batch} {q : Queues Place (Option batch)}, Waiting s q ->
      Waiting (State.deliver b memory targets n s)
        (q.pushAll ((served b memory targets n s).map front) b) := by
  induction targets with
  | nil => exact fun h => h
  | cons key rest ih =>
      intro n s q h
      unfold State.deliver served
      cases hlookup : s.repos.lookup key with
      | none => exact ih h
      | some entry =>
          cases entry with
          | none => exact h
          | some repo =>
              have hrepo := getRepository_of_lookup hlookup
              rcases Repository.addDataBatch_cases (r := repo) b (memory n) zero_lt_sizeMax with
                ⟨r, hr, hcontent, _⟩ | ⟨r, hr, _, hcontent, _⟩
              · dsimp only
                rw [hr]
                apply ih
                apply h.change hrepo rfl hcontent
                rw [← h.held hrepo 0]
                rfl
              · dsimp only
                rw [hr]
                exact h.keep hrepo rfl hcontent

theorem hasRepository_insert (hlookup : s.repos.lookup key = some (some repo))
    (hrepos : t.repos = s.repos.insert key (some repo')) :
    hasRepository t = hasRepository s := by
  funext other
  unfold hasRepository
  by_cases hother : other = key
  · subst hother
    rw [getRepository_insert_self hrepos, getRepository_of_lookup hlookup]
    rfl
  · rw [getRepository_insert_ne hrepos hother]

/-- The loop serves the targets in order, and leaves none out unless it ends early. -/
theorem served_deliver {b : Option batch} {memory : Nat -> Repository.Memory}
    {targets : List OperatorPortKey} :
    forall {n : Nat} {s : State batch},
      served b memory targets n s <+: targets.filter (hasRepository s) ∧
      ((State.deliver b memory targets n s).threw = false ->
        (State.deliver b memory targets n s).undefined = false ->
        served b memory targets n s = targets.filter (hasRepository s)) := by
  induction targets with
  | nil => exact fun {n s} => ⟨List.prefix_refl _, fun _ _ => rfl⟩
  | cons key rest ih =>
      intro n s
      unfold State.deliver served
      cases hlookup : s.repos.lookup key with
      | none =>
          have hnot : ¬ hasRepository s key = true := by
            unfold hasRepository State.getRepository
            rw [hlookup]
            exact Bool.false_ne_true
          rw [List.filter_cons_of_neg hnot]
          exact ih
      | some entry =>
          cases entry with
          | none => exact ⟨List.nil_prefix, fun _ hdefined => by cases hdefined⟩
          | some repo =>
              have hhas : hasRepository s key = true := by
                unfold hasRepository
                rw [getRepository_of_lookup hlookup]
                rfl
              rcases Repository.addDataBatch_cases (r := repo) b (memory n) zero_lt_sizeMax with
                ⟨r, hr, _⟩ | ⟨r, hr, _⟩
              · dsimp only
                rw [hr, List.filter_cons_of_pos hhas]
                have hrest := ih (n := n + 1) (s := { s with
                  repos := s.repos.insert key (some r)
                  delivered := s.delivered + 1 })
                rw [hasRepository_insert hlookup rfl] at hrest
                constructor
                · exact (List.prefix_cons_inj key).mpr hrest.left
                · exact fun hended hdefined =>
                    congrArg (key :: ·) (hrest.right hended hdefined)
              · dsimp only
                rw [hr]
                exact ⟨List.nil_prefix, fun hended => by cases hended⟩

theorem waiting_addDataBatch (h : Waiting s q) (b : Option batch)
    (targets : List OperatorPortKey) (memory : Nat -> Repository.Memory) :
    Waiting (s.addDataBatch b targets memory)
      (q.pushAll ((served b memory targets 0 { s with threw := false }).map front) b) := by
  have hstart : Waiting { s with threw := false } q := h
  exact waiting_deliver hstart

theorem served_addDataBatch (s : State batch) (b : Option batch)
    (targets : List OperatorPortKey) (memory : Nat -> Repository.Memory) :
    served b memory targets 0 { s with threw := false } <+: targets.filter (hasRepository s) ∧
      ((s.addDataBatch b targets memory).threw = false ->
        (s.addDataBatch b targets memory).undefined = false ->
        served b memory targets 0 { s with threw := false } =
          targets.filter (hasRepository s)) :=
  served_deliver

end Queues

/-!
# Steps
-/

section Steps

variable {getBatchId : batch -> UInt64} {s t : Routes batch} {e : RoutingEvent batch}

/-- A call changes the manager, what is recorded of the queues, and which ids are used. -/
theorem step_call {event : Event batch} (hstep : step getBatchId s (.call event) = some t) :
    exists after, RepositoryManager.step getBatchId s.calls event = some after ∧
      t = { s with
        calls := after
        queues := record getBatchId s.calls s.queues event
        granted := (usedId getBatchId event).elim s.granted s.granted.erase
        used := (usedId getBatchId event).toList ++ s.used } := by
  simp only [step] at hstep
  split at hstep
  · cases hstep
  · rename_i after hcall
    cases hstep
    exact ⟨after, hcall, rfl⟩

/-- What the calls keep of the queues. -/
structure Kept (s : Routes batch) : Prop where
  waiting : Waiting s.calls s.queues
  conserved : s.queues.Conserved

theorem waiting_addNewRepository {c : State batch} {q : Queues Place (Option batch)}
    (h : Waiting c q) (key : OperatorPortKey) (new : Option (Repository batch)) :
    Waiting (c.addNewRepository key new)
      (q.restart (fun place => place.1 = key)
        (fun place => new.elim [] (fun r => r.content place.2))) := by
  intro other partition
  by_cases hother : other = key
  · subst hother
    have hnew : (c.addNewRepository other new).getRepository other = new := by
      unfold State.getRepository State.addNewRepository
      rw [Table.lookup_insert_self]
      rfl
    rw [hnew]
    exact if_pos rfl
  · have hold : (c.addNewRepository key new).getRepository other = c.getRepository other :=
      getRepository_insert_ne rfl hother
    rw [hold, ← h other partition]
    exact if_neg hother

theorem kept_step (h : Kept s) (hstep : step getBatchId s e = some t) :
    Kept t ∧ Routed getBatchId s e t := by
  cases e with
  | getNextDataBatchId =>
      cases hstep
      exact ⟨⟨h.waiting, h.conserved⟩, ⟨h.waiting, h.conserved, trivial⟩⟩
  | call event =>
      rcases step_call hstep with ⟨after, hcall, rfl⟩
      unfold RepositoryManager.step at hcall
      split at hcall
      · cases event with
        | addNewRepository key new =>
            dsimp only at hcall
            split at hcall
            · cases hcall
              have hwaiting := waiting_addNewRepository h.waiting key new
              have hconserved := h.conserved.restart (fun place => place.1 = key)
                (fun place => new.elim [] (fun r => r.content place.2))
              exact ⟨⟨hwaiting, hconserved⟩, ⟨hwaiting, hconserved, trivial⟩⟩
            · cases hcall
        | addDataBatch b targets memory =>
            cases hcall
            have hwaiting := waiting_addDataBatch h.waiting b targets memory
            have hconserved := h.conserved.pushAll
              ((served b memory targets 0 { s.calls with threw := false }).map front) b
            have hserved := served_addDataBatch s.calls b targets memory
            exact ⟨⟨hwaiting, hconserved⟩, ⟨hwaiting, hconserved,
              ⟨_, hserved.left, rfl, hserved.right⟩⟩⟩
        | popNextDataBatch key partition =>
            dsimp only at hcall
            split at hcall
            · rename_i repo hrepo
              cases hcall
              have hspec := repo.popNextDataBatch_spec partition
              have hwaiting : Waiting { s.calls with
                  repos := s.calls.repos.insert key (some (repo.popNextDataBatch partition).2)
                  threw := false
                  popped := s.calls.popped + (if repo.size partition = 0 then 0 else 1) }
                  (s.queues.take (key, partition) (fun _ => true)) :=
                h.waiting.pop hrepo rfl hspec.right.left
              have hconserved := h.conserved.take (key, partition) (fun _ => true)
              have hanswer := hspec.left
              rw [← h.waiting.held hrepo partition] at hanswer
              exact ⟨⟨hwaiting, hconserved⟩, ⟨hwaiting, hconserved,
                ⟨repo, hrepo, hanswer, rfl⟩⟩⟩
            · cases hcall
        | popDataBatchById key id partition =>
            dsimp only at hcall
            split at hcall
            · rename_i repo hrepo
              cases hcall
              have hspec := Repository.popDataBatchById_spec getBatchId repo id partition
              have hwaiting : Waiting { s.calls with
                  repos := s.calls.repos.insert key
                    (some (repo.popDataBatchById getBatchId id partition).2)
                  threw := false
                  popped := s.calls.popped +
                    (repo.popDataBatchById getBatchId id partition).1.isSome.toNat }
                  (s.queues.take (key, partition) (Repository.hasId getBatchId id)) :=
                h.waiting.pop hrepo rfl hspec.right.left
              have hconserved :=
                h.conserved.take (key, partition) (Repository.hasId getBatchId id)
              have hanswer := hspec.left
              rw [← h.waiting.held hrepo partition] at hanswer
              exact ⟨⟨hwaiting, hconserved⟩, ⟨hwaiting, hconserved,
                ⟨repo, hrepo, hanswer, rfl⟩⟩⟩
            · cases hcall
        | clearAllRepositories =>
            cases hcall
            have hwaiting : Waiting s.calls.clearAllRepositories Queues.empty :=
              fun _ _ => rfl
            exact ⟨⟨hwaiting, Queues.conserved_empty⟩,
              ⟨hwaiting, Queues.conserved_empty, trivial⟩⟩
      · cases hcall

/-- Only a pop by id takes anything but the oldest batch. -/
theorem inOrder_step {place : Place} (h : s.queues.InOrder place) (hok : ¬ PicksFrom place e)
    (hstep : step getBatchId s e = some t) : t.queues.InOrder place := by
  cases e with
  | getNextDataBatchId =>
      cases hstep
      exact h
  | call event =>
      rcases step_call hstep with ⟨after, _, rfl⟩
      cases event with
      | addNewRepository key new => exact h.restart _ _
      | addDataBatch b targets memory => exact h.pushAll _ b
      | popNextDataBatch key partition => exact h.take (fun _ _ => rfl)
      | popDataBatchById key id partition =>
          apply h.take
          intro heq
          exact absurd heq.symm hok
      | clearAllRepositories => exact rfl

/-!
# Ids
-/

/-- The answered ids that were not used yet and those that were are all different. -/
structure Unmixed (s : Routes batch) : Prop where
  nextBatchId : s.nextBatchId.toNat = s.answered % 2 ^ 64
  below : forall id, id ∈ s.granted ++ s.used -> id.toNat < s.answered
  nodup : (s.granted ++ s.used).Nodup

/-- The batches of a queue have used ids, each its own. -/
structure Tagged (getBatchId : batch -> UInt64) (s : Routes batch) : Prop where
  used : forall place b, b ∈ s.queues.added place ->
    exists x, b = some x ∧ getBatchId x ∈ s.used
  distinct : forall place, ((s.queues.added place).map (Option.map getBatchId)).Nodup

theorem unmixed_getNextDataBatchId (h : Unmixed s) (hfew : s.answered < 2 ^ 64) :
    Unmixed { s with
      nextBatchId := s.nextBatchId + 1
      answered := s.answered + 1
      granted := s.nextBatchId :: s.granted } := by
  have hnext : s.nextBatchId.toNat = s.answered := by
    rw [h.nextBatchId, Nat.mod_eq_of_lt hfew]
  constructor
  · dsimp only
    rw [UInt64.toNat_add, hnext]
    rfl
  · intro id hid
    rcases List.mem_cons.mp hid with heq | hold
    · rw [heq, hnext]
      exact Nat.lt_succ_self _
    · exact Nat.lt_succ_of_lt (h.below id hold)
  · apply List.nodup_cons.mpr
    constructor
    · intro hmem
      have hlt := h.below _ hmem
      rw [hnext] at hlt
      exact Nat.lt_irrefl _ hlt
    · exact h.nodup

/-- A granted id becomes a used one. -/
theorem unmixed_use (h : Unmixed s) {id : UInt64} (hgranted : id ∈ s.granted) :
    Unmixed { s with granted := s.granted.erase id, used := id :: s.used } := by
  have hperm : (s.granted.erase id ++ id :: s.used).Perm (s.granted ++ s.used) := by
    have hmiddle : (s.granted.erase id ++ id :: s.used).Perm
        (id :: s.granted.erase id ++ s.used) := List.perm_middle
    exact hmiddle.trans ((List.perm_cons_erase hgranted).symm.append_right s.used)
  constructor
  · exact h.nextBatchId
  · intro other hother
    exact h.below other (hperm.mem_iff.mp hother)
  · exact hperm.nodup_iff.mpr h.nodup

theorem not_used_of_granted (h : Unmixed s) {id : UInt64} (hgranted : id ∈ s.granted) :
    id ∉ s.used := by
  intro hused
  exact (List.disjoint_of_nodup_append h.nodup) hgranted hused

theorem content_of_no_elements {r : Repository batch} (h : r.elements = 0) (partition : Nat) :
    r.content partition = [] := by
  cases hqueue : r.partitions[partition]? with
  | none => exact Repository.content_of_none hqueue
  | some queue =>
      rw [Repository.content_of_getElem? hqueue]
      have hlength : queue.length ∈ r.partitions.map List.length :=
        List.mem_map_of_mem (List.mem_of_getElem? hqueue)
      exact List.eq_nil_of_length_eq_zero (List.sum_eq_zero_iff.mp h _ hlength)

/-- One more batch in some queues, under an id that none of them has. -/
theorem tagged_pushAll (h : Tagged getBatchId s) {reached : List Place} (hreached : reached.Nodup)
    {x : batch} (hfresh : getBatchId x ∉ s.used)
    (hused : t.used = getBatchId x :: s.used)
    (hqueues : t.queues = s.queues.pushAll reached (some x)) : Tagged getBatchId t := by
  constructor
  · intro place b hb
    rw [hqueues, Queues.added_pushAll] at hb
    rw [hused]
    rcases List.mem_append.mp hb with hold | hnew
    · rcases h.used place b hold with ⟨y, heq, hy⟩
      exact ⟨y, heq, List.mem_cons_of_mem _ hy⟩
    · exact ⟨x, List.eq_of_mem_replicate hnew, List.mem_cons_self⟩
  · intro place
    rw [hqueues, Queues.added_pushAll, List.map_append, List.map_replicate]
    apply List.nodup_append'.mpr
    constructor
    · exact h.distinct place
    · constructor
      · exact Queues.nodup_pushed hreached place (some (getBatchId x))
      · intro tag hold hnew
        rcases List.mem_map.mp hold with ⟨b, hb, htag⟩
        rcases h.used place b hb with ⟨y, heq, hy⟩
        rw [← htag, heq] at hnew
        have hid : getBatchId y = getBatchId x := Option.some.inj (List.eq_of_mem_replicate hnew)
        rw [hid] at hy
        exact hfresh hy

/-- Queues with fewer batches, or the same. -/
theorem tagged_of_added (h : Tagged getBatchId s)
    (hused : t.used = s.used)
    (hadded : forall place, t.queues.added place = s.queues.added place ∨
      t.queues.added place = []) : Tagged getBatchId t := by
  constructor
  · intro place b hb
    rw [hused]
    rcases hadded place with hsame | hempty
    · rw [hsame] at hb
      exact h.used place b hb
    · rw [hempty] at hb
      cases hb
  · intro place
    rcases hadded place with hsame | hempty
    · rw [hsame]
      exact h.distinct place
    · rw [hempty]
      exact List.nodup_nil

theorem front_injective : Function.Injective front := fun _ _ h => congrArg Prod.fst h

/-- The ids of a run in which fewer are answered than there are. -/
structure Own (getBatchId : batch -> UInt64) (s : Routes batch) : Prop where
  unmixed : Unmixed s
  tagged : Tagged getBatchId s

/-- No id is used, and queues at most forget what was added to them. -/
theorem Own.of_added (h : Own getBatchId s) {calls : State batch}
    {queues : Queues Place (Option batch)}
    (hadded : forall place, queues.added place = s.queues.added place ∨
      queues.added place = []) : Own getBatchId { s with calls := calls, queues := queues } := by
  constructor
  · exact ⟨h.unmixed.nextBatchId, h.unmixed.below, h.unmixed.nodup⟩
  · exact tagged_of_added h.tagged rfl hadded

theorem own_step (h : Own getBatchId s) (hok : UsesOwnIds getBatchId s e)
    (hstep : step getBatchId s e = some t) (hfew : t.answered ≤ 2 ^ 64) : Own getBatchId t := by
  cases e with
  | getNextDataBatchId =>
      cases hstep
      constructor
      · exact unmixed_getNextDataBatchId h.unmixed hfew
      · exact tagged_of_added h.tagged rfl (fun _ => Or.inl rfl)
  | call event =>
      rcases step_call hstep with ⟨after, _, rfl⟩
      cases event with
      | addNewRepository key new =>
          apply h.of_added
          intro place
          by_cases hplace : place.1 = key
          · apply Or.inr
            apply (if_pos hplace).trans
            cases new with
            | none => rfl
            | some r => exact content_of_no_elements (hok r rfl) place.2
          · exact Or.inl (if_neg hplace)
      | addDataBatch b targets memory =>
          rcases hok with ⟨htargets, x, rfl, hgranted⟩
          have hsublist := (served_addDataBatch s.calls (some x) targets memory).left.sublist
          have hreached := (hsublist.nodup (htargets.filter _)).map front_injective
          have hunmixed := unmixed_use h.unmixed hgranted
          constructor
          · exact ⟨hunmixed.nextBatchId, hunmixed.below, hunmixed.nodup⟩
          · exact tagged_pushAll h.tagged hreached
              (not_used_of_granted h.unmixed hgranted) rfl rfl
      | popNextDataBatch key partition => exact h.of_added (fun _ => Or.inl rfl)
      | popDataBatchById key id partition => exact h.of_added (fun _ => Or.inl rfl)
      | clearAllRepositories => exact h.of_added (fun _ => Or.inr rfl)

theorem answered_le_of_step (hstep : step getBatchId s e = some t) :
    s.answered ≤ t.answered := by
  cases e with
  | getNextDataBatchId =>
      cases hstep
      exact Nat.le_succ _
  | call event =>
      rcases step_call hstep with ⟨after, _, rfl⟩
      exact Nat.le_refl _

/-- A batch that is alone with its id is found by it. -/
theorem find?_of_distinct {x : batch} :
    forall {queue : List (Option batch)}, (queue.map (Option.map getBatchId)).Nodup ->
      some x ∈ queue ->
      queue.find? (Repository.hasId getBatchId (getBatchId x)) = some (some x)
  | [], _, hmem => by cases hmem
  | b :: rest, hnodup, hmem => by
      rw [List.map_cons, List.nodup_cons] at hnodup
      rcases List.mem_cons.mp hmem with heq | hrest
      · have hhas : Repository.hasId getBatchId (getBatchId x) b = true := by
          rw [← heq]
          exact beq_self_eq_true _
        rw [List.find?_cons_of_pos hhas, heq]
      · have hnot : ¬ Repository.hasId getBatchId (getBatchId x) b = true := by
          intro hhas
          apply hnodup.left
          cases b with
          | none => cases hhas
          | some y =>
              have hid : getBatchId y = getBatchId x := eq_of_beq hhas
              rw [Option.map_some, hid]
              exact List.mem_map_of_mem hrest
        rw [List.find?_cons_of_neg hnot]
        exact find?_of_distinct hnodup.right hrest

theorem Own.handedOutOnce (h : Own getBatchId s) (hconserved : s.queues.Conserved) :
    HandedOutOnce getBatchId s.queues := by
  have hdistinct : forall place,
      ((s.queues.held place ++ s.queues.taken place).map (Option.map getBatchId)).Nodup := by
    intro place
    have hperm := (hconserved.shared place).map (Option.map getBatchId)
    exact hperm.nodup_iff.mpr (h.tagged.distinct place)
  constructor
  · exact hdistinct
  · intro place x hmem
    have hheld := hdistinct place
    rw [List.map_append] at hheld
    exact find?_of_distinct hheld.of_append_left hmem

end Steps

theorem kept_initial : Kept (Routes.initial : Routes batch) :=
  ⟨fun _ _ => rfl, Queues.conserved_empty⟩

theorem own_initial (getBatchId : batch -> UInt64) : Own getBatchId Routes.initial := by
  constructor
  · exact ⟨rfl, (fun _ hid => absurd hid List.not_mem_nil), List.nodup_nil⟩
  · exact ⟨(fun _ _ hb => absurd hb List.not_mem_nil), fun _ => List.nodup_nil⟩

theorem inOrder_initial (place : Place) :
    (Routes.initial : Routes batch).queues.InOrder place := rfl

/--
In every run each partition behind each port is a queue of its own, and a delivered batch
comes to all its targets.  A queue that no batch is picked from by its id is popped in the
order of the deliveries.  Where producers use the answered ids, no more than there are,
each batch is handed out at most once behind each port, and is found by its id until then.
-/
theorem batches_routed (getBatchId : batch -> UInt64) (events : List (RoutingEvent batch)) :
    (routingMachine getBatchId).Throughout (Routed getBatchId) Routes.initial events ∧
    (forall place, (forall e, e ∈ events -> ¬ PicksFrom place e) -> forall s,
      (routingMachine getBatchId).run Routes.initial events = some s ->
        s.queues.InOrder place) ∧
    ((routingMachine getBatchId).Along (UsesOwnIds getBatchId) Routes.initial events ->
      forall s, (routingMachine getBatchId).run Routes.initial events = some s ->
        s.answered ≤ 2 ^ 64 -> HandedOutOnce getBatchId s.queues) := by
  constructor
  · have hstep : forall s e t, Kept s -> True ->
        (routingMachine getBatchId).step s e = some t ->
        Kept t ∧ Routed getBatchId s e t :=
      fun s e t hs _ h => kept_step hs h
    exact Machine.throughout_of_invariant hstep kept_initial
      (Machine.along_of_events (fun _ _ => trivial))
  · constructor
    · intro place hevents s hrun
      have hstep : forall (s : Routes batch) e t, s.queues.InOrder place ->
          ¬ PicksFrom place e -> (routingMachine getBatchId).step s e = some t ->
          t.queues.InOrder place :=
        fun s e t hs hok h => inOrder_step hs hok h
      exact Machine.invariant_run hstep (inOrder_initial place)
        (Machine.along_of_events hevents) hrun
    · intro halong s hrun hfew
      have hstep : forall (s : Routes batch) e t,
          (Kept s ∧ (s.answered ≤ 2 ^ 64 -> Own getBatchId s)) -> UsesOwnIds getBatchId s e ->
          (routingMachine getBatchId).step s e = some t ->
          Kept t ∧ (t.answered ≤ 2 ^ 64 -> Own getBatchId t) := by
        intro s e t hs hok h
        constructor
        · exact (kept_step hs.left h).left
        · intro hfew
          exact own_step (hs.right ((answered_le_of_step h).trans hfew)) hok h hfew
      have hlast := Machine.invariant_run hstep
        ⟨kept_initial, fun _ => own_initial getBatchId⟩ halong hrun
      exact (hlast.right hfew).handedOutOnce hlast.left.conserved

end Routing
end RepositoryManager
end Data
end Cuda2Rocm
