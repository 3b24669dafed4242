import Cuda2Rocm.Memory.StreamPool

/-!
# The priorities of pooled streams

A pool creates the streams of even indices with the high priority of its device.  The
constructor hands the number of its round to the creation, but keeps the streams that it
got one behind the other; `acquire_stream` hands on the index at which it keeps the
stream.
-/

namespace Cuda2Rocm
namespace Memory
namespace StreamPool

open Foundation

/-- `priority_range`. -/
structure PriorityRange where
  supported : Bool
  min : Int
  max : Int
deriving DecidableEq, Repr

/-- `priority_range_`, from what the device reports. -/
def PriorityRange.reported (minPriority maxPriority : Int) : PriorityRange :=
  { supported := decide (minPriority ≠ maxPriority), min := minPriority, max := maxPriority }

/-- The call that created a stream, `hipStreamCreateWithPriority` or
`hipStreamCreateWithFlags`. -/
inductive Creation where
  | withPriority (flags : Nat) (priority : Int)
  | withFlags (flags : Nat)
deriving DecidableEq, Repr

/-- A stream of a pool, and how it was created. -/
structure Stream where
  handle : Handle
  creation : Creation
deriving DecidableEq, Repr

/-- It was created with the highest priority of the range. -/
def Stream.High (stream : Stream) (range : PriorityRange) : Prop :=
  exists flags, stream.creation = .withPriority flags range.max

/-- An `exclusive_stream_pool` with the priorities of its streams. -/
structure PriorityPool where
  range : PriorityRange
  flags : Nat
  streams : List Stream
  free : List Bool
deriving DecidableEq, Repr

namespace PriorityPool

/-- `create_stream_with_priority`; `created` is what the HIP call comes to. -/
def createStreamWithPriority (p : PriorityPool) (index : Nat) (created : Option Handle) :
    Option Stream :=
  let usePriority := p.range.supported
  let maxPriority := p.range.max
  let priority := if usePriority = true ∧ index % 2 = 0 then maxPriority else 0
  if priority ≠ 0 then
    created.map fun handle => { handle := handle, creation := .withPriority p.flags priority }
  else created.map fun handle => { handle := handle, creation := .withFlags p.flags }

/-- A stream is put behind the others. -/
def push (p : PriorityPool) (stream : Stream) (free : Bool) : PriorityPool :=
  { p with streams := p.streams ++ [stream], free := p.free ++ [free] }

/-- The loop of the constructor, from round `i` on. -/
def constructFrom : Nat -> List (Option Handle) -> PriorityPool -> PriorityPool
  | _, [], p => p
  | i, created :: rest, p =>
      match p.createStreamWithPriority i created with
      | some stream => constructFrom (i + 1) rest (p.push stream true)
      | none => constructFrom (i + 1) rest p

/-- The pool before the first round of the constructor. -/
def noStreams (minPriority maxPriority : Int) (flags : Nat) : PriorityPool :=
  { range := .reported minPriority maxPriority, flags := flags, streams := [], free := [] }

/-- The constructor; `created` has an entry for each of the `pool_size` rounds. -/
def construct (minPriority maxPriority : Int) (flags : Nat) (created : List (Option Handle)) :
    PriorityPool :=
  constructFrom 0 created (noStreams minPriority maxPriority flags)

/-- `acquire_stream` of the pool at an address. -/
def acquireStream (p : PriorityPool) (self : Nat) (policy : Policy)
    (created : Option Handle) : Option (PriorityPool × BorrowedStream) :=
  match p.free.findIdx? id with
  | some i =>
      match p.streams[i]? with
      | some stream =>
          some ({ p with free := p.free.set i false },
            { view := .stream stream.handle, index := i, pool := some self })
      | none => none
  | none =>
      match policy, p.createStreamWithPriority p.streams.length created with
      | .grow, some stream =>
          if p.streams.length < noIndex then
            some (p.push stream false,
              { view := .stream stream.handle, index := p.streams.length, pool := some self })
          else none
      | _, _ => some (p, { view := .perThread, index := noIndex, pool := none })

def returnStream (p : PriorityPool) (index : Nat) : PriorityPool :=
  if index < p.free.length then { p with free := p.free.set index true } else p

/-- The pool without its priorities. -/
def forget (p : PriorityPool) : Pool :=
  { streams := p.streams.map Stream.handle, free := p.free }

end PriorityPool

/-- The calls on a pool. -/
inductive PoolCall where
  | acquire (self : Nat) (policy : Policy) (created : Option Handle)
  | returnStream (index : Nat)
deriving DecidableEq, Repr

/-- A pool under any sequence of calls; its mutex makes each of them atomic. -/
def priorityMachine : Machine PriorityPool PoolCall where
  step p
    | .acquire self policy created => (p.acquireStream self policy created).map Prod.fst
    | .returnStream index => some (p.returnStream index)

/-!
# Creations
-/

section Creations

variable {p : PriorityPool} {index : Nat} {handle : Handle}

@[simp] theorem createStreamWithPriority_none (p : PriorityPool) (index : Nat) :
    p.createStreamWithPriority index none = none := by
  simp [PriorityPool.createStreamWithPriority]

/-- What a creation that does not fail comes to. -/
theorem createStreamWithPriority_some (p : PriorityPool) (index : Nat) (handle : Handle) :
    exists stream, p.createStreamWithPriority index (some handle) = some stream ∧
      stream.handle = handle ∧
      (stream.High p.range <->
        p.range.supported = true ∧ index % 2 = 0 ∧ p.range.max ≠ 0) := by
  by_cases huse : p.range.supported = true ∧ index % 2 = 0
  · by_cases hmax : p.range.max = 0
    · refine ⟨⟨handle, .withFlags p.flags⟩, ?_, rfl, ?_⟩
      · simp [PriorityPool.createStreamWithPriority, huse, hmax]
      · simp [Stream.High, hmax]
    · refine ⟨⟨handle, .withPriority p.flags p.range.max⟩, ?_, rfl, ?_⟩
      · simp [PriorityPool.createStreamWithPriority, huse, hmax]
      · exact iff_of_true ⟨p.flags, rfl⟩ ⟨huse.1, huse.2, hmax⟩
  · refine ⟨⟨handle, .withFlags p.flags⟩, ?_, rfl, ?_⟩
    · simp [PriorityPool.createStreamWithPriority, huse]
    · refine iff_of_false ?_ fun h => huse ⟨h.1, h.2.1⟩
      rintro ⟨flags, hcreation⟩
      cases hcreation

end Creations

/-!
# The pool without priorities
-/

section Forget

theorem forget_push (p : PriorityPool) (stream : Stream) (free : Bool) :
    (p.push stream free).forget =
      { streams := p.forget.streams ++ [stream.handle], free := p.forget.free ++ [free] } := by
  simp [PriorityPool.push, PriorityPool.forget]

/-- The constructor fills the pool as it does without priorities. -/
theorem forget_constructFrom (created : List (Option Handle)) :
    forall (i : Nat) (p : PriorityPool),
      (PriorityPool.constructFrom i created p).forget = Pool.construct created p.forget := by
  induction created with
  | nil => exact fun _ _ => rfl
  | cons outcome rest ih =>
      intro i p
      cases outcome with
      | none =>
          rw [PriorityPool.constructFrom, createStreamWithPriority_none, Pool.construct]
          exact ih (i + 1) p
      | some handle =>
          rcases createStreamWithPriority_some p i handle with ⟨stream, hstream, rfl, -⟩
          rw [PriorityPool.constructFrom, hstream, Pool.construct]
          simp only
          rw [ih, forget_push]

theorem forget_acquireStream (p : PriorityPool) (self : Nat) (policy : Policy)
    (created : Option Handle) :
    (p.acquireStream self policy created).map (fun result => (result.1.forget, result.2)) =
      p.forget.acquireStream self policy created := by
  unfold PriorityPool.acquireStream Pool.acquireStream
  have hfree : p.forget.free = p.free := rfl
  have hlength : p.forget.streams.length = p.streams.length := List.length_map _
  rw [hfree, hlength]
  cases hfound : p.free.findIdx? id with
  | some i =>
      simp only [PriorityPool.forget, List.getElem?_map]
      cases p.streams[i]? with
      | none => rfl
      | some stream => rfl
  | none =>
      cases policy with
      | block => cases p.createStreamWithPriority p.streams.length created <;> rfl
      | grow =>
          cases created with
          | none =>
              rw [createStreamWithPriority_none]
              rfl
          | some handle =>
              rcases createStreamWithPriority_some p p.streams.length handle with
                ⟨stream, hstream, rfl, -⟩
              rw [hstream]
              by_cases hroom : p.streams.length < noIndex
              · simp only [if_pos hroom, Option.map_some, forget_push]
                rfl
              · simp only [if_neg hroom, Option.map_none]

theorem forget_returnStream (p : PriorityPool) (index : Nat) :
    (p.returnStream index).forget = p.forget.returnStream index := by
  unfold PriorityPool.returnStream Pool.returnStream
  by_cases hlt : index < p.free.length
  · have hsame : index < p.forget.free.length := hlt
    rw [if_pos hlt, if_pos hsame]
    rfl
  · have hsame : ¬ index < p.forget.free.length := hlt
    rw [if_neg hlt, if_neg hsame]

end Forget

/-!
# Priorities by index
-/

namespace PriorityPool

/-- The streams with the high priority are those of even indices, if there are any. -/
def FollowsIndex (p : PriorityPool) : Prop :=
  forall i stream, p.streams[i]? = some stream ->
    (stream.High p.range <-> p.range.supported = true ∧ i % 2 = 0)

/-- No stream has a priority that stands for none. -/
def Created (p : PriorityPool) : Prop :=
  forall stream, stream ∈ p.streams -> stream.High p.range -> p.range.max ≠ 0

variable {p : PriorityPool}

theorem followsIndex_nil (h : p.streams = []) : p.FollowsIndex := by
  intro i stream hstream
  rw [h] at hstream
  cases hstream

theorem created_nil (h : p.streams = []) : p.Created := by
  intro stream hmem
  rw [h] at hmem
  cases hmem

/-- One stream that follows its index shows that the high priority is not 0. -/
theorem max_ne_zero_of_follows (hfollows : p.FollowsIndex) (hcreated : p.Created)
    (hsupported : p.range.supported = true) (hsome : p.streams ≠ []) :
    p.range.max ≠ 0 := by
  rcases List.exists_cons_of_ne_nil hsome with ⟨stream, rest, hstreams⟩
  have hfirst : p.streams[0]? = some stream := by
    rw [hstreams]
    rfl
  apply hcreated stream (List.mem_of_getElem? hfirst)
  exact (hfollows 0 stream hfirst).mpr ⟨hsupported, rfl⟩

theorem created_push {stream : Stream} {index : Nat} (hcreated : p.Created)
    (hhigh : stream.High p.range <->
      p.range.supported = true ∧ index % 2 = 0 ∧ p.range.max ≠ 0) (free : Bool) :
    (p.push stream free).Created := by
  intro other hother
  rcases List.mem_append.mp hother with hold | hnew
  · exact hcreated other hold
  · rw [List.mem_singleton.mp hnew]
    exact fun h => (hhigh.mp h).2.2

/-- A stream created for an index at or behind its own follows the index exactly if the
two have one parity. -/
theorem followsIndex_push_iff {stream : Stream} {index : Nat} (hcreated : p.Created)
    (hhigh : stream.High p.range <->
      p.range.supported = true ∧ index % 2 = 0 ∧ p.range.max ≠ 0)
    (hle : p.streams.length ≤ index) (free : Bool) :
    (p.push stream free).FollowsIndex <-> p.FollowsIndex ∧
      (p.range.supported = true ->
        p.range.max ≠ 0 ∧ (index - p.streams.length) % 2 = 0) := by
  have hlast : (p.push stream free).streams[p.streams.length]? = some stream := by
    simp [push]
  have hold : forall {i : Nat} {other : Stream}, p.streams[i]? = some other ->
      (p.push stream free).streams[i]? = some other := by
    intro i other hother
    have hlt := (List.getElem?_eq_some_iff.mp hother).choose
    change (p.streams ++ [stream])[i]? = some other
    rw [List.getElem?_append_left hlt]
    exact hother
  constructor
  · intro hfollows
    have hbefore : p.FollowsIndex := fun i other hother => hfollows i other (hold hother)
    refine ⟨hbefore, fun hsupported => ?_⟩
    have hhere := hfollows _ _ hlast
    change stream.High p.range <-> p.range.supported = true ∧ p.streams.length % 2 = 0 at hhere
    rw [hhigh] at hhere
    have hmax : p.range.max ≠ 0 := by
      by_cases hnone : p.streams = []
      · -- the first stream has an even index
        exact (hhere.mpr ⟨hsupported, by rw [hnone]; rfl⟩).2.2
      · exact max_ne_zero_of_follows hbefore hcreated hsupported hnone
    have hparity : index % 2 = 0 <-> p.streams.length % 2 = 0 := by
      constructor
      · exact fun h => (hhere.mp ⟨hsupported, h, hmax⟩).2
      · exact fun h => (hhere.mpr ⟨hsupported, h⟩).2.1
    exact ⟨hmax, by omega⟩
  · rintro ⟨hfollows, hsame⟩ i other hother
    change (p.streams ++ [stream])[i]? = some other at hother
    change other.High p.range <-> p.range.supported = true ∧ i % 2 = 0
    rcases Nat.lt_or_ge i p.streams.length with hlt | hge
    · rw [List.getElem?_append_left hlt] at hother
      exact hfollows i other hother
    · have hi : i = p.streams.length := by
        have hlength := (List.getElem?_eq_some_iff.mp hother).choose
        rw [List.length_append, List.length_singleton] at hlength
        omega
      subst hi
      rw [List.getElem?_append_right (Nat.le_refl _), Nat.sub_self] at hother
      cases hother
      rw [hhigh]
      constructor
      · rintro ⟨hsupported, heven, -⟩
        have hparity := (hsame hsupported).2
        exact ⟨hsupported, by omega⟩
      · rintro ⟨hsupported, heven⟩
        rcases hsame hsupported with ⟨hmax, hparity⟩
        exact ⟨hsupported, by omega, hmax⟩

/-- The creations that fail. -/
def failures (created : List (Option Handle)) : Nat := created.countP (·.isNone)

/-- Each round of the constructor that gets a stream comes after an even number of rounds
that did not, and the high priority is not 0; without priorities anything goes. -/
def CreatedEvenly (range : PriorityRange) (created : List (Option Handle)) : Prop :=
  range.supported = true -> forall first handle rest,
    created = first ++ some handle :: rest -> range.max ≠ 0 ∧ failures first % 2 = 0

/-- The same with a number of failed rounds before. -/
def EvenAfter (range : PriorityRange) (before : Nat) (created : List (Option Handle)) : Prop :=
  range.supported = true -> forall first handle rest,
    created = first ++ some handle :: rest ->
      range.max ≠ 0 ∧ (before + failures first) % 2 = 0

theorem evenAfter_nil (range : PriorityRange) (before : Nat) : EvenAfter range before [] := by
  intro _ first handle rest hcreated
  simp at hcreated

theorem evenAfter_none_iff {range : PriorityRange} {before : Nat}
    {created : List (Option Handle)} :
    EvenAfter range before (none :: created) <-> EvenAfter range (before + 1) created := by
  constructor
  · intro h hsupported first handle rest hcreated
    have hhere := h hsupported (none :: first) handle rest (by rw [hcreated]; rfl)
    simp only [failures, List.countP_cons, Option.isNone_none, if_true] at hhere ⊢
    exact ⟨hhere.1, by omega⟩
  · intro h hsupported first handle rest hcreated
    cases first with
    | nil => cases hcreated
    | cons outcome first =>
        rcases List.cons_eq_cons.mp hcreated with ⟨rfl, hrest⟩
        have hhere := h hsupported first handle rest hrest
        simp only [failures, List.countP_cons, Option.isNone_none, if_true] at hhere ⊢
        exact ⟨hhere.1, by omega⟩

theorem evenAfter_some_iff {range : PriorityRange} {before : Nat} {handle : Handle}
    {created : List (Option Handle)} :
    EvenAfter range before (some handle :: created) <->
      (range.supported = true -> range.max ≠ 0 ∧ before % 2 = 0) ∧
        EvenAfter range before created := by
  constructor
  · intro h
    refine ⟨fun hsupported => h hsupported [] handle created rfl, ?_⟩
    intro hsupported first other rest hcreated
    have hhere := h hsupported (some handle :: first) other rest (by rw [hcreated]; rfl)
    simpa [failures] using hhere
  · rintro ⟨hfirst, hlater⟩ hsupported first other rest hcreated
    cases first with
    | nil => exact hfirst hsupported
    | cons outcome first =>
        rcases List.cons_eq_cons.mp hcreated with ⟨rfl, hrest⟩
        simpa [failures] using hlater hsupported first other rest hrest

/-- The loop of the constructor, after as many failed rounds as it lacks streams. -/
theorem constructFrom_spec (created : List (Option Handle)) :
    forall {i : Nat} {p : PriorityPool}, p.Created -> p.streams.length ≤ i ->
      (constructFrom i created p).Created ∧ (constructFrom i created p).range = p.range ∧
      ((constructFrom i created p).FollowsIndex <->
        p.FollowsIndex ∧ EvenAfter p.range (i - p.streams.length) created) := by
  induction created with
  | nil =>
      intro i p hcreated _
      exact ⟨hcreated, rfl, (and_iff_left (evenAfter_nil _ _)).symm⟩
  | cons outcome rest ih =>
      intro i p hcreated hle
      cases outcome with
      | none =>
          rw [constructFrom, createStreamWithPriority_none, evenAfter_none_iff]
          have hrest := ih (i := i + 1) hcreated (Nat.le_succ_of_le hle)
          rw [Nat.sub_add_comm hle] at hrest
          exact hrest
      | some handle =>
          rcases createStreamWithPriority_some p i handle with ⟨stream, hstream, -, hhigh⟩
          rw [constructFrom, hstream, evenAfter_some_iff]
          have hlength : (p.push stream true).streams.length = p.streams.length + 1 := by
            simp [push]
          have hrest := ih (created_push hcreated hhigh true)
            (show (p.push stream true).streams.length ≤ i + 1 by omega)
          rw [followsIndex_push_iff hcreated hhigh hle true, hlength, Nat.add_sub_add_right]
            at hrest
          exact ⟨hrest.1, hrest.2.1, hrest.2.2.trans and_assoc⟩

/-- A pool that needs a new stream, and gets one, has a high priority other than 0. -/
def GrowsWithPriority (p : PriorityPool) : PoolCall -> Prop
  | .acquire _ .grow (some _) =>
      p.free.findIdx? id = none -> p.range.supported = true -> p.range.max ≠ 0
  | _ => True

/-- A call leaves the streams, or adds the one that it created for its own index. -/
theorem step_cases {q : PriorityPool} {call : PoolCall}
    (h : priorityMachine.step p call = some q) :
    (q.streams = p.streams ∧ q.range = p.range ∧
      (forall self handle, call = .acquire self .grow (some handle) ->
        p.free.findIdx? id ≠ none)) ∨
    (exists self handle stream, call = .acquire self .grow (some handle) ∧
      p.free.findIdx? id = none ∧
      p.createStreamWithPriority p.streams.length (some handle) = some stream ∧
      q = p.push stream false) := by
  cases call with
  | returnStream index =>
      cases h
      left
      unfold returnStream
      split
      · exact ⟨rfl, rfl, fun _ _ hcall => by cases hcall⟩
      · exact ⟨rfl, rfl, fun _ _ hcall => by cases hcall⟩
  | acquire self policy created =>
      change (p.acquireStream self policy created).map Prod.fst = some q at h
      unfold acquireStream at h
      cases hfound : p.free.findIdx? id with
      | some i =>
          rw [hfound] at h
          left
          cases hstream : p.streams[i]? with
          | none =>
              simp only [hstream] at h
              cases h
          | some stream =>
              simp only [hstream] at h
              cases h
              exact ⟨rfl, rfl, fun _ _ _ => Option.some_ne_none i⟩
      | none =>
          rw [hfound] at h
          cases policy with
          | block =>
              left
              cases p.createStreamWithPriority p.streams.length created <;> cases h
              · exact ⟨rfl, rfl, fun _ _ hcall => by cases hcall⟩
              · exact ⟨rfl, rfl, fun _ _ hcall => by cases hcall⟩
          | grow =>
              cases created with
              | none =>
                  rw [createStreamWithPriority_none] at h
                  cases h
                  exact Or.inl ⟨rfl, rfl, fun _ _ hcall => by cases hcall⟩
              | some handle =>
                  right
                  rcases createStreamWithPriority_some p p.streams.length handle with
                    ⟨stream, hstream, -, -⟩
                  rw [hstream] at h
                  by_cases hroom : p.streams.length < noIndex
                  · simp only [if_pos hroom] at h
                    cases h
                    exact ⟨self, handle, stream, rfl, rfl, hstream, rfl⟩
                  · simp only [if_neg hroom] at h
                    cases h

/-- One call keeps the scheme exactly if it does not grow the pool by a stream whose high
priority is 0. -/
theorem followsIndex_step {q : PriorityPool} {call : PoolCall} (hcreated : p.Created)
    (hfollows : p.FollowsIndex) (h : priorityMachine.step p call = some q) :
    q.Created ∧ (q.FollowsIndex <-> p.GrowsWithPriority call) := by
  rcases step_cases h with
    ⟨hstreams, hrange, hgrown⟩ | ⟨self, handle, stream, rfl, hnone, hstream, rfl⟩
  · have hgrows : p.GrowsWithPriority call := by
      unfold GrowsWithPriority
      split
      · rename_i self handle
        exact fun hnone => absurd hnone (hgrown self handle rfl)
      · trivial
    unfold Created FollowsIndex
    rw [hstreams, hrange]
    exact ⟨hcreated, iff_of_true hfollows hgrows⟩
  · rcases createStreamWithPriority_some p p.streams.length handle with
      ⟨stream', hstream', -, hhigh⟩
    rw [hstream] at hstream'
    cases hstream'
    refine ⟨created_push hcreated hhigh false, ?_⟩
    rw [followsIndex_push_iff hcreated hhigh (Nat.le_refl _) false, Nat.sub_self]
    constructor
    · exact fun hboth _ hsupported => (hboth.2 hsupported).1
    · exact fun hgrows => ⟨hfollows, fun hsupported => ⟨hgrows hnone hsupported, rfl⟩⟩

/--
A pool keeps to the scheme from its construction on, through all calls, exactly if each
stream of the constructor comes after an even number of failures, and no stream is created
where the high priority is 0.
-/
theorem priority_follows_index_iff (minPriority maxPriority : Int) (flags : Nat)
    (created : List (Option Handle)) (calls : List PoolCall) :
    ((construct minPriority maxPriority flags created).FollowsIndex ∧
      priorityMachine.Reaches FollowsIndex
        (construct minPriority maxPriority flags created) calls) <->
    (CreatedEvenly (.reported minPriority maxPriority) created ∧
      priorityMachine.Along GrowsWithPriority
        (construct minPriority maxPriority flags created) calls) := by
  have hspec := constructFrom_spec created (i := 0) (p := noStreams minPriority maxPriority flags)
    (created_nil rfl) (Nat.le_refl 0)
  have hevenly : CreatedEvenly (.reported minPriority maxPriority) created <->
      EvenAfter (.reported minPriority maxPriority) 0 created := by
    simp only [CreatedEvenly, EvenAfter, Nat.zero_add]
  have hconstruct : (construct minPriority maxPriority flags created).FollowsIndex <->
      CreatedEvenly (.reported minPriority maxPriority) created :=
    hspec.2.2.trans ((and_iff_right (followsIndex_nil rfl)).trans hevenly.symm)
  rw [hconstruct]
  refine and_congr_right fun heven => ?_
  have hstep : forall s e t, (s.Created ∧ s.FollowsIndex) -> s.GrowsWithPriority e ->
      priorityMachine.step s e = some t -> (t.Created ∧ t.FollowsIndex) ∧ t.FollowsIndex := by
    intro s e t hinv hgrows h
    have hnext := followsIndex_step hinv.1 hinv.2 h
    exact ⟨⟨hnext.1, hnext.2.mpr hgrows⟩, hnext.2.mpr hgrows⟩
  have hfail : forall s e t, (s.Created ∧ s.FollowsIndex) ->
      priorityMachine.step s e = some t -> t.FollowsIndex -> s.GrowsWithPriority e :=
    fun s e t hinv h hgood => (followsIndex_step hinv.1 hinv.2 h).2.mp hgood
  exact Machine.throughout_iff_along hstep hfail ⟨hspec.1, hconstruct.mpr heven⟩

/-- The first of three creations fails on a device with priorities from 1 to -1: the stream
at index 0 has no priority, that at index 1 the high one. -/
theorem failed_creation_shifts_priorities :
    (construct 1 (-1) 0 [none, some 10, some 11]).streams =
        [⟨10, .withFlags 0⟩, ⟨11, .withPriority 0 (-1)⟩] ∧
      ¬ (construct 1 (-1) 0 [none, some 10, some 11]).FollowsIndex := by
  refine ⟨rfl, fun hfollows => ?_⟩
  have hfirst := (hfollows 0 ⟨10, .withFlags 0⟩ rfl).mpr ⟨rfl, rfl⟩
  rcases hfirst with ⟨flags, hcreation⟩
  cases hcreation

end PriorityPool

end StreamPool
end Memory
end Cuda2Rocm
