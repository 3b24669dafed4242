import Cuda2Rocm.Foundation.Runs
import Cuda2Rocm.Foundation.Table
import Cuda2Rocm.Foundation.Words

/-!
# Stream pools

An `exclusive_stream_pool` lends each of its streams to one `borrowed_stream` at a time.
The pool keeps a bit for each stream; the wrappers carry an index and a pointer to their
pool, move by hand and give the index back when they are released, overwritten or
destroyed.
-/

namespace Cuda2Rocm
namespace Memory
namespace StreamPool

open Foundation

/-- A stream handle other than the null pointer. -/
abbrev Handle := Nat

/-- `static_cast<std::size_t>(-1)`. -/
def noIndex : Nat := sizeMax

/-- What a `cuda_stream_view` refers to. -/
inductive View where
  | none
  | perThread
  | stream (handle : Handle)
deriving DecidableEq, Repr

/-- `borrowed_stream`; the pool is given by its address. -/
structure BorrowedStream where
  view : View
  index : Nat
  pool : Option Nat
deriving DecidableEq, Repr

namespace BorrowedStream

/-- A default constructed wrapper, and what `release` leaves behind. -/
def empty : BorrowedStream := { view := .none, index := noIndex, pool := none }

/-- What a move leaves in its source. -/
def movedFrom (b : BorrowedStream) : BorrowedStream :=
  { b with index := noIndex, pool := none }

/-- The pool and the index that `release` would give back. -/
def owned (b : BorrowedStream) : Option (Nat × Nat) :=
  match b.pool with
  | some pool => if b.index ≠ noIndex then some (pool, b.index) else none
  | none => none

end BorrowedStream

/-- `stream_acquire_policy`. -/
inductive Policy where
  | grow
  | block
deriving DecidableEq, Repr

/-- `streams_` and `free_` of an `exclusive_stream_pool`. -/
structure Pool where
  streams : List Handle
  free : List Bool
deriving DecidableEq, Repr

namespace Pool

/-- The loop of the constructor, given what each creation of a stream comes to. -/
def construct : List (Option Handle) -> Pool -> Pool
  | [], p => p
  | some handle :: rest, p =>
      construct rest { streams := p.streams ++ [handle], free := p.free ++ [true] }
  | none :: rest, p => construct rest p

/-- `acquire_stream` of the pool at an address: a free stream, a new one, or the
per-thread default stream.  None is undefined behaviour or a vector that cannot grow. -/
def acquireStream (p : Pool) (self : Nat) (policy : Policy) (created : Option Handle) :
    Option (Pool × BorrowedStream) :=
  match p.free.findIdx? id with
  | some i =>
      match p.streams[i]? with
      | some handle =>
          some ({ p with free := p.free.set i false },
            { view := .stream handle, index := i, pool := some self })
      | none => none
  | none =>
      match policy, created with
      | .grow, some handle =>
          if p.streams.length < noIndex then
            some ({ streams := p.streams ++ [handle], free := p.free ++ [false] },
              { view := .stream handle, index := p.streams.length, pool := some self })
          else none
      | _, _ => some (p, { view := .perThread, index := noIndex, pool := none })

def returnStream (p : Pool) (index : Nat) : Pool :=
  if index < p.free.length then { p with free := p.free.set index true } else p

end Pool

/-- What a call does after its `return_stream`. -/
inductive Rest where
  | release
  | moveAssign (source : Nat)
  | destroy
deriving DecidableEq, Repr

/-- A wrapper between calls, or after the `return_stream` of a call that has not reset
its fields yet. -/
inductive Wrapper where
  | resting (b : BorrowedStream)
  | returned (rest : Rest)
deriving DecidableEq, Repr

/-- The pool and the index a wrapper owns. -/
def Wrapper.owned : Wrapper -> Option (Nat × Nat)
  | .resting b => b.owned
  | .returned _ => none

structure State where
  pools : Table Nat Pool
  wrappers : Table Nat Wrapper

/-- Calls of any number of threads.  The mutex of a pool makes `acquire_stream` and
`return_stream` atomic; a call that returns a stream goes on by a `finish` of its own. -/
inductive Event where
  | construct (pool : Nat) (created : List (Option Handle))
  | default (wrapper : Nat)
  | acquire (wrapper pool : Nat) (policy : Policy) (created : Option Handle)
  | moveConstruct (wrapper source : Nat)
  | moveAssign (wrapper source : Nat)
  | release (wrapper : Nat)
  | destroy (wrapper : Nat)
  | finish (wrapper : Nat)

namespace State

def initial : State := { pools := Table.empty, wrappers := Table.empty }

def returnStream (s : State) (pool index : Nat) : State :=
  match s.pools.lookup pool with
  | some p => { s with pools := s.pools.insert pool (p.returnStream index) }
  | none => s

def setWrapper (s : State) (wrapper : Nat) (w : Wrapper) : State :=
  { s with wrappers := s.wrappers.insert wrapper w }

/-- The copy of the fields, and the reset of the source. -/
def move (s : State) (wrapper source : Nat) (other : BorrowedStream) : State :=
  (s.setWrapper source (.resting other.movedFrom)).setWrapper wrapper (.resting other)

/-- The call of `release` that another call begins with, and the rest of that call. -/
def releaseThen (s : State) (wrapper : Nat) (b : BorrowedStream) (rest : Rest)
    (otherwise : State) : State :=
  match b.owned with
  | some (pool, index) => (s.returnStream pool index).setWrapper wrapper (.returned rest)
  | none => otherwise

def erase (s : State) (wrapper : Nat) : State :=
  { s with wrappers := s.wrappers.erase wrapper }

end State

def step (s : State) : Event -> Option State
  | .construct pool created =>
      if s.pools.lookup pool = none ∧ created.length ≤ sizeMax then
        some { s with
          pools := s.pools.insert pool (Pool.construct created { streams := [], free := [] }) }
      else none
  | .default wrapper =>
      match s.wrappers.lookup wrapper with
      | none => some (s.setWrapper wrapper (.resting .empty))
      | some _ => none
  | .acquire wrapper pool policy created =>
      match s.wrappers.lookup wrapper, s.pools.lookup pool with
      | none, some p =>
          match p.acquireStream pool policy created with
          | some (p', b) =>
              some ({ s with pools := s.pools.insert pool p' }.setWrapper wrapper (.resting b))
          | none => none
      | _, _ => none
  | .moveConstruct wrapper source =>
      match s.wrappers.lookup wrapper, s.wrappers.lookup source with
      | none, some (.resting other) => some (s.move wrapper source other)
      | _, _ => none
  | .moveAssign wrapper source =>
      match s.wrappers.lookup wrapper, s.wrappers.lookup source with
      | some (.resting b), some (.resting other) =>
          if wrapper = source then some s
          else some (s.releaseThen wrapper b (.moveAssign source) (s.move wrapper source other))
      | _, _ => none
  | .release wrapper =>
      match s.wrappers.lookup wrapper with
      | some (.resting b) => some (s.releaseThen wrapper b .release s)
      | _ => none
  | .destroy wrapper =>
      match s.wrappers.lookup wrapper with
      | some (.resting b) => some (s.releaseThen wrapper b .destroy (s.erase wrapper))
      | _ => none
  | .finish wrapper =>
      match s.wrappers.lookup wrapper with
      | some (.returned .release) => some (s.setWrapper wrapper (.resting .empty))
      | some (.returned (.moveAssign source)) =>
          match s.wrappers.lookup source with
          | some (.resting other) => some (s.move wrapper source other)
          | _ => none
      | some (.returned .destroy) => some (s.erase wrapper)
      | _ => none

/-- Any number of pools and of wrappers around their streams. -/
def poolMachine : Machine State Event where
  step := step

/-!
# The bits of a pool
-/

/-- A stream is lent when its bit is false. -/
def Pool.taken (p : Pool) (index : Nat) : Bool := p.free[index]? == some false

/-- The vectors of a pool have one length, and no index is the one that stands for none. -/
def Pool.Even (p : Pool) : Prop :=
  p.streams.length = p.free.length ∧ p.free.length ≤ noIndex

section Pools

variable {p q : Pool}

theorem construct_spec :
    forall (created : List (Option Handle)) {p : Pool},
      p.streams.length = p.free.length -> (forall i, p.taken i = false) ->
      (Pool.construct created p).streams.length = (Pool.construct created p).free.length ∧
        (Pool.construct created p).free.length ≤ p.free.length + created.length ∧
        forall i, (Pool.construct created p).taken i = false
  | [], p, hlength, hfree => ⟨hlength, Nat.le_refl _, hfree⟩
  | none :: rest, p, hlength, hfree => by
      have hrest := construct_spec rest hlength hfree
      refine ⟨hrest.left, ?_, hrest.right.right⟩
      exact hrest.right.left.trans (Nat.le_succ _)
  | some handle :: rest, p, hlength, hfree => by
      have hpushed : forall i, Pool.taken
          { streams := p.streams ++ [handle], free := p.free ++ [true] } i = false := by
        intro i
        have hold := hfree i
        unfold Pool.taken at hold ⊢
        rcases Nat.lt_or_ge i p.free.length with hlt | hge
        · rw [List.getElem?_append_left hlt]
          exact hold
        · rw [List.getElem?_append_right hge]
          cases i - p.free.length <;> rfl
      have hlengths : (p.streams ++ [handle]).length = (p.free ++ [true]).length := by
        simpa using hlength
      have hrest := construct_spec rest hlengths hpushed
      refine ⟨hrest.left, ?_, hrest.right.right⟩
      have hle := hrest.right.left
      simp only [List.length_append, List.length_cons, List.length_nil] at hle ⊢
      simp only [Pool.construct]
      omega

theorem taken_lt {index : Nat} (h : p.taken index = true) : index < p.free.length := by
  unfold Pool.taken at h
  exact (List.getElem?_eq_some_iff.mp (beq_iff_eq.mp h)).choose

theorem taken_set (p : Pool) {index : Nat} (hlt : index < p.free.length) (bit : Bool)
    (i : Nat) : Pool.taken { p with free := p.free.set index bit } i =
      if i = index then !bit else p.taken i := by
  unfold Pool.taken
  by_cases hi : i = index
  · subst hi
    rw [if_pos rfl, List.getElem?_set_self hlt]
    cases bit <;> rfl
  · rw [if_neg hi, List.getElem?_set_ne (Ne.symm hi)]

theorem taken_returnStream (p : Pool) {index : Nat} (h : p.taken index = true) (i : Nat) :
    (p.returnStream index).taken i = if i = index then false else p.taken i := by
  unfold Pool.returnStream
  rw [if_pos (taken_lt h)]
  exact taken_set p (taken_lt h) true i

theorem even_returnStream (h : p.Even) (index : Nat) : (p.returnStream index).Even := by
  unfold Pool.returnStream
  split
  · unfold Pool.Even
    rw [List.length_set]
    exact h
  · exact h

theorem taken_push (p : Pool) (handle : Handle) (i : Nat) :
    Pool.taken { streams := p.streams ++ [handle], free := p.free ++ [false] } i =
      if i = p.free.length then true else p.taken i := by
  unfold Pool.taken
  rcases Nat.lt_trichotomy i p.free.length with hlt | heq | hgt
  · rw [if_neg (Nat.ne_of_lt hlt), List.getElem?_append_left hlt]
  · subst heq
    rw [if_pos rfl, List.getElem?_append_right (Nat.le_refl _), Nat.sub_self]
    rfl
  · rw [if_neg (Nat.ne_of_gt hgt), List.getElem?_append_right (Nat.le_of_lt hgt),
      List.getElem?_eq_none (Nat.le_of_lt hgt)]
    rw [List.getElem?_eq_none (by simp only [List.length_singleton]; omega)]

/-- An acquired stream was free or is new; a wrapper around the default stream owns
nothing. -/
theorem acquireStream_spec {self : Nat} {policy : Policy} {created : Option Handle}
    {b : BorrowedStream} (hp : p.Even)
    (h : p.acquireStream self policy created = some (q, b)) :
    q.Even ∧
      ((b.owned = none ∧ q = p) ∨
        exists index, b.owned = some (self, index) ∧ p.taken index = false ∧
          forall i, q.taken i = if i = index then true else p.taken i) := by
  unfold Pool.acquireStream at h
  split at h
  · rename_i i hfound
    rcases List.findIdx?_eq_some_iff_getElem.mp hfound with ⟨hlt, hfree, _⟩
    split at h
    · rename_i handle hstream
      cases h
      have hindex : i ≠ noIndex := Nat.ne_of_lt (hlt.trans_le hp.right)
      refine ⟨?_, Or.inr ⟨i, ?_, ?_, ?_⟩⟩
      · unfold Pool.Even
        rw [List.length_set]
        exact hp
      · simp only [BorrowedStream.owned, if_pos hindex]
      · unfold Pool.taken
        rw [List.getElem?_eq_getElem hlt]
        change p.free[i] = true at hfree
        rw [hfree]
        rfl
      · exact taken_set p hlt false
    · cases h
  · split at h
    · rename_i handle
      split at h
      · rename_i hroom
        cases h
        refine ⟨?_, Or.inr ⟨p.streams.length, ?_, ?_, ?_⟩⟩
        · unfold Pool.Even
          simp only [List.length_append, List.length_singleton]
          rw [← hp.left]
          exact ⟨rfl, hroom⟩
        · simp only [BorrowedStream.owned, if_pos (Nat.ne_of_lt hroom)]
        · unfold Pool.taken
          rw [List.getElem?_eq_none (Nat.le_of_eq hp.left.symm)]
          rfl
        · rw [hp.left]
          exact taken_push p handle
      · cases h
    · cases h
      exact ⟨hp, Or.inl ⟨rfl, rfl⟩⟩

end Pools

/-!
# Owners
-/

/-- One if the wrapper owns the stream at an index of a pool. -/
def holds (held : Option (Nat × Nat)) (place : Nat × Nat) : Nat :=
  if held = some place then 1 else 0

namespace State

/-- How many wrappers own the stream at an index of a pool. -/
def owners (s : State) (place : Nat × Nat) : Nat :=
  s.wrappers.sum (fun _ w => holds w.owned place)

/-- `free_` of the pool is false at the index. -/
def taken (s : State) (place : Nat × Nat) : Bool :=
  match s.pools.lookup place.1 with
  | some p => p.taken place.2
  | none => false

end State

/-- The bits of the pools say how many wrappers own a stream: one or none. -/
structure Exclusive (s : State) : Prop where
  even : forall pool p, s.pools.lookup pool = some p -> p.Even
  owners_eq : forall place, s.owners place = if s.taken place then 1 else 0

section Steps

variable {s t : State}

theorem owners_setWrapper_new {wrapper : Nat} (h : s.wrappers.lookup wrapper = none)
    (w : Wrapper) (place : Nat × Nat) :
    (s.setWrapper wrapper w).owners place = holds w.owned place + s.owners place :=
  Table.sum_insert_of_none h w (fun _ w => holds w.owned place)

theorem owners_setWrapper {wrapper : Nat} {old : Wrapper}
    (h : s.wrappers.lookup wrapper = some old) (w : Wrapper) (place : Nat × Nat) :
    (s.setWrapper wrapper w).owners place + holds old.owned place =
      s.owners place + holds w.owned place :=
  Table.sum_replace h w (fun _ w => holds w.owned place)

theorem owners_erase {wrapper : Nat} {old : Wrapper}
    (h : s.wrappers.lookup wrapper = some old) (place : Nat × Nat) :
    s.owners place = holds old.owned place + (s.erase wrapper).owners place :=
  Table.sum_of_lookup h (fun _ w => holds w.owned place)

theorem holds_le_owners {wrapper : Nat} {w : Wrapper}
    (h : s.wrappers.lookup wrapper = some w) (place : Nat × Nat) :
    holds w.owned place ≤ s.owners place :=
  Table.le_sum h (fun _ w => holds w.owned place)

@[simp] theorem holds_none (place : Nat × Nat) : holds none place = 0 := rfl

theorem owned_movedFrom (b : BorrowedStream) : b.movedFrom.owned = none := rfl

/-- A step that touches no pool and moves no ownership. -/
theorem Exclusive.of_same (h : Exclusive s) (hpools : t.pools = s.pools)
    (howners : forall place, t.owners place = s.owners place) : Exclusive t := by
  constructor
  · rw [hpools]
    exact h.even
  · intro place
    rw [howners, h.owners_eq]
    unfold State.taken
    rw [hpools]

/-- Ownership passes from the source of a move to a wrapper that owns nothing. -/
theorem owners_move {wrapper source : Nat} {other : BorrowedStream}
    (hsource : s.wrappers.lookup source = some (.resting other)) (hne : wrapper ≠ source)
    (hold : forall w, s.wrappers.lookup wrapper = some w -> w.owned = none)
    (place : Nat × Nat) :
    (s.move wrapper source other).owners place = s.owners place := by
  have hreset := owners_setWrapper hsource (.resting other.movedFrom) place
  have hlookup : (s.setWrapper source (.resting other.movedFrom)).wrappers.lookup wrapper =
      s.wrappers.lookup wrapper := Table.lookup_insert_ne hne _ _
  simp only [Wrapper.owned, owned_movedFrom, holds_none, Nat.add_zero] at hreset
  unfold State.move
  rcases Option.eq_none_or_eq_some (s.wrappers.lookup wrapper) with hnone | ⟨w, hsome⟩
  · have hcopy := owners_setWrapper_new (hlookup.trans hnone) (.resting other) place
    simp only [Wrapper.owned] at hcopy
    omega
  · have hcopy := owners_setWrapper (hlookup.trans hsome) (.resting other) place
    rw [hold w hsome, holds_none] at hcopy
    simp only [Wrapper.owned] at hcopy
    omega

theorem taken_insert (s : State) (pool : Nat) (p : Pool) (place : Nat × Nat) :
    State.taken { s with pools := s.pools.insert pool p } place =
      if place.1 = pool then p.taken place.2 else s.taken place := by
  unfold State.taken
  rw [Table.lookup_insert]
  by_cases hpool : place.1 = pool
  · rw [if_pos hpool, if_pos hpool]
  · rw [if_neg hpool, if_neg hpool]

theorem even_insert (h : forall pool p, s.pools.lookup pool = some p -> p.Even) {pool : Nat}
    {p : Pool} (hp : p.Even) :
    forall other q, (s.pools.insert pool p).lookup other = some q -> q.Even := by
  intro other q hlookup
  rcases Table.lookup_of_lookup_insert hlookup with ⟨_, rfl⟩ | ⟨_, hold⟩
  · exact hp
  · exact h other q hold

/-- The index that a wrapper gives back was lent, to this wrapper only. -/
theorem exclusive_return (h : Exclusive s) {wrapper pool index : Nat} {b : BorrowedStream}
    (hlookup : s.wrappers.lookup wrapper = some (.resting b))
    (howned : b.owned = some (pool, index)) (rest : Rest) :
    Exclusive ((s.returnStream pool index).setWrapper wrapper (.returned rest)) := by
  have htaken : s.taken (pool, index) = true := by
    have hle := holds_le_owners hlookup (pool, index)
    rw [h.owners_eq] at hle
    by_contra hnot
    rw [if_neg hnot] at hle
    simp [Wrapper.owned, howned, holds] at hle
  rcases Option.eq_none_or_eq_some (s.pools.lookup pool) with hnone | ⟨p, hp⟩
  · unfold State.taken at htaken
    rw [hnone] at htaken
    cases htaken
  have hreturn : s.returnStream pool index =
      { s with pools := s.pools.insert pool (p.returnStream index) } := by
    unfold State.returnStream
    rw [hp]
  have hbit : p.taken index = true := by
    unfold State.taken at htaken
    rw [hp] at htaken
    exact htaken
  rw [hreturn]
  constructor
  · exact even_insert h.even (even_returnStream (h.even pool p hp) index)
  · intro place
    have hreset := owners_setWrapper hlookup (.returned rest) place
    rw [h.owners_eq place] at hreset
    change State.owners _ place + _ = _ at hreset
    show (s.setWrapper wrapper (.returned rest)).owners place =
      if State.taken { s with pools := s.pools.insert pool (p.returnStream index) } place
        then 1 else 0
    rw [taken_insert, taken_returnStream p hbit]
    simp only [Wrapper.owned, howned, holds_none, Nat.add_zero] at hreset
    rcases Decidable.em (place = (pool, index)) with rfl | hne
    · rw [htaken] at hreset
      simp [holds] at hreset ⊢
      exact hreset
    · have hother : holds (some (pool, index)) place = 0 :=
        if_neg (fun heq => hne (Option.some.inj heq).symm)
      rw [hother, Nat.add_zero] at hreset
      rw [hreset]
      rcases Decidable.em (place.1 = pool) with heq | hpool
      · have hindex : place.2 ≠ index := fun hindex => hne (Prod.ext heq hindex)
        rw [if_pos heq, if_neg hindex]
        unfold State.taken
        rw [heq, hp]
      · rw [if_neg hpool]

theorem exclusive_releaseThen (h : Exclusive s) {wrapper : Nat} {b : BorrowedStream}
    (hlookup : s.wrappers.lookup wrapper = some (.resting b)) (rest : Rest)
    (hotherwise : b.owned = none -> Exclusive t) :
    Exclusive (s.releaseThen wrapper b rest t) := by
  unfold State.releaseThen
  split
  · rename_i pool index howned
    exact exclusive_return h hlookup howned rest
  · rename_i hnone
    exact hotherwise hnone

theorem exclusive_acquire (h : Exclusive s) {wrapper pool : Nat} {p q : Pool}
    {policy : Policy} {created : Option Handle} {b : BorrowedStream}
    (hfree : s.wrappers.lookup wrapper = none) (hp : s.pools.lookup pool = some p)
    (hacquire : p.acquireStream pool policy created = some (q, b)) :
    Exclusive ({ s with pools := s.pools.insert pool q }.setWrapper wrapper (.resting b)) := by
  rcases acquireStream_spec (h.even pool p hp) hacquire with ⟨heven, hcases⟩
  constructor
  · exact even_insert h.even heven
  · intro place
    have hnew := owners_setWrapper_new hfree (.resting b) place
    rw [h.owners_eq place] at hnew
    show (s.setWrapper wrapper (.resting b)).owners place =
      if State.taken { s with pools := s.pools.insert pool q } place then 1 else 0
    rw [taken_insert, hnew]
    have hhere : place.1 = pool -> s.taken place = p.taken place.2 := by
      intro heq
      unfold State.taken
      rw [heq, hp]
    rcases hcases with ⟨hnone, rfl⟩ | ⟨index, howned, hnot, htaken⟩
    · simp only [Wrapper.owned, hnone, holds_none, Nat.zero_add]
      by_cases hpool : place.1 = pool
      · rw [if_pos hpool, hhere hpool]
      · rw [if_neg hpool]
    · simp only [Wrapper.owned, howned]
      rcases Decidable.em (place = (pool, index)) with rfl | hne
      · rw [hhere rfl, hnot, if_pos rfl, htaken, if_pos rfl]
        simp [holds]
      · have hother : holds (some (pool, index)) place = 0 :=
          if_neg (fun heq => hne (Option.some.inj heq).symm)
        rw [hother, Nat.zero_add]
        rcases Decidable.em (place.1 = pool) with heq | hpool
        · have hindex : place.2 ≠ index := fun hindex => hne (Prod.ext heq hindex)
          rw [hhere heq, if_pos heq, htaken, if_neg hindex]
        · rw [if_neg hpool]

theorem exclusive_construct (h : Exclusive s) {pool : Nat} {created : List (Option Handle)}
    (hnew : s.pools.lookup pool = none) (hsize : created.length ≤ sizeMax) :
    Exclusive { s with
      pools := s.pools.insert pool (Pool.construct created { streams := [], free := [] }) } := by
  have hspec := construct_spec created (p := { streams := [], free := [] }) rfl
    (fun _ => rfl)
  constructor
  · refine even_insert h.even ⟨hspec.left, ?_⟩
    exact hspec.right.left.trans ((Nat.zero_add _).trans_le hsize)
  · intro place
    have hbefore := h.owners_eq place
    rw [taken_insert]
    split
    · rename_i heq
      rw [hspec.right.right]
      unfold State.taken at hbefore
      rw [heq, hnew] at hbefore
      exact hbefore
    · exact hbefore

theorem exclusive_finish (h : Exclusive s) {wrapper : Nat}
    (hstep : step s (.finish wrapper) = some t) : Exclusive t := by
  simp only [step] at hstep
  split at hstep
  · rename_i hlookup
    cases hstep
    exact h.of_same rfl (fun place => owners_setWrapper hlookup (.resting .empty) place)
  · rename_i source hlookup
    split at hstep
    · rename_i other hsource
      cases hstep
      have hne : wrapper ≠ source := by
        rintro rfl
        rw [hlookup] at hsource
        cases hsource
      refine h.of_same rfl (owners_move hsource hne ?_)
      intro w hw
      rw [hlookup] at hw
      cases hw
      rfl
    · cases hstep
  · rename_i hlookup
    cases hstep
    refine h.of_same rfl (fun place => ?_)
    have herase := owners_erase hlookup place
    simp only [Wrapper.owned, holds_none, Nat.zero_add] at herase
    exact herase.symm
  · cases hstep

/-- Every step keeps streams and bits together and every index with its one owner. -/
theorem exclusive_step {e : Event} (h : Exclusive s) (hstep : step s e = some t) :
    Exclusive t := by
  cases e with
  | construct pool created =>
      simp only [step] at hstep
      split at hstep
      · rename_i hok
        cases hstep
        exact exclusive_construct h hok.left hok.right
      · cases hstep
  | default wrapper =>
      simp only [step] at hstep
      split at hstep
      · rename_i hnew
        cases hstep
        refine h.of_same rfl (fun place => ?_)
        exact (owners_setWrapper_new hnew _ place).trans (Nat.zero_add _)
      · cases hstep
  | acquire wrapper pool policy created =>
      simp only [step] at hstep
      split at hstep
      · rename_i p hnew hp
        split at hstep
        · rename_i q b hacquire
          cases hstep
          exact exclusive_acquire h hnew hp hacquire
        · cases hstep
      · cases hstep
  | moveConstruct wrapper source =>
      simp only [step] at hstep
      split at hstep
      · rename_i other hnew hsource
        cases hstep
        have hne : wrapper ≠ source := by
          rintro rfl
          rw [hnew] at hsource
          cases hsource
        refine h.of_same rfl (owners_move hsource hne ?_)
        intro w hw
        rw [hnew] at hw
        cases hw
      · cases hstep
  | moveAssign wrapper source =>
      simp only [step] at hstep
      split at hstep
      · rename_i b other hlookup hsource
        split at hstep
        · cases hstep
          exact h
        · rename_i hne
          cases hstep
          refine exclusive_releaseThen h hlookup _ ?_
          intro hnone
          refine h.of_same rfl (owners_move hsource hne ?_)
          intro w hw
          rw [hlookup] at hw
          cases hw
          exact hnone
      · cases hstep
  | release wrapper =>
      simp only [step] at hstep
      split at hstep
      · rename_i b hlookup
        cases hstep
        exact exclusive_releaseThen h hlookup _ (fun _ => h)
      · cases hstep
  | destroy wrapper =>
      simp only [step] at hstep
      split at hstep
      · rename_i b hlookup
        cases hstep
        refine exclusive_releaseThen h hlookup _ ?_
        intro hnone
        refine h.of_same rfl (fun place => ?_)
        have herase := owners_erase hlookup place
        simp only [Wrapper.owned, hnone, holds_none, Nat.zero_add] at herase
        exact herase.symm
      · cases hstep
  | finish wrapper => exact exclusive_finish h hstep

end Steps

theorem exclusive_initial : Exclusive State.initial := by
  refine ⟨?_, fun _ => rfl⟩
  intro pool p hlookup
  cases hlookup

/-- In every state of every run each stream of a pool is owned by at most one wrapper and
its bit says whether it is; the two vectors of a pool have one length; and with no wrapper
left every stream is free. -/
theorem streams_exclusive (events : List Event) (s : State)
    (hrun : poolMachine.run State.initial events = some s) :
    (forall place, s.owners place ≤ 1) ∧
    (forall pool p, s.pools.lookup pool = some p ->
      p.streams.length = p.free.length ∧
      (forall i, p.free[i]? = some false <-> s.owners (pool, i) = 1) ∧
      ((forall wrapper, s.wrappers.lookup wrapper = none) ->
        forall bit, bit ∈ p.free -> bit = true)) := by
  have hstep : forall s e t, Exclusive s -> poolMachine.step s e = some t -> Exclusive t :=
    fun _ _ _ h hs => exclusive_step h hs
  have h : Exclusive s := Machine.invariant_run_always hstep exclusive_initial hrun
  have hbit : forall pool p, s.pools.lookup pool = some p -> forall i,
      (p.free[i]? = some false <-> s.owners (pool, i) = 1) := by
    intro pool p hp i
    have htaken : s.taken (pool, i) = p.taken i := by
      unfold State.taken
      rw [hp]
    rw [h.owners_eq, htaken]
    unfold Pool.taken
    simp
  refine ⟨?_, ?_⟩
  · intro place
    rw [h.owners_eq]
    split <;> decide
  · intro pool p hp
    refine ⟨(h.even pool p hp).left, hbit pool p hp, ?_⟩
    intro hnone bit hmem
    rcases List.mem_iff_getElem?.mp hmem with ⟨i, hi⟩
    cases bit with
    | true => rfl
    | false =>
        have howner := (hbit pool p hp i).mp hi
        have hzero : s.owners (pool, i) = 0 := by
          refine (Table.sum_congr ?_).trans (Table.sum_zero s.wrappers)
          intro wrapper w hlookup
          rw [hnone wrapper] at hlookup
          cases hlookup
        rw [hzero] at howner
        cases howner

/-- A wrapper is assigned over another one that owns a stream; before it is done, a third
wrapper gets the stream that was given back. -/
def assignOver : List Event :=
  [.construct 0 [some 7, none, some 8], .acquire 0 0 .grow none, .acquire 1 0 .block none,
    .moveAssign 0 1, .acquire 2 0 .block none, .finish 0, .release 0, .finish 0, .release 0]

theorem streams_exclusive_assignOver :
    exists s, poolMachine.run State.initial assignOver = some s ∧
      s.owners (0, 0) = 1 ∧ s.owners (0, 1) = 0 ∧
      (forall place, s.owners place ≤ 1) ∧
      (forall pool p, s.pools.lookup pool = some p ->
        p.streams.length = p.free.length ∧
        (forall i, p.free[i]? = some false <-> s.owners (pool, i) = 1) ∧
        ((forall wrapper, s.wrappers.lookup wrapper = none) ->
          forall bit, bit ∈ p.free -> bit = true)) :=
  ⟨_, rfl, by decide +kernel, by decide +kernel, streams_exclusive assignOver _ rfl⟩

end StreamPool
end Memory
end Cuda2Rocm
