import Cuda2Rocm.Memory.StreamPool
import Mathlib.Data.Multiset.Basic

/-!
# The lives of pooled streams

A pool destroys its streams with itself, whoever may have borrowed one of them; a wrapper
knows its pool and its stream by plain pointers.  The runtime hands out each stream until it
is destroyed, and may use its handle again after that.
-/

namespace Cuda2Rocm
namespace Memory
namespace StreamPool
namespace Lifetimes

open Foundation

/-- The pools and wrappers that are there, and the streams that the runtime has now, has
ever created and has destroyed. -/
structure Life where
  calls : State
  live : Multiset Handle
  created : Multiset Handle
  destroyed : Multiset Handle

inductive LifeEvent where
  | call (e : Event)
  /-- The destructor of a pool. -/
  | destroyPool (pool : Nat)

def Life.initial : Life := { calls := State.initial, live := 0, created := 0, destroyed := 0 }

/-- The streams that a call gets from the runtime. -/
def creations (s : State) : Event -> List Handle
  | .construct _ created => created.filterMap id
  | .acquire _ pool policy created =>
      match s.pools.lookup pool with
      | some p => if p.free.findIdx? id = none ∧ policy = .grow then created.toList else []
      | none => []
  | _ => []

/-- The pool and the index that a call gives back. -/
def givenBack (s : State) : Event -> Option (Nat × Nat)
  | .moveAssign wrapper source =>
      if wrapper = source then none else (s.wrappers.lookup wrapper).bind Wrapper.owned
  | .release wrapper => (s.wrappers.lookup wrapper).bind Wrapper.owned
  | .destroy wrapper => (s.wrappers.lookup wrapper).bind Wrapper.owned
  | _ => none

/-- A call, when the runtime creates streams that it does not have and the pool that is given
a stream back is there; or the end of a pool, which synchronizes and destroys its streams
one by one. -/
def step (s : Life) : LifeEvent -> Option Life
  | .call e =>
      match StreamPool.step s.calls e with
      | none => none
      | some t =>
          let made := creations s.calls e
          if made.Nodup ∧ (forall handle, handle ∈ made -> handle ∉ s.live) ∧
              (givenBack s.calls e).all (fun place => (s.calls.pools.lookup place.1).isSome) then
            some { s with calls := t, live := s.live + made, created := s.created + made }
          else none
  | .destroyPool pool =>
      match s.calls.pools.lookup pool with
      | none => none
      | some p =>
          some { s with
            calls := { s.calls with pools := s.calls.pools.erase pool }
            live := s.live - p.streams
            destroyed := s.destroyed + p.streams }

def lifeMachine : Machine Life LifeEvent where
  step := step

/-- The streams of all pools. -/
def pooled (s : State) : Multiset Handle :=
  s.pools.sum (fun _ p => (p.streams : Multiset Handle))

/-- Every stream that was created is in one pool, or has been destroyed. -/
structure Settled (s : Life) : Prop where
  created : s.created = s.live + s.destroyed
  live : s.live = pooled s.calls
  distinct : s.live.Nodup

/-- What a wrapper views, as far as it owns it. -/
def Views (s : State) (b : BorrowedStream) : Prop :=
  forall pool index, b.owned = some (pool, index) ->
    exists p handle, s.pools.lookup pool = some p ∧ p.streams[index]? = some handle ∧
      b.view = .stream handle

/-- Borrowed streams are live, and borrowed once. -/
structure Kept (s : Life) : Prop where
  exclusive : forall place, s.calls.owners place ≤ 1
  borrowed : forall wrapper b, s.calls.wrappers.lookup wrapper = some (.resting b) ->
    Views s.calls b ∧ (b.owned ≠ none -> exists handle, b.view = .stream handle ∧
      handle ∈ s.live)

/-- A pool is destroyed when all its streams were given back. -/
def ReturnsFirst (s : Life) : LifeEvent -> Prop
  | .call _ => True
  | .destroyPool pool => forall index, s.calls.owners (pool, index) = 0

/-!
# Streams in pools
-/

section Streams

variable {s t : State} {e : Event}

theorem pooled_insert {pool : Nat} {p q : Pool} (h : s.pools.lookup pool = some p)
    {made : List Handle} (hstreams : q.streams = p.streams ++ made) :
    pooled { s with pools := s.pools.insert pool q } = pooled s + made := by
  have hsum := Table.sum_replace h q (fun _ p => (p.streams : Multiset Handle))
  simp only [hstreams, ← Multiset.coe_add] at hsum
  have hcancel : (s.pools.insert pool q).sum (fun _ p => (p.streams : Multiset Handle)) +
      (p.streams : Multiset Handle) = (pooled s + (made : Multiset Handle)) + p.streams := by
    rw [hsum, add_assoc, add_comm (made : Multiset Handle)]
    rfl
  exact add_right_cancel hcancel

theorem streams_construct : forall (created : List (Option Handle)) (p : Pool),
    (Pool.construct created p).streams = p.streams ++ created.filterMap id
  | [], p => (List.append_nil _).symm
  | none :: rest, p => streams_construct rest p
  | some handle :: rest, p => by
      rw [Pool.construct, streams_construct rest]
      simp

theorem streams_acquire {p q : Pool} {self : Nat} {policy : Policy} {created : Option Handle}
    {b : BorrowedStream} (h : p.acquireStream self policy created = some (q, b)) :
    q.streams = p.streams ++
      (if p.free.findIdx? id = none ∧ policy = .grow then created.toList else []) := by
  unfold Pool.acquireStream at h
  split at h
  · rename_i i hfound
    split at h
    · cases h
      simp [hfound]
    · cases h
  · rename_i hnone
    split at h
    · rename_i handle
      split at h
      · cases h
        simp [hnone]
      · cases h
    · rename_i hother
      cases h
      cases policy with
      | grow =>
          cases created with
          | none => simp
          | some handle => exact absurd rfl (hother handle rfl)
      | block => simp

theorem streams_returnStream (p : Pool) (index : Nat) :
    (p.returnStream index).streams = p.streams := by
  unfold Pool.returnStream
  split <;> rfl

theorem pooled_returnStream (s : State) (pool index : Nat) :
    pooled (s.returnStream pool index) = pooled s := by
  unfold State.returnStream
  split
  · rename_i p hp
    have hsame : (p.returnStream index).streams = p.streams ++ [] := by
      rw [streams_returnStream, List.append_nil]
    exact (pooled_insert hp hsame).trans (Multiset.add_zero _)
  · rfl

theorem pooled_releaseThen (s : State) (wrapper : Nat) (b : BorrowedStream) (rest : Rest)
    {otherwise : State} (h : pooled otherwise = pooled s) :
    pooled (s.releaseThen wrapper b rest otherwise) = pooled s := by
  unfold State.releaseThen
  split
  · rename_i pool index howned
    exact pooled_returnStream s pool index
  · exact h

/-- The streams that a call gets are in the pools after it, and no others are new there. -/
theorem pooled_step (h : StreamPool.step s e = some t) :
    pooled t = pooled s + creations s e := by
  have hnone : pooled t = pooled s -> pooled t = pooled s + ([] : List Handle) :=
    fun hsame => hsame.trans (Multiset.add_zero _).symm
  cases e with
  | construct pool created =>
      simp only [StreamPool.step] at h
      split at h
      · rename_i hnew
        cases h
        have hsum := Table.sum_insert_of_none hnew.left
          (Pool.construct created { streams := [], free := [] })
          (fun _ p => (p.streams : Multiset Handle))
        refine hsum.trans ?_
        rw [streams_construct, List.nil_append, add_comm]
        rfl
      · cases h
  | default wrapper =>
      simp only [StreamPool.step] at h
      split at h
      · cases h
        exact hnone rfl
      · cases h
  | acquire wrapper pool policy created =>
      simp only [StreamPool.step] at h
      split at h
      · rename_i p hidle hp
        split at h
        · rename_i q b hacquire
          cases h
          have hinsert := pooled_insert hp (streams_acquire hacquire)
          simp only [creations, hp]
          exact hinsert
        · cases h
      · cases h
  | moveConstruct wrapper source =>
      simp only [StreamPool.step] at h
      split at h
      · cases h
        exact hnone rfl
      · cases h
  | moveAssign wrapper source =>
      simp only [StreamPool.step] at h
      split at h
      · split at h
        · cases h
          exact hnone rfl
        · cases h
          exact hnone (pooled_releaseThen s wrapper _ _ rfl)
      · cases h
  | release wrapper =>
      simp only [StreamPool.step] at h
      split at h
      · cases h
        exact hnone (pooled_releaseThen s wrapper _ _ rfl)
      · cases h
  | destroy wrapper =>
      simp only [StreamPool.step] at h
      split at h
      · cases h
        exact hnone (pooled_releaseThen s wrapper _ _ rfl)
      · cases h
  | finish wrapper =>
      simp only [StreamPool.step] at h
      split at h
      · cases h
        exact hnone rfl
      · split at h
        · cases h
          exact hnone rfl
        · cases h
      · cases h
        exact hnone rfl
      · cases h

end Streams

/-!
# Views of borrowed streams
-/

/-- The pools are still there, with all their streams. -/
def Grows (s t : State) : Prop :=
  forall pool p, s.pools.lookup pool = some p -> exists q, t.pools.lookup pool = some q ∧
    forall (index : Nat) handle, p.streams[index]? = some handle ->
      q.streams[index]? = some handle

section Views

variable {s t : State} {e : Event} {b : BorrowedStream}

theorem Grows.same (h : t.pools = s.pools) : Grows s t := by
  intro pool p hp
  rw [h]
  exact ⟨p, hp, fun _ _ hstream => hstream⟩

theorem Grows.insert {pool : Nat} {p q : Pool} {made : List Handle}
    (hp : s.pools.lookup pool = some p) (hpools : t.pools = s.pools.insert pool q)
    (hstreams : q.streams = p.streams ++ made) : Grows s t := by
  intro other p' hp'
  rw [hpools, Table.lookup_insert]
  by_cases hother : other = pool
  · subst hother
    rw [hp] at hp'
    cases hp'
    refine ⟨q, if_pos rfl, ?_⟩
    intro index handle hstream
    rw [hstreams, List.getElem?_append_left (List.getElem?_eq_some_iff.mp hstream).choose]
    exact hstream
  · exact ⟨p', (if_neg hother).trans hp', fun _ _ hstream => hstream⟩

theorem Grows.new {pool : Nat} {q : Pool} (hnew : s.pools.lookup pool = none)
    (hpools : t.pools = s.pools.insert pool q) : Grows s t := by
  intro other p hp
  have hother : other ≠ pool := by
    intro heq
    rw [heq, hnew] at hp
    cases hp
  rw [hpools, Table.lookup_insert_ne hother]
  exact ⟨p, hp, fun _ _ hstream => hstream⟩

theorem Grows.returnStream (s : State) (pool index : Nat) :
    Grows s (s.returnStream pool index) := by
  unfold State.returnStream
  split
  · rename_i p hp
    have hsame : (p.returnStream index).streams = p.streams ++ [] := by
      rw [streams_returnStream, List.append_nil]
    exact Grows.insert hp rfl hsame
  · exact Grows.same rfl

theorem Views.grow (h : Views s b) (hgrows : Grows s t) : Views t b := by
  intro pool index howned
  rcases h pool index howned with ⟨p, handle, hp, hstream, hview⟩
  rcases hgrows pool p hp with ⟨q, hq, hstays⟩
  exact ⟨q, handle, hq, hstays index handle hstream, hview⟩

theorem views_of_none (h : b.owned = none) : Views s b := by
  intro pool index howned
  rw [h] at howned
  cases howned

/-- All resting wrappers view the streams they own. -/
def AllView (s : State) : Prop :=
  forall wrapper b, s.wrappers.lookup wrapper = some (.resting b) -> Views s b

theorem AllView.grow (h : AllView s) (hgrows : Grows s t) (hwrappers : t.wrappers = s.wrappers) :
    AllView t := by
  intro wrapper b hlookup
  rw [hwrappers] at hlookup
  exact (h wrapper b hlookup).grow hgrows

theorem AllView.setWrapper (h : AllView s) {wrapper : Nat} {w : Wrapper}
    (hnew : forall b, w = .resting b -> Views s b) : AllView (s.setWrapper wrapper w) := by
  intro other b hlookup
  have hgrows : Grows s (s.setWrapper wrapper w) := Grows.same rfl
  rcases Table.lookup_of_lookup_insert hlookup with ⟨_, heq⟩ | ⟨_, hold⟩
  · exact (hnew b heq.symm).grow hgrows
  · exact (h other b hold).grow hgrows

theorem AllView.erase (h : AllView s) (wrapper : Nat) : AllView (s.erase wrapper) := by
  intro other b hlookup
  exact (h other b (Table.lookup_of_lookup_erase hlookup).right).grow (Grows.same rfl)

theorem AllView.move (h : AllView s) {wrapper source : Nat} {other : BorrowedStream}
    (hsource : s.wrappers.lookup source = some (.resting other)) :
    AllView (s.move wrapper source other) := by
  have hreset : AllView (s.setWrapper source (.resting other.movedFrom)) := by
    apply h.setWrapper
    intro b heq
    cases heq
    exact views_of_none (owned_movedFrom other)
  apply hreset.setWrapper
  intro b heq
  cases heq
  exact (h source other hsource).grow (Grows.same rfl)

theorem AllView.releaseThen (h : AllView s) {wrapper : Nat} {rest : Rest}
    (hotherwise : AllView t) : AllView (s.releaseThen wrapper b rest t) := by
  unfold State.releaseThen
  split
  · rename_i pool index howned
    have hwrappers : (s.returnStream pool index).wrappers = s.wrappers := by
      unfold State.returnStream
      split <;> rfl
    have hreturned := h.grow (Grows.returnStream s pool index) hwrappers
    exact hreturned.setWrapper (fun _ heq => by cases heq)
  · exact hotherwise

theorem views_acquired {pool : Nat} {p q : Pool} {policy : Policy} {created : Option Handle}
    (h : p.acquireStream pool policy created = some (q, b))
    (hq : t.pools.lookup pool = some q) : Views t b := by
  unfold Pool.acquireStream at h
  split at h
  · rename_i i hfound
    split at h
    · rename_i handle hstream
      cases h
      intro pool' index howned
      simp only [BorrowedStream.owned] at howned
      split at howned
      · cases howned
        exact ⟨_, handle, hq, hstream, rfl⟩
      · cases howned
    · cases h
  · split at h
    · rename_i handle
      split at h
      · cases h
        intro pool' index howned
        simp only [BorrowedStream.owned] at howned
        split at howned
        · cases howned
          refine ⟨_, handle, hq, ?_, rfl⟩
          simp
        · cases howned
      · cases h
    · cases h
      exact views_of_none rfl

theorem allView_step (h : AllView s) (hstep : StreamPool.step s e = some t) : AllView t := by
  cases e with
  | construct pool created =>
      simp only [StreamPool.step] at hstep
      split at hstep
      · rename_i hnew
        cases hstep
        exact h.grow (Grows.new hnew.left rfl) rfl
      · cases hstep
  | default wrapper =>
      simp only [StreamPool.step] at hstep
      split at hstep
      · cases hstep
        apply h.setWrapper
        intro b heq
        cases heq
        exact views_of_none rfl
      · cases hstep
  | acquire wrapper pool policy created =>
      simp only [StreamPool.step] at hstep
      split at hstep
      · rename_i p hidle hp
        split at hstep
        · rename_i q b hacquire
          cases hstep
          have hgrown : AllView { s with pools := s.pools.insert pool q } :=
            h.grow (Grows.insert hp rfl (streams_acquire hacquire)) rfl
          apply hgrown.setWrapper
          intro b' heq
          cases heq
          exact views_acquired hacquire (Table.lookup_insert_self _ _ _)
        · cases hstep
      · cases hstep
  | moveConstruct wrapper source =>
      simp only [StreamPool.step] at hstep
      split at hstep
      · rename_i other hnew hsource
        cases hstep
        exact h.move hsource
      · cases hstep
  | moveAssign wrapper source =>
      simp only [StreamPool.step] at hstep
      split at hstep
      · rename_i b other hlookup hsource
        split at hstep
        · cases hstep
          exact h
        · cases hstep
          exact h.releaseThen (h.move hsource)
      · cases hstep
  | release wrapper =>
      simp only [StreamPool.step] at hstep
      split at hstep
      · cases hstep
        exact h.releaseThen h
      · cases hstep
  | destroy wrapper =>
      simp only [StreamPool.step] at hstep
      split at hstep
      · cases hstep
        exact h.releaseThen (h.erase wrapper)
      · cases hstep
  | finish wrapper =>
      simp only [StreamPool.step] at hstep
      split at hstep
      · cases hstep
        apply h.setWrapper
        intro b heq
        cases heq
        exact views_of_none rfl
      · split at hstep
        · rename_i other hsource
          cases hstep
          exact h.move hsource
        · cases hstep
      · cases hstep
        exact h.erase wrapper
      · cases hstep

end Views

/-!
# Calls and ends of pools
-/

section Steps

variable {s t : Life} {e : LifeEvent}

theorem step_call {event : Event} (hstep : step s (.call event) = some t) :
    exists after, StreamPool.step s.calls event = some after ∧
      (creations s.calls event).Nodup ∧
      (forall handle, handle ∈ creations s.calls event -> handle ∉ s.live) ∧
      t = { s with
        calls := after
        live := s.live + creations s.calls event
        created := s.created + creations s.calls event } := by
  simp only [step] at hstep
  split at hstep
  · cases hstep
  · rename_i after hcall
    split at hstep
    · rename_i hfresh
      cases hstep
      exact ⟨after, hcall, hfresh.left, hfresh.right.left, rfl⟩
    · cases hstep

theorem step_destroyPool {pool : Nat} (hstep : step s (.destroyPool pool) = some t) :
    exists p, s.calls.pools.lookup pool = some p ∧
      t = { s with
        calls := { s.calls with pools := s.calls.pools.erase pool }
        live := s.live - p.streams
        destroyed := s.destroyed + p.streams } := by
  simp only [step] at hstep
  split at hstep
  · cases hstep
  · rename_i p hp
    cases hstep
    exact ⟨p, hp, rfl⟩

theorem settled_step (h : Settled s) (hstep : step s e = some t) : Settled t := by
  cases e with
  | call event =>
      rcases step_call hstep with ⟨after, hcall, hnodup, hfresh, rfl⟩
      constructor
      · dsimp only
        rw [h.created, add_assoc, add_assoc, add_comm s.destroyed]
      · dsimp only
        rw [pooled_step hcall, h.live]
      · apply Multiset.nodup_add.mpr
        constructor
        · exact h.distinct
        · constructor
          · exact Multiset.coe_nodup.mpr hnodup
          · apply Multiset.disjoint_left.mpr
            intro handle hold hmade
            exact hfresh handle (Multiset.mem_coe.mp hmade) hold
  | destroyPool pool =>
      rcases step_destroyPool hstep with ⟨p, hp, rfl⟩
      have hsum := Table.sum_of_lookup hp (fun _ p => (p.streams : Multiset Handle))
      have hlive : s.live = (p.streams : Multiset Handle) +
          pooled { s.calls with pools := s.calls.pools.erase pool } := h.live.trans hsum
      constructor
      · dsimp only
        rw [h.created, hlive, add_tsub_cancel_left, add_comm s.destroyed, ← add_assoc,
          add_comm (p.streams : Multiset Handle)]
      · dsimp only
        rw [hlive, add_tsub_cancel_left]
      · exact Multiset.nodup_of_le (Multiset.sub_le_self _ _) h.distinct

/-- What the calls rely on while pools come and go. -/
structure Sound (s : Life) : Prop where
  exclusive : Exclusive s.calls
  views : AllView s.calls
  settled : Settled s

/-- A pool that nobody has borrowed from is not missed. -/
theorem exclusive_destroyPool {c : State} (h : Exclusive c) {pool : Nat}
    (hnobody : forall index, c.owners (pool, index) = 0) :
    Exclusive { c with pools := c.pools.erase pool } := by
  constructor
  · intro other p hlookup
    exact h.even other p (Table.lookup_of_lookup_erase hlookup).right
  · intro place
    change c.owners place = _
    unfold State.taken
    by_cases hplace : place.1 = pool
    · have hzero : c.owners place = 0 := by
        rw [← Prod.mk.eta (p := place), hplace]
        exact hnobody place.2
      rw [hplace, Table.lookup_erase_self, hzero]
      rfl
    · rw [Table.lookup_erase_ne hplace]
      exact h.owners_eq place

theorem allView_destroyPool {c : State} (h : AllView c) {pool : Nat}
    (hnobody : forall index, c.owners (pool, index) = 0) :
    AllView { c with pools := c.pools.erase pool } := by
  intro wrapper b hlookup place index howned
  rcases h wrapper b hlookup place index howned with ⟨p, handle, hp, hstream, hview⟩
  have hne : place ≠ pool := by
    intro heq
    have hle : holds (Wrapper.resting b).owned (pool, index) ≤ c.owners (pool, index) :=
      holds_le_owners hlookup (pool, index)
    rw [hnobody index] at hle
    simp [Wrapper.owned, howned, heq, holds] at hle
  exact ⟨p, handle, (Table.lookup_erase_ne hne _).trans hp, hstream, hview⟩

theorem sound_step (h : Sound s) (hok : ReturnsFirst s e) (hstep : step s e = some t) :
    Sound t := by
  have hsettled := settled_step h.settled hstep
  cases e with
  | call event =>
      rcases step_call hstep with ⟨after, hcall, _, _, rfl⟩
      exact ⟨exclusive_step h.exclusive hcall, allView_step h.views hcall, hsettled⟩
  | destroyPool pool =>
      rcases step_destroyPool hstep with ⟨p, _, rfl⟩
      exact ⟨exclusive_destroyPool h.exclusive hok, allView_destroyPool h.views hok, hsettled⟩

theorem Sound.kept (h : Sound s) : Kept s where
  exclusive := by
    intro place
    rw [h.exclusive.owners_eq]
    split
    · exact Nat.le_refl 1
    · exact Nat.zero_le 1
  borrowed := by
    intro wrapper b hlookup
    have hviews := h.views wrapper b hlookup
    constructor
    · exact hviews
    · intro howned
      rcases Option.ne_none_iff_exists'.mp howned with ⟨⟨pool, index⟩, hsome⟩
      rcases hviews pool index hsome with ⟨p, handle, hp, hstream, hview⟩
      exists handle, hview
      have hsum := Table.sum_of_lookup hp (fun _ p => (p.streams : Multiset Handle))
      rw [h.settled.live, pooled, hsum]
      apply Multiset.mem_add.mpr
      exact Or.inl (Multiset.mem_coe.mpr (List.mem_of_getElem? hstream))

/-- A wrapper that owns a stream, where some wrapper does. -/
theorem exists_owner {c : State} {place : Nat × Nat} (h : c.owners place ≠ 0) :
    exists wrapper b, c.wrappers.lookup wrapper = some (.resting b) ∧ b.owned = some place := by
  by_contra hnone
  apply h
  refine (Table.sum_congr ?_).trans (Table.sum_zero c.wrappers)
  intro wrapper w hlookup
  cases w with
  | returned rest => rfl
  | resting b =>
      apply if_neg
      intro howned
      exact hnone ⟨wrapper, b, hlookup, howned⟩

/-- Who has borrowed from a destroyed pool is left with nothing. -/
theorem returnsFirst_of_kept (hstep : step s e = some t) (h : Kept t) : ReturnsFirst s e := by
  cases e with
  | call e => trivial
  | destroyPool pool =>
      rcases step_destroyPool hstep with ⟨destroyed, _, rfl⟩
      intro index
      by_contra howners
      rcases exists_owner howners with ⟨wrapper, b, hlookup, howned⟩
      rcases (h.borrowed wrapper b hlookup).left pool index howned with ⟨p, _, hp, _, _⟩
      rw [Table.lookup_erase_self] at hp
      cases hp

end Steps

theorem sound_initial : Sound Life.initial := by
  constructor
  · exact exclusive_initial
  · intro wrapper b hlookup
    cases hlookup
  · exact ⟨rfl, rfl, Multiset.nodup_zero⟩

/-- The runtime's streams are those of the pools, and each that was created is there or was
destroyed, in every run.  Borrowed streams are live, and borrowed once, in exactly the runs
in which each pool is destroyed when its streams were given back. -/
theorem borrowed_streams_live_iff (events : List LifeEvent) :
    (forall s, lifeMachine.run Life.initial events = some s -> Settled s) ∧
    (lifeMachine.Reaches Kept Life.initial events <->
      lifeMachine.Along ReturnsFirst Life.initial events) := by
  constructor
  · intro s hrun
    have hkept : forall (u : Life) e v, Settled u -> lifeMachine.step u e = some v ->
        Settled v := fun _ _ _ hu h => settled_step hu h
    exact Machine.invariant_run_always hkept sound_initial.settled hrun
  · have hkeep : forall (u : Life) e v, Sound u -> ReturnsFirst u e ->
        lifeMachine.step u e = some v -> Sound v ∧ Kept v := by
      intro u e v hu hok h
      have hv := sound_step hu hok h
      exact ⟨hv, hv.kept⟩
    have hfail : forall (u : Life) e v, Sound u -> lifeMachine.step u e = some v -> Kept v ->
        ReturnsFirst u e := fun _ _ _ _ h hgood => returnsFirst_of_kept h hgood
    exact Machine.throughout_iff_along hkeep hfail sound_initial

end Lifetimes
end StreamPool
end Memory
end Cuda2Rocm
