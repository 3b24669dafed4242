import Cuda2Rocm.Foundation.Runs
import Mathlib.Data.List.Count
import Mathlib.Data.List.Perm.Basic

/-!
# Counted handles

Objects owned through control blocks.  Every handle refers to one control block, which
counts its handles and runs its deleter on its object when the last of them is dropped.
Nothing keeps two control blocks from owning one object.
-/

namespace Cuda2Rocm
namespace Foundation

/-- What a control block owns, how it disposes of it, and how many handles it has. -/
structure ControlBlock (object deleter : Type _) where
  object : object
  deleter : deleter
  uses : Nat

/-- Control blocks by their numbers, the block of every live handle, and the deleters
run so far. -/
structure Handles (object deleter : Type _) where
  blocks : List (ControlBlock object deleter)
  handles : List Nat
  destroyed : List (object × deleter)

/-- A handle is copied, or dropped. -/
inductive HandleEvent where
  | copy (i : Nat)
  | drop (i : Nat)

namespace Handles

variable {object deleter : Type _}

/-- No handle and no control block. -/
def empty : Handles object deleter := ⟨[], [], []⟩

/-- A first handle to an object, with a control block of its own. -/
def own (s : Handles object deleter) (o : object) (d : deleter) : Handles object deleter :=
  { s with blocks := s.blocks ++ [⟨o, d, 1⟩], handles := s.handles ++ [s.blocks.length] }

/-- A further handle to the control block of this one. -/
def copy (s : Handles object deleter) (i : Nat) : Option (Handles object deleter) :=
  match s.handles[i]? with
  | none => none
  | some b =>
      some { s with
        blocks := s.blocks.modify b (fun block => { block with uses := block.uses + 1 })
        handles := s.handles ++ [b] }

/-- A control block gives up one use, and with the last one its object. -/
def release (s : Handles object deleter) (b : Nat) : Handles object deleter :=
  match s.blocks[b]? with
  | none => s
  | some block =>
      { s with
        blocks := s.blocks.set b { block with uses := block.uses - 1 }
        destroyed :=
          if block.uses = 1 then s.destroyed ++ [(block.object, block.deleter)]
          else s.destroyed }

/-- This handle goes. -/
def drop (s : Handles object deleter) (i : Nat) : Option (Handles object deleter) :=
  match s.handles[i]? with
  | none => none
  | some b => some (release { s with handles := s.handles.eraseIdx i } b)

/-- Handles as they are copied and dropped. -/
def machine : Machine (Handles object deleter) HandleEvent where
  step s
    | .copy i => s.copy i
    | .drop i => s.drop i

/-- Some handle refers to a control block of the object. -/
def Referred (s : Handles object deleter) (o : object) : Prop :=
  exists b, b ∈ s.handles ∧ exists block, s.blocks[b]? = some block ∧ block.object = o

/-- The control blocks whose last handle is gone, by what they ran on what. -/
def dead (s : Handles object deleter) : List (object × deleter) :=
  (s.blocks.filter (fun block => block.uses = 0)).map
    (fun block => (block.object, block.deleter))

/-- What the control blocks own, and how they dispose of it. -/
def owners (s : Handles object deleter) : List (object × deleter) :=
  s.blocks.map (fun block => (block.object, block.deleter))

/-- The counts are those of the handles, and exactly the dead blocks ran their deleters. -/
structure Counted (s : Handles object deleter) : Prop where
  bound : forall b, b ∈ s.handles -> b < s.blocks.length
  counted : forall (b : Nat) block, s.blocks[b]? = some block -> block.uses = s.handles.count b
  destroyed : s.destroyed.Perm s.dead

theorem counted_empty : (empty : Handles object deleter).Counted where
  bound := fun _ h => absurd h List.not_mem_nil
  counted := fun b _ h => by simp [empty] at h
  destroyed := List.Perm.refl []

/-!
# One entry changed
-/

/-- A list around one of its entries. -/
theorem exists_around {alpha : Type _} {l : List alpha} {i : Nat} {old : alpha}
    (h : l[i]? = some old) : exists first rest, l = first ++ old :: rest ∧
      forall new, l.set i new = first ++ new :: rest := by
  rcases List.getElem?_eq_some_iff.mp h with ⟨hi, hget⟩
  refine ⟨l.take i, l.drop (i + 1), ?_, fun new => ?_⟩
  · rw [← hget, List.getElem_cons_drop, List.take_append_drop]
  · rw [List.set_eq_take_append_cons_drop, if_pos hi]

/-- A block with handles that keeps some stays out of the dead. -/
theorem dead_set_of_used {s : Handles object deleter} {b uses : Nat}
    {block : ControlBlock object deleter} (hblock : s.blocks[b]? = some block)
    (hused : block.uses ≠ 0) (huses : uses ≠ 0) (handles : List Nat)
    (destroyed : List (object × deleter)) :
    dead ⟨s.blocks.set b { block with uses := uses }, handles, destroyed⟩ = s.dead := by
  rcases exists_around hblock with ⟨first, rest, hblocks, hset⟩
  unfold dead
  simp only [hset]
  rw [hblocks]
  simp [hused, huses]

/-- A block that loses its last handle joins the dead. -/
theorem dead_set_zero {s : Handles object deleter} {b : Nat}
    {block : ControlBlock object deleter} (hblock : s.blocks[b]? = some block)
    (hused : block.uses ≠ 0) (handles : List Nat) (destroyed : List (object × deleter)) :
    (dead ⟨s.blocks.set b { block with uses := 0 }, handles, destroyed⟩).Perm
      ((block.object, block.deleter) :: s.dead) := by
  rcases exists_around hblock with ⟨first, rest, hblocks, hset⟩
  unfold dead
  simp only [hset]
  rw [hblocks]
  simp [hused]

/-!
# Copies and drops
-/

theorem modify_eq_set {alpha : Type _} {l : List alpha} {i : Nat} {old : alpha}
    (h : l[i]? = some old) (f : alpha -> alpha) : l.modify i f = l.set i (f old) := by
  rcases List.getElem?_eq_some_iff.mp h with ⟨hi, hget⟩
  rw [List.modify_eq_set_getElem?, h]
  rfl

theorem owners_set {s : Handles object deleter} {b uses : Nat}
    {block : ControlBlock object deleter} (hblock : s.blocks[b]? = some block)
    (handles : List Nat) (destroyed : List (object × deleter)) :
    owners ⟨s.blocks.set b { block with uses := uses }, handles, destroyed⟩ = s.owners := by
  rcases exists_around hblock with ⟨first, rest, hblocks, hset⟩
  unfold owners
  simp only [hset]
  rw [hblocks]
  simp

namespace Counted

variable {s t : Handles object deleter}

/-- The control block of a handle, and that it is in use. -/
theorem block_of_mem (h : s.Counted) {b : Nat} (hb : b ∈ s.handles) :
    exists block, s.blocks[b]? = some block ∧ block.uses ≠ 0 := by
  have hlt := h.bound b hb
  refine ⟨s.blocks[b], List.getElem?_eq_getElem hlt, ?_⟩
  rw [h.counted b _ (List.getElem?_eq_getElem hlt)]
  exact (List.count_pos_iff.mpr hb).ne'

theorem own (h : s.Counted) (o : object) (d : deleter) : (s.own o d).Counted where
  bound := by
    intro b hb
    have hlength : (s.own o d).blocks.length = s.blocks.length + 1 := by simp [Handles.own]
    rw [hlength]
    rcases List.mem_append.mp hb with hold | hnew
    · exact Nat.lt_succ_of_lt (h.bound b hold)
    · rw [List.mem_singleton.mp hnew]
      exact Nat.lt_succ_self _
  counted := by
    intro b block hblock
    change (s.blocks ++ [⟨o, d, 1⟩])[b]? = some block at hblock
    change block.uses = (s.handles ++ [s.blocks.length]).count b
    rw [List.count_append]
    by_cases hb : b < s.blocks.length
    · rw [List.getElem?_append_left hb] at hblock
      rw [h.counted b block hblock]
      simp [hb.ne']
    · rw [List.getElem?_append_right (Nat.le_of_not_lt hb)] at hblock
      have hlast : b - s.blocks.length = 0 := by
        have hlt := (List.getElem?_eq_some_iff.mp hblock).1
        simpa using hlt
      have hbe : b = s.blocks.length := by omega
      rw [hlast] at hblock
      cases hblock
      have hnone : s.handles.count b = 0 := by
        apply List.count_eq_zero_of_not_mem
        exact fun hmem => hb (h.bound b hmem)
      rw [hnone, hbe]
      simp
  destroyed := by
    refine h.destroyed.trans (List.Perm.of_eq ?_)
    simp [dead, Handles.own]

theorem copy (h : s.Counted) {i : Nat} (hcopy : s.copy i = some t) :
    t.Counted ∧ t.owners = s.owners := by
  rw [Handles.copy] at hcopy
  cases hi : s.handles[i]? with
  | none =>
      rw [hi] at hcopy
      cases hcopy
  | some b =>
      rw [hi] at hcopy
      cases hcopy
      rcases h.block_of_mem (List.mem_of_getElem? hi) with ⟨block, hblock, hused⟩
      rw [modify_eq_set hblock]
      refine ⟨⟨?_, ?_, ?_⟩, owners_set hblock _ _⟩
      · intro b' hb'
        rw [List.length_set]
        rcases List.mem_append.mp hb' with hold | hnew
        · exact h.bound b' hold
        · rw [List.mem_singleton.mp hnew]
          exact h.bound b (List.mem_of_getElem? hi)
      · intro b' block' hblock'
        simp only at hblock' ⊢
        rw [List.getElem?_set] at hblock'
        by_cases hsame : b = b'
        · subst hsame
          rw [if_pos rfl, if_pos (h.bound b (List.mem_of_getElem? hi))] at hblock'
          cases hblock'
          simp [h.counted b block hblock]
        · rw [if_neg hsame] at hblock'
          rw [h.counted b' block' hblock']
          simp [hsame]
      · rw [dead_set_of_used hblock hused (Nat.succ_ne_zero _)]
        exact h.destroyed

theorem drop (h : s.Counted) {i : Nat} (hdrop : s.drop i = some t) :
    t.Counted ∧ t.owners = s.owners := by
  rw [Handles.drop] at hdrop
  cases hi : s.handles[i]? with
  | none =>
      rw [hi] at hdrop
      cases hdrop
  | some b =>
      rw [hi] at hdrop
      cases hdrop
      rcases h.block_of_mem (List.mem_of_getElem? hi) with ⟨block, hblock, hused⟩
      simp only [release, hblock]
      have hcount : forall b', s.handles.count b' =
          (s.handles.eraseIdx i).count b' + if b = b' then 1 else 0 := by
        intro b'
        rcases List.getElem?_eq_some_iff.mp hi with ⟨hlt, hget⟩
        rw [← (List.getElem_cons_eraseIdx_perm hlt).count_eq b', hget, List.count_cons]
        simp only [beq_iff_eq]
      refine ⟨⟨?_, ?_, ?_⟩, owners_set hblock _ _⟩
      · intro b' hb'
        rw [List.length_set]
        exact h.bound b' (List.mem_of_mem_eraseIdx hb')
      · intro b' block' hblock'
        simp only at hblock' ⊢
        rw [List.getElem?_set] at hblock'
        by_cases hsame : b = b'
        · subst hsame
          rw [if_pos rfl, if_pos (h.bound b (List.mem_of_getElem? hi))] at hblock'
          cases hblock'
          have hold := h.counted b block hblock
          rw [hcount b, if_pos rfl] at hold
          simp [hold]
        · rw [if_neg hsame] at hblock'
          rw [h.counted b' block' hblock', hcount b', if_neg hsame, Nat.add_zero]
      · by_cases hlast : block.uses = 1
        · have hzero : block.uses - 1 = 0 := by omega
          simp only [hzero, if_pos hlast]
          apply List.Perm.symm
          refine (dead_set_zero hblock hused _ _).trans ?_
          refine List.Perm.trans ?_ List.perm_append_comm
          exact List.Perm.cons _ h.destroyed.symm
        · rw [dead_set_of_used hblock hused (by omega)]
          simp only [if_neg hlast]
          exact h.destroyed

/-- Copies and drops keep the counts, and what the control blocks own. -/
theorem step (h : s.Counted) {e : HandleEvent} (hstep : machine.step s e = some t) :
    t.Counted ∧ t.owners = s.owners := by
  cases e with
  | copy i => exact h.copy hstep
  | drop i => exact h.drop hstep

theorem run (h : s.Counted) {events : List HandleEvent} (hrun : machine.run s events = some t) :
    t.Counted ∧ t.owners = s.owners := by
  have hkept : forall u e v, (u.Counted ∧ u.owners = s.owners) -> machine.step u e = some v ->
      v.Counted ∧ v.owners = s.owners := by
    intro u e v hu hstep
    have hv := hu.1.step hstep
    exact ⟨hv.1, hv.2.trans hu.2⟩
  exact Machine.invariant_run_always hkept ⟨h, rfl⟩ hrun

/-- An object without a handle has been disposed of by each of its control blocks. -/
theorem mem_destroyed_of_not_referred (h : s.Counted) {o : object} {d : deleter}
    (howner : (o, d) ∈ s.owners) (hgone : ¬ s.Referred o) : (o, d) ∈ s.destroyed := by
  rcases List.mem_map.mp howner with ⟨block, hmem, hpair⟩
  rcases List.getElem?_of_mem hmem with ⟨b, hblock⟩
  have hobject : block.object = o := congrArg Prod.fst hpair
  have hnone : block.uses = 0 := by
    rw [h.counted b block hblock]
    apply List.count_eq_zero_of_not_mem
    exact fun hb => hgone ⟨b, hb, block, hblock, hobject⟩
  apply h.destroyed.mem_iff.mpr
  exact List.mem_map.mpr ⟨block, List.mem_filter.mpr ⟨hmem, by simp [hnone]⟩, hpair⟩

/-- Where there is one control block, its deleter has run exactly if no handle is left. -/
theorem destroyed_of_single (h : s.Counted) {o : object} {d : deleter}
    (howner : s.owners = [(o, d)]) :
    (s.Referred o -> s.destroyed = []) ∧ (¬ s.Referred o -> s.destroyed = [(o, d)]) := by
  rcases List.map_eq_singleton_iff.mp howner with ⟨block, hblocks, hpair⟩
  have hobject : block.object = o := congrArg Prod.fst hpair
  have hfirst : s.blocks[0]? = some block := by rw [hblocks]; rfl
  constructor
  · rintro ⟨b, hb, other, hother, -⟩
    have hsame : other = block := by
      have hmem := List.mem_of_getElem? hother
      rw [hblocks] at hmem
      exact List.mem_singleton.mp hmem
    have hused : block.uses ≠ 0 := by
      rw [← hsame, h.counted b other hother]
      exact (List.count_pos_iff.mpr hb).ne'
    apply List.perm_nil.mp
    refine h.destroyed.trans (List.Perm.of_eq ?_)
    simp [dead, hblocks, hused]
  · intro hgone
    have hnone : block.uses = 0 := by
      rw [h.counted 0 block hfirst]
      apply List.count_eq_zero_of_not_mem
      exact fun hb => hgone ⟨0, hb, block, hfirst, hobject⟩
    apply List.perm_singleton.mp
    refine h.destroyed.trans (List.Perm.of_eq ?_)
    simp [dead, hblocks, hnone, hpair]

end Counted

theorem destroyed_step {s t : Handles object deleter} {e : HandleEvent}
    (hstep : machine.step s e = some t) : forall entry, entry ∈ s.destroyed ->
      entry ∈ t.destroyed := by
  intro entry hentry
  cases e with
  | copy i =>
      change s.copy i = some t at hstep
      rw [copy] at hstep
      cases hi : s.handles[i]? with
      | none =>
          rw [hi] at hstep
          cases hstep
      | some b =>
          rw [hi] at hstep
          cases hstep
          exact hentry
  | drop i =>
      change s.drop i = some t at hstep
      rw [drop] at hstep
      cases hi : s.handles[i]? with
      | none =>
          rw [hi] at hstep
          cases hstep
      | some b =>
          rw [hi] at hstep
          cases hstep
          unfold release
          split
          · exact hentry
          · simp only
            split
            · exact List.mem_append_left _ hentry
            · exact hentry

theorem destroyed_run {s t : Handles object deleter} {events : List HandleEvent}
    (hrun : machine.run s events = some t) {entry : object × deleter}
    (hentry : entry ∈ s.destroyed) : entry ∈ t.destroyed := by
  have hkept : forall u e v, entry ∈ u.destroyed -> machine.step u e = some v ->
      entry ∈ v.destroyed := fun _ _ _ hmem hstep => destroyed_step hstep entry hmem
  exact Machine.invariant_run_always hkept hentry hrun

end Handles
end Foundation
end Cuda2Rocm
