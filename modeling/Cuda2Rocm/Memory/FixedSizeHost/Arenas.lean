import Cuda2Rocm.Memory.FixedSizeHost.Balance

/-!
# Where arenas come from

An arena is made by `reserve` and keeps its number and its charge; its size only
changes when it grows.
-/

namespace Cuda2Rocm
namespace Memory
namespace FixedSizeHost

open Foundation

/-- An arena after a step that at most writes its tracker or drops its handle. -/
structure Arena.Kept (old arena : Arena) : Prop where
  rid : arena.rid = old.rid
  size : arena.size = old.size
  charged : arena.charged = old.charged

theorem Arena.Kept.refl (arena : Arena) : arena.Kept arena := ⟨rfl, rfl, rfl⟩

section Steps

variable {c : Config} {s t : State} {e : Event} {addr : Addr} {arena : Arena}

theorem kept_of_insert {target : Addr} {old new : Arena}
    (hold : s.arenas.lookup target = some old)
    (harena : (s.arenas.insert target new).lookup addr = some arena)
    (hkept : old.Kept new) :
    exists old, s.arenas.lookup addr = some old ∧ old.Kept arena := by
  rcases Table.lookup_of_lookup_insert harena with ⟨rfl, rfl⟩ | ⟨_, hsame⟩
  · exact ⟨old, hold, hkept⟩
  · exact ⟨arena, hsame, .refl arena⟩

theorem kept_of_setTracker {target : Addr} {old : Arena} {pre tracker : Int}
    (hfind : s.findTracker target = some (old, pre))
    (harena : (s.setTracker target old tracker).lookup addr = some arena) :
    exists old, s.arenas.lookup addr = some old ∧ old.Kept arena :=
  kept_of_insert (findTracker_eq_some.mp hfind).left harena ⟨rfl, rfl, rfl⟩

theorem kept_of_rollBack (s : State) (request : Request)
    (harena : (s.rollBack request).lookup addr = some arena) :
    exists old, s.arenas.lookup addr = some old ∧ old.Kept arena := by
  unfold State.rollBack at harena
  split at harena
  · exact ⟨arena, harena, .refl arena⟩
  · split at harena
    · exact ⟨arena, harena, .refl arena⟩
    · rename_i hfind
      exact kept_of_setTracker hfind harena

/-- An arena of the next state was there before, has grown, or was just registered. -/
theorem arena_origin (hmove : Move c s e t) (harena : t.arenas.lookup addr = some arena) :
    (exists old, s.arenas.lookup addr = some old ∧ old.Kept arena) ∨
    (exists old n, e = .growBy addr n ∧ s.arenas.lookup addr = some old ∧
      arena = { old with size := Memory.growBy old.size n }) ∨
    (exists thread, e = .register thread addr ∧ arena.rid = s.created.length ∧
      s.threads.lookup thread = some (.registering arena.size) ∧
      arena.charged = arena.size ∧ t.created = s.created ++ [addr]) := by
  cases hmove with
  | takeTracked hidle hmutex halloc href hfind =>
      exact Or.inl (kept_of_setTracker hfind harena)
  | destroyReleased hidle hmutex hold htracker =>
      exact Or.inl ⟨arena, (Table.lookup_of_lookup_erase harena).right, .refl arena⟩
  | destroy hidle hmutex hold htracker =>
      exact Or.inl (kept_of_insert hold harena ⟨rfl, rfl, rfl⟩)
  | grow hold =>
      rename_i target n old
      rcases Table.lookup_of_lookup_insert harena with ⟨rfl, rfl⟩ | ⟨_, hsame⟩
      · exact Or.inr (Or.inl ⟨old, n, rfl, hold, rfl⟩)
      · exact Or.inl ⟨arena, hsame, .refl arena⟩
  | granted hframe hstep =>
      rename_i charge pc counter
      cases charge <;> exact Or.inl ⟨arena, harena, .refl arena⟩
  | refused hframe hstep =>
      rename_i charge pc counter
      cases charge with
      | reservation bytes => exact Or.inl ⟨arena, harena, .refl arena⟩
      | blocks request =>
          exact Or.inl (kept_of_rollBack s request harena)
      | single bytes => exact Or.inl ⟨arena, harena, .refl arena⟩
  | lockTracked hframe hmutex hfind => exact Or.inl (kept_of_setTracker hfind harena)
  | credited hframe =>
      rename_i credit loop
      cases credit with
      | deallocation bytes => exact Or.inl ⟨arena, harena, .refl arena⟩
      | blocks request text =>
          exact Or.inl (kept_of_rollBack s request harena)
      | single bytes text => exact Or.inl ⟨arena, harena, .refl arena⟩
      | release target bytes =>
          exact Or.inl ⟨arena, (Table.lookup_of_lookup_erase harena).right, .refl arena⟩
  | register hframe hfree hmutex =>
      rcases Table.lookup_of_lookup_insert harena with ⟨rfl, rfl⟩ | ⟨_, hold⟩
      · exact Or.inr (Or.inr ⟨_, rfl, rfl, hframe, rfl, rfl⟩)
      · exact Or.inl ⟨arena, hold, .refl arena⟩
  | _ => exact Or.inl ⟨arena, harena, .refl arena⟩

/-- The addresses of arenas are only added to, by `reserve`. -/
theorem created_of_move (hmove : Move c s e t) :
    t.created = s.created ∨
    exists thread addr, e = .register thread addr ∧ t.created = s.created ++ [addr] := by
  cases hmove with
  | granted hframe hstep =>
      rename_i charge pc counter
      cases charge <;> exact Or.inl rfl
  | refused hframe hstep =>
      rename_i charge pc counter
      cases charge <;> exact Or.inl rfl
  | credited hframe =>
      rename_i credit loop
      cases credit <;> exact Or.inl rfl
  | register hframe hfree hmutex => exact Or.inr ⟨_, _, rfl, rfl⟩
  | _ => exact Or.inl rfl

theorem created_prefix (hmove : Move c s e t) :
    exists added, t.created = s.created ++ added := by
  rcases created_of_move hmove with hsame | ⟨thread, target, _, happend⟩
  · exact ⟨[], by rw [hsame, List.append_nil]⟩
  · exact ⟨[target], happend⟩

/-!
# Sizes and charges
-/

/-- Every arena has the size that was charged for it. -/
def SizesCharged (s : State) : Prop :=
  forall addr arena, s.arenas.lookup addr = some arena -> arena.size = arena.charged

theorem sizesCharged_move (h : SizesCharged s) (hgrows : GrowsNothing s e)
    (hmove : Move c s e t) : SizesCharged t := by
  intro addr arena harena
  rcases arena_origin hmove harena with ⟨old, hold, hkept⟩ |
    ⟨old, n, he, hold, rfl⟩ | ⟨thread, _, _, _, hcharged, _⟩
  · rw [hkept.size, hkept.charged]
    exact h addr old hold
  · subst he
    have hgrown := growBy_of_nothing (hgrows old hold)
    dsimp only
    rw [hgrown]
    exact h addr old hold
  · exact hcharged.symm

end Steps

end FixedSizeHost
end Memory
end Cuda2Rocm
