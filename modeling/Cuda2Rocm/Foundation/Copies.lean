import Cuda2Rocm.Foundation.Chunks

/-!
# Copies laid end to end

A buffer that is filled by copying one piece of memory behind another.  What it holds
afterwards is the pieces one behind the other, as long as no piece lies in the part of
memory that is being written, and nothing else has changed.
-/

namespace Cuda2Rocm
namespace Foundation

variable {alpha : Type _}

/-- A part of memory, by its first address and its length. -/
structure Region where
  start : Nat
  length : Nat
deriving DecidableEq, Repr

namespace Region

/-- The two have no address in common. -/
def Apart (r other : Region) : Prop :=
  forall a, r.start ≤ a -> a < r.start + r.length ->
    ¬ (other.start ≤ a ∧ a < other.start + other.length)

/-- The one lies in the other. -/
def Within (r other : Region) : Prop :=
  other.start ≤ r.start ∧ r.start + r.length ≤ other.start + other.length

instance (r other : Region) : Decidable (r.Within other) :=
  inferInstanceAs (Decidable (_ ∧ _))

/-- What a memory holds there. -/
def contents (memory : Nat -> alpha) (r : Region) : List alpha :=
  window memory r.start r.length

theorem Apart.mono {r other part : Region} (h : r.Apart other) (hpart : part.Within other) :
    r.Apart part := by
  rcases hpart with ⟨hfirst, hlast⟩
  intro a hlow hhigh hin
  exact h a hlow hhigh ⟨Nat.le_trans hfirst hin.1, Nat.lt_of_lt_of_le hin.2 hlast⟩

/-- Two memories that agree on a region hold the same there. -/
theorem contents_congr {memory memory' : Nat -> alpha} {r : Region}
    (h : forall a, r.start ≤ a -> a < r.start + r.length -> memory a = memory' a) :
    r.contents memory = r.contents memory' := by
  apply List.map_congr_left
  intro a ha
  rcases List.mem_range'_1.mp ha with ⟨hlow, hhigh⟩
  exact h a hlow hhigh

end Region

/-- The memory after `length` cells were copied from one address to another. -/
def copyRegion (memory : Nat -> alpha) (dst : Nat) (src : Region) : Nat -> alpha :=
  fun a => if dst ≤ a ∧ a < dst + src.length then memory (src.start + (a - dst)) else memory a

theorem contents_copyRegion (memory : Nat -> alpha) (dst : Nat) (src : Region) :
    Region.contents (copyRegion memory dst src) ⟨dst, src.length⟩ = src.contents memory := by
  unfold Region.contents window
  rw [List.range'_eq_map_range, List.range'_eq_map_range, List.map_map, List.map_map]
  apply List.map_congr_left
  intro i hi
  have hlt : i < src.length := List.mem_range.mp hi
  change (if dst ≤ dst + i ∧ dst + i < dst + src.length then
    memory (src.start + (dst + i - dst)) else memory (dst + i)) = memory (src.start + i)
  rw [if_pos (by omega), Nat.add_sub_cancel_left]

theorem copyRegion_of_not_mem (memory : Nat -> alpha) {dst a : Nat} {src : Region}
    (ha : ¬ (dst ≤ a ∧ a < dst + src.length)) : copyRegion memory dst src a = memory a :=
  if_neg ha

theorem contents_copyRegion_of_apart (memory : Nat -> alpha) {dst : Nat} {src r : Region}
    (h : r.Apart ⟨dst, src.length⟩) :
    r.contents (copyRegion memory dst src) = r.contents memory :=
  Region.contents_congr fun a hlow hhigh => copyRegion_of_not_mem memory (h a hlow hhigh)

/-!
# Several pieces
-/

/-- The length of the pieces together. -/
def totalLength (pieces : List Region) : Nat := (pieces.map Region.length).sum

@[simp] theorem totalLength_cons (piece : Region) (rest : List Region) :
    totalLength (piece :: rest) = piece.length + totalLength rest := by
  simp [totalLength]

/-- Each piece copied behind the one before it. -/
def copyPieces (memory : Nat -> alpha) : Nat -> List Region -> Nat -> alpha
  | _, [] => memory
  | dst, piece :: rest =>
      copyPieces (copyRegion memory dst piece) (dst + piece.length) rest

/-- The regions that the copies write. -/
def destinations : Nat -> List Region -> List Region
  | _, [] => []
  | dst, piece :: rest =>
      ⟨dst, piece.length⟩ :: destinations (dst + piece.length) rest

theorem copyPieces_of_not_mem (pieces : List Region) {a : Nat} :
    forall (memory : Nat -> alpha) {dst : Nat},
      ¬ (dst ≤ a ∧ a < dst + totalLength pieces) ->
        copyPieces memory dst pieces a = memory a := by
  induction pieces with
  | nil => exact fun _ _ _ => rfl
  | cons piece rest ih =>
      intro memory dst ha
      rw [totalLength_cons] at ha
      have hrest : copyPieces (copyRegion memory dst piece) (dst + piece.length) rest a =
          copyRegion memory dst piece a := ih _ (by omega)
      exact hrest.trans (copyRegion_of_not_mem memory (by omega))

theorem contents_copyPieces_of_apart (memory : Nat -> alpha) {dst : Nat}
    {pieces : List Region} {r : Region} (h : r.Apart ⟨dst, totalLength pieces⟩) :
    r.contents (copyPieces memory dst pieces) = r.contents memory :=
  Region.contents_congr fun a hlow hhigh =>
    copyPieces_of_not_mem pieces memory (h a hlow hhigh)

/-- The destination holds the pieces one behind the other. -/
theorem contents_copyPieces (pieces : List Region) :
    forall (memory : Nat -> alpha) {dst : Nat},
      (forall piece, piece ∈ pieces -> piece.Apart ⟨dst, totalLength pieces⟩) ->
        Region.contents (copyPieces memory dst pieces) ⟨dst, totalLength pieces⟩ =
          pieces.flatMap (fun piece => piece.contents memory) := by
  induction pieces with
  | nil => exact fun _ _ _ => rfl
  | cons piece rest ih =>
      intro memory dst hapart
      rw [totalLength_cons] at hapart ⊢
      let copied := copyRegion memory dst piece
      have hfirst : Region.contents (copyPieces copied (dst + piece.length) rest)
          ⟨dst, piece.length⟩ = piece.contents memory := by
        rw [contents_copyPieces_of_apart copied]
        · exact contents_copyRegion memory dst piece
        · intro a hlow hhigh hin
          change dst ≤ a at hlow
          change a < dst + piece.length at hhigh
          change dst + piece.length ≤ a ∧ _ at hin
          omega
      have hkept : forall other, other ∈ rest ->
          other.contents copied = other.contents memory := by
        intro other hother
        apply contents_copyRegion_of_apart memory
        apply (hapart other (List.mem_cons_of_mem _ hother)).mono
        exact ⟨Nat.le_refl _, by simp⟩
      have hlater : Region.contents (copyPieces copied (dst + piece.length) rest)
          ⟨dst + piece.length, totalLength rest⟩ =
            rest.flatMap (fun other => other.contents copied) := by
        apply ih copied
        intro other hother
        apply (hapart other (List.mem_cons_of_mem _ hother)).mono
        exact ⟨by simp, by simp only; omega⟩
      rw [List.flatMap_cons, ← hfirst, ← List.flatMap_congr hkept, ← hlater]
      exact (window_append _ dst piece.length (totalLength rest)).symm

/-- A piece lies behind those copied before it. -/
theorem contents_copyPieces_at {first rest : List Region} {piece : Region}
    (memory : Nat -> alpha) {dst : Nat}
    (hapart : forall other, other ∈ first ++ piece :: rest ->
      other.Apart ⟨dst, totalLength (first ++ piece :: rest)⟩) :
    Region.contents (copyPieces memory dst (first ++ piece :: rest))
      ⟨dst + totalLength first, piece.length⟩ = piece.contents memory := by
  induction first generalizing memory dst with
  | nil =>
      change Region.contents (copyPieces (copyRegion memory dst piece) _ rest) ⟨dst, _⟩ = _
      rw [contents_copyPieces_of_apart]
      · exact contents_copyRegion memory dst piece
      · intro a hlow hhigh hin
        simp only at hlow hhigh hin
        omega
  | cons other first ih =>
      rw [List.cons_append, totalLength_cons] at hapart
      have hlater : forall r, r ∈ first ++ piece :: rest ->
          r.Apart ⟨dst + other.length, totalLength (first ++ piece :: rest)⟩ := by
        intro r hr
        apply (hapart r (List.mem_cons_of_mem _ hr)).mono
        exact ⟨Nat.le_add_right _ _, by simp only; omega⟩
      have hkept : piece.contents (copyRegion memory dst other) = piece.contents memory := by
        apply contents_copyRegion_of_apart
        apply (hapart piece (by simp)).mono
        exact ⟨Nat.le_refl _, by simp⟩
      rw [totalLength_cons, ← Nat.add_assoc, ← hkept]
      exact ih (copyRegion memory dst other) hlater

/-- All copies stay in the destination. -/
theorem within_of_mem_destinations (pieces : List Region) : forall {dst : Nat} {r : Region},
    r ∈ destinations dst pieces -> r.Within ⟨dst, totalLength pieces⟩ := by
  induction pieces with
  | nil => exact fun h => absurd h List.not_mem_nil
  | cons piece rest ih =>
      intro dst r hr
      rw [totalLength_cons]
      rcases List.mem_cons.mp hr with rfl | hlater
      · exact ⟨Nat.le_refl _, by simp⟩
      · rcases ih hlater with ⟨hlow, hhigh⟩
        simp only at hlow hhigh
        exact ⟨by simp only; omega, by simp only; omega⟩

/-- The last piece ends where the destination ends. -/
theorem exists_mem_destinations_end (pieces : List Region) : forall (dst : Nat),
    pieces ≠ [] -> exists r, r ∈ destinations dst pieces ∧
      r.start + r.length = dst + totalLength pieces := by
  induction pieces with
  | nil => exact fun _ h => absurd rfl h
  | cons piece rest ih =>
      intro dst _
      rw [totalLength_cons]
      by_cases hrest : rest = []
      · subst hrest
        exact ⟨_, List.mem_cons_self, by simp [totalLength]⟩
      · rcases ih (dst + piece.length) hrest with ⟨r, hr, hend⟩
        exact ⟨r, List.mem_cons_of_mem _ hr, by omega⟩

end Foundation
end Cuda2Rocm
