/-!
# Matchings

Two partial maps that point at each other: an item knows the party that holds it,
and a party knows the item it holds, with the same note on both sides.
-/

namespace Cuda2Rocm
namespace Foundation

variable {item : Type _} {party : Type _} {note : Type _}

/-- Every item knows its holder and every holder its item. -/
def Matching (holder : item -> Option (party × note))
    (holding : party -> Option (item × note)) : Prop :=
  forall i p n, holder i = some (p, n) <-> holding p = some (i, n)

namespace Matching

variable {holder holder' : item -> Option (party × note)}
  {holding holding' : party -> Option (item × note)}

/-- A free item and an idle party can be matched. -/
theorem link [DecidableEq item] [DecidableEq party] (h : Matching holder holding)
    {i : item} {p : party} {n : note} (hitem : holder i = none)
    (hparty : holding p = none)
    (hholder : forall j, holder' j = if j = i then some (p, n) else holder j)
    (hholding : forall q, holding' q = if q = p then some (i, n) else holding q) :
    Matching holder' holding' := by
  intro j q m
  rw [hholder, hholding]
  by_cases hj : j = i
  · subst hj
    by_cases hq : q = p
    · subst hq
      simp
    · have hother := not_congr (h j q m)
      rw [hitem] at hother
      simp only [if_true, if_neg hq]
      constructor
      · intro heq
        cases heq
        exact absurd rfl hq
      · intro heq
        exact absurd heq (hother.mp (by simp))
  · by_cases hq : q = p
    · subst hq
      have hother := not_congr (h j q m)
      rw [hparty] at hother
      simp only [if_true, if_neg hj]
      constructor
      · intro heq
        exact absurd heq (hother.mpr (by simp))
      · intro heq
        cases heq
        exact absurd rfl hj
    · rw [if_neg hj, if_neg hq]
      exact h j q m

/-- A matched pair can part. -/
theorem unlink [DecidableEq item] [DecidableEq party] (h : Matching holder holding)
    {i : item} {p : party} {n : note} (hpair : holding p = some (i, n))
    (hholder : forall j, holder' j = if j = i then none else holder j)
    (hholding : forall q, holding' q = if q = p then none else holding q) :
    Matching holder' holding' := by
  intro j q m
  rw [hholder, hholding]
  have hitem := (h i p n).mpr hpair
  by_cases hj : j = i
  · subst hj
    by_cases hq : q = p
    · simp [hq]
    · simp only [if_true, if_neg hq]
      constructor
      · intro heq
        cases heq
      · intro heq
        have hsame := (h j q m).mpr heq
        rw [hitem] at hsame
        cases hsame
        exact absurd rfl hq
  · by_cases hq : q = p
    · subst hq
      simp only [if_true, if_neg hj]
      constructor
      · intro heq
        have hsame := (h j q m).mp heq
        rw [hpair] at hsame
        cases hsame
        exact absurd rfl hj
      · intro heq
        cases heq
    · rw [if_neg hj, if_neg hq]
      exact h j q m

theorem congr (h : Matching holder holding) (hholder : forall j, holder' j = holder j)
    (hholding : forall q, holding' q = holding q) : Matching holder' holding' := by
  intro j q m
  rw [hholder, hholding]
  exact h j q m

end Matching

end Foundation
end Cuda2Rocm
