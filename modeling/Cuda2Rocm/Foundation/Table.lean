import Mathlib.Algebra.BigOperators.Group.List.Basic
import Mathlib.Algebra.BigOperators.Group.Multiset.Basic
import Mathlib.Algebra.Order.BigOperators.Group.List
import Mathlib.Algebra.Order.Monoid.Canonical.Defs
import Mathlib.Data.Fintype.EquivFin
import Mathlib.Data.List.AList

/-!
# Finite tables and their totals

A table is an association list without repeated keys.  Lookup, insertion and
erasure are those of association lists; this module adds totals of a quantity
over all entries and how one insertion or erasure moves them.
-/

namespace Cuda2Rocm
namespace Foundation

/-- A finite table from keys to values, each key at most once. -/
def Table (key : Type _) (value : Type _) := AList (fun _ : key => value)

namespace Table

variable {key value : Type _} {total : Type _}

/-- The table without entries. -/
def empty : Table key value := (∅ : AList (fun _ : key => value))

/-- Total of a quantity over all entries. -/
def sum [AddCommMonoid total] (table : Table key value)
    (f : key -> value -> total) : total :=
  (table.entries.map (fun entry => f entry.1 entry.2)).sum

/-- The values of all entries, in the order of the table. -/
def values (table : Table key value) : List value := table.entries.map Sigma.snd

section Totals

variable [AddCommMonoid total]

@[simp] theorem sum_empty (f : key -> value -> total) :
    (empty : Table key value).sum f = 0 := rfl

theorem sum_add (f g : key -> value -> total) (table : Table key value) :
    table.sum (fun k v => f k v + g k v) = table.sum f + table.sum g := by
  unfold sum
  induction table.entries with
  | nil => simp
  | cons entry rest ih =>
      simp only [List.map_cons, List.sum_cons, ih]
      rw [add_add_add_comm]

theorem map_sum {other : Type _} [AddCommMonoid other] (g : total →+ other)
    (f : key -> value -> total) (table : Table key value) :
    g (table.sum f) = table.sum (fun k v => g (f k v)) := by
  unfold sum
  induction table.entries with
  | nil => simp
  | cons entry rest ih =>
      simp only [List.map_cons, List.sum_cons, map_add, ih]

theorem sum_zero (table : Table key value) :
    table.sum (fun _ _ => (0 : total)) = 0 := by
  unfold sum
  induction table.entries with
  | nil => rfl
  | cons entry rest ih => simp

theorem sum_comm {key' value' : Type _} (first : Table key value) (second : Table key' value')
    (f : key -> value -> key' -> value' -> total) :
    first.sum (fun k v => second.sum (fun k' v' => f k v k' v')) =
      second.sum (fun k' v' => first.sum (fun k v => f k v k' v')) := by
  unfold sum
  induction first.entries with
  | nil => exact (sum_zero second).symm
  | cons entry rest ih =>
      simp only [List.map_cons, List.sum_cons]
      rw [ih]
      exact (sum_add (fun k' v' => f entry.1 entry.2 k' v')
        (fun k' v' => (rest.map (fun other => f other.1 other.2 k' v')).sum) second).symm

end Totals

/-- All entries of a table. -/
def pairs (table : Table key value) : Multiset (key × value) :=
  table.sum (fun k v => {(k, v)})

private theorem mem_sum_singletons {pair : key × value} :
    forall {entries : List (Sigma fun _ : key => value)},
      pair ∈ (entries.map (fun entry =>
        ({(entry.1, entry.2)} : Multiset (key × value)))).sum <->
        (⟨pair.1, pair.2⟩ : Sigma fun _ : key => value) ∈ entries
  | [] => by simp
  | ⟨k, v⟩ :: rest => by
      rw [List.map_cons, List.sum_cons, Multiset.mem_add, mem_sum_singletons,
        List.mem_cons, Multiset.mem_singleton]
      apply or_congr_left
      rcases pair with ⟨k', v'⟩
      simp

variable [DecidableEq key]

/-- The value stored under a key. -/
def lookup (table : Table key value) (k : key) : Option value :=
  AList.lookup k table

/-- Store a value under a key, replacing what was there. -/
def insert (table : Table key value) (k : key) (v : value) : Table key value :=
  AList.insert k v table

/-- Drop the entry at a key. -/
def erase (table : Table key value) (k : key) : Table key value :=
  AList.erase k table

@[simp] theorem lookup_empty (k : key) :
    (empty : Table key value).lookup k = none := rfl

/-- There is always a key that is not in use. -/
theorem exists_free [Infinite key] (table : Table key value) :
    exists k, table.lookup k = none := by
  rcases Infinite.exists_notMem_finset table.keys.toFinset with ⟨k, hk⟩
  refine ⟨k, AList.lookup_eq_none.mpr ?_⟩
  exact fun hmem => hk (List.mem_toFinset.mpr (AList.mem_keys.mp hmem))

theorem lookup_insert (table : Table key value) (k k' : key) (v : value) :
    (table.insert k v).lookup k' =
      if k' = k then some v else table.lookup k' := by
  by_cases h : k' = k
  · rw [if_pos h, h]
    exact AList.lookup_insert table
  · rw [if_neg h]
    exact AList.lookup_insert_ne h

@[simp] theorem lookup_insert_self (table : Table key value) (k : key) (v : value) :
    (table.insert k v).lookup k = some v :=
  AList.lookup_insert table

theorem lookup_insert_ne {k k' : key} (h : k' ≠ k) (table : Table key value)
    (v : value) : (table.insert k v).lookup k' = table.lookup k' :=
  AList.lookup_insert_ne h

theorem lookup_erase (table : Table key value) (k k' : key) :
    (table.erase k).lookup k' = if k' = k then none else table.lookup k' := by
  by_cases h : k' = k
  · rw [if_pos h, h]
    exact AList.lookup_erase k table
  · rw [if_neg h]
    exact AList.lookup_erase_ne h

@[simp] theorem lookup_erase_self (table : Table key value) (k : key) :
    (table.erase k).lookup k = none :=
  AList.lookup_erase k table

theorem lookup_erase_ne {k k' : key} (h : k' ≠ k) (table : Table key value) :
    (table.erase k).lookup k' = table.lookup k' :=
  AList.lookup_erase_ne h

theorem lookup_of_lookup_erase {k k' : key} {v : value} {table : Table key value}
    (h : (table.erase k).lookup k' = some v) :
    k' ≠ k ∧ table.lookup k' = some v := by
  rw [lookup_erase] at h
  split at h
  · cases h
  · rename_i hne
    exact ⟨hne, h⟩

theorem lookup_of_lookup_insert {k k' : key} {v v' : value}
    {table : Table key value} (h : (table.insert k v).lookup k' = some v') :
    (k' = k ∧ v' = v) ∨ (k' ≠ k ∧ table.lookup k' = some v') := by
  rw [lookup_insert] at h
  split at h
  · rename_i heq
    exact Or.inl ⟨heq, (Option.some.inj h).symm⟩
  · rename_i hne
    exact Or.inr ⟨hne, h⟩

theorem erase_eq_self {k : key} {table : Table key value}
    (h : table.lookup k = none) : table.erase k = table := by
  apply AList.ext
  exact List.kerase_of_notMem_keys (AList.lookup_eq_none.mp h)

theorem mem_pairs {k : key} {v : value} {table : Table key value} :
    (k, v) ∈ table.pairs <-> table.lookup k = some v := by
  unfold pairs sum
  rw [mem_sum_singletons]
  exact (List.mem_dlookup_iff table.nodupKeys).symm

theorem mem_values {v : value} {table : Table key value} :
    v ∈ table.values <-> exists k, table.lookup k = some v := by
  unfold values
  rw [List.mem_map]
  constructor
  · rintro ⟨⟨k, _⟩, hentry, rfl⟩
    exact ⟨k, (List.mem_dlookup_iff table.nodupKeys).mpr hentry⟩
  · rintro ⟨k, hk⟩
    exact ⟨⟨k, v⟩, (List.mem_dlookup_iff table.nodupKeys).mp hk, rfl⟩

/-!
# Relations between entries
-/

/-- A relation that holds between every two entries at different keys. -/
def Pairwise (related : value -> value -> Prop) (table : Table key value) : Prop :=
  forall i j v w, i ≠ j -> table.lookup i = some v -> table.lookup j = some w ->
    related v w

theorem pairwise_empty (related : value -> value -> Prop) :
    (empty : Table key value).Pairwise related := by
  intro i j v w _ hv _
  cases hv

/-- The values of the entries, in the order of the table, are related as the entries are. -/
theorem pairwise_values {related : value -> value -> Prop} {table : Table key value}
    (h : table.Pairwise related) : table.values.Pairwise related := by
  unfold values
  rw [List.pairwise_map]
  have hkeys := List.nodupKeys_iff_pairwise.mp table.nodupKeys
  apply hkeys.imp_of_mem
  intro first second hfirst hsecond hne
  exact h first.1 second.1 first.2 second.2 hne
    ((List.mem_dlookup_iff table.nodupKeys).mpr hfirst)
    ((List.mem_dlookup_iff table.nodupKeys).mpr hsecond)

theorem pairwise_erase {related : value -> value -> Prop}
    {table : Table key value} (h : table.Pairwise related) (k : key) :
    (table.erase k).Pairwise related := by
  intro i j v w hne hv hw
  exact h i j v w hne (lookup_of_lookup_erase hv).right
    (lookup_of_lookup_erase hw).right

/-- An insertion keeps a symmetric relation when the new entry is related to all
entries at other keys, and only then. -/
theorem pairwise_insert_iff {related : value -> value -> Prop}
    (hsymm : forall v w, related v w -> related w v)
    {table : Table key value} (h : table.Pairwise related) (k : key) (v : value) :
    (table.insert k v).Pairwise related <->
      forall j w, j ≠ k -> table.lookup j = some w -> related v w := by
  constructor
  · intro hnew j w hne hw
    apply hnew k j v w (Ne.symm hne) (lookup_insert_self table k v)
    rw [lookup_insert_ne hne]
    exact hw
  · intro hnew i j first second hne hfirst hsecond
    rcases lookup_of_lookup_insert hfirst with ⟨hi, rfl⟩ | ⟨hi, hold⟩
    · rcases lookup_of_lookup_insert hsecond with ⟨hj, _⟩ | ⟨hj, hother⟩
      · exact absurd (hi.trans hj.symm) hne
      · exact hnew j second hj hother
    · rcases lookup_of_lookup_insert hsecond with ⟨_, rfl⟩ | ⟨_, hother⟩
      · exact hsymm _ _ (hnew i first hi hold)
      · exact h i j first second hne hold hother

/-!
# Totals under insertion and erasure
-/

section Totals

variable [AddCommMonoid total]

theorem sum_insert (table : Table key value) (k : key) (v : value)
    (f : key -> value -> total) :
    (table.insert k v).sum f = f k v + (table.erase k).sum f := by
  have hentries : (AList.insert k v table).entries =
      ⟨k, v⟩ :: List.kerase k table.entries := AList.entries_insert
  unfold sum insert
  rw [hentries, List.map_cons, List.sum_cons]
  rfl

private theorem sum_kerase {k : key} {v : value} (f : key -> value -> total) :
    forall {entries : List (Sigma fun _ : key => value)},
      entries.dlookup k = some v ->
      (entries.map (fun entry => f entry.1 entry.2)).sum =
        f k v + ((entries.kerase k).map (fun entry => f entry.1 entry.2)).sum
  | [], h => by cases h
  | ⟨k', v'⟩ :: rest, h => by
      by_cases hk : k = k'
      · subst hk
        rw [List.dlookup_cons_eq] at h
        cases h
        simp
      · rw [List.dlookup_cons_ne _ _ hk] at h
        rw [List.kerase_cons_ne hk, List.map_cons, List.sum_cons, List.map_cons,
          List.sum_cons, sum_kerase f h, add_left_comm]

/-- The total splits into the entry at a key and all others. -/
theorem sum_of_lookup {k : key} {v : value} {table : Table key value}
    (h : table.lookup k = some v) (f : key -> value -> total) :
    table.sum f = f k v + (table.erase k).sum f :=
  sum_kerase f h

theorem sum_insert_of_none {k : key} {table : Table key value}
    (h : table.lookup k = none) (v : value) (f : key -> value -> total) :
    (table.insert k v).sum f = f k v + table.sum f := by
  rw [sum_insert, erase_eq_self h]

theorem sum_congr {f g : key -> value -> total} {table : Table key value}
    (h : forall k v, table.lookup k = some v -> f k v = g k v) :
    table.sum f = table.sum g := by
  unfold sum
  congr 1
  apply List.map_congr_left
  intro entry hentry
  exact h entry.1 entry.2 ((List.mem_dlookup_iff table.nodupKeys).mpr hentry)

/-- Quantities that differ at one key only differ in total by their shares there. -/
theorem sum_change {k : key} {v : value} {table : Table key value}
    (h : table.lookup k = some v) {f g : key -> value -> total}
    (hsame : forall k' v', k' ≠ k -> f k' v' = g k' v') :
    table.sum g + f k v = table.sum f + g k v := by
  have hrest : (table.erase k).sum f = (table.erase k).sum g :=
    sum_congr (fun k' v' hlookup => hsame k' v' (lookup_of_lookup_erase hlookup).left)
  rw [sum_of_lookup h f, sum_of_lookup h g, hrest, add_right_comm, add_comm (g k v),
    add_right_comm]

/-- The same when the entry at the key is replaced as well. -/
theorem sum_insert_change {k : key} {old : value} {table : Table key value}
    (h : table.lookup k = some old) (v : value) {f g : key -> value -> total}
    (hsame : forall k' v', k' ≠ k -> f k' v' = g k' v') :
    (table.insert k v).sum g + f k old = table.sum f + g k v := by
  have hrest : (table.erase k).sum f = (table.erase k).sum g :=
    sum_congr (fun k' v' hlookup => hsame k' v' (lookup_of_lookup_erase hlookup).left)
  rw [sum_insert, sum_of_lookup h f, hrest, add_right_comm, add_comm (g k v),
    add_right_comm]

/-- Replacing an entry trades its old share of the total for the new one. -/
theorem sum_replace {k : key} {old : value} {table : Table key value}
    (h : table.lookup k = some old) (v : value) (f : key -> value -> total) :
    (table.insert k v).sum f + f k old = table.sum f + f k v :=
  sum_insert_change h v (fun _ _ _ => rfl)

/-- Total over the entries whose keys are not on a list. -/
def sumExcept (table : Table key value) (gone : List key) (f : key -> value -> total) :
    total :=
  table.sum (fun k v => if k ∈ gone then 0 else f k v)

/-- A key that joins the list takes its share along. -/
theorem sumExcept_concat {k : key} {v : value} {table : Table key value} {gone : List key}
    (h : table.lookup k = some v) (hk : k ∉ gone) (f : key -> value -> total) :
    table.sumExcept (gone ++ [k]) f + f k v = table.sumExcept gone f := by
  have hsame : forall k' (v' : value), k' ≠ k ->
      (if k' ∈ gone then 0 else f k' v') = (if k' ∈ gone ++ [k] then 0 else f k' v') := by
    intro k' v' hne
    simp [hne]
  have hchange := sum_change h hsame
  rw [if_neg hk, if_pos (by simp), add_zero] at hchange
  exact hchange

theorem sumExcept_insert_of_none {k : key} {table : Table key value} {gone : List key}
    (h : table.lookup k = none) (hk : k ∉ gone) (v : value) (f : key -> value -> total) :
    (table.insert k v).sumExcept gone f = f k v + table.sumExcept gone f := by
  unfold sumExcept
  rw [sum_insert_of_none h, if_neg hk]

end Totals

/-!
# Totals over two tables
-/

section Nested

variable [AddCommMonoid total] {key' value' : Type _}

/-- A quantity that is 0 at every other key. -/
theorem sum_at (table : Table key value) (k : key) (f : value -> total) :
    table.sum (fun k' v => if k' = k then f v else 0) =
      match table.lookup k with
      | none => 0
      | some v => f v := by
  cases hlookup : table.lookup k with
  | none =>
      refine (sum_congr ?_).trans (sum_zero table)
      intro k' v hv
      rw [if_neg]
      rintro rfl
      rw [hlookup] at hv
      cases hv
  | some v =>
      rw [sum_of_lookup hlookup, if_pos rfl]
      have hrest : (table.erase k).sum (fun k' v => if k' = k then f v else 0) = 0 := by
        refine (sum_congr ?_).trans (sum_zero (table.erase k))
        intro k' v' hv
        rw [if_neg (lookup_of_lookup_erase hv).left]
      rw [hrest, add_zero]

/-- The entry of a table that an entry of another belongs to, if there is one. -/
def houses (table : Table key value) (home : value' -> Option key)
    (belongs : value -> value' -> Bool) (v' : value') : Bool :=
  match home v' with
  | none => false
  | some k =>
      match table.lookup k with
      | none => false
      | some v => belongs v v'

/-- A total over one table splits by the entries of another: into what belongs to
each of them, and what belongs to none. -/
theorem sum_by_home [DecidableEq key'] (table : Table key value) (second : Table key' value')
    (home : value' -> Option key) (belongs : value -> value' -> Bool)
    (f : value' -> total) :
    table.sum (fun k v => second.sum (fun _ v' =>
        if home v' = some k ∧ belongs v v' = true then f v' else 0)) +
      second.sum (fun _ v' => if table.houses home belongs v' then 0 else f v') =
      second.sum (fun _ v' => f v') := by
  rw [sum_comm, ← sum_add]
  apply sum_congr
  intro k' v' _
  unfold houses
  cases hhome : home v' with
  | none =>
      have hzero : table.sum (fun k v =>
          if (none : Option key) = some k ∧ belongs v v' = true then f v' else 0) = 0 := by
        refine (sum_congr ?_).trans (sum_zero table)
        intro k v _
        rw [if_neg]
        rintro ⟨hnone, _⟩
        cases hnone
      rw [hzero, zero_add]
      simp
  | some k =>
      have hone : table.sum (fun k₁ v =>
          if some k = some k₁ ∧ belongs v v' = true then f v' else 0) =
          table.sum (fun k₁ v => if k₁ = k then
            (if belongs v v' = true then f v' else 0) else 0) := by
        apply sum_congr
        intro k₁ v _
        by_cases hk : k₁ = k
        · simp [hk]
        · rw [if_neg hk, if_neg]
          rintro ⟨heq, _⟩
          exact hk (Option.some.inj heq).symm
      rw [hone, sum_at]
      dsimp only
      rcases Option.eq_none_or_eq_some (table.lookup k) with hlookup | ⟨v, hlookup⟩
      · simp [hlookup]
      · by_cases hbelongs : belongs v v' = true
        · simp [hlookup, hbelongs]
        · simp [hlookup, hbelongs]

end Nested

section OrderedTotals

variable [AddCommMonoid total] [PartialOrder total]

theorem sum_le_sum [IsOrderedAddMonoid total] {f g : key -> value -> total}
    {table : Table key value}
    (h : forall k v, table.lookup k = some v -> f k v ≤ g k v) :
    table.sum f ≤ table.sum g := by
  unfold sum
  apply List.sum_le_sum
  intro entry hentry
  exact h entry.1 entry.2 ((List.mem_dlookup_iff table.nodupKeys).mpr hentry)

theorem le_sum [CanonicallyOrderedAdd total] {k : key} {v : value}
    {table : Table key value} (h : table.lookup k = some v)
    (f : key -> value -> total) : f k v ≤ table.sum f := by
  rw [sum_of_lookup h f]
  exact le_self_add

end OrderedTotals

end Table

end Foundation
end Cuda2Rocm
