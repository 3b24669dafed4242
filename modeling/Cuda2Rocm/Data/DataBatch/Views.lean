import Cuda2Rocm.Data.DataBatch.Model

/-!
# Exclusive access of mutable views

The flag of the batch admits a mutable view while read-only ones are out, and the
other way round.  This module says which calls keep a mutable view alone.
-/

namespace Cuda2Rocm
namespace Data
namespace DataBatch

open Foundation

/-!
# What a call does
-/

theorem step_toReadOnly {s t : Run} {new : ViewId}
    (h : step s (.toReadOnly new) = some t) :
    s.views.lookup new = none ∧ t = s.acquire new s.batch.toReadOnly := by
  simp only [step] at h
  split at h
  · rename_i hnew
    exact ⟨hnew, (Option.some.inj h).symm⟩
  · cases h

theorem step_toMutable {s t : Run} {new : ViewId}
    (h : step s (.toMutable new) = some t) :
    s.views.lookup new = none ∧ t = s.acquire new s.batch.toMutable := by
  simp only [step] at h
  split at h
  · rename_i hnew
    exact ⟨hnew, (Option.some.inj h).symm⟩
  · cases h

theorem step_copy {s t : Run} {source target : ViewId}
    (h : step s (.copy source target) = some t) :
    exists held, s.views.lookup source = some held ∧ held.view.kind = .readOnly ∧
      t = { s with views := s.views.insert target held } := by
  simp only [step] at h
  split at h
  · cases h
  · rename_i held hsource
    split at h
    · rename_i hguard
      exact ⟨held, hsource, hguard.left, (Option.some.inj h).symm⟩
    · cases h

theorem step_move {s t : Run} {source target : ViewId}
    (h : step s (.move source target) = some t) :
    exists held, s.views.lookup source = some held ∧
      ((source = target ∧ t = s) ∨
       (source ≠ target ∧
        t = { s with
              views := (s.views.insert source
                { held with view := held.view.movedFrom, emptied := true }).insert
                  target held })) := by
  simp only [step] at h
  split at h
  · cases h
  · rename_i held hsource
    refine ⟨held, hsource, ?_⟩
    split at h
    · rename_i hsame
      exact Or.inl ⟨hsame, (Option.some.inj h).symm⟩
    · rename_i hne
      split at h
      · exact Or.inr ⟨hne, (Option.some.inj h).symm⟩
      · cases h

theorem step_readonlyToMutable {s t : Run} {source new : ViewId}
    (h : step s (.readonlyToMutable source new) = some t) :
    exists held, s.views.lookup source = some held ∧ held.view.kind = .readOnly ∧
      s.views.lookup new = none ∧
      t = s.convert held new held.view.readonlyToMutable := by
  simp only [step] at h
  split at h
  · cases h
  · rename_i held hsource
    split at h
    · rename_i hguard
      exact ⟨held, hsource, hguard.left, hguard.right, (Option.some.inj h).symm⟩
    · cases h

theorem step_mutableToReadonly {s t : Run} {source new : ViewId}
    (h : step s (.mutableToReadonly source new) = some t) :
    exists held, s.views.lookup source = some held ∧ held.view.kind = .mutable ∧
      s.views.lookup new = none ∧
      t = s.convert held new held.view.mutableToReadonly := by
  simp only [step] at h
  split at h
  · cases h
  · rename_i held hsource
    split at h
    · rename_i hguard
      exact ⟨held, hsource, hguard.left, hguard.right, (Option.some.inj h).symm⟩
    · cases h

theorem step_setData {s t : Run} {target : ViewId} {null : Bool}
    (h : step s (.setData target null) = some t) :
    exists held, s.views.lookup target = some held ∧ held.view.kind = .mutable ∧
      t = { s with
            views := s.views.insert target
              { view := held.view.setData (if null then none else some s.nextRef)
                emptied := false
                obtained := s.sets + 1 }
            latest := if null then none else some s.nextRef
            sets := s.sets + 1
            nextRef := s.nextRef + 1 } := by
  simp only [step] at h
  split at h
  · cases h
  · rename_i held htarget
    split at h
    · rename_i hkind
      exact ⟨held, htarget, hkind, (Option.some.inj h).symm⟩
    · cases h

theorem addClone_frame (s : Run) (source : View) (result : Except String Batch) :
    (s.addClone source result).views = s.views ∧
      (s.addClone source result).batch = s.batch ∧
      (s.addClone source result).latest = s.latest ∧
      (s.addClone source result).sets = s.sets := by
  cases result with
  | error text => exact ⟨rfl, rfl, rfl, rfl⟩
  | ok batch => exact ⟨rfl, rfl, rfl, rfl⟩

theorem step_clone {s t : Run} {source : ViewId} {newBatchId : UInt64}
    (h : step s (.clone source newBatchId) = some t) :
    exists held, s.views.lookup source = some held ∧
      t = s.addClone held.view (held.view.clone newBatchId s.nextRef) := by
  simp only [step] at h
  split at h
  · cases h
  · rename_i held hsource
    split at h
    · exact ⟨held, hsource, (Option.some.inj h).symm⟩
    · cases h

theorem step_cloneTo {s t : Run} {source : ViewId} {newBatchId : UInt64}
    {targetSpace : Option Nat} {failure : Option String}
    (h : step s (.cloneTo source newBatchId targetSpace failure) = some t) :
    exists held result, s.views.lookup source = some held ∧
      t = s.addClone held.view result := by
  simp only [step] at h
  split at h
  · cases h
  · rename_i held hsource
    exact ⟨held, _, hsource, (Option.some.inj h).symm⟩

theorem step_destroy {s t : Run} {target : ViewId}
    (h : step s (.destroy target) = some t) :
    t = { s with views := s.views.erase target } := by
  simp only [step] at h
  split at h
  · cases h
  · exact (Option.some.inj h).symm

/-!
# Exclusiveness
-/

/-- No live mutable view has another live view beside it. -/
def Exclusive (s : Run) : Prop :=
  ¬ exists i j mutableView other, i ≠ j ∧
    s.views.lookup i = some mutableView ∧ s.views.lookup j = some other ∧
    mutableView.live ∧ mutableView.view.kind = .mutable ∧ other.live

/-- Two views that may be alive at once. -/
def Held.Shares (first second : Held) : Prop :=
  first.live -> second.live ->
    first.view.kind = .readOnly ∧ second.view.kind = .readOnly

theorem Held.Shares.symm {first second : Held} (h : first.Shares second) :
    second.Shares first :=
  fun hsecond hfirst => (h hfirst hsecond).symm

theorem ViewKind.readOnly_iff {kind : ViewKind} :
    kind = .readOnly <-> kind ≠ .mutable := by
  cases kind <;> simp

theorem exclusive_iff_pairwise {s : Run} :
    Exclusive s <-> s.views.Pairwise Held.Shares := by
  constructor
  · intro h i j first second hne hi hj hfirst hsecond
    constructor
    · apply ViewKind.readOnly_iff.mpr
      intro hkind
      exact h ⟨i, j, first, second, hne, hi, hj, hfirst, hkind, hsecond⟩
    · apply ViewKind.readOnly_iff.mpr
      intro hkind
      exact h ⟨j, i, second, first, Ne.symm hne, hj, hi, hsecond, hkind, hfirst⟩
  · rintro h ⟨i, j, mutableView, other, hne, hi, hj, hmutable, hkind, hother⟩
    have hshare := (h i j mutableView other hne hi hj hmutable hother).left
    rw [hkind] at hshare
    cases hshare

def NoLiveView (s : Run) : Prop :=
  forall i held, s.views.lookup i = some held -> ¬ held.live

def NoLiveMutable (s : Run) : Prop :=
  forall i held, s.views.lookup i = some held -> held.live ->
    held.view.kind = .readOnly

/-- The view was moved from. -/
def IsEmptied (s : Run) (view : ViewId) : Prop :=
  forall held, s.views.lookup view = some held -> ¬ held.live

/--
The calls that leave a mutable view alone.  Those the flag refuses change nothing,
copies and moves add no kind of access, and a conversion beside its own source is
harmless only when the source was moved from.
-/
def Admissible (s : Run) : Event -> Prop
  | .toReadOnly _ => s.batch.state ≠ .readOnly -> NoLiveMutable s
  | .toMutable _ => s.batch.state ≠ .mutableLocked -> NoLiveView s
  | .readonlyToMutable source _ => IsEmptied s source
  | .mutableToReadonly source _ => IsEmptied s source
  | .setData target _ => IsEmptied s target -> NoLiveView s
  | _ => True

section Steps

variable {s t : Run}

/-- A view put beside the others keeps exclusiveness when it shares with each. -/
theorem exclusive_insert_iff (hinv : Exclusive s) (k : ViewId) (held : Held) :
    (s.views.insert k held).Pairwise Held.Shares <->
      forall j other, j ≠ k -> s.views.lookup j = some other -> held.Shares other :=
  Table.pairwise_insert_iff (fun _ _ h => h.symm) (exclusive_iff_pairwise.mp hinv)
    k held

theorem exclusive_acquire_readOnly (hinv : Exclusive s) {new : ViewId}
    (hnew : s.views.lookup new = none) :
    Exclusive (s.acquire new s.batch.toReadOnly) <->
      (s.batch.state ≠ .readOnly -> NoLiveMutable s) := by
  rcases s.batch.toReadOnly_cases with ⟨hstate, text, hthrow⟩ | ⟨hstate, hok⟩
  · rw [hthrow]
    exact ⟨fun _ hne => absurd hstate hne, fun _ => hinv⟩
  · rw [hok, exclusive_iff_pairwise]
    refine (exclusive_insert_iff hinv new _).trans ?_
    constructor
    · intro h _ i held hi hlive
      have hne : i ≠ new := by
        rintro rfl
        rw [hnew] at hi
        cases hi
      exact (h i held hne hi rfl hlive).right
    · intro h j other _ hj _ hlive
      exact ⟨rfl, h hstate j other hj hlive⟩

theorem exclusive_acquire_mutable (hinv : Exclusive s) {new : ViewId}
    (hnew : s.views.lookup new = none) :
    Exclusive (s.acquire new s.batch.toMutable) <->
      (s.batch.state ≠ .mutableLocked -> NoLiveView s) := by
  rcases s.batch.toMutable_cases with ⟨hstate, text, hthrow⟩ | ⟨hstate, hok⟩
  · rw [hthrow]
    exact ⟨fun _ hne => absurd hstate hne, fun _ => hinv⟩
  · rw [hok, exclusive_iff_pairwise]
    refine (exclusive_insert_iff hinv new _).trans ?_
    constructor
    · intro h _ i held hi hlive
      have hne : i ≠ new := by
        rintro rfl
        rw [hnew] at hi
        cases hi
      cases (h i held hne hi rfl hlive).left
    · intro h j other _ hj _ hlive
      exact absurd hlive (h hstate j other hj)

/-- A copy shares with whatever its source shares with, and with the source. -/
theorem exclusive_copy (hinv : Exclusive s) {source target : ViewId} {held : Held}
    (hsource : s.views.lookup source = some held)
    (hkind : held.view.kind = .readOnly) :
    Exclusive { s with views := s.views.insert target held } := by
  rw [exclusive_iff_pairwise]
  refine (exclusive_insert_iff hinv target held).mpr ?_
  intro j other hne hj
  by_cases hj' : j = source
  · subst hj'
    rw [hsource] at hj
    cases hj
    exact fun _ _ => ⟨hkind, hkind⟩
  · exact exclusive_iff_pairwise.mp hinv source j held other (Ne.symm hj') hsource hj

theorem exclusive_move (hinv : Exclusive s) {source target : ViewId} {held left : Held}
    (hsource : s.views.lookup source = some held) (hleft : ¬ left.live) :
    Exclusive { s with views := (s.views.insert source left).insert target held } := by
  rw [exclusive_iff_pairwise]
  have hemptied : (s.views.insert source left).Pairwise Held.Shares := by
    refine (exclusive_insert_iff hinv source left).mpr ?_
    intro j other _ _ hlive
    exact absurd hlive hleft
  refine (Table.pairwise_insert_iff (fun _ _ h => h.symm) hemptied target held).mpr ?_
  intro j other hne hj
  rcases Table.lookup_of_lookup_insert hj with ⟨_, rfl⟩ | ⟨hj', hother⟩
  · exact fun _ hlive => absurd hlive hleft
  · exact exclusive_iff_pairwise.mp hinv source j held other (Ne.symm hj') hsource
      hother

/-- A conversion that changes the kind keeps its source beside the new view. -/
theorem exclusive_convert (hinv : Exclusive s) {source new : ViewId} {held : Held}
    {view : View} (hsource : s.views.lookup source = some held)
    (hnew : s.views.lookup new = none)
    (hkind : held.view.kind = .mutable ∨ view.kind = .mutable) :
    Exclusive (s.convert held new view) <-> IsEmptied s source := by
  rw [exclusive_iff_pairwise]
  refine (exclusive_insert_iff hinv new _).trans ?_
  constructor
  · intro h other hother hlive
    rw [hsource] at hother
    cases hother
    have hne : source ≠ new := by
      rintro rfl
      rw [hnew] at hsource
      cases hsource
    have hshare := h source held hne hsource hlive hlive
    cases hkind with
    | inl hheld =>
        rw [hheld] at hshare
        cases hshare.right
    | inr hview =>
        have hbad : view.kind = .readOnly := hshare.left
        rw [hview] at hbad
        cases hbad
  · intro h j other _ _ hlive
    exact absurd hlive (h held hsource)

theorem exclusive_setData (hinv : Exclusive s) {target : ViewId} {held set : Held}
    (htarget : s.views.lookup target = some held)
    (hheld : held.view.kind = .mutable) (hset : set.view.kind = .mutable)
    (hlive : set.live) :
    (s.views.insert target set).Pairwise Held.Shares <->
      (IsEmptied s target -> NoLiveView s) := by
  refine (exclusive_insert_iff hinv target set).trans ?_
  constructor
  · intro h hemptied i other hi hother
    by_cases hne : i = target
    · subst hne
      exact hemptied other hi hother
    · have hshare := (h i other hne hi hlive hother).left
      rw [hset] at hshare
      cases hshare
  · intro h j other hne hj _ hother
    by_cases hemptied : held.live
    · have hshare := exclusive_iff_pairwise.mp hinv target j held other
        (Ne.symm hne) htarget hj hemptied hother
      rw [hheld] at hshare
      cases hshare.left
    · have hnone : IsEmptied s target := by
        intro old hold
        rw [htarget] at hold
        cases hold
        exact hemptied
      exact absurd hother (h hnone j other hj)

/-- One call keeps a mutable view alone exactly when it is admissible. -/
theorem exclusive_step {e : Event} (hinv : Exclusive s) (h : step s e = some t) :
    Exclusive t <-> Admissible s e := by
  cases e with
  | toReadOnly new =>
      rcases step_toReadOnly h with ⟨hnew, rfl⟩
      exact exclusive_acquire_readOnly hinv hnew
  | toMutable new =>
      rcases step_toMutable h with ⟨hnew, rfl⟩
      exact exclusive_acquire_mutable hinv hnew
  | tryToReadOnly =>
      cases h
      exact ⟨fun _ => trivial, fun _ => hinv⟩
  | tryToMutable =>
      cases h
      exact ⟨fun _ => trivial, fun _ => hinv⟩
  | copy source target =>
      rcases step_copy h with ⟨held, hsource, hkind, rfl⟩
      exact ⟨fun _ => trivial, fun _ => exclusive_copy hinv hsource hkind⟩
  | move source target =>
      refine ⟨fun _ => trivial, fun _ => ?_⟩
      rcases step_move h with ⟨held, hsource, ⟨_, rfl⟩ | ⟨_, rfl⟩⟩
      · exact hinv
      · exact exclusive_move hinv hsource (by simp [Held.live])
  | readonlyToMutable source new =>
      rcases step_readonlyToMutable h with ⟨held, hsource, _, hnew, rfl⟩
      exact exclusive_convert hinv hsource hnew (Or.inr rfl)
  | mutableToReadonly source new =>
      rcases step_mutableToReadonly h with ⟨held, hsource, hkind, hnew, rfl⟩
      exact exclusive_convert hinv hsource hnew (Or.inl hkind)
  | setData target null =>
      rcases step_setData h with ⟨held, htarget, hkind, rfl⟩
      rw [exclusive_iff_pairwise]
      exact exclusive_setData hinv htarget hkind hkind rfl
  | clone source newBatchId =>
      rcases step_clone h with ⟨held, _, rfl⟩
      refine ⟨fun _ => trivial, fun _ => ?_⟩
      rw [exclusive_iff_pairwise, (addClone_frame s _ _).left]
      exact exclusive_iff_pairwise.mp hinv
  | cloneTo source newBatchId targetSpace failure =>
      rcases step_cloneTo h with ⟨held, result, _, rfl⟩
      refine ⟨fun _ => trivial, fun _ => ?_⟩
      rw [exclusive_iff_pairwise, (addClone_frame s _ _).left]
      exact exclusive_iff_pairwise.mp hinv
  | destroy target =>
      have ht := step_destroy h
      subst ht
      refine ⟨fun _ => trivial, fun _ => ?_⟩
      rw [exclusive_iff_pairwise]
      exact Table.pairwise_erase (exclusive_iff_pairwise.mp hinv) target

end Steps

theorem exclusive_initial (batchId : UInt64) (data : Option Ref)
    (space : Option Nat) : Exclusive (Run.initial batchId data space) := by
  rw [exclusive_iff_pairwise]
  exact Table.pairwise_empty _

/--
Over every run of calls on a batch, mutable views stay alone in every state
reached exactly when every call made is admissible.
-/
theorem mutable_views_exclusive_iff (batchId : UInt64) (data : Option Ref)
    (space : Option Nat) (events : List Event) :
    batchMachine.Reaches Exclusive (Run.initial batchId data space) events <->
      batchMachine.Along Admissible (Run.initial batchId data space) events := by
  have hstep : forall s e t, Exclusive s -> Admissible s e ->
      batchMachine.step s e = some t -> Exclusive t ∧ Exclusive t := by
    intro s e t hinv hok h
    have hnext := (exclusive_step hinv h).mpr hok
    exact ⟨hnext, hnext⟩
  have hfail : forall s e t, Exclusive s -> batchMachine.step s e = some t ->
      Exclusive t -> Admissible s e :=
    fun s e t hinv h hnext => (exclusive_step hinv h).mp hnext
  exact Machine.throughout_iff_along hstep hfail
    (exclusive_initial batchId data space)

/-- The flag admits `to_mutable` while the view of `to_read_only` is out. -/
theorem mutable_view_beside_readOnly :
    exists s, batchMachine.run (Run.initial 7 (some 0) none)
        [.toReadOnly 0, .toMutable 1] = some s ∧ ¬ Exclusive s := by
  refine ⟨_, rfl, ?_⟩
  intro h
  exact h ⟨1, 0, _, _, by decide, rfl, rfl, rfl, rfl, rfl⟩

end DataBatch
end Data
end Cuda2Rocm
