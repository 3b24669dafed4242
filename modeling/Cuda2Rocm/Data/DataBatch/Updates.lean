import Cuda2Rocm.Data.DataBatch.Views

/-!
# Updates through a mutable view

`set_data` replaces the pointer of the view it is called on and nothing else: the
batch and every other view keep theirs.  This module says which calls keep all
pointers in agreement.
-/

namespace Cuda2Rocm
namespace Data
namespace DataBatch

open Foundation

/-- All views alive at once reference one representation. -/
def OneRepresentation (s : Run) : Prop :=
  forall i j first second, s.views.lookup i = some first ->
    s.views.lookup j = some second -> first.live -> second.live ->
    first.view.data = second.view.data

/-- Views obtained since the last `set_data`, and what was copied, moved or
converted from them, reference the representation set there. -/
def SeesLastUpdate (s : Run) : Prop :=
  forall i held, s.views.lookup i = some held -> held.live ->
    held.obtained = s.sets -> held.view.data = s.latest

/-- A clone made from such a view is made from that representation. -/
def ClonesLastUpdate (s : Run) (e : Event) (t : Run) : Prop :=
  forall source, (exists newBatchId, e = .clone source newBatchId) ∨
      (exists newBatchId space failure, e = .cloneTo source newBatchId space failure) ->
    forall held, s.views.lookup source = some held -> held.live ->
      held.obtained = s.sets ->
      t.clones = s.clones ∨
        exists batch, t.clones = s.clones ++ [(batch, s.latest)]

/-- What a call has to keep for no update to be lost. -/
def NothingLost (s : Run) (e : Event) (t : Run) : Prop :=
  OneRepresentation t ∧ SeesLastUpdate t ∧ ClonesLastUpdate s e t

/-- No live view other than this one. -/
def NoOtherLiveView (s : Run) (target : ViewId) : Prop :=
  forall i held, i ≠ target -> s.views.lookup i = some held -> ¬ held.live

/--
The calls after which no update is lost: views are obtained from the batch only
while it still references what was last set, and `set_data` is called while no
other view is out.  Setting null where all views already hold null is harmless.
-/
def Keeps (s : Run) : Event -> Prop
  | .toReadOnly _ => s.batch.state ≠ .readOnly -> s.batch.data = s.latest
  | .toMutable _ => s.batch.state ≠ .mutableLocked -> s.batch.data = s.latest
  | .setData target null =>
      NoOtherLiveView s target ∨ (null = true ∧ s.latest = none)
  | _ => True

/-- Every live view references what was last set. -/
structure AllLatest (s : Run) : Prop where
  data_eq : forall i held, s.views.lookup i = some held -> held.live ->
    held.view.data = s.latest
  latest_lt : forall r, s.latest = some r -> r < s.nextRef

theorem AllLatest.oneRepresentation {s : Run} (h : AllLatest s) :
    OneRepresentation s := by
  intro i j first second hi hj hfirst hsecond
  rw [h.data_eq i first hi hfirst, h.data_eq j second hj hsecond]

theorem AllLatest.seesLastUpdate {s : Run} (h : AllLatest s) : SeesLastUpdate s :=
  fun i held hi hlive _ => h.data_eq i held hi hlive

section Steps

variable {s t : Run}

/-- Storing a view that references the latest representation keeps the invariant. -/
theorem AllLatest.insert (h : AllLatest s) (k : ViewId) (held : Held)
    (hheld : held.live -> held.view.data = s.latest) :
    AllLatest { s with views := s.views.insert k held } := by
  constructor
  · intro i other hi hlive
    rcases Table.lookup_of_lookup_insert hi with ⟨_, rfl⟩ | ⟨_, hi'⟩
    · exact hheld hlive
    · exact h.data_eq i other hi' hlive
  · exact h.latest_lt

theorem AllLatest.addClone (h : AllLatest s) (source : View)
    (result : Except String Batch) : AllLatest (s.addClone source result) := by
  cases result with
  | error text => exact h
  | ok batch =>
      exact
        { data_eq := h.data_eq
          latest_lt := fun r hr => Nat.lt_succ_of_lt (h.latest_lt r hr) }

theorem AllLatest.setFrame (h : AllLatest s) (batch : Batch) :
    AllLatest { s with batch := batch } :=
  { data_eq := h.data_eq, latest_lt := h.latest_lt }

theorem AllLatest.acquire (h : AllLatest s) {new : ViewId} {batch : Batch}
    {view : View} (hview : view.data = s.latest) :
    AllLatest (s.acquire new (.ok (batch, view))) :=
  (h.setFrame batch).insert _ _ (fun _ => hview)

theorem AllLatest.setData (h : AllLatest s) {target : ViewId} {null : Bool}
    {held : Held} (hview : held.view.data = if null then none else some s.nextRef)
    (hkeeps : Keeps s (.setData target null)) :
    AllLatest { s with
      views := s.views.insert target held
      latest := if null then none else some s.nextRef
      sets := s.sets + 1
      nextRef := s.nextRef + 1 } := by
  constructor
  · intro i other hi hlive
    rcases Table.lookup_of_lookup_insert hi with ⟨_, rfl⟩ | ⟨hne, hi'⟩
    · exact hview
    · rcases hkeeps with halone | ⟨hnull, hlatest⟩
      · exact absurd hlive (halone i other hne hi')
      · have hother := h.data_eq i other hi' hlive
        simp [hother, hlatest, hnull]
  · intro r hr
    cases null with
    | true => simp at hr
    | false =>
        have hr' : some s.nextRef = some r := hr
        cases hr'
        exact Nat.lt_succ_self _

/-- A call that keeps the updates leads to a state in which all views have the
latest one. -/
theorem allLatest_step {e : Event} (hinv : AllLatest s) (hkeeps : Keeps s e)
    (h : step s e = some t) : AllLatest t := by
  cases e with
  | toReadOnly new =>
      rcases step_toReadOnly h with ⟨_, rfl⟩
      rcases s.batch.toReadOnly_cases with ⟨_, text, hthrow⟩ | ⟨hstate, hok⟩
      · rw [hthrow]
        exact hinv
      · rw [hok]
        exact hinv.acquire (hkeeps hstate)
  | toMutable new =>
      rcases step_toMutable h with ⟨_, rfl⟩
      rcases s.batch.toMutable_cases with ⟨_, text, hthrow⟩ | ⟨hstate, hok⟩
      · rw [hthrow]
        exact hinv
      · rw [hok]
        exact hinv.acquire (hkeeps hstate)
  | tryToReadOnly =>
      cases h
      exact hinv.setFrame _
  | tryToMutable =>
      cases h
      exact hinv.setFrame _
  | copy source target =>
      rcases step_copy h with ⟨held, hsource, _, rfl⟩
      exact hinv.insert _ _ (hinv.data_eq source held hsource)
  | move source target =>
      rcases step_move h with ⟨held, hsource, ⟨_, rfl⟩ | ⟨_, rfl⟩⟩
      · exact hinv
      · have hlatest := hinv.data_eq source held hsource
        have hleft := hinv.insert source
          { held with view := held.view.movedFrom, emptied := true }
          (fun hlive => by simp [Held.live] at hlive)
        exact hleft.insert _ _ hlatest
  | readonlyToMutable source new =>
      rcases step_readonlyToMutable h with ⟨held, hsource, _, _, rfl⟩
      exact hinv.insert _ _ (hinv.data_eq source held hsource)
  | mutableToReadonly source new =>
      rcases step_mutableToReadonly h with ⟨held, hsource, _, _, rfl⟩
      exact hinv.insert _ _ (hinv.data_eq source held hsource)
  | setData target null =>
      rcases step_setData h with ⟨held, _, _, rfl⟩
      exact hinv.setData rfl hkeeps
  | clone source newBatchId =>
      rcases step_clone h with ⟨held, _, rfl⟩
      exact hinv.addClone _ _
  | cloneTo source newBatchId targetSpace failure =>
      rcases step_cloneTo h with ⟨held, result, _, rfl⟩
      exact hinv.addClone _ _
  | destroy target =>
      have ht := step_destroy h
      subst ht
      constructor
      · intro i held hi hlive
        exact hinv.data_eq i held (Table.lookup_of_lookup_erase hi).right hlive
      · exact hinv.latest_lt

theorem clones_of_addClone (s : Run) (source : View) (result : Except String Batch) :
    (s.addClone source result).clones = s.clones ∨
      exists batch, (s.addClone source result).clones =
        s.clones ++ [(batch, source.data)] := by
  cases result with
  | error text => exact Or.inl rfl
  | ok batch => exact Or.inr ⟨batch, rfl⟩

theorem clonesLastUpdate_step {e : Event} (hinv : AllLatest s)
    (h : step s e = some t) : ClonesLastUpdate s e t := by
  intro source he held hsource hlive _
  have hdata := hinv.data_eq source held hsource hlive
  rw [← hdata]
  rcases he with ⟨newBatchId, rfl⟩ | ⟨newBatchId, space, failure, rfl⟩
  · rcases step_clone h with ⟨held', hsource', rfl⟩
    rw [hsource] at hsource'
    cases hsource'
    exact clones_of_addClone s held.view _
  · rcases step_cloneTo h with ⟨held', result, hsource', rfl⟩
    rw [hsource] at hsource'
    cases hsource'
    exact clones_of_addClone s held.view result

/-- A view just obtained shows what the batch references. -/
theorem data_of_acquire {new : ViewId} {batch : Batch} {view : View}
    (hsees : SeesLastUpdate (s.acquire new (.ok (batch, view)))) :
    view.data = s.latest :=
  hsees new { view := view, emptied := false, obtained := s.sets }
    (Table.lookup_insert_self s.views new _) rfl rfl

/-- A call after which no update is lost is one that keeps the updates. -/
theorem keeps_of_nothingLost {e : Event} (hinv : AllLatest s)
    (h : step s e = some t) (hgood : NothingLost s e t) : Keeps s e := by
  cases e with
  | toReadOnly new =>
      intro hstate
      rcases step_toReadOnly h with ⟨_, rfl⟩
      rcases s.batch.toReadOnly_cases with ⟨hbad, _⟩ | ⟨_, hok⟩
      · exact absurd hbad hstate
      · have hsees := hgood.right.left
        rw [hok] at hsees
        exact data_of_acquire hsees
  | toMutable new =>
      intro hstate
      rcases step_toMutable h with ⟨_, rfl⟩
      rcases s.batch.toMutable_cases with ⟨hbad, _⟩ | ⟨_, hok⟩
      · exact absurd hbad hstate
      · have hsees := hgood.right.left
        rw [hok] at hsees
        exact data_of_acquire hsees
  | setData target null =>
      rcases step_setData h with ⟨held, _, _, rfl⟩
      by_cases halone : NoOtherLiveView s target
      · exact Or.inl halone
      · right
        unfold NoOtherLiveView at halone
        push Not at halone
        rcases halone with ⟨i, other, hne, hi, hlive⟩
        have hlatest := hinv.data_eq i other hi hlive
        have hsame := hgood.left target i _ other
          (Table.lookup_insert_self s.views target _)
          ((Table.lookup_insert_ne hne s.views _).trans hi) rfl hlive
        have hnew : (if null then none else some s.nextRef) = s.latest :=
          hsame.trans hlatest
        cases null with
        | true => exact ⟨rfl, hnew.symm⟩
        | false =>
            have hlt := hinv.latest_lt s.nextRef hnew.symm
            exact absurd hlt (Nat.lt_irrefl _)
  | tryToReadOnly => trivial
  | tryToMutable => trivial
  | copy source target => trivial
  | move source target => trivial
  | readonlyToMutable source new => trivial
  | mutableToReadonly source new => trivial
  | clone source newBatchId => trivial
  | cloneTo source newBatchId targetSpace failure => trivial
  | destroy target => trivial

end Steps

theorem allLatest_initial (batchId : UInt64) (data : Option Ref)
    (space : Option Nat) : AllLatest (Run.initial batchId data space) := by
  constructor
  · intro i held hi _
    cases hi
  · intro r hr
    have hdata : data = some r := hr
    subst hdata
    exact Nat.lt_succ_self r

/--
Over every run of calls on a batch, no update made through a mutable view is lost
exactly when every call made keeps the updates.
-/
theorem no_lost_update_iff (batchId : UInt64) (data : Option Ref)
    (space : Option Nat) (events : List Event) :
    batchMachine.Throughout NothingLost (Run.initial batchId data space) events <->
      batchMachine.Along Keeps (Run.initial batchId data space) events := by
  have hstep : forall s e t, AllLatest s -> Keeps s e ->
      batchMachine.step s e = some t -> AllLatest t ∧ NothingLost s e t := by
    intro s e t hinv hok h
    have hnext := allLatest_step hinv hok h
    exact ⟨hnext, hnext.oneRepresentation, hnext.seesLastUpdate,
      clonesLastUpdate_step hinv h⟩
  have hfail : forall s e t, AllLatest s -> batchMachine.step s e = some t ->
      NothingLost s e t -> Keeps s e :=
    fun s e t hinv h hgood => keeps_of_nothingLost hinv h hgood
  exact Machine.throughout_iff_along hstep hfail
    (allLatest_initial batchId data space)

/-- A view obtained after an update shows the representation of before it, beside
the mutable view that shows the new one. -/
theorem update_lost_on_reacquisition :
    exists s, batchMachine.run (Run.initial 7 (some 0) none)
        [.toMutable 0, .setData 0 false, .toReadOnly 1] = some s ∧
      ¬ SeesLastUpdate s ∧ ¬ OneRepresentation s := by
  refine ⟨_, rfl, ?_, ?_⟩
  · intro h
    have hsame := h 1 _ rfl rfl rfl
    exact absurd hsame (by decide)
  · intro h
    have hsame := h 0 1 _ _ rfl rfl rfl rfl
    exact absurd hsame (by decide)

end DataBatch
end Data
end Cuda2Rocm
