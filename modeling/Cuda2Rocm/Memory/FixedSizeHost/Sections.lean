import Cuda2Rocm.Memory.FixedSizeHost.Moves

/-!
# Locked sections

A thread that works on the counter with the mutex held is alone with the trackers.
A fact about trackers that holds when a section is entered therefore holds until
it is left.
-/

namespace Cuda2Rocm
namespace Memory
namespace FixedSizeHost

open Foundation

/-- What a thread that holds the mutex is about. -/
inductive Section where
  | blocks (request : Request)
  | release (addr : Addr)

/-- The locked section a frame is in. -/
def Frame.inSection : Frame -> Option Section
  | .charging (.blocks request) _ => some (.blocks request)
  | .allocating request => some (.blocks request)
  | .constructing request _ => some (.blocks request)
  | .crediting (.blocks request _) _ => some (.blocks request)
  | .crediting (.release addr _) _ => some (.release addr)
  | _ => none

theorem Frame.Fresh.inSection_eq {frame : Frame} (h : frame.Fresh) :
    frame.inSection = none := by
  cases h with
  | done outcome => rfl
  | reservation bytes => rfl
  | single bytes => rfl

/-- Threads inside a locked section hold the mutex, and the arenas are as the section
needs them. -/
def Guarded (fits : Table Addr Arena -> Section -> Prop) (s : State) : Prop :=
  forall thread frame part, s.threads.lookup thread = some frame ->
    frame.inSection = some part -> s.mutex = some thread ∧ fits s.arenas part

theorem findTracker_eq_some {s : State} {addr : Addr} {arena : Arena} {tracker : Int} :
    s.findTracker addr = some (arena, tracker) <->
      s.arenas.lookup addr = some arena ∧ arena.tracker = some tracker := by
  unfold State.findTracker
  split
  · rename_i hnone
    rw [hnone]
    simp
  · rename_i found hfound
    rw [hfound]
    split
    · rename_i htracker
      constructor
      · intro h
        cases h
      · rintro ⟨heq, hsome⟩
        cases heq
        rw [htracker] at hsome
        cases hsome
    · rename_i value htracker
      constructor
      · intro h
        cases h
        exact ⟨rfl, htracker⟩
      · rintro ⟨heq, hsome⟩
        cases heq
        rw [htracker] at hsome
        cases hsome
        rfl

section Preservation

variable {fits : Table Addr Arena -> Section -> Prop} {c : Config} {s t : State}

theorem Guarded.outside (h : Guarded fits s) (hmutex : s.mutex = none) {thread : Thread}
    {frame : Frame} (hframe : s.threads.lookup thread = some frame) :
    frame.inSection = none := by
  cases hpart : frame.inSection with
  | none => rfl
  | some part =>
      have hheld := (h thread frame part hframe hpart).left
      rw [hmutex] at hheld
      cases hheld

theorem Guarded.alone (h : Guarded fits s) {thread other : Thread} {frame frame' : Frame}
    {part : Section} (hframe : s.threads.lookup thread = some frame)
    (hpart : frame.inSection = some part) (hne : other ≠ thread)
    (hother : s.threads.lookup other = some frame') : frame'.inSection = none := by
  cases hpart' : frame'.inSection with
  | none => rfl
  | some part' =>
      have hheld := (h thread frame part hframe hpart).left
      have hheld' := (h other frame' part' hother hpart').left
      rw [hheld] at hheld'
      exact absurd (Option.some.inj hheld').symm hne

/-- A step of one thread that leaves arenas and mutex alone, and enters no section. -/
theorem Guarded.replace (h : Guarded fits s) {thread : Thread} {frame : Frame}
    (hthreads : t.threads = s.threads.insert thread frame) (harenas : t.arenas = s.arenas)
    (hmutex : t.mutex = s.mutex)
    (hframe : forall part, frame.inSection = some part -> exists old,
      s.threads.lookup thread = some old ∧ old.inSection = some part) :
    Guarded fits t := by
  intro other frame' part hlookup hpart
  rw [hthreads] at hlookup
  rw [harenas, hmutex]
  rcases Table.lookup_of_lookup_insert hlookup with ⟨rfl, rfl⟩ | ⟨_, hold⟩
  · rcases hframe part hpart with ⟨old, hlookup', hpart'⟩
    exact h other old part hlookup' hpart'
  · exact h other frame' part hold hpart

theorem Guarded.aside (h : Guarded fits s) {thread : Thread} {frame : Frame}
    (hthreads : t.threads = s.threads.insert thread frame) (harenas : t.arenas = s.arenas)
    (hmutex : t.mutex = s.mutex) (hframe : frame.inSection = none) : Guarded fits t := by
  refine h.replace hthreads harenas hmutex ?_
  intro part hpart
  rw [hframe] at hpart
  cases hpart

/-- A step whose thread enters the only section there is, or leaves it. -/
theorem Guarded.only {thread : Thread} {frame : Frame}
    (hthreads : t.threads = s.threads.insert thread frame)
    (hothers : forall other frame', other ≠ thread ->
      s.threads.lookup other = some frame' -> frame'.inSection = none)
    (hframe : forall part, frame.inSection = some part ->
      t.mutex = some thread ∧ fits t.arenas part) : Guarded fits t := by
  intro other frame' part hlookup hpart
  rw [hthreads] at hlookup
  rcases Table.lookup_of_lookup_insert hlookup with ⟨rfl, rfl⟩ | ⟨hne, hold⟩
  · exact hframe part hpart
  · rw [hothers other frame' hne hold] at hpart
    cases hpart

/-- A step after which no thread is in a section. -/
theorem Guarded.leave {thread : Thread} {frame : Frame}
    (hthreads : t.threads = s.threads.insert thread frame)
    (hothers : forall other frame', other ≠ thread ->
      s.threads.lookup other = some frame' -> frame'.inSection = none)
    (hframe : frame.inSection = none) : Guarded fits t := by
  refine Guarded.only hthreads hothers ?_
  intro part hpart
  rw [hframe] at hpart
  cases hpart

theorem Guarded.failBlocks (h : Guarded fits s) {thread : Thread} {frame : Frame}
    {request : Request} (hframe : s.threads.lookup thread = some frame)
    (hpart : frame.inSection = some (.blocks request)) (u : State)
    (hu : u.threads = s.threads) (text : String) :
    Guarded fits (u.failBlocks thread request text) := by
  have hthreads : (u.failBlocks thread request text).threads =
      s.threads.insert thread (.done (.threw text)) := by
    show u.threads.insert thread _ = _
    rw [hu]
  exact Guarded.leave hthreads (fun _ _ hne hother => h.alone hframe hpart hne hother) rfl

/--
Section invariants: it is enough that the arenas are right when a section is entered
and that growth keeps them right.
-/
theorem Guarded.move {e : Event} (h : Guarded fits s) (hmove : Move c s e t)
    (hlock : forall bytes, fits s.arenas
      (.blocks { bytes := bytes, arena := none, charge := bytes }))
    (hlockTracked : forall thread spurious bytes ref arena pre,
      e = .tick thread spurious ->
      s.threads.lookup thread = some (.locking bytes (some ref)) ->
      s.mutex = none -> s.findTracker ref.addr = some (arena, pre) ->
      fits (s.setTracker ref.addr arena (wrapInt (pre + toSigned bytes)))
        (.blocks { bytes := bytes, arena := some ref,
                   charge := chargeFor arena.size pre bytes }))
    (hdestroy : forall addr arena, s.arenas.lookup addr = some arena ->
      fits (s.arenas.insert addr { arena with held := false, tracker := none })
        (.release addr))
    (hgrow : forall addr n arena part, e = .growBy addr n ->
      s.arenas.lookup addr = some arena -> fits s.arenas part ->
      fits (s.arenas.insert addr { arena with size := Memory.growBy arena.size n })
        part) : Guarded fits t := by
  cases hmove with
  | start hcalls hidle hfresh => exact h.aside rfl rfl rfl hfresh.inSection_eq
  | startLocking hidle hbytes harena => exact h.aside rfl rfl rfl rfl
  | take hidle hmutex halloc huntracked => exact h.aside rfl rfl rfl rfl
  | takeTracked hidle hmutex halloc href hfind =>
      exact Guarded.leave rfl (fun _ _ _ hother => h.outside hmutex hother) rfl
  | takeSingle hidle hptr => exact h.aside rfl rfl rfl rfl
  | destroyReleased hidle hmutex harena htracker =>
      exact Guarded.leave rfl (fun _ _ _ hother => h.outside hmutex hother) rfl
  | destroy hidle hmutex harena htracker =>
      refine Guarded.only rfl (fun _ _ _ hother => h.outside hmutex hother) ?_
      intro part hpart
      cases hpart
      exact ⟨rfl, hdestroy _ _ harena⟩
  | grow harena =>
      intro thread frame part hlookup hpart
      have hold := h thread frame part hlookup hpart
      exact ⟨hold.left, hgrow _ _ _ part rfl harena hold.right⟩
  | chargeOn hframe hstep =>
      refine h.replace rfl rfl rfl ?_
      intro part hpart
      refine ⟨_, hframe, ?_⟩
      rename_i charge pc pc' counter
      cases charge <;> exact hpart
  | granted hframe hstep =>
      rename_i charge pc counter
      cases charge with
      | reservation bytes => exact h.aside rfl rfl rfl rfl
      | blocks request =>
          refine h.replace rfl rfl rfl ?_
          intro part hpart
          exact ⟨_, hframe, hpart⟩
      | single bytes => exact h.aside rfl rfl rfl rfl
  | refused hframe hstep =>
      rename_i charge pc counter
      cases charge with
      | reservation bytes => exact h.aside rfl rfl rfl rfl
      | blocks request => exact h.failBlocks hframe rfl _ rfl _
      | single bytes => exact h.aside rfl rfl rfl rfl
  | lock hframe hmutex =>
      refine Guarded.only rfl (fun _ _ _ hother => h.outside hmutex hother) ?_
      intro part hpart
      cases hpart
      exact ⟨rfl, hlock _⟩
  | lockRefused hframe hfind => exact h.aside rfl rfl rfl rfl
  | lockTracked hframe hmutex hfind =>
      refine Guarded.only rfl (fun _ _ _ hother => h.outside hmutex hother) ?_
      intro part hpart
      cases hpart
      exact ⟨rfl, hlockTracked _ _ _ _ _ _ rfl hframe hmutex hfind⟩
  | freed hframe => exact h.aside rfl rfl rfl rfl
  | creditOn hframe =>
      refine h.replace rfl rfl rfl ?_
      intro part hpart
      refine ⟨_, hframe, ?_⟩
      rename_i credit loop
      cases credit <;> exact hpart
  | credited hframe =>
      rename_i credit loop
      cases credit with
      | deallocation bytes => exact h.aside rfl rfl rfl rfl
      | blocks request text => exact h.failBlocks hframe rfl _ rfl _
      | single bytes text => exact h.aside rfl rfl rfl rfl
      | release addr bytes =>
          exact Guarded.leave (s := s) rfl
            (fun _ _ hne hother => h.alone hframe rfl hne hother) rfl
  | register hframe hfree hmutex =>
      exact Guarded.leave rfl (fun _ _ _ hother => h.outside hmutex hother) rfl
  | mallocFailed hframe =>
      refine h.replace rfl rfl rfl ?_
      intro part hpart
      exact ⟨_, hframe, hpart⟩
  | mallocSingleFailed hframe => exact h.aside rfl rfl rfl rfl
  | malloc hframe hptr =>
      refine h.replace rfl rfl rfl ?_
      intro part hpart
      exact ⟨_, hframe, hpart⟩
  | mallocSingle hframe hptr => exact h.aside rfl rfl rfl rfl
  | construct hframe hid =>
      exact Guarded.leave (s := s) rfl
        (fun _ _ hne hother => h.alone hframe rfl hne hother) rfl
  | throws exception hframe =>
      exact Guarded.leave (s := s) rfl
        (fun _ _ hne hother => h.alone hframe rfl hne hother) rfl
  | ret hframe =>
      intro other frame part hlookup hpart
      exact h other frame part (Table.lookup_of_lookup_erase hlookup).right hpart

end Preservation

theorem guarded_initial (fits : Table Addr Arena -> Section -> Prop) :
    Guarded fits State.initial := by
  intro thread frame part hlookup _
  cases hlookup

/-!
# Trackers of sections
-/

/-- Under a section for blocks its tracker is there; an arena being released has none. -/
def KeepsTracker (arenas : Table Addr Arena) : Section -> Prop
  | .blocks request => forall ref, request.arena = some ref ->
      exists arena tracker,
        arenas.lookup ref.addr = some arena ∧ arena.tracker = some tracker
  | .release addr => exists arena, arenas.lookup addr = some arena ∧ arena.tracker = none

/-- The trackers are 64-bit words, and sections keep theirs. -/
structure Sections (s : State) : Prop where
  guarded : Guarded KeepsTracker s
  range : forall addr arena tracker, s.arenas.lookup addr = some arena ->
    arena.tracker = some tracker -> -2 ^ 63 ≤ tracker ∧ tracker < 2 ^ 63

section Steps

variable {c : Config} {s t : State} {e : Event}

theorem keepsTracker_insert {arenas : Table Addr Arena} {addr : Addr} {old : Arena}
    (hold : arenas.lookup addr = some old) (new : Arena)
    (hsame : new.tracker = old.tracker) {part : Section}
    (h : KeepsTracker arenas part) : KeepsTracker (arenas.insert addr new) part := by
  cases part with
  | blocks request =>
      intro ref href
      rcases h ref href with ⟨arena, tracker, harena, htracker⟩
      rw [Table.lookup_insert]
      split
      · rename_i heq
        rw [heq, hold] at harena
        cases harena
        exact ⟨new, tracker, rfl, hsame.trans htracker⟩
      · exact ⟨arena, tracker, harena, htracker⟩
  | release target =>
      rcases h with ⟨arena, harena, htracker⟩
      show exists arena, (arenas.insert addr new).lookup target = some arena ∧ _
      rw [Table.lookup_insert]
      split
      · rename_i heq
        rw [heq, hold] at harena
        cases harena
        exact ⟨new, rfl, hsame.trans htracker⟩
      · exact ⟨arena, harena, htracker⟩

theorem keepsTracker_move (h : Guarded KeepsTracker s) (hmove : Move c s e t) :
    Guarded KeepsTracker t := by
  refine h.move hmove ?_ ?_ ?_ ?_
  · intro bytes ref href
    cases href
  · intro thread spurious bytes ref arena pre _ _ _ _ ref' href
    cases href
    exact ⟨_, _, Table.lookup_insert_self _ _ _, rfl⟩
  · intro addr arena _
    exact ⟨_, Table.lookup_insert_self _ _ _, rfl⟩
  · intro addr n arena part _ harena hfits
    exact keepsTracker_insert harena
      { arena with size := Memory.growBy arena.size n } rfl hfits

/-- Trackers in range stay so when an arena gets a tracker in range. -/
theorem range_insert {arenas : Table Addr Arena}
    (h : forall addr arena tracker, arenas.lookup addr = some arena ->
      arena.tracker = some tracker -> -2 ^ 63 ≤ tracker ∧ tracker < 2 ^ 63)
    (addr : Addr) (new : Arena)
    (hnew : forall tracker, new.tracker = some tracker ->
      -2 ^ 63 ≤ tracker ∧ tracker < 2 ^ 63) :
    forall other arena tracker, (arenas.insert addr new).lookup other = some arena ->
      arena.tracker = some tracker -> -2 ^ 63 ≤ tracker ∧ tracker < 2 ^ 63 := by
  intro other arena tracker hlookup htracker
  rcases Table.lookup_of_lookup_insert hlookup with ⟨_, rfl⟩ | ⟨_, hold⟩
  · exact hnew tracker htracker
  · exact h other arena tracker hold htracker

theorem range_setTracker (h : Sections s) (addr : Addr) (arena : Arena) (x : Int) :
    forall other arena' tracker,
      (s.setTracker addr arena (wrapInt x)).lookup other = some arena' ->
      arena'.tracker = some tracker -> -2 ^ 63 ≤ tracker ∧ tracker < 2 ^ 63 := by
  refine range_insert h.range addr _ ?_
  intro tracker htracker
  cases htracker
  exact wrapInt_range x

theorem range_rollBack (h : Sections s) (request : Request) :
    forall addr arena tracker, (s.rollBack request).lookup addr = some arena ->
      arena.tracker = some tracker -> -2 ^ 63 ≤ tracker ∧ tracker < 2 ^ 63 := by
  unfold State.rollBack
  split
  · exact h.range
  · split
    · exact h.range
    · exact range_setTracker h _ _ _

theorem sections_move (h : Sections s) (hmove : Move c s e t) : Sections t := by
  refine ⟨keepsTracker_move h.guarded hmove, ?_⟩
  have herase : forall addr other arena tracker,
      (s.arenas.erase addr).lookup other = some arena -> arena.tracker = some tracker ->
      -2 ^ 63 ≤ tracker ∧ tracker < 2 ^ 63 :=
    fun _ other arena tracker hlookup =>
      h.range other arena tracker (Table.lookup_of_lookup_erase hlookup).right
  cases hmove with
  | takeTracked _ _ _ _ _ => exact range_setTracker h _ _ _
  | destroyReleased _ _ _ _ => exact herase _
  | destroy _ _ _ _ =>
      refine range_insert h.range _ _ ?_
      intro tracker htracker
      cases htracker
  | grow harena =>
      refine range_insert h.range _ _ ?_
      intro tracker htracker
      exact h.range _ _ tracker harena htracker
  | granted hframe hstep =>
      rename_i charge pc counter
      cases charge <;> exact h.range
  | refused hframe hstep =>
      rename_i charge pc counter
      cases charge with
      | reservation bytes => exact h.range
      | blocks request => exact range_rollBack h request
      | single bytes => exact h.range
  | lockTracked _ _ _ => exact range_setTracker h _ _ _
  | credited hframe =>
      rename_i credit loop
      cases credit with
      | deallocation bytes => exact h.range
      | blocks request text => exact range_rollBack h request
      | single bytes text => exact h.range
      | release addr bytes => exact herase addr
  | register _ _ _ =>
      refine range_insert h.range _ _ ?_
      intro tracker htracker
      cases htracker
      omega
  | _ => exact h.range

end Steps

theorem sections_initial : Sections State.initial := by
  refine ⟨guarded_initial _, ?_⟩
  intro addr arena tracker hlookup
  cases hlookup

end FixedSizeHost
end Memory
end Cuda2Rocm
