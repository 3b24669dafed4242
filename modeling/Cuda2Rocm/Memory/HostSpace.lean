import Cuda2Rocm.Memory.FixedSizeHost.Guarantee
import Cuda2Rocm.Memory.Space.Model

/-!
# A host space and its resource

A `memory_space` of the host tier has a host resource installed.  The two keep accounts of
their own: a reservation made on the space owns a `simple_arena`, which the resource was
never told about.  What the space has reserved can therefore not be allocated from the
resource.
-/

namespace Cuda2Rocm
namespace Memory
namespace HostSpace

open Foundation
open FixedSizeHost (Addr Thread Config)

/-- A space, its resource, and where the arenas of the space's reservations are. -/
structure State where
  space : Space.State
  resource : FixedSizeHost.State
  arenas : Table Nat Addr

/-- The functions of the space, which `request_reservation` uses as well, and those of the
resource; `allocateMultipleBlocks` is called with a reservation of the space here, and
with one of the resource in `resource`. -/
inductive Event where
  | space (e : Space.Event)
  /-- A reserving function makes the arena of the reservation it was granted. -/
  | makeArena (rid : Nat) (addr : Addr)
  /-- The destructor of a reservation destroys its arena. -/
  | dropArena (rid : Nat)
  | resource (e : FixedSizeHost.Event)
  | allocateMultipleBlocks (thread : Thread) (bytes : Nat) (rid : Nat)

/-- The reservation whose handle an event needs. -/
def handled : Space.Event -> Option Nat
  | .destroy _ rid => some rid
  | .growBy rid _ => some rid
  | _ => none

/-- The address at which an event makes an arena of the resource. -/
def registered : FixedSizeHost.Event -> Option Addr
  | .register _ addr => some addr
  | _ => none

namespace State

/-- A space after `set_max_memory` and `set_host_resource`. -/
def initial (max : UInt64) : State :=
  { space := Space.State.initial max, resource := FixedSizeHost.State.initial,
    arenas := Table.empty }

/-- No arena of either kind is at the address. -/
def IsFree (s : State) (addr : Addr) : Prop :=
  s.resource.arenas.lookup addr = none ∧ addr ∉ s.arenas.pairs.map Prod.snd

instance (s : State) (addr : Addr) : Decidable (s.IsFree addr) :=
  inferInstanceAs (Decidable (_ ∧ _))

/-- `allocate_multiple_blocks` up to its lock, with the arena at an address. -/
def startBlocks (s : State) (c : Config) (thread : Thread) (bytes rid : Nat)
    (addr : Addr) : State :=
  let frame : FixedSizeHost.Frame :=
    if bytes = 0 then .done (.blocks none)
    else .locking (FixedSizeHost.allocBytes bytes c.blockSize)
      (some { addr := addr, rid := rid })
  { s with resource := s.resource.setFrame thread frame }

end State

def step (c : Config) (s : State) : Event -> Option State
  | .space e =>
      if forall rid, rid ∈ handled e -> s.arenas.lookup rid ≠ none then
        (Space.step s.space e).map (fun space => { s with space := space })
      else none
  | .makeArena rid addr =>
      if s.space.live.lookup rid ≠ none ∧ s.arenas.lookup rid = none ∧ s.IsFree addr then
        some { s with arenas := s.arenas.insert rid addr }
      else none
  | .dropArena rid =>
      if s.space.live.lookup rid = none then
        some { s with arenas := s.arenas.erase rid }
      else none
  | .resource e =>
      if forall addr, addr ∈ registered e -> s.IsFree addr then
        (FixedSizeHost.step c s.resource e).map
          (fun resource => { s with resource := resource })
      else none
  | .allocateMultipleBlocks thread bytes rid =>
      match s.space.live.lookup rid, s.arenas.lookup rid with
      | some _, some addr =>
          if s.resource.threads.lookup thread = none ∧ bytes ≤ sizeMax then
            some (s.startBlocks c thread bytes rid addr)
          else none
      | _, _ => none

/-- Any number of threads over a host space and its resource. -/
def hostSpaceMachine (c : Config) : Machine State Event where
  step := step c

/-- How a call ends that is accepted: it fails in `hipMallocHost` or after it only. -/
def IsAccepted : FixedSizeHost.Outcome -> Prop
  | .blocks _ => True
  | .raised _ => True
  | .threw text => exists error,
      text = FixedSizeHost.State.mallocText "allocate_multiple_blocks" error
  | _ => False

/-- What `allocate_multiple_blocks` throws when it finds no tracker. -/
def freedText : String :=
  "cuCascade: fixed_size_host_memory_resource: " ++ "reservation has been freed already"

/-- The arenas of the space are not where the resource has its own. -/
def Apart (s : State) : Prop :=
  forall rid addr, s.arenas.lookup rid = some addr -> s.resource.arenas.lookup addr = none

section Steps

variable {c : Config} {s t : State} {e : Event}

/-- A call that finds no tracker is not accepted: the two texts part after a few letters. -/
theorem not_isAccepted_freed : ¬ IsAccepted (.threw freedText) := by
  rintro ⟨error, htext⟩
  have hchars := congrArg (fun text : String => text.toList.take 12) htext
  unfold freedText FixedSizeHost.State.mallocText at hchars
  simp only [String.toList_append, List.append_assoc] at hchars
  rw [List.take_append_of_le_length (by decide),
    List.take_append_of_le_length (by decide)] at hchars
  revert hchars
  decide

theorem mem_addrs {arenas : Table Nat Addr} {rid : Nat} {addr : Addr}
    (h : arenas.lookup rid = some addr) : addr ∈ arenas.pairs.map Prod.snd :=
  Multiset.mem_map.mpr ⟨(rid, addr), Table.mem_pairs.mpr h, rfl⟩

theorem apart_step (h : Apart s) (hstep : step c s e = some t) : Apart t := by
  cases e with
  | space e =>
      simp only [step] at hstep
      split at hstep
      · rcases Option.map_eq_some_iff.mp hstep with ⟨space, _, rfl⟩
        exact h
      · cases hstep
  | makeArena rid addr =>
      simp only [step] at hstep
      split at hstep
      · rename_i hguard
        cases hstep
        intro other found hlookup
        rcases Table.lookup_of_lookup_insert hlookup with ⟨_, rfl⟩ | ⟨_, hold⟩
        · exact hguard.right.right.left
        · exact h other found hold
      · cases hstep
  | dropArena rid =>
      simp only [step] at hstep
      split at hstep
      · cases hstep
        exact fun other found hlookup =>
          h other found (Table.lookup_of_lookup_erase hlookup).right
      · cases hstep
  | resource e =>
      simp only [step] at hstep
      split at hstep
      · rename_i hfree
        rcases Option.map_eq_some_iff.mp hstep with ⟨resource, hresource, rfl⟩
        intro rid addr hlookup
        have hold := h rid addr hlookup
        by_contra hfound
        rcases Option.ne_none_iff_exists'.mp hfound with ⟨arena, harena⟩
        rcases FixedSizeHost.arena_origin (FixedSizeHost.step_move hresource) harena with
          ⟨old, hthere, _⟩ | ⟨old, n, _, hthere, _⟩ | ⟨thread, rfl, _⟩
        · rw [hold] at hthere
          cases hthere
        · rw [hold] at hthere
          cases hthere
        · exact (hfree addr rfl).right (mem_addrs hlookup)
      · cases hstep
  | allocateMultipleBlocks thread bytes rid =>
      simp only [step] at hstep
      split at hstep
      · split at hstep
        · cases hstep
          exact h
        · cases hstep
      · cases hstep

/-- A reservation is live until it is destroyed. -/
theorem live_stays {space next : Space.State} {event : Space.Event} {rid : Nat}
    (hstep : Space.step space event = some next)
    (hkept : forall thread, event ≠ .destroy thread rid)
    (hlive : space.live.lookup rid ≠ none) : next.live.lookup rid ≠ none := by
  have hinsert : forall other r, (space.live.insert other r).lookup rid ≠ none := by
    intro other r
    rw [Table.lookup_insert]
    split
    · exact Option.some_ne_none r
    · exact hlive
  cases Space.step_move hstep with
  | reserve _ _ => exact hlive
  | @destroy thread other r _ _ =>
      have hne : rid ≠ other := by
        rintro rfl
        exact hkept thread rfl
      show (space.live.erase other).lookup rid ≠ none
      rw [Table.lookup_erase_ne hne]
      exact hlive
  | growBy _ => exact hinsert _ _
  | tickReserving _ =>
      unfold Space.State.tickReserving
      split
      · exact hlive
      · exact hlive
      · exact hinsert _ _
  | tickReleasing _ =>
      unfold Space.State.tickReleasing
      split
      · exact hlive
      · exact hlive
      · exact hlive
  | ret _ => exact hlive

/-- A call with a reservation of the space: over at once when it is for nothing, else on
its way to the lock or rejected there. -/
structure Calling (c : Config) (thread : Thread) (bytes rid : Nat) (addr : Addr)
    (s : State) : Prop where
  apart : Apart s
  live : s.space.live.lookup rid ≠ none
  arena : s.arenas.lookup rid = some addr
  frame : s.resource.threads.lookup thread =
      some (if bytes = 0 then .done (.blocks none)
        else .locking (FixedSizeHost.allocBytes bytes c.blockSize)
          (some { addr := addr, rid := rid })) ∨
    bytes ≠ 0 ∧ s.resource.threads.lookup thread = some (.done (.threw freedText))

variable {thread : Thread} {bytes rid : Nat} {addr : Addr}

theorem calling_start (h : Apart s)
    (hstep : step c s (.allocateMultipleBlocks thread bytes rid) = some t) :
    exists addr, Calling c thread bytes rid addr t := by
  simp only [step] at hstep
  split at hstep
  · rename_i r addr hlive harena
    split at hstep
    · cases hstep
      refine ⟨addr, h, ?_, harena, .inl (Table.lookup_insert_self _ _ _)⟩
      show s.space.live.lookup rid ≠ none
      rw [hlive]
      exact Option.some_ne_none r
    · cases hstep
  · cases hstep

/-- The lock finds no tracker; there is no other step to take. -/
theorem frame_own {resource next : FixedSizeHost.State} {event : FixedSizeHost.Event}
    (hfind : resource.findTracker addr = none) (hown : event.thread = some thread)
    (hret : event ≠ .ret thread) (hstep : FixedSizeHost.step c resource event = some next)
    (h : resource.threads.lookup thread =
        some (if bytes = 0 then .done (.blocks none)
          else .locking (FixedSizeHost.allocBytes bytes c.blockSize)
            (some { addr := addr, rid := rid })) ∨
      bytes ≠ 0 ∧ resource.threads.lookup thread = some (.done (.threw freedText))) :
    bytes ≠ 0 ∧ next.threads.lookup thread = some (.done (.threw freedText)) := by
  have hdone : forall outcome, resource.threads.lookup thread = some (.done outcome) ->
      False := by
    intro outcome hframe
    rcases FixedSizeHost.busy_step hframe hown hstep with ⟨_, hnext⟩ | ⟨_, hnext⟩ |
      ⟨result, hnext⟩ | ⟨_, hnext⟩ | ⟨_, hnext⟩ | heq
    · simp only [FixedSizeHost.State.tickFrame, hframe] at hnext
      cases hnext
    · simp only [FixedSizeHost.State.registerArena, hframe] at hnext
      cases hnext
    · simp only [FixedSizeHost.State.tickMalloc, hframe] at hnext
      cases hnext
    · simp only [FixedSizeHost.State.tickConstruct, hframe] at hnext
      cases hnext
    · simp only [FixedSizeHost.State.tickThrow, hframe] at hnext
      cases hnext
    · exact hret heq
  rcases h with hframe | ⟨_, hframe⟩
  · by_cases hzero : bytes = 0
    · rw [if_pos hzero] at hframe
      exact (hdone _ hframe).elim
    · rw [if_neg hzero] at hframe
      rcases FixedSizeHost.busy_step hframe hown hstep with ⟨_, hnext⟩ | ⟨_, hnext⟩ |
        ⟨result, hnext⟩ | ⟨_, hnext⟩ | ⟨_, hnext⟩ | heq
      · simp only [FixedSizeHost.State.tickFrame, hframe] at hnext
        split at hnext
        · cases hnext
          simp only [FixedSizeHost.State.tickLock, hfind]
          exact ⟨hzero, Table.lookup_insert_self _ _ _⟩
        · cases hnext
      · simp only [FixedSizeHost.State.registerArena, hframe] at hnext
        cases hnext
      · simp only [FixedSizeHost.State.tickMalloc, hframe] at hnext
        cases hnext
      · simp only [FixedSizeHost.State.tickConstruct, hframe] at hnext
        cases hnext
      · simp only [FixedSizeHost.State.tickThrow, hframe] at hnext
        cases hnext
      · exact absurd heq hret
  · exact (hdone _ hframe).elim

theorem calling_step (h : Calling c thread bytes rid addr s)
    (hret : e ≠ .resource (.ret thread)) (hkept : forall other, e ≠ .space (.destroy other rid))
    (hstep : step c s e = some t) : Calling c thread bytes rid addr t := by
  have hapart := apart_step h.apart hstep
  cases e with
  | space event =>
      simp only [step] at hstep
      split at hstep
      · rcases Option.map_eq_some_iff.mp hstep with ⟨space, hspace, rfl⟩
        refine ⟨hapart, live_stays hspace ?_ h.live, h.arena, h.frame⟩
        rintro other rfl
        exact hkept other rfl
      · cases hstep
  | makeArena other found =>
      simp only [step] at hstep
      split at hstep
      · rename_i hguard
        cases hstep
        refine ⟨hapart, h.live, ?_, h.frame⟩
        have hne : rid ≠ other := by
          rintro rfl
          rw [h.arena] at hguard
          cases hguard.right.left
        show (s.arenas.insert other found).lookup rid = some addr
        rw [Table.lookup_insert_ne hne]
        exact h.arena
      · cases hstep
  | dropArena other =>
      simp only [step] at hstep
      split at hstep
      · rename_i hdead
        cases hstep
        refine ⟨hapart, h.live, ?_, h.frame⟩
        have hne : rid ≠ other := by
          rintro rfl
          exact h.live hdead
        show (s.arenas.erase other).lookup rid = some addr
        rw [Table.lookup_erase_ne hne]
        exact h.arena
      · cases hstep
  | resource event =>
      simp only [step] at hstep
      split at hstep
      · rcases Option.map_eq_some_iff.mp hstep with ⟨resource, hresource, rfl⟩
        refine ⟨hapart, h.live, h.arena, ?_⟩
        by_cases hown : event.thread = some thread
        · have hfind : s.resource.findTracker addr = none := by
            unfold FixedSizeHost.State.findTracker
            rw [h.apart rid addr h.arena]
          refine .inr (frame_own hfind hown ?_ hresource h.frame)
          rintro rfl
          exact hret rfl
        · have hsame := FixedSizeHost.lookup_of_others
            (FixedSizeHost.step_move hresource) hown
          rw [hsame]
          exact h.frame
      · cases hstep
  | allocateMultipleBlocks actor asked other =>
      simp only [step] at hstep
      split at hstep
      · split at hstep
        · rename_i hidle
          cases hstep
          refine ⟨hapart, h.live, h.arena, ?_⟩
          have hne : thread ≠ actor := by
            rintro rfl
            rcases h.frame with hframe | ⟨_, hframe⟩
            · rw [hidle.left] at hframe
              cases hframe
            · rw [hidle.left] at hframe
              cases hframe
          have hsame : forall frame,
              (s.resource.setFrame actor frame).threads.lookup thread =
                s.resource.threads.lookup thread :=
            fun frame => Table.lookup_insert_ne hne _ _
          simp only [State.startBlocks, hsame]
          exact h.frame
        · cases hstep
      · cases hstep

end Steps

theorem apart_initial (max : UInt64) : Apart (State.initial max) := by
  intro rid addr hlookup
  cases hlookup

/--
Whatever the limits, and however much of a reservation of the space is unused: a call of
`allocate_multiple_blocks` under it that comes to its end is accepted exactly when it asks
for nothing.
-/
theorem accepted_iff_nothing_asked {c : Config} {max : UInt64} {before during : List Event}
    {s t : State} {outcome : FixedSizeHost.Outcome} (thread : Thread) (bytes rid : Nat)
    (hrun : (hostSpaceMachine c).run (State.initial max) before = some s)
    (hcall : (hostSpaceMachine c).run s
      (.allocateMultipleBlocks thread bytes rid :: during) = some t)
    (hret : Event.resource (.ret thread) ∉ during)
    (hkept : forall other, Event.space (.destroy other rid) ∉ during)
    (hdone : t.resource.threads.lookup thread = some (.done outcome)) :
    IsAccepted outcome <-> bytes = 0 := by
  have hapart : Apart s :=
    Machine.invariant_run_always (fun s e t h (hstep : step c s e = some t) =>
      apart_step h hstep) (apart_initial max) hrun
  rcases Machine.run_cons_some hcall with ⟨u, hstart, hrest⟩
  rcases calling_start hapart hstart with ⟨addr, hcalling⟩
  have hevents : forall e, e ∈ during ->
      e ≠ .resource (.ret thread) ∧ forall other, e ≠ .space (.destroy other rid) := by
    intro e he
    refine ⟨?_, ?_⟩
    · rintro rfl
      exact hret he
    · rintro other rfl
      exact hkept other he
  have hstays : forall s e t, Calling c thread bytes rid addr s ->
      (e ≠ .resource (.ret thread) ∧ forall other, e ≠ .space (.destroy other rid)) ->
      (hostSpaceMachine c).step s e = some t -> Calling c thread bytes rid addr t :=
    fun s e t h hok hstep => calling_step h hok.left hok.right hstep
  have hend := Machine.invariant_run hstays hcalling (Machine.along_of_events hevents) hrest
  rcases hend.frame with hframe | ⟨hne, hframe⟩
  · rw [hdone] at hframe
    by_cases hzero : bytes = 0
    · rw [if_pos hzero] at hframe
      cases hframe
      exact ⟨fun _ => hzero, fun _ => trivial⟩
    · rw [if_neg hzero] at hframe
      cases hframe
  · rw [hdone] at hframe
    have houtcome : outcome = .threw freedText := by
      cases hframe
      rfl
    rw [houtcome]
    exact ⟨fun haccepted => absurd haccepted not_isAccepted_freed,
      fun hzero => absurd hzero hne⟩

/-- The space reserves all of its 64 bytes. -/
def spaceReserved : List Event :=
  [.space (.reserve 0 .throwing 64), .space (.tick 0 false), .space (.tick 0 false),
    .makeArena 0 7, .space (.ret 0)]

/-- Another client reserves a block of the resource while the call waits for its lock. -/
def beforeLock : List Event :=
  [.resource (.reserve 1 16), .resource (.tick 1 false), .resource (.tick 1 false),
    .resource (.tick 1 false), .resource (.tick 1 false), .resource (.tick 1 false),
    .resource (.register 1 8), .resource (.tick 0 false)]

theorem accepted_iff_nothing_asked_beforeLock :
    exists s t, (hostSpaceMachine FixedSizeHost.fourBlocks).run (State.initial 64)
        spaceReserved = some s ∧
      (hostSpaceMachine FixedSizeHost.fourBlocks).run s
        (.allocateMultipleBlocks 0 16 0 :: beforeLock) = some t ∧
      (IsAccepted (.threw freedText) <-> 16 = 0) := by
  have hret : Event.resource (.ret 0) ∉ beforeLock := by simp [beforeLock]
  have hkept : forall other, Event.space (.destroy other 0) ∉ beforeLock := by
    simp [beforeLock]
  exact ⟨_, _, rfl, rfl, @accepted_iff_nothing_asked FixedSizeHost.fourBlocks 64 spaceReserved
    beforeLock _ _ _ 0 16 0 rfl rfl hret hkept rfl⟩

/-- All four blocks are reserved on the space and unused; one of them is rejected. -/
theorem reservation_rejected_as_freed :
    exists s t, (hostSpaceMachine FixedSizeHost.fourBlocks).run (State.initial 64)
        spaceReserved = some s ∧
      s.space.max ≤ FixedSizeHost.fourBlocks.memLimit ∧
      (hostSpaceMachine FixedSizeHost.fourBlocks).run s
        [.allocateMultipleBlocks 0 16 0, .resource (.tick 0 false)] = some t ∧
      t.space.live.lookup 0 = some { size := 64, captured := 64 } ∧
      t.resource.threads.lookup 0 = some (.done (.threw freedText)) ∧
      ¬ IsAccepted (.threw freedText) :=
  ⟨_, _, rfl, by decide, rfl, rfl, rfl, not_isAccepted_freed⟩

end HostSpace
end Memory
end Cuda2Rocm
