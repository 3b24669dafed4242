import Mathlib.Data.List.Nodup
import Cuda2Rocm.Memory.ResourceAdaptor.Ownership

/-!
# Attached reservations are released

Every reservation is with a client, with a stream, or gone: released, or due to be by a
destructor that the same step runs.  The counter of a space is the sum over those that
are not released.
-/

namespace Cuda2Rocm
namespace Memory
namespace ResourceAdaptor
namespace Ownership

open Foundation

/-- The share of a reservation in the counter of a space. -/
def share (space : Nat) (r : Reservation) : Nat := if r.space = space then r.size else 0

/-- The counters are the sums of the reservations not released. -/
def Reserved (s : State) : Prop :=
  forall space, (s.spaces space).reserved =
    s.made.sumExcept s.releases (fun _ r => share space r)

/-- Every reservation made is in one place, and the history tells in which. -/
structure Owners (s : State) (gone : List ReservationId) : Prop where
  made_lt : forall rid r, s.made.lookup rid = some r -> rid < s.nextRid
  made_rid : forall rid r, s.made.lookup rid = some r -> r.rid = rid
  once : gone.Nodup
  gone_made : forall rid, rid ∈ gone -> exists r, s.made.lookup rid = some r
  attached_made : forall rid, rid ∈ s.history.attached -> exists r, s.made.lookup rid = some r
  held : forall rid r, s.held.lookup rid = some r ->
    s.made.lookup rid = some r ∧ rid ∉ gone ∧ rid ∉ s.history.attached
  attached : forall stream r, s.attachedAt stream = some r ->
    s.made.lookup r.rid = some r ∧ r.rid ∉ gone ∧ r.rid ∈ s.history.attached
  apart : forall stream other r r', s.attachedAt stream = some r ->
    s.attachedAt other = some r' -> r.rid = r'.rid -> stream = other
  somewhere : forall rid r, s.made.lookup rid = some r ->
    rid ∈ gone ∨ s.held.lookup rid = some r ∨ exists stream, s.attachedAt stream = some r
  last : s.adaptor.isSome = true -> forall stream,
    s.history.last.lookup stream = (s.attachedAt stream).map Reservation.rid
  gone_iff : forall rid, rid ∈ gone <-> rid ∈ s.history.dropped ∨ rid ∈ s.history.replaced ∨
    (rid ∈ s.history.attached ∧ s.adaptor = none)
  dropped_unattached : forall rid, rid ∈ s.history.dropped -> rid ∉ s.history.attached

/-- The invariant between two steps. -/
structure Owned (s : State) : Prop where
  owners : Owners s s.releases
  reserved : Reserved s

/-!
# Destructors
-/

section Destructors

variable {s : State}

theorem Reserved.release (h : Reserved s) {r : Reservation}
    (hmade : s.made.lookup r.rid = some r) (hlive : r.rid ∉ s.releases) :
    Reserved (s.release r) := by
  intro space
  have hsum := Table.sumExcept_concat hmade hlive (fun _ r => share space r)
  have hreserved := h space
  change (State.credit s.spaces r space).reserved =
    s.made.sumExcept (s.releases ++ [r.rid]) (fun _ r => share space r)
  unfold State.credit
  by_cases hspace : space = r.space
  · subst hspace
    have hshare : share r.space r = r.size := if_pos rfl
    rw [hshare] at hsum
    have hle : r.size ≤ (s.spaces r.space).reserved := by omega
    rw [Function.update_self, Space.releaseNext_of_le hle]
    change (s.spaces r.space).reserved - r.size = _
    omega
  · have hshare : share space r = 0 := if_neg (fun heq => hspace heq.symm)
    rw [hshare] at hsum
    rw [Function.update_of_ne hspace]
    omega

/-- The destructors that are due credit every space. -/
theorem Owners.settle {due : List Reservation}
    (h : Owners s (s.releases ++ due.map Reservation.rid))
    (hdue : forall r, r ∈ due -> s.made.lookup r.rid = some r) (hreserved : Reserved s) :
    Owned (s.releaseAll due) := by
  induction due generalizing s with
  | nil =>
      rw [List.map_nil, List.append_nil] at h
      exact ⟨h, hreserved⟩
  | cons r rest ih =>
      have hmade := hdue r List.mem_cons_self
      have hlive : r.rid ∉ s.releases := by
        intro hin
        have hdisjoint := List.disjoint_of_nodup_append h.once
        exact hdisjoint hin List.mem_cons_self
      have hgone : s.releases ++ (r :: rest).map Reservation.rid =
          (s.release r).releases ++ rest.map Reservation.rid := by
        rw [List.map_cons, List.append_cons]
        rfl
      rw [hgone] at h
      exact ih (s := s.release r)
        ⟨h.made_lt, h.made_rid, h.once, h.gone_made, h.attached_made, h.held, h.attached,
          h.apart, h.somewhere, h.last, h.gone_iff, h.dropped_unattached⟩
        (fun r' hr' => hdue r' (List.mem_cons_of_mem r hr')) (hreserved.release hmade hlive)

end Destructors

/-!
# Steps
-/

section Steps

variable {s t : State} {reservationLimit : Nat}

theorem Owners.fresh {gone : List ReservationId} (h : Owners s gone) :
    s.made.lookup s.nextRid = none := by
  cases hlookup : s.made.lookup s.nextRid with
  | none => rfl
  | some r => exact absurd (h.made_lt _ _ hlookup) (Nat.lt_irrefl _)

theorem Owners.fresh_notMem {gone : List ReservationId} (h : Owners s gone)
    {rids : List ReservationId}
    (hmade : forall rid, rid ∈ rids -> exists r, s.made.lookup rid = some r) :
    s.nextRid ∉ rids := by
  intro hin
  rcases hmade _ hin with ⟨r, hr⟩
  rw [h.fresh] at hr
  cases hr

theorem Owners.grant (h : Owners s s.releases) {r : Reservation} (hrid : r.rid = s.nextRid)
    (spaces : Nat -> Capacity) :
    Owners { s with
      spaces := spaces, made := s.made.insert s.nextRid r
      held := s.held.insert s.nextRid r, nextRid := s.nextRid + 1 } s.releases := by
  have hkept : forall {rid r'}, s.made.lookup rid = some r' ->
      (s.made.insert s.nextRid r).lookup rid = some r' := by
    intro rid r' hmade
    rw [Table.lookup_insert_ne (Nat.ne_of_lt (h.made_lt _ _ hmade))]
    exact hmade
  constructor
  case made_lt =>
    intro rid r' hmade
    rcases Table.lookup_of_lookup_insert hmade with ⟨rfl, _⟩ | ⟨_, hold⟩
    · exact Nat.lt_succ_self _
    · exact Nat.lt_succ_of_lt (h.made_lt rid r' hold)
  case made_rid =>
    intro rid r' hmade
    rcases Table.lookup_of_lookup_insert hmade with ⟨rfl, rfl⟩ | ⟨_, hold⟩
    · exact hrid
    · exact h.made_rid rid r' hold
  case once => exact h.once
  case gone_made =>
    intro rid hgone
    rcases h.gone_made rid hgone with ⟨r', hr'⟩
    exact ⟨r', hkept hr'⟩
  case attached_made =>
    intro rid hattached
    rcases h.attached_made rid hattached with ⟨r', hr'⟩
    exact ⟨r', hkept hr'⟩
  case held =>
    intro rid r' hheld
    rcases Table.lookup_of_lookup_insert hheld with ⟨rfl, rfl⟩ | ⟨_, hold⟩
    · exact ⟨Table.lookup_insert_self _ _ _, h.fresh_notMem h.gone_made,
        h.fresh_notMem h.attached_made⟩
    · rcases h.held rid r' hold with ⟨hmade, hrest⟩
      exact ⟨hkept hmade, hrest⟩
  case attached =>
    intro stream r' hr'
    rcases h.attached stream r' hr' with ⟨hmade, hrest⟩
    exact ⟨hkept hmade, hrest⟩
  case apart => exact h.apart
  case somewhere =>
    intro rid r' hmade
    rcases Table.lookup_of_lookup_insert hmade with ⟨rfl, rfl⟩ | ⟨hne, hold⟩
    · exact .inr (.inl (Table.lookup_insert_self _ _ _))
    · rcases h.somewhere rid r' hold with hgone | hheld | hstream
      · exact .inl hgone
      · exact .inr (.inl ((Table.lookup_insert_ne hne _ _).trans hheld))
      · exact .inr (.inr hstream)
  case last => exact h.last
  case gone_iff => exact h.gone_iff
  case dropped_unattached => exact h.dropped_unattached

theorem Owned.reserve (h : Owned s) (space : Nat) (flavor : Space.Flavor) (bytes : Nat) :
    Owned (s.reserve space flavor bytes) := by
  unfold State.reserve
  dsimp only
  split
  · exact h
  · rename_i granted _
    have hnew := h.owners.fresh_notMem h.owners.gone_made
    refine ⟨h.owners.grant rfl _, ?_⟩
    intro other
    have hsum := Table.sumExcept_insert_of_none h.owners.fresh hnew
      { rid := s.nextRid, space := space, size := granted } (fun _ r => share other r)
    have hreserved := h.reserved other
    dsimp only
    rw [hsum, ← hreserved]
    by_cases hspace : other = space
    · subst hspace
      rw [Function.update_self, share, if_pos rfl, Nat.add_comm]
    · rw [Function.update_of_ne hspace, share, if_neg (fun heq => hspace heq.symm),
        Nat.zero_add]

theorem Owned.drop (h : Owned s) {rid : ReservationId} {r : Reservation}
    (hheld : s.held.lookup rid = some r) :
    Owned ({ s with held := s.held.erase rid, history := s.history.drop rid }.release r) := by
  rcases h.owners.held rid r hheld with ⟨hmade, hlive, hunattached⟩
  have hrid := h.owners.made_rid rid r hmade
  subst hrid
  change Owned (({ s with
    held := s.held.erase r.rid, history := s.history.drop r.rid } : State).releaseAll [r])
  apply Owners.settle
  · constructor
    case made_lt => exact h.owners.made_lt
    case made_rid => exact h.owners.made_rid
    case once =>
      apply h.owners.once.append (List.nodup_singleton _)
      exact List.disjoint_singleton.mpr hlive
    case gone_made =>
      intro rid hgone
      rcases List.mem_append.mp hgone with hold | hnew
      · exact h.owners.gone_made rid hold
      · cases List.mem_singleton.mp hnew
        exact ⟨r, hmade⟩
    case attached_made => exact h.owners.attached_made
    case held =>
      intro rid r' hr'
      rcases Table.lookup_of_lookup_erase hr' with ⟨hne, hold⟩
      rcases h.owners.held rid r' hold with ⟨hmade', hlive', hunattached'⟩
      refine ⟨hmade', ?_, hunattached'⟩
      intro hgone
      rcases List.mem_append.mp hgone with hin | hnew
      · exact hlive' hin
      · exact hne (List.mem_singleton.mp hnew)
    case attached =>
      intro stream r' hr'
      rcases h.owners.attached stream r' hr' with ⟨hmade', hlive', hattached'⟩
      refine ⟨hmade', ?_, hattached'⟩
      intro hgone
      rcases List.mem_append.mp hgone with hin | hnew
      · exact hlive' hin
      · rw [List.mem_singleton.mp hnew] at hattached'
        exact hunattached hattached'
    case apart => exact h.owners.apart
    case somewhere =>
      intro rid r' hr'
      rcases h.owners.somewhere rid r' hr' with hgone | hold | hstream
      · exact .inl (List.mem_append_left _ hgone)
      · by_cases hrid : rid = r.rid
        · exact .inl (List.mem_append_right _ (List.mem_singleton.mpr hrid))
        · exact .inr (.inl ((Table.lookup_erase_ne hrid _).trans hold))
      · exact .inr (.inr hstream)
    case last => exact h.owners.last
    case gone_iff =>
      intro rid
      have hiff := h.owners.gone_iff rid
      change rid ∈ s.releases ++ [r.rid] <-> rid ∈ s.history.dropped ++ [r.rid] ∨ _
      rw [List.mem_append, List.mem_append, hiff]
      tauto
    case dropped_unattached =>
      intro rid hdropped
      rcases List.mem_append.mp hdropped with hold | hnew
      · exact h.owners.dropped_unattached rid hold
      · cases List.mem_singleton.mp hnew
        exact hunattached
  · intro r' hr'
    cases List.mem_singleton.mp hr'
    exact hmade
  · exact h.reserved

theorem reservationOf_attach (tracker : Tracker.State) (stream : Stream)
    (r : Option Reservation) (limitPolicy : Option LimitPolicy) (oomPolicy : Bool)
    (other : Stream) :
    (Tracker.attach tracker stream r limitPolicy oomPolicy).reservationOf other =
      if other = stream then r else tracker.reservationOf other := by
  unfold Tracker.State.reservationOf Tracker.attach
  rw [Table.lookup_insert]
  split
  · rfl
  · rfl

/-- Reservations among those of the streams. -/
theorem mem_attachedReservations {tracker : Tracker.State} {r : Reservation} :
    r ∈ attachedReservations tracker <-> exists stream, tracker.reservationOf stream = some r := by
  unfold attachedReservations Tracker.State.reservationOf
  rw [List.mem_filterMap]
  constructor
  · rintro ⟨attachment, hmem, hr⟩
    rcases Table.mem_values.mp hmem with ⟨stream, hstream⟩
    refine ⟨stream, ?_⟩
    rw [hstream]
    exact hr
  · rintro ⟨stream, hr⟩
    rcases Option.bind_eq_some_iff.mp hr with ⟨attachment, hstream, hattached⟩
    exact ⟨attachment, Table.mem_values.mpr ⟨stream, hstream⟩, hattached⟩

/-- The streams own different reservations. -/
theorem nodup_attachedReservations {tracker : Tracker.State}
    (hapart : forall stream other r r', tracker.reservationOf stream = some r ->
      tracker.reservationOf other = some r' -> r.rid = r'.rid -> stream = other) :
    ((attachedReservations tracker).map Reservation.rid).Nodup := by
  unfold attachedReservations List.Nodup
  rw [List.pairwise_map, List.pairwise_filterMap]
  apply Table.pairwise_values
  intro stream other attachment attachment' hne hstream hother r hr r' hr' heq
  apply hne
  apply hapart stream other r r' _ _ heq
  · exact Option.bind_eq_some_iff.mpr ⟨attachment, hstream, hr⟩
  · exact Option.bind_eq_some_iff.mpr ⟨attachment', hother, hr'⟩

/-- The destructor of the adaptor destroys everything attached. -/
theorem Owned.destroy (h : Owned s) {tracker : Tracker.State}
    (hadaptor : s.adaptor = some tracker) :
    Owned ({ s with adaptor := none }.releaseAll (attachedReservations tracker)) := by
  have hat : forall stream, s.attachedAt stream = tracker.reservationOf stream := by
    intro stream
    unfold State.attachedAt
    rw [hadaptor]
    rfl
  have hmem : forall rid, rid ∈ (attachedReservations tracker).map Reservation.rid <->
      exists stream r, s.attachedAt stream = some r ∧ r.rid = rid := by
    intro rid
    rw [List.mem_map]
    constructor
    · rintro ⟨r, hr, rfl⟩
      rcases mem_attachedReservations.mp hr with ⟨stream, hstream⟩
      exact ⟨stream, r, (hat stream).trans hstream, rfl⟩
    · rintro ⟨stream, r, hstream, rfl⟩
      exact ⟨r, mem_attachedReservations.mpr ⟨stream, (hat stream).symm.trans hstream⟩, rfl⟩
  apply Owners.settle (s := { s with adaptor := none })
  · constructor
    case made_lt => exact h.owners.made_lt
    case made_rid => exact h.owners.made_rid
    case once =>
      apply h.owners.once.append
      · apply nodup_attachedReservations
        intro stream other r r' hr hr'
        exact h.owners.apart stream other r r' ((hat stream).trans hr) ((hat other).trans hr')
      · intro rid hgone hin
        rcases (hmem rid).mp hin with ⟨stream, r, hr, rfl⟩
        exact (h.owners.attached stream r hr).right.left hgone
    case gone_made =>
      intro rid hgone
      rcases List.mem_append.mp hgone with hold | hnew
      · exact h.owners.gone_made rid hold
      · rcases (hmem rid).mp hnew with ⟨stream, r, hr, rfl⟩
        exact ⟨r, (h.owners.attached stream r hr).left⟩
    case attached_made => exact h.owners.attached_made
    case held =>
      intro rid r hr
      rcases h.owners.held rid r hr with ⟨hmade, hlive, hunattached⟩
      refine ⟨hmade, ?_, hunattached⟩
      intro hgone
      rcases List.mem_append.mp hgone with hin | hnew
      · exact hlive hin
      · rcases (hmem rid).mp hnew with ⟨stream, r', hr', rfl⟩
        exact hunattached (h.owners.attached stream r' hr').right.right
    case attached =>
      intro stream r hr
      cases hr
    case apart =>
      intro stream other r r' hr
      cases hr
    case somewhere =>
      intro rid r hr
      rcases h.owners.somewhere rid r hr with hgone | hheld | ⟨stream, hstream⟩
      · exact .inl (List.mem_append_left _ hgone)
      · exact .inr (.inl hheld)
      · have hrid := h.owners.made_rid rid r hr
        exact .inl (List.mem_append_right _ ((hmem rid).mpr ⟨stream, r, hstream, hrid⟩))
    case last =>
      intro hsome
      cases hsome
    case gone_iff =>
      intro rid
      have hiff := h.owners.gone_iff rid
      rw [List.mem_append, hmem]
      constructor
      · rintro (hgone | ⟨stream, r, hstream, rfl⟩)
        · rcases hiff.mp hgone with hdropped | hreplaced | ⟨hattached, _⟩
          · exact .inl hdropped
          · exact .inr (.inl hreplaced)
          · exact .inr (.inr ⟨hattached, rfl⟩)
        · exact .inr (.inr ⟨(h.owners.attached stream r hstream).right.right, rfl⟩)
      · rintro (hdropped | hreplaced | ⟨hattached, _⟩)
        · exact .inl (hiff.mpr (.inl hdropped))
        · exact .inl (hiff.mpr (.inr (.inl hreplaced)))
        · rcases h.owners.attached_made rid hattached with ⟨r, hr⟩
          rcases h.owners.somewhere rid r hr with hgone | hheld | ⟨stream, hstream⟩
          · exact .inl hgone
          · exact absurd hattached (h.owners.held rid r hheld).right.right
          · exact .inr ⟨stream, r, hstream, h.owners.made_rid rid r hr⟩
    case dropped_unattached => exact h.owners.dropped_unattached
  · intro r hr
    rcases mem_attachedReservations.mp hr with ⟨stream, hstream⟩
    exact (h.owners.attached stream r ((hat stream).trans hstream)).left
  · exact h.reserved

theorem mem_map_toList {o : Option Reservation} {rid : ReservationId} :
    rid ∈ o.toList.map Reservation.rid <-> exists r, o = some r ∧ r.rid = rid := by
  simp

/-- A reservation goes over to a stream, and the one it replaces is gone. -/
theorem Owners.replace {gone : List ReservationId} (h : Owners s gone) {stream : Stream}
    {r : Option Reservation} (hr : forall r₀, r = some r₀ -> s.held.lookup r₀.rid = some r₀)
    (hmade : t.made = s.made) (hnext : t.nextRid = s.nextRid)
    (hat : forall other, t.attachedAt other =
      if other = stream then r else s.attachedAt other)
    (hheld : forall rid r', t.held.lookup rid = some r' <->
      s.held.lookup rid = some r' ∧ forall r₀, r = some r₀ -> rid ≠ r₀.rid)
    (hhistory : t.history = s.history.attach stream (r.map Reservation.rid))
    (hbefore : s.adaptor.isSome = true) (hafter : t.adaptor.isSome = true) :
    Owners t (gone ++ (s.attachedAt stream).toList.map Reservation.rid) := by
  have hlast := h.last hbefore stream
  have hgone : forall {rid},
      rid ∈ gone ++ (s.attachedAt stream).toList.map Reservation.rid <->
        rid ∈ gone ∨ exists r₀, s.attachedAt stream = some r₀ ∧ r₀.rid = rid := by
    intro rid
    rw [List.mem_append, mem_map_toList]
  have hattached : forall {rid}, rid ∈ t.history.attached <->
      rid ∈ s.history.attached ∨ exists r₀, r = some r₀ ∧ r₀.rid = rid := by
    intro rid
    rw [hhistory]
    change rid ∈ s.history.attached ++ _ <-> _
    rw [List.mem_append, Option.toList_map, mem_map_toList]
  have hreplaced : forall {rid}, rid ∈ t.history.replaced <->
      rid ∈ s.history.replaced ∨ exists r₀, s.attachedAt stream = some r₀ ∧ r₀.rid = rid := by
    intro rid
    rw [hhistory]
    change rid ∈ s.history.replaced ++ (s.history.last.lookup stream).toList <-> _
    rw [hlast, List.mem_append, Option.toList_map, mem_map_toList]
  -- what a client holds was never attached
  have hapart : forall {r₀ other r'}, r = some r₀ -> s.attachedAt other = some r' ->
      r'.rid ≠ r₀.rid := by
    intro r₀ other r' hr₀ hr' heq
    have hunattached := (h.held _ _ (hr r₀ hr₀)).right.right
    rw [← heq] at hunattached
    exact hunattached (h.attached other r' hr').right.right
  constructor
  case made_lt =>
    rw [hmade, hnext]
    exact h.made_lt
  case made_rid =>
    rw [hmade]
    exact h.made_rid
  case once =>
    apply h.once.append
    · cases s.attachedAt stream with
      | none => exact List.nodup_nil
      | some r₀ => exact List.nodup_singleton _
    · intro rid hin hold
      rcases mem_map_toList.mp hold with ⟨r₀, hr₀, rfl⟩
      exact (h.attached stream r₀ hr₀).right.left hin
  case gone_made =>
    intro rid hin
    rw [hmade]
    rcases hgone.mp hin with hin | ⟨r₀, hr₀, rfl⟩
    · exact h.gone_made rid hin
    · exact ⟨r₀, (h.attached stream r₀ hr₀).left⟩
  case attached_made =>
    intro rid hin
    rw [hmade]
    rcases hattached.mp hin with hin | ⟨r₀, hr₀, rfl⟩
    · exact h.attached_made rid hin
    · exact ⟨r₀, (h.held _ _ (hr r₀ hr₀)).left⟩
  case held =>
    intro rid r' hr'
    rcases (hheld rid r').mp hr' with ⟨hold, hne⟩
    rcases h.held rid r' hold with ⟨hmade', hlive, hunattached⟩
    rw [hmade]
    refine ⟨hmade', ?_, ?_⟩
    · intro hin
      rcases hgone.mp hin with hin | ⟨r₀, hr₀, rfl⟩
      · exact hlive hin
      · exact hunattached (h.attached stream r₀ hr₀).right.right
    · intro hin
      rcases hattached.mp hin with hin | ⟨r₀, hr₀, rfl⟩
      · exact hunattached hin
      · exact hne r₀ hr₀ rfl
  case attached =>
    intro other r' hr'
    rw [hat] at hr'
    rw [hmade]
    split at hr'
    · rcases h.held _ _ (hr r' hr') with ⟨hmade', hlive, hunattached⟩
      refine ⟨hmade', ?_, hattached.mpr (.inr ⟨r', hr', rfl⟩)⟩
      intro hin
      rcases hgone.mp hin with hin | ⟨r₀, hr₀, heq⟩
      · exact hlive hin
      · exact hapart hr' hr₀ heq
    · rename_i hne
      rcases h.attached other r' hr' with ⟨hmade', hlive, hin'⟩
      refine ⟨hmade', ?_, hattached.mpr (.inl hin')⟩
      intro hin
      rcases hgone.mp hin with hin | ⟨r₀, hr₀, heq⟩
      · exact hlive hin
      · exact hne (h.apart other stream r' r₀ hr' hr₀ heq.symm)
  case apart =>
    intro first second r' r'' hr' hr'' heq
    rw [hat] at hr' hr''
    split at hr'
    · rename_i hfirst
      split at hr''
      · rename_i hsecond
        rw [hfirst, hsecond]
      · exact absurd heq.symm (hapart hr' hr'')
    · split at hr''
      · exact absurd heq (hapart hr'' hr')
      · exact h.apart first second r' r'' hr' hr'' heq
  case somewhere =>
    intro rid r' hr'
    rw [hmade] at hr'
    rcases h.somewhere rid r' hr' with hin | hold | ⟨other, hother⟩
    · exact .inl (hgone.mpr (.inl hin))
    · by_cases hgiven : r = some r'
      · refine .inr (.inr ⟨stream, ?_⟩)
        rw [hat, if_pos rfl, hgiven]
      · refine .inr (.inl ((hheld rid r').mpr ⟨hold, ?_⟩))
        intro r₀ hr₀ heq
        have hgranted := hr r₀ hr₀
        rw [← heq, hold] at hgranted
        cases hgranted
        exact hgiven hr₀
    · by_cases heq : other = stream
      · rw [heq] at hother
        exact .inl (hgone.mpr (.inr ⟨r', hother, h.made_rid rid r' hr'⟩))
      · refine .inr (.inr ⟨other, ?_⟩)
        rw [hat, if_neg heq]
        exact hother
  case last =>
    intro _ other
    have hother := h.last hbefore other
    rw [hhistory, hat]
    cases r with
    | none =>
        change (s.history.last.erase stream).lookup other = _
        rw [Table.lookup_erase]
        split
        · rfl
        · exact hother
    | some r₀ =>
        change (s.history.last.insert stream r₀.rid).lookup other = _
        rw [Table.lookup_insert]
        split
        · rfl
        · exact hother
  case gone_iff =>
    intro rid
    have hiff := h.gone_iff rid
    have hs : s.adaptor ≠ none := Option.isSome_iff_ne_none.mp hbefore
    have ht : t.adaptor ≠ none := Option.isSome_iff_ne_none.mp hafter
    rw [hgone, hiff, hreplaced, hhistory]
    change _ <-> rid ∈ s.history.dropped ∨ _
    simp only [hs, ht, and_false, or_false]
    exact or_assoc
  case dropped_unattached =>
    intro rid hdropped hin
    rw [hhistory] at hdropped
    have hdropped' : rid ∈ s.history.dropped := hdropped
    rcases hattached.mp hin with hin | ⟨r₀, hr₀, rfl⟩
    · exact h.dropped_unattached rid hdropped' hin
    · have hlive := (h.held _ _ (hr r₀ hr₀)).right.left
      exact hlive ((h.gone_iff _).mpr (.inl hdropped'))

/-- The destructor of what is replaced runs in the same step. -/
theorem Owned.attach (h : Owned s) {tracker : Tracker.State}
    (hadaptor : s.adaptor = some tracker) (stream : Stream) {r : Option Reservation}
    (hr : forall r₀, r = some r₀ -> s.held.lookup r₀.rid = some r₀)
    (limitPolicy : Option LimitPolicy) (oomPolicy : Bool) :
    Owned (s.attach tracker stream r limitPolicy oomPolicy) := by
  have hsome : s.adaptor.isSome = true := by
    rw [hadaptor]
    rfl
  have hold : tracker.reservationOf stream = s.attachedAt stream := by
    unfold State.attachedAt
    rw [hadaptor]
    rfl
  unfold State.attach
  rw [hold]
  apply Owners.settle
  · refine h.owners.replace hr ?_ ?_ ?_ ?_ ?_ hsome ?_
    · rfl
    · rfl
    · intro other
      unfold State.attachedAt
      rw [hadaptor]
      exact reservationOf_attach tracker stream r limitPolicy oomPolicy other
    · intro rid r'
      cases r with
      | none => simp
      | some r₀ =>
          change (s.held.erase r₀.rid).lookup rid = some r' <-> _
          rw [Table.lookup_erase]
          by_cases heq : rid = r₀.rid
          · simp [heq]
          · simp [heq]
    · rfl
    · rfl
  · intro r₀ hr₀
    exact (h.owners.attached stream r₀ (Option.mem_toList.mp hr₀)).left
  · exact h.reserved

theorem Owned.keep (h : Owned s) {tracker : Tracker.State}
    (hadaptor : s.adaptor = some tracker) (tracker' : Tracker.State)
    (hsame : forall stream, tracker'.reservationOf stream = tracker.reservationOf stream)
    (reset : List ReservationId) :
    Owned { s with
      adaptor := some tracker', history := { s.history with reset := reset } } := by
  have hat : forall stream, tracker'.reservationOf stream = s.attachedAt stream := by
    intro stream
    unfold State.attachedAt
    rw [hadaptor]
    exact hsame stream
  have hsome : s.adaptor.isSome = true := by
    rw [hadaptor]
    rfl
  refine ⟨?_, h.reserved⟩
  constructor
  case made_lt => exact h.owners.made_lt
  case made_rid => exact h.owners.made_rid
  case once => exact h.owners.once
  case gone_made => exact h.owners.gone_made
  case attached_made => exact h.owners.attached_made
  case held => exact h.owners.held
  case attached =>
    intro stream r hr
    exact h.owners.attached stream r ((hat stream).symm.trans hr)
  case apart =>
    intro stream other r r' hr hr'
    exact h.owners.apart stream other r r' ((hat stream).symm.trans hr)
      ((hat other).symm.trans hr')
  case somewhere =>
    intro rid r hr
    rcases h.owners.somewhere rid r hr with hgone | hheld | ⟨stream, hstream⟩
    · exact .inl hgone
    · exact .inr (.inl hheld)
    · exact .inr (.inr ⟨stream, (hat stream).trans hstream⟩)
  case last =>
    intro _ stream
    have hlast := h.owners.last hsome stream
    rw [← hat] at hlast
    exact hlast
  case gone_iff =>
    intro rid
    have hiff := h.owners.gone_iff rid
    rw [hadaptor] at hiff
    simp only [reduceCtorEq, and_false] at hiff ⊢
    exact hiff
  case dropped_unattached => exact h.owners.dropped_unattached

theorem owned_step {e : Event} (h : Owned s)
    (hstep : (ownershipMachine reservationLimit).step s e = some t) : Owned t := by
  cases e with
  | reserve space flavor bytes =>
      cases hstep
      exact h.reserve space flavor bytes
  | drop rid =>
      simp only [ownershipMachine, step] at hstep
      split at hstep
      · cases hstep
      · rename_i r hheld
        cases hstep
        exact h.drop hheld
  | call e =>
      simp only [ownershipMachine, step] at hstep
      split at hstep
      · cases hstep
      · rename_i tracker hadaptor
        rcases Option.map_eq_some_iff.mp hstep with ⟨tracker', hcall, rfl⟩
        rcases Tracker.stepCall_cases hcall with ⟨core, _, _, hcore⟩
        apply h.keep hadaptor tracker' _ s.history.reset
        intro stream
        rw [hcore]
        rfl
  | attach stream rid limitPolicy oomPolicy =>
      simp only [ownershipMachine, step] at hstep
      split at hstep
      · cases hstep
      · rename_i tracker hadaptor
        cases hstep
        exact h.attach hadaptor stream (r := none) (by simp) limitPolicy oomPolicy
      · rename_i tracker rid hadaptor
        split at hstep
        · cases hstep
        · rename_i r hheld
          cases hstep
          have hrid := h.owners.made_rid rid r (h.owners.held rid r hheld).left
          apply h.attach hadaptor stream
          intro r₀ hr₀
          cases hr₀
          rw [hrid]
          exact hheld
  | reset stream =>
      simp only [ownershipMachine, step] at hstep
      split at hstep
      · cases hstep
      · rename_i tracker hadaptor
        cases hstep
        exact h.keep hadaptor (Tracker.reset tracker stream) (fun _ => rfl) _
  | destroy =>
      simp only [ownershipMachine, step] at hstep
      split at hstep
      · cases hstep
      · rename_i tracker hadaptor
        split at hstep
        · cases hstep
          exact h.destroy hadaptor
        · cases hstep

theorem releaseAll_history (s : State) (due : List Reservation) :
    (s.releaseAll due).history = s.history := by
  induction due generalizing s with
  | nil => rfl
  | cons r rest ih => exact ih (s.release r)

/-- Only resets of attached streams are recorded. -/
theorem reset_of_step {e : Event} (hok : ResetsUnattached s e) (h : Owned s)
    (hstep : (ownershipMachine reservationLimit).step s e = some t) :
    t.history.reset = s.history.reset := by
  cases e with
  | reserve space flavor bytes =>
      cases hstep
      unfold State.reserve
      dsimp only
      split
      · rfl
      · rfl
  | drop rid =>
      simp only [ownershipMachine, step] at hstep
      split at hstep
      · cases hstep
      · cases hstep
        rfl
  | call e =>
      simp only [ownershipMachine, step] at hstep
      split at hstep
      · cases hstep
      · rcases Option.map_eq_some_iff.mp hstep with ⟨tracker', _, rfl⟩
        rfl
  | attach stream rid limitPolicy oomPolicy =>
      simp only [ownershipMachine, step] at hstep
      split at hstep
      · cases hstep
      · cases hstep
        exact (congrArg History.reset (releaseAll_history _ _)).trans rfl
      · split at hstep
        · cases hstep
        · cases hstep
          exact (congrArg History.reset (releaseAll_history _ _)).trans rfl
  | reset stream =>
      simp only [ownershipMachine, step] at hstep
      split at hstep
      · cases hstep
      · rename_i tracker hadaptor
        cases hstep
        have hlast := h.owners.last (by rw [hadaptor]; rfl) stream
        rw [show s.attachedAt stream = none from hok] at hlast
        change s.history.reset ++ (s.history.last.lookup stream).toList = _
        rw [hlast]
        exact List.append_nil _
  | destroy =>
      simp only [ownershipMachine, step] at hstep
      split at hstep
      · cases hstep
      · split at hstep
        · cases hstep
          exact congrArg History.reset (releaseAll_history _ _)
        · cases hstep

/-- A reservation is not gone exactly while a client holds it or a stream owns it. -/
theorem Owned.live_iff (h : Owned s) (hreset : s.history.reset = []) {rid : ReservationId}
    {r : Reservation} (hmade : s.made.lookup rid = some r) :
    rid ∉ s.releases <-> s.Held rid ∨ s.StillAttached rid := by
  have hgone := h.owners.gone_iff rid
  constructor
  · intro hlive
    rcases h.owners.somewhere rid r hmade with hin | hheld | ⟨stream, hstream⟩
    · exact absurd hin hlive
    · refine .inl ?_
      unfold State.Held
      rw [hheld]
      rfl
    · rcases h.owners.attached stream r hstream with ⟨_, _, hattached⟩
      rw [h.owners.made_rid rid r hmade] at hattached
      refine .inr ⟨hattached, ?_, ?_, ?_⟩
      · exact fun hreplaced => hlive (hgone.mpr (.inr (.inl hreplaced)))
      · rw [hreset]
        exact List.not_mem_nil
      · cases hadaptor : s.adaptor with
        | none => exact absurd (hgone.mpr (.inr (.inr ⟨hattached, hadaptor⟩))) hlive
        | some tracker => rfl
  · rintro (hheld | ⟨hattached, hreplaced, _, hsome⟩) hin
    · rcases Option.isSome_iff_exists.mp hheld with ⟨r', hr'⟩
      exact (h.owners.held rid r' hr').right.left hin
    · rcases hgone.mp hin with hdropped | hreplaced' | ⟨_, hnone⟩
      · exact h.owners.dropped_unattached rid hdropped hattached
      · exact hreplaced hreplaced'
      · rw [hnone] at hsome
        cases hsome

/-- Where nothing attached was reset, everything is released on time. -/
theorem Owned.releasedOnTime (h : Owned s) (hreset : s.history.reset = []) :
    ReleasedOnTime s where
  once := h.owners.once
  released_iff rid := by
    rw [h.owners.gone_iff, hreset]
    simp
  reserved_eq space := by
    rw [h.reserved space]
    apply Table.sum_congr
    intro rid r hr
    have hlive := h.live_iff hreset hr
    change (if rid ∈ s.releases then 0 else if r.space = space then r.size else 0) = _
    by_cases hin : rid ∈ s.releases
    · rw [if_pos hin, if_neg]
      exact fun hboth => hlive.mpr hboth.right hin
    · rw [if_neg hin]
      by_cases hspace : r.space = space
      · rw [if_pos hspace, if_pos ⟨hspace, hlive.mp hin⟩]
      · rw [if_neg hspace, if_neg (fun hboth => hspace hboth.left)]

/-- The reset of a stream leaves its reservation unreleased. -/
theorem Owned.resetsUnattached (h : Owned s) {e : Event}
    (hstep : (ownershipMachine reservationLimit).step s e = some t)
    (hgood : ReleasedOnTime t) : ResetsUnattached s e := by
  cases e with
  | reset stream =>
      simp only [ownershipMachine, step] at hstep
      split at hstep
      · cases hstep
      · rename_i tracker hadaptor
        cases hstep
        have hlast := h.owners.last (by rw [hadaptor]; rfl) stream
        cases hattached : s.attachedAt stream with
        | none => exact hattached
        | some r =>
            rw [hattached] at hlast
            have hrecorded : r.rid ∈ (s.history.resetStream stream).reset := by
              unfold History.resetStream
              rw [hlast]
              exact List.mem_append_right _ List.mem_cons_self
            have hreleased := (hgood.released_iff r.rid).mpr (.inr (.inr (.inl hrecorded)))
            exact absurd hreleased (h.owners.attached stream r hattached).right.left
  | _ => exact trivial

end Steps

theorem owned_initial (max : Nat -> UInt64) : Owned (State.initial max) := by
  constructor
  · constructor
    case made_lt =>
      intro rid r hr
      cases hr
    case made_rid =>
      intro rid r hr
      cases hr
    case once => exact List.nodup_nil
    case gone_made =>
      intro rid hin
      cases hin
    case attached_made =>
      intro rid hin
      cases hin
    case held =>
      intro rid r hr
      cases hr
    case attached =>
      intro stream r hr
      cases hr
    case apart =>
      intro stream other r r' hr
      cases hr
    case somewhere =>
      intro rid r hr
      cases hr
    case last =>
      intro _ stream
      rfl
    case gone_iff =>
      intro rid
      simp [State.initial, History.initial]
    case dropped_unattached =>
      intro rid hin
      cases hin
  · intro space
    rfl

/--
Attached reservations are released once and on time in every state of a run, and the
counters of the spaces are the sums of what is attached or held, exactly if no stream is
reset while a reservation is attached to it.
-/
theorem released_on_time_iff (reservationLimit : Nat) (max : Nat -> UInt64)
    (events : List Event) :
    (ownershipMachine reservationLimit).Reaches ReleasedOnTime (State.initial max) events <->
      (ownershipMachine reservationLimit).Along ResetsUnattached (State.initial max)
        events := by
  have hstep : forall s e t, (Owned s ∧ s.history.reset = []) -> ResetsUnattached s e ->
      (ownershipMachine reservationLimit).step s e = some t ->
      (Owned t ∧ t.history.reset = []) ∧ ReleasedOnTime t := by
    intro s e t hs hok hstep
    have hnext := owned_step hs.left hstep
    have hreset := (reset_of_step hok hs.left hstep).trans hs.right
    exact ⟨⟨hnext, hreset⟩, hnext.releasedOnTime hreset⟩
  have hfail : forall s e t, (Owned s ∧ s.history.reset = []) ->
      (ownershipMachine reservationLimit).step s e = some t ->
      ReleasedOnTime t -> ResetsUnattached s e :=
    fun s e t hs hstep hgood => hs.left.resetsUnattached hstep hgood
  exact Machine.throughout_iff_along hstep hfail ⟨owned_initial max, rfl⟩

/-- A reservation of 16 bytes is attached and its stream is reset: it is not released, and
its bytes stay reserved. -/
theorem reset_releases_nothing :
    exists t, (ownershipMachine 0).run (State.initial (fun _ => 64))
        [.reserve 0 .throwing 16, .attach 1 (some 0) none false, .reset 1] = some t ∧
      t.history.reset = [0] ∧ t.releases = [] ∧ (t.spaces 0).reserved = 16 ∧
      ¬ ReleasedOnTime t := by
  refine ⟨_, rfl, rfl, rfl, rfl, ?_⟩
  intro hgood
  have hreleased := (hgood.released_iff 0).mpr (.inr (.inr (.inl List.mem_cons_self)))
  exact List.not_mem_nil hreleased

end Ownership
end ResourceAdaptor
end Memory
end Cuda2Rocm
