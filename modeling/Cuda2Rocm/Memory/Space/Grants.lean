import Cuda2Rocm.Memory.Space.Accounting

/-!
# Grants of a memory space

A ledger kept beside a run records what each committed exchange granted, until the
exchange of its release commits.  The counter is the sum of the ledger, and what a
call decides it decides on a value that it loaded.
-/

namespace Cuda2Rocm
namespace Memory
namespace Space

open Foundation

/-- The bytes granted to each reservation, and the reservation that each release in
flight gives back. -/
structure Ledger where
  granted : Table Nat Nat
  returning : Table Nat Nat

namespace Ledger

def empty : Ledger := { granted := Table.empty, returning := Table.empty }

/-- A grant is entered when its exchange commits, and struck off when the exchange of
its release does. -/
def record (s : State) (l : Ledger) : Event -> Ledger
  | .destroy thread rid => { l with returning := l.returning.insert thread rid }
  | .tick thread spurious =>
      match s.threads.lookup thread with
      | some (.reserving flavor bytes loop) =>
          match CasLoop.step (reserveNext flavor s.max bytes) spurious s.reserved loop,
              flavor.amount s.max bytes s.reserved with
          | .committed _, some granted =>
              { l with granted := l.granted.insert s.nextRid granted }
          | _, _ => l
      | some (.releasing bytes loop) =>
          match CasLoop.step (releaseNext bytes) spurious s.reserved loop,
              l.returning.lookup thread with
          | .committed _, some rid =>
              { granted := l.granted.erase rid, returning := l.returning.erase thread }
          | _, _ => l
      | _ => l
  | _ => l

/-- Bytes granted and not yet released. -/
def outstanding (l : Ledger) : Nat := l.granted.sum (fun _ bytes => bytes)

end Ledger

/-- The ledger at the end of a run. -/
def ledgerAfter (max : UInt64) (events : List Event) : Ledger :=
  spaceMachine.observe Ledger.record (State.initial max) Ledger.empty events

/-!
# The ledger of a run
-/

/-- The counter is the sum of the ledger; live reservations and releases in flight have
entries of their own. -/
structure Kept (s : State) (l : Ledger) : Prop where
  outstanding_eq : s.reserved = l.outstanding
  live : forall rid r, s.live.lookup rid = some r ->
    l.granted.lookup rid = some r.captured
  releasing : forall thread bytes loop,
    s.threads.lookup thread = some (.releasing bytes loop) ->
    exists rid, l.returning.lookup thread = some rid ∧ l.granted.lookup rid = some bytes
  returning : forall thread rid, l.returning.lookup thread = some rid ->
    s.live.lookup rid = none ∧ rid < s.nextRid
  alone : forall thread other rid, l.returning.lookup thread = some rid ->
    l.returning.lookup other = some rid -> thread = other
  fresh : forall rid bytes, l.granted.lookup rid = some bytes -> rid < s.nextRid

section Steps

variable {s t : State} {l : Ledger}

/-- New frames that release nothing new leave the ledger in order. -/
theorem Kept.of_threads (h : Kept s l) {threads : Table Nat Frame}
    (hframes : forall thread bytes loop,
      threads.lookup thread = some (.releasing bytes loop) ->
      exists loop', s.threads.lookup thread = some (.releasing bytes loop')) :
    Kept { s with threads := threads } l := by
  refine ⟨h.outstanding_eq, h.live, ?_, h.returning, h.alone, h.fresh⟩
  intro thread bytes loop hlookup
  rcases hframes thread bytes loop hlookup with ⟨loop', hold⟩
  exact h.releasing thread bytes loop' hold

theorem Kept.setFrame (h : Kept s l) {thread : Nat} {frame : Frame}
    (hframe : forall bytes loop, frame ≠ .releasing bytes loop) :
    Kept (s.setFrame thread frame) l := by
  apply h.of_threads
  intro other bytes loop hlookup
  rcases Table.lookup_of_lookup_insert hlookup with ⟨_, heq⟩ | ⟨_, hold⟩
  · exact absurd heq.symm (hframe bytes loop)
  · exact ⟨loop, hold⟩

theorem kept_grant (h : Kept s l) {thread granted : Nat} :
    Kept (s.grant thread granted)
      { l with granted := l.granted.insert s.nextRid granted } := by
  have hunused : l.granted.lookup s.nextRid = none := by
    rcases Option.eq_none_or_eq_some (l.granted.lookup s.nextRid) with hnone | ⟨bytes, hsome⟩
    · exact hnone
    · exact absurd (h.fresh s.nextRid bytes hsome) (Nat.lt_irrefl _)
  have hne : forall rid bytes, l.granted.lookup rid = some bytes -> rid ≠ s.nextRid :=
    fun rid bytes hgranted => Nat.ne_of_lt (h.fresh rid bytes hgranted)
  constructor
  · have hsum := Table.sum_insert_of_none hunused granted (fun _ bytes => bytes)
    have heq := h.outstanding_eq
    show s.reserved + granted = (l.granted.insert s.nextRid granted).sum _
    rw [hsum, heq]
    exact Nat.add_comm _ _
  · intro rid r hlookup
    rcases Table.lookup_of_lookup_insert hlookup with ⟨rfl, rfl⟩ | ⟨hother, hold⟩
    · exact Table.lookup_insert_self _ _ _
    · exact (Table.lookup_insert_ne hother _ _).trans (h.live rid r hold)
  · intro other bytes loop hlookup
    rcases Table.lookup_of_lookup_insert hlookup with ⟨_, heq⟩ | ⟨_, hold⟩
    · cases heq
    · rcases h.releasing other bytes loop hold with ⟨rid, hreturning, hgranted⟩
      exact ⟨rid, hreturning,
        (Table.lookup_insert_ne (hne rid bytes hgranted) _ _).trans hgranted⟩
  · intro other rid hreturning
    have hold := h.returning other rid hreturning
    refine ⟨?_, Nat.lt_succ_of_lt hold.right⟩
    exact (Table.lookup_insert_ne (Nat.ne_of_lt hold.right) _ _).trans hold.left
  · exact h.alone
  · intro rid bytes hlookup
    rcases Table.lookup_of_lookup_insert hlookup with ⟨rfl, _⟩ | ⟨_, hold⟩
    · exact Nat.lt_succ_self _
    · exact Nat.lt_succ_of_lt (h.fresh rid bytes hold)

theorem kept_tickReserving (h : Kept s l) {thread bytes : Nat} {flavor : Flavor}
    {loop : CasLoop} (spurious : Bool)
    (hframe : s.threads.lookup thread = some (.reserving flavor bytes loop)) :
    Kept (s.tickReserving thread flavor bytes loop spurious)
      (l.record s (.tick thread spurious)) := by
  unfold State.tickReserving
  simp only [Ledger.record, hframe]
  rcases loop.step_cases (reserveNext flavor s.max bytes) spurious s.reserved with
    ⟨hloop, _⟩ | ⟨cur, _, _, hloop⟩ | ⟨next, _, hnext, hloop⟩
  · rw [hloop]
    exact h.setFrame (fun _ _ heq => by cases heq)
  · rw [hloop]
    exact h.setFrame (fun _ _ heq => by cases heq)
  · rcases Option.map_eq_some_iff.mp hnext with ⟨granted, hgranted, rfl⟩
    rw [hloop, hgranted]
    dsimp only
    rw [Nat.add_sub_cancel_left]
    exact kept_grant h

theorem kept_giveBack (h : Kept s l) {thread rid bytes next : Nat}
    (hreturning : l.returning.lookup thread = some rid)
    (hgranted : l.granted.lookup rid = some bytes) (hnext : s.reserved = next + bytes) :
    Kept { s with
      reserved := next
      threads := s.threads.insert thread (.done .released) }
      { granted := l.granted.erase rid, returning := l.returning.erase thread } := by
  constructor
  · have hsum := Table.sum_of_lookup hgranted (fun _ bytes => bytes)
    have heq := h.outstanding_eq
    change l.outstanding = bytes + _ at hsum
    show next = (l.granted.erase rid).sum _
    omega
  · intro other r hlive
    have hne : other ≠ rid := by
      rintro rfl
      have hnone := (h.returning thread other hreturning).left
      change s.live.lookup other = some r at hlive
      rw [hnone] at hlive
      cases hlive
    exact (Table.lookup_erase_ne hne _).trans (h.live other r hlive)
  · intro other bytes' loop hlookup
    rcases Table.lookup_of_lookup_insert hlookup with ⟨_, heq⟩ | ⟨hother, hold⟩
    · cases heq
    · rcases h.releasing other bytes' loop hold with ⟨rid', hreturning', hgranted'⟩
      refine ⟨rid', (Table.lookup_erase_ne hother _).trans hreturning', ?_⟩
      have hne : rid' ≠ rid := by
        rintro rfl
        exact hother (h.alone other thread rid' hreturning' hreturning)
      exact (Table.lookup_erase_ne hne _).trans hgranted'
  · intro other rid' hlookup
    exact h.returning other rid' (Table.lookup_of_lookup_erase hlookup).right
  · intro first second rid' hfirst hsecond
    exact h.alone first second rid' (Table.lookup_of_lookup_erase hfirst).right
      (Table.lookup_of_lookup_erase hsecond).right
  · intro rid' bytes' hlookup
    exact h.fresh rid' bytes' (Table.lookup_of_lookup_erase hlookup).right

theorem kept_tickReleasing (h : Kept s l) {thread bytes : Nat} {loop : CasLoop}
    (spurious : Bool) (hframe : s.threads.lookup thread = some (.releasing bytes loop)) :
    Kept (s.tickReleasing thread bytes loop spurious)
      (l.record s (.tick thread spurious)) := by
  unfold State.tickReleasing
  simp only [Ledger.record, hframe]
  rcases h.releasing thread bytes loop hframe with ⟨rid, hreturning, hgranted⟩
  rcases loop.step_cases (releaseNext bytes) spurious s.reserved with
    ⟨hloop, _⟩ | ⟨cur, _, _, hloop⟩ | ⟨next, _, hnext, hloop⟩
  · rw [hloop]
    apply h.of_threads
    intro other bytes' loop' hlookup
    rcases Table.lookup_of_lookup_insert hlookup with ⟨rfl, heq⟩ | ⟨_, hold⟩
    · cases heq
      exact ⟨loop, hframe⟩
    · exact ⟨loop', hold⟩
  · rw [hloop]
    exact h.setFrame (fun _ _ heq => by cases heq)
  · rw [hloop, hreturning]
    exact kept_giveBack h hreturning hgranted (releaseNext_some hnext)

theorem kept_destroy (h : Kept s l) {thread rid : Nat} {r : Reserved}
    (hlive : s.live.lookup rid = some r) :
    Kept { s with
      live := s.live.erase rid
      threads := s.threads.insert thread (.releasing r.captured .load) }
      { l with returning := l.returning.insert thread rid } := by
  have hgranted := h.live rid r hlive
  have hnot : forall other, l.returning.lookup other ≠ some rid := by
    intro other hreturning
    have hnone := (h.returning other rid hreturning).left
    rw [hlive] at hnone
    cases hnone
  constructor
  · exact h.outstanding_eq
  · intro other r' hlookup
    exact h.live other r' (Table.lookup_of_lookup_erase hlookup).right
  · intro other bytes loop hlookup
    rcases Table.lookup_of_lookup_insert hlookup with ⟨rfl, heq⟩ | ⟨hother, hold⟩
    · cases heq
      exact ⟨rid, Table.lookup_insert_self _ _ _, hgranted⟩
    · rcases h.releasing other bytes loop hold with ⟨rid', hreturning, hgranted'⟩
      exact ⟨rid', (Table.lookup_insert_ne hother _ _).trans hreturning, hgranted'⟩
  · intro other rid' hlookup
    rcases Table.lookup_of_lookup_insert hlookup with ⟨_, rfl⟩ | ⟨_, hold⟩
    · exact ⟨Table.lookup_erase_self _ _, h.fresh _ _ hgranted⟩
    · have hreturning := h.returning other rid' hold
      refine ⟨?_, hreturning.right⟩
      have hne : rid' ≠ rid := by
        rintro rfl
        exact hnot other hold
      exact (Table.lookup_erase_ne hne _).trans hreturning.left
  · intro first second rid' hfirst hsecond
    rcases Table.lookup_of_lookup_insert hfirst with ⟨rfl, rfl⟩ | ⟨_, hold⟩
    · rcases Table.lookup_of_lookup_insert hsecond with ⟨rfl, _⟩ | ⟨_, hold'⟩
      · rfl
      · exact absurd hold' (hnot second)
    · rcases Table.lookup_of_lookup_insert hsecond with ⟨_, rfl⟩ | ⟨_, hold'⟩
      · exact absurd hold (hnot first)
      · exact h.alone first second rid' hold hold'
  · exact h.fresh

theorem kept_growBy (h : Kept s l) {rid size : Nat} {r : Reserved}
    (hlive : s.live.lookup rid = some r) :
    Kept { s with live := s.live.insert rid { r with size := size } } l := by
  refine ⟨h.outstanding_eq, ?_, h.releasing, ?_, h.alone, h.fresh⟩
  · intro other r' hlookup
    rcases Table.lookup_of_lookup_insert hlookup with ⟨rfl, rfl⟩ | ⟨_, hold⟩
    · exact h.live other r hlive
    · exact h.live other r' hold
  · intro thread rid' hreturning
    have hold := h.returning thread rid' hreturning
    refine ⟨?_, hold.right⟩
    have hne : rid' ≠ rid := by
      rintro rfl
      rw [hlive] at hold
      cases hold.left
    exact (Table.lookup_insert_ne hne _ _).trans hold.left

theorem kept_step {e : Event} (h : Kept s l) (hstep : step s e = some t) :
    Kept t (l.record s e) := by
  cases step_move hstep with
  | reserve _ _ => exact h.setFrame (fun _ _ heq => by cases heq)
  | destroy _ hlive => exact kept_destroy h hlive
  | growBy hlive => exact kept_growBy h hlive
  | tickReserving hframe => exact kept_tickReserving h _ hframe
  | tickReleasing hframe => exact kept_tickReleasing h _ hframe
  | ret _ =>
      apply h.of_threads
      intro other bytes loop hlookup
      exact ⟨loop, (Table.lookup_of_lookup_erase hlookup).right⟩

end Steps

theorem kept_run {max : UInt64} {events : List Event} {s : State}
    (h : spaceMachine.run (State.initial max) events = some s) :
    Kept s (ledgerAfter max events) := by
  have hstep : forall s l e t, Kept s l -> spaceMachine.step s e = some t ->
      Kept t (Ledger.record s l e) := fun _ _ _ _ hinv hs => kept_step hinv hs
  refine Machine.invariant_observe hstep ?_ h
  refine ⟨rfl, ?_, ?_, ?_, ?_, ?_⟩
  · intro rid r hlookup
    cases hlookup
  · intro thread bytes loop hlookup
    cases hlookup
  · intro thread rid hlookup
    cases hlookup
  · intro thread other rid hlookup
    cases hlookup
  · intro rid bytes hlookup
    cases hlookup

/-!
# What a call has seen
-/

/-- Events of a thread. -/
def Event.isOf (thread : Nat) : Event -> Bool
  | .reserve other _ _ => other == thread
  | .destroy other _ => other == thread
  | .growBy _ _ => false
  | .tick other _ => other == thread
  | .ret other => other == thread

/-- When a reserving function may refuse, by the counter it loaded. -/
def Flavor.MayRefuse (flavor : Flavor) (max reserved bytes : Nat) : Prop :=
  match flavor with
  | .throwing => max < reserved + bytes
  | .orNull => max < reserved + bytes
  | .upto => max ≤ reserved ∨ bytes = 0

/-- The last event of the thread was a load of the counter by the call that is in
flight, in a state of the run that satisfies the predicate. -/
def LoadedWhere (max : UInt64) (events : List Event) (thread : Nat) (flavor : Flavor)
    (bytes : Nat) (good : State -> Prop) : Prop :=
  exists before spurious rest u,
    events = before ++ .tick thread spurious :: rest ∧
    (forall e, e ∈ rest -> e.isOf thread = false) ∧
    spaceMachine.run (State.initial max) before = some u ∧
    (exists loop, u.threads.lookup thread = some (.reserving flavor bytes loop)) ∧
    good u

theorem LoadedWhere.mono {max : UInt64} {events : List Event} {thread : Nat}
    {flavor : Flavor} {bytes : Nat} {good better : State -> Prop}
    (h : LoadedWhere max events thread flavor bytes good)
    (himp : forall before u, spaceMachine.run (State.initial max) before = some u ->
      good u -> better u) :
    LoadedWhere max events thread flavor bytes better := by
  rcases h with ⟨before, spurious, rest, u, hevents, hrest, hrun, hframe, hgood⟩
  exact ⟨before, spurious, rest, u, hevents, hrest, hrun, hframe, himp before u hrun hgood⟩

section Steps

variable {s t : State} {e : Event} {thread : Nat}

theorem lookup_setFrame_self (s : State) (thread : Nat) (frame : Frame) :
    (s.setFrame thread frame).threads.lookup thread = some frame :=
  Table.lookup_insert_self _ _ _

theorem lookup_grant_self (s : State) (thread granted : Nat) :
    (s.grant thread granted).threads.lookup thread =
      some (.done (.reservation s.nextRid)) :=
  Table.lookup_insert_self _ _ _

theorem lookup_of_other (h : step s e = some t) (hother : e.isOf thread = false) :
    t.threads.lookup thread = s.threads.lookup thread := by
  have hinsert : forall {other : Nat} (frame : Frame), (other == thread) = false ->
      (s.threads.insert other frame).lookup thread = s.threads.lookup thread :=
    fun frame hne => Table.lookup_insert_ne (Ne.symm (beq_eq_false_iff_ne.mp hne)) _ _
  cases step_move h with
  | reserve _ _ => exact hinsert _ hother
  | destroy _ _ => exact hinsert _ hother
  | growBy _ => rfl
  | tickReserving _ =>
      unfold State.tickReserving
      split
      · exact hinsert _ hother
      · exact hinsert _ hother
      · exact hinsert _ hother
  | tickReleasing _ =>
      unfold State.tickReleasing
      split
      · exact hinsert _ hother
      · exact hinsert _ hother
      · exact hinsert _ hother
  | ret _ => exact Table.lookup_erase_ne (Ne.symm (beq_eq_false_iff_ne.mp hother)) _

/-- A thread that is about to exchange has just loaded the counter, by its own step. -/
theorem loaded_of_own (h : step s e = some t) (hown : e.isOf thread = true)
    {flavor : Flavor} {bytes cur : Nat}
    (hframe : t.threads.lookup thread = some (.reserving flavor bytes (.cas cur))) :
    exists spurious loop, e = .tick thread spurious ∧ s.reserved = cur ∧
      s.threads.lookup thread = some (.reserving flavor bytes loop) := by
  cases step_move h with
  | reserve _ _ =>
      cases beq_iff_eq.mp hown
      rw [lookup_setFrame_self] at hframe
      cases hframe
  | destroy _ _ =>
      cases beq_iff_eq.mp hown
      rw [Table.lookup_insert_self] at hframe
      cases hframe
  | growBy _ => cases hown
  | @tickReserving _ spurious flavor' bytes' loop hold =>
      cases beq_iff_eq.mp hown
      rcases tickReserving_cases s thread flavor' bytes' loop spurious with
        heq | ⟨seen, _, _, heq⟩ | ⟨granted, _, _, heq⟩
      · rw [heq, lookup_setFrame_self] at hframe
        cases hframe
        exact ⟨spurious, loop, rfl, rfl, hold⟩
      · rw [heq, lookup_setFrame_self] at hframe
        cases hframe
      · rw [heq, lookup_grant_self] at hframe
        cases hframe
  | tickReleasing _ =>
      cases beq_iff_eq.mp hown
      unfold State.tickReleasing at hframe
      split at hframe
      · rw [lookup_setFrame_self] at hframe
        cases hframe
      · rw [lookup_setFrame_self] at hframe
        cases hframe
      · rw [Table.lookup_insert_self] at hframe
        cases hframe
  | ret _ =>
      cases beq_iff_eq.mp hown
      rw [Table.lookup_erase_self] at hframe
      cases hframe

theorem step_max (h : step s e = some t) : t.max = s.max := by
  cases step_move h with
  | tickReserving _ =>
      unfold State.tickReserving
      split <;> rfl
  | tickReleasing _ =>
      unfold State.tickReleasing
      split <;> rfl
  | _ => rfl

end Steps

/-- The value a thread is about to exchange is the counter at its last event. -/
theorem seen_was_loaded {max : UInt64} {events : List Event} :
    forall {s : State} {thread : Nat} {flavor : Flavor} {bytes cur : Nat},
      spaceMachine.run (State.initial max) events = some s ->
      s.threads.lookup thread = some (.reserving flavor bytes (.cas cur)) ->
      LoadedWhere max events thread flavor bytes (fun u => u.reserved = cur) := by
  induction events using List.reverseRecOn with
  | nil =>
      intro s thread flavor bytes cur hrun hframe
      cases hrun
      cases hframe
  | append_singleton earlier e ih =>
      intro s thread flavor bytes cur hrun hframe
      rcases Machine.run_concat_some hrun with ⟨u, hearlier, hstep⟩
      rcases Bool.eq_false_or_eq_true (e.isOf thread) with hown | hother
      · rcases loaded_of_own hstep hown hframe with ⟨spurious, loop, rfl, hcur, hold⟩
        exact ⟨earlier, spurious, [], u, rfl, fun _ hmem => absurd hmem List.not_mem_nil,
          hearlier, ⟨loop, hold⟩, hcur⟩
      · rw [lookup_of_other hstep hother] at hframe
        rcases ih hearlier hframe with
          ⟨before, spurious, rest, v, rfl, hrest, hbefore, hload, hcur⟩
        refine ⟨before, spurious, rest ++ [e], v, ?_, ?_, hbefore, hload, hcur⟩
        · rw [List.append_assoc, List.cons_append]
        · intro e' hmem
          rcases List.mem_append.mp hmem with hin | hlast
          · exact hrest e' hin
          · rw [List.mem_singleton.mp hlast]
            exact hother

theorem max_run {max : UInt64} {events : List Event} {s : State}
    (h : spaceMachine.run (State.initial max) events = some s) : s.max = max.toNat := by
  have hstep : forall s e t, s.max = max.toNat -> spaceMachine.step s e = some t ->
      t.max = max.toNat := fun _ _ _ hmax hs => (step_max hs).trans hmax
  exact Machine.invariant_run_always hstep rfl h

/-!
# Safety of reservations
-/

/-- What holds at the end of a run, and of the next step of every call in flight. -/
structure ReservesSafely (max : UInt64) (events : List Event) (s : State) : Prop where
  reserved_eq : s.reserved = (ledgerAfter max events).outstanding
  reserved_le : s.reserved ≤ max.toNat
  reserved_zero : (forall rid, s.live.lookup rid = none) ->
    (forall thread bytes loop, s.threads.lookup thread ≠ some (.releasing bytes loop)) ->
    s.reserved = 0
  refusal : forall thread flavor bytes loop spurious t,
    s.threads.lookup thread = some (.reserving flavor bytes loop) ->
    step s (.tick thread spurious) = some t ->
    t.threads.lookup thread = some (.done flavor.refusal) ->
    LoadedWhere max events thread flavor bytes
      (fun u => flavor.MayRefuse max.toNat u.reserved bytes)
  upto_grant : forall thread bytes loop spurious t rid,
    s.threads.lookup thread = some (.reserving .upto bytes loop) ->
    step s (.tick thread spurious) = some t ->
    t.threads.lookup thread = some (.done (.reservation rid)) ->
    exists granted, granted = min bytes (available max.toNat s.reserved) ∧ 0 < granted ∧
      t.live.lookup rid = some { size := granted, captured := granted } ∧
      t.reserved = s.reserved + granted
  never_gives_up : forall thread bytes loop spurious,
    s.threads.lookup thread = some (.releasing bytes loop) ->
    CasLoop.step (releaseNext bytes) spurious s.reserved loop ≠ .gaveUp

/-- In truncating arithmetic the guard against underflow is not needed. -/
theorem available_eq (max reserved : Nat) : available max reserved = max - reserved := by
  unfold available
  split
  · rfl
  · omega

theorem mayRefuse_of_amount {flavor : Flavor} {max reserved bytes : Nat}
    (hle : reserved ≤ max) (h : flavor.amount max bytes reserved = none) :
    flavor.MayRefuse max reserved bytes := by
  cases flavor with
  | throwing =>
      simp only [Flavor.amount, available_eq] at h
      split at h
      · show max < reserved + bytes
        omega
      · cases h
  | orNull =>
      simp only [Flavor.amount, available_eq] at h
      split at h
      · show max < reserved + bytes
        omega
      · cases h
  | upto =>
      simp only [Flavor.amount, available_eq] at h
      split at h
      · show max ≤ reserved ∨ bytes = 0
        omega
      · cases h

theorem upto_amount {max reserved bytes granted : Nat}
    (h : Flavor.amount .upto max bytes reserved = some granted) :
    granted = min bytes (available max reserved) ∧ 0 < granted := by
  simp only [Flavor.amount] at h
  split at h
  · cases h
  · rename_i hne
    cases h
    exact ⟨rfl, Nat.pos_of_ne_zero hne⟩

section Ends

variable {max : UInt64} {events : List Event} {s t : State} {thread : Nat}

theorem step_reserving {flavor : Flavor} {bytes : Nat} {loop : CasLoop} {spurious : Bool}
    (hframe : s.threads.lookup thread = some (.reserving flavor bytes loop))
    (h : step s (.tick thread spurious) = some t) :
    t = s.tickReserving thread flavor bytes loop spurious := by
  simp only [step, hframe] at h
  exact (Option.some.inj h).symm

/-- A refused call had loaded a counter that leaves it no room. -/
theorem refused_at_load (hrun : spaceMachine.run (State.initial max) events = some s)
    {flavor : Flavor} {bytes : Nat} {loop : CasLoop} {spurious : Bool}
    (hframe : s.threads.lookup thread = some (.reserving flavor bytes loop))
    (hstep : step s (.tick thread spurious) = some t)
    (hrefused : t.threads.lookup thread = some (.done flavor.refusal)) :
    LoadedWhere max events thread flavor bytes
      (fun u => flavor.MayRefuse max.toNat u.reserved bytes) := by
  cases step_reserving hframe hstep
  rcases tickReserving_cases s thread flavor bytes loop spurious with
    heq | ⟨cur, rfl, hnone, _⟩ | ⟨granted, _, _, heq⟩
  · rw [heq, lookup_setFrame_self] at hrefused
    cases hrefused
  · refine (seen_was_loaded hrun hframe).mono ?_
    intro before u hbefore hcur
    have hle := (accounted_run hbefore).reserved_le
    rw [max_run hbefore] at hle
    rw [max_run hrun] at hnone
    cases hcur
    exact mayRefuse_of_amount hle hnone
  · rw [heq, lookup_grant_self] at hrefused
    cases flavor <;> cases hrefused

theorem upto_grant_exact (hmax : s.max = max.toNat) {bytes rid : Nat} {loop : CasLoop}
    {spurious : Bool}
    (hframe : s.threads.lookup thread = some (.reserving .upto bytes loop))
    (hstep : step s (.tick thread spurious) = some t)
    (hgranted : t.threads.lookup thread = some (.done (.reservation rid))) :
    exists granted, granted = min bytes (available max.toNat s.reserved) ∧ 0 < granted ∧
      t.live.lookup rid = some { size := granted, captured := granted } ∧
      t.reserved = s.reserved + granted := by
  cases step_reserving hframe hstep
  rcases tickReserving_cases s thread .upto bytes loop spurious with
    heq | ⟨cur, _, _, heq⟩ | ⟨granted, _, hamount, heq⟩
  · rw [heq, lookup_setFrame_self] at hgranted
    cases hgranted
  · rw [heq, lookup_setFrame_self] at hgranted
    cases hgranted
  · rw [heq, lookup_grant_self] at hgranted
    cases hgranted
    rw [hmax] at hamount
    have hexact := upto_amount hamount
    refine ⟨granted, hexact.left, hexact.right, ?_⟩
    rw [heq]
    exact ⟨Table.lookup_insert_self _ _ _, rfl⟩

theorem release_never_gives_up (h : Accounted s) {bytes : Nat} {loop : CasLoop}
    (spurious : Bool) (hframe : s.threads.lookup thread = some (.releasing bytes loop)) :
    CasLoop.step (releaseNext bytes) spurious s.reserved loop ≠ .gaveUp := by
  rcases loop.step_cases (releaseNext bytes) spurious s.reserved with
    ⟨hloop, _⟩ | ⟨cur, rfl, hnone, _⟩ | ⟨next, _, _, hloop⟩
  · rw [hloop]
    exact fun heq => by cases heq
  · rw [releaseNext_of_le (h.seen_le thread bytes cur hframe)] at hnone
    cases hnone
  · rw [hloop]
    exact fun heq => by cases heq

/-- With no reservation live and no release in flight nothing is reserved. -/
theorem reserved_eq_zero (h : Accounted s) (hlive : forall rid, s.live.lookup rid = none)
    (hreleasing : forall thread bytes loop,
      s.threads.lookup thread ≠ some (.releasing bytes loop)) : s.reserved = 0 := by
  have hcaptured : s.liveCaptured = 0 := by
    refine (Table.sum_congr ?_).trans (Table.sum_zero s.live)
    intro rid r hlookup
    rw [hlive rid] at hlookup
    cases hlookup
  have howed : s.inFlight = 0 := by
    refine (Table.sum_congr ?_).trans (Table.sum_zero s.threads)
    intro thread frame hlookup
    cases frame with
    | releasing bytes loop => exact absurd hlookup (hreleasing thread bytes loop)
    | _ => rfl
  rw [h.reserved_eq, hcaptured, howed]

end Ends

/-- Reservations on a memory space are safe in every run: the counter is what was granted
and not yet released, and every call decides rightly by what it loaded. -/
theorem space_reserves_safely (max : UInt64) (events : List Event) (s : State)
    (hrun : spaceMachine.run (State.initial max) events = some s) :
    ReservesSafely max events s := by
  have haccounted := accounted_run hrun
  have hmax := max_run hrun
  constructor
  · exact (kept_run hrun).outstanding_eq
  · exact hmax ▸ haccounted.reserved_le
  · exact reserved_eq_zero haccounted
  · intro thread flavor bytes loop spurious t hframe hstep hrefused
    exact refused_at_load hrun hframe hstep hrefused
  · intro thread bytes loop spurious t rid hframe hstep hgranted
    exact upto_grant_exact hmax hframe hstep hgranted
  · intro thread bytes loop spurious hframe
    exact release_never_gives_up haccounted spurious hframe

/-- Two calls race for a space of 10 bytes: the exchange of the second fails, and on the
value it then sees it gets the 3 bytes that are left. -/
def raceForTen : List Event :=
  [.reserve 0 .orNull 7, .reserve 1 .upto 5, .tick 0 false, .tick 1 false, .tick 0 false,
    .tick 1 false, .tick 1 false, .ret 0, .ret 1, .destroy 0 0, .tick 0 false, .tick 0 true]

theorem space_reserves_safely_raceForTen :
    exists s, spaceMachine.run (State.initial 10) raceForTen = some s ∧
      s.reserved = 10 ∧ ReservesSafely 10 raceForTen s :=
  ⟨_, rfl, rfl, space_reserves_safely 10 raceForTen _ rfl⟩

end Space
end Memory
end Cuda2Rocm
