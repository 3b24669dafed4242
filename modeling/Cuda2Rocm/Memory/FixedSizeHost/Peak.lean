import Mathlib.Logic.Function.Basic
import Cuda2Rocm.Foundation.Simulations
import Cuda2Rocm.Foundation.Table
import Cuda2Rocm.Memory.FixedSizeHost.Counter

/-!
# The peak of the counter

`do_reserve` raises `peak_allocated_` after it has charged the counter, with a value that it
loads anew.  Below, any number of threads call `do_reserve` and `do_release`, and each step
is one atomic access.  The load may see less than the call has left, but only after others
have credited, and no more than the counter has had.
-/

namespace Cuda2Rocm
namespace Memory
namespace FixedSizeHost

open Foundation

/-!
# Calls of the two functions
-/

/-- A call in flight, by what it does next. -/
inductive CounterCall where
  | doReserve (bytes : Nat) (pc : DoReserve)
  | doRelease (bytes : Nat) (loop : CasLoop)
deriving DecidableEq, Repr

/-- The counter, and the calls of all threads. -/
structure CounterState where
  counter : Counter
  calls : Table Nat CounterCall

inductive CounterEvent where
  | doReserve (thread bytes : Nat)
  | doRelease (thread bytes : Nat)
  | tick (thread : Nat) (spurious : Bool)
deriving DecidableEq, Repr

namespace CounterState

def initial : CounterState :=
  { counter := { total := 0, peak := 0 }, calls := Table.empty }

/-- A thread outside of both functions calls one of them. -/
def call (s : CounterState) (thread : Nat) (call : CounterCall) : Option CounterState :=
  match s.calls.lookup thread with
  | some _ => none
  | none => some { s with calls := s.calls.insert thread call }

/-- The next atomic access of a call in flight. -/
def tick (s : CounterState) (memLimit thread : Nat) (spurious : Bool) :
    Option CounterState :=
  match s.calls.lookup thread with
  | none => none
  | some (.doReserve bytes pc) =>
      match pc.step memLimit bytes spurious s.counter with
      | .goesOn pc' counter =>
          some { counter := counter, calls := s.calls.insert thread (.doReserve bytes pc') }
      | .returned _ counter => some { counter := counter, calls := s.calls.erase thread }
  | some (.doRelease bytes loop) =>
      match doReleaseStep bytes spurious s.counter.total loop with
      | .again loop' => some { s with calls := s.calls.insert thread (.doRelease bytes loop') }
      | .gaveUp => some { s with calls := s.calls.erase thread }
      | .committed total =>
          some { counter := { s.counter with total := total }, calls := s.calls.erase thread }

end CounterState

/-- Any number of threads that call `do_reserve` and `do_release`. -/
def counterMachine (memLimit : Nat) : Machine CounterState CounterEvent where
  step s e :=
    match e with
    | .doReserve thread bytes => s.call thread (.doReserve bytes .start)
    | .doRelease thread bytes => s.call thread (.doRelease bytes .load)
    | .tick thread spurious => s.tick memLimit thread spurious

/-!
# Steps of `do_reserve`
-/

namespace DoReserve

/-- Everything a step of `do_reserve` can do to the counter and the peak. -/
inductive Moves (c : Counter) : DoReserve -> Result -> Prop where
  | retried (loop loop' : CasLoop) : Moves c (.charge loop) (.goesOn (.charge loop') c)
  | charged (loop : CasLoop) (total : Nat) :
      Moves c (.charge loop) (.goesOn .readNow { c with total := total })
  | left (loop : CasLoop) (granted : Bool) : Moves c (.charge loop) (.returned granted c)
  | loadedTotal : Moves c .readNow (.goesOn (.raisePeak c.total .load) c)
  | loadedPeak (now : Nat) (loop : CasLoop) :
      Moves c (.raisePeak now loop) (.goesOn (.raisePeak now (.cas c.peak)) c)
  | keptPeak (now peak : Nat) (hle : now ≤ peak) :
      Moves c (.raisePeak now (.cas peak)) (.returned true c)
  | raisedPeak (now : Nat) (hlt : c.peak < now) :
      Moves c (.raisePeak now (.cas c.peak)) (.returned true { c with peak := now })

theorem step_moves (memLimit bytes : Nat) (spurious : Bool) (c : Counter) (pc : DoReserve) :
    Moves c pc (pc.step memLimit bytes spurious c) := by
  cases pc with
  | charge loop =>
      simp only [step]
      split
      · exact .left loop true
      · split
        · exact .charged loop _
        · split
          · exact .left loop false
          · rcases loop.step_cases (chargeNext memLimit bytes) spurious c.total with
              ⟨h, _⟩ | ⟨_, _, _, h⟩ | ⟨total, _, _, h⟩
            · rw [h]
              exact .retried loop _
            · rw [h]
              exact .left loop false
            · rw [h]
              exact .charged loop total
  | readNow => exact .loadedTotal
  | raisePeak now loop =>
      simp only [step]
      rcases loop.step_cases (peakNext now) spurious c.peak with
        ⟨h, _⟩ | ⟨peak, hloop, hnext, h⟩ | ⟨next, hloop, hnext, h⟩
      · rw [h]
        exact .loadedPeak now loop
      · rw [h, hloop]
        unfold peakNext at hnext
        split at hnext
        · cases hnext
        · rename_i hle
          exact .keptPeak now peak (Nat.not_lt.mp hle)
      · rw [h, hloop]
        unfold peakNext at hnext
        split at hnext
        · rename_i hlt
          cases hnext
          exact .raisedPeak now hlt
        · cases hnext

/-- The counter after a step. -/
def Result.counter : Result -> Counter
  | .goesOn _ c => c
  | .returned _ c => c

/-- What is left of the call after a step. -/
def Result.next : Result -> Option DoReserve
  | .goesOn pc _ => some pc
  | .returned _ _ => none

/-- What a call has loaded: a total that there was, and a peak not above the one there is. -/
def Loaded (highest peak : Nat) : DoReserve -> Prop
  | .charge _ => True
  | .readNow => True
  | .raisePeak now .load => now ≤ highest
  | .raisePeak now (.cas seen) => now ≤ highest ∧ seen ≤ peak

/-- The call is still to raise the peak to this total. -/
def WillRaise (total : Nat) : DoReserve -> Prop
  | .charge _ => False
  | .readNow => True
  | .raisePeak now _ => total ≤ now

theorem Loaded.now_le {highest peak now : Nat} {loop : CasLoop}
    (h : Loaded highest peak (.raisePeak now loop)) : now ≤ highest := by
  cases loop with
  | load => exact h
  | cas seen => exact h.left

theorem Loaded.mono {highest peak highest' peak' : Nat} {pc : DoReserve}
    (h : pc.Loaded highest peak) (hhighest : highest ≤ highest') (hpeak : peak ≤ peak') :
    pc.Loaded highest' peak' := by
  cases pc with
  | charge loop => trivial
  | readNow => trivial
  | raisePeak now loop =>
      cases loop with
      | load => exact Nat.le_trans h hhighest
      | cas seen => exact ⟨Nat.le_trans h.left hhighest, Nat.le_trans h.right hpeak⟩

theorem WillRaise.mono {total total' : Nat} {pc : DoReserve} (h : pc.WillRaise total)
    (hle : total' ≤ total) : pc.WillRaise total' := by
  cases pc with
  | charge loop => exact h
  | readNow => trivial
  | raisePeak now loop => exact Nat.le_trans hle h

/-- No step of `do_reserve` lowers the peak. -/
theorem Moves.peak_le {c : Counter} {pc : DoReserve} {result : Result} (h : Moves c pc result) :
    c.peak ≤ result.counter.peak := by
  cases h with
  | raisedPeak now hlt => exact Nat.le_of_lt hlt
  | _ => exact Nat.le_refl _

end DoReserve

/-!
# What keeps the peak
-/

/-- The counter, the calls of `do_reserve` in flight, and the largest total so far. -/
structure PeakKept (c : Counter) (calls : Nat -> Option DoReserve) (highest : Nat) : Prop where
  total_le : c.total ≤ highest
  peak_le : c.peak ≤ highest
  loaded : forall thread pc, calls thread = some pc -> pc.Loaded highest c.peak
  /-- Where the peak is behind, some call is still to raise it. -/
  covered : c.total ≤ c.peak ∨ exists thread pc, calls thread = some pc ∧ pc.WillRaise c.total

namespace PeakKept

variable {c : Counter} {calls : Nat -> Option DoReserve} {highest thread : Nat}

theorem mono {highest' : Nat} (h : PeakKept c calls highest) (hle : highest ≤ highest') :
    PeakKept c calls highest' where
  total_le := Nat.le_trans h.total_le hle
  peak_le := Nat.le_trans h.peak_le hle
  loaded := fun t pc hpc => (h.loaded t pc hpc).mono hle (Nat.le_refl _)
  covered := h.covered

/-- A credit only helps. -/
theorem credit (h : PeakKept c calls highest) {total : Nat} (hle : total ≤ c.total) :
    PeakKept { c with total := total } calls highest where
  total_le := Nat.le_trans hle h.total_le
  peak_le := h.peak_le
  loaded := h.loaded
  covered := by
    rcases h.covered with hpeak | ⟨t, pc, hpc, hraise⟩
    · exact Or.inl (Nat.le_trans hle hpeak)
    · exact Or.inr ⟨t, pc, hpc, hraise.mono hle⟩

/-- One thread goes on: it is enough that it has loaded well, and that it has raised the peak
or still will, if it was to raise it. -/
theorem replace {c' : Counter} {next : Option DoReserve} (h : PeakKept c calls highest)
    (htotal : c'.total = c.total) (hpeak : c.peak ≤ c'.peak) (hhighest : c'.peak ≤ highest)
    (hloaded : forall pc, next = some pc -> pc.Loaded highest c'.peak)
    (hraise : forall pc, calls thread = some pc -> pc.WillRaise c.total ->
      c.total ≤ c'.peak ∨ exists pc', next = some pc' ∧ pc'.WillRaise c.total) :
    PeakKept c' (Function.update calls thread next) (max highest c'.total) where
  total_le := Nat.le_max_right _ _
  peak_le := Nat.le_trans hhighest (Nat.le_max_left _ _)
  loaded := by
    intro t pc hpc
    by_cases ht : t = thread
    · rw [ht, Function.update_self] at hpc
      exact (hloaded pc hpc).mono (Nat.le_max_left _ _) (Nat.le_refl _)
    · rw [Function.update_of_ne ht] at hpc
      exact (h.loaded t pc hpc).mono (Nat.le_max_left _ _) hpeak
  covered := by
    rw [htotal]
    rcases h.covered with hbehind | ⟨t, pc, hpc, hwill⟩
    · exact Or.inl (Nat.le_trans hbehind hpeak)
    · by_cases ht : t = thread
      · rw [ht] at hpc
        rcases hraise pc hpc hwill with hdone | ⟨pc', hnext, hstill⟩
        · exact Or.inl hdone
        · exact Or.inr ⟨thread, pc', by rw [Function.update_self, hnext], hstill⟩
      · exact Or.inr ⟨t, pc, by rw [Function.update_of_ne ht, hpc], hwill⟩

/-- The same for a thread that is in `do_reserve`. -/
theorem goOn {c' : Counter} {pc : DoReserve} {next : Option DoReserve}
    (h : PeakKept c calls highest) (hpc : calls thread = some pc)
    (htotal : c'.total = c.total) (hpeak : c.peak ≤ c'.peak) (hhighest : c'.peak ≤ highest)
    (hloaded : forall pc', next = some pc' -> pc'.Loaded highest c'.peak)
    (hraise : pc.WillRaise c.total ->
      c.total ≤ c'.peak ∨ exists pc', next = some pc' ∧ pc'.WillRaise c.total) :
    PeakKept c' (Function.update calls thread next) (max highest c'.total) := by
  apply h.replace htotal hpeak hhighest hloaded
  intro before hbefore hwill
  rw [hpc] at hbefore
  cases hbefore
  exact hraise hwill

/-- A thread calls `do_reserve`, or does something else. -/
theorem aside {next : Option DoReserve} (h : PeakKept c calls highest)
    (hbefore : calls thread = none) (hafter : forall pc, next = some pc -> pc = .start) :
    PeakKept c (Function.update calls thread next) (max highest c.total) := by
  apply h.replace rfl (Nat.le_refl _) h.peak_le
  · intro pc hpc
    rw [hafter pc hpc]
    trivial
  · intro pc hpc
    rw [hbefore] at hpc
    cases hpc

/-- A charge is followed by the call that has made it. -/
theorem charge (h : PeakKept c calls highest) (total : Nat) :
    PeakKept { c with total := total } (Function.update calls thread (some .readNow))
      (max highest total) where
  total_le := Nat.le_max_right _ _
  peak_le := Nat.le_trans h.peak_le (Nat.le_max_left _ _)
  loaded := by
    intro t pc hpc
    by_cases ht : t = thread
    · rw [ht, Function.update_self] at hpc
      cases hpc
      trivial
    · rw [Function.update_of_ne ht] at hpc
      exact (h.loaded t pc hpc).mono (Nat.le_max_left _ _) (Nat.le_refl _)
  covered := Or.inr ⟨thread, .readNow, Function.update_self .., trivial⟩

/-- Every step of `do_reserve`. -/
theorem step (h : PeakKept c calls highest) {pc : DoReserve} {result : DoReserve.Result}
    (hpc : calls thread = some pc) (hmoves : DoReserve.Moves c pc result) :
    PeakKept result.counter (Function.update calls thread result.next)
      (max highest result.counter.total) := by
  have hloaded := h.loaded thread pc hpc
  cases hmoves with
  | retried loop loop' =>
      apply h.goOn hpc rfl (Nat.le_refl _) h.peak_le
      · intro next hnext
        cases hnext
        trivial
      · exact False.elim
  | charged loop total => exact h.charge total
  | left loop granted =>
      apply h.goOn hpc rfl (Nat.le_refl _) h.peak_le
      · intro next hnext
        cases hnext
      · exact False.elim
  | loadedTotal =>
      apply h.goOn hpc rfl (Nat.le_refl _) h.peak_le
      · intro next hnext
        cases hnext
        exact h.total_le
      · intro _
        exact Or.inr ⟨_, rfl, Nat.le_refl c.total⟩
  | loadedPeak now loop =>
      apply h.goOn hpc rfl (Nat.le_refl _) h.peak_le
      · intro next hnext
        cases hnext
        exact ⟨hloaded.now_le, Nat.le_refl _⟩
      · intro hwill
        exact Or.inr ⟨_, rfl, hwill⟩
  | keptPeak now seen hle =>
      apply h.goOn hpc rfl (Nat.le_refl _) h.peak_le
      · intro next hnext
        cases hnext
      · intro hwill
        -- the peak that was seen is not above the one there is
        exact Or.inl (Nat.le_trans hwill (Nat.le_trans hle hloaded.right))
  | raisedPeak now hlt =>
      refine h.goOn hpc rfl (Nat.le_of_lt hlt) hloaded.now_le ?_ Or.inl
      intro next hnext
      cases hnext

end PeakKept

/-!
# Runs
-/

/-- Where the call of a thread stands in `do_reserve`. -/
def CounterCall.pc : CounterCall -> Option DoReserve
  | .doReserve _ pc => some pc
  | .doRelease _ _ => none

/-- The calls of `do_reserve` in flight. -/
def inReserve (calls : Table Nat CounterCall) (thread : Nat) : Option DoReserve :=
  (calls.lookup thread).bind CounterCall.pc

theorem inReserve_insert (calls : Table Nat CounterCall) (thread : Nat) (call : CounterCall) :
    inReserve (calls.insert thread call) =
      Function.update (inReserve calls) thread call.pc := by
  funext t
  unfold inReserve
  rw [Table.lookup_insert, Function.update_apply]
  split
  · rfl
  · rfl

theorem inReserve_erase (calls : Table Nat CounterCall) (thread : Nat) :
    inReserve (calls.erase thread) = Function.update (inReserve calls) thread none := by
  funext t
  unfold inReserve
  rw [Table.lookup_erase, Function.update_apply]
  split
  · rfl
  · rfl

/-- The invariant of the machine. -/
def CounterState.Kept (s : CounterState) (highest : Nat) : Prop :=
  PeakKept s.counter (inReserve s.calls) highest

/-- A step keeps the invariant, and the peak stays where it was or rises. -/
structure PeakStep (s : CounterState) (highest : Nat) (t : CounterState) : Prop where
  kept : t.Kept (max highest t.counter.total)
  peak_le : s.counter.peak ≤ t.counter.peak

section Steps

variable {s t : CounterState} {memLimit highest thread : Nat}

theorem peakStep_call (h : s.Kept highest) {call : CounterCall}
    (hfresh : forall pc, call.pc = some pc -> pc = .start)
    (hstep : s.call thread call = some t) : PeakStep s highest t := by
  unfold CounterState.call at hstep
  split at hstep
  · cases hstep
  · rename_i hidle
    cases hstep
    constructor
    · unfold CounterState.Kept
      rw [inReserve_insert]
      apply PeakKept.aside h ?_ hfresh
      rw [inReserve, hidle]
      rfl
    · exact Nat.le_refl _

theorem peakStep_tick (h : s.Kept highest) {spurious : Bool}
    (hstep : s.tick memLimit thread spurious = some t) : PeakStep s highest t := by
  unfold CounterState.tick at hstep
  split at hstep
  · cases hstep
  · rename_i bytes pc hcall
    have hpc : inReserve s.calls thread = some pc := by
      rw [inReserve, hcall]
      rfl
    have hmoves := DoReserve.step_moves memLimit bytes spurious s.counter pc
    have hkept := PeakKept.step h hpc hmoves
    split at hstep
    · rename_i pc' counter heq
      rw [heq] at hmoves hkept
      cases hstep
      constructor
      · rw [CounterState.Kept, inReserve_insert]
        exact hkept
      · exact hmoves.peak_le
    · rename_i granted counter heq
      rw [heq] at hmoves hkept
      cases hstep
      constructor
      · rw [CounterState.Kept, inReserve_erase]
        exact hkept
      · exact hmoves.peak_le
  · rename_i bytes loop hcall
    have hnone : inReserve s.calls thread = none := by
      rw [inReserve, hcall]
      rfl
    have houtside : forall pc, (none : Option DoReserve) = some pc -> pc = .start := by
      intro pc hpc
      cases hpc
    have hless : (if s.counter.total ≥ bytes then s.counter.total - bytes else 0) ≤
        s.counter.total := by
      split <;> omega
    rcases doReleaseStep_cases bytes spurious s.counter.total loop with
      heq | ⟨_, heq⟩ | heq
    · rw [heq] at hstep
      cases hstep
      constructor
      · rw [CounterState.Kept, inReserve_insert]
        exact PeakKept.aside h hnone houtside
      · exact Nat.le_refl _
    · rw [heq] at hstep
      cases hstep
      constructor
      · rw [CounterState.Kept, inReserve_erase]
        exact PeakKept.aside h hnone houtside
      · exact Nat.le_refl _
    · rw [heq] at hstep
      cases hstep
      constructor
      · rw [CounterState.Kept, inReserve_erase]
        exact (PeakKept.credit h hless).aside hnone houtside
      · exact Nat.le_refl _

theorem peakStep {e : CounterEvent} (h : s.Kept highest)
    (hstep : (counterMachine memLimit).step s e = some t) : PeakStep s highest t := by
  cases e with
  | doReserve thread bytes =>
      apply peakStep_call h ?_ hstep
      intro pc hpc
      cases hpc
      rfl
  | doRelease thread bytes =>
      apply peakStep_call h ?_ hstep
      intro pc hpc
      cases hpc
  | tick thread spurious => exact peakStep_tick h hstep

theorem kept_initial : CounterState.initial.Kept CounterState.initial.counter.total where
  total_le := Nat.le_refl _
  peak_le := Nat.le_refl _
  loaded := fun _ _ hpc => by cases hpc
  covered := Or.inl (Nat.le_refl _)

end Steps

/-- The largest value that `total_allocated_` has had. -/
def highestTotal (memLimit : Nat) (events : List CounterEvent) : Nat :=
  (counterMachine memLimit).highest (fun s => s.counter.total) .initial events

section Runs

variable {memLimit : Nat} {events : List CounterEvent} {s : CounterState}

theorem kept_run (hrun : (counterMachine memLimit).run .initial events = some s) :
    s.Kept (highestTotal memLimit events) :=
  @Machine.invariant_highest _ _ _ (fun u : CounterState => u.counter.total) CounterState.Kept
    (fun _ _ _ _ hu huv => (peakStep hu huv).kept) _ _ _ kept_initial hrun

theorem CounterState.Kept.total_le_peak {highest : Nat} (h : s.Kept highest)
    (hidle : forall thread bytes pc, s.calls.lookup thread ≠ some (.doReserve bytes pc)) :
    s.counter.total ≤ s.counter.peak := by
  rcases h.covered with hle | ⟨thread, pc, hpc, _⟩
  · exact hle
  · unfold inReserve at hpc
    rcases Option.bind_eq_some_iff.mp hpc with ⟨call, hcall, hcallPc⟩
    cases call with
    | doReserve bytes pc => exact absurd hcall (hidle thread bytes pc)
    | doRelease bytes loop => cases hcallPc

theorem peak_never_decreases (events : List CounterEvent) :
    (counterMachine memLimit).Throughout
      (fun u _ v => u.counter.peak ≤ v.counter.peak) .initial events := by
  have hstep : forall u e v, (exists h, u.Kept h) -> True ->
      (counterMachine memLimit).step u e = some v ->
      (exists h, v.Kept h) ∧ u.counter.peak ≤ v.counter.peak := by
    intro u e v hu _ huv
    rcases hu with ⟨h, hu⟩
    have hnext := peakStep hu huv
    exact ⟨⟨_, hnext.kept⟩, hnext.peak_le⟩
  exact Machine.throughout_of_invariant hstep ⟨_, kept_initial⟩
    (Machine.along_of_events (fun _ _ => trivial))

end Runs

/-- What a run says about the peak. -/
structure TracksTotal (memLimit : Nat) (events : List CounterEvent) (s : CounterState) :
    Prop where
  never_decreases : (counterMachine memLimit).Throughout
    (fun u _ v => u.counter.peak ≤ v.counter.peak) .initial events
  le_highest : s.counter.peak ≤ highestTotal memLimit events
  total_le : (forall thread bytes pc, s.calls.lookup thread ≠ some (.doReserve bytes pc)) ->
    s.counter.total ≤ s.counter.peak

/--
In every interleaving of calls of `do_reserve` and `do_release` the peak never decreases, is
never above the largest total so far, and is not below the total while no call of
`do_reserve` is in flight.
-/
theorem peak_tracks_total (memLimit : Nat) (events : List CounterEvent) (s : CounterState)
    (hrun : (counterMachine memLimit).run .initial events = some s) :
    TracksTotal memLimit events s where
  never_decreases := peak_never_decreases events
  le_highest := (kept_run hrun).peak_le
  total_le := (kept_run hrun).total_le_peak

/-- Two calls charge 10 and 4 bytes, and 6 are credited before the first one loads the total;
its exchange is done before that of the second one, which fails and is repeated. -/
def twoPeaks : List CounterEvent :=
  [.doReserve 0 10, .tick 0 false, .tick 0 false, .doReserve 1 4, .tick 1 false,
    .tick 1 true, .tick 1 false, .tick 1 false, .doRelease 2 6, .tick 2 false, .tick 2 false,
    .tick 0 false, .tick 1 false, .tick 0 false, .tick 0 false, .tick 1 false, .tick 1 false]

theorem peak_tracks_total_twoPeaks :
    exists s, (counterMachine 16).run .initial twoPeaks = some s ∧
      s.counter = { total := 8, peak := 14 } ∧ highestTotal 16 twoPeaks = 14 ∧
      TracksTotal 16 twoPeaks s :=
  ⟨_, rfl, rfl, by decide, peak_tracks_total 16 twoPeaks _ rfl⟩

end FixedSizeHost
end Memory
end Cuda2Rocm
