import Cuda2Rocm.Cuco.BloomFilter.Streams
import Cuda2Rocm.Foundation.Draining

/-!
# Threads of the filter by themselves

The loops of both kernels stop at 16 and at the number of hash functions, and none of their
accesses is repeated for another thread's sake.
-/

namespace Cuda2Rocm
namespace Cuco
namespace BloomFilter

open Foundation

variable {key : Type _} {filter : BloomFilter key}

/-- A thread of a batch as it is launched. -/
def BatchThread : filter.FilterThread -> Prop
  | .add thread => thread.next = 0
  | .probe _ i => i = 0
  | _ => False

instance : DecidablePred (@BatchThread key filter)
  | .clear _ => isFalse id
  | .cleared => isFalse id
  | .add _ => inferInstanceAs (Decidable (_ = _))
  | .probe _ _ => inferInstanceAs (Decidable (_ = _))
  | .answered _ _ => isFalse id

/-- The accesses that a thread of a batch makes at most. -/
def accessLimit (filter : BloomFilter key) : Nat := min 16 filter.policy.hashCount

theorem endsWithin_add {n : Nat} {thread : AddThread key}
    (h : filter.accessLimit ≤ thread.next + n) :
    filter.kernels.EndsWithin n (.add thread) := by
  induction n generalizing thread with
  | zero =>
      apply decide_eq_true
      unfold accessLimit at h
      omega
  | succ n ih =>
      right
      intro bits
      apply ih
      simp only
      omega

theorem endsWithin_probe {n : Nat} {k : key} {i : Nat} (h : filter.accessLimit ≤ i + n + 1) :
    filter.kernels.EndsWithin (n + 1) (.probe k i) := by
  induction n generalizing i with
  | zero =>
      right
      intro bits
      have hlast : i + 1 ≥ 16 ∨ i + 1 ≥ filter.policy.hashCount := by
        unfold accessLimit at h
        omega
      have hstops : i + 1 ≥ 16 ∨ i + 1 ≥ filter.policy.hashCount ∨
          (!(bits (filter.wordOf k i) &&& filter.mask k i == 0)) = false := by
        rcases hlast with hall | hcount
        · exact Or.inl hall
        · exact Or.inr (Or.inl hcount)
      simp only [kernels, probeIteration, if_pos hstops]
      exact Program.endsWithin_of_left rfl
  | succ n ih =>
      right
      intro bits
      simp only [kernels, probeIteration]
      split
      · exact Program.endsWithin_of_left rfl
      · apply ih
        omega

theorem endsWithin_batch {thread : filter.FilterThread} (h : BatchThread thread) :
    filter.kernels.EndsWithin filter.accessLimit thread := by
  cases thread with
  | clear word => exact absurd h id
  | cleared => exact absurd h id
  | add thread =>
      apply endsWithin_add
      exact Nat.le_add_left _ _
  | probe k i =>
      have hpos : 0 < filter.accessLimit :=
        Nat.lt_min.mpr ⟨by decide, hashCount_pos filter.policy⟩
      have hlimit : filter.accessLimit = filter.accessLimit - 1 + 1 :=
        (Nat.sub_add_cancel hpos).symm
      rw [hlimit]
      apply endsWithin_probe
      omega
  | answered k found => exact absurd h id

variable {stream : Type _} [DecidableEq stream]

omit [DecidableEq stream] in
/-- The memset comes to its end. -/
theorem drains_constructed (bits : filter.Bits) (on : stream) :
    Device.Drains filter.kernels (filter.constructed bits on) := by
  intro q i thread hthread
  cases q with
  | zero =>
      have hmem : thread ∈ (List.finRange filter.words).map FilterThread.clear :=
        List.mem_of_getElem? hthread
      rcases List.mem_map.mp hmem with ⟨word, _, rfl⟩
      exact ⟨1, Or.inr (fun _ => rfl)⟩
  | succ q => cases hthread

/-- Threads of the filter are wait-free: beside any others, and before or after the words
are cleared, a thread of a batch makes an access for each hash function and no more than
16; and all kernels can come to their ends by accesses alone. -/
theorem filter_threads_wait_free {bits : filter.Bits} {on : stream}
    {events : List (Device.Event stream filter.FilterThread)}
    {t : Device stream filter.Bits filter.FilterThread}
    (hok : (filter.streamMachine stream).Along (Device.SubmitsFresh BatchThread)
      (filter.constructed bits on) events)
    (hrun : (filter.streamMachine stream).run (filter.constructed bits on) events = some t) :
    (forall q i, 0 < q -> events.countP (Device.Event.accesses q i) ≤ filter.accessLimit) ∧
      Device.ComesToRest filter.kernels t := by
  constructor
  · intro q i hq
    apply Device.accesses_le_run (fun _ h => endsWithin_batch h) hok hrun
    cases q with
    | zero => exact absurd hq (Nat.lt_irrefl 0)
    | succ q => rfl
  · exact Device.comes_to_rest_run (fun _ h => endsWithin_batch h)
      (drains_constructed bits on) hok hrun

/-- A query and an addition begin before the words are cleared. -/
def beforeTheMemset : List (Device.Event Nat oneBlock.FilterThread) :=
  [.submit (oneBlock.containsKernel 1 [3]), .access 1 0, .submit (oneBlock.addKernel 2 [3]),
    .access 2 0, .access 0 0, .access 1 0, .access 2 0]

theorem filter_threads_wait_free_beforeTheMemset :
    exists t, (oneBlock.streamMachine Nat).run (oneBlock.constructed (fun _ => 4294967295) 0)
        beforeTheMemset = some t ∧
      beforeTheMemset.countP (Device.Event.accesses 2 0) ≤ 16 ∧
      Device.ComesToRest oneBlock.kernels t := by
  have hok : (oneBlock.streamMachine Nat).Along (Device.SubmitsFresh BatchThread)
      (oneBlock.constructed (fun _ => 4294967295) 0) beforeTheMemset := by decide +kernel
  have hwaitFree := filter_threads_wait_free hok rfl
  exact ⟨_, rfl, hwaitFree.left 2 0 Nat.two_pos, hwaitFree.right⟩

end BloomFilter
end Cuco
end Cuda2Rocm
