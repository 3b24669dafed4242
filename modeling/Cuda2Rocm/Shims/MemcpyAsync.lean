import Cuda2Rocm.Foundation.Barriers
import Mathlib.Data.Fintype.Prod

/-!
# Copies by a block

`cooperative_groups::memcpy_async` copies byte by byte, in the threads of the block whose
`threadIdx.x` is 0, and ends with `__syncthreads`; `wait` is one more `__syncthreads`.  A
block of several rows copies each byte several times.
-/

namespace Cuda2Rocm
namespace Shims

open Foundation

/-- `blockDim`. -/
structure BlockDim where
  x : Nat
  y : Nat
  z : Nat
  x_pos : 0 < x
  y_pos : 0 < y
  z_pos : 0 < z

/-- `threadIdx`. -/
abbrev BlockDim.Thread (dim : BlockDim) := Fin dim.x × Fin dim.y × Fin dim.z

/-- The bytes of shared and of global memory, by their addresses. -/
abbrev Memory := Nat -> UInt8

/-- The calls that all threads of the block make, with the arguments that both overloads of
`memcpy_async` get. -/
inductive Call where
  | memcpyAsync (dst src n : Nat)
  | wait
deriving DecidableEq, Repr

/-- Where the loop of `copy_bytes` stands: before the load of a byte, or before its store. -/
inductive CopyBytes where
  | load (i : Nat)
  | store (i : Nat) (byte : UInt8)
deriving DecidableEq, Repr

namespace CopyBytes

/-- The bytes that were stored. -/
def stored : CopyBytes -> Nat
  | .load i => i
  | .store i _ => i

/-- The loop has ended. -/
def ended (n : Nat) : CopyBytes -> Bool
  | .load i => decide (n ≤ i)
  | .store _ _ => false

/-- The accesses that are left of the loop. -/
def left (n : Nat) : CopyBytes -> Nat
  | .load i => 2 * (n - i)
  | .store i _ => 2 * (n - (i + 1)) + 1

end CopyBytes

/-- `d[i] = s[i]` in two accesses. -/
def copyByte (dst src : Nat) (m : Memory) : CopyBytes -> Memory × CopyBytes
  | .load i => (m, .store i (m (src + i)))
  | .store i byte => (Function.update m (dst + i) byte, .load (i + 1))

/-- The calls of a block, one phase each. -/
def phases (dim : BlockDim) (calls : List Call) : Phases dim.Thread Memory CopyBytes where
  count := calls.length
  start _ _ := .load 0
  arrived k thread p :=
    match calls[k]? with
    | some (.memcpyAsync _ _ n) => if thread.1.val = 0 then p.ended n else true
    | _ => true
  access k _ m p :=
    match calls[k]? with
    | some (.memcpyAsync dst src _) => copyByte dst src m p
    | _ => (m, p)

/-!
# What the calls are for
-/

/-- A call by itself: `memcpy`, or nothing. -/
def Call.effect (m : Memory) : Call -> Memory
  | .memcpyAsync dst src n => fun a =>
      if dst ≤ a ∧ a < dst + n then m (src + (a - dst)) else m a
  | .wait => m

/-- The calls one after the other. -/
def result (calls : List Call) (m : Memory) : Memory := calls.foldl Call.effect m

/-- The ranges of a copy do not overlap, as for `memcpy`. -/
def Call.Apart : Call -> Prop
  | .memcpyAsync dst src n => dst + n ≤ src ∨ src + n ≤ dst
  | .wait => True

instance : DecidablePred Call.Apart
  | .memcpyAsync _ _ _ => inferInstanceAs (Decidable (_ ∨ _))
  | .wait => isTrue trivial

theorem result_take_succ {calls : List Call} {k : Nat} {call : Call} (h : calls[k]? = some call)
    (m : Memory) : result (calls.take (k + 1)) m = call.effect (result (calls.take k) m) := by
  unfold result
  rw [List.take_add_one, h, List.foldl_append]
  rfl

/-!
# A copy in progress
-/

section Copies

variable {dim : BlockDim} {base m : Memory} {dst src n : Nat} {stand : dim.Thread -> CopyBytes}

/-- Some bytes are copied, among them those that a copying thread has stored, and the others
are as they were. -/
structure Copying (base : Memory) (dst src n : Nat) (m : Memory)
    (stand : dim.Thread -> CopyBytes) : Prop where
  outside : forall a, ¬ (dst ≤ a ∧ a < dst + n) -> m a = base a
  inside : forall i, i < n -> m (dst + i) = base (dst + i) ∨ m (dst + i) = base (src + i)
  stored : forall thread : dim.Thread, thread.1.val = 0 -> forall i, i < (stand thread).stored ->
    i < n -> m (dst + i) = base (src + i)
  loaded : forall thread : dim.Thread, thread.1.val = 0 -> forall i byte,
    stand thread = .store i byte -> i < n ∧ byte = base (src + i)

theorem copying_start : Copying base dst src n base (fun _ : dim.Thread => .load 0) where
  outside := fun _ _ => rfl
  inside := fun _ _ => Or.inl rfl
  stored := fun _ _ i hi _ => absurd hi (Nat.not_lt_zero i)
  loaded := fun _ _ _ _ h => by cases h

/-- The source of a copy does not change while it goes on. -/
theorem Copying.source (h : Copying base dst src n m stand)
    (hapart : (Call.memcpyAsync dst src n).Apart) {i : Nat} (hi : i < n) :
    m (src + i) = base (src + i) := by
  apply h.outside
  intro hin
  rcases hapart with hbehind | hbefore <;> omega

theorem Copying.load (h : Copying base dst src n m stand)
    (hapart : (Call.memcpyAsync dst src n).Apart) {thread : dim.Thread} {i : Nat} (hi : i < n)
    (hstand : stand thread = .load i) :
    Copying base dst src n m (Function.update stand thread (.store i (m (src + i)))) where
  outside := h.outside
  inside := h.inside
  stored := by
    intro other hzero j hj hn
    by_cases hother : other = thread
    · rw [hother] at hj hzero
      rw [Function.update_self] at hj
      have hbefore := h.stored thread hzero j
      rw [hstand] at hbefore
      exact hbefore hj hn
    · rw [Function.update_of_ne hother] at hj
      exact h.stored other hzero j hj hn
  loaded := by
    intro other hzero j byte hj
    by_cases hother : other = thread
    · rw [hother, Function.update_self] at hj
      cases hj
      exact ⟨hi, h.source hapart hi⟩
    · rw [Function.update_of_ne hother] at hj
      exact h.loaded other hzero j byte hj

theorem Copying.store (h : Copying base dst src n m stand) {thread : dim.Thread}
    (hzero : thread.1.val = 0) {i : Nat} {byte : UInt8} (hstand : stand thread = .store i byte) :
    Copying base dst src n (Function.update m (dst + i) byte)
      (Function.update stand thread (.load (i + 1))) := by
  rcases h.loaded thread hzero i byte hstand with ⟨hi, hbyte⟩
  have hat : forall j, Function.update m (dst + i) byte (dst + j) =
      if j = i then base (src + j) else m (dst + j) := by
    intro j
    by_cases hj : j = i
    · rw [hj, Function.update_self, if_pos rfl, hbyte]
    · rw [Function.update_of_ne (fun heq => hj (Nat.add_left_cancel heq)), if_neg hj]
  constructor
  · intro a ha
    have hne : a ≠ dst + i := by
      intro heq
      apply ha
      omega
    rw [Function.update_of_ne hne]
    exact h.outside a ha
  · intro j hj
    rw [hat j]
    split
    · exact Or.inr rfl
    · exact h.inside j hj
  · intro other hother j hj hn
    rw [hat j]
    split
    · rfl
    · rename_i hne
      by_cases hsame : other = thread
      · rw [hsame, Function.update_self] at hj
        apply h.stored thread hzero j _ hn
        rw [hstand]
        exact Nat.lt_of_le_of_ne (Nat.le_of_lt_succ hj) hne
      · rw [Function.update_of_ne hsame] at hj
        exact h.stored other hother j hj hn
  · intro other hother j byte' hj
    by_cases hsame : other = thread
    · rw [hsame, Function.update_self] at hj
      cases hj
    · rw [Function.update_of_ne hsame] at hj
      exact h.loaded other hother j byte' hj

/-- Each byte is what it was before the copy, or what it is after it. -/
theorem Copying.between (h : Copying base dst src n m stand) (a : Nat) :
    m a = base a ∨ m a = (Call.memcpyAsync dst src n).effect base a := by
  simp only [Call.effect]
  split
  · rename_i hin
    have hinside := h.inside (a - dst) (by omega)
    rw [Nat.add_sub_cancel' hin.left] at hinside
    exact hinside
  · rename_i hout
    exact Or.inl (h.outside a hout)

/-- A thread whose loop has ended has copied all. -/
theorem Copying.ended (h : Copying base dst src n m stand) {thread : dim.Thread}
    (hzero : thread.1.val = 0) (hended : (stand thread).ended n = true) :
    m = (Call.memcpyAsync dst src n).effect base := by
  funext a
  simp only [Call.effect]
  split
  · rename_i hin
    cases hstand : stand thread with
    | load i =>
        rw [hstand] at hended
        have hlast : n ≤ i := of_decide_eq_true hended
        have hstored := h.stored thread hzero (a - dst)
        rw [hstand, Nat.add_sub_cancel' hin.left] at hstored
        apply hstored
        · change a - dst < i
          omega
        · omega
    | store i byte =>
        rw [hstand] at hended
        cases hended
  · rename_i hout
    exact h.outside a hout

end Copies

/-!
# Every run of a block
-/

section Runs

variable {dim : BlockDim} {calls : List Call} {m : Memory}

/-- The memory of a block that makes its calls from a given one. -/
def Between (dim : BlockDim) (calls : List Call) (m : Memory) (k : Nat) (now : Memory)
    (stand : dim.Thread -> CopyBytes) : Prop :=
  match calls[k]? with
  | some (.memcpyAsync dst src n) => Copying (result (calls.take k) m) dst src n now stand
  | _ => now = result (calls.take k) m

theorem between_start (k : Nat) : Between dim calls m k (result (calls.take k) m)
    ((phases dim calls).start k) := by
  unfold Between
  split
  · exact copying_start
  · rfl

/-- There is a thread that copies. -/
def BlockDim.first (dim : BlockDim) : dim.Thread :=
  (⟨0, dim.x_pos⟩, ⟨0, dim.y_pos⟩, ⟨0, dim.z_pos⟩)

theorem between_kept (hapart : forall call, call ∈ calls -> call.Apart) :
    Block.Kept (phases dim calls) (Between dim calls m) where
  access := by
    intro k now stand thread h hk hnot
    unfold Between at h ⊢
    simp only [phases] at hnot ⊢
    split at h
    · rename_i dst src n hcall
      simp only [hcall] at hnot ⊢
      have hapartHere := hapart _ (List.mem_of_getElem? hcall)
      split at hnot
      · rename_i hzero
        cases hstand : stand thread with
        | load i =>
            rw [hstand] at hnot
            have hi : i < n := Nat.not_le.mp (of_decide_eq_false hnot)
            exact h.load hapartHere hi hstand
        | store i byte => exact h.store hzero hstand
      · cases hnot
    · rename_i hother
      split at hnot
      · rename_i dst src n hcall
        exact absurd hcall (hother dst src n)
      · cases hnot
  pass := by
    intro k now stand h hk harrived
    have hafter : now = result (calls.take (k + 1)) m := by
      have hcall : calls[k]? = some calls[k] := List.getElem?_eq_getElem hk
      rw [result_take_succ hcall]
      unfold Between at h
      cases hkind : calls[k] with
      | memcpyAsync dst src n =>
          rw [hcall, hkind] at h
          have hfirst := harrived dim.first
          simp only [phases, hcall, hkind] at hfirst
          exact h.ended rfl hfirst
      | wait =>
          rw [hcall, hkind] at h
          exact h
    rw [hafter]
    exact between_start (k + 1)

/-- The accesses that are left of a call. -/
def accessesLeft (calls : List Call) (k : Nat) (p : CopyBytes) : Nat :=
  match calls[k]? with
  | some (.memcpyAsync _ _ n) => p.left n
  | _ => 0

theorem accessesLeft_access (k : Nat) (thread : dim.Thread) (now : Memory) (p : CopyBytes)
    (h : (phases dim calls).arrived k thread p = false) :
    accessesLeft calls k ((phases dim calls).access k thread now p).2 <
      accessesLeft calls k p := by
  simp only [phases] at h
  split at h
  · rename_i dst src n hcall
    have haccess : (phases dim calls).access k thread now p = copyByte dst src now p := by
      simp only [phases, hcall]
    have hleft : forall q, accessesLeft calls k q = q.left n := by
      intro q
      simp only [accessesLeft, hcall]
    split at h
    · rw [haccess, hleft, hleft]
      cases p with
      | load i =>
          have hi : i < n := Nat.not_le.mp (of_decide_eq_false h)
          change 2 * (n - (i + 1)) + 1 < 2 * (n - i)
          omega
      | store i byte => exact Nat.lt_succ_self _
    · cases h
  · cases h

/-- What is promised of a block at any moment. -/
structure CopiesInOrder (dim : BlockDim) (calls : List Call) (m : Memory)
    (s : Block dim.Thread Memory CopyBytes) : Prop where
  /-- The calls are made one after the other, and each byte is that before or after the one
  in progress. -/
  between : exists k, Block.InPhase (phases dim calls) s k ∧
    forall a, s.memory a = result (calls.take k) m a ∨
      s.memory a = result (calls.take (k + 1)) m a
  /-- Threads that have all returned leave what the calls are for. -/
  after : (forall thread, s.phase thread = calls.length) -> s.memory = result calls m
  /-- No thread waits for ever. -/
  returns : exists later t, (Block.machine (phases dim calls)).run s later = some t ∧
    forall thread, t.phase thread = calls.length

/-- Calls of `memcpy_async` and `wait` by all threads of a block, with ranges that do not
overlap within a call, come to what they are for in whatever order the threads run. -/
theorem block_copies_in_order (dim : BlockDim) (calls : List Call) (m : Memory)
    (hapart : forall call, call ∈ calls -> call.Apart)
    (events : List (Block.Event dim.Thread)) (s : Block dim.Thread Memory CopyBytes)
    (hrun : (Block.machine (phases dim calls)).run (Block.launched (phases dim calls) m) events =
      some s) : CopiesInOrder dim calls m s := by
  have : Nonempty dim.Thread := ⟨dim.first⟩
  have hbetween : forall (events : List (Block.Event dim.Thread)) s,
      (Block.machine (phases dim calls)).run (Block.launched (phases dim calls) m) events =
        some s ->
      exists k, Block.InPhase (phases dim calls) s k ∧
        forall a, s.memory a = result (calls.take k) m a ∨
          s.memory a = result (calls.take (k + 1)) m a := by
    intro events s hrun
    rcases Block.follows_run (between_kept hapart) (between_start 0) hrun with ⟨k, hk, hnow⟩
    exists k, hk
    intro a
    unfold Between at hnow
    split at hnow
    · rename_i dst src n hcall
      rw [result_take_succ hcall]
      exact hnow.between a
    · rw [hnow]
      exact Or.inl rfl
  have hafter : forall (events : List (Block.Event dim.Thread)) s,
      (Block.machine (phases dim calls)).run (Block.launched (phases dim calls) m) events =
        some s ->
      (forall thread, s.phase thread = calls.length) -> s.memory = result calls m := by
    intro events s hrun hdone
    rcases hbetween events s hrun with ⟨k, hk, hnow⟩
    rcases hk.someone with ⟨thread, hthread⟩
    have hlast : k = calls.length := hthread.symm.trans (hdone thread)
    subst hlast
    funext a
    have hat := hnow a
    rw [List.take_of_length_le (Nat.le_refl _), List.take_of_length_le (Nat.le_succ _),
      or_self] at hat
    exact hat
  constructor
  · exact hbetween events s hrun
  · exact hafter events s hrun
  · rcases Block.exists_run_to_end accessesLeft_access s with ⟨later, t, hlater, hdone⟩
    exists later, t, hlater
    intro thread
    have hwhole : (Block.machine (phases dim calls)).run
        (Block.launched (phases dim calls) m) (events ++ later) = some t := by
      rw [Machine.run_append, hrun]
      exact hlater
    rcases hbetween _ t hwhole with ⟨k, hk, _⟩
    have hle : k ≤ calls.length := hk.le
    have hge : calls.length ≤ t.phase thread := hdone thread
    rcases hk.everyone thread with hhere | ⟨hbefore, _⟩ <;> omega

/-- A block of two rows of two threads. -/
def twoRows : BlockDim :=
  { x := 2, y := 2, z := 1, x_pos := Nat.two_pos, y_pos := Nat.two_pos, z_pos := Nat.one_pos }

/-- The copying thread of the second row. -/
def secondRow : twoRows.Thread := (⟨0, by decide⟩, ⟨1, by decide⟩, ⟨0, by decide⟩)

/-- The second row stores the first byte when the first row has gone on to the next one. -/
def storedTwice : List (Block.Event twoRows.Thread) :=
  [.access twoRows.first, .access secondRow, .access twoRows.first, .access twoRows.first,
    .access secondRow]

theorem block_copies_in_order_storedTwice : exists s,
    (Block.machine (phases twoRows [.memcpyAsync 4 0 2, .wait])).run
      (Block.launched (phases twoRows [.memcpyAsync 4 0 2, .wait]) UInt8.ofNat) storedTwice =
        some s ∧
    CopiesInOrder twoRows [.memcpyAsync 4 0 2, .wait] UInt8.ofNat s := by
  have hruns : ((Block.machine (phases twoRows [.memcpyAsync 4 0 2, .wait])).run
      (Block.launched (phases twoRows [.memcpyAsync 4 0 2, .wait]) UInt8.ofNat)
      storedTwice).isSome = true := by decide +kernel
  rcases Option.isSome_iff_exists.mp hruns with ⟨s, hrun⟩
  exists s, hrun
  exact block_copies_in_order twoRows _ UInt8.ofNat (by decide) storedTwice s hrun

end Runs

end Shims
end Cuda2Rocm
