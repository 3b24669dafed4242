import Cuda2Rocm.Foundation.Runs

/-!
# Kernels on streams

Kernels are submitted to streams.  The threads of a kernel share a memory with those of
every other kernel; they run in any order, but none of them before the earlier kernels of
the same stream are finished.  The memory is freed after a synchronisation with the whole
device.
-/

namespace Cuda2Rocm
namespace Foundation

/-- What threads do to the memory they share, one access at a time. -/
structure Program (memory : Type _) (thread : Type _) where
  left : thread -> Bool
  access : memory -> thread -> memory × thread

structure Kernel (stream : Type _) (thread : Type _) where
  stream : stream
  threads : List thread
deriving DecidableEq

def Kernel.finished {stream memory thread : Type _} (P : Program memory thread)
    (kernel : Kernel stream thread) : Bool :=
  kernel.threads.all P.left

/-- No thread of the kernel has made an access yet. -/
def Kernel.Fresh {stream thread : Type _} (fresh : thread -> Prop)
    (kernel : Kernel stream thread) : Prop :=
  forall t, t ∈ kernel.threads -> fresh t

/-- The memory and every kernel submitted so far, the oldest first. -/
structure Device (stream memory thread : Type _) where
  memory : memory
  kernels : List (Kernel stream thread)
  freed : Bool

namespace Device

inductive Event (stream : Type _) (thread : Type _) where
  | submit (kernel : Kernel stream thread)
  /-- One access of a thread of a kernel. -/
  | access (kernel thread : Nat)
  /-- Synchronise with the device, then free the memory. -/
  | destroy

variable {stream memory thread : Type _}

theorem not_finished {P : Program memory thread} {kernel : Kernel stream thread}
    {i : Nat} {running : thread}
    (hrunning : kernel.threads[i]? = some running) (hleft : P.left running = false) :
    kernel.finished P = false := by
  apply Bool.eq_false_iff.mpr
  intro hall
  have hdone := List.all_eq_true.mp hall running (List.mem_of_getElem? hrunning)
  rw [hleft] at hdone
  cases hdone

/-- A kernel after an access: the one that made it, with one thread further on, or another
one as it was. -/
theorem kernel_of_set {kernels : List (Kernel stream thread)} {q j : Nat}
    {old new kernel : Kernel stream thread} (hold : kernels[q]? = some old)
    (h : (kernels.set q new)[j]? = some kernel) :
    (j = q ∧ kernel = new) ∨ (j ≠ q ∧ kernels[j]? = some kernel) := by
  by_cases hj : j = q
  · subst hj
    rw [List.getElem?_set_self (List.getElem?_eq_some_iff.mp hold).1] at h
    exact Or.inl ⟨rfl, (Option.some.inj h).symm⟩
  · rw [List.getElem?_set_ne (Ne.symm hj)] at h
    exact Or.inr ⟨hj, h⟩

/-- A kernel after a submission: the new one or one of before. -/
theorem kernel_of_append {kernels : List (Kernel stream thread)} {j : Nat}
    {new kernel : Kernel stream thread} (h : (kernels ++ [new])[j]? = some kernel) :
    (j = kernels.length ∧ kernel = new) ∨ kernels[j]? = some kernel := by
  rcases Nat.lt_or_ge j kernels.length with hlt | hge
  · rw [List.getElem?_append_left hlt] at h
    exact Or.inr h
  · rw [List.getElem?_append_right hge] at h
    rcases List.getElem?_eq_some_iff.mp h with ⟨hj, heq⟩
    have hlast : j - kernels.length = 0 := by simpa using hj
    simp only [hlast, List.getElem_cons_zero] at heq
    exact Or.inl ⟨by omega, heq.symm⟩

/-!
# Steps
-/

variable [DecidableEq stream]

/-- The earlier kernels on the stream of a kernel are finished. -/
def mayRun (P : Program memory thread) (s : Device stream memory thread) (kernel : Nat)
    (on : stream) : Bool :=
  (s.kernels.take kernel).all (fun earlier =>
    !decide (earlier.stream = on) || earlier.finished P)

def machine (P : Program memory thread) :
    Machine (Device stream memory thread) (Event stream thread) where
  step s e :=
    match e with
    | .submit kernel =>
        if s.freed then none else some { s with kernels := s.kernels ++ [kernel] }
    | .access q i =>
        match s.kernels[q]? with
        | none => none
        | some kernel =>
            match kernel.threads[i]? with
            | none => none
            | some running =>
                if P.left running = false ∧ mayRun P s q kernel.stream = true then
                  let next := P.access s.memory running
                  some { s with
                    memory := next.1
                    kernels := s.kernels.set q
                      { kernel with threads := kernel.threads.set i next.2 } }
                else none
    | .destroy =>
        if s.freed = false ∧ s.kernels.all (fun kernel => kernel.finished P) = true then
          some { s with freed := true }
        else none

variable {P : Program memory thread}

/-- What a step can be. -/
theorem step_cases {s t : Device stream memory thread} {e : Event stream thread}
    (h : (machine P).step s e = some t) :
    (exists kernel, e = .submit kernel ∧ s.freed = false ∧
      t = { s with kernels := s.kernels ++ [kernel] }) ∨
    (exists q i kernel running, e = .access q i ∧ s.kernels[q]? = some kernel ∧
      kernel.threads[i]? = some running ∧ P.left running = false ∧
      (forall j earlier, j < q -> s.kernels[j]? = some earlier ->
        earlier.stream = kernel.stream -> earlier.finished P = true) ∧
      t = { s with
        memory := (P.access s.memory running).1
        kernels := s.kernels.set q
          { kernel with
            threads := kernel.threads.set i (P.access s.memory running).2 } }) ∨
    (e = .destroy ∧ s.freed = false ∧
      (forall kernel, kernel ∈ s.kernels -> kernel.finished P = true) ∧
      t = { s with freed := true }) := by
  cases e with
  | submit kernel =>
      apply Or.inl
      simp only [machine] at h
      split at h
      · cases h
      · rename_i hfreed
        exact ⟨kernel, rfl, Bool.eq_false_iff.mpr hfreed, (Option.some.inj h).symm⟩
  | access q i =>
      apply Or.inr ∘ Or.inl
      simp only [machine] at h
      split at h
      · cases h
      · rename_i kernel hkernel
        split at h
        · cases h
        · rename_i running hrunning
          split at h
          · rename_i hmay
            refine ⟨q, i, kernel, running, rfl, hkernel, hrunning, hmay.left, ?_,
              (Option.some.inj h).symm⟩
            intro j earlier hj hearlier hsame
            have hmem : earlier ∈ s.kernels.take q := by
              apply List.mem_of_getElem? (i := j)
              rw [List.getElem?_take_of_lt hj]
              exact hearlier
            have hdone := List.all_eq_true.mp hmay.right earlier hmem
            simpa [hsame] using hdone
          · cases h
  | destroy =>
      apply Or.inr ∘ Or.inr
      simp only [machine] at h
      split at h
      · rename_i hidle
        exact ⟨rfl, hidle.left, fun kernel hkernel =>
          List.all_eq_true.mp hidle.right kernel hkernel, (Option.some.inj h).symm⟩
      · cases h

/-!
# Order on a stream
-/

variable (P) in
/-- A kernel behind an unfinished one of its stream has not started. -/
def Ordered (fresh : thread -> Prop) (s : Device stream memory thread) : Prop :=
  forall (j q : Nat) (earlier kernel : Kernel stream thread), j < q ->
    s.kernels[j]? = some earlier -> s.kernels[q]? = some kernel -> earlier.stream = kernel.stream ->
    earlier.finished P = false -> kernel.Fresh fresh

/-- Kernels are submitted before they make an access. -/
def SubmitsFresh (fresh : thread -> Prop) (_ : Device stream memory thread) :
    Event stream thread -> Prop
  | .submit kernel => kernel.Fresh fresh
  | .access _ _ => True
  | .destroy => True

theorem ordered_step {fresh : thread -> Prop} {s t : Device stream memory thread}
    {e : Event stream thread} (hs : Ordered P fresh s) (hfresh : SubmitsFresh fresh s e)
    (h : (machine P).step s e = some t) : Ordered P fresh t := by
  rcases step_cases h with ⟨new, rfl, _, rfl⟩ |
    ⟨q', i, old, running, rfl, hold, hrunning, hleft, hturn, rfl⟩ | ⟨rfl, _, _, rfl⟩
  · intro j q earlier kernel hjq hj hq hstream hopen
    rcases kernel_of_append hq with ⟨hlast, rfl⟩ | hq'
    · exact hfresh
    · rcases kernel_of_append hj with ⟨hlast, rfl⟩ | hj'
      · have hlt := (List.getElem?_eq_some_iff.mp hq').1
        omega
      · exact hs j q earlier kernel hjq hj' hq' hstream hopen
  · intro j q earlier kernel hjq hj hq hstream hopen
    rcases kernel_of_set hold hq with ⟨rfl, rfl⟩ | ⟨hq', hkernel⟩
    · -- the kernel runs, so the earlier one is finished
      rcases kernel_of_set hold hj with ⟨rfl, _⟩ | ⟨_, hearlier⟩
      · omega
      · rw [hturn j earlier hjq hearlier hstream] at hopen
        cases hopen
    · rcases kernel_of_set hold hj with ⟨rfl, rfl⟩ | ⟨_, hearlier⟩
      · exact hs j q old kernel hjq hold hkernel hstream (not_finished hrunning hleft)
      · exact hs j q earlier kernel hjq hearlier hkernel hstream hopen
  · exact hs

/-- What is freed is not accessed any more. -/
theorem idle_step {s t : Device stream memory thread} {e : Event stream thread}
    (hs : s.freed = true -> forall kernel, kernel ∈ s.kernels -> kernel.finished P = true)
    (h : (machine P).step s e = some t) :
    s.freed = false ∧
      (t.freed = true -> forall kernel, kernel ∈ t.kernels -> kernel.finished P = true) := by
  rcases step_cases h with ⟨new, rfl, hfreed, rfl⟩ |
    ⟨q, i, old, running, rfl, hold, hrunning, hleft, _, rfl⟩ | ⟨rfl, hfreed, hidle, rfl⟩
  · apply And.intro hfreed
    intro hlate
    rw [hfreed] at hlate
    cases hlate
  · have hfreed : s.freed = false := by
      apply Bool.eq_false_iff.mpr
      intro hfreed
      have hdone := hs hfreed old (List.mem_of_getElem? hold)
      rw [not_finished hrunning hleft] at hdone
      cases hdone
    apply And.intro hfreed
    intro hlate
    rw [hfreed] at hlate
    cases hlate
  · exact ⟨hfreed, fun _ => hidle⟩

theorem no_access_of_freed {s : Device stream memory thread}
    (hs : s.freed = true -> forall kernel, kernel ∈ s.kernels -> kernel.finished P = true)
    (hfreed : s.freed = true) (q i : Nat) : (machine P).step s (.access q i) = none := by
  cases hstep : (machine P).step s (.access q i) with
  | none => rfl
  | some t =>
      have hopen := (idle_step hs hstep).left
      rw [hfreed] at hopen
      cases hopen

/-!
# Setting the memory up

The first kernel sets the memory up.  The others are submitted to its stream, or once it is
finished; so the invariant that they rely on holds whenever one of them runs.
-/

section SetUp

variable (P)

/-- What the first kernel keeps while it runs, and what the others rely on and keep. -/
structure Discipline (fresh : thread -> Prop) (filling : memory -> List thread -> Prop)
    (inv : memory -> Prop) (mine : memory -> thread -> Prop) : Prop where
  fill : forall m threads i t, filling m threads -> threads[i]? = some t ->
    P.left t = false -> filling (P.access m t).1 (threads.set i (P.access m t).2)
  filled : forall m threads, filling m threads -> threads.all P.left = true -> inv m
  start : forall m t, inv m -> fresh t -> mine m t
  keeps : forall m t, inv m -> mine m t -> P.left t = false -> inv (P.access m t).1
  own : forall m t, inv m -> mine m t -> P.left t = false ->
    mine (P.access m t).1 (P.access m t).2
  others : forall m t u, inv m -> mine m t -> P.left t = false -> mine m u ->
    mine (P.access m t).1 u

/-- A kernel is submitted to the stream of the first one, or once that is finished. -/
def AfterSetUp (fresh : thread -> Prop) (s : Device stream memory thread) :
    Event stream thread -> Prop
  | .submit kernel => kernel.Fresh fresh ∧ forall first, s.kernels[0]? = some first ->
      first.finished P = true ∨ kernel.stream = first.stream
  | .access _ _ => True
  | .destroy => True

instance {fresh : thread -> Prop} [DecidablePred fresh] (s : Device stream memory thread)
    (e : Event stream thread) : Decidable (AfterSetUp P fresh s e) :=
  match e with
  | .submit kernel =>
      have : Decidable (forall first, s.kernels[0]? = some first ->
          first.finished P = true ∨ kernel.stream = first.stream) :=
        match h : s.kernels[0]? with
        | none => isTrue (fun first hfirst => by cases hfirst)
        | some found => decidable_of_iff
            (found.finished P = true ∨ kernel.stream = found.stream)
            ⟨fun hor first hfirst => by cases hfirst; exact hor, fun hall => hall found rfl⟩
      inferInstanceAs (Decidable ((forall t, t ∈ kernel.threads -> fresh t) ∧ _))
  | .access _ _ => isTrue trivial
  | .destroy => isTrue trivial

/-- The memory is being set up and no other kernel runs, or it is set up. -/
structure SetUp (fresh : thread -> Prop) (filling : memory -> List thread -> Prop)
    (inv : memory -> Prop) (mine : memory -> thread -> Prop)
    (s : Device stream memory thread) (first : Kernel stream thread) : Prop where
  present : s.kernels[0]? = some first
  before : first.finished P = false -> filling s.memory first.threads ∧
    forall (q : Nat) (later : Kernel stream thread), 0 < q -> s.kernels[q]? = some later ->
      later.stream = first.stream ∧ later.Fresh fresh
  after : first.finished P = true -> inv s.memory ∧
    forall (q : Nat) (later : Kernel stream thread), 0 < q -> s.kernels[q]? = some later ->
      forall t, t ∈ later.threads -> mine s.memory t

variable {P}

omit [DecidableEq stream] in
theorem afterSetUp_fresh {fresh : thread -> Prop} {s : Device stream memory thread}
    {e : Event stream thread} (h : AfterSetUp P fresh s e) : SubmitsFresh fresh s e := by
  cases e with
  | submit kernel => exact h.left
  | access q i => trivial
  | destroy => trivial

variable {fresh : thread -> Prop} {filling : memory -> List thread -> Prop}
  {inv : memory -> Prop} {mine : memory -> thread -> Prop}

omit [DecidableEq stream] in
theorem setUp_submit {s : Device stream memory thread} {first new : Kernel stream thread}
    (D : Discipline P fresh filling inv mine) (hs : SetUp P fresh filling inv mine s first)
    (hnew : AfterSetUp P fresh s (.submit new)) :
    SetUp P fresh filling inv mine { s with kernels := s.kernels ++ [new] } first := by
  have hlength : 0 < s.kernels.length := (List.getElem?_eq_some_iff.mp hs.present).1
  constructor
  · change (s.kernels ++ [new])[0]? = some first
    rw [List.getElem?_append_left hlength]
    exact hs.present
  · intro hopen
    apply And.intro (hs.before hopen).left
    intro q later hq hlater
    rcases kernel_of_append hlater with ⟨_, rfl⟩ | hold
    · rcases hnew.right first hs.present with hdone | hstream
      · rw [hopen] at hdone
        cases hdone
      · exact ⟨hstream, hnew.left⟩
    · exact (hs.before hopen).right q later hq hold
  · intro hdone
    apply And.intro (hs.after hdone).left
    intro q later hq hlater t ht
    rcases kernel_of_append hlater with ⟨_, rfl⟩ | hold
    · exact D.start s.memory t (hs.after hdone).left (hnew.left t ht)
    · exact (hs.after hdone).right q later hq hold t ht

omit [DecidableEq stream] in
/-- An access of the first kernel. -/
theorem setUp_first {s : Device stream memory thread} {first : Kernel stream thread} {i : Nat}
    {running : thread} (D : Discipline P fresh filling inv mine)
    (hs : SetUp P fresh filling inv mine s first)
    (hrunning : first.threads[i]? = some running) (hleft : P.left running = false) :
    SetUp P fresh filling inv mine
      { s with
        memory := (P.access s.memory running).1
        kernels := s.kernels.set 0
          { first with threads := first.threads.set i (P.access s.memory running).2 } }
      { first with threads := first.threads.set i (P.access s.memory running).2 } := by
  have hlength : 0 < s.kernels.length := (List.getElem?_eq_some_iff.mp hs.present).1
  have hbefore := hs.before (not_finished hrunning hleft)
  have hfilling := D.fill s.memory first.threads i running hbefore.left hrunning hleft
  have hlaterOf : forall {q : Nat} {later new : Kernel stream thread}, 0 < q ->
      (s.kernels.set 0 new)[q]? = some later -> s.kernels[q]? = some later := by
    intro q later new hq hlater
    rw [List.getElem?_set_ne (Nat.ne_of_lt hq)] at hlater
    exact hlater
  constructor
  · exact List.getElem?_set_self hlength
  · intro _
    exact ⟨hfilling, fun q later hq hlater =>
      hbefore.right q later hq (hlaterOf hq hlater)⟩
  · intro hdone
    have hinv := D.filled _ _ hfilling hdone
    exact ⟨hinv, fun q later hq hlater t ht =>
      D.start _ t hinv ((hbefore.right q later hq (hlaterOf hq hlater)).right t ht)⟩

omit [DecidableEq stream] in
/-- An access of another kernel, which runs only once the memory is set up. -/
theorem setUp_later {s : Device stream memory thread} {first kernel : Kernel stream thread}
    {q i : Nat} {running : thread} (D : Discipline P fresh filling inv mine)
    (hs : SetUp P fresh filling inv mine s first) (hdone : first.finished P = true)
    (hq : 0 < q) (hkernel : s.kernels[q]? = some kernel)
    (hrunning : kernel.threads[i]? = some running) (hleft : P.left running = false) :
    SetUp P fresh filling inv mine
      { s with
        memory := (P.access s.memory running).1
        kernels := s.kernels.set q
          { kernel with threads := kernel.threads.set i (P.access s.memory running).2 } }
      first := by
  have hafter := hs.after hdone
  have hmine : mine s.memory running :=
    hafter.right q kernel hq hkernel running (List.mem_of_getElem? hrunning)
  constructor
  · change (s.kernels.set q _)[0]? = some first
    rw [List.getElem?_set_ne (Nat.ne_of_gt hq)]
    exact hs.present
  · intro hopen
    rw [hdone] at hopen
    cases hopen
  · intro _
    apply And.intro (D.keeps _ _ hafter.left hmine hleft)
    intro q' later hq' hlater t ht
    rcases kernel_of_set hkernel hlater with ⟨rfl, rfl⟩ | ⟨_, hold⟩
    · rcases List.mem_or_eq_of_mem_set ht with hothers | rfl
      · exact D.others _ _ t hafter.left hmine hleft
          (hafter.right q' kernel hq' hkernel t hothers)
      · exact D.own _ _ hafter.left hmine hleft
    · exact D.others _ _ t hafter.left hmine hleft (hafter.right q' later hq' hold t ht)

omit [DecidableEq stream] in
/-- A kernel that runs after the first one runs when the memory is set up. -/
theorem first_finished_of_turn {s : Device stream memory thread}
    {first kernel : Kernel stream thread} {q : Nat}
    (hs : SetUp P fresh filling inv mine s first) (hq : 0 < q)
    (hkernel : s.kernels[q]? = some kernel)
    (hturn : forall j earlier, j < q -> s.kernels[j]? = some earlier ->
      earlier.stream = kernel.stream -> earlier.finished P = true) :
    first.finished P = true := by
  by_contra hopen
  rw [Bool.not_eq_true] at hopen
  have hstream := ((hs.before hopen).right q kernel hq hkernel).left
  rw [hturn 0 first hq hs.present hstream.symm] at hopen
  cases hopen

theorem setUp_step {s t : Device stream memory thread} {e : Event stream thread}
    (D : Discipline P fresh filling inv mine)
    (hs : exists first, SetUp P fresh filling inv mine s first)
    (hok : AfterSetUp P fresh s e) (h : (machine P).step s e = some t) :
    exists first, SetUp P fresh filling inv mine t first := by
  rcases hs with ⟨first, hs⟩
  rcases step_cases h with ⟨new, rfl, _, rfl⟩ |
    ⟨q, i, kernel, running, rfl, hkernel, hrunning, hleft, hturn, rfl⟩ | ⟨rfl, _, _, rfl⟩
  · exact ⟨first, setUp_submit D hs hok⟩
  · rcases Nat.eq_zero_or_pos q with rfl | hq
    · rw [hs.present] at hkernel
      cases hkernel
      exact ⟨_, setUp_first D hs hrunning hleft⟩
    · exact ⟨first, setUp_later D hs (first_finished_of_turn hs hq hkernel hturn) hq hkernel
        hrunning hleft⟩
  · exact ⟨first, hs.present, hs.before, hs.after⟩

/-!
# What an earlier kernel did

Once a thread of a later kernel of the same stream has made an access, the threads of the
earlier one have left, and what the thread did may rest on what they had done.
-/

variable (P) in
/-- A thread of a later kernel on the stream has not started, or those of the earlier one
have left and the two are related. -/
def Follows (fresh : thread -> Prop) (related : thread -> thread -> Prop)
    (s : Device stream memory thread) : Prop :=
  forall (j q : Nat) (earlier kernel : Kernel stream thread) (t u : thread), 0 < j -> j < q ->
    s.kernels[j]? = some earlier -> s.kernels[q]? = some kernel ->
    earlier.stream = kernel.stream -> t ∈ earlier.threads -> u ∈ kernel.threads ->
    fresh u ∨ (P.left t = true ∧ related t u)

theorem follows_step {related : thread -> thread -> Prop} {s t : Device stream memory thread}
    {e : Event stream thread} {first : Kernel stream thread}
    (hrelated : forall m x u, inv m -> mine m x -> mine m u -> P.left x = true ->
      P.left u = false -> related x (P.access m u).2)
    (hsetUp : SetUp P fresh filling inv mine s first)
    (hordered : Ordered P fresh s) (hs : Follows P fresh related s)
    (hfresh : SubmitsFresh fresh s e) (h : (machine P).step s e = some t) :
    Follows P fresh related t := by
  rcases step_cases h with ⟨new, rfl, _, rfl⟩ |
    ⟨q', i, old, running, rfl, hold, hrunning, hleft, hturn, rfl⟩ | ⟨rfl, _, _, rfl⟩
  · intro j q earlier kernel x u hpos hjq hj hq hstream hx hu
    rcases kernel_of_append hq with ⟨hlast, rfl⟩ | hq'
    · exact Or.inl (hfresh u hu)
    · rcases kernel_of_append hj with ⟨hlast, rfl⟩ | hj'
      · have hlt := (List.getElem?_eq_some_iff.mp hq').1
        omega
      · exact hs j q earlier kernel x u hpos hjq hj' hq' hstream hx hu
  · intro j q earlier kernel x u hpos hjq hj hq hstream hx hu
    rcases kernel_of_set hold hq with ⟨rfl, rfl⟩ | ⟨hq', hkernel⟩
    · -- a thread of the later kernel makes an access
      rcases kernel_of_set hold hj with ⟨rfl, _⟩ | ⟨_, hearlier⟩
      · omega
      · rcases List.mem_or_eq_of_mem_set hu with hothers | rfl
        · exact hs j q earlier old x u hpos hjq hearlier hold hstream hx hothers
        · have hdone := hturn j earlier hjq hearlier hstream
          have hafter := hsetUp.after
            (first_finished_of_turn hsetUp (Nat.lt_trans hpos hjq) hold hturn)
          have hleftX : P.left x = true := List.all_eq_true.mp hdone x hx
          exact Or.inr ⟨hleftX, hrelated s.memory x running hafter.left
            (hafter.right j earlier hpos hearlier x hx)
            (hafter.right q old (Nat.lt_trans hpos hjq) hold running
              (List.mem_of_getElem? hrunning)) hleftX hleft⟩
    · rcases kernel_of_set hold hj with ⟨rfl, rfl⟩ | ⟨_, hearlier⟩
      · -- the earlier kernel is not finished
        exact Or.inl (hordered j q old kernel hjq hold hkernel hstream
          (not_finished hrunning hleft) u hu)
      · exact hs j q earlier kernel x u hpos hjq hearlier hkernel hstream hx hu
  · exact hs

variable (P fresh filling inv mine) in
/-- What holds in every run that keeps to the streams. -/
structure Orderly (related : thread -> thread -> Prop) (s : Device stream memory thread) :
    Prop where
  setUp : exists first, SetUp P fresh filling inv mine s first
  ordered : Ordered P fresh s
  follows : Follows P fresh related s
  idle : s.freed = true -> forall kernel, kernel ∈ s.kernels -> kernel.finished P = true

omit [DecidableEq stream] in
/-- The device after the launch of the first kernel. -/
theorem orderly_launched {m : memory} {first : Kernel stream thread}
    {related : thread -> thread -> Prop} (D : Discipline P fresh filling inv mine)
    (hfilling : filling m first.threads) :
    Orderly P fresh filling inv mine related
      { memory := m, kernels := [first], freed := false } := by
  have honly : forall {q : Nat} {kernel : Kernel stream thread},
      [first][q]? = some kernel -> q = 0 := by
    intro q kernel hq
    have hlt := (List.getElem?_eq_some_iff.mp hq).1
    simpa using hlt
  constructor
  · exists first
    constructor
    · rfl
    · intro _
      exact ⟨hfilling, fun q later hpos hlater => absurd (honly hlater) (Nat.ne_of_gt hpos)⟩
    · intro hdone
      exact ⟨D.filled m first.threads hfilling hdone,
        fun q later hpos hlater => absurd (honly hlater) (Nat.ne_of_gt hpos)⟩
  · intro j q earlier kernel hjq _ hq _ _
    have hzero := honly hq
    omega
  · intro j q earlier kernel x u hpos hjq _ hq _ _ _
    have hzero := honly hq
    omega
  · intro hfreed
    cases hfreed

theorem orderly_step {related : thread -> thread -> Prop} {s t : Device stream memory thread}
    {e : Event stream thread} (D : Discipline P fresh filling inv mine)
    (hrelated : forall m x u, inv m -> mine m x -> mine m u -> P.left x = true ->
      P.left u = false -> related x (P.access m u).2)
    (hs : Orderly P fresh filling inv mine related s) (hok : AfterSetUp P fresh s e)
    (h : (machine P).step s e = some t) : Orderly P fresh filling inv mine related t := by
  rcases hs.setUp with ⟨first, hsetUp⟩
  constructor
  · exact setUp_step D hs.setUp hok h
  · exact ordered_step hs.ordered (afterSetUp_fresh hok) h
  · exact follows_step hrelated hsetUp hs.ordered hs.follows (afterSetUp_fresh hok) h
  · exact (idle_step hs.idle h).right

theorem orderly_run {related : thread -> thread -> Prop} {s t : Device stream memory thread}
    {events : List (Event stream thread)} (D : Discipline P fresh filling inv mine)
    (hrelated : forall m x u, inv m -> mine m x -> mine m u -> P.left x = true ->
      P.left u = false -> related x (P.access m u).2)
    (hs : Orderly P fresh filling inv mine related s)
    (hok : (machine P).Along (AfterSetUp P fresh) s events)
    (hrun : (machine P).run s events = some t) :
    Orderly P fresh filling inv mine related t :=
  Machine.invariant_run (fun _ _ _ hu hhere hstep => orderly_step D hrelated hu hhere hstep)
    hs hok hrun

end SetUp

end Device
end Foundation
end Cuda2Rocm
