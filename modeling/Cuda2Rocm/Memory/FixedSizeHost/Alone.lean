import Cuda2Rocm.Memory.FixedSizeHost.OwnSteps

/-!
# Calls that run alone

A call during which no other thread takes a step.  Its compare-exchanges may still fail
spuriously, any number of times, but the counter it reloads is the one it saw; what such a
call comes to is therefore decided by the state it starts in.
-/

namespace Cuda2Rocm
namespace Memory
namespace FixedSizeHost

open Foundation

/-- Steps of one thread inside a call. -/
def Solo (thread : Thread) (events : List Event) : Prop :=
  forall e, e ∈ events -> e.thread = some thread ∧ e ≠ .ret thread

/-- A call that runs to its end alone. -/
structure EndsAlone (c : Config) (s : State) (thread : Thread) (call : Event)
    (during : List Event) (outcome : Outcome) (t : State) : Prop where
  alone : Solo thread during
  run : (hostMachine c).run s (call :: during) = some t
  done : t.threads.lookup thread = some (.done outcome)

/-!
# Charging alone
-/

/-- `do_reserve(bytes)` grants at this value of the counter. -/
def Admits (c : Config) (total bytes : Nat) : Prop :=
  bytes = 0 ∨ c.memLimit = 0 ∨ (bytes ≤ c.memLimit ∧ total ≤ c.memLimit - bytes)

instance (c : Config) (total bytes : Nat) : Decidable (Admits c total bytes) :=
  inferInstanceAs (Decidable (_ ∨ _))

/-- The counter after `do_reserve(bytes)` has granted. -/
def chargedTotal (c : Config) (total bytes : Nat) : Nat :=
  if bytes = 0 then total
  else if c.memLimit = 0 then wrapSize (total + bytes)
  else total + bytes

namespace DoReserve

/-- Where `do_reserve` stands when nobody else has written the counter. -/
def Alone (c : Config) (total bytes : Nat) (counter : Counter) : DoReserve -> Prop
  | .charge .load => counter.total = total
  | .charge (.cas cur) => counter.total = total ∧ cur = total
  | .readNow => Admits c total bytes ∧ counter.total = chargedTotal c total bytes
  | .raisePeak _ .load =>
      Admits c total bytes ∧ counter.total = chargedTotal c total bytes
  | .raisePeak _ (.cas peak) =>
      (Admits c total bytes ∧ counter.total = chargedTotal c total bytes) ∧
        peak = counter.peak

/-- What a step of it comes to. -/
def Result.Alone (c : Config) (total bytes : Nat) : Result -> Prop
  | .goesOn pc counter => pc.Alone c total bytes counter
  | .returned true counter =>
      Admits c total bytes ∧ counter.total = chargedTotal c total bytes
  | .returned false counter => ¬ Admits c total bytes ∧ counter.total = total

/-- The steps that are left at most, when no exchange fails. -/
def rank : DoReserve -> Nat
  | .charge .load => 5
  | .charge (.cas _) => 4
  | .readNow => 3
  | .raisePeak _ .load => 2
  | .raisePeak _ (.cas _) => 1

variable {c : Config} {total bytes : Nat} {counter : Counter} {pc : DoReserve}

theorem Alone.total_eq {loop : CasLoop} (h : Alone c total bytes counter (.charge loop)) :
    counter.total = total := by
  cases loop with
  | load => exact h
  | cas cur => exact h.left

theorem Alone.admitted {now : Nat} {loop : CasLoop}
    (h : Alone c total bytes counter (.raisePeak now loop)) :
    Admits c total bytes ∧ counter.total = chargedTotal c total bytes := by
  cases loop with
  | load => exact h
  | cas peak => exact h.left

theorem alone_step (h : pc.Alone c total bytes counter) (spurious : Bool) :
    (pc.step c.memLimit bytes spurious counter).Alone c total bytes := by
  cases pc with
  | charge loop =>
      have htotal := h.total_eq
      simp only [step]
      by_cases hzero : bytes = 0
      · rw [if_pos hzero]
        refine ⟨Or.inl hzero, ?_⟩
        rw [chargedTotal, if_pos hzero]
        exact htotal
      · rw [if_neg hzero]
        by_cases hlimit : c.memLimit = 0
        · rw [if_pos hlimit]
          refine ⟨Or.inr (Or.inl hlimit), ?_⟩
          rw [chargedTotal, if_neg hzero, if_pos hlimit, htotal]
        · rw [if_neg hlimit]
          by_cases hlarge : bytes > c.memLimit
          · rw [if_pos hlarge]
            refine ⟨?_, htotal⟩
            unfold Admits
            omega
          · rw [if_neg hlarge]
            rcases loop.step_cases (chargeNext c.memLimit bytes) spurious counter.total with
              ⟨hstep, _⟩ | ⟨cur, hloop, hnone, hstep⟩ | ⟨next, _, hnext, hstep⟩
            · rw [hstep]
              exact ⟨htotal, htotal⟩
            · rw [hstep]
              subst hloop
              have hcur : cur = total := h.right
              have hfull : cur > c.memLimit - bytes := by
                by_contra hroom
                rw [chargeNext, if_neg hroom] at hnone
                cases hnone
              refine ⟨?_, htotal⟩
              unfold Admits
              omega
            · rw [hstep]
              have hsum := chargeNext_some hnext (Nat.not_lt.mp hlarge)
              refine ⟨Or.inr (Or.inr ⟨Nat.not_lt.mp hlarge, by omega⟩), ?_⟩
              show next = _
              rw [chargedTotal, if_neg hzero, if_neg hlimit, hsum.left, htotal]
  | readNow => exact h
  | raisePeak now loop =>
      have hadmitted := h.admitted
      simp only [step]
      rcases loop.step_cases (peakNext now) spurious counter.peak with
        ⟨hstep, _⟩ | ⟨cur, _, _, hstep⟩ | ⟨next, _, _, hstep⟩
      · rw [hstep]
        exact ⟨hadmitted, rfl⟩
      · rw [hstep]
        exact hadmitted
      · rw [hstep]
        exact hadmitted

/-- Alone and without spurious failures every step makes headway. -/
theorem rank_step {pc' : DoReserve} {counter' : Counter}
    (h : pc.Alone c total bytes counter)
    (hstep : pc.step c.memLimit bytes false counter = .goesOn pc' counter') :
    pc'.rank < pc.rank := by
  have hexchange : forall (next : Nat -> Option Nat) (cell : Nat) (loop' : CasLoop),
      CasLoop.step next false cell (.cas cell) ≠ .again loop' := by
    intro next cell loop' hagain
    rcases CasLoop.step_cases next false cell (.cas cell) with
      ⟨_, hload | ⟨cur, hcur, hne | hspurious⟩⟩ | ⟨_, _, _, hresult⟩ | ⟨_, _, _, hresult⟩
    · cases hload
    · cases hcur
      exact hne rfl
    · cases hspurious
    · rw [hresult] at hagain
      cases hagain
    · rw [hresult] at hagain
      cases hagain
  cases pc with
  | charge loop =>
      simp only [step] at hstep
      split at hstep
      · cases hstep
      · split at hstep
        · cases hstep
          cases loop <;> simp [rank]
        · split at hstep
          · cases hstep
          · cases loop with
            | load =>
                simp only [CasLoop.step] at hstep
                cases hstep
                simp [rank]
            | cas cur =>
                rcases h with ⟨htotal, hcur⟩
                rw [hcur, ← htotal] at hstep
                split at hstep
                · rename_i loop' hagain
                  exact absurd hagain (hexchange _ _ loop')
                · cases hstep
                · cases hstep
                  simp [rank]
  | readNow =>
      simp only [step] at hstep
      cases hstep
      simp [rank]
  | raisePeak now loop =>
      simp only [step] at hstep
      cases loop with
      | load =>
          simp only [CasLoop.step] at hstep
          cases hstep
          simp [rank]
      | cas peak =>
          have hpeak : peak = counter.peak := h.right
          rw [hpeak] at hstep
          split at hstep
          · rename_i loop' hagain
            exact absurd hagain (hexchange _ _ loop')
          · cases hstep
          · cases hstep

end DoReserve

/-!
# Progress
-/

/-- The steps that a call has left at most, when no exchange fails and `hipMallocHost`
does. -/
def Frame.rank : Frame -> Nat
  | .locking _ _ => 20
  | .charging _ pc => 10 + pc.rank
  | .registering _ => 9
  | .allocating _ => 9
  | .constructing _ _ => 1
  | .crediting _ .load => 5
  | .crediting _ (.cas _) => 4
  | _ => 0

/-- The same for what a thread is in. -/
def State.rankOf (s : State) (thread : Thread) : Nat :=
  match s.threads.lookup thread with
  | none => 0
  | some frame => frame.rank

theorem rankOf_eq {s : State} {thread : Thread} {frame : Frame}
    (h : s.threads.lookup thread = some frame) : s.rankOf thread = frame.rank := by
  unfold State.rankOf
  rw [h]

theorem rankOf_insert {t : State} {thread : Thread} (threads : Table Thread Frame)
    (frame : Frame) (h : t.threads = threads.insert thread frame) :
    t.rankOf thread = frame.rank := by
  apply rankOf_eq
  rw [h]
  exact Table.lookup_insert_self _ _ _

/-!
# Steps of a thread by what it is in
-/

section OwnSteps

variable {c : Config} {t u : State} {e : Event} {thread : Thread}

/-- In `do_reserve` a thread can only tick. -/
theorem own_charging {charge : Charge} {pc : DoReserve}
    (hframe : t.threads.lookup thread = some (.charging charge pc))
    (hown : e.thread = some thread) (hret : e ≠ .ret thread)
    (hstep : step c t e = some u) :
    exists spurious, u = t.tickCharge c thread charge pc spurious := by
  rcases busy_step hframe hown hstep with ⟨spurious, hnext⟩ | ⟨_, hnext⟩ | ⟨_, hnext⟩ |
    ⟨_, hnext⟩ | ⟨_, hnext⟩ | heq
  · simp only [State.tickFrame, hframe, Option.some.injEq] at hnext
    exact ⟨spurious, hnext.symm⟩
  · simp [State.registerArena, hframe] at hnext
  · simp [State.tickMalloc, hframe] at hnext
  · simp [State.tickConstruct, hframe] at hnext
  · simp [State.tickThrow, hframe] at hnext
  · exact absurd heq hret

/-- In `do_release` a thread can only tick. -/
theorem own_crediting {credit : Credit} {loop : CasLoop}
    (hframe : t.threads.lookup thread = some (.crediting credit loop))
    (hown : e.thread = some thread) (hret : e ≠ .ret thread)
    (hstep : step c t e = some u) :
    exists spurious, u = t.tickCredit thread credit loop spurious := by
  rcases busy_step hframe hown hstep with ⟨spurious, hnext⟩ | ⟨_, hnext⟩ | ⟨_, hnext⟩ |
    ⟨_, hnext⟩ | ⟨_, hnext⟩ | heq
  · simp only [State.tickFrame, hframe, Option.some.injEq] at hnext
    exact ⟨spurious, hnext.symm⟩
  · simp [State.registerArena, hframe] at hnext
  · simp [State.tickMalloc, hframe] at hnext
  · simp [State.tickConstruct, hframe] at hnext
  · simp [State.tickThrow, hframe] at hnext
  · exact absurd heq hret

/-- A thread whose call is over can only return. -/
theorem own_done {outcome : Outcome}
    (hframe : t.threads.lookup thread = some (.done outcome))
    (hown : e.thread = some thread) (hstep : step c t e = some u) : e = .ret thread := by
  rcases busy_step hframe hown hstep with ⟨_, hnext⟩ | ⟨_, hnext⟩ | ⟨_, hnext⟩ |
    ⟨_, hnext⟩ | ⟨_, hnext⟩ | heq
  · simp [State.tickFrame, hframe] at hnext
  · simp [State.registerArena, hframe] at hnext
  · simp [State.tickMalloc, hframe] at hnext
  · simp [State.tickConstruct, hframe] at hnext
  · simp [State.tickThrow, hframe] at hnext
  · exact heq

end OwnSteps

section Charging

variable {c : Config} {s t : State} {thread : Thread} {charge : Charge} {pc : DoReserve}

theorem step_charging (hframe : t.threads.lookup thread = some (.charging charge pc))
    (spurious : Bool) :
    step c t (.tick thread spurious) = some (t.tickCharge c thread charge pc spurious) := by
  show t.tickFrame c thread spurious = _
  rw [State.tickFrame, hframe]

theorem step_crediting {credit : Credit} {loop : CasLoop}
    (hframe : t.threads.lookup thread = some (.crediting credit loop)) (spurious : Bool) :
    step c t (.tick thread spurious) = some (t.tickCredit thread credit loop spurious) := by
  show t.tickFrame c thread spurious = _
  rw [State.tickFrame, hframe]

theorem Frame.rank_charging_pos (charge : Charge) (pc : DoReserve) :
    9 < (Frame.charging charge pc).rank := by
  show 9 < 10 + pc.rank
  omega

/-- A tick in `do_reserve` comes closer to the end, alone and without failures. -/
theorem rankOf_tickCharge {total : Nat} (halone : pc.Alone c total charge.bytes t.counter)
    (thread : Thread) :
    (t.tickCharge c thread charge pc false).rankOf thread <
      (Frame.charging charge pc).rank := by
  have hlarge := Frame.rank_charging_pos charge pc
  unfold State.tickCharge
  split
  · rename_i pc' counter hresult
    rw [rankOf_insert t.threads (.charging charge pc') rfl]
    exact Nat.add_lt_add_left (DoReserve.rank_step halone hresult) 10
  · have hgranted : forall u : State, (u.granted thread charge).rankOf thread ≤ 9 := by
      intro u
      cases charge with
      | reservation bytes =>
          exact Nat.le_of_eq (rankOf_insert u.threads (.registering bytes) rfl)
      | blocks request =>
          exact Nat.le_of_eq (rankOf_insert u.threads (.allocating request) rfl)
      | single bytes =>
          exact Nat.le_trans (Nat.le_of_eq
            (rankOf_insert u.threads (.allocatingSingle bytes) rfl)) (Nat.zero_le 9)
    exact Nat.lt_of_le_of_lt (hgranted _) hlarge
  · have hrefused : forall u : State, (u.refused c thread charge).rankOf thread = 0 := by
      intro u
      cases charge with
      | reservation bytes => exact rankOf_insert u.threads (.done _) rfl
      | blocks request => exact rankOf_insert u.threads (.done _) rfl
      | single bytes => exact rankOf_insert u.threads (.done _) rfl
    exact Nat.lt_of_le_of_lt (Nat.le_of_eq (hrefused _)) (Nat.zero_lt_of_lt hlarge)

/-- A tick in `do_release` comes closer to the end, alone and without failures. -/
theorem rankOf_tickCredit {credit : Credit} {loop : CasLoop}
    (hloop : loop = .load ∨ loop = .cas t.counter.total) :
    (t.tickCredit thread credit loop false).rankOf thread <
      (Frame.crediting credit loop).rank := by
  have hover : forall u : State, (u.credited thread credit).rankOf thread = 0 := by
    intro u
    cases credit with
    | deallocation bytes => exact rankOf_insert u.threads (.done _) rfl
    | blocks request text => exact rankOf_insert u.threads (.done _) rfl
    | single bytes text => exact rankOf_insert u.threads (.done _) rfl
    | release addr bytes => exact rankOf_insert u.threads (.done _) rfl
  have hpos : 0 < (Frame.crediting credit loop).rank := by
    cases loop <;> exact Nat.zero_lt_succ _
  unfold State.tickCredit
  split
  · rename_i loop' hresult
    rw [rankOf_insert t.threads (.crediting credit loop') rfl]
    unfold doReleaseStep at hresult
    split at hresult
    · cases hresult
    · rcases hloop with rfl | rfl
      · cases hresult
        exact Nat.lt_succ_self 4
      · simp [CasLoop.step, creditNext] at hresult
  · exact Nat.lt_of_le_of_lt (Nat.le_of_eq (hover _)) hpos
  · exact Nat.lt_of_le_of_lt (Nat.le_of_eq (hover _)) hpos

/-- What a tick in `do_release` comes to: the loop has reloaded the counter, or the credit
is through. -/
theorem tickCredit_cases (t : State) (thread : Thread) (credit : Credit) (loop : CasLoop)
    (spurious : Bool) :
    t.tickCredit thread credit loop spurious =
        t.setFrame thread (.crediting credit (.cas t.counter.total)) ∨
      t.tickCredit thread credit loop spurious =
        (t.setTotal (t.counter.total - credit.bytes)).credited thread credit := by
  unfold State.tickCredit
  rcases doReleaseStep_cases credit.bytes spurious t.counter.total loop with
    hagain | ⟨hzero, hgave⟩ | hcommitted
  · rw [hagain]
    exact .inl rfl
  · rw [hgave, hzero]
    exact .inr rfl
  · rw [hcommitted]
    have hclamp : (if t.counter.total ≥ credit.bytes then t.counter.total - credit.bytes
        else 0) = t.counter.total - credit.bytes := by
      split
      · rfl
      · omega
    rw [hclamp]
    exact .inr rfl

end Charging

end FixedSizeHost
end Memory
end Cuda2Rocm
