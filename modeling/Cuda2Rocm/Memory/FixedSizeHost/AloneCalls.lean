import Cuda2Rocm.Memory.FixedSizeHost.Alone

/-!
# What calls that run alone come to

For each of three calls, the ways it can stand while it runs alone, kept by each of its
steps, and that it can come to its end.
-/

namespace Cuda2Rocm
namespace Memory
namespace FixedSizeHost

open Foundation

/-!
# Reserving alone
-/

section Reserve

variable {c : Config} {s t u : State} {e : Event} {thread : Thread} {bytes : Nat}

/-- How far a call of `reserve` that started in a state can be, for the rounded size. -/
inductive ReservingAlone (c : Config) (s : State) (thread : Thread) (bytes : Nat) :
    State -> Prop where
  | charging {t : State} {pc : DoReserve}
      (hframe : t.threads.lookup thread = some (.charging (.reservation bytes) pc))
      (halone : pc.Alone c s.counter.total bytes t.counter)
      (hmutex : t.mutex = none) : ReservingAlone c s thread bytes t
  | registering {t : State}
      (hframe : t.threads.lookup thread = some (.registering bytes))
      (hadmits : Admits c s.counter.total bytes)
      (htotal : t.counter.total = chargedTotal c s.counter.total bytes)
      (hmutex : t.mutex = none) : ReservingAlone c s thread bytes t
  | reserved {t : State} {addr : Addr} {rid : Nat}
      (hframe : t.threads.lookup thread = some (.done (.reservation addr)))
      (hadmits : Admits c s.counter.total bytes)
      (htotal : t.counter.total = chargedTotal c s.counter.total bytes)
      (harena : t.arenas.lookup addr = some
        { rid := rid, size := bytes, charged := bytes, held := true, tracker := some 0 })
      (hmutex : t.mutex = none) : ReservingAlone c s thread bytes t
  | refused {t : State} {outcome : Outcome}
      (hframe : t.threads.lookup thread = some (.done outcome))
      (hnone : forall addr, outcome ≠ .reservation addr)
      (hrefused : ¬ Admits c s.counter.total bytes)
      (htotal : t.counter.total = s.counter.total)
      (hmutex : t.mutex = none) : ReservingAlone c s thread bytes t

theorem reservingAlone_start (hmutex : s.mutex = none)
    (hstep : step c s (.reserve thread bytes) = some t) :
    ReservingAlone c s thread (alignUp bytes c.blockSize) t := by
  simp only [step] at hstep
  split at hstep
  · cases hstep
    unfold State.startReserve
    dsimp only
    split
    · rename_i hlarge
      refine .refused (Table.lookup_insert_self _ _ _) (fun _ => Outcome.noConfusion) ?_ rfl
        hmutex
      unfold Admits
      omega
    · exact .charging (Table.lookup_insert_self _ _ _) rfl hmutex
  · cases hstep

/-- A step of the thread itself stays within the call. -/
theorem reservingAlone_step (h : ReservingAlone c s thread bytes t)
    (hown : e.thread = some thread) (hret : e ≠ .ret thread)
    (hstep : step c t e = some u) : ReservingAlone c s thread bytes u := by
  cases h with
  | charging hframe halone hmutex =>
      rename_i pc
      rcases own_charging hframe hown hret hstep with ⟨spurious, rfl⟩
      have hpc := DoReserve.alone_step halone spurious
      unfold State.tickCharge
      change DoReserve.Result.Alone c s.counter.total bytes
        (pc.step c.memLimit (Charge.reservation bytes).bytes spurious t.counter) at hpc
      split
      · rename_i pc' counter hresult
        rw [hresult] at hpc
        exact .charging (Table.lookup_insert_self _ _ _) hpc hmutex
      · rename_i counter hresult
        rw [hresult] at hpc
        exact .registering (Table.lookup_insert_self _ _ _) hpc.left hpc.right hmutex
      · rename_i counter hresult
        rw [hresult] at hpc
        exact .refused (Table.lookup_insert_self _ _ _) (fun _ => Outcome.noConfusion)
          hpc.left hpc.right hmutex
  | registering hframe hadmits htotal hmutex =>
      rcases busy_step hframe hown hstep with ⟨_, hnext⟩ | ⟨addr, hnext⟩ | ⟨_, hnext⟩ |
        ⟨_, hnext⟩ | ⟨_, hnext⟩ | heq
      · simp [State.tickFrame, hframe] at hnext
      · unfold State.registerArena at hnext
        split at hnext
        · rename_i hregistering _ hfree
          rw [hframe] at hregistering
          cases hregistering
          cases hnext
          exact .reserved (Table.lookup_insert_self _ _ _) hadmits htotal
            (Table.lookup_insert_self _ _ _) hfree
        · cases hnext
      · simp [State.tickMalloc, hframe] at hnext
      · simp [State.tickConstruct, hframe] at hnext
      · simp [State.tickThrow, hframe] at hnext
      · exact absurd heq hret
  | reserved hframe _ _ _ _ => exact absurd (own_done hframe hown hstep) hret
  | refused hframe _ _ _ _ => exact absurd (own_done hframe hown hstep) hret

/-- A call of `reserve` is over, or comes closer to its end by a step of its own. -/
theorem reservingAlone_progress (h : ReservingAlone c s thread bytes t) :
    (exists outcome, t.threads.lookup thread = some (.done outcome)) ∨
      exists e u, (e.thread = some thread ∧ e ≠ .ret thread) ∧
        (hostMachine c).step t e = some u ∧ ReservingAlone c s thread bytes u ∧
        u.rankOf thread < t.rankOf thread := by
  cases h with
  | charging hframe halone hmutex =>
      have hstep : step c t (.tick thread false) = _ := step_charging hframe false
      have hown : Event.thread (.tick thread false) = some thread := rfl
      have hnext := reservingAlone_step (.charging hframe halone hmutex) hown
        Event.noConfusion hstep
      refine .inr ⟨_, _, ⟨hown, Event.noConfusion⟩, hstep, hnext, ?_⟩
      rw [rankOf_eq hframe]
      exact rankOf_tickCharge halone _
  | registering hframe hadmits htotal hmutex =>
      rcases Table.exists_free t.arenas with ⟨addr, hfree⟩
      have hstep : exists u, step c t (.register thread addr) = some u ∧
          u.threads.lookup thread = some (.done (.reservation addr)) := by
        simp only [step, State.registerArena, hframe, hfree, hmutex]
        exact ⟨_, rfl, Table.lookup_insert_self _ _ _⟩
      rcases hstep with ⟨u, hstep, hdone⟩
      have hown : Event.thread (.register thread addr) = some thread := rfl
      have hnext := reservingAlone_step (.registering hframe hadmits htotal hmutex) hown
        Event.noConfusion hstep
      refine .inr ⟨_, u, ⟨hown, Event.noConfusion⟩, hstep, hnext, ?_⟩
      rw [rankOf_eq hframe, rankOf_eq hdone]
      exact Nat.zero_lt_succ 8
  | reserved hframe _ _ _ _ => exact .inl ⟨_, hframe⟩
  | refused hframe _ _ _ _ => exact .inl ⟨_, hframe⟩

/-- A call of `reserve` can come to its end alone. -/
theorem reserve_ends (hidle : s.threads.lookup thread = none) (hmutex : s.mutex = none)
    (hbytes : bytes ≤ sizeMax) :
    exists during outcome t, EndsAlone c s thread (.reserve thread bytes) during outcome t := by
  have hstep : step c s (.reserve thread bytes) = some (s.startReserve c thread bytes) := by
    simp only [step, hidle, hbytes, and_self, if_true]
  rcases Machine.exists_run_of_progress (fun t : State => t.rankOf thread)
      (fun t h => reservingAlone_progress h) (reservingAlone_start hmutex hstep) with
    ⟨during, t, halone, hrun, _, outcome, hdone⟩
  refine ⟨during, outcome, t, halone, ?_, hdone⟩
  have hfirst : (hostMachine c).step s (.reserve thread bytes) =
      some (s.startReserve c thread bytes) := hstep
  rw [Machine.run_cons, hfirst]
  exact hrun

/-- What a call of `reserve` that ran alone has come to. -/
theorem reserve_alone {during : List Event} {outcome : Outcome}
    (hmutex : s.mutex = none) (h : EndsAlone c s thread (.reserve thread bytes) during outcome t) :
    ReservingAlone c s thread (alignUp bytes c.blockSize) t := by
  rcases Machine.run_cons_some h.run with ⟨u, hstart, hrest⟩
  have hstays : forall v e w, ReservingAlone c s thread (alignUp bytes c.blockSize) v ->
      (e.thread = some thread ∧ e ≠ .ret thread) -> (hostMachine c).step v e = some w ->
      ReservingAlone c s thread (alignUp bytes c.blockSize) w :=
    fun v e w hv hok hstep => reservingAlone_step hv hok.left hok.right hstep
  exact Machine.invariant_run hstays (reservingAlone_start hmutex hstart)
    (Machine.along_of_events h.alone) hrest

/-- A call of `reserve` that came to a reservation alone. -/
theorem reserved_alone {during : List Event} {addr : Addr} (hmutex : s.mutex = none)
    (h : EndsAlone c s thread (.reserve thread bytes) during (.reservation addr) t) :
    Admits c s.counter.total (alignUp bytes c.blockSize) ∧
      t.counter.total = chargedTotal c s.counter.total (alignUp bytes c.blockSize) ∧
      t.mutex = none ∧ exists rid, t.arenas.lookup addr = some
        { rid := rid, size := alignUp bytes c.blockSize,
          charged := alignUp bytes c.blockSize, held := true, tracker := some 0 } := by
  have hdone := h.done
  cases reserve_alone hmutex h with
  | charging hframe _ _ => rw [hdone] at hframe; cases hframe
  | registering hframe _ _ _ => rw [hdone] at hframe; cases hframe
  | reserved hframe hadmits htotal harena hfree =>
      rw [hdone] at hframe
      cases hframe
      exact ⟨hadmits, htotal, hfree, _, harena⟩
  | refused hframe hnone _ _ _ =>
      rw [hdone] at hframe
      cases hframe
      exact absurd rfl (hnone addr)

/-- A call of `reserve` that ran alone yields a reservation exactly if the counter admits
it, and moves the counter accordingly. -/
theorem reserve_granted_iff {during : List Event} {outcome : Outcome}
    (hmutex : s.mutex = none)
    (h : EndsAlone c s thread (.reserve thread bytes) during outcome t) :
    ((exists addr, outcome = .reservation addr) <->
      Admits c s.counter.total (alignUp bytes c.blockSize)) ∧
    ((exists addr, outcome = .reservation addr) ->
      t.counter.total = chargedTotal c s.counter.total (alignUp bytes c.blockSize)) := by
  have hdone := h.done
  cases reserve_alone hmutex h with
  | charging hframe _ _ => rw [hdone] at hframe; cases hframe
  | registering hframe _ _ _ => rw [hdone] at hframe; cases hframe
  | reserved hframe hadmits htotal _ _ =>
      rw [hdone] at hframe
      cases hframe
      exact ⟨⟨fun _ => hadmits, fun _ => ⟨_, rfl⟩⟩, fun _ => htotal⟩
  | refused hframe hnone hrefused _ _ =>
      rw [hdone] at hframe
      cases hframe
      refine ⟨⟨?_, fun hadmits => absurd hadmits hrefused⟩, ?_⟩
      · rintro ⟨addr, heq⟩
        exact absurd heq (hnone addr)
      · rintro ⟨addr, heq⟩
        exact absurd heq (hnone addr)

end Reserve

/-!
# Allocating alone
-/

/-- A request without a reservation. -/
def unreserved (bytes : Nat) : Request := { bytes := bytes, arena := none, charge := bytes }

/-- What `allocate_multiple_blocks` throws for the limit, without a reservation. -/
def limitText (c : Config) (bytes : Nat) : String :=
  State.oomText bytes ++ "(upstream_tracked=" ++ toString bytes ++
    ") within memory limit " ++ toString c.memLimit

/-- A character of a text is that of everything that begins with the text. -/
theorem getElem_toList_append {text rest : String} {i : Nat} {character : Char}
    (h : text.toList[i]? = some character) :
    (text ++ rest).toList[i]? = some character := by
  have hlt := (List.getElem?_eq_some_iff.mp h).1
  rw [String.toList_append, List.getElem?_append_left hlt]
  exact h

/-- The texts thrown for the limit and for `hipMallocHost` differ. -/
theorem limitText_ne_mallocText (c : Config) (bytes : Nat) (name error : String) :
    limitText c bytes ≠ State.mallocText name error := by
  intro heq
  have hlimit : (limitText c bytes).toList[11]? = some 'f' := by
    unfold limitText State.oomText
    simp only [String.append_assoc]
    exact getElem_toList_append rfl
  have hmalloc : (State.mallocText name error).toList[11]? = some 'h' := by
    unfold State.mallocText
    simp only [String.append_assoc]
    exact getElem_toList_append rfl
  rw [heq, hmalloc] at hlimit
  exact absurd hlimit (by decide)

section Allocate

variable {c : Config} {s t u : State} {e : Event} {thread : Thread} {bytes : Nat}

/-- How far a call of `allocate_multiple_blocks` without a reservation that started in a
state can be, for the rounded size. -/
inductive AllocatingAlone (c : Config) (s : State) (thread : Thread) (bytes : Nat) :
    State -> Prop where
  | locking {t : State}
      (hframe : t.threads.lookup thread = some (.locking bytes none))
      (htotal : t.counter.total = s.counter.total)
      (hmutex : t.mutex = none) : AllocatingAlone c s thread bytes t
  | charging {t : State} {pc : DoReserve}
      (hframe : t.threads.lookup thread = some (.charging (.blocks (unreserved bytes)) pc))
      (halone : pc.Alone c s.counter.total bytes t.counter) :
      AllocatingAlone c s thread bytes t
  | allocating {t : State}
      (hframe : t.threads.lookup thread = some (.allocating (unreserved bytes)))
      (hadmits : Admits c s.counter.total bytes)
      (htotal : t.counter.total = chargedTotal c s.counter.total bytes) :
      AllocatingAlone c s thread bytes t
  | constructing {t : State} {ptr : Ptr}
      (hframe : t.threads.lookup thread = some (.constructing (unreserved bytes) ptr))
      (hadmits : Admits c s.counter.total bytes)
      (htotal : t.counter.total = chargedTotal c s.counter.total bytes) :
      AllocatingAlone c s thread bytes t
  | granted {t : State} {id : AllocId}
      (hframe : t.threads.lookup thread = some (.done (.blocks (some id))))
      (hadmits : Admits c s.counter.total bytes)
      (htotal : t.counter.total = chargedTotal c s.counter.total bytes)
      (hmutex : t.mutex = none) : AllocatingAlone c s thread bytes t
  | refused {t : State}
      (hframe : t.threads.lookup thread = some (.done (.threw (limitText c bytes))))
      (hrefused : ¬ Admits c s.counter.total bytes) : AllocatingAlone c s thread bytes t
  | failing {t : State} {error : String} {loop : CasLoop}
      (hframe : t.threads.lookup thread = some (.crediting (.blocks (unreserved bytes)
        (State.mallocText "allocate_multiple_blocks" error)) loop))
      (hloop : loop = .load ∨ loop = .cas t.counter.total)
      (hadmits : Admits c s.counter.total bytes) : AllocatingAlone c s thread bytes t
  | failed {t : State} {error : String}
      (hframe : t.threads.lookup thread = some (.done (.threw
        (State.mallocText "allocate_multiple_blocks" error))))
      (hadmits : Admits c s.counter.total bytes) : AllocatingAlone c s thread bytes t
  | raised {t : State} {exception : StdException}
      (hframe : t.threads.lookup thread = some (.done (.raised exception)))
      (hadmits : Admits c s.counter.total bytes) : AllocatingAlone c s thread bytes t

theorem allocatingAlone_start (hbytes : 0 < bytes) (hmutex : s.mutex = none)
    (hstep : step c s (.allocateMultipleBlocks thread bytes none) = some t) :
    AllocatingAlone c s thread (allocBytes bytes c.blockSize) t := by
  simp only [step] at hstep
  split at hstep
  · rw [State.startBlocks, if_neg (Nat.pos_iff_ne_zero.mp hbytes)] at hstep
    cases hstep
    exact .locking (Table.lookup_insert_self _ _ _) rfl hmutex
  · cases hstep

theorem allocatingAlone_charge {pc : DoReserve} {spurious : Bool}
    (halone : pc.Alone c s.counter.total bytes t.counter) :
    AllocatingAlone c s thread bytes
      (t.tickCharge c thread (.blocks (unreserved bytes)) pc spurious) := by
  have hpc := DoReserve.alone_step halone spurious
  unfold State.tickCharge
  change DoReserve.Result.Alone c s.counter.total bytes
    (pc.step c.memLimit (Charge.blocks (unreserved bytes)).bytes spurious t.counter) at hpc
  split
  · rename_i pc' counter hresult
    rw [hresult] at hpc
    exact .charging (Table.lookup_insert_self _ _ _) hpc
  · rename_i counter hresult
    rw [hresult] at hpc
    exact .allocating (Table.lookup_insert_self _ _ _) hpc.left hpc.right
  · rename_i counter hresult
    rw [hresult] at hpc
    exact .refused (Table.lookup_insert_self _ _ _) hpc.left

theorem allocatingAlone_credit {error : String} {loop : CasLoop} {spurious : Bool}
    (hadmits : Admits c s.counter.total bytes) :
    AllocatingAlone c s thread bytes (t.tickCredit thread (.blocks (unreserved bytes)
      (State.mallocText "allocate_multiple_blocks" error)) loop spurious) := by
  rcases tickCredit_cases t thread (.blocks (unreserved bytes)
      (State.mallocText "allocate_multiple_blocks" error)) loop spurious with hagain | hover
  · rw [hagain]
    exact .failing (Table.lookup_insert_self _ _ _) (.inr rfl) hadmits
  · rw [hover]
    exact .failed (Table.lookup_insert_self _ _ _) hadmits

/-- A step of the thread itself stays within the call. -/
theorem allocatingAlone_step (h : AllocatingAlone c s thread bytes t)
    (hown : e.thread = some thread) (hret : e ≠ .ret thread)
    (hstep : step c t e = some u) : AllocatingAlone c s thread bytes u := by
  cases h with
  | locking hframe htotal hmutex =>
      rcases busy_step hframe hown hstep with ⟨_, hnext⟩ | ⟨_, hnext⟩ | ⟨_, hnext⟩ |
        ⟨_, hnext⟩ | ⟨_, hnext⟩ | heq
      · simp only [State.tickFrame, hframe, hmutex, if_true, Option.some.injEq] at hnext
        subst hnext
        exact .charging (Table.lookup_insert_self _ _ _) htotal
      · simp [State.registerArena, hframe] at hnext
      · simp [State.tickMalloc, hframe] at hnext
      · simp [State.tickConstruct, hframe] at hnext
      · simp [State.tickThrow, hframe] at hnext
      · exact absurd heq hret
  | charging hframe halone =>
      rcases own_charging hframe hown hret hstep with ⟨_, rfl⟩
      exact allocatingAlone_charge halone
  | allocating hframe hadmits htotal =>
      rcases busy_step hframe hown hstep with ⟨_, hnext⟩ | ⟨_, hnext⟩ | ⟨result, hnext⟩ |
        ⟨_, hnext⟩ | ⟨_, hnext⟩ | heq
      · simp [State.tickFrame, hframe] at hnext
      · simp [State.registerArena, hframe] at hnext
      · simp only [State.tickMalloc, hframe] at hnext
        cases result with
        | error error =>
            cases hnext
            exact .failing (Table.lookup_insert_self _ _ _) (.inl rfl) hadmits
        | ok ptr =>
            dsimp only at hnext
            split at hnext
            · cases hnext
            · cases hnext
              exact .constructing (Table.lookup_insert_self _ _ _) hadmits htotal
      · simp [State.tickConstruct, hframe] at hnext
      · simp [State.tickThrow, hframe] at hnext
      · exact absurd heq hret
  | constructing hframe hadmits htotal =>
      rcases busy_step hframe hown hstep with ⟨_, hnext⟩ | ⟨_, hnext⟩ | ⟨_, hnext⟩ |
        ⟨id, hnext⟩ | ⟨exception, hnext⟩ | heq
      · simp [State.tickFrame, hframe] at hnext
      · simp [State.registerArena, hframe] at hnext
      · simp [State.tickMalloc, hframe] at hnext
      · simp only [State.tickConstruct, hframe] at hnext
        split at hnext
        · split at hnext
          · cases hnext
            exact .granted (Table.lookup_insert_self _ _ _) hadmits htotal rfl
          · cases hnext
        · cases hnext
      · simp only [State.tickThrow, hframe] at hnext
        split at hnext
        · cases hnext
          exact .raised (Table.lookup_insert_self _ _ _) hadmits
        · cases hnext
      · exact absurd heq hret
  | failing hframe hloop hadmits =>
      rcases own_crediting hframe hown hret hstep with ⟨_, rfl⟩
      exact allocatingAlone_credit hadmits
  | granted hframe _ _ _ => exact absurd (own_done hframe hown hstep) hret
  | refused hframe _ => exact absurd (own_done hframe hown hstep) hret
  | failed hframe _ => exact absurd (own_done hframe hown hstep) hret
  | raised hframe _ => exact absurd (own_done hframe hown hstep) hret

/-- A call without a reservation is over, or comes closer to its end by a step of its
own. -/
theorem allocatingAlone_progress (h : AllocatingAlone c s thread bytes t) :
    (exists outcome, t.threads.lookup thread = some (.done outcome)) ∨
      exists e u, (e.thread = some thread ∧ e ≠ .ret thread) ∧
        (hostMachine c).step t e = some u ∧ AllocatingAlone c s thread bytes u ∧
        u.rankOf thread < t.rankOf thread := by
  have htick : Event.thread (.tick thread false) = some thread := rfl
  cases h with
  | locking hframe htotal hmutex =>
      have hstep : step c t (.tick thread false) = some (t.tickLock thread bytes none) := by
        simp only [step, State.tickFrame, hframe, hmutex, if_true]
      have hnext := allocatingAlone_step (.locking hframe htotal hmutex) htick
        Event.noConfusion hstep
      refine .inr ⟨_, _, ⟨htick, Event.noConfusion⟩, hstep, hnext, ?_⟩
      rw [rankOf_eq hframe, rankOf_insert t.threads
        (.charging (.blocks (unreserved bytes)) .start) rfl]
      exact Nat.lt_of_sub_pos (Nat.zero_lt_succ 4)
  | charging hframe halone =>
      have hstep : step c t (.tick thread false) = _ := step_charging hframe false
      have hnext := allocatingAlone_step (.charging hframe halone) htick
        Event.noConfusion hstep
      refine .inr ⟨_, _, ⟨htick, Event.noConfusion⟩, hstep, hnext, ?_⟩
      rw [rankOf_eq hframe]
      exact rankOf_tickCharge halone _
  | allocating hframe hadmits htotal =>
      have hown : Event.thread (.hipMallocHost thread (.error "")) = some thread := rfl
      have hstep : step c t (.hipMallocHost thread (.error "")) =
          some (t.setFrame thread (.crediting (.blocks (unreserved bytes)
            (State.mallocText "allocate_multiple_blocks" "")) .load)) := by
        simp only [step, State.tickMalloc, hframe]
      have hnext := allocatingAlone_step (.allocating hframe hadmits htotal) hown
        Event.noConfusion hstep
      refine .inr ⟨_, _, ⟨hown, Event.noConfusion⟩, hstep, hnext, ?_⟩
      rw [rankOf_eq hframe, rankOf_insert t.threads (.crediting (.blocks (unreserved bytes)
        (State.mallocText "allocate_multiple_blocks" "")) .load) rfl]
      exact Nat.lt_of_sub_pos (Nat.zero_lt_succ 3)
  | constructing hframe hadmits htotal =>
      have hown : Event.thread (.throws thread .badAlloc) = some thread := rfl
      have hstep : exists u, step c t (.throws thread .badAlloc) = some u ∧
          u.threads.lookup thread = some (.done (.raised .badAlloc)) := by
        simp only [step, State.tickThrow, hframe, true_or, if_true]
        exact ⟨_, rfl, Table.lookup_insert_self _ _ _⟩
      rcases hstep with ⟨u, hstep, hdone⟩
      have hnext := allocatingAlone_step (.constructing hframe hadmits htotal) hown
        Event.noConfusion hstep
      refine .inr ⟨_, u, ⟨hown, Event.noConfusion⟩, hstep, hnext, ?_⟩
      rw [rankOf_eq hframe, rankOf_eq hdone]
      exact Nat.zero_lt_one
  | failing hframe hloop hadmits =>
      have hstep : step c t (.tick thread false) = _ := step_crediting hframe false
      have hnext := allocatingAlone_step (.failing hframe hloop hadmits) htick
        Event.noConfusion hstep
      refine .inr ⟨_, _, ⟨htick, Event.noConfusion⟩, hstep, hnext, ?_⟩
      rw [rankOf_eq hframe]
      exact rankOf_tickCredit hloop
  | granted hframe _ _ _ => exact .inl ⟨_, hframe⟩
  | refused hframe _ => exact .inl ⟨_, hframe⟩
  | failed hframe _ => exact .inl ⟨_, hframe⟩
  | raised hframe _ => exact .inl ⟨_, hframe⟩

/-- A call without a reservation can come to its end alone. -/
theorem allocate_ends (hidle : s.threads.lookup thread = none) (hmutex : s.mutex = none)
    (hbytes : bytes ≤ sizeMax) :
    exists during outcome t,
      EndsAlone c s thread (.allocateMultipleBlocks thread bytes none) during outcome t := by
  by_cases hzero : bytes = 0
  · have hfirst : (hostMachine c).step s (.allocateMultipleBlocks thread bytes none) =
        some (s.setFrame thread (.done (.blocks none))) := by
      simp only [hostMachine, step, State.startBlocks, hidle, hzero, Nat.zero_le, and_self,
        if_true]
    refine ⟨[], .blocks none, s.setFrame thread (.done (.blocks none)),
      fun _ h => absurd h List.not_mem_nil, ?_, Table.lookup_insert_self s.threads thread _⟩
    rw [Machine.run_cons, hfirst]
    rfl
  · have hfirst : (hostMachine c).step s (.allocateMultipleBlocks thread bytes none) =
        some (s.setFrame thread (.locking (allocBytes bytes c.blockSize) none)) := by
      simp only [hostMachine, step, State.startBlocks, hidle, hbytes, hzero, and_self, if_true,
        if_false]
    rcases Machine.exists_run_of_progress (fun t : State => t.rankOf thread)
        (fun t h => allocatingAlone_progress h)
        (allocatingAlone_start (Nat.pos_of_ne_zero hzero) hmutex hfirst) with
      ⟨during, t, halone, hrun, _, outcome, hdone⟩
    refine ⟨during, outcome, t, halone, ?_, hdone⟩
    rw [Machine.run_cons, hfirst]
    exact hrun

/-- What a call without a reservation that ran alone has come to. -/
theorem allocate_alone {during : List Event} {outcome : Outcome} (hbytes : 0 < bytes)
    (hmutex : s.mutex = none)
    (h : EndsAlone c s thread (.allocateMultipleBlocks thread bytes none) during outcome t) :
    AllocatingAlone c s thread (allocBytes bytes c.blockSize) t := by
  rcases Machine.run_cons_some h.run with ⟨u, hstart, hrest⟩
  have hstays : forall v e w,
      AllocatingAlone c s thread (allocBytes bytes c.blockSize) v ->
      (e.thread = some thread ∧ e ≠ .ret thread) -> (hostMachine c).step v e = some w ->
      AllocatingAlone c s thread (allocBytes bytes c.blockSize) w :=
    fun v e w hv hok hstep => allocatingAlone_step hv hok.left hok.right hstep
  exact Machine.invariant_run hstays (allocatingAlone_start hbytes hmutex hstart)
    (Machine.along_of_events h.alone) hrest

/-- A call for nothing is over at once. -/
theorem allocate_nothing {during : List Event} {outcome : Outcome}
    (h : EndsAlone c s thread (.allocateMultipleBlocks thread 0 none) during outcome t) :
    outcome = .blocks none := by
  rcases Machine.run_cons_some h.run with ⟨u, hstart, hrest⟩
  have hover : u.threads.lookup thread = some (.done (.blocks none)) := by
    simp only [hostMachine, step, State.startBlocks] at hstart
    split at hstart
    · cases hstart
      exact Table.lookup_insert_self _ _ _
    · cases hstart
  cases during with
  | nil =>
      cases hrest
      have hdone := h.done
      rw [hover] at hdone
      cases hdone
      rfl
  | cons e rest =>
      rcases Machine.run_cons_some hrest with ⟨v, hstep, _⟩
      have hfirst := h.alone e List.mem_cons_self
      exact absurd (own_done hover hfirst.left hstep) hfirst.right

/-- A call without a reservation that ran alone throws for the limit exactly if the
counter does not admit it. -/
theorem allocate_refused_iff {during : List Event} {outcome : Outcome} (hbytes : 0 < bytes)
    (hmutex : s.mutex = none)
    (h : EndsAlone c s thread (.allocateMultipleBlocks thread bytes none) during outcome t) :
    outcome = .threw (limitText c (allocBytes bytes c.blockSize)) <->
      ¬ Admits c s.counter.total (allocBytes bytes c.blockSize) := by
  have hdone := h.done
  have hover : forall {frame : Frame}, t.threads.lookup thread = some frame ->
      frame = .done outcome := by
    intro frame hframe
    rw [hdone] at hframe
    exact (Option.some.inj hframe).symm
  cases allocate_alone hbytes hmutex h with
  | locking hframe _ _ => cases hover hframe
  | charging hframe _ => cases hover hframe
  | allocating hframe _ _ => cases hover hframe
  | constructing hframe _ _ => cases hover hframe
  | granted hframe hadmits _ _ =>
      cases hover hframe
      exact ⟨fun heq => Outcome.noConfusion heq, fun hnot => absurd hadmits hnot⟩
  | refused hframe hrefused =>
      cases hover hframe
      exact ⟨fun _ => hrefused, fun _ => rfl⟩
  | failing hframe _ _ => cases hover hframe
  | failed hframe hadmits =>
      cases hover hframe
      refine ⟨fun heq => ?_, fun hnot => absurd hadmits hnot⟩
      exact absurd (Outcome.threw.inj heq).symm (limitText_ne_mallocText c _ _ _)
  | raised hframe hadmits =>
      cases hover hframe
      exact ⟨fun heq => Outcome.noConfusion heq, fun hnot => absurd hadmits hnot⟩

/-- What a call without a reservation that returned memory has left. -/
theorem allocate_granted {during : List Event} {id : AllocId} (hbytes : 0 < bytes)
    (hmutex : s.mutex = none)
    (h : EndsAlone c s thread (.allocateMultipleBlocks thread bytes none) during
      (.blocks (some id)) t) :
    Admits c s.counter.total (allocBytes bytes c.blockSize) ∧
      t.counter.total = chargedTotal c s.counter.total (allocBytes bytes c.blockSize) ∧
      t.mutex = none := by
  have hdone := h.done
  cases allocate_alone hbytes hmutex h with
  | granted _ hadmits htotal hfree => exact ⟨hadmits, htotal, hfree⟩
  | locking hframe _ _ => rw [hdone] at hframe; cases hframe
  | charging hframe _ => rw [hdone] at hframe; cases hframe
  | allocating hframe _ _ => rw [hdone] at hframe; cases hframe
  | constructing hframe _ _ => rw [hdone] at hframe; cases hframe
  | refused hframe _ => rw [hdone] at hframe; cases hframe
  | failing hframe _ _ => rw [hdone] at hframe; cases hframe
  | failed hframe _ => rw [hdone] at hframe; cases hframe
  | raised hframe _ => rw [hdone] at hframe; cases hframe

end Allocate

/-!
# Releasing alone
-/

section Release

variable {c : Config} {s t u : State} {e : Event} {thread : Thread} {addr : Addr}
  {bytes : Nat}

/-- How far the destructor of a reservation that started in a state can be, for the bytes
it credits. -/
inductive ReleasingAlone (s : State) (thread : Thread) (addr : Addr) (bytes : Nat) :
    State -> Prop where
  | crediting {t : State} {loop : CasLoop}
      (hframe : t.threads.lookup thread = some (.crediting (.release addr bytes) loop))
      (hloop : loop = .load ∨ loop = .cas t.counter.total)
      (htotal : t.counter.total = s.counter.total) : ReleasingAlone s thread addr bytes t
  | released {t : State}
      (hframe : t.threads.lookup thread = some (.done .finished))
      (htotal : t.counter.total = s.counter.total - bytes) :
      ReleasingAlone s thread addr bytes t

theorem releasingAlone_start {arena : Arena} {tracker : Int}
    (harena : s.arenas.lookup addr = some arena) (htracker : arena.tracker = some tracker)
    (hstep : step c s (.destroy thread addr) = some t) :
    ReleasingAlone s thread addr (reclaimed arena.size tracker) t := by
  simp only [step, harena] at hstep
  split at hstep
  · rename_i harena' _
    cases harena'
    split at hstep
    · simp only [State.startDestroy, htracker, Option.some.injEq] at hstep
      subst hstep
      exact .crediting (Table.lookup_insert_self _ _ _) (.inl rfl) rfl
    · cases hstep
  · cases hstep

theorem releasingAlone_step (h : ReleasingAlone s thread addr bytes t)
    (hown : e.thread = some thread) (hret : e ≠ .ret thread)
    (hstep : step c t e = some u) : ReleasingAlone s thread addr bytes u := by
  cases h with
  | crediting hframe hloop htotal =>
      rename_i loop
      rcases own_crediting hframe hown hret hstep with ⟨spurious, rfl⟩
      rcases tickCredit_cases t thread (.release addr bytes) loop spurious with
        hagain | hover
      · rw [hagain]
        exact .crediting (Table.lookup_insert_self _ _ _) (.inr rfl) htotal
      · rw [hover, htotal]
        exact .released (Table.lookup_insert_self _ _ _) rfl
  | released hframe _ => exact absurd (own_done hframe hown hstep) hret

theorem releasingAlone_progress (h : ReleasingAlone s thread addr bytes t) :
    (exists outcome, t.threads.lookup thread = some (.done outcome)) ∨
      exists e u, (e.thread = some thread ∧ e ≠ .ret thread) ∧
        (hostMachine c).step t e = some u ∧ ReleasingAlone s thread addr bytes u ∧
        u.rankOf thread < t.rankOf thread := by
  cases h with
  | crediting hframe hloop htotal =>
      have hown : Event.thread (.tick thread false) = some thread := rfl
      have hstep : step c t (.tick thread false) = _ := step_crediting hframe false
      have hnext := releasingAlone_step (.crediting hframe hloop htotal) hown
        Event.noConfusion hstep
      refine .inr ⟨_, _, ⟨hown, Event.noConfusion⟩, hstep, hnext, ?_⟩
      rw [rankOf_eq hframe]
      exact rankOf_tickCredit hloop
  | released hframe _ => exact .inl ⟨_, hframe⟩

/-- The destructor of a reservation can come to its end alone. -/
theorem release_ends {arena : Arena} {tracker : Int} (hidle : s.threads.lookup thread = none)
    (hmutex : s.mutex = none) (harena : s.arenas.lookup addr = some arena)
    (hheld : arena.held = true) (htracker : arena.tracker = some tracker) :
    exists during outcome t, EndsAlone c s thread (.destroy thread addr) during outcome t := by
  have hstep : (hostMachine c).step s (.destroy thread addr) =
      some (s.startDestroy thread addr arena) := by
    simp only [hostMachine, step, hidle, harena, hmutex, hheld, if_true]
  rcases Machine.exists_run_of_progress (fun t : State => t.rankOf thread)
      (fun t h => releasingAlone_progress h)
      (@releasingAlone_start c s _ thread addr arena tracker harena htracker hstep) with
    ⟨during, t, halone, hrun, _, outcome, hdone⟩
  refine ⟨during, outcome, t, halone, ?_, hdone⟩
  rw [Machine.run_cons, hstep]
  exact hrun

/-- What the destructor of a reservation that ran alone has left. -/
theorem release_alone {arena : Arena} {tracker : Int} {during : List Event}
    {outcome : Outcome} (harena : s.arenas.lookup addr = some arena)
    (htracker : arena.tracker = some tracker)
    (h : EndsAlone c s thread (.destroy thread addr) during outcome t) :
    t.counter.total = s.counter.total - reclaimed arena.size tracker := by
  rcases Machine.run_cons_some h.run with ⟨u, hstart, hrest⟩
  have hstays : forall v e w,
      ReleasingAlone s thread addr (reclaimed arena.size tracker) v ->
      (e.thread = some thread ∧ e ≠ .ret thread) -> (hostMachine c).step v e = some w ->
      ReleasingAlone s thread addr (reclaimed arena.size tracker) w :=
    fun v e w hv hok hstep => releasingAlone_step hv hok.left hok.right hstep
  have hfirst : ReleasingAlone s thread addr (reclaimed arena.size tracker) u :=
    @releasingAlone_start c s u thread addr arena tracker harena htracker hstart
  cases Machine.invariant_run hstays hfirst (Machine.along_of_events h.alone) hrest with
  | crediting hframe _ _ =>
      have hdone := h.done
      rw [hframe] at hdone
      cases hdone
  | released _ htotal => exact htotal

end Release

end FixedSizeHost
end Memory
end Cuda2Rocm
