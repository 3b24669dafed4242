import Cuda2Rocm.Memory.FixedSizeHost.Admission

/-!
# Exact arithmetic

Sizes are unsigned words and trackers signed ones; charges and credits are computed by
casting between them.  They are the exact integers as long as a size fits into a signed
word, trackers stay in range, and the unchecked addition of unlimited mode does not pass
the largest size.
-/

namespace Cuda2Rocm
namespace Memory
namespace FixedSizeHost

open Foundation

/-- What is used beyond a reservation: `max(0, used - size)`. -/
def overflow (size : Nat) (used : Int) : Nat := (used - size).toNat

/-!
# Charges and credits
-/

section Words

variable {size bytes : Nat} {pre tracker : Int}

theorem wrapInt_eq_self_iff {x : Int} : wrapInt x = x <-> -2 ^ 63 ≤ x ∧ x < 2 ^ 63 := by
  constructor
  · intro h
    rw [← h]
    exact wrapInt_range x
  · intro h
    exact wrapInt_of_range h.left h.right

/-- A sum of signed words does not depend on when it is reduced. -/
theorem wrapInt_add_toSigned (x : Int) (n : Nat) :
    wrapInt (x + toSigned n) = wrapInt (x + n) := by
  unfold toSigned wrapInt
  omega

theorem wrapInt_sub_toSigned (x : Int) (n : Nat) :
    wrapInt (x - toSigned n) = wrapInt (x - n) := by
  unfold toSigned wrapInt
  omega

theorem toSigned_range (n : Nat) : -2 ^ 63 ≤ toSigned n ∧ toSigned n < 2 ^ 63 :=
  wrapInt_range n

/-- A difference of two signed words is not taken for 0. -/
theorem toUnsigned_wrapInt_pos {x : Int} (hpos : 0 < x) (hlt : x < 2 ^ 64) :
    0 < toUnsigned (wrapInt x) := by
  unfold toUnsigned wrapInt
  omega

/-- A charge is the growth of the overflow exactly if the size fits into a signed word, or
what is used stays below the negative number that the cast makes of it. -/
theorem chargeFor_exact_iff (hbytes : 0 < bytes) (hlow : -2 ^ 63 ≤ pre)
    (hhigh : pre + bytes < 2 ^ 63) :
    chargeFor size pre bytes + overflow size pre = overflow size (pre + bytes) <->
      size < 2 ^ 63 ∨ pre + bytes ≤ toSigned size := by
  have hpost : wrapInt (pre + toSigned bytes) = pre + bytes := by
    rw [wrapInt_add_toSigned]
    exact wrapInt_of_range (by omega) hhigh
  unfold chargeFor overflow
  dsimp only
  rw [hpost]
  by_cases hsize : size < 2 ^ 63
  · rw [toSigned_of_lt hsize]
    refine iff_of_true ?_ (Or.inl hsize)
    split
    · omega
    · split
      · have hover : (toUnsigned (wrapInt (pre + bytes - size)) : Int) =
            pre + bytes - size :=
          toUnsigned_wrapInt (by omega) (by omega)
        omega
      · omega
  · have hcast := toSigned_range size
    split
    · omega
    · split
      · have hover := toUnsigned_wrapInt_pos (x := pre + bytes - toSigned size)
          (by omega) (by omega)
        omega
      · omega

/-- The same for a credit. -/
theorem creditFor_exact_iff (hbytes : 0 < bytes) (hlow : -2 ^ 63 ≤ pre - bytes)
    (hhigh : pre < 2 ^ 63) :
    creditFor size pre bytes + overflow size (pre - bytes) = overflow size pre <->
      size < 2 ^ 63 ∨ pre ≤ toSigned size := by
  have hpost : wrapInt (pre - toSigned bytes) = pre - bytes := by
    rw [wrapInt_sub_toSigned]
    exact wrapInt_of_range hlow (by omega)
  unfold creditFor overflow
  dsimp only
  rw [hpost]
  by_cases hsize : size < 2 ^ 63
  · rw [toSigned_of_lt hsize]
    refine iff_of_true ?_ (Or.inl hsize)
    split
    · omega
    · split
      · have hover : (toUnsigned (wrapInt (pre - size)) : Int) = pre - size :=
          toUnsigned_wrapInt (by omega) (by omega)
        omega
      · omega
  · have hcast := toSigned_range size
    split
    · omega
    · split
      · have hover := toUnsigned_wrapInt_pos (x := pre - toSigned size)
          (by omega) (by omega)
        omega
      · omega

/-- What a release credits is the room exactly if the size fits into a signed word and
the tracker is not below 0. -/
theorem reclaimed_exact_iff (hlow : -2 ^ 63 ≤ tracker) (hhigh : tracker < 2 ^ 63) :
    reclaimed size tracker = room size tracker <-> size < 2 ^ 63 ∧ 0 ≤ tracker := by
  by_cases hsize : size < 2 ^ 63
  · rw [reclaimed_eq tracker hsize]
    unfold room
    omega
  · refine iff_of_false ?_ (fun h => hsize h.left)
    have hcast := toSigned_range size
    unfold reclaimed room
    dsimp only
    split
    · have hover : (toUnsigned (wrapInt (toSigned size - max 0 tracker)) : Int) =
          toSigned size - max 0 tracker :=
        toUnsigned_wrapInt (by omega) (by omega)
      omega
    · omega

end Words

/-!
# The counter
-/

/-- A step of `do_reserve` leaves the counter alone, or is the one that adds the bytes,
which only fails to be exact without a limit. -/
theorem DoReserve.goesOn_total {memLimit bytes : Nat} {spurious : Bool}
    {pc pc' : DoReserve} {counter counter' : Counter}
    (h : pc.step memLimit bytes spurious counter = .goesOn pc' counter') :
    (exists loop, pc = .charge loop ∧ bytes ≠ 0 ∧ pc' = .readNow ∧
      ((memLimit ≠ 0 ∧ counter'.total = counter.total + bytes) ∨
        (memLimit = 0 ∧ counter'.total = wrapSize (counter.total + bytes)))) ∨
    ((forall loop, pc = .charge loop -> pc' ≠ .readNow ∧ memLimit ≠ 0) ∧
      counter'.total = counter.total) := by
  cases pc with
  | charge loop =>
      simp only [step] at h
      split at h
      · cases h
      · rename_i hbytes
        split at h
        · rename_i hlimit
          cases h
          exact .inl ⟨loop, rfl, hbytes, rfl, .inr ⟨hlimit, rfl⟩⟩
        · rename_i hlimit
          split at h
          · cases h
          · rename_i hfits
            split at h
            · cases h
              exact .inr ⟨fun _ _ => ⟨DoReserve.noConfusion, hlimit⟩, rfl⟩
            · cases h
            · rename_i total hcommit
              cases h
              rcases loop.step_cases (chargeNext memLimit bytes) spurious counter.total with
                ⟨hstep, _⟩ | ⟨_, _, _, hstep⟩ | ⟨next, _, hnext, hstep⟩
              · rw [hstep] at hcommit
                cases hcommit
              · rw [hstep] at hcommit
                cases hcommit
              · rw [hstep] at hcommit
                cases hcommit
                have hsum := chargeNext_some hnext (Nat.not_lt.mp hfits)
                exact .inl ⟨loop, rfl, hbytes, rfl, .inl ⟨hlimit, hsum.left⟩⟩
  | readNow =>
      cases h
      exact .inr ⟨fun _ h => DoReserve.noConfusion h, rfl⟩
  | raisePeak now loop =>
      simp only [step] at h
      split at h
      · cases h
        exact .inr ⟨fun _ h => DoReserve.noConfusion h, rfl⟩
      · cases h
      · cases h

theorem DoReserve.returned_total {memLimit bytes : Nat} {spurious granted : Bool}
    {pc : DoReserve} {counter counter' : Counter}
    (h : pc.step memLimit bytes spurious counter = .returned granted counter') :
    counter'.total = counter.total ∧
      (forall loop, pc = .charge loop -> memLimit ≠ 0 ∨ bytes = 0) := by
  cases pc with
  | charge loop =>
      simp only [step] at h
      split at h
      · rename_i hbytes
        cases h
        exact ⟨rfl, fun _ _ => .inr hbytes⟩
      · split at h
        · cases h
        · rename_i hlimit
          split at h
          · cases h
            exact ⟨rfl, fun _ _ => .inl hlimit⟩
          · split at h
            · cases h
            · cases h
              exact ⟨rfl, fun _ _ => .inl hlimit⟩
            · cases h
  | readNow => cases h
  | raisePeak now loop =>
      simp only [step] at h
      split at h
      · cases h
      · cases h
        exact ⟨rfl, fun _ h => DoReserve.noConfusion h⟩
      · cases h
        exact ⟨rfl, fun _ h => DoReserve.noConfusion h⟩

/-!
# What exact steps are
-/

/-- What a call has computed for `do_reserve` or `do_release`. -/
def Frame.computed : Frame -> Nat
  | .charging charge _ => charge.bytes
  | .freeing _ _ credit => credit
  | .crediting credit _ => credit.bytes
  | _ => 0

def State.computedBy (s : State) (thread : Thread) : Nat :=
  match s.threads.lookup thread with
  | none => 0
  | some frame => frame.computed

/-- The tracker has moved by the bytes of the call, and its charge or credit is the
difference that this makes to what is used beyond the reservation. -/
structure TrackedExactly (found : Found) (thread : Thread) (t : State) : Prop where
  tracker : exists arena, t.findTracker found.ref.addr = some (arena, found.post)
  amount : t.computedBy thread + overflow found.arena.size (min found.pre found.post) =
    overflow found.arena.size (max found.pre found.post)

/-- The exact value of the counter after a step of a thread between two frames.  A credit
stops at 0. -/
def exactAfter (total : Nat) : Option Frame -> Option Frame -> Nat
  | some (.charging charge (.charge _)), some (.charging _ .readNow) => total + charge.bytes
  | some (.crediting _ _), some (.crediting _ _) => total
  | some (.crediting credit _), _ => total - credit.bytes
  | _, _ => total

def State.exactTotal (s : State) (e : Event) (t : State) : Nat :=
  match e.thread with
  | none => s.counter.total
  | some thread =>
      exactAfter s.counter.total (s.threads.lookup thread) (t.threads.lookup thread)

/-- The arithmetic of a step is that of the integers. -/
structure ArithmeticExact (s : State) (e : Event) (t : State) : Prop where
  tracked : forall thread found, e.thread = some thread -> found ∈ s.trackerFound e ->
    TrackedExactly found thread t
  released : forall thread arena tracker, e.thread = some thread ->
    arena ∈ s.arenaDestroyed e -> arena.tracker = some tracker ->
    t.computedBy thread = room arena.size tracker
  counter : t.counter.total = s.exactTotal e t

/-- Without a limit, the sum that `do_reserve` stores is at most the largest size. -/
def AddsInRange (c : Config) (s : State) (e : Event) : Prop :=
  forall thread spurious charge loop, e = .tick thread spurious ->
    s.threads.lookup thread = some (.charging charge (.charge loop)) ->
    c.memLimit = 0 -> charge.bytes ≠ 0 -> s.counter.total + charge.bytes < 2 ^ 64

/-- No cast and no sum of the step leaves its range. -/
structure StaysInRange (c : Config) (s : State) (e : Event) : Prop where
  tracked : forall found, found ∈ s.trackerFound e ->
    (-2 ^ 63 ≤ found.post ∧ found.post < 2 ^ 63) ∧
      (found.arena.size < 2 ^ 63 ∨ max found.pre found.post ≤ toSigned found.arena.size)
  released : forall arena tracker, arena ∈ s.arenaDestroyed e ->
    arena.tracker = some tracker -> arena.size < 2 ^ 63 ∧ 0 ≤ tracker
  counter : AddsInRange c s e

section Steps

variable {c : Config} {s t : State} {e : Event} {thread : Thread}

-- for any amount each: unfolding a computed one in the frame would not end in time

theorem computedBy_charging {bytes charge : Nat} {arena : Option ArenaRef} {pc : DoReserve}
    (threads : Table Thread Frame)
    (h : t.threads = threads.insert thread
      (.charging (.blocks { bytes := bytes, arena := arena, charge := charge }) pc)) :
    t.computedBy thread = charge := by
  unfold State.computedBy
  rw [h, Table.lookup_insert_self]
  rfl

theorem computedBy_freeing {ptr : Ptr} {bytes credit : Nat} (threads : Table Thread Frame)
    (h : t.threads = threads.insert thread (.freeing ptr bytes credit)) :
    t.computedBy thread = credit := by
  unfold State.computedBy
  rw [h, Table.lookup_insert_self]
  rfl

theorem computedBy_releasing {addr : Addr} {credit : Nat} {loop : CasLoop}
    (threads : Table Thread Frame)
    (h : t.threads = threads.insert thread (.crediting (.release addr credit) loop)) :
    t.computedBy thread = credit := by
  unfold State.computedBy
  rw [h, Table.lookup_insert_self]
  rfl

theorem findTracker_setTracker {addr : Addr} {arena : Arena} {tracker : Int}
    (h : t.arenas = s.setTracker addr arena tracker) :
    t.findTracker addr = some ({ arena with tracker := some tracker }, tracker) := by
  rw [findTracker_eq_some, h]
  exact ⟨Table.lookup_insert_self _ _ _, rfl⟩

/-- The tracker is what it should be exactly if the value fits. -/
theorem tracker_exact_iff {addr : Addr} {arena : Arena} {tracker post : Int}
    (h : t.arenas = s.setTracker addr arena tracker) (hwrap : tracker = wrapInt post) :
    (exists arena, t.findTracker addr = some (arena, post)) <->
      -2 ^ 63 ≤ post ∧ post < 2 ^ 63 := by
  rw [findTracker_setTracker h, ← wrapInt_eq_self_iff, ← hwrap]
  constructor
  · rintro ⟨found, hfound⟩
    exact congrArg Prod.snd (Option.some.inj hfound)
  · intro hsame
    rw [hsame]
    exact ⟨_, rfl⟩

/-- A call under a reservation is exact exactly if its casts are. -/
theorem trackedExactly_iff (hsec : Sections s) (hasked : Asked (fun bytes _ => 0 < bytes) s)
    (hstep : step c s e = some t) (hthread : e.thread = some thread) {found : Found}
    (hfound : found ∈ s.trackerFound e) :
    TrackedExactly found thread t <->
      (-2 ^ 63 ≤ found.post ∧ found.post < 2 ^ 63) ∧
        (found.arena.size < 2 ^ 63 ∨
          max found.pre found.post ≤ toSigned found.arena.size) := by
  have hsplit : TrackedExactly found thread t <->
      (exists arena, t.findTracker found.ref.addr = some (arena, found.post)) ∧
      t.computedBy thread + overflow found.arena.size (min found.pre found.post) =
        overflow found.arena.size (max found.pre found.post) :=
    ⟨fun h => ⟨h.tracker, h.amount⟩, fun h => ⟨h.left, h.right⟩⟩
  rw [hsplit]
  cases finds_of_trackerFound hfound with
  | @lock other bytes ref arena pre spurious hframe hfind =>
      cases hthread
      have hpos := hasked.frames thread _ bytes (some ref) hframe rfl
      have harena := findTracker_eq_some.mp hfind
      have hrange := hsec.range _ _ _ harena.left harena.right
      simp only [step, State.tickFrame, hframe] at hstep
      split at hstep
      · simp only [State.tickLock, hfind, Option.some.injEq] at hstep
        subst hstep
        dsimp only
        rw [tracker_exact_iff rfl (wrapInt_add_toSigned pre bytes),
          computedBy_charging s.threads rfl]
        refine and_congr_right (fun hpost => ?_)
        rw [min_eq_left (by omega), max_eq_right (by omega)]
        exact chargeFor_exact_iff hpos hrange.left hpost.right
      · cases hstep
  | @dealloc id alloc ref arena pre other halloc href hfind =>
      cases hthread
      have hpos := hasked.live id alloc halloc
      have harena := findTracker_eq_some.mp hfind
      have hrange := hsec.range _ _ _ harena.left harena.right
      simp only [step] at hstep
      split at hstep
      · simp only [State.startDeallocBlocks, halloc, href, hfind, Option.some.injEq] at hstep
        subst hstep
        dsimp only
        rw [tracker_exact_iff rfl (wrapInt_sub_toSigned pre alloc.bytes),
          computedBy_freeing s.threads rfl]
        refine and_congr_right (fun hpost => ?_)
        rw [min_eq_right (by omega), max_eq_left (by omega)]
        exact creditFor_exact_iff hpos hpost.left hrange.right
      · cases hstep

/-- A release is exact exactly if the size is one of a signed word and the tracker is
not below 0. -/
theorem releasedExactly_iff (hsec : Sections s) (hstep : step c s e = some t)
    (hthread : e.thread = some thread) {arena : Arena} {tracker : Int}
    (harena : arena ∈ s.arenaDestroyed e) (htracker : arena.tracker = some tracker) :
    t.computedBy thread = room arena.size tracker <-> arena.size < 2 ^ 63 ∧ 0 ≤ tracker := by
  cases e with
  | destroy other addr =>
      cases hthread
      change s.arenas.lookup addr = some arena at harena
      have hrange := hsec.range _ _ _ harena htracker
      simp only [step, harena] at hstep
      split at hstep
      · rename_i heq _
        cases heq
        split at hstep
        · simp only [State.startDestroy, htracker, Option.some.injEq] at hstep
          subst hstep
          rw [computedBy_releasing s.threads rfl]
          exact reclaimed_exact_iff hrange.left hrange.right
        · cases hstep
      · cases hstep
  | _ => cases harena

/-- The counter is exact after a step of a thread that does not add to it. -/
theorem counterExactly_of {before : Option Frame} {after : Frame}
    (hthread : e.thread = some thread) (hbefore : s.threads.lookup thread = before)
    (hafter : t.threads = s.threads.insert thread after)
    (htotal : t.counter.total = exactAfter s.counter.total before (some after))
    (hquiet : forall charge loop, before = some (.charging charge (.charge loop)) ->
      c.memLimit ≠ 0 ∨ charge.bytes = 0) :
    t.counter.total = s.exactTotal e t <-> AddsInRange c s e := by
  refine iff_of_true ?_ ?_
  · simp only [State.exactTotal, hthread, hbefore, hafter, Table.lookup_insert_self]
    exact htotal
  · intro other spurious charge loop he hlookup hlimit hbytes
    subst he
    cases hthread
    rw [hbefore] at hlookup
    rcases hquiet charge loop hlookup with hpos | hzero
    · exact absurd hlimit hpos
    · exact absurd hzero hbytes

theorem counterExactly_idle {after : Frame} (hthread : e.thread = some thread)
    (hidle : s.threads.lookup thread = none)
    (hafter : t.threads = s.threads.insert thread after)
    (htotal : t.counter = s.counter) :
    t.counter.total = s.exactTotal e t <-> AddsInRange c s e := by
  refine counterExactly_of hthread hidle hafter ?_ (by simp)
  rw [htotal]
  rfl

/-- The step by which `do_reserve` returns leaves the counter alone. -/
theorem counterExactly_returned {spurious granted : Bool} {charge : Charge} {pc : DoReserve}
    {counter : Counter} {after : Frame}
    (hframe : s.threads.lookup thread = some (.charging charge pc))
    (hstep : pc.step c.memLimit charge.bytes spurious s.counter = .returned granted counter)
    (hafter : t.threads = s.threads.insert thread after)
    (hover : forall charge' pc', after ≠ .charging charge' pc')
    (hcounter : t.counter = counter) :
    t.counter.total = s.exactTotal (.tick thread spurious) t <->
      AddsInRange c s (.tick thread spurious) := by
  rcases DoReserve.returned_total hstep with ⟨htotal, hquiet⟩
  refine counterExactly_of rfl hframe hafter ?_ ?_
  · rw [hcounter, htotal]
    unfold exactAfter
    split
    · rename_i heq
      exact absurd (Option.some.inj heq) (hover _ _)
    · rename_i heq _
      cases heq
    · rename_i heq _
      cases heq
    · rfl
  · intro charge' loop hcharging
    cases hcharging
    exact hquiet loop rfl

/-- A step of `do_reserve` is exact exactly if its sum is in range. -/
theorem counterExactly_chargeOn {spurious : Bool} {charge : Charge} {pc pc' : DoReserve}
    {counter : Counter} (hframe : s.threads.lookup thread = some (.charging charge pc))
    (hstep : pc.step c.memLimit charge.bytes spurious s.counter = .goesOn pc' counter)
    (hafter : t.threads = s.threads.insert thread (.charging charge pc'))
    (hcounter : t.counter = counter) :
    t.counter.total = s.exactTotal (.tick thread spurious) t <->
      AddsInRange c s (.tick thread spurious) := by
  rcases DoReserve.goesOn_total hstep with ⟨loop, rfl, hbytes, rfl, hadded⟩ | ⟨hstays, htotal⟩
  · have hexact : s.exactTotal (.tick thread spurious) t =
        s.counter.total + charge.bytes := by
      simp only [State.exactTotal, Event.thread, hframe, hafter, Table.lookup_insert_self]
      rfl
    rw [hexact, hcounter]
    constructor
    · intro hsum other spurious' charge' loop' he hlookup hlimit _
      cases he
      rw [hframe] at hlookup
      cases hlookup
      rcases hadded with ⟨hpos, _⟩ | ⟨_, hwrap⟩
      · exact absurd hlimit hpos
      · rw [← hsum, hwrap]
        exact Nat.mod_lt _ (by decide)
    · intro hrange
      rcases hadded with ⟨_, hsum⟩ | ⟨hlimit, hwrap⟩
      · exact hsum
      · rw [hwrap]
        exact wrapSize_of_lt (hrange thread spurious charge loop rfl hframe hlimit hbytes)
  · refine counterExactly_of rfl hframe hafter ?_ ?_
    · rw [hcounter, htotal]
      cases pc with
      | charge loop =>
          cases pc' with
          | readNow => exact absurd rfl (hstays loop rfl).left
          | charge loop' => rfl
          | raisePeak now loop' => rfl
      | readNow => rfl
      | raisePeak now loop => rfl
    · intro charge' loop hcharging
      cases hcharging
      exact .inl (hstays loop rfl).right

/-- The counter is exact after every step but an addition without a limit that passes the
largest size. -/
theorem counterExactly_iff (hmove : Move c s e t) :
    t.counter.total = s.exactTotal e t <-> AddsInRange c s e := by
  cases hmove with
  | start hcalls hidle hfresh =>
      exact counterExactly_idle (thread_of_calls hcalls) hidle rfl rfl
  | startLocking hidle hbytes harena => exact counterExactly_idle rfl hidle rfl rfl
  | take hidle hmutex halloc huntracked => exact counterExactly_idle rfl hidle rfl rfl
  | takeTracked hidle hmutex halloc href hfind =>
      exact counterExactly_idle rfl hidle rfl rfl
  | takeSingle hidle hptr => exact counterExactly_idle rfl hidle rfl rfl
  | destroyReleased hidle hmutex harena htracker =>
      exact counterExactly_idle rfl hidle rfl rfl
  | destroy hidle hmutex harena htracker => exact counterExactly_idle rfl hidle rfl rfl
  | grow harena => exact iff_of_true rfl (fun _ _ _ _ he => Event.noConfusion he)
  | chargeOn hframe hstep => exact counterExactly_chargeOn hframe hstep rfl rfl
  | granted hframe hstep =>
      rename_i charge pc counter
      cases charge with
      | reservation bytes =>
          exact counterExactly_returned hframe hstep rfl (by simp) rfl
      | blocks request =>
          exact counterExactly_returned hframe hstep rfl (by simp) rfl
      | single bytes =>
          exact counterExactly_returned hframe hstep rfl (by simp) rfl
  | refused hframe hstep =>
      rename_i charge pc counter
      cases charge with
      | reservation bytes =>
          exact counterExactly_returned hframe hstep rfl (by simp) rfl
      | blocks request =>
          exact counterExactly_returned hframe hstep rfl (by simp) rfl
      | single bytes =>
          exact counterExactly_returned hframe hstep rfl (by simp) rfl
  | credited hframe =>
      rename_i credit loop
      have htotal : s.totalAfter credit = s.counter.total - credit.bytes := by
        unfold State.totalAfter
        split <;> omega
      cases credit with
      | deallocation bytes =>
          exact counterExactly_of rfl hframe rfl htotal (by simp)
      | blocks request text =>
          exact counterExactly_of rfl hframe rfl htotal (by simp)
      | single bytes text =>
          exact counterExactly_of rfl hframe rfl htotal (by simp)
      | release addr bytes =>
          exact counterExactly_of rfl hframe rfl htotal (by simp)
  | ret hframe =>
      refine iff_of_true ?_ (fun _ _ _ _ he => Event.noConfusion he)
      simp only [State.exactTotal, Event.thread, hframe, Table.lookup_erase_self]
      rfl
  | lock hframe hmutex =>
      exact counterExactly_of rfl hframe rfl rfl (by simp)
  | lockRefused hframe hfind =>
      exact counterExactly_of rfl hframe rfl rfl (by simp)
  | lockTracked hframe hmutex hfind =>
      exact counterExactly_of rfl hframe rfl rfl (by simp)
  | freed hframe =>
      exact counterExactly_of rfl hframe rfl rfl (by simp)
  | creditOn hframe =>
      exact counterExactly_of rfl hframe rfl rfl (by simp)
  | register hframe hfree hmutex =>
      exact counterExactly_of rfl hframe rfl rfl (by simp)
  | mallocFailed hframe =>
      exact counterExactly_of rfl hframe rfl rfl (by simp)
  | mallocSingleFailed hframe =>
      exact counterExactly_of rfl hframe rfl rfl (by simp)
  | malloc hframe hptr =>
      exact counterExactly_of rfl hframe rfl rfl (by simp)
  | mallocSingle hframe hptr =>
      exact counterExactly_of rfl hframe rfl rfl (by simp)
  | construct hframe hid =>
      exact counterExactly_of rfl hframe rfl rfl (by simp)
  | throws exception hframe =>
      exact counterExactly_of rfl hframe rfl rfl (by simp)

/-- A step is exact exactly if everything it computes is in range. -/
theorem arithmeticExact_iff (hsec : Sections s)
    (hasked : Asked (fun bytes _ => 0 < bytes) s) (hstep : step c s e = some t) :
    ArithmeticExact s e t <-> StaysInRange c s e := by
  have hthread : forall found, found ∈ s.trackerFound e ->
      exists thread, e.thread = some thread := by
    intro found hfound
    cases finds_of_trackerFound hfound with
    | lock _ _ _ => exact ⟨_, rfl⟩
    | dealloc thread _ _ _ => exact ⟨thread, rfl⟩
  constructor
  · intro h
    constructor
    · intro found hfound
      rcases hthread found hfound with ⟨thread, hown⟩
      exact (trackedExactly_iff hsec hasked hstep hown hfound).mp
        (h.tracked thread found hown hfound)
    · intro arena tracker harena htracker
      cases e with
      | destroy thread addr =>
          exact (releasedExactly_iff hsec hstep rfl harena htracker).mp
            (h.released thread arena tracker rfl harena htracker)
      | _ => cases harena
    · exact (counterExactly_iff (step_move hstep)).mp h.counter
  · intro h
    constructor
    · intro thread found hown hfound
      exact (trackedExactly_iff hsec hasked hstep hown hfound).mpr (h.tracked found hfound)
    · intro thread arena tracker hown harena htracker
      exact (releasedExactly_iff hsec hstep hown harena htracker).mpr
        (h.released arena tracker harena htracker)
    · exact (counterExactly_iff (step_move hstep)).mpr h.counter

end Steps

/-!
# Reserving and releasing
-/

/-- A reservation is made and released by calls that run alone, one right after the
other. -/
def MadeAndReleased (c : Config) (s : State) (thread : Thread) (bytes : Nat)
    (v : State) : Prop :=
  exists during addr t u after outcome,
    EndsAlone c s thread (.reserve thread bytes) during (.reservation addr) t ∧
    step c t (.ret thread) = some u ∧
    EndsAlone c u thread (.destroy thread addr) after outcome v

section Restoring

variable {c : Config} {s v : State} {thread : Thread} {bytes : Nat}

/-- What is left of a charge after the credit of an unused reservation. -/
theorem restored_iff (c : Config) {size : Nat} (hsize : size ≤ sizeMax) (total : Nat) :
    chargedTotal c total size - reclaimed size 0 = total <->
      size < 2 ^ 63 ∧ (c.memLimit = 0 -> size = 0 ∨ total + size < 2 ^ 64) := by
  have hmax : sizeMax = 2 ^ 64 - 1 := rfl
  have hcharged : size ≠ 0 -> c.memLimit = 0 ->
      chargedTotal c total size = (total + size) % 2 ^ 64 := by
    intro hpos hlimit
    rw [chargedTotal, if_neg hpos, if_pos hlimit]
    rfl
  have hcharged' : size = 0 ∨ c.memLimit ≠ 0 -> chargedTotal c total size = total + size := by
    intro h
    unfold chargedTotal
    split
    · omega
    · split
      · omega
      · rfl
  by_cases hsmall : size < 2 ^ 63
  · have hcredit : reclaimed size 0 = size := by
      rw [reclaimed_eq 0 hsmall]
      unfold room
      omega
    rw [hcredit]
    by_cases hplain : size = 0 ∨ c.memLimit ≠ 0
    · rw [hcharged' hplain]
      omega
    · rw [hcharged (by omega) (by omega)]
      omega
  · have hcredit : reclaimed size 0 = 0 := by
      have hcast : toSigned size < 0 := by
        unfold toSigned wrapInt
        omega
      unfold reclaimed
      dsimp only
      rw [if_neg (by omega)]
    rw [hcredit]
    by_cases hplain : size = 0 ∨ c.memLimit ≠ 0
    · rw [hcharged' hplain]
      omega
    · rw [hcharged (by omega) (by omega)]
      omega

/-- A granted reservation can be released right away. -/
theorem madeAndReleased_exists (hidle : s.threads.lookup thread = none)
    (hmutex : s.mutex = none) (hbytes : bytes ≤ sizeMax)
    (hadmits : Admits c s.counter.total (alignUp bytes c.blockSize)) :
    exists v, MadeAndReleased c s thread bytes v := by
  rcases reserve_ends hidle hmutex hbytes with ⟨during, outcome, t, hreserve⟩
  rcases (reserve_granted_iff hmutex hreserve).left.mpr hadmits with ⟨addr, rfl⟩
  rcases reserved_alone hmutex hreserve with ⟨_, _, hfree, rid, harena⟩
  have hret : step c t (.ret thread) =
      some { t with threads := t.threads.erase thread } := by
    simp only [step, hreserve.done]
  rcases @release_ends c { t with threads := t.threads.erase thread } thread addr _ 0
    (Table.lookup_erase_self _ _) hfree harena rfl rfl with
    ⟨after, outcome, v, hrelease⟩
  exact ⟨v, during, addr, t, _, after, outcome, hreserve, hret, hrelease⟩

/-- What a reservation that was made and released leaves on the counter. -/
theorem MadeAndReleased.total_eq (hmutex : s.mutex = none)
    (h : MadeAndReleased c s thread bytes v) :
    Admits c s.counter.total (alignUp bytes c.blockSize) ∧
      v.counter.total = chargedTotal c s.counter.total (alignUp bytes c.blockSize) -
        reclaimed (alignUp bytes c.blockSize) 0 := by
  rcases h with ⟨during, addr, t, u, after, outcome, hreserve, hret, hrelease⟩
  rcases reserved_alone hmutex hreserve with ⟨hadmits, htotal, _, rid, harena⟩
  simp only [step, hreserve.done, Option.some.injEq] at hret
  have harena' : u.arenas.lookup addr = t.arenas.lookup addr := by rw [← hret]
  have htotal' : u.counter.total = t.counter.total := by rw [← hret]
  have hleft := release_alone (harena'.trans harena) rfl hrelease
  rw [htotal', htotal] at hleft
  exact ⟨hadmits, hleft⟩

theorem releaseRestores_iff (hidle : s.threads.lookup thread = none)
    (hmutex : s.mutex = none) (hbytes : bytes ≤ sizeMax) :
    (forall v, MadeAndReleased c s thread bytes v -> v.counter.total = s.counter.total) <->
      (Admits c s.counter.total (alignUp bytes c.blockSize) ->
        alignUp bytes c.blockSize < 2 ^ 63 ∧
          (c.memLimit = 0 -> alignUp bytes c.blockSize = 0 ∨
            s.counter.total + alignUp bytes c.blockSize < 2 ^ 64)) := by
  have hsize : alignUp bytes c.blockSize ≤ sizeMax :=
    alignUp_le_sizeMax c.blockSize_pos c.blockSize_le
  constructor
  · intro hrestores hadmits
    rcases madeAndReleased_exists hidle hmutex hbytes hadmits with ⟨v, hcalls⟩
    have hleft := (hcalls.total_eq hmutex).right
    rw [hrestores v hcalls] at hleft
    exact (restored_iff c hsize _).mp hleft.symm
  · intro hfits v hcalls
    rcases hcalls.total_eq hmutex with ⟨hadmits, hleft⟩
    rw [hleft]
    exact (restored_iff c hsize _).mpr (hfits hadmits)

end Restoring

/--
In every run, the charges, credits, trackers and the counter are the exact integers
exactly if every step stays in range.  And in every state in which a client may call and
nobody holds the mutex, every reservation that is granted can be released, and releasing
it at once restores the counter exactly if its size fits into a signed word and the
addition of unlimited mode did not wrap.
-/
theorem arithmetic_exact_iff (c : Config) :
    (forall events, (hostMachine c).Throughout ArithmeticExact State.initial events <->
      (hostMachine c).Along (StaysInRange c) State.initial events) ∧
    (forall s thread bytes, s.threads.lookup thread = none -> s.mutex = none ->
      bytes ≤ sizeMax ->
      (Admits c s.counter.total (alignUp bytes c.blockSize) ->
        exists v, MadeAndReleased c s thread bytes v) ∧
      ((forall v, MadeAndReleased c s thread bytes v ->
          v.counter.total = s.counter.total) <->
        (Admits c s.counter.total (alignUp bytes c.blockSize) ->
          alignUp bytes c.blockSize < 2 ^ 63 ∧
            (c.memLimit = 0 -> alignUp bytes c.blockSize = 0 ∨
              s.counter.total + alignUp bytes c.blockSize < 2 ^ 64)))) := by
  constructor
  · intro events
    have hkept : forall s e t, Sections s ∧ Asked (fun bytes _ => 0 < bytes) s ->
        step c s e = some t -> Sections t ∧ Asked (fun bytes _ => 0 < bytes) t := by
      intro s e t h hstep
      have hmove := step_move hstep
      refine ⟨sections_move h.left hmove, h.right.move ?_ hmove⟩
      intro thread bytes res arena _ hbytes _
      exact allocBytes_pos hbytes c.blockSize_pos c.blockSize_le
    have hgood : forall s e t, Sections s ∧ Asked (fun bytes _ => 0 < bytes) s ->
        StaysInRange c s e -> (hostMachine c).step s e = some t ->
        (Sections t ∧ Asked (fun bytes _ => 0 < bytes) t) ∧ ArithmeticExact s e t :=
      fun s e t h hok hstep =>
        ⟨hkept s e t h hstep, (arithmeticExact_iff h.left h.right hstep).mpr hok⟩
    have hbad : forall s e t, Sections s ∧ Asked (fun bytes _ => 0 < bytes) s ->
        (hostMachine c).step s e = some t -> ArithmeticExact s e t -> StaysInRange c s e :=
      fun s e t h hstep hexact => (arithmeticExact_iff h.left h.right hstep).mp hexact
    exact Machine.throughout_iff_along hgood hbad ⟨sections_initial, asked_initial _⟩
  · intro s thread bytes hidle hmutex hbytes
    exact ⟨madeAndReleased_exists hidle hmutex hbytes,
      releaseRestores_iff hidle hmutex hbytes⟩

/-- The exact conditions read for a reservation of one block. -/
theorem arithmetic_exact_iff_oneBlock :
    ((hostMachine unlimited).Throughout ArithmeticExact State.initial
        (.reserve 0 16 :: reserveSteps) <->
      (hostMachine unlimited).Along (StaysInRange unlimited) State.initial
        (.reserve 0 16 :: reserveSteps)) ∧
    (Admits unlimited 0 (alignUp 16 16) ->
      exists v, MadeAndReleased unlimited State.initial 0 16 v) ∧
    ((forall v, MadeAndReleased unlimited State.initial 0 16 v -> v.counter.total = 0) <->
      (Admits unlimited 0 (alignUp 16 16) ->
        alignUp 16 16 < 2 ^ 63 ∧
          (unlimited.memLimit = 0 -> alignUp 16 16 = 0 ∨ 0 + alignUp 16 16 < 2 ^ 64))) :=
  ⟨(arithmetic_exact_iff unlimited).left _,
    (arithmetic_exact_iff unlimited).right State.initial 0 16 rfl rfl (by decide)⟩

/-- A reservation of `2 ^ 63` bytes credits nothing when it is released. -/
theorem half_range_release_credits_nothing :
    (exists t u, (hostMachine unlimited).run State.initial
        (.reserve 0 9223372036854775808 :: reserveSteps ++ [.ret 0]) = some t ∧
      step unlimited t (.destroy 0 7) = some u ∧
      ¬ ArithmeticExact t (.destroy 0 7) u) ∧
    exists v, MadeAndReleased unlimited State.initial 0 9223372036854775808 v ∧
      v.counter.total = 9223372036854775808 := by
  constructor
  · refine ⟨_, _, rfl, rfl, fun hexact => ?_⟩
    exact absurd (hexact.released 0 _ 0 rfl rfl rfl) (by decide)
  · refine ⟨_, ⟨reserveSteps, 7, _, _, [.tick 0 false], .finished, ⟨?_, rfl, rfl⟩, rfl,
      ⟨?_, rfl, rfl⟩⟩, rfl⟩
    · simp [Solo, reserveSteps, Event.thread]
    · simp [Solo, Event.thread]

end FixedSizeHost
end Memory
end Cuda2Rocm
