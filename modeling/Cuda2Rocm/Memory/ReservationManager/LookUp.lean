import Cuda2Rocm.Memory.ReservationManager.Configuration

/-!
# Looking spaces up

The manager keeps its spaces by tier in a map.  The non-const look-ups subscript the map,
which enters a tier that it does not have; the const one uses `at`, which throws there.
-/

namespace Cuda2Rocm
namespace Memory
namespace ReservationManager
namespace LookUp

open Foundation ReservationManager.Configuration

/-- `spaces_`, `all_spaces_` and `tier_spaces_`; a pointer to a space is its position. -/
structure Manager where
  spaces : List MemorySpace
  allSpaces : List Nat
  tierSpaces : Table Tier (List Nat)

/-- The space at a position has the tier. -/
def ofTier (spaces : List MemorySpace) (tier : Tier) (i : Nat) : Bool :=
  match spaces[i]? with
  | none => false
  | some space => decide (space.id.tier = tier)

/-- The space at a position has the device id. -/
def ofDevice (spaces : List MemorySpace) (deviceId : Int) (i : Nat) : Bool :=
  match spaces[i]? with
  | none => false
  | some space => decide (space.id.deviceId = deviceId)

namespace Manager

variable (m : Manager)

/-- The value of `tier_spaces_[tier]`. -/
def entry (tier : Tier) : List Nat := (m.tierSpaces.lookup tier).getD []

/-- What `tier_spaces_[tier]` does to the map. -/
def subscript (tier : Tier) : Manager :=
  match m.tierSpaces.lookup tier with
  | some _ => m
  | none => { m with tierSpaces := m.tierSpaces.insert tier [] }

/-- One round of the second loop of the constructor. -/
def addToViews (i : Nat) (space : MemorySpace) : Manager :=
  { m with
    tierSpaces := m.tierSpaces.insert space.id.tier (m.entry space.id.tier ++ [i])
    allSpaces := m.allSpaces ++ [i] }

/-- The second loop of the constructor, from a position. -/
def buildViews : List MemorySpace -> Nat -> Manager -> Manager
  | [], _, m => m
  | space :: rest, i, m => buildViews rest (i + 1) (m.addToViews i space)

def construct (configs : List SpaceConfig) : Manager :=
  let spaces := Configuration.Manager.constructSpaces configs
  buildViews spaces 0 { spaces := spaces, allSpaces := [], tierSpaces := Table.empty }

/-- The loop of both look-ups over the spaces of a tier. -/
def find (positions : List Nat) (deviceId : Int) : Option Nat :=
  positions.find? (ofDevice m.spaces deviceId)

/-- `get_memory_space`, the non-const overload. -/
def getMemorySpace (tier : Tier) (deviceId : Int) : Option Nat × Manager :=
  let m' := m.subscript tier
  (m'.find (m'.entry tier) deviceId, m')

/-- `get_memory_space`, the const overload, which may throw `std::out_of_range`. -/
def getMemorySpaceConst (tier : Tier) (deviceId : Int) : Except String (Option Nat) :=
  match m.tierSpaces.lookup tier with
  | none => .error "map::at"
  | some positions => .ok (m.find positions deviceId)

def getAllMemorySpaces : List Nat := m.allSpaces

def getMemorySpacesForTier (tier : Tier) : List Nat × Manager :=
  let m' := m.subscript tier
  (m'.entry tier, m')

def shutdown (_running : Manager) : Manager :=
  { spaces := [], allSpaces := [], tierSpaces := Table.empty }

end Manager

/-- The calls in question. -/
inductive Call where
  | getMemorySpace (tier : Tier) (deviceId : Int)
  | getMemorySpaceConst (tier : Tier) (deviceId : Int)
  | getMemorySpacesForTier (tier : Tier)
  | shutdown
deriving DecidableEq, Repr

/-- The manager after one call. -/
def apply (m : Manager) : Call -> Manager
  | .getMemorySpace tier deviceId => (m.getMemorySpace tier deviceId).2
  | .getMemorySpaceConst _ _ => m
  | .getMemorySpacesForTier tier => (m.getMemorySpacesForTier tier).2
  | .shutdown => m.shutdown

/-- A manager built from configs, after these calls. -/
def after (configs : List SpaceConfig) (calls : List Call) : Manager :=
  calls.foldl apply (Manager.construct configs)

theorem after_concat (configs : List SpaceConfig) (calls : List Call) (call : Call) :
    after configs (calls ++ [call]) = apply (after configs calls) call := by
  rw [after, List.foldl_append]
  rfl

/-!
# What the map holds
-/

/-- The positions of the spaces of a tier, in order. -/
def positions (spaces : List MemorySpace) (tier : Tier) : List Nat :=
  (List.range spaces.length).filter (ofTier spaces tier)

/-- The views show these spaces. -/
structure Shows (m : Manager) (spaces : List MemorySpace) : Prop where
  held : m.spaces = spaces
  all : m.allSpaces = List.range spaces.length
  entries : forall tier, m.entry tier = positions spaces tier

/-- The tier is in the map. -/
def Entered (m : Manager) (tier : Tier) : Prop := m.tierSpaces.lookup tier ≠ none

section Subscript

variable {m : Manager} {tier tier' : Tier}

theorem entry_eq_of_lookup {entered : List Nat} (h : m.tierSpaces.lookup tier = some entered) :
    m.entry tier = entered := by
  rw [Manager.entry, h]
  rfl

/-- The subscript changes no value. -/
@[simp] theorem entry_subscript : (m.subscript tier).entry tier' = m.entry tier' := by
  unfold Manager.subscript
  cases h : m.tierSpaces.lookup tier with
  | some entered => rfl
  | none =>
      by_cases hsame : tier' = tier
      · subst hsame
        simp [Manager.entry, h]
      · simp only [Manager.entry, Table.lookup_insert_ne hsame]

@[simp] theorem spaces_subscript : (m.subscript tier).spaces = m.spaces := by
  unfold Manager.subscript
  split <;> rfl

@[simp] theorem allSpaces_subscript : (m.subscript tier).allSpaces = m.allSpaces := by
  unfold Manager.subscript
  split <;> rfl

/-- It enters the tier, and no other. -/
theorem entered_subscript_iff :
    Entered (m.subscript tier) tier' <-> tier' = tier ∨ Entered m tier' := by
  unfold Manager.subscript Entered
  cases h : m.tierSpaces.lookup tier with
  | some entered =>
      constructor
      · exact Or.inr
      · rintro (rfl | hold)
        · simp [h]
        · exact hold
  | none =>
      by_cases hsame : tier' = tier
      · subst hsame
        simp
      · simp [Table.lookup_insert_ne hsame, hsame]

theorem Shows.subscript {spaces : List MemorySpace} (h : Shows m spaces) (tier : Tier) :
    Shows (m.subscript tier) spaces where
  held := spaces_subscript.trans h.held
  all := allSpaces_subscript.trans h.all
  entries := fun tier' => entry_subscript.trans (h.entries tier')

end Subscript

/-- The views of the spaces so far, with those still to come behind them. -/
structure ShowsFirst (m : Manager) (spaces : List MemorySpace) (n : Nat) : Prop where
  held : m.spaces = spaces
  all : m.allSpaces = List.range n
  entries : forall tier, m.entry tier = (List.range n).filter (ofTier spaces tier)
  entered : forall tier, Entered m tier <->
    exists i, i < n ∧ ofTier spaces tier i = true

theorem ShowsFirst.addToViews {m : Manager} {spaces : List MemorySpace} {n : Nat}
    {space : MemorySpace} (h : ShowsFirst m spaces n) (hspace : spaces[n]? = some space) :
    ShowsFirst (m.addToViews n space) spaces (n + 1) := by
  have hhere : forall tier, ofTier spaces tier n = decide (space.id.tier = tier) := by
    intro tier
    simp [ofTier, hspace]
  constructor
  · exact h.held
  · rw [List.range_succ, ← h.all]
    rfl
  · intro tier
    rw [List.range_succ, List.filter_append, ← h.entries tier]
    by_cases htier : space.id.tier = tier
    · subst htier
      simp [Manager.addToViews, Manager.entry, hhere]
    · have hne : tier ≠ space.id.tier := fun heq => htier heq.symm
      simp [Manager.addToViews, Manager.entry, Table.lookup_insert_ne hne, hhere, htier]
  · intro tier
    by_cases htier : space.id.tier = tier
    · subst htier
      refine iff_of_true ?_ ⟨n, Nat.lt_succ_self n, by simp [hhere]⟩
      simp [Entered, Manager.addToViews]
    · have hne : tier ≠ space.id.tier := fun heq => htier heq.symm
      have hold : Entered (m.addToViews n space) tier <-> Entered m tier := by
        simp [Entered, Manager.addToViews, Table.lookup_insert_ne hne]
      rw [hold, h.entered tier]
      constructor
      · rintro ⟨i, hi, hof⟩
        exact ⟨i, Nat.lt_succ_of_lt hi, hof⟩
      · rintro ⟨i, hi, hof⟩
        rcases Nat.lt_succ_iff_lt_or_eq.mp hi with hlt | rfl
        · exact ⟨i, hlt, hof⟩
        · rw [hhere, decide_eq_true_eq] at hof
          exact absurd hof htier

theorem showsFirst_buildViews {spaces : List MemorySpace} (rest : List MemorySpace) :
    forall {m : Manager} {n : Nat}, ShowsFirst m spaces n -> spaces.drop n = rest ->
      n ≤ spaces.length -> ShowsFirst (Manager.buildViews rest n m) spaces spaces.length := by
  induction rest with
  | nil =>
      intro m n h hrest hle
      have hlength := congrArg List.length hrest
      rw [List.length_drop, List.length_nil] at hlength
      have hn : n = spaces.length := by omega
      rw [Manager.buildViews, ← hn]
      exact h
  | cons space rest ih =>
      intro m n h hrest hle
      have hspace : spaces[n]? = some space := by
        rw [← List.head?_drop, hrest]
        rfl
      have hlt : n < spaces.length := (List.getElem?_eq_some_iff.mp hspace).choose
      rw [Manager.buildViews]
      apply ih (h.addToViews hspace)
      · rw [← List.drop_drop, hrest]
        rfl
      · exact hlt

theorem showsFirst_construct (configs : List SpaceConfig) :
    ShowsFirst (Manager.construct configs)
      (Configuration.Manager.constructSpaces configs)
      (Configuration.Manager.constructSpaces configs).length := by
  unfold Manager.construct
  apply showsFirst_buildViews _ _ rfl (Nat.zero_le _)
  constructor
  · rfl
  · rfl
  · exact fun _ => rfl
  · intro tier
    refine iff_of_false (fun h => h rfl) ?_
    rintro ⟨i, hi, -⟩
    exact Nat.not_lt_zero i hi

theorem ofTier_iff {spaces : List MemorySpace} {tier : Tier} {i : Nat} :
    ofTier spaces tier i = true <->
      exists space, spaces[i]? = some space ∧ space.id.tier = tier := by
  unfold ofTier
  cases spaces[i]? with
  | none => simp
  | some space => simp

/-!
# Histories
-/

/-- The spaces that the manager has after these calls. -/
def standing (configs : List SpaceConfig) (calls : List Call) : List MemorySpace :=
  if .shutdown ∈ calls then [] else Configuration.Manager.constructSpaces configs

/-- The call subscripts the map with the tier. -/
def Call.Subscripts (tier : Tier) : Call -> Prop
  | .getMemorySpace t _ => t = tier
  | .getMemorySpacesForTier t => t = tier
  | _ => False

/-- The manager has been built with a space of the tier and not shut down, or the tier has
been looked up by a non-const call since it was. -/
def Known (configs : List SpaceConfig) (calls : List Call) (tier : Tier) : Prop :=
  (.shutdown ∉ calls ∧ exists space,
    space ∈ Configuration.Manager.constructSpaces configs ∧ space.id.tier = tier) ∨
  exists first call rest, calls = first ++ call :: rest ∧ call.Subscripts tier ∧
    .shutdown ∉ rest

theorem known_nil_iff {configs : List SpaceConfig} {tier : Tier} :
    Known configs [] tier <-> exists space,
      space ∈ Configuration.Manager.constructSpaces configs ∧ space.id.tier = tier := by
  constructor
  · rintro (⟨_, hspace⟩ | ⟨first, call, rest, hcalls, _⟩)
    · exact hspace
    · simp at hcalls
  · exact fun h => Or.inl ⟨List.not_mem_nil, h⟩

/-- What one more call does to the tiers that are known. -/
theorem known_concat_iff {configs : List SpaceConfig} {calls : List Call} {call : Call}
    {tier : Tier} : Known configs (calls ++ [call]) tier <->
      call.Subscripts tier ∨ call ≠ .shutdown ∧ Known configs calls tier := by
  constructor
  · rintro (⟨hrunning, hspace⟩ | ⟨first, other, rest, hcalls, hother, hrest⟩)
    · right
      rw [List.mem_append, List.mem_singleton, not_or] at hrunning
      exact ⟨fun h => hrunning.2 h.symm, Or.inl ⟨hrunning.1, hspace⟩⟩
    · rcases List.eq_nil_or_concat rest with rfl | ⟨before, last, rfl⟩
      · left
        rw [List.singleton_inj.mp (List.append_inj_right' hcalls rfl)]
        exact hother
      · right
        rw [List.concat_eq_append] at hcalls hrest
        rw [← List.cons_append, ← List.append_assoc] at hcalls
        have hlast := List.singleton_inj.mp (List.append_inj_right' hcalls rfl)
        rw [List.mem_append, List.mem_singleton, not_or] at hrest
        refine ⟨fun h => hrest.2 (h.symm.trans hlast), Or.inr ?_⟩
        exact ⟨first, other, before, List.append_inj_left' hcalls rfl, hother, hrest.1⟩
  · rintro (hcall | ⟨hrunning, ⟨hcalls, hspace⟩ | ⟨first, other, rest, rfl, hother, hrest⟩⟩)
    · exact Or.inr ⟨calls, call, [], rfl, hcall, List.not_mem_nil⟩
    · refine Or.inl ⟨?_, hspace⟩
      rw [List.mem_append, List.mem_singleton, not_or]
      exact ⟨hcalls, fun h => hrunning h.symm⟩
    · refine Or.inr ⟨first, other, rest ++ [call], by simp, hother, ?_⟩
      rw [List.mem_append, List.mem_singleton, not_or]
      exact ⟨hrest, fun h => hrunning h.symm⟩

theorem standing_concat {configs : List SpaceConfig} {calls : List Call} {call : Call}
    (h : call ≠ .shutdown) : standing configs (calls ++ [call]) = standing configs calls := by
  unfold standing
  have hsame : .shutdown ∈ calls ++ [call] <-> .shutdown ∈ calls := by
    rw [List.mem_append, List.mem_singleton]
    exact or_iff_left fun heq => h heq.symm
  simp only [hsame]

/-- After every sequence of calls the views show the spaces that stand, and the tiers in
the map are those that are known. -/
theorem shows_after (configs : List SpaceConfig) (calls : List Call) :
    Shows (after configs calls) (standing configs calls) ∧
      forall tier, Entered (after configs calls) tier <-> Known configs calls tier := by
  -- the induction is on the last call
  induction calls using List.reverseRecOn with
  | nil =>
      have hbuilt := showsFirst_construct configs
      refine ⟨⟨hbuilt.held, hbuilt.all, hbuilt.entries⟩, fun tier => ?_⟩
      rw [known_nil_iff]
      refine (hbuilt.entered tier).trans ?_
      constructor
      · rintro ⟨i, _, hof⟩
        rcases ofTier_iff.mp hof with ⟨space, hspace, htier⟩
        exact ⟨space, List.mem_of_getElem? hspace, htier⟩
      · rintro ⟨space, hmem, htier⟩
        rcases List.getElem?_of_mem hmem with ⟨i, hi⟩
        exact ⟨i, (List.getElem?_eq_some_iff.mp hi).choose, ofTier_iff.mpr ⟨space, hi, htier⟩⟩
  | append_singleton calls call ih =>
      rcases ih with ⟨hshows, hentered⟩
      rw [after_concat]
      cases call with
      | getMemorySpace t deviceId =>
          rw [standing_concat (by simp)]
          refine ⟨hshows.subscript t, fun tier => ?_⟩
          rw [known_concat_iff, ← hentered tier]
          refine entered_subscript_iff.trans ?_
          simp [Call.Subscripts, eq_comm]
      | getMemorySpaceConst t deviceId =>
          rw [standing_concat (by simp)]
          refine ⟨hshows, fun tier => ?_⟩
          rw [known_concat_iff, ← hentered tier]
          simp [Call.Subscripts, apply]
      | getMemorySpacesForTier t =>
          rw [standing_concat (by simp)]
          refine ⟨hshows.subscript t, fun tier => ?_⟩
          rw [known_concat_iff, ← hentered tier]
          refine entered_subscript_iff.trans ?_
          simp [Call.Subscripts, eq_comm]
      | shutdown =>
          have hnone : standing configs (calls ++ [.shutdown]) = [] := by
            simp [standing]
          rw [hnone]
          refine ⟨⟨rfl, rfl, fun _ => rfl⟩, fun tier => ?_⟩
          rw [known_concat_iff]
          exact iff_of_false (fun h => h rfl) (by simp [Call.Subscripts])

/-!
# What a look-up should answer
-/

/-- The first space of the tier and device, by its position. -/
def spaceOf (spaces : List MemorySpace) (tier : Tier) (deviceId : Int) : Option Nat :=
  (List.range spaces.length).find? fun i => ofTier spaces tier i && ofDevice spaces deviceId i

/-- Both overloads answer with the space there is, whatever was looked up before, and the
span of the tier shows its spaces in the order of all spaces. -/
structure LooksUpRightly (configs : List SpaceConfig) (calls : List Call) (tier : Tier)
    (deviceId : Int) : Prop where
  found : ((after configs calls).getMemorySpace tier deviceId).1 =
    spaceOf (standing configs calls) tier deviceId
  foundConst : (after configs calls).getMemorySpaceConst tier deviceId =
    .ok (spaceOf (standing configs calls) tier deviceId)
  span : ((after configs calls).getMemorySpacesForTier tier).1 =
    (after configs calls).getAllMemorySpaces.filter (ofTier (standing configs calls) tier)
  all : (after configs calls).getAllMemorySpaces =
    List.range (standing configs calls).length

theorem find?_filter_eq {p q : Nat -> Bool} (l : List Nat) :
    (l.filter p).find? q = l.find? fun i => p i && q i := by
  rw [List.find?_filter]
  congr 1
  funext i
  cases p i <;> cases q i <;> rfl

theorem find_positions {m : Manager} {spaces : List MemorySpace} (h : Shows m spaces)
    (tier : Tier) (deviceId : Int) :
    m.find (m.entry tier) deviceId = spaceOf spaces tier deviceId := by
  rw [Manager.find, h.held, h.entries tier, positions, find?_filter_eq]
  rfl

/--
After every sequence of calls a look-up is right for a tier and device exactly if the tier
is known: the const overload throws for every other one.
-/
theorem looks_up_rightly_iff (configs : List SpaceConfig) (calls : List Call) (tier : Tier)
    (deviceId : Int) :
    LooksUpRightly configs calls tier deviceId <-> Known configs calls tier := by
  rcases shows_after configs calls with ⟨hshows, hentered⟩
  rw [← hentered tier]
  constructor
  · intro hright hmissing
    have hconst := hright.foundConst
    rw [Manager.getMemorySpaceConst, hmissing] at hconst
    cases hconst
  · intro hin
    rcases Option.ne_none_iff_exists'.mp hin with ⟨entered, hlookup⟩
    constructor
    · exact find_positions (hshows.subscript tier) tier deviceId
    · rw [Manager.getMemorySpaceConst, hlookup, ← find_positions hshows,
        entry_eq_of_lookup hlookup]
    · rw [Manager.getAllMemorySpaces, hshows.all]
      exact (hshows.subscript tier).entries tier
    · exact hshows.all

/-- A manager with one GPU: the const look-up of a host space throws, until a non-const
look-up of the same space has returned null. -/
theorem const_look_up_throws :
    (after [.gpu 0 0 0] []).getMemorySpaceConst .host 0 = .error "map::at" ∧
      ((after [.gpu 0 0 0] []).getMemorySpace .host 0).1 = none ∧
      (after [.gpu 0 0 0] [.getMemorySpace .host 0]).getMemorySpaceConst .host 0 = .ok none ∧
      ¬ LooksUpRightly [.gpu 0 0 0] [] .host 0 := by
  refine ⟨rfl, rfl, rfl, fun hright => ?_⟩
  have hconst := hright.foundConst
  cases hconst

end LookUp
end ReservationManager
end Memory
end Cuda2Rocm
