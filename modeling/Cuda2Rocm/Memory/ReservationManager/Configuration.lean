import Cuda2Rocm.Memory.ReservationManager.Model
import Cuda2Rocm.Memory.Space.Accounting

/-!
# From the configurator to the manager

`reservation_manager_configurator::build` emits a config for each space it is asked for,
and the constructor of the manager makes spaces from the configs.  The constructor has no
case for disks and hands no limit on to a space, so every space starts with the maximum
of a space that was never configured.
-/

namespace Cuda2Rocm
namespace Memory
namespace ReservationManager

open Foundation

namespace Configuration

/-- `memory_space_config`. -/
inductive SpaceConfig where
  | monostate
  | gpu (deviceId : Int32) (usageLimit reservationLimit : UInt64)
  | host (deviceId : Int32) (capacity : UInt64) (portable : Bool)
  | disk (mountingPoint : String) (capacity : UInt64)
deriving DecidableEq, Repr

/-- The settings that `build` reads. -/
structure Configurator where
  numGpus : UInt64
  gpuIds : List Int32
  gpuUsageLimit : UInt64
  gpuReservationLimit : UInt64
  totalHostCapacity : UInt64
  perHostCapacity : UInt64
  hostPortable : Bool
  diskCapacity : UInt64
  diskRoot : String
deriving Repr

namespace Configurator

/-- A configurator before any call of a setter. -/
def initial : Configurator :=
  { numGpus := 0, gpuIds := [], gpuUsageLimit := 0, gpuReservationLimit := 0,
    totalHostCapacity := 0, perHostCapacity := 0, hostPortable := false, diskCapacity := 0,
    diskRoot := "" }

variable (c : Configurator)

/-- The device ids of the GPU configs; `topoGpus` is `num_gpus` of the topology. -/
def ids (topoGpus : UInt64) : List Int32 :=
  let ngpus := if c.numGpus > 0 then c.numGpus else topoGpus
  if c.gpuIds.isEmpty then (List.range ngpus.toNat).map Int32.ofNat else c.gpuIds

def hostConfigs : List SpaceConfig :=
  if c.totalHostCapacity > 0 ∨ c.perHostCapacity > 0 then
    [.host 0 (if c.totalHostCapacity > 0 then c.totalHostCapacity else c.perHostCapacity)
      c.hostPortable]
  else []

def diskConfigs : List SpaceConfig :=
  if c.diskRoot.isEmpty then [] else [.disk c.diskRoot c.diskCapacity]

def build (topoGpus : UInt64) : List SpaceConfig :=
  (c.ids topoGpus).map (fun id => .gpu id c.gpuUsageLimit c.gpuReservationLimit) ++
    c.hostConfigs ++ c.diskConfigs

end Configurator

/-- A `memory_space` of the manager. -/
structure MemorySpace where
  id : SpaceId
  state : Space.State

/-- The constructor of `memory_space`; `max_memory_` is 0 until it is set. -/
def MemorySpace.construct (tier : Tier) (deviceId : Int32) : MemorySpace :=
  { id := { tier := tier, deviceId := deviceId.toInt }, state := Space.State.initial 0 }

/-- `spaces_` and the views on it, which refer to the spaces by their positions. -/
structure Manager where
  spaces : List MemorySpace
  allSpaces : List Nat
  tierSpaces : Tier -> List Nat

namespace Manager

/-- The first loop of the constructor. -/
def constructSpaces : List SpaceConfig -> List MemorySpace
  | [] => []
  | .gpu deviceId _ _ :: rest => .construct .gpu deviceId :: constructSpaces rest
  | .host deviceId _ _ :: rest => .construct .host deviceId :: constructSpaces rest
  | _ :: rest => constructSpaces rest

/-- The second loop of the constructor, from a position. -/
def buildViews : List MemorySpace -> Nat -> List Nat × (Tier -> List Nat)
  | [], _ => ([], fun _ => [])
  | space :: rest, i =>
      let views := buildViews rest (i + 1)
      (i :: views.1,
        Function.update views.2 space.id.tier (i :: views.2 space.id.tier))

def construct (configs : List SpaceConfig) : Manager :=
  let spaces := constructSpaces configs
  let views := buildViews spaces 0
  { spaces := spaces, allSpaces := views.1, tierSpaces := views.2 }

def at? (m : Manager) (positions : List Nat) : List MemorySpace :=
  positions.filterMap (fun i => m.spaces[i]?)

def getAllMemorySpaces (m : Manager) : List MemorySpace := m.at? m.allSpaces

def getMemorySpacesForTier (m : Manager) (tier : Tier) : List MemorySpace :=
  m.at? (m.tierSpaces tier)

end Manager

/-!
# What a config asks for
-/

namespace SpaceConfig

def tier : SpaceConfig -> Option Tier
  | monostate => none
  | gpu _ _ _ => some .gpu
  | host _ _ _ => some .host
  | disk _ _ => some .disk

/-- A disk config has no device id. -/
def deviceId : SpaceConfig -> Option Int32
  | gpu id _ _ => some id
  | host id _ _ => some id
  | _ => none

/-- The limits that are set. -/
def limits (config : SpaceConfig) : List UInt64 :=
  let given :=
    match config with
    | monostate => []
    | gpu _ usageLimit reservationLimit => [usageLimit, reservationLimit]
    | host _ capacity _ => [capacity]
    | disk _ capacity => [capacity]
  given.filter (· ≠ 0)

end SpaceConfig

/-- A single call of `make_reservation` on a space. -/
def makeReservation (space : MemorySpace) (bytes : Nat) : Option Space.State :=
  Space.spaceMachine.run space.state
    [.reserve 0 .throwing bytes, .tick 0 false, .tick 0 false]

def Succeeds (space : MemorySpace) (bytes : Nat) : Prop :=
  exists s rid, makeReservation space bytes = some s ∧
    s.threads.lookup 0 = some (.done (.reservation rid))

def IsRefused (space : MemorySpace) (bytes : Nat) : Prop :=
  exists s, makeReservation space bytes = some s ∧
    s.threads.lookup 0 =
      some (.done (.threw "cuCascade: insufficient memory for reservation"))

/-- A space is what a config asks for. -/
structure Serves (config : SpaceConfig) (space : MemorySpace) : Prop where
  tier : config.tier = some space.id.tier
  deviceId : forall id, config.deviceId = some id -> space.id.deviceId = id.toInt
  succeeds : config.limits ≠ [] -> forall bytes, bytes ≤ sizeMax ->
    (forall limit, limit ∈ config.limits -> bytes ≤ limit.toNat) -> Succeeds space bytes
  refuses : config.limits ≠ [] -> forall bytes, bytes ≤ sizeMax ->
    (exists limit, limit ∈ config.limits ∧ limit.toNat < bytes) -> IsRefused space bytes

/-- The manager has a space for each config, in order, and views to match. -/
structure Configured (configs : List SpaceConfig) (m : Manager) : Prop where
  serves : List.Forall₂ Serves configs m.getAllMemorySpaces
  tiers : forall tier, m.getMemorySpacesForTier tier =
    m.getAllMemorySpaces.filter (fun space => decide (space.id.tier = tier))

/-- Nothing is configured but GPUs without limits. -/
def UnlimitedGpusOnly (c : Configurator) (topoGpus : UInt64) : Prop :=
  c.totalHostCapacity = 0 ∧ c.perHostCapacity = 0 ∧ c.diskRoot = "" ∧
    (c.ids topoGpus = [] ∨ c.gpuUsageLimit = 0 ∧ c.gpuReservationLimit = 0)

/-!
# The views
-/

/-- The views of a list that sits behind other spaces. -/
theorem buildViews_spec :
    forall (spaces before : List MemorySpace),
      (Manager.buildViews spaces before.length).1.filterMap
          (fun i => (before ++ spaces)[i]?) = spaces ∧
      forall tier, ((Manager.buildViews spaces before.length).2 tier).filterMap
          (fun i => (before ++ spaces)[i]?) =
        spaces.filter (fun space => decide (space.id.tier = tier))
  | [], before => ⟨rfl, fun _ => rfl⟩
  | space :: rest, before => by
      have hhere : (before ++ space :: rest)[before.length]? = some space := by
        rw [List.getElem?_append_right (Nat.le_refl _), Nat.sub_self]
        rfl
      have hrest := buildViews_spec rest (before ++ [space])
      rw [List.length_append, List.length_singleton, List.append_assoc,
        List.singleton_append] at hrest
      constructor
      · rw [Manager.buildViews, List.filterMap_cons, hhere]
        exact congrArg (space :: ·) hrest.left
      · intro tier
        rw [List.filter_cons]
        simp only [Manager.buildViews]
        by_cases htier : space.id.tier = tier
        · subst htier
          rw [Function.update_self, List.filterMap_cons, hhere, decide_eq_true rfl, if_pos rfl]
          exact congrArg (space :: ·) (hrest.right space.id.tier)
        · rw [Function.update_of_ne (Ne.symm htier), decide_eq_false htier,
            if_neg Bool.false_ne_true]
          exact hrest.right tier

theorem getAllMemorySpaces_construct (configs : List SpaceConfig) :
    (Manager.construct configs).getAllMemorySpaces = Manager.constructSpaces configs :=
  (buildViews_spec _ []).left

theorem getMemorySpacesForTier_construct (configs : List SpaceConfig) (tier : Tier) :
    (Manager.construct configs).getMemorySpacesForTier tier =
      (Manager.construct configs).getAllMemorySpaces.filter
        (fun space => decide (space.id.tier = tier)) := by
  rw [getAllMemorySpaces_construct]
  exact (buildViews_spec _ []).right tier

/-!
# Spaces that were never configured
-/

section Fresh

variable (tier : Tier) (deviceId : Int32) {bytes : Nat}

/-- A call on a fresh space grants nothing but the empty reservation. -/
theorem makeReservation_construct (hbytes : bytes ≤ sizeMax) :
    exists s, makeReservation (.construct tier deviceId) bytes = some s ∧
      s.threads.lookup 0 =
        if bytes = 0 then some (.done (.reservation 0))
        else some (.done (.threw "cuCascade: insufficient memory for reservation")) := by
  refine ⟨Space.State.tickReserving
    ((Space.State.initial 0).setFrame 0 (.reserving .throwing bytes (.cas 0))) 0 .throwing
    bytes (.cas 0) false, ?_, ?_⟩
  · have hreserve : Space.step (Space.State.initial 0) (.reserve 0 .throwing bytes) =
        some ((Space.State.initial 0).setFrame 0 (.reserving .throwing bytes .load)) := by
      show (if bytes ≤ sizeMax then _ else none) = _
      rw [if_pos hbytes]
    have hstep : Space.spaceMachine.step (Space.State.initial 0) (.reserve 0 .throwing bytes) =
        some ((Space.State.initial 0).setFrame 0 (.reserving .throwing bytes .load)) :=
      hreserve
    show Space.spaceMachine.run (Space.State.initial 0) _ = _
    rw [Machine.run_cons, hstep]
    rfl
  · rcases Nat.eq_zero_or_pos bytes with rfl | hpos
    · rfl
    · rcases Nat.exists_eq_succ_of_ne_zero (Nat.ne_of_gt hpos) with ⟨n, rfl⟩
      rfl

theorem not_succeeds_construct (hpos : 0 < bytes) (hbytes : bytes ≤ sizeMax) :
    ¬ Succeeds (.construct tier deviceId) bytes := by
  rintro ⟨s, rid, hrun, hframe⟩
  rcases makeReservation_construct tier deviceId hbytes with ⟨s', hrun', hframe'⟩
  rw [hrun'] at hrun
  cases hrun
  rw [hframe', if_neg (Nat.ne_of_gt hpos)] at hframe
  cases hframe

/-- A fresh space serves no config with a limit. -/
theorem limits_eq_nil_of_serves {config : SpaceConfig}
    (h : Serves config (.construct tier deviceId)) : config.limits = [] := by
  by_contra hne
  have hset : forall limit, limit ∈ config.limits -> limit ≠ 0 := by
    intro limit hmem
    unfold SpaceConfig.limits at hmem
    simpa using (List.mem_filter.mp hmem).right
  -- one byte is within every limit that is set
  have hone : 1 ≤ sizeMax := by decide
  refine not_succeeds_construct tier deviceId Nat.one_pos hone (h.succeeds hne 1 hone ?_)
  intro limit hmem
  have hpos : limit.toNat ≠ 0 := fun hzero => hset limit hmem (UInt64.toNat_inj.mp hzero)
  omega

end Fresh

/-!
# What the manager has a space for
-/

/-- A fresh space, of a tier the constructor knows. -/
def IsFresh (space : MemorySpace) : Prop :=
  exists tier deviceId, space = .construct tier deviceId ∧ tier ≠ .disk

/-- A config for which a fresh space will do. -/
def IsUndemanding (config : SpaceConfig) : Prop :=
  config.limits = [] ∧ config.tier ≠ none ∧ config.tier ≠ some .disk

theorem isFresh_of_mem_constructSpaces (configs : List SpaceConfig) {space : MemorySpace}
    (hmem : space ∈ Manager.constructSpaces configs) : IsFresh space := by
  induction configs with
  | nil => cases hmem
  | cons config rest ih =>
      cases config with
      | monostate => exact ih hmem
      | disk mountingPoint capacity => exact ih hmem
      | gpu deviceId usageLimit reservationLimit =>
          cases hmem with
          | head => exact ⟨.gpu, deviceId, rfl, Tier.noConfusion⟩
          | tail _ hrest => exact ih hrest
      | host deviceId capacity isPortable =>
          cases hmem with
          | head => exact ⟨.host, deviceId, rfl, Tier.noConfusion⟩
          | tail _ hrest => exact ih hrest

theorem isUndemanding_of_serves {config : SpaceConfig} {space : MemorySpace}
    (hfresh : IsFresh space) (h : Serves config space) : IsUndemanding config := by
  rcases hfresh with ⟨tier, deviceId, rfl, hdisk⟩
  refine ⟨limits_eq_nil_of_serves tier deviceId h, ?_, ?_⟩
  · rw [h.tier]
    exact Option.some_ne_none _
  · rw [h.tier]
    exact fun heq => hdisk (Option.some.inj heq)

theorem isUndemanding_of_forall₂ {configs : List SpaceConfig} {spaces : List MemorySpace}
    (h : List.Forall₂ Serves configs spaces) :
    (forall space, space ∈ spaces -> IsFresh space) ->
      forall config, config ∈ configs -> IsUndemanding config := by
  induction h with
  | nil => exact fun _ _ hmem => nomatch hmem
  | cons hserves _ ih =>
      intro hfresh config hmem
      cases hmem with
      | head => exact isUndemanding_of_serves (hfresh _ List.mem_cons_self) hserves
      | tail _ hrest =>
          exact ih (fun space hspace => hfresh space (List.mem_cons_of_mem _ hspace)) config hrest

theorem serves_construct {config : SpaceConfig} {tier : Tier} {deviceId : Int32}
    (htier : config.tier = some tier) (hid : config.deviceId = some deviceId)
    (hlimits : config.limits = []) : Serves config (.construct tier deviceId) where
  tier := htier
  deviceId := fun id heq => by
    rw [hid] at heq
    rw [← Option.some.inj heq]
    rfl
  succeeds := fun hne => absurd hlimits hne
  refuses := fun hne => absurd hlimits hne

/-- The constructor matches the configs that ask for no limit and no disk. -/
theorem forall₂_serves_constructSpaces_iff (configs : List SpaceConfig) :
    List.Forall₂ Serves configs (Manager.constructSpaces configs) <->
      forall config, config ∈ configs -> IsUndemanding config := by
  constructor
  · exact fun h =>
      isUndemanding_of_forall₂ h (fun _ hmem => isFresh_of_mem_constructSpaces configs hmem)
  · intro h
    induction configs with
    | nil => exact .nil
    | cons config rest ih =>
        have hrest := ih (fun other hmem => h other (List.mem_cons_of_mem _ hmem))
        have hhead : IsUndemanding config := h config List.mem_cons_self
        cases config with
        | monostate => exact absurd rfl hhead.right.left
        | disk mountingPoint capacity => exact absurd rfl hhead.right.right
        | gpu deviceId usageLimit reservationLimit =>
            exact .cons (serves_construct rfl rfl hhead.left) hrest
        | host deviceId capacity isPortable =>
            exact .cons (serves_construct rfl rfl hhead.left) hrest

/-!
# From the settings to the spaces
-/

namespace Configurator

variable (c : Configurator) (topoGpus : UInt64)

theorem mem_build_iff (config : SpaceConfig) :
    config ∈ c.build topoGpus <->
      (exists id, id ∈ c.ids topoGpus ∧
        config = .gpu id c.gpuUsageLimit c.gpuReservationLimit) ∨
      config ∈ c.hostConfigs ∨ config ∈ c.diskConfigs := by
  unfold build
  rw [List.mem_append, List.mem_append, List.mem_map, or_assoc]
  constructor
  · rintro (⟨id, hid, heq⟩ | hrest)
    · exact .inl ⟨id, hid, heq.symm⟩
    · exact .inr hrest
  · rintro (⟨id, hid, heq⟩ | hrest)
    · exact .inl ⟨id, hid, heq.symm⟩
    · exact .inr hrest

theorem isUndemanding_gpu_iff (id : Int32) :
    IsUndemanding (.gpu id c.gpuUsageLimit c.gpuReservationLimit) <->
      c.gpuUsageLimit = 0 ∧ c.gpuReservationLimit = 0 := by
  simp [IsUndemanding, SpaceConfig.limits, SpaceConfig.tier, List.filter_eq_nil_iff]

theorem isUndemanding_hostConfigs_iff :
    (forall config, config ∈ c.hostConfigs -> IsUndemanding config) <->
      c.totalHostCapacity = 0 ∧ c.perHostCapacity = 0 := by
  unfold hostConfigs
  by_cases htotal : c.totalHostCapacity = 0
  · by_cases hper : c.perHostCapacity = 0
    · simp [htotal, hper]
    · have hpos : c.perHostCapacity > 0 := UInt64.pos_iff_ne_zero.mpr hper
      simp [htotal, hper, hpos, IsUndemanding, SpaceConfig.limits, List.filter_eq_nil_iff]
  · have hpos : c.totalHostCapacity > 0 := UInt64.pos_iff_ne_zero.mpr htotal
    simp [htotal, hpos, IsUndemanding, SpaceConfig.limits, List.filter_eq_nil_iff]

theorem isUndemanding_diskConfigs_iff :
    (forall config, config ∈ c.diskConfigs -> IsUndemanding config) <-> c.diskRoot = "" := by
  unfold diskConfigs
  by_cases hroot : c.diskRoot = ""
  · simp [hroot]
  · simp [hroot, IsUndemanding, SpaceConfig.tier]

end Configurator

/-- The manager has what `build` asked for exactly when that is nothing but GPUs without
limits. -/
theorem configured_iff (c : Configurator) (topoGpus : UInt64) :
    Configured (c.build topoGpus) (Manager.construct (c.build topoGpus)) <->
      UnlimitedGpusOnly c topoGpus := by
  have hserves : Configured (c.build topoGpus) (Manager.construct (c.build topoGpus)) <->
      forall config, config ∈ c.build topoGpus -> IsUndemanding config := by
    rw [← forall₂_serves_constructSpaces_iff, ← getAllMemorySpaces_construct]
    exact ⟨fun h => h.serves, fun h => ⟨h, getMemorySpacesForTier_construct _⟩⟩
  rw [hserves]
  constructor
  · intro h
    have hhost := (c.isUndemanding_hostConfigs_iff).mp (fun config hmem =>
      h config ((c.mem_build_iff topoGpus config).mpr (.inr (.inl hmem))))
    have hdisk := (c.isUndemanding_diskConfigs_iff).mp (fun config hmem =>
      h config ((c.mem_build_iff topoGpus config).mpr (.inr (.inr hmem))))
    refine ⟨hhost.left, hhost.right, hdisk, ?_⟩
    cases hids : c.ids topoGpus with
    | nil => exact .inl rfl
    | cons id rest =>
        have hid : id ∈ c.ids topoGpus := by
          rw [hids]
          exact List.mem_cons_self
        exact .inr ((c.isUndemanding_gpu_iff id).mp
          (h _ ((c.mem_build_iff topoGpus _).mpr (.inl ⟨id, hid, rfl⟩))))
  · rintro ⟨htotal, hper, hdisk, hgpu⟩ config hmem
    rcases (c.mem_build_iff topoGpus config).mp hmem with ⟨id, hid, rfl⟩ | hhost | hmount
    · cases hgpu with
      | inl hnil =>
          rw [hnil] at hid
          cases hid
      | inr hzero => exact (c.isUndemanding_gpu_iff id).mpr hzero
    · exact (c.isUndemanding_hostConfigs_iff).mpr ⟨htotal, hper⟩ config hhost
    · exact (c.isUndemanding_diskConfigs_iff).mpr hdisk config hmount

/-- One GPU with a usage limit of ten bytes. -/
def tenByteGpu : Configurator :=
  { Configurator.initial with numGpus := 1, gpuUsageLimit := 10 }

/-- The limit of ten bytes does not reach the space of the GPU. -/
theorem limit_never_reaches_space :
    ¬ Configured (tenByteGpu.build 0) (Manager.construct (tenByteGpu.build 0)) := by
  intro h
  have hserves := h.serves
  rw [getAllMemorySpaces_construct, forall₂_serves_constructSpaces_iff] at hserves
  have hten : IsUndemanding (.gpu 0 10 0) := hserves _ List.mem_cons_self
  exact absurd hten.left (by decide)

end Configuration

end ReservationManager
end Memory
end Cuda2Rocm
