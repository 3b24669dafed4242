import Cuda2Rocm.Memory.ReservationManager.Configuration
import Cuda2Rocm.Memory.Topology

/-!
# From the discovery to the manager

A discovery object is asked again and again, on a system that changes; what it holds is the
topology of the last call that succeeded.  A configurator that sets no devices of its own
takes them from there.
-/

namespace Cuda2Rocm
namespace Memory
namespace Topology

open Foundation
open ReservationManager
open ReservationManager.Configuration

/-- The devices are numbered from 0, each with as many links as peers, and links between
coherent devices are known at both ends. -/
structure WellFormed (t : SystemTopology) : Prop where
  numGpus : t.gpus.length = t.numGpus
  ids : t.gpus.map GpuInfo.id = List.range t.numGpus
  links : forall info, info ∈ t.gpus ->
    info.peerInterconnectTypes.length = info.peerDevices.length
  others : forall info, info ∈ t.gpus -> forall j, j ∈ info.peerDevices ->
    j < t.numGpus ∧ j ≠ info.id
  once : forall info, info ∈ t.gpus -> info.peerDevices.Nodup
  coherent : forall (i j : Nat) (a b : GpuInfo), t.gpus[i]? = some a -> t.gpus[j]? = some b ->
    (j, "XGMI") ∈ a.peerDevices.zip a.peerInterconnectTypes ->
    (i, "XGMI") ∈ b.peerDevices.zip b.peerInterconnectTypes
  numaNodes : t.numNumaNodes ≤ t.numGpus

theorem wellFormed_initial : WellFormed Discovery.initial.topology := by
  constructor
  · rfl
  · rfl
  · intro info hinfo
    cases hinfo
  · intro info hinfo
    cases hinfo
  · intro info hinfo
    cases hinfo
  · intro i j a b ha
    cases ha
  · exact Nat.zero_le _

theorem gpus_topologyOf {sys : System} {count i : Nat} {info : GpuInfo}
    (h : (topologyOf sys count).gpus[i]? = some info) :
    i < count ∧ info = gpuInfo sys count i := by
  simp only [topologyOf, List.getElem?_map] at h
  rcases Option.map_eq_some_iff.mp h with ⟨k, hk, rfl⟩
  rcases List.getElem?_eq_some_iff.mp hk with ⟨hi, heq⟩
  rw [List.getElem_range] at heq
  subst heq
  exact ⟨by simpa using hi, rfl⟩

theorem wellFormed_topologyOf (sys : System) {count : Nat} (hcount : 0 < count) :
    WellFormed (topologyOf sys count) := by
  have hinfo : forall info, info ∈ (topologyOf sys count).gpus ->
      exists i, i < count ∧ info = gpuInfo sys count i := by
    intro info hmem
    rcases List.mem_iff_getElem?.mp hmem with ⟨i, hi⟩
    exact ⟨i, gpus_topologyOf hi⟩
  constructor
  · simp only [topologyOf, List.length_map, List.length_range]
  · simp only [topologyOf, List.map_map]
    exact List.map_id _
  · intro info hmem
    rcases hinfo info hmem with ⟨i, _, rfl⟩
    simp only [gpuInfo, List.length_map]
  · intro info hmem j hj
    rcases hinfo info hmem with ⟨i, _, rfl⟩
    have hpeer := mem_peersOf_iff.mp hj
    exact ⟨hpeer.1, hpeer.2.1⟩
  · intro info hmem
    rcases hinfo info hmem with ⟨i, _, rfl⟩
    exact List.Nodup.filter _ List.nodup_range
  · intro i j a b ha hb hxgmi
    rcases gpus_topologyOf ha with ⟨hi, rfl⟩
    rcases gpus_topologyOf hb with ⟨hj, rfl⟩
    rcases mem_zip_map_iff.mp hxgmi with ⟨hpeer, hlink⟩
    rcases detectInterconnectType_eq_xgmi_iff.mp hlink with ⟨hij, hji, hnode, hsame⟩
    apply mem_zip_map_iff.mpr
    constructor
    · exact mem_peersOf_iff.mpr ⟨hi, Ne.symm (mem_peersOf_iff.mp hpeer).2.1, hji⟩
    · exact detectInterconnectType_eq_xgmi_iff.mpr ⟨hji, hij, hsame ▸ hnode, hsame.symm⟩
  · have hcard : (numaNodesSeen (topologyOf sys count).gpus).card ≤ count := by
      calc
        (numaNodesSeen (topologyOf sys count).gpus).card
            ≤ (((topologyOf sys count).gpus.map GpuInfo.numaNode).filter
                (fun node => decide (node ≥ 0))).length := List.toFinset_card_le _
        _ ≤ ((topologyOf sys count).gpus.map GpuInfo.numaNode).length :=
              List.length_filter_le _ _
        _ = count := by simp only [topologyOf, List.length_map, List.length_range]
    exact max_le hcard hcount

/-- After any calls the object is as at first, or as the last call that succeeded left it. -/
theorem discoverAll_cases (systems : List System) (s : Discovery) :
    (discoverAll systems s = s ∧ forall sys, sys ∈ systems -> discover sys s = (false, s)) ∨
    exists (before after : List System) (sys : System) (count : Int32),
      systems = before ++ sys :: after ∧ sys.deviceCount = some count ∧ 0 < count.toInt ∧
      discoverAll systems s =
        { topology := topologyOf sys count.toInt.toNat, discovered := true } ∧
      forall late, late ∈ after -> (discover late (discoverAll systems s)).1 = false := by
  induction systems generalizing s with
  | nil => exact Or.inl ⟨rfl, fun _ hmem => absurd hmem List.not_mem_nil⟩
  | cons sys rest ih =>
      rcases discover_cases sys s with hfailed | ⟨count, hcount, hpos, hsome⟩
      · have hsame : discoverAll (sys :: rest) s = discoverAll rest s := by
          rw [discoverAll, hfailed]
        rw [hsame]
        rcases ih s with ⟨hrest, hall⟩ | ⟨before, after, last, count, heq, hlast⟩
        · apply Or.inl
          apply And.intro hrest
          intro other hother
          rcases List.mem_cons.mp hother with rfl | hmem
          · exact hfailed
          · exact hall other hmem
        · apply Or.inr
          exact ⟨sys :: before, after, last, count, by rw [heq, List.cons_append], hlast⟩
      · have hsame : discoverAll (sys :: rest) s = discoverAll rest
            { topology := topologyOf sys count.toInt.toNat, discovered := true } := by
          rw [discoverAll, hsome]
        rw [hsame]
        apply Or.inr
        rcases ih { topology := topologyOf sys count.toInt.toNat, discovered := true } with
          ⟨hrest, hall⟩ | ⟨before, after, last, count', heq, hlast⟩
        · refine ⟨[], rest, sys, count, rfl, hcount, hpos, hrest, ?_⟩
          intro late hlate
          rw [hrest, hall late hlate]
        · exact ⟨sys :: before, after, last, count', by rw [heq, List.cons_append], hlast⟩

theorem wellFormed_discoverAll (systems : List System) :
    WellFormed (discoverAll systems .initial).topology := by
  rcases discoverAll_cases systems .initial with ⟨hsame, _⟩ |
    ⟨_, _, sys, count, _, _, hpos, hlast, _⟩
  · rw [hsame]
    exact wellFormed_initial
  · rw [hlast]
    apply wellFormed_topologyOf sys
    omega

/--
After any calls of `discover`, on whatever systems, the topology is well formed: it is that
of the last call that succeeded, or empty as at first when no call did.
-/
theorem discoveries_well_formed (systems : List System) :
    WellFormed (discoverAll systems .initial).topology ∧
    ((discoverAll systems .initial).discovered = false <->
      forall sys, sys ∈ systems -> (discover sys .initial).1 = false) ∧
    ((discoverAll systems .initial).discovered = false ->
      discoverAll systems .initial = .initial) ∧
    ((discoverAll systems .initial).discovered = true ->
      exists (before after : List System) (sys : System) (count : Int32),
        systems = before ++ sys :: after ∧
        discover sys (discoverAll before .initial) = (true, discoverAll systems .initial) ∧
        sys.deviceCount = some count ∧ 0 < count.toInt ∧
        (discoverAll systems .initial).topology = topologyOf sys count.toInt.toNat ∧
        forall late, late ∈ after ->
          (discover late (discoverAll systems .initial)).1 = false) := by
  apply And.intro (wellFormed_discoverAll systems)
  rcases discoverAll_cases systems .initial with ⟨hsame, hall⟩ |
    ⟨before, after, sys, count, heq, hcount, hpos, hlast, hlate⟩
  · rw [hsame]
    refine ⟨?_, fun _ => rfl, fun hdiscovered => absurd hdiscovered Bool.false_ne_true⟩
    constructor
    · intro _ sys hsys
      rw [hall sys hsys]
    · exact fun _ => rfl
  · refine ⟨?_, ?_, ?_⟩
    · constructor
      · intro hnone
        rw [hlast] at hnone
        cases hnone
      · intro hall
        have hfails := hall sys (heq ▸ List.mem_append_right _ List.mem_cons_self)
        rw [discover_of_count .initial hcount hpos] at hfails
        cases hfails
    · intro hnone
      rw [hlast] at hnone
      cases hnone
    · intro _
      refine ⟨before, after, sys, count, heq, ?_, hcount, hpos, ?_, hlate⟩
      · rw [hlast, discover_of_count _ hcount hpos]
      · rw [hlast]

/-!
# The spaces of the manager
-/

theorem filter_constructSpaces_host (configs : List SpaceConfig)
    (h : forall config, config ∈ configs -> config.tier ≠ some .gpu) :
    (Manager.constructSpaces configs).filter (fun space => decide (space.id.tier = .gpu)) =
      [] := by
  induction configs with
  | nil => rfl
  | cons config rest ih =>
      have hrest := ih (fun other hother => h other (List.mem_cons_of_mem _ hother))
      have hhere := h config List.mem_cons_self
      cases config with
      | monostate => exact hrest
      | gpu deviceId usageLimit reservationLimit => exact absurd rfl hhere
      | host deviceId capacity isPortable =>
          have htier : decide ((MemorySpace.construct .host deviceId).id.tier = .gpu) = false :=
            decide_eq_false Tier.noConfusion
          rw [Manager.constructSpaces, List.filter_cons, htier, if_neg Bool.false_ne_true]
          exact hrest
      | disk mountingPoint capacity => exact hrest

theorem filter_constructSpaces_gpu (ids : List Int32) (usage limit : UInt64)
    (rest : List SpaceConfig) :
    (Manager.constructSpaces (ids.map (fun id => .gpu id usage limit) ++ rest)).filter
        (fun space => decide (space.id.tier = .gpu)) =
      ids.map (MemorySpace.construct .gpu) ++
        (Manager.constructSpaces rest).filter
          (fun space => decide (space.id.tier = .gpu)) := by
  induction ids with
  | nil => rfl
  | cons id ids ih =>
      simp only [List.map_cons, List.cons_append, Manager.constructSpaces]
      rw [List.filter_cons_of_pos (by rfl), ih]

theorem numGpus_lt (systems : List System) :
    (discoverAll systems .initial).topology.numGpus < 2 ^ 31 := by
  rcases discoverAll_cases systems .initial with ⟨hsame, _⟩ |
    ⟨_, _, sys, count, _, _, hpos, hlast, _⟩
  · rw [hsame]
    decide
  · rw [hlast]
    have hlt := count.toInt_lt
    change count.toInt.toNat < 2 ^ 31
    omega

/--
A manager that is built from a discovered topology, by a configurator that sets no devices
of its own, has one GPU space for each device, in their order and under their ids.
-/
theorem manager_has_discovered_gpus (systems : List System) (c : Configurator)
    (hnum : c.numGpus = 0) (hids : c.gpuIds = []) :
    ((Manager.construct (c.build (UInt64.ofNat
        (discoverAll systems .initial).topology.numGpus))).getMemorySpacesForTier .gpu).map
          (fun space => space.id.deviceId) =
      (discoverAll systems .initial).topology.gpus.map (fun info => (info.id : Int)) := by
  have hlt := numGpus_lt systems
  have hids' := (wellFormed_discoverAll systems).ids
  have hnumber : (UInt64.ofNat (discoverAll systems .initial).topology.numGpus).toNat =
      (discoverAll systems .initial).topology.numGpus :=
    UInt64.toNat_ofNat_of_lt (Nat.lt_trans hlt (by decide))
  have hrest : forall config, config ∈ c.hostConfigs ++ c.diskConfigs ->
      config.tier ≠ some .gpu := by
    intro config hconfig
    rcases List.mem_append.mp hconfig with hhost | hdisk
    · unfold Configurator.hostConfigs at hhost
      split at hhost
      · rw [List.mem_singleton.mp hhost]
        exact fun heq => absurd (Option.some.inj heq) Tier.noConfusion
      · cases hhost
    · unfold Configurator.diskConfigs at hdisk
      split at hdisk
      · cases hdisk
      · rw [List.mem_singleton.mp hdisk]
        exact fun heq => absurd (Option.some.inj heq) Tier.noConfusion
  have hdevices : c.ids (UInt64.ofNat (discoverAll systems .initial).topology.numGpus) =
      (List.range (discoverAll systems .initial).topology.numGpus).map Int32.ofNat := by
    have hzero : ¬ (0 : UInt64) > 0 := by decide
    simp only [Configurator.ids, hnum, hids, List.isEmpty_nil, if_true, if_neg hzero, hnumber]
  rw [getMemorySpacesForTier_construct, getAllMemorySpaces_construct, Configurator.build,
    List.append_assoc, filter_constructSpaces_gpu, filter_constructSpaces_host _ hrest,
    List.append_nil, hdevices, List.map_map, List.map_map, ← hids', List.map_map]
  apply List.map_congr_left
  intro info hinfo
  have hid : info.id < (discoverAll systems .initial).topology.numGpus := by
    have hmem : info.id ∈ (discoverAll systems .initial).topology.gpus.map GpuInfo.id :=
      List.mem_map_of_mem hinfo
    rw [hids'] at hmem
    exact List.mem_range.mp hmem
  exact Int32.toInt_ofNat_of_lt (Nat.lt_trans hid hlt)

/-- A system with two devices, then one whose runtime fails. -/
theorem manager_has_discovered_gpus_crossed :
    ((Manager.construct (Configurator.initial.build (UInt64.ofNat
        (discoverAll [crossedSystem, { crossedSystem with deviceCount := none }]
          .initial).topology.numGpus))).getMemorySpacesForTier .gpu).map
            (fun space => space.id.deviceId) =
      (discoverAll [crossedSystem, { crossedSystem with deviceCount := none }]
        .initial).topology.gpus.map (fun info => (info.id : Int)) :=
  manager_has_discovered_gpus _ .initial rfl rfl

end Topology
end Memory
end Cuda2Rocm
