import Cuda2Rocm.Foundation.Text
import Mathlib.Data.Finset.Card
import Mathlib.Data.List.TakeWhile

/-!
# Topology discovery

`topology_discovery` asks the HIP runtime for its devices and the file system for what the
kernel knows of them.  A device is found there by its PCI address: render nodes are tried
first, then cards, since neither are numbered like the devices of the runtime.
-/

namespace Cuda2Rocm
namespace Memory
namespace Topology

open Foundation

/-- What the runtime and the file system answer while a call of `discover` runs. -/
structure System where
  /-- `hipGetDeviceCount`. -/
  deviceCount : Option Int32
  /-- `hipGetDeviceProperties`: the name and the total memory. -/
  properties : Nat -> Option (Text × UInt64)
  /-- `hipDeviceGetPCIBusId`. -/
  pciBusId : Nat -> Option Text
  /-- `hipDeviceCanAccessPeer`. -/
  canAccessPeer : Nat -> Nat -> Option Bool
  hostname : Text
  /-- The content of a file that opens. -/
  file : String -> Option Text

/-- `gpu_topology_info`. -/
structure GpuInfo where
  id : Nat
  name : Text
  numaNode : Int
  pciBusId : Text
  totalMemory : UInt64
  peerDevices : List Nat
  cpuAffinityList : Text
  peerInterconnectTypes : List String
deriving DecidableEq

/-- The fields of `system_topology_info` that `discover` writes. -/
structure SystemTopology where
  numGpus : Nat
  numNumaNodes : Nat
  hostname : Text
  gpus : List GpuInfo
deriving DecidableEq

/-- A `topology_discovery`. -/
structure Discovery where
  topology : SystemTopology
  discovered : Bool
deriving DecidableEq

def Discovery.initial : Discovery :=
  { topology := { numGpus := 0, numNumaNodes := 0, hostname := [], gpus := [] }
    discovered := false }

/-!
# Matching by PCI address
-/

/-- The string up to its last dot. -/
def beforeLastDot (s : Text) : Text :=
  if '.' ∈ s then ((s.reverse.dropWhile (fun c => c != '.')).drop 1).reverse else s

def pciBusesMatch (a b : Text) : Bool := beforeLastDot a == beforeLastDot b

/-- What `c_str()` shows of a string. -/
def cStr (s : Text) : Text := s.takeWhile (fun c => c != '\x00')

/-- A file of a node of the direct rendering manager. -/
def drmPath (node entry : String) : String :=
  "/sys/class/drm/" ++ node ++ "/device/" ++ entry

/-- The node has the PCI address of the device, but for the function. -/
def matchesPci (sys : System) (node : String) (gpu : Nat) : Bool :=
  match sys.pciBusId gpu, sys.file (drmPath node "uevent") with
  | some gpuPci, some uevent =>
      let slot := Text.valueOf "PCI_SLOT_NAME=".toList (Text.lines uevent)
      if slot = [] then false else pciBusesMatch gpuPci (cStr slot)
  | _, _ => false

def renderNode (render : Nat) : String := "renderD" ++ toString render

def cardNode (card : Nat) : String := "card" ++ toString card

def matchesGpuPci (sys : System) (render gpu : Nat) : Bool :=
  matchesPci sys (renderNode render) gpu

def matchesCardPci (sys : System) (card gpu : Nat) : Bool :=
  matchesPci sys (cardNode card) gpu

/-!
# Reading entries
-/

/-- The file of the first matching node whose file opens, render nodes before cards. -/
def readEntry (sys : System) (entry : String) (gpu : Nat) : Option Text :=
  let found := (List.range' 128 72).findSome? (fun render =>
    if matchesGpuPci sys render gpu then sys.file (drmPath (renderNode render) entry)
    else none)
  match found with
  | some content => some content
  | none => (List.range 32).findSome? (fun card =>
      if matchesCardPci sys card gpu then sys.file (drmPath (cardNode card) entry)
      else none)

def readSysfsNumaNode (sys : System) (gpu : Nat) : Int :=
  match readEntry sys "numa_node" gpu with
  | none => -1
  | some content => (Text.readInt (-2147483648) 2147483647 content).getD (-1)

def readSysfsCpulist (sys : System) (gpu : Nat) : Text :=
  match readEntry sys "local_cpulist" gpu with
  | none => []
  | some content => Text.firstLine content

def canAccess (sys : System) (i j : Nat) : Bool := (sys.canAccessPeer i j).getD false

def detectInterconnectType (sys : System) (a b : Nat) : String :=
  let numaA := readSysfsNumaNode sys a
  let numaB := readSysfsNumaNode sys b
  if canAccess sys a b ∧ canAccess sys b a ∧ numaA ≥ 0 ∧ numaA = numaB then "XGMI"
  else "PCIe"

/-!
# Discovery
-/

/-- The inner loop: the peers of a device, in order. -/
def peersOf (sys : System) (count i : Nat) : List Nat :=
  (List.range count).filter (fun j => j != i && canAccess sys i j)

/-- One round of the outer loop. -/
def gpuInfo (sys : System) (count i : Nat) : GpuInfo :=
  { id := i
    name := ((sys.properties i).map Prod.fst).getD []
    numaNode := readSysfsNumaNode sys i
    pciBusId := (sys.pciBusId i).getD []
    totalMemory := ((sys.properties i).map Prod.snd).getD 0
    peerDevices := peersOf sys count i
    cpuAffinityList := readSysfsCpulist sys i
    peerInterconnectTypes := (peersOf sys count i).map (detectInterconnectType sys i) }

/-- `numa_nodes_seen`. -/
def numaNodesSeen (gpus : List GpuInfo) : Finset Int :=
  ((gpus.map GpuInfo.numaNode).filter (fun node => decide (node ≥ 0))).toFinset

def topologyOf (sys : System) (count : Nat) : SystemTopology :=
  let gpus := (List.range count).map (gpuInfo sys count)
  { numGpus := count
    numNumaNodes := max (numaNodesSeen gpus).card 1
    hostname := sys.hostname
    gpus := gpus }

/-- `discover`: what it returns and the state it leaves. -/
def discover (sys : System) (s : Discovery) : Bool × Discovery :=
  match sys.deviceCount with
  | none => (false, s)
  | some count =>
      if count ≤ 0 then (false, s)
      else (true, { topology := topologyOf sys count.toInt.toNat, discovered := true })

/-- One call of `discover` after the other, each on the system as it is then. -/
def discoverAll : List System -> Discovery -> Discovery
  | [], s => s
  | sys :: rest, s => discoverAll rest (discover sys s).2

/-!
# Addresses
-/

theorem beforeLastDot_append (address function : Text) (h : '.' ∉ function) :
    beforeLastDot (address ++ '.' :: function) = address := by
  have hdot : '.' ∈ address ++ '.' :: function :=
    List.mem_append_right address List.mem_cons_self
  have hskip : forall c, c ∈ function.reverse -> (c != '.') = true := by
    intro c hc
    rw [bne_iff_ne]
    intro heq
    exact h (heq ▸ List.mem_reverse.mp hc)
  rw [beforeLastDot, if_pos hdot, List.reverse_append, List.reverse_cons, List.append_assoc,
    List.dropWhile_append_of_pos hskip]
  simp

theorem cStr_of_not_mem (s : Text) (h : '\x00' ∉ s) : cStr s = s := by
  apply List.takeWhile_eq_self_iff.mpr
  intro c hc
  rw [bne_iff_ne]
  intro heq
  exact h (heq ▸ hc)

/-!
# What the kernel shows

A node of the rendering manager stands for a device.  Its files are written by the kernel:
a `uevent` of settings, one of them the PCI address, and a number and a list on lines of
their own.
-/

/-- A PCI device, by its domain, bus and slot. -/
structure Device where
  address : Text
  numaNode : Int
  cpulist : Text
deriving DecidableEq

/-- A device that is written and read back as it is. -/
structure Device.Plain (d : Device) : Prop where
  address_ne : d.address ≠ []
  noNewline : '\n' ∉ d.address
  noNul : '\x00' ∉ d.address
  numaNode_ge : -1 ≤ d.numaNode
  numaNode_le : d.numaNode ≤ 2147483647
  cpulist : '\n' ∉ d.cpulist

/-- The files of a node are those of a function of the device. -/
structure Shows (sys : System) (node : String) (d : Device) : Prop where
  uevent : exists (before after : List Text) (function : Text), '.' ∉ function ∧
    '\n' ∉ function ∧ '\x00' ∉ function ∧
    (forall line, line ∈ before ++ after -> '\n' ∉ line) ∧
    (forall line, line ∈ before ->
      List.isPrefixOf "PCI_SLOT_NAME=".toList line = false) ∧
    sys.file (drmPath node "uevent") = some (Text.unlines
      (before ++ ("PCI_SLOT_NAME=".toList ++ (d.address ++ '.' :: function)) :: after))
  numaNode : sys.file (drmPath node "numa_node") =
    some (Text.intText d.numaNode ++ ['\n'])
  cpulist : sys.file (drmPath node "local_cpulist") = some (d.cpulist ++ ['\n'])

/-- The nodes that are tried. -/
def Tried (node : String) : Prop :=
  (exists render, 128 ≤ render ∧ render < 200 ∧ node = renderNode render) ∨
    exists card, card < 32 ∧ node = cardNode card

/-- The settings of the node, where it has a file of them, name no PCI address. -/
def NamesNoSlot (sys : System) (node : String) : Prop :=
  forall uevent, sys.file (drmPath node "uevent") = some uevent ->
    Text.valueOf "PCI_SLOT_NAME=".toList (Text.lines uevent) = []

/-- The devices of the runtime are plain devices, each node that is tried names no PCI
address or shows some device, and each device of the runtime is shown; nodes of one address
show one device. -/
structure Wired (sys : System) (devices : List Device) : Prop where
  some_device : devices ≠ []
  count : exists count, sys.deviceCount = some count ∧ count.toInt = devices.length
  busId : forall i d, devices[i]? = some d -> exists function, '.' ∉ function ∧
    sys.pciBusId i = some (d.address ++ '.' :: function)
  plain : forall d, d ∈ devices -> d.Plain
  nodes : forall node, Tried node -> NamesNoSlot sys node ∨
    exists d, Shows sys node d ∧ d.Plain ∧
      forall own, own ∈ devices -> own.address = d.address -> own = d
  shown : forall d, d ∈ devices -> exists node, Tried node ∧ Shows sys node d

/-- The address is read back from the settings of a node. -/
theorem slot_of_shows {sys : System} {node : String} {d : Device} (hd : d.Plain)
    (h : Shows sys node d) : exists uevent function, '.' ∉ function ∧ '\x00' ∉ function ∧
      sys.file (drmPath node "uevent") = some uevent ∧
      Text.valueOf "PCI_SLOT_NAME=".toList (Text.lines uevent) =
        d.address ++ '.' :: function := by
  rcases h.uevent with ⟨before, after, function, hdot, hnewline, hnul, hlines, hkeys, hfile⟩
  refine ⟨_, function, hdot, hnul, hfile, ?_⟩
  rw [Text.lines_unlines, Text.valueOf_append _ _ before after hkeys]
  intro line hline
  rcases List.mem_append.mp hline with hbefore | hrest
  · exact hlines line (List.mem_append_left _ hbefore)
  · rcases List.mem_cons.mp hrest with rfl | hafter
    · intro hmem
      rcases List.mem_append.mp hmem with hkey | hvalue
      · exact absurd hkey (by decide)
      · rcases List.mem_append.mp hvalue with haddress | hfunction
        · exact hd.noNewline haddress
        · rcases List.mem_cons.mp hfunction with heq | hmem'
          · exact absurd heq (by decide)
          · exact hnewline hmem'
    · exact hlines line (List.mem_append_right _ hafter)

/-- A node matches exactly the devices of the runtime at the address that it shows. -/
theorem matchesPci_iff {sys : System} {node : String} {d own : Device} {i : Nat}
    {function : Text} (hd : d.Plain) (h : Shows sys node d) (hdot : '.' ∉ function)
    (hbus : sys.pciBusId i = some (own.address ++ '.' :: function)) :
    matchesPci sys node i = true <-> own.address = d.address := by
  rcases slot_of_shows hd h with ⟨uevent, slotFunction, hslotDot, hnul, hfile, hslot⟩
  have hne : d.address ++ '.' :: slotFunction ≠ [] :=
    List.append_ne_nil_of_right_ne_nil _ (List.cons_ne_nil _ _)
  have hcstr : cStr (d.address ++ '.' :: slotFunction) = d.address ++ '.' :: slotFunction := by
    apply cStr_of_not_mem
    intro hmem
    rcases List.mem_append.mp hmem with haddress | hrest
    · exact hd.noNul haddress
    · rcases List.mem_cons.mp hrest with heq | hmem'
      · exact absurd heq (by decide)
      · exact hnul hmem'
  simp only [matchesPci, hbus, hfile, hslot, if_neg hne, hcstr, pciBusesMatch,
    beforeLastDot_append _ _ hdot, beforeLastDot_append _ _ hslotDot, beq_iff_eq]

/-- A node that names no PCI address matches nothing. -/
theorem matchesPci_none {sys : System} {node : String} (i : Nat)
    (h : NamesNoSlot sys node) : matchesPci sys node i = false := by
  unfold matchesPci
  split
  · rename_i hfile
    simp only [h _ hfile, if_true]
  · rfl

/-- Where all that is found is the same, a search finds it or nothing. -/
theorem findSome?_cases {α β : Type _} {f : α -> Option β} {xs : List α} {v : β}
    (h : forall x, x ∈ xs -> f x = none ∨ f x = some v) :
    xs.findSome? f = none ∨ xs.findSome? f = some v := by
  induction xs with
  | nil => exact Or.inl rfl
  | cons x rest ih =>
      rcases h x List.mem_cons_self with hnone | hsome
      · rw [List.findSome?_cons, hnone]
        exact ih (fun y hy => h y (List.mem_cons_of_mem x hy))
      · rw [List.findSome?_cons, hsome]
        exact Or.inr rfl

/-- What is read for a device of the runtime is its own file, whatever the numbers of the
nodes. -/
theorem readEntry_of_wired {sys : System} {devices : List Device} {i : Nat} {own : Device}
    {entry : String} {content : Device -> Text} (hwired : Wired sys devices)
    (hown : devices[i]? = some own)
    (hcontent : forall node d, Shows sys node d ->
      sys.file (drmPath node entry) = some (content d)) :
    readEntry sys entry i = some (content own) := by
  have hmem : own ∈ devices := List.mem_of_getElem? hown
  rcases hwired.busId i own hown with ⟨function, hdot, hbus⟩
  -- what one node contributes
  have hnode : forall node, Tried node ->
      (if matchesPci sys node i then sys.file (drmPath node entry) else none) = none ∨
      (if matchesPci sys node i then sys.file (drmPath node entry) else none) =
        some (content own) := by
    intro node htried
    rcases hwired.nodes node htried with hempty | ⟨d, hshows, hplain, hsame⟩
    · rw [matchesPci_none i hempty]
      exact Or.inl rfl
    · by_cases hmatch : matchesPci sys node i = true
      · have haddress := (matchesPci_iff hplain hshows hdot hbus).mp hmatch
        rw [if_pos hmatch, hcontent node d hshows, hsame own hmem haddress]
        exact Or.inr rfl
      · rw [if_neg hmatch]
        exact Or.inl rfl
  have hrender : forall render, render ∈ List.range' 128 72 ->
      (if matchesGpuPci sys render i then sys.file (drmPath (renderNode render) entry)
        else none) = none ∨
      (if matchesGpuPci sys render i then sys.file (drmPath (renderNode render) entry)
        else none) = some (content own) := by
    intro render hrender
    have hrange : 128 ≤ render ∧ render < 200 := by simpa using hrender
    exact hnode (renderNode render) (Or.inl ⟨render, hrange.1, hrange.2, rfl⟩)
  have hcard : forall card, card ∈ List.range 32 ->
      (if matchesCardPci sys card i then sys.file (drmPath (cardNode card) entry)
        else none) = none ∨
      (if matchesCardPci sys card i then sys.file (drmPath (cardNode card) entry)
        else none) = some (content own) := by
    intro card hcard
    exact hnode (cardNode card) (Or.inr ⟨card, List.mem_range.mp hcard, rfl⟩)
  -- some node shows the device
  rcases hwired.shown own hmem with ⟨node, htried, hshows⟩
  have hplain := hwired.plain own hmem
  have hhit : matchesPci sys node i = true := (matchesPci_iff hplain hshows hdot hbus).mpr rfl
  have hfile := hcontent node own hshows
  unfold readEntry
  rcases findSome?_cases hrender with hnone | hsome
  · simp only [hnone]
    rcases findSome?_cases hcard with hnone' | hsome'
    · rcases htried with ⟨render, hlow, hhigh, rfl⟩ | ⟨card, hlt, rfl⟩
      · have hmiss := List.findSome?_eq_none_iff.mp hnone render
          (by simpa using And.intro hlow hhigh)
        rw [show matchesGpuPci sys render i = true from hhit, if_pos rfl, hfile] at hmiss
        cases hmiss
      · have hmiss := List.findSome?_eq_none_iff.mp hnone' card (List.mem_range.mpr hlt)
        rw [show matchesCardPci sys card i = true from hhit, if_pos rfl, hfile] at hmiss
        cases hmiss
    · exact hsome'
  · simp only [hsome]

theorem readSysfsNumaNode_of_wired {sys : System} {devices : List Device} {i : Nat}
    {own : Device} (hwired : Wired sys devices) (hown : devices[i]? = some own) :
    readSysfsNumaNode sys i = own.numaNode := by
  have hplain := hwired.plain own (List.mem_of_getElem? hown)
  have hge := hplain.numaNode_ge
  have hcontent : forall node d, Shows sys node d ->
      sys.file (drmPath node "numa_node") = some (Text.intText d.numaNode ++ ['\n']) :=
    fun node d h => h.numaNode
  rw [readSysfsNumaNode, readEntry_of_wired hwired hown hcontent]
  simp only [Text.readInt_intText (show (-2147483648 : Int) ≤ own.numaNode by omega)
    hplain.numaNode_le, Option.getD_some]

theorem readSysfsCpulist_of_wired {sys : System} {devices : List Device} {i : Nat}
    {own : Device} (hwired : Wired sys devices) (hown : devices[i]? = some own) :
    readSysfsCpulist sys i = own.cpulist := by
  have hplain := hwired.plain own (List.mem_of_getElem? hown)
  have hcontent : forall node d, Shows sys node d ->
      sys.file (drmPath node "local_cpulist") = some (d.cpulist ++ ['\n']) :=
    fun node d h => h.cpulist
  rw [readSysfsCpulist, readEntry_of_wired hwired hown hcontent]
  exact Text.firstLine_append own.cpulist [] hplain.cpulist

/-!
# What is discovered
-/

/-- A call that succeeds leaves the topology of the system as it is then. -/
theorem discover_cases (sys : System) (s : Discovery) :
    discover sys s = (false, s) ∨
    exists count : Int32, sys.deviceCount = some count ∧ 0 < count.toInt ∧
      discover sys s =
        (true, { topology := topologyOf sys count.toInt.toNat, discovered := true }) := by
  unfold discover
  split
  · exact Or.inl rfl
  · rename_i count hcount
    split
    · exact Or.inl rfl
    · rename_i hpos
      apply Or.inr
      exists count
      refine ⟨hcount, ?_, rfl⟩
      rw [Int32.not_le, Int32.lt_iff_toInt_lt] at hpos
      exact hpos

/-- Whether a call succeeds, and what it leaves then, depends on the system alone. -/
theorem discover_of_count {sys : System} {count : Int32} (s : Discovery)
    (hcount : sys.deviceCount = some count) (hpos : 0 < count.toInt) :
    discover sys s =
      (true, { topology := topologyOf sys count.toInt.toNat, discovered := true }) := by
  have hsome : ¬ count ≤ 0 := by
    rw [Int32.not_le, Int32.lt_iff_toInt_lt]
    exact hpos
  simp only [discover, hcount, if_neg hsome]

theorem mem_zip_map_iff {α β : Type _} {f : α -> β} {xs : List α} {x : α} {y : β} :
    (x, y) ∈ xs.zip (xs.map f) <-> x ∈ xs ∧ f x = y := by
  induction xs with
  | nil => simp
  | cons first rest ih =>
      rw [List.map_cons, List.zip_cons_cons, List.mem_cons, List.mem_cons, ih, Prod.mk.injEq]
      constructor
      · intro h
        rcases h with ⟨rfl, rfl⟩ | ⟨hx, hy⟩
        · exact ⟨Or.inl rfl, rfl⟩
        · exact ⟨Or.inr hx, hy⟩
      · intro h
        rcases h with ⟨rfl | hx, rfl⟩
        · exact Or.inl ⟨rfl, rfl⟩
        · exact Or.inr ⟨hx, rfl⟩

theorem mem_peersOf_iff {sys : System} {count i j : Nat} :
    j ∈ peersOf sys count i <-> j < count ∧ j ≠ i ∧ canAccess sys i j = true := by
  simp only [peersOf, List.mem_filter, List.mem_range, Bool.and_eq_true, bne_iff_ne]

theorem detectInterconnectType_eq_xgmi_iff {sys : System} {a b : Nat} :
    detectInterconnectType sys a b = "XGMI" <-> canAccess sys a b = true ∧
      canAccess sys b a = true ∧ readSysfsNumaNode sys a ≥ 0 ∧
      readSysfsNumaNode sys a = readSysfsNumaNode sys b := by
  simp only [detectInterconnectType]
  split
  · rename_i h
    exact ⟨fun _ => h, fun _ => rfl⟩
  · rename_i h
    exact ⟨fun heq => absurd heq (by decide), fun hall => absurd hall h⟩

theorem numaNodes_of_wired {sys : System} {devices : List Device}
    (hwired : Wired sys devices) :
    ((List.range devices.length).map (gpuInfo sys devices.length)).map GpuInfo.numaNode =
      devices.map Device.numaNode := by
  apply List.ext_getElem
  · simp
  · intro i hleft hright
    have hi : i < devices.length := by simpa using hright
    rw [List.getElem_map, List.getElem_map, List.getElem_map, List.getElem_range]
    exact readSysfsNumaNode_of_wired hwired (List.getElem?_eq_getElem hi)

/--
However the nodes of the rendering manager are numbered, a call of `discover` succeeds and
finds each device of the runtime with its own NUMA node and its own list of cores, its peers
and how they are linked; and it counts the NUMA nodes of the devices.
-/
theorem discovers_as_wired {sys : System} {devices : List Device}
    (hwired : Wired sys devices) (s : Discovery) :
    (discover sys s).1 = true ∧
    (discover sys s).2.topology.numGpus = devices.length ∧
    (forall (i : Nat) (d : Device), devices[i]? = some d ->
      exists info, (discover sys s).2.topology.gpus[i]? = some info ∧ info.id = i ∧
        info.numaNode = d.numaNode ∧ info.cpuAffinityList = d.cpulist ∧
        forall (j : Nat) (e : Device), devices[j]? = some e ->
          (j ∈ info.peerDevices <-> j ≠ i ∧ canAccess sys i j = true) ∧
          ((j, "XGMI") ∈ info.peerDevices.zip info.peerInterconnectTypes <->
            j ≠ i ∧ canAccess sys i j = true ∧ canAccess sys j i = true ∧
              d.numaNode ≥ 0 ∧ d.numaNode = e.numaNode)) ∧
    (discover sys s).2.topology.numNumaNodes =
      max ((devices.map Device.numaNode).filter (fun node => decide (node ≥ 0))).toFinset.card
        1 := by
  rcases hwired.count with ⟨count, hcount, hlength⟩
  have hpos : 0 < count.toInt := by
    rw [hlength]
    exact Int.natCast_pos.mpr (List.length_pos_of_ne_nil hwired.some_device)
  have hdiscover : discover sys s =
      (true, { topology := topologyOf sys devices.length, discovered := true }) := by
    rw [discover_of_count s hcount hpos, hlength, Int.toNat_natCast]
  rw [hdiscover]
  refine ⟨rfl, rfl, ?_, ?_⟩
  · intro i d hd
    have hi : i < devices.length := (List.getElem?_eq_some_iff.mp hd).1
    have hnuma := readSysfsNumaNode_of_wired hwired hd
    refine ⟨gpuInfo sys devices.length i, ?_, rfl, hnuma,
      readSysfsCpulist_of_wired hwired hd, ?_⟩
    · simp only [topologyOf, List.getElem?_map, List.getElem?_range hi, Option.map_some]
    · intro j e he
      have hj : j < devices.length := (List.getElem?_eq_some_iff.mp he).1
      have hpeer : j ∈ (gpuInfo sys devices.length i).peerDevices <->
          j ≠ i ∧ canAccess sys i j = true := by
        simp only [gpuInfo, mem_peersOf_iff, hj, true_and]
      apply And.intro hpeer
      simp only [gpuInfo, mem_zip_map_iff, mem_peersOf_iff, hj, true_and,
        detectInterconnectType_eq_xgmi_iff, hnuma, readSysfsNumaNode_of_wired hwired he]
      constructor
      · intro h
        exact ⟨h.1.1, h.2⟩
      · intro h
        exact ⟨⟨h.1, h.2.1⟩, h.2⟩
  · simp only [topologyOf, numaNodesSeen, numaNodes_of_wired hwired]

/-- Two devices, on different NUMA nodes. -/
def farDevice : Device :=
  { address := "0000:43:00".toList, numaNode := 1, cpulist := "8-15".toList }

def nearDevice : Device :=
  { address := "0000:03:00".toList, numaNode := 0, cpulist := "0-7".toList }

/-- Their files; the kernel numbers them the other way round than the runtime. -/
def crossedFiles : List (String × Text) :=
  [(drmPath (renderNode 128) "uevent",
      Text.unlines ["DRIVER=amdgpu".toList, "PCI_SLOT_NAME=0000:03:00.0".toList]),
    (drmPath (renderNode 128) "numa_node", "0\n".toList),
    (drmPath (renderNode 128) "local_cpulist", "0-7\n".toList),
    (drmPath (renderNode 129) "uevent",
      Text.unlines ["DRIVER=amdgpu".toList, "PCI_SLOT_NAME=0000:43:00.0".toList]),
    (drmPath (renderNode 129) "numa_node", "1\n".toList),
    (drmPath (renderNode 129) "local_cpulist", "8-15\n".toList)]

def crossedSystem : System :=
  { deviceCount := some 2
    properties := fun _ => none
    pciBusId := fun i => [farDevice, nearDevice][i]?.map (fun d => d.address ++ ".0".toList)
    canAccessPeer := fun _ _ => some true
    hostname := "host".toList
    file := fun path => crossedFiles.lookup path }

theorem shows_near : Shows crossedSystem (renderNode 128) nearDevice := by
  constructor
  · exact ⟨["DRIVER=amdgpu".toList], [], ['0'], by decide, by decide, by decide, by decide,
      by decide, by decide +kernel⟩
  · decide +kernel
  · decide +kernel

theorem shows_far : Shows crossedSystem (renderNode 129) farDevice := by
  constructor
  · exact ⟨["DRIVER=amdgpu".toList], [], ['0'], by decide, by decide, by decide, by decide,
      by decide, by decide +kernel⟩
  · decide +kernel
  · decide +kernel

theorem wired_crossed : Wired crossedSystem [farDevice, nearDevice] := by
  have hplainFar : farDevice.Plain := by constructor <;> decide
  have hplainNear : nearDevice.Plain := by constructor <;> decide
  have hshown : forall d, d ∈ [farDevice, nearDevice] ->
      exists node, Tried node ∧ Shows crossedSystem node d := by
    intro d hd
    rcases List.mem_pair.mp hd with rfl | rfl
    · exact ⟨_, Or.inl ⟨129, by decide, by decide, rfl⟩, shows_far⟩
    · exact ⟨_, Or.inl ⟨128, by decide, by decide, rfl⟩, shows_near⟩
  have hplain : forall d, d ∈ [farDevice, nearDevice] -> d.Plain := by
    intro d hd
    rcases List.mem_pair.mp hd with rfl | rfl
    · exact hplainFar
    · exact hplainNear
  constructor
  · exact List.cons_ne_nil _ _
  · exact ⟨2, rfl, by decide⟩
  · intro i d hd
    exact ⟨['0'], by decide, by simp only [crossedSystem, hd, Option.map_some]; rfl⟩
  · exact hplain
  · intro node htried
    rcases htried with ⟨render, hlow, hhigh, rfl⟩ | ⟨card, hlt, rfl⟩
    · have hothers : forall render, render < 200 -> 128 ≤ render ->
          crossedFiles.lookup (drmPath (renderNode render) "uevent") = none ∨
            render = 128 ∨ render = 129 := by decide +kernel
      rcases hothers render hhigh hlow with hnone | rfl | rfl
      · apply Or.inl
        intro uevent hfile
        cases hnone.symm.trans hfile
      · exact Or.inr ⟨nearDevice, shows_near, hplainNear, by decide⟩
      · exact Or.inr ⟨farDevice, shows_far, hplainFar, by decide⟩
    · have hothers : forall card, card < 32 ->
          crossedFiles.lookup (drmPath (cardNode card) "uevent") = none := by decide +kernel
      apply Or.inl
      intro uevent hfile
      cases (hothers card hlt).symm.trans hfile
  · exact hshown

theorem discovers_as_wired_crossed :
    exists info, (discover crossedSystem .initial).2.topology.gpus[0]? = some info ∧
      info.numaNode = 1 ∧ info.cpuAffinityList = "8-15".toList := by
  rcases (discovers_as_wired wired_crossed .initial).right.right.left 0 farDevice rfl with
    ⟨info, hinfo, _, hnuma, hcpulist, _⟩
  exact ⟨info, hinfo, hnuma, hcpulist⟩

end Topology
end Memory
end Cuda2Rocm
