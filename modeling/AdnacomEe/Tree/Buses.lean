import AdnacomEe.Tree.Sort

/-!
# The bus lists `grow_tree` leaves

Two properties of the buses after `grow_tree`.

**Conservation.** Every device of the registry ends on exactly one bus, every bus belongs to
exactly one bridge of the chain, the pointers of every bus run through its devices and end, every
bus holds only devices of its own domain and bus number, and in registry order
(`growTree_conserves`). This is `GrowInv` at the end of the walk, with the order of `compare_them`
on top (`GrowInv.conserved`). `sort_them` makes that order from any list of devices at distinct
addresses, so `lspci -t`, which runs `sort_them` and then `grow_tree`, conserves every device it
scanned (`sortThem_growTree_conserves`).

**Uniqueness of buses.** Two bus objects with one domain and number can arise. `insert_dev` goes
into the first child of the host (the last bridge of the registry first, the tree being flat)
whose range holds the bus number, and takes the range as the header reports it. `map_bridge`
clamps a range whose `secondary` exceeds its `subordinate` to the single bus `secondary`
(`lspci.c`, with the warning "Bridge points to invalid bus range"); `grow_tree` does not, so such
a bridge claims no bus, not even its own secondary bus, and a device behind it gets a second bus
under the host (`growTree_duplicates_inverted_bus`). Also, a wider bridge later in the registry
takes the devices of a narrower one's secondary bus, and a domain-0 bridge with secondary bus `0`
doubles the host's bus `00`. With distinct secondary bus numbers per domain, the host's `0` on
domain `0` among them, ranges that are not inverted, and a bridge whose range holds another's
secondary bus coming earlier in the registry, buses are unique and each bridge's secondary bus
holds the devices on that bus number (`growTree_buses_unique`).

The proof follows each bus number to the one bridge whose bus list may hold it (`route`): the
host, unless a child of the host claims the number, and then the last such child of the registry.
`RouteInv` says that every bus sits at its `route` and that no two buses share a domain and a
number; `insert_dev` lands at the `route` of the device's bus number, where `find_bus` either finds
the one bus or proves there is none.
-/

namespace AdnacomEe
namespace Tree

/-! ### Conservation -/

/-- **What `grow_tree` leaves**, for the registry `reg`, the chain `chain` and the heap `t`. -/
structure Conserved (reg : List Dev) (chain : List BridgeInfo) (t : Heap) : Prop where
  /-- Each bus is on the bus list of exactly one bridge of the chain. -/
  buses_of_bridges : (allBuses t chain.length).Perm (List.range t.busCount)
  /-- Each device of the registry is on exactly one bus: none lost, none twice. -/
  devices_on_buses : (allDevs t).Perm (List.range reg.length)
  /-- `first_dev` and the `next` fields of a bus run through its list and end with `NULL`. -/
  linked : ∀ u < t.busCount, Linked t.next (t.bus u).firstDev (t.devs u)
  /-- A bus holds only devices of its domain and number. -/
  keys : ∀ u < t.busCount, ∀ x ∈ t.devs u,
    ∃ dv, reg[x]? = some dv ∧ dv.domain = (t.bus u).domain ∧ dv.bus = (t.bus u).number
  /-- A bus list keeps registry order and is strictly increasing in device and function. -/
  ordered : ∀ u < t.busCount, (t.devs u).Pairwise fun x y => x < y ∧
    ∃ dx dy, reg[x]? = some dx ∧ reg[y]? = some dy ∧
      (dx.dev < dy.dev ∨ dx.dev = dy.dev ∧ dx.func < dy.func)

/-- Two devices at one domain and bus number in `compare_them` order differ in device or
function. -/
theorem compareThem_lt_same_bus {a b : Dev} (h : compareThem a b = .lt) (hd : a.domain = b.domain)
    (hb : a.bus = b.bus) : a.dev < b.dev ∨ a.dev = b.dev ∧ a.func < b.func := by
  unfold compareThem at h
  simp only [hd, hb, Nat.lt_irrefl, gt_iff_lt, if_false] at h
  split_ifs at h <;> (try cases h) <;> omega

/-- `GrowInv` at the end of the walk, on a registry in `compare_them` order, is `Conserved`. -/
theorem GrowInv.conserved {chain : List BridgeInfo} {reg : List Dev} {t : Heap}
    (h : GrowInv chain reg reg.length t) (hs : Sorted reg) : Conserved reg chain t := by
  refine ⟨h.owned, h.placed, fun u hu => (h.rep u hu).1, h.keys, fun u hu => ?_⟩
  refine (h.sorted u hu).imp_of_mem fun {x y} hx hy hxy => ⟨hxy, ?_⟩
  obtain ⟨dx, hdx, hdx1, hdx2⟩ := h.keys u hu x hx
  obtain ⟨dy, hdy, hdy1, hdy2⟩ := h.keys u hu y hy
  obtain ⟨hxl, rfl⟩ := List.getElem?_eq_some_iff.1 hdx
  obtain ⟨hyl, rfl⟩ := List.getElem?_eq_some_iff.1 hdy
  exact ⟨_, _, hdx, hdy, compareThem_lt_same_bus (List.pairwise_iff_getElem.1 hs x y hxl hyl hxy)
    (hdx1.trans hdy1.symm) (hdx2.trans hdy2.symm)⟩

/-- **Tree construction conserves the registry.** For every registry sorted by `compare_them`,
`grow_tree` returns, every device lies on exactly one bus of exactly one bridge, in the pointers
as in the ghost lists, on a bus of its own domain and number, in registry order. -/
theorem growTree_conserves (H : PciH) (reg : List Dev) (hs : Sorted reg) :
    ∃ chain t, growTree H reg = some (chain, t) ∧ Conserved reg chain t :=
  let ⟨t, hg, h⟩ := growTree_spec H reg
  ⟨_, t, hg, h.conserved hs⟩

/-- **`sort_them`, then `grow_tree`.** For every `NULL`-terminated list of devices at distinct
addresses and every `qsort` that keeps the C library's contract, `sort_them` returns a list of the
same devices, and `grow_tree` on the registry it leaves returns a tree that conserves it. -/
theorem sortThem_growTree_conserves {qsort : (Nat → Nat → Ordering) → List Nat → List Nat}
    (hq : QsortSpec qsort) (H : PciH) (dev : Nat → Dev) {l : DevList} {ds : List Nat}
    (hl : Linked l.next l.first ds)
    (hd : (ds.map fun x => ((dev x).domain, (dev x).bus, (dev x).dev, (dev x).func)).Nodup) :
    ∃ l' ds', sortThem qsort dev ds.length l = some l' ∧ Linked l'.next l'.first ds' ∧ ds'.Perm ds ∧
      ∃ chain t, growTree H (ds'.map dev) = some (chain, t) ∧ Conserved (ds'.map dev) chain t := by
  obtain ⟨l', ds', hs, hl', hp, hsorted⟩ := sortThem_sorted_of_distinct hq dev hl hd
  obtain ⟨t, hg, h⟩ := growTree_spec H (ds'.map dev)
  exact ⟨l', ds', hs, hl', hp, _, t, hg, h.conserved hsorted⟩

theorem sortThem_growTree_conserves_pair :
    QsortSpec mergeQsort ∧ Linked pairList.next pairList.first [0, 1] ∧
      ([0, 1].map fun x => ((pairDev x).domain, (pairDev x).bus, (pairDev x).dev,
        (pairDev x).func)).Nodup ∧
      ∃ l' ds', sortThem mergeQsort pairDev [0, 1].length pairList = some l' ∧
        Linked l'.next l'.first ds' ∧ ds'.Perm [0, 1] ∧
        ∃ chain t, growTree pciH (ds'.map pairDev) = some (chain, t) ∧
          Conserved (ds'.map pairDev) chain t :=
  ⟨mergeQsort_spec, ⟨rfl, rfl, rfl⟩, by decide,
    sortThem_growTree_conserves mergeQsort_spec pciH pairDev ⟨rfl, rfl, rfl⟩ (by decide)⟩

/-! ### An inverted bridge -/

/-- A PCI-to-PCI bridge at `00:01.0` whose header reports primary `0`, secondary `30` and
subordinate `20`. -/
def invertedBridge : Dev :=
  ⟨0, 0, 1, 0, fun o => if o = 0x0a then 0x04 else if o = 0x0b then 0x06 else if o = 0x0e then 1
    else if o = 0x18 then 0 else if o = 0x19 then 30 else if o = 0x1a then 20 else 0⟩

/-- A device at `1e:00.0`, on the bridge's secondary bus `30`. -/
def deviceBehind : Dev := ⟨0, 30, 0, 0, fun _ => 0⟩

/-- The registry of the two, sorted. -/
def invertedRegistry : List Dev := [invertedBridge, deviceBehind]

theorem growTree_conserves_inverted : Sorted invertedRegistry ∧
    ∃ chain t, growTree pciH invertedRegistry = some (chain, t) ∧ Conserved invertedRegistry chain t :=
  ⟨by decide, growTree_conserves pciH invertedRegistry (by decide)⟩

/-- **An inverted range duplicates a bus.** With one bridge, whose secondary bus `30` is not the
host's `0`, `grow_tree` makes two buses `00:1e`: bus `1`, the bridge's secondary bus, which stays
empty, and bus `2`, made under the host for the device on bus `30`, which the range `30-20` of the
bridge does not claim. `map_bridge` would have clamped that range to `30-30`. -/
theorem growTree_duplicates_inverted_bus :
    bridgeChain pciH invertedRegistry = [hostBridge, ⟨0, 0, 30, 20, some 0⟩] ∧
      ∃ chain t, growTree pciH invertedRegistry = some (chain, t) ∧ t.busCount = 3 ∧
        (t.bus 1).domain = 0 ∧ (t.bus 1).number = 30 ∧ (t.bus 2).domain = 0 ∧
        (t.bus 2).number = 30 ∧ t.busesOf 1 = [1] ∧ t.busesOf 0 = [2, 0] ∧ t.devs 1 = [] ∧
        t.devs 2 = [1] := by
  refine ⟨by decide, _, _, rfl, ?_⟩
  decide

/-! ### Where each bus number goes -/

/-- The bridge whose bus list a bus number of domain `domain` goes to: the first child of the
host that claims it, or the host. -/
def route (chain : List BridgeInfo) (domain bus : Nat) : Nat :=
  ((bridgeTree chain 0).find? fun c => claims (chain.getD c hostBridge) domain bus).getD 0

/-- The bus lists follow `route`, and no two buses share a domain and a number. -/
structure RouteInv (chain : List BridgeInfo) (t : Heap) : Prop where
  at_route : ∀ u < t.busCount, u ∈ t.busesOf (route chain (t.bus u).domain (t.bus u).number)
  unique : ∀ u < t.busCount, ∀ v < t.busCount, (t.bus u).domain = (t.bus v).domain →
    (t.bus u).number = (t.bus v).number → u = v

theorem RouteInv.appendDev {chain : List BridgeInfo} {t : Heap} (h : RouteInv chain t) (u d : Nat) :
    RouteInv chain (Tree.appendDev t u d) :=
  ⟨by simpa using h.at_route, by simpa using h.unique⟩

/-- **A new bus at the `route` of its number**, which `find_bus` did not find there, keeps
`RouteInv`. -/
theorem RouteInv.newBus {chain : List BridgeInfo} {t : Heap} (h : RouteInv chain t) {domain n : Nat}
    (hf : findBus t (route chain domain n) domain n = none) :
    RouteInv chain (Tree.newBus t (route chain domain n) domain n).1 := by
  have hnone := List.find?_eq_none.1 hf
  have hfresh : ∀ v < t.busCount, (t.bus v).domain = domain → (t.bus v).number = n → False :=
    fun v hv hd hn => by
      have := hnone v (by rw [← hd, ← hn]; exact h.at_route v hv)
      simp [hd, hn] at this
  constructor
  · intro v hv
    simp only [newBus_busCount] at hv
    rw [newBus_bus, newBus_busesOf]
    by_cases hvb : v = t.busCount
    · simp [hvb]
    · rw [if_neg hvb]
      split_ifs with hr
      · exact .tail _ (hr ▸ h.at_route v (by omega))
      · exact h.at_route v (by omega)
  · intro v hv w hw hd hn
    simp only [newBus_busCount] at hv hw
    rw [newBus_bus, newBus_bus] at hd hn
    by_cases hvb : v = t.busCount <;> by_cases hwb : w = t.busCount
    · rw [hvb, hwb]
    · simp only [hvb, hwb, if_true, if_false] at hd hn
      exact (hfresh w (by omega) hd.symm hn.symm).elim
    · simp only [hvb, hwb, if_true, if_false] at hd hn
      exact (hfresh v (by omega) hd hn).elim
    · simp only [hvb, hwb, if_false] at hd hn
      exact h.unique v (by omega) w (by omega) hd hn

/-! ### The hypotheses on the bridges -/

section Hyps

variable {H : PciH} {reg : List Dev}

/-- **The hypotheses of bus uniqueness.** Bridges of one domain report distinct secondary bus
numbers, the host's `0` on domain `0` among them (`secondaries`); no bridge's range is inverted
(`ranges`); and a bridge whose range holds the secondary bus number of another bridge of its domain
comes earlier in the registry (`nested`). -/
structure BridgeHyps (chain : List BridgeInfo) : Prop where
  secondaries : chain.Pairwise fun b c => b.domain = c.domain → b.secondary ≠ c.secondary
  ranges : ∀ c ∈ chain.tail, c.secondary ≤ c.subordinate
  nested : chain.tail.Pairwise fun b c =>
    c.domain = b.domain → ¬(c.secondary ≤ b.secondary ∧ b.secondary ≤ c.subordinate)

/-- The first claimant found in the host's child list, the last bridge of the registry first: the
highest index in `[s, s + n)` that claims. -/
theorem find?_reverse_range' {p : Nat → Bool} {b : Nat} (hb : p b = true) :
    ∀ s n, s ≤ b → b < s + n → (∀ c, b < c → c < s + n → p c = false) →
      (List.range' s n).reverse.find? p = some b
  | s, 0, h1, h2, _ => by omega
  | s, n + 1, h1, h2, hmax => by
    rw [List.range'_1_concat, List.reverse_append, List.reverse_singleton, List.singleton_append,
      List.find?_cons]
    by_cases hn : b = s + n
    · rw [← hn, hb]
    · rw [hmax (s + n) (by omega) (by omega)]
      exact find?_reverse_range' hb s n h1 (by omega) fun c hc hc' => hmax c hc (by omega)

variable {rest : List BridgeInfo}

theorem route_eq (hbytes : ∀ bb ∈ rest, ByteBridge bb) {domain bus b : Nat}
    (hb : (b = 0 ∧ ∀ c, 0 < c → c < rest.length + 1 →
        claims ((hostBridge :: rest).getD c hostBridge) domain bus = false) ∨
      (0 < b ∧ b < rest.length + 1 ∧ claims ((hostBridge :: rest).getD b hostBridge) domain bus = true ∧
        ∀ c, b < c → c < rest.length + 1 →
          claims ((hostBridge :: rest).getD c hostBridge) domain bus = false)) :
    route (hostBridge :: rest) domain bus = b := by
  rw [route, bridgeTree_eq rest hbytes]
  simp only [if_true]
  rcases hb with ⟨rfl, hnone⟩ | ⟨h0, hlt, hcl, hmax⟩
  · rw [List.find?_eq_none.2 fun c hc => by
      simp only [List.mem_reverse, List.mem_range'_1] at hc
      rw [hnone c (by omega) (by omega)]; simp]
    rfl
  · rw [@find?_reverse_range' (fun c => claims ((hostBridge :: rest).getD c hostBridge) domain bus) b
      hcl 1 _ h0 (by omega) fun c hc hc' => hmax c hc (by omega)]
    rfl

/-- **The secondary bus of a bridge routes to the bridge.** -/
theorem route_secondary (rest : List BridgeInfo) (h : BridgeHyps (hostBridge :: rest))
    (hbytes : ∀ bb ∈ rest, ByteBridge bb) {b : Nat} (hb : b < rest.length + 1) :
    route (hostBridge :: rest) ((hostBridge :: rest).getD b hostBridge).domain
      ((hostBridge :: rest).getD b hostBridge).secondary = b := by
  apply route_eq hbytes
  rcases b with _ | b
  · refine .inl ⟨rfl, fun c hc0 hcl => Bool.eq_false_iff.2 fun hcl' => ?_⟩
    obtain ⟨c, rfl⟩ : ∃ c', c = c' + 1 := ⟨c - 1, by omega⟩
    have hsec := (List.pairwise_cons.1 h.secondaries).1 _ (List.getElem_mem (by omega : c < rest.length))
    rw [List.getD_cons_zero, List.getD_cons_succ, getD_chain (by omega), claims_eq_true] at hcl'
    exact hsec hcl'.1.symm (by have := hcl'.2.1; simp only [hostBridge] at this ⊢; omega)
  · refine .inr ⟨Nat.succ_pos _, hb, ?_, fun c hbc hcl => Bool.eq_false_iff.2 fun hcl' => ?_⟩
    · rw [claims_eq_true, List.getD_cons_succ, getD_chain (by omega)]
      exact ⟨rfl, le_rfl, h.ranges _ (List.getElem_mem (by omega : b < rest.length))⟩
    · obtain ⟨c, rfl⟩ : ∃ c', c = c' + 1 := ⟨c - 1, by omega⟩
      have hn := List.pairwise_iff_getElem.1 h.nested b c (by simp only [List.tail_cons]; omega)
        (by simp only [List.tail_cons]; omega) (by omega)
      rw [List.getD_cons_succ, List.getD_cons_succ, getD_chain (by omega), getD_chain (by omega),
        claims_eq_true] at hcl'
      exact hn hcl'.1 hcl'.2

end Hyps

theorem route_lt {H : PciH} {reg : List Dev} (domain bus : Nat) :
    route (bridgeChain H reg) domain bus < (bridgeChain H reg).length := by
  unfold route
  cases hf : (bridgeTree (bridgeChain H reg) 0).find? fun c =>
      claims ((bridgeChain H reg).getD c hostBridge) domain bus with
  | none => exact Nat.succ_pos _
  | some c => exact (bridgeTree_flat H reg c (List.mem_of_find?_eq_some hf)).2.1

/-- Under `RouteInv`, `insert_dev` from the host lands at the `route` of the device's bus
number: a bus the host has for it sits at the host's `route`. -/
theorem target_eq_route {H : PciH} {reg : List Dev} {i : Nat} {t : Heap} (dv : Dev)
    (hG : GrowInv (bridgeChain H reg) reg i t) (hR : RouteInv (bridgeChain H reg) t) :
    target (bridgeChain H reg) t dv = route (bridgeChain H reg) dv.domain dv.bus := by
  unfold target
  cases hf : findBus t 0 dv.domain dv.bus with
  | none => simp only; rw [hG.child]; rfl
  | some u =>
    have hu := List.mem_of_find?_eq_some hf
    have hk := List.find?_some hf
    simp only [Bool.and_eq_true, beq_iff_eq] at hk
    have hu' := hR.at_route u (hG.lt_of_mem_busesOf (Nat.succ_pos _) hu)
    rw [hk.1, hk.2] at hu'
    by_contra hne
    exact disjoint_of_nodup_flatMap (hG.owned.nodup_iff.2 (List.nodup_range _)) (Nat.succ_pos _)
      (route_lt _ _) hne hu hu'

/-- **Bus uniqueness**, for the registry `reg`, the chain `chain` and the heap `t`: no two buses
share a domain and a number, and a device on a bridge's secondary bus number is on a bus of that
bridge with that number. -/
structure BusesUnique (reg : List Dev) (chain : List BridgeInfo) (t : Heap) : Prop where
  unique : ∀ u < t.busCount, ∀ v < t.busCount, (t.bus u).domain = (t.bus v).domain →
    (t.bus u).number = (t.bus v).number → u = v
  on_secondary : ∀ c < chain.length, ∀ x dv, reg[x]? = some dv →
    dv.domain = (chain.getD c hostBridge).domain → dv.bus = (chain.getD c hostBridge).secondary →
    ∃ w ∈ t.busesOf c, (t.bus w).domain = dv.domain ∧ (t.bus w).number = dv.bus ∧ x ∈ t.devs w

/-- **Bus uniqueness in the built tree.** For a registry whose bridges meet `BridgeHyps`,
`grow_tree` returns a heap with `BusesUnique`. -/
theorem growTree_buses_unique (H : PciH) (reg : List Dev) (h : BridgeHyps (bridgeChain H reg)) :
    ∃ chain t, growTree H reg = some (chain, t) ∧ BusesUnique reg chain t := by
  set chain := bridgeChain H reg
  have hrt : ∀ b < chain.length,
      route chain (chain.getD b hostBridge).domain (chain.getD b hostBridge).secondary = b :=
    fun b hb => route_secondary chain.tail h (fun bb hb => byteBridge_of_mem_chain hb) hb
  have hinit : RouteInv chain (addSecondaryBuses chain (initTree chain reg)) := by
    refine addSecondaryBuses_inv (RouteInv chain) (fun t b hb hf hR => ?_) _
      (fun p hp => mem_enum_chain hp) _
      ⟨fun u hu => absurd hu (Nat.not_lt_zero _), fun u hu => absurd hu (Nat.not_lt_zero _)⟩
    have := @RouteInv.newBus chain t hR (chain.getD b hostBridge).domain
      (chain.getD b hostBridge).secondary (by rw [hrt b hb]; exact hf)
    rwa [hrt b hb] at this
  obtain ⟨t, hg, hi, hr⟩ := growTree_run H reg (fun _ t => RouteInv chain t) hinit
    fun i t dv _ _ hG hR => by
      rw [target_eq_route dv hG hR]
      unfold placeDev
      cases hf : findBus t (route chain dv.domain dv.bus) dv.domain dv.bus with
      | some u => exact hR.appendDev _ _
      | none => exact (hR.newBus hf).appendDev _ _
  refine ⟨chain, t, hg, hr.unique, fun c hcl x dv hdv hd hb => ?_⟩
  obtain ⟨hxl, -⟩ := List.getElem?_eq_some_iff.1 hdv
  obtain ⟨w, hw, hxw⟩ := List.mem_flatMap.1 (hi.placed.mem_iff.2 (List.mem_range.2 hxl))
  have hw' := List.mem_range.1 hw
  obtain ⟨dv', hdv', hd', hb'⟩ := hi.keys w hw' x hxw
  obtain rfl : dv = dv' := Option.some.inj (hdv.symm.trans hdv')
  have hat := hr.at_route w hw'
  rw [← hd', ← hb', hd, hb, hrt c hcl] at hat
  exact ⟨w, hat, hd'.symm, hb'.symm, hxw⟩

/-- A PCI-to-PCI bridge at `00:01.0` with primary `0`, secondary `1` and subordinate `1`. -/
def rootPort : Dev :=
  ⟨0, 0, 1, 0, fun o => if o = 0x0a then 0x04 else if o = 0x0b then 0x06 else if o = 0x0e then 1
    else if o = 0x18 then 0 else if o = 0x19 then 1 else if o = 0x1a then 1 else 0⟩

/-- The root port and a device `01:00.0` behind it. -/
def rootPortRegistry : List Dev := [rootPort, ⟨0, 1, 0, 0, fun _ => 0⟩]

theorem growTree_buses_unique_rootPort :
    BridgeHyps (bridgeChain pciH rootPortRegistry) ∧
      ∃ chain t, growTree pciH rootPortRegistry = some (chain, t) ∧ BusesUnique rootPortRegistry chain t :=
  have h : BridgeHyps (bridgeChain pciH rootPortRegistry) := ⟨by decide, by decide, by decide⟩
  ⟨h, growTree_buses_unique pciH rootPortRegistry h⟩

end Tree
end AdnacomEe
