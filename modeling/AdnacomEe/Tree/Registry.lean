import Mathlib.Logic.Function.Basic
import Mathlib.Data.List.Range
import Mathlib.Algebra.Group.Nat.Basic

/-!
# The registry and the bridge tree of `lspci -t`

`show_forest` first runs `grow_tree`, which builds the tree `lspci -t` prints out of the device
registry `first_dev`, a list sorted by `compare_them`. Its first two loops are modelled here:

* the chain `host_bridge.chain`: the host bridge, then one `struct bridge` for every device whose
  class is `PCI_CLASS_BRIDGE_PCI` and whose header type is a bridge or a CardBus bridge, with the
  bus numbers read from its configuration header;
* the bridge tree: each bridge `b` is prepended to the `child` list of its `best` bridge, the one
  whose range holds `b->primary` with the smallest `subordinate - primary`.

`host_bridge` is `{ ..., 0, ~0, 0, ~0, NULL }`: its `primary` and `subordinate` are both `~0`,
so its width `subordinate - primary` is `0` in `unsigned int`. It is the first candidate of every
bridge and no other candidate is narrower, so every bridge gets the host as its `best`
(`bestParent_of_ne_host`) and the host gets none (`bestParent_host`): the bridge tree is flat
(`bridgeTree_eq`), with the host's children in the reverse of registry order.

The constants of `pci/header.h`, which is not among the sources, are the parameter `PciH`;
`pciH` holds the values of that header.
-/

namespace AdnacomEe
namespace Tree

/-- The constants of `pci/header.h` that `grow_tree` reads (the header is not among the sources):
the offsets of the class word, the header type and the bus numbers of both bridge headers, the
class of a PCI-to-PCI bridge and the two bridge header types. -/
structure PciH where
  classDevice : Nat
  headerType : Nat
  primaryBus : Nat
  secondaryBus : Nat
  subordinateBus : Nat
  cbPrimaryBus : Nat
  cbCardBus : Nat
  cbSubordinateBus : Nat
  classBridgePci : Nat
  headerTypeBridge : Nat
  headerTypeCardbus : Nat

/-- The values of `pci/header.h`. -/
def pciH : PciH := ⟨0x0a, 0x0e, 0x18, 0x19, 0x1a, 0x18, 0x19, 0x1a, 0x0604, 1, 2⟩

/-- A device of the registry: the address of its `struct pci_dev` and its `config` bytes. -/
structure Dev where
  domain : Nat
  bus : Nat
  dev : Nat
  func : Nat
  config : Nat → UInt8

/-- `compare_them`: by domain, bus, device and function. -/
def compareThem (a b : Dev) : Ordering :=
  if a.domain < b.domain then .lt else if a.domain > b.domain then .gt
  else if a.bus < b.bus then .lt else if a.bus > b.bus then .gt
  else if a.dev < b.dev then .lt else if a.dev > b.dev then .gt
  else if a.func < b.func then .lt else if a.func > b.func then .gt
  else .eq

/-- A registry sorted by `compare_them`, with no two devices at one address. -/
def Sorted (reg : List Dev) : Prop := reg.Pairwise fun a b => compareThem a b = .lt

instance (reg : List Dev) : Decidable (Sorted reg) := inferInstanceAs (Decidable (List.Pairwise _ _))

/-- `get_conf_byte(d, pos)`. -/
def getConfByte (d : Dev) (pos : Nat) : Nat := (d.config pos).toNat

theorem getConfByte_lt (d : Dev) (pos : Nat) : getConfByte d pos < 256 := (d.config pos).val.isLt

/-- `get_conf_word(d, pos)`: `d->config[pos] | (d->config[pos+1] << 8)`. -/
def getConfWord (d : Dev) (pos : Nat) : Nat :=
  (d.config pos).toNat ||| (d.config (pos + 1)).toNat <<< 8

/-! ### The chain of bridges -/

/-- The fields of `struct bridge` that stay fixed once the chain is built. -/
structure BridgeInfo where
  domain : Nat
  primary : Nat
  secondary : Nat
  subordinate : Nat
  brDev : Option Nat
deriving DecidableEq, Repr

/-- `host_bridge`: domain `0`, `primary = ~0`, `secondary = 0`, `subordinate = ~0`, no device. -/
def hostBridge : BridgeInfo := ⟨0, 2 ^ 32 - 1, 0, 2 ^ 32 - 1, none⟩

/-- The body of the first loop of `grow_tree` for the device `d` at position `i`: a bridge when
its class and header type say so. A bridge header takes its bus numbers at `PCI_CB_PRIMARY_BUS`,
`PCI_CB_CARD_BUS` and `PCI_CB_SUBORDINATE_BUS`, a CardBus header at `PCI_PRIMARY_BUS`,
`PCI_SECONDARY_BUS` and `PCI_SUBORDINATE_BUS`, as the source has it. -/
def bridgeOf (H : PciH) (i : Nat) (d : Dev) : Option BridgeInfo :=
  let cls := getConfWord d H.classDevice
  let ht := getConfByte d H.headerType &&& 0x7f
  if cls = H.classBridgePci ∧ (ht = H.headerTypeBridge ∨ ht = H.headerTypeCardbus) then
    some (if ht = H.headerTypeBridge then
      ⟨d.domain, getConfByte d H.cbPrimaryBus, getConfByte d H.cbCardBus,
        getConfByte d H.cbSubordinateBus, some i⟩
    else
      ⟨d.domain, getConfByte d H.primaryBus, getConfByte d H.secondaryBus,
        getConfByte d H.subordinateBus, some i⟩)
  else none

/-- `host_bridge.chain`: the host bridge, then the bridges of the registry in its order. Index `0`
is the host; the index of a bridge is its place in the chain. -/
def bridgeChain (H : PciH) (reg : List Dev) : List BridgeInfo :=
  hostBridge :: reg.enum.filterMap fun p => bridgeOf H p.1 p.2

/-- The bus numbers of a bridge read from configuration space are bytes. -/
def ByteBridge (bb : BridgeInfo) : Prop :=
  bb.primary < 256 ∧ bb.secondary < 256 ∧ bb.subordinate < 256

theorem byteBridge_of_bridgeOf {H : PciH} {i : Nat} {d : Dev} {bb : BridgeInfo}
    (h : bridgeOf H i d = some bb) : ByteBridge bb := by
  simp only [bridgeOf] at h
  split_ifs at h <;> cases h <;>
    exact ⟨getConfByte_lt _ _, getConfByte_lt _ _, getConfByte_lt _ _⟩

theorem byteBridge_of_mem_chain {H : PciH} {reg : List Dev} {bb : BridgeInfo}
    (h : bb ∈ (bridgeChain H reg).tail) : ByteBridge bb := by
  obtain ⟨p, -, hp⟩ := List.mem_filterMap.1 h
  exact byteBridge_of_bridgeOf hp

/-! ### The bridge tree -/

/-- `best->subordinate - best->primary`, in `unsigned int`. -/
def width (c : BridgeInfo) : Nat := (c.subordinate + 2 ^ 32 - c.primary) % 2 ^ 32

/-- The step of the search for `best` at the candidate `c` of the chain. -/
def bestStep (b : Nat) (bb : BridgeInfo) (best : Option (Nat × BridgeInfo)) (c : Nat × BridgeInfo) :
    Option (Nat × BridgeInfo) :=
  if c.1 ≠ b ∧ (c.1 = 0 ∨ bb.domain = c.2.domain) ∧ c.2.secondary ≤ bb.primary ∧
      bb.primary ≤ c.2.subordinate then
    match best with
    | none => some c
    | some (_, be) => if width c.2 < width be then some c else best
  else best

/-- The inner loop of the second loop of `grow_tree`: the `best` bridge for the bridge `bb` at
index `b`, with its index. -/
def bestParent (chain : List BridgeInfo) (b : Nat) (bb : BridgeInfo) : Option (Nat × BridgeInfo) :=
  chain.enum.foldl (bestStep b bb) none

/-- The second loop of `grow_tree`: `b->next = best->child; best->child = b;` for every bridge of
the chain, in chain order. The `child` list of a bridge is its `child` pointer followed by the
`next` pointers. -/
def bridgeTree (chain : List BridgeInfo) : Nat → List Nat :=
  chain.enum.foldl (fun child p =>
    match bestParent chain p.1 p.2 with
    | some (q, _) => Function.update child q (p.1 :: child q)
    | none => child) fun _ => []

theorem width_hostBridge : width hostBridge = 0 := by decide

/-- Once the host is the `best`, it stays: no candidate is narrower than `0`. -/
theorem foldl_bestStep_host (b : Nat) (bb : BridgeInfo) :
    ∀ l : List (Nat × BridgeInfo), l.foldl (bestStep b bb) (some (0, hostBridge)) = some (0, hostBridge)
  | [] => rfl
  | c :: l => by
    have : bestStep b bb (some (0, hostBridge)) c = some (0, hostBridge) := by
      simp only [bestStep, width_hostBridge, Nat.not_lt_zero, if_false, ite_self]
    rw [List.foldl_cons, this]
    exact foldl_bestStep_host b bb l

/-- **Every bridge's `best` is the host.** The host comes first and is a candidate for every
bridge, and nothing is narrower than it. -/
theorem bestParent_of_ne_host (rest : List BridgeInfo) {b : Nat} (hb : b ≠ 0) {bb : BridgeInfo}
    (hp : bb.primary < 2 ^ 32) :
    bestParent (hostBridge :: rest) b bb = some (0, hostBridge) := by
  rw [bestParent, List.enum_cons, List.foldl_cons, bestStep,
    if_pos ⟨hb.symm, .inl rfl, Nat.zero_le _, by simp only [hostBridge]; omega⟩]
  exact foldl_bestStep_host b bb _

/-- Without a `best`, a search over candidates whose ranges stop below `~0` finds none for the
host. -/
theorem foldl_bestStep_none (l : List (Nat × BridgeInfo)) (hl : ∀ c ∈ l, c.2.subordinate < 2 ^ 32 - 1) :
    l.foldl (bestStep 0 hostBridge) none = none := by
  induction l with
  | nil => rfl
  | cons c l ih =>
    rw [List.foldl_cons, bestStep, if_neg, ih fun c hc => hl c (.tail _ hc)]
    have := hl c (.head _)
    simp only [hostBridge]
    omega

/-- **The host has no `best`**: its `primary` is `~0`, above the range of every other bridge. -/
theorem bestParent_host (rest : List BridgeInfo) (hrest : ∀ bb ∈ rest, ByteBridge bb) :
    bestParent (hostBridge :: rest) 0 hostBridge = none := by
  rw [bestParent, List.enum_cons, List.foldl_cons, bestStep, if_neg (fun h => h.1 rfl)]
  refine foldl_bestStep_none _ fun c hc => ?_
  have := (hrest c.2 (List.snd_mem_of_mem_enumFrom hc)).2.2
  omega

theorem bridgeTree_foldl (chain rest : List BridgeInfo) (hchain : ∃ l, chain = hostBridge :: l)
    (hrest : ∀ bb ∈ rest, ByteBridge bb) : ∀ (k : Nat) (A : List Nat), 0 < k →
    (rest.enumFrom k).foldl (fun child p =>
      match bestParent chain p.1 p.2 with
      | some (q, _) => Function.update child q (p.1 :: child q)
      | none => child) (fun p => if p = 0 then A else []) =
      fun p => if p = 0 then (List.range' k rest.length).reverse ++ A else [] := by
  obtain ⟨l, rfl⟩ := hchain
  induction rest with
  | nil => intro k A _; simp
  | cons bb rest ih =>
    intro k A hk
    have hb : bestParent (hostBridge :: l) k bb = some (0, hostBridge) :=
      bestParent_of_ne_host l (by omega) (by have := (hrest bb (.head _)).1; omega)
    rw [List.enumFrom_cons, List.foldl_cons]
    simp only [hb, if_true]
    have hupd : Function.update (fun p => if p = 0 then A else []) 0 (k :: A) =
        fun p => if p = 0 then k :: A else [] := by
      funext p
      by_cases hp : p = 0 <;> simp [hp, Function.update_apply]
    rw [hupd, ih (fun c hc => hrest c (.tail _ hc)) (k + 1) (k :: A) (by omega)]
    funext p
    simp [List.range'_succ]

/-- **The bridge tree is flat**: the host's children are all the other bridges, the last of the
chain first, and no other bridge has a child. -/
theorem bridgeTree_eq (rest : List BridgeInfo) (hrest : ∀ bb ∈ rest, ByteBridge bb) :
    bridgeTree (hostBridge :: rest) =
      fun p => if p = 0 then (List.range' 1 rest.length).reverse else [] := by
  rw [bridgeTree, List.enum_cons, List.foldl_cons]
  simp only [bestParent_host rest hrest]
  have h0 : (fun _ : Nat => ([] : List Nat)) = fun p => if p = 0 then [] else [] := by
    funext p; split_ifs <;> rfl
  rw [h0, bridgeTree_foldl _ rest ⟨rest, rfl⟩ hrest 1 [] (by omega)]
  simp

/-! ### Nested bridges -/

/-- The configuration header of a PCI-to-PCI bridge (class `0604`, header type `1`) with the
given primary, secondary and subordinate bus numbers. -/
def bridgeHeader (primary secondary subordinate : Nat) : Nat → UInt8 := fun o =>
  if o = 0x0a then 0x04 else if o = 0x0b then 0x06 else if o = 0x0e then 1
  else if o = 0x18 then UInt8.ofNat primary else if o = 0x19 then UInt8.ofNat secondary
  else if o = 0x1a then UInt8.ofNat subordinate else 0

/-- Three bridges: `A` at `00:01.0` for buses `0-255`, `B` at `00:02.0` for buses `10-20`, and
`C` at `0f:00.0`, on bus `15` inside `B`'s range. -/
def nestedRegistry : List Dev :=
  [⟨0, 0, 1, 0, bridgeHeader 0 0 255⟩, ⟨0, 0, 2, 0, bridgeHeader 0 10 20⟩,
    ⟨0, 15, 0, 0, bridgeHeader 15 16 16⟩]

/-- `C`'s primary bus `15` lies in the ranges of `A` and of the narrower `B`, yet `grow_tree`
makes `C` a child of the host and gives `B` no child: `bridgeTree_eq` says the same of every
registry. -/
theorem bridgeTree_skips_tightest_parent :
    bridgeChain pciH nestedRegistry = [hostBridge, ⟨0, 0, 0, 255, some 0⟩, ⟨0, 0, 10, 20, some 1⟩,
      ⟨0, 15, 16, 16, some 2⟩] ∧
    bridgeTree (bridgeChain pciH nestedRegistry) 0 = [3, 2, 1] ∧
    bridgeTree (bridgeChain pciH nestedRegistry) 2 = [] := by
  decide

end Tree
end AdnacomEe
