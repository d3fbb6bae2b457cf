import AdnacomEe.Tree.Registry
import Mathlib.Data.List.Perm.Basic
import Mathlib.Data.List.Nodup

/-!
# `grow_tree`: buses and the device lists they hold

After the bridge tree, `grow_tree` gives every bridge of the chain a bus for its secondary bus
number (`new_bus`, unless `find_bus` finds one), then walks the registry and hands every device
to `insert_dev(d, &host_bridge)`. `insert_dev` looks for a bus of the bridge with the device's
domain and bus number; failing that, it descends into the first child bridge whose range holds the
bus number, and failing that too, it makes one with `new_bus`. The device is appended to the bus
through `bus->last_dev`, which points either at `bus->first_dev` or at the `next` field of the
bus's last device, and its own `next` becomes `NULL`.

So `insert_dev` relinks the registry's own `next` pointers while `grow_tree` walks them: the walk
saves `d2 = d->next` before the call. The model keeps the pointers: `Heap.next` is the `next`
field of every device (devices are their positions in the registry), and each `Bus` has its
`first_dev` and `last_dev`. The sibling list of buses of a bridge and the child list of a bridge
only ever grow at the front, and are lists. Each bus also carries, as ghost state, the list of
devices appended to it (`Heap.devs`), and `BusRep` says that the pointers hold exactly that list.

`GrowInv` is the invariant of the walk after `i` devices: the rest of the registry is still linked
as it was (`pending`), every bus holds its ghost list, the buses are split among the bridges of the
chain, the devices `0 .. i - 1` among the buses, each device sits on a bus of its own domain and
bus number, and each bus list is in registry order. `growTree_spec` runs the walk to its end.

* `GrowInv.appendDev`, `GrowInv.newBus`: the two writes of `insert_dev` keep the invariant.
* `insertDev_eq`: on the flat bridge tree, `insert_dev` from the host places the device at the bus
  of one bridge, `target`, and always returns.
* `linkDevices_run`: an invariant that every `insert_dev` of the walk keeps holds at its end.
* `growTree_spec`: `grow_tree` returns, with `GrowInv` over the whole registry.
-/

namespace AdnacomEe
namespace Tree

/-- Where `bus->last_dev` points: at the bus's own `first_dev`, or at the `next` field of the
device `d`. -/
inductive LastRef
  | head
  | next (d : Nat)
deriving DecidableEq, Repr

/-- `struct bus`. Its `sibling` pointer is the order of `Heap.busesOf`. -/
structure Bus where
  domain : Nat
  number : Nat
  firstDev : Option Nat
  lastDev : LastRef

/-- The heap `grow_tree` works on: the `next` field of every device, the buses by allocation
order, the bus list (`first_bus`, then `sibling`) and the child list (`child`, then `next`) of
every bridge of the chain, and the ghost list of devices appended to each bus. -/
structure Heap where
  next : Nat → Option Nat
  bus : Nat → Bus
  busCount : Nat
  busesOf : Nat → List Nat
  child : Nat → List Nat
  devs : Nat → List Nat

/-! ### The functions -/

/-- `find_bus(b, domain, n)`: the first bus of `b` with that domain and number. -/
def findBus (t : Heap) (b domain n : Nat) : Option Nat :=
  (t.busesOf b).find? fun u => (t.bus u).domain == domain && (t.bus u).number == n

/-- `new_bus(b, domain, n)`: a fresh empty bus at the front of the bus list of `b`. -/
def newBus (t : Heap) (b domain n : Nat) : Heap × Nat :=
  ({ t with
      bus := Function.update t.bus t.busCount ⟨domain, n, none, .head⟩
      busCount := t.busCount + 1
      busesOf := Function.update t.busesOf b (t.busCount :: t.busesOf b)
      devs := Function.update t.devs t.busCount [] }, t.busCount)

/-- The end of `insert_dev`: `*bus->last_dev = d; bus->last_dev = &d->next; d->next = NULL;`.
The first store writes `first_dev` of the bus or `next` of the device `last_dev` points at. -/
def appendDev (t : Heap) (u d : Nat) : Heap :=
  let bs := t.bus u
  let first := match bs.lastDev with
    | .head => some d
    | .next _ => bs.firstDev
  let next := match bs.lastDev with
    | .head => t.next
    | .next p => Function.update t.next p (some d)
  { t with
    bus := Function.update t.bus u ⟨bs.domain, bs.number, first, .next d⟩
    next := Function.update next d none
    devs := Function.update t.devs u (t.devs u ++ [d]) }

/-- The test of `insert_dev` on a child bridge:
`c->domain == p->domain && c->secondary <= p->bus && p->bus <= c->subordinate`. -/
def claims (cc : BridgeInfo) (domain bus : Nat) : Bool :=
  cc.domain == domain && decide (cc.secondary ≤ bus) && decide (bus ≤ cc.subordinate)

@[simp] theorem claims_eq_true (cc : BridgeInfo) (domain bus : Nat) :
    claims cc domain bus = true ↔ cc.domain = domain ∧ cc.secondary ≤ bus ∧ bus ≤ cc.subordinate := by
  simp [claims, and_assoc]

/-- **`insert_dev(d, b)`** for the device `d` with record `dv`, with at most `fuel` nested calls;
`none` when they run out. -/
def insertDev (chain : List BridgeInfo) (d : Nat) (dv : Dev) : Nat → Nat → Heap → Option Heap
  | 0, _, _ => none
  | fuel + 1, b, t =>
    match findBus t b dv.domain dv.bus with
    | some u => some (appendDev t u d)
    | none =>
      match (t.child b).find? fun c => claims (chain.getD c hostBridge) dv.domain dv.bus with
      | some c => insertDev chain d dv fuel c t
      | none =>
        let r := newBus t b dv.domain dv.bus
        some (appendDev r.1 r.2 d)

/-- The third loop of `grow_tree`: every bridge of the chain gets a bus for its secondary bus
number, unless it has one. -/
def addSecondaryBuses (chain : List BridgeInfo) (t : Heap) : Heap :=
  chain.enum.foldl (fun t p =>
    match findBus t p.1 p.2.domain p.2.secondary with
    | some _ => t
    | none => (newBus t p.1 p.2.domain p.2.secondary).1) t

/-- The last loop of `grow_tree`, from the device `cur`, with at most `fuel` iterations:
`d2 = d->next; insert_dev(d, &host_bridge); d = d2;`. -/
def linkDevices (chain : List BridgeInfo) (reg : List Dev) : Nat → Option Nat → Heap → Option Heap
  | _, none, t => some t
  | 0, some _, _ => none
  | fuel + 1, some d, t =>
    match reg[d]? with
    | none => none
    | some dv =>
      (insertDev chain d dv (chain.length + 1) 0 t).bind fun t' =>
        linkDevices chain reg fuel (t.next d) t'

/-- The heap when `grow_tree` starts: the registry linked in order, no buses, and the bridge
tree. -/
def initTree (chain : List BridgeInfo) (reg : List Dev) : Heap where
  next i := if i + 1 < reg.length then some (i + 1) else none
  bus _ := ⟨0, 0, none, .head⟩
  busCount := 0
  busesOf _ := []
  child := bridgeTree chain
  devs _ := []

/-- **`grow_tree`**: the chain of bridges and the heap it leaves; `none` if a loop runs out of
fuel. -/
def growTree (H : PciH) (reg : List Dev) : Option (List BridgeInfo × Heap) :=
  let chain := bridgeChain H reg
  (linkDevices chain reg (reg.length + 1) (if 0 < reg.length then some 0 else none)
    (addSecondaryBuses chain (initTree chain reg))).map fun t => (chain, t)

/-! ### Linked lists of devices -/

/-- Following `next` from `s` meets the devices of `l` in order, then `NULL`. -/
def Linked (next : Nat → Option Nat) : Option Nat → List Nat → Prop
  | s, [] => s = none
  | s, d :: l => s = some d ∧ Linked next (next d) l

theorem linked_head {next : Nat → Option Nat} : ∀ {s : Option Nat} {l : List Nat},
    Linked next s l → s = l.head?
  | _, [], h => h
  | _, _ :: _, h => h.1

/-- **Frame**: a list stays linked when no `next` field of its devices changes. -/
theorem linked_frame {next next' : Nat → Option Nat} : ∀ {s : Option Nat} {l : List Nat},
    Linked next s l → (∀ x ∈ l, next' x = next x) → Linked next' s l
  | _, [], h, _ => h
  | _, d :: l, ⟨hs, h⟩, hf =>
    ⟨hs, by rw [hf d (.head _)]; exact linked_frame h fun x hx => hf x (.tail _ hx)⟩

/-- Appending `d` after the last device `p`: `p->next = d; d->next = NULL`. -/
theorem linked_snoc {next : Nat → Option Nat} {d p : Nat} :
    ∀ {s : Option Nat} {l : List Nat}, Linked next s l → l.Nodup → d ∉ l → l.getLast? = some p →
      Linked (Function.update (Function.update next p (some d)) d none) s (l ++ [d])
  | _, [], _, _, _, hp => by simp at hp
  | _, [x], ⟨hs, _⟩, _, hd, hp => by
    rw [List.getLast?_singleton, Option.some.injEq] at hp
    subst hp
    have hxd : x ≠ d := fun h => hd (h ▸ List.mem_singleton_self x)
    exact ⟨hs, by simp [Function.update_apply, hxd], by simp [Linked]⟩
  | _, x :: y :: l, ⟨hs, h⟩, hn, hd, hp => by
    rw [List.getLast?_cons_cons] at hp
    have hpx : p ≠ x := fun h => (List.nodup_cons.1 hn).1 (h ▸ List.mem_of_getLast?_eq_some hp)
    have hxd : x ≠ d := fun h => hd (h ▸ List.mem_cons_self x _)
    refine ⟨hs, ?_⟩
    rw [Function.update_noteq hxd, Function.update_noteq (Ne.symm hpx)]
    exact linked_snoc h (List.nodup_cons.1 hn).2 (fun h' => hd (.tail _ h')) hp

/-- The registry as `grow_tree` gets it: each device linked to the next. -/
theorem linked_range' (n : Nat) : ∀ k i, i + k = n →
    Linked (fun j => if j + 1 < n then some (j + 1) else none) (if i < n then some i else none)
      (List.range' i k)
  | 0, i, h => by simp [Linked, show ¬i < n by omega]
  | k + 1, i, h => ⟨by simp [show i < n by omega], linked_range' n k (i + 1) (by omega)⟩

/-- Where `last_dev` points for a bus holding `l`. -/
def lastRef (l : List Nat) : LastRef :=
  match l.getLast? with
  | none => .head
  | some x => .next x

/-- The pointers of bus `u` hold its ghost list: `first_dev` and the `next` fields run through it
to `NULL`, and `last_dev` points past its last device. -/
def BusRep (t : Heap) (u : Nat) : Prop :=
  Linked t.next (t.bus u).firstDev (t.devs u) ∧ (t.bus u).lastDev = lastRef (t.devs u)

/-- The devices on all buses, bus by bus. -/
def allDevs (t : Heap) : List Nat := (List.range t.busCount).flatMap t.devs

/-- The buses of the first `k` bridges of the chain, bridge by bridge. -/
def allBuses (t : Heap) (k : Nat) : List Nat := (List.range k).flatMap t.busesOf

/-! ### Lists indexed by bus and bridge -/

theorem flatMap_range_update_of_le {f : Nat → List Nat} {u k : Nat} (hk : k ≤ u) (g : List Nat) :
    (List.range k).flatMap (Function.update f u g) = (List.range k).flatMap f :=
  List.flatMap_congr fun x hx => Function.update_noteq (by have := List.mem_range.1 hx; omega) _ _

theorem flatMap_range_update_perm {f : Nat → List Nat} {u : Nat} {g l : List Nat}
    (hg : g.Perm (f u ++ l)) : ∀ {k : Nat}, u < k →
      ((List.range k).flatMap (Function.update f u g)).Perm ((List.range k).flatMap f ++ l)
  | 0, h => absurd h (Nat.not_lt_zero _)
  | k + 1, h => by
    simp only [List.range_succ, List.flatMap_append, List.flatMap_singleton]
    rcases Nat.lt_or_ge u k with hu | hu
    · rw [Function.update_noteq (by omega)]
      exact ((flatMap_range_update_perm hg hu).append_right _).trans
        (by simpa only [List.append_assoc] using List.perm_append_comm.append_left _)
    · obtain rfl : u = k := by omega
      rw [flatMap_range_update_of_le le_rfl, Function.update_same, List.append_assoc]
      exact hg.append_left _

theorem disjoint_of_nodup_flatMap {f : Nat → List Nat} {k u v : Nat}
    (h : ((List.range k).flatMap f).Nodup) (hu : u < k) (hv : v < k) (huv : u ≠ v) :
    (f u).Disjoint (f v) := by
  have hp := List.pairwise_iff_getElem.1 (List.nodup_flatMap.1 h).2
  rcases Nat.lt_or_gt_of_ne huv with h' | h'
  · have := hp u v (by simpa) (by simpa) h'
    simp only [Function.onFun, List.getElem_range] at this
    exact this
  · have := hp v u (by simpa) (by simpa) h'
    simp only [Function.onFun, List.getElem_range] at this
    exact fun x hx hy => this hy hx

/-! ### What the writes do -/

section Writes

variable (t : Heap) (b domain n u d : Nat)

@[simp] theorem newBus_snd : (newBus t b domain n).2 = t.busCount := rfl
@[simp] theorem newBus_busCount : (newBus t b domain n).1.busCount = t.busCount + 1 := rfl
@[simp] theorem newBus_next : (newBus t b domain n).1.next = t.next := rfl
@[simp] theorem newBus_child : (newBus t b domain n).1.child = t.child := rfl

theorem newBus_bus (v : Nat) : (newBus t b domain n).1.bus v =
    if v = t.busCount then ⟨domain, n, none, .head⟩ else t.bus v := Function.update_apply ..

theorem newBus_devs (v : Nat) : (newBus t b domain n).1.devs v =
    if v = t.busCount then [] else t.devs v := Function.update_apply ..

theorem newBus_busesOf (c : Nat) : (newBus t b domain n).1.busesOf c =
    if c = b then t.busCount :: t.busesOf b else t.busesOf c := Function.update_apply ..

@[simp] theorem appendDev_busCount : (appendDev t u d).busCount = t.busCount := rfl
@[simp] theorem appendDev_busesOf : (appendDev t u d).busesOf = t.busesOf := rfl
@[simp] theorem appendDev_child : (appendDev t u d).child = t.child := rfl

theorem appendDev_devs : (appendDev t u d).devs = Function.update t.devs u (t.devs u ++ [d]) := rfl

theorem appendDev_bus_of_ne {v : Nat} (h : v ≠ u) : (appendDev t u d).bus v = t.bus v :=
  Function.update_noteq h _ _

@[simp] theorem appendDev_bus_domain (v : Nat) : ((appendDev t u d).bus v).domain = (t.bus v).domain := by
  by_cases h : v = u
  · subst h; simp [appendDev]
  · rw [appendDev_bus_of_ne t u d h]

@[simp] theorem appendDev_bus_number (v : Nat) : ((appendDev t u d).bus v).number = (t.bus v).number := by
  by_cases h : v = u
  · subst h; simp [appendDev]
  · rw [appendDev_bus_of_ne t u d h]

/-- The `next` fields `appendDev` writes: the device's own and, if the bus is not empty, its last
device's. -/
theorem appendDev_next_of_ne {x : Nat} (hx : x ≠ d) (hl : (t.bus u).lastDev ≠ .next x) :
    (appendDev t u d).next x = t.next x := by
  simp only [appendDev, Function.update_noteq hx]
  cases h : (t.bus u).lastDev with
  | head => rfl
  | next p => exact Function.update_noteq (fun hpx => hl (by rw [h, hpx])) _ _

end Writes

/-- `appendDev` keeps the ghost list of the bus it appends to in its pointers. -/
theorem busRep_appendDev {t : Heap} {u d : Nat} (h : BusRep t u) (hn : (t.devs u).Nodup)
    (hd : d ∉ t.devs u) : BusRep (appendDev t u d) u := by
  obtain ⟨hl, hlast⟩ := h
  simp only [BusRep, appendDev, Function.update_same, hlast]
  refine ⟨?_, by simp [lastRef]⟩
  unfold lastRef at hlast ⊢
  cases hp : (t.devs u).getLast? with
  | none =>
    rw [List.getLast?_eq_none_iff.1 hp]
    exact ⟨rfl, by simp [Linked]⟩
  | some p => exact linked_snoc hl hn hd hp

/-! ### The invariant of the walk -/

/-- **The invariant of `grow_tree`'s last loop after `i` devices.** -/
structure GrowInv (chain : List BridgeInfo) (reg : List Dev) (i : Nat) (t : Heap) : Prop where
  /-- The devices `i, i + 1, ...` are still linked as the registry. -/
  pending : Linked t.next (if i < reg.length then some i else none) (List.range' i (reg.length - i))
  /-- Every bus holds its ghost list. -/
  rep : ∀ u < t.busCount, BusRep t u
  /-- Every bus is on the bus list of exactly one bridge of the chain. -/
  owned : (allBuses t chain.length).Perm (List.range t.busCount)
  /-- The devices `0 .. i - 1` are on exactly one bus each. -/
  placed : (allDevs t).Perm (List.range i)
  /-- A device is on a bus of its own domain and bus number. -/
  keys : ∀ u < t.busCount, ∀ x ∈ t.devs u,
    ∃ dv, reg[x]? = some dv ∧ dv.domain = (t.bus u).domain ∧ dv.bus = (t.bus u).number
  /-- Every bus list is in registry order. -/
  sorted : ∀ u < t.busCount, (t.devs u).Pairwise (· < ·)
  /-- The bridge tree is as the second loop left it. -/
  child : t.child = bridgeTree chain

namespace GrowInv

variable {chain : List BridgeInfo} {reg : List Dev} {i : Nat} {t : Heap}

theorem nodup (h : GrowInv chain reg i t) : (allDevs t).Nodup :=
  h.placed.nodup_iff.2 (List.nodup_range i)

theorem mem_lt (h : GrowInv chain reg i t) {u x : Nat} (hu : u < t.busCount) (hx : x ∈ t.devs u) :
    x < i :=
  List.mem_range.1 (h.placed.mem_iff.1 (List.mem_flatMap.2 ⟨u, List.mem_range.2 hu, hx⟩))

theorem devs_nodup (h : GrowInv chain reg i t) {u : Nat} (hu : u < t.busCount) : (t.devs u).Nodup :=
  (List.nodup_flatMap.1 h.nodup).1 u (List.mem_range.2 hu)

theorem not_mem_of_ne (h : GrowInv chain reg i t) {u v x : Nat} (hu : u < t.busCount)
    (hv : v < t.busCount) (huv : u ≠ v) (hx : x ∈ t.devs u) : x ∉ t.devs v :=
  disjoint_of_nodup_flatMap h.nodup hu hv huv hx

theorem lt_of_mem_busesOf (h : GrowInv chain reg i t) {b u : Nat} (hb : b < chain.length)
    (hu : u ∈ t.busesOf b) : u < t.busCount :=
  List.mem_range.1 (h.owned.mem_iff.1 (List.mem_flatMap.2 ⟨b, List.mem_range.2 hb, hu⟩))

theorem next_eq (h : GrowInv chain reg i t) (hn : i < reg.length) :
    t.next i = if i + 1 < reg.length then some (i + 1) else none := by
  have hp := h.pending
  rw [if_pos hn, show reg.length - i = (reg.length - (i + 1)) + 1 by omega, List.range'_succ] at hp
  rw [linked_head hp.2]
  by_cases h' : i + 1 < reg.length
  · rw [if_pos h', show reg.length - (i + 1) = (reg.length - (i + 1) - 1) + 1 by omega,
      List.range'_succ]; rfl
  · rw [if_neg h', show reg.length - (i + 1) = 0 by omega]; rfl

/-- **`new_bus` keeps the invariant**, for a bridge of the chain. -/
theorem newBus (h : GrowInv chain reg i t) {b : Nat} (hb : b < chain.length) (domain n : Nat) :
    GrowInv chain reg i (Tree.newBus t b domain n).1 := by
  have hdevs : ∀ v < t.busCount, (Tree.newBus t b domain n).1.devs v = t.devs v := fun v hv => by
    rw [newBus_devs, if_neg (by omega)]
  have hbus : ∀ v < t.busCount, (Tree.newBus t b domain n).1.bus v = t.bus v := fun v hv => by
    rw [newBus_bus, if_neg (by omega)]
  refine ⟨h.pending, fun v hv => ?_, ?_, ?_, fun v hv x hx => ?_, fun v hv => ?_, h.child⟩
  · rw [newBus_busCount] at hv
    rcases Nat.lt_or_ge v t.busCount with hv' | hv'
    · obtain ⟨hl, hlast⟩ := h.rep v hv'
      exact ⟨by rw [newBus_next, hbus v hv', hdevs v hv']; exact hl,
        by rw [hbus v hv', hdevs v hv']; exact hlast⟩
    · obtain rfl : v = t.busCount := by omega
      simp [BusRep, newBus_bus, newBus_devs, Linked, lastRef]
  · have : (allBuses (Tree.newBus t b domain n).1 chain.length).Perm (allBuses t chain.length ++ [t.busCount]) :=
      flatMap_range_update_perm (List.perm_append_singleton _ _).symm hb
    simpa [List.range_succ] using this.trans (h.owned.append_right _)
  · have : allDevs (Tree.newBus t b domain n).1 = allDevs t := by
      show (List.range (t.busCount + 1)).flatMap (Function.update t.devs t.busCount []) = _
      rw [List.range_succ, List.flatMap_append, flatMap_range_update_of_le le_rfl,
        List.flatMap_singleton, Function.update_same, List.append_nil]
      rfl
    rw [this]; exact h.placed
  · rw [newBus_busCount] at hv
    rcases Nat.lt_or_ge v t.busCount with hv' | hv'
    · rw [hdevs v hv'] at hx; rw [hbus v hv']; exact h.keys v hv' x hx
    · rw [newBus_devs, if_pos (by omega)] at hx; cases hx
  · rw [newBus_busCount] at hv
    rcases Nat.lt_or_ge v t.busCount with hv' | hv'
    · rw [hdevs v hv']; exact h.sorted v hv'
    · rw [newBus_devs, if_pos (by omega)]; exact List.Pairwise.nil

/-- **Appending device `i` keeps the invariant**, on a bus of its own domain and bus number. -/
theorem appendDev (h : GrowInv chain reg i t) {u : Nat} (hu : u < t.busCount) (hn : i < reg.length)
    {dv : Dev} (hdv : reg[i]? = some dv) (hdom : dv.domain = (t.bus u).domain)
    (hbus : dv.bus = (t.bus u).number) : GrowInv chain reg (i + 1) (Tree.appendDev t u i) := by
  have hi : i ∉ t.devs u := fun hx => Nat.lt_irrefl i (h.mem_lt hu hx)
  -- the `next` field `appendDev` writes besides `i`'s belongs to a device of bus `u`
  have hlast : ∀ x, (t.bus u).lastDev = .next x → x ∈ t.devs u := fun x hx => by
    rw [(h.rep u hu).2, lastRef] at hx
    split at hx
    · cases hx
    · cases hx; exact List.mem_of_getLast?_eq_some ‹_›
  refine ⟨?_, fun v hv => ?_, h.owned, ?_, fun v hv x hx => ?_, fun v hv => ?_, h.child⟩
  · have hp := h.pending
    rw [if_pos hn, show reg.length - i = (reg.length - (i + 1)) + 1 by omega, List.range'_succ] at hp
    have hp2 : Linked t.next (t.next i) (List.range' (i + 1) (reg.length - (i + 1))) := hp.2
    rw [h.next_eq hn] at hp2
    refine linked_frame hp2 fun x hx => appendDev_next_of_ne t u i ?_ fun hl => ?_
    · have := (List.mem_range'_1.1 hx).1; omega
    · have := h.mem_lt hu (hlast x hl); have := (List.mem_range'_1.1 hx).1; omega
  · rw [appendDev_busCount] at hv
    by_cases hvu : v = u
    · subst hvu; exact busRep_appendDev (h.rep v hv) (h.devs_nodup hv) hi
    · obtain ⟨hl, hl'⟩ := h.rep v hv
      refine ⟨?_, ?_⟩
      · rw [appendDev_bus_of_ne t u i hvu, appendDev_devs, Function.update_noteq hvu]
        refine linked_frame hl fun x hx => appendDev_next_of_ne t u i ?_ fun hx' => ?_
        · rintro rfl; exact Nat.lt_irrefl x (h.mem_lt hv hx)
        · exact h.not_mem_of_ne hu hv (Ne.symm hvu) (hlast x hx') hx
      · rw [appendDev_bus_of_ne t u i hvu, appendDev_devs, Function.update_noteq hvu]; exact hl'
  · have : (allDevs (Tree.appendDev t u i)).Perm (allDevs t ++ [i]) :=
      flatMap_range_update_perm (List.Perm.refl _) hu
    simpa [List.range_succ] using this.trans (h.placed.append_right _)
  · rw [appendDev_busCount] at hv
    rw [appendDev_devs, Function.update_apply] at hx
    rw [appendDev_bus_domain, appendDev_bus_number]
    split_ifs at hx with hvu
    · subst hvu
      rcases List.mem_append.1 hx with hx | hx
      · exact h.keys v hv x hx
      · rw [List.mem_singleton.1 hx]; exact ⟨dv, hdv, hdom, hbus⟩
    · exact h.keys v hv x hx
  · rw [appendDev_devs, Function.update_apply]
    split_ifs with hvu
    · subst hvu
      exact List.pairwise_append.2 ⟨h.sorted v hv, List.pairwise_singleton _ _,
        fun x hx y hy => by rw [List.mem_singleton.1 hy]; exact h.mem_lt hv hx⟩
    · exact h.sorted v hv

end GrowInv

/-! ### `insert_dev` on the flat bridge tree -/

/-- `insert_dev` at a bridge `b` that has no child to descend into: the device goes to the bus of
`b` for its domain and bus number, made with `new_bus` if `b` has none. -/
def placeDev (t : Heap) (b d : Nat) (dv : Dev) : Heap :=
  match findBus t b dv.domain dv.bus with
  | some u => appendDev t u d
  | none => appendDev (newBus t b dv.domain dv.bus).1 t.busCount d

/-- The bridge `insert_dev(d, &host_bridge)` puts the device under when no bridge but the host
has children: the host if it has a bus for the device, else the first child of the host that
claims the bus number, else the host. -/
def target (chain : List BridgeInfo) (t : Heap) (dv : Dev) : Nat :=
  match findBus t 0 dv.domain dv.bus with
  | some _ => 0
  | none => ((t.child 0).find? fun c => claims (chain.getD c hostBridge) dv.domain dv.bus).getD 0

/-- **`insert_dev` from the host on a flat tree** places the device under `target`, with two
nested calls at most. -/
theorem insertDev_eq {chain : List BridgeInfo} {t : Heap} (d : Nat) (dv : Dev)
    (hflat : ∀ c ∈ t.child 0, c ≠ 0 ∧ t.child c = []) (fuel : Nat) :
    insertDev chain d dv (fuel + 2) 0 t = some (placeDev t (target chain t dv) d dv) := by
  rw [insertDev, target]
  cases hf : findBus t 0 dv.domain dv.bus with
  | some u => simp [placeDev, hf]
  | none =>
    simp only
    cases hc : (t.child 0).find? fun c => claims (chain.getD c hostBridge) dv.domain dv.bus with
    | none => simp [placeDev, hf]
    | some c =>
      have hcc := (hflat c (List.mem_of_find?_eq_some hc)).2
      simp only [Option.getD_some, insertDev, placeDev]
      cases findBus t c dv.domain dv.bus with
      | some u => rfl
      | none => simp [hcc]

/-- `placeDev` keeps the invariant, at a bridge of the chain. -/
theorem GrowInv.placeDev {chain : List BridgeInfo} {reg : List Dev} {i : Nat} {t : Heap}
    (h : GrowInv chain reg i t) {b : Nat} (hb : b < chain.length) (hn : i < reg.length)
    {dv : Dev} (hdv : reg[i]? = some dv) : GrowInv chain reg (i + 1) (placeDev t b i dv) := by
  unfold AdnacomEe.Tree.placeDev
  cases hf : findBus t b dv.domain dv.bus with
  | some u =>
    have hk := List.find?_some hf
    simp only [Bool.and_eq_true, beq_iff_eq] at hk
    exact h.appendDev (h.lt_of_mem_busesOf hb (List.mem_of_find?_eq_some hf)) hn hdv hk.1.symm hk.2.symm
  | none =>
    have h' := h.newBus hb dv.domain dv.bus
    exact h'.appendDev (by simp) hn hdv (by simp [newBus_bus]) (by simp [newBus_bus])

/-! ### The walk -/

/-- **The walk of `grow_tree`.** An invariant `P i t` of the heap after `i` devices, which says
how the next device is linked and which every `insert_dev` of the walk keeps, holds when the walk
ends; and the walk ends. -/
theorem linkDevices_run {chain : List BridgeInfo} {reg : List Dev} (P : Nat → Heap → Prop)
    (hnext : ∀ i t, i < reg.length → P i t → t.next i = if i + 1 < reg.length then some (i + 1) else none)
    (hstep : ∀ i t, i < reg.length → P i t →
      ∃ dv t', reg[i]? = some dv ∧ insertDev chain i dv (chain.length + 1) 0 t = some t' ∧ P (i + 1) t') :
    ∀ fuel i t, P i t → i ≤ reg.length → reg.length - i < fuel + 1 →
      ∃ t', linkDevices chain reg fuel (if i < reg.length then some i else none) t = some t' ∧
        P reg.length t'
  | fuel, i, t, hp, hi, hf => by
    by_cases hn : i < reg.length
    · obtain ⟨dv, t', hdv, hins, hp'⟩ := hstep i t hn hp
      obtain ⟨fuel, rfl⟩ : ∃ f, fuel = f + 1 := ⟨fuel - 1, by omega⟩
      rw [if_pos hn, linkDevices, hdv]
      simp only [hins, Option.some_bind, hnext i t hn hp]
      exact linkDevices_run P hnext hstep fuel (i + 1) t' hp' hn (by omega)
    · obtain rfl : i = reg.length := by omega
      rw [if_neg hn]
      cases fuel <;> exact ⟨t, rfl, hp⟩

/-- The children of the host in the chain of a registry: all the other bridges, none of which
has a child. -/
theorem bridgeTree_flat (H : PciH) (reg : List Dev) :
    ∀ c ∈ bridgeTree (bridgeChain H reg) 0,
      c ≠ 0 ∧ c < (bridgeChain H reg).length ∧ bridgeTree (bridgeChain H reg) c = [] := by
  have hch : bridgeChain H reg = hostBridge :: (bridgeChain H reg).tail := rfl
  have heq := bridgeTree_eq (bridgeChain H reg).tail fun bb hb => byteBridge_of_mem_chain hb
  rw [← hch] at heq
  intro c hc
  rw [heq] at hc ⊢
  simp only [if_true, List.mem_reverse, List.mem_range'_1] at hc
  refine ⟨by omega, ?_, by simp [show c ≠ 0 by omega]⟩
  rw [hch, List.length_cons]
  omega

/-- The bridge the walk puts a device under is in the chain. -/
theorem target_lt {chain : List BridgeInfo} {t : Heap} (dv : Dev) (h0 : 0 < chain.length)
    (hc : ∀ c ∈ t.child 0, c < chain.length) : target chain t dv < chain.length := by
  unfold target
  split
  · exact h0
  · cases hf : (t.child 0).find? fun c => claims (chain.getD c hostBridge) dv.domain dv.bus with
    | none => exact h0
    | some c => exact hc c (List.mem_of_find?_eq_some hf)

/-- The third loop of `grow_tree` keeps any invariant that `new_bus` keeps when it runs: at a
bridge of the chain, for its secondary bus, which `find_bus` did not find. -/
theorem addSecondaryBuses_inv {chain : List BridgeInfo} (P : Heap → Prop)
    (hnew : ∀ t b, b < chain.length →
      findBus t b (chain.getD b hostBridge).domain (chain.getD b hostBridge).secondary = none → P t →
        P (newBus t b (chain.getD b hostBridge).domain (chain.getD b hostBridge).secondary).1) :
    ∀ (l : List (Nat × BridgeInfo)), (∀ p ∈ l, p.1 < chain.length ∧ p.2 = chain.getD p.1 hostBridge) →
      ∀ t, P t → P (l.foldl (fun t p =>
        match findBus t p.1 p.2.domain p.2.secondary with
        | some _ => t
        | none => (newBus t p.1 p.2.domain p.2.secondary).1) t)
  | [], _, _, h => h
  | p :: l, hl, t, h => by
    rw [List.foldl_cons]
    refine addSecondaryBuses_inv P hnew l (fun q hq => hl q (.tail _ hq)) _ ?_
    obtain ⟨hp, hp2⟩ := hl p (.head _)
    rw [hp2]
    split
    · exact h
    · exact hnew t p.1 hp ‹_› h

theorem getD_chain {chain : List BridgeInfo} {i : Nat} (h : i < chain.length) :
    chain.getD i hostBridge = chain[i] := by
  simp [h]

theorem mem_enum_chain {chain : List BridgeInfo} {p : Nat × BridgeInfo} (hp : p ∈ chain.enum) :
    p.1 < chain.length ∧ p.2 = chain.getD p.1 hostBridge := by
  obtain ⟨h1, h2⟩ := List.mem_enum hp
  exact ⟨h1, by rw [h2, getD_chain h1]⟩

theorem growInv_init (chain : List BridgeInfo) (reg : List Dev) :
    GrowInv chain reg 0 (initTree chain reg) := by
  refine ⟨?_, fun u hu => absurd hu (Nat.not_lt_zero _), ?_, by simp [allDevs, initTree],
    fun u hu => absurd hu (Nat.not_lt_zero _), fun u hu => absurd hu (Nat.not_lt_zero _), rfl⟩
  · exact linked_range' reg.length reg.length 0 (by omega)
  · simp [allBuses, initTree]

/-- **A run of `grow_tree`.** `grow_tree` returns, with `GrowInv` over the whole registry and
with any invariant `P` that holds once the secondary buses are made and that placing a device
under `target` keeps. -/
theorem growTree_run (H : PciH) (reg : List Dev) (P : Nat → Heap → Prop)
    (hinit : P 0 (addSecondaryBuses (bridgeChain H reg) (initTree (bridgeChain H reg) reg)))
    (hstep : ∀ i t dv, i < reg.length → reg[i]? = some dv → GrowInv (bridgeChain H reg) reg i t →
      P i t → P (i + 1) (placeDev t (target (bridgeChain H reg) t dv) i dv)) :
    ∃ t, growTree H reg = some (bridgeChain H reg, t) ∧
      GrowInv (bridgeChain H reg) reg reg.length t ∧ P reg.length t := by
  set chain := bridgeChain H reg
  have h₀ : GrowInv chain reg 0 (addSecondaryBuses chain (initTree chain reg)) :=
    addSecondaryBuses_inv (GrowInv chain reg 0) (fun t b hb _ h => h.newBus hb _ _) _
      (fun p hp => mem_enum_chain hp) _ (growInv_init chain reg)
  have hflat := bridgeTree_flat H reg
  obtain ⟨t, hrun, ht, hp⟩ := @linkDevices_run chain reg
    (fun i t => GrowInv chain reg i t ∧ P i t)
    (fun i t hn h => h.1.next_eq hn)
    (fun i t hn h => by
      obtain ⟨dv, hdv⟩ : ∃ dv, reg[i]? = some dv := ⟨reg[i], List.getElem?_eq_getElem hn⟩
      have hf : ∀ c ∈ t.child 0, c ≠ 0 ∧ t.child c = [] := fun c hc => by
        rw [h.1.child] at hc ⊢; exact ⟨(hflat c hc).1, (hflat c hc).2.2⟩
      have htl : target chain t dv < chain.length :=
        target_lt dv (Nat.succ_pos _) fun c hc => by rw [h.1.child] at hc; exact (hflat c hc).2.1
      obtain ⟨k, hk⟩ : ∃ k, chain.length + 1 = k + 2 := ⟨chain.length - 1, by omega⟩
      exact ⟨dv, _, hdv, by rw [hk]; exact insertDev_eq i dv hf k,
        h.1.placeDev htl hn hdv, hstep i t dv hn hdv h.1 h.2⟩)
    (reg.length + 1) 0 _ ⟨h₀, hinit⟩ (Nat.zero_le _) (by omega)
  exact ⟨t, by simp only [growTree, Option.map_eq_some']; exact ⟨t, hrun, rfl⟩, ht, hp⟩

/-- **`grow_tree` returns**, and its heap satisfies the walk's invariant over the whole
registry. -/
theorem growTree_spec (H : PciH) (reg : List Dev) :
    ∃ t, growTree H reg = some (bridgeChain H reg, t) ∧
      GrowInv (bridgeChain H reg) reg reg.length t := by
  obtain ⟨t, h, hi, -⟩ := growTree_run H reg (fun _ _ => True) trivial fun _ _ _ _ _ _ _ => trivial
  exact ⟨t, h, hi⟩

end Tree
end AdnacomEe
