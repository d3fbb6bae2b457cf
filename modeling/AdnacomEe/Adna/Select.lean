import AdnacomEe.Adna.Show
import Mathlib.Data.List.Nodup
import Mathlib.Data.List.Range

/-!
# Picking the device the user chose

After `sort_them`, `adna_dev_list_init` numbers the registry with `count_upstream`: every device
that `pci_is_upstream` calls an upstream port gets `NumDevice = ++i`, every other `0`, and the
count is `NumDevices`. `save_to_adna_list` then prepends, for every numbered device, a
`struct adna_device` with `devnum = NumDevice` and a filter `this` made from the device's address
and identifiers, and `show()` lists the registry with the labels `[NumDevice]`. The number the
user types goes through `adna_get_adnadevice_from_devnum` (the first record with that `devnum`)
and `adna_get_device_from_adnadevice` (the first device of `first_dev` that record's filter
matches).

The filter is written with `snprintf` as `"%04x:%02x:%02x.%d"` and `"%04x:%04x:%04x"` and read
back by libpci's `pci_filter_parse_slot` and `pci_filter_parse_id` into a filter `memset` to
zero; for the values the fields of `struct pci_dev` can hold, every field it compares then holds
the device's own value (`filterOf`). The registry lists each function once (`Registry`), as
`pci_scan_bus` does.

* `countUpstream_numbers`, `countUpstream_eq_zero_iff`: the upstream ports are numbered `1 .. k`
  in list order, every other device `0`; `countUpstream_position`: each number has one device.
* `adnaGetAdnadeviceFromDevnum_eq`, `adnaGetDeviceFromAdnadevice_filterOf`: the two lookups find
  the only record with the number, and the device the record was made from.
* `selection_finds_shown_device`: for each `j` in `1 .. k` the record with `devnum = j` is found
  and is the only one, and it leads back to the device `show()` labelled `[j]`, the only such
  device.
-/

namespace AdnacomEe
namespace Adna

/-- The registry `first_dev`, each function once. -/
structure Registry where
  devs : List Device
  addresses_nodup : (devs.map fun d => d.dev.address).Nodup

/-! ### `count_upstream` -/

/-- The loop of **`count_upstream`** from the counter `i`: the devices with their new `NumDevice`,
and the final counter. -/
def countUpstream : List Device → Nat → List Device × Nat
  | [], i => ([], i)
  | d :: ds, i =>
    if d.dev.upstream then
      let r := countUpstream ds (i + 1)
      ({ d with numDevice := i + 1 } :: r.1, r.2)
    else
      let r := countUpstream ds i
      ({ d with numDevice := 0 } :: r.1, r.2)

section Count

variable {ds : List Device} {i : Nat}

/-- `count_upstream` changes `NumDevice` only. -/
theorem countUpstream_devs : ∀ (ds : List Device) (i : Nat),
    (countUpstream ds i).1.map (·.dev) = ds.map (·.dev)
  | [], _ => rfl
  | d :: ds, i => by
    unfold countUpstream
    split_ifs <;> simp [countUpstream_devs ds]

theorem countUpstream_count : ∀ (ds : List Device) (i : Nat),
    (countUpstream ds i).2 = i + ds.countP (·.dev.upstream)
  | [], _ => rfl
  | d :: ds, i => by
    unfold countUpstream
    split_ifs with h <;> simp [countUpstream_count ds, h, Nat.add_assoc, Nat.add_comm 1]

/-- Every device not upstream gets `0`, every upstream port a number. -/
theorem countUpstream_eq_zero_iff : ∀ (ds : List Device) (i : Nat),
    ∀ d ∈ (countUpstream ds i).1, d.numDevice = 0 ↔ d.dev.upstream = false
  | [], _ => by simp [countUpstream]
  | d :: ds, i => by
    unfold countUpstream
    split_ifs with h <;>
      simpa [h] using countUpstream_eq_zero_iff ds _

/-- **The numbering**: the nonzero numbers, in list order, are `i + 1, i + 2, ...`, one per
upstream port. -/
theorem countUpstream_numbers : ∀ (ds : List Device) (i : Nat),
    ((countUpstream ds i).1.map (·.numDevice)).filter (· ≠ 0) =
      List.range' (i + 1) (ds.countP (·.dev.upstream))
  | [], _ => rfl
  | d :: ds, i => by
    unfold countUpstream
    split_ifs with h
    · rw [List.map_cons, List.filter_cons_of_pos (by simp), countUpstream_numbers ds,
        List.countP_cons, if_pos h, List.range'_succ]
    · rw [List.map_cons, List.filter_cons_of_neg (by simp), countUpstream_numbers ds,
        List.countP_cons, if_neg h]
      rfl

end Count

/-- Positions holding one nonzero value in a list whose nonzero values are all different are one
position. -/
theorem eq_of_filter_nodup {α : Type} {f : α → Nat} : ∀ {l : List α},
    ((l.map f).filter (· ≠ 0)).Nodup → ∀ {m n : Nat} {a b : α}, l[m]? = some a → l[n]? = some b →
      f a = f b → f a ≠ 0 → m = n
  | [], _, _, _, _, _, ha, _, _, _ => by simp at ha
  | x :: l, hnd, m, n, a, b, ha, hb, hab, h0 => by
    have htail : ((l.map f).filter (· ≠ 0)).Nodup :=
      hnd.sublist (by rw [List.map_cons, List.filter_cons]; split_ifs <;> simp)
    have hx : f x ≠ 0 → f x ∉ (l.map f).filter (· ≠ 0) := fun hx0 => by
      rw [List.map_cons, List.filter_cons, if_pos (by simpa using hx0)] at hnd
      exact (List.nodup_cons.1 hnd).1
    have hmem : ∀ {k c}, l[k]? = some c → f c ≠ 0 → f c ∈ (l.map f).filter (· ≠ 0) :=
      fun hc hc0 => List.mem_filter.2 ⟨List.mem_map.2 ⟨_, List.mem_iff_getElem?.2 ⟨_, hc⟩, rfl⟩, by simpa using hc0⟩
    cases m with
    | zero =>
      cases n with
      | zero => rfl
      | succ n =>
        rw [List.getElem?_cons_zero, Option.some.injEq] at ha
        rw [List.getElem?_cons_succ] at hb
        subst ha
        exact absurd (hmem hb (hab ▸ h0)) (hab ▸ hx h0)
    | succ m =>
      rw [List.getElem?_cons_succ] at ha
      cases n with
      | zero =>
        rw [List.getElem?_cons_zero, Option.some.injEq] at hb
        subst hb
        exact absurd (hmem ha h0) (hab ▸ hx (hab ▸ h0))
      | succ n =>
        rw [List.getElem?_cons_succ] at hb
        exact congrArg (· + 1) (eq_of_filter_nodup htail ha hb hab h0)

theorem countUpstream_addresses (ds : List Device) (i : Nat) :
    (countUpstream ds i).1.map (fun d => d.dev.address) = ds.map fun d => d.dev.address := by
  have e : ∀ l : List Device, l.map (fun d => d.dev.address) = (l.map (·.dev)).map PciDev.address :=
    fun l => by rw [List.map_map]; rfl
  rw [e, countUpstream_devs, ← e]

/-- **Each number has one device**: every `j` in `1 .. k` is the `NumDevice` of exactly one
position of the numbered registry. -/
theorem countUpstream_position (ds : List Device) {j : Nat}
    (hj : j ∈ List.range' 1 (countUpstream ds 0).2) :
    ∃ (n : Nat) (d : Device), (countUpstream ds 0).1[n]? = some d ∧ d.numDevice = j ∧
      ∀ (m : Nat) (e : Device), (countUpstream ds 0).1[m]? = some e → e.numDevice = j → m = n := by
  have hnum := countUpstream_numbers ds 0
  rw [countUpstream_count, Nat.zero_add] at hj
  rw [← hnum, List.mem_filter, List.mem_map] at hj
  obtain ⟨⟨d, hd, rfl⟩, hj0⟩ := hj
  obtain ⟨n, hn⟩ := List.mem_iff_getElem?.1 hd
  refine ⟨n, d, hn, rfl, fun m e hm he =>
    eq_of_filter_nodup (hnum ▸ List.nodup_range' _ _) hm hn he (he ▸ by simpa using hj0)⟩

/-! ### The list of Adnacom devices -/

/-- `struct adna_device`: the filter `this` of its device, `bIsD3` and `devnum`. The `parent`
filter, read from sysfs, is not modelled. -/
structure AdnaDevice where
  this : PciFilter
  bIsD3 : Bool
  devnum : Nat
deriving DecidableEq, Repr

/-- The filter `this` of `save_to_adna_list`: after `memset(this, 0, ...)`, the parse of the
device's `"%04x:%02x:%02x.%d"` and `"%04x:%04x:%04x"` sets every field it compares. -/
def filterOf (p : PciDev) : PciFilter :=
  ⟨some p.domain, some p.bus, some p.dev, some p.func, some p.vendorId, some p.deviceId,
    some p.deviceClass⟩

/-- **`save_to_adna_list`**: a record for every numbered device, each prepended to `first_adna`. -/
def saveToAdnaList (reg : List Device) (firstAdna : List AdnaDevice) : List AdnaDevice :=
  reg.foldl (fun acc d => if d.numDevice ≠ 0 then ⟨filterOf d.dev, false, d.numDevice⟩ :: acc
    else acc) firstAdna

/-- **`adna_get_adnadevice_from_devnum(num)`**: the first record with `devnum == num`. -/
def adnaGetAdnadeviceFromDevnum (adna : List AdnaDevice) (num : Nat) : Option AdnaDevice :=
  adna.find? fun a => num == a.devnum

/-- **`adna_get_device_from_adnadevice(a)`**: the first device of `first_dev`, by position, that
`a->this` matches. -/
def adnaGetDeviceFromAdnadevice (reg : List Device) (a : AdnaDevice) : Option Nat :=
  reg.findIdx? fun d => pciFilterMatch a.this d.dev

theorem mem_saveToAdnaList {a : AdnaDevice} : ∀ {reg : List Device} {acc : List AdnaDevice},
    a ∈ saveToAdnaList reg acc ↔
      a ∈ acc ∨ ∃ d ∈ reg, d.numDevice ≠ 0 ∧ a = ⟨filterOf d.dev, false, d.numDevice⟩
  | [], _ => by simp [saveToAdnaList]
  | d :: reg, acc => by
    rw [saveToAdnaList, List.foldl_cons, ← saveToAdnaList, mem_saveToAdnaList]
    split_ifs with h <;> simp [h, or_assoc, or_left_comm]

/-- A device's own filter matches exactly the devices with its address and identifiers. -/
theorem pciFilterMatch_filterOf {p q : PciDev} (h : pciFilterMatch (filterOf p) q = true) :
    q.address = p.address := by
  simp [pciFilterMatch, filterOf, fieldMatch] at h
  simp [PciDev.address, h]

theorem pciFilterMatch_filterOf_self (p : PciDev) : pciFilterMatch (filterOf p) p = true := by
  simp [pciFilterMatch, filterOf, fieldMatch]

/-- In a list where no two devices share an address, a device's own filter first matches it. -/
theorem adnaGetDeviceFromAdnadevice_filterOf {reg : List Device}
    (hreg : (reg.map fun d => d.dev.address).Nodup) {n : Nat} {d : Device} (hd : reg[n]? = some d)
    (bIsD3 : Bool) (devnum : Nat) :
    adnaGetDeviceFromAdnadevice reg ⟨filterOf d.dev, bIsD3, devnum⟩ = some n := by
  obtain ⟨hn, rfl⟩ := List.getElem?_eq_some_iff.1 hd
  refine List.findIdx?_eq_some_iff_getElem.2 ⟨hn, pciFilterMatch_filterOf_self _, fun j hj hm => ?_⟩
  have := (@List.Nodup.getElem_inj_iff _ _ hreg j (by simpa using Nat.lt_trans hj hn) n
    (by simpa using hn)).1 (by simpa using pciFilterMatch_filterOf hm)
  omega

/-- A record that is the only one with `devnum = j` is the one the lookup of `j` finds. -/
theorem adnaGetAdnadeviceFromDevnum_eq {adna : List AdnaDevice} {r : AdnaDevice} {j : Nat}
    (hr : r ∈ adna) (hj : r.devnum = j) (huniq : ∀ a ∈ adna, a.devnum = j → a = r) :
    adnaGetAdnadeviceFromDevnum adna j = some r := by
  have hne : adna.find? (fun a => j == a.devnum) ≠ none := fun h =>
    List.find?_eq_none.1 h r hr (by rw [hj]; exact beq_self_eq_true j)
  obtain ⟨a, hfind⟩ := Option.ne_none_iff_exists'.1 hne
  have hja : (j == a.devnum) = true := @List.find?_some _ (fun a : AdnaDevice => j == a.devnum) _ _ hfind
  show adna.find? _ = _
  rw [hfind, huniq a (List.mem_of_find?_eq_some hfind) (beq_iff_eq.1 hja).symm]

/-- Every record with `devnum = j` is the record of the device numbered `j`, when only one is. -/
theorem saveToAdnaList_devnum_eq {ds : List Device} {n j : Nat} {d : Device}
    (hd : ds[n]? = some d) (huniq : ∀ m e, ds[m]? = some e → e.numDevice = j → m = n) :
    ∀ a ∈ saveToAdnaList ds [], a.devnum = j → a = ⟨filterOf d.dev, false, j⟩ := by
  intro a ha haj
  obtain ha | ⟨d', hd', -, rfl⟩ := mem_saveToAdnaList.1 ha
  · cases ha
  obtain ⟨m, hm⟩ := List.mem_iff_getElem?.1 hd'
  obtain rfl := huniq m d' hm haj
  obtain rfl : d' = d := Option.some.inj (hm.symm.trans hd)
  rw [← haj]

/-- Every position of the registry is listed under the initial filter. -/
theorem mem_show_init {ds : List Device} {n : Nat} {d : Device} (hd : ds[n]? = some d) :
    n ∈ «show» pciFilterInit ds := by
  rw [show_init, List.mem_range]
  exact (List.getElem?_eq_some_iff.1 hd).1

/-! ### The selection -/

/-- **The device selected is the device shown.** `count_upstream` numbers the upstream ports of
the registry `1 .. k` in list order and every other device `0`, with `k = NumDevices`. After
`save_to_adna_list`, for every `j` in `1 .. k`, `adna_get_adnadevice_from_devnum(j)` returns a
record with `devnum = j`, the only one; and `adna_get_device_from_adnadevice` of it returns the
device that `show()` listed with the label `[j]`, the only device listed with it. -/
theorem selection_finds_shown_device (reg : Registry) :
    let numbered := (countUpstream reg.devs 0).1
    let adna := saveToAdnaList numbered []
    numbered.map (·.dev) = reg.devs.map (·.dev) ∧
    (∀ d ∈ numbered, d.numDevice = 0 ↔ d.dev.upstream = false) ∧
    (numbered.map (·.numDevice)).filter (· ≠ 0) = List.range' 1 (countUpstream reg.devs 0).2 ∧
    (countUpstream reg.devs 0).2 = reg.devs.countP (·.dev.upstream) ∧
    ∀ j ∈ List.range' 1 (countUpstream reg.devs 0).2,
      ∃ a, adnaGetAdnadeviceFromDevnum adna j = some a ∧ a.devnum = j ∧
        (∀ a' ∈ adna, a'.devnum = j → a' = a) ∧
        ∃ n d, adnaGetDeviceFromAdnadevice numbered a = some n ∧ numbered[n]? = some d ∧
          n ∈ «show» pciFilterInit numbered ∧ slotLabel d = some j ∧
          ∀ m e, m ∈ «show» pciFilterInit numbered → numbered[m]? = some e → slotLabel e = some j →
            m = n := by
  intro numbered adna
  have hcount := countUpstream_count reg.devs 0
  have hnum := countUpstream_numbers reg.devs 0
  rw [Nat.zero_add] at hcount
  rw [← hcount] at hnum
  refine ⟨countUpstream_devs reg.devs 0, countUpstream_eq_zero_iff reg.devs 0, hnum, hcount,
    fun j hj => ?_⟩
  have hj0 : j ≠ 0 := by rw [List.mem_range'_1] at hj; omega
  obtain ⟨n, d, hd, hdj, huniq⟩ := countUpstream_position reg.devs hj
  have hrec := saveToAdnaList_devnum_eq hd huniq
  have hmem : (⟨filterOf d.dev, false, j⟩ : AdnaDevice) ∈ adna :=
    mem_saveToAdnaList.2 (.inr ⟨d, List.mem_iff_getElem?.2 ⟨n, hd⟩, hdj ▸ hj0, by rw [hdj]⟩)
  have haddr : (numbered.map fun d => d.dev.address).Nodup := by
    rw [countUpstream_addresses]
    exact reg.addresses_nodup
  refine ⟨_, adnaGetAdnadeviceFromDevnum_eq hmem rfl hrec, rfl, hrec, n, d,
    adnaGetDeviceFromAdnadevice_filterOf haddr hd _ _, hd, mem_show_init hd,
    (slotLabel_eq_some hj0).2 hdj, fun m e _ he hej => huniq m e he ((slotLabel_eq_some hj0).1 hej)⟩

/-- Two cards, each an upstream port followed by its downstream port. -/
def twoCards : Registry where
  devs := [⟨⟨0, 1, 0, 0, 0x1234, 0x5678, 0x0604, true⟩, 0⟩, ⟨⟨0, 2, 0, 0, 0x1234, 0x5679, 0x0604, false⟩, 0⟩,
    ⟨⟨0, 3, 0, 0, 0x1234, 0x5678, 0x0604, true⟩, 0⟩, ⟨⟨0, 4, 0, 0, 0x1234, 0x5679, 0x0604, false⟩, 0⟩]
  addresses_nodup := by decide

theorem selection_finds_shown_device_twoCards :
    let numbered := (countUpstream twoCards.devs 0).1
    let adna := saveToAdnaList numbered []
    numbered.map (·.dev) = twoCards.devs.map (·.dev) ∧
    (∀ d ∈ numbered, d.numDevice = 0 ↔ d.dev.upstream = false) ∧
    (numbered.map (·.numDevice)).filter (· ≠ 0) = List.range' 1 (countUpstream twoCards.devs 0).2 ∧
    (countUpstream twoCards.devs 0).2 = twoCards.devs.countP (·.dev.upstream) ∧
    ∀ j ∈ List.range' 1 (countUpstream twoCards.devs 0).2,
      ∃ a, adnaGetAdnadeviceFromDevnum adna j = some a ∧ a.devnum = j ∧
        (∀ a' ∈ adna, a'.devnum = j → a' = a) ∧
        ∃ n d, adnaGetDeviceFromAdnadevice numbered a = some n ∧ numbered[n]? = some d ∧
          n ∈ «show» pciFilterInit numbered ∧ slotLabel d = some j ∧
          ∀ m e, m ∈ «show» pciFilterInit numbered → numbered[m]? = some e → slotLabel e = some j →
            m = n :=
  selection_finds_shown_device twoCards

/-- On `twoCards`, typing `2` selects the upstream port of the second card, the third device. -/
example : (adnaGetAdnadeviceFromDevnum (saveToAdnaList (countUpstream twoCards.devs 0).1 []) 2).bind
    (adnaGetDeviceFromAdnadevice (countUpstream twoCards.devs 0).1) = some 2 := by
  decide

end Adna
end AdnacomEe
