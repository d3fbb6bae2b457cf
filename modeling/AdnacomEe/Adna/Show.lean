import AdnacomEe.Basic

/-!
# The device listing of `part_000`: slot labels and region sizes

Before it asks which device to work on, the tool lists the Adnacom devices of the registry with
`show()`: `show_verbose` of every device of `first_dev` that the global filter matches. Each entry
starts with `show_terse`'s slot name, whose label `[n]` is the device's `NumDevice` when it is not
`0`; the user answers with such an `n`. Further down, `show_bases` prints each region's size with
`show_size`.

`pci_filter_match`, `pci_filter_init` and the `pci_dev` fields they read come from libpci, which
is not among the sources; a filter field of `-1` matches every device, any other value only its
own (`PciFilter`, `pciFilterMatch`). `part_000` calls `pci_filter_init` on the global filter and
never sets it afterwards.

`show_size(x)` divides the 64-bit size by `1024` while the division is exact, at most four times,
and prints `(unsigned)x` with the suffix of the number of divisions. The loop is exact
(`sizeLoop_spec`), but the cast keeps the low 32 bits of the quotient:

* `sizeFields_mul`: the printed number times the unit is the size modulo `2 ^ 32` units, and
  `sizeFields_exact`: the size itself below `4 GiB`;
* `showSize_truncates`: a size of `2 ^ 32 + 1` bytes is printed as `[size=1]`.
-/

namespace AdnacomEe
namespace Adna

/-- The fields of libpci's `struct pci_dev` the listing and the selection read. `upstream` is what
`pci_is_upstream` answers for it: whether the port type in its PCI Express capability is an
upstream port. -/
structure PciDev where
  domain : Nat
  bus : Nat
  dev : Nat
  func : Nat
  vendorId : Nat
  deviceId : Nat
  deviceClass : Nat
  upstream : Bool
deriving DecidableEq, Repr

/-- `struct device` of `part_000`, as far as the listing goes: its `pci_dev` and `NumDevice`. -/
structure Device where
  dev : PciDev
  numDevice : Nat
deriving DecidableEq, Repr

/-- The address of a device: `(domain, bus, dev, func)`. -/
def PciDev.address (p : PciDev) : Nat × Nat × Nat × Nat := (p.domain, p.bus, p.dev, p.func)

/-! ### Filters -/

/-- libpci's `struct pci_filter`, over the fields the tool sets or reads; `none` is `-1`. -/
structure PciFilter where
  domain : Option Nat
  bus : Option Nat
  slot : Option Nat
  func : Option Nat
  vendor : Option Nat
  device : Option Nat
  deviceClass : Option Nat
deriving DecidableEq, Repr

/-- One field of a filter: `-1` matches anything. -/
def fieldMatch : Option Nat → Nat → Bool
  | none, _ => true
  | some v, x => v == x

/-- **`pci_filter_match(f, p)`**: every field of `f` that is set holds `p`'s value. -/
def pciFilterMatch (f : PciFilter) (p : PciDev) : Bool :=
  fieldMatch f.domain p.domain && fieldMatch f.bus p.bus && fieldMatch f.slot p.dev &&
    fieldMatch f.func p.func && fieldMatch f.vendor p.vendorId && fieldMatch f.device p.deviceId &&
    fieldMatch f.deviceClass p.deviceClass

/-- `pci_filter_init`: every field `-1`. -/
def pciFilterInit : PciFilter := ⟨none, none, none, none, none, none, none⟩

@[simp] theorem pciFilterMatch_init (p : PciDev) : pciFilterMatch pciFilterInit p = true := rfl

/-! ### The listing -/

/-- The label `show_slot_path` prints: `[NumDevice]` when it is not `0`. -/
def slotLabel (d : Device) : Option Nat := if d.numDevice = 0 then none else some d.numDevice

theorem slotLabel_eq_some {d : Device} {j : Nat} (hj : j ≠ 0) :
    slotLabel d = some j ↔ d.numDevice = j := by
  unfold slotLabel
  split_ifs with h <;> simp [h, hj]
  omega

/-- **`show_slot_path(d)`**, with `opt_path`, which `part_000` never sets, at `0`: the label and a
tab, or a tab alone, then `%02x:%02x.%d` of the bus, the device and the function. -/
def showSlotPath (d : Device) : String :=
  (match slotLabel d with
    | some n => "[" ++ toString n ++ "]\t"
    | none => "\t") ++
  hexPad 2 d.dev.bus ++ ":" ++ hexPad 2 d.dev.dev ++ "." ++ toString d.dev.func

/-- **`show_slot_name(d)`**: `%04x:` of the domain first under `opt_domains` (`opt_machine` is
never set). -/
def showSlotName (optDomains : Bool) (d : Device) : String :=
  (if optDomains then hexPad 4 d.dev.domain ++ ":" else "") ++ showSlotPath d

example : showSlotPath ⟨⟨0, 3, 0, 0, 0x1234, 0x5678, 0x0604, true⟩, 2⟩ = "[2]\t03:00.0" := by
  decide

/-- **`show()`**: the devices of `first_dev`, by position, that the global filter matches, in
list order; `show_verbose` prints the slot line of each (`showSlotName`). -/
def «show» (filter : PciFilter) (reg : List Device) : List Nat :=
  ((List.range reg.length).filter fun n => (reg[n]?.map fun d => pciFilterMatch filter d.dev) == some true)

/-- Under the filter `pci_filter_init` leaves, `show()` lists every device. -/
theorem show_init (reg : List Device) : «show» pciFilterInit reg = List.range reg.length := by
  refine List.filter_eq_self.2 fun n hn => ?_
  rw [List.getElem?_eq_getElem (List.mem_range.1 hn)]
  rfl

/-! ### `show_size` -/

/-- The loop of **`show_size`**, with `n` divisions left and the count `i` so far: it stops at the
first `x` that `1024` does not divide. -/
def sizeLoop : Nat → UInt64 → Nat → UInt64 × Nat
  | 0, x, i => (x, i)
  | n + 1, x, i => if x % 1024 ≠ 0 then (x, i) else sizeLoop n (x / 1024) (i + 1)

/-- `suffix[]` of `show_size`. -/
def sizeSuffix : List String := ["", "K", "M", "G", "T"]

/-- What `show_size` hands to `printf`: `(unsigned)x` after the loop, and the index of the
suffix. The loop runs at most `sizeof(suffix) / sizeof(*suffix) - 1 = 4` times. -/
def sizeFields (x : UInt64) : UInt32 × Nat :=
  let r := sizeLoop (sizeSuffix.length - 1) x 0
  (r.1.toUInt32, r.2)

/-- **`show_size(x)`**: nothing for `0`, else `" [size=%u%s]"`. -/
def showSize (x : UInt64) : String :=
  if x = 0 then ""
  else " [size=" ++ toString (sizeFields x).1.toNat ++ sizeSuffix.getD (sizeFields x).2 "" ++ "]"

example : showSize 0x300000 = " [size=3M]" := by decide

/-- **The loop is exact**: it divides by `1024` only while the division is exact, so the value
times `1024` to the count is the same before and after; it divides at most `n` times and stops
early only at an `x` that `1024` does not divide. -/
theorem sizeLoop_spec : ∀ (n : Nat) (x : UInt64) (i : Nat),
    x.toNat * 1024 ^ i = (sizeLoop n x i).1.toNat * 1024 ^ (sizeLoop n x i).2 ∧
      i ≤ (sizeLoop n x i).2 ∧ (sizeLoop n x i).2 ≤ i + n ∧
      ((sizeLoop n x i).2 < i + n → (sizeLoop n x i).1.toNat % 1024 ≠ 0)
  | 0, x, i => by simp [sizeLoop]
  | n + 1, x, i => by
    have hmod : (x % 1024).toNat = x.toNat % 1024 := UInt64.toNat_mod x 1024
    rw [sizeLoop]
    split_ifs with h
    · have : x.toNat % 1024 ≠ 0 := fun h' => h (UInt64.toNat.inj (by rw [hmod, h']; rfl))
      simp [this]
    · obtain ⟨ih₁, ih₂, ih₃, ih₄⟩ := sizeLoop_spec n (x / 1024) (i + 1)
      have hx : x.toNat % 1024 = 0 := by rw [← hmod]; exact congrArg UInt64.toNat (not_not.1 h)
      have hdiv : (x / 1024).toNat = x.toNat / 1024 := UInt64.toNat_div x 1024
      refine ⟨?_, by omega, by omega, fun hlt => ih₄ (by omega)⟩
      rw [← ih₁, hdiv, Nat.pow_succ, Nat.mul_comm (1024 ^ i), ← Nat.mul_assoc,
        Nat.div_mul_cancel (Nat.dvd_of_mod_eq_zero hx)]

/-- **What `show_size` prints, as a size**: the printed number times the unit is the size modulo
`2 ^ 32` units. It is the size exactly when the quotient fits in 32 bits. -/
theorem sizeFields_mul (x : UInt64) :
    (sizeFields x).1.toNat * 1024 ^ (sizeFields x).2 =
      x.toNat % (2 ^ 32 * 1024 ^ (sizeFields x).2) ∧ (sizeFields x).2 ≤ 4 := by
  obtain ⟨h₁, -, h₃, -⟩ := sizeLoop_spec (sizeSuffix.length - 1) x 0
  refine ⟨?_, h₃⟩
  have hcast : ∀ y : UInt64, y.toUInt32.toNat = y.toNat % 2 ^ 32 := fun y => UInt32.toNat_ofNat' _
  simp only [sizeFields, hcast, Nat.pow_zero, Nat.mul_one] at h₁ ⊢
  rw [h₁, Nat.mul_mod_mul_right]

/-- Every size below `4 GiB` is printed exactly. -/
theorem sizeFields_exact {x : UInt64} (hx : x.toNat < 2 ^ 32) :
    (sizeFields x).1.toNat * 1024 ^ (sizeFields x).2 = x.toNat := by
  rw [(sizeFields_mul x).1, Nat.mod_eq_of_lt]
  calc x.toNat < 2 ^ 32 := hx
    _ ≤ 2 ^ 32 * 1024 ^ (sizeFields x).2 := Nat.le_mul_of_pos_right _ (Nat.pow_pos (by decide))

/-- **A size `show_size` prints wrong.** `2 ^ 32 + 1 = 4294967297` bytes is not a multiple of
`1024`, and the cast to `unsigned` keeps `1` of it: the line reads `[size=1]`. -/
theorem showSize_truncates :
    sizeFields 4294967297 = (1, 0) ∧ showSize 4294967297 = " [size=1]" ∧
    ∀ x : UInt64, (sizeFields x).1.toNat * 1024 ^ (sizeFields x).2 =
      x.toNat % (2 ^ 32 * 1024 ^ (sizeFields x).2) :=
  ⟨by decide, by decide, fun x => (sizeFields_mul x).1⟩

end Adna
end AdnacomEe
