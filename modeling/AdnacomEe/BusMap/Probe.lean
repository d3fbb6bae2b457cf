import AdnacomEe.BusMap.Table
import AdnacomEe.Tree.Registry

/-!
# `do_map_bus`: probing one bus for functions

In bus-mapping mode `map_the_bus` calls `do_map_bus(bus)` for the bus the filter names, or for
every bus, before `map_bridges` checks the claims. `do_map_bus` tries every device number the
filter's slot allows and, for each, the functions below `func_limit` that the filter's function
allows. `func_limit` starts at `1`, and only the probe of function `0` can raise it: to `8` when
function `0` is present and its header type has the multi-function bit `0x80`. A present function
(vendor neither `0` nor `0xffff`) marks the bus as existing and goes to `scan_device`; a bridge the
scan keeps is recorded with `map_bridge`.

The machine is `BusHw`: the configuration bytes of every function of domain `0`, whether
`scan_device` keeps a function (the vendor and device parts of the global filter; a failed read
is a `die`, not modelled), and the byte each `xmalloc` of a `struct bus_bridge` holds. A ghost log
records each vendor read and each call of `scan_device` (`Probe`).

* `funcLoop_fuel`: the fuel `8` of the function loop is the whole loop.
* `doMapBus_ordered`: every claim `do_map_bus` records runs upward, as `map_bridges` reads them.
* `doMapBus_log`: the probes of a whole call, device number by device number.
* `doMapBus_scans_iff`: with no function in the filter, `do_map_bus` scans exactly the present
  functions `0` of the allowed device numbers, and the present functions `1 .. 7` of those whose
  function `0` is present and multi-function.
* `doMapBus_skips_named_function`: a filter that names a function `f ≥ 1` skips function `0`, so
  `func_limit` stays `1` and the loop ends before `f`: `do_map_bus` reads and scans nothing, on
  every machine, even one where function `f` is there to be found.
-/

namespace AdnacomEe
namespace BusMap

/-- The bus, slot and function of `lspci`'s global `struct pci_filter`; `-1` matches every
value. -/
structure SlotFilter where
  bus : Int
  slot : Int
  func : Int
deriving DecidableEq, Repr

/-- What `do_map_bus` does to one function: the vendor read, and the call of `scan_device`. -/
inductive Probe
  | read (dev func : Nat)
  | scan (dev func : Nat)
deriving DecidableEq, Repr

/-- The machine as `do_map_bus` sees it, by bus, device number and function: the configuration
bytes, whether `scan_device` keeps the function, and the byte the `xmalloc` of its
`struct bus_bridge` holds. -/
structure BusHw where
  space : Nat → Nat → Nat → Nat → UInt8
  keeps : Nat → Nat → Nat → Bool
  junk : Nat → Nat → Nat → Fin 256

/-- `bus_info[bus]`, and (ghost) the probes so far. -/
structure ProbeState where
  info : BusInfo
  log : List Probe

/-- A number stored in a `byte`. -/
def byte (n : Nat) : Fin 256 := ⟨n % 256, Nat.mod_lt _ (by decide)⟩

/-- `pci_read_word(p, PCI_VENDOR_ID)`. -/
def vendorId (hw : BusHw) (bus dev func : Nat) : Nat :=
  (hw.space bus dev func 0).toNat + (hw.space bus dev func 1).toNat * 256

/-- `vendor && vendor != 0xffff`. -/
def present (hw : BusHw) (bus dev func : Nat) : Bool :=
  vendorId hw bus dev func != 0 && vendorId hw bus dev func != 0xffff

/-- `pci_read_byte(p, PCI_HEADER_TYPE) & 0x80`. -/
def headerMulti (H : Tree.PciH) (hw : BusHw) (bus dev func : Nat) : Bool :=
  (hw.space bus dev func H.headerType).toNat &&& 0x80 != 0

/-- The `switch` on the header type of a kept function: `map_bridge` with the bus numbers of a
bridge or of a CardBus header. -/
def mapFunction (H : Tree.PciH) (hw : BusHw) (bus dev func : Nat) (bi : BusInfo) : BusInfo :=
  let cfg := hw.space bus dev func
  let claim (np ns nl : Nat) :=
    mapBridge bi (byte (cfg np).toNat) (byte dev) (byte func) (byte (cfg ns).toNat)
      (byte (cfg nl).toNat) (hw.junk bus dev func)
  let ht := (cfg H.headerType).toNat &&& 0x7f
  if ht = H.headerTypeBridge then claim H.primaryBus H.secondaryBus H.subordinateBus
  else if ht = H.headerTypeCardbus then claim H.cbPrimaryBus H.cbCardBus H.cbSubordinateBus
  else bi

/-- One function of the inner loop of `do_map_bus` that the filter lets through: the vendor read,
the multi-function test of function `0`, and for a present function `bi->exists = 1`,
`scan_device` and `map_bridge`. Returns the new `func_limit`. -/
def probeFunc (H : Tree.PciH) (hw : BusHw) (bus dev func funcLimit : Nat) (s : ProbeState) :
    Nat × ProbeState :=
  let s := { s with log := s.log ++ [.read dev func] }
  if present hw bus dev func then
    let bi := { s.info with «exists» := true }
    (if func = 0 ∧ headerMulti H hw bus dev func then 8 else funcLimit,
      ⟨if hw.keeps bus dev func then mapFunction H hw bus dev func bi else bi,
        s.log ++ [.scan dev func]⟩)
  else (funcLimit, s)

/-- `for (func = 0; func < func_limit; func++) if (filter.func < 0 || filter.func == func) ...`
from `func`, with `fuel` iterations left; `func_limit` never passes `8`, so `8` is enough. -/
def funcLoop (H : Tree.PciH) (hw : BusHw) (flt : SlotFilter) (bus dev : Nat) :
    Nat → Nat → Nat → ProbeState → ProbeState
  | 0, _, _, s => s
  | fuel + 1, func, funcLimit, s =>
    if func < funcLimit then
      if flt.func < 0 ∨ flt.func = (func : Int) then
        let r := probeFunc H hw bus dev func funcLimit s
        funcLoop H hw flt bus dev fuel (func + 1) r.1 r.2
      else funcLoop H hw flt bus dev fuel (func + 1) funcLimit s
    else s

/-- **`do_map_bus(bus)`**: the function loop of every device number the filter's slot allows. -/
def doMapBus (H : Tree.PciH) (hw : BusHw) (flt : SlotFilter) (bus : Nat) (s : ProbeState) :
    ProbeState :=
  (List.range 32).foldl (fun s (dev : Nat) =>
    if flt.slot < 0 ∨ flt.slot = (dev : Int) then funcLoop H hw flt bus dev 8 0 1 s else s) s

/-! ### What a call probes -/

/-- The probes of one function the filter lets through. -/
def probeLog (hw : BusHw) (bus dev func : Nat) : List Probe :=
  .read dev func :: if present hw bus dev func then [.scan dev func] else []

theorem probeFunc_log (H : Tree.PciH) (hw : BusHw) (bus dev func funcLimit : Nat)
    (s : ProbeState) :
    (probeFunc H hw bus dev func funcLimit s).2.log = s.log ++ probeLog hw bus dev func := by
  unfold probeFunc probeLog
  split_ifs <;> simp

theorem probeFunc_limit (H : Tree.PciH) (hw : BusHw) (bus dev func funcLimit : Nat)
    (s : ProbeState) :
    (probeFunc H hw bus dev func funcLimit s).1 =
      if present hw bus dev func ∧ func = 0 ∧ headerMulti H hw bus dev func then 8 else funcLimit := by
  unfold probeFunc
  by_cases hp : present hw bus dev func <;> simp [hp]

/-- The probes of one device number with no function filter: function `0`, then functions
`1 .. 7` when function `0` is present and multi-function. -/
def devProbes (H : Tree.PciH) (hw : BusHw) (bus dev : Nat) : List Probe :=
  probeLog hw bus dev 0 ++
    if present hw bus dev 0 ∧ headerMulti H hw bus dev 0 then
      (List.range' 1 7).flatMap (probeLog hw bus dev)
    else []

/-- **Fuel `8` is the whole loop**: `func_limit` never passes `8`, so from `func` with
`func + fuel ≥ 8` more fuel changes nothing. -/
theorem funcLoop_fuel (H : Tree.PciH) (hw : BusHw) (flt : SlotFilter) (bus dev extra : Nat) :
    ∀ (fuel func funcLimit : Nat) (s : ProbeState), 8 ≤ func + fuel → funcLimit ≤ 8 →
      funcLoop H hw flt bus dev (fuel + extra) func funcLimit s =
        funcLoop H hw flt bus dev fuel func funcLimit s
  | 0, func, funcLimit, s, hf, hl => by
    cases extra with
    | zero => rfl
    | succ extra =>
      rw [Nat.zero_add]
      show funcLoop H hw flt bus dev (extra + 1) func funcLimit s = s
      rw [funcLoop, if_neg (by omega)]
  | fuel + 1, func, funcLimit, s, hf, hl => by
    have hlim : (probeFunc H hw bus dev func funcLimit s).1 ≤ 8 := by
      rw [probeFunc_limit]; split_ifs <;> omega
    rw [Nat.add_right_comm, funcLoop, funcLoop]
    split_ifs
    · exact funcLoop_fuel H hw flt bus dev extra fuel _ _ _ (by omega) hlim
    · exact funcLoop_fuel H hw flt bus dev extra fuel _ _ _ (by omega) hl
    · rfl

section Wildcard

variable (H : Tree.PciH) (hw : BusHw) {flt : SlotFilter} (bus dev : Nat)

/-- With `func_limit` at `8` and no function filter, the loop probes every function from `func`
to `7`. -/
theorem funcLoop_all (hf : flt.func < 0) : ∀ (fuel func : Nat) (s : ProbeState), func + fuel = 8 →
    (funcLoop H hw flt bus dev fuel func 8 s).log =
      s.log ++ (List.range' func fuel).flatMap (probeLog hw bus dev)
  | 0, _, s, _ => by simp [funcLoop]
  | fuel + 1, func, s, h => by
    have hlim : (probeFunc H hw bus dev func 8 s).1 = 8 := by
      rw [probeFunc_limit]; split_ifs <;> rfl
    rw [funcLoop, if_pos (by omega), if_pos (.inl hf)]
    dsimp only
    rw [hlim, funcLoop_all hf fuel (func + 1) _ (by omega), probeFunc_log, List.range'_succ,
      List.flatMap_cons, List.append_assoc]

/-- **The function loop of one device number**, with no function filter. -/
theorem funcLoop_wildcard (hf : flt.func < 0) (s : ProbeState) :
    (funcLoop H hw flt bus dev 8 0 1 s).log = s.log ++ devProbes H hw bus dev := by
  rw [funcLoop, if_pos Nat.one_pos, if_pos (.inl hf), devProbes, ← List.append_assoc]
  dsimp only
  have hlim := probeFunc_limit H hw bus dev 0 1 s
  by_cases hm : present hw bus dev 0 = true ∧ headerMulti H hw bus dev 0 = true
  · rw [if_pos ⟨hm.1, rfl, hm.2⟩] at hlim
    rw [if_pos hm, hlim, funcLoop_all H hw bus dev hf 7 1 _ rfl, probeFunc_log]
  · rw [if_neg fun h => hm ⟨h.1, h.2.2⟩] at hlim
    rw [if_neg hm, hlim, funcLoop, if_neg (Nat.lt_irrefl 1), probeFunc_log, List.append_nil]

/-- **The probes of `do_map_bus`** with no function filter, device number by device number. -/
theorem doMapBus_log (hf : flt.func < 0) (s : ProbeState) :
    (doMapBus H hw flt bus s).log = s.log ++ (List.range 32).flatMap fun dev =>
      if flt.slot < 0 ∨ flt.slot = dev then devProbes H hw bus dev else [] := by
  unfold doMapBus
  generalize List.range 32 = devs
  induction devs generalizing s with
  | nil => simp
  | cons dev devs ih =>
    rw [List.foldl_cons, ih, List.flatMap_cons, ← List.append_assoc]
    congr 1
    split_ifs
    · exact funcLoop_wildcard H hw bus dev hf s
    · exact (List.append_nil _).symm

theorem scan_mem_probeLog {d func f : Nat} :
    Probe.scan d f ∈ probeLog hw bus dev func ↔ d = dev ∧ f = func ∧ present hw bus dev func = true := by
  unfold probeLog
  by_cases h : present hw bus dev func <;> simp [h]

theorem scan_mem_devProbes {d f : Nat} :
    Probe.scan d f ∈ devProbes H hw bus dev ↔ d = dev ∧ present hw bus dev f = true ∧
      (f = 0 ∨ 1 ≤ f ∧ f < 8 ∧ present hw bus dev 0 = true ∧ headerMulti H hw bus dev 0 = true) := by
  rw [devProbes, List.mem_append, scan_mem_probeLog]
  by_cases hm : present hw bus dev 0 = true ∧ headerMulti H hw bus dev 0 = true
  · rw [if_pos hm, List.mem_flatMap]
    simp only [scan_mem_probeLog, List.mem_range'_1]
    constructor
    · rintro (⟨rfl, rfl, hp⟩ | ⟨k, hk, rfl, rfl, hp⟩)
      · exact ⟨rfl, hp, .inl rfl⟩
      · exact ⟨rfl, hp, .inr ⟨hk.1, by omega, hm⟩⟩
    · rintro ⟨rfl, hp, rfl | ⟨h1, h8, -⟩⟩
      · exact .inl ⟨rfl, rfl, hp⟩
      · exact .inr ⟨f, ⟨h1, by omega⟩, rfl, rfl, hp⟩
  · rw [if_neg hm, List.mem_nil_iff, or_false]
    constructor
    · rintro ⟨rfl, rfl, hp⟩
      exact ⟨rfl, hp, .inl rfl⟩
    · rintro ⟨rfl, hp, rfl | ⟨-, -, hm'⟩⟩
      · exact ⟨rfl, rfl, hp⟩
      · exact absurd hm' hm

/-- **What `do_map_bus` scans** with no function filter: the present functions `0` of the device
numbers the slot filter allows, and the present functions `1 .. 7` of those whose function `0`
is present and multi-function. -/
theorem doMapBus_scans_iff (hf : flt.func < 0) (s : ProbeState) (func : Nat) :
    Probe.scan dev func ∈ (doMapBus H hw flt bus s).log ↔ Probe.scan dev func ∈ s.log ∨
      dev < 32 ∧ (flt.slot < 0 ∨ flt.slot = dev) ∧ present hw bus dev func = true ∧
        (func = 0 ∨ 1 ≤ func ∧ func < 8 ∧ present hw bus dev 0 = true ∧
          headerMulti H hw bus dev 0 = true) := by
  rw [doMapBus_log H hw bus hf, List.mem_append, List.mem_flatMap]
  refine or_congr Iff.rfl ⟨fun ⟨d, hd, hm⟩ => ?_, fun ⟨hd, hs, hm⟩ => ⟨dev, List.mem_range.2 hd, ?_⟩⟩
  · split_ifs at hm with hs
    · obtain ⟨rfl, hm⟩ := (scan_mem_devProbes H hw bus d).1 hm
      exact ⟨List.mem_range.1 hd, hs, hm⟩
    · cases hm
  · rw [if_pos hs]
    exact (scan_mem_devProbes H hw bus dev).2 ⟨rfl, hm⟩

end Wildcard

/-! ### The claims it records -/

/-- Every claim of a bus runs from its first bus up to its last. -/
def ClaimsOrdered (bi : BusInfo) : Prop := ∀ b ∈ bi.bridges, b.first ≤ b.last

theorem mapFunction_ordered (H : Tree.PciH) (hw : BusHw) (bus dev func : Nat) {bi : BusInfo}
    (h : ClaimsOrdered bi) : ClaimsOrdered (mapFunction H hw bus dev func bi) := by
  unfold mapFunction
  dsimp only
  split_ifs
  all_goals first
    | exact h
    | exact fun b hb => (mapBridge_first_le_last _ _ _ _ _ _ _ b hb).elim (h b) id

theorem probeFunc_ordered (H : Tree.PciH) (hw : BusHw) (bus dev func funcLimit : Nat)
    {s : ProbeState} (h : ClaimsOrdered s.info) :
    ClaimsOrdered (probeFunc H hw bus dev func funcLimit s).2.info := by
  unfold probeFunc
  split_ifs <;> first | exact mapFunction_ordered H hw bus dev func h | exact h

/-- **`do_map_bus` records ordered claims**: `map_bridge` clamps an inverted range, so every
claim on the bus runs upward after the call if it did before. -/
theorem doMapBus_ordered (H : Tree.PciH) (hw : BusHw) (flt : SlotFilter) (bus : Nat)
    {s : ProbeState} (h : ClaimsOrdered s.info) : ClaimsOrdered (doMapBus H hw flt bus s).info := by
  have hloop : ∀ dev fuel func funcLimit (s : ProbeState), ClaimsOrdered s.info →
      ClaimsOrdered (funcLoop H hw flt bus dev fuel func funcLimit s).info := by
    intro dev fuel
    induction fuel with
    | zero => exact fun _ _ _ h => h
    | succ fuel ih =>
      intro func funcLimit s h
      rw [funcLoop]
      split_ifs
      · exact ih _ _ _ (probeFunc_ordered H hw bus dev func funcLimit h)
      · exact ih _ _ _ h
      · exact h
  unfold doMapBus
  induction List.range 32 generalizing s with
  | nil => exact h
  | cons dev devs ih =>
    rw [List.foldl_cons]
    refine ih ?_
    split_ifs
    · exact hloop dev 8 0 1 s h
    · exact h

/-! ### A filter that names a function -/

/-- With a filter that names a function `f + 1`, the function loop skips function `0`, so
`func_limit` stays `1` and the loop stops at function `1`. -/
theorem funcLoop_named_function (H : Tree.PciH) (hw : BusHw) (bus slot : Int) (f b dev : Nat) :
    ∀ (fuel : Nat) (s : ProbeState), funcLoop H hw ⟨bus, slot, (f : Int) + 1⟩ b dev fuel 0 1 s = s
  | 0, _ => rfl
  | fuel + 1, s => by
    rw [funcLoop, if_pos Nat.one_pos,
      if_neg (show ¬((f : Int) + 1 < 0 ∨ (f : Int) + 1 = ((0 : Nat) : Int)) by omega)]
    cases fuel with
    | zero => rfl
    | succ fuel => rw [funcLoop, if_neg (Nat.lt_irrefl 1)]

/-- Functions `0` and `1` of `00:00`, both present, function `0` multi-function; every other
function reads as absent (`0xff`). -/
def multiFunctionHw : BusHw where
  space bus dev func off :=
    if bus = 0 ∧ dev = 0 ∧ func ≤ 1 then
      if off = 0 then 0x86 else if off = 1 then 0x80 else if off = 0x0e ∧ func = 0 then 0x80 else 0
    else 0xff
  keeps _ _ _ := true
  junk _ _ _ := 0

/-- **A filter that names a function `f ≥ 1` finds nothing.** For every machine, bus and slot
filter, `do_map_bus` with the filter's function `f + 1` reads no function and scans none: the
state is left as it was. On `multiFunctionHw`, where function `1` of `00:00` is present behind a
multi-function function `0`, the same call without a function filter scans it. -/
theorem doMapBus_skips_named_function :
    (∀ (H : Tree.PciH) (hw : BusHw) (bus slot : Int) (f b : Nat) (s : ProbeState),
      doMapBus H hw ⟨bus, slot, (f : Int) + 1⟩ b s = s) ∧
    Probe.scan 0 1 ∈
      (doMapBus Tree.pciH multiFunctionHw ⟨-1, -1, -1⟩ 0 ⟨⟨false, false, [], none⟩, []⟩).log := by
  refine ⟨fun H hw bus slot f b s => List.foldl_fixed' (fun dev => ?_) _, ?_⟩
  · split_ifs
    · exact funcLoop_named_function H hw bus slot f b dev 8 s
    · rfl
  · refine (doMapBus_scans_iff _ _ 0 0 (by decide) _ 1).2 (.inr ⟨by decide, .inl (by decide), ?_⟩)
    exact ⟨by decide, .inr ⟨le_rfl, by decide, by decide, by decide⟩⟩

end BusMap
end AdnacomEe
