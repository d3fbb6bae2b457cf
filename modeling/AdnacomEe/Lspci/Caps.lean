import Mathlib.Data.Fintype.Card
import AdnacomEe.Config.Fetch

/-!
# `lspci.c`'s configuration array: the capability walk and the hex dump

`lspci.c` keeps each device's configuration bytes in a fixed `byte config[256]` with a count
`config_cnt` (64, or 128 for a CardBus bridge) of the bytes `scan_device` read. Its
`config_fetch(d, pos, len)` returns `1` when `pos + len < config_cnt`, and otherwise asks
`pci_read_block` to fill `config + pos` with `len` bytes; it never changes `config_cnt` and never
compares with the size of the array. `get_conf_byte`, `get_conf_word` and `get_conf_long` index
the array directly.

`config` is modelled at every index: past `255` it is the memory after the array, and a ghost log
records every index `get_conf_*` reads and every range `pci_read_block` is asked to fill
(`Access`), so that the bounds of the array are statements about the log (`InBounds`). The device
is a fixed configuration space, `Hw.space`, with `Hw.ok` saying which reads succeed; what a failed
read leaves in the range is not modelled, since every caller returns on a failure without reading
it (only `show_ht_*` ignores the result, and it is among the printers left as a parameter).

`show_caps` follows the capability list from `PCI_CAPABILITY_LIST`, with no record of the offsets
it has visited, until a zero pointer, a failed fetch or the id `0xff`. The printers of power
management and AGP are modelled by their accesses; those of the other capabilities are a parameter
`others`, any change of the state, and the results hold for every choice of it.

* `showCaps_loops_on_self_pointer`: a capability whose `next` points to itself, on a device whose
  reads succeed, keeps `show_caps` going for every amount of fuel.
* `showCaps_ends_within_64`: with printers that keep the device's bytes, a walk that ends at all
  ends within 64 capabilities; the loop above is the only way `show_caps` fails to end.
* `configArray_overrun`: under `-xxxx` the hex dump asks `pci_read_block` for `[256, 4096)` and reads
  every index below `4096`; under `-vv` a power-management capability at `0xfc` is fetched and read
  at `0x100` and past it.
* `showCaps_inBounds`: without `-vv`, or with every power-management and AGP capability's
  registers inside the array, a run of `show_caps` that returns stays inside `config[256]`.
-/

namespace AdnacomEe
namespace Lspci

/-- The `header.h` offsets and values the capability walk and the hex dump use. -/
structure CapH where
  headerType : Nat
  headerTypeCardbus : Nat
  status : Nat
  statusCapList : Nat
  capabilityList : Nat
  capListId : Nat
  capListNext : Nat
  capFlags : Nat
  capIdPm : Nat
  capIdAgp : Nat
  capIdVpd : Nat
  pmCtrl : Nat
  pmPpbExtensions : Nat
  pmSizeof : Nat
  agpStatus : Nat
  agpCommand : Nat
  agpSizeof : Nat

/-- The values of `header.h`. -/
def capH : CapH := ⟨0x0e, 2, 0x06, 0x10, 0x34, 0, 1, 2, 1, 2, 3, 4, 6, 8, 4, 8, 12⟩

/-- `struct device` of `lspci.c`: `config_cnt` and `byte config[256]`. -/
structure LDev where
  configCnt : Nat
  config : Nat → UInt8

/-- A configuration access: a byte `get_conf_*` reads, or a range `pci_read_block` is asked to
fill. -/
inductive Access
  | read (i : Nat)
  | fill (pos len : Nat)
deriving DecidableEq, Repr

/-- The device, and (ghost) the accesses made so far. -/
structure LState where
  dev : LDev
  log : List Access

/-- The device's configuration space as `pci_read_block` sees it: its bytes, and whether a read
of `len` bytes at `pos` succeeds. -/
structure Hw where
  space : Nat → UInt8
  ok : Nat → Nat → Bool

/-- Every access stays inside `config[256]`. -/
def InBounds (log : List Access) : Prop :=
  ∀ a ∈ log, match a with
    | .read i => i < 256
    | .fill pos len => pos + len ≤ 256

/-! ### `config_fetch` and `get_conf_*` -/

/-- **`config_fetch(d, pos, len)`** of `lspci.c`. -/
def configFetch (hw : Hw) (s : LState) (pos len : Nat) : Bool × LState :=
  if pos + len < s.dev.configCnt then (true, s)
  else (hw.ok pos len,
    { dev := if hw.ok pos len then { s.dev with config := Config.fill s.dev.config pos len hw.space }
        else s.dev
      log := s.log ++ [.fill pos len] })

/-- `get_conf_byte(d, pos)`: `d->config[pos]`. -/
def getConfByte (s : LState) (pos : Nat) : UInt8 × LState :=
  (s.dev.config pos, { s with log := s.log ++ [.read pos] })

/-- `get_conf_word(d, pos)`: `d->config[pos] | (d->config[pos+1] << 8)`. -/
def getConfWord (s : LState) (pos : Nat) : UInt16 × LState :=
  let (b₀, s) := getConfByte s pos
  let (b₁, s) := getConfByte s (pos + 1)
  (b₀.toUInt16 ||| (b₁.toUInt16 <<< 8), s)

/-- `get_conf_long(d, pos)`: the four bytes at `pos`, little-endian. -/
def getConfLong (s : LState) (pos : Nat) : UInt32 × LState :=
  let (w₀, s) := getConfWord s pos
  let (w₁, s) := getConfWord s (pos + 2)
  (w₀.toUInt32 ||| (w₁.toUInt32 <<< 16), s)

@[simp] theorem configFetch_configCnt (hw : Hw) (s : LState) (pos len : Nat) :
    (configFetch hw s pos len).2.dev.configCnt = s.dev.configCnt := by
  unfold configFetch; split_ifs <;> rfl

@[simp] theorem getConfByte_dev (s : LState) (pos : Nat) : (getConfByte s pos).2.dev = s.dev := rfl

@[simp] theorem getConfWord_dev (s : LState) (pos : Nat) : (getConfWord s pos).2.dev = s.dev := rfl

@[simp] theorem getConfLong_dev (s : LState) (pos : Nat) : (getConfLong s pos).2.dev = s.dev := rfl

@[simp] theorem getConfByte_log (s : LState) (pos : Nat) :
    (getConfByte s pos).2.log = s.log ++ [.read pos] := rfl

@[simp] theorem getConfWord_log (s : LState) (pos : Nat) :
    (getConfWord s pos).2.log = s.log ++ [.read pos, .read (pos + 1)] := by
  simp [getConfWord]

/-- **`scan_device`** for the configuration array: `config_cnt = 64` and the first 64 bytes read
(over the zeros of `bzero`), then 64 more for a CardBus bridge; `none` is the `die` of a failed
read. -/
def scanDevice (H : CapH) (hw : Hw) : Option LDev :=
  if !hw.ok 0 64 then none
  else if (hw.space H.headerType).toNat &&& 0x7f = H.headerTypeCardbus then
    if !hw.ok 64 64 then none else some ⟨128, Config.fill (fun _ => 0) 0 128 hw.space⟩
  else some ⟨64, Config.fill (fun _ => 0) 0 64 hw.space⟩

/-! ### The capability walk -/

/-- `show_pm(d, where, cap)`: under `-vv`, the control register and the bridge extension byte. -/
def showPm (H : CapH) (hw : Hw) (verbose «where» : Nat) (s : LState) : LState :=
  if verbose < 2 then s
  else
    let (ok, s) := configFetch hw s («where» + H.pmCtrl) (H.pmSizeof - H.pmCtrl)
    if !ok then s
    else (getConfByte (getConfWord s («where» + H.pmCtrl)).2 («where» + H.pmPpbExtensions)).2

/-- `show_agp(d, where, cap)`: under `-vv`, the status and command registers. -/
def showAgp (H : CapH) (hw : Hw) (verbose «where» : Nat) (s : LState) : LState :=
  if verbose < 2 then s
  else
    let (ok, s) := configFetch hw s («where» + H.agpStatus) (H.agpSizeof - H.agpStatus)
    if !ok then s
    else (getConfLong (getConfLong s («where» + H.agpStatus)).2 («where» + H.agpCommand)).2

/-- The loop of **`show_caps`** from the capability at `where`, with at most `fuel` iterations;
`none` when they run out. `others id where cap` is the printer of a capability whose id is not
power management, AGP or VPD. -/
def capsLoop (H : CapH) (hw : Hw) (verbose : Nat) (others : Nat → Nat → UInt16 → LState → LState) :
    Nat → Nat → LState → Option LState
  | 0, _, _ => none
  | fuel + 1, «where», s =>
    if «where» = 0 then some s
    else
      let (ok, s) := configFetch hw s «where» 4
      if !ok then some s
      else
        let (id, s) := getConfByte s («where» + H.capListId)
        let (next, s) := getConfByte s («where» + H.capListNext)
        let (cap, s) := getConfWord s («where» + H.capFlags)
        if id.toNat = 0xff then some s
        else
          let s := if id.toNat = H.capIdPm then showPm H hw verbose «where» s
            else if id.toNat = H.capIdAgp then showAgp H hw verbose «where» s
            else if id.toNat = H.capIdVpd then s
            else others id.toNat «where» cap s
          capsLoop H hw verbose others fuel (next &&& 0xfc).toNat s

/-- **`show_caps(d)`**: if the status register has `PCI_STATUS_CAP_LIST`, the walk from
`PCI_CAPABILITY_LIST & ~3`. -/
def showCaps (H : CapH) (hw : Hw) (verbose : Nat) (others : Nat → Nat → UInt16 → LState → LState)
    (fuel : Nat) (s : LState) : Option LState :=
  let (status, s) := getConfWord s H.status
  if status.toNat &&& H.statusCapList = 0 then some s
  else
    let (p, s) := getConfByte s H.capabilityList
    capsLoop H hw verbose others fuel (p &&& 0xfc).toNat s

/-! ### The hex dump -/

/-- `for (i = 0; i < cnt; i++) get_conf_byte(d, i)` from `i`, for `n` more bytes. -/
def dumpBytes : Nat → Nat → LState → LState
  | 0, _, s => s
  | n + 1, i, s => dumpBytes n (i + 1) (getConfByte s i).2

/-- **`show_hex_dump(d)`** with `show_hex` counting the `-x` flags: the bytes up to `config_cnt`;
under `-xxx` the header fetched to `256`; under `-xxxx` then the extended space fetched to
`4096`. -/
def showHexDump (hw : Hw) (showHex : Nat) (s : LState) : LState :=
  let cnt := s.dev.configCnt
  let r : Nat × LState :=
    if showHex ≥ 3 then
      match configFetch hw s cnt (256 - cnt) with
      | (true, s) =>
        if showHex ≥ 4 then
          match configFetch hw s 256 (4096 - 256) with
          | (true, s) => (4096, s)
          | (false, s) => (256, s)
        else (256, s)
      | (false, s) => (cnt, s)
    else (cnt, s)
  dumpBytes r.1 0 r.2

/-! ### A capability list that loops -/

/-- A header whose capability list starts at `0x40` with a VPD capability whose `next` is `0x40`. -/
def selfCapHeader : Nat → UInt8 := fun i =>
  if i = 0x06 then 0x10 else if i = 0x34 then 0x40 else if i = 0x40 then 0x03
  else if i = 0x41 then 0x40 else 0

/-- A header whose capability list starts with a power-management capability at `0xfc`, the last
offset a capability pointer can hold. -/
def pmAtEndHeader : Nat → UInt8 := fun i =>
  if i = 0x06 then 0x10 else if i = 0x34 then 0xfc else if i = 0xfc then 0x01 else 0

/-- From `0x40`, with the header's bytes fetched at each visit, the walk comes back to `0x40`. -/
theorem capsLoop_self (verbose : Nat) (others : Nat → Nat → UInt16 → LState → LState) :
    ∀ fuel (s : LState), s.dev.configCnt = 64 →
      capsLoop capH ⟨selfCapHeader, fun _ _ => true⟩ verbose others fuel 0x40 s = none
  | 0, _, _ => rfl
  | fuel + 1, s, hs => by
    rw [capsLoop]
    simp [configFetch, hs, getConfWord, getConfByte, Config.fill, selfCapHeader, capH]
    exact capsLoop_self verbose others fuel _ rfl

/-- **A capability pointing to itself.** On a device whose reads all succeed, with the header
`selfCapHeader`, `show_caps` never ends: it visits `0x40` again and again, whatever the verbosity
and the other printers. -/
theorem showCaps_loops_on_self_pointer :
    ∃ d₀, scanDevice capH ⟨selfCapHeader, fun _ _ => true⟩ = some d₀ ∧
      ∀ verbose others fuel,
        showCaps capH ⟨selfCapHeader, fun _ _ => true⟩ verbose others fuel ⟨d₀, []⟩ = none := by
  refine ⟨_, rfl, fun verbose others fuel => ?_⟩
  simp only [showCaps, getConfWord, getConfByte]
  exact capsLoop_self verbose others fuel _ rfl

/-! ### When the walk ends

`show_caps` keeps no record of the offsets it has visited, but every offset it follows is masked
with `~3` and is below `256`: there are `64` of them. So a walk that has not ended after `64`
capabilities has visited one twice, and never ends. Which offsets the walk visits depends only on
the device's bytes (`capNext`), as long as the printers keep the device's bytes in `config`
(`KeepsDevice`), as every printer that only fetches and reads does. -/

/-- `config` holds the device's bytes below `config_cnt`, as `scan_device` leaves it. -/
def Coherent (hw : Hw) (s : LState) : Prop := ∀ i < s.dev.configCnt, s.dev.config i = hw.space i

/-- A printer that keeps `config_cnt`, and the device's bytes in `config` below it. -/
def KeepsDevice (hw : Hw) (others : Nat → Nat → UInt16 → LState → LState) : Prop :=
  ∀ id w cap s, Coherent hw s →
    (others id w cap s).dev.configCnt = s.dev.configCnt ∧ Coherent hw (others id w cap s)

/-- One step of the device's capability list, as `show_caps` follows it from the offset `w` with
`config_cnt = cnt`: the next offset, or `none` where the walk ends (a zero offset, a fetch that
fails, or the id `0xff`). -/
def capNext (H : CapH) (hw : Hw) (cnt w : Nat) : Option Nat :=
  if w = 0 then none
  else if !(decide (w + 4 < cnt) || hw.ok w 4) then none
  else if (hw.space (w + H.capListId)).toNat = 0xff then none
  else some ((hw.space (w + H.capListNext)) &&& 0xfc).toNat

/-- Where the list leads from `w` in `n` steps; `none` once it has ended. -/
def capAt (H : CapH) (hw : Hw) (cnt : Nat) : Nat → Nat → Option Nat
  | 0, w => some w
  | n + 1, w => (capNext H hw cnt w).bind (capAt H hw cnt n)

section Ends

variable {H : CapH} {hw : Hw} {s : LState}

theorem coherent_configFetch (h : Coherent hw s) (pos len : Nat) :
    Coherent hw (configFetch hw s pos len).2 := fun i hi => by
  rw [configFetch_configCnt] at hi
  unfold configFetch
  split_ifs with h₁ h₂
  · exact h i hi
  · simp only [if_pos h₂, Config.fill_apply]
    split_ifs
    · rfl
    · exact h i hi
  · simp only [if_neg h₂]
    exact h i hi

/-- `config_fetch(d, w, 4)` succeeds when the four bytes lie below `config_cnt` or the read
succeeds, and then `config` holds the device's bytes there. -/
theorem configFetch_four (h : Coherent hw s) (w : Nat) :
    (configFetch hw s w 4).1 = (decide (w + 4 < s.dev.configCnt) || hw.ok w 4) ∧
    ((configFetch hw s w 4).1 = true → ∀ k < 4,
      (configFetch hw s w 4).2.dev.config (w + k) = hw.space (w + k)) := by
  unfold configFetch
  by_cases h₁ : w + 4 < s.dev.configCnt
  · simp only [if_pos h₁]
    exact ⟨by simp [h₁], fun _ k hk => h _ (by omega)⟩
  · simp only [if_neg h₁]
    refine ⟨by simp [h₁], fun hok k hk => ?_⟩
    simp only at hok
    simp only [hok, if_true, Config.fill_apply]
    rw [if_pos ⟨by omega, by omega⟩]

theorem coherent_showPm (h : Coherent hw s) (verbose w : Nat) :
    (showPm H hw verbose w s).dev.configCnt = s.dev.configCnt ∧
      Coherent hw (showPm H hw verbose w s) := by
  unfold showPm
  split_ifs
  · exact ⟨rfl, h⟩
  · rcases hf : configFetch hw s (w + H.pmCtrl) (H.pmSizeof - H.pmCtrl) with ⟨ok, s₁⟩
    have hc := coherent_configFetch h (w + H.pmCtrl) (H.pmSizeof - H.pmCtrl)
    have hn := configFetch_configCnt hw s (w + H.pmCtrl) (H.pmSizeof - H.pmCtrl)
    rw [hf] at hc hn
    dsimp only
    split_ifs
    · exact ⟨hn, hc⟩
    · exact ⟨by simpa using hn, by simpa [Coherent] using hc⟩

theorem coherent_showAgp (h : Coherent hw s) (verbose w : Nat) :
    (showAgp H hw verbose w s).dev.configCnt = s.dev.configCnt ∧
      Coherent hw (showAgp H hw verbose w s) := by
  unfold showAgp
  split_ifs
  · exact ⟨rfl, h⟩
  · rcases hf : configFetch hw s (w + H.agpStatus) (H.agpSizeof - H.agpStatus) with ⟨ok, s₁⟩
    have hc := coherent_configFetch h (w + H.agpStatus) (H.agpSizeof - H.agpStatus)
    have hn := configFetch_configCnt hw s (w + H.agpStatus) (H.agpSizeof - H.agpStatus)
    rw [hf] at hc hn
    dsimp only
    split_ifs
    · exact ⟨hn, hc⟩
    · exact ⟨by simpa using hn, by simpa [Coherent] using hc⟩

/-- The printer `show_caps` picks for a capability keeps the device's bytes. -/
theorem coherent_print {others : Nat → Nat → UInt16 → LState → LState} (hk : KeepsDevice hw others)
    {t : LState} (h : Coherent hw t) (verbose id w : Nat) {cap : UInt16} :
    (if id = H.capIdPm then showPm H hw verbose w t else if id = H.capIdAgp then showAgp H hw verbose w t
      else if id = H.capIdVpd then t else others id w cap t).dev.configCnt = t.dev.configCnt ∧
    Coherent hw (if id = H.capIdPm then showPm H hw verbose w t
      else if id = H.capIdAgp then showAgp H hw verbose w t
      else if id = H.capIdVpd then t else others id w cap t) := by
  split_ifs
  exacts [coherent_showPm h _ _, coherent_showAgp h _ _, ⟨rfl, h⟩, hk _ _ _ _ h]

/-- **The walk follows the device's list.** From a coherent state and with printers that keep the
device's bytes, the loop of `show_caps` ends within `fuel` iterations exactly when the device's
list ends within `fuel` steps, whatever the verbosity. -/
theorem capsLoop_isSome (hH : H.capListId < 4 ∧ H.capListNext < 4)
    {others : Nat → Nat → UInt16 → LState → LState} (hk : KeepsDevice hw others) (verbose : Nat) :
    ∀ fuel w (s : LState), Coherent hw s →
      ((capsLoop H hw verbose others fuel w s).isSome ↔ capAt H hw s.dev.configCnt fuel w = none)
  | 0, w, s, _ => by simp [capsLoop, capAt]
  | fuel + 1, w, s, hs => by
    obtain ⟨hok, hbytes⟩ := configFetch_four hs w
    have hn := configFetch_configCnt hw s w 4
    have hc := coherent_configFetch hs w 4
    rw [capsLoop, capAt, capNext]
    by_cases hw0 : w = 0
    · simp [hw0]
    rw [if_neg hw0, if_neg hw0]
    rcases hf : configFetch hw s w 4 with ⟨ok, s₁⟩
    rw [hf] at hok hbytes hn hc
    dsimp only at hok hbytes hn hc ⊢
    rw [← hok]
    cases ok
    · simp
    · simp only [Bool.not_true, Bool.false_eq_true, if_false, getConfByte, getConfWord,
        hbytes rfl _ hH.1, hbytes rfl _ hH.2]
      by_cases hff : (hw.space (w + H.capListId)).toNat = 0xff
      · simp [hff]
      · rw [if_neg hff, if_neg hff, Option.some_bind, ← hn]
        have key : ∀ t : LState, t.dev.configCnt = s₁.dev.configCnt → Coherent hw t →
            ((capsLoop H hw verbose others fuel (hw.space (w + H.capListNext) &&& 0xfc).toNat t).isSome ↔
              capAt H hw s₁.dev.configCnt fuel (hw.space (w + H.capListNext) &&& 0xfc).toNat = none) :=
          fun t ht hct => ht ▸ capsLoop_isSome hH hk verbose fuel _ t hct
        have hc' : ∀ l, Coherent hw ⟨s₁.dev, l⟩ := fun _ => hc
        exact key _ (coherent_print hk (hc' _) _ _ _).1 (coherent_print hk (hc' _) _ _ _).2

variable {cnt : Nat}

theorem capAt_add : ∀ a b w, capAt H hw cnt (a + b) w = (capAt H hw cnt a w).bind (capAt H hw cnt b)
  | 0, b, w => by simp [capAt]
  | a + 1, b, w => by
    simp only [Nat.add_right_comm a 1 b, capAt, Option.bind_assoc]
    exact congrArg _ (funext (capAt_add a b))

theorem capAt_of_le {k n : Nat} (h : k ≤ n) (w : Nat) :
    capAt H hw cnt n w = (capAt H hw cnt k w).bind (capAt H hw cnt (n - k)) := by
  rw [← capAt_add, Nat.add_sub_cancel' h]

/-- An offset masked with `0xfc` is one of the `64` offsets `4 * k` below `256`. -/
theorem masked_valid (x : UInt8) : (x &&& 0xfc).toNat % 4 = 0 ∧ (x &&& 0xfc).toNat < 256 := by
  rw [UInt8.and_toNat]
  refine ⟨?_, Nat.lt_of_le_of_lt Nat.and_le_right (by decide)⟩
  rw [← Nat.and_pow_two_sub_one_eq_mod _ 2, Nat.and_assoc]
  exact Nat.and_zero _

theorem capAt_valid {w : Nat} (hw₀ : w % 4 = 0 ∧ w < 256) :
    ∀ {n v}, capAt H hw cnt n w = some v → v % 4 = 0 ∧ v < 256 := by
  intro n
  induction n generalizing w with
  | zero => rintro v ⟨⟩; exact hw₀
  | succ n ih =>
    intro v h
    obtain ⟨w', hw', h⟩ := Option.bind_eq_some.mp h
    refine ih ?_ h
    unfold capNext at hw'
    split_ifs at hw'
    cases hw'
    exact masked_valid _

/-- A list that comes back to an offset never ends from it. -/
theorem capAt_ne_none_of_cycle {p v : Nat} (hp : 0 < p) (hv : capAt H hw cnt p v = some v) (m : Nat) :
    capAt H hw cnt m v ≠ none := by
  have hcyc : ∀ t, capAt H hw cnt (t * p) v = some v := by
    intro t
    induction t with
    | zero => simp [capAt]
    | succ t ih => rw [Nat.succ_mul, capAt_add, ih, Option.some_bind, hv]
  have hle : m ≤ (m + 1) * p := by have := Nat.le_mul_of_pos_right (m + 1) hp; omega
  intro hm
  have h := hcyc (m + 1)
  rw [capAt_of_le hle, hm, Option.none_bind] at h
  cases h

/-- **Sixty-four steps decide the list.** From a masked offset, a list that ends at all ends
within `64` steps: else two of its first `65` offsets coincide, and it cycles. -/
theorem capAt_64 {w : Nat} (hw₀ : w % 4 = 0 ∧ w < 256) {m : Nat} (hm : capAt H hw cnt m w = none) :
    capAt H hw cnt 64 w = none := by
  by_contra h64
  obtain ⟨u, hu⟩ := Option.ne_none_iff_exists'.mp h64
  let v : Nat → Nat := fun k => (capAt H hw cnt k w).getD 0
  have hv : ∀ k ≤ 64, capAt H hw cnt k w = some (v k) ∧ v k % 4 = 0 ∧ v k < 256 := fun k hk => by
    cases hx : capAt H hw cnt k w with
    | none => rw [capAt_of_le hk, hx, Option.none_bind] at hu; cases hu
    | some x => simpa only [v, hx, Option.getD_some, true_and] using capAt_valid hw₀ hx
  -- the walk after `a` steps comes back to `v a` after `b - a` more
  have hcycle : ∀ a b : Fin 65, a < b → v a = v b → False := by
    intro a b hab he
    have hab : a.val < b.val := hab
    have ha := hv a (by omega)
    have hback := (hv b (by omega)).1
    rw [capAt_of_le (Nat.le_of_lt hab), ha.1, Option.some_bind, ← he] at hback
    by_cases hm64 : m ≤ 64
    · rw [(hv m hm64).1] at hm; cases hm
    · rw [capAt_of_le (show a.val ≤ m by omega), ha.1, Option.some_bind] at hm
      exact capAt_ne_none_of_cycle (by omega) hback (m - a) hm
  obtain ⟨i, j, hij, hg⟩ := Fintype.exists_ne_map_eq_of_card_lt
    (fun k : Fin 65 => (⟨v k / 4, by have := (hv k (by omega)).2.2; omega⟩ : Fin 64))
    (by rw [Fintype.card_fin, Fintype.card_fin]; decide)
  have hvij : v i = v j := by
    have := Fin.mk.inj_iff.mp hg
    have := (hv i (by omega)).2.1; have := (hv j (by omega)).2.1
    omega
  rcases lt_or_gt_of_ne hij with h | h
  exacts [hcycle i j h hvij, hcycle j i h hvij.symm]

/-- `scan_device` leaves `config` coherent with the device. -/
theorem coherent_scanDevice {d : LDev} (hd : scanDevice H hw = some d) (l : List Access) :
    Coherent hw ⟨d, l⟩ := by
  unfold scanDevice at hd
  split_ifs at hd <;> cases hd <;> exact fun i hi => if_pos ⟨Nat.zero_le _, hi⟩

/-- **`show_caps` ends within 64 capabilities or never.** From a coherent state and with printers
that keep the device's bytes, if some amount of fuel lets the walk end, then 64 iterations do,
whatever the device, its list and the verbosity. -/
theorem showCaps_ends_within_64 (hH : H.capListId < 4 ∧ H.capListNext < 4)
    {others : Nat → Nat → UInt16 → LState → LState} (hk : KeepsDevice hw others) (verbose : Nat)
    (hs : Coherent hw s) :
    (∃ fuel, (showCaps H hw verbose others fuel s).isSome) ↔
      (showCaps H hw verbose others 64 s).isSome := by
  refine ⟨fun ⟨fuel, h⟩ => ?_, fun h => ⟨64, h⟩⟩
  unfold showCaps at h ⊢
  simp only [getConfWord, getConfByte] at h ⊢
  split_ifs at h ⊢
  · rfl
  · have key := fun l fuel w => capsLoop_isSome hH hk verbose fuel w ⟨s.dev, l⟩ hs
    rw [key] at h ⊢
    exact capAt_64 (masked_valid _) h

theorem showCaps_ends_within_64_selfCap_pmAtEnd :
    (capH.capListId < 4 ∧ capH.capListNext < 4) ∧
      KeepsDevice ⟨selfCapHeader, fun _ _ => true⟩ (fun _ _ _ t => t) ∧
      Coherent ⟨selfCapHeader, fun _ _ => true⟩
        ⟨⟨64, Config.fill (fun _ => 0) 0 64 selfCapHeader⟩, []⟩ ∧
      ((∃ fuel, (showCaps capH ⟨selfCapHeader, fun _ _ => true⟩ 2 (fun _ _ _ t => t) fuel
          ⟨⟨64, Config.fill (fun _ => 0) 0 64 selfCapHeader⟩, []⟩).isSome) ↔
        (showCaps capH ⟨selfCapHeader, fun _ _ => true⟩ 2 (fun _ _ _ t => t) 64
          ⟨⟨64, Config.fill (fun _ => 0) 0 64 selfCapHeader⟩, []⟩).isSome) ∧
      KeepsDevice ⟨pmAtEndHeader, fun _ _ => true⟩ (fun _ _ _ t => t) ∧
      Coherent ⟨pmAtEndHeader, fun _ _ => true⟩
        ⟨⟨64, Config.fill (fun _ => 0) 0 64 pmAtEndHeader⟩, []⟩ ∧
      ((∃ fuel, (showCaps capH ⟨pmAtEndHeader, fun _ _ => true⟩ 2 (fun _ _ _ t => t) fuel
          ⟨⟨64, Config.fill (fun _ => 0) 0 64 pmAtEndHeader⟩, []⟩).isSome) ↔
        (showCaps capH ⟨pmAtEndHeader, fun _ _ => true⟩ 2 (fun _ _ _ t => t) 64
          ⟨⟨64, Config.fill (fun _ => 0) 0 64 pmAtEndHeader⟩, []⟩).isSome) ∧
      (showCaps capH ⟨pmAtEndHeader, fun _ _ => true⟩ 2 (fun _ _ _ t => t) 2
          ⟨⟨64, Config.fill (fun _ => 0) 0 64 pmAtEndHeader⟩, []⟩).isSome = true :=
  have hH : capH.capListId < 4 ∧ capH.capListNext < 4 := by decide
  have hk : ∀ hdr : Nat → UInt8, KeepsDevice ⟨hdr, fun _ _ => true⟩ (fun _ _ _ t => t) :=
    fun _ _ _ _ _ h => ⟨rfl, h⟩
  have hs := @coherent_scanDevice capH ⟨selfCapHeader, fun _ _ => true⟩ _ rfl []
  have hs' := @coherent_scanDevice capH ⟨pmAtEndHeader, fun _ _ => true⟩ _ rfl []
  ⟨hH, hk _, hs, showCaps_ends_within_64 hH (hk _) 2 hs, hk _, hs',
    showCaps_ends_within_64 hH (hk _) 2 hs', rfl⟩

end Ends

/-! ### Past the end of `config` -/

/-- The dump reads its bytes in order. -/
theorem dumpBytes_log : ∀ n i (s : LState),
    (dumpBytes n i s).log = s.log ++ (List.range' i n).map Access.read
  | 0, _, _ => by simp [dumpBytes]
  | n + 1, i, s => by
    rw [dumpBytes, dumpBytes_log n (i + 1), getConfByte_log, List.range'_succ, List.map_cons,
      List.append_assoc, List.singleton_append]

theorem InBounds.append {l l' : List Access} (h : InBounds l) (h' : InBounds l') :
    InBounds (l ++ l') := fun a ha => (List.mem_append.1 ha).elim (h a) (h' a)

/-- A fetch of a range that ends by `256` keeps the log inside the array. -/
theorem configFetch_inBounds (hw : Hw) {s : LState} {pos len : Nat} (hl : pos + len ≤ 256)
    (hs : InBounds s.log) : InBounds (configFetch hw s pos len).2.log := by
  unfold configFetch
  split
  · exact hs
  · exact hs.append (by simpa [InBounds] using hl)

/-! ### The capability walk inside the array -/

/-- Every power-management and AGP capability the walk can meet, at an offset below `256` masked
with `~3`, has its registers (`PCI_PM_SIZEOF`, `PCI_AGP_SIZEOF` bytes) inside `config[256]`. -/
def CapsFit (hw : Hw) : Prop :=
  ∀ w, w % 4 = 0 → w < 256 →
    ((hw.space w).toNat = capH.capIdPm → w + capH.pmSizeof ≤ 256) ∧
    ((hw.space w).toNat = capH.capIdAgp → w + capH.agpSizeof ≤ 256)

section Fit

variable {hw : Hw} {verbose w : Nat} {t : LState}

theorem InBounds.reads {l : List Access} (h : InBounds l) (is : List Nat) (his : ∀ i ∈ is, i < 256) :
    InBounds (l ++ is.map Access.read) :=
  h.append fun a ha => by
    obtain ⟨i, hi, rfl⟩ := List.mem_map.1 ha
    exact his i hi

theorem showPm_inBounds (hfit : verbose < 2 ∨ w + capH.pmSizeof ≤ 256) (hl : InBounds t.log) :
    InBounds (showPm capH hw verbose w t).log := by
  unfold showPm
  split_ifs with hv
  · exact hl
  · have hw8 : w + 8 ≤ 256 := hfit.resolve_left hv
    have hf := @configFetch_inBounds hw t (w + 4) 4 (by omega) hl
    rcases hr : configFetch hw t (w + capH.pmCtrl) (capH.pmSizeof - capH.pmCtrl) with ⟨ok, t₁⟩
    rw [show capH.pmCtrl = 4 from rfl, show capH.pmSizeof = 8 from rfl] at hr
    rw [hr] at hf
    dsimp only
    split_ifs
    · exact hf
    · simpa [getConfByte, getConfWord] using hf.reads [w + 4, w + 5, w + 6] (by simp; omega)

theorem showAgp_inBounds (hfit : verbose < 2 ∨ w + capH.agpSizeof ≤ 256) (hl : InBounds t.log) :
    InBounds (showAgp capH hw verbose w t).log := by
  unfold showAgp
  split_ifs with hv
  · exact hl
  · have hw12 : w + 12 ≤ 256 := hfit.resolve_left hv
    have hf := @configFetch_inBounds hw t (w + 4) 8 (by omega) hl
    rcases hr : configFetch hw t (w + capH.agpStatus) (capH.agpSizeof - capH.agpStatus) with ⟨ok, t₁⟩
    rw [show capH.agpStatus = 4 from rfl, show capH.agpSizeof = 12 from rfl] at hr
    rw [hr] at hf
    dsimp only
    split_ifs
    · exact hf
    · simpa [getConfLong, getConfWord, getConfByte] using
        hf.reads [w + 4, w + 5, w + 6, w + 7, w + 8, w + 9, w + 10, w + 11] (by simp; omega)

/-- The printer `show_caps` picks for a capability with the id `id` keeps the log inside the
array, when `-vv` is not given or the capability's registers fit. -/
theorem print_inBounds {others : Nat → Nat → UInt16 → LState → LState}
    (hko : ∀ id w cap s, InBounds s.log → InBounds (others id w cap s).log) (hl : InBounds t.log)
    {id : Nat} (hpm : id = capH.capIdPm → verbose < 2 ∨ w + capH.pmSizeof ≤ 256)
    (hagp : id = capH.capIdAgp → verbose < 2 ∨ w + capH.agpSizeof ≤ 256) {cap : UInt16} :
    InBounds (if id = capH.capIdPm then showPm capH hw verbose w t
      else if id = capH.capIdAgp then showAgp capH hw verbose w t
      else if id = capH.capIdVpd then t else others id w cap t).log := by
  split_ifs with h₁ h₂
  exacts [showPm_inBounds (hpm h₁) hl, showAgp_inBounds (hagp h₂) hl, hl, hko _ _ _ _ hl]

/-- **The walk inside the array.** With printers of the other capabilities that stay inside
`config[256]` and keep the device's bytes, every run of the loop of `show_caps` from a masked
offset that returns has made all its accesses inside the array, unless `-vv` meets a
power-management or AGP capability whose registers run past it. -/
theorem capsLoop_inBounds {others : Nat → Nat → UInt16 → LState → LState} (hk : KeepsDevice hw others)
    (hko : ∀ id w cap s, InBounds s.log → InBounds (others id w cap s).log)
    (hfit : verbose < 2 ∨ CapsFit hw) :
    ∀ fuel w (s : LState) {s' : LState}, w % 4 = 0 ∧ w < 256 → Coherent hw s → InBounds s.log →
      capsLoop capH hw verbose others fuel w s = some s' → InBounds s'.log
  | 0, _, _, _, _, _, _, h => by cases h
  | fuel + 1, w, s, s', hw₀, hs, hl, h => by
    rw [capsLoop] at h
    by_cases hw0 : w = 0
    · rw [if_pos hw0] at h
      cases h
      exact hl
    rw [if_neg hw0] at h
    obtain ⟨-, hbytes⟩ := configFetch_four hs w
    have hc := coherent_configFetch hs w 4
    have hl₁ := configFetch_inBounds hw (by omega : w + 4 ≤ 256) hl
    rcases hf : configFetch hw s w 4 with ⟨ok, s₁⟩
    rw [hf] at hbytes hc hl₁ h
    dsimp only at h hbytes hc hl₁
    cases ok
    · cases h
      exact hl₁
    have hL : InBounds (s₁.log ++ [Access.read (w + capH.capListId)] ++
        [Access.read (w + capH.capListNext)] ++ [Access.read (w + capH.capFlags)] ++
        [Access.read (w + capH.capFlags + 1)]) := by
      simpa using hl₁.reads [w + capH.capListId, w + capH.capListNext, w + capH.capFlags,
        w + capH.capFlags + 1] (by simp [capH]; omega)
    have hid : s₁.dev.config (w + capH.capListId) = hw.space w := hbytes rfl 0 (by decide)
    simp only [Bool.not_true, Bool.false_eq_true, if_false, getConfByte, getConfWord, hid] at h
    by_cases hff : (hw.space w).toNat = 0xff
    · rw [if_pos hff] at h
      cases h
      exact hL
    rw [if_neg hff] at h
    have hc' : ∀ l, Coherent hw ⟨s₁.dev, l⟩ := fun _ => hc
    have hfits := fun hf : CapsFit hw => hf w hw₀.1 hw₀.2
    exact capsLoop_inBounds hk hko hfit fuel _ _ (masked_valid _) (coherent_print hk (hc' _) _ _ _).2
      (@print_inBounds hw verbose w ⟨s₁.dev, _⟩ others hko hL _
        (fun hpm => hfit.imp_right fun hf => (hfits hf).1 hpm)
        (fun hagp => hfit.imp_right fun hf => (hfits hf).2 hagp) _) h

/-- **`show_caps` inside `config[256]`.** From a state that holds the device's bytes and has
accessed only the array, every run of `show_caps` that returns has accessed only the array, if
`-vv` is not given or every power-management and AGP capability has its registers inside it, and
the printers of the other capabilities keep the device's bytes and stay inside. -/
theorem showCaps_inBounds {others : Nat → Nat → UInt16 → LState → LState} (hk : KeepsDevice hw others)
    (hko : ∀ id w cap s, InBounds s.log → InBounds (others id w cap s).log)
    (hfit : verbose < 2 ∨ CapsFit hw) {s s' : LState} (hs : Coherent hw s) (hl : InBounds s.log)
    {fuel : Nat} (h : showCaps capH hw verbose others fuel s = some s') : InBounds s'.log := by
  have hl₁ := hl.reads [capH.status, capH.status + 1, capH.capabilityList] (by simp [capH])
  unfold showCaps at h
  simp only [getConfWord, getConfByte] at h
  split_ifs at h
  · cases h
    simpa using hl.reads [capH.status, capH.status + 1] (by simp [capH])
  · have key : ∀ l, InBounds l → capsLoop capH hw verbose others fuel
        (s.dev.config capH.capabilityList &&& 0xfc).toNat ⟨s.dev, l⟩ = some s' → InBounds s'.log :=
      fun l => capsLoop_inBounds hk hko hfit fuel _ ⟨s.dev, l⟩ (masked_valid _) hs
    exact key _ (by simpa using hl₁) h

end Fit

/-- Under `-v`, the walk of `pmAtEndHeader`, whose power-management capability at `0xfc` takes
`-vv` past the array, stays inside it. -/
theorem showCaps_inBounds_pmAtEnd :
    ∃ s', showCaps capH ⟨pmAtEndHeader, fun _ _ => true⟩ 1 (fun _ _ _ t => t) 2
        ⟨⟨64, Config.fill (fun _ => 0) 0 64 pmAtEndHeader⟩, []⟩ = some s' ∧ InBounds s'.log := by
  obtain ⟨s', hrun⟩ : ∃ s', showCaps capH ⟨pmAtEndHeader, fun _ _ => true⟩ 1 (fun _ _ _ t => t) 2
      ⟨⟨64, Config.fill (fun _ => 0) 0 64 pmAtEndHeader⟩, []⟩ = some s' := ⟨_, rfl⟩
  exact ⟨s', hrun, showCaps_inBounds (fun _ _ _ _ h => ⟨rfl, h⟩) (fun _ _ _ _ h => h) (.inl (by decide))
    (@coherent_scanDevice capH ⟨pmAtEndHeader, fun _ _ => true⟩ _ rfl []) (fun _ h => nomatch h) hrun⟩

/-- **The configuration array overrun.** Under `-xxxx`, for every content of a device whose reads
succeed and every content of its array, the hex dump asks `pci_read_block` to fill `[256, 4096)`
and reads index `4095` of the 256-byte `config`. Under `-vv`, a power-management capability at
`0xfc` makes `show_pm` fetch `[0x100, 0x104)` and read `0x100` and `0x102`. -/
theorem configArray_overrun :
    (∀ (space config : Nat → UInt8),
      Access.fill 256 3840 ∈ (showHexDump ⟨space, fun _ _ => true⟩ 4 ⟨⟨64, config⟩, []⟩).log ∧
      Access.read 4095 ∈ (showHexDump ⟨space, fun _ _ => true⟩ 4 ⟨⟨64, config⟩, []⟩).log) ∧
    ∃ d₀, scanDevice capH ⟨pmAtEndHeader, fun _ _ => true⟩ = some d₀ ∧
      ∀ verbose others fuel, ∃ s, showCaps capH ⟨pmAtEndHeader, fun _ _ => true⟩ (verbose + 2) others
          (fuel + 2) ⟨d₀, []⟩ = some s ∧
        Access.fill 0x100 4 ∈ s.log ∧ Access.read 0x100 ∈ s.log ∧ Access.read 0x102 ∈ s.log := by
  refine ⟨fun space config => ?_, _, rfl, fun verbose others fuel => ⟨_, rfl, ?_⟩⟩
  · simp only [showHexDump, configFetch]
    rw [dumpBytes_log]
    simp
  · have hv : ¬verbose + 2 < 2 := by omega
    simp [showPm, showCaps, capsLoop, configFetch, getConfWord, getConfByte, Config.fill, pmAtEndHeader,
      capH, hv, UInt8.size]

end Lspci
end AdnacomEe
