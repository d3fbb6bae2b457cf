import AdnacomEe.Eeprom.Load

/-!
# The EEPROM controller behind BAR0

`EepPort` takes the EEPROM access functions as a block write and a block read. This file is
the level below: the two registers of the H1A's BAR0 that `eep_read`, `eep_write`,
`eep_read_16`, `eep_write_16`, `eep_init` and `eep_erase` drive through `pcimem`, and the
controller that answers them.

`pcimem(p, reg, data)` reads the register and, **only when `data` is not `0`**, writes `data` and
reads it back. `check_for_ready_or_done` polls the status register until the command in flight
has completed. `eep_data` writes a command word and, for the read command, reads the buffer
register once the command has completed. A write (`eep_write` and its three siblings, one body
`programBlock`) loads the buffer register, sets the write-enable latch and issues the write
command for a block.

The controller (`Ctrl`) is the environment the code runs against. What it holds (`Mem`) is the
EEPROM's blocks, the buffer register and the latch; the read command copies a block into the
buffer, the write command copies the buffer into a block when the latch is set and clears it.
Each command keeps the controller busy for `latency` reads of the status register. A ghost log
records every access to BAR0 and whether a command was in flight.

`eep.h`, which defines the command codes and the layout of the control word, is not among the
sources: it is the parameter `CtrlH`, with the laws a bit-field union satisfies.

The results:

* `runCalls_refines`: for every sequence of calls that writes no zero word, the controller driven
  by the code returns the reads the faithful chip `Chip.port` returns and ends with the same
  blocks, and the code never touches the buffer or writes a command while one is in flight;
* `eepWriteReg_mem`: `eep_write(d, offset, 0)` programs the block with what the buffer register
  already held, since `pcimem` skips the write of `0`;
* `programImage_fails_on_zero_word`: so `EepromFileLoad` fails at the first whole word of an image
  that is `0` and follows a word that is not.
-/

namespace AdnacomEe
namespace Eeprom

/-! ### Registers, control words and `eep.h` -/

/-- The registers of BAR0 the EEPROM code uses: `EEP_STAT_N_CTRL_ADDR` and `EEP_BUFFER_ADDR`. -/
inductive Reg
  | statNCtrl
  | buffer
deriving DecidableEq, Repr

/-- The fields of `union eep_status_and_control_reg` the code sets: `cmd`, `blk_addr`,
`addr_width_override` and `addr_width`. -/
structure CtrlWord where
  cmd : Nat
  blkAddr : Nat
  addrWidthOverride : Nat
  addrWidth : Nat
deriving DecidableEq, Repr

/-- The constants of `eep.h` (not among the sources) and the layout of its control word:
the command codes `RD_4B_FR_BLKADDR_TO_BUFF`, `WR_4B_FR_BUFF_TO_BLKADDR` and `SET_WR_EN_LATCH`,
three distinct nonzero values of the 3-bit `cmd` field; `ADDR_WIDTH_WRITABLE` and `TWO_BYTES`;
`cmd_u32` of a union (`pack`) and the fields read back from a register value (`unpack`), with
`cmd` 3 bits and `blk_addr` `blkBits` bits wide; and the status bit `EEP_CMD_STATUS_OFFSET`,
`CMD_COMPLETE`, with the status word the controller returns when a command has (or has not)
completed. -/
structure CtrlH where
  rdCmd : Nat
  wrCmd : Nat
  wrenCmd : Nat
  addrWidthWritable : Nat
  twoBytes : Nat
  blkBits : Nat
  pack : CtrlWord → UInt32
  unpack : UInt32 → CtrlWord
  cmd_unpack_pack : ∀ w, (unpack (pack w)).cmd = w.cmd % 8
  blkAddr_unpack_pack : ∀ w, (unpack (pack w)).blkAddr = w.blkAddr % 2 ^ blkBits
  cmd_unpack_zero : (unpack 0).cmd = 0
  codes_valid : [rdCmd, wrCmd, wrenCmd].Nodup ∧ ∀ c ∈ [rdCmd, wrCmd, wrenCmd], 0 < c ∧ c < 8
  cmdStatusOffset : UInt32
  cmdComplete : UInt32
  statusWord : Bool → UInt32
  statusWord_complete : ∀ b, (((statusWord b >>> cmdStatusOffset) &&& 1) == cmdComplete) = b

namespace CtrlH

variable (H : CtrlH)

theorem codes : H.rdCmd ≠ H.wrCmd ∧ H.rdCmd ≠ H.wrenCmd ∧ H.wrCmd ≠ H.wrenCmd ∧
    0 < H.rdCmd ∧ H.rdCmd < 8 ∧ 0 < H.wrCmd ∧ H.wrCmd < 8 ∧ 0 < H.wrenCmd ∧ H.wrenCmd < 8 := by
  have h := H.codes_valid
  simp only [List.nodup_cons, List.mem_cons, List.mem_singleton, List.not_mem_nil, or_false,
    not_or, List.nodup_nil, and_true, forall_eq_or_imp, forall_eq] at h
  omega

theorem cmd_pack (w : CtrlWord) (hw : w.cmd < 8) : (H.unpack (H.pack w)).cmd = w.cmd := by
  rw [H.cmd_unpack_pack, Nat.mod_eq_of_lt hw]

/-- A control word whose command field is not `0` is not `0`: `pcimem` writes it. -/
theorem pack_ne_zero (w : CtrlWord) (h0 : 0 < w.cmd) (h8 : w.cmd < 8) : H.pack w ≠ 0 := fun h => by
  have := H.cmd_pack w h8
  rw [h, H.cmd_unpack_zero] at this
  omega

end CtrlH

/-- One layout of the control word, for statements at a fixed input: `blk_addr` in bits `0..12`,
`cmd` in bits `13..15`, `addr_width_override` in bit `16` and `addr_width` in bits `22..23`; the
read, write and enable commands `3`, `2` and `6`; and a status bit `18` that reads `0` once the
command has completed. -/
def ctrlH : CtrlH where
  rdCmd := 3
  wrCmd := 2
  wrenCmd := 6
  addrWidthWritable := 1
  twoBytes := 2
  blkBits := 13
  pack w := UInt32.ofNat (w.blkAddr % 2 ^ 13 + 2 ^ 13 * (w.cmd % 8) +
    2 ^ 16 * (w.addrWidthOverride % 2) + 2 ^ 22 * (w.addrWidth % 4))
  unpack r := ⟨r.toNat / 2 ^ 13 % 8, r.toNat % 2 ^ 13, r.toNat / 2 ^ 16 % 2, r.toNat / 2 ^ 22 % 4⟩
  cmd_unpack_pack w := by
    simp only [UInt32.toNat_ofNat']
    omega
  blkAddr_unpack_pack w := by
    simp only [UInt32.toNat_ofNat']
    omega
  cmd_unpack_zero := rfl
  codes_valid := by decide
  cmdStatusOffset := 18
  cmdComplete := 0
  statusWord b := if b then 0 else 0x40000
  statusWord_complete b := by cases b <;> decide

/-! ### The controller -/

/-- What the controller holds: the EEPROM's blocks, the buffer register and the write-enable
latch. -/
structure Mem where
  rom : Nat → UInt32
  buffer : UInt32
  latch : Bool

/-- A command word written to the status-and-control register: the read command copies the
block into the buffer, the enable command sets the latch, the write command copies the buffer
into the block if the latch is set and clears it. -/
def Mem.command (H : CtrlH) (m : Mem) (w : UInt32) : Mem :=
  if (H.unpack w).cmd = H.rdCmd then { m with buffer := m.rom (H.unpack w).blkAddr }
  else if (H.unpack w).cmd = H.wrenCmd then { m with latch := true }
  else if (H.unpack w).cmd = H.wrCmd ∧ m.latch = true then
    ⟨Function.update m.rom (H.unpack w).blkAddr m.buffer, m.buffer, false⟩
  else m

/-- A value written to a register. -/
def Mem.store (H : CtrlH) (m : Mem) : Reg → UInt32 → Mem
  | .statNCtrl, w => m.command H w
  | .buffer, v => { m with buffer := v }

/-- An access to BAR0 (ghost): the register, the value written (`none` for a read), and whether
no command was in flight. -/
structure Access where
  reg : Reg
  data : Option UInt32
  idle : Bool
deriving DecidableEq, Repr

/-- The controller: what it holds, the status reads left before the command in flight completes,
the status reads every command takes, and (ghost) the accesses so far. -/
structure Ctrl where
  mem : Mem
  busy : Nat
  latency : Nat
  log : List Access

/-- One access to BAR0. A status read reports whether the command in flight has completed and
lets it progress; a command word starts a command. -/
def Ctrl.access (H : CtrlH) (c : Ctrl) (reg : Reg) (data : Option UInt32) : UInt32 × Ctrl :=
  let log := c.log ++ [⟨reg, data, c.busy == 0⟩]
  match reg, data with
  | .statNCtrl, none => (H.statusWord (c.busy == 0), ⟨c.mem, c.busy - 1, c.latency, log⟩)
  | .statNCtrl, some w => (0, ⟨c.mem.command H w, c.latency, c.latency, log⟩)
  | .buffer, none => (c.mem.buffer, ⟨c.mem, c.busy, c.latency, log⟩)
  | .buffer, some v => (0, ⟨c.mem.store H .buffer v, c.busy, c.latency, log⟩)

/-! ### The code: `pcimem`, the polling loop and `eep_data` -/

section Code

variable (H : CtrlH)

/-- **`pcimem(p, reg, data)`**, with its `access_type` of `'w'`: read the 32-bit register; if
`data` is not `0`, write it and read the register back. Returns `0` after a write, the value read
otherwise. -/
def pcimem (c : Ctrl) (reg : Reg) (data : UInt32) : UInt32 × Ctrl :=
  let read := c.access H reg none
  if data ≠ 0 then (0, ((read.2.access H reg (some data)).2.access H reg none).2) else read

/-- The `do ... while` loop of `check_for_ready_or_done` with at most `n` polls: read the status
register and stop once its status bit reads `CMD_COMPLETE`. -/
def pollLoop : Nat → Ctrl → Ctrl
  | 0, c => c
  | n + 1, c =>
    let status := pcimem H c .statNCtrl 0
    if ((status.1 >>> H.cmdStatusOffset) &&& 1) == H.cmdComplete then status.2
    else pollLoop n status.2

/-- **`check_for_ready_or_done`**. The controller completes a command after `busy` more status
reads, so `busy + 1` polls end the loop, and more change nothing (`pollLoop_spec`). -/
def checkForReadyOrDone (c : Ctrl) : Ctrl := pollLoop H (c.busy + 1) c

/-- **`eep_data(d, cmd, buffer)`**: wait, write the command word, wait; for the read command,
read the buffer register into `*buffer`; wait. Returns what `*buffer` was set to, if anything. -/
def eepData (c : Ctrl) (cmd : UInt32) : Option UInt32 × Ctrl :=
  let c₁ := checkForReadyOrDone H (pcimem H (checkForReadyOrDone H c) .statNCtrl cmd).2
  if H.rdCmd = (H.unpack cmd).cmd then
    let read := pcimem H c₁ .buffer 0
    (some read.1, checkForReadyOrDone H read.2)
  else (none, checkForReadyOrDone H c₁)

/-- **`eep_read(d, offset, &value)`**: `eep_data` of the read command for block `offset`.
`eep_read_16` makes the same accesses into a `buffer_32` that starts at `0`, so
`eepRead16 (regPort H)` is it. The command is a read, so the buffer is always set. -/
def eepReadReg (c : Ctrl) (offset : Nat) : UInt32 × Ctrl :=
  let r := eepData H c (H.pack ⟨H.rdCmd, offset, 0, 0⟩)
  (r.1.getD 0, r.2)

/-- The body shared by `eep_write`, `eep_write_16`, `eep_init` and `eep_erase` (Section 6.8.1 and
6.8.3 of the switch's manual, as their comments cite): wait, write `buffer` to the buffer
register, wait; wait, write the enable word `wren`, wait; then `eep_data` of the write word
`wr`. -/
def programBlock (c : Ctrl) (buffer : UInt32) (wren wr : CtrlWord) : Ctrl :=
  let c₁ := checkForReadyOrDone H (pcimem H (checkForReadyOrDone H c) .buffer buffer).2
  let c₂ := checkForReadyOrDone H (pcimem H (checkForReadyOrDone H c₁) .statNCtrl (H.pack wren)).2
  (eepData H c₂ (H.pack wr)).2

/-- **`eep_write(d, offset, value)`**. -/
def eepWriteReg (c : Ctrl) (offset : Nat) (value : UInt32) : Ctrl :=
  programBlock H c value ⟨H.wrenCmd, 0, 0, 0⟩ ⟨H.wrCmd, offset, 0, 0⟩

/-- **`eep_write_16(d, offset, value)`**: the buffer is `0xffff0000 | value`. -/
def eepWrite16Reg (c : Ctrl) (offset : Nat) (value : UInt16) : Ctrl :=
  programBlock H c (0xffff0000 ||| value.toUInt32) ⟨H.wrenCmd, 0, 0, 0⟩ ⟨H.wrCmd, offset, 0, 0⟩

/-- **`eep_init(d)`**: the header `0x0000005a` into block `0`, with the address width overridden
to two bytes. -/
def eepInit (c : Ctrl) : Ctrl :=
  programBlock H c 0x5a ⟨H.wrenCmd, 0, H.addrWidthWritable, H.twoBytes⟩
    ⟨H.wrCmd, 0, H.addrWidthWritable, H.twoBytes⟩

/-- **`eep_erase(d)`**, which nothing calls: `0xffffffff` into block `0`, as `eep_init`. -/
def eepErase (c : Ctrl) : Ctrl :=
  programBlock H c 0xffffffff ⟨H.wrenCmd, 0, H.addrWidthWritable, H.twoBytes⟩
    ⟨H.wrCmd, 0, H.addrWidthWritable, H.twoBytes⟩

/-- The controller driven by the code, as the port the image functions take. -/
def regPort : EepPort Ctrl := ⟨eepWriteReg H, eepReadReg H⟩

theorem eepWrite16_regPort : eepWrite16 (regPort H) = eepWrite16Reg H := rfl

end Code

/-! ### The protocol -/

/-- An access keeps the protocol: it reads the status register, or no command is in flight. -/
def Access.Safe (a : Access) : Prop := a.idle = true ∨ (a.reg = .statNCtrl ∧ a.data = none)

/-- Every access so far kept the protocol. -/
def Ctrl.Safe (c : Ctrl) : Prop := ∀ a ∈ c.log, a.Safe

theorem Ctrl.safe_append {c : Ctrl} {a : Access} (hc : c.Safe) (ha : a.Safe) :
    ∀ x ∈ c.log ++ [a], x.Safe := fun x hx =>
  (List.mem_append.1 hx).elim (hc x) fun h => List.mem_singleton.1 h ▸ ha

/-- `c'` follows `c` by accesses that keep the protocol and leaves no command in flight. -/
structure Steps (c c' : Ctrl) : Prop where
  latency : c'.latency = c.latency
  busy : c'.busy = 0
  safe : c.Safe → c'.Safe

theorem Steps.trans {c₁ c₂ c₃ : Ctrl} (h₁ : Steps c₁ c₂) (h₂ : Steps c₂ c₃) : Steps c₁ c₃ :=
  ⟨h₂.latency.trans h₁.latency, h₂.busy, fun h => h₂.safe (h₁.safe h)⟩

section Spec

variable (H : CtrlH)

theorem pcimem_status (c : Ctrl) : pcimem H c .statNCtrl 0 =
    (H.statusWord (c.busy == 0),
      ⟨c.mem, c.busy - 1, c.latency, c.log ++ [⟨.statNCtrl, none, c.busy == 0⟩]⟩) := rfl

/-- One poll: the loop stops at a status read made with no command in flight. -/
theorem pollLoop_succ (n : Nat) (c : Ctrl) : pollLoop H (n + 1) c =
    if c.busy = 0 then (pcimem H c .statNCtrl 0).2 else pollLoop H n (pcimem H c .statNCtrl 0).2 := by
  simp only [pollLoop, pcimem_status, H.statusWord_complete, beq_iff_eq]

/-- A status read changes nothing held and keeps the protocol. -/
theorem status_read (c : Ctrl) : (pcimem H c .statNCtrl 0).2.mem = c.mem ∧
    (pcimem H c .statNCtrl 0).2.busy = c.busy - 1 ∧ (pcimem H c .statNCtrl 0).2.latency = c.latency ∧
    (c.Safe → (pcimem H c .statNCtrl 0).2.Safe) :=
  ⟨rfl, rfl, rfl, fun hc => Ctrl.safe_append hc (.inr ⟨rfl, rfl⟩)⟩

/-- **The polling loop ends** once the command in flight has completed, with nothing held
changed: any number of polls above `busy` gives the same controller. -/
theorem pollLoop_spec : ∀ (n : Nat) (c : Ctrl), c.busy < n →
    pollLoop H n c = pollLoop H (c.busy + 1) c ∧ (pollLoop H n c).mem = c.mem ∧
      Steps c (pollLoop H n c)
  | 0, _, h => absurd h (Nat.not_lt_zero _)
  | n + 1, c, h => by
    obtain ⟨hm, hb, hl, hs⟩ := status_read H c
    rw [pollLoop_succ, pollLoop_succ]
    by_cases h0 : c.busy = 0
    · rw [if_pos h0, if_pos h0]
      exact ⟨rfl, hm, hl, by omega, hs⟩
    · rw [if_neg h0, if_neg h0]
      obtain ⟨hn, hm', hs'⟩ := pollLoop_spec n (pcimem H c .statNCtrl 0).2 (by rw [hb]; omega)
      obtain ⟨hn', -, -⟩ := pollLoop_spec c.busy (pcimem H c .statNCtrl 0).2 (by rw [hb]; omega)
      exact ⟨hn.trans hn'.symm, hm'.trans hm, hs'.latency.trans hl, hs'.busy,
        fun hc => hs'.safe (hs hc)⟩

theorem checkForReadyOrDone_spec (c : Ctrl) :
    (checkForReadyOrDone H c).mem = c.mem ∧ Steps c (checkForReadyOrDone H c) :=
  (pollLoop_spec H _ c (Nat.lt_succ_self _)).2

/-- **What `pcimem` stores**: `data` into the register, and nothing when `data` is `0`. -/
theorem pcimem_mem (c : Ctrl) (reg : Reg) (data : UInt32) :
    (pcimem H c reg data).2.mem = if data ≠ 0 then c.mem.store H reg data else c.mem := by
  by_cases h : data = 0
  · subst h; cases reg <;> rfl
  · cases reg <;> simp [pcimem, h, Ctrl.access, Mem.store]

theorem pcimem_latency (c : Ctrl) (reg : Reg) (data : UInt32) :
    (pcimem H c reg data).2.latency = c.latency := by
  by_cases h : data = 0 <;> cases reg <;> simp [pcimem, h, Ctrl.access]

/-- An access keeps the protocol when no command is in flight, and a status read always does. -/
theorem access_safe {c : Ctrl} (hc : c.Safe) {reg : Reg} {data : Option UInt32}
    (h : c.busy = 0 ∨ (reg = .statNCtrl ∧ data = none)) : (c.access H reg data).2.Safe := by
  have ha : Access.Safe ⟨reg, data, c.busy == 0⟩ := h.imp (fun h => by simp [h]) id
  cases reg <;> cases data <;> exact Ctrl.safe_append hc ha

theorem pcimem_safe {c : Ctrl} (hc : c.Safe) (hb : c.busy = 0) (reg : Reg) (data : UInt32) :
    (pcimem H c reg data).2.Safe := by
  have h₁ : (c.access H reg none).2.Safe := access_safe H hc (.inl hb)
  have hb₁ : (c.access H reg none).2.busy = 0 := by cases reg <;> simp [Ctrl.access, hb]
  have h₂ : ((c.access H reg none).2.access H reg (some data)).2.Safe := access_safe H h₁ (.inl hb₁)
  by_cases h : data = 0
  · simpa [pcimem, h] using h₁
  · simp only [pcimem, h, ne_eq, not_false_eq_true, if_true]
    cases reg
    · exact access_safe H h₂ (.inr ⟨rfl, rfl⟩)
    · exact access_safe H h₂ (.inl (by simpa [Ctrl.access] using hb))

/-- With no command in flight, `pcimem` keeps the protocol, and a wait after it leaves no command
in flight. -/
theorem pcimem_then_wait (c : Ctrl) (hb : c.busy = 0) (reg : Reg) (data : UInt32) :
    (checkForReadyOrDone H (pcimem H c reg data).2).mem =
      (if data ≠ 0 then c.mem.store H reg data else c.mem) ∧
    Steps c (checkForReadyOrDone H (pcimem H c reg data).2) := by
  obtain ⟨hm, hs⟩ := checkForReadyOrDone_spec H (pcimem H c reg data).2
  exact ⟨hm.trans (pcimem_mem H c reg data), hs.latency.trans (pcimem_latency H c reg data),
    hs.busy, fun hc => hs.safe (pcimem_safe H hc hb reg data)⟩

/-- An access between two waits, as the code makes each. -/
theorem waited_spec (c : Ctrl) (reg : Reg) (data : UInt32) :
    (checkForReadyOrDone H (pcimem H (checkForReadyOrDone H c) reg data).2).mem =
      (if data ≠ 0 then c.mem.store H reg data else c.mem) ∧
    Steps c (checkForReadyOrDone H (pcimem H (checkForReadyOrDone H c) reg data).2) := by
  obtain ⟨hm₁, hs₁⟩ := checkForReadyOrDone_spec H c
  obtain ⟨hm₂, hs₂⟩ := pcimem_then_wait H _ hs₁.busy reg data
  rw [hm₁] at hm₂
  exact ⟨hm₂, hs₁.trans hs₂⟩

/-! ### What each function does to the controller -/

theorem command_rd (m : Mem) (blk x y : Nat) :
    m.command H (H.pack ⟨H.rdCmd, blk, x, y⟩) = { m with buffer := m.rom (blk % 2 ^ H.blkBits) } := by
  simp [Mem.command, H.cmd_pack ⟨H.rdCmd, blk, x, y⟩ H.codes.2.2.2.2.1, H.blkAddr_unpack_pack]

theorem command_wren (m : Mem) (blk x y : Nat) :
    m.command H (H.pack ⟨H.wrenCmd, blk, x, y⟩) = { m with latch := true } := by
  have := H.codes
  simp [Mem.command, H.cmd_pack ⟨H.wrenCmd, blk, x, y⟩ this.2.2.2.2.2.2.2.2, this.2.1.symm]

theorem command_wr (m : Mem) (blk x y : Nat) (hl : m.latch = true) :
    m.command H (H.pack ⟨H.wrCmd, blk, x, y⟩) =
      ⟨Function.update m.rom (blk % 2 ^ H.blkBits) m.buffer, m.buffer, false⟩ := by
  have := H.codes
  simp [Mem.command, H.cmd_pack ⟨H.wrCmd, blk, x, y⟩ this.2.2.2.2.2.2.1, this.1.symm, this.2.2.1, hl,
    H.blkAddr_unpack_pack]

/-- **`eep_data`** issues the command, and for the read command returns the buffer after it. -/
theorem eepData_spec (c : Ctrl) {w : UInt32} (hw : w ≠ 0) :
    (eepData H c w).1 =
      (if H.rdCmd = (H.unpack w).cmd then some (c.mem.command H w).buffer else none) ∧
    (eepData H c w).2.mem = c.mem.command H w ∧ Steps c (eepData H c w).2 := by
  obtain ⟨hm₁, hs₁⟩ := waited_spec H c .statNCtrl w
  simp only [if_pos hw, Mem.store] at hm₁
  unfold eepData
  split_ifs with hr
  · obtain ⟨hm₂, hs₂⟩ := pcimem_then_wait H _ hs₁.busy .buffer 0
    rw [if_neg (by simp), hm₁] at hm₂
    exact ⟨congrArg some (congrArg Mem.buffer hm₁), hm₂, hs₁.trans hs₂⟩
  · obtain ⟨hm₂, hs₂⟩ := checkForReadyOrDone_spec H
      (checkForReadyOrDone H (pcimem H (checkForReadyOrDone H c) .statNCtrl w).2)
    exact ⟨rfl, hm₂.trans hm₁, hs₁.trans hs₂⟩

/-- **What a block write does**: the buffer register takes the value unless it is `0`, the
latch is set, and the write command copies the buffer into the block, clearing the latch. -/
theorem programBlock_spec (c : Ctrl) (b : UInt32) (blk x y : Nat) :
    (programBlock H c b ⟨H.wrenCmd, 0, x, y⟩ ⟨H.wrCmd, blk, x, y⟩).mem =
      (let v := if b ≠ 0 then b else c.mem.buffer
       ⟨Function.update c.mem.rom (blk % 2 ^ H.blkBits) v, v, false⟩) ∧
    Steps c (programBlock H c b ⟨H.wrenCmd, 0, x, y⟩ ⟨H.wrCmd, blk, x, y⟩) := by
  have := H.codes
  obtain ⟨hm₁, hs₁⟩ := waited_spec H c .buffer b
  obtain ⟨hm₂, hs₂⟩ := waited_spec H
    (checkForReadyOrDone H (pcimem H (checkForReadyOrDone H c) .buffer b).2) .statNCtrl
    (H.pack ⟨H.wrenCmd, 0, x, y⟩)
  obtain ⟨-, hm₃, hs₃⟩ := eepData_spec H
    (checkForReadyOrDone H (pcimem H (checkForReadyOrDone H
      (checkForReadyOrDone H (pcimem H (checkForReadyOrDone H c) .buffer b).2)) .statNCtrl
      (H.pack ⟨H.wrenCmd, 0, x, y⟩)).2)
    (H.pack_ne_zero ⟨H.wrCmd, blk, x, y⟩ this.2.2.2.2.2.1 this.2.2.2.2.2.2.1)
  refine ⟨?_, hs₁.trans (hs₂.trans hs₃)⟩
  rw [programBlock, hm₃, hm₂, if_pos (H.pack_ne_zero _ this.2.2.2.2.2.2.2.1 this.2.2.2.2.2.2.2.2),
    hm₁, Mem.store, command_wren, command_wr H _ _ _ _ rfl]
  by_cases hb : b = 0 <;> simp [hb, Mem.store]

/-- **What `eep_write` programs**: block `offset` (within the width of `blk_addr`) receives the
value, or, when the value is `0`, whatever the buffer register already held. -/
theorem eepWriteReg_mem (c : Ctrl) (offset : Nat) (v : UInt32) :
    (eepWriteReg H c offset v).mem =
      (let b := if v ≠ 0 then v else c.mem.buffer
       ⟨Function.update c.mem.rom (offset % 2 ^ H.blkBits) b, b, false⟩) :=
  (programBlock_spec H c v offset 0 0).1

/-- **What `eep_read` returns**: the block, which the buffer register now holds. -/
theorem eepReadReg_spec (c : Ctrl) (offset : Nat) :
    (eepReadReg H c offset).1 = c.mem.rom (offset % 2 ^ H.blkBits) ∧
    (eepReadReg H c offset).2.mem = { c.mem with buffer := c.mem.rom (offset % 2 ^ H.blkBits) } ∧
    Steps c (eepReadReg H c offset).2 := by
  obtain ⟨h₁, h₂, h₃⟩ := eepData_spec H c
    (H.pack_ne_zero ⟨H.rdCmd, offset, 0, 0⟩ H.codes.2.2.2.1 H.codes.2.2.2.2.1)
  rw [if_pos (H.cmd_pack ⟨H.rdCmd, offset, 0, 0⟩ H.codes.2.2.2.2.1).symm, command_rd] at h₁
  rw [command_rd] at h₂
  exact ⟨by simp [eepReadReg, h₁], h₂, h₃⟩

end Spec

/-! ### The controller refines the faithful chip -/

/-- A call of the EEPROM access functions, as the image functions make them. -/
inductive EepCall
  | write (offset : Nat) (value : UInt32)
  | read (offset : Nat)
deriving DecidableEq, Repr

/-- A sequence of calls through a port: the values its reads return, and the state after it. -/
def runCalls {σ : Type} (P : EepPort σ) : σ → List EepCall → List UInt32 × σ
  | s, [] => ([], s)
  | s, .write a v :: cs => runCalls P (eepWrite P s a v) cs
  | s, .read a :: cs =>
    let r := eepRead P s a
    let rest := runCalls P r.2 cs
    (r.1 :: rest.1, rest.2)

/-- The calls the refinement covers: a block address that `blk_addr` holds, and no zero word
written. -/
def EepCall.Supported (H : CtrlH) : EepCall → Prop
  | .write a v => a < 2 ^ H.blkBits ∧ v ≠ 0
  | .read a => a < 2 ^ H.blkBits

instance (H : CtrlH) : DecidablePred (EepCall.Supported H) := fun
  | .write _ _ => inferInstanceAs (Decidable (_ ∧ _))
  | .read _ => inferInstanceAs (Decidable (_ < _))

/-- **The code refines the faithful chip.** Start the controller with the chip's blocks and run
any sequence of `eep_write` and `eep_read` calls that writes no zero word to addresses
`blk_addr` can hold: the reads return what the faithful chip's reads return, the controller ends
with the chip's blocks, and no access of the code ever touches the buffer register or writes a
register while a command is in flight. -/
theorem runCalls_refines (H : CtrlH) (cs : List EepCall) (hcs : ∀ x ∈ cs, x.Supported H)
    (c : Ctrl) (k : Chip) (hrom : c.mem.rom = k.blocks) :
    (runCalls (regPort H) c cs).1 = (runCalls Chip.port k cs).1 ∧
    (runCalls (regPort H) c cs).2.mem.rom = (runCalls Chip.port k cs).2.blocks ∧
    (c.Safe → (runCalls (regPort H) c cs).2.Safe) := by
  induction cs generalizing c k with
  | nil => exact ⟨rfl, hrom, id⟩
  | cons x cs ih =>
    have ih := ih fun y hy => hcs y (List.mem_cons_of_mem x hy)
    cases x with
    | write a v =>
      obtain ⟨ha, hv⟩ : a < 2 ^ H.blkBits ∧ v ≠ 0 := hcs _ (List.mem_cons_self _ _)
      have hw : (eepWriteReg H c a v).mem.rom = (Chip.port.write k a v).blocks := by
        rw [eepWriteReg_mem, Chip.port_write_blocks, if_pos hv, Nat.mod_eq_of_lt ha, hrom]
      obtain ⟨h₁, h₂, h₃⟩ := ih _ _ hw
      exact ⟨h₁, h₂, fun hc => h₃ ((programBlock_spec H c v a 0 0).2.safe hc)⟩
    | read a =>
      have ha : a < 2 ^ H.blkBits := hcs _ (List.mem_cons_self _ _)
      obtain ⟨hv, hm, hs⟩ := eepReadReg_spec H c a
      obtain ⟨h₁, h₂, h₃⟩ := ih _ k (by rw [hm, hrom])
      exact ⟨congrArg₂ List.cons (hv.trans (by rw [Nat.mod_eq_of_lt ha, hrom]; rfl)) h₁, h₂,
        fun hc => h₃ (hs.safe hc)⟩

/-- Writing block `1` and reading it back through the controller of `ctrlH`, started with the
blocks of an erased chip, returns what the chip returns. -/
theorem runCalls_refines_write_read :
    (∀ x ∈ [EepCall.write 1 0x12345678, .read 1], x.Supported ctrlH) ∧
    (⟨⟨fun _ => 0xffffffff, 0, false⟩, 0, 2, []⟩ : Ctrl).mem.rom =
      (⟨fun _ => 0xffffffff, []⟩ : Chip).blocks ∧
    (runCalls (regPort ctrlH) ⟨⟨fun _ => 0xffffffff, 0, false⟩, 0, 2, []⟩
        [.write 1 0x12345678, .read 1]).1 =
      (runCalls Chip.port ⟨fun _ => 0xffffffff, []⟩ [.write 1 0x12345678, .read 1]).1 ∧
    (runCalls (regPort ctrlH) ⟨⟨fun _ => 0xffffffff, 0, false⟩, 0, 2, []⟩
        [.write 1 0x12345678, .read 1]).2.mem.rom =
      (runCalls Chip.port ⟨fun _ => 0xffffffff, []⟩ [.write 1 0x12345678, .read 1]).2.blocks ∧
    (Ctrl.Safe ⟨⟨fun _ => 0xffffffff, 0, false⟩, 0, 2, []⟩ →
      (runCalls (regPort ctrlH) ⟨⟨fun _ => 0xffffffff, 0, false⟩, 0, 2, []⟩
        [.write 1 0x12345678, .read 1]).2.Safe) :=
  ⟨by decide, rfl, runCalls_refines ctrlH _ (by decide) _ _ rfl⟩

/-! ### Programming an image: a zero word -/

/-- One round of the write loop of `EepromFileLoad`, through any port. -/
theorem writeWords_succ {σ : Type} (P : EepPort σ) (buf : Nat → UInt8) (n o : Nat) (cnt : UInt8)
    (s : σ) : writeWords P buf (n + 1) o cnt s =
      if (eepRead P (eepWrite P s cnt.toNat (leWord buf o)) cnt.toNat).1 ≠ leWord buf o then
        (false, o, cnt, (eepRead P (eepWrite P s cnt.toNat (leWord buf o)) cnt.toNat).2)
      else writeWords P buf n (o + 4) (cnt + 1)
        (eepRead P (eepWrite P s cnt.toNat (leWord buf o)) cnt.toNat).2 := rfl

section ZeroWord

variable (H : CtrlH) (buf : Nat → UInt8)

theorem toNat_mod_blkBits (hbits : 8 ≤ H.blkBits) (cnt : UInt8) :
    cnt.toNat % 2 ^ H.blkBits = cnt.toNat :=
  Nat.mod_eq_of_lt (lt_of_lt_of_le (UInt8.toNat_lt_256 cnt)
    (by simpa using Nat.pow_le_pow_right (by omega : 0 < 2) hbits))

/-- A word of the write loop that is not `0` is programmed, read back equal, and left in the
buffer register. -/
theorem writeWords_word (hbits : 8 ≤ H.blkBits) (n o : Nat) (cnt : UInt8) (c : Ctrl)
    (hw : leWord buf o ≠ 0) :
    writeWords (regPort H) buf (n + 1) o cnt c = writeWords (regPort H) buf n (o + 4) (cnt + 1)
      (eepReadReg H (eepWriteReg H c cnt.toNat (leWord buf o)) cnt.toNat).2 ∧
    (eepReadReg H (eepWriteReg H c cnt.toNat (leWord buf o)) cnt.toNat).2.mem.buffer =
      leWord buf o := by
  obtain ⟨hv, hm, -⟩ := eepReadReg_spec H (eepWriteReg H c cnt.toNat (leWord buf o)) cnt.toNat
  have hrd : (eepWriteReg H c cnt.toNat (leWord buf o)).mem.rom (cnt.toNat % 2 ^ H.blkBits) =
      leWord buf o := by
    simp [eepWriteReg_mem, hw, toNat_mod_blkBits H hbits]
  refine ⟨?_, by rw [hm, hrd]⟩
  rw [writeWords_succ, if_neg (by rw [not_not]; exact hv.trans hrd)]
  rfl

/-- A zero word after a word that is not `0`: `eep_write` programs the buffer register, which
still holds the word read back before, and the read-back differs from `0`. -/
theorem writeWords_zero (hbits : 8 ≤ H.blkBits) (n o : Nat) (cnt : UInt8) (c : Ctrl)
    (hz : leWord buf o = 0) (hb : c.mem.buffer ≠ 0) :
    ∃ c', writeWords (regPort H) buf (n + 1) o cnt c = (false, o, cnt, c') ∧
      c'.mem.rom cnt.toNat = c.mem.buffer := by
  obtain ⟨hv, hm, -⟩ := eepReadReg_spec H (eepWriteReg H c cnt.toNat 0) cnt.toNat
  have hrd : (eepWriteReg H c cnt.toNat 0).mem.rom cnt.toNat = c.mem.buffer := by
    simp [eepWriteReg_mem, toNat_mod_blkBits H hbits]
  rw [toNat_mod_blkBits H hbits, hrd] at hv
  have hne : (eepRead (regPort H) (eepWrite (regPort H) c cnt.toNat 0) cnt.toNat).1 ≠ 0 :=
    show (eepReadReg H (eepWriteReg H c cnt.toNat 0) cnt.toNat).1 ≠ 0 from hv ▸ hb
  refine ⟨(eepReadReg H (eepWriteReg H c cnt.toNat 0) cnt.toNat).2, ?_, by rw [hm]; exact hrd⟩
  rw [writeWords_succ, hz, if_pos hne]
  rfl

theorem uint8_add_ofNat (cnt : UInt8) (i : Nat) :
    cnt + 1 + UInt8.ofNat i = cnt + UInt8.ofNat (i + 1) := by
  apply UInt8.eq_of_toNat
  simp only [UInt8.toNat_add', UInt8.toNat_ofNat', show (1 : UInt8).toNat = 1 from rfl]
  omega

/-- A run of words that are not `0` is programmed word by word, and leaves the last of them in
the buffer register. -/
theorem writeWords_words (hbits : 8 ≤ H.blkBits) : ∀ (i o : Nat) (cnt : UInt8) (c : Ctrl) (n : Nat),
    0 < i → (∀ t < i, leWord buf (o + 4 * t) ≠ 0) →
    ∃ c', writeWords (regPort H) buf (n + i) o cnt c =
        writeWords (regPort H) buf n (o + 4 * i) (cnt + UInt8.ofNat i) c' ∧
      c'.mem.buffer = leWord buf (o + 4 * (i - 1))
  | 0, _, _, _, _, h, _ => absurd h (Nat.lt_irrefl 0)
  | i + 1, o, cnt, c, n, _, hw => by
    obtain ⟨h₁, hb₁⟩ := writeWords_word H buf hbits (n + i) o cnt c (by simpa using hw 0 (by omega))
    rw [← Nat.add_assoc, h₁]
    rcases Nat.eq_zero_or_pos i with rfl | hi
    · exact ⟨_, rfl, by simpa using hb₁⟩
    · obtain ⟨c', h₂, hb₂⟩ := writeWords_words hbits i (o + 4) (cnt + 1) _ n hi fun t ht => by
        rw [show o + 4 + 4 * t = o + 4 * (t + 1) by omega]
        exact hw (t + 1) (by omega)
      refine ⟨c', ?_, ?_⟩
      · rw [h₂, uint8_add_ofNat, show o + 4 + 4 * i = o + 4 * (i + 1) by omega]
      · rw [hb₂, show o + 4 + 4 * (i - 1) = o + 4 * (i + 1 - 1) by omega]

/-- Through the faithful chip every word reads back as written: the write loop never fails. -/
theorem writeWords_chip : ∀ (n o : Nat) (cnt : UInt8) (k : Chip),
    (writeWords Chip.port buf n o cnt k).1 = true
  | 0, _, _, _ => rfl
  | n + 1, o, cnt, k => by
    rw [writeWords_succ, if_neg (by simp [eepRead, eepWrite])]
    exact writeWords_chip n _ _ _

theorem programImage_chip (E : EepH) (fileSize : Nat) (k : Chip) :
    (programImage Chip.port E buf fileSize k).1 = exitSuccess := by
  have h := writeWords_chip buf (fileSize / 4) 0 0 k
  unfold programImage
  generalize writeWords Chip.port buf (fileSize / 4) 0 0 k = r at h ⊢
  obtain ⟨b, o, cnt, s⟩ := r
  subst h
  rfl

end ZeroWord

/-- **`EepromFileLoad` fails on a zero word.** Whatever the controller holds and however long its
commands take, programming an image whose first `k ≥ 1` whole words are not `0` and whose word
`k` is `0` fails with `EEP_FAIL`: `pcimem` skips the write of `0`, so block `k` receives the word
before it, still in the buffer register from its read-back. The faithful chip takes every
image. -/
theorem programImage_fails_on_zero_word (H : CtrlH) (E : EepH) (buf : Nat → UInt8)
    (fileSize k : Nat) (hbits : 8 ≤ H.blkBits) (hk : 0 < k) (hkf : k < fileSize / 4)
    (hk256 : k < 256) (hnz : ∀ i < k, leWord buf (4 * i) ≠ 0) (hz : leWord buf (4 * k) = 0)
    (c : Ctrl) (chip : Chip) :
    (∃ c', programImage (regPort H) E buf fileSize c = (E.eepFail, c') ∧
      c'.mem.rom k = leWord buf (4 * (k - 1))) ∧
    (programImage Chip.port E buf fileSize chip).1 = exitSuccess := by
  obtain ⟨c₁, h₁, hb₁⟩ := writeWords_words H buf hbits k 0 0 c (fileSize / 4 - k) hk
    fun t ht => by simpa using hnz t ht
  obtain ⟨c₂, h₂, hr₂⟩ := writeWords_zero H buf hbits (fileSize / 4 - k - 1) (0 + 4 * k)
    (0 + UInt8.ofNat k) c₁ (by simpa using hz)
    (by rw [hb₁, Nat.zero_add]; exact hnz (k - 1) (by omega))
  have hcnt : (0 + UInt8.ofNat k).toNat = k := by
    rw [UInt8.toNat_add', UInt8.toNat_ofNat']
    show (0 + k % 256) % 256 = k
    omega
  have hrom : c₂.mem.rom k = leWord buf (4 * (k - 1)) := calc
    c₂.mem.rom k = c₂.mem.rom (0 + UInt8.ofNat k).toNat := by rw [hcnt]
    _ = leWord buf (4 * (k - 1)) := by rw [hr₂, hb₁, Nat.zero_add]
  refine ⟨⟨c₂, ?_, hrom⟩, programImage_chip buf E fileSize chip⟩
  rw [programImage, show fileSize / 4 = fileSize / 4 - k + k by omega, h₁,
    show fileSize / 4 - k = fileSize / 4 - k - 1 + 1 by omega, h₂]

/-- The image `01 00 00 00 00 00 00 00`: a first word `1`, then a zero word. -/
def zeroWordImage : Nat → UInt8 := fun i => if i = 0 then 1 else 0

theorem programImage_fails_on_zero_word_image :
    8 ≤ ctrlH.blkBits ∧ 0 < 1 ∧ 1 < 8 / 4 ∧ 1 < 256 ∧
    (∀ i < 1, leWord zeroWordImage (4 * i) ≠ 0) ∧ leWord zeroWordImage (4 * 1) = 0 ∧
    (∃ c', programImage (regPort ctrlH) eepH zeroWordImage 8
        ⟨⟨fun _ => 0xffffffff, 0, false⟩, 0, 2, []⟩ = (eepH.eepFail, c') ∧
      c'.mem.rom 1 = leWord zeroWordImage (4 * (1 - 1))) ∧
    (programImage Chip.port eepH zeroWordImage 8 ⟨fun _ => 0xffffffff, []⟩).1 = exitSuccess :=
  ⟨by decide, by decide, by decide, by decide, by decide, by decide,
    programImage_fails_on_zero_word ctrlH eepH zeroWordImage 8 1 (by decide) (by decide)
      (by decide) (by decide) (by decide) (by decide) _ _⟩

end Eeprom
end AdnacomEe
