import AdnacomEe.Basic

/-!
# The H1A's EEPROM as `h1a_ee` drives it

`h1a_ee` reaches the serial EEPROM of the PLX switch through two registers in BAR0: a buffer
register and a command/status register. Each of `eep_read`, `eep_write`, `eep_read_16` and
`eep_write_16` polls the controller, moves one 32-bit value through the buffer register and
issues a command naming a block address. What the image code relies on is only the effect:
`eep_write` programs the 32-bit block at an address, `eep_read` returns one, and the 16-bit
variants write the low half with the high half forced to `0xffff` and read back the low half.

The controller is therefore a parameter `EepPort`: a state, a block write and a block read
that may move the state on (a faithful chip, or one whose read-backs are scripted). `Chip` is
the faithful chip: it stores what is written and returns it, and records (as ghost state) the
addresses written, in order.

The constants of `eep.h`, which is not among the sources, are the parameter `EepH`.
-/

namespace AdnacomEe
namespace Eeprom

/-- The constants of `eep.h` (not among the sources): the status codes `EEP_FAIL`,
`EEP_NOT_EXIST` and `EEP_BLANK_INVALID`, and the values `NOT_PRSNT`, `PRSNT_VALID` and
`PRSNT_INVALID` of the two-bit EEPROM-present field of the status register. -/
structure EepH where
  eepFail : Nat
  eepNotExist : Nat
  eepBlankInvalid : Nat
  notPrsnt : Nat
  prsntValid : Nat
  prsntInvalid : Nat

/-- One choice of the `eep.h` constants, for statements at a fixed input: the failure codes `1`,
`2`, `3`, and the present field `0` (none), `1` (valid), `2` (invalid). -/
def eepH : EepH := ⟨1, 2, 3, 0, 1, 2⟩

/-- `EXIT_SUCCESS` of `stdlib.h`. -/
def exitSuccess : Nat := 0

/-- `EXIT_FAILURE` of `stdlib.h`. -/
def exitFailure : Nat := 1

/-- The fields of `struct eep_options` that the image code reads or writes. `bLoadFile` is an
`int` that the code only ever sets to `true` or `false`; `SerialNumber` is `char[4]`, stored
byte for byte into the image. -/
structure EepOptions where
  bLoadFile : Bool
  serialNumber : Fin 4 → UInt8
  extraBytes : UInt16
  bListOnly : Bool
  bSerialNumber : Bool
  bIsInit : Bool
  bIsNotPresent : Bool

/-- The EEPROM controller: a state, `write s addr value` programming a 32-bit block, and
`read s addr` returning a block and the state after the read. -/
structure EepPort (σ : Type) where
  write : σ → Nat → UInt32 → σ
  read : σ → Nat → UInt32 × σ

variable {σ : Type} (P : EepPort σ)

/-- `eep_write(d, offset, value)`. -/
def eepWrite (s : σ) (offset : Nat) (value : UInt32) : σ := P.write s offset value

/-- `eep_write_16(d, offset, value)`: the block is written as `0xffff0000 | value`, "so write
won't be ignored". -/
def eepWrite16 (s : σ) (offset : Nat) (value : UInt16) : σ :=
  P.write s offset (0xffff0000 ||| value.toUInt32)

/-- `eep_read(d, offset, &value)`. -/
def eepRead (s : σ) (offset : Nat) : UInt32 × σ := P.read s offset

/-- `eep_read_16(d, offset, &value)`: the 32-bit block, stored into a `uint16_t`. -/
def eepRead16 (s : σ) (offset : Nat) : UInt16 × σ :=
  let (v, s') := P.read s offset
  ((v &&& 0xFFFFFFFF).toUInt16, s')

/-- A faithful EEPROM: the content of every block, and (ghost) the block addresses written so
far, in order. -/
structure Chip where
  blocks : Nat → UInt32
  written : List Nat

/-- The faithful EEPROM as a controller: a write stores the block, a read returns it. -/
def Chip.port : EepPort Chip where
  write c a v := ⟨Function.update c.blocks a v, c.written ++ [a]⟩
  read c a := (c.blocks a, c)

@[simp] theorem Chip.port_read (c : Chip) (a : Nat) : Chip.port.read c a = (c.blocks a, c) := rfl

@[simp] theorem Chip.port_write_blocks (c : Chip) (a : Nat) (v : UInt32) :
    (Chip.port.write c a v).blocks = Function.update c.blocks a v := rfl

@[simp] theorem Chip.port_write_written (c : Chip) (a : Nat) (v : UInt32) :
    (Chip.port.write c a v).written = c.written ++ [a] := rfl

end Eeprom
end AdnacomEe
