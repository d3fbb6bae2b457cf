import AdnacomEe.Eeprom.Load

/-!
# `EepromFileSave`: reading the EEPROM back

`EepromFileSave` reads block `0`, takes the image size from its upper half (`EepSize =
4 + (value >> 16)`, plus `ExtraBytes` rounded up to an even count when any are asked for), and
reads the image into a fresh buffer: whole words with `eep_read`, then a last partial word
with `eep_read_16`. It then either writes the buffer to the file or, when a write is coming
(`bLoadFile` without `-n`), scans it for the serial number to carry over.

The read loop has the same `uint8_t` block counter as the write loop of `EepromFileLoad`,
and the partial word is read as 16 bits, so a size of `3 mod 4` leaves the last byte of the
buffer as `malloc` returned it (`eepromFileSave_keeps_heap_byte`).
-/

namespace AdnacomEe
namespace Eeprom

variable {σ : Type} (P : EepPort σ)

/-- The size computation of `EepromFileSave` on the header block `value`, in `uint32_t`. -/
def eepSize (opts : EepOptions) (value : UInt32) : UInt32 :=
  let size := (4 : UInt32) + (value >>> (16 : UInt32))
  if opts.extraBytes ≠ 0 then (size + opts.extraBytes.toUInt32 + 1) &&& ~~~1 else size

/-- The read loop of `EepromFileSave` for `n` more words from `offset`, block counter `count`:
each block read with `eep_read` is stored into the buffer at `offset`. -/
def readWords : (Nat → UInt8) → Nat → Nat → UInt8 → σ → (Nat → UInt8) × Nat × UInt8 × σ
  | buf, 0, offset, count, s => (buf, offset, count, s)
  | buf, n + 1, offset, count, s =>
    let (value, s₁) := eepRead P s count.toNat
    readWords (storeWord buf offset value) n (offset + 4) (count + 1) s₁

/-- The buffer `EepromFileSave` reads, with its size and the controller state after the reads:
the header read, the word loop, and the 16-bit read of a partial last word. `heap` is the
content of the freshly allocated buffer. -/
def saveBuffer (opts : EepOptions) (heap : Nat → UInt8) (s : σ) : (Nat → UInt8) × Nat × σ :=
  let (header, s₀) := eepRead P s 0
  let size := (eepSize opts header).toNat
  let (buf, offset, count, s₁) := readWords P heap (size / 4) 0 0 s₀
  if offset < size then
    let (half, s₂) := eepRead16 P s₁ count.toNat
    (storeHalf buf offset half, size, s₂)
  else (buf, size, s₁)

/-- How the serial-number scan of `EepromFileSave` breaks: at a marker `i`, or at index `2`
with two zero bytes ("EEPROM came out of initialization"). -/
inductive SaveScan
  | serial (i : Nat)
  | init
deriving DecidableEq, Repr

/-- The serial-number scan of `EepromFileSave` over a buffer of `size` bytes. -/
def saveMarkerScan (buf : Nat → UInt8) (size : Nat) : Option (Option SaveScan) :=
  scanU8 size (fun i =>
    if isMarker buf i then some (.serial i)
    else if i = 2 ∧ buf i = 0 ∧ buf (i + 1) = 0 then some .init else none) scanFuel 0

/-- What the scan leaves in `EepOptions`: the four bytes after the marker, in reverse order, as
`SerialNumber` (`SerialNumber[k] = g_pBuffer[i + 5 - k]`), or `bIsInit` set. -/
def takeSerial (opts : EepOptions) (buf : Nat → UInt8) : Option SaveScan → EepOptions
  | some (.serial i) => { opts with serialNumber := fun k => buf (i + 5 - k) }
  | some .init => { opts with bIsInit := true }
  | none => opts

/-- The outcome of `EepromFileSave`: its return code, the bytes written to the file if it was
written, the options as it leaves them, and the controller state. -/
structure SaveResult (σ : Type) where
  rc : Nat
  file : Option (List UInt8)
  opts : EepOptions
  state : σ

/-- **`EepromFileSave`.** `canCreate` says whether `fopen(FileName, "wb")` succeeds. `none` when
the serial-number scan never ends. -/
def eepromFileSave (H : EepH) (opts : EepOptions) (heap : Nat → UInt8) (canCreate : Bool)
    (s : σ) : Option (SaveResult σ) :=
  let (buf, size, s₁) := saveBuffer P opts heap s
  if !opts.bSerialNumber && !opts.bLoadFile then
    if canCreate then some ⟨exitSuccess, some ((List.range size).map buf), opts, s₁⟩
    else some ⟨H.eepFail, none, opts, s₁⟩
  else if !opts.bSerialNumber && opts.bLoadFile then
    (saveMarkerScan buf size).map fun r => ⟨exitSuccess, none, takeSerial opts buf r, s₁⟩
  else some ⟨exitSuccess, none, opts, s₁⟩

/-! ### A seven-byte image -/

/-- Options of `h1a_ee -s file`. -/
def saveOptions : EepOptions :=
  ⟨false, fun _ => 0, 0, false, false, false, false⟩

/-- A chip whose header announces `3` register bytes, so a seven-byte image, and whose block `1`
holds `0xaa` in its byte `2`. -/
def sevenByteChip : Chip := ⟨fun a => if a = 0 then 0x00030000 else 0x00aa0000, []⟩

/-- Saving the seven-byte image writes a file of seven bytes whose last byte is whatever the
freshly allocated buffer held (here `0`), not byte `2` of block `1`, `0xaa`. -/
theorem eepromFileSave_keeps_heap_byte (H : EepH) :
    ∃ r, eepromFileSave Chip.port H saveOptions (fun _ => 0) true sevenByteChip = some r ∧
      r.file = some [0x00, 0x00, 0x03, 0x00, 0x00, 0x00, 0x00] ∧
      wordByte (sevenByteChip.blocks 1) 2 = 0xaa := by
  refine ⟨_, rfl, ?_, by decide⟩
  decide

end Eeprom
end AdnacomEe
