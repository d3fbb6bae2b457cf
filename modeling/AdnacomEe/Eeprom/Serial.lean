import AdnacomEe.Eeprom.Save

/-!
# `EepFile`: the serial number carried across a write

Writing an image without `-n` keeps the board's serial number: `EepFile` first runs
`EepromFileSave`, whose scan of the EEPROM's current content leaves the four bytes after the
first `0x42 0x00` marker in `EepOptions.SerialNumber`, and then `EepromFileLoad`, whose scan of
the image writes them after the image's own first marker.

Both scans break at the first of several tests, in a fixed order, and the save scan has two
ways to break: a marker, or index `2` holding two zero bytes, which reads as an EEPROM fresh
from initialisation and turns the patch off (`bIsInit`). `SerialAt`, `InitAt` and
`FirstMarker` say where each scan breaks, and `eepFile_serial` what the programmed image then
is. A scan that breaks nowhere is not covered: the save scan then leaves `SerialNumber` as it
was, and a scan over 256 bytes or more never ends (`markerScans_leave_bounds`, which also shows a
marker read past the end of the image).
-/

namespace AdnacomEe
namespace Eeprom

variable {σ : Type} (P : EepPort σ)

/-- **`EepFile`**: save, or write. A write without `-n` first runs `EepromFileSave` for the
serial number it leaves in `EepOptions`, and ignores its return code. Returns `rc` and the
controller state; `none` when a scan never ends. -/
def eepFile (H : EepH) (opts : EepOptions) (file : Option (List UInt8))
    (heapSave heapLoad : Nat → UInt8) (canCreate : Bool) (s : σ) : Option (Nat × σ) :=
  if opts.bLoadFile then
    if opts.bSerialNumber = false then
      (eepromFileSave P H opts heapSave canCreate s).bind fun r =>
        eepromFileLoad P H r.opts file heapLoad r.state
    else eepromFileLoad P H opts file heapLoad s
  else (eepromFileSave P H opts heapSave canCreate s).map fun r => (r.rc, r.state)

/-- The save scan over `buf` of `size` bytes breaks at a marker at `j`: below the size and the
256 values of its counter, with no earlier marker and no earlier break at index `2`. -/
def SerialAt (buf : Nat → UInt8) (size j : Nat) : Prop :=
  j < size ∧ j < 256 ∧ isMarker buf j = true ∧
    ∀ i < j, isMarker buf i = false ∧ ¬(i = 2 ∧ buf i = 0 ∧ buf (i + 1) = 0)

/-- The save scan over `buf` of `size` bytes breaks at index `2`, which holds two zero bytes, with
no marker at indices `0`, `1` or `2`. -/
def InitAt (buf : Nat → UInt8) (size : Nat) : Prop :=
  2 < size ∧ (∀ i ≤ 2, isMarker buf i = false) ∧ buf 2 = 0 ∧ buf 3 = 0

/-- The first marker of the image `buf` of `size` bytes is at `i`, below the size and the 256
values of the load scan's counter. -/
def FirstMarker (buf : Nat → UInt8) (size i : Nat) : Prop :=
  i < size ∧ i < 256 ∧ isMarker buf i = true ∧ ∀ k < i, isMarker buf k = false

theorem saveMarkerScan_of_serialAt {buf : Nat → UInt8} {size j : Nat} (h : SerialAt buf size j) :
    saveMarkerScan buf size = some (some (.serial j)) :=
  scanU8_first h.1 h.2.1 (by simp [h.2.2.1])
    (fun i hi => by simp [(h.2.2.2 i hi).1, (h.2.2.2 i hi).2]) scanFuel 0 (Nat.zero_le _)
    (by have := h.2.1; unfold scanFuel; omega)

theorem saveMarkerScan_of_initAt {buf : Nat → UInt8} {size : Nat} (h : InitAt buf size) :
    saveMarkerScan buf size = some (some .init) :=
  scanU8_first h.1 (by omega) (by simp [h.2.1 2 le_rfl, h.2.2.1, h.2.2.2])
    (fun i hi => by simp [h.2.1 i (by omega), show i ≠ 2 by omega]) scanFuel 0 (Nat.zero_le _)
    (by unfold scanFuel; omega)

theorem loadMarkerScan_of_firstMarker {buf : Nat → UInt8} {size i : Nat}
    (h : FirstMarker buf size i) : loadMarkerScan buf size = some (some i) :=
  scanU8_first h.1 h.2.1 (by simp [h.2.2.1]) (fun k hk => by simp [h.2.2.2 k hk]) scanFuel 0
    (Nat.zero_le _) (by have := h.2.1; unfold scanFuel; omega)

/-- With `bLoadFile` and without `-n`, `EepromFileSave` only reads the buffer and scans it. -/
theorem eepromFileSave_of_load (H : EepH) {opts : EepOptions} (hw : opts.bLoadFile = true)
    (hn : opts.bSerialNumber = false) (heap : Nat → UInt8) (canCreate : Bool) (s : σ) :
    eepromFileSave P H opts heap canCreate s =
      (saveMarkerScan (saveBuffer P opts heap s).1 (saveBuffer P opts heap s).2.1).map fun r =>
        ⟨exitSuccess, none, takeSerial opts (saveBuffer P opts heap s).1 r,
          (saveBuffer P opts heap s).2.2⟩ := by
  simp [eepromFileSave, hw, hn]

/-- The patch at `i` writes the serial number `sn` into bytes `i + 2 .. i + 5`, last byte first. -/
theorem patchSerial_apply (buf : Nat → UInt8) (sn : Fin 4 → UInt8) (i x : Nat) :
    patchSerial buf sn i x =
      if x = i + 2 then sn 3 else if x = i + 3 then sn 2 else if x = i + 4 then sn 1
      else if x = i + 5 then sn 0 else buf x := by
  simp only [patchSerial, Function.update_apply]

/-- The word after the marker `i` once patched: `SerialNumber` read last byte first. -/
theorem leWord_patchSerial (buf : Nat → UInt8) (sn : Fin 4 → UInt8) (i : Nat) :
    (leWord (patchSerial buf sn i) (i + 2)).toNat =
      (sn 3).toNat + (sn 2).toNat * 2 ^ 8 + (sn 1).toNat * 2 ^ 16 + (sn 0).toNat * 2 ^ 24 := by
  rw [leWord_toNat]
  simp [patchSerial_apply]

/-- **A write with `-n`** runs no `EepromFileSave`, and programs the file with `SerialNumber`
patched in after the image's first marker. -/
theorem eepFile_of_serial (H : EepH) {opts : EepOptions} (hw : opts.bLoadFile = true)
    (hn : opts.bSerialNumber = true) (hi : opts.bIsInit = false) (F : List UInt8)
    (heapSave heapLoad : Nat → UInt8) (canCreate : Bool) (s : σ) {i : Nat}
    (hF : FirstMarker (loadBuffer F (fileSizeOf F) heapLoad) (fileSizeOf F) i) :
    eepFile P H opts (some F) heapSave heapLoad canCreate s = some (programImage P H
      (patchSerial (loadBuffer F (fileSizeOf F) heapLoad) opts.serialNumber i) (fileSizeOf F) s) := by
  simp [eepFile, hw, hn, eepromFileLoad, loadImage, hi, loadMarkerScan_of_firstMarker hF]

/-- **The serial number carried across a write.** For a write without `-n` (`bIsInit` clear, as
`main` leaves it), let `E` be what `EepromFileSave` reads and `image` the loaded file. If the
save scan breaks at a marker at `j` and the image's first marker is at `i`, the image programmed
has the four bytes after `E`'s marker right after its own and is otherwise the file. If the
save scan breaks at index `2` instead, the file is programmed unchanged. -/
theorem eepFile_serial (H : EepH) (opts : EepOptions) (hw : opts.bLoadFile = true)
    (hn : opts.bSerialNumber = false) (hi : opts.bIsInit = false) (F : List UInt8)
    (heapSave heapLoad : Nat → UInt8) (canCreate : Bool) (s : σ) :
    let E := saveBuffer P opts heapSave s
    let N := fileSizeOf F
    let image := loadBuffer F N heapLoad
    (∀ j i, SerialAt E.1 E.2.1 j → FirstMarker image N i →
      ∃ img, eepFile P H opts (some F) heapSave heapLoad canCreate s =
          some (programImage P H img N E.2.2) ∧
        (∀ k < 4, img (i + 2 + k) = E.1 (j + 2 + k)) ∧
        ∀ x, x < i + 2 ∨ i + 6 ≤ x → img x = image x) ∧
    (InitAt E.1 E.2.1 →
      eepFile P H opts (some F) heapSave heapLoad canCreate s =
        some (programImage P H image N E.2.2)) := by
  dsimp only
  have hfile : eepFile P H opts (some F) heapSave heapLoad canCreate s =
      (eepromFileSave P H opts heapSave canCreate s).bind fun r =>
        eepromFileLoad P H r.opts (some F) heapLoad r.state := by
    simp [eepFile, hw, hn]
  refine ⟨fun j i hj hF => ?_, fun h => ?_⟩
  · refine ⟨patchSerial (loadBuffer F (fileSizeOf F) heapLoad)
      (fun k => (saveBuffer P opts heapSave s).1 (j + 5 - k)) i, ?_, fun k hk => ?_, fun x hx => ?_⟩
    · rw [hfile, eepromFileSave_of_load P H hw hn, saveMarkerScan_of_serialAt hj]
      simp [takeSerial, eepromFileLoad, loadImage, hi, loadMarkerScan_of_firstMarker hF]
    · rw [patchSerial_apply]
      interval_cases k <;> simp [show ((3 : Fin 4) : Nat) = 3 from rfl]
    · rw [patchSerial_apply]
      simp only [show x ≠ i + 2 by omega, show x ≠ i + 3 by omega, show x ≠ i + 4 by omega,
        show x ≠ i + 5 by omega, if_false]
  · rw [hfile, eepromFileSave_of_load P H hw hn, saveMarkerScan_of_initAt h]
    simp [takeSerial, eepromFileLoad, loadImage]

/-- A chip whose image starts with the marker, followed by a zero byte count: `42 00 00 00`. -/
def markerFirstChip : Chip := ⟨fun a => if a = 0 then 0x00000042 else 0xffffffff, []⟩

/-- Writing `42 00 11 22 33 44` over `markerFirstChip`, where bytes `2` and `3` of the EEPROM are
both zero, does not keep the file's own serial bytes: the save scan meets the marker at `0`
before it reaches index `2`, so byte `2` of block `0` ends as `0`, not the file's `0x11`. -/
theorem eepFile_serial_marker_first :
    ∃ c, eepFile Chip.port eepH ⟨true, fun _ => 0, 0, false, false, false, false⟩
        (some [0x42, 0x00, 0x11, 0x22, 0x33, 0x44]) (fun _ => 0) (fun _ => 0) true
        markerFirstChip = some (exitSuccess, c) ∧
      wordByte (markerFirstChip.blocks 0) 2 = 0 ∧ wordByte (markerFirstChip.blocks 0) 3 = 0 ∧
      wordByte (c.blocks 0) 2 = 0 := by
  refine ⟨_, rfl, by decide, by decide, ?_⟩
  decide

/-- Options of `h1a_ee -w file`. -/
def writeOptions : EepOptions := ⟨true, fun _ => 0, 0, false, false, false, false⟩

/-- A chip holding the twelve-byte image `5a 00 08 00 42 00 a1 b2 c3 d4 00 00`: header, byte count
`8`, and the serial number `a1 b2 c3 d4` after the marker at `4`. -/
def serialChip : Chip :=
  ⟨fun a => if a = 0 then 0x0008005a else if a = 1 then 0xb2a10042 else 0x0000d4c3, []⟩

/-- An image with the same header and a blank serial number after its marker at `4`. -/
def blankSerialImage : List UInt8 := [0x5a, 0x00, 0x08, 0x00, 0x42, 0x00, 0, 0, 0, 0, 0x11, 0x22]

theorem eepFile_serial_on_serialChip :
    SerialAt (saveBuffer Chip.port writeOptions (fun _ => 0) serialChip).1
        (saveBuffer Chip.port writeOptions (fun _ => 0) serialChip).2.1 4 ∧
      FirstMarker (loadBuffer blankSerialImage (fileSizeOf blankSerialImage) (fun _ => 0))
        (fileSizeOf blankSerialImage) 4 ∧
      ∃ img, eepFile Chip.port eepH writeOptions (some blankSerialImage) (fun _ => 0) (fun _ => 0)
          true serialChip =
          some (programImage Chip.port eepH img (fileSizeOf blankSerialImage)
            (saveBuffer Chip.port writeOptions (fun _ => 0) serialChip).2.2) ∧
        ∀ k < 4, img (4 + 2 + k) =
          (saveBuffer Chip.port writeOptions (fun _ => 0) serialChip).1 (4 + 2 + k) := by
  have hs : SerialAt (saveBuffer Chip.port writeOptions (fun _ => 0) serialChip).1
      (saveBuffer Chip.port writeOptions (fun _ => 0) serialChip).2.1 4 := by
    unfold SerialAt; decide
  have hf : FirstMarker (loadBuffer blankSerialImage (fileSizeOf blankSerialImage) (fun _ => 0))
      (fileSizeOf blankSerialImage) 4 := by
    unfold FirstMarker; decide
  obtain ⟨img, h, hb, -⟩ := (eepFile_serial Chip.port eepH writeOptions rfl rfl rfl
    blankSerialImage (fun _ => 0) (fun _ => 0) true serialChip).1 4 4 hs hf
  exact ⟨hs, hf, img, h, hb⟩

/-! ### Scans that leave the buffer -/

/-- **The marker scans leave their buffer.** Under `-w file`, the load scan over a 256-byte image
without a marker never ends, whatever the fuel: its `uint8_t` counter wraps before it reaches
`FileSize`. So does the save scan over an erased EEPROM, whose header gives `EepSize = 4 + 0xffff`.
A marker in the last byte of a one-byte image is found, its `0x00` read past the end, and the
patch then writes bytes `2` to `5` of a one-byte buffer. -/
theorem markerScans_leave_bounds (H : EepH) (heap : Nat → UInt8) (s : σ) :
    (∀ fuel, scanU8 256 (fun i => if isMarker (loadBuffer (List.replicate 256 0) 256 heap) i
      then some i else none) fuel 0 = none) ∧
    eepromFileLoad P H writeOptions (some (List.replicate 256 0)) heap s = none ∧
    saveMarkerScan (fun _ => 0xff) (4 + 0xffff) = none ∧
    loadMarkerScan (loadBuffer [0x42] 1 (fun _ => 0)) 1 = some (some 0) := by
  have hload : ∀ fuel, scanU8 256 (fun i => if isMarker (loadBuffer (List.replicate 256 0) 256 heap) i
      then some i else none) fuel 0 = none :=
    fun fuel => scanU8_diverges le_rfl (fun k hk => by
      simp only [isMarker, loadBuffer, if_pos hk, List.getD_eq_getElem?_getD,
        List.getElem?_replicate_of_lt hk, Option.getD_some]
      rfl)
      fuel 0
  have hsize : fileSizeOf (List.replicate 256 0) = 256 := by
    rw [fileSizeOf, List.length_replicate]; rfl
  refine ⟨hload, ?_, scanU8_diverges (by omega) (fun k _ => by simp [isMarker]) _ _, by decide⟩
  simp only [eepromFileLoad, hsize, loadImage, writeOptions, loadMarkerScan, hload]
  rfl

end Eeprom
end AdnacomEe
