import AdnacomEe.Eeprom.Port

/-!
# `EepromFileLoad`: programming an image file into the EEPROM

`EepromFileLoad` reads the whole file into `g_pBuffer`, patches the serial number into it
after the first `0x42 0x00` marker (unless `bIsInit`), and programs it: every whole 32-bit
word with `eep_write` followed by an `eep_read` check, then a last partial word, if any, with
`eep_write_16` and an `eep_read_16` check.

Three details of the C code decide what ends up in the EEPROM, and the model keeps each:

* the block address is the `uint8_t` counter `four_byte_count`, so the word at file offset
  `4 k` goes to block `k mod 256`;
* the last partial word is loaded as a full `uint32_t` and written with `eep_write_16`, so
  only its first two bytes reach the EEPROM, and the block's upper half becomes `0xffff`;
* a mismatch on that last read-back jumps to the exit without setting `rc`.

The marker scan also runs a `uint8_t` counter against the 32-bit `FileSize`; `scanU8` is that
loop, run with the fuel `scanFuel`, after which a scan that has not ended never does.

`eepromFileLoad_keeps_third_tail_byte_out` shows a three-byte image whose third byte the
faithful chip never receives although the function reports success, and
`eepromFileLoad_ignores_tail_readback` that a failed check of the tail is reported as success.
`scanU8_diverges` says when a scan never ends.
-/

namespace AdnacomEe
namespace Eeprom

variable {σ : Type} (P : EepPort σ)

/-! ### The `uint8_t` scan loops -/

/-- `for (uint8_t i = 0; i < size; i++)` whose body either breaks with a result or goes on,
with at most `fuel` iterations: `some (some b)` when the body breaks with `b`, `some none` when
the test `i < size` fails, `none` when `fuel` iterations have not ended the loop. The counter
is a `uint8_t`: after `255` it comes back to `0`. -/
def scanU8 {β : Type} (size : Nat) (body : Nat → Option β) : Nat → UInt8 → Option (Option β)
  | 0, _ => none
  | fuel + 1, i =>
    if i.toNat < size then
      match body i.toNat with
      | some b => some (some b)
      | none => scanU8 size body fuel (i + 1)
    else some none

/-- The fuel the scans of `h1a_ee` run with: the counter takes 256 values, so a scan that has
not ended after 257 iterations has come back to a counter value with nothing else changed. -/
def scanFuel : Nat := 257

theorem scanU8_succ {β : Type} (size : Nat) (body : Nat → Option β) (fuel : Nat) (i : UInt8) :
    scanU8 size body (fuel + 1) i = if i.toNat < size then
      (match body i.toNat with
       | some b => some (some b)
       | none => scanU8 size body fuel (i + 1)) else some none := rfl

/-- **A scan breaks at its first break.** If the body first breaks at `j`, below both the size
and the 256 values of the counter, a scan with more than `j` iterations of fuel breaks there. -/
theorem scanU8_first {β : Type} {size : Nat} {body : Nat → Option β} {j : Nat} {b : β}
    (hj : j < size) (hj256 : j < 256) (hb : body j = some b) (hpre : ∀ i < j, body i = none) :
    ∀ fuel i, i ≤ j → j - i < fuel → scanU8 size body fuel (UInt8.ofNat i) = some (some b)
  | 0, _, _, h => absurd h (Nat.not_lt_zero _)
  | fuel + 1, i, hi, hf => by
    have hval : (UInt8.ofNat i).toNat = i := by
      rw [UInt8.toNat_ofNat']; exact Nat.mod_eq_of_lt (by omega)
    rw [scanU8_succ, hval, if_pos (by omega)]
    rcases Nat.lt_or_ge i j with h | h
    · rw [hpre i h]
      have hnext : UInt8.ofNat i + 1 = UInt8.ofNat (i + 1) :=
        UInt8.eq_of_toNat (by rw [UInt8.toNat_add', hval, UInt8.toNat_ofNat']; rfl)
      rw [hnext]
      exact scanU8_first hj hj256 hb hpre fuel (i + 1) (by omega) (by omega)
    · rw [show i = j by omega, hb]

/-- **A scan that breaks at none of the counter's 256 values never ends** when the size is at least
`256`: the counter wraps to `0` before the test `i < size` can fail, whatever the fuel. -/
theorem scanU8_diverges {β : Type} {size : Nat} {body : Nat → Option β} (hsize : 256 ≤ size)
    (hbody : ∀ k < 256, body k = none) : ∀ fuel i, scanU8 size body fuel i = none
  | 0, _ => rfl
  | fuel + 1, i => by
    have hi : i.toNat < 256 := UInt8.toNat_lt_size i
    rw [scanU8_succ, if_pos (by omega), hbody _ hi]
    exact scanU8_diverges hsize hbody fuel (i + 1)

/-- The test of both marker scans: the bytes `0x42 0x00` at `i`. -/
def isMarker (buf : Nat → UInt8) (i : Nat) : Bool := buf i == 0x42 && buf (i + 1) == 0x00

/-! ### The image -/

/-- `g_pBuffer` after `malloc(FileSize)` and `fread`: the first `FileSize` bytes of the file, then
whatever the heap holds past them. -/
def loadBuffer (file : List UInt8) (fileSize : Nat) (heap : Nat → UInt8) : Nat → UInt8 :=
  fun o => if o < fileSize then file.getD o 0 else heap o

/-- The marker scan of `EepromFileLoad`: the position of the first `0x42 0x00` it meets. -/
def loadMarkerScan (buf : Nat → UInt8) (fileSize : Nat) : Option (Option Nat) :=
  scanU8 fileSize (fun i => if isMarker buf i then some i else none) scanFuel 0

/-- The serial-number patch at the marker `i`: bytes `i + 5, i + 4, i + 3, i + 2` take
`SerialNumber[0], [1], [2], [3]`. -/
def patchSerial (buf : Nat → UInt8) (sn : Fin 4 → UInt8) (i : Nat) : Nat → UInt8 :=
  Function.update (Function.update (Function.update (Function.update buf
    (i + 5) (sn 0)) (i + 4) (sn 1)) (i + 3) (sn 2)) (i + 2) (sn 3)

/-- The image `EepromFileLoad` programs: the buffer, patched with the serial number unless
`bIsInit`; `none` when the marker scan never ends. -/
def loadImage (opts : EepOptions) (buf : Nat → UInt8) (fileSize : Nat) : Option (Nat → UInt8) :=
  if opts.bIsInit then some buf
  else (loadMarkerScan buf fileSize).map fun
    | some i => patchSerial buf opts.serialNumber i
    | none => buf

/-! ### Programming -/

/-- The write loop of `EepromFileLoad` for `n` more words from `offset`, block counter `count`:
each word is written with `eep_write` and read back with `eep_read`. Returns whether every
read-back matched, and the offset, counter and controller state it stopped at. -/
def writeWords (buf : Nat → UInt8) : Nat → Nat → UInt8 → σ → Bool × Nat × UInt8 × σ
  | 0, offset, count, s => (true, offset, count, s)
  | n + 1, offset, count, s =>
    let value := leWord buf offset
    let s₁ := eepWrite P s count.toNat value
    let (verify, s₂) := eepRead P s₁ count.toNat
    if verify ≠ value then (false, offset, count, s₂)
    else writeWords buf n (offset + 4) (count + 1) s₂

/-- The last partial word of `EepromFileLoad`, when `offset < FileSize`: loaded as a full word,
its low half written with `eep_write_16` and read back with `eep_read_16`. A mismatch only
prints and jumps to the exit, leaving `rc` as it was, so only the controller state comes out. -/
def writeTail (buf : Nat → UInt8) (fileSize offset : Nat) (count : UInt8) (s : σ) : σ :=
  if offset < fileSize then
    let value := leWord buf offset ||| 0xFFFF0000
    (eepRead16 P (eepWrite16 P s count.toNat value.toUInt16) count.toNat).2
  else s

/-- The programming half of `EepromFileLoad` for an image of `fileSize` bytes: `rc` and the
controller state. -/
def programImage (H : EepH) (buf : Nat → UInt8) (fileSize : Nat) (s : σ) : Nat × σ :=
  match writeWords P buf (fileSize / 4) 0 0 s with
  | (true, offset, count, s₁) => (exitSuccess, writeTail P buf fileSize offset count s₁)
  | (false, _, _, s₁) => (H.eepFail, s₁)

/-- `FileSize = ftell(pFile)`, stored in a `uint32_t`. -/
def fileSizeOf (bytes : List UInt8) : Nat := bytes.length % 2 ^ 32

/-- **`EepromFileLoad`.** `file` is the content of `EepOptions.FileName`, `none` when it cannot be
opened; `heap` is what lies past the end of the freshly allocated buffer. Returns `rc` and the
controller state, or `none` when the marker scan never ends. -/
def eepromFileLoad (H : EepH) (opts : EepOptions) (file : Option (List UInt8))
    (heap : Nat → UInt8) (s : σ) : Option (Nat × σ) :=
  match file with
  | none => some (H.eepFail, s)
  | some bytes =>
    (loadImage opts (loadBuffer bytes (fileSizeOf bytes) heap) (fileSizeOf bytes)).map fun buf =>
      programImage P H buf (fileSizeOf bytes) s

/-! ### A three-byte image -/

/-- Options with the serial-number patch off. -/
def initOptions : EepOptions :=
  ⟨true, fun _ => 0, 0, false, false, true, false⟩

/-- Programming the image `11 22 33` into an erased faithful chip succeeds, yet byte `2` of
block `0` ends as `0xff`, not the file's `0x33`: only the low half of the last partial word is
written. -/
theorem eepromFileLoad_keeps_third_tail_byte_out (H : EepH) :
    ∃ c, eepromFileLoad Chip.port H initOptions (some [0x11, 0x22, 0x33]) (fun _ => 0)
        ⟨fun _ => 0xffffffff, []⟩ = some (exitSuccess, c) ∧ wordByte (c.blocks 0) 2 = 0xff := by
  refine ⟨_, rfl, ?_⟩
  decide

/-- **The tail's read-back never reaches `rc`.** A two-byte image has no whole word, so no
`eep_read` check; for every port, whatever its `eep_read_16` returns, `EepromFileLoad` returns
`EXIT_SUCCESS`, in the state after the tail's write and read. -/
theorem eepromFileLoad_ignores_tail_readback (H : EepH) (b₀ b₁ : UInt8) (heap : Nat → UInt8)
    (s : σ) : eepromFileLoad P H initOptions (some [b₀, b₁]) heap s = some (exitSuccess,
      (eepRead16 P (eepWrite16 P s 0 (leWord (loadBuffer [b₀, b₁] 2 heap) 0 ||| 0xFFFF0000).toUInt16)
        0).2) := by
  have h2 : fileSizeOf [b₀, b₁] = 2 := rfl
  simp only [eepromFileLoad, loadImage, initOptions, if_true, Option.map_some', programImage, h2]
  rfl

end Eeprom
end AdnacomEe
