import AdnacomEe.Eeprom.Serial
import AdnacomEe.Eeprom.Controller

/-!
# Saving an EEPROM and writing it back

`h1a_ee -s file` writes the EEPROM's image to a file; `h1a_ee -w file` programs a file into the
EEPROM, after carrying the board's serial number into it. The two are meant to be inverse: a
board saved and written back keeps its EEPROM. This file proves it for the BAR0 controller the code
drives, `eepFile_restores_saved_image`, for every image shorter than 256 bytes, a whole number of
words, with no word `0`: `pcimem` skips the write of `0`, and a word `0` after one that is not
makes the write-back fail (`programImage_fails_on_zero_word`).

The proof is made once for any port that behaves as the faithful chip on the calls the image code
makes (`Faithful`), and the controller is such a port for the words that are not `0`
(`regPort_faithful`). The pieces are the two loops over blocks, each a block per word
(`readWords_faithful`, `writeWords_faithful`), and the serial-number scans. Both scans run a
`uint8_t` counter, which does not wrap below 256 bytes: each is then the search for its first break
(`scanU8_below`). Whatever the save scan finds, the load scan's patch rewrites only bytes the image
already has there, or bytes past its end (`loadImage_of_save_scan`): the save scan's first marker is
the load scan's first marker, since the file holds the bytes the save read, and a marker in the
last byte, whose second byte each scan reads from its own heap, can only be patched past the end.
-/

namespace AdnacomEe
namespace Eeprom

/-! ### Scans below 256 bytes -/

/-- **A scan below 256 is a search**: the counter does not wrap, so the scan from `i` ends,
with the first break at or after `i`, or with none. -/
theorem scanU8_below {β : Type} {size : Nat} (hsize : size < 256) (body : Nat → Option β) :
    ∀ (fuel i : Nat), i ≤ size → size - i < fuel →
      ((∀ t, i ≤ t → t < size → body t = none) ∧ scanU8 size body fuel (UInt8.ofNat i) = some none) ∨
      ∃ t b, i ≤ t ∧ t < size ∧ body t = some b ∧ (∀ t', i ≤ t' → t' < t → body t' = none) ∧
        scanU8 size body fuel (UInt8.ofNat i) = some (some b)
  | 0, _, _, h => absurd h (Nat.not_lt_zero _)
  | fuel + 1, i, hi, hf => by
    have hval : (UInt8.ofNat i).toNat = i := by
      rw [UInt8.toNat_ofNat']; exact Nat.mod_eq_of_lt (by omega)
    rw [scanU8_succ, hval]
    by_cases hlt : i < size
    · rw [if_pos hlt]
      cases hb : body i with
      | some b => exact .inr ⟨i, b, le_rfl, hlt, hb, fun _ h₁ h₂ => absurd h₂ (by omega), rfl⟩
      | none =>
        have hnext : UInt8.ofNat i + 1 = UInt8.ofNat (i + 1) :=
          UInt8.eq_of_toNat (by rw [UInt8.toNat_add', hval, UInt8.toNat_ofNat']; rfl)
        show _ ∨ ∃ t b, _ ∧ _ ∧ _ ∧ _ ∧ scanU8 size body fuel (UInt8.ofNat i + 1) = _
        rw [hnext]
        have hnone : ∀ t, i ≤ t → t < i + 1 → body t = none := fun t h₁ h₂ =>
          (show t = i by omega) ▸ hb
        rcases scanU8_below hsize body fuel (i + 1) (by omega) (by omega) with
          ⟨hn, hs⟩ | ⟨t, b, h₁, h₂, h₃, h₄, h₅⟩
        · exact .inl ⟨fun t h₁ h₂ => if h : t = i then h ▸ hb else hn t (by omega) h₂, hs⟩
        · exact .inr ⟨t, b, by omega, h₂, h₃,
            fun t' h₁' h₂' => if h : t' = i then h ▸ hb else h₄ t' (by omega) h₂', h₅⟩
    · rw [if_neg hlt]
      exact .inl ⟨fun _ h₁ h₂ => absurd h₂ (by omega), rfl⟩

/-! ### Ports that behave as the faithful chip -/

/-- **A port faithful to the chip** on the calls the image code makes, `rom s` being the blocks it
holds in state `s`: a read of a block below `256` returns the block and keeps every block, and a
write below `256` of a value the port takes (`ok`) stores it and keeps the other blocks. The image
code addresses blocks through a `uint8_t` counter, so always below `256`. -/
structure Faithful {σ : Type} (P : EepPort σ) (rom : σ → Nat → UInt32) (ok : UInt32 → Prop) :
    Prop where
  read : ∀ s a, a < 256 → (P.read s a).1 = rom s a ∧ rom (P.read s a).2 = rom s
  write : ∀ s a v, a < 256 → ok v → rom (P.write s a v) = Function.update (rom s) a v

/-- **The controller driven by the code is faithful for the words that are not `0`**: the
refinement `runCalls_refines` shows for whole sequences of calls, one call at a time. -/
theorem regPort_faithful (H : CtrlH) (hbits : 8 ≤ H.blkBits) :
    Faithful (regPort H) (fun c => c.mem.rom) (· ≠ 0) := by
  have hmod : ∀ a < 256, a % 2 ^ H.blkBits = a := fun a ha =>
    Nat.mod_eq_of_lt (lt_of_lt_of_le ha (by simpa using Nat.pow_le_pow_right (by omega : 0 < 2) hbits))
  refine ⟨fun c a ha => ?_, fun c a v ha hv => ?_⟩
  · obtain ⟨hv, hm, -⟩ := eepReadReg_spec H c a
    rw [hmod a ha] at hv hm
    exact ⟨hv, show (eepReadReg H c a).2.mem.rom = c.mem.rom by rw [hm]⟩
  · show (eepWriteReg H c a v).mem.rom = _
    rw [eepWriteReg_mem, if_pos hv, hmod a ha]

/-! ### The two block loops through a faithful port -/

section Loops

variable {σ : Type} {P : EepPort σ} {rom : σ → Nat → UInt32} {ok : UInt32 → Prop}

theorem uint8_add_zero (cnt : UInt8) : cnt + UInt8.ofNat 0 = cnt :=
  UInt8.eq_of_toNat (by rw [UInt8.toNat_add', UInt8.toNat_ofNat']; have := UInt8.toNat_lt_256 cnt; omega)

theorem uint8_toNat_add_one (cnt : UInt8) : (cnt + 1).toNat = (cnt.toNat + 1) % 256 := by
  rw [UInt8.toNat_add']; rfl

theorem readWords_succ (buf : Nat → UInt8) (n o : Nat) (cnt : UInt8) (s : σ) :
    readWords P buf (n + 1) o cnt s =
      readWords P (storeWord buf o (P.read s cnt.toNat).1) n (o + 4) (cnt + 1) (P.read s cnt.toNat).2 :=
  rfl

/-- **The read loop of `EepromFileSave`** stores block `cnt + t` at offset `o + 4 t`, and leaves the
rest of the buffer and every block alone. -/
theorem readWords_faithful (hP : Faithful P rom ok) :
    ∀ (n : Nat) (buf : Nat → UInt8) (o : Nat) (cnt : UInt8) (s : σ), cnt.toNat + n ≤ 256 →
    (readWords P buf n o cnt s).2.1 = o + 4 * n ∧
    (readWords P buf n o cnt s).2.2.1 = cnt + UInt8.ofNat n ∧
    rom (readWords P buf n o cnt s).2.2.2 = rom s ∧
    ∀ x, (readWords P buf n o cnt s).1 x =
      if o ≤ x ∧ x < o + 4 * n then wordByte (rom s (cnt.toNat + (x - o) / 4)) ((x - o) % 4)
      else buf x
  | 0, buf, o, cnt, s, _ =>
    ⟨rfl, (uint8_add_zero cnt).symm, rfl, fun x => by rw [if_neg (by omega)]; rfl⟩
  | n + 1, buf, o, cnt, s, hn => by
    obtain ⟨hv, hr⟩ := hP.read s cnt.toNat (UInt8.toNat_lt_256 cnt)
    obtain ⟨h₁, h₂, h₃, h₄⟩ := readWords_faithful hP n (storeWord buf o (P.read s cnt.toNat).1)
      (o + 4) (cnt + 1) (P.read s cnt.toNat).2
      (by rw [uint8_toNat_add_one]; omega)
    rw [readWords_succ]
    refine ⟨by rw [h₁]; omega, by rw [h₂, uint8_add_ofNat], h₃.trans hr, fun x => ?_⟩
    rw [h₄, hr, hv]
    have hcnt : n ≠ 0 → (cnt + 1).toNat = cnt.toNat + 1 := fun h => by
      rw [uint8_toNat_add_one]; omega
    by_cases hx : x < o
    · rw [if_neg (by omega), if_neg (by omega), storeWord_of_lt _ _ _ hx]
    by_cases hx₄ : x < o + 4
    · rw [if_neg (by omega), if_pos (by omega), show x = o + (x - o) by omega,
        storeWord_at _ _ _ (by omega : x - o < 4), Nat.add_sub_cancel_left,
        Nat.div_eq_of_lt (by omega : x - o < 4), Nat.mod_eq_of_lt (by omega : x - o < 4),
        Nat.add_zero]
    by_cases hxn : x < o + 4 + 4 * n
    · rw [if_pos (by omega), if_pos (by omega), hcnt (by omega),
        show cnt.toNat + 1 + (x - (o + 4)) / 4 = cnt.toNat + (x - o) / 4 by omega,
        show (x - (o + 4)) % 4 = (x - o) % 4 by omega]
    · rw [if_neg (by omega), if_neg (by omega)]
      simp [storeWord, show ¬x < o + 4 by omega]

/-- A word whose four bytes are a word's bytes loads as that word. -/
theorem leWord_of_bytes {buf : Nat → UInt8} {o : Nat} {w : UInt32}
    (h : ∀ j < 4, buf (o + j) = wordByte w j) : leWord buf o = w := by
  rw [← leWord_storeWord buf o w]
  have h₀ := h 0 (by omega)
  have s₀ := storeWord_at buf o w (by omega : 0 < 4)
  rw [Nat.add_zero] at h₀ s₀
  simp only [leWord, h₀, s₀, h 1 (by omega), h 2 (by omega), h 3 (by omega),
    storeWord_at buf o w (by omega : 1 < 4), storeWord_at buf o w (by omega : 2 < 4),
    storeWord_at buf o w (by omega : 3 < 4)]

/-- **The write loop of `EepromFileLoad` through a faithful port**, on words the port takes,
writes word `t` of the image to block `cnt + t`, reads every one back equal, and leaves the other
blocks alone. -/
theorem writeWords_faithful (hP : Faithful P rom ok) (img : Nat → UInt8) :
    ∀ (n o : Nat) (cnt : UInt8) (s : σ), cnt.toNat + n ≤ 256 → (∀ t < n, ok (leWord img (o + 4 * t))) →
    ∃ s', writeWords P img n o cnt s = (true, o + 4 * n, cnt + UInt8.ofNat n, s') ∧
      ∀ a, rom s' a = if cnt.toNat ≤ a ∧ a < cnt.toNat + n
        then leWord img (o + 4 * (a - cnt.toNat)) else rom s a
  | 0, o, cnt, s, _, _ => ⟨s, by rw [uint8_add_zero]; rfl, fun a => by rw [if_neg (by omega)]⟩
  | n + 1, o, cnt, s, hn, hok => by
    have hc := UInt8.toNat_lt_256 cnt
    have hw := hP.write s cnt.toNat (leWord img o) hc (by simpa using hok 0 (by omega))
    obtain ⟨hv, hr⟩ := hP.read (P.write s cnt.toNat (leWord img o)) cnt.toNat hc
    rw [hw, Function.update_same] at hv
    rw [hw] at hr
    obtain ⟨s', h, hb⟩ := writeWords_faithful hP img n (o + 4) (cnt + 1)
      (P.read (P.write s cnt.toNat (leWord img o)) cnt.toNat).2
      (by rw [uint8_toNat_add_one]; omega)
      (fun t ht => by rw [show o + 4 + 4 * t = o + 4 * (t + 1) by omega]; exact hok (t + 1) (by omega))
    refine ⟨s', ?_, fun a => ?_⟩
    · rw [writeWords_succ, if_neg (by rw [not_not]; exact hv)]
      exact h.trans (by rw [uint8_add_ofNat, show o + 4 + 4 * n = o + 4 * (n + 1) by omega])
    · have hcnt : n ≠ 0 → (cnt + 1).toNat = cnt.toNat + 1 := fun h => by
        rw [uint8_toNat_add_one]; omega
      have hrange : ((cnt + 1).toNat ≤ a ∧ a < (cnt + 1).toNat + n) ↔
          (cnt.toNat < a ∧ a < cnt.toNat + (n + 1)) := by
        rw [uint8_toNat_add_one]; omega
      rw [hb, hr]
      by_cases ha : a = cnt.toNat
      · subst ha
        rw [if_neg (fun h => by have := hrange.1 h; omega), if_pos (by omega), Function.update_same,
          Nat.sub_self, Nat.mul_zero, Nat.add_zero]
      · rw [Function.update_noteq ha]
        by_cases hin : cnt.toNat < a ∧ a < cnt.toNat + (n + 1)
        · rw [if_pos (hrange.2 hin), if_pos (by omega), hcnt (by omega),
            show o + 4 + 4 * (a - (cnt.toNat + 1)) = o + 4 * (a - cnt.toNat) by omega]
        · rw [if_neg (mt hrange.1 hin), if_neg (by omega)]

/-- **`EepromFileSave` through a faithful port** reads an image of whole words: byte `x` of its
buffer is byte `x mod 4` of block `x / 4`, and every block is left as it was. -/
theorem saveBuffer_faithful (hP : Faithful P rom ok) (opts : EepOptions) (heap : Nat → UInt8)
    (s : σ) (hN : (eepSize opts (rom s 0)).toNat ≤ 1024)
    (h4 : (eepSize opts (rom s 0)).toNat % 4 = 0) :
    (saveBuffer P opts heap s).2.1 = (eepSize opts (rom s 0)).toNat ∧
    rom (saveBuffer P opts heap s).2.2 = rom s ∧
    ∀ x < (eepSize opts (rom s 0)).toNat,
      (saveBuffer P opts heap s).1 x = wordByte (rom s (x / 4)) (x % 4) := by
  obtain ⟨hv, hr⟩ := hP.read s 0 (by omega)
  rcases hrd : P.read s 0 with ⟨header, s₀⟩
  rw [hrd] at hv hr
  subst hv
  obtain ⟨h₁, -, h₃, h₄⟩ := readWords_faithful hP ((eepSize opts (rom s 0)).toNat / 4) heap 0 0 s₀
    (by show 0 + _ ≤ 256; omega)
  rw [hr] at h₃ h₄
  rcases hrw : readWords P heap ((eepSize opts (rom s 0)).toNat / 4) 0 0 s₀ with
    ⟨buf, offset, count, s₁⟩
  rw [hrw] at h₁ h₃ h₄
  dsimp only at h₁ h₃ h₄
  have hsb : saveBuffer P opts heap s = (buf, (eepSize opts (rom s 0)).toNat, s₁) := by
    simp only [saveBuffer, eepRead, hrd, hrw]
    rw [if_neg (by omega)]
  rw [hsb]
  refine ⟨rfl, h₃, fun x hx => ?_⟩
  show buf x = _
  rw [h₄ x, if_pos (by omega)]
  simp

end Loops

/-! ### The serial number written back -/

theorem isMarker_congr {E B : Nat → UInt8} {N i : Nat} (hB : ∀ x < N, B x = E x) (hi : i + 1 < N) :
    isMarker B i = isMarker E i := by
  simp only [isMarker, hB i (by omega), hB (i + 1) hi]

/-- A patch whose bytes below the size are the bytes already there changes nothing below it. -/
theorem patchSerial_below {B : Nat → UInt8} {sn : Fin 4 → UInt8} {i N : Nat}
    (h : ∀ t : Fin 4, i + 5 - t.val < N → sn t = B (i + 5 - t.val)) :
    ∀ x < N, patchSerial B sn i x = B x := by
  intro x hx
  rw [patchSerial_apply]
  split_ifs with h₂ h₃ h₄ h₅
  · subst h₂; exact h 3 (by show i + 5 - 3 < N; omega)
  · subst h₃; exact h 2 (by show i + 5 - 2 < N; omega)
  · subst h₄; exact h 1 (by show i + 5 - 1 < N; omega)
  · subst h₅; exact h 0 (by show i + 5 - 0 < N; omega)
  · rfl

/-- The image `EepromFileLoad` programs, when the patch at the image's first marker, if any,
changes nothing below the size. -/
theorem loadImage_of_patch {B : Nat → UInt8} {N : Nat} (hN : N < 256) {opts : EepOptions}
    (hinit : opts.bIsInit = false)
    (hpatch : ∀ i < N, isMarker B i = true → (∀ i' < i, isMarker B i' = false) →
      ∀ x < N, patchSerial B opts.serialNumber i x = B x) :
    ∃ img, loadImage opts B N = some img ∧ ∀ x < N, img x = B x := by
  rw [loadImage, if_neg (by simp [hinit]), loadMarkerScan]
  rcases scanU8_below hN (fun i => if isMarker B i then some i else none) scanFuel 0
    (Nat.zero_le _) (by unfold scanFuel; omega) with ⟨-, hs⟩ | ⟨i, b, -, hi, hb, hpre, hs⟩
  · exact ⟨B, by rw [show (0 : UInt8) = UInt8.ofNat 0 from rfl, hs]; rfl, fun _ _ => rfl⟩
  · have hm : isMarker B i = true := by by_contra h; simp [h] at hb
    obtain rfl : b = i := by simpa [hm] using hb.symm
    refine ⟨patchSerial B opts.serialNumber b, by rw [show (0 : UInt8) = UInt8.ofNat 0 from rfl, hs]; rfl,
      hpatch b hi hm fun i' hi' => ?_⟩
    have := hpre i' (Nat.zero_le _) hi'
    by_contra h
    simp [h] at this

/-- **The load scan rewrites nothing the save scan read.** Let `E` be the buffer `EepromFileSave`
reads and `B` the loaded file, equal to `E` below the size `N < 256`. Whatever the save scan finds
(a marker, the initialised header, or nothing), the image programmed with the options it leaves is
`B` below `N`. -/
theorem loadImage_of_save_scan {E B : Nat → UInt8} {N : Nat} (hN : N < 256)
    (hB : ∀ x < N, B x = E x) {opts : EepOptions} (hinit : opts.bIsInit = false) :
    ∃ r, saveMarkerScan E N = some r ∧
      ∃ img, loadImage (takeSerial opts E r) B N = some img ∧ ∀ x < N, img x = B x := by
  rcases scanU8_below hN (fun i => if isMarker E i = true then some (SaveScan.serial i)
      else if i = 2 ∧ E i = 0 ∧ E (i + 1) = 0 then some .init else none) scanFuel 0
    (Nat.zero_le _) (by unfold scanFuel; omega) with ⟨hnone, hs⟩ | ⟨t, b, -, ht, hb, hpre, hs⟩
  · -- no break: the patch, if any, is at a marker in the last byte
    refine ⟨none, hs, loadImage_of_patch hN hinit fun i hi hm _ => patchSerial_below fun u hu => ?_⟩
    have hE := hnone i (Nat.zero_le _) hi
    have hlast : ¬(i + 1 < N) := fun h => by simp [← isMarker_congr hB h, hm] at hE
    omega
  · by_cases hm : isMarker E t = true
    · -- a marker at `t`: the load scan's first marker is `t`, or the last byte
      obtain rfl : b = .serial t := by simpa [hm] using hb.symm
      refine ⟨some (.serial t), hs, loadImage_of_patch hN hinit fun i hi hmi hprei => ?_⟩
      have hit : i = t ∨ N ≤ i + 1 := by
        rcases Nat.lt_trichotomy i t with h | h | h
        · have := hpre i (Nat.zero_le _) h
          simp [← isMarker_congr hB (by omega : i + 1 < N), hmi] at this
        · exact .inl h
        · by_contra hc
          have := hprei t h
          rw [isMarker_congr hB (by omega : t + 1 < N), hm] at this
          cases this
      refine patchSerial_below fun u hu => ?_
      rcases hit with rfl | h
      · exact (hB _ hu).symm
      · omega
    · -- the initialised header at `2`: no patch
      have hb' : (if t = 2 ∧ E t = 0 ∧ E (t + 1) = 0 then some SaveScan.init else none) = some b := by
        rw [← hb, if_neg hm]
      obtain rfl : b = .init := by
        split_ifs at hb'
        exact (Option.some.inj hb').symm
      exact ⟨some .init, hs, B, by simp [takeSerial, loadImage], fun _ _ => rfl⟩

/-! ### The round trip -/

/-- **Saving and writing back restores the EEPROM, through any faithful port.** Save the image with
`h1a_ee -s file`, then write the file back with `h1a_ee -w file` on the state the save left: the
save returns the file with `EXIT_SUCCESS` and keeps every block, and the write returns
`EXIT_SUCCESS` and leaves every block as it was, whatever the freshly allocated buffers hold. The
image must be shorter than 256 bytes, so that both serial-number scans end, a whole number of
words, so that no partial word is written, and made of words the port takes. -/
theorem eepFile_restores_faithful {σ : Type} {P : EepPort σ} {rom : σ → Nat → UInt32}
    {ok : UInt32 → Prop} (hP : Faithful P rom ok) (H : EepH) (s : σ)
    (heapSave heapSave' heapLoad : Nat → UInt8)
    (hN : (eepSize saveOptions (rom s 0)).toNat < 256)
    (h4 : (eepSize saveOptions (rom s 0)).toNat % 4 = 0)
    (hok : ∀ a < (eepSize saveOptions (rom s 0)).toNat / 4, ok (rom s a)) :
    ∃ F s₁, eepromFileSave P H saveOptions heapSave true s =
        some ⟨exitSuccess, some F, saveOptions, s₁⟩ ∧ rom s₁ = rom s ∧
      ∃ s', eepFile P H writeOptions (some F) heapSave' heapLoad true s₁ = some (exitSuccess, s') ∧
        rom s' = rom s := by
  have hsame : eepSize writeOptions (rom s 0) = eepSize saveOptions (rom s 0) := rfl
  obtain ⟨hS₂, hS₃, hS₁⟩ := saveBuffer_faithful hP saveOptions heapSave s (by omega) h4
  generalize hN' : (eepSize saveOptions (rom s 0)).toNat = N at hN h4 hok hS₂ hS₁
  rcases hsv : saveBuffer P saveOptions heapSave s with ⟨E, N₁, s₁⟩
  rw [hsv] at hS₂ hS₃ hS₁
  dsimp only at hS₂ hS₃ hS₁
  subst N₁
  -- the write-back reads the same image from the state the save left
  obtain ⟨hW₂, hW₃, hW₁⟩ := saveBuffer_faithful hP writeOptions heapSave' s₁
    (by rw [hS₃, hsame, hN']; omega) (by rw [hS₃, hsame, hN']; exact h4)
  rw [hS₃, hsame, hN'] at hW₂ hW₁
  rcases hsv' : saveBuffer P writeOptions heapSave' s₁ with ⟨E', N₂, s₂⟩
  rw [hsv'] at hW₂ hW₃ hW₁
  dsimp only at hW₂ hW₃ hW₁
  subst N₂
  refine ⟨(List.range N).map E, s₁, by rw [eepromFileSave, hsv]; rfl, hS₃, ?_⟩
  -- the file, loaded, is the image below `N`
  have hsize : fileSizeOf ((List.range N).map E) = N := by
    rw [fileSizeOf, List.length_map, List.length_range]
    exact Nat.mod_eq_of_lt (by omega)
  have hB : ∀ x < N, loadBuffer ((List.range N).map E) N heapLoad x = E' x := fun x hx => by
    simp [loadBuffer, hx, hS₁ x hx, hW₁ x hx]
  obtain ⟨r, hr, img, himg, hagree⟩ := @loadImage_of_save_scan E' _ N hN hB writeOptions rfl
  -- its words are the blocks, which the port takes
  have hword : ∀ a < N / 4, leWord img (0 + 4 * a) = rom s a := fun a ha =>
    leWord_of_bytes fun j hj => by
      have hx : 0 + 4 * a + j < N := by omega
      rw [hagree _ hx, hB _ hx, hW₁ _ hx, show (0 + 4 * a + j) / 4 = a by omega,
        show (0 + 4 * a + j) % 4 = j by omega]
  obtain ⟨s', hw, hblocks⟩ := writeWords_faithful hP img (N / 4) 0 0 s₂
    (by show 0 + N / 4 ≤ 256; omega) fun t ht => by rw [hword t ht]; exact hok t ht
  have hprog : programImage P H img N s₂ = (exitSuccess, s') := by
    rw [programImage, hw]
    show (exitSuccess, writeTail P img N (0 + 4 * (N / 4)) _ s') = _
    rw [writeTail, if_neg (by omega)]
  refine ⟨s', ?_, funext fun a => ?_⟩
  · rw [eepFile, if_pos (show writeOptions.bLoadFile = true from rfl),
      if_pos (show writeOptions.bSerialNumber = false from rfl),
      eepromFileSave_of_load P H rfl rfl, hsv']
    simp only [hr, Option.map_some', Option.some_bind, eepromFileLoad, hsize, himg, hprog]
  · rw [hblocks, hW₃, hS₃, show (0 : UInt8).toNat = 0 from rfl]
    split_ifs with ha
    · rw [Nat.sub_zero, hword a (by omega)]
    · rfl

/-- **Saving and writing back restores the EEPROM through the controller.** For the BAR0
controller that the code drives through `pcimem`, whatever its commands' latency: save the
EEPROM with `h1a_ee -s file`, then write the file back with `h1a_ee -w file`. Both return
`EXIT_SUCCESS`, and every block ends as it was, when the image is shorter than 256 bytes, a whole
number of words, and has no word `0`. A word `0` after one that is not makes the write-back fail
instead (`programImage_fails_on_zero_word`), as `pcimem` skips the write of `0`. -/
theorem eepFile_restores_saved_image (H : CtrlH) (E : EepH) (hbits : 8 ≤ H.blkBits) (c : Ctrl)
    (heapSave heapSave' heapLoad : Nat → UInt8)
    (hN : (eepSize saveOptions (c.mem.rom 0)).toNat < 256)
    (h4 : (eepSize saveOptions (c.mem.rom 0)).toNat % 4 = 0)
    (hnz : ∀ a < (eepSize saveOptions (c.mem.rom 0)).toNat / 4, c.mem.rom a ≠ 0) :
    ∃ F c₁, eepromFileSave (regPort H) E saveOptions heapSave true c =
        some ⟨exitSuccess, some F, saveOptions, c₁⟩ ∧ c₁.mem.rom = c.mem.rom ∧
      ∃ c', eepFile (regPort H) E writeOptions (some F) heapSave' heapLoad true c₁ =
          some (exitSuccess, c') ∧ c'.mem.rom = c.mem.rom :=
  eepFile_restores_faithful (regPort_faithful H hbits) E c heapSave heapSave' heapLoad hN h4 hnz

/-- The controller of `ctrlH`, idle, holding the blocks of `serialChip`. -/
def serialCtrl : Ctrl := ⟨⟨serialChip.blocks, 0, false⟩, 0, 2, []⟩

theorem eepFile_restores_saved_image_serialCtrl :
    8 ≤ ctrlH.blkBits ∧ (eepSize saveOptions (serialCtrl.mem.rom 0)).toNat < 256 ∧
    (eepSize saveOptions (serialCtrl.mem.rom 0)).toNat % 4 = 0 ∧
    (∀ a < (eepSize saveOptions (serialCtrl.mem.rom 0)).toNat / 4, serialCtrl.mem.rom a ≠ 0) ∧
    ∃ F c₁, eepromFileSave (regPort ctrlH) eepH saveOptions (fun _ => 0) true serialCtrl =
        some ⟨exitSuccess, some F, saveOptions, c₁⟩ ∧ c₁.mem.rom = serialCtrl.mem.rom ∧
      ∃ c', eepFile (regPort ctrlH) eepH writeOptions (some F) (fun _ => 0) (fun _ => 0) true c₁ =
          some (exitSuccess, c') ∧ c'.mem.rom = serialCtrl.mem.rom :=
  ⟨by decide, by decide, by decide, by decide,
    eepFile_restores_saved_image ctrlH eepH (by decide) serialCtrl _ _ _ (by decide) (by decide)
      (by decide)⟩

end Eeprom
end AdnacomEe
