import Mathlib.Data.Nat.Digits
import Mathlib.Order.Interval.Finset.Nat

/-!
# Formatting and byte order shared by both tools

`lspci` and `h1a_ee` print bus numbers with `printf` conversions such as `%02x`, and
`h1a_ee` moves EEPROM contents between byte buffers and 32-bit registers through casts like
`*(uint32_t *)(g_pBuffer + offset)`, which on the little-endian hosts the tool runs on read the
byte at `offset` as the least significant one. This file fixes both readings once, with the
fact the proofs about buffers use: a word stored into a buffer is loaded back whole
(`leWord_storeWord`).
-/

namespace AdnacomEe

/-- `printf`'s `%0wx`: `n` in lowercase hexadecimal, padded with zeros to `w` digits. -/
def hexPad (w n : Nat) : String :=
  let ds := Nat.toDigits 16 n
  String.mk (List.replicate (w - ds.length) '0' ++ ds)

example : hexPad 2 10 = "0a" := by decide

/-- The little-endian 32-bit word stored at `o` in a byte buffer: the load
`*(uint32_t *)(buf + o)`. -/
def leWord (buf : Nat → UInt8) (o : Nat) : UInt32 :=
  UInt32.ofNat ((buf o).toNat + (buf (o + 1)).toNat * 2 ^ 8 + (buf (o + 2)).toNat * 2 ^ 16 +
    (buf (o + 3)).toNat * 2 ^ 24)

/-- Byte `j` (`0` the least significant) of a 32-bit word: what a little-endian store of the word
puts at offset `j`. -/
def wordByte (w : UInt32) (j : Nat) : UInt8 := UInt8.ofNat (w.toNat / 2 ^ (8 * j))

/-- The store `*(uint32_t *)(buf + o) = w`. -/
def storeWord (buf : Nat → UInt8) (o : Nat) (w : UInt32) : Nat → UInt8 :=
  fun i => if o ≤ i ∧ i < o + 4 then wordByte w (i - o) else buf i

/-- The store `*(uint16_t *)(buf + o) = h`. -/
def storeHalf (buf : Nat → UInt8) (o : Nat) (h : UInt16) : Nat → UInt8 :=
  fun i => if o ≤ i ∧ i < o + 2 then UInt8.ofNat (h.toNat / 2 ^ (8 * (i - o))) else buf i

theorem UInt8.toNat_ofNat' (n : Nat) : (UInt8.ofNat n).toNat = n % 256 := BitVec.toNat_ofNat _ _

theorem UInt32.toNat_ofNat' (n : Nat) : (UInt32.ofNat n).toNat = n % 2 ^ 32 :=
  BitVec.toNat_ofNat _ _

theorem UInt8.toNat_add' (a b : UInt8) : (a + b).toNat = (a.toNat + b.toNat) % 256 :=
  BitVec.toNat_add _ _

theorem UInt8.eq_of_toNat {a b : UInt8} (h : a.toNat = b.toNat) : a = b := UInt8.toNat.inj h

theorem UInt32.eq_of_toNat {a b : UInt32} (h : a.toNat = b.toNat) : a = b := UInt32.toNat.inj h

theorem UInt8.toNat_lt_256 (a : UInt8) : a.toNat < 256 := a.toNat_lt_size

theorem leWord_toNat (buf : Nat → UInt8) (o : Nat) :
    (leWord buf o).toNat = (buf o).toNat + (buf (o + 1)).toNat * 2 ^ 8 +
      (buf (o + 2)).toNat * 2 ^ 16 + (buf (o + 3)).toNat * 2 ^ 24 := by
  have := UInt8.toNat_lt_256 (buf o); have := UInt8.toNat_lt_256 (buf (o + 1))
  have := UInt8.toNat_lt_256 (buf (o + 2)); have := UInt8.toNat_lt_256 (buf (o + 3))
  rw [leWord, UInt32.toNat_ofNat', Nat.mod_eq_of_lt (by omega)]

theorem storeWord_at (buf : Nat → UInt8) (o : Nat) (w : UInt32) {j : Nat} (hj : j < 4) :
    storeWord buf o w (o + j) = wordByte w j := by
  simp [storeWord, hj]

theorem storeWord_of_lt (buf : Nat → UInt8) (o : Nat) (w : UInt32) {i : Nat} (hi : i < o) :
    storeWord buf o w i = buf i := by
  simp [storeWord, show ¬o ≤ i by omega]

/-- **A stored word is loaded back whole.** -/
theorem leWord_storeWord (buf : Nat → UInt8) (o : Nat) (w : UInt32) :
    leWord (storeWord buf o w) o = w := by
  apply UInt32.eq_of_toNat
  have hw : w.toNat < 2 ^ 32 := w.toNat_lt_size
  have h0 := storeWord_at buf o w (j := 0) (by omega)
  rw [Nat.add_zero] at h0
  rw [leWord_toNat, h0, storeWord_at buf o w (j := 1) (by omega),
    storeWord_at buf o w (j := 2) (by omega), storeWord_at buf o w (j := 3) (by omega)]
  simp only [wordByte, UInt8.toNat_ofNat']
  omega

end AdnacomEe
