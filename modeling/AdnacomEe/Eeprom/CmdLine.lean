import AdnacomEe.Eeprom.Serial

/-!
# `ProcessCommandLine`: the options of `h1a_ee`

`ProcessCommandLine` walks `argv` once. `-w`, `-s`, `-e`, `-n`, `-v`, `-h` and `-?` are compared
with `strcasecmp`; after `-w` or `-s` the next argument is the file name, after `-n` the serial
number, which must be eight characters, all `isxdigit`, and is turned into the four bytes of
`EepOptions.SerialNumber` by `str_to_bin`, most significant pair first. After the loop a write
needs a file that opens.

An argument is modelled as its characters, one per byte of the C string before its `NUL`, so
`strlen` is the length. `CMD_LINE_ERR` is not defined in the source and is a parameter, as is the
outcome of the `fopen` of `is_file_exist`.

`FileName` is `char[255]`, and `strcpy` copies the name into it with no bound. `SerialNumber`,
`char[4]`, follows it in `struct eep_options`, so byte `255 + k` of a longer name lands in
`SerialNumber[k]`, and the `NUL` after a name of `255 + k` bytes zeroes it (`copyFileName`); the
name `fopen` then reads runs on from `FileName` through `SerialNumber` (`CmdLine.name`). A name of
259 bytes or more writes past `SerialNumber`, into the padding and the fields after it, whose
places the ABI fixes: there C gives the run no meaning, and `processArg` returns `none`.

* `strToBin_word`: the patch of `EepromFileLoad`, which stores `SerialNumber` last byte first,
  makes the little-endian word after the marker the hexadecimal value of the eight digits.
-/

namespace AdnacomEe
namespace Eeprom

/-! ### Hexadecimal digits -/

/-- `isxdigit` in the C locale: `'0'..'9'`, `'a'..'f'` or `'A'..'F'`. -/
def isXDigit (c : Char) : Bool :=
  (48 ≤ c.toNat && c.toNat ≤ 57) || (97 ≤ c.toNat && c.toNat ≤ 102) || (65 ≤ c.toNat && c.toNat ≤ 70)

/-- The value of a hexadecimal digit, in either case, as `sscanf`'s `%x` reads it. -/
def hexDigitVal (c : Char) : Nat :=
  if c.toNat ≤ 57 then c.toNat - 48 else if c.toNat ≤ 70 then c.toNat - 55 else c.toNat - 87

theorem hexDigitVal_lt {c : Char} (h : isXDigit c = true) : hexDigitVal c < 16 := by
  simp only [isXDigit, Bool.or_eq_true, Bool.and_eq_true, decide_eq_true_eq] at h
  unfold hexDigitVal
  split_ifs <;> omega

example : hexDigitVal 'B' = 11 ∧ hexDigitVal 'b' = 11 ∧ hexDigitVal '7' = 7 := by decide

/-- The value of a string of hexadecimal digits, the first the most significant. -/
def hexValue (s : List Char) : Nat := s.foldl (fun v c => 16 * v + hexDigitVal c) 0

example : hexValue "0011AABB".toList = 0x0011aabb := by decide

/-- `is_valid_hex(serialnumber)`: every character is `isxdigit`. -/
def isValidHex (s : List Char) : Bool := s.all isXDigit

/-- Hexadecimal digits never start with `-`. -/
theorem isValidHex_head {s : List Char} (h : isValidHex s = true) : s.head? ≠ some '-' := by
  rcases s with _ | ⟨c, s⟩
  · simp
  · rintro ⟨⟩
    simp [isValidHex, isXDigit] at h

/-- `sscanf(hex_pair, "%x", &hex_value)` on a pair of hexadecimal digits. -/
def hexPair (hi lo : Char) : Nat := 16 * hexDigitVal hi + hexDigitVal lo

/-- **`str_to_bin(binary_data, serialnumber)`** on the eight hexadecimal digits that
`ProcessCommandLine` passes it: byte `k` is `(char)` of the value of the pair of digits `2k` and
`2k + 1`. -/
def strToBin (s : List Char) : Fin 4 → UInt8 := fun k =>
  UInt8.ofNat (hexPair (s.getD (2 * k.val) '0') (s.getD (2 * k.val + 1) '0'))

/-- A byte `str_to_bin` makes from two hexadecimal digits is their value. -/
theorem strToBin_toNat {s : List Char} (hv : isValidHex s = true) (k : Fin 4)
    (hk : 2 * k.val + 1 < s.length) :
    (strToBin s k).toNat = hexPair (s.getD (2 * k.val) '0') (s.getD (2 * k.val + 1) '0') := by
  have hx : ∀ j < s.length, isXDigit (s.getD j '0') = true := fun j hj => by
    rw [List.getD_eq_getElem?_getD, List.getElem?_eq_getElem hj, Option.getD_some]
    exact List.all_eq_true.1 hv _ (List.getElem_mem hj)
  have h1 := hexDigitVal_lt (hx (2 * k.val) (by omega))
  have h2 := hexDigitVal_lt (hx (2 * k + 1) hk)
  rw [strToBin, UInt8.toNat_ofNat', Nat.mod_eq_of_lt (by unfold hexPair; omega)]

/-- **The serial number as a word.** For eight hexadecimal digits, the bytes `str_to_bin` makes,
stored last first as the patch of `EepromFileLoad` stores them, read as a little-endian word are
the digits' hexadecimal value. -/
theorem strToBin_word {s : List Char} (hs : s.length = 8 ∧ isValidHex s = true) :
    (strToBin s 3).toNat + (strToBin s 2).toNat * 2 ^ 8 + (strToBin s 1).toNat * 2 ^ 16 +
      (strToBin s 0).toNat * 2 ^ 24 = hexValue s := by
  obtain ⟨hl, hv⟩ := hs
  rw [strToBin_toNat hv 3 (by rw [hl]; decide), strToBin_toNat hv 2 (by rw [hl]; decide),
    strToBin_toNat hv 1 (by rw [hl]; decide), strToBin_toNat hv 0 (by rw [hl]; decide)]
  rcases s with _ | ⟨c0, _ | ⟨c1, _ | ⟨c2, _ | ⟨c3, _ | ⟨c4, _ | ⟨c5, _ | ⟨c6, _ | ⟨c7, _ | ⟨c8, s⟩⟩⟩⟩⟩⟩⟩⟩⟩ <;>
    simp only [List.length_cons, List.length_nil] at hl <;> try omega
  have e : ((0 : Fin 4) : Nat) = 0 ∧ ((1 : Fin 4) : Nat) = 1 ∧ ((2 : Fin 4) : Nat) = 2 ∧
      ((3 : Fin 4) : Nat) = 3 := ⟨rfl, rfl, rfl, rfl⟩
  simp only [hexValue, hexPair, List.foldl_cons, List.foldl_nil, e.1, e.2.1, e.2.2.1, e.2.2.2,
    Nat.reduceMul, Nat.reduceAdd, List.getD_cons_succ, List.getD_cons_zero]
  omega

/-! ### The command line -/

/-- `strcasecmp(a, b) == 0`. -/
def strcaseEq (a b : List Char) : Bool := decide (a.map Char.toLower = b.map Char.toLower)

theorem strcaseEq_congr {a b : List Char} (h : strcaseEq a b = true) (c : List Char) :
    strcaseEq a c = strcaseEq b c := by
  simp only [strcaseEq, decide_eq_true_eq] at h ⊢
  rw [h]

/-- What `ProcessCommandLine` leaves in `EepOptions`: the fields the image code reads, `FileName`
and `bVerbose`. `fileName` holds the characters of `FileName` before its `NUL`, or all 255 when
it holds none. -/
structure CmdLine where
  opts : EepOptions
  fileName : List Char
  bVerbose : Bool

/-- The size of `FileName`, `char[255]`. -/
def fileNameSize : Nat := 255

/-- A character of `argv`, as the byte `strcpy` copies. -/
def charByte (c : Char) : UInt8 := UInt8.ofNat c.toNat

/-- A byte of `EepOptions`, as a character of the C string `fopen` reads. -/
def byteChar (b : UInt8) : Char := Char.ofNat b.toNat

/-- **`strcpy(EepOptions.FileName, a)`**, as its bytes land in `FileName` and in `SerialNumber`,
which follows it: byte `j` of `a` goes to `FileName[j]` for `j < 255` and to
`SerialNumber[j - 255]` after that, and the terminating `NUL` goes after the last byte. -/
def copyFileName (cl : CmdLine) (a : List Char) : CmdLine :=
  { cl with
    fileName := a.take fileNameSize
    opts := { cl.opts with serialNumber := fun k =>
      if h : fileNameSize + k.val < a.length then charByte a[fileNameSize + k.val]
      else if fileNameSize + k.val = a.length then 0 else cl.opts.serialNumber k } }

/-- The C string at `FileName`, as `fopen` reads it: up to the `NUL` inside `FileName`, or, when
`FileName` holds none, on through `SerialNumber` up to its first zero byte, or up to the padding
byte after it, which nothing but a copy the model leaves undefined writes, and which is zero. -/
def CmdLine.name (cl : CmdLine) : List Char :=
  if cl.fileName.length < fileNameSize then cl.fileName
  else cl.fileName ++ ((List.ofFn cl.opts.serialNumber).takeWhile fun b => b != 0).map byteChar

/-- The state of the loop of `ProcessCommandLine`: the options so far, and whether the next
argument is taken as a file name or as a serial number. -/
structure ArgState where
  cl : CmdLine
  bGetFileName : Bool
  bGetSerialNumber : Bool

/-- The body of the loop of `ProcessCommandLine` for the argument `a`: the next state, or the
status of an early `return`; `none` when `strcpy` writes past `SerialNumber`. -/
def processArg (cmdLineErr : Nat) (a : List Char) (st : ArgState) : Option (Except Nat ArgState) :=
  if st.bGetFileName then
    if a.head? = some '-' then some (.error cmdLineErr)
    else if fileNameSize + 4 ≤ a.length then none
    else some (.ok { st with cl := copyFileName st.cl a, bGetFileName := false })
  else some <|
  if st.bGetSerialNumber then
    if a.head? = some '-' then .error cmdLineErr
    else if a.length ≠ 8 then .error cmdLineErr
    else if !isValidHex a then .error cmdLineErr
    else .ok { st with
      cl := { st.cl with opts := { st.cl.opts with serialNumber := strToBin a } }
      bGetSerialNumber := false }
  else if strcaseEq a "-?".toList || strcaseEq a "-h".toList then .error exitFailure
  else if strcaseEq a "-v".toList then .ok { st with cl := { st.cl with bVerbose := true } }
  else if strcaseEq a "-w".toList then
    .ok { st with cl := { st.cl with opts := { st.cl.opts with bLoadFile := true } }, bGetFileName := true }
  else if strcaseEq a "-s".toList then
    .ok { st with
      cl := { st.cl with opts := { st.cl.opts with bLoadFile := false, bSerialNumber := false } }
      bGetFileName := true }
  else if strcaseEq a "-e".toList then
    .ok { st with cl := { st.cl with opts := { st.cl.opts with bListOnly := true } } }
  else if strcaseEq a "-n".toList then
    .ok { st with
      cl := { st.cl with opts := { st.cl.opts with bSerialNumber := true } }
      bGetSerialNumber := true }
  else .error cmdLineErr

/-- The loop `for (i = 1; i < argc; i++)` over the arguments, with its check after the last one
that no file name or serial number is still awaited. An early `return` gives its status and the
options as it left them; `none` when a turn has no meaning in C. -/
def argLoop (cmdLineErr : Nat) : List (List Char) → ArgState → Option (Except (Nat × CmdLine) ArgState)
  | [], st => some (.ok st)
  | a :: rest, st =>
    match processArg cmdLineErr a st with
    | none => none
    | some (.error rc) => some (.error (rc, st.cl))
    | some (.ok st') =>
      if rest = [] ∧ (st'.bGetFileName = true ∨ st'.bGetSerialNumber = true) then
        some (.error (cmdLineErr, st'.cl))
      else argLoop cmdLineErr rest st'

/-- The checks after the loop: a listing needs nothing more; anything else needs a file name,
`FileName[0]` not `NUL` (the test `bLoadFile == 0xFF` never holds of a flag that is `0` or `1`),
and a write needs the file to open (`is_file_exist`, here `fileExists` of the name `fopen`
reads). -/
def finalStatus (fileExists : List Char → Bool) (cl : CmdLine) : Nat :=
  if cl.opts.bListOnly then exitSuccess
  else if cl.fileName = [] then exitFailure
  else if !cl.opts.bLoadFile && cl.opts.bSerialNumber then exitSuccess
  else if cl.opts.bLoadFile then (if fileExists cl.name then exitSuccess else exitFailure)
  else exitSuccess

/-- **`ProcessCommandLine(argc, argv)`** on `argv[1..]`, from the options `cl`: its status and the
options it leaves; `none` when the run has no meaning in C. -/
def processCommandLine (cmdLineErr : Nat) (fileExists : List Char → Bool) (args : List (List Char))
    (cl : CmdLine) : Option (Nat × CmdLine) :=
  (argLoop cmdLineErr args ⟨cl, false, false⟩).map fun
    | .error r => r
    | .ok st => (finalStatus fileExists st.cl, st.cl)

/-- The options `ProcessCommandLine` starts from: `EepOptions` is zero-initialised, and `main`
clears `bListOnly`, `bIsInit` and `bIsNotPresent` before the call. -/
def mainOptions : CmdLine := ⟨⟨false, fun _ => 0, 0, false, false, false, false⟩, [], false⟩

/-- The argument after `-n`: eight hexadecimal digits, turned into `SerialNumber`. -/
theorem processArg_serial (cmdLineErr : Nat) {s : List Char} {st : ArgState}
    (hs : s.length = 8 ∧ isValidHex s = true)
    (h : st.bGetFileName = false ∧ st.bGetSerialNumber = true) :
    processArg cmdLineErr s st = some (.ok { st with
      cl := { st.cl with opts := { st.cl.opts with serialNumber := strToBin s } }
      bGetSerialNumber := false }) := by
  simp only [processArg, h.1, h.2, isValidHex_head hs.2, hs.1, hs.2, Bool.false_eq_true, if_true, if_false, ne_eq,
    not_true_eq_false, Bool.not_true]

end Eeprom
end AdnacomEe
