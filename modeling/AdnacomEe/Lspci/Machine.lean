import AdnacomEe.Basic
import AdnacomEe.Lspci.Caps

/-!
# `lspci -m`: the machine-readable records and how they read back

With `-m`, `show_device` prints each device with `show_machine`, one record per device meant to
be read by scripts. Without `-v` the record is one line: the slot name, the class, vendor and
device names in double quotes, ` -r` and ` -p` with the revision and the programming interface
when they are not zero, and the two subsystem names in quotes (two empty pairs of quotes when
the subsystem vendor is `0` or `0xffff`). With `-v` it is a block of `Tag:\tvalue` lines. The
names come from `pci_lookup_name` of libpci, which is not among the sources: they are a
parameter (`Names`), any strings at all.

The names are printed with `%s`, with no escaping, so a reader can recover them only as long as
they do not hold the character that ends a field. The readers here (`readMachine`,
`readMachineVerbose`) are what a script expecting the documented format does: fields end at the
closing quote, lines at the newline. Each reader is built from small readers that take a printed
field off the front of the input and return the rest, with one lemma each.

* `readMachine_showMachine_iff`: a one-line record reads back as the slot, the three names, the
  revision, the programming interface and the subsystem names exactly when no name printed in it
  holds a double quote.
* `readMachineVerbose_showMachine_iff`: the same for the `-v` block and the newline.
-/

namespace AdnacomEe
namespace Lspci

/-! ### Digits as `printf` writes them -/

/-- The value of a digit `Nat.digitChar` writes (`'0'..'9'`, `'a'..'f'`). -/
def digitValue (c : Char) : Nat := if c.toNat ≤ 57 then c.toNat - 48 else c.toNat - 87

/-- A digit of base `b` as `printf` writes it: `%d` for `10`, `%x` for `16`. -/
def isDigitOf (b : Nat) (c : Char) : Bool :=
  (48 ≤ c.toNat && c.toNat ≤ 57 || 97 ≤ c.toNat && c.toNat ≤ 102) && digitValue c < b

/-- The value of the digits `ds` in base `b`, most significant first. -/
def digitsValue (b : Nat) (ds : List Char) : Nat := ds.foldl (fun v c => b * v + digitValue c) 0

theorem digitChar_spec {b d : Nat} (hb : b ≤ 16) (hd : d < b) :
    isDigitOf b (Nat.digitChar d) = true ∧ digitValue (Nat.digitChar d) = d := by
  have : d < 16 := by omega
  interval_cases d <;> simp [isDigitOf, digitValue, Nat.digitChar] <;> omega

theorem foldl_digits (b : Nat) : ∀ (ds : List Char) (v : Nat),
    ds.foldl (fun v c => b * v + digitValue c) v = v * b ^ ds.length + digitsValue b ds
  | [], v => by simp [digitsValue]
  | c :: ds, v => by
    have h₁ := foldl_digits b ds (b * v + digitValue c)
    have h₂ := foldl_digits b ds (b * 0 + digitValue c)
    simp only [digitsValue, List.foldl_cons] at h₁ h₂ ⊢
    rw [h₁, h₂, List.length_cons, Nat.pow_succ]
    ring

theorem digitsValue_append (b : Nat) (ds es : List Char) :
    digitsValue b (ds ++ es) = digitsValue b ds * b ^ es.length + digitsValue b es := by
  rw [digitsValue, List.foldl_append, foldl_digits, ← digitsValue]

/-- **What `Nat.toDigitsCore` writes**: digits of the base in front of what it was given, whose
value is the number, when the fuel is more than the number. -/
theorem toDigitsCore_spec {b : Nat} (hb2 : 2 ≤ b) (hb : b ≤ 16) :
    ∀ fuel n (ds : List Char), n < fuel → ∃ pre, Nat.toDigitsCore b fuel n ds = pre ++ ds ∧
      (∀ c ∈ pre, isDigitOf b c = true) ∧ digitsValue b pre = n
  | 0, _, _, h => absurd h (Nat.not_lt_zero _)
  | fuel + 1, n, ds, h => by
    have ⟨hdig, hval⟩ := digitChar_spec hb (Nat.mod_lt n (by omega))
    rw [Nat.toDigitsCore]
    split_ifs with h0
    · refine ⟨[Nat.digitChar (n % b)], rfl, by simpa using hdig, ?_⟩
      simp only [digitsValue, List.foldl_cons, List.foldl_nil, Nat.mul_zero, Nat.zero_add, hval]
      exact Nat.mod_eq_of_lt (Nat.div_eq_zero_iff (by omega) |>.1 h0)
    · have hn : 0 < n := Nat.pos_of_ne_zero fun e => h0 (by rw [e, Nat.zero_div])
      have hlt : n / b < fuel := by
        have := Nat.div_lt_self hn (by omega : 1 < b)
        omega
      obtain ⟨pre, hpre, hall, hv⟩ :=
        toDigitsCore_spec hb2 hb fuel (n / b) (Nat.digitChar (n % b) :: ds) hlt
      refine ⟨pre ++ [Nat.digitChar (n % b)], by simp [hpre], fun c hc => ?_, ?_⟩
      · rcases List.mem_append.1 hc with hc | hc
        · exact hall c hc
        · rw [List.mem_singleton.1 hc]; exact hdig
      · rw [digitsValue_append, hv]
        simp only [digitsValue, List.foldl_cons, List.foldl_nil, Nat.mul_zero, Nat.zero_add, hval,
          List.length_singleton, Nat.pow_one]
        exact Nat.div_add_mod' n b

/-- The digits `%0wx` writes, and their value. -/
theorem hexPad_spec (w n : Nat) :
    (∀ c ∈ (hexPad w n).toList, isDigitOf 16 c = true) ∧ digitsValue 16 (hexPad w n).toList = n := by
  obtain ⟨pre, hpre, hall, hv⟩ := toDigitsCore_spec (b := 16) (by decide) le_rfl (n + 1) n [] (by omega)
  have hzeros : ∀ k, digitsValue 16 (List.replicate k '0') = 0 := fun k => by
    induction k with
    | zero => rfl
    | succ k ih => rw [List.replicate_succ', digitsValue_append, ih]; rfl
  have hpad : (hexPad w n).toList = List.replicate (w - pre.length) '0' ++ pre := by
    rw [← List.append_nil pre, ← hpre]; rfl
  rw [hpad]
  refine ⟨fun c hc => ?_, by rw [digitsValue_append, hzeros, Nat.zero_mul, Nat.zero_add, hv]⟩
  rcases List.mem_append.1 hc with hc | hc
  · rw [List.eq_of_mem_replicate hc]; rfl
  · exact hall c hc

/-- The digits `%d` writes, and their value. -/
theorem toString_spec (n : Nat) :
    (∀ c ∈ (toString n).toList, isDigitOf 10 c = true) ∧ digitsValue 10 (toString n).toList = n := by
  obtain ⟨pre, hpre, hall, hv⟩ := toDigitsCore_spec (b := 10) (by decide) (by decide) (n + 1) n []
    (by omega)
  have h : (toString n).toList = pre := by
    show (Nat.toDigits 10 n) = pre
    rw [Nat.toDigits, hpre, List.append_nil]
  exact h ▸ ⟨hall, hv⟩

/-! ### Reading numbers and quoted fields -/

/-- Reading the digits of base `b` at the front, the value so far `v`. -/
def readDigits (b : Nat) : Nat → List Char → Nat × List Char
  | v, [] => (v, [])
  | v, c :: l => if isDigitOf b c then readDigits b (b * v + digitValue c) l else (v, c :: l)

/-- Reading a number of base `b` at the front of the input. -/
def readNum (b : Nat) (l : List Char) : Nat × List Char := readDigits b 0 l

/-- An input that does not start with a digit of base `b`. -/
def NoDigit (b : Nat) (l : List Char) : Prop := ∀ c r, l = c :: r → isDigitOf b c = false

theorem readDigits_append (b : Nat) {rest : List Char} (hr : NoDigit b rest) :
    ∀ (ds : List Char) (v : Nat), (∀ c ∈ ds, isDigitOf b c = true) →
      readDigits b v (ds ++ rest) = (ds.foldl (fun v c => b * v + digitValue c) v, rest)
  | [], v, _ => by
    cases rest with
    | nil => rfl
    | cons c r => simp [readDigits, hr c r rfl]
  | c :: ds, v, h => by
    rw [List.cons_append, readDigits, if_pos (h c (List.mem_cons_self _ _)),
      readDigits_append b hr ds _ fun c hc => h c (List.mem_cons_of_mem _ hc), List.foldl_cons]

/-- **A printed number reads back**, when what follows it is not a digit. -/
theorem readNum_digits {b : Nat} {ds rest : List Char} (hds : ∀ c ∈ ds, isDigitOf b c = true)
    (hr : NoDigit b rest) : readNum b (ds ++ rest) = (digitsValue b ds, rest) :=
  readDigits_append b hr ds 0 hds

theorem noDigit_of_ne {b : Nat} {c : Char} (h : isDigitOf b c = false) (r : List Char) :
    NoDigit b (c :: r) := fun _ _ he => by cases he; exact h

theorem noDigit_nil (b : Nat) : NoDigit b [] := fun _ _ h => List.noConfusion h

theorem isDigitOf_space (b : Nat) : isDigitOf b ' ' = false := rfl

/-- The text of a field ended by `stop`, and what follows it. -/
def readUntil (stop : Char) : List Char → Option (List Char × List Char)
  | [] => none
  | c :: l => if c = stop then some ([], l) else (readUntil stop l).map fun r => (c :: r.1, r.2)

theorem readUntil_append (stop : Char) (rest : List Char) :
    ∀ s : List Char, stop ∉ s → readUntil stop (s ++ stop :: rest) = some (s, rest)
  | [], _ => by simp [readUntil]
  | c :: s, h => by
    have hc : c ≠ stop := fun e => h (e ▸ List.mem_cons_self _ _)
    rw [List.cons_append, readUntil, if_neg hc,
      readUntil_append stop rest s fun hs => h (List.mem_cons_of_mem _ hs)]
    rfl

/-- The text a field reader returns never holds the character that ends the field. -/
theorem readUntil_not_mem (stop : Char) :
    ∀ (l s r : List Char), readUntil stop l = some (s, r) → stop ∉ s
  | [], _, _, h => by cases h
  | c :: l, s, r, h => by
    rw [readUntil] at h
    split_ifs at h with hc
    · cases h; exact List.not_mem_nil _
    · obtain ⟨⟨s', r'⟩, h', he⟩ := Option.map_eq_some'.1 h
      cases he
      exact List.mem_cons.not.2 (not_or.2 ⟨Ne.symm hc, readUntil_not_mem stop l s' r' h'⟩)

/-! ### `show_machine` -/

/-- The `header.h` offsets and values `show_machine` reads. -/
structure MachineH where
  headerType : Nat
  headerTypeNormal : Nat
  headerTypeCardbus : Nat
  subsystemVendorId : Nat
  subsystemId : Nat
  cbSubsystemVendorId : Nat
  cbSubsystemId : Nat
  classDevice : Nat
  revisionId : Nat
  classProg : Nat

/-- The values of `header.h`. -/
def machineH : MachineH := ⟨0x0e, 0, 2, 0x2c, 0x2e, 0x40, 0x42, 0x0a, 0x08, 0x09⟩

/-- The fields of libpci's `struct pci_dev` that `show_machine` prints or looks names up by. -/
structure PciId where
  domain : Nat
  bus : Nat
  dev : Nat
  func : Nat
  vendorId : Nat
  deviceId : Nat
deriving DecidableEq, Repr

/-- `pci_lookup_name` for the lookups `show_machine` makes: the class by the class word, the
vendor and the device by the vendor and device IDs, the subsystem vendor and device by those and
the subsystem IDs. -/
structure Names where
  cls : Nat → List Char
  vendor : Nat → Nat → List Char
  device : Nat → Nat → List Char
  subVendor : Nat → Nat → Nat → Nat → List Char
  subDevice : Nat → Nat → Nat → Nat → List Char

/-- **`show_slot_name(d)`** of `lspci.c`: `%04x:` of the domain when it is not `0`, then
`%02x:%02x.%d` of the bus, the device and the function. -/
def showSlotName (p : PciId) : List Char :=
  (if p.domain ≠ 0 then (hexPad 4 p.domain).toList ++ [':'] else []) ++
    (hexPad 2 p.bus).toList ++ ':' :: (hexPad 2 p.dev).toList ++ '.' :: (toString p.func).toList

/-- The subsystem IDs of the `switch` at the top of `show_machine`: from the normal header or the
CardBus header, `0` for any other header type. -/
def subIds (H : MachineH) (s : LState) : Nat × Nat :=
  let ht := (getConfByte s H.headerType).1.toNat &&& 0x7f
  if ht = H.headerTypeNormal then
    ((getConfWord s H.subsystemVendorId).1.toNat, (getConfWord s H.subsystemId).1.toNat)
  else if ht = H.headerTypeCardbus then
    ((getConfWord s H.cbSubsystemVendorId).1.toNat, (getConfWord s H.cbSubsystemId).1.toNat)
  else (0, 0)

/-- `sv_id && sv_id != 0xffff`: the subsystem names are printed. -/
def subsysShown (sv : Nat) : Bool := sv ≠ 0 ∧ sv ≠ 0xffff

/-- `printf(" \"%s\"", s)`. -/
def quoted (s : List Char) : List Char := ' ' :: '"' :: s ++ ['"']

/-- `printf(" -%c%02x", t, c)` when `c` is not `0`, nothing otherwise. -/
def tagged (t : Char) (c : UInt8) : List Char :=
  if c ≠ 0 then ' ' :: '-' :: t :: (hexPad 2 c.toNat).toList else []

/-- `printf("%s\t%s\n", tag, s)`. -/
def tagLine (tag s : List Char) : List Char := tag ++ ':' :: '\t' :: s ++ ['\n']

/-- A `Tag:\t%02x` line of `-v` when the byte is not `0`. -/
def byteLine (tag : List Char) (c : UInt8) : List Char :=
  if c ≠ 0 then tagLine tag (hexPad 2 c.toNat).toList else []

/-- **`show_machine(d)`**: the `-v` block, or the one-line record. -/
def showMachine (H : MachineH) (N : Names) (verbose : Bool) (p : PciId) (s : LState) :
    List Char :=
  let sv := (subIds H s).1
  let sd := (subIds H s).2
  let rev := (getConfByte s H.revisionId).1
  let prog := (getConfByte s H.classProg).1
  let cls := N.cls (getConfWord s H.classDevice).1.toNat
  let ven := N.vendor p.vendorId p.deviceId
  let dev := N.device p.vendorId p.deviceId
  let svn := N.subVendor p.vendorId p.deviceId sv sd
  let sdn := N.subDevice p.vendorId p.deviceId sv sd
  if verbose then
    tagLine "Device".toList (showSlotName p) ++ tagLine "Class".toList cls ++
      tagLine "Vendor".toList ven ++ tagLine "Device".toList dev ++
      (if subsysShown sv then tagLine "SVendor".toList svn ++ tagLine "SDevice".toList sdn
        else []) ++
      byteLine "Rev".toList rev ++ byteLine "ProgIf".toList prog
  else
    showSlotName p ++ quoted cls ++ quoted ven ++ quoted dev ++ tagged 'r' rev ++
      tagged 'p' prog ++
      (if subsysShown sv then quoted svn ++ quoted sdn else quoted [] ++ quoted []) ++ ['\n']

/-! ### The record a line carries -/

/-- What a record of `-m` says about a device. -/
structure Machine where
  domain : Nat
  bus : Nat
  dev : Nat
  func : Nat
  cls : List Char
  vendor : List Char
  device : List Char
  rev : Nat
  progIf : Nat
  svendor : List Char
  sdevice : List Char
deriving DecidableEq, Repr

/-- The names of a record, in the order they are printed. -/
def Machine.names (m : Machine) : List (List Char) := [m.cls, m.vendor, m.device, m.svendor, m.sdevice]

/-- The record `show_machine` prints for a device. -/
def machineRecord (H : MachineH) (N : Names) (p : PciId) (s : LState) : Machine :=
  let sv := (subIds H s).1
  let sd := (subIds H s).2
  ⟨p.domain, p.bus, p.dev, p.func, N.cls (getConfWord s H.classDevice).1.toNat,
    N.vendor p.vendorId p.deviceId, N.device p.vendorId p.deviceId,
    (getConfByte s H.revisionId).1.toNat, (getConfByte s H.classProg).1.toNat,
    if subsysShown sv then N.subVendor p.vendorId p.deviceId sv sd else [],
    if subsysShown sv then N.subDevice p.vendorId p.deviceId sv sd else []⟩

/-! ### Reading the one-line record -/

/-- The slot name at the front: `dddd:bb:dd.f` or `bb:dd.f`. -/
def readSlot (l : List Char) : Option ((Nat × Nat × Nat × Nat) × List Char) :=
  let a := readNum 16 l
  match a.2 with
  | ':' :: l =>
    let b := readNum 16 l
    match b.2 with
    | ':' :: l =>
      let c := readNum 16 l
      match c.2 with
      | '.' :: l => let f := readNum 10 l; some ((a.1, b.1, c.1, f.1), f.2)
      | _ => none
    | '.' :: l => let f := readNum 10 l; some ((0, a.1, b.1, f.1), f.2)
    | _ => none
  | _ => none

/-- A field ` "..."` at the front. -/
def readField : List Char → Option (List Char × List Char)
  | ' ' :: '"' :: l => readUntil '"' l
  | _ => none

/-- An option ` -t%02x` at the front, `0` when there is none. -/
def readTag (t : Char) : List Char → Nat × List Char
  | ' ' :: '-' :: c :: l => if c = t then readNum 16 l else (0, ' ' :: '-' :: c :: l)
  | l => (0, l)

/-- **A reader of the one-line record**: the slot, three quoted names, the options `-r` and `-p`,
two quoted names and the end of the line. -/
def readMachine (l : List Char) : Option Machine :=
  (readSlot l).bind fun sl =>
  (readField sl.2).bind fun cl =>
  (readField cl.2).bind fun ve =>
  (readField ve.2).bind fun de =>
  let r := readTag 'r' de.2
  let p := readTag 'p' r.2
  (readField p.2).bind fun sv =>
  (readField sv.2).bind fun sd =>
  if sd.2 = ['\n'] then
    some ⟨sl.1.1, sl.1.2.1, sl.1.2.2.1, sl.1.2.2.2, cl.1, ve.1, de.1, r.1, p.1, sv.1, sd.1⟩
  else none

theorem readSlot_showSlotName (p : PciId) {rest : List Char} (hr : NoDigit 10 rest) :
    readSlot (showSlotName p ++ rest) = some ((p.domain, p.bus, p.dev, p.func), rest) := by
  have ⟨hb₁, hb₂⟩ := hexPad_spec 2 p.bus
  have ⟨hd₁, hd₂⟩ := hexPad_spec 2 p.dev
  have ⟨hf₁, hf₂⟩ := toString_spec p.func
  have hcolon : ∀ r, NoDigit 16 (':' :: r) := noDigit_of_ne (by decide)
  have hdot : ∀ r, NoDigit 16 ('.' :: r) := noDigit_of_ne (by decide)
  have hf : readNum 10 ((toString p.func).toList ++ rest) = (p.func, rest) := by
    rw [readNum_digits hf₁ hr, hf₂]
  unfold showSlotName
  split_ifs with hdom
  · have ⟨ha₁, ha₂⟩ := hexPad_spec 4 p.domain
    simp only [List.append_assoc, List.cons_append, List.singleton_append, List.nil_append, readSlot,
      readNum_digits ha₁ (hcolon _), readNum_digits hb₁ (hcolon _), readNum_digits hd₁ (hdot _),
      ha₂, hb₂, hd₂, hf]
  · simp only [List.nil_append, List.append_assoc, List.cons_append, readSlot,
      readNum_digits hb₁ (hcolon _), readNum_digits hd₁ (hdot _), hb₂, hd₂, hf,
      show p.domain = 0 from not_not.1 hdom]

theorem readField_quoted {s : List Char} (hs : '"' ∉ s) (rest : List Char) :
    readField (quoted s ++ rest) = some (s, rest) := by
  simp only [quoted, List.cons_append, List.append_assoc, List.singleton_append, readField]
  exact readUntil_append '"' rest s hs

/-- An input that does not start with ` -t` has no option `t`. -/
theorem readTag_of_ne {t : Char} {rest : List Char} (hr : ∀ l, rest ≠ ' ' :: '-' :: t :: l) :
    readTag t rest = (0, rest) := by
  unfold readTag
  split
  · rename_i c l
    rw [if_neg fun e => hr l (by rw [e])]
  · rfl

theorem readTag_tagged (t : Char) (c : UInt8) {rest : List Char}
    (hr : ∀ l, rest ≠ ' ' :: '-' :: t :: l) (hd : NoDigit 16 rest) :
    readTag t (tagged t c ++ rest) = (c.toNat, rest) := by
  unfold tagged
  split_ifs with hc
  · have ⟨h₁, h₂⟩ := hexPad_spec 2 c.toNat
    simp only [List.cons_append, readTag, if_true, readNum_digits h₁ hd, h₂]
  · rw [not_not.1 hc, List.nil_append, readTag_of_ne hr]
    rfl

theorem readField_not_mem {l s r : List Char} (h : readField l = some (s, r)) : '"' ∉ s := by
  unfold readField at h
  split at h
  · exact readUntil_not_mem '"' _ s r h
  · cases h

/-- What `readMachine` returns holds no name with a double quote. -/
theorem readMachine_names {l : List Char} {m : Machine} (h : readMachine l = some m) :
    ∀ n ∈ m.names, '"' ∉ n := by
  simp only [readMachine, Option.bind_eq_some] at h
  obtain ⟨sl, -, cl, hcl, ve, hve, de, hde, sv, hsv, sd, hsd, hend⟩ := h
  split_ifs at hend
  cases hend
  simp only [Machine.names, List.forall_mem_cons, List.not_mem_nil, IsEmpty.forall_iff,
    implies_true, and_true]
  exact ⟨readField_not_mem hcl, readField_not_mem hve, readField_not_mem hde,
    readField_not_mem hsv, readField_not_mem hsd⟩

theorem noDigit_quoted (b : Nat) (s rest : List Char) : NoDigit b (quoted s ++ rest) :=
  noDigit_of_ne (isDigitOf_space b) _

theorem quoted_ne_tag (s rest : List Char) (t : Char) (l : List Char) :
    quoted s ++ rest ≠ ' ' :: '-' :: t :: l := by
  simp [quoted]

theorem noDigit_tagged (t : Char) (c : UInt8) {rest : List Char} (h : NoDigit 16 rest) :
    NoDigit 16 (tagged t c ++ rest) := by
  unfold tagged
  split_ifs
  · exact noDigit_of_ne (by decide) _
  · exact h

theorem tagged_ne_tag {t t' : Char} (ht : t ≠ t') (c : UInt8) {rest : List Char}
    (h : ∀ l, rest ≠ ' ' :: '-' :: t' :: l) (l : List Char) :
    tagged t c ++ rest ≠ ' ' :: '-' :: t' :: l := by
  unfold tagged
  split_ifs
  · simp [ht]
  · exact h l

/-- The one-line record as `show_machine` prints it, field by field. -/
theorem showMachine_line (H : MachineH) (N : Names) (p : PciId) (s : LState) :
    showMachine H N false p s =
      let m := machineRecord H N p s
      showSlotName p ++ (quoted m.cls ++ (quoted m.vendor ++ (quoted m.device ++
        (tagged 'r' (getConfByte s H.revisionId).1 ++ (tagged 'p' (getConfByte s H.classProg).1 ++
          (quoted m.svendor ++ (quoted m.sdevice ++ ['\n']))))))) := by
  simp only [showMachine, machineRecord, Bool.false_eq_true, if_false]
  split_ifs <;> simp only [List.append_assoc]

/-- **`lspci -m` reads back exactly when no name holds a double quote.** The one-line record of
every device, whatever its configuration bytes and whatever names libpci looks up, is read back
as the device's slot, its class, vendor and device names, its revision and programming interface,
and its subsystem names (empty when they are not shown), if and only if none of these names holds
a `"`. A quote in a name ends its field early, and no reader of the format can tell. -/
theorem readMachine_showMachine_iff (H : MachineH) (N : Names) (p : PciId) (s : LState) :
    readMachine (showMachine H N false p s) = some (machineRecord H N p s) ↔
      ∀ n ∈ (machineRecord H N p s).names, '"' ∉ n := by
  refine ⟨readMachine_names, fun h => ?_⟩
  set m := machineRecord H N p s
  simp only [Machine.names, List.forall_mem_cons, List.not_mem_nil, IsEmpty.forall_iff,
    implies_true, and_true] at h
  obtain ⟨hc, hv, hd, hsv, hsd⟩ := h
  set rev := (getConfByte s H.revisionId).1
  set prog := (getConfByte s H.classProg).1
  set tail := quoted m.svendor ++ (quoted m.sdevice ++ ['\n'])
  have hp : readTag 'p' (tagged 'p' prog ++ tail) = (prog.toNat, tail) :=
    readTag_tagged 'p' prog (quoted_ne_tag _ _ _) (noDigit_quoted _ _ _)
  have hr : readTag 'r' (tagged 'r' rev ++ (tagged 'p' prog ++ tail)) =
      (rev.toNat, tagged 'p' prog ++ tail) :=
    readTag_tagged 'r' rev (tagged_ne_tag (by decide) prog (quoted_ne_tag _ _ _))
      (noDigit_tagged 'p' prog (noDigit_quoted _ _ _))
  rw [showMachine_line]
  simp only [readMachine, readSlot_showSlotName p (noDigit_quoted 10 _ _), Option.some_bind,
    readField_quoted hc, readField_quoted hv, readField_quoted hd, hr, hp, readField_quoted hsv,
    readField_quoted hsd, if_true]
  rfl

/-! ### Reading the `-v` block -/

/-- A line `tag:\tvalue` at the front: its tag, its value and what follows it. -/
def readLine (l : List Char) : Option ((List Char × List Char) × List Char) :=
  (readUntil ':' l).bind fun t =>
    match t.2 with
    | '\t' :: r => (readUntil '\n' r).map fun v => ((t.1, v.1), v.2)
    | _ => none

/-- The line with the given tag at the front: its value and what follows it. -/
def readTagged (tag l : List Char) : Option (List Char × List Char) :=
  (readLine l).bind fun x => if x.1.1 = tag then some (x.1.2, x.2) else none

/-- A line with the given tag at the front if there is one. -/
def readOpt (tag l : List Char) : Option (List Char) × List Char :=
  match readTagged tag l with
  | some x => (some x.1, x.2)
  | none => (none, l)

/-- **A reader of the `-v` block**: the slot line, the class, vendor and device lines, then the
subsystem, revision and programming-interface lines if they are there, and the end. -/
def readMachineVerbose (l : List Char) : Option Machine :=
  (readTagged "Device".toList l).bind fun sl =>
  (readSlot sl.1).bind fun slot =>
  (readTagged "Class".toList sl.2).bind fun cl =>
  (readTagged "Vendor".toList cl.2).bind fun ve =>
  (readTagged "Device".toList ve.2).bind fun de =>
  let sv := readOpt "SVendor".toList de.2
  let sd := readOpt "SDevice".toList sv.2
  let r := readOpt "Rev".toList sd.2
  let pg := readOpt "ProgIf".toList r.2
  if slot.2 = [] ∧ pg.2 = [] then
    some ⟨slot.1.1, slot.1.2.1, slot.1.2.2.1, slot.1.2.2.2, cl.1, ve.1, de.1,
      (r.1.map fun v => (readNum 16 v).1).getD 0, (pg.1.map fun v => (readNum 16 v).1).getD 0,
      sv.1.getD [], sd.1.getD []⟩
  else none

@[simp] theorem readOpt_nil (tag : List Char) : readOpt tag [] = (none, []) := rfl

theorem readLine_tagLine {tag v : List Char} (ht : ':' ∉ tag) (hv : '\n' ∉ v) (rest : List Char) :
    readLine (tagLine tag v ++ rest) = some ((tag, v), rest) := by
  simp only [tagLine, List.append_assoc, List.cons_append, List.singleton_append, List.nil_append,
    readLine,
    readUntil_append ':' _ tag ht, Option.some_bind, readUntil_append '\n' rest v hv,
    Option.map_some']

theorem readTagged_tagLine {tag v : List Char} (ht : ':' ∉ tag) (hv : '\n' ∉ v)
    (rest : List Char) : readTagged tag (tagLine tag v ++ rest) = some (v, rest) := by
  simp [readTagged, readLine_tagLine ht hv]

theorem readOpt_tagLine {tag v : List Char} (ht : ':' ∉ tag) (hv : '\n' ∉ v)
    (rest : List Char) : readOpt tag (tagLine tag v ++ rest) = (some v, rest) := by
  simp [readOpt, readTagged_tagLine ht hv]

theorem readOpt_other {tag tag' v : List Char} (hne : tag' ≠ tag) (ht : ':' ∉ tag')
    (hv : '\n' ∉ v) (rest : List Char) :
    readOpt tag (tagLine tag' v ++ rest) = (none, tagLine tag' v ++ rest) := by
  simp [readOpt, readTagged, readLine_tagLine ht hv, hne]

theorem readOpt_tagLine_end {tag v : List Char} (ht : ':' ∉ tag) (hv : '\n' ∉ v) :
    readOpt tag (tagLine tag v) = (some v, []) := by
  rw [← List.append_nil (tagLine tag v), readOpt_tagLine ht hv]

theorem readOpt_other_end {tag tag' v : List Char} (hne : tag' ≠ tag) (ht : ':' ∉ tag')
    (hv : '\n' ∉ v) : readOpt tag (tagLine tag' v) = (none, tagLine tag' v) := by
  rw [← List.append_nil (tagLine tag' v), readOpt_other hne ht hv]

theorem readTagged_not_mem {tag l v r : List Char} (h : readTagged tag l = some (v, r)) :
    '\n' ∉ v := by
  simp only [readTagged, readLine, Option.bind_eq_some] at h
  obtain ⟨⟨⟨t, v'⟩, r'⟩, ⟨⟨t', r''⟩, -, hm⟩, he⟩ := h
  split at hm
  · obtain ⟨⟨v₁, r₁⟩, h₁, he₁⟩ := Option.map_eq_some'.1 hm
    cases he₁
    split_ifs at he
    cases he
    exact readUntil_not_mem '\n' _ _ _ h₁
  · cases hm

theorem readOpt_not_mem (tag l : List Char) : '\n' ∉ ((readOpt tag l).1.getD []) := by
  unfold readOpt
  split
  · exact readTagged_not_mem (by assumption)
  · exact List.not_mem_nil _

/-- What `readMachineVerbose` returns holds no name with a newline. -/
theorem readMachineVerbose_names {l : List Char} {m : Machine} (h : readMachineVerbose l = some m) :
    ∀ n ∈ m.names, '\n' ∉ n := by
  simp only [readMachineVerbose, Option.bind_eq_some] at h
  obtain ⟨sl, -, slot, -, cl, hcl, ve, hve, de, hde, hend⟩ := h
  split_ifs at hend
  cases hend
  simp only [Machine.names, List.forall_mem_cons, List.not_mem_nil, IsEmpty.forall_iff,
    implies_true, and_true]
  exact ⟨readTagged_not_mem hcl, readTagged_not_mem hve, readTagged_not_mem hde,
    readOpt_not_mem _ _, readOpt_not_mem _ _⟩

theorem newline_not_mem_hexPad (w n : Nat) : '\n' ∉ (hexPad w n).toList := fun h => by
  have := (hexPad_spec w n).1 _ h
  revert this
  decide

theorem newline_not_mem_showSlotName (p : PciId) : '\n' ∉ showSlotName p := by
  have hf : '\n' ∉ (toString p.func).toList := fun h => by
    have := (toString_spec p.func).1 _ h
    revert this
    decide
  have hx : ∀ w n, '\n' ∉ (hexPad w n).data := newline_not_mem_hexPad
  have hf' : '\n' ∉ (toString p.func).data := hf
  unfold showSlotName
  split_ifs <;> simp [hx, hf']

/-- The optional lines of the `-v` block read back, in each of the cases of what is shown. -/
theorem readOpt_tail (m : Machine) (shown : Bool) (rev prog : UInt8)
    (hsv : '\n' ∉ m.svendor) (hsd : '\n' ∉ m.sdevice) :
    let o := (if shown then tagLine "SVendor".toList m.svendor ++ tagLine "SDevice".toList m.sdevice
        else []) ++ byteLine "Rev".toList rev ++ byteLine "ProgIf".toList prog
    let sv := readOpt "SVendor".toList o
    let sd := readOpt "SDevice".toList sv.2
    let r := readOpt "Rev".toList sd.2
    let pg := readOpt "ProgIf".toList r.2
    pg.2 = [] ∧ (r.1.map fun v => (readNum 16 v).1).getD 0 = rev.toNat ∧
      (pg.1.map fun v => (readNum 16 v).1).getD 0 = prog.toNat ∧
      sv.1.getD [] = (if shown then m.svendor else []) ∧
      sd.1.getD [] = (if shown then m.sdevice else []) := by
  have hr : ∀ c : UInt8, (readNum 16 (hexPad 2 c.toNat).toList).1 = c.toNat := fun c => by
    rw [← List.append_nil (hexPad 2 c.toNat).toList,
      readNum_digits (hexPad_spec 2 c.toNat).1 (noDigit_nil 16), (hexPad_spec 2 c.toNat).2]
  have hx := newline_not_mem_hexPad 2
  have c₁ : ':' ∉ "SVendor".toList := by decide
  have c₂ : ':' ∉ "SDevice".toList := by decide
  have c₃ : ':' ∉ "Rev".toList := by decide
  have c₄ : ':' ∉ "ProgIf".toList := by decide
  have d₁ : "Rev".toList ≠ "SVendor".toList := by decide
  have d₂ : "Rev".toList ≠ "SDevice".toList := by decide
  have d₃ : "ProgIf".toList ≠ "SVendor".toList := by decide
  have d₄ : "ProgIf".toList ≠ "SDevice".toList := by decide
  have d₅ : "ProgIf".toList ≠ "Rev".toList := by decide
  have hv : ∀ c : UInt8, '\n' ∉ (hexPad 2 c.toNat).toList := fun c => hx c.toNat
  unfold byteLine
  cases shown <;> by_cases h₁ : rev = 0 <;> by_cases h₂ : prog = 0 <;>
    simp only [h₁, h₂, ne_eq, not_true_eq_false, not_false_eq_true, if_false, if_true,
      Bool.false_eq_true, List.append_nil, List.nil_append, List.append_assoc, readOpt_nil,
      readOpt_tagLine c₁ hsv, readOpt_tagLine c₂ hsd, readOpt_tagLine_end c₂ hsd,
      readOpt_tagLine c₃ (hv rev), readOpt_tagLine_end c₃ (hv rev), readOpt_tagLine_end c₄ (hv prog),
      readOpt_other d₁ c₃ (hv rev), readOpt_other d₂ c₃ (hv rev), readOpt_other_end d₁ c₃ (hv rev),
      readOpt_other_end d₂ c₃ (hv rev),
      readOpt_other_end d₃ c₄ (hv prog), readOpt_other_end d₄ c₄ (hv prog),
      readOpt_other_end d₅ c₄ (hv prog), Option.map_some', Option.map_none', Option.getD_some,
      Option.getD_none, hr, UInt8.toNat_zero, and_self]

/-- The `-v` block as `show_machine` prints it, line by line. -/
theorem showMachine_block (H : MachineH) (N : Names) (p : PciId) (s : LState) :
    showMachine H N true p s =
      let m := machineRecord H N p s
      tagLine "Device".toList (showSlotName p) ++ (tagLine "Class".toList m.cls ++
        (tagLine "Vendor".toList m.vendor ++ (tagLine "Device".toList m.device ++
          ((if subsysShown (subIds H s).1 then
              tagLine "SVendor".toList m.svendor ++ tagLine "SDevice".toList m.sdevice else []) ++
            byteLine "Rev".toList (getConfByte s H.revisionId).1 ++
            byteLine "ProgIf".toList (getConfByte s H.classProg).1)))) := by
  simp only [showMachine, machineRecord, if_true]
  split_ifs <;> simp only [List.append_assoc]

/-- **`lspci -vm` reads back exactly when no name holds a newline.** The `-v` block of every
device is read back as the same record as the one-line form, if and only if none of the names in
it holds a newline: a newline in a name ends its line early, and the rest of the name is read as
a line of its own. -/
theorem readMachineVerbose_showMachine_iff (H : MachineH) (N : Names) (p : PciId) (s : LState) :
    readMachineVerbose (showMachine H N true p s) = some (machineRecord H N p s) ↔
      ∀ n ∈ (machineRecord H N p s).names, '\n' ∉ n := by
  refine ⟨readMachineVerbose_names, fun h => ?_⟩
  set m := machineRecord H N p s with hm
  simp only [Machine.names, List.forall_mem_cons, List.not_mem_nil, IsEmpty.forall_iff,
    implies_true, and_true] at h
  obtain ⟨hc, hv, hd, hsv, hsd⟩ := h
  obtain ⟨t₁, t₂, t₃, t₄, t₅⟩ := readOpt_tail m (subsysShown (subIds H s).1)
    (getConfByte s H.revisionId).1 (getConfByte s H.classProg).1 hsv hsd
  have hslot : readSlot (showSlotName p) = some ((p.domain, p.bus, p.dev, p.func), []) := by
    simpa using readSlot_showSlotName p (noDigit_nil 10)
  have e₁ : ':' ∉ "Device".toList := by decide
  have e₂ : ':' ∉ "Class".toList := by decide
  have e₃ : ':' ∉ "Vendor".toList := by decide
  rw [showMachine_block]
  simp only [readMachineVerbose, readTagged_tagLine e₁ (newline_not_mem_showSlotName p),
    Option.some_bind, hslot, readTagged_tagLine e₂ hc, readTagged_tagLine e₃ hv,
    readTagged_tagLine e₁ hd, t₁, t₂, t₃, t₄, t₅, and_self, if_true]
  rw [Option.some_inj, hm, machineRecord]
  split_ifs <;> rfl

end Lspci
end AdnacomEe
