import AdnacomEe.Eeprom.CmdLine

/-!
# The command lines `ProcessCommandLine` accepts

`ProcessCommandLine` reads `argv` as a sequence of options: `-v` and `-e` alone, `-w` and `-s`
each followed by a file name that does not start with `-`, and `-n` followed by eight hexadecimal
digits; every flag may be in any letter case. `Reads args o rest` says that `args` starts with the
option `o` and its operand and goes on with `rest`, and `Spells args ops` that `args` is the options
`ops` one after another. `Opt.apply` is what an option does to `EepOptions`, the `strcpy` of a file
name included. This is the grammar the loop of `ProcessCommandLine` is written against, stated
apart from the loop. A file name must be shorter than 259 bytes, the size of `FileName` and
`SerialNumber` together: a longer one is copied past them, where C gives the run no meaning.

* `argLoop_cons`: from a state that awaits no operand, the loop runs through `args` exactly when
  `args` starts with an option and the loop runs through the rest from that option's effect.
* `processCommandLine_succeeds_iff`: `ProcessCommandLine` returns `EXIT_SUCCESS` with the options
  `cl` exactly when `argv` spells options whose effects, in order, give `cl`, and `cl` either lists
  the devices or names a file, one that opens if it is to be written.
* `eepFile_serial_after_full_name`: after `-n s`, a file name of 255 bytes, which fills `FileName`,
  puts its `NUL` into `SerialNumber[0]`; `ProcessCommandLine` accepts the command line, and `EepFile`
  programs the value of `s` without its most significant byte.
-/

namespace AdnacomEe
namespace Eeprom

/-- An option of `h1a_ee`, with its operand. -/
inductive Opt
  | verbose
  | write (file : List Char)
  | save (file : List Char)
  | list
  | serial (s : List Char)
deriving DecidableEq, Repr

/-- What an option does to the options `ProcessCommandLine` leaves. -/
def Opt.apply : Opt → CmdLine → CmdLine
  | .verbose, cl => { cl with bVerbose := true }
  | .write f, cl => copyFileName { cl with opts := { cl.opts with bLoadFile := true } } f
  | .save f, cl =>
    copyFileName { cl with opts := { cl.opts with bLoadFile := false, bSerialNumber := false } } f
  | .list, cl => { cl with opts := { cl.opts with bListOnly := true } }
  | .serial s, cl =>
    { cl with opts := { cl.opts with bSerialNumber := true, serialNumber := strToBin s } }

/-- `Reads args o rest`: `args` starts with the option `o`, its flag in any letter case and its
operand well formed, and goes on with `rest`. -/
inductive Reads : List (List Char) → Opt → List (List Char) → Prop
  | verbose {a rest} : strcaseEq a "-v".toList = true → Reads (a :: rest) .verbose rest
  | write {a f rest} : strcaseEq a "-w".toList = true → f.head? ≠ some '-' →
      f.length < fileNameSize + 4 → Reads (a :: f :: rest) (.write f) rest
  | save {a f rest} : strcaseEq a "-s".toList = true → f.head? ≠ some '-' →
      f.length < fileNameSize + 4 → Reads (a :: f :: rest) (.save f) rest
  | list {a rest} : strcaseEq a "-e".toList = true → Reads (a :: rest) .list rest
  | serial {a s rest} : strcaseEq a "-n".toList = true → s.length = 8 ∧ isValidHex s = true →
      Reads (a :: s :: rest) (.serial s) rest

/-- `Spells args ops`: the arguments `args` are the options `ops`, one after another. -/
inductive Spells : List (List Char) → List Opt → Prop
  | nil : Spells [] []
  | cons {args o rest ops} : Reads args o rest → Spells rest ops → Spells args (o :: ops)

theorem Reads.length_lt {args o rest} (h : Reads args o rest) : rest.length < args.length := by
  cases h <;> simp only [List.length_cons] <;> omega

/-! ### One option at a time -/

section Loop

variable {e : Nat} {cl : CmdLine}

/-- On a state that awaits no operand, the loop's turn depends on the flag only through
`strcasecmp`. -/
theorem processArg_congr {a t : List Char} (h : strcaseEq a t = true) :
    processArg e a ⟨cl, false, false⟩ = processArg e t ⟨cl, false, false⟩ := by
  simp only [processArg, strcaseEq_congr h, Bool.false_eq_true, if_false]

/-- A turn on a state that awaits no operand: one of the five flags, and the state it leaves. -/
theorem processArg_idle {a : List Char} {st : ArgState}
    (h : processArg e a ⟨cl, false, false⟩ = some (.ok st)) :
    (strcaseEq a "-v".toList = true ∧ st = ⟨Opt.verbose.apply cl, false, false⟩) ∨
    (strcaseEq a "-w".toList = true ∧
      st = ⟨{ cl with opts := { cl.opts with bLoadFile := true } }, true, false⟩) ∨
    (strcaseEq a "-s".toList = true ∧
      st = ⟨{ cl with opts := { cl.opts with bLoadFile := false, bSerialNumber := false } }, true, false⟩) ∨
    (strcaseEq a "-e".toList = true ∧ st = ⟨Opt.list.apply cl, false, false⟩) ∨
    (strcaseEq a "-n".toList = true ∧
      st = ⟨{ cl with opts := { cl.opts with bSerialNumber := true } }, false, true⟩) := by
  simp only [processArg, Bool.false_eq_true, if_false, Option.some.injEq] at h
  split_ifs at h with h₁ h₂ h₃ h₄ h₅ h₆ <;> cases h
  exacts [.inl ⟨h₂, rfl⟩, .inr (.inl ⟨h₃, rfl⟩), .inr (.inr (.inl ⟨h₄, rfl⟩)),
    .inr (.inr (.inr (.inl ⟨h₅, rfl⟩))), .inr (.inr (.inr (.inr ⟨h₆, rfl⟩)))]

/-- A turn that leaves nothing awaited goes on with the rest. -/
theorem argLoop_cons_of_idle {a : List Char} {rest : List (List Char)} {st : ArgState} {c : CmdLine}
    (hp : processArg e a st = some (.ok ⟨c, false, false⟩)) :
    argLoop e (a :: rest) st = argLoop e rest ⟨c, false, false⟩ := by
  rw [argLoop, hp]
  exact if_neg (by simp)

/-- A turn that awaits an operand goes on with the next argument, if there is one. -/
theorem argLoop_cons_of_await {a f : List Char} {rest : List (List Char)} {st st₁ : ArgState}
    (hp : processArg e a st = some (.ok st₁)) :
    argLoop e (a :: f :: rest) st = argLoop e (f :: rest) st₁ := by
  rw [argLoop, hp]
  exact if_neg fun h => List.cons_ne_nil _ _ h.1

/-- A turn that awaits an operand, on the last argument, is an early `return`. -/
theorem argLoop_last_of_await {a : List Char} {st st₁ : ArgState}
    (hp : processArg e a st = some (.ok st₁))
    (hw : st₁.bGetFileName = true ∨ st₁.bGetSerialNumber = true) :
    argLoop e [a] st = some (.error (e, st₁.cl)) := by
  rw [argLoop, hp]
  exact if_pos ⟨rfl, hw⟩

/-- After `-w` or `-s`, with an argument left: the loop copies it into `FileName`, if it is no
flag and the copy stays within `FileName` and `SerialNumber`. -/
theorem argLoop_fileName {cl₁ : CmdLine} {f : List Char} {rest : List (List Char)} {st' : ArgState} :
    argLoop e (f :: rest) ⟨cl₁, true, false⟩ = some (.ok st') ↔
      (f.head? ≠ some '-' ∧ f.length < fileNameSize + 4) ∧
        argLoop e rest ⟨copyFileName cl₁ f, false, false⟩ = some (.ok st') := by
  by_cases hf : f.head? = some '-'
  · rw [argLoop, show processArg e f ⟨cl₁, true, false⟩ = some (.error e) from if_pos hf]
    exact ⟨(fun h => by cases h), fun h => absurd hf h.1.1⟩
  by_cases hl : fileNameSize + 4 ≤ f.length
  · rw [argLoop, show processArg e f ⟨cl₁, true, false⟩ = none from (if_neg hf).trans (if_pos hl)]
    exact ⟨(fun h => by cases h), fun h => absurd h.1.2 (by omega)⟩
  · rw [argLoop_cons_of_idle (show processArg e f ⟨cl₁, true, false⟩ = some (.ok _) from
      (if_neg hf).trans (if_neg hl))]
    exact ⟨fun h => ⟨⟨hf, by omega⟩, h⟩, fun h => h.2⟩

/-- After `-n`, with an argument left: the loop takes it as the serial number. -/
theorem argLoop_serial {cl₁ : CmdLine} {s : List Char} {rest : List (List Char)} {st' : ArgState} :
    argLoop e (s :: rest) ⟨cl₁, false, true⟩ = some (.ok st') ↔
      (s.length = 8 ∧ isValidHex s = true) ∧
        argLoop e rest ⟨{ cl₁ with opts := { cl₁.opts with serialNumber := strToBin s } }, false, false⟩ =
          some (.ok st') := by
  by_cases hs : s.length = 8 ∧ isValidHex s = true
  · rw [argLoop_cons_of_idle (processArg_serial e hs ⟨rfl, rfl⟩)]
    exact ⟨fun h => ⟨hs, h⟩, fun h => h.2⟩
  · have herr : processArg e s ⟨cl₁, false, true⟩ = some (.error e) := by
      simp only [processArg, Bool.false_eq_true, if_false, if_true, Option.some.injEq]
      split_ifs with h₁ h₂ h₃
      · rfl
      · rfl
      · rfl
      · exact absurd ⟨not_not.mp h₂, by simpa using h₃⟩ hs
    rw [argLoop, herr]
    exact ⟨(fun h => by cases h), fun h => absurd h.1 hs⟩

/-- **One option, one or two turns of the loop.** From a state that awaits no operand, the loop
runs through `args` exactly when `args` starts with an option and the loop runs through the rest
from that option's effect. -/
theorem argLoop_cons {args : List (List Char)} (hne : args ≠ []) {st' : ArgState} :
    argLoop e args ⟨cl, false, false⟩ = some (.ok st') ↔
      ∃ o rest, Reads args o rest ∧ argLoop e rest ⟨o.apply cl, false, false⟩ = some (.ok st') := by
  obtain ⟨a, rest, rfl⟩ := List.exists_cons_of_ne_nil hne
  constructor
  · intro h
    rcases hp : processArg e a ⟨cl, false, false⟩ with _ | _ | st₁
    all_goals try (rw [argLoop, hp] at h; cases h)
    -- a flag that awaits an operand needs one more argument
    have hmore : (st₁.bGetFileName = true ∨ st₁.bGetSerialNumber = true) →
        ∃ f rest', rest = f :: rest' ∧ argLoop e (f :: rest') st₁ = some (.ok st') := by
      intro hw
      rcases rest with _ | ⟨f, rest'⟩
      · rw [argLoop_last_of_await hp hw] at h
        cases h
      · exact ⟨f, rest', rfl, by rwa [argLoop_cons_of_await hp] at h⟩
    rcases processArg_idle hp with ⟨hv, rfl⟩ | ⟨hw, rfl⟩ | ⟨hs, rfl⟩ | ⟨hl, rfl⟩ | ⟨hn, rfl⟩
    · exact ⟨_, _, .verbose hv, by rwa [argLoop_cons_of_idle hp] at h⟩
    · obtain ⟨f, rest', rfl, h'⟩ := hmore (.inl rfl)
      obtain ⟨⟨hf, hl⟩, h'⟩ := argLoop_fileName.mp h'
      exact ⟨_, _, .write hw hf hl, h'⟩
    · obtain ⟨f, rest', rfl, h'⟩ := hmore (.inl rfl)
      obtain ⟨⟨hf, hl⟩, h'⟩ := argLoop_fileName.mp h'
      exact ⟨_, _, .save hs hf hl, h'⟩
    · exact ⟨_, _, .list hl, by rwa [argLoop_cons_of_idle hp] at h⟩
    · obtain ⟨s, rest', rfl, h'⟩ := hmore (.inr rfl)
      obtain ⟨hs, h'⟩ := argLoop_serial.mp h'
      exact ⟨_, _, .serial hn hs, h'⟩
  · rintro ⟨o, rest', hr, h⟩
    cases hr with
    | verbose hv => rwa [argLoop_cons_of_idle ((processArg_congr hv).trans rfl)]
    | write hw hf hl =>
      rw [argLoop_cons_of_await ((processArg_congr hw).trans rfl)]
      exact argLoop_fileName.mpr ⟨⟨hf, hl⟩, h⟩
    | save hs hf hl =>
      rw [argLoop_cons_of_await ((processArg_congr hs).trans rfl)]
      exact argLoop_fileName.mpr ⟨⟨hf, hl⟩, h⟩
    | list hl => rwa [argLoop_cons_of_idle ((processArg_congr hl).trans rfl)]
    | serial hn hs =>
      rw [argLoop_cons_of_await ((processArg_congr hn).trans rfl)]
      exact argLoop_serial.mpr ⟨hs, h⟩

/-- Options spelled one after another are read by the loop, which leaves their effects. -/
theorem argLoop_of_spells {args : List (List Char)} {ops : List Opt} (h : Spells args ops) (cl : CmdLine) :
    argLoop e args ⟨cl, false, false⟩ = some (.ok ⟨ops.foldl (fun cl o => o.apply cl) cl, false, false⟩) := by
  induction h generalizing cl with
  | nil => rfl
  | cons hr _ ih => exact (argLoop_cons (by cases hr <;> simp)).mpr ⟨_, _, hr, ih _⟩

/-- What the loop runs through without an early return is a list of options. -/
theorem spells_of_argLoop : ∀ (args : List (List Char)) (cl : CmdLine) (st' : ArgState),
    argLoop e args ⟨cl, false, false⟩ = some (.ok st') →
      ∃ ops, Spells args ops ∧ st' = ⟨ops.foldl (fun cl o => o.apply cl) cl, false, false⟩
  | [], cl, _, h => ⟨[], .nil, by cases h; rfl⟩
  | a :: rest, cl, st', h => by
    obtain ⟨o, rest', hr, h'⟩ := (argLoop_cons (List.cons_ne_nil a rest)).mp h
    have := hr.length_lt
    obtain ⟨ops, hs, rfl⟩ := spells_of_argLoop rest' (o.apply cl) st' h'
    exact ⟨o :: ops, .cons hr hs, rfl⟩
termination_by args => args.length

/-- An early `return` of the loop gives `CMD_LINE_ERR`, or `EXIT_FAILURE` for `-h` and `-?`. -/
theorem processArg_error {a : List Char} {st : ArgState} {r : Nat}
    (h : processArg e a st = some (.error r)) : r = e ∨ r = exitFailure := by
  rcases st with ⟨c, _ | _, _ | _⟩ <;> simp only [processArg, Bool.false_eq_true, if_true, if_false] at h <;>
    split_ifs at h <;> cases h <;> simp

theorem argLoop_error : ∀ (args : List (List Char)) (st : ArgState) {rc : Nat} {c : CmdLine},
    argLoop e args st = some (.error (rc, c)) → rc = e ∨ rc = exitFailure
  | [], _, _, _, h => by cases h
  | a :: rest, st, rc, c, h => by
    rw [argLoop] at h
    rcases hp : processArg e a st with _ | r | st₁ <;> rw [hp] at h
    · cases h
    · cases h
      exact processArg_error hp
    · dsimp only at h
      split_ifs at h
      · cases h
        exact .inl rfl
      · exact argLoop_error rest st₁ h

end Loop

/-- The checks after the loop pass exactly when the options list the devices, or name a file
that, if it is to be written, opens. -/
theorem finalStatus_eq_exitSuccess {fileExists : List Char → Bool} {cl : CmdLine} :
    finalStatus fileExists cl = exitSuccess ↔ cl.opts.bListOnly = true ∨
      (cl.fileName ≠ [] ∧ (cl.opts.bLoadFile = true → fileExists cl.name = true)) := by
  unfold finalStatus
  split_ifs <;> simp_all [exitSuccess, exitFailure]

/-- `strcpy` of a name of exactly 255 bytes leaves the name in `FileName`, with no room for its
`NUL`, which zeroes `SerialNumber[0]`; the other three bytes of `SerialNumber` stay. -/
theorem copyFileName_full {cl : CmdLine} {f : List Char} (hf : f.length = fileNameSize) :
    (copyFileName cl f).fileName = f ∧
      (copyFileName cl f).opts.serialNumber = fun k => if k = 0 then 0 else cl.opts.serialNumber k := by
  refine ⟨List.take_of_length_le (by omega), funext fun k => ?_⟩
  simp only [copyFileName, dif_neg (show ¬fileNameSize + k.val < f.length by omega)]
  by_cases hk : k = 0
  · simp [hk, hf]
  · rw [if_neg (fun h => hk (Fin.ext (by omega))), if_neg hk]

/-- **A file name that fills `FileName` zeroes the serial number's top byte.** Let `s` be eight
hexadecimal digits and `f` a name of 255 bytes, not a flag, that opens. `ProcessCommandLine`
accepts `-n s -w f`, flags in any letter case, and `fopen` reads `f`; but the `NUL` that `strcpy`
writes after `f` lands in `SerialNumber[0]`, the most significant byte of the serial number. So for
every image whose first marker is at an index the scan reaches, `EepFile` programs after the marker
the hexadecimal value of `s` without its most significant byte. -/
theorem eepFile_serial_after_full_name {n s w f : List Char} (cmdLineErr : Nat)
    (fileExists : List Char → Bool) (hn : strcaseEq n "-n".toList = true)
    (hw : strcaseEq w "-w".toList = true) (hs : s.length = 8 ∧ isValidHex s = true)
    (hf : f.length = fileNameSize ∧ f.head? ≠ some '-') (hx : fileExists f = true) :
    ∃ cl, processCommandLine cmdLineErr fileExists [n, s, w, f] mainOptions = some (exitSuccess, cl) ∧
      cl.name = f ∧
      ∀ {σ : Type} (P : EepPort σ) (H : EepH) (F : List UInt8) (heapSave heapLoad : Nat → UInt8)
        (canCreate : Bool) (st : σ) {i : Nat},
        FirstMarker (loadBuffer F (fileSizeOf F) heapLoad) (fileSizeOf F) i →
        ∃ img, eepFile P H cl.opts (some F) heapSave heapLoad canCreate st =
            some (programImage P H img (fileSizeOf F) st) ∧
          (leWord img (i + 2)).toNat = hexValue s % 2 ^ 24 := by
  -- the options after `-n s`, with `bLoadFile` set by `-w`
  let c₀ : CmdLine :=
    ⟨⟨true, strToBin s, 0, false, true, false, false⟩, [], false⟩
  obtain ⟨hfile, hsn⟩ := @copyFileName_full c₀ f hf.1
  have hname : (copyFileName c₀ f).name = f := by
    rw [CmdLine.name, if_neg (by rw [hfile, hf.1]; omega), hfile]
    simp [hsn, List.ofFn_succ]
  have hloop : argLoop cmdLineErr [n, s, w, f] ⟨mainOptions, false, false⟩ =
      some (.ok ⟨copyFileName c₀ f, false, false⟩) :=
    argLoop_of_spells (.cons (.serial hn hs) (.cons (.write hw hf.2 (by rw [hf.1]; omega)) .nil)) _
  refine ⟨copyFileName c₀ f, ?_, hname, fun P H F heapSave heapLoad canCreate st i hF => ?_⟩
  · have hne : (copyFileName c₀ f).fileName ≠ [] := by
      rw [hfile]; exact List.ne_nil_of_length_pos (by rw [hf.1]; decide)
    rw [processCommandLine, hloop]
    simp only [Option.map_some', Option.some.injEq, Prod.mk.injEq, and_true]
    exact finalStatus_eq_exitSuccess.mpr (.inr ⟨hne, fun _ => by rw [hname]; exact hx⟩)
  · refine ⟨_, eepFile_of_serial P H rfl rfl rfl F heapSave heapLoad canCreate st hF, ?_⟩
    have := UInt8.toNat_lt_256 (strToBin s 1); have := UInt8.toNat_lt_256 (strToBin s 2)
    have := UInt8.toNat_lt_256 (strToBin s 3)
    simp only [leWord_patchSerial, hsn, ← strToBin_word hs, Fin.reduceEq, if_true, if_false,
      UInt8.toNat_zero]
    omega

/-- A name of 255 bytes, all `a`: one that fills `FileName`. -/
def fullName : List Char := List.replicate fileNameSize 'a'

/-- A six-byte image that starts with a marker: `42 00 00 00 00 00`. -/
def markerImage : List UInt8 := [0x42, 0x00, 0, 0, 0, 0]

/-- `h1a_ee -n FF11AABB -w` followed by `fullName`: `ProcessCommandLine` accepts it and `fopen`
reads `fullName`, but `EepFile` programs `0x0011AABB` after the marker of `markerImage`, not the
`0xFF11AABB` given. -/
theorem eepFile_full_name_drops_serial_top_byte :
    ∃ cl, processCommandLine 1 (fun _ => true)
        ["-n".toList, "FF11AABB".toList, "-w".toList, fullName] mainOptions = some (exitSuccess, cl) ∧
      cl.name = fullName ∧
      ∃ img, eepFile Chip.port eepH cl.opts (some markerImage) (fun _ => 0) (fun _ => 0) true
          ⟨fun _ => 0xffffffff, []⟩ = some (programImage Chip.port eepH img 6 ⟨fun _ => 0xffffffff, []⟩) ∧
        (leWord img 2).toNat = 0x0011aabb ∧ hexValue "FF11AABB".toList = 0xff11aabb := by
  obtain ⟨cl, hcl, hname, heep⟩ := eepFile_serial_after_full_name 1 (fun _ => true)
    (by decide : strcaseEq "-n".toList "-n".toList = true)
    (by decide : strcaseEq "-w".toList "-w".toList = true)
    (by decide : "FF11AABB".toList.length = 8 ∧ isValidHex "FF11AABB".toList = true)
    (f := fullName) ⟨by simp [fullName], by simp [fullName, fileNameSize]⟩ rfl
  have hm : FirstMarker (loadBuffer markerImage (fileSizeOf markerImage) (fun _ => 0))
      (fileSizeOf markerImage) 0 := by
    unfold FirstMarker; decide
  obtain ⟨img, hrun, hword⟩ := heep Chip.port eepH markerImage (fun _ => 0) (fun _ => 0) true
    ⟨fun _ => 0xffffffff, []⟩ hm
  exact ⟨cl, hcl, hname, img, hrun, hword.trans (by decide), by decide⟩

end Eeprom
end AdnacomEe
