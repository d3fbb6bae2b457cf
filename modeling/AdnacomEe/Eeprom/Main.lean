import AdnacomEe.Eeprom.Port

/-!
# `eep_process` and `main`: what the exit status of `h1a_ee` reports

`main` parses the command line, lists the Adnacom devices, brings them out of D3, asks for a
device number and runs `eep_process` on it. `eep_process` checks the EEPROM-present field of
the controller and, when the EEPROM is present and valid, runs `EepFile` (write or save). When
the EEPROM is missing or blank, `main` hot-resets the device and runs `eep_process` again.

The calls that touch the hardware or the terminal are inputs here: each returns a status or
exits the process from inside (`Ends`). `main` then reduces to control flow, and
`main_exit_of_selected` says what it computes once a device is selected: the status of either
`eep_process` never reaches the exit status, which is `2` when `seen_errors` counted a failed
configuration read and `0` otherwise.
-/

namespace AdnacomEe
namespace Eeprom

/-- How a call ends: it returns a status, or the process exits from inside it with a code
(`exit(-1)` is the code `255`). -/
inductive Ends
  | ret (status : Nat)
  | exit (code : Nat)
deriving DecidableEq, Repr

/-- **`eep_process`**, from the hardware it meets: `found` says whether device `j` is located in
the rescanned lists (`exit(-1)` otherwise); `present` is the EEPROM-present field of the status
register, `none` when the register read returns `PCI_MEM_ERROR` (`exit(-1)`); `eepFile` is what
`EepFile` returns if it runs. -/
def eepProcess (H : EepH) (found : Bool) (present : Option Nat) (eepFile : Nat) : Ends :=
  if !found then .exit 255 else
  match present with
  | none => .exit 255
  | some p =>
    let status :=
      if p = H.notPrsnt then H.eepNotExist
      else if p = H.prsntValid then exitSuccess
      else if p = H.prsntInvalid then H.eepBlankInvalid
      else exitFailure
    .ret (if exitSuccess = status then eepFile else status)

/-- What the device prompt reads: end of input before any line, a line `sscanf` rejects, or a
number. -/
inductive Selection
  | eof
  | invalid
  | number (n : Int)
deriving DecidableEq, Repr

/-- What a run of `main` meets: the status of `ProcessCommandLine`; how `adna_pci_process` ends and
`NumDevices` after it; the status of `adna_d3_to_d0`; `bListOnly`; the prompt's input; how the first
and (if it runs) the second `eep_process` end; and `seen_errors` when the run reaches `__exit`. -/
structure MainRun where
  commandLine : Nat
  pciProcess : Ends
  numDevices : Nat
  d3ToD0 : Nat
  listOnly : Bool
  selection : Selection
  first : Ends
  second : Ends
  seenErrors : Nat

/-- The `__exit` label of `main`: `return (seen_errors ? 2 : 0)`. -/
def exitStatus (seenErrors : Nat) : Nat := if seenErrors ≠ 0 then 2 else 0

/-- `main` after the first `eep_process`: a missing or blank EEPROM is hot-reset and checked
again; every path ends at `__exit`. -/
def afterFirst (H : EepH) (r : MainRun) (status : Nat) : Nat :=
  if status = exitSuccess then exitStatus r.seenErrors
  else if status = H.eepNotExist ∨ status = H.eepBlankInvalid then
    match r.second with
    | .exit c => c
    | .ret _ => exitStatus r.seenErrors
  else exitStatus r.seenErrors

/-- **`main`**, as the exit status of the process. -/
def main (H : EepH) (r : MainRun) : Nat :=
  if r.commandLine ≠ exitSuccess then 1 else
  match r.pciProcess with
  | .exit c => c
  | .ret st =>
    if st ≠ exitSuccess then 1
    else if r.d3ToD0 ≠ exitSuccess then 1
    else if r.listOnly then exitStatus r.seenErrors
    else
      let firstRuns : Bool := match r.selection with
        | .number n => decide ¬(n = 0 ∨ n > r.numDevices)
        | .invalid => false
        | .eof => true
      if firstRuns then
        match r.first with
        | .exit c => c
        | .ret status => afterFirst H r status
      else exitStatus r.seenErrors

/-- A run that gets to the prompt and selects device `n`, `1 ≤ n ≤ NumDevices`. -/
def Selected (r : MainRun) (n : Nat) : Prop :=
  r.commandLine = exitSuccess ∧ r.pciProcess = .ret exitSuccess ∧ r.d3ToD0 = exitSuccess ∧
    r.listOnly = false ∧ r.selection = .number n ∧ 1 ≤ n ∧ n ≤ r.numDevices

/-- **What `main` reports once a device is selected.** When neither `eep_process` exits the
process from inside, the exit status is `seen_errors ? 2 : 0`, whatever either returned. -/
theorem main_exit_of_selected (H : EepH) {r : MainRun} {n : Nat} (hsel : Selected r n)
    {status : Nat} (hfirst : r.first = .ret status) (hsecond : ∃ st, r.second = .ret st) :
    main H r = exitStatus r.seenErrors := by
  obtain ⟨h1, h2, h3, h4, h5, h6, h7⟩ := hsel
  obtain ⟨st, hst⟩ := hsecond
  have hruns : ¬((n : Int) = 0 ∨ (n : Int) > r.numDevices) := by omega
  simp only [main, h1, h2, h3, h4, h5, hfirst, hruns, ne_eq, not_true_eq_false, if_false,
    decide_not, decide_False, Bool.not_false, if_true, afterFirst, hst]
  split_ifs <;> rfl

/-- A run where device `1` of one is selected and the first `eep_process` returns `EEP_FAIL`,
with no failed configuration read: `h1a_ee` exits with status `0`. -/
theorem main_exits_zero_after_eep_fail (H : EepH) :
    main H ⟨exitSuccess, .ret exitSuccess, 1, exitSuccess, false, .number 1, .ret H.eepFail,
      .ret H.eepFail, 0⟩ = 0 :=
  main_exit_of_selected H ⟨rfl, rfl, rfl, rfl, rfl, le_refl 1, le_refl 1⟩ rfl ⟨_, rfl⟩

end Eeprom
end AdnacomEe
