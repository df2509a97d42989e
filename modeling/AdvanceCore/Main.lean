import AdvanceCore.Headless

/-!
# `AdvanceCore.Main`: the command line

`--bios FILE [--rom FILE] [--cycles N]` runs a console without a screen. The report
goes to standard error.
-/

set_option autoImplicit false

namespace AdvanceCore.Main

/-- What the command line asks for. -/
structure Options where
  bios : String
  rom : Option String := none
  cycles : Nat := Headless.defaultCycles
  deriving DecidableEq, Repr

/-- The options as they are collected. -/
structure Found where
  bios : Option String := none
  rom : Option String := none
  cycles : Option Nat := none

/-- Collects options. Each takes a value and may be given once. -/
def collect (found : Found) : List String → Except String Found
  | [] => .ok found
  | "--bios" :: file :: rest =>
    if found.bios.isSome then .error "--bios is given twice"
    else collect { found with bios := some file } rest
  | "--rom" :: file :: rest =>
    if found.rom.isSome then .error "--rom is given twice"
    else collect { found with rom := some file } rest
  | "--cycles" :: number :: rest =>
    match number.toNat? with
    | some n =>
      if found.cycles.isSome then .error "--cycles is given twice"
      else collect { found with cycles := some n } rest
    | none => .error ("--cycles wants a number, not " ++ number)
  | option :: _ => .error ("unexpected argument " ++ option)

/-- Reads the command line. -/
def Options.ofArguments (arguments : List String) : Except String Options := do
  let found ← collect {} arguments
  match found.bios with
  | some bios =>
    return { bios := bios, rom := found.rom, cycles := found.cycles.getD Headless.defaultCycles }
  | none => throw "--bios is missing"

/-- Prints lines to standard error. -/
def printLines (lines : List String) : IO Unit :=
  lines.forM IO.eprintln

/-- Runs what the options ask for. A file that cannot be read ends the run. -/
def runOptions (options : Options) : IO UInt32 := do
  try
    let bios ← IO.FS.readBinFile options.bios
    let rom ← options.rom.mapM fun file => IO.FS.readBinFile file
    let outcome := Headless.run bios rom options.cycles
    printLines outcome.log
    return outcome.exitCode.toUInt32
  catch e =>
    let outcome := Headless.failed (toString e)
    printLines outcome.log
    return outcome.exitCode.toUInt32

end AdvanceCore.Main

/-- The program. A command line that cannot be read gives exit code 2. -/
def main (arguments : List String) : IO UInt32 := do
  match AdvanceCore.Main.Options.ofArguments arguments with
  | .ok options => AdvanceCore.Main.runOptions options
  | .error message =>
    IO.eprintln ("error: " ++ message)
    return 2
