import AdvanceCore.Console
import AdvanceCore.Numeral

/-!
# `AdvanceCore.Headless`: a run without a screen

A run starts a console from its images, lets it run for a number of cycles and
reports what the processor holds in the end. The report is a list of log lines.
-/

set_option autoImplicit false

namespace AdvanceCore.Headless

open Numeral (hex)

/-- How serious a log line is. -/
inductive Level where
  | info
  | warn
  deriving DecidableEq, Repr

/-- The name of a level, the program and a message. -/
def logLine (level : Level) (message : String) : String :=
  (match level with
    | .info => "INFO"
    | .warn => "WARN") ++ " kumquat: " ++ message

/-- What a run leaves behind. -/
structure Outcome where
  log : List String
  exitCode : Nat
  deriving DecidableEq, Repr

/-- The cycles of a run that is not given a number: one second. -/
def defaultCycles : Nat := 16777216

/-- The first line of every run. -/
def greeting : String := logLine .info "kumquat v0.1.0"

/-- The line of a run that ends early. -/
def failureLine (message : String) : String := "Error: \"" ++ message ++ "\""

/-- A run that ends early. -/
def failed (message : String) : Outcome :=
  { log := [greeting, failureLine message], exitCode := 1 }

/-- What is said of the cartridge. One without a byte is none. -/
def cartridgeLine (cartridge : Option Cartridge) : String :=
  match cartridge with
  | some c =>
    if c.isEmpty then logLine .warn "no game pak inserted"
    else logLine .info ("loaded " ++ toString c.size ++ " bytes of ROM")
  | none => logLine .warn "no game pak inserted"

/-- A word with all of its digits. -/
def wordText (w : Word) : String := "0x" ++ hex 8 w.toNat

/-- What is said of the run as a whole. -/
def summaryLine (elapsed : Nat) (cpu : Cpu) : String :=
  logLine .info ("ran " ++ toString elapsed ++ " cycles, PC " ++ wordText cpu.currentInstruction ++
    ", CPSR " ++ wordText cpu.cpsr.word ++ " (" ++ cpu.cpsr.mode.name ++ ", " ++
    cpu.cpsr.state.name ++ ")")

/-- What is said of a register. Names are padded to three columns. -/
def registerLine (cpu : Cpu) (r : RegisterId) : String :=
  let padding := if r.val < 10 then " " else ""
  logLine .info (r.text ++ padding ++ " = " ++ wordText (cpu.register r))

/-- The report of a run. -/
def report (cartridge : Option Cartridge) (elapsed : Nat) (cpu : Cpu) : List String :=
  [greeting, cartridgeLine cartridge, summaryLine elapsed cpu] ++
    (List.finRange 16).map (registerLine cpu)

/-- Runs a console with the given images for a number of cycles. -/
def run (boot : ByteArray) (rom : Option ByteArray) (cycles : Nat) : Outcome :=
  match (Console.ofImages boot rom [] : Except ImageError (Console NoPeripheral)) with
  | .error e => failed e.message
  | .ok console =>
    let cartridge := console.board.cartridge
    let (elapsed, console) := console.runFor cycles
    { log := report cartridge elapsed console.cpu, exitCode := 0 }

end AdvanceCore.Headless
