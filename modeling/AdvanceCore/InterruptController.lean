import AdvanceCore.Cpu.Exception
import AdvanceCore.Interrupt
import AdvanceCore.RegisterBlock

/-!
# `AdvanceCore.InterruptController`: interrupts and power

The controller keeps the interrupts that are enabled and those that are requested,
and the power state of the console. A halted processor wakes as soon as an enabled
interrupt is requested, even if interrupts as a whole are off. A stopped console only
wakes for the sources that work without a clock.
-/

set_option autoImplicit false

namespace AdvanceCore

/-- The power states of the console. -/
inductive PowerState where
  | run
  /-- The processor waits for an interrupt. -/
  | halt
  /-- All of the console waits for an interrupt from outside. -/
  | stop
  deriving DecidableEq, Repr

/-- The registers of interrupt and power control. -/
structure InterruptController where
  enabled : Half := 0
  requested : Half := 0
  /-- The wait states of the cartridge, which are only stored. -/
  waitStates : Half := 0
  masterEnable : Half := 0
  /-- Set by the boot program when it is done. -/
  postBoot : Byte := 0
  power : PowerState := .run
  /-- A reset waits for the processor to take it. -/
  resetRequested : Bool := false
  /-- The console leaves this line unconnected, but a host may drive it. -/
  fiqLine : Bool := false
  deriving DecidableEq, Repr

namespace InterruptController

/-- The bits of the sources that exist. -/
def sourceMask : Half := 0x3FFF

/-- The sources that end a stop. -/
def stopMask : Half :=
  Interrupt.serial.mask ||| Interrupt.keypad.mask ||| Interrupt.gamePak.mask

/-- The interrupts that are enabled and requested. -/
def pending (c : InterruptController) : Half := c.enabled &&& c.requested

/-- The pending interrupts that end a power state. Nothing needs to end the state of
a running processor. -/
def wakers (c : InterruptController) : PowerState → Half
  | .run => 0
  | .halt => c.pending
  | .stop => c.pending &&& stopMask

/-- The interrupt line of the processor. -/
def irqLine (c : InterruptController) : Bool :=
  c.masterEnable.getLsbD 0 && c.pending != 0

/-- All lines of the processor. -/
def lines (c : InterruptController) : InterruptLines :=
  { reset := c.resetRequested, fiq := c.fiqLine, irq := c.irqLine }

/-- Wakes up if a pending interrupt ends the power state. -/
def checkWake (c : InterruptController) : InterruptController :=
  if c.wakers c.power ≠ 0 then { c with power := .run } else c

/-- Requests an interrupt. -/
def raise (c : InterruptController) (i : Interrupt) : InterruptController :=
  { c with requested := c.requested ||| i.mask }.checkWake

/-- Enters a power state, unless an interrupt that ends it is pending already. -/
def sleep (c : InterruptController) (state : PowerState) : InterruptController :=
  if c.wakers state = 0 then { c with power := state } else c

/-- Stops the processor until an enabled interrupt is requested. -/
def enterHalt (c : InterruptController) : InterruptController := c.sleep .halt

/-- Stops the console until an enabled interrupt from outside is requested. -/
def enterStop (c : InterruptController) : InterruptController := c.sleep .stop

/-- Asserts the reset line, which also wakes the console. -/
def requestReset (c : InterruptController) : InterruptController :=
  { c with resetRequested := true, power := .run }

/-- Releases the reset line, once the processor has taken the reset. -/
def acknowledgeReset (c : InterruptController) : InterruptController :=
  { c with resetRequested := false }

/-- Drives the line of fast interrupts, which also wakes the console. -/
def setFiqLine (c : InterruptController) (asserted : Bool) : InterruptController :=
  let c := { c with fiqLine := asserted }
  if asserted then { c with power := .run } else c

/-! ### Registers -/

/-- The registers by offset. The power control byte shares a register with the flag
of the boot program, and only the flag can be read. -/
def register? (c : InterruptController) : Nat → Option Half
  | 0x000 => some c.enabled
  | 0x002 => some c.requested
  | 0x004 => some c.waitStates
  | 0x008 => some c.masterEnable
  | 0x006 | 0x00A => some 0
  | 0x100 => some (c.postBoot.setWidth 16)
  | _ => none

/-- Writes the low byte of the power register, the flag of the boot program. -/
def writePostBoot (c : InterruptController) (value mask : Half) : InterruptController :=
  if mask &&& 0x00FF ≠ 0 then { c with postBoot := value.setWidth 8 &&& 1 } else c

/-- Writes the high byte of the power register, which selects a power state. -/
def writePower (c : InterruptController) (value mask : Half) : InterruptController :=
  if mask &&& 0xFF00 ≠ 0 then
    if value.getLsbD 15 then c.enterStop else c.enterHalt
  else c

/-- Writes a register. A request is cleared by writing a one to its bit. -/
def writeRegister (c : InterruptController) (offset : Nat) (value mask : Half) :
    Bool × InterruptController :=
  match offset with
  | 0x000 =>
    let enabled := Bits.merge c.enabled value mask &&& sourceMask
    (true, { c with enabled := enabled }.checkWake)
  | 0x002 => (true, { c with requested := c.requested &&& ~~~(value &&& mask) })
  | 0x004 => (true, { c with waitStates := Bits.merge c.waitStates value mask })
  | 0x008 =>
    let masterEnable := Bits.merge c.masterEnable value mask &&& 1
    (true, { c with masterEnable := masterEnable }.checkWake)
  | 0x006 | 0x00A => (true, c)
  | 0x100 => (true, (c.writePostBoot value mask).writePower value mask)
  | _ => (false, c)

instance : RegisterBlock InterruptController where
  readRegister := register?
  writeRegister := writeRegister

end InterruptController

end AdvanceCore
