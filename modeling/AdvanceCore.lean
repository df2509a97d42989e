import AdvanceCore.Alu
import AdvanceCore.Arm.Decode
import AdvanceCore.Arm.Execute
import AdvanceCore.Arm.Instruction
import AdvanceCore.Arm.Text
import AdvanceCore.Bits
import AdvanceCore.Board
import AdvanceCore.Bus
import AdvanceCore.Cartridge
import AdvanceCore.Condition
import AdvanceCore.Console
import AdvanceCore.Cpu.Basic
import AdvanceCore.Cpu.Branch
import AdvanceCore.Cpu.Exception
import AdvanceCore.Cpu.Step
import AdvanceCore.Cpu.Transfer
import AdvanceCore.Dma.Channel
import AdvanceCore.Dma.Transfer
import AdvanceCore.Dma.Unit
import AdvanceCore.Headless
import AdvanceCore.Interrupt
import AdvanceCore.InterruptController
import AdvanceCore.Main
import AdvanceCore.Memory
import AdvanceCore.Mode
import AdvanceCore.Numeral
import AdvanceCore.Peripheral
import AdvanceCore.Proofs.Bus.Accesses
import AdvanceCore.Proofs.Bus.ByteStores
import AdvanceCore.Proofs.Bus.FaultyRam
import AdvanceCore.Proofs.Bus.LoadWidths
import AdvanceCore.Proofs.Bus.RamStores
import AdvanceCore.Proofs.Bus.RejectedStores
import AdvanceCore.Proofs.Bus.Watched
import AdvanceCore.Proofs.Bus.WordRuns
import AdvanceCore.Proofs.Bus.WorkRam
import AdvanceCore.Proofs.Checked.Board
import AdvanceCore.Proofs.Checked.Bus
import AdvanceCore.Proofs.Checked.Console
import AdvanceCore.Proofs.Checked.Decoding
import AdvanceCore.Proofs.Checked.Dma
import AdvanceCore.Proofs.Checked.Fields
import AdvanceCore.Proofs.Checked.Guarded
import AdvanceCore.Proofs.Checked.Instructions
import AdvanceCore.Proofs.Checked.Processor
import AdvanceCore.Proofs.Checked.Status
import AdvanceCore.Proofs.Checked.Timers
import AdvanceCore.Proofs.Checked.Words
import AdvanceCore.Proofs.Console.Channels
import AdvanceCore.Proofs.Console.Clock
import AdvanceCore.Proofs.Console.Events
import AdvanceCore.Proofs.Console.HaltedSleep
import AdvanceCore.Proofs.Console.ImmediateBlock
import AdvanceCore.Proofs.Console.PendingReset
import AdvanceCore.Proofs.Console.RunTime
import AdvanceCore.Proofs.Console.SignalQueue
import AdvanceCore.Proofs.Cpu.BankIsolation
import AdvanceCore.Proofs.Cpu.CycleCount
import AdvanceCore.Proofs.Cpu.DataAbort
import AdvanceCore.Proofs.Cpu.ExceptionEntry
import AdvanceCore.Proofs.Cpu.ExtensionSpace
import AdvanceCore.Proofs.Cpu.InterruptReturn
import AdvanceCore.Proofs.Cpu.JumpTargets
import AdvanceCore.Proofs.Cpu.Pipeline
import AdvanceCore.Proofs.Cpu.RegisterView
import AdvanceCore.Proofs.Cpu.StackRoundTrip
import AdvanceCore.Proofs.Cpu.StepOutcomes
import AdvanceCore.Proofs.Cpu.ThumbAsArm
import AdvanceCore.Proofs.Cpu.UserBankTransfer
import AdvanceCore.Proofs.Cpu.UserInstructions
import AdvanceCore.Proofs.Cpu.UserMode
import AdvanceCore.Proofs.Cpu.UserStep
import AdvanceCore.Proofs.Dma.AddressLines
import AdvanceCore.Proofs.Dma.Blocks
import AdvanceCore.Proofs.Dma.Lifecycle
import AdvanceCore.Proofs.Dma.Programming
import AdvanceCore.Proofs.Dma.RamBlocks
import AdvanceCore.Proofs.Dma.Repetition
import AdvanceCore.Proofs.Dma.Replay
import AdvanceCore.Proofs.Dma.UnitPlaces
import AdvanceCore.Proofs.Interrupts.PowerStates
import AdvanceCore.Proofs.Timers.Advance
import AdvanceCore.Proofs.Timers.Cascades
import AdvanceCore.Proofs.Timers.Deadlines
import AdvanceCore.Proofs.Timers.Listening
import AdvanceCore.Proofs.Timers.Reachable
import AdvanceCore.Proofs.Timers.RegisterWrites
import AdvanceCore.Proofs.Timers.Requests
import AdvanceCore.Proofs.Timers.Rounds
import AdvanceCore.Proofs.Timers.TickByTick
import AdvanceCore.Proofs.Timers.Wraps
import AdvanceCore.Psr
import AdvanceCore.RegisterBank
import AdvanceCore.RegisterBlock
import AdvanceCore.Registers
import AdvanceCore.Shifter
import AdvanceCore.Thumb.Decode
import AdvanceCore.Thumb.Execute
import AdvanceCore.Thumb.Instruction
import AdvanceCore.Thumb.Text
import AdvanceCore.Timer
import AdvanceCore.Timers
import AdvanceCore.Transfer
import AdvanceCore.Proofs.Alu.ShiftSteps
import AdvanceCore.Proofs.Alu.Sums
import AdvanceCore.Proofs.Alu.CarryChains
import AdvanceCore.Proofs.Alu.Comparisons
import AdvanceCore.Proofs.Cpu.LongCalls
