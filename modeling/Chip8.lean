import Chip8.Text.Words
import Chip8.Text.Decimal
import Chip8.Text.Hex
import Chip8.Keypad
import Chip8.Font
import Chip8.Bitmap.Color
import Chip8.Instruction
import Chip8.Instruction.Decode
import Chip8.Instruction.Listing
import Chip8.Log
import Chip8.Machine.Execute
import Chip8.Machine.Batch
import Chip8.Random
import Chip8.Session
import Chip8.CommandLine
import Chip8.Terminal.Keymap
import Chip8.Terminal.View
import Chip8.Main
import Chip8.Proofs.Bitmap.Binary
import Chip8.Proofs.Bitmap.Clipping
import Chip8.Proofs.Bitmap.Superposition
import Chip8.Proofs.Bitmap.Packing
import Chip8.Proofs.Instruction.Spelling
import Chip8.Proofs.Effect
import Chip8.Proofs.Invariant
import Chip8.Proofs.Checked
import Chip8.Proofs.Safety
import Chip8.Proofs.Faults
import Chip8.Proofs.Run
import Chip8.Proofs.Calls
import Chip8.Proofs.Waiting
import Chip8.Proofs.Drawing
import Chip8.Proofs.Writing
import Chip8.Proofs.Timers
import Chip8.Proofs.KeyInfluence
import Chip8.Proofs.DeadState
import Chip8.Proofs.Registers
import Chip8.Proofs.Session.Operation
import Chip8.Proofs.Session.Callbacks
import Chip8.Proofs.Session.Effect
import Chip8.Proofs.Session.Scenario
import Chip8.Proofs.Session.Invariant
import Chip8.Proofs.Session.Course
import Chip8.Proofs.Session.Refinement
import Chip8.Proofs.Session.Lifecycle
import Chip8.Proofs.Session.Loop
import Chip8.Proofs.Session.Freshness
import Chip8.Proofs.Session.Alike
import Chip8.Proofs.Session.Restart
import Chip8.Proofs.Session.KeyMoves
import Chip8.Proofs.Session.Pace
import Chip8.Proofs.ControlFlow
import Chip8.Proofs.SavedRegisters
import Chip8.Proofs.Logging
import Chip8.Proofs.Terminal.Prints
import Chip8.Proofs.CommandLine.Preparation
