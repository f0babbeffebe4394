import StoryMachine.Error
import StoryMachine.Input.Buffer
import StoryMachine.Input.Dictionary
import StoryMachine.Input.Line
import StoryMachine.Input.Token
import StoryMachine.Instruction.Arity
import StoryMachine.Instruction.Basic
import StoryMachine.Instruction.Decode
import StoryMachine.Instruction.Opcode
import StoryMachine.Log
import StoryMachine.Machine.Arithmetic
import StoryMachine.Machine.Basic
import StoryMachine.Machine.Control
import StoryMachine.Machine.Dialogue
import StoryMachine.Machine.Load
import StoryMachine.Machine.Objects
import StoryMachine.Machine.Routine
import StoryMachine.Machine.Run
import StoryMachine.Machine.Step
import StoryMachine.Machine.Storage
import StoryMachine.Machine.Variable
import StoryMachine.Main
import StoryMachine.Memory.Basic
import StoryMachine.Memory.Header
import StoryMachine.Memory.Word
import StoryMachine.Object.Basic
import StoryMachine.Object.Edit
import StoryMachine.Object.Load
import StoryMachine.Object.Refresh
import StoryMachine.Object.Tree
import StoryMachine.Output
import StoryMachine.Proofs.Input.Buffer
import StoryMachine.Proofs.Input.Lookup
import StoryMachine.Proofs.Input.Splitting
import StoryMachine.Proofs.Instruction.Encoding
import StoryMachine.Proofs.Machine.Action
import StoryMachine.Proofs.Machine.Atomicity
import StoryMachine.Proofs.Machine.Branching
import StoryMachine.Proofs.Machine.Budget
import StoryMachine.Proofs.Machine.CallStack
import StoryMachine.Proofs.Machine.Chance
import StoryMachine.Proofs.Machine.Coherence
import StoryMachine.Proofs.Machine.Division
import StoryMachine.Proofs.Machine.Failure
import StoryMachine.Proofs.Machine.Footprint
import StoryMachine.Proofs.Machine.Grammar
import StoryMachine.Proofs.Machine.Guise
import StoryMachine.Proofs.Machine.Isolation
import StoryMachine.Proofs.Machine.Loading
import StoryMachine.Proofs.Machine.Operands
import StoryMachine.Proofs.Machine.Outcome
import StoryMachine.Proofs.Machine.RawWrite
import StoryMachine.Proofs.Machine.Reachable
import StoryMachine.Proofs.Machine.Reading
import StoryMachine.Proofs.Machine.Steady
import StoryMachine.Proofs.Machine.Step
import StoryMachine.Proofs.Machine.VariableStore
import StoryMachine.Proofs.Memory.Bytes
import StoryMachine.Proofs.Object.Edit
import StoryMachine.Proofs.Object.Flags
import StoryMachine.Proofs.Object.Forest
import StoryMachine.Proofs.Object.Links
import StoryMachine.Proofs.Object.Refusal
import StoryMachine.Proofs.Object.Removal
import StoryMachine.Proofs.Sequencing
import StoryMachine.Proofs.Table.Agreement
import StoryMachine.Proofs.Table.Bounds
import StoryMachine.Proofs.Table.Layout
import StoryMachine.Proofs.Table.Mirror
import StoryMachine.Proofs.Table.Readable
import StoryMachine.Proofs.Table.Refresh
import StoryMachine.Proofs.Table.Touched
import StoryMachine.Proofs.Text.Alphabet
import StoryMachine.Proofs.Text.Encoding
import StoryMachine.Proofs.Text.Extent
import StoryMachine.Proofs.Text.Splice
import StoryMachine.Random.Generator
import StoryMachine.Random.KeyStream
import StoryMachine.Session
import StoryMachine.Settings.Basic
import StoryMachine.Settings.Toml
import StoryMachine.Text.Abbreviations
import StoryMachine.Text.Lowercase
import StoryMachine.Text.Numeral
import StoryMachine.Text.Packed
import StoryMachine.Variable.Frame
import StoryMachine.Variable.Globals
import StoryMachine.Proofs.Object.Chain
import StoryMachine.Proofs.Table.Extent
import StoryMachine.Proofs.Machine.Binding
import StoryMachine.Proofs.Object.Views
