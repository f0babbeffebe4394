import StoryMachine.Input.Dictionary
import StoryMachine.Input.Line
import StoryMachine.Log
import StoryMachine.Memory.Header
import StoryMachine.Object.Refresh
import StoryMachine.Object.Tree
import StoryMachine.Output
import StoryMachine.Random.Generator
import StoryMachine.Settings.Basic
import StoryMachine.Variable.Frame
import StoryMachine.Variable.Globals

/-!
# The machine

A `Machine` is a loaded story in the middle of a run.  It holds the memory image
with the copies of its tables, the calls under way, the output, the input lines
not yet read, and the random numbers.

An `Action` is what an instruction does.  It changes the machine and either
gives a value or fails, and a failed action keeps the changes made before the
failure.  The actions in this module are the only ones that look inside the
machine as a whole.  Every instruction is put together from them.
-/

namespace StoryMachine

/-- Whether a story goes on. -/
inductive Status where
  | running
  | halted
deriving DecidableEq

/-- A story in the middle of a run. -/
structure Machine where
  /-- The memory image. -/
  memory : Memory
  /-- The header, as it was when the story was loaded. -/
  header : Header
  /-- The abbreviations. -/
  abbreviations : Abbreviations
  /-- The dictionary. -/
  dictionary : Dictionary
  /-- The copy of the object table. -/
  objects : ObjectTable
  /-- The copy of the global variables. -/
  globals : Globals
  /-- The calls under way, the running one first. -/
  calls : CallStack
  /-- The choices for the run. -/
  settings : Settings
  /-- Where the story prints. -/
  output : Output
  /-- The lines of input not yet read. -/
  input : List InputLine
  /-- The source of random numbers. -/
  generator : Generator
  /-- The supply of keys for unpredictable generators. -/
  entropy : Entropy
  /-- Whether the story goes on. -/
  status : Status
  /-- The number of instructions executed. -/
  count : Nat
  /-- The notes on the run. -/
  log : Log

/-- What an instruction did to the flow of a run. -/
inductive Outcome where
  /-- The next instruction follows. -/
  | continued
  /-- A branch or jump was taken. -/
  | branched
  /-- A routine was entered. -/
  | called
  /-- A routine returned a value to its caller. -/
  | returned (value : UInt16)
  /-- The story is over. -/
  | halted
deriving DecidableEq

/-- What an instruction does. -/
abbrev Action := EStateM Error Machine

namespace Machine

/-- Whether the story goes on. -/
def isRunning (machine : Machine) : Bool := machine.status = .running

/-- The address of the next instruction, 0 when no call is under way. -/
def pc (machine : Machine) : Nat :=
  match machine.calls with
  | [] => 0
  | frame :: _ => frame.pc

/-- The number of calls under way. -/
def depth (machine : Machine) : Nat := machine.calls.length

/-- The byte address of a packed address. -/
def unpack (packed : UInt16) : Nat := 2 * packed.toNat

/-! ## Notes -/

/-- Makes a note. -/
def note (level : Level) (text : Unit → String) : Action Unit :=
  modify fun machine => { machine with log := machine.log.add level text }

/-- Makes notes on what the machine holds. -/
def narrate (level : Level) (texts : Machine → List String) : Action Unit :=
  modify fun machine => { machine with log := machine.log.addAll level fun _ => texts machine }

/-! ## Questions -/

/-- Asks the machine, without changing anything. -/
def ask {α : Type} (question : Machine → Except Error α) : Action α := fun machine =>
  match question machine with
  | .ok value => .ok value machine
  | .error e => .error e machine

/-! ## Memory and tables -/

/-- Changes the memory image.  It is taken out of the machine while the change
runs, so that it is changed in place. -/
def onMemory {α : Type} (update : Memory.Update α) : Action α := fun machine =>
  let memory := machine.memory
  let machine := { machine with memory := {} }
  match update memory with
  | .ok value memory => .ok value { machine with memory }
  | .error e memory => .error e { machine with memory }

/-- Changes objects, in the memory image and in the copy. -/
def onObjects {α : Type} (edit : ObjectStore.Edit α) : Action α := fun machine =>
  let store : ObjectStore := { memory := machine.memory, table := machine.objects }
  let machine := { machine with memory := {}, objects := default }
  match edit store with
  | .ok value store => .ok value { machine with memory := store.memory, objects := store.table }
  | .error e store => .error e { machine with memory := store.memory, objects := store.table }

/-- Sets a global variable, in the memory image and in the copy. -/
def setGlobal (index : UInt8) (value : UInt16) : Action Unit := do
  let globals := (← get).globals
  let globals ← onMemory (globals.set index value)
  modify fun machine => { machine with globals }

/-- Brings the copy of the global variables up to date. -/
def refreshGlobals (address count : Nat) : Action Unit := do
  let globals ← ask fun machine => machine.globals.refresh machine.memory address count
  modify fun machine => { machine with globals }

/-- Brings the copy of the object table up to date. -/
def refreshObjects (address count : Nat) : Action Unit := do
  narrate .debug fun machine => machine.objects.refreshNarration address count
  let objects ← ask fun machine => machine.objects.refresh machine.memory address count
  modify fun machine => { machine with objects }

/-- Brings both copies up to date after `count` bytes from `address` on have
been written to memory. -/
def refresh (address count : Nat) : Action Unit := do
  refreshGlobals address count
  refreshObjects address count

/-! ## Frames -/

/-- The running frame. -/
def frame : Action Frame := ask fun machine =>
  match machine.calls with
  | [] => .error .stackUnderflow
  | frame :: _ => .ok frame

/-- Puts a frame in the place of the running one. -/
def setFrame (frame : Frame) : Action Unit :=
  modify fun machine => { machine with calls := frame :: machine.calls.tail }

/-- Changes the running frame. -/
def onFrame {α : Type} (change : Frame → Except Error (α × Frame)) : Action α := do
  let current ← frame
  match change current with
  | .ok (value, changed) =>
      setFrame changed
      return value
  | .error e => throw e

/-- Moves the running frame to an address. -/
def setPc (pc : Nat) : Action Unit := onFrame fun frame => .ok ((), { frame with pc })

/-- Enters a frame. -/
def pushFrame (frame : Frame) : Action Unit :=
  modify fun machine => { machine with calls := frame :: machine.calls }

/-- Leaves the running frame. -/
def popFrame : Action Unit := modify fun machine => { machine with calls := machine.calls.tail }

/-! ## Output, input and the end -/

/-- Prints a text, unless the sink refuses it. -/
def print (text : String) : Action Unit := do
  match (← get).output.reception with
  | .accepted => modify fun machine => { machine with output := machine.output.accept text }
  | .refused reason =>
      modify fun machine => { machine with output := machine.output.refuse }
      throw (.inputOutput reason)

/-- Prints a line break. -/
def printNewline : Action Unit := print "\n"

/-- The next line of input, or none when there are no more. -/
def readLine : Action (Option String) := do
  match (← get).input with
  | [] => return none
  | line :: rest =>
      modify fun machine => { machine with input := rest }
      match line with
      | .text line => return some line
      | .broken reason => throw (.inputOutput reason)

/-- Ends the story. -/
def halt : Action Outcome := do
  modify fun machine => { machine with status := .halted }
  return .halted

/-- Changes the source of random numbers. -/
def onGenerator {α : Type} (draw : Generator → α × Generator) : Action α :=
  modifyGet fun machine =>
    let (value, generator) := draw machine.generator
    (value, { machine with generator })

/-- Gives the machine an unpredictable generator with a fresh key. -/
def randomize : Action Unit :=
  modify fun machine =>
    let (generator, entropy) := machine.entropy.generator
    { machine with generator, entropy }

end Machine

end StoryMachine
