import StoryMachine.Machine.Variable

/-!
# Variables and arrays

The operations that name a variable by number, those that read and write
elements of arrays in memory, and those on the evaluation stack.  After a write
to memory the copies of the tables are brought up to date.
-/

namespace StoryMachine.Machine

open Numeral (hex)

/-! ## Variables -/

/-- Sets a variable given by number. -/
def storeVariable (operands : List Operand) : Action Outcome := do
  let (word, value) ← twoOperands operands
  let number ← variableOfWord word
  writeVariable number value
  return .continued

/-- Stores the value of a variable given by number. -/
def loadVariable (operands : List Operand) : Action Outcome := do
  let word ← oneOperand operands
  let number ← variableOfWord word
  let value ← readVariable number
  storeAndContinue value

/-! ## Arrays -/

/-- Stores the word at an index of an array. -/
def loadWord (operands : List Operand) : Action Outcome := do
  let (array, index) ← twoOperands operands
  let value ← ask fun machine => machine.memory.getWord (array.toNat + 2 * index.toNat)
  storeAndContinue value

/-- Stores the byte at an index of an array. -/
def loadByte (operands : List Operand) : Action Outcome := do
  let (array, index) ← twoOperands operands
  let value ← ask fun machine => machine.memory.getByte (array.toNat + index.toNat)
  storeAndContinue value.toUInt16

/-- Writes a word at an index of an array. -/
def writeWord (operands : List Operand) : Action Outcome := do
  let (array, index, value) ← threeOperands operands
  let address := array.toNat + 2 * index.toNat
  note .debug fun _ => s!"storew {hex 5 address} <- {hex 4 value.toNat}"
  onMemory (Memory.setWord address value)
  refresh address 2
  return .continued

/-- Writes a byte at an index of an array. -/
def writeByte (operands : List Operand) : Action Outcome := do
  let (array, index, value) ← threeOperands operands
  let address := array.toNat + index.toNat
  note .debug fun _ => s!"storeb {hex 5 address} <- {hex 2 (lowByte value).toNat}"
  onMemory (Memory.setByte address (lowByte value))
  refresh address 1
  return .continued

/-! ## The evaluation stack -/

/-- Pushes a value. -/
def push (operands : List Operand) : Action Outcome := do
  let value ← oneOperand operands
  onFrame fun frame => .ok ((), frame.push value)
  return .continued

/-- Pops a value into a variable given by number. -/
def pull (operands : List Operand) : Action Outcome := do
  let word ← oneOperand operands
  let number ← variableOfWord word
  let value ← onFrame Frame.pop
  writeVariable number value
  return .continued

/-- Drops a value. -/
def pop : Action Outcome := do
  let _ ← onFrame Frame.pop
  return .continued

end StoryMachine.Machine
