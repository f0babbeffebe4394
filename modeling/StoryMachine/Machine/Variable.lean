import StoryMachine.Instruction.Basic
import StoryMachine.Machine.Basic

/-!
# Variables and operands

Variable 0 is the evaluation stack of the running frame, 1 to 15 are its
locals, and 16 to 254 are global variables.  Variable 255 does not exist.

An operand that names a variable is read when its turn comes, so operands that
name the stack pop it from left to right.  All operands of an instruction are
read before it is found that there are too few.
-/

namespace StoryMachine.Machine

open Numeral (hex)

/-- Reads a variable. -/
def readVariable (number : UInt8) : Action UInt16 :=
  if number < 16 then onFrame (·.read number)
  else if number = 255 then throw (.invalidVariable 255)
  else ask fun machine => machine.globals.get (number - 16)

/-- Writes a variable. -/
def writeVariable (number : UInt8) (value : UInt16) : Action Unit :=
  if number < 16 then onFrame fun frame => (frame.write number value).map ((), ·)
  else if number = 255 then throw (.invalidVariable 255)
  else setGlobal (number - 16) value

/-- The variable that an operand value names. -/
def variableOfWord (word : UInt16) : Action UInt8 :=
  if word.toNat < 256 then pure (lowByte word) else throw (.invalidVariable word)

/-! ## Operands -/

/-- The value of an operand. -/
def operandValue (operand : Operand) : Action UInt16 :=
  match operand.kind with
  | .large => pure operand.value
  | .small => pure operand.value
  | .variable => readVariable (lowByte operand.value)
  | .omitted => throw (.operandCount 1 0)

/-- The values of operands, from left to right. -/
def operandValues : List Operand → Action (List UInt16)
  | [] => pure []
  | operand :: rest => do
      let value ← operandValue operand
      let values ← operandValues rest
      return value :: values

/-- The first `count` operand values. -/
def firstOperands (count : Nat) (operands : List Operand) : Action (Vector UInt16 count) := do
  let values ← operandValues operands
  if enough : count ≤ values.length then
    return ⟨(values.take count).toArray, by simp [enough]⟩
  else throw (.operandCount count values.length)

/-- The first operand value. -/
def oneOperand (operands : List Operand) : Action UInt16 := do
  let values ← firstOperands 1 operands
  return values[0]

/-- The first two operand values. -/
def twoOperands (operands : List Operand) : Action (UInt16 × UInt16) := do
  let values ← firstOperands 2 operands
  return (values[0], values[1])

/-- The first three operand values. -/
def threeOperands (operands : List Operand) : Action (UInt16 × UInt16 × UInt16) := do
  let values ← firstOperands 3 operands
  return (values[0], values[1], values[2])

/-! ## Results -/

/-- The byte at the address of the running frame, which moves past it. -/
def fetchByte : Action UInt8 := do
  let pc := (← frame).pc
  let byte ← ask fun machine => machine.memory.getByte pc
  setPc (pc + 1)
  return byte

/-- Writes a result to the variable that the next byte names. -/
def storeResult (value : UInt16) : Action Unit := do
  let number ← fetchByte
  note .trace fun _ => s!"  -> V{hex 2 number.toNat} = {hex 4 value.toNat}"
  writeVariable number value

/-- Writes a result and goes on. -/
def storeAndContinue (value : UInt16) : Action Outcome := do
  storeResult value
  return .continued

end StoryMachine.Machine
