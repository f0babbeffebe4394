import StoryMachine.Machine.Control

/-!
# Routines and the end of a story

The operations that call routines, return from them, and end the story.
-/

namespace StoryMachine.Machine

open Numeral (hex)

/-- Calls the routine of the first operand with the others as arguments. -/
def call (operands : List Operand) : Action Outcome := do
  match ← operandValues operands with
  | routine :: arguments => callRoutine routine arguments
  | [] => throw (.operandCount 1 0)

/-- Returns the operand. -/
def returnOperand (operands : List Operand) : Action Outcome := do
  let value ← oneOperand operands
  returnValue value

/-- Returns the top of the evaluation stack. -/
def returnPopped : Action Outcome := do
  let value ← onFrame Frame.pop
  note .debug fun _ => s!"ret_popped {hex 4 value.toNat}"
  returnValue value

/-- Ends the story. -/
def quit : Action Outcome := do
  note .info fun _ => "quit"
  halt

end StoryMachine.Machine
