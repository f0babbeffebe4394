import StoryMachine.Input.Buffer
import StoryMachine.Machine.Control

/-!
# Printing and reading

The operations that print texts, numbers and characters, and the one that reads
a line of input into the buffers of the story.  Reading past the last line ends
the story.
-/

namespace StoryMachine.Machine

/-! ## Printing -/

/-- The text at an address, and the address after it. -/
def textAt (address : Nat) : Action (String × Nat) := do
  narrate .trace fun machine => Packed.narration machine.memory address
  ask fun machine => Packed.decodeAt machine.memory address machine.abbreviations.get

/-- Moves past the text after the instruction and prints it. -/
def printInline : Action Unit := do
  let pc := (← frame).pc
  let (text, stop) ← textAt pc
  setPc stop
  print text

/-- Prints the text after the instruction. -/
def printLiteral : Action Outcome := do
  printInline
  return .continued

/-- Prints the text after the instruction and a line break, and returns 1. -/
def printAndReturn : Action Outcome := do
  printInline
  printNewline
  returnValue 1

/-- Prints a line break. -/
def newLine : Action Outcome := do
  printNewline
  return .continued

/-- Prints the text at the address that an operand gives. -/
def printAt (operands : List Operand) (address : UInt16 → Nat) : Action Outcome := do
  let operand ← oneOperand operands
  let (text, _) ← textAt (address operand)
  print text
  return .continued

/-- Prints the name of an object. -/
def printObject (operands : List Operand) : Action Outcome := do
  let object ← oneOperand operands
  let name ← ask (·.objects.name object)
  print name
  return .continued

/-- Prints the character of a code; 13 is a line break. -/
def printChar (operands : List Operand) : Action Outcome := do
  let code ← oneOperand operands
  if code = 13 then printNewline
  else print (String.singleton (charOfByte (lowByte code)))
  return .continued

/-- Prints a signed number. -/
def printNumber (operands : List Operand) : Action Outcome := do
  let value ← oneOperand operands
  print (Numeral.signed (signedOfWord value))
  return .continued

/-! ## Reading -/

/-- Writes a line to a text buffer and returns what was kept. -/
def storeLine (textBuffer : UInt16) (line : String) : Action String := do
  let stored ← onMemory (TextBuffer.write textBuffer.toNat line)
  refresh textBuffer.toNat (stored.length + 2)
  note .debug fun _ => s!"sread: '{stored}'"
  return stored

/-- Writes the words of a text to a parse buffer. -/
def storeWords (parseBuffer : UInt16) (text : String) : Action Unit := do
  let dictionary := (← get).dictionary
  let tokens := Token.split dictionary.separators text
  narrate .debug fun machine =>
    ParseBuffer.narration dictionary parseBuffer.toNat tokens machine.memory
  let count ← onMemory (ParseBuffer.write dictionary parseBuffer.toNat tokens)
  refresh parseBuffer.toNat (2 + 4 * count)

/-- Reads a line into a text buffer and, if a second operand is given, its words
into a parse buffer. -/
def readInput (operands : List Operand) : Action Outcome := do
  match ← operandValues operands with
  | [] => throw (.operandCount 1 0)
  | textBuffer :: buffers =>
      match ← readLine with
      | none =>
          note .info fun _ => "end of input"
          halt
      | some line =>
          let stored ← storeLine textBuffer line
          match buffers with
          | [] => return .continued
          | parseBuffer :: _ =>
              storeWords parseBuffer stored
              return .continued

end StoryMachine.Machine
