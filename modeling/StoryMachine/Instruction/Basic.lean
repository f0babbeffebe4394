import StoryMachine.Instruction.Arity
import StoryMachine.Text.Numeral

/-!
# Instructions

An instruction as it is read from memory: a category, an opcode number, and up
to four operands.  Each operand is a constant of one or two bytes or the number
of a variable.  What may follow the operands (a variable to store in, a branch,
a text) is not part of it and is read by the opcode that needs it.
-/

namespace StoryMachine

open Numeral (hex decimal)

/-- How an operand is encoded. -/
inductive OperandKind where
  /-- A constant of two bytes. -/
  | large
  /-- A constant of one byte. -/
  | small
  /-- The number of a variable. -/
  | variable
  /-- No operand. -/
  | omitted
deriving DecidableEq

namespace OperandKind

/-- The kind that the low two bits of a byte select. -/
def ofBits (bits : UInt8) : OperandKind :=
  match bits.toNat % 4 with
  | 0 => .large
  | 1 => .small
  | 2 => .variable
  | _ => .omitted

/-- The number of bytes of an operand. -/
def size : OperandKind → Nat
  | .large => 2
  | .small => 1
  | .variable => 1
  | .omitted => 0

end OperandKind

/-- An operand. -/
structure Operand where
  /-- How it is encoded. -/
  kind : OperandKind
  /-- The constant, or the number of the variable. -/
  value : UInt16
deriving DecidableEq

/-- An operand in messages: constants in hexadecimal, variables by name. -/
def Operand.render (operand : Operand) : String :=
  let value := operand.value.toNat
  match operand.kind with
  | .large => s!"#{hex 4 value}"
  | .small => s!"#{hex 2 value}"
  | .variable =>
      if value = 0 then "SP"
      else if value < 16 then s!"L{decimal 2 value}"
      else s!"G{hex 2 (value - 16)}"
  | .omitted => ""

/-- A decoded instruction. -/
structure Instruction where
  /-- The category of the opcode. -/
  arity : Arity
  /-- The opcode number within its category. -/
  number : UInt8
  /-- The operands. -/
  operands : List Operand
  /-- The first byte. -/
  byte : UInt8
  /-- The address of the first byte. -/
  address : Nat
  /-- The address after the operands. -/
  next : Nat
deriving DecidableEq

namespace Instruction

/-- The number of bytes up to the end of the operands. -/
def size (instruction : Instruction) : Nat := instruction.next - instruction.address

/-- An instruction in messages. -/
def render (instruction : Instruction) : String :=
  let opening := s!"{instruction.arity.label}:0x{hex 2 instruction.number.toNat}"
  match instruction.operands with
  | [] => opening
  | operands => opening ++ " " ++ String.intercalate ", " (operands.map Operand.render)

end Instruction

end StoryMachine
