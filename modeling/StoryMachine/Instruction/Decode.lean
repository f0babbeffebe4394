import StoryMachine.Instruction.Basic
import StoryMachine.Memory.Basic

/-!
# Decoding instructions

The first byte of an instruction selects its form.

* long: the top bit is clear.  Two operands, each a small constant or a
  variable, as the bits `0x40` and `0x20` say.
* short: the top bits are `10`.  One operand of the kind that the bits `0x30`
  select, or none.
* variable: the top bits are `11`.  A second byte names up to four kinds, two
  bits each from the top, and the operands are those before the first omitted
  one.
* extended: the one byte `0xbe`, which would be a short form.

Decoding fails only when one of these bytes lies outside the image.
-/

namespace StoryMachine.Instruction

/-- What the bytes before the operands say. -/
structure Shape where
  /-- The category of the opcode. -/
  arity : Arity
  /-- The opcode number. -/
  number : UInt8
  /-- The kinds of the operands. -/
  kinds : List OperandKind
  /-- The number of bytes before the operands. -/
  length : Nat
deriving DecidableEq

/-- The kinds that a byte of four two-bit fields names, up to the first omitted
one. -/
def kindsOfByte (byte : UInt8) : List OperandKind :=
  [byte >>> 6, byte >>> 4, byte >>> 2, byte].map OperandKind.ofBits |>.takeWhile (· ≠ .omitted)

/-- Kinds after the first omitted one do not count. -/
example : kindsOfByte 0x70 = [.small] := by decide

/-- The shape of a short form instruction. -/
def shortShape (byte : UInt8) : Shape :=
  match OperandKind.ofBits (byte >>> 4) with
  | .omitted => { arity := .zero, number := byte &&& 0x0f, kinds := [], length := 1 }
  | kind => { arity := .one, number := byte &&& 0x0f, kinds := [kind], length := 1 }

/-- The shape of a long form instruction. -/
def longShape (byte : UInt8) : Shape :=
  let kind (mask : UInt8) : OperandKind := if byte &&& mask ≠ 0 then .variable else .small
  { arity := .two, number := byte &&& 0x1f, kinds := [kind 0x40, kind 0x20], length := 1 }

/-- The shape of a variable form instruction with the given byte of kinds. -/
def variableShape (byte kinds : UInt8) : Shape where
  arity := if byte &&& 0x20 ≠ 0 then .variable else .two
  number := byte &&& 0x1f
  kinds := kindsOfByte kinds
  length := 2

/-- The shape of the instruction at an address, whose first byte is given. -/
def shape (memory : Memory) (address : Nat) (byte : UInt8) : Except Error Shape :=
  if byte = 0xbe then .ok { arity := .extended, number := byte, kinds := [], length := 1 }
  else if 0xc0 ≤ byte then do
    let kinds ← memory.getByte (address + 1)
    return variableShape byte kinds
  else if 0x80 ≤ byte then .ok (shortShape byte)
  else .ok (longShape byte)

/-- The value of an operand at an address. -/
def operandValue (memory : Memory) (address : Nat) : OperandKind → Except Error UInt16
  | .large => memory.getWord address
  | _ => do return (← memory.getByte address).toUInt16

/-- The operands of the given kinds from an address on, and the address after
them. -/
def readOperands (memory : Memory) :
    (address : Nat) → List OperandKind → Except Error (List Operand × Nat)
  | address, [] => .ok ([], address)
  | address, kind :: kinds => do
      let value ← operandValue memory address kind
      let (operands, next) ← readOperands memory (address + kind.size) kinds
      return ({ kind, value } :: operands, next)

/-- The instruction at an address. -/
def decode (memory : Memory) (address : Nat) : Except Error Instruction := do
  let byte ← memory.getByte address
  let shape ← shape memory address byte
  let (operands, next) ← readOperands memory (address + shape.length) shape.kinds
  return { arity := shape.arity, number := shape.number, operands, byte, address, next }

end StoryMachine.Instruction
