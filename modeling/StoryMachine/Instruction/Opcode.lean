import StoryMachine.Error
import StoryMachine.Instruction.Basic

/-!
# Opcodes

The 58 operations a story can use, with their names and their numbers in each
category.  A number without an operation cannot be executed, and nothing in the
extended form can.
-/

namespace StoryMachine

/-- An operation of the machine. -/
inductive Opcode where
  /-- Branch if the first operand equals one of the others. -/
  | je
  /-- Branch if the first operand is less, as signed words. -/
  | jl
  /-- Branch if the first operand is greater, as signed words. -/
  | jg
  /-- Decrement a variable and branch if it is then less than a limit. -/
  | decChk
  /-- Increment a variable and branch if it is then greater than a limit. -/
  | incChk
  /-- Branch if an object is a child of another. -/
  | jin
  /-- Branch if all the given bits are set. -/
  | test
  /-- Bitwise or. -/
  | or
  /-- Bitwise and. -/
  | and
  /-- Branch if an object has a flag. -/
  | testAttr
  /-- Set a flag of an object. -/
  | setAttr
  /-- Clear a flag of an object. -/
  | clearAttr
  /-- Set a variable given by number. -/
  | store
  /-- Put an object in front of the children of another. -/
  | insertObj
  /-- The word at an index of an array. -/
  | loadw
  /-- The byte at an index of an array. -/
  | loadb
  /-- The value of a property. -/
  | getProp
  /-- The address of the data of a property. -/
  | getPropAddr
  /-- The number of the property after another. -/
  | getNextProp
  /-- Sum modulo 65536. -/
  | add
  /-- Difference modulo 65536. -/
  | sub
  /-- Product modulo 65536. -/
  | mul
  /-- Quotient of signed words, rounded down. -/
  | div
  /-- Remainder of signed words, with the sign of the divisor. -/
  | mod
  /-- Branch if zero. -/
  | jz
  /-- The next sibling of an object, and branch if there is one. -/
  | getSibling
  /-- The first child of an object, and branch if there is one. -/
  | getChild
  /-- The parent of an object. -/
  | getParent
  /-- The length of the property whose data is at an address. -/
  | getPropLen
  /-- Increment a variable. -/
  | inc
  /-- Decrement a variable. -/
  | dec
  /-- Print the text at a byte address. -/
  | printAddr
  /-- Take an object out of its parent. -/
  | removeObj
  /-- Print the name of an object. -/
  | printObj
  /-- Return a value. -/
  | ret
  /-- Jump by a signed offset. -/
  | jump
  /-- Print the text at a packed address. -/
  | printPaddr
  /-- The value of a variable given by number. -/
  | load
  /-- Bitwise complement. -/
  | not
  /-- Return 1. -/
  | rtrue
  /-- Return 0. -/
  | rfalse
  /-- Print the text that follows. -/
  | print
  /-- Print the text that follows and a line break, and return 1. -/
  | printRet
  /-- Do nothing. -/
  | nop
  /-- Return the top of the evaluation stack. -/
  | retPopped
  /-- Drop the top of the evaluation stack. -/
  | pop
  /-- End the story. -/
  | quit
  /-- Print a line break. -/
  | newLine
  /-- Call a routine. -/
  | call
  /-- Store a word at an index of an array. -/
  | storew
  /-- Store a byte at an index of an array. -/
  | storeb
  /-- Set the value of a property. -/
  | putProp
  /-- Read a line of input. -/
  | sread
  /-- Print a character. -/
  | printChar
  /-- Print a signed number. -/
  | printNum
  /-- A random number, or a new seed. -/
  | random
  /-- Push a value on the evaluation stack. -/
  | push
  /-- Pop the evaluation stack into a variable given by number. -/
  | pull
deriving DecidableEq

namespace Opcode

/-- The name of an operation. -/
def mnemonic : Opcode → String
  | .je => "je"
  | .jl => "jl"
  | .jg => "jg"
  | .decChk => "dec_chk"
  | .incChk => "inc_chk"
  | .jin => "jin"
  | .test => "test"
  | .or => "or"
  | .and => "and"
  | .testAttr => "test_attr"
  | .setAttr => "set_attr"
  | .clearAttr => "clear_attr"
  | .store => "store"
  | .insertObj => "insert_obj"
  | .loadw => "loadw"
  | .loadb => "loadb"
  | .getProp => "get_prop"
  | .getPropAddr => "get_prop_addr"
  | .getNextProp => "get_next_prop"
  | .add => "add"
  | .sub => "sub"
  | .mul => "mul"
  | .div => "div"
  | .mod => "mod"
  | .jz => "jz"
  | .getSibling => "get_sibling"
  | .getChild => "get_child"
  | .getParent => "get_parent"
  | .getPropLen => "get_prop_len"
  | .inc => "inc"
  | .dec => "dec"
  | .printAddr => "print_addr"
  | .removeObj => "remove_obj"
  | .printObj => "print_obj"
  | .ret => "ret"
  | .jump => "jump"
  | .printPaddr => "print_paddr"
  | .load => "load"
  | .not => "not"
  | .rtrue => "rtrue"
  | .rfalse => "rfalse"
  | .print => "print"
  | .printRet => "print_ret"
  | .nop => "nop"
  | .retPopped => "ret_popped"
  | .pop => "pop"
  | .quit => "quit"
  | .newLine => "new_line"
  | .call => "call"
  | .storew => "storew"
  | .storeb => "storeb"
  | .putProp => "put_prop"
  | .sread => "sread"
  | .printChar => "print_char"
  | .printNum => "print_num"
  | .random => "random"
  | .push => "push"
  | .pull => "pull"

/-- The operations of two operands, by number. -/
def ofTwo? : Nat → Option Opcode
  | 0x01 => some .je
  | 0x02 => some .jl
  | 0x03 => some .jg
  | 0x04 => some .decChk
  | 0x05 => some .incChk
  | 0x06 => some .jin
  | 0x07 => some .test
  | 0x08 => some .or
  | 0x09 => some .and
  | 0x0a => some .testAttr
  | 0x0b => some .setAttr
  | 0x0c => some .clearAttr
  | 0x0d => some .store
  | 0x0e => some .insertObj
  | 0x0f => some .loadw
  | 0x10 => some .loadb
  | 0x11 => some .getProp
  | 0x12 => some .getPropAddr
  | 0x13 => some .getNextProp
  | 0x14 => some .add
  | 0x15 => some .sub
  | 0x16 => some .mul
  | 0x17 => some .div
  | 0x18 => some .mod
  | _ => none

/-- The operations of one operand, by number. -/
def ofOne? : Nat → Option Opcode
  | 0x00 => some .jz
  | 0x01 => some .getSibling
  | 0x02 => some .getChild
  | 0x03 => some .getParent
  | 0x04 => some .getPropLen
  | 0x05 => some .inc
  | 0x06 => some .dec
  | 0x07 => some .printAddr
  | 0x09 => some .removeObj
  | 0x0a => some .printObj
  | 0x0b => some .ret
  | 0x0c => some .jump
  | 0x0d => some .printPaddr
  | 0x0e => some .load
  | 0x0f => some .not
  | _ => none

/-- The operations without operands, by number. -/
def ofZero? : Nat → Option Opcode
  | 0x00 => some .rtrue
  | 0x01 => some .rfalse
  | 0x02 => some .print
  | 0x03 => some .printRet
  | 0x04 => some .nop
  | 0x08 => some .retPopped
  | 0x09 => some .pop
  | 0x0a => some .quit
  | 0x0b => some .newLine
  | _ => none

/-- The operations of up to four operands, by number. -/
def ofVariable? : Nat → Option Opcode
  | 0x00 => some .call
  | 0x01 => some .storew
  | 0x02 => some .storeb
  | 0x03 => some .putProp
  | 0x04 => some .sread
  | 0x05 => some .printChar
  | 0x06 => some .printNum
  | 0x07 => some .random
  | 0x08 => some .push
  | 0x09 => some .pull
  | _ => none

/-- The operation of a number in a category. -/
def ofNumber? (arity : Arity) (number : UInt8) : Option Opcode :=
  match arity with
  | .zero => ofZero? number.toNat
  | .one => ofOne? number.toNat
  | .two => ofTwo? number.toNat
  | .variable => ofVariable? number.toNat
  | .extended => none

end Opcode

/-- The operation of an instruction. -/
def Instruction.opcode (instruction : Instruction) : Except Error Opcode :=
  match Opcode.ofNumber? instruction.arity instruction.number with
  | some opcode => .ok opcode
  | none =>
      if instruction.arity = .extended then
        .error (.undecodable instruction.address instruction.byte)
      else .error (.unimplemented instruction.arity instruction.number)

end StoryMachine
