import StoryMachine.Instruction.Decode
import StoryMachine.Instruction.Opcode
import StoryMachine.Machine.Arithmetic
import StoryMachine.Machine.Dialogue
import StoryMachine.Machine.Objects
import StoryMachine.Machine.Routine
import StoryMachine.Machine.Storage

/-!
# Executing instructions

`execute` says what each operation does.  `step` decodes the instruction at the
address of the running frame and executes it.  Anything that fails is told as a
fault at that address, with a context: the budget, the byte that cannot be
decoded, or the instruction.

A step that finds the budget used up, or no instruction, changes nothing.
-/

namespace StoryMachine

open Numeral (hex)

/-- What an operation does with its operands. -/
def Opcode.execute (opcode : Opcode) (operands : List Operand) : Action Outcome :=
  match opcode with
  | .je => Machine.branchEqual operands
  | .jl => Machine.branchBinary operands fun a b => a.toInt16 < b.toInt16
  | .jg => Machine.branchBinary operands fun a b => b.toInt16 < a.toInt16
  | .decChk => Machine.adjustAndBranch operands .down
  | .incChk => Machine.adjustAndBranch operands .up
  | .jin => Machine.branchInside operands
  | .test => Machine.branchBinary operands fun bitmap flags => bitmap &&& flags == flags
  | .or => Machine.storeBinary operands fun a b => .ok (a ||| b)
  | .and => Machine.storeBinary operands fun a b => .ok (a &&& b)
  | .testAttr => Machine.branchFlag operands
  | .setAttr => Machine.setFlag operands true
  | .clearAttr => Machine.setFlag operands false
  | .store => Machine.storeVariable operands
  | .insertObj => Machine.insertObject operands
  | .loadw => Machine.loadWord operands
  | .loadb => Machine.loadByte operands
  | .getProp => Machine.storeProperty operands ObjectTable.property
  | .getPropAddr => Machine.storeProperty operands ObjectTable.propertyAddress
  | .getNextProp => Machine.storeProperty operands ObjectTable.nextProperty
  | .add => Machine.storeBinary operands fun a b => .ok (a + b)
  | .sub => Machine.storeBinary operands fun a b => .ok (a - b)
  | .mul => Machine.storeBinary operands fun a b => .ok (a * b)
  | .div => Machine.storeBinary operands floorDiv
  | .mod => Machine.storeBinary operands floorMod
  | .jz => Machine.branchZero operands
  | .getSibling => Machine.storeLinkAndBranch operands .sibling
  | .getChild => Machine.storeLinkAndBranch operands .child
  | .getParent => Machine.storeLink operands .parent
  | .getPropLen => Machine.storePropertyLength operands
  | .inc => Machine.adjust operands .up
  | .dec => Machine.adjust operands .down
  | .printAddr => Machine.printAt operands UInt16.toNat
  | .removeObj => Machine.removeObject operands
  | .printObj => Machine.printObject operands
  | .ret => Machine.returnOperand operands
  | .jump => Machine.jump operands
  | .printPaddr => Machine.printAt operands Machine.unpack
  | .load => Machine.loadVariable operands
  | .not => Machine.storeComplement operands
  | .rtrue => Machine.returnValue 1
  | .rfalse => Machine.returnValue 0
  | .print => Machine.printLiteral
  | .printRet => Machine.printAndReturn
  | .nop => pure .continued
  | .retPopped => Machine.returnPopped
  | .pop => Machine.pop
  | .quit => Machine.quit
  | .newLine => Machine.newLine
  | .call => Machine.call operands
  | .storew => Machine.writeWord operands
  | .storeb => Machine.writeByte operands
  | .putProp => Machine.writeProperty operands
  | .sread => Machine.readInput operands
  | .printChar => Machine.printChar operands
  | .printNum => Machine.printNumber operands
  | .random => Machine.random operands
  | .push => Machine.push operands
  | .pull => Machine.pull operands

namespace Machine

/-- The budget, if it is used up. -/
def spentBudget? (machine : Machine) : Option Nat :=
  machine.settings.maxInstructions.filter (· ≤ machine.count)

/-- The instruction that is executed next and its operation, or the fault that
is found before anything is executed. -/
def nextInstruction (machine : Machine) : Except Fault (Instruction × Opcode) :=
  let pc := machine.pc
  match machine.spentBudget? with
  | some limit =>
      .error { pc, context := "instruction budget", cause := .instructionLimit limit }
  | none =>
      let byteContext (byte : UInt8) : String := s!"opcode byte 0x{hex 2 byte.toNat}"
      match Instruction.decode machine.memory pc with
      | .error cause =>
          let byte := (machine.memory.getByte pc).toOption.getD 0
          .error { pc, context := byteContext byte, cause }
      | .ok instruction =>
          match instruction.opcode with
          | .error cause => .error { pc, context := byteContext instruction.byte, cause }
          | .ok opcode => .ok (instruction, opcode)

/-- The level of the note on each instruction. -/
def instructionLevel (settings : Settings) : Level :=
  if settings.traceInstructions then .debug else .trace

/-- Moves past the operands of an instruction and executes it. -/
def perform (instruction : Instruction) (opcode : Opcode) : Action Outcome := do
  setPc instruction.next
  opcode.execute instruction.operands

/-- The machine after an instruction has been noted and counted. -/
def counted (machine : Machine) (instruction : Instruction) (opcode : Opcode) : Machine :=
  let pc := machine.pc
  let level := instructionLevel machine.settings
  let note (_ : Unit) : String := s!"{hex 5 pc}: {opcode.mnemonic} ({instruction.render})"
  { machine with log := machine.log.add level note, count := machine.count + 1 }

/-- Executes one instruction. -/
def step : EStateM Fault Machine Outcome := fun machine =>
  match machine.nextInstruction with
  | .error fault => .error fault machine
  | .ok (instruction, opcode) =>
      let pc := machine.pc
      let name := opcode.mnemonic
      let counted := machine.counted instruction opcode
      if counted.calls.isEmpty then
        .error { pc, context := name, cause := .stackUnderflow } counted
      else
        match perform instruction opcode counted with
        | .ok outcome machine => .ok outcome machine
        | .error cause machine =>
            .error { pc, context := s!"{name} ({instruction.render})", cause } machine

end Machine

end StoryMachine
