import StoryMachine.Instruction.Arity
import StoryMachine.Text.Numeral

/-!
# Errors

An `Error` is the cause of a failed access or instruction.  While a story runs
every error is fatal: it becomes a `Fault`, which adds the address of the
instruction and a short description of it.  A `LoadError` is what keeps a story
from starting at all.  The wording of all three is in the `message` functions
and nowhere else.
-/

namespace StoryMachine

open Numeral (hex decimal)

/-- Why an access or an instruction failed. -/
inductive Error where
  /-- An address, with what is read or written there, leaves the image. -/
  | outOfBounds (address size : Nat)
  /-- The byte at `pc` starts no instruction. -/
  | undecodable (pc : Nat) (byte : UInt8)
  /-- The opcode number has no meaning in its category. -/
  | unimplemented (arity : Arity) (number : UInt8)
  /-- The instruction carries too few operands. -/
  | operandCount (expected found : Nat)
  /-- No variable has this number. -/
  | invalidVariable (number : UInt16)
  /-- A local was read before it had a value. -/
  | unsetLocal (number : UInt8)
  /-- A value was taken from an empty evaluation stack, or there is no frame. -/
  | stackUnderflow
  /-- No object has this number. -/
  | invalidObject (number : UInt16)
  /-- The object lacks the property. -/
  | missingProperty (object : UInt16) (property : UInt8)
  /-- A routine declares more locals than a frame holds. -/
  | invalidRoutine (address : Nat) (locals : UInt8)
  /-- A division or remainder by zero. -/
  | divisionByZero
  /-- The instruction budget is used up. -/
  | instructionLimit (limit : Nat)
  /-- The line source failed, or the output sink refused a text. -/
  | inputOutput (reason : String)
deriving DecidableEq

/-- The text of an error. -/
def Error.message : Error → String
  | .outOfBounds address size =>
      s!"address 0x{hex 5 address} is outside the {decimal 1 size}-byte memory image"
  | .undecodable pc byte =>
      s!"cannot decode opcode byte 0x{hex 2 byte.toNat} at 0x{hex 5 pc}"
  | .unimplemented arity number =>
      s!"{arity.label} opcode 0x{hex 2 number.toNat} is not implemented"
  | .operandCount expected found =>
      s!"expected at least {decimal 1 expected} operands, found {decimal 1 found}"
  | .invalidVariable number => s!"invalid variable index {decimal 1 number.toNat}"
  | .unsetLocal number =>
      s!"local variable L{decimal 2 number.toNat} read before it was written"
  | .stackUnderflow => "evaluation stack underflow"
  | .invalidObject number => s!"invalid object number {decimal 1 number.toNat}"
  | .missingProperty object property =>
      s!"object {decimal 1 object.toNat} has no property {decimal 1 property.toNat}"
  | .invalidRoutine address locals =>
      s!"routine at 0x{hex 5 address} declares {decimal 1 locals.toNat} locals (maximum 15)"
  | .divisionByZero => "division by zero"
  | .instructionLimit limit => s!"instruction limit of {decimal 1 limit} reached"
  | .inputOutput reason => s!"i/o error: {reason}"

/-- A fatal error of a running story, with the place where it happened. -/
structure Fault where
  /-- The address of the instruction. -/
  pc : Nat
  /-- What was being executed. -/
  context : String
  /-- The cause. -/
  cause : Error
deriving DecidableEq

/-- The text of a fault. -/
def Fault.message (fault : Fault) : String :=
  s!"execution halted at 0x{hex 5 fault.pc} [{fault.context}]: {fault.cause.message}"

/-- The parts of an image that are read before a story starts. -/
inductive Section where
  | header
  | abbreviations
  | dictionary
  | objects
  | globals
deriving DecidableEq

/-- The name of a section in messages. -/
def Section.label : Section → String
  | .header => "header"
  | .abbreviations => "abbreviation table"
  | .dictionary => "dictionary"
  | .objects => "object table"
  | .globals => "global variables"

/-- Why a story cannot be started. -/
inductive LoadError where
  /-- The image has no room for a header. -/
  | tooSmall (size : Nat)
  /-- The story is for another version of the machine. -/
  | unsupportedVersion (version : UInt8)
  /-- A section of the image cannot be read. -/
  | unreadable (part : Section) (cause : Error)
  /-- The settings cannot be read. -/
  | invalidSettings (reason : String)
deriving DecidableEq

/-- The text of a load error. -/
def LoadError.message : LoadError → String
  | .tooSmall size => s!"story file is too small to hold a header ({decimal 1 size} bytes)"
  | .unsupportedVersion version =>
      s!"unsupported story file version {decimal 1 version.toNat} (expected 1-3)"
  | .unreadable part cause => s!"failed to load {part.label}: {cause.message}"
  | .invalidSettings reason => s!"invalid configuration: {reason}"

end StoryMachine
