import StoryMachine.Memory.Basic

/-!
# The header

The first 64 bytes of an image hold numbers at fixed addresses: the version,
where the story starts and where its tables lie.  They are read once, when the
story is loaded.
-/

namespace StoryMachine

open Numeral (hex decimal)

/-- The fields of the header. -/
structure Header where
  /-- The machine version the story is written for. -/
  version : UInt8
  /-- The first flag byte. -/
  flags : UInt8
  /-- The release number of the story. -/
  release : UInt16
  /-- Six characters, usually a date. -/
  serial : String
  /-- Where high memory starts. -/
  highMemory : UInt16
  /-- The address of the first instruction. -/
  initialPc : UInt16
  /-- The address of the dictionary. -/
  dictionary : UInt16
  /-- The address of the object table. -/
  objects : UInt16
  /-- The address of the global variables. -/
  globals : UInt16
  /-- Where static memory starts. -/
  staticMemory : UInt16
  /-- The address of the abbreviation table. -/
  abbreviations : UInt16
  /-- The length of the story in bytes. -/
  fileLength : Nat
  /-- The checksum of the story. -/
  checksum : UInt16
  /-- The revision of the machine standard. -/
  revision : UInt16
deriving DecidableEq

namespace Header

/-- The number of bytes of a header. -/
def length : Nat := 0x40

/-- The header fields of an image that is long enough. -/
def fields (memory : Memory) : Except Error Header := do
  let serial ← memory.slice 0x12 6
  return {
    version := ← memory.getByte 0x00
    flags := ← memory.getByte 0x01
    release := ← memory.getWord 0x02
    serial := String.ofList (serial.map charOfByte)
    highMemory := ← memory.getWord 0x04
    initialPc := ← memory.getWord 0x06
    dictionary := ← memory.getWord 0x08
    objects := ← memory.getWord 0x0a
    globals := ← memory.getWord 0x0c
    staticMemory := ← memory.getWord 0x0e
    abbreviations := ← memory.getWord 0x18
    fileLength := 2 * (← memory.getWord 0x1a).toNat
    checksum := ← memory.getWord 0x1c
    revision := ← memory.getWord 0x32 }

/-- The header of an image. -/
def read (memory : Memory) : Except LoadError Header :=
  if memory.size < length then .error (.tooSmall memory.size)
  else (fields memory).mapError (.unreadable .header)

/-- The main fields of a header, one on each line, between line breaks. -/
def describe (header : Header) : String :=
  let row (name value : String) : String := s!"{name}{value}\n"
  let address (value : Nat) : String := s!"0x{hex 4 value}"
  "\n"
    ++ row "Z-code version:           " (decimal 1 header.version.toNat)
    ++ row "Release number:           " (decimal 1 header.release.toNat)
    ++ row "Size of resident memory:  " (address header.highMemory.toNat)
    ++ row "Start PC:                 " (address header.initialPc.toNat)
    ++ row "Dictionary address:       " (address header.dictionary.toNat)
    ++ row "Object table address:     " (address header.objects.toNat)
    ++ row "Global variables address: " (address header.globals.toNat)
    ++ row "Size of dynamic memory:   " (address header.staticMemory.toNat)
    ++ row "Serial number:            " header.serial
    ++ row "Abbreviations address:    " (address header.abbreviations.toNat)
    ++ row "File size:                " (address header.fileLength)
    ++ row "Checksum:                 " (address header.checksum.toNat)

end Header

end StoryMachine
