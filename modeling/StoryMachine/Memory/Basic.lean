import StoryMachine.Error
import StoryMachine.Memory.Word

/-!
# The memory image

A story is an array of bytes, read and changed in place.  Words take two bytes,
the high one first.  An address is a natural number of any size, and every
access checks that all the bytes it touches lie inside the image.

Reading is an `Except`.  Writing is a `Memory.Update`, an action on the image
that keeps what it has done so far when it fails, so a write of several bytes
that runs off the end leaves its first bytes written.  The size of the image
never changes.
-/

namespace StoryMachine

/-- The bytes of a story. -/
structure Memory where
  /-- All bytes, from address 0. -/
  bytes : Array UInt8 := #[]
deriving DecidableEq, Inhabited

/-- An action that changes the image and may fail part of the way. -/
abbrev Memory.Update := EStateM Error Memory

namespace Memory

/-- The number of bytes. -/
def size (memory : Memory) : Nat := memory.bytes.size

/-- The error of an access at `address` that leaves the image. -/
def outOfBounds (memory : Memory) (address : Nat) : Error := .outOfBounds address memory.size

/-! ## Reading -/

/-- The byte at an address. -/
def getByte (memory : Memory) (address : Nat) : Except Error UInt8 :=
  if h : address < memory.bytes.size then .ok memory.bytes[address]
  else .error (memory.outOfBounds address)

/-- The word at an address. -/
def getWord (memory : Memory) (address : Nat) : Except Error UInt16 :=
  if h : address + 1 < memory.bytes.size then
    .ok (wordOfBytes memory.bytes[address] memory.bytes[address + 1])
  else .error (memory.outOfBounds address)

/-- The `count` bytes from an address on. -/
def slice (memory : Memory) (address count : Nat) : Except Error (List UInt8) :=
  if address + count ≤ memory.size then
    .ok (memory.bytes.extract address (address + count)).toList
  else .error (memory.outOfBounds address)

/-- The `count` words from an address on. -/
def getWords (memory : Memory) (address : Nat) : (count : Nat) → Except Error (Vector UInt16 count)
  | 0 => .ok #v[]
  | count + 1 => do
      let words ← memory.getWords address count
      let word ← memory.getWord (address + 2 * count)
      return words.push word

/-! ## Writing -/

/-- Writes a byte. -/
def setByte (address : Nat) (value : UInt8) : Update Unit := fun memory =>
  if h : address < memory.bytes.size then .ok () ⟨memory.bytes.set address value⟩
  else .error (memory.outOfBounds address) memory

/-- Writes a word, both bytes or none. -/
def setWord (address : Nat) (value : UInt16) : Update Unit := fun memory =>
  if h : address + 1 < memory.bytes.size then
    .ok () ⟨(memory.bytes.set address (highByte value)).set (address + 1) (lowByte value)
      (by rw [Array.size_set]; exact h)⟩
  else .error (memory.outOfBounds address) memory

/-- Writes bytes one after the other. -/
def setBytes : (address : Nat) → List UInt8 → Update Unit
  | _, [] => pure ()
  | address, byte :: rest => do
      setByte address byte
      setBytes (address + 1) rest

/-- Reads a value without changing the image. -/
def Update.reading {α : Type} (read : Memory → Except Error α) : Update α := fun memory =>
  match read memory with
  | .ok value => .ok value memory
  | .error e => .error e memory

/-- A short description of an image. -/
def describe (memory : Memory) : String := s!"Memory({Numeral.decimal 1 memory.size} bytes)"

end Memory

end StoryMachine
