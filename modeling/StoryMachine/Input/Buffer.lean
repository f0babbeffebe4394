import StoryMachine.Input.Dictionary
import StoryMachine.Input.Token

/-!
# Input buffers

A line of input goes into two buffers in memory.  The text buffer starts with
its capacity in characters; the line follows in small letters, ASCII only, cut
at the capacity and closed by a zero byte.  The parse buffer starts with its
capacity in words; the number of words follows, and four bytes for each word:
its dictionary address, its length, and its place in the text buffer.

Both writes can fail where a buffer leaves the image, and then keep the bytes
written before.
-/

namespace StoryMachine

open Numeral (hex decimal)

/-! ## The text buffer -/

namespace TextBuffer

/-- The part of a line that a buffer of the given capacity keeps. -/
def stored (capacity : Nat) (line : String) : String :=
  String.ofList
    (((line.toList.flatMap Lowercase.ofChar).filter fun c => c.toNat < 128).take capacity)

/-- The bytes of an ASCII text. -/
def bytes (text : String) : List UInt8 := text.toList.map fun c => UInt8.ofNat c.toNat

/-- Writes a line to the buffer at an address and returns what was kept. -/
def write (address : Nat) (line : String) : Memory.Update String := do
  let capacity ← Memory.Update.reading (·.getByte address)
  let text := stored capacity.toNat line
  Memory.setBytes (address + 1) (bytes text)
  Memory.setByte (address + 1 + text.length) 0
  return text

end TextBuffer

/-! ## The parse buffer -/

namespace ParseBuffer

/-- Writes the four bytes of a word.  Places in the text buffer count from its
capacity byte. -/
def writeBlock (dictionary : Dictionary) (address : Nat) (token : Token) :
    Memory.Update Unit := do
  Memory.setWord address (UInt16.ofNat (dictionary.lookup token.text))
  Memory.setByte (address + 2) (UInt8.ofNat token.text.length)
  Memory.setByte (address + 3) (UInt8.ofNat token.position + 1)

/-- Writes the blocks of words one after the other. -/
def writeBlocks (dictionary : Dictionary) : (address : Nat) → List Token → Memory.Update Unit
  | _, [] => pure ()
  | address, token :: rest => do
      writeBlock dictionary address token
      writeBlocks dictionary (address + 4) rest

/-- Writes words to the buffer at an address and returns how many it took. -/
def write (dictionary : Dictionary) (address : Nat) (tokens : List Token) :
    Memory.Update Nat := do
  let capacity ← Memory.Update.reading (·.getByte address)
  let count := min tokens.length capacity.toNat
  Memory.setByte (address + 1) (UInt8.ofNat count)
  writeBlocks dictionary (address + 2) (tokens.take count)
  return count

/-- One line for each word whose block is begun. -/
def narration (dictionary : Dictionary) (address : Nat) (tokens : List Token) (memory : Memory) :
    List String :=
  match memory.getByte address with
  | .error _ => []
  | .ok capacity =>
      let begun := if address + 2 ≤ memory.size then (memory.size - (address + 2)) / 4 + 1 else 0
      ((tokens.take capacity.toNat).take begun).map fun token =>
        s!"parse: '{token.text}' at {decimal 1 token.position} -> "
          ++ hex 4 (dictionary.lookup token.text)

end ParseBuffer

/-! ## Examples -/

/-- Characters outside ASCII are dropped before the line is cut. -/
example : TextBuffer.stored 4 "É Go West" = " go " := by decide

end StoryMachine
