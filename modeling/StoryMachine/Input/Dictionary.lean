import StoryMachine.Text.Lowercase
import StoryMachine.Text.Packed

/-!
# The dictionary

A dictionary starts with the characters that separate words, then the length of
an entry, the number of entries, and the entries.  An entry opens with two
packed words, whatever their end bits say, so its text has at most six
characters.  A typed word is looked up by its first six characters, in small
letters, and the answer is the address of the first entry with that text.
-/

namespace StoryMachine

open Numeral (hex decimal)

/-- A word of a dictionary.  Its index is its place among the entries, and is not kept
with it. -/
structure DictionaryEntry where
  /-- The decoded text. -/
  word : String
  /-- The address of the entry. -/
  address : Nat
deriving DecidableEq

/-- The dictionary of a story. -/
structure Dictionary where
  /-- The characters that are words of their own. -/
  separators : List Char := []
  /-- The number of bytes of an entry. -/
  entryLength : UInt8 := 0
  /-- The entries, in the order of the table. -/
  entries : Array DictionaryEntry := #[]
deriving DecidableEq, Inhabited

namespace Dictionary

/-- The number of characters in which words are told apart. -/
def significant : Nat := 6

/-- The entry at an address. -/
def entry (memory : Memory) (address : Nat) : Except Error DictionaryEntry := do
  let first ← memory.getWord address
  let second ← memory.getWord (address + 2)
  return { word := Packed.decode Packed.noExpansion (Packed.codes [first, second]), address }

/-- The dictionary at an address. -/
def load (memory : Memory) (base : Nat) : Except Error Dictionary := do
  let separatorCount ← memory.getByte base
  let separators ← memory.slice (base + 1) separatorCount.toNat
  let rest := base + 1 + separatorCount.toNat
  let entryLength ← memory.getByte rest
  let count ← memory.getWord (rest + 1)
  let entries ← (List.range count.toNat).mapM fun index =>
    entry memory (rest + 3 + index * entryLength.toNat)
  return { separators := separators.map charOfByte, entryLength, entries := entries.toArray }

/-- The form in which a typed word is compared with the entries. -/
def key (word : String) : String :=
  String.ofList ((word.toList.take significant).flatMap Lowercase.ofChar)

/-- The address of the first entry for a typed word, or 0. -/
def lookup (dictionary : Dictionary) (word : String) : Nat :=
  let wanted := key word
  match dictionary.entries.find? (·.word == wanted) with
  | some entry => entry.address
  | none => 0

/-- Whether a character is a word of its own. -/
def isSeparator (dictionary : Dictionary) (c : Char) : Bool := dictionary.separators.contains c

/-- The sizes of a dictionary and its separators. -/
def describe (dictionary : Dictionary) : String :=
  s!"Number of separator / input codes: {decimal 1 dictionary.separators.length}, "
    ++ s!"word size: {decimal 1 dictionary.entryLength.toNat}, "
    ++ s!"word count: {decimal 1 dictionary.entries.size}\nseparators:"
    ++ String.join (dictionary.separators.map fun c => s!" '{c}'")

/-- The line about a loaded dictionary. -/
def summary (dictionary : Dictionary) (base : Nat) : String :=
  s!"loaded dictionary at {hex 4 base}: {decimal 1 dictionary.entries.size} entries, "
    ++ s!"{decimal 1 dictionary.separators.length} separators"

end Dictionary

end StoryMachine
