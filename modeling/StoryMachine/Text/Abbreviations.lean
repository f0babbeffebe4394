import StoryMachine.Text.Packed

/-!
# Abbreviations

A story keeps up to 96 strings that its texts refer to by number.  The table
holds one word for each, half the byte address of a packed string.  The strings
are decoded when the story is loaded, and a reference inside one of them expands
to nothing.
-/

namespace StoryMachine

open Numeral (hex decimal)

/-- The decoded abbreviations of a story. -/
structure Abbreviations where
  /-- The strings, by number. -/
  entries : Array String := #[]
deriving DecidableEq, Inhabited

namespace Abbreviations

/-- The number of abbreviations of a story. -/
def count : Nat := 96

/-- The number of abbreviations. -/
def size (table : Abbreviations) : Nat := table.entries.size

/-- The text of an abbreviation; nothing if there is none of that number. -/
def get (table : Abbreviations) (index : Nat) : String := table.entries.getD index ""

/-- The text of the entry `index` of the table at `base`. -/
def entry (memory : Memory) (base index : Nat) : Except Error String := do
  let word ← memory.getWord (base + 2 * index)
  let (codes, _) ← Packed.read memory (2 * word.toNat)
  return Packed.decode Packed.noExpansion codes

/-- The table at `base`. -/
def load (memory : Memory) (base : Nat) : Except Error Abbreviations := do
  let entries ← (List.range count).mapM (entry memory base)
  return { entries := entries.toArray }

/-- The lines about the words of the entries from `index` on, up to the first
entry that cannot be read. -/
def wordNarration (memory : Memory) (base : Nat) : List Nat → List String
  | [] => []
  | index :: rest =>
      match memory.getWord (base + 2 * index) with
      | .error _ => []
      | .ok word =>
          let address := 2 * word.toNat
          let lines := Packed.narration memory address
          match Packed.read memory address with
          | .error _ => lines
          | .ok _ => lines ++ wordNarration memory base rest

/-- The line about a loaded table. -/
def summary (table : Abbreviations) (base : Nat) : String :=
  s!"loaded {decimal 1 table.size} abbreviations from {hex 4 base}"

end Abbreviations

end StoryMachine
