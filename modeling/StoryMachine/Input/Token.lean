/-!
# Words of an input line

A line is split at spaces.  A separator is a word of its own wherever it
stands, and what lies between is split into runs of other characters, as long
as possible.  Each word keeps the place of its first character in the line.
-/

namespace StoryMachine

/-- A word of a line. -/
structure Token where
  /-- The text of the word. -/
  text : String
  /-- The number of characters before it in the line. -/
  position : Nat
deriving DecidableEq

namespace Token

/-- The word that ends before `position`, if it has any characters. -/
def pending (position : Nat) (word : List Char) : List Token :=
  if word.isEmpty then []
  else [{ text := String.ofList word, position := position - word.length }]

/-- The words of the rest of a line that starts at `position`, where `word` has
the characters since the last space or separator. -/
def splitFrom (separators : List Char) :
    (position : Nat) → (word rest : List Char) → List Token
  | position, word, [] => pending position word
  | position, word, c :: rest =>
      if c = ' ' then pending position word ++ splitFrom separators (position + 1) [] rest
      else if separators.contains c then
        pending position word
          ++ { text := String.singleton c, position } :: splitFrom separators (position + 1) [] rest
      else splitFrom separators (position + 1) (word ++ [c]) rest

/-- The words of a line. -/
def split (separators : List Char) (line : String) : List Token :=
  splitFrom separators 0 [] line.toList

/-! ## Examples -/

example :
    split [',', '.'] "go, west." = [⟨"go", 0⟩, ⟨",", 2⟩, ⟨"west", 4⟩, ⟨".", 8⟩] := by decide

end Token

end StoryMachine
