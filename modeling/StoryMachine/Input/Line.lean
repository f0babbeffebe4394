/-!
# Input lines

What a story reads when it asks for a line.
-/

namespace StoryMachine

/-- A line of input. -/
inductive InputLine where
  /-- The text of a line, without its end. -/
  | text (line : String)
  /-- A line that cannot be read, with the reason. -/
  | broken (reason : String)
deriving DecidableEq

end StoryMachine
