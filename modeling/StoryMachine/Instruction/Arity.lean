/-!
# Operand count categories

An opcode number means nothing alone.  It is read within one of five
categories, which say how many operands the encoding carries.
-/

namespace StoryMachine

/-- The category an opcode number is read in. -/
inductive Arity where
  /-- No operands. -/
  | zero
  /-- One operand. -/
  | one
  /-- Two operands, in the long form or in the variable form. -/
  | two
  /-- Up to four operands. -/
  | variable
  /-- The extended form, which no supported story uses. -/
  | extended
deriving DecidableEq

/-- The name of a category in messages. -/
def Arity.label : Arity → String
  | .zero => "0OP"
  | .one => "1OP"
  | .two => "2OP"
  | .variable => "VAR"
  | .extended => "EXT"

end StoryMachine
