/-!
# Output

Where the texts go that a story prints.  A sink takes the texts one by one, and
it may refuse any of them.
-/

namespace StoryMachine

/-- What a sink does with a text. -/
inductive Reception where
  /-- The text comes through. -/
  | accepted
  /-- Nothing comes through, for a reason. -/
  | refused (reason : String)
deriving DecidableEq

/-- The output of a story. -/
structure Output where
  /-- What has been printed and not yet taken. -/
  text : String := ""
  /-- What the sink does with the next texts, one for each.  It accepts all
  that come after these. -/
  receptions : List Reception := []
deriving DecidableEq

/-- An output read as a text is what has been printed. -/
instance : Coe Output String where
  coe output := output.text

/-- What the sink does with the next text. -/
def Output.reception (output : Output) : Reception := output.receptions.headD .accepted

/-- The output after an accepted text. -/
def Output.accept (output : Output) (text : String) : Output where
  text := output.text ++ text
  receptions := output.receptions.tail

/-- The output after a refused text. -/
def Output.refuse (output : Output) : Output :=
  { output with receptions := output.receptions.tail }

end StoryMachine
