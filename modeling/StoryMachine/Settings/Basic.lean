/-!
# Settings

What a user can choose for a run.
-/

namespace StoryMachine

/-- The choices for a run. -/
structure Settings where
  /-- The number of instructions after which a run is stopped. -/
  maxInstructions : Option Nat := none
  /-- The seed of a predictable generator. -/
  randomSeed : Option UInt64 := none
  /-- Whether the notes on single instructions are of level debug, not trace. -/
  traceInstructions : Bool := false
deriving DecidableEq

end StoryMachine
