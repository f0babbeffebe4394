/-!
# Notes on a run

Loading and running a story can be narrated.  Each note has a level, and a
`Log` keeps those at or above its threshold.  A log without a threshold keeps
nothing, and the text of a note that is not kept is never computed.
-/

namespace StoryMachine

/-- How important a note is, from the most to the least severe. -/
inductive Level where
  | error
  | warn
  | info
  | debug
  | trace
deriving DecidableEq

/-- The rank of a level; a lower rank is more severe. -/
def Level.rank : Level → Nat
  | .error => 0
  | .warn => 1
  | .info => 2
  | .debug => 3
  | .trace => 4

/-- The name of a level in front of a note. -/
def Level.label : Level → String
  | .error => "ERROR"
  | .warn => "WARN"
  | .info => "INFO"
  | .debug => "DEBUG"
  | .trace => "TRACE"

/-- A note of a run. -/
structure Note where
  /-- How important it is. -/
  level : Level
  /-- What it says. -/
  text : String
deriving DecidableEq

/-- A note as one line of text. -/
def Note.render (note : Note) : String := s!"{note.level.label} {note.text}"

/-- The notes kept so far. -/
structure Log where
  /-- The least severe level that is kept, if any is. -/
  threshold : Option Level := none
  /-- The kept notes, oldest first. -/
  notes : Array Note := #[]
deriving DecidableEq

/-- Whether notes of a level are kept. -/
def Log.keeps (log : Log) (level : Level) : Bool :=
  match log.threshold with
  | none => false
  | some threshold => level.rank ≤ threshold.rank

/-- Adds a note if its level is kept. -/
def Log.add (log : Log) (level : Level) (text : Unit → String) : Log :=
  if log.keeps level then { log with notes := log.notes.push ⟨level, text ()⟩ } else log

/-- Adds several notes of one level if that level is kept. -/
def Log.addAll (log : Log) (level : Level) (texts : Unit → List String) : Log :=
  if log.keeps level then
    { log with notes := (texts ()).foldl (fun notes text => notes.push ⟨level, text⟩) log.notes }
  else log

/-- The same log with its notes taken out. -/
def Log.drained (log : Log) : Log := { log with notes := #[] }

end StoryMachine
