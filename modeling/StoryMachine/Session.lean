import StoryMachine.Machine.Run
import StoryMachine.Settings.Toml

/-!
# Sessions

A session plays one story at a terminal.  The command line names the story, and
an environment variable may name a settings file.  This module says what a
session prints and how it ends.  Reading the files and the terminal is left to
the program.

Whatever keeps a story from being played, or ends it by a fault, is told on the
error stream, and the exit code is then 1.
-/

namespace StoryMachine.Session

/-- The environment variable that names a settings file. -/
def settingsVariable : String := "ZCORE_CONFIG"

/-- The story of a command line, which has one argument. -/
def storyPath? : List String → Option String
  | [path] => some path
  | _ => none

/-- What is printed for any other command line. -/
def usage (program : String) : String :=
  "zcore - Z-machine interpreter for version 1-3 story files\n\n"
    ++ s!"Usage: {program} <story_file>\n\n"
    ++ "Set RUST_LOG=debug for call tracing, and ZCORE_CONFIG to a TOML file\n"
    ++ "for max_instructions, random_seed and trace_instructions.\n"

/-! ## Reasons of the operating system -/

/-- The words for an error number of the operating system. -/
def osErrorText : Nat → String
  | 1 => "Operation not permitted"
  | 2 => "No such file or directory"
  | 5 => "Input/output error"
  | 6 => "No such device or address"
  | 12 => "Cannot allocate memory"
  | 13 => "Permission denied"
  | 20 => "Not a directory"
  | 21 => "Is a directory"
  | 22 => "Invalid argument"
  | 23 => "Too many open files in system"
  | 24 => "Too many open files"
  | 36 => "File name too long"
  | 40 => "Too many levels of symbolic links"
  | number => s!"Unknown error {Numeral.decimal 1 number}"

/-- The reason that an error number of the operating system gives. -/
def osReason (number : Nat) : String :=
  s!"{osErrorText number} (os error {Numeral.decimal 1 number})"

/-! ## Playing -/

/-- The machine for a story file with the given path and bytes, or the message
that ends the session.  A story that cannot be read is told before settings
that cannot. -/
def start (path : String) (story : Except String ByteArray)
    (settings : Except LoadError Settings) (entropy : Entropy) : Except String Machine := do
  let image ← story.mapError fun reason => s!"Error: cannot read story file '{path}': {reason}\n"
  let settings ← settings.mapError fun e => s!"Error: {e.message}\n"
  (Machine.load image.data settings entropy).mapError fun e =>
    s!"Error: cannot load '{path}': {e.message}\n"

/-- What is told when a fault ends the story. -/
def faultMessage (fault : Fault) : String := s!"\nError during execution: {fault.message}\n"

/-- The reason why a line is no text. -/
def notText : String := "stream did not contain valid UTF-8"

/-- The input line of some bytes, without the line ends after it. -/
def lineOfBytes (bytes : List UInt8) : InputLine :=
  let kept := (bytes.reverse.dropWhile fun byte => byte = 10 || byte = 13).reverse
  match String.fromUTF8? ⟨kept.toArray⟩ with
  | some line => .text line
  | none => .broken notText

/-- The input lines of some bytes, each up to a line feed or the end.  `line`
has the bytes since the last line feed, the last one first. -/
def linesFrom : (line bytes : List UInt8) → List InputLine
  | [], [] => []
  | line, [] => [lineOfBytes line.reverse]
  | line, byte :: rest =>
      if byte = 10 then lineOfBytes line.reverse :: linesFrom [] rest
      else linesFrom (byte :: line) rest

/-- The input lines of some bytes. -/
def inputLines (bytes : List UInt8) : List InputLine := linesFrom [] bytes

/-- Whether the next instruction reads a line that the machine does not have. -/
def awaitsInput (machine : Machine) : Bool :=
  machine.input.isEmpty &&
    match machine.nextInstruction with
    | .ok (_, opcode) => opcode = .sread
    | .error _ => false

/-- The machine with one more line of input. -/
def supply (machine : Machine) (line : InputLine) : Machine :=
  { machine with input := machine.input ++ [line] }

/-- What has been printed, and the machine after it was taken. -/
def takeOutput (machine : Machine) : String × Machine :=
  (machine.output, { machine with output.text := "" })

end StoryMachine.Session
