import StoryMachine.Session

/-!
# The command line

The program that plays a story at a terminal: it reads the files, prints what
the story prints, and reads a line whenever the story asks for one.
-/

namespace StoryMachine

/-- The error number of a code, which some calls give with the opposite sign. -/
def errorNumber (code : UInt32) : Nat :=
  if 0x80000000 ≤ code then (0 - code).toNat else code.toNat

/-- The reason of a failed file access. -/
def reasonOfError : IO.Error → String
  | .noFileOrDirectory _ code _ => Session.osReason (errorNumber code)
  | .permissionDenied _ code _ => Session.osReason (errorNumber code)
  | .inappropriateType _ code _ => Session.osReason (errorNumber code)
  | .invalidArgument _ code _ => Session.osReason (errorNumber code)
  | .resourceExhausted _ code _ => Session.osReason (errorNumber code)
  | .otherError code _ => Session.osReason (errorNumber code)
  | e => toString e

/-- The bytes of a file, or the reason why it cannot be read. -/
def readBytes (path : String) : IO (Except String ByteArray) := do
  try return .ok (← IO.FS.readBinFile path)
  catch e => return .error (reasonOfError e)

/-- The settings of the file that the environment names, if it names one. -/
def readSettings : IO (Except LoadError Settings) := do
  match ← IO.getEnv Session.settingsVariable with
  | none => return .ok {}
  | some path => return Settings.ofFile path (← readBytes path)

/-- The bytes of the next line of a stream, which are none at its end. -/
partial def readLineBytes (stream : IO.FS.Stream) (line : List UInt8) : IO (List UInt8) := do
  match (← stream.read 1).data[0]? with
  | none => return line.reverse
  | some byte =>
      let line := byte :: line
      if byte = 10 then return line.reverse else readLineBytes stream line

/-- The machine with the line of input that it waits for, if it does. -/
def supplied (machine : Machine) : IO Machine := do
  if Session.awaitsInput machine then
    let bytes ← readLineBytes (← IO.getStdin) []
    if bytes.isEmpty then return machine
    else return Session.supply machine (Session.lineOfBytes bytes)
  else return machine

/-- Prints what a machine has printed. -/
def flushed (machine : Machine) : IO Machine := do
  let (text, machine) := Session.takeOutput machine
  unless text.isEmpty do
    let stdout ← IO.getStdout
    stdout.putStr text
    stdout.flush
  return machine

/-- Plays a story to its end and returns the exit code. -/
partial def play (machine : Machine) : IO UInt32 := do
  let machine ← supplied machine
  let (progress, machine) := machine.advance 1
  let machine ← flushed machine
  match progress with
  | .paused => play machine
  | .finished => return 0
  | .faulted fault =>
      (← IO.getStderr).putStr (Session.faultMessage fault)
      return 1

/-- A seed that differs from run to run. -/
def freshSeed : IO UInt64 := do
  let bytes ← IO.getRandomBytes 8
  return bytes.data.foldl (fun seed byte => seed <<< 8 ||| byte.toUInt64) 0

end StoryMachine

open StoryMachine in
/-- Plays the story that the command line names. -/
def main (arguments : List String) : IO UInt32 := do
  match Session.storyPath? arguments with
  | none =>
      IO.print (Session.usage "zcore")
      return 0
  | some path =>
      let story ← readBytes path
      let settings ← readSettings
      match Session.start path story settings (Entropy.ofSeed (← freshSeed)) with
      | .error message =>
          (← IO.getStderr).putStr message
          return 1
      | .ok machine => play machine
