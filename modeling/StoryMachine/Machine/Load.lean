import StoryMachine.Machine.Basic

/-!
# Loading a story

A story is loaded by reading its header and then its tables: abbreviations,
dictionary, objects and globals.  The first that cannot be read is the reason
why the story cannot be started.
-/

namespace StoryMachine.Machine

/-- Whether stories of a version can be run. -/
def isSupported (version : UInt8) : Bool := 1 ≤ version && version ≤ 3

/-- The generator for a run, and the supply of keys after it was made. -/
def initialGenerator (settings : Settings) (entropy : Entropy) : Generator × Entropy :=
  match settings.randomSeed with
  | some seed => (.ofSeed seed, entropy)
  | none => entropy.generator

/-- Loads a story, ready to run from its first instruction. -/
def load (image : Array UInt8) (settings : Settings) (entropy : Entropy) :
    Except LoadError Machine := do
  let memory : Memory := { bytes := image }
  let header ← Header.read memory
  if isSupported header.version then
    let abbreviations ← (Abbreviations.load memory header.abbreviations.toNat).mapError
      (.unreadable .abbreviations)
    let dictionary ← (Dictionary.load memory header.dictionary.toNat).mapError
      (.unreadable .dictionary)
    let objects ← (ObjectTable.load memory header.objects.toNat abbreviations).mapError
      (.unreadable .objects)
    let globals ← (Globals.load memory header.globals.toNat).mapError (.unreadable .globals)
    let (generator, entropy) := initialGenerator settings entropy
    return {
      memory, header, abbreviations, dictionary, objects, globals, settings, generator, entropy
      calls := [Frame.main header.initialPc.toNat]
      output := {}
      input := []
      status := .running
      count := 0
      log := {} }
  else throw (.unsupportedVersion header.version)

/-- The notes on reading the tables of an image with the given header, up to
the first that cannot be read. -/
def noteTables (memory : Memory) (header : Header) (log : Log) : Log :=
  let base := header.abbreviations.toNat
  let log := log.add .debug fun _ => header.describe
  let log := log.addAll .trace fun _ =>
    Abbreviations.wordNarration memory base (List.range Abbreviations.count)
  match Abbreviations.load memory base with
  | .error _ => log
  | .ok abbreviations =>
      let log := log.add .debug fun _ => abbreviations.summary base
      match Dictionary.load memory header.dictionary.toNat with
      | .error _ => log
      | .ok dictionary =>
          let log := log.add .debug fun _ => dictionary.summary header.dictionary.toNat
          match ObjectTable.load memory header.objects.toNat abbreviations with
          | .error _ => log
          | .ok objects => log.add .debug fun _ => objects.summary

/-- The notes on loading a story. -/
def loadNotes (image : Array UInt8) (log : Log) : Log :=
  let memory : Memory := { bytes := image }
  match Header.read memory with
  | .error _ => log
  | .ok header => if isSupported header.version then noteTables memory header log else log

end StoryMachine.Machine
