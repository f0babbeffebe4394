import StoryMachine.Machine.Load
import StoryMachine.Machine.Step

/-!
# Running a story

A run executes instructions until the story halts or a fault ends it.  A story
need not end, so a run is cut into pieces of so many steps, and a piece says
whether the run is over.  With an instruction budget one piece is enough.
-/

namespace StoryMachine.Machine

open Numeral (hex decimal)

/-- How a piece of a run ends. -/
inductive Progress where
  /-- The story goes on. -/
  | paused
  /-- The story halted. -/
  | finished
  /-- A fault ended the story. -/
  | faulted (fault : Fault)
deriving DecidableEq

/-- The machine after the note that a run starts. -/
def started (machine : Machine) : Machine :=
  { machine with log := machine.log.add .info fun _ => s!"starting at {hex 5 machine.pc}" }

/-- The machine after the note that its story halted. -/
def finished (machine : Machine) : Machine :=
  { machine with
    log := machine.log.add .info fun _ =>
      s!"halted after {decimal 1 machine.count} instructions" }

/-- The machine that a fault has ended. -/
def ended (machine : Machine) (fault : Fault) : Machine :=
  { machine with status := .halted, log := machine.log.add .error fun _ => fault.message }

/-- Executes at most `steps` instructions. -/
def advance : (steps : Nat) → Machine → Progress × Machine
  | steps, machine =>
      if machine.isRunning then
        match steps with
        | 0 => (.paused, machine)
        | steps + 1 =>
            match step machine with
            | .ok _ machine => advance steps machine
            | .error fault machine => (.faulted fault, machine.ended fault)
      else (.finished, machine.finished)

/-- Runs a story for at most `steps` instructions. -/
def run (steps : Nat) (machine : Machine) : Progress × Machine := advance steps machine.started

end StoryMachine.Machine
