import StoryMachine.Memory.Basic

/-!
# Frames

A frame is one call of a routine: where it executes, its evaluation stack and
its local variables.  Variable 0 is the top of the stack, reading it pops and
writing it pushes.  Variables 1 to 15 are the locals.  A routine declares how
many of them it has, and those it does not declare have no value until they are
written.

A routine in memory starts with the number of its locals and one word for the
first value of each.  Arguments of a call replace these values in order, and
arguments beyond the declared locals are dropped.
-/

namespace StoryMachine

open Numeral (hex decimal)

/-- The largest number of locals of a routine. -/
def maxLocals : Nat := 15

/-- A call of a routine. -/
structure Frame where
  /-- The address of the next instruction. -/
  pc : Nat
  /-- The address of the routine, 0 for the main routine. -/
  routine : Nat := 0
  /-- The evaluation stack, top first. -/
  stack : List UInt16 := []
  /-- The locals. -/
  locals : Vector (Option UInt16) maxLocals := Vector.replicate maxLocals none
deriving DecidableEq

/-- The calls under way, the running one first. -/
abbrev CallStack := List Frame

namespace Frame

/-- The frame in which a story starts. -/
def main (pc : Nat) : Frame := { pc }

/-! ## Calls -/

/-- The number of locals that the routine at an address declares. -/
def declaredLocals (memory : Memory) (routine : Nat) : Except Error Nat := do
  let count ← memory.getByte routine
  if maxLocals < count.toNat then throw (.invalidRoutine routine count)
  else return count.toNat

/-- The first values of `count` locals with the given arguments, whose words
are at an address. -/
def initialLocals (memory : Memory) :
    (address count : Nat) → (arguments : List UInt16) → Except Error (List UInt16)
  | _, 0, _ => .ok []
  | address, count + 1, arguments => do
      let value ← memory.getWord address
      let rest ← initialLocals memory (address + 2) count arguments.tail
      return arguments.head?.getD value :: rest

/-- The locals that start with the given values and have no others. -/
def localsOfList (values : List UInt16) : Vector (Option UInt16) maxLocals :=
  Vector.ofFn fun i => values[i.val]?

/-- The frame of a call of the routine at a byte address. -/
def call (memory : Memory) (routine : Nat) (arguments : List UInt16) : Except Error Frame := do
  let count ← declaredLocals memory routine
  let values ← initialLocals memory (routine + 1) count arguments
  return { pc := routine + 1 + 2 * count, routine, locals := localsOfList values }

/-- The note on a call that has more arguments than the routine has locals. -/
def callNarration (memory : Memory) (routine : Nat) (arguments : List UInt16) : List String :=
  match declaredLocals memory routine with
  | .error _ => []
  | .ok count =>
      if arguments.length ≤ count then []
      else
        [s!"routine {hex 5 routine} takes {decimal 1 count} locals, "
          ++ s!"dropping {decimal 1 (arguments.length - count)} extra arguments"]

/-! ## Variables -/

/-- The frame with a value on top of its stack. -/
def push (frame : Frame) (value : UInt16) : Frame := { frame with stack := value :: frame.stack }

/-- The top of the stack and the frame without it. -/
def pop (frame : Frame) : Except Error (UInt16 × Frame) :=
  match frame.stack with
  | [] => .error .stackUnderflow
  | value :: rest => .ok (value, { frame with stack := rest })

/-- The top of the stack. -/
def peek (frame : Frame) : Except Error UInt16 :=
  match frame.stack with
  | [] => .error .stackUnderflow
  | value :: _ => .ok value

/-- The value of local `number`, if there is such a local and it has one. -/
def local? (frame : Frame) (number : UInt8) : Option UInt16 :=
  if number = 0 then none else (frame.locals[number.toNat - 1]?).join

/-- Reads a variable of the frame. -/
def read (frame : Frame) (number : UInt8) : Except Error (UInt16 × Frame) :=
  if number = 0 then frame.pop
  else if maxLocals < number.toNat then .error (.invalidVariable number.toUInt16)
  else
    match frame.local? number with
    | some value => .ok (value, frame)
    | none => .error (.unsetLocal number)

/-- Writes a variable of the frame. -/
def write (frame : Frame) (number : UInt8) (value : UInt16) : Except Error Frame :=
  if number = 0 then .ok (frame.push value)
  else if maxLocals < number.toNat then .error (.invalidVariable number.toUInt16)
  else .ok { frame with locals := frame.locals.setIfInBounds (number.toNat - 1) (some value) }

/-! ## Text -/

/-- Words in decimal, between brackets. -/
def renderWords (words : List UInt16) : String :=
  "[" ++ String.intercalate ", " (words.map fun word => decimal 1 word.toNat) ++ "]"

/-- A frame in one line: its addresses, the locals that have a value, and its
stack from the bottom. -/
def render (frame : Frame) : String :=
  let locals := frame.locals.toList.mapIdx fun i value =>
    match value with
    | some value => s!" L{decimal 2 (i + 1)}={hex 4 value.toNat}"
    | none => ""
  s!"routine {hex 5 frame.routine} pc {hex 5 frame.pc}" ++ String.join locals
    ++ s!" stack {renderWords frame.stack.reverse}"

end Frame

end StoryMachine
