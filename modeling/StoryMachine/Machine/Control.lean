import StoryMachine.Machine.Variable

/-!
# Branches, calls and returns

A branch is one or two bytes after the operands.  The top bit of the first says
whether to branch on true or on false.  The next bit says that the offset is the
six low bits.  Otherwise it is a signed number of fourteen bits, in these six
and the next byte.  The offsets 0 and 1 return that value from the routine, and
any other moves the address after the branch by the offset less two.

A call leaves its caller at the byte that names the variable for the result.
The return reads that byte.  A return from the outermost frame ends the story.
-/

namespace StoryMachine.Machine

open Numeral (hex decimal)

/-! ## Branches -/

/-- What the bytes of a branch say. -/
structure Branch where
  /-- The value of the condition on which to branch. -/
  onTrue : Bool
  /-- The distance, or a value to return. -/
  offset : Int
deriving DecidableEq

/-- The signed number of fourteen bits with the given high six bits and low
byte. -/
def longOffset (high low : UInt8) : Int :=
  let raw : Nat := 256 * (high.toNat % 64) + low.toNat
  if raw < 0x2000 then raw else raw - 0x4000

example : longOffset 0xbf 0xfe = -2 := by decide

/-- Reads the bytes of a branch. -/
def fetchBranch : Action Branch := do
  let first ← fetchByte
  let onTrue : Bool := first &&& 0x80 ≠ 0
  if first &&& 0x40 ≠ 0 then return { onTrue, offset := (first &&& 0x3f).toNat }
  else
    let second ← fetchByte
    return { onTrue, offset := longOffset first second }

/-- Moves the running frame by an offset less two. -/
def jumpBy (offset : Int) : Action Unit := do
  let pc := (← frame).pc
  let target := (pc : Int) + offset - 2
  if target < 0 then ask fun machine => .error (machine.memory.outOfBounds pc)
  else setPc target.toNat

/-! ## Calls and returns -/

/-- Returns a value from the running frame. -/
def returnValue (value : UInt16) : Action Outcome := do
  let routine := ((← get).calls.head?.map Frame.routine).getD 0
  popFrame
  note .debug fun _ => s!"return {hex 4 value.toNat} from {hex 5 routine}"
  if (← get).calls.isEmpty then
    note .info fun _ => "returned from the main routine"
    halt
  else
    storeResult value
    return .returned value

/-- Calls the routine at a packed address.  A call of address 0 gives 0. -/
def callRoutine (packed : UInt16) (arguments : List UInt16) : Action Outcome := do
  if packed = 0 then
    note .debug fun _ => "call to address 0"
    storeAndContinue 0
  else
    let routine := unpack packed
    let entered ← ask fun machine => Frame.call machine.memory routine arguments
    narrate .debug fun machine =>
      Frame.callNarration machine.memory routine arguments
        ++ [s!"call {hex 5 routine} {Frame.renderWords arguments} "
          ++ s!"(depth {decimal 1 machine.depth})"]
    pushFrame entered
    return .called

/-- Takes the branch that follows if the condition is as it says. -/
def branchOn (condition : Bool) : Action Outcome := do
  let branch ← fetchBranch
  if condition ≠ branch.onTrue then return .continued
  else if branch.offset = 0 then returnValue 0
  else if branch.offset = 1 then returnValue 1
  else
    jumpBy branch.offset
    return .branched

end StoryMachine.Machine
