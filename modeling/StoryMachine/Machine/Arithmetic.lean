import StoryMachine.Machine.Control

/-!
# Arithmetic

Sums, differences and products wrap around.  Quotients and remainders are those
of signed words, with the quotient rounded down, so that the remainder has the
sign of the divisor.  Comparisons are signed.
-/

namespace StoryMachine

open Numeral (hex decimal)

/-! ## Division -/

/-- The quotient of two signed words, rounded down: the quotient rounded toward
zero, and one less where that is above the exact one. -/
def floorDiv (a b : UInt16) : Except Error UInt16 :=
  let a := a.toInt16
  let b := b.toInt16
  if b = 0 then .error .divisionByZero
  else
    let quotient := a / b
    if a % b ≠ 0 ∧ decide (a < 0) ≠ decide (b < 0) then .ok (quotient - 1).toUInt16
    else .ok quotient.toUInt16

/-- The remainder that belongs to `floorDiv`: the remainder of division toward
zero, and the divisor more where the signs differ. -/
def floorMod (a b : UInt16) : Except Error UInt16 :=
  let a := a.toInt16
  let b := b.toInt16
  if b = 0 then .error .divisionByZero
  else
    let remainder := a % b
    if remainder ≠ 0 ∧ decide (remainder < 0) ≠ decide (b < 0) then .ok (remainder + b).toUInt16
    else .ok remainder.toUInt16

/-- The remainder takes the sign of the divisor. -/
example : floorMod 7 0xfffe = .ok 0xffff := rfl

/-- The one quotient that does not fit wraps around. -/
example : floorDiv 0x8000 0xffff = .ok 0x8000 := rfl

namespace Machine

/-! ## Operations on words -/

/-- Stores the result of an operation on two words. -/
def storeBinary (operands : List Operand) (operation : UInt16 → UInt16 → Except Error UInt16) :
    Action Outcome := do
  let (a, b) ← twoOperands operands
  let value ← ask fun _ => operation a b
  storeAndContinue value

/-- Stores the complement of a word. -/
def storeComplement (operands : List Operand) : Action Outcome := do
  let a ← oneOperand operands
  storeAndContinue (~~~a)

/-! ## Comparisons -/

/-- Branches if two words are related. -/
def branchBinary (operands : List Operand) (relation : UInt16 → UInt16 → Bool) :
    Action Outcome := do
  let (a, b) ← twoOperands operands
  branchOn (relation a b)

/-- Branches if the first word equals one of the others, of which there must be
one. -/
def branchEqual (operands : List Operand) : Action Outcome := do
  match ← operandValues operands with
  | a :: b :: rest => branchOn ((b :: rest).contains a)
  | values => throw (.operandCount 2 values.length)

/-- Branches if a word is zero. -/
def branchZero (operands : List Operand) : Action Outcome := do
  let a ← oneOperand operands
  branchOn (a == 0)

/-- Jumps by a signed offset. -/
def jump (operands : List Operand) : Action Outcome := do
  let offset ← oneOperand operands
  jumpBy (signedOfWord offset)
  return .branched

/-! ## Counting -/

/-- A step of one up or down. -/
inductive Direction where
  | up
  | down
deriving DecidableEq

/-- The next word in a direction, around the end. -/
def Direction.next : Direction → UInt16 → UInt16
  | .up, word => word + 1
  | .down, word => word - 1

/-- Whether the next word in a direction lies around the end. -/
def Direction.wraps : Direction → UInt16 → Bool
  | .up, word => word = 0xffff
  | .down, word => word = 0

/-- Counts a variable up or down and returns its new value. -/
def countVariable (direction : Direction) (word : UInt16) : Action UInt16 := do
  let number ← variableOfWord word
  let old ← readVariable number
  let new := direction.next old
  if direction.wraps old then
    note .warn fun _ =>
      s!"variable {hex 2 number.toNat} wrapped from {hex 4 old.toNat} to {hex 4 new.toNat}"
  writeVariable number new
  return new

/-- Counts a variable up or down. -/
def adjust (operands : List Operand) (direction : Direction) : Action Outcome := do
  let number ← oneOperand operands
  let _ ← countVariable direction number
  return .continued

/-- Counts a variable up or down and branches if it is then past a limit. -/
def adjustAndBranch (operands : List Operand) (direction : Direction) : Action Outcome := do
  let (number, limit) ← twoOperands operands
  let value ← countVariable direction number
  match direction with
  | .up => branchOn (limit.toInt16 < value.toInt16)
  | .down => branchOn (value.toInt16 < limit.toInt16)

/-! ## Random numbers -/

/-- Stores a random number between 1 and a positive range.  A negative range
seeds the generator with its absolute value, and zero makes it unpredictable;
both store 0. -/
def random (operands : List Operand) : Action Outcome := do
  let range ← oneOperand operands
  let signed := signedOfWord range
  if 0 < signed then
    let value ← onGenerator (·.draw range)
    storeAndContinue value
  else if signed < 0 then
    note .debug fun _ => s!"random: predictable mode, seed {decimal 1 signed.natAbs}"
    onGenerator fun _ => ((), .ofSeed (UInt64.ofNat signed.natAbs))
    storeAndContinue 0
  else
    note .debug fun _ => "random: back to unpredictable mode"
    randomize
    storeAndContinue 0

end Machine

end StoryMachine
