import StoryMachine.Machine.Control

/-!
# Operations on objects

The operations that ask for the links, flags and properties of objects and
change them.  An object number is a word.  Of a property number only the low
byte counts.
-/

namespace StoryMachine.Machine

open Numeral (decimal)

/-! ## The tree -/

/-- Stores a link of an object. -/
def storeLink (operands : List Operand) (link : Link) : Action Outcome := do
  let object ← oneOperand operands
  let target ← ask (·.objects.link link object)
  storeAndContinue target

/-- Stores a link of an object and branches if it leads to an object. -/
def storeLinkAndBranch (operands : List Operand) (link : Link) : Action Outcome := do
  let object ← oneOperand operands
  let target ← ask (·.objects.link link object)
  storeResult target
  branchOn (target ≠ 0)

/-- Branches if the parent of the first object is the second. -/
def branchInside (operands : List Operand) : Action Outcome := do
  let (object, parent) ← twoOperands operands
  let actual ← ask (·.objects.link .parent object)
  branchOn (actual == parent)

/-- Puts an object in front of the children of another. -/
def insertInto (object destination : UInt16) : Action Unit := do
  narrate .debug (·.objects.insertNarration object destination)
  onObjects (ObjectStore.insert object destination)

/-- Takes an object out of its parent. -/
def takeOut (object : UInt16) : Action Unit := do
  narrate .warn (·.objects.removeNarration object)
  onObjects (ObjectStore.remove object)

/-- Puts the first object in front of the children of the second. -/
def insertObject (operands : List Operand) : Action Outcome := do
  let (object, destination) ← twoOperands operands
  note .debug fun _ =>
    s!"insert_obj {decimal 1 object.toNat} into {decimal 1 destination.toNat}"
  insertInto object destination
  return .continued

/-- Takes the object of an operand out of its parent. -/
def removeObject (operands : List Operand) : Action Outcome := do
  let object ← oneOperand operands
  note .debug fun _ => s!"remove_obj {decimal 1 object.toNat}"
  takeOut object
  return .continued

/-! ## Flags -/

/-- Whether a flag of an object is set, with a note if there is no such flag. -/
def testFlag (object flag : UInt16) : Action Bool := do
  let isSet ← ask (·.objects.testAttribute object flag)
  if (Attribute.ofWord? flag).isNone then
    note .warn fun _ => s!"test_attr: attribute {decimal 1 flag.toNat} out of range"
  return isSet

/-- Sets or clears a flag of an object, with a note if there is no such flag. -/
def changeFlag (object flag : UInt16) (value : Bool) : Action Unit := do
  onObjects (ObjectStore.setAttribute object flag value)
  if (Attribute.ofWord? flag).isNone then
    note .warn fun _ =>
      s!"attribute {decimal 1 flag.toNat} out of range on object {decimal 1 object.toNat}"

/-- Branches if an object has a flag. -/
def branchFlag (operands : List Operand) : Action Outcome := do
  let (object, flag) ← twoOperands operands
  let isSet ← testFlag object flag
  branchOn isSet

/-- Sets or clears a flag of an object. -/
def setFlag (operands : List Operand) (value : Bool) : Action Outcome := do
  let (object, flag) ← twoOperands operands
  changeFlag object flag value
  return .continued

/-! ## Properties -/

/-- Stores what the table says of a property of an object. -/
def storeProperty (operands : List Operand)
    (question : ObjectTable → UInt16 → UInt8 → Except Error UInt16) : Action Outcome := do
  let (object, property) ← twoOperands operands
  let value ← ask fun machine => question machine.objects object (lowByte property)
  storeAndContinue value

/-- Stores the length of the property whose data is at an address. -/
def storePropertyLength (operands : List Operand) : Action Outcome := do
  let address ← oneOperand operands
  let length ← ask (·.memory.propertyLength address)
  storeAndContinue length

/-- Sets the value of a property of an object. -/
def writeProperty (operands : List Operand) : Action Outcome := do
  let (object, property, value) ← threeOperands operands
  onObjects (ObjectStore.setProperty object (lowByte property) value)
  return .continued

end StoryMachine.Machine
