import StoryMachine.Memory.Basic

/-!
# Objects

The things of a story are numbered objects.  An object has 32 attribute flags,
links to its parent, its next sibling and its first child, a short name, and
numbered properties with up to eight bytes of data.  Object 0 stands for no
object: it has no record in memory, no flags, no links and no properties.

`ObjectTable` is a copy of the object table in memory.  This module has its
types and the questions that the copy alone can answer.  A number that names no
object is an error in every one of them.
-/

namespace StoryMachine

/-! ## Properties -/

/-- A property of an object. -/
structure Property where
  /-- The number of the property. -/
  number : UInt8
  /-- The address of its size byte, which stands before the data. -/
  address : Nat
  /-- Its data. -/
  data : List UInt8
deriving DecidableEq

/-- The address of the data. -/
def Property.dataAddress (property : Property) : Nat := property.address + 1

/-- The value of a property: its only byte, or its first word. -/
def Property.value (property : Property) : UInt16 :=
  match property.data with
  | [] => 0
  | [byte] => byte.toUInt16
  | high :: low :: _ => wordOfBytes high low

/-- The property with a new value: its only byte, or its first word, replaced. -/
def Property.withValue (property : Property) (value : UInt16) : Property :=
  match property.data with
  | [] => property
  | [_] => { property with data := [lowByte value] }
  | _ :: _ :: rest => { property with data := highByte value :: lowByte value :: rest }

/-! ## Attributes and links -/

/-- The number of an attribute flag. -/
abbrev Attribute := Fin 32

/-- The attribute with a given number, if there is one. -/
def Attribute.ofWord? (word : UInt16) : Option Attribute :=
  if h : word.toNat < 32 then some ⟨word.toNat, h⟩ else none

/-- The attribute byte that holds a flag. -/
def Attribute.byte (flag : Attribute) : Fin 4 := ⟨flag.val / 8, by omega⟩

/-- The bit of a flag in its byte; flag 0 is the top bit of the first byte. -/
def Attribute.mask (flag : Attribute) : UInt8 := 0x80 >>> UInt8.ofNat (flag.val % 8)

/-- The links of an object to other objects. -/
inductive Link where
  | parent
  | sibling
  | child
deriving DecidableEq

/-- The place of a link in the record of an object. -/
def Link.offset : Link → Nat
  | .parent => 4
  | .sibling => 5
  | .child => 6

/-- The name of a link in notes. -/
def Link.label : Link → String
  | .parent => "Parent"
  | .sibling => "Sibling"
  | .child => "Child"

/-! ## Objects -/

/-- An object.  Its number is its place in the table, counted from 1, and the address of
its record is that of the place (`ObjectTable.record`), so neither is kept with it. -/
structure Object where
  /-- The attribute flags. -/
  attributes : Vector UInt8 4
  /-- The number of the parent, or 0. -/
  parent : UInt8
  /-- The number of the next sibling, or 0. -/
  sibling : UInt8
  /-- The number of the first child, or 0. -/
  child : UInt8
  /-- The address of the name and the properties. -/
  propertyHeader : UInt16
  /-- The short name. -/
  name : String
  /-- The properties, each number once. -/
  properties : List Property
deriving DecidableEq

namespace Object

/-- The object that stands for none. -/
def inert : Object where
  attributes := Vector.replicate 4 0
  parent := 0
  sibling := 0
  child := 0
  propertyHeader := 0
  name := ""
  properties := []

instance : Inhabited Object := ⟨inert⟩

/-- The object a link leads to. -/
def link (object : Object) : Link → UInt8
  | .parent => object.parent
  | .sibling => object.sibling
  | .child => object.child

/-- The object with one link changed. -/
def withLink (object : Object) (link : Link) (target : UInt8) : Object :=
  match link with
  | .parent => { object with parent := target }
  | .sibling => { object with sibling := target }
  | .child => { object with child := target }

/-- The attribute byte that holds a flag. -/
def attributeByte (object : Object) (flag : Attribute) : UInt8 := object.attributes[flag.byte]

/-- Whether a flag is set. -/
def has (object : Object) (flag : Attribute) : Bool :=
  object.attributeByte flag &&& flag.mask ≠ 0

/-- The object with one flag set or cleared. -/
def withAttribute (object : Object) (flag : Attribute) (value : Bool) : Object :=
  let byte := object.attributeByte flag
  let byte := if value then byte ||| flag.mask else byte &&& ~~~flag.mask
  { object with attributes := object.attributes.set flag.byte byte }

/-- The property of a number. -/
def property? (object : Object) (number : UInt8) : Option Property :=
  object.properties.find? (·.number == number)

/-- The object with the value of one property changed. -/
def withProperty (object : Object) (number : UInt8) (value : UInt16) : Object :=
  { object with
    properties := object.properties.map fun property =>
      if property.number == number then property.withValue value else property }

end Object

/-! ## The table -/

/-- The number of default property values. -/
def defaultCount : Nat := 31

/-- The number of bytes of the record of an object. -/
def recordLength : Nat := 9

/-- A copy of the object table. -/
structure ObjectTable where
  /-- The address of the table. -/
  base : Nat
  /-- The values of the properties 1 to 31 of objects that lack them. -/
  defaults : Vector UInt16 defaultCount
  /-- The objects from number 1 on. -/
  objects : Array Object

instance : Inhabited ObjectTable := ⟨0, Vector.replicate defaultCount 0, #[]⟩

namespace ObjectTable

/-- The number of objects, not counting object 0. -/
def size (table : ObjectTable) : Nat := table.objects.size

/-- The address of the first record of a table at `base`, after its defaults. -/
def firstRecord (base : Nat) : Nat := base + 2 * defaultCount

/-- The address of the record of object `number`, counted from 1. -/
def record (table : ObjectTable) (number : Nat) : Nat :=
  firstRecord table.base + recordLength * (number - 1)

/-- The object of a number. -/
def object (table : ObjectTable) (number : UInt16) : Except Error Object :=
  if number = 0 then .ok .inert
  else
    match table.objects[number.toNat - 1]? with
    | some object => .ok object
    | none => .error (.invalidObject number)

/-- The object a link of an object leads to. -/
def link (table : ObjectTable) (link : Link) (number : UInt16) : Except Error UInt16 := do
  return ((← table.object number).link link).toUInt16

/-- The short name of an object. -/
def name (table : ObjectTable) (number : UInt16) : Except Error String := do
  return (← table.object number).name

/-- Whether a flag of an object is set.  There are 32 flags, and no other is set. -/
def testAttribute (table : ObjectTable) (number flag : UInt16) : Except Error Bool := do
  let object ← table.object number
  match Attribute.ofWord? flag with
  | some flag => return object.has flag
  | none => return false

/-- The value of a property for objects that lack it. -/
def defaultValue (table : ObjectTable) (property : UInt8) : UInt16 :=
  if property = 0 then 0 else (table.defaults[property.toNat - 1]?).getD 0

/-- The value of a property of an object. -/
def property (table : ObjectTable) (number : UInt16) (property : UInt8) : Except Error UInt16 := do
  match (← table.object number).property? property with
  | some property => return property.value
  | none => return table.defaultValue property

/-- The address of the data of a property as a word, or 0 when the object lacks it. -/
def propertyAddress (table : ObjectTable) (number : UInt16) (property : UInt8) :
    Except Error UInt16 := do
  match (← table.object number).property? property with
  | some property => return UInt16.ofNat property.dataAddress
  | none => return 0

/-- The number of the first property of a list, or 0. -/
def firstNumber : List Property → UInt16
  | [] => 0
  | property :: _ => property.number.toUInt16

/-- The number of the property after the given one, 0 after the last. -/
def numberAfter? (number : UInt8) : List Property → Option UInt16
  | [] => none
  | property :: rest =>
      if property.number = number then some (firstNumber rest) else numberAfter? number rest

/-- The number of the property after the given one; 0 asks for the first. -/
def nextProperty (table : ObjectTable) (number : UInt16) (property : UInt8) :
    Except Error UInt16 := do
  let properties := (← table.object number).properties
  if property = 0 then return firstNumber properties
  else
    match numberAfter? property properties with
    | some next => return next
    | none => throw (.missingProperty number property)

end ObjectTable

/-- The length of the property whose data is at an address, told by the size
byte in front of it; 0 for address 0. -/
def Memory.propertyLength (memory : Memory) (dataAddress : UInt16) : Except Error UInt16 :=
  if dataAddress = 0 then .ok 0
  else do
    let size ← memory.getByte (dataAddress.toNat - 1)
    return (size >>> 5).toUInt16 + 1

end StoryMachine
