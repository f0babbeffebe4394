import StoryMachine.Object.Basic

/-!
# Changing objects

An `ObjectStore` is a memory image with the copy of its object table.  An
`ObjectStore.Edit` changes both, the copy first, and keeps what it has done so
far when it fails.

An edit of a flag, a link or a property changes one object in the copy and the
same bytes in memory.  Edits of object 0, which has no bytes, change nothing.
-/

namespace StoryMachine

/-- A memory image and the copy of its object table. -/
structure ObjectStore where
  /-- The image. -/
  memory : Memory
  /-- The copy of the object table. -/
  table : ObjectTable

/-- An action that changes objects and may fail part of the way. -/
abbrev ObjectStore.Edit := EStateM Error ObjectStore

namespace ObjectStore

/-- Runs a change of the image.  The image is taken out of the store while the
change runs, so that it is changed in place. -/
def onMemory {α : Type} (update : Memory.Update α) : Edit α := fun store =>
  let memory := store.memory
  let store := { store with memory := {} }
  match update memory with
  | .ok value memory => .ok value { store with memory }
  | .error e memory => .error e { store with memory }

/-- Asks the table, without changing anything. -/
def asking {α : Type} (question : ObjectTable → Except Error α) : Edit α := fun store =>
  match question store.table with
  | .ok value => .ok value store
  | .error e => .error e store

/-- Changes object `number` in the copy, if there is one of that number. -/
def modifyObject (number : UInt16) (change : Object → Object) : Edit Unit :=
  modify fun store =>
    { store with
      table.objects := store.table.objects.modify (number.toNat - 1) change }

/-- Leads a link of an object to another object or to 0. -/
def setLink (link : Link) (number target : UInt16) : Edit Unit := do
  let table := (← get).table
  if number = 0 then pure ()
  else if table.size < target.toNat then throw (.invalidObject target)
  else if table.size < number.toNat then throw (.invalidObject number)
  else
    modifyObject number (·.withLink link (lowByte target))
    onMemory (Memory.setByte (table.record number.toNat + link.offset) (lowByte target))

/-- Sets or clears a flag of an object.  There are 32 flags; an edit of any
other changes nothing. -/
def setAttribute (number flag : UInt16) (value : Bool) : Edit Unit := do
  let object ← asking (·.object number)
  match Attribute.ofWord? flag with
  | none => pure ()
  | some flag =>
      if number = 0 then pure ()
      else
        let table := (← get).table
        let object := object.withAttribute flag value
        modifyObject number fun _ => object
        onMemory (Memory.setByte (table.record number.toNat + flag.byte.val)
          (object.attributeByte flag))

/-- Sets the value of a property that the object has.  A property of one byte
takes the low byte, a longer one takes the value as its first word. -/
def setProperty (number : UInt16) (property : UInt8) (value : UInt16) : Edit Unit := do
  let object ← asking (·.object number)
  match object.property? property with
  | none => throw (.missingProperty number property)
  | some found =>
      modifyObject number (·.withProperty property value)
      if found.data.length = 1 then
        onMemory (Memory.setByte found.dataAddress (lowByte value))
      else onMemory (Memory.setWord found.dataAddress value)

end ObjectStore

end StoryMachine
