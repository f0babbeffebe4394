import StoryMachine.Object.Load

/-!
# Reading parts of the object table again

After a write to memory that went past the copy of the object table, `refresh`
reads again what the write touched: the default values, the flags and links of
each record, and the data of each property.  Names, and where the properties
lie, stay as they were loaded.
-/

namespace StoryMachine

/-- Whether two ranges of bytes, each an address and a length, share a byte
that lies inside both. -/
def overlap (address count other otherCount : Nat) : Bool :=
  address < other + otherCount && other < address + count

/-- Reads the data of a property again if the range touches it. -/
def Property.refresh (memory : Memory) (address count : Nat) (property : Property) :
    Except Error Property :=
  if overlap address count property.dataAddress property.data.length then do
    let data ← memory.slice property.dataAddress property.data.length
    return { property with data }
  else .ok property

namespace Object

/-- Reads the flags and links of an object again. -/
def refreshRecord (memory : Memory) (record : Nat) (object : Object) : Except Error Object := do
  let attributes ← readAttributes memory record
  let parent ← readLink memory record .parent
  let sibling ← readLink memory record .sibling
  let child ← readLink memory record .child
  return { object with attributes, parent, sibling, child }

/-- Reads again what the range touches of an object. -/
def refresh (memory : Memory) (address count record : Nat) (object : Object) :
    Except Error Object := do
  let object ←
    if overlap address count record recordLength then object.refreshRecord memory record
    else .ok object
  let properties ← object.properties.mapM (Property.refresh memory address count)
  return { object with properties }

end Object

namespace ObjectTable

/-- Refreshes objects whose records follow each other from `record` on. -/
def refreshObjects (memory : Memory) (address count : Nat) :
    (record : Nat) → List Object → Except Error (List Object)
  | _, [] => .ok []
  | record, object :: rest => do
      let object ← object.refresh memory address count record
      let rest ← refreshObjects memory address count (record + recordLength) rest
      return object :: rest

/-- Reads again what the `count` bytes from `address` on touch of the table. -/
def refresh (table : ObjectTable) (memory : Memory) (address count : Nat) :
    Except Error ObjectTable := do
  let defaults ←
    if overlap address count table.base (2 * defaultCount) then
      memory.getWords table.base defaultCount
    else .ok table.defaults
  let objects ←
    refreshObjects memory address count (firstRecord table.base) table.objects.toList
  return { table with defaults, objects := objects.toArray }

/-- The numbers of the objects whose records the range touches. -/
def touched (table : ObjectTable) (address count : Nat) : List Nat :=
  (List.range' 1 table.size).filter fun number =>
    overlap address count (table.record number) recordLength

/-- One line for each record that a refresh reads again. -/
def refreshNarration (table : ObjectTable) (address count : Nat) : List String :=
  (table.touched address count).map fun number =>
    s!"refreshed record of object {Numeral.decimal 1 number}"

end ObjectTable

end StoryMachine
