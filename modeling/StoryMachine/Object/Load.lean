import StoryMachine.Object.Basic
import StoryMachine.Text.Abbreviations

/-!
# Reading the object table

The table starts with 31 default words.  The records of the objects follow,
nine bytes each: four attribute bytes, three links, and the address of the
name and the properties.  Nothing counts the records.  They end where the name
and properties of object 1 begin, and there are at least one and at most 255.

The name is a length byte and that many packed words.  After it comes the chain
of properties, each a size byte and its data, up to a zero byte.  The low five
bits of a size byte are the number of the property and the high three its
length less one.  When a number occurs twice, the later data counts, in the
place of the earlier.
-/

namespace StoryMachine

open Numeral (hex decimal)

namespace Object

/-- The four attribute bytes of a record. -/
def readAttributes (memory : Memory) (record : Nat) : Except Error (Vector UInt8 4) := do
  let first ← memory.getByte record
  let second ← memory.getByte (record + 1)
  let third ← memory.getByte (record + 2)
  let fourth ← memory.getByte (record + 3)
  return #v[first, second, third, fourth]

/-- A link byte of a record. -/
def readLink (memory : Memory) (record : Nat) (link : Link) : Except Error UInt8 :=
  memory.getByte (record + link.offset)

/-- The `count` words from an address on, as a list. -/
def readName (memory : Memory) (address : Nat) : (count : Nat) → Except Error (List UInt16)
  | 0 => .ok []
  | count + 1 => do
      let word ← memory.getWord address
      let rest ← readName memory (address + 2) count
      return word :: rest

/-- Adds a property.  One with the same number is replaced where it stands. -/
def insertProperty (property : Property) : List Property → List Property
  | [] => [property]
  | first :: rest =>
      if first.number = property.number then property :: rest
      else first :: insertProperty property rest

/-- The properties of the chain at an address, added to `found`, if it ends
within `limit` blocks. -/
def readChainUpTo (memory : Memory) :
    (limit address : Nat) → (found : List Property) → Except Error (List Property)
  | 0, address, _ => .error (memory.outOfBounds address)
  | limit + 1, address, found => do
      let size ← memory.getByte address
      if size = 0 then return found
      else
        let length := (size >>> 5).toNat + 1
        let data ← memory.slice (address + 1) length
        let property := { number := size &&& 0x1f, address, data }
        readChainUpTo memory limit (address + 1 + length) (insertProperty property found)

/-- A limit that takes the chain past the end of the image is never met.  Every larger
one gives the same, be it properties or an error. -/
theorem readChainUpTo_of_le {memory : Memory} {limit more address : Nat}
    {found : List Property} (enough : memory.size ≤ address + limit) (le : limit ≤ more) :
    readChainUpTo memory more address found = readChainUpTo memory limit address found := by
  induction limit generalizing more address found with
  | zero =>
      cases more with
      | zero => rfl
      | succ more =>
          have outside : memory.getByte address = .error (memory.outOfBounds address) :=
            dif_neg (Nat.not_lt.2 enough)
          simp only [readChainUpTo, outside]
          rfl
  | succ limit ih =>
      cases more with
      | zero => exact absurd le (Nat.not_succ_le_zero limit)
      | succ more =>
          refine bind_congr fun size => ?_
          split
          next => rfl
          next =>
            refine bind_congr fun data => ?_
            exact ih (by omega) (Nat.le_of_succ_le_succ le)

/-- The properties of the chain at an address.  Each block has at least two
bytes, so a chain with as many blocks as the image has bytes has left it. -/
def readChain (memory : Memory) (address : Nat) : Except Error (List Property) :=
  readChainUpTo memory memory.size address []

/-- The object whose record is at an address. -/
def read (memory : Memory) (abbreviations : Abbreviations) (record : Nat) :
    Except Error Object := do
  let attributes ← readAttributes memory record
  let propertyHeader ← memory.getWord (record + 7)
  let header := propertyHeader.toNat
  let nameLength ← memory.getByte header
  let name ← readName memory (header + 1) nameLength.toNat
  let properties ← readChain memory (header + 1 + 2 * nameLength.toNat)
  let parent ← readLink memory record .parent
  let sibling ← readLink memory record .sibling
  let child ← readLink memory record .child
  return {
    attributes, parent, sibling, child, propertyHeader, properties
    name := Packed.decode abbreviations.get (Packed.codes name) }

end Object

namespace ObjectTable

/-- The largest number of objects of a table. -/
def capacity : Nat := 255

/-- Whether a record at an address lies past the last one, which the address
of the properties of object 1 tells. -/
def pastRecords (objects : Array Object) (record : Nat) : Bool :=
  match objects[0]? with
  | some first => first.propertyHeader.toNat ≤ record
  | none => false

/-- Reads at most `limit` further records after the given objects. -/
def readObjects (memory : Memory) (abbreviations : Abbreviations) (first : Nat) :
    (limit : Nat) → (objects : Array Object) → Except Error (Array Object)
  | 0, objects => .ok objects
  | limit + 1, objects =>
      let record := first + recordLength * objects.size
      if pastRecords objects record then .ok objects
      else do
        let object ← Object.read memory abbreviations record
        readObjects memory abbreviations first limit (objects.push object)

/-- The table at `base`. -/
def load (memory : Memory) (base : Nat) (abbreviations : Abbreviations) :
    Except Error ObjectTable := do
  let defaults ← memory.getWords base defaultCount
  let objects ← readObjects memory abbreviations (firstRecord base) capacity #[]
  return { base, defaults, objects }

/-- The line about a loaded table. -/
def summary (table : ObjectTable) : String :=
  s!"loaded {decimal 1 table.size} objects from {hex 4 table.base}"

end ObjectTable

end StoryMachine
