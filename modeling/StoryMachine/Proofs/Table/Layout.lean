import Mathlib.Data.List.Pairwise
import StoryMachine.Proofs.Table.Agreement

/-!
# Where the tables lie

The shape of the object table is what no instruction changes: its address, the
names, and the number, address and length of each property.

The copies hold the bytes of certain regions: the table of global variables, the
default values, the record of each object, and the data of each property.
`Separated` says that no two of these regions share a byte.  It depends on the
shape alone (`Separated.congr`), and so does the tidiness of the properties
(`ObjectTable.Tidy.congr`).
-/

namespace StoryMachine

/-! ## Shapes -/

/-- The number, the address and the length of a property. -/
def Property.place (property : Property) : UInt8 × Nat × Nat :=
  (property.number, property.address, property.data.length)

/-- What stays of an object: its name, its property header, and where its
properties lie. -/
def Object.shape (object : Object) : String × UInt16 × List (UInt8 × Nat × Nat) :=
  (object.name, object.propertyHeader, object.properties.map Property.place)

/-- What stays of the object table: its address and the shapes of its objects. -/
def ObjectTable.shape (table : ObjectTable) :
    Nat × List (String × UInt16 × List (UInt8 × Nat × Nat)) :=
  (table.base, table.objects.toList.map Object.shape)

namespace ObjectTable

variable {table other : ObjectTable}

theorem base_of_shape (same : other.shape = table.shape) : other.base = table.base :=
  congrArg Prod.fst same

theorem size_of_shape (same : other.shape = table.shape) : other.size = table.size := by
  have lengths := congrArg List.length (congrArg Prod.snd same)
  simpa [shape, size] using lengths

theorem object_shape_of_shape (same : other.shape = table.shape) {i : Nat}
    (h : i < other.objects.size) (h' : i < table.objects.size) :
    other.objects[i].shape = table.objects[i].shape := by
  have shapes := congrArg (fun s => s.2[i]?) same
  simpa [shape, h, h'] using shapes

/-- Tidiness depends on the shape alone. -/
theorem Tidy.congr (tidy : table.Tidy) (same : other.shape = table.shape) : other.Tidy := by
  intro i h
  have h' : i < table.objects.size := Nat.lt_of_lt_of_eq h (size_of_shape same)
  have places : other.objects[i].properties.map Property.place =
      table.objects[i].properties.map Property.place :=
    congrArg (·.2.2) (object_shape_of_shape same h h')
  constructor
  · have numbers := congrArg (List.map Prod.fst) places
    simp only [List.map_map] at numbers
    exact (congrArg List.Nodup numbers).mpr (tidy i h').distinct
  · intro property member empty
    have place : property.place ∈ table.objects[i].properties.map Property.place :=
      places ▸ List.mem_map_of_mem member
    obtain ⟨old, oldMember, equal⟩ := List.mem_map.1 place
    apply (tidy i h').nonempty old oldMember
    have lengths := congrArg (·.2.2) equal
    simpa [Property.place, empty] using lengths

end ObjectTable

/-! ## Regions -/

/-- A range of bytes. -/
structure Region where
  /-- The address of the first byte. -/
  start : Nat
  /-- The number of bytes. -/
  length : Nat
deriving DecidableEq

/-- No byte lies in both regions. -/
def Region.Apart (region other : Region) : Prop :=
  region.start + region.length ≤ other.start ∨ other.start + other.length ≤ region.start

instance : DecidableRel Region.Apart :=
  fun region other => inferInstanceAs (Decidable
    (region.start + region.length ≤ other.start ∨ other.start + other.length ≤ region.start))

theorem Region.Apart.symm {region other : Region} (apart : region.Apart other) :
    other.Apart region :=
  Or.symm apart

/-- The table of the global variables. -/
def Globals.region (globals : Globals) : Region := ⟨globals.base, 2 * globalCount⟩

/-- The data of a property. -/
def Property.region (property : Property) : Region := ⟨property.dataAddress, property.data.length⟩

namespace ObjectTable

/-- The default values. -/
def defaultRegion (table : ObjectTable) : Region := ⟨table.base, 2 * defaultCount⟩

/-- The record of an object. -/
def recordRegion (table : ObjectTable) (number : Nat) : Region :=
  ⟨table.record number, recordLength⟩

/-- The data of all properties of all objects. -/
def propertyRegions (table : ObjectTable) : List Region :=
  table.objects.toList.flatMap fun object => object.properties.map Property.region

/-- All regions whose bytes the copy of the object table holds. -/
def regions (table : ObjectTable) : List Region :=
  table.defaultRegion :: (List.range' 1 table.size).map table.recordRegion ++ table.propertyRegions

theorem propertyRegions_of_shape {table other : ObjectTable} (same : other.shape = table.shape) :
    other.propertyRegions = table.propertyRegions := by
  have regions (t : ObjectTable) : t.propertyRegions =
      t.shape.2.flatMap fun shape => shape.2.2.map fun place => ⟨place.2.1 + 1, place.2.2⟩ := by
    simp only [propertyRegions, shape, List.flatMap_map, Object.shape, List.map_map]
    rfl
  rw [regions, regions, same]

/-- Different properties have their data apart, in one object or in two. -/
theorem property_apart {table : ObjectTable} (apart : table.propertyRegions.Pairwise Region.Apart)
    {i j : Nat} (hi : i < table.objects.size) (hj : j < table.objects.size)
    {property other : Property} (member : property ∈ table.objects[i].properties)
    (otherMember : other ∈ table.objects[j].properties)
    (different : i ≠ j ∨ property ≠ other) : property.region.Apart other.region := by
  obtain ⟨within, between⟩ := List.pairwise_flatMap.1 apart
  have across : ∀ {k l : Nat} (hk : k < table.objects.size) (hl : l < table.objects.size), k < l →
      ∀ p ∈ table.objects[k].properties, ∀ q ∈ table.objects[l].properties,
        p.region.Apart q.region := by
    intro k l hk hl less p pMember q qMember
    have pair := List.pairwise_iff_getElem.1 between k l (by simpa using hk) (by simpa using hl)
      less
    exact pair _ (List.mem_map_of_mem (by simpa using pMember)) _
      (List.mem_map_of_mem (by simpa using qMember))
  rcases Nat.lt_trichotomy i j with less | same | greater
  · exact across hi hj less _ member _ otherMember
  · subst same
    have inside := within table.objects[i] (by simp)
    rw [List.pairwise_map] at inside
    have : Std.Symm fun p q : Property => p.region.Apart q.region := ⟨fun _ _ apart => apart.symm⟩
    exact inside.forall member otherMember (different.resolve_left (fun h => h rfl))
  · exact (across hj hi greater _ otherMember _ member).symm

end ObjectTable

/-- No two regions of the tables share a byte. -/
def Separated (globals : Globals) (table : ObjectTable) : Prop :=
  (globals.region :: table.regions).Pairwise Region.Apart

instance (globals : Globals) (table : ObjectTable) : Decidable (Separated globals table) :=
  inferInstanceAs (Decidable (List.Pairwise _ _))

namespace Separated

variable {globals globals' : Globals} {table table' : ObjectTable}

/-- Separation depends on the shape alone. -/
theorem congr (separated : Separated globals table) (base : globals'.base = globals.base)
    (same : table'.shape = table.shape) : Separated globals' table' := by
  have properties := ObjectTable.propertyRegions_of_shape same
  have records : table'.recordRegion = table.recordRegion := by
    funext number
    simp only [ObjectTable.recordRegion, ObjectTable.record, ObjectTable.base_of_shape same]
  have regions : globals'.region :: table'.regions = globals.region :: table.regions := by
    simp only [Globals.region, base, ObjectTable.regions, ObjectTable.defaultRegion, properties,
      records, ObjectTable.base_of_shape same, ObjectTable.size_of_shape same]
  exact (congrArg (List.Pairwise Region.Apart) regions).mpr separated

theorem globals_apart (separated : Separated globals table) {region : Region}
    (member : region ∈ table.regions) : globals.region.Apart region :=
  (List.pairwise_cons.1 separated).1 region member

theorem default_apart (separated : Separated globals table) {region : Region}
    (member : region ∈ table.propertyRegions) : table.defaultRegion.Apart region := by
  have rest := (List.pairwise_cons.1 separated).2
  exact (List.pairwise_cons.1 rest).1 region (List.mem_append_right _ member)

theorem record_apart (separated : Separated globals table) {i : Nat} {region : Region}
    (h : i < table.size) (member : region ∈ table.propertyRegions) :
    (table.recordRegion (i + 1)).Apart region := by
  have rest := (List.pairwise_cons.1 (List.pairwise_cons.1 separated).2).2
  refine (List.pairwise_append.1 rest).2.2 _ (List.mem_map_of_mem ?_) region member
  rw [List.mem_range'_1]
  omega

theorem propertyRegions_apart (separated : Separated globals table) :
    table.propertyRegions.Pairwise Region.Apart := by
  have rest := (List.pairwise_cons.1 (List.pairwise_cons.1 separated).2).2
  exact (List.pairwise_append.1 rest).2.1

end Separated

/-- The records of different objects have no byte in common. -/
theorem ObjectTable.recordRegion_apart (table : ObjectTable) {i j : Nat} (different : i ≠ j) :
    (table.recordRegion (i + 1)).Apart (table.recordRegion (j + 1)) := by
  simp only [Region.Apart, recordRegion, record, recordLength]
  omega

/-- The default values lie before the records. -/
theorem ObjectTable.defaultRegion_apart (table : ObjectTable) (number : Nat) :
    table.defaultRegion.Apart (table.recordRegion number) := by
  simp only [Region.Apart, defaultRegion, recordRegion, record, firstRecord]
  omega

end StoryMachine
