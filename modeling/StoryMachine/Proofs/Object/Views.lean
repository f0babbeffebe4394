import StoryMachine.Proofs.Object.Chain
import StoryMachine.Proofs.Table.Bounds

/-!
# The views of a property

A story sees a property in three ways.  Its value comes from the copy of the object
table, its address comes from the copy as well, but as a word, and its length comes
from the size byte in memory, which stands in front of that address.  The views agree
(`ObjectStore.ViewsAgree`) as long as no property has its data where another has its
data or its size byte (`ObjectTable.DataApart`).

Setting a property writes to the copy and to memory.  It keeps every size byte, and
every property keeps its agreement with memory (`ObjectStore.Traced.setProperty`), so
the views agree after any number of such writes.
-/

namespace StoryMachine

/-! ## New values -/

theorem toUInt16_lowByte (word : UInt16) : (lowByte word).toUInt16 = word % 256 := by
  apply UInt16.toNat_inj.1
  rw [UInt8.toNat_toUInt16, toNat_lowByte, UInt16.toNat_mod]
  rfl

namespace Property

variable {property : Property}

theorem number_withValue (property : Property) (value : UInt16) :
    (property.withValue value).number = property.number :=
  congrArg Prod.fst (property.place_withValue value)

/-- A property of one byte takes the low byte of its new value. -/
theorem value_withValue (nonempty : property.data ≠ []) (value : UInt16) :
    (property.withValue value).value = if property.data.length = 1 then value % 256 else value := by
  match data : property.data with
  | [] => exact absurd data nonempty
  | [_] =>
      simp only [withValue, Property.value, data]
      exact toUInt16_lowByte value
  | _ :: _ :: _ =>
      simp only [withValue, Property.value, data]
      rw [if_neg (by simp)]
      exact wordOfBytes_highByte_lowByte value

/-- The size byte tells the place of a property, not its data. -/
theorem Sized.congr {other : Property} {memory written : Memory} (sized : property.Sized memory)
    (place : other.place = property.place)
    (same : written.getByte property.address = memory.getByte property.address) :
    other.Sized written := by
  obtain ⟨size, readSize, nonzero, number, length⟩ := sized
  simp only [Property.place, Prod.mk.injEq] at place
  obtain ⟨sameNumber, sameAddress, sameLength⟩ := place
  refine ⟨size, ?_, nonzero, sameNumber.trans number, sameLength.trans length⟩
  rw [sameAddress, same]
  exact readSize

theorem Sized.length_le {memory : Memory} (sized : property.Sized memory) :
    1 ≤ property.data.length ∧ property.data.length ≤ 8 := by
  obtain ⟨size, -, -, -, length⟩ := sized
  have small := size.toNat_lt
  have shifted : (size >>> 5).toNat = size.toNat / 32 := by simp [Nat.shiftRight_eq_div_pow]
  omega

theorem dataAddress_ne_zero (property : Property) (small : property.dataAddress < 65536) :
    UInt16.ofNat property.dataAddress ≠ 0 := by
  intro zero
  have address := UInt16.toNat_ofNat_of_lt' small
  rw [zero] at address
  exact absurd address (Nat.succ_ne_zero property.address).symm

/-- The length of a property is found in front of its data. -/
theorem Sized.propertyLength {memory : Memory} (sized : property.Sized memory)
    (small : property.dataAddress < 65536) :
    memory.propertyLength (UInt16.ofNat property.dataAddress) =
      .ok (UInt16.ofNat property.data.length) := by
  have address := UInt16.toNat_ofNat_of_lt' small
  obtain ⟨size, readSize, -, -, length⟩ := sized
  rw [Memory.propertyLength, if_neg (property.dataAddress_ne_zero small), address, dataAddress,
    Nat.add_sub_cancel, readSize, length]
  rfl

end Property

namespace Object

/-- The properties of an object with one of them changed. -/
theorem property?_withProperty (object : Object) (number other : UInt8) (value : UInt16) :
    (object.withProperty number value).property? other =
      (object.property? other).map fun property =>
        if property.number == number then property.withValue value else property := by
  rw [property?, withProperty, List.find?_map, property?]
  congr 2
  funext property
  simp only [Function.comp]
  split
  next => rw [property.number_withValue]
  next => rfl

variable {object : Object} {number : UInt8} {value : UInt16}

theorem property?_withProperty_self {found : Property}
    (has : object.property? number = some found) :
    (object.withProperty number value).property? number = some (found.withValue value) := by
  have named := List.find?_some has
  rw [property?_withProperty, has, Option.map_some, if_pos named]

theorem property?_withProperty_of_ne {other : UInt8} (different : other ≠ number) :
    (object.withProperty number value).property? other = object.property? other := by
  rw [property?_withProperty]
  cases found : object.property? other with
  | none => rfl
  | some property =>
      rw [Option.map_some, number_of_has found, if_neg (by simpa using different)]

end Object

namespace ObjectTable

variable {table : ObjectTable} {number : UInt16} {object : Object} {change : Object → Object}

theorem object_modify_self (nonzero : number ≠ 0) (asked : table.object number = .ok object) :
    ({ table with objects := table.objects.modify (number.toNat - 1) change }
      : ObjectTable).object number = .ok (change object) := by
  obtain ⟨h, rfl⟩ := (object_eq_ok nonzero).1 asked
  have h' : number.toNat - 1 < (table.objects.modify (number.toNat - 1) change).size := by
    rwa [Array.size_modify]
  exact (object_eq_ok nonzero).2 ⟨h', Array.getElem_modify_self change h'⟩

theorem object_modify_of_ne {other : UInt16} (nonzero : number ≠ 0) (different : other ≠ number) :
    ({ table with objects := table.objects.modify (number.toNat - 1) change }
      : ObjectTable).object other = table.object other := by
  by_cases zero : other = 0
  · simp only [ObjectTable.object, if_pos zero]
  · obtain ⟨k, number_eq⟩ := exists_toNat_eq_succ nonzero
    obtain ⟨j, other_eq⟩ := exists_toNat_eq_succ zero
    have places : number.toNat - 1 ≠ other.toNat - 1 := by
      intro same
      exact different (UInt16.toNat_inj.1 (by omega))
    simp only [ObjectTable.object, if_neg zero, Array.getElem?_modify, if_neg places]

/-- The value of a property depends on the property and on the default values. -/
theorem property_congr {other : ObjectTable} {otherObject : Object} {property : UInt8}
    (asked : table.object number = .ok object) (askedOther : other.object number = .ok otherObject)
    (same : otherObject.property? property = object.property? property)
    (defaults : other.defaults = table.defaults) :
    other.property number property = table.property number property := by
  cases has : object.property? property with
  | some found =>
      rw [property_of_some asked has, property_of_some askedOther (same.trans has)]
  | none =>
      rw [property_of_none asked has, property_of_none askedOther (same.trans has),
        ObjectTable.defaultValue, defaults]
      rfl

end ObjectTable

/-! ## Properties that lie apart -/

/-- The size byte of a property. -/
def Property.sizeRegion (property : Property) : Region := ⟨property.address, 1⟩

namespace ObjectTable

variable {table other : ObjectTable}

/-- The size bytes of all properties of all objects. -/
def sizeRegions (table : ObjectTable) : List Region :=
  table.objects.toList.flatMap fun object => object.properties.map Property.sizeRegion

theorem sizeRegions_of_shape (same : other.shape = table.shape) :
    other.sizeRegions = table.sizeRegions := by
  have regions (t : ObjectTable) : t.sizeRegions =
      t.shape.2.flatMap fun shape => shape.2.2.map fun place => ⟨place.2.1, 1⟩ := by
    simp only [sizeRegions, shape, List.flatMap_map, Object.shape, List.map_map]
    rfl
  rw [regions, regions, same]

theorem mem_sizeRegions {i : Nat} (h : i < table.objects.size) {property : Property}
    (member : property ∈ table.objects[i].properties) :
    property.sizeRegion ∈ table.sizeRegions :=
  List.mem_flatMap.2 ⟨table.objects[i], by simp, List.mem_map_of_mem member⟩

/-- The data of the properties meet neither each other nor a size byte. -/
structure DataApart (table : ObjectTable) : Prop where
  data : table.propertyRegions.Pairwise Region.Apart
  sizes : ∀ data ∈ table.propertyRegions, ∀ size ∈ table.sizeRegions, data.Apart size

instance (table : ObjectTable) : Decidable table.DataApart :=
  decidable_of_iff
    (table.propertyRegions.Pairwise Region.Apart ∧
      ∀ data ∈ table.propertyRegions, ∀ size ∈ table.sizeRegions, data.Apart size)
    ⟨fun ⟨data, sizes⟩ => ⟨data, sizes⟩, fun ⟨data, sizes⟩ => ⟨data, sizes⟩⟩

theorem DataApart.congr (apart : table.DataApart) (same : other.shape = table.shape) :
    other.DataApart := by
  constructor
  · rw [propertyRegions_of_shape same]
    exact apart.data
  · rw [propertyRegions_of_shape same, sizeRegions_of_shape same]
    exact apart.sizes

section Write

variable {memory written : Memory} {count k : Nat} {found : Property} (apart : table.DataApart)
  (h : k < table.objects.size) (member : found ∈ table.objects[k].properties)
  (frame : memory.SameOutside written found.dataAddress count)
  (inside : count ≤ found.data.length)

include apart h member frame inside

/-- A write to the data of a property meets no size byte. -/
theorem DataApart.getByte_address {i : Nat} (hi : i < table.objects.size) {old : Property}
    (oldMember : old ∈ table.objects[i].properties) :
    written.getByte old.address = memory.getByte old.address := by
  have apart := apart.sizes _ (mem_propertyRegions h member) _ (mem_sizeRegions hi oldMember)
  simp only [Region.Apart, Property.region, Property.sizeRegion] at apart
  exact frame.getByte _ (by omega)

/-- A write to the data of a property meets the data of no other. -/
theorem DataApart.agrees_of_ne {i : Nat} (hi : i < table.objects.size) {old : Property}
    (oldMember : old ∈ table.objects[i].properties) (different : i ≠ k ∨ old ≠ found)
    (agrees : old.Agrees memory) : old.Agrees written := by
  have apart := property_apart apart.data hi h oldMember member different
  simp only [Region.Apart, Property.region] at apart
  exact agrees.of_sameOutside frame (by omega)

end Write

/-- What holds of the new form of a property, and of all others, holds of all properties
after the change. -/
theorem forall_properties_modify {p : Property → Prop} (tidy : table.Tidy) {k : Nat}
    (h : k < table.objects.size) {number : UInt8} {value : UInt16} {found : Property}
    (has : table.objects[k].property? number = some found) (changed : p (found.withValue value))
    (others : ∀ i (hi : i < table.objects.size), ∀ old ∈ table.objects[i].properties,
      i ≠ k ∨ old ≠ found → p old) :
    ∀ i (hi : i < (table.objects.modify k (·.withProperty number value)).size),
      ∀ new ∈ (table.objects.modify k (·.withProperty number value))[i].properties, p new := by
  intro i hi
  rw [Array.getElem_modify]
  split
  next same =>
    subst same
    exact Object.forall_mem_withProperty (tidy _ h).distinct (List.mem_of_find?_eq_some has)
      (Object.number_of_has has) changed
      fun old oldMember other => others _ h old oldMember (.inr other)
  next different =>
    intro old oldMember
    exact others i (by simpa using hi) old oldMember (.inl (Ne.symm different))

end ObjectTable

/-! ## Writes of properties -/

namespace ObjectStore

variable {loaded : ObjectTable} {store edited : ObjectStore}

/-- A store that has come from a loaded table by writes of properties.  Every property
has its size byte and its data in memory, and where the properties lie has not
changed. -/
structure Traced (loaded : ObjectTable) (store : ObjectStore) : Prop where
  small : store.memory.size ≤ 65536
  inside : store.table.Inside store.memory.size
  apart : store.table.DataApart
  shape : store.table.shape = loaded.shape
  defaults : store.table.defaults = loaded.defaults
  properties : ∀ i (h : i < store.table.objects.size),
    ∀ property ∈ store.table.objects[i].properties,
      property.Sized store.memory ∧ property.Agrees store.memory

theorem Traced.agree (traced : Traced loaded store) : ∀ i (h : i < store.table.objects.size),
    ∀ property ∈ store.table.objects[i].properties, property.Agrees store.memory :=
  fun i h property member => (traced.properties i h property member).2

/-- Setting a property of a store keeps it traced. -/
theorem Traced.setProperty (traced : Traced loaded store) {number : UInt16} {property : UInt8}
    {value : UInt16} {u : Unit}
    (edit : ObjectStore.setProperty number property value store = .ok u edited) :
    Traced loaded edited := by
  obtain ⟨h, found, has, frame, changed, table⟩ :=
    setProperty_writes traced.inside.tidy traced.agree edit
  have member := List.mem_of_find?_eq_some has
  have shape : edited.table.shape = store.table.shape := by
    rw [table]
    exact ObjectTable.shape_modify fun _ => Object.shape_withProperty _ property value
  have sizeByte {i : Nat} (hi : i < store.table.objects.size) {old : Property}
      (oldMember : old ∈ store.table.objects[i].properties) :=
    traced.apart.getByte_address h member frame (Nat.min_le_right _ _) hi oldMember
  have changedSize : (found.withValue value).Sized edited.memory :=
    (traced.properties _ h found member).1.congr (found.place_withValue value) (sizeByte h member)
  refine ⟨frame.size ▸ traced.small, frame.size ▸ traced.inside.congr shape,
    traced.apart.congr shape, shape.trans traced.shape, ?_, ?_⟩
  · rw [table]
    exact traced.defaults
  · simp only [table]
    refine ObjectTable.forall_properties_modify traced.inside.tidy h has ⟨changedSize, changed⟩ ?_
    intro i hi old oldMember different
    obtain ⟨sized, agrees⟩ := traced.properties i hi old oldMember
    exact ⟨sized.congr rfl (sizeByte hi oldMember), traced.apart.agrees_of_ne h member frame
      (Nat.min_le_right _ _) hi oldMember different agrees⟩

/-- A loaded table has its properties from memory. -/
theorem Traced.of_load {memory : Memory} {base : Nat} {abbreviations : Abbreviations}
    (isLoaded : ObjectTable.load memory base abbreviations = .ok loaded)
    (small : memory.size ≤ 65536) (apart : loaded.DataApart) : Traced loaded ⟨memory, loaded⟩ := by
  obtain ⟨-, -, -, reads⟩ := ObjectTable.load_reads isLoaded
  obtain ⟨agrees, tidy, -⟩ := ObjectTable.load_agrees isLoaded
  refine ⟨small, agrees.inside tidy, apart, rfl, rfl, ?_⟩
  intro i h
  obtain ⟨_, blocks, -, chain, collected⟩ := Object.exists_chain_of_read (reads i h)
  rw [collected]
  exact Object.forall_mem_collect chain.forall_mem

/-- A write of a property of an object. -/
structure PropertyWrite where
  number : UInt16
  property : UInt8
  value : UInt16

/-- Makes the write. -/
def PropertyWrite.perform (write : PropertyWrite) : Edit Unit :=
  ObjectStore.setProperty write.number write.property write.value

/-- A write that fails changes nothing. -/
theorem Traced.perform (traced : Traced loaded store) (write : PropertyWrite) :
    Traced loaded (leaves write.perform store) := by
  cases run : write.perform store with
  | ok u edited =>
      rw [leaves_of_ok run]
      exact traced.setProperty run
  | error e edited =>
      rw [leaves_of_error run, ((setProperty_edited traced.inside _ _ _).of_error run).1]
      exact traced

/-! ## Reading -/

/-- The three views of a property that an object has.  Its address is a word and not 0,
its length is found in front of that address, and its value is the byte or the word
there. -/
structure Shows (store : ObjectStore) (number : UInt16) (property : UInt8) (address : UInt16)
    (length : Nat) (value : UInt16) : Prop where
  propertyAddress : store.table.propertyAddress number property = .ok address
  nonzero : address ≠ 0
  propertyLength : store.memory.propertyLength address = .ok (UInt16.ofNat length)
  length_le : 1 ≤ length ∧ length ≤ 8
  property : store.table.property number property = .ok value
  inMemory : .ok value =
    if length = 1 then (store.memory.getByte address.toNat).map UInt8.toUInt16
    else store.memory.getWord address.toNat

theorem Traced.dataAddress_lt (traced : Traced loaded store) {i : Nat}
    (h : i < store.table.objects.size) {found : Property}
    (member : found ∈ store.table.objects[i].properties) : found.dataAddress < 65536 := by
  obtain ⟨sized, agrees⟩ := traced.properties i h found member
  obtain ⟨-, inside, -⟩ := Memory.slice_eq_ok.1 agrees
  have length := sized.length_le
  have size := traced.small
  omega

theorem Traced.shows (traced : Traced loaded store) {number : UInt16} {property : UInt8}
    {object : Object} {found : Property} (asked : store.table.object number = .ok object)
    (has : object.property? property = some found) :
    store.Shows number property (UInt16.ofNat found.dataAddress) found.data.length found.value := by
  have nonzero := ObjectTable.ne_zero_of_has asked has
  obtain ⟨h, rfl⟩ := (ObjectTable.object_eq_ok nonzero).1 asked
  have member := List.mem_of_find?_eq_some has
  obtain ⟨sized, agrees⟩ := traced.properties _ h found member
  have small := traced.dataAddress_lt h member
  constructor
  case propertyAddress => exact ObjectTable.propertyAddress_of_some asked has
  case nonzero => exact found.dataAddress_ne_zero small
  case propertyLength => exact sized.propertyLength small
  case length_le => exact sized.length_le
  case property => exact ObjectTable.property_of_some asked has
  case inMemory =>
    rw [UInt16.toNat_ofNat_of_lt' small]
    exact agrees.value ((traced.inside.tidy _ h).nonempty found member)

/-- What comes of setting a property.  It has the new value, of which a property of one
byte takes the low byte.  Memory is as before except for its first byte or its first
two, and every other property, of this object or another, has the value it had. -/
structure SetsOnly (store edited : ObjectStore) (number : UInt16) (property : UInt8)
    (address : UInt16) (length : Nat) (value : UInt16) : Prop where
  reads : edited.table.property number property =
    .ok (if length = 1 then value % 256 else value)
  memory : store.memory.SameOutside edited.memory address.toNat (min 2 length)
  others : ∀ other otherProperty, other ≠ number ∨ otherProperty ≠ property →
    edited.table.property other otherProperty = store.table.property other otherProperty

theorem Traced.setsOnly (traced : Traced loaded store) {number : UInt16} {property : UInt8}
    {object : Object} {found : Property} (asked : store.table.object number = .ok object)
    (has : object.property? property = some found) {value : UInt16} {u : Unit}
    (edit : ObjectStore.setProperty number property value store = .ok u edited) :
    store.SetsOnly edited number property (UInt16.ofNat found.dataAddress) found.data.length
      value := by
  have nonzero := ObjectTable.ne_zero_of_has asked has
  obtain ⟨h, written, hasWritten, frame, -, table⟩ :=
    setProperty_writes traced.inside.tidy traced.agree edit
  obtain ⟨_, rfl⟩ := (ObjectTable.object_eq_ok nonzero).1 asked
  obtain rfl : found = written := Option.some.inj (has.symm.trans hasWritten)
  have askedAfter : edited.table.object number =
      .ok (store.table.objects[number.toNat - 1].withProperty property value) := by
    rw [table]
    exact ObjectTable.object_modify_self nonzero asked
  constructor
  case reads =>
    have nonempty := (traced.inside.tidy _ h).nonempty found (List.mem_of_find?_eq_some has)
    rw [ObjectTable.property_of_some askedAfter (Object.property?_withProperty_self has),
      Property.value_withValue nonempty]
  case memory =>
    rw [UInt16.toNat_ofNat_of_lt' (traced.dataAddress_lt h (List.mem_of_find?_eq_some has))]
    exact frame
  case others =>
    intro other otherProperty different
    by_cases same : other = number
    · subst same
      have different := different.resolve_left fun no => no rfl
      refine ObjectTable.property_congr asked askedAfter ?_ (by rw [table])
      exact Object.property?_withProperty_of_ne different
    · rw [table, ObjectTable.property, ObjectTable.object_modify_of_ne nonzero same]
      rfl

/-- The views of all properties agree.  A property that an object has shows the same
through each of them, and can be set.  One that it lacks has no address, no length and
its default value, and cannot be set. -/
structure ViewsAgree (loaded : ObjectTable) (store : ObjectStore) : Prop where
  shows : ∀ {number object property found}, store.table.object number = .ok object →
    object.property? property = some found →
    ∃ address value, store.Shows number property address found.data.length value ∧
      ∀ new, ∃ edited, ObjectStore.setProperty number property new store = .ok () edited ∧
        store.SetsOnly edited number property address found.data.length new
  lacks : ∀ {number object property}, store.table.object number = .ok object →
    object.property? property = none →
    store.table.propertyAddress number property = .ok 0 ∧
      store.memory.propertyLength 0 = .ok 0 ∧
      store.table.property number property = .ok (loaded.defaultValue property) ∧
      ∀ new, ObjectStore.setProperty number property new store =
        .error (.missingProperty number property) store

theorem Traced.viewsAgree (traced : Traced loaded store) : ViewsAgree loaded store where
  shows := by
    intro number object property found asked has
    refine ⟨_, _, traced.shows asked has, ?_⟩
    intro new
    obtain ⟨edited, edit, -⟩ := exists_setProperty traced.inside asked has new
    exact ⟨edited, edit, traced.setsOnly asked has edit⟩
  lacks := by
    intro number object property asked none
    have default : store.table.defaultValue property = loaded.defaultValue property := by
      simp only [ObjectTable.defaultValue, traced.defaults]
    refine ⟨ObjectTable.propertyAddress_of_none asked none, rfl, ?_, setProperty_of_none asked none⟩
    rw [ObjectTable.property_of_none asked none, default]

/-- The views of the properties of an image agree after any writes of properties,
whether these succeed or fail, if the image has no more bytes than a word can address
and the properties of its object table lie apart.  The writes leave the number, the
address and the length of every property as they were. -/
theorem property_views_agree {memory : Memory} {base : Nat} {abbreviations : Abbreviations}
    {loaded : ObjectTable} (isLoaded : ObjectTable.load memory base abbreviations = .ok loaded)
    (small : memory.size ≤ 65536) (apart : loaded.DataApart) (writes : List PropertyWrite) :
    (leavesAll PropertyWrite.perform writes ⟨memory, loaded⟩).table.shape = loaded.shape ∧
      ViewsAgree loaded (leavesAll PropertyWrite.perform writes ⟨memory, loaded⟩) := by
  have keeps (write : PropertyWrite) (store : ObjectStore) (traced : Traced loaded store) :
      Traced loaded (leaves write.perform store) := traced.perform write
  have traced := leavesAll_keeps keeps writes (.of_load isLoaded small apart)
  exact ⟨traced.shape, traced.viewsAgree⟩

/-- An object table with two objects.  The first has a property of two bytes and one of
one byte, the second has a property of four bytes. -/
def pairTable : Memory :=
  let records : List UInt8 := List.replicate 8 0 ++ [80] ++ List.replicate 8 0 ++ [87]
  let properties : List UInt8 :=
    [0, 0x25, 0xaa, 0xbb, 0x03, 0xcc, 0] ++ [0, 0x65, 0x11, 0x22, 0x33, 0x44, 0]
  { bytes := (List.replicate (2 * defaultCount) 0 ++ records ++ properties).toArray }

/-- A write of each kind, and one that fails. -/
def sampleWrites : List PropertyWrite :=
  [⟨1, 5, 0x1234⟩, ⟨1, 9, 0⟩, ⟨1, 3, 0x1ff⟩, ⟨2, 5, 0xbeef⟩]

theorem property_views_agree_sample : ∃ (loaded : ObjectTable) (store : ObjectStore),
    ObjectTable.load pairTable 0 default = .ok loaded ∧ loaded.DataApart ∧
      store = leavesAll PropertyWrite.perform sampleWrites ⟨pairTable, loaded⟩ ∧
      store.Shows 2 5 89 4 0xbeef ∧ store.Shows 1 3 85 1 0xff ∧
      store.table.property 1 9 = .ok (loaded.defaultValue 9) := by
  have checked : ((ObjectTable.load pairTable 0 default).toOption.any fun loaded =>
      decide loaded.DataApart &&
        let store := leavesAll PropertyWrite.perform sampleWrites ⟨pairTable, loaded⟩
        (store.table.object 1).toOption.any fun object =>
          (store.table.object 2).toOption.any fun second =>
            object.property? 3 = some ⟨3, 84, [0xff]⟩ ∧ object.property? 9 = none ∧
            second.property? 5 = some ⟨5, 88, [0xbe, 0xef, 0x33, 0x44]⟩) = true := by
    decide +kernel
  obtain ⟨loaded, isLoaded, checked⟩ := exists_of_toOption_any checked
  obtain ⟨apart, checked⟩ := Bool.and_eq_true_iff.1 checked
  obtain ⟨object, asked, checked⟩ := exists_of_toOption_any checked
  obtain ⟨second, askedSecond, checked⟩ := exists_of_toOption_any checked
  obtain ⟨single, none, longer⟩ := of_decide_eq_true checked
  have apart := of_decide_eq_true apart
  obtain ⟨-, agree⟩ := property_views_agree isLoaded (by decide) apart sampleWrites
  obtain ⟨_, _, showsSingle, -⟩ := agree.shows asked single
  obtain ⟨_, _, showsLonger, -⟩ := agree.shows askedSecond longer
  cases showsSingle.propertyAddress.symm.trans (ObjectTable.propertyAddress_of_some asked single)
  cases showsSingle.property.symm.trans (ObjectTable.property_of_some asked single)
  cases showsLonger.propertyAddress.symm.trans
    (ObjectTable.propertyAddress_of_some askedSecond longer)
  cases showsLonger.property.symm.trans (ObjectTable.property_of_some askedSecond longer)
  exact ⟨loaded, _, isLoaded, apart, rfl, showsLonger, showsSingle, (agree.lacks asked none).2.2.1⟩

end ObjectStore

end StoryMachine
