import Mathlib.Data.List.Nodup
import StoryMachine.Proofs.Object.Edit
import StoryMachine.Proofs.Table.Refresh

/-!
# Writes through the copies

Setting a global variable, a link, a flag or a property writes the same bytes to
memory and to the copy.  When the regions of the tables are apart, such a write
meets no other part of the copies, so both copies still agree with memory
(`Mirrored`).  Writes that go past the copies are followed by a refresh, and
need no assumption on the regions (`Mirrored.refresh`).
-/

namespace StoryMachine

/-- Both copies agree with memory, their regions are apart, and the properties
are tidy.  The global variables are at an address, and the object table has the
shape of another one. -/
structure Mirrored (start : Nat) (first : ObjectTable) (memory : Memory) (globals : Globals)
    (table : ObjectTable) : Prop where
  globalsAgree : globals.Agrees memory
  objectsAgree : table.Agrees memory
  separated : Separated globals table
  tidy : table.Tidy
  base : globals.base = start
  shape : table.shape = first.shape

/-- A region apart from another is apart from every part of it. -/
theorem Region.Apart.part {region other : Region} (apart : region.Apart other) {start length : Nat}
    (first : other.start ≤ start) (last : start + length ≤ other.start + other.length) :
    region.Apart ⟨start, length⟩ := by
  simp only [Region.Apart] at apart ⊢
  omega

namespace ObjectTable

variable {table : ObjectTable} {change : Object → Object} {k : Nat}

/-- Changing an object without changing its shape keeps the shape of the table. -/
theorem shape_modify (same : ∀ h : k < table.objects.size,
      (change table.objects[k]).shape = table.objects[k].shape) :
    ({ table with objects := table.objects.modify k change } : ObjectTable).shape =
      table.shape := by
  simp only [shape, Prod.mk.injEq, true_and]
  apply List.ext_getElem
  · simp
  · intro i h h'
    simp only [List.getElem_map, Array.getElem_toList, Array.getElem_modify]
    split
    next equal =>
      subst equal
      exact same _
    next => rfl

theorem mem_propertyRegions {i : Nat} (h : i < table.objects.size) {property : Property}
    (member : property ∈ table.objects[i].properties) :
    property.region ∈ table.propertyRegions :=
  List.mem_flatMap.2 ⟨table.objects[i], by simp, List.mem_map_of_mem member⟩

theorem recordRegion_mem_regions {i : Nat} (h : i < table.size) :
    table.recordRegion (i + 1) ∈ table.regions := by
  refine List.mem_append_left _ (List.mem_cons_of_mem _ (List.mem_map_of_mem ?_))
  rw [List.mem_range'_1]
  omega

end ObjectTable

namespace Mirrored

variable {start : Nat} {first table table' : ObjectTable} {memory written : Memory}
  {globals globals' : Globals} {address count : Nat}

/-- After a write past the copies, refreshing both restores agreement. -/
theorem refresh (mirrored : Mirrored start first memory globals table)
    (frame : memory.SameOutside written address count)
    (refreshGlobals : globals.refresh written address count = .ok globals')
    (refreshObjects : table.refresh written address count = .ok table') :
    Mirrored start first written globals' table' := by
  obtain ⟨globalsAgree, base⟩ := Globals.refresh_agrees frame mirrored.globalsAgree refreshGlobals
  obtain ⟨objectsAgree, shape⟩ :=
    ObjectTable.refresh_agrees frame mirrored.objectsAgree refreshObjects
  exact ⟨globalsAgree, objectsAgree, mirrored.separated.congr base shape,
    mirrored.tidy.congr shape, base.trans mirrored.base, shape.trans mirrored.shape⟩

theorem defaults_of_sameOutside (agrees : table.Agrees memory)
    (frame : memory.SameOutside written address count)
    (apart : table.defaultRegion.Apart ⟨address, count⟩) :
    ∀ i (h : i < defaultCount), written.getWord (table.base + 2 * i) = .ok table.defaults[i] := by
  intro i h
  refine frame.getWord_eq_ok ?_ (agrees.defaults i h)
  simp only [Region.Apart, ObjectTable.defaultRegion, defaultCount] at apart
  simp only [defaultCount] at h
  omega

/-- The object table keeps its agreement when the write is apart from its
regions. -/
theorem objects_of_sameOutside (agrees : table.Agrees memory)
    (frame : memory.SameOutside written address count)
    (apart : ∀ region ∈ table.regions, region.Apart ⟨address, count⟩) : table.Agrees written := by
  constructor
  · exact defaults_of_sameOutside agrees frame (apart _ (List.mem_append_left _ (.head _)))
  · intro i h
    refine ⟨(agrees.objects i h).toRecordAgrees.of_sameOutside frame
      (apart _ (ObjectTable.recordRegion_mem_regions h)), ?_⟩
    intro property member
    exact ((agrees.objects i h).properties property member).of_sameOutside frame
      (apart _ (List.mem_append_right _ (ObjectTable.mem_propertyRegions h member)))

/-- Setting a global variable keeps agreement. -/
theorem setGlobal (mirrored : Mirrored start first memory globals table) {index : UInt8}
    {value : UInt16} (set : globals.set index value memory = .ok globals' written) :
    Mirrored start first written globals' table := by
  obtain ⟨inside, write, rfl⟩ := Globals.set_eq_ok set
  obtain ⟨frame, -, -⟩ := Memory.setWord_eq_ok write
  refine ⟨?_, ?_, mirrored.separated.congr rfl rfl, mirrored.tidy, mirrored.base, mirrored.shape⟩
  · intro i h
    by_cases same : i = index.toNat
    · subst same
      rw [Vector.getElem_set_self]
      exact Memory.getWord_of_setWord write
    · simp only [Vector.getElem_set_ne _ _ (Ne.symm same)]
      refine frame.getWord_eq_ok ?_ (mirrored.globalsAgree i h)
      simp only [Globals.address]
      omega
  · refine objects_of_sameOutside mirrored.objectsAgree frame ?_
    intro region member
    refine (mirrored.separated.globals_apart member).symm.part ?_ ?_
    · simp only [Globals.region, Globals.address]
      omega
    · simp only [globalCount] at inside
      simp only [Globals.region, Globals.address, globalCount]
      omega

end Mirrored

/-! ## Edits of one object -/

section Edit

variable {start : Nat} {first table : ObjectTable} {memory written : Memory} {globals : Globals}
  {address count k : Nat} {change : Object → Object}

/-- A write that meets only one object keeps agreement when that object agrees
afterwards. -/
theorem Mirrored.modify (mirrored : Mirrored start first memory globals table)
    (frame : memory.SameOutside written address count)
    (globalsApart : globals.region.Apart ⟨address, count⟩)
    (defaultsApart : table.defaultRegion.Apart ⟨address, count⟩)
    (recordsApart : ∀ i, i < table.size → i ≠ k →
      (table.recordRegion (i + 1)).Apart ⟨address, count⟩)
    (propertiesApart : ∀ i (h : i < table.objects.size), i ≠ k →
      ∀ property ∈ table.objects[i].properties, property.region.Apart ⟨address, count⟩)
    (changed : ∀ h : k < table.objects.size,
      (change table.objects[k]).Agrees written (table.record (k + 1)))
    (same : ∀ h : k < table.objects.size,
      (change table.objects[k]).shape = table.objects[k].shape) :
    Mirrored start first written globals
      { table with objects := table.objects.modify k change } := by
  have shape := ObjectTable.shape_modify same
  have defaults := defaults_of_sameOutside mirrored.objectsAgree frame defaultsApart
  refine ⟨mirrored.globalsAgree.of_sameOutside frame globalsApart, ⟨defaults, ?_⟩,
    mirrored.separated.congr rfl shape, mirrored.tidy.congr shape, mirrored.base,
    shape.trans mirrored.shape⟩
  intro i h
  have h' : i < table.objects.size := by simpa using h
  simp only [Array.getElem_modify]
  split
  next equal =>
    subst equal
    exact changed h'
  next different =>
    have agrees := mirrored.objectsAgree.objects i h'
    refine ⟨agrees.toRecordAgrees.of_sameOutside frame
      (recordsApart i h' (Ne.symm different)), ?_⟩
    intro property member
    exact (agrees.properties property member).of_sameOutside frame
      (propertiesApart i h' (Ne.symm different) property member)

/-- A link written to its byte agrees. -/
theorem Object.RecordAgrees.withLink {object : Object} {record : Nat}
    (agrees : object.RecordAgrees memory record) {link : Link} {target : UInt8}
    (frame : memory.SameOutside written (record + link.offset) 1)
    (byte : written.getByte (record + link.offset) = .ok target) :
    (object.withLink link target).RecordAgrees written record := by
  constructor
  · intro i h
    have offset : 4 ≤ link.offset := by cases link <;> decide
    rw [frame.getByte (record + i) (by omega)]
    have same : (object.withLink link target).attributes = object.attributes := by
      cases link <;> rfl
    rw [agrees.attributes i h]
    simp only [same]
  · intro other
    by_cases same : other = link
    · subst same
      rw [byte]
      cases other <;> rfl
    · have offset : other.offset ≠ link.offset := by
        revert same
        cases other <;> cases link <;> decide
      have kept : (object.withLink link target).link other = object.link other := by
        revert same
        cases other <;> cases link <;> simp [Object.withLink, Object.link]
      rw [kept, frame.getByte (record + other.offset) (by omega)]
      exact agrees.links other

/-- An attribute byte written to its place agrees. -/
theorem Object.RecordAgrees.withAttribute {object : Object} {record : Nat}
    (agrees : object.RecordAgrees memory record) {flag : Attribute} {value : Bool}
    (frame : memory.SameOutside written (record + flag.byte.val) 1)
    (byte : written.getByte (record + flag.byte.val) =
      .ok ((object.withAttribute flag value).attributeByte flag)) :
    (object.withAttribute flag value).RecordAgrees written record := by
  have inside : flag.byte.val < 4 := flag.byte.isLt
  constructor
  · intro i h
    by_cases same : i = flag.byte.val
    · subst same
      exact byte
    · rw [frame.getByte (record + i) (by omega), agrees.attributes i h]
      simp [Object.withAttribute, Vector.getElem_set_ne, Ne.symm same]
  · intro link
    have offset : 4 ≤ link.offset := by cases link <;> decide
    rw [frame.getByte (record + link.offset) (by omega), agrees.links link]
    cases link <;> rfl

/-- An object of the table is the one whose record has its number. -/
theorem ObjectTable.RecordsAgree.exists_object (agrees : table.RecordsAgree memory)
    {number : UInt16} (nonzero : number ≠ 0) (inside : number.toNat ≤ table.size) :
    ∃ object, table.object number = .ok object ∧
      object.RecordAgrees memory (table.record number.toNat) := by
  obtain ⟨k, number_eq⟩ := exists_toNat_eq_succ nonzero
  have h : number.toNat - 1 < table.objects.size := by
    simp only [ObjectTable.size] at inside
    omega
  refine ⟨_, (ObjectTable.object_eq_ok nonzero).2 ⟨h, rfl⟩, ?_⟩
  have agree := agrees _ h
  rwa [Nat.sub_add_cancel (by omega)] at agree

/-- A byte written to one record meets no other, so the records agree when that one agrees
afterwards. -/
theorem ObjectTable.RecordsAgree.modify (agrees : table.RecordsAgree memory) {offset : Nat}
    (offsetInside : offset < recordLength)
    (frame : memory.SameOutside written (table.record (k + 1) + offset) 1)
    (changed : ∀ h : k < table.objects.size,
      (change table.objects[k]).RecordAgrees written (table.record (k + 1))) :
    ({ table with objects := table.objects.modify k change } : ObjectTable).RecordsAgree
      written := by
  intro i h
  have h' : i < table.objects.size := by simpa using h
  simp only [Array.getElem_modify]
  split
  next same =>
    subst same
    exact changed h'
  next different =>
    refine (agrees i h').of_sameOutside frame ?_
    have apart := table.recordRegion_apart (Ne.symm different)
    refine apart.part (Nat.le_add_right _ _) ?_
    simp only [ObjectTable.recordRegion]
    omega

theorem Property.place_withValue (property : Property) (value : UInt16) :
    (property.withValue value).place = property.place := by
  simp only [Property.withValue]
  split
  next => rfl
  next single => simp [Property.place, single]
  next longer => simp [Property.place, longer]

theorem Object.shape_withProperty (object : Object) (number : UInt8) (value : UInt16) :
    (object.withProperty number value).shape = object.shape := by
  simp only [Object.shape, Object.withProperty, Prod.mk.injEq, true_and, List.map_map]
  apply List.map_congr_left
  intro property _
  simp only [Function.comp]
  split
  next => exact property.place_withValue value
  next => rfl

/-- Changing the value of a property leaves the other properties of the object as they
are. -/
theorem Object.forall_mem_withProperty {p : Property → Prop} {object : Object} {found : Property}
    {number : UInt8} {value : UInt16} (distinct : (object.properties.map Property.number).Nodup)
    (member : found ∈ object.properties) (named : found.number = number)
    (changed : p (found.withValue value)) (others : ∀ old ∈ object.properties, old ≠ found → p old) :
    ∀ new ∈ (object.withProperty number value).properties, p new := by
  intro new newMember
  obtain ⟨old, oldMember, rfl⟩ := List.mem_map.1 newMember
  split
  next same =>
    have numbers : old.number = found.number := by
      rw [named]
      simpa using same
    have equal : old = found := List.inj_on_of_nodup_map distinct oldMember member numbers
    exact equal ▸ changed
  next different =>
    refine others old oldMember ?_
    rintro rfl
    simp [named] at different

/-- A byte written as the data of a property agrees. -/
theorem Property.Agrees.withValue_single {property : Property} {value : UInt16}
    (agrees : property.Agrees memory) (single : property.data.length = 1)
    (frame : memory.SameOutside written property.dataAddress 1)
    (byte : written.getByte property.dataAddress = .ok (lowByte value)) :
    (property.withValue value).Agrees written := by
  obtain ⟨old, data⟩ := List.length_eq_one_iff.1 single
  have inside := (Memory.slice_eq_ok.1 agrees).2.1
  simp only [Property.withValue]
  rw [data]
  refine Memory.slice_eq_ok.2 ⟨rfl, ?_, ?_⟩
  · rw [data] at inside
    rw [frame.size]
    exact inside
  · intro i h
    obtain rfl : i = 0 := by simpa using h
    exact byte

/-- A word written as the first data of a property agrees. -/
theorem Property.Agrees.withValue_word {property : Property} {value : UInt16}
    (agrees : property.Agrees memory) (longer : 2 ≤ property.data.length)
    (frame : memory.SameOutside written property.dataAddress 2)
    (high : written.getByte property.dataAddress = .ok (highByte value))
    (low : written.getByte (property.dataAddress + 1) = .ok (lowByte value)) :
    (property.withValue value).Agrees written := by
  obtain ⟨-, inside, reads⟩ := Memory.slice_eq_ok.1 agrees
  match data : property.data with
  | [] => simp [data] at longer
  | [_] => simp [data] at longer
  | first :: second :: rest =>
      simp only [Property.withValue]
      rw [data]
      refine Memory.slice_eq_ok.2 ⟨rfl, ?_, ?_⟩
      · rw [data] at inside
        rw [frame.size]
        exact inside
      · intro i h
        match i with
        | 0 => exact high
        | 1 => exact low
        | i + 2 =>
            show written.getByte (property.dataAddress + (i + 2)) = _
            rw [frame.getByte _ (by omega)]
            have read := reads (i + 2) (by simpa [data] using h)
            simpa [data] using read

/-- A byte written to the record of one object keeps agreement when the record
agrees afterwards. -/
theorem Mirrored.modifyRecord (mirrored : Mirrored start first memory globals table) {offset : Nat}
    (inside : k < table.size) (offsetInside : offset < recordLength)
    (frame : memory.SameOutside written (table.record (k + 1) + offset) 1)
    (changed : ∀ h : k < table.objects.size,
      (change table.objects[k]).RecordAgrees written (table.record (k + 1)))
    (properties : ∀ h : k < table.objects.size,
      (change table.objects[k]).properties = table.objects[k].properties)
    (same : ∀ h : k < table.objects.size,
      (change table.objects[k]).shape = table.objects[k].shape) :
    Mirrored start first written globals
      { table with objects := table.objects.modify k change } := by
  have part {region : Region} (apart : region.Apart (table.recordRegion (k + 1))) :
      region.Apart ⟨table.record (k + 1) + offset, 1⟩ := by
    refine apart.part ?_ ?_
    · exact Nat.le_add_right _ _
    · simp only [ObjectTable.recordRegion]
      omega
  have propertiesApart : ∀ i (h : i < table.objects.size),
      ∀ property ∈ table.objects[i].properties,
        property.region.Apart ⟨table.record (k + 1) + offset, 1⟩ := by
    intro i h property member
    exact part (mirrored.separated.record_apart inside
      (ObjectTable.mem_propertyRegions h member)).symm
  refine mirrored.modify frame
    (part (mirrored.separated.globals_apart (ObjectTable.recordRegion_mem_regions inside)))
    (part (table.defaultRegion_apart _))
    (fun i _ different => part (table.recordRegion_apart different))
    (fun i h _ => propertiesApart i h) (fun h => ⟨changed h, ?_⟩) same
  rw [properties h]
  intro property member
  exact ((mirrored.objectsAgree.objects k h).properties property member).of_sameOutside frame
    (propertiesApart k h property member)

/-- Data written to one property of one object keep agreement when that property
agrees afterwards. -/
theorem Mirrored.modifyProperty (mirrored : Mirrored start first memory globals table)
    {found : Property} {property : UInt8} {value : UInt16} (h : k < table.objects.size)
    (member : found ∈ table.objects[k].properties) (named : found.number = property)
    (frame : memory.SameOutside written found.dataAddress count)
    (inside : count ≤ found.data.length) (changed : (found.withValue value).Agrees written) :
    Mirrored start first written globals { table with
      objects := table.objects.modify k (·.withProperty property value) } := by
  have region := ObjectTable.mem_propertyRegions h member
  have part {other : Region} (apart : other.Apart found.region) :
      other.Apart ⟨found.dataAddress, count⟩ := by
    refine apart.part (Nat.le_refl _) ?_
    simp only [Property.region]
    omega
  have others : ∀ i (hi : i < table.objects.size), ∀ other ∈ table.objects[i].properties,
      i ≠ k ∨ other ≠ found → other.region.Apart ⟨found.dataAddress, count⟩ :=
    fun i hi other otherMember different =>
      part (ObjectTable.property_apart mirrored.separated.propertyRegions_apart hi h otherMember
        member different)
  refine mirrored.modify frame
    (part (mirrored.separated.globals_apart (List.mem_append_right _ region)))
    (part (mirrored.separated.default_apart region))
    (fun i hi _ => part (mirrored.separated.record_apart hi region))
    (fun i hi different other otherMember => others i hi other otherMember (.inl different))
    (fun h => ⟨?_, ?_⟩) (fun h => ?_)
  · have agrees := (mirrored.objectsAgree.objects k h).toRecordAgrees.of_sameOutside frame
      (part (mirrored.separated.record_apart h region))
    exact ⟨agrees.attributes, agrees.links⟩
  · refine Object.forall_mem_withProperty (mirrored.tidy k h).distinct member named changed ?_
    intro old oldMember other
    exact ((mirrored.objectsAgree.objects k h).properties old oldMember).of_sameOutside frame
      (others k h old oldMember (.inr other))
  · exact Object.shape_withProperty _ property value

end Edit

namespace ObjectStore

variable {start : Nat} {first : ObjectTable} {globals : Globals} {store edited : ObjectStore}

/-- Setting a link keeps agreement. -/
theorem setLink_mirrored {link : Link} {number target : UInt16} {u : Unit}
    (mirrored : Mirrored start first store.memory globals store.table)
    (edit : setLink link number target store = .ok u edited) :
    Mirrored start first edited.memory globals edited.table := by
  rcases setLink_eq_ok.1 edit with ⟨-, rfl⟩ | ⟨nonzero, -, inside, memory, write, rfl⟩
  · exact mirrored
  · obtain ⟨frame, byte⟩ := Memory.setByte_eq_ok write
    obtain ⟨k, number_eq⟩ := exists_toNat_eq_succ nonzero
    rw [number_eq] at frame byte inside
    simp only [number_eq, Nat.add_sub_cancel]
    refine mirrored.modifyRecord inside (by cases link <;> decide) frame
      (fun h => (mirrored.objectsAgree.objects k h).toRecordAgrees.withLink frame byte) ?_ ?_
    · intro h
      cases link <;> rfl
    · intro h
      cases link <;> rfl

/-- Setting a flag keeps agreement. -/
theorem setAttribute_mirrored {number flag : UInt16} {value : Bool} {u : Unit}
    (mirrored : Mirrored start first store.memory globals store.table)
    (edit : setAttribute number flag value store = .ok u edited) :
    Mirrored start first edited.memory globals edited.table := by
  rcases setAttribute_eq_ok edit with rfl | ⟨h, known, memory, nonzero, write, rfl⟩
  · exact mirrored
  · obtain ⟨frame, byte⟩ := Memory.setByte_eq_ok write
    obtain ⟨k, number_eq⟩ := exists_toNat_eq_succ nonzero
    simp only [number_eq, Nat.add_sub_cancel] at h frame byte ⊢
    have offset : known.byte.val < recordLength := Nat.lt_trans known.byte.isLt (by decide)
    exact mirrored.modifyRecord h offset frame
      (fun h => (mirrored.objectsAgree.objects k h).toRecordAgrees.withAttribute frame byte)
      (fun _ => rfl) (fun _ => rfl)

/-- Setting a property writes its new data over the old, one byte or two. -/
theorem setProperty_writes {number : UInt16} {property : UInt8} {value : UInt16} {u : Unit}
    (tidy : store.table.Tidy)
    (agree : ∀ i (h : i < store.table.objects.size), ∀ property ∈ store.table.objects[i].properties,
      property.Agrees store.memory)
    (edit : setProperty number property value store = .ok u edited) :
    ∃ (h : number.toNat - 1 < store.table.objects.size) (found : Property),
      store.table.objects[number.toNat - 1].property? property = some found ∧
      store.memory.SameOutside edited.memory found.dataAddress (min 2 found.data.length) ∧
      (found.withValue value).Agrees edited.memory ∧
      edited.table = { store.table with
        objects := store.table.objects.modify (number.toNat - 1)
          (·.withProperty property value) } := by
  obtain ⟨h, found, memory, has, write, rfl⟩ := setProperty_eq_ok edit
  have member := List.mem_of_find?_eq_some has
  have agrees := agree _ h found member
  have nonempty := List.length_pos_iff.2 ((tidy _ h).nonempty found member)
  rcases write with ⟨single, write⟩ | ⟨other, write⟩
  · obtain ⟨frame, byte⟩ := Memory.setByte_eq_ok write
    refine ⟨h, found, has, ?_, agrees.withValue_single single frame byte, rfl⟩
    rw [single]
    exact frame
  · obtain ⟨frame, high, low⟩ := Memory.setWord_eq_ok write
    have longer : 2 ≤ found.data.length := by omega
    refine ⟨h, found, has, ?_, agrees.withValue_word longer frame high low, rfl⟩
    rw [Nat.min_eq_left longer]
    exact frame

/-- Setting a property keeps agreement. -/
theorem setProperty_mirrored {number : UInt16} {property : UInt8} {value : UInt16} {u : Unit}
    (mirrored : Mirrored start first store.memory globals store.table)
    (edit : setProperty number property value store = .ok u edited) :
    Mirrored start first edited.memory globals edited.table := by
  obtain ⟨h, found, has, frame, changed, table⟩ := setProperty_writes mirrored.tidy
    (fun i h => (mirrored.objectsAgree.objects i h).properties) edit
  have member := List.mem_of_find?_eq_some has
  rw [table]
  exact mirrored.modifyProperty h member (Object.number_of_has has) frame (Nat.min_le_right _ _) changed

/-- Inserting an object sets links, and keeps agreement. -/
theorem insert_mirrored {number destination : UInt16} {u : Unit}
    (mirrored : Mirrored start first store.memory globals store.table)
    (edit : insert number destination store = .ok u edited) :
    Mirrored start first edited.memory globals edited.table := by
  simp only [insert] at edit
  split at edit
  next => exact absurd edit throw_ne_ok
  next =>
    simp only [bind_eq_ok, asking_eq_ok] at edit
    obtain ⟨_, _, ⟨-, rfl⟩, _, _, parent, _, _, sibling, child⟩ := edit
    exact setLink_mirrored (setLink_mirrored (setLink_mirrored mirrored parent) sibling) child

theorem unlink_mirrored {parent number sibling : UInt16} {u : Unit}
    (mirrored : Mirrored start first store.memory globals store.table)
    (edit : unlink parent number sibling store = .ok u edited) :
    Mirrored start first edited.memory globals edited.table := by
  simp only [unlink, bind_eq_ok, asking_eq_ok] at edit
  obtain ⟨first, _, ⟨-, rfl⟩, edit⟩ := edit
  split at edit
  next => exact setLink_mirrored mirrored edit
  next =>
    simp only [bind_eq_ok, asking_eq_ok] at edit
    obtain ⟨predecessor, _, ⟨-, rfl⟩, edit⟩ := edit
    cases predecessor with
    | found before => exact setLink_mirrored mirrored edit
    | absent =>
        cases edit
        exact mirrored
    | endless =>
        cases edit
        exact mirrored

/-- Removing an object sets links, and keeps agreement. -/
theorem remove_mirrored {number : UInt16} {u : Unit}
    (mirrored : Mirrored start first store.memory globals store.table)
    (edit : remove number store = .ok u edited) :
    Mirrored start first edited.memory globals edited.table := by
  simp only [remove, bind_eq_ok, asking_eq_ok] at edit
  obtain ⟨parent, _, ⟨-, rfl⟩, edit⟩ := edit
  split at edit
  next =>
    cases edit
    exact mirrored
  next =>
    simp only [bind_eq_ok, asking_eq_ok] at edit
    obtain ⟨_, _, ⟨-, rfl⟩, _, _, gap, _, _, parentCleared, siblingCleared⟩ := edit
    exact setLink_mirrored (setLink_mirrored (unlink_mirrored mirrored gap) parentCleared)
      siblingCleared

end ObjectStore

end StoryMachine
