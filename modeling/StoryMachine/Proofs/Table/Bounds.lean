import StoryMachine.Proofs.Table.Mirror

/-!
# The tables lie inside the image

What the copies hold was read from the image, so the tables lie inside it
(`Globals.Agrees.within`, `ObjectTable.Agrees.inside`).  This depends on the size
of the image and on the shape of the tables alone.  It outlives agreement, which
a write through one copy can break where the regions of the tables overlap.

From it follows that nothing done to the tables leaves the image.  A refresh of
any range succeeds (`Globals.exists_refresh`, `ObjectTable.exists_refresh`).  An
edit of a link, a flag or a property is made as a whole or not at all (`Edited`),
and it writes only to the regions that are for edits (`ObjectStore.Confined`).
-/

namespace StoryMachine

/-! ## Regions inside an image -/

/-- A region lies inside an image of the given size. -/
def Region.Within (region : Region) (size : Nat) : Prop := region.start + region.length ≤ size

/-- An address lies outside a region. -/
def Region.Misses (region : Region) (address : Nat) : Prop :=
  address < region.start ∨ region.start + region.length ≤ address

instance (region : Region) (address : Nat) : Decidable (region.Misses address) :=
  inferInstanceAs (Decidable (address < region.start ∨ region.start + region.length ≤ address))

/-- A write inside a region changes no byte that the region misses. -/
theorem Region.Misses.getByte {region : Region} {x address count : Nat} {memory written : Memory}
    (misses : region.Misses x) (frame : memory.SameOutside written address count)
    (first : region.start ≤ address) (last : address + count ≤ region.start + region.length) :
    written.getByte x = memory.getByte x := by
  apply frame.getByte
  simp only [Misses] at misses
  omega

namespace ObjectTable

/-- The flags and links of an object, with which its record opens. -/
def fieldRegion (table : ObjectTable) (number : Nat) : Region := ⟨table.record number, 7⟩

/-- The regions that are for edits of objects: flags, links, and the data of
properties. -/
def editable (table : ObjectTable) : List Region :=
  (List.range' 1 table.size).map table.fieldRegion ++ table.propertyRegions

/-- The properties are tidy, and what the copy holds lies inside an image of the
given size. -/
structure Inside (table : ObjectTable) (size : Nat) : Prop where
  tidy : table.Tidy
  defaults : table.defaultRegion.Within size
  editable : ∀ region ∈ table.editable, region.Within size

variable {table other : ObjectTable} {size : Nat}

theorem editable_of_shape (same : other.shape = table.shape) :
    other.editable = table.editable := by
  have fields : other.fieldRegion = table.fieldRegion := by
    funext number
    simp only [fieldRegion, record, base_of_shape same]
  simp only [ObjectTable.editable, fields, propertyRegions_of_shape same, size_of_shape same]

theorem fieldRegion_mem_editable {i : Nat} (h : i < table.size) :
    table.fieldRegion (i + 1) ∈ table.editable := by
  refine List.mem_append_left _ (List.mem_map_of_mem ?_)
  rw [List.mem_range'_1]
  omega

theorem region_mem_editable {i : Nat} (h : i < table.objects.size) {property : Property}
    (member : property ∈ table.objects[i].properties) : property.region ∈ table.editable :=
  List.mem_append_right _ (mem_propertyRegions h member)

/-- Where a table lies depends on its shape alone. -/
theorem Inside.congr (inside : table.Inside size) (same : other.shape = table.shape) :
    other.Inside size where
  tidy := inside.tidy.congr same
  defaults := by
    rw [defaultRegion, base_of_shape same]
    exact inside.defaults
  editable := by
    rw [editable_of_shape same]
    exact inside.editable

/-- A table that agrees with an image lies inside it. -/
theorem Agrees.inside {memory : Memory} (agrees : table.Agrees memory) (tidy : table.Tidy) :
    table.Inside memory.size := by
  refine ⟨tidy, ?_, ?_⟩
  · have last := Memory.lt_size_of_getWord (agrees.defaults 30 (by decide))
    simp only [Region.Within, defaultRegion, defaultCount]
    omega
  · intro region member
    rcases List.mem_append.1 member with field | data
    · obtain ⟨number, numbered, rfl⟩ := List.mem_map.1 field
      rw [List.mem_range'_1] at numbered
      obtain ⟨i, rfl⟩ := Nat.exists_eq_add_of_le' numbered.1
      have h : i < table.objects.size := by
        simp only [ObjectTable.size] at numbered
        omega
      have last := Memory.lt_size_of_getByte ((agrees.objects i h).links .child)
      simp only [Region.Within, fieldRegion]
      exact last
    · obtain ⟨object, objectMember, propertyMember⟩ := List.mem_flatMap.1 data
      obtain ⟨property, member, rfl⟩ := List.mem_map.1 propertyMember
      obtain ⟨i, h, rfl⟩ := List.getElem_of_mem objectMember
      have agrees := (agrees.objects i (by simpa using h)).properties property (by simpa using member)
      exact (Memory.slice_eq_ok.1 agrees).2.1

end ObjectTable

/-- Global variables that agree with an image lie inside it. -/
theorem Globals.Agrees.within {globals : Globals} {memory : Memory}
    (agrees : globals.Agrees memory) : globals.region.Within memory.size := by
  have last := Memory.lt_size_of_getWord (agrees 239 (by decide))
  simp only [Globals.address] at last
  simp only [Region.Within, Globals.region, globalCount]
  omega

/-! ## Global variables -/

namespace Globals

variable {globals : Globals} {memory : Memory}

/-- The cells that a range touches can be read again. -/
theorem exists_refresh (within : globals.region.Within memory.size) (address count : Nat) :
    ∃ refreshed, globals.refresh memory address count = .ok refreshed ∧
      refreshed.base = globals.base := by
  simp only [refresh]
  generalize globals.touched address count = indexes
  induction indexes generalizing globals with
  | nil => exact ⟨globals, rfl, rfl⟩
  | cons index rest ih =>
      have first : ∃ reloaded, globals.reload memory index = .ok reloaded ∧
          reloaded.base = globals.base := by
        simp only [reload]
        split
        next h =>
          have last : globals.address index + 1 < memory.size := by
            simp only [Region.Within, region, globalCount] at within h
            simp only [Globals.address]
            omega
          obtain ⟨word, read⟩ := Memory.exists_getWord last
          rw [read]
          exact ⟨_, rfl, rfl⟩
        next => exact ⟨globals, rfl, rfl⟩
      obtain ⟨reloaded, run, base⟩ := first
      have within : reloaded.region.Within memory.size := by
        rw [region, base]
        exact within
      obtain ⟨refreshed, rerun, same⟩ := ih within
      rw [List.foldlM_cons, run]
      exact ⟨refreshed, rerun, same.trans base⟩

/-- A variable of the table can be set. -/
theorem exists_set (within : globals.region.Within memory.size) {index : UInt8}
    (h : index.toNat < globalCount) (value : UInt16) :
    ∃ changed written, globals.set index value memory = .ok changed written := by
  have last : globals.address index.toNat + 1 < memory.size := by
    simp only [Region.Within, region, globalCount] at within h
    simp only [Globals.address]
    omega
  obtain ⟨written, write⟩ := Memory.exists_setWord value last
  refine ⟨{ globals with cells := globals.cells.set index.toNat value }, written, ?_⟩
  simp only [set]
  rw [dif_pos h]
  exact bind_eq_ok.2 ⟨(), written, write, rfl⟩

end Globals

/-! ## Refreshing objects -/

section Refresh

variable {memory : Memory} (address count : Nat)

theorem Property.exists_refresh {property : Property}
    (within : property.region.Within memory.size) :
    ∃ refreshed, property.refresh memory address count = .ok refreshed ∧
      refreshed.place = property.place := by
  simp only [Property.refresh]
  split
  next =>
    obtain ⟨data, read⟩ := Memory.exists_slice within
    have length : data.length = property.data.length := (Memory.slice_eq_ok.1 read).1
    refine ⟨{ property with data }, ?_, by simp only [Property.place, length]⟩
    rw [show memory.slice property.dataAddress property.data.length = .ok data from read]
    rfl
  next => exact ⟨property, rfl, rfl⟩

theorem Property.exists_mapM_refresh : ∀ {properties : List Property},
    (∀ property ∈ properties, property.region.Within memory.size) →
    ∃ refreshed, properties.mapM (Property.refresh memory address count) = .ok refreshed ∧
      refreshed.map Property.place = properties.map Property.place
  | [], _ => ⟨[], rfl, rfl⟩
  | property :: rest, within => by
      obtain ⟨first, refreshFirst, place⟩ := exists_refresh address count (within property (.head _))
      obtain ⟨others, refreshRest, places⟩ :=
        exists_mapM_refresh fun other member => within other (.tail _ member)
      refine ⟨first :: others, ?_, by rw [List.map_cons, List.map_cons, place, places]⟩
      rw [List.mapM_cons, refreshFirst, refreshRest]
      rfl

theorem Object.exists_refreshRecord (object : Object) {record : Nat}
    (within : record + 7 ≤ memory.size) :
    ∃ refreshed, object.refreshRecord memory record = .ok refreshed := by
  obtain ⟨attributes, read⟩ := exists_readAttributes (show record + 3 < memory.size by omega)
  obtain ⟨parent, readParent⟩ := exists_readLink within .parent
  obtain ⟨sibling, readSibling⟩ := exists_readLink within .sibling
  obtain ⟨child, readChild⟩ := exists_readLink within .child
  refine ⟨{ object with attributes, parent, sibling, child }, ?_⟩
  simp only [refreshRecord, except_bind_eq_ok, except_pure_eq_ok]
  exact ⟨attributes, read, parent, readParent, sibling, readSibling, child, readChild, rfl⟩

theorem Object.exists_refresh {object : Object} {record : Nat}
    (within : record + 7 ≤ memory.size)
    (properties : ∀ property ∈ object.properties, property.region.Within memory.size) :
    ∃ refreshed, object.refresh memory address count record = .ok refreshed ∧
      refreshed.shape = object.shape := by
  obtain ⟨refreshed, run, places⟩ := Property.exists_mapM_refresh address count properties
  simp only [Object.refresh]
  split
  next =>
    obtain ⟨middle, fields⟩ := object.exists_refreshRecord within
    obtain ⟨-, shape, same⟩ := refreshRecord_agrees fields
    refine ⟨{ middle with properties := refreshed }, ?_, ?_⟩
    · simp only [except_bind_eq_ok, except_pure_eq_ok]
      exact ⟨middle, fields, refreshed, same ▸ run, rfl⟩
    · rw [← shape, Object.shape, Object.shape, same, places]
  next =>
    refine ⟨{ object with properties := refreshed }, ?_, by simp only [Object.shape, places]⟩
    simp only [except_bind_eq_ok, except_pure_eq_ok]
    exact ⟨object, rfl, refreshed, run, rfl⟩

namespace ObjectTable

theorem exists_refreshObjects : ∀ {record : Nat} {objects : List Object},
    (∀ i, i < objects.length → record + recordLength * i + 7 ≤ memory.size) →
    (∀ object ∈ objects, ∀ property ∈ object.properties, property.region.Within memory.size) →
    ∃ refreshed, refreshObjects memory address count record objects = .ok refreshed ∧
      refreshed.map Object.shape = objects.map Object.shape
  | _, [], _, _ => ⟨[], rfl, rfl⟩
  | record, object :: rest, records, properties => by
      obtain ⟨first, refreshFirst, shape⟩ :=
        Object.exists_refresh address count (records 0 (Nat.zero_lt_succ _))
          (properties object (.head _))
      have records : ∀ i, i < rest.length →
          record + recordLength + recordLength * i + 7 ≤ memory.size := by
        intro i h
        have later := records (i + 1) (Nat.succ_lt_succ h)
        rw [Nat.mul_add_one] at later
        omega
      obtain ⟨others, refreshRest, shapes⟩ :=
        exists_refreshObjects records fun other member => properties other (.tail _ member)
      refine ⟨first :: others, ?_, by rw [List.map_cons, List.map_cons, shape, shapes]⟩
      simp only [refreshObjects, except_bind_eq_ok, except_pure_eq_ok]
      exact ⟨first, refreshFirst, others, refreshRest, rfl⟩

/-- What a range touches of a table can be read again. -/
theorem exists_refresh {table : ObjectTable} (inside : table.Inside memory.size) :
    ∃ refreshed, table.refresh memory address count = .ok refreshed ∧
      refreshed.shape = table.shape := by
  have records : ∀ i, i < table.objects.toList.length →
      firstRecord table.base + recordLength * i + 7 ≤ memory.size := by
    intro i h
    exact inside.editable _ (fieldRegion_mem_editable (by simpa [ObjectTable.size] using h))
  have properties : ∀ object ∈ table.objects.toList, ∀ property ∈ object.properties,
      property.region.Within memory.size := by
    intro object member property propertyMember
    obtain ⟨i, h, rfl⟩ := List.getElem_of_mem member
    exact inside.editable _ (region_mem_editable (by simpa using h) (by simpa using propertyMember))
  obtain ⟨objects, run, shapes⟩ := exists_refreshObjects address count records properties
  simp only [ObjectTable.refresh]
  split
  next =>
    obtain ⟨defaults, read⟩ := Memory.exists_getWords inside.defaults
    refine ⟨{ table with defaults, objects := objects.toArray }, ?_,
      by simp only [ObjectTable.shape, shapes]⟩
    simp only [except_bind_eq_ok, except_pure_eq_ok]
    exact ⟨defaults, read, objects, run, rfl⟩
  next =>
    refine ⟨{ table with objects := objects.toArray }, ?_,
      by simp only [ObjectTable.shape, shapes]⟩
    simp only [except_bind_eq_ok, except_pure_eq_ok]
    exact ⟨table.defaults, rfl, objects, run, rfl⟩

end ObjectTable

end Refresh

/-! ## Edits -/

theorem ObjectTable.object_failsOnly (table : ObjectTable) (number : UInt16) :
    FailsOnly (∀ address size, · ≠ .outOfBounds address size) (table.object number) := by
  simp only [object]
  split
  next => exact .ok _
  next =>
    split
    next => exact .ok _
    next => exact FailsOnly.error.2 fun _ _ => Error.noConfusion

namespace ObjectStore

/-- A store has become another: the image has its size, the table its shape, and
no byte outside the regions for edits has changed. -/
structure Confined (store edited : ObjectStore) : Prop where
  size : edited.memory.size = store.memory.size
  shape : edited.table.shape = store.table.shape
  getByte : ∀ x, (∀ region ∈ store.table.editable, region.Misses x) →
    edited.memory.getByte x = store.memory.getByte x

namespace Confined

variable {store middle edited : ObjectStore}

theorem refl (store : ObjectStore) : store.Confined store := ⟨rfl, rfl, fun _ _ => rfl⟩

theorem trans (first : store.Confined middle) (second : middle.Confined edited) :
    store.Confined edited where
  size := second.size.trans first.size
  shape := second.shape.trans first.shape
  getByte := by
    intro x misses
    refine (second.getByte x ?_).trans (first.getByte x misses)
    rw [ObjectTable.editable_of_shape first.shape]
    exact misses

theorem inside (confined : store.Confined edited)
    (inside : store.table.Inside store.memory.size) : edited.table.Inside edited.memory.size := by
  rw [confined.size]
  exact inside.congr confined.shape

end Confined

/-- What comes of an edit that is made as a whole or not at all: a confined change
of the store, or the store as it was and a cause that is no failed access. -/
inductive Edited {α : Type} (store : ObjectStore) : EStateM.Result Error ObjectStore α → Prop where
  | done {a : α} {edited : ObjectStore} : store.Confined edited → Edited store (.ok a edited)
  | refused {e : Error} :
      (∀ address size, e ≠ .outOfBounds address size) → Edited store (.error e store)

namespace Edited

variable {α β : Type} {store : ObjectStore}

theorem asking {question : ObjectTable → Except Error α} {next : α → Edit β}
    (fails : FailsOnly (∀ address size, · ≠ .outOfBounds address size) (question store.table))
    (rest : ∀ a, question store.table = .ok a → Edited store (next a store)) :
    Edited store ((ObjectStore.asking question >>= next) store) := by
  show Edited store (EStateM.bind (ObjectStore.asking question) next store)
  simp only [EStateM.bind, ObjectStore.asking]
  cases answer : question store.table with
  | ok a => exact rest a answer
  | error e => exact .refused (fails e answer)

theorem of_error {e : Error} {edit : Edit α} {edited : ObjectStore}
    (result : Edited store (edit store)) (failed : edit store = .error e edited) :
    edited = store ∧ ∀ address size, e ≠ .outOfBounds address size := by
  rw [failed] at result
  cases result with
  | refused other => exact ⟨rfl, other⟩

theorem of_exists {result : EStateM.Result Error ObjectStore α} {a : α}
    (made : ∃ edited, result = .ok a edited ∧ store.Confined edited) : Edited store result := by
  obtain ⟨edited, rfl, confined⟩ := made
  exact .done confined

end Edited

variable {store : ObjectStore}

/-- An object is changed in the copy, and then a part of a region for edits in
memory. -/
theorem exists_write {number : UInt16} {change : Object → Object} {update : Memory.Update Unit}
    {memory : Memory} {region : Region} {address count : Nat}
    (shape : ∀ h : number.toNat - 1 < store.table.objects.size,
      (change store.table.objects[number.toNat - 1]).shape =
        store.table.objects[number.toNat - 1].shape)
    (updated : update store.memory = .ok () memory)
    (frame : store.memory.SameOutside memory address count)
    (member : region ∈ store.table.editable) (first : region.start ≤ address)
    (last : address + count ≤ region.start + region.length) :
    ∃ edited, (do modifyObject number change; onMemory update : Edit Unit) store =
      .ok () edited ∧ store.Confined edited := by
  refine ⟨{ memory, table := { store.table with
    objects := store.table.objects.modify (number.toNat - 1) change } }, ?_, ?_⟩
  · simp only [bind_eq_ok, modifyObject_eq_ok, onMemory_eq_ok]
    exact ⟨(), _, rfl, memory, updated, rfl⟩
  · exact ⟨frame.size, ObjectTable.shape_modify shape,
      fun x misses => (misses region member).getByte frame first last⟩

/-- A flag or a link is written to its byte of the record. -/
theorem exists_writeField (inside : store.table.Inside store.memory.size) {number : UInt16}
    (change : Object → Object) {offset : Nat} (value : UInt8) (nonzero : number ≠ 0)
    (known : number.toNat ≤ store.table.size) (field : offset < 7)
    (shape : ∀ h : number.toNat - 1 < store.table.objects.size,
      (change store.table.objects[number.toNat - 1]).shape =
        store.table.objects[number.toNat - 1].shape) :
    ∃ edited, (do
        modifyObject number change
        onMemory (Memory.setByte (store.table.record number.toNat + offset) value) : Edit Unit)
        store = .ok () edited ∧ store.Confined edited := by
  obtain ⟨k, number_eq⟩ := exists_toNat_eq_succ nonzero
  have member := ObjectTable.fieldRegion_mem_editable (Nat.lt_of_succ_le (number_eq ▸ known))
  rw [← number_eq] at member
  have within : store.table.record number.toNat + 7 ≤ store.memory.size :=
    inside.editable _ member
  obtain ⟨memory, updated⟩ := Memory.exists_setByte value (Nat.lt_of_lt_of_le
    (Nat.add_lt_add_left field (store.table.record number.toNat)) within)
  exact exists_write shape updated (Memory.setByte_eq_ok updated).1 member (Nat.le_add_right _ _)
    (Nat.add_le_add_left field (store.table.record number.toNat))

theorem exists_writeLink (inside : store.table.Inside store.memory.size) (link : Link)
    {number : UInt16} (target : UInt8) (nonzero : number ≠ 0)
    (known : number.toNat ≤ store.table.size) :
    ∃ edited, (do
        modifyObject number (·.withLink link target)
        onMemory (Memory.setByte (store.table.record number.toNat + link.offset) target) :
          Edit Unit) store = .ok () edited ∧ store.Confined edited := by
  have offset : link.offset < 7 := by cases link <;> decide
  refine exists_writeField inside _ target nonzero known offset ?_
  intro h
  cases link <;> rfl

theorem setLink_edited (inside : store.table.Inside store.memory.size) (link : Link)
    (number target : UInt16) : Edited store (setLink link number target store) := by
  show Edited store ((if number = 0 then _ else _ : Edit Unit) store)
  split
  next => exact .done (.refl store)
  next nonzero =>
    split
    next => exact .refused fun _ _ => Error.noConfusion
    next =>
      split
      next => exact .refused fun _ _ => Error.noConfusion
      next known =>
        exact .of_exists (exists_writeLink inside link _ nonzero (Nat.not_lt.1 known))

/-- A link of an object can be led to every object of the table, and to none. -/
theorem exists_setLink (inside : store.table.Inside store.memory.size) (link : Link)
    {number target : UInt16} (nonzero : number ≠ 0) (known : number.toNat ≤ store.table.size)
    (targetKnown : target.toNat ≤ store.table.size) :
    ∃ edited, setLink link number target store = .ok () edited := by
  obtain ⟨edited, run, -⟩ := exists_writeLink inside link (lowByte target) nonzero known
  refine ⟨edited, ?_⟩
  rw [← run]
  show (if number = 0 then _ else _ : Edit Unit) store = _
  rw [if_neg nonzero, if_neg (Nat.not_lt.2 targetKnown), if_neg (Nat.not_lt.2 known)]

theorem setAttribute_edited (inside : store.table.Inside store.memory.size)
    (number flag : UInt16) (value : Bool) :
    Edited store (setAttribute number flag value store) := by
  refine .asking (store.table.object_failsOnly number) ?_
  intro object asked
  cases Attribute.ofWord? flag with
  | none => exact .done (.refl store)
  | some known =>
      dsimp only
      split
      next => exact .done (.refl store)
      next nonzero =>
        obtain ⟨h, rfl⟩ := (ObjectTable.object_eq_ok nonzero).1 asked
        have field : known.byte.val < 7 := Nat.lt_trans known.byte.isLt (by decide)
        exact .of_exists
          (exists_writeField inside _ _ nonzero (Nat.le_of_pred_lt h) field fun _ => rfl)

/-- A property that the object has can be set. -/
theorem exists_setProperty (inside : store.table.Inside store.memory.size) {number : UInt16}
    {property : UInt8} {object : Object} {found : Property}
    (asked : store.table.object number = .ok object)
    (has : object.property? property = some found) (value : UInt16) :
    ∃ edited, setProperty number property value store = .ok () edited ∧ store.Confined edited := by
  have nonzero := ObjectTable.ne_zero_of_has asked has
  obtain ⟨h, rfl⟩ := (ObjectTable.object_eq_ok nonzero).1 asked
  have member := List.mem_of_find?_eq_some has
  have editable := ObjectTable.region_mem_editable h member
  have within := inside.editable _ editable
  have nonempty := List.length_pos_iff.2 ((inside.tidy _ h).nonempty found member)
  have shape := Object.shape_withProperty store.table.objects[number.toNat - 1] property value
  simp only [Region.Within, Property.region] at within
  rw [setProperty, bind_of_ok (asking_eq_ok.2 ⟨asked, rfl⟩), has]
  by_cases single : found.data.length = 1
  · obtain ⟨memory, updated⟩ := Memory.exists_setByte (lowByte value)
      (Nat.lt_of_succ_le (single ▸ within))
    simp only [if_pos single]
    exact exists_write (fun _ => shape) updated (Memory.setByte_eq_ok updated).1 editable
      (Nat.le_refl _) (Nat.add_le_add_left nonempty _)
  · have longer : 2 ≤ found.data.length := by omega
    obtain ⟨memory, updated⟩ := Memory.exists_setWord value
      (Nat.lt_of_succ_le (Nat.le_trans (Nat.add_le_add_left longer _) within))
    simp only [if_neg single]
    exact exists_write (fun _ => shape) updated (Memory.setWord_eq_ok updated).1 editable
      (Nat.le_refl _) (Nat.add_le_add_left longer _)

theorem setProperty_of_none {number : UInt16} {property : UInt8} {object : Object}
    (asked : store.table.object number = .ok object) (lacks : object.property? property = none)
    (value : UInt16) :
    setProperty number property value store = .error (.missingProperty number property) store := by
  rw [setProperty, bind_of_ok (asking_eq_ok.2 ⟨asked, rfl⟩), lacks]
  rfl

theorem setProperty_edited (inside : store.table.Inside store.memory.size) (number : UInt16)
    (property : UInt8) (value : UInt16) :
    Edited store (setProperty number property value store) := by
  cases asked : store.table.object number with
  | error e =>
      rw [setProperty, bind_of_error (asking_of_error asked)]
      exact .refused (store.table.object_failsOnly number e asked)
  | ok object =>
      cases has : object.property? property with
      | none =>
          rw [setProperty_of_none asked has]
          exact .refused fun _ _ => Error.noConfusion
      | some found => exact .of_exists (exists_setProperty inside asked has value)

/-! ## Moves -/

theorem Edited.confined {α : Type} {edit : Edit α} (edited : Edited store (edit store)) :
    store.Confined (leaves edit store) := by
  cases run : edit store with
  | ok a final =>
      rw [run] at edited
      rw [leaves_of_ok run]
      cases edited with
      | done confined => exact confined
  | error e final =>
      rw [run] at edited
      rw [leaves_of_error run]
      cases edited with
      | refused => exact .refl store

/-- An edit that leaves a confined store, whether it succeeds or fails. -/
def Confines {α : Type} (edit : Edit α) : Prop :=
  ∀ store : ObjectStore, store.table.Inside store.memory.size →
    store.Confined (leaves edit store)

namespace Confines

variable {α β : Type}

theorem bind {first : Edit α} {next : α → Edit β} (confines : Confines first)
    (rest : ∀ a, Confines (next a)) : Confines (first >>= next) := by
  intro store inside
  have confined := confines store inside
  rcases leaves_bind first next store with same | ⟨a, same⟩
  · rw [same]
    exact confined
  · rw [same]
    exact confined.trans (rest a _ (confined.inside inside))

theorem pure (a : α) : Confines (Pure.pure a) := fun store _ => .refl store

theorem throw (e : Error) : Confines (throw e : Edit α) := fun store _ => .refl store

theorem asking (question : ObjectTable → Except Error α) : Confines (asking question) := by
  intro store inside
  cases answer : question store.table with
  | ok a =>
      simp only [leaves, ObjectStore.asking, answer]
      exact .refl store
  | error e =>
      simp only [leaves, ObjectStore.asking, answer]
      exact .refl store

theorem setLink (link : Link) (number target : UInt16) : Confines (setLink link number target) :=
  fun _ inside => (setLink_edited inside link number target).confined

theorem insert (number destination : UInt16) : Confines (insert number destination) := by
  simp only [ObjectStore.insert]
  split
  next => exact .throw _
  next =>
    exact .bind (.asking _) fun _ => .bind (.setLink _ _ _) fun _ => .bind (.setLink _ _ _) fun _ =>
      .setLink _ _ _

theorem unlink (parent number sibling : UInt16) : Confines (unlink parent number sibling) := by
  refine .bind (.asking _) ?_
  intro first
  split
  next => exact .setLink _ _ _
  next =>
    refine .bind (.asking _) ?_
    intro predecessor
    cases predecessor with
    | found before => exact .setLink _ _ _
    | absent => exact .pure _
    | endless => exact .pure _

theorem remove (number : UInt16) : Confines (remove number) := by
  refine .bind (.asking _) ?_
  intro parent
  split
  next => exact .pure _
  next =>
    exact .bind (.asking _) fun _ => .bind (.unlink _ _ _) fun _ => .bind (.setLink _ _ _) fun _ =>
      .setLink _ _ _

end Confines

end ObjectStore

end StoryMachine
