import StoryMachine.Proofs.Object.Refusal
import StoryMachine.Proofs.Table.Readable

/-!
# How far the object table reaches

Nothing in an image says how many objects it has.  The records are taken to end
where the name of the first object begins, which its own record tells.  So the
number of objects is a matter of arithmetic on one word (`size_readObjects`), also
when that word points to the middle of a record or to before the first.

A number beyond the last object is no mistake that reading can make good.  All that
asks for an object, and all that edits one, turns it down (`ObjectStore.Rejects`).
-/

namespace StoryMachine

variable {memory : Memory} {abbreviations : Abbreviations}

/-! ## The number of objects -/

namespace ObjectTable

/-- Records are read up to the property header of the first object, the last of them as a
whole, but at least one and no more than the limit. -/
theorem size_readObjects {first limit : Nat} {header : UInt16}
    (readHeader : memory.getWord (first + 7) = .ok header) {objects result : Array Object}
    (known : ∀ h : 0 < objects.size, objects[0].propertyHeader = header)
    (readAll : readObjects memory abbreviations first limit objects = .ok result) :
    result.size = min (objects.size + limit)
      (max objects.size (max 1 ((header.toNat - first + (recordLength - 1)) / recordLength))) := by
  induction limit generalizing objects with
  | zero =>
      cases readAll
      simp only [recordLength]
      omega
  | succ limit ih =>
      have past := pastRecords_iff (first + recordLength * objects.size) known
      simp only [recordLength] at past
      simp only [readObjects] at readAll
      split at readAll
      next isPast =>
        obtain ⟨nonempty, behind⟩ := past.1 isPast
        cases readAll
        simp only [recordLength]
        omega
      next isMore =>
        obtain ⟨object, isRead, readAll⟩ := except_bind_eq_ok.1 readAll
        have size := ih (propertyHeader_push readHeader known isRead) readAll
        rw [Array.size_push] at size
        have more : objects.size = 0 ∨ first + 9 * objects.size < header.toNat := by
          by_cases empty : objects.size = 0
          · exact .inl empty
          · have nonempty : 0 < objects.size := Nat.pos_of_ne_zero empty
            exact .inr (Nat.not_le.1 fun behind => isMore (past.2 ⟨nonempty, behind⟩))
        simp only [recordLength] at size ⊢
        omega

end ObjectTable

/-! ## Numbers beyond the last object -/

namespace ObjectStore

/-- Whatever asks for the object of a number, or edits it, fails for that number and
changes nothing.  Of two objects that are both not there, an insertion names the one
that was to receive the other. -/
structure Rejects (store : ObjectStore) (number : UInt16) : Prop where
  object : store.table.object number = .error (.invalidObject number)
  link : ∀ link, store.table.link link number = .error (.invalidObject number)
  name : store.table.name number = .error (.invalidObject number)
  testAttribute : ∀ flag, store.table.testAttribute number flag = .error (.invalidObject number)
  property : ∀ property, store.table.property number property = .error (.invalidObject number)
  propertyAddress : ∀ property,
    store.table.propertyAddress number property = .error (.invalidObject number)
  nextProperty : ∀ property,
    store.table.nextProperty number property = .error (.invalidObject number)
  setAttribute : ∀ flag value,
    setAttribute number flag value store = .error (.invalidObject number) store
  setProperty : ∀ property value,
    setProperty number property value store = .error (.invalidObject number) store
  remove : remove number store = .error (.invalidObject number) store
  insert : ∀ destination, insert number destination store =
    .error (.invalidObject
      (if store.table.size < destination.toNat then destination else number)) store
  insertInto : ∀ child, ObjectStore.insert child number store =
    .error (.invalidObject (if child = 0 then 0 else number)) store

/-- Every number beyond the last object is turned down. -/
theorem rejects_of_size_lt {store : ObjectStore} {number : UInt16}
    (outside : store.table.size < number.toNat) : store.Rejects number := by
  have object := ObjectTable.object_of_size_lt outside
  have asking : asking (·.object number) store = .error (.invalidObject number) store :=
    asking_of_error object
  constructor
  case object => exact object
  case link =>
    intro link
    exact ObjectTable.link_of_size_lt outside
  case name =>
    rw [ObjectTable.name, object]
    rfl
  case testAttribute =>
    intro flag
    rw [ObjectTable.testAttribute, object]
    rfl
  case property =>
    intro property
    rw [ObjectTable.property, object]
    rfl
  case propertyAddress =>
    intro property
    rw [ObjectTable.propertyAddress, object]
    rfl
  case nextProperty =>
    intro property
    rw [ObjectTable.nextProperty, object]
    rfl
  case setAttribute =>
    intro flag value
    exact bind_of_error asking
  case setProperty =>
    intro property value
    exact bind_of_error asking
  case remove => exact bind_of_error (asking_of_error (ObjectTable.link_of_size_lt outside))
  case insert =>
    intro destination
    have nonzero : number ≠ 0 := by
      rintro rfl
      exact absurd outside (Nat.not_lt_zero _)
    split
    next outside' => exact insert_of_size_lt_destination nonzero outside'
    next destinationKnown => exact insert_of_size_lt (Nat.not_lt.1 destinationKnown) outside
  case insertInto =>
    intro child
    split
    next zero =>
      rw [ObjectStore.insert, if_pos zero]
      rfl
    next nonzero => exact insert_of_size_lt_destination nonzero outside

end ObjectStore

/-! ## Loaded tables -/

namespace ObjectTable

/-- What a loaded table holds, told by the bytes of the image.  There are as many objects
as records begin before the property header of the first, but at least 1 and at most 255.
Each of them has its flags, its links and its property header from its own record.  The
default values are the first words of the table.  Object 0 is the one that stands for
none, and no other number is the number of an object. -/
theorem load_extent {base : Nat} {table : ObjectTable}
    (loaded : load memory base abbreviations = .ok table) :
    (∃ header, memory.getWord (base + 62 + 7) = .ok header ∧
      table.size = min 255 (max 1 ((header.toNat - (base + 62) + 8) / 9))) ∧
    (∀ number : UInt16, 1 ≤ number.toNat → number.toNat ≤ table.size →
      table.record number.toNat = base + 62 + 9 * (number.toNat - 1) ∧
      ∃ object, table.object number = .ok object ∧
        object.RecordAgrees memory (table.record number.toNat) ∧
        memory.getWord (table.record number.toNat + 7) = .ok object.propertyHeader) ∧
    table.object 0 = .ok .inert ∧
    (∀ property : UInt8, 1 ≤ property.toNat → property.toNat ≤ 31 →
      memory.getWord (base + 2 * (property.toNat - 1)) = .ok (table.defaultValue property)) ∧
    ∀ number : UInt16, table.size < number.toNat → ObjectStore.Rejects ⟨memory, table⟩ number := by
  obtain ⟨rfl, -, -, reads⟩ := load_reads loaded
  obtain ⟨agrees, -, -⟩ := load_agrees loaded
  refine ⟨?_, ?_, rfl, fun _ => agrees.defaultValue, ?_⟩
  · obtain ⟨header, readHeader, -⟩ := succeeds_load.1 ⟨table, loaded⟩
    simp only [load, except_bind_eq_ok, except_pure_eq_ok] at loaded
    obtain ⟨defaults, -, objects, readAll, same⟩ := loaded
    have none : ∀ h : 0 < (#[] : Array Object).size,
        (#[] : Array Object)[0].propertyHeader = header := fun h => absurd h (Nat.lt_irrefl 0)
    have size := size_readObjects readHeader none readAll
    refine ⟨header, readHeader, ?_⟩
    rw [← same]
    show objects.size = _
    rw [size]
    simp [capacity, recordLength, firstRecord, defaultCount]
  · intro number positive small
    have nonzero : number ≠ 0 := by
      rintro rfl
      exact absurd positive (Nat.not_succ_le_zero 0)
    have h : number.toNat - 1 < table.objects.size := Nat.sub_one_lt_of_le positive small
    have read := reads _ h
    have place := agrees.recordsAgree _ h
    rw [Nat.sub_add_cancel positive] at read place
    exact ⟨rfl, _, (object_eq_ok nonzero).2 ⟨h, rfl⟩, place, Object.getWord_of_read read⟩
  · intro number outside
    exact @ObjectStore.rejects_of_size_lt ⟨memory, table⟩ number outside

/-- An object table whose first object has its name in the middle of the second record. -/
def crowdedTable : Memory :=
  let records : List UInt8 := [0, 0, 0, 0, 0, 0, 0, 0, 72] ++ List.replicate 9 0
  { bytes := (List.replicate (2 * defaultCount) 0 ++ records).toArray }

theorem load_extent_sample : ∃ table, load crowdedTable 0 default = .ok table ∧
    table.size = 2 ∧ table.record 2 = 71 ∧
    ObjectStore.setAttribute 3 0 true ⟨crowdedTable, table⟩ =
      .error (.invalidObject 3) ⟨crowdedTable, table⟩ := by
  have checked : ((load crowdedTable 0 default).toOption.any fun _ => true) = true := by
    decide +kernel
  obtain ⟨table, loaded, -⟩ := exists_of_toOption_any checked
  obtain ⟨⟨header, readHeader, size⟩, records, -, -, rejects⟩ := load_extent loaded
  cases readHeader
  have size : table.size = 2 := size
  have second := records 2 (by decide) (by rw [size]; decide)
  have third := rejects 3 (by rw [size]; decide)
  exact ⟨table, loaded, size, second.1, third.setAttribute 0 true⟩

end ObjectTable

end StoryMachine
