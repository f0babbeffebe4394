import StoryMachine.Object.Tree
import StoryMachine.Proofs.Sequencing

/-!
# What an edit of an object does

One lemma for each edit says what it does when it succeeds: which object of the
copy it changes and what it writes to memory.  Before these stand the answers of the
copy about an object and its properties.
-/

namespace StoryMachine

/-- Numbers of objects count from 1. -/
theorem exists_toNat_eq_succ {number : UInt16} (nonzero : number ≠ 0) :
    ∃ k, number.toNat = k + 1 :=
  Nat.exists_eq_succ_of_ne_zero fun zero => nonzero (UInt16.toNat_inj.1 zero)

theorem Object.number_of_has {object : Object} {number : UInt8} {found : Property}
    (has : object.property? number = some found) : found.number = number := by
  simpa using List.find?_some has

namespace ObjectTable

/-- The object of a number that is not 0 is the one at its place in the table. -/
theorem object_eq_ok {table : ObjectTable} {number : UInt16} {object : Object}
    (nonzero : number ≠ 0) :
    table.object number = .ok object ↔
      ∃ h : number.toNat - 1 < table.objects.size, table.objects[number.toNat - 1] = object := by
  simp only [ObjectTable.object]
  rw [if_neg nonzero]
  cases found : table.objects[number.toNat - 1]? with
  | none =>
      have outside := Array.getElem?_eq_none_iff.1 found
      constructor
      · intro h
        cases h
      · rintro ⟨h, -⟩
        exact absurd h (Nat.not_lt.2 outside)
  | some value =>
      obtain ⟨h, same⟩ := Array.getElem?_eq_some_iff.1 found
      simp [h, same]

variable {table : ObjectTable} {number : UInt16} {property : UInt8} {object : Object}
  (asked : table.object number = .ok object)

include asked

/-- Object 0 has no properties. -/
theorem ne_zero_of_has {found : Property} (has : object.property? property = some found) :
    number ≠ 0 := by
  rintro rfl
  cases asked
  cases has

theorem property_of_some {found : Property} (has : object.property? property = some found) :
    table.property number property = .ok found.value := by
  rw [ObjectTable.property, asked]
  simp only [bind, Except.bind, has]
  rfl

theorem property_of_none (lacks : object.property? property = none) :
    table.property number property = .ok (table.defaultValue property) := by
  rw [ObjectTable.property, asked]
  simp only [bind, Except.bind, lacks]
  rfl

theorem propertyAddress_of_some {found : Property} (has : object.property? property = some found) :
    table.propertyAddress number property = .ok (UInt16.ofNat found.dataAddress) := by
  rw [propertyAddress, asked]
  simp only [bind, Except.bind, has]
  rfl

theorem propertyAddress_of_none (lacks : object.property? property = none) :
    table.propertyAddress number property = .ok 0 := by
  rw [propertyAddress, asked]
  simp only [bind, Except.bind, lacks]
  rfl

end ObjectTable

namespace ObjectStore

variable {α : Type} {store edited : ObjectStore}

@[simp] theorem onMemory_eq_ok {update : Memory.Update α} {a : α} :
    onMemory update store = .ok a edited ↔
      ∃ memory, update store.memory = .ok a memory ∧ edited = { store with memory } := by
  cases run : update store.memory with
  | ok b memory =>
      simp only [onMemory, run]
      constructor
      · intro h
        cases h
        exact ⟨memory, rfl, rfl⟩
      · rintro ⟨_, same, rfl⟩
        cases same
        rfl
  | error e memory => simp [onMemory, run]

@[simp] theorem asking_eq_ok {question : ObjectTable → Except Error α} {a : α} :
    asking question store = .ok a edited ↔ question store.table = .ok a ∧ edited = store := by
  simp only [asking]
  cases question store.table with
  | ok b => simp [eq_comm]
  | error e => simp

theorem asking_of_error {question : ObjectTable → Except Error α} {e : Error}
    (failed : question store.table = .error e) : asking question store = .error e store := by
  simp only [asking, failed]

@[simp] theorem modifyObject_eq_ok {number : UInt16} {change : Object → Object} {u : Unit} :
    modifyObject number change store = .ok u edited ↔
      edited = { store with
        table.objects := store.table.objects.modify (number.toNat - 1) change } := by
  simp only [modifyObject]
  rw [modify_eq_ok, eq_comm]

/-- A link of an object is set in the copy and in its byte of the record. -/
theorem setLink_eq_ok {link : Link} {number target : UInt16} {u : Unit} :
    setLink link number target store = .ok u edited ↔
      (number = 0 ∧ edited = store) ∨
      (number ≠ 0 ∧ target.toNat ≤ store.table.size ∧ number.toNat ≤ store.table.size ∧
        ∃ memory, Memory.setByte (store.table.record number.toNat + link.offset) (lowByte target)
            store.memory = .ok () memory ∧
          edited = { memory, table := { store.table with
            objects := store.table.objects.modify (number.toNat - 1)
              (·.withLink link (lowByte target)) } }) := by
  simp only [setLink, bind_eq_ok, get_eq_ok]
  constructor
  · rintro ⟨_, _, ⟨rfl, rfl⟩, h⟩
    split at h
    next zero => exact .inl ⟨zero, (pure_eq_ok.1 h).2.symm⟩
    next nonzero =>
      split at h
      next => exact absurd h throw_ne_ok
      next inside =>
        split at h
        next => exact absurd h throw_ne_ok
        next inside' =>
          simp only [bind_eq_ok, modifyObject_eq_ok, onMemory_eq_ok] at h
          obtain ⟨_, _, rfl, memory, write, rfl⟩ := h
          exact .inr ⟨nonzero, Nat.not_lt.1 inside, Nat.not_lt.1 inside', memory, write, rfl⟩
  · rintro (⟨zero, rfl⟩ | ⟨nonzero, inside, inside', memory, write, rfl⟩)
    · refine ⟨_, _, ⟨rfl, rfl⟩, ?_⟩
      rw [if_pos zero]
      rfl
    · refine ⟨_, _, ⟨rfl, rfl⟩, ?_⟩
      rw [if_neg nonzero, if_neg (Nat.not_lt.2 inside), if_neg (Nat.not_lt.2 inside')]
      simp only [bind_eq_ok, modifyObject_eq_ok, onMemory_eq_ok]
      exact ⟨(), _, rfl, memory, write, rfl⟩

/-- A flag of an object is set in the copy and in its attribute byte of the
record. -/
theorem setAttribute_eq_ok {number flag : UInt16} {value : Bool} {u : Unit}
    (edit : setAttribute number flag value store = .ok u edited) :
    edited = store ∨
      ∃ (h : number.toNat - 1 < store.table.objects.size) (known : Attribute) (memory : Memory),
        number ≠ 0 ∧
        Memory.setByte (store.table.record number.toNat + known.byte.val)
          ((store.table.objects[number.toNat - 1].withAttribute known value).attributeByte known)
          store.memory = .ok () memory ∧
        edited = { memory, table := { store.table with
          objects := store.table.objects.modify (number.toNat - 1)
            fun _ => store.table.objects[number.toNat - 1].withAttribute known value } } := by
  simp only [setAttribute, bind_eq_ok, asking_eq_ok] at edit
  obtain ⟨object, _, ⟨asked, rfl⟩, edit⟩ := edit
  cases named : Attribute.ofWord? flag with
  | none =>
      rw [named] at edit
      exact .inl (pure_eq_ok.1 edit).2.symm
  | some known =>
      rw [named] at edit
      dsimp only at edit
      split at edit
      next => exact .inl (pure_eq_ok.1 edit).2.symm
      next nonzero =>
        simp only [bind_eq_ok, get_eq_ok, modifyObject_eq_ok, onMemory_eq_ok] at edit
        obtain ⟨_, _, ⟨rfl, rfl⟩, _, _, rfl, memory, write, rfl⟩ := edit
        obtain ⟨h, rfl⟩ := (ObjectTable.object_eq_ok nonzero).1 asked
        exact .inr ⟨h, known, memory, nonzero, write, rfl⟩

/-- The value of a property is set in the copy and in its data in memory. -/
theorem setProperty_eq_ok {number : UInt16} {property : UInt8} {value : UInt16} {u : Unit}
    (edit : setProperty number property value store = .ok u edited) :
    ∃ (h : number.toNat - 1 < store.table.objects.size) (found : Property) (memory : Memory),
      store.table.objects[number.toNat - 1].property? property = some found ∧
      ((found.data.length = 1 ∧
          Memory.setByte found.dataAddress (lowByte value) store.memory = .ok () memory) ∨
        (found.data.length ≠ 1 ∧
          Memory.setWord found.dataAddress value store.memory = .ok () memory)) ∧
      edited = { memory, table := { store.table with
        objects := store.table.objects.modify (number.toNat - 1)
          (·.withProperty property value) } } := by
  simp only [setProperty, bind_eq_ok, asking_eq_ok] at edit
  obtain ⟨object, _, ⟨asked, rfl⟩, edit⟩ := edit
  cases has : object.property? property with
  | none =>
      rw [has] at edit
      exact absurd edit throw_ne_ok
  | some found =>
      have nonzero := ObjectTable.ne_zero_of_has asked has
      obtain ⟨h, rfl⟩ := (ObjectTable.object_eq_ok nonzero).1 asked
      rw [has] at edit
      simp only [bind_eq_ok, modifyObject_eq_ok] at edit
      obtain ⟨_, _, rfl, edit⟩ := edit
      split at edit
      next single =>
        obtain ⟨memory, write, rfl⟩ := onMemory_eq_ok.1 edit
        exact ⟨h, found, memory, has, .inl ⟨single, write⟩, rfl⟩
      next longer =>
        obtain ⟨memory, write, rfl⟩ := onMemory_eq_ok.1 edit
        exact ⟨h, found, memory, has, .inr ⟨longer, write⟩, rfl⟩

end ObjectStore

end StoryMachine
