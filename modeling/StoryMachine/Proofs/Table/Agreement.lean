import StoryMachine.Object.Refresh
import StoryMachine.Proofs.Memory.Bytes
import StoryMachine.Proofs.Sequencing
import StoryMachine.Variable.Globals

/-!
# Agreement of the copies with memory

The copies of the global variables and of the object table agree with an image
when each word, byte and run of bytes they hold is the one at its address.
Agreement says that the read succeeds, so it includes that the address lies in
the image.

A table agrees with the image it was loaded from (`Globals.load_agrees`,
`ObjectTable.load_agrees`), and agreement survives a write elsewhere.
-/

namespace StoryMachine

/-! ## The two tables -/

/-- Every cell is the word at its address. -/
def Globals.Agrees (globals : Globals) (memory : Memory) : Prop :=
  ∀ i (h : i < globalCount), memory.getWord (globals.address i) = .ok globals.cells[i]

/-- The data of a property are the bytes at its data address. -/
def Property.Agrees (property : Property) (memory : Memory) : Prop :=
  memory.slice property.dataAddress property.data.length = .ok property.data

/-- The flags and links of an object are the bytes of the record at an address. -/
structure Object.RecordAgrees (object : Object) (memory : Memory) (record : Nat) : Prop where
  /-- The attribute bytes open the record. -/
  attributes : ∀ i (h : i < 4), memory.getByte (record + i) = .ok object.attributes[i]
  /-- Each link has its own byte. -/
  links : ∀ link, memory.getByte (record + link.offset) = .ok (object.link link)

/-- An object whose record is at an address agrees with memory. -/
structure Object.Agrees (object : Object) (memory : Memory) (record : Nat) : Prop
    extends object.RecordAgrees memory record where
  /-- Every property has its data from memory. -/
  properties : ∀ property ∈ object.properties, property.Agrees memory

/-- The flags and links of every object are the bytes of its record. -/
def ObjectTable.RecordsAgree (table : ObjectTable) (memory : Memory) : Prop :=
  ∀ i (h : i < table.objects.size), table.objects[i].RecordAgrees memory (table.record (i + 1))

/-- The default values and all objects agree with memory. -/
structure ObjectTable.Agrees (table : ObjectTable) (memory : Memory) : Prop where
  /-- Every default value is the word at its address. -/
  defaults : ∀ i (h : i < defaultCount), memory.getWord (table.base + 2 * i) = .ok table.defaults[i]
  /-- Every object agrees with its record and its property data. -/
  objects : ∀ i (h : i < table.objects.size),
    table.objects[i].Agrees memory (table.record (i + 1))

/-- Properties have data, and no number occurs twice. -/
structure Property.Tidy (properties : List Property) : Prop where
  /-- No number occurs twice. -/
  distinct : (properties.map Property.number).Nodup
  /-- Every property has data. -/
  nonempty : ∀ property ∈ properties, property.data ≠ []

/-- The properties of every object are tidy. -/
def ObjectTable.Tidy (table : ObjectTable) : Prop :=
  ∀ i (h : i < table.objects.size), Property.Tidy table.objects[i].properties

theorem ObjectTable.Agrees.recordsAgree {table : ObjectTable} {memory : Memory}
    (agrees : table.Agrees memory) : table.RecordsAgree memory :=
  fun i h => (agrees.objects i h).toRecordAgrees

/-- The default value of a property is the word at its place in the table. -/
theorem ObjectTable.Agrees.defaultValue {table : ObjectTable} {memory : Memory}
    (agrees : table.Agrees memory) {property : UInt8} (positive : 1 ≤ property.toNat)
    (small : property.toNat ≤ defaultCount) :
    memory.getWord (table.base + 2 * (property.toNat - 1)) = .ok (table.defaultValue property) := by
  have h : property.toNat - 1 < defaultCount := by omega
  have nonzero : property ≠ 0 := by
    rintro rfl
    exact Nat.not_succ_le_zero 0 positive
  rw [agrees.defaults _ h, ObjectTable.defaultValue, if_neg nonzero, Vector.getElem?_eq_getElem h]
  rfl

/-- The value of a property is the byte or the word at its data address. -/
theorem Property.Agrees.value {property : Property} {memory : Memory}
    (agrees : property.Agrees memory) (nonempty : property.data ≠ []) :
    .ok property.value =
      if property.data.length = 1 then (memory.getByte property.dataAddress).map UInt8.toUInt16
      else memory.getWord property.dataAddress := by
  obtain ⟨-, -, reads⟩ := Memory.slice_eq_ok.1 agrees
  match data : property.data with
  | [] => exact absurd data nonempty
  | [byte] =>
      have read := reads 0 (by simp [data])
      simp only [data, Nat.add_zero, List.getElem_cons_zero] at read
      rw [List.length_singleton, if_pos rfl, read, Property.value, data]
      rfl
  | high :: low :: rest =>
      have readHigh := reads 0 (by simp [data])
      have readLow := reads 1 (by simp [data])
      simp only [data, Nat.add_zero, List.getElem_cons_zero, List.getElem_cons_succ]
        at readHigh readLow
      rw [if_neg (by simp), Property.value, data]
      exact (Memory.getWord_eq_ok.2 ⟨high, low, readHigh, readLow, rfl⟩).symm

/-! ## Agreement after loading -/

theorem Memory.getWords_eq_ok {memory : Memory} {address : Nat} :
    ∀ {count : Nat} {words : Vector UInt16 count}, memory.getWords address count = .ok words →
      ∀ i (h : i < count), memory.getWord (address + 2 * i) = .ok words[i]
  | 0, _, _, _, h => absurd h (Nat.not_lt_zero _)
  | count + 1, words, read, i, h => by
      simp only [Memory.getWords, except_bind_eq_ok, except_pure_eq_ok] at read
      obtain ⟨rest, readRest, word, readWord, rfl⟩ := read
      by_cases last : i = count
      · subst last
        simpa using readWord
      · have before : i < count := by omega
        rw [Vector.getElem_push_lt before]
        exact getWords_eq_ok readRest i before

/-- The global variables agree with the image they were read from. -/
theorem Globals.load_agrees {memory : Memory} {base : Nat} {globals : Globals}
    (loaded : Globals.load memory base = .ok globals) : globals.Agrees memory := by
  simp only [Globals.load, except_bind_eq_ok, except_pure_eq_ok] at loaded
  obtain ⟨cells, read, rfl⟩ := loaded
  exact Memory.getWords_eq_ok read

/-- Setting a cell writes its word and the copy. -/
theorem Globals.set_eq_ok {globals changed : Globals} {index : UInt8} {value : UInt16}
    {memory written : Memory} (set : globals.set index value memory = .ok changed written) :
    ∃ h : index.toNat < globalCount,
      Memory.setWord (globals.address index.toNat) value memory = .ok () written ∧
      changed = { globals with cells := globals.cells.set index.toNat value } := by
  simp only [Globals.set] at set
  split at set
  next inside =>
    simp only [bind_eq_ok, pure_eq_ok] at set
    obtain ⟨_, _, write, rfl, rfl⟩ := set
    exact ⟨inside, write, rfl⟩
  next => exact absurd set throw_ne_ok

namespace Object

theorem readAttributes_eq_ok {memory : Memory} {record : Nat} {attributes : Vector UInt8 4}
    (read : readAttributes memory record = .ok attributes) :
    ∀ i (h : i < 4), memory.getByte (record + i) = .ok attributes[i] := by
  simp only [readAttributes, except_bind_eq_ok, except_pure_eq_ok] at read
  obtain ⟨first, readFirst, second, readSecond, third, readThird, fourth, readFourth, rfl⟩ := read
  intro i h
  obtain rfl | rfl | rfl | rfl : i = 0 ∨ i = 1 ∨ i = 2 ∨ i = 3 := by omega
  · exact readFirst
  · exact readSecond
  · exact readThird
  · exact readFourth

theorem exists_readAttributes {memory : Memory} {record : Nat}
    (inside : record + 3 < memory.size) :
    ∃ attributes, readAttributes memory record = .ok attributes := by
  obtain ⟨first, readFirst⟩ := Memory.exists_getByte (show record < memory.size by omega)
  obtain ⟨second, readSecond⟩ := Memory.exists_getByte (show record + 1 < memory.size by omega)
  obtain ⟨third, readThird⟩ := Memory.exists_getByte (show record + 2 < memory.size by omega)
  obtain ⟨fourth, readFourth⟩ := Memory.exists_getByte inside
  refine ⟨#v[first, second, third, fourth], ?_⟩
  simp only [readAttributes, except_bind_eq_ok, except_pure_eq_ok]
  exact ⟨first, readFirst, second, readSecond, third, readThird, fourth, readFourth, rfl⟩

/-- A record that lies inside the image has all its links. -/
theorem exists_readLink {memory : Memory} {record : Nat} (inside : record + 7 ≤ memory.size)
    (link : Link) : ∃ target, readLink memory record link = .ok target := by
  have offset : link.offset < 7 := by cases link <;> decide
  exact Memory.exists_getByte (show record + link.offset < memory.size by omega)

theorem forall_mem_insertProperty {p : Property → Prop} {property : Property} :
    ∀ {found : List Property}, p property → (∀ other ∈ found, p other) →
      ∀ other ∈ insertProperty property found, p other
  | [], new, _, other, member => by
      simp only [insertProperty, List.mem_singleton] at member
      exact member ▸ new
  | first :: rest, new, old, other, member => by
      simp only [insertProperty] at member
      split at member
      next =>
        rcases List.mem_cons.1 member with rfl | member
        · exact new
        · exact old other (.tail _ member)
      next =>
        rcases List.mem_cons.1 member with rfl | member
        · exact old other (.head _)
        · exact forall_mem_insertProperty new (fun o h => old o (.tail _ h)) other member

theorem nodup_insertProperty {property : Property} :
    ∀ {found : List Property}, (found.map Property.number).Nodup →
      ((insertProperty property found).map Property.number).Nodup
  | [], _ => by simp [insertProperty]
  | first :: rest, distinct => by
      rw [List.map_cons, List.nodup_cons] at distinct
      simp only [insertProperty]
      split
      next same =>
        rw [List.map_cons, List.nodup_cons, ← same]
        exact distinct
      next other =>
        rw [List.map_cons, List.nodup_cons]
        refine ⟨?_, nodup_insertProperty distinct.2⟩
        intro member
        obtain ⟨found, foundMember, equal⟩ := List.mem_map.1 member
        refine forall_mem_insertProperty (p := fun found => found.number ≠ first.number)
          (Ne.symm other) ?_ found foundMember equal
        intro old oldMember equal
        exact distinct.1 (List.mem_map.2 ⟨old, oldMember, equal⟩)

/-- What a chain gives is tidy and agrees with memory. -/
theorem readChainUpTo_agrees {memory : Memory} :
    ∀ {limit address : Nat} {found properties : List Property},
      readChainUpTo memory limit address found = .ok properties →
      Property.Tidy found → (∀ property ∈ found, property.Agrees memory) →
      Property.Tidy properties ∧ ∀ property ∈ properties, property.Agrees memory
  | 0, _, _, _, read, _, _ => by simp [readChainUpTo] at read
  | limit + 1, address, found, properties, read, tidy, agree => by
      simp only [readChainUpTo, except_bind_eq_ok] at read
      obtain ⟨size, -, read⟩ := read
      split at read
      next =>
        cases read
        exact ⟨tidy, agree⟩
      next =>
        simp only [except_bind_eq_ok] at read
        obtain ⟨data, slice, read⟩ := read
        have length := (Memory.slice_eq_ok.1 slice).1
        refine readChainUpTo_agrees read ⟨nodup_insertProperty tidy.distinct, ?_⟩ ?_
        · refine forall_mem_insertProperty ?_ tidy.nonempty
          intro (empty : data = [])
          simp [empty] at length
        · refine forall_mem_insertProperty ?_ agree
          show memory.slice (address + 1) data.length = .ok data
          rw [length]
          exact slice

/-- An object agrees with the image it was read from. -/
theorem read_agrees {memory : Memory} {abbreviations : Abbreviations} {record : Nat}
    {object : Object} (loaded : read memory abbreviations record = .ok object) :
    object.Agrees memory record ∧ Property.Tidy object.properties := by
  simp only [read, readChain, readLink, except_bind_eq_ok, except_pure_eq_ok] at loaded
  obtain ⟨attributes, readAttributes, header, -, nameLength, -, name, -, properties, readChain,
    parent, readParent, sibling, readSibling, child, readChild, rfl⟩ := loaded
  obtain ⟨tidy, agree⟩ := readChainUpTo_agrees readChain ⟨.nil, by simp⟩ (by simp)
  refine ⟨⟨⟨readAttributes_eq_ok readAttributes, ?_⟩, agree⟩, tidy⟩
  intro link
  cases link with
  | parent => exact readParent
  | sibling => exact readSibling
  | child => exact readChild

end Object

namespace ObjectTable

/-- Every object is the one whose record has its place in the row of records. -/
theorem readObjects_reads {memory : Memory} {abbreviations : Abbreviations} {first limit : Nat}
    {objects result : Array Object}
    (reads : ∀ i (h : i < objects.size),
      Object.read memory abbreviations (first + recordLength * i) = .ok objects[i])
    (readAll : readObjects memory abbreviations first limit objects = .ok result) :
    result.size ≤ objects.size + limit ∧
      ∀ i (h : i < result.size),
        Object.read memory abbreviations (first + recordLength * i) = .ok result[i] := by
  induction limit generalizing objects with
  | zero =>
      cases readAll
      exact ⟨Nat.le_refl _, reads⟩
  | succ limit ih =>
      simp only [readObjects] at readAll
      split at readAll
      next =>
        cases readAll
        exact ⟨Nat.le_add_right _ _, reads⟩
      next =>
        obtain ⟨object, readObject, readAll⟩ := except_bind_eq_ok.1 readAll
        have readsOneMore : ∀ i (h : i < (objects.push object).size),
            Object.read memory abbreviations (first + recordLength * i) =
              .ok (objects.push object)[i] := by
          intro i h
          by_cases old : i < objects.size
          · rw [Array.getElem_push_lt old]
            exact reads i old
          · obtain rfl : i = objects.size := by
              rw [Array.size_push] at h
              omega
            rw [Array.getElem_push_eq]
            exact readObject
        obtain ⟨bound, reads⟩ := ih readsOneMore readAll
        rw [Array.size_push] at bound
        exact ⟨by omega, reads⟩

/-- A table that is loaded has its default values from the words in front of the
records, and its objects from the records. -/
theorem load_reads {memory : Memory} {base : Nat} {abbreviations : Abbreviations}
    {table : ObjectTable} (loaded : load memory base abbreviations = .ok table) :
    table.base = base ∧ memory.getWords base defaultCount = .ok table.defaults ∧
      table.size ≤ capacity ∧
      ∀ i (h : i < table.objects.size),
        Object.read memory abbreviations (table.record (i + 1)) = .ok table.objects[i] := by
  simp only [load, except_bind_eq_ok, except_pure_eq_ok] at loaded
  obtain ⟨defaults, readDefaults, objects, readAll, rfl⟩ := loaded
  have nothing : ∀ i (h : i < (#[] : Array Object).size),
      Object.read memory abbreviations (firstRecord base + recordLength * i) =
        .ok (#[] : Array Object)[i] := fun i h => absurd h (Nat.not_lt_zero i)
  obtain ⟨bound, reads⟩ := readObjects_reads nothing readAll
  exact ⟨rfl, readDefaults, by simpa [size] using bound, reads⟩

/-- The object table agrees with the image it was read from.  It has at most
255 objects, and their properties are tidy. -/
theorem load_agrees {memory : Memory} {base : Nat} {abbreviations : Abbreviations}
    {table : ObjectTable} (loaded : load memory base abbreviations = .ok table) :
    table.Agrees memory ∧ table.Tidy ∧ table.size ≤ capacity := by
  obtain ⟨rfl, defaults, bound, reads⟩ := load_reads loaded
  have agree := fun i h => Object.read_agrees (reads i h)
  exact ⟨⟨Memory.getWords_eq_ok defaults, fun i h => (agree i h).1⟩, fun i h => (agree i h).2,
    bound⟩

end ObjectTable

/-! ## Agreement after a write elsewhere -/

section Frame

variable {memory written : Memory} {address count : Nat}
  (frame : memory.SameOutside written address count)

include frame

theorem Globals.Agrees.of_sameOutside {globals : Globals} (agrees : globals.Agrees memory)
    (apart : globals.stop ≤ address ∨ address + count ≤ globals.base) :
    globals.Agrees written := by
  intro i h
  refine frame.getWord_eq_ok ?_ (agrees i h)
  simp only [globalCount] at h
  simp only [Globals.stop, Globals.address, globalCount] at apart ⊢
  omega

theorem Property.Agrees.of_sameOutside {property : Property} (agrees : property.Agrees memory)
    (apart : property.dataAddress + property.data.length ≤ address ∨
      address + count ≤ property.dataAddress) : property.Agrees written :=
  frame.slice_eq_ok apart agrees

theorem Object.RecordAgrees.of_sameOutside {object : Object} {record : Nat}
    (agrees : object.RecordAgrees memory record)
    (apart : record + recordLength ≤ address ∨ address + count ≤ record) :
    object.RecordAgrees written record := by
  simp only [recordLength] at apart
  constructor
  · intro i h
    rw [frame.getByte (record + i) (by omega)]
    exact agrees.attributes i h
  · intro link
    have offset : link.offset < 7 := by cases link <;> decide
    rw [frame.getByte (record + link.offset) (by omega)]
    exact agrees.links link

end Frame

end StoryMachine
