import Mathlib.Data.List.Induction
import StoryMachine.Proofs.Object.Edit
import StoryMachine.Proofs.Table.Readable

/-!
# Chains of properties

The properties of an object lie one after the other in memory, as blocks that end
with a zero byte (`Object.Chain`).  Reading collects them in a list: a block whose
number was seen before takes the place of the earlier one (`Object.collect`).  What
comes out has the numbers in the order in which they first occur
(`map_number_collect`), and of each number the block that occurs last
(`find?_collect`).

Asking for the next property goes through this list.  It starts from 0 and ends with
0, so it goes through the whole list as long as no property has that number
(`ObjectTable.Visits`).
-/

namespace StoryMachine

variable {memory : Memory}

/-! ## Blocks in memory -/

/-- The size byte of a property is not zero.  Its low five bits are the number of the
property, and its high three bits are the length of the data less one. -/
def Property.Sized (property : Property) (memory : Memory) : Prop :=
  ∃ size, memory.getByte property.address = .ok size ∧ size ≠ 0 ∧
    property.number = size &&& 0x1f ∧ property.data.length = (size >>> 5).toNat + 1

namespace Object

/-- The blocks from an address on, up to the first size byte that is zero. -/
inductive Chain (memory : Memory) : Nat → List Property → Prop where
  | stop {address : Nat} : memory.getByte address = .ok 0 → Chain memory address []
  | block {property : Property} {rest : List Property} :
      property.Sized memory → property.Agrees memory →
      Chain memory (property.dataAddress + property.data.length) rest →
      Chain memory property.address (property :: rest)

theorem Chain.forall_mem {address : Nat} {blocks : List Property}
    (chain : Chain memory address blocks) :
    ∀ block ∈ blocks, block.Sized memory ∧ block.Agrees memory := by
  induction chain with
  | stop => simp
  | block sized agrees _ ih => exact List.forall_mem_cons.2 ⟨⟨sized, agrees⟩, ih⟩

/-- The properties of a chain, each number once. -/
def collect (blocks : List Property) : List Property :=
  blocks.foldl (fun found block => insertProperty block found) []

/-- Reading goes through the blocks of the chain and inserts each of them. -/
theorem exists_chain_of_readChainUpTo {limit address : Nat} {found properties : List Property}
    (read : readChainUpTo memory limit address found = .ok properties) :
    ∃ blocks, Chain memory address blocks ∧
      properties = blocks.foldl (fun found block => insertProperty block found) found := by
  induction limit generalizing address found with
  | zero => cases read
  | succ limit ih =>
      simp only [readChainUpTo, except_bind_eq_ok] at read
      obtain ⟨size, readSize, read⟩ := read
      split at read
      next zero =>
        cases read
        subst zero
        exact ⟨[], .stop readSize, rfl⟩
      next nonzero =>
        obtain ⟨data, slice, read⟩ := except_bind_eq_ok.1 read
        obtain ⟨blocks, chain, collected⟩ := ih read
        have length := (Memory.slice_eq_ok.1 slice).1
        rw [← length] at slice chain
        let block : Property := { number := size &&& 0x1f, address, data }
        have sized : block.Sized memory := ⟨size, readSize, nonzero, rfl, length⟩
        have agrees : block.Agrees memory := slice
        exact ⟨block :: blocks, .block sized agrees chain, collected⟩

/-- The chain of an object starts behind its name. -/
theorem exists_chain_of_read {abbreviations : Abbreviations} {record : Nat} {object : Object}
    (isRead : read memory abbreviations record = .ok object) :
    ∃ nameLength blocks, memory.getByte object.propertyHeader.toNat = .ok nameLength ∧
      Chain memory (object.propertyHeader.toNat + 1 + 2 * nameLength.toNat) blocks ∧
      object.properties = collect blocks := by
  simp only [read, readChain, except_bind_eq_ok, except_pure_eq_ok] at isRead
  obtain ⟨_, -, header, -, nameLength, readLength, _, -, properties, readChain, _, -, _, -, _, -,
    rfl⟩ := isRead
  obtain ⟨blocks, chain, collected⟩ := exists_chain_of_readChainUpTo readChain
  exact ⟨nameLength, blocks, readLength, chain, collected⟩

/-! ## The collected properties -/

theorem collect_concat (blocks : List Property) (block : Property) :
    collect (blocks ++ [block]) = insertProperty block (collect blocks) :=
  List.foldl_append

theorem forall_mem_collect {p : Property → Prop} {blocks : List Property}
    (all : ∀ block ∈ blocks, p block) : ∀ property ∈ collect blocks, p property := by
  induction blocks using List.reverseRecOn with
  | nil => simp [collect]
  | append_singleton blocks block ih =>
      rw [List.forall_mem_append, List.forall_mem_singleton] at all
      rw [collect_concat]
      exact forall_mem_insertProperty all.2 (ih all.1)

/-- Inserting adds the number at the end if it is new. -/
theorem map_number_insertProperty (property : Property) (found : List Property) :
    (insertProperty property found).map Property.number =
      if property.number ∈ found.map Property.number then found.map Property.number
      else found.map Property.number ++ [property.number] := by
  induction found with
  | nil => simp [insertProperty]
  | cons first rest ih =>
      simp only [insertProperty, List.map_cons, List.mem_cons]
      by_cases same : first.number = property.number
      · simp [same]
      · rw [if_neg same, List.map_cons, ih]
        by_cases member : property.number ∈ rest.map Property.number
        · rw [if_pos member, if_pos (.inr member)]
        · have new : ¬(property.number = first.number ∨
              property.number ∈ rest.map Property.number) :=
            not_or.2 ⟨Ne.symm same, member⟩
          rw [if_neg member, if_neg new, List.cons_append]

/-- The inserted property is the one of its number, and all other numbers keep theirs. -/
theorem find?_insertProperty (property : Property) (number : UInt8) (found : List Property) :
    (insertProperty property found).find? (·.number == number) =
      if property.number = number then some property else found.find? (·.number == number) := by
  induction found with
  | nil =>
      by_cases isNumber : property.number = number
      · simp [insertProperty, isNumber]
      · simp [insertProperty, isNumber]
  | cons first rest ih =>
      simp only [insertProperty]
      by_cases same : first.number = property.number
      · rw [if_pos same]
        by_cases isNumber : property.number = number
        · simp [isNumber]
        · simp [same, isNumber]
      · rw [if_neg same]
        by_cases isFirst : first.number = number
        · have other : property.number ≠ number := fun h => same (isFirst.trans h.symm)
          simp [isFirst, other]
        · simp [isFirst, ih]

/-- The numbers come in the order in which they first occur in the chain. -/
theorem map_number_collect (blocks : List Property) :
    (collect blocks).map Property.number = (blocks.map Property.number).eraseDups := by
  induction blocks using List.reverseRecOn with
  | nil => rfl
  | append_singleton blocks block ih =>
      rw [collect_concat, map_number_insertProperty, ih, List.map_append, List.eraseDups_append]
      by_cases member : block.number ∈ blocks.map Property.number
      · have seen : [block.number].removeAll (blocks.map Property.number) = [] :=
          List.filter_cons_of_neg (by simpa using member)
        rw [if_pos (List.mem_eraseDups.2 member), List.map_singleton, seen]
        exact (List.append_nil _).symm
      · have new : [block.number].removeAll (blocks.map Property.number) = [block.number] :=
          List.filter_cons_of_pos (by simpa using member)
        rw [if_neg (mt List.mem_eraseDups.1 member), List.map_singleton, new]
        rfl

/-- Of each number the block counts that occurs last in the chain. -/
theorem find?_collect (blocks : List Property) (number : UInt8) :
    (collect blocks).find? (·.number == number) =
      (blocks.filter (·.number == number)).getLast? := by
  induction blocks using List.reverseRecOn with
  | nil => rfl
  | append_singleton blocks block ih =>
      rw [collect_concat, find?_insertProperty, ih, List.filter_append]
      by_cases isNumber : block.number = number
      · simp [isNumber]
      · simp [isNumber]

end Object

/-! ## Going through the properties -/

namespace ObjectTable

variable {table : ObjectTable} {number : UInt16} {object : Object}

/-- The next property after one that stands in a list for the first time is the one
behind it. -/
theorem numberAfter?_append {property : Property} {before after : List Property}
    (new : property.number ∉ before.map Property.number) :
    numberAfter? property.number (before ++ property :: after) = some (firstNumber after) := by
  induction before with
  | nil => simp [numberAfter?]
  | cons first rest ih =>
      rw [List.map_cons, List.mem_cons, not_or] at new
      rw [List.cons_append, numberAfter?, if_neg (Ne.symm new.1)]
      exact ih new.2

theorem numberAfter?_of_not_mem {property : UInt8} {properties : List Property}
    (absent : property ∉ properties.map Property.number) :
    numberAfter? property properties = none := by
  induction properties with
  | nil => rfl
  | cons first rest ih =>
      rw [List.map_cons, List.mem_cons, not_or] at absent
      rw [numberAfter?, if_neg (Ne.symm absent.1)]
      exact ih absent.2

theorem nextProperty_zero (asked : table.object number = .ok object) :
    table.nextProperty number 0 = .ok (firstNumber object.properties) := by
  rw [nextProperty, asked]
  rfl

/-- The answer to a property of the object is the one behind it. -/
theorem nextProperty_append (asked : table.object number = .ok object)
    (distinct : (object.properties.map Property.number).Nodup) {property : Property}
    {before after : List Property} (place : object.properties = before ++ property :: after)
    (nonzero : property.number ≠ 0) :
    table.nextProperty number property.number = .ok (firstNumber after) := by
  have new : property.number ∉ before.map Property.number := by
    rw [place, List.map_append, List.map_cons] at distinct
    intro member
    exact (List.nodup_append.1 distinct).2.2 _ member _ (.head _) rfl
  rw [nextProperty, asked]
  simp only [bind, Except.bind, place, numberAfter?_append new]
  exact if_neg nonzero

theorem nextProperty_of_not_mem (asked : table.object number = .ok object)
    {property : UInt8} (nonzero : property ≠ 0)
    (absent : property ∉ object.properties.map Property.number) :
    table.nextProperty number property = .error (.missingProperty number property) := by
  rw [nextProperty, asked]
  simp only [bind, Except.bind, numberAfter?_of_not_mem absent]
  exact if_neg nonzero

/-- Asking for the property after a given one, and again for the one after each answer,
gives certain numbers and then 0. -/
inductive Visits (table : ObjectTable) (number : UInt16) : UInt8 → List UInt8 → Prop where
  | stop {property : UInt8} :
      table.nextProperty number property = .ok 0 → Visits table number property []
  | next {property next : UInt8} {rest : List UInt8} :
      table.nextProperty number property = .ok next.toUInt16 → next ≠ 0 →
      Visits table number next rest → Visits table number property (next :: rest)

/-- From each property on, the ones behind it are visited. -/
theorem visits_after (asked : table.object number = .ok object)
    (distinct : (object.properties.map Property.number).Nodup)
    (nonzero : ∀ property ∈ object.properties, property.number ≠ 0) {property : Property}
    {before after : List Property} (place : object.properties = before ++ property :: after) :
    Visits table number property.number (after.map Property.number) := by
  -- The property moves on through the list while what is behind it gets shorter.
  induction after generalizing property before with
  | nil =>
      have present : property ∈ object.properties := by simp [place]
      exact .stop (nextProperty_append asked distinct place (nonzero property present))
  | cons first rest ih =>
      have present : property ∈ object.properties := by simp [place]
      have later : first ∈ object.properties := by simp [place]
      have answer := nextProperty_append asked distinct place (nonzero property present)
      have moved : object.properties = (before ++ [property]) ++ first :: rest := by simp [place]
      exact .next answer (nonzero first later) (ih moved)

/-- From 0 on, all properties are visited. -/
theorem visits_all (asked : table.object number = .ok object)
    (distinct : (object.properties.map Property.number).Nodup)
    (nonzero : ∀ property ∈ object.properties, property.number ≠ 0) :
    Visits table number 0 (object.properties.map Property.number) := by
  have answer := nextProperty_zero asked
  cases place : object.properties with
  | nil =>
      rw [place] at answer
      exact .stop answer
  | cons first rest =>
      rw [place] at answer
      have present : first ∈ object.properties := by simp [place]
      have later := visits_after asked distinct nonzero (place.trans (List.nil_append _).symm)
      exact .next answer (nonzero first present) later

/-- The properties of an object of a loaded table, told by the blocks of its chain in
memory, which starts behind the name.  Their numbers are those of the blocks, each once
and in the order in which they first occur, and each with the address and the data of
the block that occurs last.  Asking for the next property goes through these numbers in
that order, provided that none of them is 0.  It knows no other number. -/
theorem properties_follow_chain {memory : Memory} {base : Nat} {abbreviations : Abbreviations}
    (loaded : load memory base abbreviations = .ok table) (nonzero : number ≠ 0)
    (asked : table.object number = .ok object) :
    ∃ nameLength blocks,
      memory.getWord (table.record number.toNat + 7) = .ok object.propertyHeader ∧
      memory.getByte object.propertyHeader.toNat = .ok nameLength ∧
      Object.Chain memory (object.propertyHeader.toNat + 1 + 2 * nameLength.toNat) blocks ∧
      object.properties.map Property.number = (blocks.map Property.number).eraseDups ∧
      (object.properties.map Property.number).Nodup ∧
      (∀ property, object.property? property =
        (blocks.filter (·.number == property)).getLast?) ∧
      (0 ∉ blocks.map Property.number →
        Visits table number 0 (object.properties.map Property.number)) ∧
      ∀ property, property ≠ 0 → property ∉ blocks.map Property.number →
        table.nextProperty number property = .error (.missingProperty number property) := by
  obtain ⟨-, -, -, reads⟩ := load_reads loaded
  obtain ⟨h, rfl⟩ := (object_eq_ok nonzero).1 asked
  obtain ⟨k, number_eq⟩ := exists_toNat_eq_succ nonzero
  have isRead := reads _ h
  rw [Nat.sub_add_cancel (by omega)] at isRead
  obtain ⟨nameLength, blocks, readLength, chain, collected⟩ := Object.exists_chain_of_read isRead
  have distinct := (Object.read_agrees isRead).2.distinct
  have numbers := Object.map_number_collect blocks
  rw [← collected] at numbers
  have mem_iff (property : UInt8) :
      property ∈ table.objects[number.toNat - 1].properties.map Property.number ↔
        property ∈ blocks.map Property.number := by
    rw [numbers, List.mem_eraseDups]
  refine ⟨nameLength, blocks, Object.getWord_of_read isRead, readLength, chain, numbers, distinct,
    ?_, ?_, ?_⟩
  · intro property
    rw [Object.property?, collected]
    exact Object.find?_collect blocks property
  · intro noZero
    refine visits_all asked distinct ?_
    intro property member zero
    exact noZero ((mem_iff 0).1 (List.mem_map.2 ⟨property, member, zero⟩))
  · intro property nonzero absent
    exact nextProperty_of_not_mem asked nonzero (mt (mem_iff property).1 absent)

/-- An object table with one object, in whose chain of three blocks the number 5 occurs
twice, first with one byte of data and then with two. -/
def repeatingTable : Memory :=
  let record : List UInt8 := [0, 0, 0, 0, 0, 0, 0, 0, 71]
  let properties : List UInt8 := [0, 0x05, 0x11, 0x23, 0x12, 0x34, 0x25, 0xbe, 0xef, 0]
  { bytes := (List.replicate (2 * defaultCount) 0 ++ record ++ properties).toArray }

theorem properties_follow_chain_sample : ∃ (table : ObjectTable) (object : Object),
    load repeatingTable 0 default = .ok table ∧ table.object 1 = .ok object ∧
      object.properties = [⟨5, 77, [0xbe, 0xef]⟩, ⟨3, 74, [0x12, 0x34]⟩] ∧
      Visits table 1 0 [5, 3] ∧ table.nextProperty 1 4 = .error (.missingProperty 1 4) := by
  have checked : ((load repeatingTable 0 default).toOption.any fun table =>
      (table.object 1).toOption.any fun object =>
        object.properties = [⟨5, 77, [0xbe, 0xef]⟩, ⟨3, 74, [0x12, 0x34]⟩]) = true := by
    decide +kernel
  obtain ⟨table, loaded, checked⟩ := exists_of_toOption_any checked
  obtain ⟨object, asked, properties⟩ := exists_of_toOption_any checked
  have properties := of_decide_eq_true properties
  obtain ⟨_, blocks, -, -, -, numbers, -, -, visits, unknown⟩ :=
    properties_follow_chain loaded (by decide) asked
  have absent {property : UInt8} (other : property ∉ [5, 3]) :
      property ∉ blocks.map Property.number := by
    rw [← List.mem_eraseDups, ← numbers, properties]
    exact other
  have visits := visits (absent (by decide))
  rw [properties] at visits
  exact ⟨table, object, loaded, asked, properties, visits,
    unknown 4 (by decide) (absent (by decide))⟩

end ObjectTable

end StoryMachine
