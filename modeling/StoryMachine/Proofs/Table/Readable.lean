import StoryMachine.Object.Load
import StoryMachine.Proofs.Machine.Failure
import StoryMachine.Proofs.Table.Agreement

/-!
# Which tables can be read

For each table this module says when it can be read, in terms of the bytes of the
image alone, and shows that its reader gives a result exactly then.

Nothing bounds a string or a chain of properties but its own end.  So a string can
be read when one of its words is marked as the last (`Packed.Ends`), and a chain
when the blocks lead to a zero byte (`Object.ChainEnds`).  The readers take at most
as many words or blocks as the image has bytes.  That is enough, since each of them
takes up two bytes or more: a reader that has used up its limit has left the image.

A reader that gives no result fails because an access leaves the image.
-/

namespace StoryMachine

variable {memory : Memory} {address : Nat}

/-! ## Packed strings -/

namespace Packed

/-- One of the words from an address on is marked as the last of its string. -/
def Ends (memory : Memory) (address : Nat) : Prop :=
  ∃ k word, memory.getWord (address + 2 * k) = .ok word ∧ isLast word = true

/-- A scan ends with a last word exactly when there is one within its limit. -/
theorem any_isLast_scanUpTo {limit : Nat} :
    (scanUpTo memory limit address).getLast?.any isLast = true ↔
      ∃ k < limit, ∃ word, memory.getWord (address + 2 * k) = .ok word ∧ isLast word = true := by
  induction limit generalizing address with
  | zero => simp [scanUpTo]
  | succ limit ih =>
      simp only [scanUpTo]
      cases read : memory.getWord address with
      | error e =>
          constructor
          · intro no
            cases no
          · rintro ⟨k, -, word, later, -⟩
            have inside := Memory.lt_size_of_getWord later
            have before : address + 1 < memory.size := by omega
            obtain ⟨_, no⟩ := Memory.exists_getWord before
            rw [read] at no
            cases no
      | ok word =>
          dsimp only
          split
          next last =>
            constructor
            · intro _
              exact ⟨0, Nat.zero_lt_succ _, word, read, last⟩
            · intro _
              exact last
          next inner =>
            have skipped : (word :: scanUpTo memory limit (address + 2)).getLast?.any isLast =
                (scanUpTo memory limit (address + 2)).getLast?.any isLast := by
              rw [List.getLast?_cons]
              cases (scanUpTo memory limit (address + 2)).getLast? with
              | none => simpa using inner
              | some found => rfl
            rw [skipped, ih]
            constructor
            · rintro ⟨k, less, found, later, last⟩
              refine ⟨k + 1, Nat.succ_lt_succ less, found, ?_, last⟩
              rw [Nat.mul_add_one, Nat.add_comm (2 * k), ← Nat.add_assoc]
              exact later
            · rintro ⟨k, less, found, later, last⟩
              cases k with
              | zero =>
                  rw [Nat.mul_zero, Nat.add_zero, read] at later
                  cases later
                  exact absurd last inner
              | succ k =>
                  refine ⟨k, Nat.lt_of_succ_lt_succ less, found, ?_, last⟩
                  rw [Nat.mul_add_one, Nat.add_comm (2 * k), ← Nat.add_assoc] at later
                  exact later

theorem succeeds_read : Succeeds (read memory address) ↔ Ends memory address := by
  have ends : (scan memory address).getLast?.any isLast = true ↔ Ends memory address := by
    rw [scan, any_isLast_scanUpTo]
    constructor
    · rintro ⟨k, -, word, found, last⟩
      exact ⟨k, word, found, last⟩
    · rintro ⟨k, word, found, last⟩
      have inside := Memory.lt_size_of_getWord found
      exact ⟨k, by omega, word, found, last⟩
  rw [← ends]
  simp only [read]
  split
  next last => simp [last]
  next endless => simp [endless]

end Packed

/-! ## Abbreviations -/

namespace Abbreviations

/-- All entries lie inside the image, and so do the strings they point to. -/
def Readable (memory : Memory) (base : Nat) : Prop :=
  ∀ index < count, ∃ word, memory.getWord (base + 2 * index) = .ok word ∧
    Packed.Ends memory (2 * word.toNat)

theorem succeeds_entry {base index : Nat} :
    Succeeds (entry memory base index) ↔
      ∃ word, memory.getWord (base + 2 * index) = .ok word ∧
        Packed.Ends memory (2 * word.toNat) := by
  simp only [entry, Succeeds.bind_iff, ← Packed.succeeds_read, Succeeds.pure, and_true]
  rfl

theorem succeeds_load {base : Nat} : Succeeds (load memory base) ↔ Readable memory base := by
  simp only [load, Succeeds.bind_iff, Succeeds.pure, and_true]
  show Succeeds _ ↔ _
  rw [Succeeds.mapM_iff]
  simp only [List.mem_range, succeeds_entry, Readable]

theorem load_failsOnly (memory : Memory) (base : Nat) :
    FailsOnly memory.Outside (load memory base) := by
  refine .bind (.mapM ?_ _) fun _ _ => .pure _
  intro index
  exact .bind (memory.getWord_failsOnly _) fun _ _ =>
    .bind (Packed.read_failsOnly memory _) fun _ _ => .pure _

end Abbreviations

/-! ## The dictionary -/

namespace Dictionary

/-- The head of the dictionary lies inside the image, and so does the text of every
entry. -/
def Readable (memory : Memory) (base : Nat) : Prop :=
  ∃ separators entryLength count, memory.getByte base = .ok separators ∧
    memory.getByte (base + 1 + separators.toNat) = .ok entryLength ∧
    memory.getWord (base + 1 + separators.toNat + 1) = .ok count ∧
    ∀ index < count.toNat,
      base + 1 + separators.toNat + 3 + index * entryLength.toNat + 4 ≤ memory.size

theorem succeeds_entry : Succeeds (entry memory address) ↔ address + 4 ≤ memory.size := by
  simp only [entry, Succeeds.bind_iff, Succeeds.pure, and_true]
  constructor
  · rintro ⟨_, -, _, second⟩
    have inside := Memory.lt_size_of_getWord second
    omega
  · intro inside
    obtain ⟨first, read⟩ := Memory.exists_getWord (show address + 1 < memory.size by omega)
    obtain ⟨second, read'⟩ := Memory.exists_getWord (show address + 2 + 1 < memory.size by omega)
    exact ⟨first, read, second, read'⟩

theorem succeeds_load {base : Nat} : Succeeds (load memory base) ↔ Readable memory base := by
  simp only [load, Succeeds.bind_iff]
  constructor
  · rintro ⟨separators, readSeparators, _, -, entryLength, readLength, count, readCount, entries,
      readEntries, -⟩
    refine ⟨separators, entryLength, count, readSeparators, readLength, readCount, ?_⟩
    have all := Succeeds.mapM_iff.1 ⟨entries, readEntries⟩
    intro index less
    exact succeeds_entry.1 (all index (List.mem_range.2 less))
  · rintro ⟨separators, entryLength, count, readSeparators, readLength, readCount, inside⟩
    have head := Memory.lt_size_of_getByte readLength
    obtain ⟨bytes, slice⟩ := Memory.exists_slice (Nat.le_of_lt head)
    obtain ⟨entries, readEntries⟩ := Succeeds.mapM_iff.2 fun index member =>
      succeeds_entry.2 (inside index (List.mem_range.1 member))
    exact ⟨separators, readSeparators, bytes, slice, entryLength, readLength, count, readCount,
      entries, readEntries, .pure _⟩

theorem load_failsOnly (memory : Memory) (base : Nat) :
    FailsOnly memory.Outside (load memory base) := by
  have entries (address : Nat) : FailsOnly memory.Outside (entry memory address) :=
    .bind (memory.getWord_failsOnly _) fun _ _ => .bind (memory.getWord_failsOnly _) fun _ _ =>
      .pure _
  exact .bind (memory.getByte_failsOnly _) fun _ _ => .bind (memory.slice_failsOnly _ _) fun _ _ =>
    .bind (memory.getByte_failsOnly _) fun _ _ => .bind (memory.getWord_failsOnly _) fun _ _ =>
      .bind (.mapM (fun _ => entries _) _) fun _ _ => .pure _

end Dictionary

/-! ## Objects -/

namespace Object

/-- The blocks of properties from an address on lead to a zero byte. -/
inductive ChainEnds (memory : Memory) : Nat → Prop where
  | stop {address : Nat} : memory.getByte address = .ok 0 → ChainEnds memory address
  | block {address : Nat} {size : UInt8} : memory.getByte address = .ok size → size ≠ 0 →
      ChainEnds memory (address + 1 + ((size >>> 5).toNat + 1)) → ChainEnds memory address

theorem ChainEnds.lt_size (ends : ChainEnds memory address) : address < memory.size := by
  cases ends with
  | stop read => exact Memory.lt_size_of_getByte read
  | block read => exact Memory.lt_size_of_getByte read

/-- Blocks have two bytes or more, so half as many as there are bytes left are limit
enough. -/
theorem succeeds_readChainUpTo {limit : Nat} {found : List Property}
    (enough : memory.size ≤ address + 2 * limit) :
    Succeeds (readChainUpTo memory limit address found) ↔ ChainEnds memory address := by
  induction limit generalizing address found with
  | zero =>
      constructor
      · intro no
        exact absurd no Succeeds.not_error
      · intro ends
        exact absurd ends.lt_size (Nat.not_lt.2 enough)
  | succ limit ih =>
      simp only [readChainUpTo, Succeeds.bind_iff]
      constructor
      · rintro ⟨size, read, rest⟩
        split at rest
        next zero => exact .stop (zero ▸ read)
        next nonzero =>
          obtain ⟨data, -, rest⟩ := Succeeds.bind_iff.1 rest
          exact .block read nonzero ((ih (by omega)).1 rest)
      · intro ends
        cases ends with
        | stop read =>
            refine ⟨0, read, ?_⟩
            rw [if_pos rfl]
            exact .pure _
        | @block _ size read nonzero later =>
            obtain ⟨data, slice⟩ := Memory.exists_slice (Nat.le_of_lt later.lt_size)
            refine ⟨size, read, ?_⟩
            rw [if_neg nonzero]
            exact Succeeds.bind_iff.2 ⟨data, slice, (ih (by omega)).2 later⟩

theorem succeeds_readChain : Succeeds (readChain memory address) ↔ ChainEnds memory address :=
  succeeds_readChainUpTo (by omega)

theorem exists_readName {count : Nat} (inside : address + 2 * count ≤ memory.size) :
    Succeeds (readName memory address count) := by
  induction count generalizing address with
  | zero => exact .ok _
  | succ count ih =>
      obtain ⟨word, read⟩ := Memory.exists_getWord (show address + 1 < memory.size by omega)
      obtain ⟨rest, more⟩ := ih (show address + 2 + 2 * count ≤ memory.size by omega)
      exact Succeeds.bind_iff.2 ⟨word, read, Succeeds.bind_iff.2 ⟨rest, more, .pure _⟩⟩

/-- The record lies inside the image, and it points to a name and a chain of
properties that ends there. -/
def Readable (memory : Memory) (record : Nat) : Prop :=
  ∃ header nameLength, memory.getWord (record + 7) = .ok header ∧
    memory.getByte header.toNat = .ok nameLength ∧
    ChainEnds memory (header.toNat + 1 + 2 * nameLength.toNat)

theorem succeeds_read {abbreviations : Abbreviations} {record : Nat} :
    Succeeds (read memory abbreviations record) ↔ Readable memory record := by
  simp only [read, Succeeds.bind_iff]
  constructor
  · rintro ⟨_, -, header, readHeader, nameLength, readLength, _, -, properties, chain, -⟩
    exact ⟨header, nameLength, readHeader, readLength, succeeds_readChain.1 ⟨properties, chain⟩⟩
  · rintro ⟨header, nameLength, readHeader, readLength, ends⟩
    have last := Memory.lt_size_of_getWord readHeader
    obtain ⟨attributes, readAttributes⟩ :=
      exists_readAttributes (show record + 3 < memory.size by omega)
    obtain ⟨name, readName⟩ := exists_readName (Nat.le_of_lt ends.lt_size)
    obtain ⟨properties, chain⟩ := succeeds_readChain.2 ends
    have links := exists_readLink (show record + 7 ≤ memory.size by omega)
    obtain ⟨parent, readParent⟩ := links .parent
    obtain ⟨sibling, readSibling⟩ := links .sibling
    obtain ⟨child, readChild⟩ := links .child
    exact ⟨attributes, readAttributes, header, readHeader, nameLength, readLength, name, readName,
      properties, chain, parent, readParent, sibling, readSibling, child, readChild, .pure _⟩

theorem getWord_of_read {abbreviations : Abbreviations} {record : Nat} {object : Object}
    (isRead : read memory abbreviations record = .ok object) :
    memory.getWord (record + 7) = .ok object.propertyHeader := by
  simp only [read, except_bind_eq_ok, except_pure_eq_ok] at isRead
  obtain ⟨_, -, header, readHeader, _, -, _, -, _, -, _, -, _, -, _, -, rfl⟩ := isRead
  exact readHeader

theorem readName_failsOnly (memory : Memory) (address count : Nat) :
    FailsOnly memory.Outside (readName memory address count) := by
  induction count generalizing address with
  | zero => exact .ok _
  | succ count ih =>
      exact .bind (memory.getWord_failsOnly _) fun _ _ => .bind (ih _) fun _ _ => .pure _

theorem readChainUpTo_failsOnly (memory : Memory) (limit address : Nat) (found : List Property) :
    FailsOnly memory.Outside (readChainUpTo memory limit address found) := by
  induction limit generalizing address found with
  | zero => exact FailsOnly.error.2 ⟨address, rfl⟩
  | succ limit ih =>
      exact .bind (memory.getByte_failsOnly _) fun _ _ =>
        .ite (.pure _) (.bind (memory.slice_failsOnly _ _) fun _ _ => ih _ _)

theorem read_failsOnly (memory : Memory) (abbreviations : Abbreviations) (record : Nat) :
    FailsOnly memory.Outside (read memory abbreviations record) :=
  .bind (readAttributes_failsOnly memory record) fun _ _ =>
    .bind (memory.getWord_failsOnly _) fun _ _ => .bind (memory.getByte_failsOnly _) fun _ _ =>
      .bind (readName_failsOnly memory _ _) fun _ _ =>
        .bind (readChainUpTo_failsOnly memory _ _ _) fun _ _ =>
          .bind (memory.getByte_failsOnly _) fun _ _ => .bind (memory.getByte_failsOnly _) fun _ _ =>
            .bind (memory.getByte_failsOnly _) fun _ _ => .pure _

end Object

/-! ## The object table -/

namespace ObjectTable

/-- All objects can be read.  Their records end where the name of the first object
begins. -/
def Readable (memory : Memory) (base : Nat) : Prop :=
  ∃ header, memory.getWord (firstRecord base + 7) = .ok header ∧
    ∀ index < capacity, index = 0 ∨ firstRecord base + recordLength * index < header.toNat →
      Object.Readable memory (firstRecord base + recordLength * index)

theorem pastRecords_iff {objects : Array Object} (record : Nat) {header : UInt16}
    (known : ∀ h : 0 < objects.size, objects[0].propertyHeader = header) :
    pastRecords objects record = true ↔ 0 < objects.size ∧ header.toNat ≤ record := by
  by_cases nonempty : 0 < objects.size
  · simp [pastRecords, nonempty, known nonempty]
  · simp [pastRecords, nonempty]

/-- The first object keeps its property header when further objects are read. -/
theorem propertyHeader_push {abbreviations : Abbreviations} {first : Nat} {header : UInt16}
    (readHeader : memory.getWord (first + 7) = .ok header) {objects : Array Object}
    (known : ∀ h : 0 < objects.size, objects[0].propertyHeader = header) {object : Object}
    (isRead : Object.read memory abbreviations (first + recordLength * objects.size) = .ok object)
    (h : 0 < (objects.push object).size) : (objects.push object)[0].propertyHeader = header := by
  by_cases empty : objects.size = 0
  · have same := Object.getWord_of_read isRead
    rw [empty, Nat.mul_zero, Nat.add_zero, readHeader] at same
    cases same
    simp [Array.getElem_push, empty]
  · rw [Array.getElem_push_lt (by omega)]
    exact known (by omega)

/-- What is left to read are the records from the next one on. -/
theorem succeeds_readObjects {abbreviations : Abbreviations} {first limit : Nat} {header : UInt16}
    (readHeader : memory.getWord (first + 7) = .ok header) {objects : Array Object}
    (known : ∀ h : 0 < objects.size, objects[0].propertyHeader = header) :
    Succeeds (readObjects memory abbreviations first limit objects) ↔
      ∀ index, objects.size ≤ index → index < objects.size + limit →
        (index = 0 ∨ first + recordLength * index < header.toNat) →
        Object.Readable memory (first + recordLength * index) := by
  induction limit generalizing objects with
  | zero =>
      constructor
      · intro _ index least less
        omega
      · intro _
        exact .ok _
  | succ limit ih =>
      have past := pastRecords_iff (first + recordLength * objects.size) known
      simp only [readObjects]
      split
      next isPast =>
        obtain ⟨nonempty, behind⟩ := past.1 isPast
        constructor
        · intro _ index least _ more
          have later : recordLength * objects.size ≤ recordLength * index :=
            Nat.mul_le_mul_left _ least
          omega
        · intro _
          exact .ok _
      next isMore =>
        have more : objects.size = 0 ∨ first + recordLength * objects.size < header.toNat := by
          by_cases empty : objects.size = 0
          · exact .inl empty
          · exact .inr (Nat.not_le.1 fun behind => isMore (past.2 ⟨by omega, behind⟩))
        rw [Succeeds.bind_iff]
        constructor
        · rintro ⟨object, isRead, rest⟩ index least less open'
          by_cases same : index = objects.size
          · subst same
            exact Object.succeeds_read.1 ⟨object, isRead⟩
          · refine (ih (propertyHeader_push readHeader known isRead)).1 rest index ?_ ?_ open'
            · rw [Array.size_push]
              omega
            · rw [Array.size_push]
              omega
        · intro all
          obtain ⟨object, isRead⟩ := Object.succeeds_read.2
            (all objects.size (Nat.le_refl _) (by omega) more)
          refine ⟨object, isRead, (ih (propertyHeader_push readHeader known isRead)).2 ?_⟩
          intro index least less open'
          rw [Array.size_push] at least less
          exact all index (by omega) (by omega) open'

theorem succeeds_load {base : Nat} {abbreviations : Abbreviations} :
    Succeeds (load memory base abbreviations) ↔ Readable memory base := by
  simp only [load, Succeeds.bind_iff]
  have none : ∀ h : 0 < (#[] : Array Object).size, ∀ header : UInt16,
      (#[] : Array Object)[0].propertyHeader = header := fun h => absurd h (Nat.lt_irrefl 0)
  constructor
  · rintro ⟨_, -, objects, readAll, -⟩
    obtain ⟨object, isRead, -⟩ := except_bind_eq_ok.1 readAll
    have readHeader := Object.getWord_of_read isRead
    refine ⟨object.propertyHeader, readHeader, ?_⟩
    intro index less more
    exact (succeeds_readObjects readHeader fun h => none h _).1 ⟨objects, readAll⟩ index
      (Nat.zero_le _) (by simpa using less) more
  · rintro ⟨header, readHeader, all⟩
    have last := Memory.lt_size_of_getWord readHeader
    obtain ⟨defaults, readDefaults⟩ :=
      Memory.exists_getWords (show base + 2 * defaultCount ≤ memory.size by
        simp only [firstRecord] at last
        omega)
    obtain ⟨objects, readAll⟩ := (succeeds_readObjects readHeader fun h => none h _).2
      fun index _ less more => all index (by simpa using less) more
    exact ⟨defaults, readDefaults, objects, readAll, .pure _⟩

theorem readObjects_failsOnly (memory : Memory) (abbreviations : Abbreviations) (first limit : Nat)
    (objects : Array Object) :
    FailsOnly memory.Outside (readObjects memory abbreviations first limit objects) := by
  induction limit generalizing objects with
  | zero => exact .ok _
  | succ limit ih =>
      exact .ite (.ok _)
        (.bind (Object.read_failsOnly memory abbreviations _) fun _ _ => ih _)

theorem load_failsOnly (memory : Memory) (base : Nat) (abbreviations : Abbreviations) :
    FailsOnly memory.Outside (load memory base abbreviations) :=
  .bind (memory.getWords_failsOnly _ _) fun _ _ =>
    .bind (readObjects_failsOnly memory abbreviations _ _ _) fun _ _ => .pure _

end ObjectTable

/-! ## Global variables -/

namespace Globals

/-- The table lies inside the image. -/
def Readable (memory : Memory) (base : Nat) : Prop := base + 2 * globalCount ≤ memory.size

theorem succeeds_load {base : Nat} : Succeeds (load memory base) ↔ Readable memory base := by
  constructor
  · rintro ⟨globals, loaded⟩
    obtain ⟨cells, read, -⟩ := except_bind_eq_ok.1 loaded
    have last := Memory.lt_size_of_getWord (Memory.getWords_eq_ok read 239 (by decide))
    simp only [Readable, globalCount]
    omega
  · intro inside
    obtain ⟨cells, read⟩ := Memory.exists_getWords inside
    exact Succeeds.bind_iff.2 ⟨cells, read, .pure _⟩

theorem load_failsOnly (memory : Memory) (base : Nat) :
    FailsOnly memory.Outside (load memory base) :=
  .bind (memory.getWords_failsOnly _ _) fun _ _ => .pure _

end Globals

end StoryMachine
