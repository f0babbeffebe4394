import StoryMachine.Proofs.Object.Views
import StoryMachine.Proofs.Table.Extent

/-!
# Flags are independent

The 32 flags of an object lie in four bytes, eight to a byte.  Setting or clearing one of
them writes a whole byte, to the copy and to memory, and yet every other flag keeps its
value (`Object.has_withAttribute`).

A write of a flag is turned down if there is no such object.  It is idle if it names
object 0 or a flag that no object has.  Otherwise it changes one flag, and one byte of
memory (`FlagWrite.perform_cases`).  So after any writes a flag has the value of the last
write to it that succeeded, and its bit in memory says the same.
-/

namespace StoryMachine

/-! ## Bits -/

namespace Attribute

/-- The place of a flag in its byte, counted from the lowest bit. -/
def bit (flag : Attribute) : Nat := 7 - flag.val % 8

theorem bit_lt (flag : Attribute) : flag.bit < 8 := by
  simp only [bit]
  omega

/-- No two flags have the same place in the same byte. -/
theorem eq_of_byte_of_bit {flag other : Attribute} (sameByte : flag.byte = other.byte)
    (sameBit : flag.bit = other.bit) : flag = other := by
  have sameByte := congrArg Fin.val sameByte
  simp only [byte, bit] at sameByte sameBit
  apply Fin.ext
  omega

/-- The mask of a flag has its bit and no other. -/
theorem toBitVec_mask : ∀ flag : Attribute, flag.mask.toBitVec = BitVec.twoPow 8 flag.bit := by
  decide

theorem and_mask_ne_zero (flag : Attribute) (byte : UInt8) :
    byte &&& flag.mask ≠ 0 ↔ byte.toBitVec.getLsbD flag.bit = true := by
  have nonzero : BitVec.twoPow 8 flag.bit ≠ 0#8 := by
    rw [← toBitVec_mask]
    revert flag
    decide
  rw [ne_eq, ← UInt8.toBitVec_inj, UInt8.toBitVec_and, toBitVec_mask, BitVec.and_twoPow]
  cases byte.toBitVec.getLsbD flag.bit with
  | false => simp
  | true => simpa using nonzero

/-- The bits of a byte with the mask of a flag put in or taken out. -/
theorem getLsbD_masked (flag : Attribute) (byte : UInt8) (value : Bool) {i : Nat} (small : i < 8) :
    (if value then byte ||| flag.mask else byte &&& ~~~flag.mask).toBitVec.getLsbD i =
      if flag.bit = i then value else byte.toBitVec.getLsbD i := by
  have mask : flag.mask.toBitVec.getLsbD i = decide (flag.bit = i) := by
    rw [toBitVec_mask, BitVec.getLsbD_twoPow, decide_eq_true flag.bit_lt, Bool.true_and]
  cases value with
  | true =>
      rw [if_pos rfl, UInt8.toBitVec_or, BitVec.getLsbD_or, mask]
      by_cases same : flag.bit = i
      · rw [decide_eq_true same, if_pos same, Bool.or_true]
      · rw [decide_eq_false same, if_neg same, Bool.or_false]
  | false =>
      rw [if_neg Bool.false_ne_true, UInt8.toBitVec_and, BitVec.getLsbD_and, UInt8.toBitVec_not,
        BitVec.getLsbD_not, mask, decide_eq_true small, Bool.true_and]
      by_cases same : flag.bit = i
      · rw [decide_eq_true same, if_pos same, Bool.not_true, Bool.and_false]
      · rw [decide_eq_false same, if_neg same, Bool.not_false, Bool.and_true]

theorem ofWord?_eq_some {word : UInt16} {flag : Attribute} :
    ofWord? word = some flag ↔ word.toNat = flag.val := by
  rw [ofWord?]
  split
  next => rw [Option.some.injEq, Fin.ext_iff]
  next large =>
    have small := flag.isLt
    constructor
    · intro no
      cases no
    · intro same
      omega

end Attribute

/-! ## Objects -/

namespace Object

variable {object : Object}

theorem has_eq_getLsbD (object : Object) (flag : Attribute) :
    object.has flag = (object.attributeByte flag).toBitVec.getLsbD flag.bit := by
  rw [Bool.eq_iff_iff, ← flag.and_mask_ne_zero, has, decide_eq_true_iff]

theorem attributeByte_withAttribute_self (flag : Attribute) (value : Bool) :
    (object.withAttribute flag value).attributeByte flag =
      if value then object.attributeByte flag ||| flag.mask
      else object.attributeByte flag &&& ~~~flag.mask :=
  Vector.getElem_set_self flag.byte.isLt

theorem attributeByte_withAttribute_of_ne {flag other : Attribute} (value : Bool)
    (different : other.byte ≠ flag.byte) :
    (object.withAttribute flag value).attributeByte other = object.attributeByte other :=
  Vector.getElem_set_ne flag.byte.isLt other.byte.isLt fun same => different (Fin.ext same.symm)

theorem attributeByte_congr (object : Object) {flag other : Attribute}
    (sameByte : other.byte = flag.byte) :
    object.attributeByte other = object.attributeByte flag := by
  simp only [attributeByte, sameByte]

/-- Changing a flag leaves all others as they are, those in its byte as well. -/
theorem has_withAttribute (object : Object) (flag other : Attribute) (value : Bool) :
    (object.withAttribute flag value).has other =
      if other = flag then value else object.has other := by
  rw [has_eq_getLsbD, has_eq_getLsbD]
  by_cases sameByte : other.byte = flag.byte
  · have same : flag.bit = other.bit ↔ other = flag := by
      constructor
      · intro sameBit
        exact Attribute.eq_of_byte_of_bit sameByte sameBit.symm
      · rintro rfl
        rfl
    rw [attributeByte_congr _ sameByte, attributeByte_congr _ sameByte,
      attributeByte_withAttribute_self, flag.getLsbD_masked _ _ other.bit_lt]
    simp only [same]
  · have different : other ≠ flag := fun same => sameByte (congrArg Attribute.byte same)
    rw [if_neg different, attributeByte_withAttribute_of_ne value sameByte]

end Object

namespace ObjectTable

/-- There is an object of one number and a flag of the other, whether it is set or not. -/
structure KnowsFlag (table : ObjectTable) (number flag : UInt16) : Prop where
  positive : 1 ≤ number.toNat
  known : number.toNat ≤ table.size
  small : flag.toNat ≤ 31

/-- The address of the byte with a flag of an object. -/
def flagAddress (table : ObjectTable) (number flag : UInt16) : Nat :=
  table.record number.toNat + flag.toNat / 8

variable {table : ObjectTable} {number flag : UInt16}

theorem KnowsFlag.nonzero (knows : table.KnowsFlag number flag) : number ≠ 0 := by
  rintro rfl
  exact absurd knows.positive (Nat.not_succ_le_zero 0)

theorem KnowsFlag.exists_attribute (knows : table.KnowsFlag number flag) :
    ∃ known, Attribute.ofWord? flag = some known :=
  ⟨⟨_, Nat.lt_succ_of_le knows.small⟩, Attribute.ofWord?_eq_some.2 rfl⟩

theorem exists_object (known : number.toNat ≤ table.size) :
    ∃ object, table.object number = .ok object := by
  by_cases zero : number = 0
  · exact ⟨.inert, if_pos zero⟩
  · obtain ⟨k, number_eq⟩ := exists_toNat_eq_succ zero
    exact ⟨_, (object_eq_ok zero).2 ⟨Nat.lt_of_lt_of_le (by omega) known, rfl⟩⟩

theorem testAttribute_of_object {object : Object} (asked : table.object number = .ok object)
    (flag : UInt16) :
    table.testAttribute number flag = .ok ((Attribute.ofWord? flag).any object.has) := by
  rw [testAttribute, asked]
  cases Attribute.ofWord? flag with
  | none => rfl
  | some known => rfl

/-- A flag is the bit of its byte in memory. -/
theorem RecordsAgree.testAttribute {memory : Memory} (agrees : table.RecordsAgree memory)
    (knows : table.KnowsFlag number flag) :
    ∃ byte, memory.getByte (table.flagAddress number flag) = .ok byte ∧
      table.testAttribute number flag =
        .ok (decide (byte &&& 0x80 >>> UInt8.ofNat (flag.toNat % 8) ≠ 0)) := by
  obtain ⟨object, asked, agreesObject⟩ := agrees.exists_object knows.nonzero knows.known
  obtain ⟨known, named⟩ := knows.exists_attribute
  rw [testAttribute_of_object asked, named, flagAddress, Attribute.ofWord?_eq_some.1 named]
  exact ⟨object.attributeByte known, agreesObject.attributes _ known.byte.isLt, rfl⟩

end ObjectTable

namespace ObjectStore

/-! ## Writes of flags -/

/-- A write of a flag of an object. -/
structure FlagWrite where
  number : UInt16
  flag : UInt16
  value : Bool

namespace FlagWrite

/-- Makes the write. -/
def perform (write : FlagWrite) : Edit Unit :=
  setAttribute write.number write.flag write.value

/-- What comes of a write to a flag that an object has.  The table stays where it is and as
large as it is, its records still agree with memory, and nothing but the flag and its byte
has changed. -/
structure Sets (write : FlagWrite) (store edited : ObjectStore) : Prop where
  base : edited.table.base = store.table.base
  size : edited.table.size = store.table.size
  agrees : edited.table.RecordsAgree edited.memory
  flags : ∀ number flag, edited.table.testAttribute number flag =
    if write.number = number ∧ write.flag = flag then .ok write.value
    else store.table.testAttribute number flag
  memory : store.memory.SameOutside edited.memory
    (store.table.flagAddress write.number write.flag) 1

variable {write : FlagWrite} {store : ObjectStore}

/-- The flags of a table in which one flag of one object has changed. -/
theorem testAttribute_changed {table changed : ObjectTable} {object : Object} {known : Attribute}
    (named : Attribute.ofWord? write.flag = some known)
    (asked : table.object write.number = .ok object)
    (after : changed.object write.number = .ok (object.withAttribute known write.value))
    (others : ∀ other, other ≠ write.number → changed.object other = table.object other)
    (number flag : UInt16) :
    changed.testAttribute number flag =
      if write.number = number ∧ write.flag = flag then .ok write.value
      else table.testAttribute number flag := by
  by_cases same : number = write.number
  · subst same
    rw [ObjectTable.testAttribute_of_object after, ObjectTable.testAttribute_of_object asked]
    cases tests : Attribute.ofWord? flag with
    | none =>
        have other : write.flag ≠ flag := by
          rintro rfl
          cases named.symm.trans tests
        rw [if_neg fun both => other both.2]
        rfl
    | some tested =>
        have same : tested = known ↔ write.flag = flag := by
          rw [← UInt16.toNat_inj, Attribute.ofWord?_eq_some.1 named,
            Attribute.ofWord?_eq_some.1 tests, Fin.ext_iff, eq_comm]
        rw [Option.any_some, Option.any_some, Object.has_withAttribute]
        simp only [same, true_and]
        split <;> rfl
  · rw [if_neg fun both => same both.1.symm, ObjectTable.testAttribute, others number same]
    rfl

/-- A write to a flag that an object has succeeds. -/
theorem exists_sets (agrees : store.table.RecordsAgree store.memory)
    (knows : store.table.KnowsFlag write.number write.flag) :
    ∃ edited, write.perform store = .ok () edited ∧ write.Sets store edited := by
  have nonzero := knows.nonzero
  obtain ⟨object, asked, agreesObject⟩ := agrees.exists_object nonzero knows.known
  obtain ⟨known, named⟩ := knows.exists_attribute
  obtain ⟨memory, written⟩ := Memory.exists_setByte
    ((object.withAttribute known write.value).attributeByte known)
    (Memory.lt_size_of_getByte (agreesObject.attributes _ known.byte.isLt))
  obtain ⟨frame, byte⟩ := Memory.setByte_eq_ok written
  refine ⟨{ memory, table := { store.table with
    objects := store.table.objects.modify (write.number.toNat - 1)
      fun _ => object.withAttribute known write.value } }, ?_, ?_⟩
  · simp only [perform, setAttribute, bind_eq_ok, asking_eq_ok]
    refine ⟨object, store, ⟨asked, rfl⟩, ?_⟩
    rw [named]
    dsimp only
    rw [if_neg nonzero]
    simp only [bind_eq_ok, get_eq_ok, modifyObject_eq_ok, onMemory_eq_ok]
    exact ⟨_, _, ⟨rfl, rfl⟩, (), _, rfl, memory, written, rfl⟩
  · constructor
    case base => rfl
    case size => exact Array.size_modify
    case agrees =>
      obtain ⟨k, number_eq⟩ := exists_toNat_eq_succ nonzero
      have offset : known.byte.val < recordLength := Nat.lt_trans known.byte.isLt (by decide)
      rw [number_eq] at frame byte agreesObject
      simp only [number_eq, Nat.add_sub_cancel]
      exact agrees.modify offset frame fun _ => agreesObject.withAttribute frame byte
    case flags =>
      exact testAttribute_changed named asked (ObjectTable.object_modify_self nonzero asked)
        fun _ => ObjectTable.object_modify_of_ne nonzero
    case memory =>
      rw [ObjectTable.flagAddress, Attribute.ofWord?_eq_some.1 named]
      exact frame

/-- A write to object 0 or of a flag that no object has changes nothing. -/
theorem perform_of_idle (known : write.number.toNat ≤ store.table.size)
    (idle : write.number = 0 ∨ 31 < write.flag.toNat) : write.perform store = .ok () store := by
  obtain ⟨object, asked⟩ := ObjectTable.exists_object known
  show (asking (·.object write.number) >>= _) store = _
  rw [bind_of_ok (asking_eq_ok.2 ⟨asked, rfl⟩)]
  cases named : Attribute.ofWord? write.flag with
  | none => rfl
  | some flag =>
      have small : write.flag.toNat < 32 := Attribute.ofWord?_eq_some.1 named ▸ flag.isLt
      have zero := idle.resolve_right (Nat.not_lt.2 (Nat.le_of_lt_succ small))
      dsimp only
      rw [if_pos zero]
      rfl

/-- A write is turned down, or it is idle, or it sets its flag. -/
theorem perform_cases (write : FlagWrite) (agrees : store.table.RecordsAgree store.memory) :
    (store.table.size < write.number.toNat ∧
      write.perform store = .error (.invalidObject write.number) store) ∨
    (write.number.toNat ≤ store.table.size ∧ (write.number = 0 ∨ 31 < write.flag.toNat) ∧
      write.perform store = .ok () store) ∨
    (store.table.KnowsFlag write.number write.flag ∧
      ∃ edited, write.perform store = .ok () edited ∧ write.Sets store edited) := by
  rcases Nat.lt_or_ge store.table.size write.number.toNat with outside | known
  · exact .inl ⟨outside, (rejects_of_size_lt outside).setAttribute write.flag write.value⟩
  · by_cases idle : write.number = 0 ∨ 31 < write.flag.toNat
    · exact .inr (.inl ⟨known, idle, perform_of_idle known idle⟩)
    · obtain ⟨nonzero, small⟩ := not_or.1 idle
      obtain ⟨k, number_eq⟩ := exists_toNat_eq_succ nonzero
      have knows : store.table.KnowsFlag write.number write.flag := ⟨by omega, known, by omega⟩
      exact .inr (.inr ⟨knows, exists_sets agrees knows⟩)

/-! ## Rows of writes -/

/-- The value that a write with its result gives to a flag, if it is a write of this flag
and succeeds. -/
def given? (number flag : UInt16) : FlagWrite × Except Error Unit → Option Bool
  | (write, .ok _) => if write.number = number ∧ write.flag = flag then some write.value else none
  | (_, .error _) => none

/-- The value that the last write of a flag that succeeds gives to it. -/
def lastGiven? (number flag : UInt16) (writes : List FlagWrite) (store : ObjectStore) :
    Option Bool :=
  ((writes.zip (givesAll perform writes store)).filterMap (given? number flag)).getLast?

theorem lastGiven?_cons (number flag : UInt16) (write : FlagWrite) (rest : List FlagWrite)
    (store : ObjectStore) :
    lastGiven? number flag (write :: rest) store =
      (lastGiven? number flag rest (leaves write.perform store)).or
        (given? number flag (write, gives write.perform store)) := by
  rw [lastGiven?, givesAll, List.zip_cons_cons, List.filterMap_cons, lastGiven?]
  cases given? number flag (write, gives write.perform store) with
  | none => rw [Option.or_none]
  | some value => rw [List.getLast?_cons, Option.or_some]

/-- What writes of flags keep.  The table lies where another one did and is as large, and
its records agree with memory. -/
structure Follows (first : ObjectTable) (store : ObjectStore) : Prop where
  base : store.table.base = first.base
  size : store.table.size = first.size
  agrees : store.table.RecordsAgree store.memory

variable {first : ObjectTable} {number flag : UInt16}

theorem Follows.knowsFlag_iff (follows : Follows first store) :
    store.table.KnowsFlag number flag ↔ first.KnowsFlag number flag := by
  constructor
  · rintro ⟨positive, known, small⟩
    exact ⟨positive, follows.size ▸ known, small⟩
  · rintro ⟨positive, known, small⟩
    exact ⟨positive, follows.size.symm ▸ known, small⟩

theorem Follows.flagAddress_eq (follows : Follows first store) :
    store.table.flagAddress number flag = first.flagAddress number flag := by
  simp only [ObjectTable.flagAddress, ObjectTable.record, follows.base]

theorem Follows.perform (follows : Follows first store) (write : FlagWrite) :
    Follows first (leaves write.perform store) := by
  obtain ⟨-, run⟩ | ⟨-, -, run⟩ | ⟨-, edited, run, sets⟩ := write.perform_cases follows.agrees
  · rw [leaves_of_error run]
    exact follows
  · rw [leaves_of_ok run]
    exact follows
  · rw [leaves_of_ok run]
    exact ⟨sets.base.trans follows.base, sets.size.trans follows.size, sets.agrees⟩

/-- A write gives a flag its value or leaves it as it is. -/
theorem testAttribute_leaves (write : FlagWrite) (agrees : store.table.RecordsAgree store.memory)
    (knows : store.table.KnowsFlag number flag) :
    (leaves write.perform store).table.testAttribute number flag =
      ((given? number flag (write, gives write.perform store)).map .ok).getD
        (store.table.testAttribute number flag) := by
  obtain ⟨-, run⟩ | ⟨-, idle, run⟩ | ⟨-, edited, run, sets⟩ := write.perform_cases agrees
  · rw [leaves_of_error run, gives_of_error run]
    rfl
  · have other : ¬(write.number = number ∧ write.flag = flag) := by
      rintro ⟨rfl, rfl⟩
      exact idle.elim knows.nonzero (Nat.not_lt.2 knows.small)
    rw [leaves_of_ok run, gives_of_ok run, given?, if_neg other]
    rfl
  · rw [leaves_of_ok run, gives_of_ok run, given?, sets.flags]
    split <;> rfl

/-- The last write to a flag that succeeds gives it its value. -/
theorem testAttribute_leavesAll (writes : List FlagWrite) (follows : Follows first store)
    (knows : first.KnowsFlag number flag) :
    (leavesAll perform writes store).table.testAttribute number flag =
      ((lastGiven? number flag writes store).map .ok).getD
        (store.table.testAttribute number flag) := by
  induction writes generalizing store with
  | nil => rfl
  | cons write rest ih =>
      rw [leavesAll, ih (follows.perform write), lastGiven?_cons,
        testAttribute_leaves write follows.agrees (follows.knowsFlag_iff.2 knows)]
      cases lastGiven? number flag rest (leaves write.perform store) with
      | none =>
          rw [Option.none_or]
          rfl
      | some value => rfl

/-- Writes change no byte but those of the flags that they are for. -/
theorem getByte_leavesAll {x : Nat} (writes : List FlagWrite) (follows : Follows first store)
    (misses : ∀ write ∈ writes, first.KnowsFlag write.number write.flag →
      x ≠ first.flagAddress write.number write.flag) :
    (leavesAll perform writes store).memory.getByte x = store.memory.getByte x := by
  induction writes generalizing store with
  | nil => rfl
  | cons write rest ih =>
      rw [leavesAll, ih (follows.perform write) fun other member => misses other (.tail _ member)]
      obtain ⟨-, run⟩ | ⟨-, -, run⟩ | ⟨knows, edited, run, sets⟩ :=
        write.perform_cases follows.agrees
      · rw [leaves_of_error run]
      · rw [leaves_of_ok run]
      · have outside := misses write (.head _) (follows.knowsFlag_iff.1 knows)
        rw [← follows.flagAddress_eq] at outside
        rw [leaves_of_ok run]
        exact sets.memory.getByte x (by omega)

/-- A write succeeds exactly when there is an object of its number, or the number is 0. -/
theorem gives_eq_ok_iff (write : FlagWrite) (agrees : store.table.RecordsAgree store.memory) :
    gives write.perform store = .ok () ↔ write.number.toNat ≤ store.table.size := by
  obtain ⟨outside, run⟩ | ⟨known, -, run⟩ | ⟨knows, edited, run, -⟩ := write.perform_cases agrees
  · rw [gives_of_error run]
    exact iff_of_false nofun (Nat.not_le.2 outside)
  · rw [gives_of_ok run]
    exact iff_of_true rfl known
  · rw [gives_of_ok run]
    exact iff_of_true rfl knows.known

/-- A write of a flag that no object has changes nothing. -/
theorem leaves_of_not_knowsFlag (agrees : store.table.RecordsAgree store.memory)
    (lacks : ¬store.table.KnowsFlag write.number write.flag) :
    leaves write.perform store = store := by
  obtain ⟨-, run⟩ | ⟨-, -, run⟩ | ⟨knows, -⟩ := write.perform_cases agrees
  · exact leaves_of_error run
  · exact leaves_of_ok run
  · exact absurd knows lacks

end FlagWrite

/-- After any writes of flags of a loaded table, whether they succeed or fail, each flag of
each object has the value of the last write to it that succeeded, and the value it was
loaded with if there was none.  Its bit in memory says the same.  No byte has changed but
those with the flags that were written.  A write succeeds if there is an object of its
number, or the number is 0.  It changes nothing if there is no object of its number, or
the object has no such flag. -/
theorem flags_independent {memory : Memory} {base : Nat} {abbreviations : Abbreviations}
    {loaded : ObjectTable} {store : ObjectStore} (writes : List FlagWrite)
    (isLoaded : ObjectTable.load memory base abbreviations = .ok loaded)
    (written : leavesAll FlagWrite.perform writes ⟨memory, loaded⟩ = store) :
    (∀ number flag : UInt16, 1 ≤ number.toNat → number.toNat ≤ loaded.size → flag.toNat ≤ 31 →
      ∃ old byte, loaded.testAttribute number flag = .ok old ∧
        store.table.testAttribute number flag =
          .ok ((FlagWrite.lastGiven? number flag writes ⟨memory, loaded⟩).getD old) ∧
        store.memory.getByte (loaded.record number.toNat + flag.toNat / 8) = .ok byte ∧
        store.table.testAttribute number flag =
          .ok (decide (byte &&& 0x80 >>> UInt8.ofNat (flag.toNat % 8) ≠ 0))) ∧
    (∀ address, (∀ write ∈ writes, loaded.KnowsFlag write.number write.flag →
        address ≠ loaded.flagAddress write.number write.flag) →
      store.memory.getByte address = memory.getByte address) ∧
    (∀ write : FlagWrite, gives write.perform store = .ok () ↔
      write.number.toNat ≤ loaded.size) ∧
    ∀ write : FlagWrite, ¬loaded.KnowsFlag write.number write.flag →
      leaves write.perform store = store := by
  have agrees := (ObjectTable.load_agrees isLoaded).1.recordsAgree
  have start : FlagWrite.Follows loaded ⟨memory, loaded⟩ := ⟨rfl, rfl, agrees⟩
  have follows : FlagWrite.Follows loaded store := by
    rw [← written]
    exact leavesAll_keeps (fun write _ follows => follows.perform write) writes start
  refine ⟨?_, ?_, ?_, ?_⟩
  · intro number flag positive known small
    have knows : loaded.KnowsFlag number flag := ⟨positive, known, small⟩
    obtain ⟨_, -, old⟩ := agrees.testAttribute knows
    obtain ⟨byte, read, now⟩ := follows.agrees.testAttribute (follows.knowsFlag_iff.2 knows)
    have last := FlagWrite.testAttribute_leavesAll writes start knows
    rw [written] at last
    rw [follows.flagAddress_eq] at read
    refine ⟨_, byte, old, ?_, read, now⟩
    rw [last, old]
    cases FlagWrite.lastGiven? number flag writes ⟨memory, loaded⟩ with
    | none => rfl
    | some value => rfl
  · intro address misses
    rw [← written]
    exact FlagWrite.getByte_leavesAll writes start misses
  · intro write
    rw [write.gives_eq_ok_iff follows.agrees, follows.size]
  · intro write lacks
    exact FlagWrite.leaves_of_not_knowsFlag follows.agrees fun knows =>
      lacks (follows.knowsFlag_iff.1 knows)

/-- Writes of two objects.  The first is undone by the last but one, the third is of a flag
that no object has, and the fourth is of an object that is not there. -/
def sampleFlagWrites : List FlagWrite :=
  [⟨1, 3, true⟩, ⟨2, 31, true⟩, ⟨1, 40, true⟩, ⟨9, 3, true⟩, ⟨1, 3, false⟩, ⟨1, 4, true⟩]

theorem flags_independent_sample : ∃ (loaded : ObjectTable) (store : ObjectStore) (byte : UInt8),
    ObjectTable.load pairTable 0 default = .ok loaded ∧
      leavesAll FlagWrite.perform sampleFlagWrites ⟨pairTable, loaded⟩ = store ∧
      store.table.testAttribute 1 3 = .ok false ∧ store.table.testAttribute 2 31 = .ok true ∧
      store.memory.getByte 74 = .ok byte ∧ byte &&& 0x01 ≠ 0 ∧
      store.memory.getByte 63 = pairTable.getByte 63 ∧
      leaves (setAttribute 1 40 true) store = store := by
  have checked : ((ObjectTable.load pairTable 0 default).toOption.any fun loaded =>
      decide (loaded.size = 2 ∧
        FlagWrite.lastGiven? 1 3 sampleFlagWrites ⟨pairTable, loaded⟩ = some false ∧
        FlagWrite.lastGiven? 2 31 sampleFlagWrites ⟨pairTable, loaded⟩ = some true)) = true := by
    decide +kernel
  obtain ⟨loaded, isLoaded, checked⟩ := exists_of_toOption_any checked
  obtain ⟨size, cleared, set⟩ := of_decide_eq_true checked
  obtain ⟨base, -⟩ := ObjectTable.load_reads isLoaded
  obtain ⟨flags, bytes, -, idle⟩ := flags_independent sampleFlagWrites isLoaded rfl
  obtain ⟨_, _, -, first, -⟩ := flags 1 3 (by decide) (by rw [size]; decide) (by decide)
  obtain ⟨_, byte, -, second, read, bit⟩ :=
    flags 2 31 (by decide) (by rw [size]; decide) (by decide)
  rw [cleared] at first
  rw [set] at second
  simp only [ObjectTable.record, base] at read
  have bit := Except.ok.inj (bit.symm.trans second)
  refine ⟨loaded, _, byte, isLoaded, rfl, first, second, read, of_decide_eq_true bit, ?_, ?_⟩
  · have apart : ∀ write ∈ sampleFlagWrites, 63 ≠ ObjectTable.firstRecord 0 +
        recordLength * (write.number.toNat - 1) + write.flag.toNat / 8 := by
      simp [sampleFlagWrites, ObjectTable.firstRecord, defaultCount, recordLength]
    apply bytes
    intro write member _
    rw [ObjectTable.flagAddress, ObjectTable.record, base]
    exact apart write member
  · exact idle ⟨1, 40, true⟩ fun knows => absurd knows.small (by decide)

end ObjectStore

end StoryMachine
