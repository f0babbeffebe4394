import Mathlib.Data.Nat.Bitwise
import StoryMachine.Instruction.Decode
import StoryMachine.Proofs.Memory.Bytes

/-!
# How instructions are written

This module says how instructions are written, without reference to decoding.
An `Encoding` is an opening followed by arguments.  The opening is one byte or,
in the variable form, two, and says which category the opcode is read in, its
number and the kinds of the arguments that follow.

Decoding reads exactly what can be written (`decode_exact`): it gives an
instruction if and only if the bytes of an encoding lie at the address, and then
the instruction of that encoding.
-/

namespace StoryMachine.Instruction

/-! ## Arguments -/

/-- An operand as it is written.  None is omitted. -/
inductive Argument where
  /-- A constant of two bytes. -/
  | large (value : UInt16)
  /-- A constant of one byte. -/
  | small (value : UInt8)
  /-- The number of a variable. -/
  | variable (number : UInt8)
deriving DecidableEq

namespace Argument

/-- The kind of an argument. -/
def kind : Argument → OperandKind
  | .large _ => .large
  | .small _ => .small
  | .variable _ => .variable

/-- The bytes of an argument, the high one first. -/
def bytes : Argument → List UInt8
  | .large value => [highByte value, lowByte value]
  | .small value => [value]
  | .variable number => [number]

/-- The operand that an argument stands for. -/
def operand : Argument → Operand
  | .large value => { kind := .large, value }
  | .small value => { kind := .small, value := value.toUInt16 }
  | .variable number => { kind := .variable, value := number.toUInt16 }

end Argument

/-! ## Openings -/

/-- The two bits that select a kind. -/
def kindBits : OperandKind → Nat
  | .large => 0
  | .small => 1
  | .variable => 2
  | .omitted => 3

/-- The two-bit field of a byte at a place, counted from the top. -/
def kindField (byte : UInt8) (place : Nat) : Nat := byte.toNat / 4 ^ (3 - place) % 4

/-- A byte names kinds: its fields from the top select them, and if there are
fewer than four, the next field selects an omitted one.  The bits after it are
free. -/
structure Names (byte : UInt8) (kinds : List OperandKind) : Prop where
  length_le : kinds.length ≤ 4
  present : .omitted ∉ kinds
  field : ∀ i (h : i < kinds.length), kindField byte i = kindBits kinds[i]
  stop : kinds.length < 4 → kindField byte kinds.length = kindBits .omitted

/-- There are numbers of short openings.  Their literals refer to this by name. -/
theorem neZero_numbers : NeZero 16 := ⟨by decide⟩

attribute [local instance] neZero_numbers

/-- What stands before the arguments. -/
inductive Opening where
  /-- Two arguments of one byte, each of which may be a variable. -/
  | long (number : Fin 32) (first second : Bool)
  /-- One argument, or none if its kind is omitted.  Number 14 without an argument
  is left out, since its byte is the extended form. -/
  | short (number : Fin 16) (kind : OperandKind) (other : ¬(kind = .omitted ∧ number = 14))
  /-- The arguments that a second byte names. -/
  | listed (number : Fin 32) (many : Bool) (names : UInt8)
  /-- The extended form. -/
  | extended

namespace Opening

/-- The kind of an argument of one byte. -/
def shortKind (isVariable : Bool) : OperandKind := if isVariable then .variable else .small

/-- The number that the first byte stands for. -/
def first : Opening → Nat
  | .long number first second => 64 * first.toNat + 32 * second.toNat + number.val
  | .short number kind _ => 0x80 + 16 * kindBits kind + number.val
  | .listed number many _ => 0xc0 + 32 * many.toNat + number.val
  | .extended => 0xbe

/-- The bytes of an opening. -/
def bytes (opening : Opening) : List UInt8 :=
  UInt8.ofNat opening.first ::
    match opening with
    | .listed _ _ names => [names]
    | _ => []

/-- The category of the opcode. -/
def arity : Opening → Arity
  | .long .. => .two
  | .short _ kind _ => if kind = .omitted then .zero else .one
  | .listed _ many _ => if many then .variable else .two
  | .extended => .extended

/-- The opcode number. -/
def number : Opening → Nat
  | .long number .. => number.val
  | .short number .. => number.val
  | .listed number .. => number.val
  | .extended => 0xbe

/-- The kinds of the arguments that follow. -/
def Announces : Opening → List OperandKind → Prop
  | .long _ first second, kinds => kinds = [shortKind first, shortKind second]
  | .short _ kind _, kinds => kinds = if kind = .omitted then [] else [kind]
  | .listed _ _ names, kinds => Names names kinds
  | .extended, kinds => kinds = []

end Opening

/-! ## Encodings -/

/-- An instruction as it is written. -/
structure Encoding where
  /-- What stands before the arguments. -/
  opening : Opening
  /-- The arguments. -/
  arguments : List Argument
  /-- The arguments are of the kinds that the opening announces. -/
  announced : opening.Announces (arguments.map Argument.kind)

namespace Encoding

/-- The bytes of an encoding. -/
def bytes (encoding : Encoding) : List UInt8 :=
  encoding.opening.bytes ++ encoding.arguments.flatMap Argument.bytes

/-- The instruction that an encoding at an address stands for. -/
def instruction (encoding : Encoding) (address : Nat) : Instruction where
  arity := encoding.opening.arity
  number := UInt8.ofNat encoding.opening.number
  operands := encoding.arguments.map Argument.operand
  byte := UInt8.ofNat encoding.opening.first
  address := address
  next := address + encoding.bytes.length

end Encoding

/-! ## Bytes as numbers -/

theorem toNat_and_low (byte mask : UInt8) (count : Nat) (h : mask.toNat = 2 ^ count - 1) :
    (byte &&& mask).toNat = byte.toNat % 2 ^ count := by
  rw [UInt8.toNat_and, h, Nat.and_two_pow_sub_one_eq_mod]

theorem and_bit_ne_zero (byte mask : UInt8) (bit : Nat) (h : mask.toNat = 2 ^ bit) :
    byte &&& mask ≠ 0 ↔ byte.toNat / 2 ^ bit % 2 = 1 := by
  rw [ne_eq, ← UInt8.toNat_inj, UInt8.toNat_and, h, Nat.and_two_pow,
    Nat.testBit_eq_decide_div_mod_eq, UInt8.toNat_zero, Nat.mul_eq_zero]
  simp [Bool.toNat_eq_zero]

theorem toNat_shiftRight (byte shift : UInt8) (count : Nat) (h : shift.toNat % 8 = count) :
    (byte >>> shift).toNat = byte.toNat / 2 ^ count := by
  rw [UInt8.toNat_shiftRight, h, Nat.shiftRight_eq_div_pow]

/-- The low two bits of a byte select the kind with these bits. -/
theorem ofBits_eq_iff (byte : UInt8) (kind : OperandKind) :
    OperandKind.ofBits byte = kind ↔ byte.toNat % 4 = kindBits kind := by
  have small := Nat.mod_lt byte.toNat (by decide : 0 < 4)
  rw [OperandKind.ofBits]
  generalize byte.toNat % 4 = bits at small ⊢
  match bits, small with
  | 0, _ => cases kind <;> decide
  | 1, _ => cases kind <;> decide
  | 2, _ => cases kind <;> decide
  | 3, _ => cases kind <;> decide

/-! ## Bytes that name kinds -/

theorem kindBits_injective {kind other : OperandKind} (same : kindBits kind = kindBits other) :
    kind = other := by
  cases kind <;> cases other <;> first | rfl | cases same

/-- A byte names the kinds of one list only. -/
theorem Names.unique {byte : UInt8} {kinds other : List OperandKind} (names : Names byte kinds)
    (names' : Names byte other) : kinds = other := by
  have notLonger {short long : List OperandKind} (names : Names byte short)
      (names' : Names byte long) : ¬short.length < long.length := by
    intro less
    have omitted := (names'.field _ less).symm.trans
      (names.stop (Nat.lt_of_lt_of_le less names'.length_le))
    exact names'.present (kindBits_injective omitted ▸ List.getElem_mem less)
  refine List.ext_getElem (Nat.le_antisymm (Nat.not_lt.1 (notLonger names' names))
    (Nat.not_lt.1 (notLonger names names'))) ?_
  intro i h h'
  exact kindBits_injective ((names.field i h).symm.trans (names'.field i h'))

/-- The four kinds that the fields of a byte select. -/
def fieldKinds (byte : UInt8) : List OperandKind :=
  [byte >>> 6, byte >>> 4, byte >>> 2, byte].map OperandKind.ofBits

theorem kindBits_fieldKinds (byte : UInt8) (i : Nat) (h : i < (fieldKinds byte).length) :
    kindBits (fieldKinds byte)[i] = kindField byte i := by
  have select (shifted : UInt8) (place : Nat) (same : shifted.toNat = byte.toNat / 4 ^ (3 - place)) :
      kindBits (OperandKind.ofBits shifted) = kindField byte place := by
    rw [kindField, ← same]
    exact ((ofBits_eq_iff _ _).1 rfl).symm
  match i, h with
  | 0, _ => exact select _ 0 (toNat_shiftRight byte 6 6 rfl)
  | 1, _ => exact select _ 1 (toNat_shiftRight byte 4 4 rfl)
  | 2, _ => exact select _ 2 (toNat_shiftRight byte 2 2 rfl)
  | 3, _ => exact select _ 3 (Nat.div_one _).symm

/-- The kinds before the first omitted one are those that a byte names. -/
theorem names_kindsOfByte (byte : UInt8) : Names byte (kindsOfByte byte) := by
  obtain ⟨count, first⟩ : ∃ count,
      (fieldKinds byte).findIdx (fun kind => !decide (kind ≠ .omitted)) = count := ⟨_, rfl⟩
  have taken : kindsOfByte byte = (fieldKinds byte).take count :=
    first ▸ List.takeWhile_eq_take_findIdx_not
  have most : count ≤ (fieldKinds byte).length := first ▸ List.findIdx_le_length
  have length : (kindsOfByte byte).length = count := by
    rw [taken, List.length_take, Nat.min_eq_left most]
  refine ⟨length.trans_le most, ?_, ?_, ?_⟩
  · intro omitted
    have present := List.all_eq_true.1 List.all_takeWhile _ omitted
    exact of_decide_eq_true present rfl
  · intro i h
    rw [← kindBits_fieldKinds byte i (by omega)]
    simp only [taken, List.getElem_take]
  · intro less
    have inside : count < (fieldKinds byte).length := length ▸ less
    have omitted := ((List.findIdx_eq inside).1 first).1
    rw [length, ← kindBits_fieldKinds byte count inside]
    simp only [Bool.not_eq_true', decide_eq_false_iff_not, Decidable.not_not] at omitted
    rw [omitted]

/-! ## Openings and shapes -/

/-- A shape says of an opening what is announced. -/
structure Shape.Fits (shape : Shape) (opening : Opening) : Prop where
  arity : shape.arity = opening.arity
  number : shape.number = UInt8.ofNat opening.number
  kinds : opening.Announces shape.kinds
  length : shape.length = opening.bytes.length

/-- An opening announces one list of kinds only. -/
theorem Opening.Announces.unique {opening : Opening} {kinds other : List OperandKind}
    (announces : opening.Announces kinds) (announces' : opening.Announces other) :
    kinds = other := by
  cases opening with
  | long number first second => exact announces.trans announces'.symm
  | short number kind h => exact announces.trans announces'.symm
  | listed number many names => exact Names.unique announces announces'
  | extended => exact announces.trans announces'.symm

theorem Opening.Announces.present {opening : Opening} {kinds : List OperandKind}
    (announces : opening.Announces kinds) : .omitted ∉ kinds ∧ kinds.length ≤ 4 := by
  cases opening with
  | long number first second =>
      cases announces
      cases first <;> cases second <;> decide
  | short number kind h =>
      cases announces
      cases kind <;> decide
  | listed number many names => exact ⟨Names.present announces, Names.length_le announces⟩
  | extended =>
      cases announces
      decide

theorem Opening.first_lt (opening : Opening) : opening.first < 256 := by
  cases opening with
  | long number first second =>
      cases first <;> cases second <;> simp [Opening.first] <;> omega
  | short number kind h => cases kind <;> simp [Opening.first, kindBits] <;> omega
  | listed number many names => cases many <;> simp [Opening.first] <;> omega
  | extended => decide

theorem Opening.toNat_first (opening : Opening) :
    (UInt8.ofNat opening.first).toNat = opening.first :=
  UInt8.toNat_ofNat_of_lt' opening.first_lt

theorem longShape_fits {byte : UInt8} {number : Fin 32} {first second : Bool}
    (value : byte.toNat = (Opening.long number first second).first) :
    (longShape byte).Fits (.long number first second) := by
  simp only [Opening.first] at value
  have high : byte &&& 0x40 ≠ 0 ↔ first = true := by
    rw [and_bit_ne_zero byte 0x40 6 rfl, value]
    cases first <;> cases second <;> simp <;> omega
  have low : byte &&& 0x20 ≠ 0 ↔ second = true := by
    rw [and_bit_ne_zero byte 0x20 5 rfl, value]
    cases first <;> cases second <;> simp <;> omega
  refine ⟨rfl, ?_, ?_, rfl⟩
  · apply UInt8.toNat_inj.1
    simp only [longShape, Opening.number]
    rw [toNat_and_low byte 0x1f 5 rfl, UInt8.toNat_ofNat']
    omega
  · simp only [longShape, high, low]
    rfl

theorem shortShape_fits {byte : UInt8} {number : Fin 16} {kind : OperandKind}
    {other : ¬(kind = .omitted ∧ number = 14)}
    (value : byte.toNat = (Opening.short number kind other).first) :
    (shortShape byte).Fits (.short number kind other) := by
  simp only [Opening.first] at value
  have bits : kindBits kind < 4 := by cases kind <;> decide
  have selected : OperandKind.ofBits (byte >>> 4) = kind := by
    rw [ofBits_eq_iff, toNat_shiftRight byte 4 4 rfl]
    omega
  have low : byte &&& 0x0f = UInt8.ofNat number.val := by
    apply UInt8.toNat_inj.1
    rw [toNat_and_low byte 0x0f 4 rfl, UInt8.toNat_ofNat']
    omega
  simp only [shortShape, selected, low]
  cases kind <;> exact ⟨rfl, rfl, rfl, rfl⟩

theorem variableShape_fits {byte : UInt8} {number : Fin 32} {many : Bool} {names : UInt8}
    (value : byte.toNat = (Opening.listed number many names).first) :
    (variableShape byte names).Fits (.listed number many names) := by
  simp only [Opening.first] at value
  have bit : byte &&& 0x20 ≠ 0 ↔ many = true := by
    rw [and_bit_ne_zero byte 0x20 5 rfl, value]
    cases many <;> simp <;> omega
  refine ⟨?_, ?_, names_kindsOfByte names, rfl⟩
  · simp only [variableShape, bit]
    rfl
  · apply UInt8.toNat_inj.1
    simp only [variableShape, Opening.number]
    rw [toNat_and_low byte 0x1f 5 rfl, UInt8.toNat_ofNat']
    omega

/-- The shape of what an opening starts fits the opening. -/
theorem shape_fits {memory : Memory} {address : Nat} {byte : UInt8} {opening : Opening}
    (holds : memory.Holds address opening.bytes) (value : byte.toNat = opening.first) :
    ∃ found, shape memory address byte = .ok found ∧ found.Fits opening := by
  have extended : byte = 0xbe ↔ opening.first = 0xbe := by
    rw [← UInt8.toNat_inj, value]
    rfl
  have listed : 0xc0 ≤ byte ↔ 0xc0 ≤ opening.first := by
    rw [UInt8.le_iff_toNat_le, value]
    rfl
  have short : 0x80 ≤ byte ↔ 0x80 ≤ opening.first := by
    rw [UInt8.le_iff_toNat_le, value]
    rfl
  simp only [shape, extended, listed, short]
  cases opening with
  | long number first second =>
      have below : (Opening.long number first second).first < 0x80 := by
        cases first <;> cases second <;> simp [Opening.first] <;> omega
      rw [if_neg (by omega), if_neg (by omega), if_neg (by omega)]
      exact ⟨_, rfl, longShape_fits value⟩
  | short number kind other =>
      have range : 0x80 ≤ (Opening.short number kind other).first ∧
          (Opening.short number kind other).first < 0xc0 ∧
          (Opening.short number kind other).first ≠ 0xbe := by
        cases kind <;> simp [Opening.first, kindBits] at other ⊢ <;> omega
      rw [if_neg range.2.2, if_neg (by omega), if_pos range.1]
      exact ⟨_, rfl, shortShape_fits value⟩
  | listed number many names =>
      have above : 0xc0 ≤ (Opening.listed number many names).first := by
        simp only [Opening.first]
        omega
      have second : memory.getByte (address + 1) = .ok names := holds 1 Nat.one_lt_two
      rw [if_neg (by omega), if_pos above, second]
      exact ⟨_, rfl, variableShape_fits value⟩
  | extended => exact ⟨_, rfl, congrArg _ rfl, UInt8.toNat_inj.1 value, rfl, rfl⟩

/-- Every byte starts an opening, with a second byte from `0xc0` on. -/
theorem exists_opening {memory : Memory} {address : Nat} {byte : UInt8} {found : Shape}
    (read : memory.getByte address = .ok byte) (shaped : shape memory address byte = .ok found) :
    ∃ opening : Opening, opening.first = byte.toNat ∧ memory.Holds address opening.bytes := by
  have bound := byte.toNat_lt
  have single {opening : Opening} (first : opening.first = byte.toNat)
      (bytes : opening.bytes = [UInt8.ofNat opening.first]) :
      opening.first = byte.toNat ∧ memory.Holds address opening.bytes := by
    refine ⟨first, ?_⟩
    rw [bytes, first, UInt8.ofNat_toNat]
    exact Memory.Holds.cons.2 ⟨read, .nil⟩
  simp only [shape] at shaped
  split at shaped
  next extended => exact ⟨.extended, single (by rw [extended]; rfl) rfl⟩
  next notExtended =>
    have notExtended : byte.toNat ≠ 0xbe := fun same => notExtended (UInt8.toNat_inj.1 same)
    split at shaped
    next above =>
      have above := UInt8.le_iff_toNat_le.1 above
      simp only [UInt8.reduceToNat] at above
      obtain ⟨names, second, -⟩ := except_bind_eq_ok.1 shaped
      let opening := Opening.listed ⟨byte.toNat % 32, by omega⟩ (decide (0xe0 ≤ byte.toNat)) names
      have first : opening.first = byte.toNat := by
        by_cases many : 0xe0 ≤ byte.toNat <;> simp [opening, Opening.first, many] <;> omega
      refine ⟨opening, first, ?_⟩
      have bytes : opening.bytes = [byte, names] := by
        rw [Opening.bytes, first, UInt8.ofNat_toNat]
      rw [bytes]
      exact Memory.Holds.cons.2 ⟨read, Memory.Holds.cons.2 ⟨second, .nil⟩⟩
    next notAbove =>
      have notAbove := mt UInt8.le_iff_toNat_le.2 notAbove
      simp only [UInt8.reduceToNat] at notAbove
      by_cases short : 0x80 ≤ byte.toNat
      · have bits := (ofBits_eq_iff (byte >>> 4) _).1 rfl
        rw [toNat_shiftRight byte 4 4 rfl] at bits
        refine ⟨.short ⟨byte.toNat % 16, by omega⟩ (OperandKind.ofBits (byte >>> 4)) ?_,
          single ?_ rfl⟩
        · rintro ⟨omitted, number⟩
          rw [omitted] at bits
          simp only [kindBits] at bits
          have number := congrArg Fin.val number
          simp at number
          omega
        · simp only [Opening.first, ← bits]
          omega
      · refine ⟨.long ⟨byte.toNat % 32, by omega⟩ (decide (byte.toNat / 64 = 1))
          (decide (byte.toNat / 32 % 2 = 1)), single ?_ rfl⟩
        by_cases high : byte.toNat / 64 = 1 <;> by_cases low : byte.toNat / 32 % 2 = 1 <;>
          simp [Opening.first, high, low] <;> omega

/-! ## Arguments and operands -/

theorem operandValue_of_holds {memory : Memory} {address : Nat} : ∀ {argument : Argument},
    memory.Holds address argument.bytes →
      operandValue memory address argument.kind = .ok argument.operand.value
  | .large value, holds => by
      obtain ⟨high, rest⟩ := Memory.Holds.cons.1 holds
      obtain ⟨low, -⟩ := Memory.Holds.cons.1 rest
      exact Memory.getWord_eq_ok.2 ⟨_, _, high, low, wordOfBytes_highByte_lowByte value⟩
  | .small value, holds => by
      obtain ⟨read, -⟩ := Memory.Holds.cons.1 holds
      exact except_bind_eq_ok.2 ⟨value, read, rfl⟩
  | .variable number, holds => by
      obtain ⟨read, -⟩ := Memory.Holds.cons.1 holds
      exact except_bind_eq_ok.2 ⟨number, read, rfl⟩

theorem exists_argument {memory : Memory} {address : Nat} {value : UInt16} :
    ∀ {kind : OperandKind}, kind ≠ .omitted → operandValue memory address kind = .ok value →
      ∃ argument : Argument, argument.kind = kind ∧ memory.Holds address argument.bytes
  | .large, _, read => by
      obtain ⟨high, low, first, second, rfl⟩ := Memory.getWord_eq_ok.1 read
      refine ⟨.large (wordOfBytes high low), rfl, ?_⟩
      simp [Argument.bytes, first, second]
  | .small, _, read => by
      obtain ⟨byte, read, -⟩ := except_bind_eq_ok.1 read
      exact ⟨.small byte, rfl, Memory.Holds.cons.2 ⟨read, .nil⟩⟩
  | .variable, _, read => by
      obtain ⟨byte, read, -⟩ := except_bind_eq_ok.1 read
      exact ⟨.variable byte, rfl, Memory.Holds.cons.2 ⟨read, .nil⟩⟩
  | .omitted, present, _ => absurd rfl present

theorem Argument.length_bytes (argument : Argument) :
    argument.bytes.length = argument.kind.size := by
  cases argument <;> rfl

/-- Arguments that lie in a row are read as their operands. -/
theorem readOperands_of_holds {memory : Memory} : ∀ {arguments : List Argument} {address : Nat},
    memory.Holds address (arguments.flatMap Argument.bytes) →
      readOperands memory address (arguments.map Argument.kind) =
        .ok (arguments.map Argument.operand,
          address + (arguments.flatMap Argument.bytes).length)
  | [], address, _ => rfl
  | argument :: rest, address, holds => by
      rw [List.flatMap_cons] at holds
      obtain ⟨first, others⟩ := Memory.Holds.append.1 holds
      have ih := readOperands_of_holds others
      rw [Argument.length_bytes] at ih
      rw [List.map_cons, readOperands, operandValue_of_holds first]
      simp only [bind, Except.bind, ih, List.flatMap_cons, List.length_append, List.map_cons,
        Argument.length_bytes, Nat.add_assoc]
      cases argument <;> rfl

/-- What is read as operands are arguments that lie in a row. -/
theorem exists_arguments {memory : Memory} : ∀ {kinds : List OperandKind} {address : Nat}
    {operands : List Operand} {next : Nat}, .omitted ∉ kinds →
      readOperands memory address kinds = .ok (operands, next) →
      ∃ arguments : List Argument, arguments.map Argument.kind = kinds ∧
        memory.Holds address (arguments.flatMap Argument.bytes)
  | [], _, _, _, _, _ => ⟨[], rfl, .nil⟩
  | kind :: kinds, address, operands, next, present, read => by
      simp only [readOperands, except_bind_eq_ok] at read
      obtain ⟨value, read, ⟨_, _⟩, others, -⟩ := read
      obtain ⟨argument, rfl, first⟩ :=
        exists_argument (List.ne_of_not_mem_cons present).symm read
      obtain ⟨arguments, rfl, rest⟩ := exists_arguments (List.not_mem_of_not_mem_cons present) others
      refine ⟨argument :: arguments, rfl, ?_⟩
      rw [List.flatMap_cons]
      exact Memory.Holds.append.2 ⟨first, by rw [Argument.length_bytes]; exact rest⟩

/-! ## Decoding -/

/-- An encoding that lies at an address is decoded. -/
theorem decode_of_holds {memory : Memory} {address : Nat} {encoding : Encoding}
    (holds : memory.Holds address encoding.bytes) :
    decode memory address = .ok (encoding.instruction address) := by
  obtain ⟨opening, arguments⟩ := Memory.Holds.append.1 holds
  have read : memory.getByte address = .ok (UInt8.ofNat encoding.opening.first) :=
    (Memory.Holds.cons.1 opening).1
  obtain ⟨found, shaped, fits⟩ := shape_fits opening encoding.opening.toNat_first
  have kinds := fits.kinds.unique encoding.announced
  simp only [decode, bind, Except.bind, read, shaped, fits.length, kinds,
    readOperands_of_holds arguments]
  simp only [Encoding.instruction, Encoding.bytes, fits.arity, fits.number, List.length_append,
    Nat.add_assoc]
  rfl

/-- What is decoded is an encoding that lies at the address. -/
theorem exists_encoding {memory : Memory} {address : Nat} {instruction : Instruction}
    (decoded : decode memory address = .ok instruction) :
    ∃ encoding : Encoding, memory.Holds address encoding.bytes := by
  simp only [decode, except_bind_eq_ok] at decoded
  obtain ⟨byte, read, found, shaped, ⟨_, _⟩, operands, -⟩ := decoded
  obtain ⟨opening, first, holds⟩ := exists_opening read shaped
  obtain ⟨_, shaped', fits⟩ := shape_fits holds first.symm
  obtain rfl := Except.ok.inj (shaped.symm.trans shaped')
  obtain ⟨arguments, kinds, rest⟩ := exists_arguments fits.kinds.present.1 operands
  refine ⟨⟨opening, arguments, kinds ▸ fits.kinds⟩, Memory.Holds.append.2 ⟨holds, ?_⟩⟩
  rw [← fits.length]
  exact rest

/-- What follows an instruction lies behind its address. -/
theorem lt_next_of_decode {memory : Memory} {address : Nat} {instruction : Instruction}
    (decoded : decode memory address = .ok instruction) : address < instruction.next := by
  obtain ⟨encoding, holds⟩ := exists_encoding decoded
  obtain rfl := Except.ok.inj ((decode_of_holds holds).symm.trans decoded)
  exact Nat.lt_add_of_pos_right (List.length_pos_iff.2 (List.cons_ne_nil _ _))

theorem shape_failsOnly (memory : Memory) (address : Nat) (byte : UInt8) :
    FailsOnly memory.Outside (shape memory address byte) := by
  simp only [shape]
  split
  next => exact .ok _
  next =>
    split
    next => exact .bind (memory.getByte_failsOnly _) fun _ _ => .pure _
    next => split <;> exact .ok _

theorem operandValue_failsOnly (memory : Memory) (address : Nat) (kind : OperandKind) :
    FailsOnly memory.Outside (operandValue memory address kind) := by
  simp only [operandValue]
  split
  next => exact memory.getWord_failsOnly address
  next => exact .bind (memory.getByte_failsOnly address) fun _ _ => .pure _

theorem readOperands_failsOnly (memory : Memory) : ∀ (address : Nat) (kinds : List OperandKind),
    FailsOnly memory.Outside (readOperands memory address kinds)
  | _, [] => .ok _
  | address, kind :: kinds =>
      .bind (operandValue_failsOnly memory address kind) fun _ _ =>
        .bind (readOperands_failsOnly memory _ kinds) fun _ _ => .pure _

/-- Decoding fails only where it leaves the image. -/
theorem decode_failsOnly (memory : Memory) (address : Nat) :
    FailsOnly memory.Outside (decode memory address) :=
  .bind (memory.getByte_failsOnly address) fun byte _ =>
    .bind (shape_failsOnly memory address byte) fun _ _ =>
      .bind (readOperands_failsOnly memory _ _) fun _ _ => .pure _

/-- Decoding gives an instruction exactly where the bytes of an encoding lie, and
then the instruction of that encoding, which has at most four operands, none of
them omitted, and ends inside the image.  Everywhere else it fails because it
leaves the image. -/
theorem decode_exact (memory : Memory) (address : Nat) :
    (∀ instruction, decode memory address = .ok instruction ↔
      ∃ encoding : Encoding, memory.Holds address encoding.bytes ∧
        encoding.instruction address = instruction) ∧
    (∀ encoding : Encoding, memory.Holds address encoding.bytes →
      (encoding.instruction address).operands.length ≤ 4 ∧
      (∀ operand ∈ (encoding.instruction address).operands, operand.kind ≠ .omitted) ∧
      (encoding.instruction address).address = address ∧
      (encoding.instruction address).next = address + encoding.bytes.length ∧
      (encoding.instruction address).next ≤ memory.size) ∧
    ((¬∃ encoding : Encoding, memory.Holds address encoding.bytes) →
      ∃ place, decode memory address = .error (.outOfBounds place memory.size)) := by
  refine ⟨?_, ?_, ?_⟩
  · intro instruction
    constructor
    · intro decoded
      obtain ⟨encoding, holds⟩ := exists_encoding decoded
      exact ⟨encoding, holds, Except.ok.inj ((decode_of_holds holds).symm.trans decoded)⟩
    · rintro ⟨encoding, holds, rfl⟩
      exact decode_of_holds holds
  · intro encoding holds
    have present := encoding.announced.present
    refine ⟨by simpa [Encoding.instruction] using present.2, ?_, rfl, rfl,
      holds.le_size (List.cons_ne_nil _ _)⟩
    intro operand member
    obtain ⟨argument, -, rfl⟩ := List.mem_map.1 member
    cases argument <;> exact nofun
  · intro none
    cases decoded : decode memory address with
    | ok instruction => exact absurd (exists_encoding decoded) none
    | error cause =>
        obtain ⟨place, rfl⟩ := decode_failsOnly memory address cause decoded
        exact ⟨place, rfl⟩

end StoryMachine.Instruction
