import StoryMachine.Proofs.Machine.Step
import StoryMachine.Proofs.Table.Layout

/-!
# Reading a line of input

Reading a line writes two buffers: the text buffer gets what is kept of the
line, and the parse buffer gets a block for each of its words.  If the buffers
do not overlap, what each of them holds afterwards is told by the line, the two
capacity bytes and the dictionary alone (`Filled`), and no other byte of memory
changes.
-/

namespace StoryMachine

/-! ## Texts in memory -/

/-- The bytes from an address on are the characters of a text. -/
def Memory.Spells (memory : Memory) (address : Nat) (text : List Char) : Prop :=
  ∀ i (h : i < text.length), (memory.getByte (address + i)).map charOfByte = .ok text[i]

namespace Memory.Spells

variable {memory written : Memory} {address : Nat} {text : List Char}

theorem of_sameOutside {start count : Nat} (spells : memory.Spells address text)
    (frame : memory.SameOutside written start count)
    (apart : address + text.length ≤ start ∨ start + count ≤ address) :
    written.Spells address text := by
  intro i h
  rw [frame.getByte _ (by omega)]
  exact spells i h

/-- A word of a text stands at its position. -/
theorem token {token : Token} (spells : memory.Spells address text) (within : token.Within text) :
    memory.Spells (address + token.position) token.text.toList := by
  intro i h
  obtain ⟨inside, same⟩ := List.getElem?_eq_some_iff.1 (within.getElem h)
  rw [Nat.add_assoc, spells _ inside, same]

end Memory.Spells

/-- A written text buffer spells what was kept of the line. -/
theorem TextBuffer.write_spells {address : Nat} {line text : String} {memory written : Memory}
    (write : TextBuffer.write address line memory = .ok text written) :
    written.Spells (address + 1) text.toList := by
  obtain ⟨capacity, -, rfl, -, reads, -⟩ := TextBuffer.write_eq_ok write
  intro i h
  have read := reads i (by simpa [bytes] using h)
  rw [read]
  simp only [bytes, List.getElem_map]
  exact congrArg Except.ok (charOfByte_ofNat (stored_small (List.getElem_mem h)).1)

/-! ## The buffers after reading -/

/-- The block of a word in a parse buffer is its entry in the dictionary, its
length and its place, and at that place the text buffer spells it. -/
structure ParseBuffer.Names (memory : Memory) (dictionary : Dictionary) (text block : Nat)
    (token : Token) : Prop where
  entry : memory.getWord block = .ok (UInt16.ofNat (dictionary.lookup token.text))
  length : ∃ byte, memory.getByte (block + 2) = .ok byte ∧ byte.toNat = token.text.length
  place : ∃ byte, memory.getByte (block + 3) = .ok byte ∧ byte.toNat = token.position + 1 ∧
    memory.Spells (text + byte.toNat) token.text.toList

/-- The text buffer at `text` holds a line and the parse buffer at `parse` holds
its first `count` words, and nothing else has changed. -/
structure Filled (dictionary : Dictionary) (memory written : Memory) (text parse : Nat)
    (stored : String) (tokens : List Token) (count : Nat) : Prop where
  spells : written.Spells (text + 1) stored.toList
  zero : written.getByte (text + 1 + stored.length) = .ok 0
  textCapacity : written.getByte text = memory.getByte text
  parseCapacity : written.getByte parse = memory.getByte parse
  number : ∃ byte, written.getByte (parse + 1) = .ok byte ∧ byte.toNat = count
  names : ∀ i (h : i < tokens.length), i < count →
    ParseBuffer.Names written dictionary text (parse + 2 + 4 * i) tokens[i]
  others : ∀ x, x < text + 1 ∨ text + 2 + stored.length ≤ x →
    x < parse + 1 ∨ parse + 2 + 4 * count ≤ x → written.getByte x = memory.getByte x

/-- The two writes fill buffers that do not overlap. -/
theorem Filled.of_writes {dictionary : Dictionary} {memory middle written : Memory}
    {text parse count : Nat} {line stored : String} {separators : List Char}
    (writeText : TextBuffer.write text line memory = .ok stored middle)
    (writeParse : ParseBuffer.write dictionary parse (Token.split separators stored) middle =
      .ok count written)
    (apart : Region.Apart ⟨text, 2 + stored.length⟩ ⟨parse, 2 + 4 * count⟩) :
    Filled dictionary memory written text parse stored (Token.split separators stored) count := by
  have spells := TextBuffer.write_spells writeText
  obtain ⟨capacity, -, kept, frameText, -, zero⟩ := TextBuffer.write_eq_ok writeText
  obtain ⟨capacity', -, bound, frameParse, number, holds⟩ := ParseBuffer.write_eq_ok writeParse
  have short : stored.length ≤ 255 := by
    have small := TextBuffer.length_stored_le capacity.toNat line
    have := capacity.toNat_lt
    rw [← kept] at small
    omega
  simp only [Region.Apart] at apart
  have spells : written.Spells (text + 1) stored.toList := by
    refine spells.of_sameOutside frameParse ?_
    rw [String.length_toList]
    omega
  refine ⟨spells, ?_, ?_, ?_, ⟨_, number, ?_⟩, ?_, ?_⟩
  · rw [frameParse.getByte _ (by omega)]
    exact zero
  · rw [frameParse.getByte _ (by omega), frameText.getByte _ (by omega)]
  · rw [frameParse.getByte _ (by omega), frameText.getByte _ (by omega)]
  · rw [UInt8.toNat_ofNat']
    have := capacity'.toNat_lt
    omega
  · intro i h small
    have within := Token.split_within (List.getElem_mem h)
    have block := holds i h small
    obtain ⟨length, place⟩ := within.fits (by rw [String.length_toList]; exact short)
    refine ⟨block.entry, ⟨_, block.length, length⟩, _, block.place, place, ?_⟩
    rw [place, Nat.add_comm _ 1, ← Nat.add_assoc]
    exact spells.token within
  · intro x outsideText outsideParse
    rw [frameParse.getByte _ (by omega), frameText.getByte _ (by omega)]

namespace Machine

variable {machine after : Machine}

/-! ## The actions of reading -/

theorem readVariable_calls {number : UInt8} {value : UInt16}
    (run : readVariable number machine = .ok value after) :
    ∃ calls, after = { machine with calls } := by
  simp only [readVariable] at run
  split at run
  next =>
    obtain ⟨_, _, _, -, -, rfl⟩ := onFrame_eq_ok.1 run
    exact ⟨_, rfl⟩
  next =>
    split at run
    next => exact absurd run throw_ne_ok
    next =>
      obtain ⟨-, rfl⟩ := ask_eq_ok.1 run
      exact ⟨_, rfl⟩

theorem operandValue_calls : ∀ {operand : Operand} {value : UInt16},
    operandValue operand machine = .ok value after → ∃ calls, after = { machine with calls }
  | ⟨.large, _⟩, _, run => by
      cases run
      exact ⟨_, rfl⟩
  | ⟨.small, _⟩, _, run => by
      cases run
      exact ⟨_, rfl⟩
  | ⟨.variable, _⟩, _, run => readVariable_calls run
  | ⟨.omitted, _⟩, _, run => absurd run throw_ne_ok

/-- Reading operands changes frames only. -/
theorem operandValues_calls : ∀ {operands : List Operand} {values : List UInt16}
    {machine after : Machine}, operandValues operands machine = .ok values after →
      ∃ calls, after = { machine with calls }
  | [], _, _, _, run => by
      cases run
      exact ⟨_, rfl⟩
  | operand :: rest, _, machine, _, run => by
      simp only [operandValues, bind_eq_ok, pure_eq_ok] at run
      obtain ⟨value, middle, first, _, _, others, -, rfl⟩ := run
      obtain ⟨calls, rfl⟩ := operandValue_calls first
      obtain ⟨calls', rfl⟩ := operandValues_calls others
      exact ⟨calls', rfl⟩

theorem storeLine_eq_ok {textBuffer : UInt16} {line stored : String}
    (run : storeLine textBuffer line machine = .ok stored after) :
    ∃ globals objects log memory,
      TextBuffer.write textBuffer.toNat line machine.memory = .ok stored memory ∧
      after = { machine with memory, globals, objects, log } := by
  simp only [storeLine, bind_eq_ok, onMemory_eq_ok, note_eq_ok, pure_eq_ok] at run
  obtain ⟨_, _, ⟨memory, write, rfl⟩, _, _, refreshed, _, _, rfl, rfl, rfl⟩ := run
  obtain ⟨globals, objects, log, -, -, rfl⟩ := refresh_eq_ok refreshed
  exact ⟨globals, objects, _, memory, write, rfl⟩

theorem storeWords_eq_ok {parseBuffer : UInt16} {text : String} {u : Unit}
    (run : storeWords parseBuffer text machine = .ok u after) :
    ∃ count, ParseBuffer.write machine.dictionary parseBuffer.toNat
      (Token.split machine.dictionary.separators text) machine.memory = .ok count after.memory := by
  simp only [storeWords, bind_eq_ok, get_eq_ok, narrate_eq_ok, onMemory_eq_ok] at run
  obtain ⟨_, _, ⟨rfl, rfl⟩, _, _, rfl, count, _, ⟨memory, write, rfl⟩, refreshed⟩ := run
  obtain ⟨_, _, _, -, -, rfl⟩ := refresh_eq_ok refreshed
  exact ⟨count, write⟩

/-- Reading with two buffers takes the next line and writes both. -/
theorem readInput_eq_ok {operands : List Operand} {textBuffer parseBuffer : UInt16}
    {more : List UInt16} {ready : Machine} {line : String} {rest : List InputLine}
    (values : operandValues operands machine = .ok (textBuffer :: parseBuffer :: more) ready)
    (waiting : machine.input = .text line :: rest) {outcome : Outcome}
    (run : readInput operands machine = .ok outcome after) :
    ∃ stored middle count,
      TextBuffer.write textBuffer.toNat line machine.memory = .ok stored middle ∧
      ParseBuffer.write machine.dictionary parseBuffer.toNat
        (Token.split machine.dictionary.separators stored) middle = .ok count after.memory := by
  simp only [readInput, bind_eq_ok] at run
  obtain ⟨_, _, values', run⟩ := run
  rw [values] at values'
  cases values'
  obtain ⟨calls, rfl⟩ := operandValues_calls values
  simp only [bind_eq_ok] at run
  obtain ⟨read, _, taken, run⟩ := run
  rcases readLine_eq_ok.1 taken with ⟨empty, -, -⟩ | ⟨_, _, waiting', rfl, rfl⟩
  · rw [waiting] at empty
    cases empty
  · rw [waiting] at waiting'
    cases waiting'
    simp only [bind_eq_ok, pure_eq_ok] at run
    obtain ⟨stored, _, storedLine, _, _, storedWords, -, rfl⟩ := run
    obtain ⟨_, _, _, middle, writeText, rfl⟩ := storeLine_eq_ok storedLine
    obtain ⟨count, writeParse⟩ := storeWords_eq_ok storedWords
    exact ⟨stored, middle, count, writeText, writeParse⟩

/-! ## The instruction -/

/-- A step that reads a line into two buffers that do not overlap.  What is
stored are the first ASCII characters of the line in small letters, as many as
the capacity of the text buffer allows, and they include no capital.  The
buffers hold it and its words, and no other byte of memory changes. -/
theorem step_sread {instruction : Instruction} {textBuffer parseBuffer : UInt16}
    {more : List UInt16} {ready : Machine} {line stored : String} {rest : List InputLine}
    {textCapacity parseCapacity : UInt8} {count : Nat}
    (next : machine.nextInstruction = .ok (instruction, .sread))
    (values : operandValues instruction.operands (machine.begun instruction .sread) =
      .ok (textBuffer :: parseBuffer :: more) ready)
    (waiting : machine.input = .text line :: rest)
    (textByte : machine.memory.getByte textBuffer.toNat = .ok textCapacity)
    (parseByte : machine.memory.getByte parseBuffer.toNat = .ok parseCapacity)
    (kept : stored.toList = ((line.toList.flatMap Lowercase.ofChar).filter fun c =>
      c.toNat < 128).take textCapacity.toNat)
    (counted : count =
      min (Token.split machine.dictionary.separators stored).length parseCapacity.toNat)
    (apart : Region.Apart ⟨textBuffer.toNat, 2 + stored.length⟩
      ⟨parseBuffer.toNat, 2 + 4 * count⟩)
    (step : Machine.step machine = .ok .continued after) :
    Filled machine.dictionary machine.memory after.memory textBuffer.toNat parseBuffer.toNat
      stored (Token.split machine.dictionary.separators stored) count ∧
    ∀ c ∈ stored.toList, c.toNat < 65 ∨ 90 < c.toNat := by
  obtain ⟨_, _, next', -, run⟩ := step_eq_ok.1 step
  rw [next] at next'
  cases next'
  obtain ⟨stored', middle, count', writeText, writeParse⟩ := readInput_eq_ok values waiting run
  obtain ⟨capacity, read, kept', frame, -, -⟩ := TextBuffer.write_eq_ok writeText
  obtain ⟨capacity', read', counted', -, -, -⟩ := ParseBuffer.write_eq_ok writeParse
  have same : stored' = stored := by
    obtain rfl : textCapacity = capacity := Except.ok.inj (textByte.symm.trans read)
    apply String.toList_inj.1
    rw [kept', TextBuffer.toList_stored, kept]
  subst same
  -- The capacity of the parse buffer is read after the text buffer was written, which left it.
  have sameCount : count' = count := by
    simp only [Region.Apart] at apart
    rw [frame.getByte _ (by omega)] at read'
    obtain rfl : parseCapacity = capacity' := Except.ok.inj (parseByte.symm.trans read')
    exact counted'.trans counted.symm
  subst sameCount
  refine ⟨Filled.of_writes writeText writeParse apart, ?_⟩
  intro c member
  rw [kept'] at member
  exact (TextBuffer.stored_small member).2

/-- A machine about to read a line into a text buffer at 16, for eight characters,
and a parse buffer at 32, for four words. -/
def sampleReader : Machine :=
  let code : List UInt8 := [0xe4, 0x5f, 16, 32] ++ List.replicate 12 0
  let text : List UInt8 := 8 :: List.replicate 15 0
  let parse : List UInt8 := 4 :: List.replicate 15 0
  { ofBytes (code ++ text ++ parse) [.text "Go, West!"] with
    dictionary := { separators := [','], entries := #[{ word := "go", address := 48 }] } }

theorem step_sread_sample : ∃ after : Machine,
    step sampleReader = .ok .continued after ∧
      Filled sampleReader.dictionary sampleReader.memory after.memory 16 32 "go, west"
        [⟨"go", 0⟩, ⟨",", 2⟩, ⟨"west", 4⟩] 3 := by
  have continues : sampleReader.steps? (fun outcome _ => outcome = .continued) = true := by
    decide +kernel
  have kept : "go, west".toList = (("Go, West!".toList.flatMap Lowercase.ofChar).filter fun c =>
      c.toNat < 128).take (8 : UInt8).toNat := by
    decide +kernel
  have counted : 3 = min (Token.split sampleReader.dictionary.separators "go, west").length
      (4 : UInt8).toNat := by
    decide +kernel
  obtain ⟨outcome, after, step, continued⟩ := exists_of_steps? continues
  obtain rfl : outcome = .continued := of_decide_eq_true continued
  obtain ⟨instruction, next, operands⟩ : ∃ instruction,
      sampleReader.nextInstruction = .ok (instruction, .sread) ∧
      instruction.operands = [⟨.small, 16⟩, ⟨.small, 32⟩] := ⟨_, rfl, rfl⟩
  have values : operandValues instruction.operands (sampleReader.begun instruction .sread) =
      .ok [16, 32] (sampleReader.begun instruction .sread) := by
    rw [operands]
    rfl
  obtain ⟨filled, -⟩ := step_sread next values rfl rfl rfl kept counted (by decide) step
  exact ⟨after, step, filled⟩

end Machine

end StoryMachine
