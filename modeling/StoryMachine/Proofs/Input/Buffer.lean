import StoryMachine.Input.Buffer
import StoryMachine.Proofs.Memory.Bytes

/-!
# What the input buffers hold

A word of a line is a part of it: it stands where its position says
(`Token.Within`).  A written text buffer holds the kept part of the line, and a
written parse buffer holds one block for each word it took.  Both writes leave
the bytes outside their buffer and the capacity byte as they were.

The length and the place of a word go into one byte each.  Nothing in the parse
buffer makes them fit.  They fit because a text buffer keeps no more characters
than its capacity byte says (`Token.Within.fits`).
-/

namespace StoryMachine

/-! ## Small letters -/

namespace Lowercase

theorem runs_miss_capitals : ∀ run ∈ runs,
    (run.last : Int) + run.shift < 65 ∨ 90 < (run.first : Int) + run.shift := by
  decide +kernel

theorem toNat_ofNat (n : Nat) : (Char.ofNat n).toNat = n ∨ (Char.ofNat n).toNat = 0 := by
  by_cases valid : n.isValidChar
  · rw [Char.ofNat, dif_pos valid]
    exact .inl rfl
  · rw [Char.ofNat, dif_neg valid]
    exact .inr rfl

/-- No small letter is one of the capitals from A to Z. -/
theorem not_capital {c small : Char} (member : small ∈ ofChar c) :
    small.toNat < 65 ∨ 90 < small.toNat := by
  simp only [ofChar] at member
  split at member
  next =>
    simp only [List.mem_cons, List.not_mem_nil, or_false] at member
    rcases member with rfl | rfl
    · decide
    · decide
  next =>
    cases found : runs.find? (·.covers c.toNat) with
    | none =>
        rw [found] at member
        obtain rfl := List.mem_singleton.1 member
        have uncovered := List.find?_eq_none.1 found ⟨0x41, 0x5a, 1, 32⟩ (.head _)
        simp only [Run.covers, Bool.and_eq_true, decide_eq_true_eq, Nat.mod_one, beq_self_eq_true,
          and_true] at uncovered
        omega
    | some run =>
        rw [found] at member
        obtain rfl := List.mem_singleton.1 member
        have covers := List.find?_some found
        have misses := runs_miss_capitals run (List.mem_of_find?_eq_some found)
        simp only [Run.covers, Bool.and_eq_true, decide_eq_true_eq] at covers
        rcases toNat_ofNat ((c.toNat : Int) + run.shift).toNat with same | zero
        · omega
        · omega

end Lowercase

/-! ## Words of a line -/

namespace Token

/-- A word has characters and stands in the line at its position. -/
def Within (token : Token) (line : List Char) : Prop :=
  token.text.toList ≠ [] ∧
    ∃ before after, line = before ++ token.text.toList ++ after ∧ before.length = token.position

theorem Within.getElem {token : Token} {text : List Char} (within : token.Within text) {i : Nat}
    (h : i < token.text.toList.length) :
    text[token.position + i]? = some token.text.toList[i] := by
  obtain ⟨-, before, after, rfl, length⟩ := within
  rw [← length, List.append_assoc, List.getElem?_append_right (Nat.le_add_right _ _),
    Nat.add_sub_cancel_left, List.getElem?_append_left h, List.getElem?_eq_getElem h]

/-- The length of a word and its place, counted from 1, fit into a byte when
the line has at most 255 characters. -/
theorem Within.fits {token : Token} {line : List Char} (within : token.Within line)
    (short : line.length ≤ 255) :
    (UInt8.ofNat token.text.length).toNat = token.text.length ∧
      (UInt8.ofNat token.position + 1).toNat = token.position + 1 := by
  obtain ⟨nonempty, before, after, rfl, length⟩ := within
  have positive := List.length_pos_iff.2 nonempty
  simp only [List.length_append, String.length_toList] at short positive
  constructor
  · rw [UInt8.toNat_ofNat']
    omega
  · rw [UInt8.toNat_add, UInt8.toNat_ofNat']
    show (token.position % 2 ^ 8 + 1) % 2 ^ 8 = _
    omega

theorem pending_within {line before word rest : List Char} {token : Token}
    (whole : line = before ++ word ++ rest)
    (member : token ∈ pending (before.length + word.length) word) : token.Within line := by
  simp only [pending] at member
  split at member
  next => simp at member
  next nonempty =>
    obtain rfl := List.mem_singleton.1 member
    refine ⟨by simpa using nonempty, before, rest, ?_, ?_⟩
    · simpa using whole
    · simp

/-- The words found from a place on stand in the line, when the characters since
the last space or separator lie just before that place. -/
theorem splitFrom_within {separators line : List Char} {token : Token} :
    ∀ {rest before word : List Char}, line = before ++ word ++ rest →
      token ∈ splitFrom separators (before.length + word.length) word rest → token.Within line
  | [], before, word, whole, member => pending_within whole member
  | c :: rest, before, word, whole, member => by
      have skip : line = (before ++ word ++ [c]) ++ [] ++ rest := by simp [whole]
      have moved : (before ++ word ++ [c]).length + ([] : List Char).length =
          before.length + word.length + 1 := by simp [Nat.add_assoc]
      simp only [splitFrom] at member
      split at member
      next =>
        rcases List.mem_append.1 member with member | member
        · exact pending_within whole member
        · exact splitFrom_within skip (moved ▸ member)
      next =>
        split at member
        next =>
          rcases List.mem_append.1 member with member | member
          · exact pending_within whole member
          · rcases List.mem_cons.1 member with rfl | member
            · exact ⟨by simp, before ++ word, rest, by simp [whole], by simp⟩
            · exact splitFrom_within skip (moved ▸ member)
        next =>
          have grow : line = before ++ (word ++ [c]) ++ rest := by simp [whole]
          have moved : before.length + (word ++ [c]).length = before.length + word.length + 1 := by
            simp [Nat.add_assoc]
          exact splitFrom_within grow (moved ▸ member)

/-- Every word of a line stands in it. -/
theorem split_within {separators : List Char} {line : String} {token : Token}
    (member : token ∈ split separators line) : token.Within line.toList := by
  have whole : line.toList = [] ++ [] ++ line.toList := rfl
  exact splitFrom_within whole member

end Token

/-! ## The text buffer -/

namespace TextBuffer

theorem toList_stored (capacity : Nat) (line : String) :
    (stored capacity line).toList =
      ((line.toList.flatMap Lowercase.ofChar).filter fun c => c.toNat < 128).take capacity :=
  String.toList_ofList

theorem length_stored_le (capacity : Nat) (line : String) :
    (stored capacity line).length ≤ capacity := by
  rw [← String.length_toList, toList_stored]
  exact List.length_take_le _ _

/-- What is kept of a line has ASCII characters only, and no capital letters. -/
theorem stored_small {capacity : Nat} {line : String} {c : Char}
    (member : c ∈ (stored capacity line).toList) :
    c.toNat < 128 ∧ (c.toNat < 65 ∨ 90 < c.toNat) := by
  rw [toList_stored] at member
  obtain ⟨member, ascii⟩ := List.mem_filter.1 (List.mem_of_mem_take member)
  obtain ⟨_, -, member⟩ := List.mem_flatMap.1 member
  exact ⟨by simpa using ascii, Lowercase.not_capital member⟩

theorem charOfByte_ofNat {c : Char} (ascii : c.toNat < 128) :
    charOfByte (UInt8.ofNat c.toNat) = c := by
  have fits : (UInt8.ofNat c.toNat).toNat = c.toNat := by
    rw [UInt8.toNat_ofNat']
    omega
  rw [charOfByte, fits, Char.ofNat_toNat]

theorem length_bytes (text : String) : (bytes text).length = text.length := by
  rw [bytes, List.length_map, String.length_toList]

/-- A written text buffer holds what was kept of the line and a zero byte. -/
theorem write_eq_ok {address : Nat} {line text : String} {memory written : Memory}
    (write : TextBuffer.write address line memory = .ok text written) :
    ∃ capacity, memory.getByte address = .ok capacity ∧ text = stored capacity.toNat line ∧
      memory.SameOutside written (address + 1) (text.length + 1) ∧
      (∀ i (h : i < (bytes text).length),
        written.getByte (address + 1 + i) = .ok (bytes text)[i]) ∧
      written.getByte (address + 1 + text.length) = .ok 0 := by
  simp only [TextBuffer.write, bind_eq_ok, Memory.reading_eq_ok, pure_eq_ok] at write
  obtain ⟨capacity, _, ⟨read, rfl⟩, _, filled, characters, _, _, zero, rfl, rfl⟩ := write
  obtain ⟨frame, reads⟩ := Memory.setBytes_eq_ok characters
  obtain ⟨frame', last⟩ := Memory.setByte_eq_ok zero
  rw [length_bytes] at frame
  refine ⟨capacity, read, rfl, ?_, ?_, last⟩
  · exact (frame.mono (Nat.le_refl _) (by omega)).trans (frame'.mono (by omega) (by omega))
  · intro i h
    rw [frame'.getByte _ (by rw [length_bytes] at h; omega)]
    exact reads i h

/-- A text of some length changes at most its capacity byte, its characters and the
zero byte. -/
theorem sameOutside_of_write {address : Nat} {line text : String} {memory written : Memory}
    (write : TextBuffer.write address line memory = .ok text written) :
    memory.SameOutside written address (text.length + 2) := by
  obtain ⟨-, -, -, frame, -⟩ := write_eq_ok write
  exact frame.mono (by omega) (by omega)

end TextBuffer

/-! ## The parse buffer -/

namespace ParseBuffer

/-- The four bytes of a word are at an address. -/
structure Holds (memory : Memory) (dictionary : Dictionary) (address : Nat) (token : Token) :
    Prop where
  entry : memory.getWord address = .ok (UInt16.ofNat (dictionary.lookup token.text))
  length : memory.getByte (address + 2) = .ok (UInt8.ofNat token.text.length)
  place : memory.getByte (address + 3) = .ok (UInt8.ofNat token.position + 1)

variable {dictionary : Dictionary} {memory written : Memory}

theorem Holds.of_sameOutside {address start count : Nat} {token : Token}
    (holds : Holds memory dictionary address token)
    (frame : memory.SameOutside written start count)
    (apart : address + 4 ≤ start ∨ start + count ≤ address) :
    Holds written dictionary address token := by
  refine ⟨frame.getWord_eq_ok (by omega) holds.entry, ?_, ?_⟩
  · rw [frame.getByte _ (by omega)]
    exact holds.length
  · rw [frame.getByte _ (by omega)]
    exact holds.place

theorem writeBlock_eq_ok {address : Nat} {token : Token} {u : Unit}
    (write : writeBlock dictionary address token memory = .ok u written) :
    memory.SameOutside written address 4 ∧ Holds written dictionary address token := by
  simp only [writeBlock, bind_eq_ok] at write
  obtain ⟨_, _, word, _, _, length, place⟩ := write
  have entry := Memory.getWord_of_setWord word
  obtain ⟨frameWord, -⟩ := Memory.setWord_eq_ok word
  obtain ⟨frameLength, readLength⟩ := Memory.setByte_eq_ok length
  obtain ⟨framePlace, readPlace⟩ := Memory.setByte_eq_ok place
  refine ⟨?_, ?_, ?_, readPlace⟩
  · exact ((frameWord.mono (Nat.le_refl _) (by omega)).trans
      (frameLength.mono (by omega) (by omega))).trans (framePlace.mono (by omega) (by omega))
  · exact framePlace.getWord_eq_ok (by omega) (frameLength.getWord_eq_ok (by omega) entry)
  · rw [framePlace.getByte _ (by omega)]
    exact readLength

/-- Blocks written one after the other all stay. -/
theorem writeBlocks_eq_ok {u : Unit} : ∀ {tokens : List Token} {address : Nat} {memory : Memory},
    writeBlocks dictionary address tokens memory = .ok u written →
      memory.SameOutside written address (4 * tokens.length) ∧
      ∀ i (h : i < tokens.length), Holds written dictionary (address + 4 * i) tokens[i]
  | [], address, memory, write => by
      cases write
      exact ⟨.refl _ _ _, fun i h => absurd h (Nat.not_lt_zero i)⟩
  | token :: rest, address, memory, write => by
      simp only [writeBlocks, bind_eq_ok] at write
      obtain ⟨_, _, first, others⟩ := write
      obtain ⟨frame, holds⟩ := writeBlock_eq_ok first
      obtain ⟨frames, all⟩ := writeBlocks_eq_ok others
      simp only [List.length_cons]
      refine ⟨(frame.mono (by omega) (by omega)).trans (frames.mono (by omega) (by omega)), ?_⟩
      intro i h
      cases i with
      | zero => exact holds.of_sameOutside frames (by omega)
      | succ i =>
          have later := all i (by omega)
          rw [Nat.add_assoc, Nat.add_comm 4 (4 * i)] at later
          exact later

/-- A written parse buffer holds the number of the words it took and a block for
each of them. -/
theorem write_eq_ok {address count : Nat} {tokens : List Token}
    (write : ParseBuffer.write dictionary address tokens memory = .ok count written) :
    ∃ capacity, memory.getByte address = .ok capacity ∧
      count = min tokens.length capacity.toNat ∧
      memory.SameOutside written (address + 1) (1 + 4 * count) ∧
      written.getByte (address + 1) = .ok (UInt8.ofNat count) ∧
      ∀ i (h : i < tokens.length), i < count →
        Holds written dictionary (address + 2 + 4 * i) tokens[i] := by
  simp only [ParseBuffer.write, bind_eq_ok, Memory.reading_eq_ok, pure_eq_ok] at write
  obtain ⟨capacity, _, ⟨read, rfl⟩, _, _, number, _, _, blocks, rfl, rfl⟩ := write
  obtain ⟨frame, readNumber⟩ := Memory.setByte_eq_ok number
  obtain ⟨frames, all⟩ := writeBlocks_eq_ok blocks
  have taken : (tokens.take (min tokens.length capacity.toNat)).length =
      min tokens.length capacity.toNat := by
    rw [List.length_take]
    omega
  rw [taken] at frames
  refine ⟨capacity, read, rfl, ?_, ?_, ?_⟩
  · exact (frame.mono (Nat.le_refl _) (by omega)).trans (frames.mono (by omega) (by omega))
  · rw [frames.getByte _ (by omega)]
    exact readNumber
  · intro i h small
    have holds := all i (Nat.lt_of_lt_of_eq small taken.symm)
    rwa [List.getElem_take] at holds

/-- Words change at most the two bytes before the blocks and the blocks. -/
theorem sameOutside_of_write {address count : Nat} {tokens : List Token}
    (write : ParseBuffer.write dictionary address tokens memory = .ok count written) :
    memory.SameOutside written address (2 + 4 * count) := by
  obtain ⟨-, -, -, frame, -⟩ := write_eq_ok write
  exact frame.mono (by omega) (by omega)

end ParseBuffer

/-! ## The size of the image -/

theorem TextBuffer.write_keepsSize (address : Nat) (line : String) :
    (TextBuffer.write address line).KeepsSize :=
  .bind (.reading _) fun _ => .bind (.setBytes _ _) fun _ => .bind (.setByte _ _) fun _ => .pure _

namespace ParseBuffer

theorem writeBlocks_keepsSize (dictionary : Dictionary) : ∀ (address : Nat) (tokens : List Token),
    (writeBlocks dictionary address tokens).KeepsSize
  | _, [] => .pure ()
  | address, token :: rest => by
      refine .bind ?_ fun _ => writeBlocks_keepsSize dictionary (address + 4) rest
      exact .bind (.setWord _ _) fun _ => .bind (.setByte _ _) fun _ => .setByte _ _

theorem write_keepsSize (dictionary : Dictionary) (address : Nat) (tokens : List Token) :
    (write dictionary address tokens).KeepsSize :=
  .bind (.reading _) fun _ => .bind (.setByte _ _) fun _ =>
    .bind (writeBlocks_keepsSize dictionary _ _) fun _ => .pure _

end ParseBuffer

end StoryMachine
