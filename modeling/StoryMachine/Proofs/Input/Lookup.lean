import Mathlib.Data.Bool.AllAny
import StoryMachine.Input.Dictionary
import StoryMachine.Proofs.Text.Splice

/-!
# Looking up stored words

The entry of a word holds the codes of the word, cut or filled up with shifts to six.  A
typed word is looked up by its first six characters.  A letter takes one code, but a digit
or a punctuation mark takes two, so the entry of a word can hold less of the word than is
looked up.

A stored word is found exactly when the codes of its first six characters have room in an
entry (`lookup_stored`).  If they have, the entry decodes to these characters.  If they
have not, no entry of any dictionary decodes to them, since no decoded text takes more
codes than it was decoded from.
-/

namespace StoryMachine

/-! ## Small letters -/

namespace Lowercase

/-- The capitals below 128 are those from A to Z. -/
theorem runs_capitals : ∀ run ∈ runs, run.first = 0x41 ∧ run.last = 0x5a ∨ 0x80 ≤ run.first :=
  List.all_iff_forall_prop.1 (by decide)

theorem ofChar_of_not_capital {c : Char} (small : c.toNat < 0x80)
    (notCapital : c.toNat < 0x41 ∨ 0x5a < c.toNat) : ofChar c = [c] := by
  have uncovered : runs.find? (·.covers c.toNat) = none := by
    rw [List.find?_eq_none]
    intro run member covers
    have bounds := runs_capitals run member
    simp only [Run.covers, Bool.and_eq_true, decide_eq_true_eq] at covers
    omega
  rw [ofChar, if_neg (by omega), uncovered]

end Lowercase

namespace Dictionary

open Packed (Code charCodes textCodes wordBytes noExpansion decode)

attribute [local instance] Packed.neZero_codes

variable {memory : Memory} {base address : Nat} {dictionary : Dictionary} {word : String}
  {stored : DictionaryEntry}

/-! ## Words and their entries -/

/-- A character that the words of a dictionary are written with. -/
def WordChar (c : Char) : Prop := c.isLower ∨ c.isDigit ∨ c ∈ Packed.punctuation

instance (c : Char) : Decidable (WordChar c) := inferInstanceAs (Decidable (_ ∨ _))

theorem WordChar.spellable {c : Char} (wordChar : WordChar c) : Packed.Spellable c := by
  rcases wordChar with lower | digit | mark
  · exact .inr (.inr (.inl lower))
  · exact .inr (.inr (.inr (.inr (.inl digit))))
  · exact .inr (.inr (.inr (.inr (.inr mark))))

/-- The number of codes of an entry. -/
def entrySize : Nat := 6

/-- The codes of a word in its entry. -/
def entryCodes (word : String) : List Code :=
  (textCodes word ++ List.replicate entrySize 5).take entrySize

/-- The two words of memory that an entry opens with. -/
def entryWords (word : String) : List UInt16 := Packed.pack (entryCodes word)

example : entryWords "mailbox" = [0x48ce, 0xc4f4] := by decide

/-- The characters that a word is looked up by. -/
def head (word : String) : List Char := word.toList.take significant

/-- The codes of the characters that a word is looked up by have room in an entry. -/
def Fits (word : String) : Prop := ((head word).flatMap charCodes).length ≤ entrySize

instance (word : String) : Decidable (Fits word) := inferInstanceAs (Decidable (_ ≤ _))

/-! ## The form that is looked up -/

theorem WordChar.ofChar {c : Char} (wordChar : WordChar c) : Lowercase.ofChar c = [c] := by
  rcases wordChar with lower | digit | mark
  · have range := Packed.isLower_iff.1 lower
    exact Lowercase.ofChar_of_not_capital (by omega) (by omega)
  · have range := Packed.isDigit_iff.1 digit
    exact Lowercase.ofChar_of_not_capital (by omega) (by omega)
  · have marks : ∀ c ∈ Packed.punctuation,
        c.toNat < 0x80 ∧ (c.toNat < 0x41 ∨ 0x5a < c.toNat) :=
      List.all_iff_forall_prop.1 (by decide)
    exact Lowercase.ofChar_of_not_capital (marks c mark).1 (marks c mark).2

theorem flatMap_ofChar : ∀ {chars : List Char}, (∀ c ∈ chars, WordChar c) →
    chars.flatMap Lowercase.ofChar = chars
  | [], _ => rfl
  | c :: chars, wordChars => by
      rw [List.flatMap_cons, (wordChars c (.head _)).ofChar,
        flatMap_ofChar fun c member => wordChars c (.tail _ member)]
      rfl

/-- A word without capitals is looked up by its first characters as they are. -/
theorem key_eq (wordChars : ∀ c ∈ word.toList, WordChar c) :
    key word = String.ofList (head word) := by
  rw [key, head, flatMap_ofChar fun c member => wordChars c (List.mem_of_mem_take member)]

/-! ## What an entry decodes to -/

theorem length_entryCodes (word : String) : (entryCodes word).length = 6 := by
  simp [entryCodes, entrySize]

theorem length_le_flatMap_charCodes : ∀ chars : List Char,
    chars.length ≤ (chars.flatMap charCodes).length
  | [] => Nat.le_refl 0
  | c :: chars => by
      have one : 1 ≤ (charCodes c).length := by
        simp only [charCodes]
        split_ifs <;> simp
      have others := length_le_flatMap_charCodes chars
      simp only [List.length_cons, List.flatMap_cons, List.length_append]
      omega

/-- If they have room, the codes of the characters that a word is looked up by are the
codes of its entry.  Only padding comes after them. -/
theorem entryCodes_of_fits (fits : Fits word) :
    entryCodes word = (head word).flatMap charCodes ++
      List.replicate (entrySize - ((head word).flatMap charCodes).length) 5 := by
  have split : textCodes word =
      (head word).flatMap charCodes ++ (word.toList.drop significant).flatMap charCodes := by
    rw [head, ← List.flatMap_append, List.take_append_drop, textCodes]
  rw [entryCodes, split, List.append_assoc, List.take_append, List.take_of_length_le fits]
  congr 1
  cases rest : word.toList.drop significant with
  | nil =>
      rw [List.flatMap_nil, List.nil_append, List.take_replicate, Nat.min_eq_left (Nat.sub_le ..)]
  | cons c rest =>
      -- The word is longer than its head, so the codes of the head fill the entry.
      have long : significant < word.toList.length := by
        have := congrArg List.length rest
        simp only [List.length_drop, List.length_cons] at this
        omega
      have full : significant ≤ ((head word).flatMap charCodes).length := by
        have := length_le_flatMap_charCodes (head word)
        rw [head, List.length_take, Nat.min_eq_left (Nat.le_of_lt long)] at this
        exact this
      have none : entrySize - ((head word).flatMap charCodes).length = 0 :=
        Nat.sub_eq_zero_of_le full
      rw [none, List.take_zero, List.replicate_zero]

/-- If they have room, the entry decodes to the characters that the word is looked up by. -/
theorem decode_entryCodes (wordChars : ∀ c ∈ word.toList, WordChar c) (fits : Fits word) :
    decode noExpansion (entryCodes word) = String.ofList (head word) := by
  have spellable : ∀ c ∈ head word, Packed.Spellable c :=
    fun c member => (wordChars c (List.mem_of_mem_take member)).spellable
  rw [entryCodes_of_fits fits,
    Packed.decode_of_not_escape _ (Packed.flatMap_charCodes_plain spellable _), List.foldl_append,
    Packed.foldl_textCodes _ spellable]
  refine (Packed.text_foldl_padding ..).trans ?_
  exact String.empty_append

/-- Otherwise no six codes decode to them. -/
theorem decode_ne_head (tooLong : ¬Fits word) {codes : List Code} (six : codes.length = 6) :
    decode noExpansion codes ≠ String.ofList (head word) := by
  intro same
  have taken := Packed.length_textCodes_decode_le codes
  rw [same, textCodes, String.toList_ofList, six] at taken
  exact tooLong taken

/-! ## Loaded entries -/

theorem entry_eq_ok :
    entry memory address = .ok stored ↔ ∃ first second,
      memory.getWord address = .ok first ∧ memory.getWord (address + 2) = .ok second ∧
        stored = { word := decode noExpansion (Packed.codes [first, second]), address } := by
  simp only [entry, except_bind_eq_ok, except_pure_eq_ok]
  constructor
  · rintro ⟨first, readFirst, second, readSecond, rfl⟩
    exact ⟨first, second, readFirst, readSecond, rfl⟩
  · rintro ⟨first, second, readFirst, readSecond, rfl⟩
    exact ⟨first, readFirst, second, readSecond, rfl⟩

/-- The entries of a loaded dictionary are those at their addresses, and none is at 0. -/
theorem entry_of_mem (loaded : load memory base = .ok dictionary)
    (member : stored ∈ dictionary.entries) :
    entry memory stored.address = .ok stored ∧ stored.address ≠ 0 := by
  simp only [load, except_bind_eq_ok, except_pure_eq_ok] at loaded
  obtain ⟨_, -, _, -, _, -, _, -, entries, readEntries, rfl⟩ := loaded
  obtain ⟨index, -, read⟩ := exists_of_mem_mapM readEntries (List.mem_toArray.1 member)
  obtain ⟨first, second, readFirst, readSecond, rfl⟩ := entry_eq_ok.1 read
  exact ⟨read, by simp only; omega⟩

/-- The text of a loaded entry is decoded from six codes. -/
theorem exists_codes_of_mem (loaded : load memory base = .ok dictionary)
    (member : stored ∈ dictionary.entries) :
    ∃ codes : List Code, codes.length = 6 ∧ stored.word = decode noExpansion codes := by
  obtain ⟨first, second, -, -, same⟩ := entry_eq_ok.1 (entry_of_mem loaded member).1
  exact ⟨Packed.codes [first, second], rfl, congrArg DictionaryEntry.word same⟩

theorem pack_of_six {codes : List Code} (six : codes.length = 6) :
    ∃ first second, Packed.pack codes = [first, second] := by
  match codes, six with
  | [_, _, _, _, _, _], _ => exact ⟨_, _, rfl⟩

/-- An entry that holds the words of a word decodes to the codes of the word. -/
theorem word_of_holds (read : entry memory stored.address = .ok stored)
    (holds : memory.Holds stored.address (wordBytes (entryWords word))) :
    stored.word = decode noExpansion (entryCodes word) := by
  have six := length_entryCodes word
  obtain ⟨first, second, packed⟩ := pack_of_six six
  rw [entryWords, packed] at holds
  obtain ⟨readFirst, holds⟩ := Packed.getWord_of_holds holds
  obtain ⟨readSecond, -⟩ := Packed.getWord_of_holds holds
  obtain ⟨_, _, isFirst, isSecond, same⟩ := entry_eq_ok.1 read
  cases readFirst.symm.trans isFirst
  cases readSecond.symm.trans isSecond
  have unpacked : Packed.codes (Packed.pack (entryCodes word)) = entryCodes word :=
    (Packed.pack_marked (List.ne_nil_of_length_eq_add_one six) (by rw [six])).2
  rw [← unpacked, packed]
  exact congrArg DictionaryEntry.word same

/-! ## The first entry with a text -/

/-- An entry is the first one of a dictionary with a text. -/
def IsFirst (dictionary : Dictionary) (text : String) (found : DictionaryEntry) : Prop :=
  found.word = text ∧ ∃ before after, dictionary.entries.toList = before ++ found :: after ∧
    ∀ earlier ∈ before, earlier.word ≠ text

theorem find?_eq_some_iff {text : String} {found : DictionaryEntry} :
    dictionary.entries.find? (·.word == text) = some found ↔ IsFirst dictionary text found := by
  rw [← Array.find?_toList, List.find?_eq_some_iff_append, IsFirst]
  simp

theorem IsFirst.mem {text : String} {found : DictionaryEntry}
    (isFirst : IsFirst dictionary text found) : found ∈ dictionary.entries := by
  obtain ⟨-, before, after, split, -⟩ := isFirst
  rw [← Array.mem_toList_iff, split]
  exact List.mem_append_right before (.head _)

theorem exists_isFirst (member : stored ∈ dictionary.entries) :
    ∃ found, IsFirst dictionary stored.word found := by
  cases find : dictionary.entries.find? (·.word == stored.word) with
  | some found => exact ⟨found, find?_eq_some_iff.1 find⟩
  | none =>
      have unequal := Array.find?_eq_none.1 find stored member
      exact absurd (beq_self_eq_true _) unequal

theorem lookup_of_isFirst {found : DictionaryEntry}
    (isFirst : IsFirst dictionary (key word) found) : dictionary.lookup word = found.address := by
  simp only [lookup, find?_eq_some_iff.2 isFirst]

theorem lookup_of_forall_ne (unequal : ∀ stored ∈ dictionary.entries, stored.word ≠ key word) :
    dictionary.lookup word = 0 := by
  have find : dictionary.entries.find? (·.word == key word) = none := by
    rw [Array.find?_eq_none]
    intro stored member same
    exact unequal stored member (eq_of_beq same)
  simp only [lookup, find]

/-! ## Stored words -/

/-- A word that is stored in a dictionary is found when the codes of its first six
characters have room in an entry.  Then the answer is the address of the first entry with
the text of its entry.  Otherwise the answer is 0. -/
theorem lookup_stored (loaded : load memory base = .ok dictionary)
    (wordChars : ∀ c ∈ word.toList, WordChar c) (member : stored ∈ dictionary.entries)
    (holds : memory.Holds stored.address (wordBytes (entryWords word))) :
    (dictionary.lookup word ≠ 0 ↔ Fits word) ∧
      (Fits word → ∃ found, IsFirst dictionary stored.word found ∧
        dictionary.lookup word = found.address) := by
  have decoded := word_of_holds (entry_of_mem loaded member).1 holds
  have fitting (fits : Fits word) : ∃ found, IsFirst dictionary stored.word found ∧
      dictionary.lookup word = found.address := by
    have same : stored.word = key word := by
      rw [decoded, decode_entryCodes wordChars fits, key_eq wordChars]
    obtain ⟨found, isFirst⟩ := exists_isFirst member
    exact ⟨found, isFirst, lookup_of_isFirst (same ▸ isFirst)⟩
  refine ⟨⟨?_, ?_⟩, fitting⟩
  · intro answered
    by_contra tooLong
    apply answered
    apply lookup_of_forall_ne
    intro other inside
    obtain ⟨codes, six, text⟩ := exists_codes_of_mem loaded inside
    rw [text, key_eq wordChars]
    exact decode_ne_head tooLong six
  · intro fits
    obtain ⟨found, isFirst, answer⟩ := fitting fits
    rw [answer]
    exact (entry_of_mem loaded isFirst.mem).2

/-- An image with a dictionary of four words.  The second and the third have one text. -/
def sampleWords : Memory :=
  { bytes := ([0, 4, 0, 4] ++ wordBytes (["no.2", "mailbox", "mailboat", "room-1"].flatMap
      entryWords)).toArray }

/-- The dictionary of `sampleWords`. -/
def sampleDictionary : Dictionary :=
  { entryLength := 4, entries := #[⟨"no.2", 4⟩, ⟨"mailbo", 8⟩, ⟨"mailbo", 12⟩, ⟨"room-", 16⟩] }

theorem load_sampleWords : load sampleWords 0 = .ok sampleDictionary := by rfl

theorem lookup_stored_sample :
    load sampleWords 0 = .ok sampleDictionary ∧ (∀ c ∈ "mailboat".toList, WordChar c) ∧
      ⟨"mailbo", 12⟩ ∈ sampleDictionary.entries ∧
      sampleWords.Holds 12 (wordBytes (entryWords "mailboat")) ∧
      sampleDictionary.lookup "mailboat" ≠ 0 ∧
      ∃ found, IsFirst sampleDictionary "mailbo" found ∧
        sampleDictionary.lookup "mailboat" = found.address := by
  have wordChars : ∀ c ∈ "mailboat".toList, WordChar c :=
    List.all_iff_forall_prop.1 (by decide)
  have member : ⟨"mailbo", 12⟩ ∈ sampleDictionary.entries := by simp [sampleDictionary]
  have holds : sampleWords.Holds 12 (wordBytes (entryWords "mailboat")) := by decide
  have fits : Fits "mailboat" := by decide
  obtain ⟨found, first⟩ := lookup_stored load_sampleWords wordChars member holds
  exact ⟨load_sampleWords, wordChars, member, holds, found.2 fits, first fits⟩

/-- The entry of `room-1` has room for five of its characters, and the word is not found. -/
theorem lookup_misses_stored :
    load sampleWords 0 = .ok sampleDictionary ∧ (∀ c ∈ "room-1".toList, WordChar c) ∧
      ⟨"room-", 16⟩ ∈ sampleDictionary.entries ∧
      sampleWords.Holds 16 (wordBytes (entryWords "room-1")) ∧
      sampleDictionary.lookup "room-1" = 0 :=
  ⟨load_sampleWords, List.all_iff_forall_prop.1 (by decide), by simp [sampleDictionary],
    by decide, by rfl⟩

end Dictionary

end StoryMachine
