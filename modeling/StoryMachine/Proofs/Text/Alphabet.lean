import StoryMachine.Proofs.Input.Lookup
import StoryMachine.Proofs.Text.Extent

/-!
# What decoded text is made of

Whatever a code adds to a text is a character that packed text can spell
(`spellable_of_mem_adds`).  A text without abbreviations has such characters only, and no
more of them than it has codes.  The one exception is the character of an escape.  It
stands at the start of its text, and its number is below 1024 as it comes from two codes
of five bits.

The words of a dictionary and the abbreviations are decoded without abbreviations, so the
length of their strings is bounded by the packed words that they come from.
-/

namespace StoryMachine

namespace Packed

attribute [local instance] neZero_codes

/-! ## Characters -/

/-- What a code adds to a text can be spelled. -/
theorem spellable_of_mem_adds (shift : Shift) (code : Code) :
    ∀ c ∈ ((shift.adds code).text noExpansion).toList, Spellable c := by
  cases shift with
  | abbreviation bank => exact fun _ none => absurd none List.not_mem_nil
  | letter alphabet =>
      have checked : (((Shift.letter alphabet).adds code).text noExpansion).toList.all
          (fun c => decide (Spellable c)) = true := by
        revert code
        cases alphabet with
        | lower => decide
        | upper => decide
        | punctuation => decide
      intro c member
      exact of_decide_eq_true (List.all_eq_true.1 checked c member)

/-- So can what several codes add. -/
theorem spellable_of_mem_piecesFrom : ∀ (codes : List Code) (shift : Shift),
    ∀ c ∈ (joined noExpansion (piecesFrom shift codes)).toList, Spellable c
  | [], _ => fun _ none => absurd none List.not_mem_nil
  | code :: rest, shift => by
      intro c member
      simp only [joined, piecesFrom, List.map_cons, String.join_cons, String.toList_append,
        List.mem_append] at member
      rcases member with first | later
      · exact spellable_of_mem_adds shift code c first
      · exact spellable_of_mem_piecesFrom rest (shift.after code) c later

/-- The sign that holds the place of the controls is none of the characters. -/
theorem not_spellable_placeholder : ¬Spellable '^' := by decide

theorem toNat_literal (high low : Code) : (literal high low).toNat = 32 * high.val + low.val := by
  have := high.isLt
  have := low.isLt
  have valid : (32 * high.val + low.val).isValidChar := .inl (by omega)
  rw [literal, Char.ofNat, dif_pos valid]
  rfl

/-! ## Texts -/

/-- A text has the character of its escape, if there is one, and after it only characters
that can be spelled. -/
theorem exists_toList_decode (codes : List Code) :
    ∃ others, (decode noExpansion codes).toList = (opening codes).1.toList ++ others ∧
      ∀ c ∈ others, Spellable c := by
  refine ⟨_, ?_, spellable_of_mem_piecesFrom (opening codes).2 (.letter .lower)⟩
  rw [decode_eq_foldl, foldl_next, String.toList_append]

theorem spellable_of_plain {codes : List Code}
    (plain : ∀ high low fifth rest, codes ≠ 5 :: 6 :: high :: low :: fifth :: rest) :
    ∀ c ∈ (decode noExpansion codes).toList, Spellable c := by
  obtain ⟨others, text, spellable⟩ := exists_toList_decode codes
  rw [text, opening_of_plain plain]
  exact spellable

theorem toList_of_escape (high low fifth : Code) (rest : List Code) :
    ∃ others, (decode noExpansion (5 :: 6 :: high :: low :: fifth :: rest)).toList =
        literal high low :: others ∧ ∀ c ∈ others, Spellable c := by
  obtain ⟨others, text, spellable⟩ :=
    exists_toList_decode (5 :: 6 :: high :: low :: fifth :: rest)
  refine ⟨others, ?_, spellable⟩
  rw [text, opening, String.toList_singleton, List.singleton_append]

/-- A text has no more characters than codes. -/
theorem length_decode_le (codes : List Code) :
    (decode noExpansion codes).length ≤ codes.length := by
  rw [← String.length_toList]
  calc (decode noExpansion codes).toList.length
      ≤ (textCodes (decode noExpansion codes)).length :=
        Dictionary.length_le_flatMap_charCodes _
    _ ≤ codes.length := length_textCodes_decode_le codes

theorem length_codes (words : List UInt16) : (codes words).length = 3 * words.length := by
  induction words with
  | nil => rfl
  | cons word words ih =>
      have three : (wordCodes word).length = 3 := rfl
      rw [codes, List.flatMap_cons, List.length_append, three, ← codes, ih, List.length_cons]
      omega

/-- Words with four codes have a fifth. -/
theorem exists_fifth {words : List UInt16} {first second third fourth : Code} {rest : List Code}
    (four : codes words = first :: second :: third :: fourth :: rest) :
    ∃ fifth later, rest = fifth :: later := by
  have whole := length_codes words
  cases rest with
  | cons fifth later => exact ⟨fifth, later, rfl⟩
  | nil =>
      simp only [four, List.length_cons, List.length_nil] at whole
      omega

end Packed

/-! ## Loaded strings -/

namespace Dictionary

theorem length_word_le {memory : Memory} {base : Nat} {dictionary : Dictionary}
    {stored : DictionaryEntry} (loaded : load memory base = .ok dictionary)
    (member : stored ∈ dictionary.entries) : stored.word.length ≤ significant := by
  obtain ⟨codes, six, text⟩ := exists_codes_of_mem loaded member
  rw [text]
  exact (Packed.length_decode_le codes).trans_eq six

end Dictionary

namespace Abbreviations

variable {memory : Memory} {base index : Nat} {table : Abbreviations}

/-- The strings of a loaded table are those of its entries. -/
theorem entry_of_load (loaded : load memory base = .ok table) (less : index < count) :
    entry memory base index = .ok (table.get index) := by
  simp only [load, except_bind_eq_ok, except_pure_eq_ok] at loaded
  obtain ⟨entries, read, rfl⟩ := loaded
  have same := congrArg (·[index]?) (map_of_mapM read)
  simp only [List.getElem?_map, List.getElem?_range less, Option.map_some] at same
  obtain ⟨text, found, isText⟩ := Option.map_eq_some_iff.1 same.symm
  rw [← isText, get]
  simp [found]

/-- A loaded string has at most three characters for each word that it is packed in. -/
theorem length_get_le (loaded : load memory base = .ok table) (less : index < count) :
    ∃ word k, memory.getWord (base + 2 * index) = .ok word ∧
      Packed.EndsAt memory (2 * word.toNat) k ∧ (table.get index).length ≤ 3 * (k + 1) := by
  have entered := entry_of_load loaded less
  simp only [entry, except_bind_eq_ok, except_pure_eq_ok] at entered
  obtain ⟨word, readWord, ⟨codes, stop⟩, read, text⟩ := entered
  obtain ⟨k, ends, -⟩ := Packed.exists_endsAt_of_read read
  obtain ⟨_, again, -, fields⟩ := ends.read
  cases read.symm.trans again
  refine ⟨word, k, readWord, ends, ?_⟩
  rw [← text]
  exact (Packed.length_decode_le codes).trans_eq fields.length

end Abbreviations

namespace Packed

attribute [local instance] neZero_codes

/-- The text of any words has at most as many characters as there are codes, three for
each word.  Its characters are spaces, line breaks, letters, digits and punctuation
marks.  Only where the codes open with an escape is the first character another one.  It
is then the one that two codes spell, below 1024.  So the words of a dictionary have at
most six characters, and an abbreviation at most three for each of its packed words. -/
theorem decoded_text_bounded (words : List UInt16) :
    (decode noExpansion (codes words)).length ≤ (codes words).length ∧
    (codes words).length = 3 * words.length ∧
    ((∀ high low rest, codes words ≠ 5 :: 6 :: high :: low :: rest) →
      ∀ c ∈ (decode noExpansion (codes words)).toList, Spellable c) ∧
    (∀ high low rest, codes words = 5 :: 6 :: high :: low :: rest →
      ∃ first others, (decode noExpansion (codes words)).toList = first :: others ∧
        first.toNat = 32 * high.val + low.val ∧ first.toNat < 1024 ∧
        ∀ c ∈ others, Spellable c) ∧
    ¬Spellable '^' ∧
    (∀ (memory : Memory) (base : Nat) (dictionary : Dictionary),
      Dictionary.load memory base = .ok dictionary →
      ∀ stored ∈ dictionary.entries, stored.word.length ≤ 6) ∧
    ∀ (memory : Memory) (base : Nat) (table : Abbreviations),
      Abbreviations.load memory base = .ok table →
      ∀ index < Abbreviations.count, ∃ word k,
        memory.getWord (base + 2 * index) = .ok word ∧
        EndsAt memory (2 * word.toNat) k ∧ (table.get index).length ≤ 3 * (k + 1) := by
  refine ⟨length_decode_le _, length_codes words, ?_, ?_, not_spellable_placeholder,
    fun _ _ _ loaded _ member => Dictionary.length_word_le loaded member,
    fun _ _ _ loaded _ less => Abbreviations.length_get_le loaded less⟩
  · intro plain
    exact spellable_of_plain fun high low fifth rest => plain high low (fifth :: rest)
  · intro high low rest escape
    obtain ⟨fifth, later, rfl⟩ := exists_fifth escape
    obtain ⟨others, text, spellable⟩ := toList_of_escape high low fifth later
    have number := toNat_literal high low
    have := high.isLt
    have := low.isLt
    rw [escape]
    exact ⟨literal high low, others, text, number, by omega, spellable⟩

/-- An image with a string at 0 and 96 abbreviations that all point to it. -/
def sampleAbbreviations : Memory :=
  { bytes := (wordBytes (encode "the") ++ List.replicate (2 * Abbreviations.count) 0).toArray }

/-- A text that opens with an escape, the words of a dictionary, and an abbreviation that
fills its packed word. -/
theorem decoded_text_bounded_sample :
    (∃ others, (decode noExpansion (codes [0x14c7, 0x2528])).toList = 'é' :: others ∧
      ∀ c ∈ others, Spellable c) ∧
    (∀ stored ∈ Dictionary.sampleDictionary.entries, stored.word.length ≤ 6) ∧
    ∃ table k, Abbreviations.load sampleAbbreviations 2 = .ok table ∧ table.get 95 = "the" ∧
      EndsAt sampleAbbreviations 0 k ∧ (table.get 95).length ≤ 3 * (k + 1) := by
  obtain ⟨-, -, -, escaped, -, words, strings⟩ := decoded_text_bounded [0x14c7, 0x2528]
  refine ⟨?_, words _ _ _ Dictionary.load_sampleWords, ?_⟩
  · obtain ⟨first, others, text, number, -, spellable⟩ := escaped 7 9 [9, 8] (by decide)
    have isFirst : first = 'é' := Char.toNat_inj.1 number
    exact ⟨others, isFirst ▸ text, spellable⟩
  · have checked : ((Abbreviations.load sampleAbbreviations 2).toOption.any
        (·.get 95 = "the")) = true := by
      decide +kernel
    have pointed : ((sampleAbbreviations.getWord (2 + 2 * 95)).toOption.any (· = 0)) = true := by
      decide +kernel
    obtain ⟨table, loaded, text⟩ := exists_of_toOption_any checked
    obtain ⟨pointer, readPointer, isPointer⟩ := exists_of_toOption_any pointed
    obtain rfl := of_decide_eq_true isPointer
    obtain ⟨word, k, read, ends, bound⟩ := strings _ _ table loaded 95 (by decide)
    cases readPointer.symm.trans read
    exact ⟨table, k, loaded, of_decide_eq_true text, ends, bound⟩

end Packed

end StoryMachine
