import Mathlib.Algebra.Ring.Nat
import StoryMachine.Proofs.Memory.Bytes
import StoryMachine.Text.Packed

/-!
# Packing texts

A text of letters, digits, spaces, line breaks and the fourteen punctuation
marks can be packed.  Each character becomes one code or a shift and a code.  The
codes are filled up with shifts to a whole number of words, at least one, and
the last word is marked.  An encoded text never uses the escape or an
abbreviation.

Decoding undoes packing (`decodeAt_encode`), wherever the words lie and whatever
the abbreviations are.
-/

namespace StoryMachine.Packed

/-! ## The encoding of a text -/

/-- The punctuation marks that packed text can spell, from code 18 on. -/
def punctuation : List Char :=
  ['.', ',', '!', '?', '_', '#', '\'', '"', '/', '\\', '-', ':', '(', ')']

/-- Whether packed text can spell a character without an escape. -/
def Spellable (c : Char) : Prop :=
  c = ' ' ∨ c = '\n' ∨ c.isLower ∨ c.isUpper ∨ c.isDigit ∨ c ∈ punctuation

instance (c : Char) : Decidable (Spellable c) := inferInstanceAs (Decidable (_ ∨ _))

/-- There are codes.  Literals of codes refer to this by name. -/
theorem neZero_codes : NeZero 32 := ⟨by decide⟩

attribute [local instance] neZero_codes

/-- The codes of a character. -/
def charCodes (c : Char) : List Code :=
  if c = ' ' then [0]
  else if c = '\n' then [5, 7]
  else if c.isLower then [Fin.ofNat 32 (c.toNat - 'a'.toNat + 6)]
  else if c.isUpper then [4, Fin.ofNat 32 (c.toNat - 'A'.toNat + 6)]
  else if c.isDigit then [5, Fin.ofNat 32 (c.toNat - '0'.toNat + 8)]
  else [5, Fin.ofNat 32 (punctuation.idxOf c + 18)]

/-- The codes of a text. -/
def textCodes (text : String) : List Code := text.toList.flatMap charCodes

/-- The least number of codes that make a count a positive multiple of three. -/
def padding (count : Nat) : Nat := if count = 0 then 3 else (3 - count % 3) % 3

/-- Codes filled up with shifts to a whole number of words, at least one. -/
def padded (codes : List Code) : List Code := codes ++ List.replicate (padding codes.length) 5

/-- The word of three codes, marked or not. -/
def wordOfCodes (marked : Bool) (first second third : Code) : UInt16 :=
  UInt16.ofNat (0x8000 * marked.toNat + 1024 * first.val + 32 * second.val + third.val)

/-- The words of a list of codes, of which the last is marked. -/
def pack : List Code → List UInt16
  | [first, second, third] => [wordOfCodes true first second third]
  | first :: second :: third :: rest => wordOfCodes false first second third :: pack rest
  | _ => []

/-- The words of a text. -/
def encode (text : String) : List UInt16 := pack (padded (textCodes text))

/-- The bytes of words, the high byte of each first. -/
def wordBytes (words : List UInt16) : List UInt8 :=
  words.flatMap fun word => [highByte word, lowByte word]

example : encode "Go." = [0x1194, 0x9645] := by decide

/-! ## Words and their codes -/

theorem toNat_wordOfCodes (marked : Bool) (first second third : Code) :
    (wordOfCodes marked first second third).toNat =
      0x8000 * marked.toNat + 1024 * first.val + 32 * second.val + third.val := by
  have := first.isLt
  have := second.isLt
  have := third.isLt
  have := marked.toNat_le
  rw [wordOfCodes, UInt16.toNat_ofNat', Nat.mod_eq_of_lt (by omega)]

theorem wordCodes_wordOfCodes (marked : Bool) (first second third : Code) :
    wordCodes (wordOfCodes marked first second third) = [first, second, third] := by
  have := first.isLt
  have := second.isLt
  have := third.isLt
  have := marked.toNat_le
  simp only [wordCodes, toNat_wordOfCodes, List.cons.injEq, and_true]
  refine ⟨Fin.ext ?_, Fin.ext ?_, Fin.ext ?_⟩ <;> simp only [Fin.val_ofNat] <;> omega

theorem isLast_wordOfCodes (marked : Bool) (first second third : Code) :
    isLast (wordOfCodes marked first second third) = marked := by
  have := first.isLt
  have := second.isLt
  have := third.isLt
  rw [isLast, toNat_wordOfCodes]
  cases marked
  · exact decide_eq_false (by simp; omega)
  · exact decide_eq_true (by simp; omega)

/-- The last word of a list is marked, and no other is. -/
inductive Marked : List UInt16 → Prop where
  | last {word : UInt16} : isLast word = true → Marked [word]
  | cons {word : UInt16} {words : List UInt16} :
      isLast word = false → Marked words → Marked (word :: words)

/-- Codes that fill a whole number of words, at least one, are packed into words
that have these codes and of which the last is marked. -/
theorem pack_marked : ∀ {codes : List Code}, codes ≠ [] → codes.length % 3 = 0 →
    Marked (pack codes) ∧ Packed.codes (pack codes) = codes
  | [first, second, third], _, _ => by
      refine ⟨.last (isLast_wordOfCodes ..), ?_⟩
      simp [pack, codes, wordCodes_wordOfCodes]
  | first :: second :: third :: next :: rest, _, whole => by
      have ih := pack_marked (List.cons_ne_nil next rest) (by simp at whole ⊢; omega)
      refine ⟨.cons (isLast_wordOfCodes ..) ih.1, ?_⟩
      have split : codes (pack (first :: second :: third :: next :: rest)) =
          wordCodes (wordOfCodes false first second third) ++ codes (pack (next :: rest)) := rfl
      rw [split, wordCodes_wordOfCodes, ih.2]
      rfl
  | [], nonempty, _ => absurd rfl nonempty
  | [_], _, whole => absurd whole (by simp)
  | [_, _], _, whole => absurd whole (by simp)

theorem padded_ne_nil (codes : List Code) : padded codes ≠ [] := by
  cases codes with
  | nil => exact List.cons_ne_nil _ _
  | cons first rest => exact List.cons_ne_nil _ _

theorem length_padded (codes : List Code) : (padded codes).length % 3 = 0 := by
  rw [padded, List.length_append, List.length_replicate, padding]
  split
  next empty => rw [empty]
  next => omega

/-! ## Reading words -/

theorem getWord_of_holds {memory : Memory} {address : Nat} {word : UInt16} {words : List UInt16}
    (holds : memory.Holds address (wordBytes (word :: words))) :
    memory.getWord address = .ok word ∧ memory.Holds (address + 2) (wordBytes words) := by
  obtain ⟨high, rest⟩ := Memory.Holds.cons.1 holds
  obtain ⟨low, rest⟩ := Memory.Holds.cons.1 rest
  exact ⟨Memory.getWord_eq_ok.2 ⟨_, _, high, low, wordOfBytes_highByte_lowByte word⟩, rest⟩

/-- Scanning stops after the marked word. -/
theorem scanUpTo_of_holds {memory : Memory} {words : List UInt16} (marked : Marked words) :
    ∀ {limit address : Nat}, words.length ≤ limit → memory.Holds address (wordBytes words) →
      scanUpTo memory limit address = words := by
  induction marked with
  | last isLast =>
      intro limit address enough holds
      cases limit with
      | zero => exact absurd enough (Nat.not_succ_le_zero _)
      | succ limit =>
          obtain ⟨read, -⟩ := getWord_of_holds holds
          simp only [scanUpTo, read, isLast, if_true]
  | cons notLast _ ih =>
      intro limit address enough holds
      cases limit with
      | zero => exact absurd enough (Nat.not_succ_le_zero _)
      | succ limit =>
          obtain ⟨read, rest⟩ := getWord_of_holds holds
          have others := ih (Nat.le_of_succ_le_succ enough) rest
          simp only [scanUpTo, read, notLast, others]
          rfl

theorem length_wordBytes (words : List UInt16) : (wordBytes words).length = 2 * words.length := by
  induction words with
  | nil => rfl
  | cons word words ih =>
      have split : wordBytes (word :: words) = highByte word :: lowByte word :: wordBytes words := rfl
      simp only [split, List.length_cons, ih]
      omega

theorem Marked.getLast? {words : List UInt16} (marked : Marked words) :
    words.getLast?.any isLast = true := by
  induction marked with
  | last isLast => exact isLast
  | cons _ marked ih =>
      cases marked with
      | last => exact ih
      | cons => exact ih

/-- The codes of marked words are read, up to the end of the words. -/
theorem read_of_holds {memory : Memory} {address : Nat} {words : List UInt16}
    (marked : Marked words) (holds : memory.Holds address (wordBytes words)) :
    read memory address = .ok (codes words, address + 2 * words.length) := by
  have inside : 2 * words.length ≤ memory.size := by
    have := holds.le_size (by cases marked <;> exact List.cons_ne_nil _ _)
    rw [length_wordBytes] at this
    omega
  have scanned : scan memory address = words :=
    scanUpTo_of_holds marked (by omega) holds
  simp only [read, scanned, marked.getLast?, if_true]

/-! ## Decoding codes -/

/-- The codes of a character as they are decoded: a space, a line break, or a code
of one of the alphabets after the shift that it needs. -/
inductive Spells : List Code → Char → Prop where
  | space : Spells [0] ' '
  | lineBreak : Spells [5, 7] '\n'
  | small {code : Code} {c : Char} :
      6 ≤ code.val → code.char? .lower = some c → Spells [code] c
  | capital {code : Code} {c : Char} :
      6 ≤ code.val → code.char? .upper = some c → Spells [4, code] c
  | mark {code : Code} {c : Char} :
      8 ≤ code.val → code.char? .punctuation = some c → Spells [5, code] c

theorem isLower_iff {c : Char} : c.isLower ↔ 97 ≤ c.toNat ∧ c.toNat ≤ 122 := by
  have bounds : c.isLower = (decide (97 ≤ c.val) && decide (c.val ≤ 122)) := rfl
  simp [bounds, UInt32.le_iff_toNat_le, ← Char.toNat_val]

theorem isUpper_iff {c : Char} : c.isUpper ↔ 65 ≤ c.toNat ∧ c.toNat ≤ 90 := by
  have bounds : c.isUpper = decide (65 ≤ c.val ∧ c.val ≤ 90) := rfl
  simp [bounds, UInt32.le_iff_toNat_le, ← Char.toNat_val]

theorem isDigit_iff {c : Char} : c.isDigit ↔ 48 ≤ c.toNat ∧ c.toNat ≤ 57 := by
  simp [Char.isDigit, UInt32.le_iff_toNat_le, ← Char.toNat_val]

theorem char?_lower {code : Code} {c : Char} (value : code.val = c.toNat - 97 + 6)
    (least : 97 ≤ c.toNat) : code.char? .lower = some c := by
  have same : 97 + (code.val - 6) = c.toNat := by omega
  simp only [Code.char?, Char.reduceToNat, same, Char.ofNat_toNat]
  rw [if_neg (by omega), if_neg (by omega)]

theorem char?_upper {code : Code} {c : Char} (value : code.val = c.toNat - 65 + 6)
    (least : 65 ≤ c.toNat) : code.char? .upper = some c := by
  have same : 65 + (code.val - 6) = c.toNat := by omega
  simp only [Code.char?, Char.reduceToNat, same, Char.ofNat_toNat]
  rw [if_neg (by omega), if_neg (by omega)]

theorem char?_punctuation {code : Code} {c : Char} {i : Nat} (value : code.val = i + 8)
    (mark : marks[i]? = some c) : code.char? .punctuation = some c := by
  simp only [Code.char?]
  rw [if_neg (by omega), if_neg (by omega), if_neg (by omega), value, Nat.add_sub_cancel, mark]

theorem marks_digit : ∀ i < 10, marks[i]? = some (Char.ofNat (48 + i)) := by decide

theorem marks_punctuation : ∀ c ∈ punctuation, marks[punctuation.idxOf c + 10]? = some c := by
  have checked : (punctuation.all fun c => marks[punctuation.idxOf c + 10]? = some c) = true := by
    decide
  intro c member
  exact of_decide_eq_true (List.all_eq_true.1 checked c member)

theorem charCodes_spells {c : Char} (spellable : Spellable c) : Spells (charCodes c) c := by
  have val {n : Nat} (small : n < 32) : (Fin.ofNat 32 n).val = n := Nat.mod_eq_of_lt small
  simp only [charCodes, Char.reduceToNat]
  split
  next space =>
    rw [space]
    exact .space
  next notSpace =>
    split
    next lineBreak =>
      rw [lineBreak]
      exact .lineBreak
    next notBreak =>
      split
      next lower =>
        have range := isLower_iff.1 lower
        have value := val (by omega : c.toNat - 97 + 6 < 32)
        exact .small (by omega) (char?_lower value range.1)
      next notLower =>
        split
        next upper =>
          have range := isUpper_iff.1 upper
          have value := val (by omega : c.toNat - 65 + 6 < 32)
          exact .capital (by omega) (char?_upper value range.1)
        next notUpper =>
          split
          next digit =>
            have range := isDigit_iff.1 digit
            have value := val (by omega : c.toNat - 48 + 8 < 32)
            have mark := marks_digit (c.toNat - 48) (by omega)
            rw [Nat.add_sub_cancel' range.1, Char.ofNat_toNat] at mark
            exact .mark (by omega) (char?_punctuation value mark)
          next notDigit =>
            have member : c ∈ punctuation := by simp_all [Spellable]
            have index : punctuation.idxOf c < 14 := List.idxOf_lt_length_iff.2 member
            have value := val (by omega : punctuation.idxOf c + 18 < 32)
            exact .mark (by omega) (char?_punctuation value (marks_punctuation c member))

/-- A code past the controls adds its character to the text. -/
theorem next_eq_push (expand : Nat → String) (text : String) {alphabet : Alphabet} {code : Code}
    {c : Char} (past : 6 ≤ code.val) (printed : ¬(code.val = 7 ∧ alphabet = .punctuation))
    (char : code.char? alphabet = some c) :
    Decoding.next expand { text, shift := .letter alphabet } code = { text := text.push c } := by
  simp only [Decoding.next]
  split
  all_goals first | omega | skip
  rw [if_neg (by simpa using printed), char]

/-- The codes of a character add it to the text and leave no shift behind. -/
theorem Spells.foldl {codes : List Code} {c : Char} (spells : Spells codes c)
    (expand : Nat → String) (text : String) :
    codes.foldl (Decoding.next expand) { text } = { text := text.push c } := by
  cases spells with
  | space => rfl
  | lineBreak => rfl
  | small past char => exact next_eq_push expand text past nofun char
  | capital past char => exact next_eq_push expand text past nofun char
  | mark past char => exact next_eq_push expand text (by omega) (by omega) char

/-- So do the codes of several characters. -/
theorem foldl_textCodes (expand : Nat → String) : ∀ {chars : List Char} {text : String},
    (∀ c ∈ chars, Spellable c) →
      (chars.flatMap charCodes).foldl (Decoding.next expand) { text } =
        { text := text ++ String.ofList chars }
  | [], text, _ => by
      have empty : text ++ String.ofList [] = text := by
        apply String.toList_inj.1
        simp
      rw [empty]
      rfl
  | c :: chars, text, spellable => by
      have pushed : text.push c ++ String.ofList chars = text ++ String.ofList (c :: chars) := by
        apply String.toList_inj.1
        simp
      have first := charCodes_spells (spellable c (.head _))
      rw [List.flatMap_cons, List.foldl_append, first.foldl expand text,
        foldl_textCodes expand fun c member => spellable c (.tail _ member), pushed]

/-- Padding adds nothing. -/
theorem text_foldl_padding (expand : Nat → String) (text : String) :
    ∀ (count : Nat) (alphabet : Alphabet),
      ((List.replicate count 5).foldl (Decoding.next expand)
        { text, shift := .letter alphabet }).text = text
  | 0, _ => rfl
  | count + 1, alphabet => by
      rw [List.replicate_succ, List.foldl_cons]
      exact text_foldl_padding expand text count .punctuation

/-- Codes that do not open with an escape are decoded one after the other. -/
theorem decode_of_not_escape (expand : Nat → String) {codes : List Code}
    (plain : ∀ rest, codes ≠ 5 :: 6 :: rest) :
    decode expand codes = (codes.foldl (Decoding.next expand) {}).text := by
  simp only [decode]
  split
  next high low fifth rest => exact absurd rfl (plain (high :: low :: fifth :: rest))
  next => rfl

/-- No character is spelled by an escape. -/
theorem Spells.not_escape {codes : List Code} {c : Char} (spells : Spells codes c)
    (more rest : List Code) : codes ++ more ≠ 5 :: 6 :: rest := by
  intro same
  cases spells with
  | space => cases same
  | lineBreak => cases same
  | small past char =>
      obtain ⟨rfl, -⟩ := List.cons_eq_cons.1 same
      exact absurd past (by decide)
  | capital past char => cases same
  | mark past char =>
      obtain ⟨-, same⟩ := List.cons_eq_cons.1 same
      obtain ⟨rfl, -⟩ := List.cons_eq_cons.1 same
      exact absurd past (by decide)

/-- Characters that can be spelled do not open with an escape, whatever padding follows. -/
theorem flatMap_charCodes_plain {chars : List Char} (spellable : ∀ c ∈ chars, Spellable c)
    (count : Nat) (rest : List Code) :
    chars.flatMap charCodes ++ List.replicate count 5 ≠ 5 :: 6 :: rest := by
  cases chars with
  | nil =>
      match count with
      | 0 | 1 | count + 2 => exact nofun
  | cons c chars =>
      have first := charCodes_spells (spellable c (.head _))
      rw [List.flatMap_cons, List.append_assoc]
      exact first.not_escape _ rest

/-- No encoded text opens with an escape. -/
theorem padded_textCodes_plain {text : String} (spellable : ∀ c ∈ text.toList, Spellable c)
    (rest : List Code) : padded (textCodes text) ≠ 5 :: 6 :: rest :=
  flatMap_charCodes_plain spellable _ rest

/-! ## Texts in memory -/

/-- Packing and decoding a text gives it back: the words of a text that can be
spelled, wherever they lie in memory, are decoded to that text, with the address
after them, whatever the abbreviations expand to. -/
theorem decodeAt_encode {memory : Memory} {address : Nat} {text : String}
    (spellable : ∀ c ∈ text.toList, Spellable c)
    (holds : memory.Holds address (wordBytes (encode text))) (expand : Nat → String) :
    decodeAt memory address expand = .ok (text, address + 2 * (encode text).length) := by
  obtain ⟨marked, unpacked⟩ := pack_marked (padded_ne_nil (textCodes text)) (length_padded _)
  have decoded : decode expand (codes (encode text)) = text := by
    rw [encode, unpacked, decode_of_not_escape expand (padded_textCodes_plain spellable), padded,
      List.foldl_append, textCodes, foldl_textCodes expand spellable, text_foldl_padding]
    apply String.toList_inj.1
    simp
  rw [decodeAt, read_of_holds marked holds]
  exact congrArg (fun text => Except.ok (text, _)) decoded

/-- An image with a text of four words at address 3. -/
def sampleText : Memory :=
  { bytes := (List.replicate 3 0 ++ wordBytes (encode "At 7?\n") ++ [0xff]).toArray }

theorem decodeAt_encode_sample :
    (∀ c ∈ "At 7?\n".toList, Spellable c) ∧
      sampleText.Holds 3 (wordBytes (encode "At 7?\n")) ∧
      decodeAt sampleText 3 (fun _ => "the ") = .ok ("At 7?\n", 11) := by
  have checked : ("At 7?\n".toList.all fun c => Spellable c) = true := by decide
  have spellable : ∀ c ∈ "At 7?\n".toList, Spellable c :=
    fun c member => of_decide_eq_true (List.all_eq_true.1 checked c member)
  have holds : sampleText.Holds 3 (wordBytes (encode "At 7?\n")) := by decide
  exact ⟨spellable, holds, decodeAt_encode spellable holds _⟩

end StoryMachine.Packed
