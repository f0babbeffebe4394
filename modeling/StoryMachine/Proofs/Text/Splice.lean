import StoryMachine.Proofs.Text.Encoding
import StoryMachine.Text.Abbreviations

/-!
# Abbreviations are spliced in

A text is decoded to a list of pieces.  A piece is a literal string or a reference to
one of the 96 abbreviations.  The pieces depend on the codes alone (`pieces`), and
decoding puts them together, with the strings of whatever table there is in the place of
the references (`decode_splice`).

So the string of an abbreviation is not read again, and it changes nothing of how the
codes after the reference are read.  Each code adds one piece and leads to the next shift,
whatever references expand to (`next_eq`).

Without abbreviations, a decoded text takes no more codes than there are
(`length_textCodes_decode_le`).
-/

namespace StoryMachine.Packed

attribute [local instance] neZero_codes

/-! ## Pieces -/

/-- A part of a decoded text. -/
inductive Piece where
  /-- Characters that the codes spell. -/
  | literal (text : String)
  /-- An abbreviation, by number. -/
  | reference (number : Fin Abbreviations.count)
deriving DecidableEq

namespace Piece

/-- The text of a piece. -/
def text (expand : Nat → String) : Piece → String
  | .literal text => text
  | .reference number => expand number.val

/-- The characters of a literal. -/
def literal? : Piece → Option String
  | .literal text => some text
  | .reference _ => none

/-- The number of a reference. -/
def number? : Piece → Option (Fin Abbreviations.count)
  | .literal _ => none
  | .reference number => some number

end Piece

/-- The text of a list of pieces. -/
def joined (expand : Nat → String) (pieces : List Piece) : String :=
  String.join (pieces.map (·.text expand))

/-- Where references expand to nothing, only the literals are left. -/
theorem joined_noExpansion (pieces : List Piece) :
    joined noExpansion pieces = String.join (pieces.filterMap Piece.literal?) := by
  induction pieces with
  | nil => rfl
  | cons piece pieces ih =>
      simp only [joined, List.map_cons, String.join_cons] at ih ⊢
      rw [ih]
      cases piece with
      | literal text => exact String.join_cons.symm
      | reference number => exact String.empty_append

/-! ## The pieces of a text -/

/-- The number of the abbreviation that a code completes. -/
def referenceNumber (bank : Fin 3) (code : Code) : Fin Abbreviations.count :=
  ⟨32 * bank.val + code.val, by
    have := bank.isLt
    have := code.isLt
    simp only [Abbreviations.count]
    omega⟩

/-- The shift after a code. -/
def Shift.after (shift : Shift) (code : Code) : Shift :=
  (Decoding.next noExpansion { shift } code).shift

/-- The piece that a code adds to a text.  For most codes it is a character. -/
def Shift.adds (shift : Shift) (code : Code) : Piece :=
  match shift with
  | .letter alphabet => .literal (Decoding.next noExpansion { shift := .letter alphabet } code).text
  | .abbreviation bank => .reference (referenceNumber bank code)

/-- The pieces of codes that are read one after the other. -/
def piecesFrom : Shift → List Code → List Piece
  | _, [] => []
  | shift, code :: rest => shift.adds code :: piecesFrom (shift.after code) rest

/-- The character that an escape at the start of a text spells, if there is one, and the
codes after it. -/
def opening (codes : List Code) : String × List Code :=
  match codes with
  | 5 :: 6 :: high :: low :: fifth :: rest =>
      (String.singleton (literal high low), fifth :: rest)
  | codes => ("", codes)

/-- The pieces of a text. -/
def pieces (codes : List Code) : List Piece :=
  .literal (opening codes).1 :: piecesFrom (.letter .lower) (opening codes).2

/-! ## Reading codes -/

theorem push_eq_append_push (text : String) (c : Char) : text.push c = text ++ "".push c := by
  apply String.toList_inj.1
  simp

/-- A code adds its piece to any text and leads to the next shift, whatever the
references expand to. -/
theorem next_eq (expand : Nat → String) (text : String) (shift : Shift) (code : Code) :
    Decoding.next expand { text, shift } code =
      { text := text ++ (shift.adds code).text expand, shift := shift.after code } := by
  cases shift with
  | abbreviation bank => rfl
  | letter alphabet =>
      simp only [Shift.adds, Shift.after, Piece.text, Decoding.next]
      split
      · rw [push_eq_append_push]
      · rw [String.append_empty]
      · rw [String.append_empty]
      · rw [String.append_empty]
      · rw [String.append_empty]
      · rw [String.append_empty]
      · split
        · rw [push_eq_append_push]
        · cases code.char? alphabet with
          | some c => exact congrArg (Decoding.mk · _) (push_eq_append_push text c)
          | none => exact congrArg (Decoding.mk · _) String.append_empty.symm

/-- Codes add their pieces. -/
theorem foldl_next (expand : Nat → String) : ∀ (codes : List Code) (text : String) (shift : Shift),
    (codes.foldl (Decoding.next expand) { text, shift }).text =
      text ++ joined expand (piecesFrom shift codes)
  | [], text, shift => by simp [joined, piecesFrom]
  | code :: rest, text, shift => by
      rw [List.foldl_cons, next_eq, foldl_next expand rest]
      simp [joined, piecesFrom, String.append_assoc]

theorem opening_of_plain {codes : List Code}
    (plain : ∀ high low fifth rest, codes ≠ 5 :: 6 :: high :: low :: fifth :: rest) :
    opening codes = ("", codes) := by
  simp only [opening]

theorem decode_eq_foldl (expand : Nat → String) (codes : List Code) :
    decode expand codes =
      ((opening codes).2.foldl (Decoding.next expand) { text := (opening codes).1 }).text := by
  simp only [decode]
  split
  next => rfl
  next plain => rw [opening_of_plain plain]

/-- Decoding puts the pieces together. -/
theorem decode_eq_joined (expand : Nat → String) (codes : List Code) :
    decode expand codes = joined expand (pieces codes) := by
  rw [decode_eq_foldl, foldl_next]
  simp [pieces, joined, Piece.text]

/-! ## References -/

/-- The bank of abbreviations that a code announces. -/
def Code.bank? (code : Code) : Option (Fin 3) :=
  if h : 1 ≤ code.val ∧ code.val ≤ 3 then some ⟨code.val - 1, by omega⟩ else none

/-- The abbreviations that a list of codes refers to.  A code from 1 to 3 announces one,
whatever the alphabet is, and the next code completes its number, whatever code that is.
A last code announces nothing. -/
def references : Option (Fin 3) → List Code → List (Fin Abbreviations.count)
  | _, [] => []
  | some bank, code :: rest => referenceNumber bank code :: references none rest
  | none, code :: rest => references code.bank? rest

/-- A reference after a shift, with a control code in its number, and one that is cut off. -/
example : (references none [5, 2, 1, 3]).map Fin.val = [33] := by decide

/-- The bank in which the next code completes a number. -/
def Shift.bank? : Shift → Option (Fin 3)
  | .letter _ => none
  | .abbreviation bank => some bank

/-- A code announces a bank in every alphabet, and no other code does. -/
theorem bank?_after_letter (alphabet : Alphabet) :
    ∀ code : Code, ((Shift.letter alphabet).after code).bank? = code.bank? := by
  cases alphabet with
  | lower => decide
  | upper => decide
  | punctuation => decide

/-- The references among the pieces are those of the codes. -/
theorem number?_piecesFrom : ∀ (codes : List Code) (shift : Shift),
    (piecesFrom shift codes).filterMap Piece.number? = references shift.bank? codes
  | [], _ => rfl
  | code :: rest, .abbreviation bank => by
      have rest := number?_piecesFrom rest (.letter .lower)
      exact congrArg (referenceNumber bank code :: ·) rest
  | code :: rest, .letter alphabet => by
      have rest := number?_piecesFrom rest ((Shift.letter alphabet).after code)
      rw [bank?_after_letter] at rest
      exact rest

/-- A text is put together from pieces that depend on its codes alone.  With a table of
abbreviations, the pieces are literals and strings of the table, by numbers below 96.
Without one they are the literals.  The strings are those that the codes after an opening
escape refer to. -/
theorem decode_splice (words : List UInt16) :
    (∀ table : Abbreviations, decode table.get (codes words) =
      String.join ((pieces (codes words)).map (·.text table.get))) ∧
    decode noExpansion (codes words) =
      String.join ((pieces (codes words)).filterMap Piece.literal?) ∧
    (pieces (codes words)).filterMap Piece.number? =
      references none (opening (codes words)).2 := by
  refine ⟨fun table => decode_eq_joined table.get _, ?_, ?_⟩
  · rw [decode_eq_joined, joined_noExpansion]
  · exact number?_piecesFrom _ (.letter .lower)

/-! ## Codes that a text takes

A text that is decoded is no longer than its codes, also when its characters are counted
by the codes that they take.  A code adds no character that takes two codes unless the
code before it was a shift.
-/

theorem textCodes_append (text more : String) :
    textCodes (text ++ more) = textCodes text ++ textCodes more := by
  simp [textCodes]

theorem length_charCodes_le (c : Char) : (charCodes c).length ≤ 2 := by
  simp only [charCodes]
  split_ifs <;> simp

/-- The codes that are held back in a shift. -/
def Shift.held : Shift → Nat
  | .letter .lower => 0
  | _ => 1

/-- A code adds no more than itself and what is held back. -/
theorem length_textCodes_adds_le (shift : Shift) (code : Code) :
    (textCodes ((shift.adds code).text noExpansion)).length + (shift.after code).held ≤
      shift.held + 1 := by
  cases shift with
  | abbreviation bank => exact Nat.zero_le 2
  | letter alphabet =>
      revert code
      cases alphabet with
      | lower => decide
      | upper => decide
      | punctuation => decide

/-- So do several codes. -/
theorem length_textCodes_piecesFrom_le : ∀ (codes : List Code) (shift : Shift),
    (textCodes (joined noExpansion (piecesFrom shift codes))).length ≤ shift.held + codes.length
  | [], shift => Nat.zero_le _
  | code :: rest, shift => by
      have first := length_textCodes_adds_le shift code
      have others := length_textCodes_piecesFrom_le rest (shift.after code)
      simp only [joined, piecesFrom, List.map_cons, String.join_cons, textCodes_append,
        List.length_append, List.length_cons] at others ⊢
      omega

theorem length_textCodes_opening_le (codes : List Code) :
    (textCodes (opening codes).1).length + (opening codes).2.length ≤ codes.length := by
  simp only [opening]
  split
  next high low fifth rest =>
    have escaped := length_charCodes_le (literal high low)
    simp only [textCodes, String.toList_singleton, List.flatMap_singleton, List.length_cons]
    omega
  next => exact Nat.le_of_eq (Nat.zero_add _)

/-- A decoded text takes no more codes than it was decoded from. -/
theorem length_textCodes_decode_le (codes : List Code) :
    (textCodes (decode noExpansion codes)).length ≤ codes.length := by
  have opened := length_textCodes_opening_le codes
  have others := length_textCodes_piecesFrom_le (opening codes).2 (.letter .lower)
  rw [decode_eq_foldl, foldl_next, textCodes_append, List.length_append]
  simp only [Shift.held] at others
  omega

end StoryMachine.Packed
