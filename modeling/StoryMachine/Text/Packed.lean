import StoryMachine.Memory.Basic

/-!
# Packed text

A packed string is a run of words with three five-bit codes each.  The top bit
of a word is set on the last word of the string and on no earlier one.

Codes 0 to 5 are controls and the others name a character in one of three
alphabets.  Code 0 is a space.  Codes 1 to 3 announce an abbreviation, whose
number is completed by the next code.  Codes 4 and 5 shift to the upper case or
the punctuation alphabet for one code.  In the punctuation alphabet code 7 is a
line break and code 6 prints nothing.  Only at the very start of a text of at
least five codes do 5 and 6 introduce a character literal, spelled by the next
two codes.

`scan` finds the words of a string, `codes` splits them, and `decode` turns
codes into text.  Expansion of abbreviations is a function from abbreviation
numbers to text, and its results are never scanned again.
-/

namespace StoryMachine.Packed

/-! ## Codes and alphabets -/

/-- A five-bit character code. -/
abbrev Code := Fin 32

/-- The low five bits of a byte, as a code. -/
def Code.ofByte (byte : UInt8) : Code := Fin.ofNat 32 byte.toNat

/-- The three sets of characters a code can be read in. -/
inductive Alphabet where
  /-- Small letters, in force unless shifted. -/
  | lower
  /-- Capital letters. -/
  | upper
  /-- Digits and punctuation. -/
  | punctuation
deriving DecidableEq

/-- The digits and punctuation marks, from code 8 on. -/
def marks : List Char :=
  ['0', '1', '2', '3', '4', '5', '6', '7', '8', '9', '.', ',', '!', '?', '_', '#', '\'', '"', '/',
    '\\', '-', ':', '(', ')']

/-- The character of a code in an alphabet.  Control codes have none. -/
def Code.char? (code : Code) (alphabet : Alphabet) : Option Char :=
  if code.val = 0 then some ' '
  else if code.val < 6 then none
  else
    match alphabet with
    | .lower => some (Char.ofNat ('a'.toNat + (code.val - 6)))
    | .upper => some (Char.ofNat ('A'.toNat + (code.val - 6)))
    | .punctuation => if code.val < 8 then none else marks[code.val - 8]?

/-! ## Words -/

/-- Whether a word is the last one of its string. -/
def isLast (word : UInt16) : Bool := 0x8000 ≤ word.toNat

/-- The three codes of a word. -/
def wordCodes (word : UInt16) : List Code :=
  [Fin.ofNat 32 (word.toNat / 1024), Fin.ofNat 32 (word.toNat / 32), Fin.ofNat 32 word.toNat]

/-- The codes of a list of words, in order. -/
def codes (words : List UInt16) : List Code := words.flatMap wordCodes

/-- The words from an address up to the first last word or the end of the
image, at most `limit` of them. -/
def scanUpTo (memory : Memory) : (limit address : Nat) → List UInt16
  | 0, _ => []
  | limit + 1, address =>
      match memory.getWord address with
      | .error _ => []
      | .ok word => if isLast word then [word] else word :: scanUpTo memory limit (address + 2)

/-- A limit that takes the scan past the end of the image is never met.  Every larger
one gives the same words. -/
theorem scanUpTo_of_le {memory : Memory} {limit more address : Nat}
    (enough : memory.size ≤ address + limit) (le : limit ≤ more) :
    scanUpTo memory more address = scanUpTo memory limit address := by
  induction limit generalizing more address with
  | zero =>
      cases more with
      | zero => rfl
      | succ more =>
          have outside : memory.getWord address = .error (memory.outOfBounds address) :=
            dif_neg fun inside => Nat.not_lt.2 enough (Nat.lt_of_succ_lt inside)
          simp only [scanUpTo, outside]
  | succ limit ih =>
      cases more with
      | zero => exact absurd le (Nat.not_succ_le_zero limit)
      | succ more =>
          have rest : scanUpTo memory more (address + 2) = scanUpTo memory limit (address + 2) :=
            ih (by omega) (Nat.le_of_succ_le_succ le)
          simp only [scanUpTo, rest]

/-- The words from an address up to the first last word or the end of the
image.  An image has fewer words than bytes, so its size is limit enough. -/
def scan (memory : Memory) (address : Nat) : List UInt16 :=
  scanUpTo memory memory.size address

/-- The codes of the packed string at an address, and the address after it. -/
def read (memory : Memory) (address : Nat) : Except Error (List Code × Nat) :=
  let words := scan memory address
  let stop := address + 2 * words.length
  if words.getLast?.any isLast then .ok (codes words, stop)
  else .error (memory.outOfBounds stop)

/-! ## Decoding -/

/-- What the next code is read as. -/
inductive Shift where
  /-- A character of an alphabet, or a control. -/
  | letter (alphabet : Alphabet)
  /-- The rest of the number of an abbreviation, in one of three banks of 32. -/
  | abbreviation (bank : Fin 3)
deriving DecidableEq

/-- A text that is being decoded. -/
structure Decoding where
  /-- The characters so far. -/
  text : String := ""
  /-- How the next code is read. -/
  shift : Shift := .letter .lower
deriving DecidableEq

/-- Takes one more code.  A shift lasts for one code. -/
def Decoding.next (expand : Nat → String) (state : Decoding) (code : Code) : Decoding :=
  match state.shift with
  | .abbreviation bank => { text := state.text ++ expand (32 * bank.val + code.val) }
  | .letter alphabet =>
      match code.val with
      | 0 => { text := state.text.push ' ' }
      | 1 => { state with shift := .abbreviation 0 }
      | 2 => { state with shift := .abbreviation 1 }
      | 3 => { state with shift := .abbreviation 2 }
      | 4 => { state with shift := .letter .upper }
      | 5 => { state with shift := .letter .punctuation }
      | _ =>
          if code.val = 7 && alphabet = .punctuation then { text := state.text.push '\n' }
          else
            match code.char? alphabet with
            | some c => { text := state.text.push c }
            | none => { text := state.text }

/-- The character that an opening escape spells with two codes. -/
def literal (high low : Code) : Char := Char.ofNat (32 * high.val + low.val)

/-- The text of a list of codes.  A leading escape counts only if a fifth code
follows it. -/
def decode (expand : Nat → String) (codes : List Code) : String :=
  match codes with
  | 5 :: 6 :: high :: low :: fifth :: rest =>
      ((fifth :: rest).foldl (Decoding.next expand)
        { text := String.singleton (literal high low) }).text
  | codes => (codes.foldl (Decoding.next expand) {}).text

/-- Code 2 announces the abbreviations from 32 on. -/
example : decode (fun i => if i = 33 then "the " else "") [2, 1, 8, 6, 25] = "the cat" := by
  decide

/-- The escape needs a fifth code.  Without it, its codes are read as letters. -/
example : decode (fun _ => "") [5, 6, 7, 9] = "bd" := by decide

/-- The expansion that drops every abbreviation. -/
def noExpansion : Nat → String := fun _ => ""

/-- The text at an address, and the address after it. -/
def decodeAt (memory : Memory) (address : Nat) (expand : Nat → String) :
    Except Error (String × Nat) := do
  let (codes, stop) ← read memory address
  return (decode expand codes, stop)

/-- One line for each word of the string at an address, as far as it can be read. -/
def narration (memory : Memory) (address : Nat) : List String :=
  (scan memory address).mapIdx fun i word =>
    s!"text word {Numeral.hex 4 word.toNat} at {Numeral.hex 5 (address + 2 * i)}"

end StoryMachine.Packed
