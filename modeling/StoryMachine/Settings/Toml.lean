import StoryMachine.Error
import StoryMachine.Settings.Basic

/-!
# Settings files

A settings file is a TOML document with at most three keys: the integers
`max_instructions` and `random_seed` and the flag `trace_instructions`.  Any
other key, a key given twice, a table, or a value of another type is refused,
so what can be accepted is a list of lines, each blank or `key = value`, with
an optional comment.

A key is bare or quoted.  An integer is decimal without leading zeros, with an
optional sign, or hexadecimal, octal or binary after `0x`, `0o` or `0b`.  Single
underscores may stand between digits.  An integer has at most 63 bits and is
not negative.
-/

namespace StoryMachine.Toml

/-! ## Characters -/

/-- Blank space within a line. -/
def isBlank (c : Char) : Bool := c = ' ' || c = '\t'

/-- A character that comments and quoted keys may contain. -/
def isPrintable (c : Char) : Bool :=
  c = '\t' || (0x20 ≤ c.toNat && c.toNat ≤ 0x7e) || 0x80 ≤ c.toNat

/-- A character of a bare key. -/
def isBare (c : Char) : Bool := c.isAlphanum || c = '_' || c = '-'

/-- The value of a digit of a base up to 16. -/
def digit? (base : Nat) (c : Char) : Option Nat :=
  let value? :=
    if c.isDigit then some (c.toNat - '0'.toNat)
    else if 'a' ≤ c ∧ c ≤ 'f' then some (c.toNat - 'a'.toNat + 10)
    else if 'A' ≤ c ∧ c ≤ 'F' then some (c.toNat - 'A'.toNat + 10)
    else none
  value?.filter (· < base)

/-! ## Values -/

/-- A value that a setting can have. -/
inductive Scalar where
  | integer (value : Nat)
  | flag (value : Bool)
deriving DecidableEq

/-- The value of digits with single underscores between them, after digits of
the given value.  `closed` says that the last character was a digit. -/
def digitsFrom? (base : Nat) : (value : Nat) → (closed : Bool) → List Char → Option Nat
  | value, closed, [] => if closed then some value else none
  | value, closed, c :: rest =>
      if c = '_' then if closed then digitsFrom? base value false rest else none
      else
        match digit? base c with
        | some digit => digitsFrom? base (base * value + digit) true rest
        | none => none

/-- The value of digits with single underscores between them. -/
def digits? (base : Nat) (chars : List Char) : Option Nat := digitsFrom? base 0 false chars

/-- The value of a decimal number without leading zeros. -/
def decimal? : List Char → Option Nat
  | ['0'] => some 0
  | '0' :: _ => none
  | chars => digits? 10 chars

/-- The largest integer. -/
def maxInteger : Nat := 0x7fffffffffffffff

/-- The value of an integer that is not negative. -/
def integer? (chars : List Char) : Option Nat :=
  let value? :=
    match chars with
    | '0' :: 'x' :: rest => digits? 16 rest
    | '0' :: 'o' :: rest => digits? 8 rest
    | '0' :: 'b' :: rest => digits? 2 rest
    | '+' :: rest => decimal? rest
    | '-' :: rest => (decimal? rest).filter (· = 0)
    | chars => decimal? chars
  value?.filter (· ≤ maxInteger)

/-- The value that a word of a line spells. -/
def scalar? (chars : List Char) : Option Scalar :=
  if chars = ['t', 'r', 'u', 'e'] then some (.flag true)
  else if chars = ['f', 'a', 'l', 's', 'e'] then some (.flag false)
  else (integer? chars).map .integer

/-! ## Keys -/

/-- The character of a number written in hexadecimal. -/
def scalarChar? (chars : List Char) : Option Char := do
  let digits ← chars.mapM (digit? 16)
  let code := digits.foldl (16 * · + ·) 0
  if code.isValidChar then some (Char.ofNat code) else none

/-- The rest of a key in double quotes, and what follows the closing quote. -/
def quoted? : List Char → Option (List Char × List Char)
  | [] => none
  | '"' :: rest => some ([], rest)
  | '\\' :: 'u' :: a :: b :: c :: d :: rest => do
      let char ← scalarChar? [a, b, c, d]
      let (key, rest) ← quoted? rest
      return (char :: key, rest)
  | '\\' :: 'U' :: a :: b :: c :: d :: e :: f :: g :: h :: rest => do
      let char ← scalarChar? [a, b, c, d, e, f, g, h]
      let (key, rest) ← quoted? rest
      return (char :: key, rest)
  | '\\' :: _ => none
  | c :: rest => do
      if isPrintable c then
        let (key, rest) ← quoted? rest
        return (c :: key, rest)
      else none

/-- The key at the start of a line, and what follows it.  Of the escapes in
double quotes only those for code points are read, since the others spell
characters that no key has. -/
def key? : List Char → Option (List Char × List Char)
  | '"' :: rest => quoted? rest
  | '\'' :: rest =>
      let key := rest.takeWhile fun c => c ≠ '\'' && isPrintable c
      match rest.drop key.length with
      | '\'' :: rest => some (key, rest)
      | _ => none
  | chars =>
      let key := chars.takeWhile isBare
      if key.isEmpty then none else some (key, chars.drop key.length)

/-! ## Lines -/

/-- Whether nothing more than a comment is left of a line. -/
def isRemark : List Char → Bool
  | [] => true
  | '#' :: rest => rest.all isPrintable
  | _ => false

/-- The assignment of a line that starts with a key. -/
def assignment? (line : List Char) : Option (String × Scalar) := do
  let (key, rest) ← key? line
  match rest.dropWhile isBlank with
  | '=' :: rest =>
      let rest := rest.dropWhile isBlank
      let word := rest.takeWhile fun c => !isBlank c && c ≠ '#'
      let value ← scalar? word
      if isRemark ((rest.drop word.length).dropWhile isBlank) then
        return (String.ofList key, value)
      else none
  | _ => none

/-- A comment may follow the value. -/
example :
    assignment? "random_seed = 5 # five".toList = some ("random_seed", .integer 5) := by decide

/-- The lines of a text, each ended by a line feed that a carriage return may
precede.  What follows the last line feed is a line as it stands. -/
def lines : (line rest : List Char) → List (List Char)
  | line, [] => [line.reverse]
  | '\r' :: line, '\n' :: rest => line.reverse :: lines [] rest
  | line, '\n' :: rest => line.reverse :: lines [] rest
  | line, c :: rest => lines (c :: line) rest

end StoryMachine.Toml

/-! ## Settings -/

namespace StoryMachine.Settings

open Toml (Scalar)

/-- Sets a value that has not been set.  `given` has the keys set before. -/
def assign? (settings : Settings) (given : List String) (key : String) (value : Scalar) :
    Option Settings :=
  if given.contains key then none
  else
    match key, value with
    | "max_instructions", .integer n => some { settings with maxInstructions := some n }
    | "random_seed", .integer n => some { settings with randomSeed := some (UInt64.ofNat n) }
    | "trace_instructions", .flag b => some { settings with traceInstructions := b }
    | _, _ => none

/-- Reads the lines of a file from line `number` on, or tells the line that
cannot be read. -/
def readLines : (number : Nat) → (settings : Settings) → (given : List String) →
    List (List Char) → Except Nat Settings
  | _, settings, _, [] => .ok settings
  | number, settings, given, line :: rest =>
      let line := line.dropWhile Toml.isBlank
      if Toml.isRemark line then readLines (number + 1) settings given rest
      else
        match Toml.assignment? line with
        | none => .error number
        | some (key, value) =>
            match settings.assign? given key value with
            | none => .error number
            | some settings => readLines (number + 1) settings (key :: given) rest

/-- The settings of a file, after an optional byte order mark. -/
def ofToml (text : String) : Except LoadError Settings :=
  let chars :=
    match text.toList with
    | '\uFEFF' :: rest => rest
    | chars => chars
  (readLines 1 {} [] (Toml.lines [] chars)).mapError fun number =>
    .invalidSettings s!"TOML parse error at line {Numeral.decimal 1 number}"

/-- The settings of a file with the given path and bytes.  A reason that it
cannot be read is told with its path. -/
def ofFile (path : String) (content : Except String ByteArray) : Except LoadError Settings :=
  match content with
  | .error reason => .error (.invalidSettings s!"{path}: {reason}")
  | .ok bytes =>
      match String.fromUTF8? bytes with
      | some text => ofToml text
      | none => .error (.invalidSettings s!"{path}: stream did not contain valid UTF-8")

end StoryMachine.Settings
