/-!
# Numerals

Addresses, words and variable numbers are written in fixed-width hexadecimal,
a few small numbers in fixed-width decimal.  A numeral longer than its width is
written in full, so a width is a least length and nothing is ever cut off.
-/

namespace StoryMachine.Numeral

/-- Digits filled up with zeros on the left to at least `width` characters. -/
def pad (width : Nat) (digits : List Char) : String :=
  String.ofList (List.replicate (width - digits.length) '0' ++ digits)

/-- A number in lowercase hexadecimal, at least `width` digits long. -/
def hex (width n : Nat) : String := pad width (Nat.toDigits 16 n)

/-- A number with more digits than asked for keeps them all. -/
example : hex 2 0x12345 = "12345" := by decide

/-- A number in decimal, at least `width` digits long. -/
def decimal (width n : Nat) : String := pad width (Nat.toDigits 10 n)

/-- A signed number in decimal, without a sign when it is not negative. -/
def signed : Int → String
  | .ofNat n => decimal 1 n
  | .negSucc n => "-" ++ decimal 1 (n + 1)

end StoryMachine.Numeral
