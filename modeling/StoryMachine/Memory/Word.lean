/-!
# Words and bytes

A word has sixteen bits and two bytes, the high byte first in memory.  Where a
word stands for a signed number, it is read in two's complement.
-/

namespace StoryMachine

/-- The word with the given high and low bytes. -/
def wordOfBytes (high low : UInt8) : UInt16 := high.toUInt16 <<< 8 ||| low.toUInt16

/-- The high byte of a word. -/
def highByte (word : UInt16) : UInt8 := (word >>> 8).toUInt8

/-- The low byte of a word. -/
def lowByte (word : UInt16) : UInt8 := word.toUInt8

/-- The signed number that a word stands for. -/
def signedOfWord (word : UInt16) : Int := word.toInt16.toInt

/-- The character whose code point is a byte. -/
def charOfByte (byte : UInt8) : Char := Char.ofNat byte.toNat

/-! ## Words as numbers -/

theorem toNat_wordOfBytes (high low : UInt8) :
    (wordOfBytes high low).toNat = 256 * high.toNat + low.toNat := by
  have hh := high.toNat_lt
  have hl := low.toNat_lt
  have hs : (high.toUInt16 <<< 8).toNat = high.toNat <<< 8 := by
    simp [Nat.shiftLeft_eq]
    omega
  rw [wordOfBytes, UInt16.toNat_or, hs, UInt8.toNat_toUInt16,
    ← Nat.shiftLeft_add_eq_or_of_lt (by omega), Nat.shiftLeft_eq]
  omega

theorem toNat_highByte (word : UInt16) : (highByte word).toNat = word.toNat / 256 := by
  have h := word.toNat_lt
  simp [highByte, Nat.shiftRight_eq_div_pow]
  omega

theorem toNat_lowByte (word : UInt16) : (lowByte word).toNat = word.toNat % 256 := by
  simp [lowByte]

/-! ## Taking words apart and putting them together -/

@[simp] theorem highByte_wordOfBytes (high low : UInt8) :
    highByte (wordOfBytes high low) = high := by
  have hl := low.toNat_lt
  apply UInt8.toNat_inj.1
  rw [toNat_highByte, toNat_wordOfBytes]
  omega

@[simp] theorem lowByte_wordOfBytes (high low : UInt8) : lowByte (wordOfBytes high low) = low := by
  have hl := low.toNat_lt
  apply UInt8.toNat_inj.1
  rw [toNat_lowByte, toNat_wordOfBytes]
  omega

@[simp] theorem wordOfBytes_highByte_lowByte (word : UInt16) :
    wordOfBytes (highByte word) (lowByte word) = word := by
  apply UInt16.toNat_inj.1
  rw [toNat_wordOfBytes, toNat_highByte, toNat_lowByte]
  omega

end StoryMachine
