import StoryMachine.Random.KeyStream

/-!
# Random numbers

A generator draws numbers from 1 up to a given range, all equally likely.  It
scales a random word to the range and takes the high half of the product.  Some
words are rejected because they would favour a result, and then another word
is drawn.

A generator is predictable when its seed was given, and unpredictable when its
key came from outside.
-/

namespace StoryMachine

/-- Where the key of a generator comes from. -/
inductive RandomMode where
  /-- From a given seed. -/
  | predictable
  /-- From outside. -/
  | unpredictable
deriving DecidableEq

/-- A source of random numbers. -/
structure Generator where
  /-- Where its key comes from. -/
  mode : RandomMode
  /-- The words it draws. -/
  stream : KeyStream
deriving DecidableEq

namespace Generator

/-- The predictable generator of a seed. -/
def ofSeed (seed : UInt64) : Generator := { mode := .predictable, stream := .ofSeed seed }

/-- The unpredictable generator of a key. -/
def ofKey (key : Key) : Generator := { mode := .unpredictable, stream := { key } }

/-- The number of words that a stream can give. -/
def wordCount : Nat := 0x100000000

/-- Whether a word gives its result no more often than others do: the low half
of the scaled word lies below the last full turn of the range. -/
def accepts (range : Nat) (word : UInt32) : Bool :=
  word.toNat * range % wordCount ≤ wordCount - 1 - (wordCount - range) % range

/-- The number that a word gives in the range. -/
def scaled (range : Nat) (word : UInt32) : Nat := 1 + word.toNat * range / wordCount

theorem scaled_range {range : Nat} (positive : 0 < range) (word : UInt32) :
    1 ≤ scaled range word ∧ scaled range word ≤ range := by
  have few : word.toNat * range < wordCount * range :=
    Nat.mul_lt_mul_of_pos_right word.toNat_lt positive
  have less : word.toNat * range / wordCount < range := Nat.div_lt_of_lt_mul few
  rw [scaled, Nat.add_comm]
  exact ⟨Nat.succ_pos _, less⟩

/-- Draws words until one is accepted.  A draw without bias goes on for as long as
words are rejected.  This one departs from it after `limit` rejections and takes the
next word as it is. -/
def drawUpTo (range : Nat) : (limit : Nat) → KeyStream → Nat × KeyStream
  | 0, stream =>
      let (word, stream) := stream.next
      (scaled range word, stream)
  | limit + 1, stream =>
      let (word, stream) := stream.next
      if accepts range word then (scaled range word, stream) else drawUpTo range limit stream

/-- Even then the number lies in the range. -/
theorem drawUpTo_range {range : Nat} (positive : 0 < range) (limit : Nat) (stream : KeyStream) :
    1 ≤ (drawUpTo range limit stream).1 ∧ (drawUpTo range limit stream).1 ≤ range := by
  induction limit generalizing stream with
  | zero => exact scaled_range positive _
  | succ limit ih =>
      simp only [drawUpTo]
      split
      next => exact scaled_range positive _
      next => exact ih _

/-- The number of rejections after which a draw takes a word that would be rejected.
Each rejection has a probability below one in 65536. -/
def patience : Nat := 64

/-- Draws a number between 1 and the range, and 1 when the range is 0. -/
def draw (generator : Generator) (range : UInt16) : UInt16 × Generator :=
  let (number, stream) := drawUpTo (max range.toNat 1) patience generator.stream
  (UInt16.ofNat number, { generator with stream })

/-- A draw lies in its range. -/
theorem draw_range (generator : Generator) (range : UInt16) :
    1 ≤ (generator.draw range).1.toNat ∧ (generator.draw range).1.toNat ≤ max range.toNat 1 := by
  have positive : 0 < max range.toNat 1 := by omega
  have drawn := drawUpTo_range positive patience generator.stream
  have small : (drawUpTo (max range.toNat 1) patience generator.stream).1 < UInt16.size := by
    have := range.toNat_lt
    have : UInt16.size = 65536 := rfl
    omega
  simp only [draw]
  rw [UInt16.toNat_ofNat_of_lt' small]
  exact drawn

/-- The first throw of a die with seed 42. -/
example : ((ofSeed 42).draw 6).1 = 1 := by decide +kernel

end Generator

/-- A supply of keys for unpredictable generators. -/
structure Entropy where
  /-- The words that keys are made of. -/
  pool : KeyStream
deriving DecidableEq

/-- The supply of a seed. -/
def Entropy.ofSeed (seed : UInt64) : Entropy := { pool := .ofSeed seed }

/-- An unpredictable generator with a fresh key, and the supply after it. -/
def Entropy.generator (entropy : Entropy) : Generator × Entropy :=
  let (words, pool) := entropy.pool.take 8
  (.ofKey (KeyStream.keyOfWords words), { pool })

end StoryMachine
