/-!
# The key stream

Random words come from a stream cipher with twelve rounds, run in counter mode.
A key of eight words and a block number fill a square of sixteen words.  Six
double rounds mix its columns and diagonals, and the mixed square plus the first
one gives sixteen words of the stream.

A key is drawn from a 64-bit seed by eight steps of a linear congruence, each
giving one permuted word.
-/

namespace StoryMachine

/-! ## Blocks -/

/-- A square of sixteen words, row by row. -/
abbrev Square := Vector UInt32 16

namespace Square

/-- A word with its bits rotated to the left. -/
def rotate (word : UInt32) (bits : UInt32) : UInt32 := word <<< bits ||| word >>> (32 - bits)

/-- Mixes four words of a square, given by their places. -/
def quarterRound (square : Square) (i j k l : Fin 16) : Square :=
  let a := square[i]
  let b := square[j]
  let c := square[k]
  let d := square[l]
  let a := a + b
  let d := rotate (d ^^^ a) 16
  let c := c + d
  let b := rotate (b ^^^ c) 12
  let a := a + b
  let d := rotate (d ^^^ a) 8
  let c := c + d
  let b := rotate (b ^^^ c) 7
  (((square.set i a).set j b).set k c).set l d

/-- Mixes the four columns, then the four diagonals. -/
def doubleRound (square : Square) : Square :=
  let square := square.quarterRound 0 4 8 12
  let square := square.quarterRound 1 5 9 13
  let square := square.quarterRound 2 6 10 14
  let square := square.quarterRound 3 7 11 15
  let square := square.quarterRound 0 5 10 15
  let square := square.quarterRound 1 6 11 12
  let square := square.quarterRound 2 7 8 13
  square.quarterRound 3 4 9 14

/-- The number of double rounds. -/
def doubleRounds : Nat := 6

/-- The mixed square plus the square itself. -/
def scramble (square : Square) : Square :=
  let mixed := Nat.repeat doubleRound doubleRounds square
  Vector.ofFn fun i => mixed[i] + square[i]

end Square

/-! ## Streams -/

/-- A key of the cipher. -/
abbrev Key := Vector UInt32 8

/-- A stream of random words. -/
structure KeyStream where
  /-- The key. -/
  key : Key
  /-- The number of the next block. -/
  block : UInt64 := 0
  /-- The words of the last block that have not been taken. -/
  rest : List UInt32 := []
deriving DecidableEq

namespace KeyStream

/-- The state of the congruence after one step. -/
def advanceSeed (seed : UInt64) : UInt64 := seed * 6364136223846793005 + 11634580027462260723

/-- The word that a state of the congruence gives. -/
def seedWord (seed : UInt64) : UInt32 :=
  let word := (((seed >>> 18) ^^^ seed) >>> 27).toUInt32
  let turn := (seed >>> 59).toUInt32
  word >>> turn ||| word <<< ((32 - turn) % 32)

/-- The first `count` words that a seed gives. -/
def seedWords : (count : Nat) → UInt64 → List UInt32
  | 0, _ => []
  | count + 1, seed =>
      let seed := advanceSeed seed
      seedWord seed :: seedWords count seed

/-- The key whose words are given; missing words are 0. -/
def keyOfWords (words : List UInt32) : Key := Vector.ofFn fun i => words.getD i.val 0

/-- The stream of a seed. -/
def ofSeed (seed : UInt64) : KeyStream := { key := keyOfWords (seedWords 8 seed) }

/-- The words of the next block. -/
def blockWords (stream : KeyStream) : List UInt32 :=
  let constants : List UInt32 := [0x61707865, 0x3320646e, 0x79622d32, 0x6b206574]
  let counter := [stream.block.toUInt32, (stream.block >>> 32).toUInt32, 0, 0]
  let words := constants ++ stream.key.toList ++ counter
  let square : Square := Vector.ofFn fun i => words.getD i.val 0
  square.scramble.toList

/-- The next word, and the stream after it. -/
def next (stream : KeyStream) : UInt32 × KeyStream :=
  match stream.rest with
  | word :: rest => (word, { stream with rest })
  | [] =>
      let words := stream.blockWords
      (words.headD 0, { stream with block := stream.block + 1, rest := words.tail })

/-- The next `count` words, and the stream after them. -/
def take : (count : Nat) → KeyStream → List UInt32 × KeyStream
  | 0, stream => ([], stream)
  | count + 1, stream =>
      let (word, stream) := stream.next
      let (words, stream) := take count stream
      (word :: words, stream)

end KeyStream

end StoryMachine
