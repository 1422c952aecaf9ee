/-! A seeded source of random bits: the ChaCha stream cipher with eight rounds. -/

namespace Calculator

/-- The sixteen words that a block is made of. -/
abbrev Block := Vector UInt32 16

namespace Block

/-- Rotates a word to the left. -/
def rotateLeft (word : UInt32) (count : UInt32) : UInt32 :=
  word <<< count ||| word >>> (32 - count)

/-- Mixes four words of a block into each other. -/
def quarterRound (block : Block) (a b c d : Fin 16) : Block :=
  let block := block.set a (block[a] + block[b])
  let block := block.set d (rotateLeft (block[d] ^^^ block[a]) 16)
  let block := block.set c (block[c] + block[d])
  let block := block.set b (rotateLeft (block[b] ^^^ block[c]) 12)
  let block := block.set a (block[a] + block[b])
  let block := block.set d (rotateLeft (block[d] ^^^ block[a]) 8)
  let block := block.set c (block[c] + block[d])
  block.set b (rotateLeft (block[b] ^^^ block[c]) 7)

/-- Mixes the columns of a block, then its diagonals. -/
def doubleRound (block : Block) : Block :=
  let block := block.quarterRound 0 4 8 12
  let block := block.quarterRound 1 5 9 13
  let block := block.quarterRound 2 6 10 14
  let block := block.quarterRound 3 7 11 15
  let block := block.quarterRound 0 5 10 15
  let block := block.quarterRound 1 6 11 12
  let block := block.quarterRound 2 7 8 13
  block.quarterRound 3 4 9 14

/-- A block of the key stream: the start block mixed for eight rounds and added to itself. -/
def keystream (start : Block) : Block :=
  let mixed := start.doubleRound.doubleRound.doubleRound.doubleRound
  Vector.zipWith (· + ·) mixed start

end Block

/-- A source of random bits: its key, and how many 64-bit draws were taken from it.

A source is always seeded. The one in use before any seed is given is left out, since nothing
determines its draws. -/
structure Generator where
  key : Vector UInt32 8
  drawn : Nat

namespace Generator

/-- The next state of the seed's linear congruence. -/
def seedStep (state : UInt64) : UInt64 := state * 6364136223846793005 + 11634580027462260723

/-- A key word from a state of the seed's congruence: its high bits, mixed and rotated. -/
def seedWord (state : UInt64) : UInt32 :=
  let word := (((state >>> 18) ^^^ state) >>> 27).toUInt32
  let count := (state >>> 59).toUInt32
  word >>> count ||| word <<< ((32 - count) % 32)

/-- The state of the seed's congruence after some steps. -/
def seedState (seed : UInt64) : (steps : Nat) → UInt64
  | 0 => seed
  | steps + 1 => seedStep (seedState seed steps)

/-- The generator that a seed starts. -/
def ofSeed (seed : UInt64) : Generator :=
  ⟨Vector.ofFn fun (index : Fin 8) => seedWord (seedState seed (index.val + 1)), 0⟩

/-- The start of the block with a given number: four constants, the key and the number. -/
def startBlock (key : Vector UInt32 8) (number : UInt64) : Block :=
  #v[0x61707865, 0x3320646e, 0x79622d32, 0x6b206574,
    key[0], key[1], key[2], key[3], key[4], key[5], key[6], key[7],
    number.toUInt32, (number >>> 32).toUInt32, 0, 0]

/-- The 64-bit word at a place of the key stream, its low half first. -/
def wordAt (key : Vector UInt32 8) (index : Nat) : UInt64 :=
  let block := (startBlock key (UInt64.ofNat (index / 8))).keystream
  let low : Fin 16 := Fin.ofNat 16 (2 * (index % 8))
  block[low].toUInt64 ||| block[low + 1].toUInt64 <<< 32

/-- Draws the next 64 bits. -/
def next (generator : Generator) : UInt64 × Generator :=
  (wordAt generator.key generator.drawn, { generator with drawn := generator.drawn + 1 })

/-- Tosses a fair coin, which takes one draw. -/
def toss (generator : Generator) : Bool × Generator :=
  let (word, generator) := generator.next
  (decide (word < 0x8000000000000000), generator)

end Generator

end Calculator
