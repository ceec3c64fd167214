/-!
# ChaCha blocks

A stream of random words is a sequence of blocks of sixteen words.  A block
depends on a key, on its number in the stream and on the number of the stream.
Four double rounds mix the block, which is then added to its initial words.
-/

namespace GridRules
namespace ChaCha

abbrev Key := Vector UInt32 8

abbrev Block := Vector UInt32 16

def rotateLeft (word amount : UInt32) : UInt32 :=
  (word <<< amount) ||| (word >>> (32 - amount))

def rotateRight (word amount : UInt32) : UInt32 :=
  (word >>> amount) ||| (word <<< (32 - amount))

/-!
# Mixing
-/

def addFold (first second third : Fin 16) (amount : UInt32) (block : Block) : Block :=
  let sum := block[first] + block[second]
  (block.set first sum).set third (rotateLeft (block[third] ^^^ sum) amount)

def quarterRound (a b c d : Fin 16) (block : Block) : Block :=
  addFold c d b 7 (addFold a b d 8 (addFold c d b 12 (addFold a b d 16 block)))

/-- One round over the columns and one over the diagonals of the four by four
arrangement of the words. -/
def doubleRound (block : Block) : Block :=
  let columns :=
    quarterRound 3 7 11 15 (quarterRound 2 6 10 14
      (quarterRound 1 5 9 13 (quarterRound 0 4 8 12 block)))
  quarterRound 3 4 9 14 (quarterRound 2 7 8 13
    (quarterRound 1 6 11 12 (quarterRound 0 5 10 15 columns)))

def doubleRounds : Nat -> Block -> Block
  | 0, block => block
  | count + 1, block => doubleRounds count (doubleRound block)

/-!
# Blocks of a stream
-/

def initial (key : Key) (number stream : UInt64) : Block :=
  #v[ 0x61707865, 0x3320646e, 0x79622d32, 0x6b206574,
      key[0], key[1], key[2], key[3], key[4], key[5], key[6], key[7],
      number.toUInt32, (number >>> 32).toUInt32,
      stream.toUInt32, (stream >>> 32).toUInt32 ]

def block (key : Key) (number stream : UInt64) : Block :=
  let start := initial key number stream
  Vector.zipWith (fun mixed word => mixed + word) (doubleRounds 4 start) start

/-!
# Keys from seeds

The key of a seed is the output of a linear congruential generator that starts
at the seed.  Each state is folded to a word and rotated by its top bits.
-/

def seedStep (state : UInt64) : UInt64 :=
  state * 6364136223846793005 + 11634580027462260723

def seedWord (state : UInt64) : UInt32 :=
  rotateRight (((state >>> 18) ^^^ state) >>> 27).toUInt32 (state >>> 59).toUInt32

def seedState (seed : UInt64) : Nat -> UInt64
  | 0 => seed
  | count + 1 => seedStep (seedState seed count)

def keyOfSeed (seed : UInt64) : Key :=
  Vector.ofFn fun index => seedWord (seedState seed (index.val + 1))

end ChaCha
end GridRules
