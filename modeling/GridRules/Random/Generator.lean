import GridRules.Random.ChaCha
import GridRules.Random.Picker
import GridRules.Random.Uniform

/-!
# Random generators

A generator draws from one numbered stream of a seed.  Its whole state is the
seed, the stream, the position of the next word in the stream, and the number
that the next opened stream gets.  Streams are independent of each other, so a
root generator can hand out one stream after another without disturbing any of
them.

## Main statements

A generator is a picker: asked for an index below a positive number it names
one, and asked for one below zero it stays as it is.
-/

namespace GridRules

/-- A position in a stream of random words.  A stream repeats after the blocks
that a 64-bit number can count. -/
structure Generator where
  seed : UInt64
  stream : UInt64
  position : BitVec 68
  nextStream : UInt64
deriving DecidableEq

/-- Saved state of a generator.  Positions are kept with more bits than a
stream has words. -/
structure GeneratorState where
  seed : UInt64
  stream : UInt64
  position : BitVec 128
  nextStream : UInt64
deriving DecidableEq

namespace Generator

/-!
# Making generators
-/

def ofSeed (seed : UInt64) : Generator where
  seed := seed
  stream := 0
  position := 0
  nextStream := 1

/-- Open the next stream of the seed, at its first word.  The answer is the
opened generator and the one it was opened on. -/
def openStream (g : Generator) : Generator × Generator :=
  ( { seed := g.seed
      stream := g.nextStream
      position := 0
      nextStream := g.nextStream + 1 },
    { g with nextStream := g.nextStream + 1 } )

def state (g : Generator) : GeneratorState where
  seed := g.seed
  stream := g.stream
  position := g.position.setWidth 128
  nextStream := g.nextStream

def ofState (state : GeneratorState) : Generator where
  seed := state.seed
  stream := state.stream
  position := state.position.setWidth 68
  nextStream := state.nextStream

theorem ofState_state (g : Generator) : ofState g.state = g := by
  cases g
  simp [ofState, state]

/-!
# Drawing
-/

def wordAt (g : Generator) (position : BitVec 68) : UInt32 :=
  let block :=
    ChaCha.block (ChaCha.keyOfSeed g.seed) (UInt64.ofNat (position.toNat / 16)) g.stream
  block.get ⟨position.toNat % 16, Nat.mod_lt _ (by decide)⟩

def draw (g : Generator) : UInt64 × Generator :=
  let low := g.wordAt g.position
  let high := g.wordAt (g.position + 1)
  (low.toUInt64 ||| (high.toUInt64 <<< 32), { g with position := g.position + 2 })

def period : Nat := Nat.pow 2 67

/-- Index selected by the first accepted of a number of draws.  Draws repeat
after a period, so if none of a whole period is accepted none ever will be, and
the answer is zero. -/
def firstAccepted (count : Nat) : Nat -> Generator -> Nat × Generator
  | 0, g => (0, g)
  | attempts + 1, g =>
      match Uniform.index? count g.draw.1.toNat with
      | some index => (index, g.draw.2)
      | none => firstAccepted count attempts g.draw.2

/-!
# Picking
-/

def pickIndex (g : Generator) (count : Nat) : Option Nat × Generator :=
  if count = 0 then (none, g)
  else
    let picked := firstAccepted count period g
    (some picked.1, picked.2)

theorem firstAccepted_lt {count : Nat} (hcount : 0 < count) (attempts : Nat) (g : Generator) :
    (firstAccepted count attempts g).1 < count := by
  induction attempts generalizing g with
  | zero => exact hcount
  | succ attempts ih =>
      simp only [firstAccepted]
      split
      · rename_i index heq
        exact Uniform.index?_lt hcount (UInt64.toNat_lt g.draw.1) heq
      · exact ih g.draw.2

theorem pickIndex_zero (g : Generator) : g.pickIndex 0 = (none, g) := rfl

theorem pickIndex_of_pos (g : Generator) {count : Nat} (hcount : 0 < count) :
    exists index, (g.pickIndex count).1 = some index ∧ index < count := by
  have hne : ¬ count = 0 := Nat.pos_iff_ne_zero.mp hcount
  exact ⟨(firstAccepted count period g).1, by simp [pickIndex, hne],
    firstAccepted_lt hcount period g⟩

instance : Picker Generator where
  pickIndex := pickIndex
  pickIndex_zero := pickIndex_zero
  pickIndex_of_pos := fun g _ hcount => g.pickIndex_of_pos hcount

end Generator
end GridRules
