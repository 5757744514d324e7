namespace CausalWeave

structure Generator where
  state : UInt64
deriving DecidableEq

namespace Generator

def ofSeed (seed : UInt64) : Generator where
  state := seed ^^^ 0x9E3779B97F4A7C15

/-- One congruential step of the state. -/
def advance (state : UInt64) : UInt64 :=
  state * 6364136223846793005 + 1442695040888963407

/-- The word that a state shows. The high bits of a congruential state are the well mixed ones,
so they are folded onto the low ones. -/
def output (state : UInt64) : UInt64 :=
  state ^^^ (state >>> 33)

def next (generator : Generator) : UInt64 × Generator :=
  let state := advance generator.state
  (output state, { state })

/-- A word below `bound`; a zero bound draws nothing and gives zero. -/
def below (generator : Generator) (bound : UInt64) : UInt64 × Generator :=
  if bound = 0 then (0, generator)
  else
    let (word, later) := generator.next
    (word % bound, later)

/-- An index into a list of the given length; zero for an empty one. -/
def index (generator : Generator) (length : Nat) : Nat × Generator :=
  let (word, later) := generator.below length.toUInt64
  (word.toNat, later)

/-- A trial that succeeds in `percent` of a hundred cases. The certain ones draw nothing. -/
def hits (generator : Generator) (percent : UInt8) : Bool × Generator :=
  if percent = 0 then (false, generator)
  else if percent ≥ 100 then (true, generator)
  else
    let (word, later) := generator.below 100
    (word < percent.toUInt64, later)

/-- One of the items; nothing is drawn when there are none. -/
def choose (generator : Generator) (items : Array α) : Option α × Generator :=
  if items.isEmpty then (none, generator)
  else
    let (position, later) := generator.index items.size
    (items[position]?, later)

/-- Exchanges each of the last `count` positions, from the back, with one not behind it. -/
def shuffleUpTo (generator : Generator) (items : Array α) : Nat → Array α × Generator
  | 0 => (items, generator)
  | last + 1 =>
    let (position, later) := generator.index (last + 2)
    shuffleUpTo later (items.swapIfInBounds (last + 1) position) last

def shuffle (generator : Generator) (items : Array α) : Array α × Generator :=
  shuffleUpTo generator items (items.size - 1)

end Generator
end CausalWeave
