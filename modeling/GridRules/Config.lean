import GridRules.Grid.Basic
import GridRules.Symbol.Table

/-!
# Configurations

A configuration says how a session starts: the seed of its choices, the shape
and the filling of its first grid, a bound on the steps of a run, and whether
it starts playing.  The bound of a saved configuration fits into 64 bits.
-/

namespace GridRules

instance : Stored Symbol where
  width := 1

structure Config where
  seed : UInt64
  edges : Shape
  fill : Char
  maxSteps : Nat
  startPlaying : Bool
deriving DecidableEq

namespace Config

def default : Config where
  seed := 42
  edges := [32, 60]
  fill := 'B'
  maxSteps := 10000
  startPlaying := false

def playing (config : Config) : Config :=
  { config with startPlaying := true }

/-- Symbol of the first grid.  A character that names no symbol fills it with
symbol zero. -/
def fillSymbol (config : Config) (table : SymbolTable) : Symbol :=
  (table.symbolFor? config.fill).getD Symbol.black

def initialGrid (config : Config) (table : SymbolTable) :
    Except FillFailure (Grid Symbol) :=
  Grid.filled (config.fillSymbol table) config.edges

end Config
end GridRules
