import GridRules.RuleText.Reader

/-!
# Built-in scripts

Named rule texts over the sixteen symbols with a colour.
-/

namespace GridRules

inductive Script where
  | straightWhiteLine
  | riverValley
  | checkerboard
  | mazeBackTracker
deriving DecidableEq

namespace Script

def all : List Script :=
  [straightWhiteLine, riverValley, checkerboard, mazeBackTracker]

def default : Script :=
  mazeBackTracker

def name : Script -> String
  | straightWhiteLine => "Straight white line"
  | riverValley => "River valley"
  | checkerboard => "Checkerboard"
  | mazeBackTracker => "Maze back tracker"

/-- Rule text.  The white line is painted in one cell and grown to three, and
then to the end.  The river starts from two walkers, and land fills in around
it.  The checkerboard spreads diagonally from one red cell.  The maze is carved
by a red head that leaves a green trail and walks back along it. -/
def source : Script -> String
  | straightWhiteLine => "!\nB > W * 1\nWB > WW * 1\nWWB > WWW"
  | riverValley =>
      "!\n" ++
      "B > W * 1\n" ++
      "B > R * 1\n" ++
      "RB > RR | WB > WW\n" ++
      "RW > UU\n" ++
      "W > B | R > B\n" ++
      "UB > UU * 1\n" ++
      "BU^UB > UU^UB\n" ++
      "UB > UG\n" ++
      "B > E * 13\n" ++
      "EB > EE | GB > GG"
  | checkerboard => "!\nB > R * 1\nRB^BB > RB^BR"
  | mazeBackTracker => "?\nB > R * 1\nRBB > GGR\nRGG > WWR"

def rules (script : Script) (table : SymbolTable) : Except RuleFault RuleSet :=
  RuleText.decode table script.source

/-- The first script whose rules are the given ones. -/
def ofRules? (set : RuleSet) (table : SymbolTable) : Option Script :=
  all.find? fun script =>
    match script.rules table with
    | .ok decoded => decoded = set
    | .error _ => false

theorem mem_all (script : Script) : script ∈ all := by
  cases script <;> simp [all]

end Script
end GridRules
