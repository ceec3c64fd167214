import GridRules.RuleSet
import GridRules.Symbol.Table
import GridRules.Text.Blank

/-!
# Reading rule text

Rule text is a sequence of blocks.  A line with a lone `!` opens a sequential
block and a line with a lone `?` opens a Markov block.  Each further line of a
block is one rule:

- `>` stands between the two sides of a clause,
- `|` stands between alternative clauses,
- `*` stands before the number of times a line may fire,
- `^` stands between the rows of a side.

Lines are trimmed, and blank lines are skipped but counted.

## Order of faults

Faults are reported in the order of the lines.  An empty block is reported when
it ends, and carries the line of its marker.  On a rule line, a second repeat
count is reported before any clause is read, and a repeat count that is no
number is reported after all clauses are read.
-/

namespace GridRules
namespace RuleText

/-!
# Sides and clauses
-/

def readSymbols (table : SymbolTable) (line : Nat) :
    List Char -> Except RuleFault (List Symbol)
  | [] => .ok []
  | c :: cs =>
      match table.symbolFor? c with
      | none => .error (.unknownSymbol line c)
      | some symbol => do
          let symbols <- readSymbols table line cs
          .ok (symbol :: symbols)

def sideRows (text : List Char) : List (List Char) :=
  (text.splitOn '^').map Text.trim

/-- A single row is a pattern with one axis.  Several rows are a pattern with
two axes. -/
def sideEdges (count width : Nat) : Shape :=
  if count = 1 then [width] else [count, width]

def readSide (table : SymbolTable) (line : Nat) (text : List Char) :
    Except RuleFault (Grid Symbol) :=
  let rows := sideRows text
  let width := (rows.headD []).length
  if rows.any List.isEmpty then .error (.emptySide line)
  else if rows.any fun row => row.length ≠ width then .error (.raggedSide line)
  else do
    let symbols <- readSymbols table line rows.flatten
    match Grid.ofCells symbols.toArray (sideEdges rows.length width) with
    | .ok pattern => .ok pattern
    | .error _ => .error (.emptySide line)

def readClause (table : SymbolTable) (line : Nat) (text : List Char) :
    Except RuleFault Clause :=
  match text.splitOn '>' with
  | [left, right] => do
      let lhs <- readSide table line left
      let rhs <- readSide table line right
      Clause.ofSides line lhs rhs
  | sides => .error (.arrowCount line (sides.length - 1))

def readClauses (table : SymbolTable) (line : Nat) :
    List (List Char) -> Except RuleFault (List Clause)
  | [] => .ok []
  | text :: texts => do
      let clause <- readClause table line text
      let clauses <- readClauses table line texts
      .ok (clause :: clauses)

/-!
# Rule lines
-/

def splitRepeat (line : Nat) (text : List Char) :
    Except RuleFault (List Char × Option (List Char)) :=
  match text.splitOn '*' with
  | [body] => .ok (body, none)
  | [body, count] => .ok (body, some (Text.trim count))
  | _ => .error (.repeatCount line)

/-- One clause is a single rule.  Several are the alternatives of a composite
rule. -/
def choice : List Clause -> Rule
  | [clause] => .single clause
  | clauses => .composite (clauses.map .single)

def readTimes (line : Nat) (text : List Char) : Except RuleFault UInt32 :=
  match Text.unsigned? text with
  | none => .error (.invalidRepeat line text)
  | some times =>
      if times < UInt32.size then .ok (UInt32.ofNat times)
      else .error (.invalidRepeat line text)

def readRule (table : SymbolTable) (line : Nat) (text : List Char) :
    Except RuleFault Rule := do
  let parts <- splitRepeat line text
  let clauses <- readClauses table line (parts.1.splitOn '|')
  match parts.2 with
  | none => .ok (choice clauses)
  | some count => do
      let times <- readTimes line count
      .ok (.limited times (choice clauses))

/-!
# Blocks
-/

inductive BlockKind where
  | sequential
  | markov
deriving DecidableEq

namespace BlockKind

def marker : BlockKind -> Char
  | sequential => '!'
  | markov => '?'

def rule : BlockKind -> List Rule -> Rule
  | sequential, rules => .sequential rules
  | markov, rules => .markov rules

def ofLine? : List Char -> Option BlockKind
  | ['!'] => some sequential
  | ['?'] => some markov
  | _ => none

end BlockKind

def startsLikeMarker : List Char -> Bool
  | '!' :: _ => true
  | '?' :: _ => true
  | _ => false

/-- A block whose rules are still being read, with the line of its marker. -/
structure PartialBlock where
  kind : BlockKind
  line : Nat
  rules : List Rule

namespace PartialBlock

def close (block : PartialBlock) : Except RuleFault Rule :=
  if block.rules.isEmpty then .error (.emptyBlock block.line)
  else .ok (block.kind.rule block.rules)

def add (block : PartialBlock) (rule : Rule) : PartialBlock :=
  { block with rules := block.rules ++ [rule] }

end PartialBlock

def readBlocks (table : SymbolTable) (block : PartialBlock) :
    List (Nat × List Char) -> Except RuleFault (List Rule)
  | [] => do
      let rule <- block.close
      .ok [rule]
  | (line, text) :: lines =>
      match BlockKind.ofLine? text with
      | some kind => do
          let rule <- block.close
          let rules <- readBlocks table { kind := kind, line := line, rules := [] } lines
          .ok (rule :: rules)
      | none =>
          if startsLikeMarker text then .error (.unknownBlockMarker line text)
          else do
            let rule <- readRule table line text
            readBlocks table (block.add rule) lines

/-!
# Documents
-/

/-- Trimmed lines that are not blank, with their numbers. -/
def contentLines (text : List Char) : List (Nat × List Char) :=
  (((text.splitOn '\n').zipIdx 1).map fun entry => (entry.2, Text.trim entry.1)).filter
    fun entry => !entry.2.isEmpty

def readLines (table : SymbolTable) :
    List (Nat × List Char) -> Except RuleFault (List Rule)
  | [] => .error .emptyDocument
  | (line, text) :: lines =>
      match BlockKind.ofLine? text with
      | some kind => readBlocks table { kind := kind, line := line, rules := [] } lines
      | none =>
          if startsLikeMarker text then .error (.unknownBlockMarker line text)
          else .error (.missingBlockMarker line)

def decode (table : SymbolTable) (text : String) : Except RuleFault RuleSet := do
  let rules <- readLines table (contentLines text.toList)
  .ok { rules := rules }

/-- Rule set that a text describes.  Invalid text describes the rule set that
never fires. -/
def decodeOrEmpty (table : SymbolTable) (text : String) : RuleSet :=
  match decode table text with
  | .ok set => set
  | .error _ => RuleSet.empty

end RuleText
end GridRules
