import GridRules.RuleSet
import GridRules.Symbol.Table

/-!
# Writing rule text

A rule set is written in the layout that is read: one block for each top-level
rule and one line for each part of it.  Separators are set off by blanks.

Not every rule set has a text.  Top-level rules must be blocks, a line takes a
limited choice of clauses, and patterns have at most two axes.
-/

namespace GridRules
namespace RuleText

/-!
# Sides and clauses
-/

def cutRows {item : Type} (width : Nat) : Nat -> List item -> List (List item)
  | 0, _ => []
  | count + 1, items => items.take width :: cutRows width count (items.drop width)

def writeSymbols (table : SymbolTable) : List Symbol -> Except RuleFault (List Char)
  | [] => .ok []
  | symbol :: symbols =>
      match table.charFor? symbol with
      | none => .error (.unmappedSymbol symbol)
      | some c => do
          let cs <- writeSymbols table symbols
          .ok (c :: cs)

/-- Number and width of the rows of a pattern. -/
def rowLayout : Shape -> Except RuleFault (Nat × Nat)
  | [width] => .ok (1, width)
  | [count, width] => .ok (count, width)
  | _ => .error (.unencodable .tooManyAxes)

def writeSide (table : SymbolTable) (pattern : Grid Symbol) :
    Except RuleFault (List Char) := do
  let layout <- rowLayout pattern.edges
  let cs <- writeSymbols table pattern.cells.toList
  .ok ([' ', '^', ' '].intercalate (cutRows layout.2 layout.1 cs))

def writeClause (table : SymbolTable) (clause : Clause) :
    Except RuleFault (List Char) := do
  let left <- writeSide table clause.lhs
  let right <- writeSide table clause.rhs
  .ok (left ++ [' ', '>', ' '] ++ right)

/-!
# Rule lines
-/

def writeAlternatives (table : SymbolTable) :
    List Rule -> Except RuleFault (List (List Char))
  | [] => .ok []
  | .single clause :: rules => do
      let text <- writeClause table clause
      let texts <- writeAlternatives table rules
      .ok (text :: texts)
  | _ :: _ => .error (.unencodable .alternativeNotClause)

def writeChoice (table : SymbolTable) : Rule -> Except RuleFault (List Char)
  | .single clause => writeClause table clause
  | .composite rules =>
      if rules.isEmpty then .error (.unencodable .noAlternatives)
      else do
        let texts <- writeAlternatives table rules
        .ok ([' ', '|', ' '].intercalate texts)
  | .limited _ _ => .error (.unencodable .repeatedCount)
  | .sequential _ => .error (.unencodable .nestedBlock)
  | .markov _ => .error (.unencodable .nestedBlock)

def writeRule (table : SymbolTable) : Rule -> Except RuleFault (List Char)
  | .limited times rule => do
      let text <- writeChoice table rule
      .ok (text ++ [' ', '*', ' '] ++ Text.numeral times.toNat)
  | rule => writeChoice table rule

def writeRules (table : SymbolTable) : List Rule -> Except RuleFault (List (List Char))
  | [] => .ok []
  | rule :: rules => do
      let text <- writeRule table rule
      let texts <- writeRules table rules
      .ok (text :: texts)

/-!
# Blocks and documents
-/

def writeBody (table : SymbolTable) (marker : Char) (rules : List Rule) :
    Except RuleFault (List Char) :=
  if rules.isEmpty then .error (.unencodable .blockWithoutRules)
  else do
    let texts <- writeRules table rules
    .ok (marker :: '\n' :: ['\n'].intercalate texts)

def writeBlock (table : SymbolTable) : Rule -> Except RuleFault (List Char)
  | .sequential rules => writeBody table '!' rules
  | .markov rules => writeBody table '?' rules
  | _ => .error (.unencodable .topLevelNotBlock)

def writeBlocks (table : SymbolTable) : List Rule -> Except RuleFault (List (List Char))
  | [] => .ok []
  | rule :: rules => do
      let text <- writeBlock table rule
      let texts <- writeBlocks table rules
      .ok (text :: texts)

def encode (table : SymbolTable) (set : RuleSet) : Except RuleFault String := do
  let texts <- writeBlocks table set.rules
  .ok (String.ofList (['\n'].intercalate texts))

end RuleText
end GridRules
