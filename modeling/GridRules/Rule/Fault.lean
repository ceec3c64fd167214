import GridRules.Symbol
import GridRules.Text.Quoted

/-!
# Rule faults

What can be wrong with rule text that is read, with a rule set that is written
as text, or with the two sides of a clause.  Line numbers count from one.  A
clause that does not come from text is at line zero.
-/

namespace GridRules

inductive Unwritable where
  | topLevelNotBlock
  | blockWithoutRules
  | noAlternatives
  | alternativeNotClause
  | repeatedCount
  | nestedBlock
  | tooManyAxes
deriving DecidableEq

namespace Unwritable

def message : Unwritable -> String
  | topLevelNotBlock => "top-level rules must be sequential or Markov blocks"
  | blockWithoutRules => "block has no rules"
  | noAlternatives => "composite rule has no alternatives"
  | alternativeNotClause => "alternatives must be single clauses"
  | repeatedCount => "a rule line takes one repeat count"
  | nestedBlock => "blocks cannot be nested"
  | tooManyAxes => "patterns have at most two axes"

end Unwritable

inductive RuleFault where
  | emptyDocument
  | unknownBlockMarker (line : Nat) (found : List Char)
  | missingBlockMarker (line : Nat)
  | emptyBlock (line : Nat)
  | arrowCount (line found : Nat)
  | repeatCount (line : Nat)
  | invalidRepeat (line : Nat) (found : List Char)
  | emptySide (line : Nat)
  | raggedSide (line : Nat)
  | unknownSymbol (line : Nat) (symbol : Char)
  | cellCountMismatch (line lhs rhs : Nat)
  | unmappedSymbol (symbol : Symbol)
  | unencodable (reason : Unwritable)
deriving DecidableEq

namespace RuleFault

def message : RuleFault -> String
  | emptyDocument => "rule text contains no blocks"
  | unknownBlockMarker line found =>
      s!"line {line}: unknown block marker " ++ Text.quoted found
  | missingBlockMarker line =>
      s!"line {line}: rule appears before any '!' or '?' block marker"
  | emptyBlock line => s!"line {line}: block has no rules"
  | arrowCount line found => s!"line {line}: clause needs exactly one '>', found {found}"
  | repeatCount line => s!"line {line}: a rule takes at most one '*' repeat count"
  | invalidRepeat line found =>
      s!"line {line}: repeat count " ++ Text.quoted found ++ " is not an integer"
  | emptySide line => s!"line {line}: empty pattern side"
  | raggedSide line => s!"line {line}: rows of a pattern side must have equal length"
  | unknownSymbol line symbol =>
      s!"line {line}: no symbol is mapped to " ++ Text.quotedChar symbol
  | cellCountMismatch line lhs rhs =>
      s!"line {line}: left side has {lhs} cells but right side has {rhs}"
  | unmappedSymbol symbol =>
      s!"symbol {symbol.index.toNat} has no character in the symbol table"
  | unencodable reason => "rule cannot be written as text: " ++ reason.message

end RuleFault
end GridRules
