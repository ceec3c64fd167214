import GridRules.Proofs.Pieces
import GridRules.RuleSet
import GridRules.Symbol.Table
import GridRules.Text.Numeral

/-!
# The grammar of rule text

The grammar is a family of relations between pieces of text and what they
denote.  A relation says how a text is put together and leaves open how it
would be taken apart.

The relations that lead to patterns depend on a symbol table, which names the
symbols of their cells.
-/

namespace GridRules
namespace RuleText
namespace Grammar

open Text (Trimmed Separated AllBlank)

/-!
# Lines

A line ends at a line feed.  A carriage return before the line feed belongs to
neither line.  The contents of a text are its lines without the white space
around them, and blank lines have none.
-/

inductive Lines : List Char -> List (List Char) -> Prop where
  | last {line : List Char} (hline : '\n' ∉ line) : Lines line [line]
  | feed {line rest : List Char} {lines : List (List Char)} (hline : '\n' ∉ line)
      (hreturn : line.getLast? ≠ some '\r') (hrest : Lines rest lines) :
      Lines (line ++ '\n' :: rest) (line :: lines)
  | returnFeed {line rest : List Char} {lines : List (List Char)} (hline : '\n' ∉ line)
      (hrest : Lines rest lines) :
      Lines (line ++ '\r' :: '\n' :: rest) (line :: lines)

inductive Contents : List (List Char) -> List (List Char) -> Prop where
  | nil : Contents [] []
  | blank {line : List Char} {lines contents : List (List Char)} (hline : AllBlank line)
      (hlines : Contents lines contents) : Contents (line :: lines) contents
  | content {line content : List Char} {lines contents : List (List Char)}
      (hline : Trimmed line content) (hcontent : content ≠ [])
      (hlines : Contents lines contents) : Contents (line :: lines) (content :: contents)

section

variable (table : SymbolTable)

/-!
# Sides and clauses

The rows of a side are trimmed and stand between carets.  That both sides of a
clause have the same number of cells is part of being a clause.
-/

def Names (c : Char) (symbol : Symbol) : Prop :=
  table.symbolFor? c = some symbol

/-- Rows of characters name the cells of a pattern, row after row.  A single
row is a pattern with one axis, several rows are a pattern with two. -/
structure Stacked (width : Nat) (rows : List (List Char)) (pattern : Grid Symbol) : Prop where
  row_ne_nil : forall row, row ∈ rows -> row ≠ []
  row_length : forall row, row ∈ rows -> row.length = width
  edges_of_one : rows.length = 1 -> pattern.edges = [width]
  edges_of_several : rows.length ≠ 1 -> pattern.edges = [rows.length, width]
  names : List.Forall₂ (Names table) rows.flatten pattern.cells.toList

def SideText (text : List Char) (pattern : Grid Symbol) : Prop :=
  exists pieces rows width, Separated '^' pieces text ∧ List.Forall₂ Trimmed pieces rows ∧
    Stacked table width rows pattern

def ClauseText (text : List Char) (clause : Clause) : Prop :=
  exists left right, Separated '>' [left, right] text ∧
    SideText table left clause.lhs ∧ SideText table right clause.rhs

/-!
# Rule lines

A rule line is a choice of clauses, with or without a repeat count.  One clause
is a single rule, and several are the alternatives of a composite rule.
-/

inductive ChoiceText : List Char -> Rule -> Prop where
  | one {text : List Char} {clause : Clause} (hbar : '|' ∉ text)
      (hclause : ClauseText table text clause) : ChoiceText text (.single clause)
  | several {text : List Char} {pieces : List (List Char)} {clauses : List Clause}
      (hpieces : Separated '|' pieces text) (hseveral : 1 < pieces.length)
      (hclauses : List.Forall₂ (ClauseText table) pieces clauses) :
      ChoiceText text (.composite (clauses.map .single))

/-- A repeat count is a decimal numeral with at most one plus sign before it.
Any number of digits may be written, zeros in front included. -/
inductive CountText : List Char -> UInt32 -> Prop where
  | plain {text digits : List Char} {times : UInt32} (htext : Trimmed text digits)
      (hne : digits ≠ []) (hdigits : forall c, c ∈ digits -> c.isDigit)
      (hvalue : Nat.ofDigitChars 10 digits 0 = times.toNat) : CountText text times
  | signed {text digits : List Char} {times : UInt32} (htext : Trimmed text ('+' :: digits))
      (hne : digits ≠ []) (hdigits : forall c, c ∈ digits -> c.isDigit)
      (hvalue : Nat.ofDigitChars 10 digits 0 = times.toNat) : CountText text times

inductive RuleLine : List Char -> Rule -> Prop where
  | plain {text : List Char} {rule : Rule} (hstar : '*' ∉ text)
      (hchoice : ChoiceText table text rule) : RuleLine text rule
  | limited {body count : List Char} {rule : Rule} {times : UInt32} (hbody : '*' ∉ body)
      (hcount : '*' ∉ count) (hchoice : ChoiceText table body rule)
      (htimes : CountText count times) : RuleLine (body ++ '*' :: count) (.limited times rule)

def Unmarked (text : List Char) : Prop :=
  text.head? ≠ some '!' ∧ text.head? ≠ some '?'

def LineText (text : List Char) (rule : Rule) : Prop :=
  Unmarked text ∧ RuleLine table text rule

/-!
# Blocks and documents

A block is a marker line and at least one rule line, and a document is at least
one block.
-/

inductive BlockText : List (List Char) -> Rule -> Prop where
  | sequential {lines : List (List Char)} {rules : List Rule} (hne : lines ≠ [])
      (hlines : List.Forall₂ (LineText table) lines rules) :
      BlockText (['!'] :: lines) (.sequential rules)
  | markov {lines : List (List Char)} {rules : List Rule} (hne : lines ≠ [])
      (hlines : List.Forall₂ (LineText table) lines rules) :
      BlockText (['?'] :: lines) (.markov rules)

def BlocksText (contents : List (List Char)) (rules : List Rule) : Prop :=
  exists blocks : List (List (List Char)), blocks ≠ [] ∧ contents = blocks.flatten ∧
    List.Forall₂ (BlockText table) blocks rules

def DocumentText (text : List Char) (set : RuleSet) : Prop :=
  exists lines contents, Lines text lines ∧ Contents lines contents ∧
    BlocksText table contents set.rules

end

end Grammar
end RuleText
end GridRules
