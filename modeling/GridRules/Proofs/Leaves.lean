import GridRules.RuleSet

/-!
# Leaves of rules

A leaf is a single rule inside a rule, named by its path: the positions of the
parts that lead to it from the top.  Whether a leaf is searched, and whether its
candidates count, can be read off the path and the progress before a search.

## Vocabulary

- A leaf is live when every rule above it lets the next part on the path be
  searched.
- A live leaf is able when its left side occurs in the grid.
- One leaf overrules another when they part ways at a rule that prefers earlier
  parts, and the first of them lies in the earlier part.
- A leaf is selected when it is able and no able leaf overrules it.
-/

namespace GridRules

structure Leaf where
  path : List Nat
  clause : Clause
deriving DecidableEq

namespace Leaf

/-- The leaf as seen from a rule whose part at `index` it lies in. -/
def under (index : Nat) (leaf : Leaf) : Leaf :=
  { leaf with path := index :: leaf.path }

def next (leaf : Leaf) : Leaf :=
  { leaf with
    path :=
      match leaf.path with
      | [] => []
      | index :: path => (index + 1) :: path }

def occurs (g : Grid Symbol) (leaf : Leaf) : Bool :=
  !(g.occurrences leaf.clause.lhs).isEmpty

/-- Able leaves that no able leaf overrules. -/
def select (able : Leaf -> Bool) (overrules : List Nat -> List Nat -> Bool)
    (leaves : List Leaf) : List Leaf :=
  leaves.filter fun leaf =>
    able leaf && leaves.all fun other => !(able other && overrules other.path leaf.path)

end Leaf

namespace Rule

/-!
# Leaves of one rule
-/

mutual

def leaves : Rule -> List Leaf
  | single clause => [{ path := [], clause := clause }]
  | composite rules => leavesFrom 0 rules
  | limited _ rule => (leaves rule).map (Leaf.under 0)
  | sequential rules => leavesFrom 0 rules
  | markov rules => leavesFrom 0 rules

def leavesFrom (index : Nat) : List Rule -> List Leaf
  | [] => []
  | rule :: rules => (leaves rule).map (Leaf.under index) ++ leavesFrom (index + 1) rules

end

/-- Whether a rule lets its part at `index` be searched. -/
def admits : Rule -> Progress -> Nat -> Bool
  | limited times _, .limited fired _, _ => fired < times
  | sequential _, .sequential cursor _, index => cursor ≤ index
  | _, _, _ => true

/-- Whether a rule prefers its earlier parts to its later ones. -/
def prefersEarlier : Rule -> Bool
  | sequential _ => true
  | markov _ => true
  | _ => false

/-- Whether every rule above the end of a path lets the next part on the path be
searched. -/
def live : Rule -> Progress -> List Nat -> Bool
  | _, _, [] => true
  | rule, progress, index :: path =>
      rule.admits progress index &&
        match rule.children[index]?, progress.children[index]? with
        | some part, some state => live part state path
        | _, _ => false

/-- Whether the first path leaves the second one for an earlier part, at a rule
that prefers earlier parts. -/
def overrules : Rule -> List Nat -> List Nat -> Bool
  | rule, first :: path, second :: others =>
      if first = second then
        match rule.children[first]? with
        | some part => overrules part path others
        | none => false
      else rule.prefersEarlier && first < second
  | _, _, _ => false

def able (g : Grid Symbol) (rule : Rule) (progress : Progress) (leaf : Leaf) : Bool :=
  rule.live progress leaf.path && leaf.occurs g

/-!
# Leaves among several rules

The first position on a path is that of a rule in the list.
-/

def liveAmong (rules : List Rule) (states : List Progress) : List Nat -> Bool
  | [] => false
  | index :: path =>
      match rules[index]?, states[index]? with
      | some rule, some state => rule.live state path
      | _, _ => false

def overrulesAmong (earlierFirst : Bool) (rules : List Rule) : List Nat -> List Nat -> Bool
  | first :: path, second :: others =>
      if first = second then
        match rules[first]? with
        | some rule => rule.overrules path others
        | none => false
      else earlierFirst && first < second
  | _, _ => false

end Rule

namespace RuleSet

/-!
# Leaves of a rule set

Every top-level rule may be searched, and earlier ones are preferred to later
ones.
-/

def leaves (set : RuleSet) : List Leaf :=
  Rule.leavesFrom 0 set.rules

def able (set : RuleSet) (g : Grid Symbol) (progress : List Progress) (leaf : Leaf) : Bool :=
  Rule.liveAmong set.rules progress leaf.path && leaf.occurs g

/-- Leaves whose candidates count in a search of the rule set. -/
def selected (set : RuleSet) (g : Grid Symbol) (progress : List Progress) : List Leaf :=
  Leaf.select (set.able g progress) (Rule.overrulesAmong true set.rules) set.leaves

end RuleSet

namespace Progress

/-!
# Progress that fits at every depth
-/

mutual

/-- Whether the tree has the kind and the number of parts that the rule asks
for, at every depth. -/
def fitsDeeply : Progress -> Rule -> Bool
  | leaf, .single _ => true
  | group children, .composite rules => allFitDeeply children rules
  | limited _ inner, .limited _ rule => fitsDeeply inner rule
  | sequential _ children, .sequential rules => allFitDeeply children rules
  | group children, .markov rules => allFitDeeply children rules
  | _, _ => false

def allFitDeeply : List Progress -> List Rule -> Bool
  | [], [] => true
  | progress :: others, rule :: rules => fitsDeeply progress rule && allFitDeeply others rules
  | _, _ => false

end

end Progress
end GridRules
