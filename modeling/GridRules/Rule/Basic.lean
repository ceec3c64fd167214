import GridRules.Grid.Basic
import GridRules.Rule.Fault

/-!
# Rules

A clause replaces the cells of one pattern by those of another.  Rules combine
clauses:

- a single rule is one clause,
- a composite rule offers all alternatives at once,
- a limited rule stops after a number of firings,
- a sequential rule runs its parts in order and never goes back,
- a Markov rule always prefers the first part that applies.

Rules only describe.  What a rule has done so far is kept apart from it.
-/

namespace GridRules

/-- Write the cells of `rhs` wherever `lhs` occurs.  Cells are paired by flat
position, so the sides have the same number of cells but any two shapes. -/
structure Clause where
  lhs : Grid Symbol
  rhs : Grid Symbol
  size_eq : lhs.size = rhs.size
deriving DecidableEq

namespace Clause

def ofSides (line : Nat) (lhs rhs : Grid Symbol) : Except RuleFault Clause :=
  if h : lhs.size = rhs.size then
    .ok
      { lhs := lhs
        rhs := rhs
        size_eq := h }
  else .error (.cellCountMismatch line lhs.size rhs.size)

end Clause

inductive Rule where
  | single (clause : Clause)
  | composite (rules : List Rule)
  | limited (times : UInt32) (rule : Rule)
  | sequential (rules : List Rule)
  | markov (rules : List Rule)

namespace Rule

def children : Rule -> List Rule
  | single _ => []
  | composite rules => rules
  | limited _ rule => [rule]
  | sequential rules => rules
  | markov rules => rules

/-!
# Equality

Rules are compared part by part.  The comparison decides equality.
-/

mutual

def same : Rule -> Rule -> Bool
  | single a, single b => a = b
  | composite a, composite b => sameAll a b
  | limited m a, limited n b => m = n && same a b
  | sequential a, sequential b => sameAll a b
  | markov a, markov b => sameAll a b
  | _, _ => false

def sameAll : List Rule -> List Rule -> Bool
  | [], [] => true
  | a :: as, b :: bs => same a b && sameAll as bs
  | _, _ => false

end

mutual

theorem same_iff : (first second : Rule) -> (same first second = true ↔ first = second)
  | single _, second => by cases second <;> simp [same]
  | composite a, second => by cases second <;> simp [same, sameAll_iff a]
  | limited _ a, second => by cases second <;> simp [same, same_iff a]
  | sequential a, second => by cases second <;> simp [same, sameAll_iff a]
  | markov a, second => by cases second <;> simp [same, sameAll_iff a]

theorem sameAll_iff :
    (first second : List Rule) -> (sameAll first second = true ↔ first = second)
  | [], second => by cases second <;> simp [sameAll]
  | a :: as, second => by cases second <;> simp [sameAll, same_iff a, sameAll_iff as]

end

instance : DecidableEq Rule := fun first second =>
  decidable_of_iff (same first second = true) (same_iff first second)

end Rule
end GridRules
