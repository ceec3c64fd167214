import GridRules.Rule.Basic

/-!
# Progress of rules

Rules never change.  What a rule has done so far is a progress tree of the same
shape: limited rules count their firings, and sequential rules remember the
part to resume at.  One rule can therefore serve any number of runs.  No search
moves a cursor further than behind the last part.

## Foreign progress

Progress that was saved for another rule may have the wrong shape.  Only the
top of the tree is compared with the rule.  Progress that does not fit there is
replaced by fresh progress.  The parts are compared when they are reached.
-/

namespace GridRules

inductive Progress where
  | leaf
  | group (children : List Progress)
  | limited (fired : UInt32) (inner : Progress)
  | sequential (cursor : Nat) (children : List Progress)
deriving Inhabited

namespace Rule

/-!
# Fresh progress
-/

mutual

def fresh : Rule -> Progress
  | single _ => .leaf
  | composite rules => .group (freshAll rules)
  | limited _ rule => .limited 0 (fresh rule)
  | sequential rules => .sequential 0 (freshAll rules)
  | markov rules => .group (freshAll rules)

def freshAll : List Rule -> List Progress
  | [] => []
  | rule :: rules => fresh rule :: freshAll rules

end

theorem freshAll_eq_map (rules : List Rule) : freshAll rules = rules.map fresh := by
  induction rules with
  | nil => rfl
  | cons rule rules ih => simp [freshAll, ih]

@[simp] theorem freshAll_length (rules : List Rule) :
    (freshAll rules).length = rules.length := by
  simp [freshAll_eq_map]

end Rule

namespace Progress

/-!
# Parts of progress
-/

def fired? : Progress -> Option UInt32
  | limited fired _ => some fired
  | _ => none

def cursor? : Progress -> Option Nat
  | sequential cursor _ => some cursor
  | _ => none

def children : Progress -> List Progress
  | leaf => []
  | group children => children
  | limited _ inner => [inner]
  | sequential _ children => children

/-!
# Fitting a rule
-/

/-- Whether the top of the tree has the kind and the number of parts that the
rule asks for. -/
def fits : Progress -> Rule -> Bool
  | leaf, .single _ => true
  | group children, .composite rules => rules.length == children.length
  | group children, .markov rules => rules.length == children.length
  | limited _ _, .limited _ _ => true
  | sequential _ children, .sequential rules => rules.length == children.length
  | _, _ => false

def asGroup (rules : List Rule) : Progress -> List Progress
  | group children =>
      if rules.length = children.length then children else Rule.freshAll rules
  | _ => Rule.freshAll rules

def asLimited (rule : Rule) : Progress -> UInt32 × Progress
  | limited fired inner => (fired, inner)
  | _ => (0, rule.fresh)

def asSequential (rules : List Rule) : Progress -> Nat × List Progress
  | sequential cursor children =>
      if rules.length = children.length then (cursor, children) else (0, Rule.freshAll rules)
  | _ => (0, Rule.freshAll rules)

theorem asGroup_length (rules : List Rule) (progress : Progress) :
    (progress.asGroup rules).length = rules.length := by
  unfold asGroup
  split
  · split
    · rename_i h
      exact h.symm
    · exact Rule.freshAll_length rules
  · exact Rule.freshAll_length rules

theorem asSequential_length (rules : List Rule) (progress : Progress) :
    (progress.asSequential rules).2.length = rules.length := by
  unfold asSequential
  split
  · split
    · rename_i h
      exact h.symm
    · exact Rule.freshAll_length rules
  · exact Rule.freshAll_length rules

end Progress

theorem Rule.fits_fresh (rule : Rule) : rule.fresh.fits rule = true := by
  cases rule <;> simp [fresh, Progress.fits]

end GridRules
