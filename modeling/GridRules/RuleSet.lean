import GridRules.Grid.Mask
import GridRules.Random.Picker
import GridRules.Rule.Search

/-!
# Rule sets

A rule set is a list of rules in order of priority.  The first rule that has
something to offer supplies all candidates, and one of them is picked.

The progress of a rule set is one tree for each rule.  If the number of trees
or any one of them does not fit, all of them start over.
-/

namespace GridRules

/-- Top-level rules in order of priority. -/
structure RuleSet where
  rules : List Rule
deriving DecidableEq

namespace RuleSet

def empty : RuleSet where
  rules := []

def size (set : RuleSet) : Nat :=
  set.rules.length

def isEmpty (set : RuleSet) : Bool :=
  set.rules.isEmpty

/-!
# Progress of a rule set
-/

def fresh (set : RuleSet) : List Progress :=
  set.rules.map Rule.fresh

def fits (set : RuleSet) (progress : List Progress) : Bool :=
  progress.length == set.size &&
    (progress.zip set.rules).all fun entry => entry.1.fits entry.2

/-- The progress itself if it fits, otherwise fresh progress. -/
def orFresh (set : RuleSet) (progress : List Progress) : List Progress :=
  if set.fits progress then progress else set.fresh

theorem fits_fresh (set : RuleSet) : set.fits set.fresh = true := by
  rcases set with ⟨rules⟩
  simp only [fits, fresh, size, List.length_map, beq_self_eq_true, Bool.true_and]
  induction rules with
  | nil => rfl
  | cons rule rules ih => simp [Rule.fits_fresh, ih]

/-!
# Choosing a replacement
-/

/-- Candidates of the first rule that has any, with the position of the rule,
and the progress after the search. -/
def candidates (set : RuleSet) (g : Grid Symbol) (progress : List Progress) :
    Option (Nat × List Candidate) × List Progress :=
  Rule.searchFirst g 0 set.rules (set.orFresh progress)

/-- Mask of one picked candidate, with the progress and the generator after the
choice.  Without candidates there is no mask, and nothing is drawn. -/
def choose {source : Type} [Picker source] (set : RuleSet) (g : Grid Symbol)
    (progress : List Progress) (generator : source) :
    Option (Mask Symbol) × List Progress × source :=
  match set.candidates g progress with
  | (none, after) => (none, after, generator)
  | (some (_, found), after) =>
      match Picker.pick generator found with
      | (some (_, chosen), rest) =>
          (some (Mask.ofOccurrence chosen.target chosen.replacement), after, rest)
      | (none, rest) => (none, after, rest)

theorem candidates_ne_nil (set : RuleSet) (g : Grid Symbol) (progress : List Progress)
    (index : Nat) : (set.candidates g progress).1 ≠ some (index, []) :=
  Rule.searchFirst_ne_some_nil g 0 set.rules (set.orFresh progress) index

end RuleSet
end GridRules
