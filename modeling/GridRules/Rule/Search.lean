import GridRules.Grid.Search
import GridRules.Rule.Progress

/-!
# Searching with rules

Searching a grid with a rule yields the candidates that the rule offers there,
together with the progress after the search.  The search answers `none` when
there is nothing to offer.

## What a search leaves behind

A limited rule counts a firing when its part has something to offer, and is not
searched any more once it has fired as often as it may.  A sequential rule
moves its cursor to the part that had something to offer, or past the last part
when none had.  Parts that are not reached keep their progress.
-/

namespace GridRules

/-- One possible replacement: the cells to write to and their new values. -/
structure Candidate where
  target : Occurrence
  replacement : List Symbol
deriving DecidableEq

namespace Candidate

def offered (candidates : List Candidate) : Option (List Candidate) :=
  if candidates.isEmpty then none else some candidates

theorem offered_ne_some_nil (candidates : List Candidate) :
    offered candidates ≠ some [] := by
  cases candidates <;> simp [offered]

end Candidate

namespace Clause

def candidates (clause : Clause) (g : Grid Symbol) : List Candidate :=
  (g.occurrences clause.lhs).map fun target =>
    { target := target
      replacement := clause.rhs.cells.toList }

end Clause

namespace Rule

mutual

/-- Candidates that a rule offers on a grid, and the progress after the search. -/
def search (g : Grid Symbol) : Rule -> Progress -> Option (List Candidate) × Progress
  | single clause, _ => (Candidate.offered (clause.candidates g), .leaf)
  | composite rules, progress =>
      let result := searchAll g rules (progress.asGroup rules)
      (Candidate.offered result.1, .group result.2)
  | limited times rule, progress =>
      let state := progress.asLimited rule
      if times ≤ state.1 then (none, .limited state.1 state.2)
      else
        match search g rule state.2 with
        | (none, inner) => (none, .limited state.1 inner)
        | (some found, inner) => (some found, .limited (state.1 + 1) inner)
  | sequential rules, progress =>
      let state := progress.asSequential rules
      match searchFirst g state.1 rules state.2 with
      | (none, children) => (none, .sequential rules.length children)
      | (some (index, found), children) => (some found, .sequential index children)
  | markov rules, progress =>
      let result := searchFirst g 0 rules (progress.asGroup rules)
      (result.1.map Prod.snd, .group result.2)

def searchAll (g : Grid Symbol) :
    List Rule -> List Progress -> List Candidate × List Progress
  | rule :: rules, progress :: others =>
      let first := search g rule progress
      let rest := searchAll g rules others
      (first.1.getD [] ++ rest.1, first.2 :: rest.2)
  | _, others => ([], others)

/-- Leave out the first `skip` rules, then search until one of them has
something to offer.  The answer names its position among all rules. -/
def searchFirst (g : Grid Symbol) :
    Nat -> List Rule -> List Progress -> Option (Nat × List Candidate) × List Progress
  | skip + 1, _ :: rules, progress :: others =>
      let rest := searchFirst g skip rules others
      (rest.1.map fun found => (found.1 + 1, found.2), progress :: rest.2)
  | 0, rule :: rules, progress :: others =>
      match search g rule progress with
      | (some found, after) => (some (0, found), after :: others)
      | (none, after) =>
          let rest := searchFirst g 0 rules others
          (rest.1.map fun found => (found.1 + 1, found.2), after :: rest.2)
  | _, _, others => (none, others)

end

/-!
# Shape of the answers
-/

mutual

theorem search_ne_some_nil (g : Grid Symbol) :
    (rule : Rule) -> (progress : Progress) -> (search g rule progress).1 ≠ some []
  | single clause, _ => by
      simp only [search]
      exact Candidate.offered_ne_some_nil _
  | composite rules, progress => by
      simp only [search]
      exact Candidate.offered_ne_some_nil _
  | limited times rule, progress => by
      have ih := search_ne_some_nil g rule (progress.asLimited rule).2
      simp only [search]
      split
      · simp
      · split
        · simp
        · rename_i found inner heq
          rw [heq] at ih
          exact ih
  | sequential rules, progress => by
      have ih :=
        searchFirst_ne_some_nil g (progress.asSequential rules).1 rules
          (progress.asSequential rules).2
      simp only [search]
      split
      · simp
      · rename_i index found children heq
        rw [heq] at ih
        intro hempty
        cases hempty
        exact ih index rfl
  | markov rules, progress => by
      have ih := searchFirst_ne_some_nil g 0 rules (progress.asGroup rules)
      simp only [search]
      intro hempty
      rcases Option.map_eq_some_iff.mp hempty with ⟨⟨index, found⟩, heq, hfound⟩
      cases hfound
      exact ih index heq

theorem searchFirst_ne_some_nil (g : Grid Symbol) :
    (skip : Nat) -> (rules : List Rule) -> (progress : List Progress) ->
      forall index, (searchFirst g skip rules progress).1 ≠ some (index, [])
  | skip + 1, _ :: rules, progress :: others => by
      have ih := searchFirst_ne_some_nil g skip rules others
      intro index hempty
      simp only [searchFirst] at hempty
      rcases Option.map_eq_some_iff.mp hempty with ⟨⟨before, found⟩, heq, hfound⟩
      cases hfound
      exact ih before heq
  | 0, rule :: rules, progress :: others => by
      have ihRule := search_ne_some_nil g rule progress
      have ih := searchFirst_ne_some_nil g 0 rules others
      intro index hempty
      simp only [searchFirst] at hempty
      split at hempty
      · rename_i found after heq
        rw [heq] at ihRule
        cases hempty
        exact ihRule rfl
      · rcases Option.map_eq_some_iff.mp hempty with ⟨⟨before, found⟩, heq, hfound⟩
        cases hfound
        exact ih before heq
  | 0, [], _ => by simp [searchFirst]
  | skip + 1, [], _ => by simp [searchFirst]
  | 0, _ :: _, [] => by simp [searchFirst]
  | skip + 1, _ :: _, [] => by simp [searchFirst]

end

end Rule
end GridRules
