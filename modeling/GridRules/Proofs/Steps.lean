import GridRules.Engine
import GridRules.Proofs.Proposals

/-!
# What one step does

A step either applies one proposal of the rule set or finds none.  The generator
is asked only which proposal it is, and it always names one if there are any.

## Main statements

Without a proposal, a step changes nothing but the progress of the rules.  With
one, it writes the replacement of that proposal over the grid.
-/

namespace GridRules

/-!
# Rule sets

A rule set is searched like a Markov rule, after its progress was compared with
all of its rules.
-/

namespace RuleSet

variable {source : Type} [Picker source] {set : RuleSet} {g : Grid Symbol}
  {progress : List Progress}

def asRule (set : RuleSet) : Rule :=
  .markov set.rules

theorem length_orFresh (set : RuleSet) (progress : List Progress) :
    set.rules.length = (set.orFresh progress).length := by
  unfold orFresh
  split
  · rename_i h
    exact (beq_iff_eq.mp (Bool.and_eq_true_iff.mp h).left).symm
  · rw [fresh, List.length_map]

theorem search_asRule (set : RuleSet) (g : Grid Symbol) (progress : List Progress) :
    set.asRule.search g (.group (set.orFresh progress)) =
      ((set.candidates g progress).1.map Prod.snd, .group (set.candidates g progress).2) := by
  rw [asRule, Rule.search, Progress.asGroup_group (set.length_orFresh progress)]
  rfl

def proposals (set : RuleSet) (g : Grid Symbol) (progress : List Progress) : List Proposal :=
  set.asRule.proposals g (.group (set.orFresh progress))

theorem map_candidate_proposals (set : RuleSet) (g : Grid Symbol) (progress : List Progress) :
    (set.proposals g progress).map Proposal.candidate =
      ((set.candidates g progress).1.map Prod.snd).getD [] := by
  rw [proposals, Rule.map_candidate_proposals, search_asRule]

theorem proposals_eq_nil_iff :
    set.proposals g progress = [] ↔ (set.candidates g progress).1 = none := by
  rw [proposals, Rule.proposals_eq_nil_iff, search_asRule]
  exact Option.map_eq_none_iff

theorem mem_proposals {proposal : Proposal} (h : proposal ∈ set.proposals g progress) :
    proposal.leaf ∈ set.leaves ∧ proposal.candidate ∈ proposal.leaf.clause.candidates g := by
  have hmem := Rule.proposals_proposedBy g set.asRule _ proposal h
  rwa [asRule, Rule.leaves] at hmem

theorem choose_eq (set : RuleSet) (g : Grid Symbol) (progress : List Progress)
    (generator : source) :
    set.choose g progress generator =
      ((Picker.pick generator (set.proposals g progress)).1.map fun picked =>
          Mask.ofOccurrence picked.2.candidate.target picked.2.candidate.replacement,
        (set.candidates g progress).2,
        (Picker.pick generator (set.proposals g progress)).2) := by
  have hmap := set.map_candidate_proposals g progress
  unfold choose
  rcases hcandidates : set.candidates g progress with ⟨answer, after⟩
  cases answer with
  | none =>
      have hnil : set.proposals g progress = [] :=
        proposals_eq_nil_iff.mpr (by rw [hcandidates])
      rw [hnil, Picker.pick_nil]
      rfl
  | some found =>
      rw [hcandidates] at hmap
      have hfound : found.2 = (set.proposals g progress).map Proposal.candidate := hmap.symm
      simp only [hfound, Picker.pick_map]
      rcases Picker.pick generator (set.proposals g progress) with ⟨picked, rest⟩
      cases picked <;> rfl

end RuleSet

/-!
# Engines
-/

namespace Proposal

def rewrite (proposal : Proposal) (g : Grid Symbol) : Grid Symbol :=
  g.overwrite (Mask.ofOccurrence proposal.candidate.target proposal.candidate.replacement)

end Proposal

namespace Engine

variable {source : Type}

def proposals (engine : Engine source) (g : Grid Symbol) : List Proposal :=
  engine.rules.proposals g engine.progress

/-- The engine after its rules have searched a grid. -/
def searched (engine : Engine source) (g : Grid Symbol) : Engine source :=
  { engine with progress := (engine.rules.candidates g engine.progress).2 }

@[simp] theorem rules_searched (engine : Engine source) (g : Grid Symbol) :
    (engine.searched g).rules = engine.rules := rfl

variable [Picker source] {engine : Engine source} {g : Grid Symbol} {proposal : Proposal}

/-- The proposal that the next step applies, if there is any. -/
def applied? (engine : Engine source) (g : Grid Symbol) : Option Proposal :=
  (Picker.pick engine.generator (engine.proposals g)).1.map Prod.snd

theorem applied?_eq_none_iff : engine.applied? g = none ↔ engine.proposals g = [] := by
  rw [applied?, Option.map_eq_none_iff, Picker.pick_eq_none_iff]

theorem mem_proposals_of_applied? (h : engine.applied? g = some proposal) :
    proposal ∈ engine.proposals g := by
  rcases Option.map_eq_some_iff.mp h with ⟨⟨index, chosen⟩, hpick, rfl⟩
  exact Picker.pick_mem hpick

theorem advance_of_none (h : engine.applied? g = none) :
    engine.advance g = (.fixedPoint, engine.searched g) := by
  have hnil : engine.rules.proposals g engine.progress = [] := applied?_eq_none_iff.mp h
  rw [advance, RuleSet.choose_eq, hnil, Picker.pick_nil]
  rfl

theorem advance_of_some (h : engine.applied? g = some proposal) :
    engine.advance g =
      ( .advanced (proposal.rewrite g),
        { engine.searched g with
          generator := (Picker.pick engine.generator (engine.proposals g)).2
          steps := engine.steps + 1 } ) := by
  rcases Option.map_eq_some_iff.mp h with ⟨⟨index, chosen⟩, hpick, rfl⟩
  have hpick' : (Picker.pick engine.generator (engine.rules.proposals g engine.progress)).1 =
      some (index, chosen) := hpick
  rw [advance, RuleSet.choose_eq, hpick']
  rfl

theorem advance_eq_fixedPoint_iff {after : Engine source} :
    engine.advance g = (.fixedPoint, after) ↔
      engine.proposals g = [] ∧ engine.searched g = after := by
  rw [← applied?_eq_none_iff]
  cases h : engine.applied? g with
  | none =>
      rw [advance_of_none h]
      simp
  | some proposal =>
      rw [advance_of_some h]
      simp

/-!
# Several steps
-/

/-- Outcomes of steps on the given grids, one after the other, and the engine
after them.  The grids need not be results of each other. -/
def advances (engine : Engine source) : List (Grid Symbol) -> List Step × Engine source
  | [] => ([], engine)
  | g :: grids =>
      let rest := advances (engine.advance g).2 grids
      ((engine.advance g).1 :: rest.1, rest.2)

/-- Whether or not a rule applies, a step differs from the search by the generator and the
number of steps at most. -/
theorem exists_advance_snd_eq (engine : Engine source) (g : Grid Symbol) :
    exists generator steps, (engine.advance g).2 =
      { engine.searched g with generator := generator, steps := steps } := by
  cases h : engine.applied? g with
  | none =>
      rw [advance_of_none h]
      exact ⟨_, _, rfl⟩
  | some proposal =>
      rw [advance_of_some h]
      exact ⟨_, _, rfl⟩

theorem rules_advance (engine : Engine source) (g : Grid Symbol) :
    (engine.advance g).2.rules = engine.rules := by
  rcases exists_advance_snd_eq engine g with ⟨_, _, h⟩
  rw [h, rules_searched]

theorem maxSteps_advance (engine : Engine source) (g : Grid Symbol) :
    (engine.advance g).2.maxSteps = engine.maxSteps := by
  rcases exists_advance_snd_eq engine g with ⟨_, _, h⟩
  rw [h, searched]

theorem progress_advance (engine : Engine source) (g : Grid Symbol) :
    (engine.advance g).2.progress = (engine.rules.candidates g engine.progress).2 := by
  rcases exists_advance_snd_eq engine g with ⟨_, _, h⟩
  rw [h, searched]

/-!
# Outcomes of a step
-/

variable {after : Engine source}

theorem rules_of_advance {step : Step} (h : engine.advance g = (step, after)) :
    after.rules = engine.rules := by
  rw [← rules_advance engine g, h]

theorem steps_advance_of_advanced {next : Grid Symbol}
    (h : engine.advance g = (.advanced next, after)) : after.steps = engine.steps + 1 := by
  cases happlied : engine.applied? g with
  | none =>
      rw [advance_of_none happlied] at h
      cases h
  | some proposal =>
      rw [advance_of_some happlied] at h
      cases h
      rfl

theorem steps_advance_of_fixedPoint (h : engine.advance g = (.fixedPoint, after)) :
    after.steps = engine.steps := by
  rcases advance_eq_fixedPoint_iff.mp h with ⟨_, rfl⟩
  rfl

/-!
# Induction over runs

A run without a bound takes no step.  Otherwise its first step is followed by a run with a
smaller bound, unless it finds a fixed point.
-/

theorem bound_induction {motive : Engine source -> Grid Symbol -> Nat -> Prop}
    (zero : forall engine g, motive engine g 0)
    (advanced : forall {engine after g next} (bound : Nat),
      engine.advance g = (.advanced next, after) -> motive after next bound ->
        motive engine g (bound + 1))
    (fixedPoint : forall {engine after g} (bound : Nat),
      engine.advance g = (.fixedPoint, after) -> motive engine g (bound + 1))
    (engine : Engine source) (g : Grid Symbol) (bound : Nat) : motive engine g bound := by
  induction bound generalizing engine g with
  | zero => exact zero engine g
  | succ bound ih =>
      rcases hadvance : engine.advance g with ⟨step, after⟩
      cases step with
      | advanced next => exact advanced bound hadvance (ih after next)
      | fixedPoint => exact fixedPoint bound hadvance

/-- What every step hands on holds after a run. -/
theorem run_induction {motive : Engine source -> Grid Symbol -> Prop}
    (advanced : forall {engine after : Engine source} {g next : Grid Symbol}, motive engine g ->
      engine.advance g = (.advanced next, after) -> motive after next)
    (fixedPoint : forall {engine after : Engine source} {g : Grid Symbol}, motive engine g ->
      engine.advance g = (.fixedPoint, after) -> motive after g)
    {engine : Engine source} {g : Grid Symbol} (h : motive engine g) (bound : Nat) :
    motive (engine.run g bound).2 (engine.run g bound).1.grid := by
  induction engine, g, bound using bound_induction with
  | zero engine g => exact h
  | advanced bound hadvance ih =>
      rw [run_succ_of_advanced bound hadvance]
      exact ih (advanced h hadvance)
  | fixedPoint bound hadvance =>
      rw [run_succ_of_fixedPoint bound hadvance]
      exact fixedPoint h hadvance

/-- What holds after the first step and is handed on holds after every longer run. -/
theorem run_induction_first {motive : Engine source -> Grid Symbol -> Prop}
    (advanced : forall {engine after : Engine source} {g next : Grid Symbol}, motive engine g ->
      engine.advance g = (.advanced next, after) -> motive after next)
    (fixedPoint : forall {engine after : Engine source} {g : Grid Symbol}, motive engine g ->
      engine.advance g = (.fixedPoint, after) -> motive after g)
    {next : Grid Symbol} (hadvance : engine.advance g = (.advanced next, after))
    (h : motive after next) {bound : Nat} (hbound : 0 < bound) :
    motive (engine.run g bound).2 (engine.run g bound).1.grid := by
  cases bound with
  | zero => cases hbound
  | succ bound =>
      rw [run_succ_of_advanced bound hadvance]
      exact run_induction advanced fixedPoint h bound

end Engine
end GridRules
