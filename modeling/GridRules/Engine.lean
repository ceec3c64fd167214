import GridRules.Config
import GridRules.Random.Generator
import GridRules.RuleSet

/-!
# Engines

An engine drives a rule set over grids.  It owns everything that changes while
rules run: their progress, the generator of the choices, and the number of
steps taken.  The grid is handed in and out.

At a fixed point no rule applies, and a step leaves the grid as it is.

## Counters

Steps and their bounds are natural numbers.  Bounds that are saved or left open
fit into 64 bits, and the steps of one run stay within their bound
(`steps_run_le`), so a counter of 64 bits counts them alike.  The steps of an
engine add up over its runs.  There such a counter agrees as long as the engine
has taken fewer than `2 ^ 64` steps since its last reset.
-/

namespace GridRules

inductive Step where
  | advanced (g : Grid Symbol)
  | fixedPoint
deriving DecidableEq

/-- Outcome of a bounded run: the last grid, the number of steps taken, and
whether the run stopped because no rule applied. -/
structure RunOutcome where
  grid : Grid Symbol
  steps : Nat
  fixedPoint : Bool
deriving DecidableEq

structure Engine (source : Type) where
  rules : RuleSet
  progress : List Progress
  generator : source
  steps : Nat
  maxSteps : Nat

namespace Engine

variable {source : Type}

def unbounded : Nat := UInt64.size - 1

/-!
# Making engines
-/

def ofGenerator (rules : RuleSet) (generator : source) : Engine source where
  rules := rules
  progress := rules.fresh
  generator := generator
  steps := 0
  maxSteps := unbounded

def ofSeed (rules : RuleSet) (seed : UInt64) : Engine Generator :=
  ofGenerator rules (Generator.ofSeed seed)

def withBound (engine : Engine source) (maxSteps : Nat) : Engine source :=
  { engine with maxSteps := maxSteps }

def ofConfig (rules : RuleSet) (config : Config) : Engine Generator :=
  (ofSeed rules config.seed).withBound config.maxSteps

def reset (engine : Engine source) : Engine source :=
  { engine with
    progress := engine.rules.fresh
    steps := 0 }

/-!
# Steps
-/

variable [Picker source]

def advance (engine : Engine source) (g : Grid Symbol) : Step × Engine source :=
  match engine.rules.choose g engine.progress engine.generator with
  | (some mask, progress, generator) =>
      ( .advanced (g.overwrite mask),
        { engine with
          progress := progress
          generator := generator
          steps := engine.steps + 1 } )
  | (none, progress, generator) =>
      ( .fixedPoint,
        { engine with
          progress := progress
          generator := generator } )

def step (engine : Engine source) (g : Grid Symbol) : Grid Symbol × Engine source :=
  match engine.advance g with
  | (.advanced next, after) => (next, after)
  | (.fixedPoint, after) => (g, after)

/-!
# Runs
-/

def run (engine : Engine source) (g : Grid Symbol) (bound : Nat) : RunOutcome × Engine source :=
  match bound with
  | 0 =>
      ( { grid := g
          steps := 0
          fixedPoint := false },
        engine )
  | bound + 1 =>
      match engine.advance g with
      | (.advanced next, after) =>
          let rest := run after next bound
          ({ rest.1 with steps := rest.1.steps + 1 }, rest.2)
      | (.fixedPoint, after) =>
          ( { grid := g
              steps := 0
              fixedPoint := true },
            after )

def runToBound (engine : Engine source) (g : Grid Symbol) : RunOutcome × Engine source :=
  engine.run g engine.maxSteps

theorem run_zero (engine : Engine source) (g : Grid Symbol) :
    engine.run g 0 = ({ grid := g, steps := 0, fixedPoint := false }, engine) := rfl

theorem run_succ_of_advanced {engine after : Engine source} {g next : Grid Symbol} (bound : Nat)
    (h : engine.advance g = (.advanced next, after)) :
    engine.run g (bound + 1) =
      ( { (after.run next bound).1 with steps := (after.run next bound).1.steps + 1 },
        (after.run next bound).2 ) := by
  rw [run, h]

theorem run_succ_of_fixedPoint {engine after : Engine source} {g : Grid Symbol} (bound : Nat)
    (h : engine.advance g = (.fixedPoint, after)) :
    engine.run g (bound + 1) =
      ({ grid := g, steps := 0, fixedPoint := true }, after) := by
  rw [run, h]

end Engine
end GridRules
