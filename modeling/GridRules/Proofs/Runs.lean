import GridRules.Proofs.FixedPoints

/-!
# Runs

A run takes steps until no rule applies or its bound is reached.  An engine that has
stopped at a fixed point answers every further run on that grid in the same way, so
nothing is lost when a run is interrupted.

## Main statements

A run may be split at any number of steps and resumed by the engine it left.  A run
that took fewer steps than it was allowed has stopped for good.  What a run reports
about itself is what its steps answered.
-/

namespace GridRules
namespace Engine

variable {source : Type} [Picker source] {engine after : Engine source} {g : Grid Symbol}

/-!
# Splitting runs
-/

theorem run_settled (h : engine.advance g = (.fixedPoint, engine)) (bound : Nat) :
    engine.run g bound =
      ( { grid := g
          steps := 0
          fixedPoint := bound != 0 },
        engine ) := by
  cases bound with
  | zero => rfl
  | succ bound => exact run_succ_of_fixedPoint bound h

theorem run_add (engine : Engine source) (g : Grid Symbol) (bound more : Nat) :
    engine.run g (bound + more) =
      let first := engine.run g bound
      let second := first.2.run first.1.grid more
      ( { grid := second.1.grid
          steps := first.1.steps + second.1.steps
          fixedPoint := first.1.fixedPoint || second.1.fixedPoint },
        second.2 ) := by
  induction engine, g, bound using bound_induction with
  | zero engine g =>
      rw [Nat.zero_add, run_zero]
      simp only [Nat.zero_add, Bool.false_or]
  | advanced bound hadvance ih =>
      rw [Nat.succ_add, run_succ_of_advanced _ hadvance, run_succ_of_advanced _ hadvance, ih]
      simp only [Nat.add_right_comm]
  | fixedPoint bound hadvance =>
      rw [Nat.succ_add, run_succ_of_fixedPoint _ hadvance, run_succ_of_fixedPoint _ hadvance]
      simp only [run_settled (advance_settled hadvance), Bool.true_or, Nat.add_zero]

theorem run_concat_of_advanced {next : Grid Symbol} {bound : Nat}
    (h : (engine.run g bound).2.advance (engine.run g bound).1.grid = (.advanced next, after)) :
    engine.run g (bound + 1) =
      ( { grid := next
          steps := (engine.run g bound).1.steps + 1
          fixedPoint := (engine.run g bound).1.fixedPoint },
        after ) := by
  simp only [run_add, run_succ_of_advanced 0 h, run_zero, Bool.or_false]

theorem run_concat_of_fixedPoint {bound : Nat}
    (h : (engine.run g bound).2.advance (engine.run g bound).1.grid = (.fixedPoint, after)) :
    engine.run g (bound + 1) =
      ( { grid := (engine.run g bound).1.grid
          steps := (engine.run g bound).1.steps
          fixedPoint := true },
        after ) := by
  simp only [run_add, run_succ_of_fixedPoint 0 h, Bool.or_true, Nat.add_zero]

/-!
# Bounds of runs
-/

theorem steps_run_le (engine : Engine source) (g : Grid Symbol) (bound : Nat) :
    (engine.run g bound).1.steps ≤ bound := by
  induction engine, g, bound using bound_induction with
  | zero engine g => exact Nat.le_refl 0
  | advanced bound hadvance ih =>
      rw [run_succ_of_advanced bound hadvance]
      exact Nat.succ_le_succ ih
  | fixedPoint bound hadvance =>
      rw [run_succ_of_fixedPoint bound hadvance]
      exact Nat.zero_le _

theorem steps_run_of_not_fixedPoint {bound : Nat}
    (h : (engine.run g bound).1.fixedPoint = false) : (engine.run g bound).1.steps = bound := by
  induction engine, g, bound using bound_induction with
  | zero engine g => rfl
  | advanced bound hadvance ih =>
      rw [run_succ_of_advanced bound hadvance] at h ⊢
      exact congrArg Nat.succ (ih h)
  | fixedPoint bound hadvance =>
      rw [run_succ_of_fixedPoint bound hadvance] at h
      cases h

theorem fixedPoint_of_steps_lt {bound : Nat} (h : (engine.run g bound).1.steps < bound) :
    (engine.run g bound).1.fixedPoint = true := by
  cases hfixed : (engine.run g bound).1.fixedPoint with
  | true => rfl
  | false => exact absurd (steps_run_of_not_fixedPoint hfixed) (Nat.ne_of_lt h)

theorem run_of_steps_lt {bound : Nat} (h : (engine.run g bound).1.steps < bound) (more : Nat) :
    engine.run g (bound + more) = engine.run g bound := by
  induction engine, g, bound using bound_induction with
  | zero engine g => exact absurd h (Nat.not_lt_zero _)
  | advanced bound hadvance ih =>
      rw [run_succ_of_advanced bound hadvance] at h
      rw [Nat.succ_add, run_succ_of_advanced _ hadvance, run_succ_of_advanced _ hadvance,
        ih (Nat.lt_of_succ_lt_succ h)]
  | fixedPoint bound hadvance =>
      rw [Nat.succ_add, run_succ_of_fixedPoint _ hadvance, run_succ_of_fixedPoint _ hadvance]

/-!
# What a run reports

A run is a chain of steps.  Its report is read off their answers.
-/

/-- Steps taken one after the other, with their answers.  Each starts from the grid and
the engine that the one before it left, and none follows a fixed point. -/
inductive Chain :
    Engine source -> Grid Symbol -> List Step -> Engine source -> Grid Symbol -> Prop where
  | nil (engine : Engine source) (g : Grid Symbol) : Chain engine g [] engine g
  | advanced {engine after last : Engine source} {g next final : Grid Symbol} {answers : List Step}
      (h : engine.advance g = (.advanced next, after))
      (rest : Chain after next answers last final) :
      Chain engine g (.advanced next :: answers) last final
  | fixedPoint {engine after : Engine source} {g : Grid Symbol}
      (h : engine.advance g = (.fixedPoint, after)) :
      Chain engine g [.fixedPoint] after g

/-- The answers that the steps of a run gave.  There are as many as the bound allows
unless the last one is a fixed point, and the outcome counts all others. -/
structure Reports (outcome : RunOutcome) (bound : Nat) (answers : List Step) : Prop where
  length_eq : answers.length = outcome.steps + outcome.fixedPoint.toNat
  ends : answers.length = bound ∨ answers.getLast? = some .fixedPoint
  fixedPoint_iff : outcome.fixedPoint = true ↔ answers.getLast? = some .fixedPoint

theorem Reports.cons {outcome : RunOutcome} {bound : Nat} {answers : List Step}
    (h : Reports outcome bound answers) (next : Grid Symbol) :
    Reports { outcome with steps := outcome.steps + 1 } (bound + 1)
      (.advanced next :: answers) := by
  have hlast : (Step.advanced next :: answers).getLast? = some .fixedPoint ↔
      answers.getLast? = some .fixedPoint := by
    cases answers with
    | nil => simp
    | cons answer answers => rw [List.getLast?_cons_cons]
  refine ⟨?_, ?_, h.fixedPoint_iff.trans hlast.symm⟩
  · rw [List.length_cons, h.length_eq, Nat.add_right_comm]
  · rw [List.length_cons, hlast, Nat.add_right_cancel_iff]
    exact h.ends

theorem exists_chain_run (engine : Engine source) (g : Grid Symbol) (bound : Nat) :
    exists answers, Chain engine g answers (engine.run g bound).2 (engine.run g bound).1.grid ∧
      Reports (engine.run g bound).1 bound answers := by
  induction engine, g, bound using bound_induction with
  | zero engine g => exact ⟨[], Chain.nil engine g, rfl, Or.inl rfl, by simp [run_zero]⟩
  | advanced bound hadvance ih =>
      rcases ih with ⟨answers, hchain, hreports⟩
      rw [run_succ_of_advanced bound hadvance]
      exact ⟨_, Chain.advanced hadvance hchain, hreports.cons _⟩
  | fixedPoint bound hadvance =>
      rw [run_succ_of_fixedPoint bound hadvance]
      exact ⟨_, Chain.fixedPoint hadvance, rfl, Or.inr rfl, by simp⟩

theorem steps_run (engine : Engine source) (g : Grid Symbol) (bound : Nat) :
    (engine.run g bound).2.steps = engine.steps + (engine.run g bound).1.steps := by
  induction engine, g, bound using bound_induction with
  | zero engine g => rfl
  | @advanced engine _ _ _ bound hadvance ih =>
      rw [run_succ_of_advanced bound hadvance]
      simp only [ih, steps_advance_of_advanced hadvance]
      exact Nat.add_right_comm engine.steps 1 _
  | fixedPoint bound hadvance =>
      rw [run_succ_of_fixedPoint bound hadvance]
      exact steps_advance_of_fixedPoint hadvance

theorem advance_run_of_fixedPoint {bound : Nat}
    (h : (engine.run g bound).1.fixedPoint = true) :
    (engine.run g bound).2.advance (engine.run g bound).1.grid =
      (.fixedPoint, (engine.run g bound).2) := by
  induction engine, g, bound using bound_induction with
  | zero engine g => cases h
  | advanced bound hadvance ih =>
      rw [run_succ_of_advanced bound hadvance] at h ⊢
      exact ih h
  | fixedPoint bound hadvance =>
      rw [run_succ_of_fixedPoint bound hadvance]
      exact advance_settled hadvance

/-- A run can be split anywhere.  The second part ends with the grid and the engine of
the whole run, the steps of the parts add up, and a second part that may take a step
reports a fixed point exactly if the whole run does.  Every run keeps to its bound, counts
the steps that the engine counts, and reports a fixed point exactly if its last step
found one. -/
theorem run_split (engine : Engine source) (g : Grid Symbol) (bound more : Nat) :
    let first := engine.run g bound
    let second := first.2.run first.1.grid more
    let whole := engine.run g (bound + more)
    second.1.grid = whole.1.grid ∧ second.2 = whole.2 ∧
      first.1.steps + second.1.steps = whole.1.steps ∧
      (0 < more -> second.1.fixedPoint = whole.1.fixedPoint) ∧
      first.1.steps ≤ bound ∧ first.2.steps = engine.steps + first.1.steps ∧
      exists answers, Chain engine g answers first.2 first.1.grid ∧
        Reports first.1 bound answers := by
  refine ⟨by rw [run_add], by rw [run_add], by rw [run_add], ?_, steps_run_le engine g bound,
    steps_run engine g bound, exists_chain_run engine g bound⟩
  intro hmore
  simp only [run_add]
  cases hfirst : (engine.run g bound).1.fixedPoint with
  | false => rw [Bool.false_or]
  | true =>
      have hsecond : (more != 0) = true := bne_iff_ne.mpr (Nat.ne_of_gt hmore)
      rw [run_settled (advance_run_of_fixedPoint hfirst), Bool.true_or]
      exact hsecond

/-!
# The bound of an engine

Its own bound does not change what an engine does in a step.
-/

theorem advance_withBound (engine : Engine source) (g : Grid Symbol) (maxSteps : Nat) :
    (engine.withBound maxSteps).advance g =
      ((engine.advance g).1, (engine.advance g).2.withBound maxSteps) := by
  cases h : engine.applied? g with
  | none =>
      have hbound : (engine.withBound maxSteps).applied? g = none := h
      rw [advance_of_none h, advance_of_none hbound]
      rfl
  | some proposal =>
      have hbound : (engine.withBound maxSteps).applied? g = some proposal := h
      rw [advance_of_some h, advance_of_some hbound]
      rfl

end Engine
end GridRules
