import GridRules.Script
import GridRules.Proofs.Carving
import GridRules.Proofs.CellCounts
import GridRules.Proofs.Runs

/-!
# Mazes

The maze script paints one cell of a black grid red.  From then on every step is a move
of the red head.

## Main statements

On every black grid and for every seed, the maze rules come to rest before they have
taken more steps than there are cells.  The head returns to the cell that it started from,
and has visited every cell that is aligned with it.
-/

namespace GridRules

/-!
# Clauses and steps
-/

namespace Clause

variable {clause : Clause} {g : Grid Symbol} {a b c : Symbol}

theorem offered_eq_none_iff (hlhs : clause.lhs = Grid.strip a b c) :
    Candidate.offered (clause.candidates g) = none ↔
      forall first middle last, ¬ g.Shows first middle last a b c := by
  rw [offered_candidates_eq_none_iff, hlhs]
  constructor
  · intro h first middle last hshows
    exact h _ (Grid.mem_occurrences_strip_iff.mpr ⟨first, middle, last, rfl, hshows⟩)
  · intro h found hfound
    rcases Grid.mem_occurrences_strip_iff.mp hfound with ⟨first, middle, last, _, hshows⟩
    exact h first middle last hshows

end Clause

/-!
# The rules of a maze
-/

namespace Maze

def first : Clause where
  lhs := RuleSet.dot .black
  rhs := RuleSet.dot .red
  size_eq := RuleSet.size_dot .black .red

def ahead : Clause where
  lhs := Grid.strip .red .black .black
  rhs := Grid.strip .green .green .red
  size_eq := rfl

def back : Clause where
  lhs := Grid.strip .red .green .green
  rhs := Grid.strip .white .white .red
  size_eq := rfl

def rules : RuleSet where
  rules := [.markov [.limited 1 (.single first), .single ahead, .single back]]

theorem rules_mazeBackTracker :
    Script.mazeBackTracker.rules SymbolTable.standard = .ok rules := rfl

def fired (times : UInt32) : List Progress :=
  [.group [.limited times .leaf, .leaf, .leaf]]

theorem fresh_rules : rules.fresh = fired 0 := rfl

section

variable {source : Type} {engine : Engine source} {g : Grid Symbol}

/-- An engine that has painted the first cell, and the grid that it works on. -/
structure Works (root : Nat) (engine : Engine source) (g : Grid Symbol) : Prop where
  rules_eq : engine.rules = rules
  progress_eq : engine.progress = fired 1
  carved : exists head behind, Carved root g head behind
  counted : Counted root g engine.steps

theorem Works.exists_head {root : Nat} (h : Works root engine g) :
    exists head, forall index, g.get? index = some .red ↔ index = head := by
  rcases h.carved with ⟨head, behind, hcarved⟩
  refine ⟨head, fun index => ⟨hcarved.eq_head, ?_⟩⟩
  intro heq
  rw [heq]
  exact hcarved.head_eq

theorem Works.steps_le {root : Nat} (h : Works root engine g) : engine.steps ≤ g.size := by
  rcases h.carved with ⟨head, behind, hcarved⟩
  exact h.counted.steps_le hcarved

/-!
# One step
-/

variable [Picker source]

theorem candidates_first {found : List Candidate}
    (h : Candidate.offered (first.candidates g) = some found) :
    rules.candidates g (fired 0) = (some (0, found), fired 1) := by
  simp [RuleSet.candidates, RuleSet.orFresh, RuleSet.fits, RuleSet.size, rules, fired,
    Progress.fits, Rule.searchFirst, Rule.search, Progress.asGroup, Progress.asLimited, h]

theorem candidates_later (g : Grid Symbol) :
    rules.candidates g (fired 1) =
      (((Candidate.offered (ahead.candidates g)).or (Candidate.offered (back.candidates g))).map
        fun found => (0, found), fired 1) := by
  cases hahead : Candidate.offered (ahead.candidates g) <;>
    cases hback : Candidate.offered (back.candidates g) <;>
      simp [RuleSet.candidates, RuleSet.orFresh, RuleSet.fits, RuleSet.size, rules, fired,
        Progress.fits, Rule.searchFirst, Rule.search, Progress.asGroup, Progress.asLimited,
        hahead, hback]

/-- Every step after the first one is a move of the head. -/
theorem move_advance (hrules : engine.rules = rules) (hprogress : engine.progress = fired 1) :
    Move g (engine.advance g).1 := by
  have hcandidates := candidates_later g
  cases hahead : Candidate.offered (ahead.candidates g) with
  | some found =>
      rw [hahead, Option.some_or, Option.map_some] at hcandidates
      rcases Engine.exists_writes_advance hahead (hrules ▸ hprogress ▸ hcandidates) with
        ⟨target, next, hadvance, htarget, hwrites⟩
      rcases Grid.mem_occurrences_strip_iff.mp htarget with ⟨first, middle, last, rfl, hshows⟩
      rw [hadvance]
      exact Move.ahead hshows hwrites
  | none =>
      have hblocked : Blocked g := (Clause.offered_eq_none_iff rfl).mp hahead
      cases hback : Candidate.offered (back.candidates g) with
      | some found =>
          rw [hahead, hback, Option.none_or, Option.map_some] at hcandidates
          rcases Engine.exists_writes_advance hback (hrules ▸ hprogress ▸ hcandidates) with
            ⟨target, next, hadvance, htarget, hwrites⟩
          rcases Grid.mem_occurrences_strip_iff.mp htarget with
            ⟨first, middle, last, rfl, hshows⟩
          rw [hadvance]
          exact Move.back hblocked hshows hwrites
      | none =>
          rw [hahead, hback, Option.none_or, Option.map_none] at hcandidates
          rw [Engine.advance_of_no_candidates (hrules ▸ hprogress ▸ hcandidates)]
          exact Move.rest hblocked ((Clause.offered_eq_none_iff rfl).mp hback)

theorem progress_advance (hrules : engine.rules = rules) (hprogress : engine.progress = fired 1) :
    (engine.advance g).2.progress = fired 1 := by
  rw [Engine.progress_advance, hrules, hprogress, candidates_later]

/-!
# Runs
-/

theorem Works.advance {root : Nat} {after : Engine source} {next : Grid Symbol}
    (h : Works root engine g) (hadvance : engine.advance g = (.advanced next, after)) :
    Works root after next := by
  have hmove := move_advance (g := g) h.rules_eq h.progress_eq
  have hrules := Engine.rules_of_advance hadvance
  have hprogress := progress_advance (g := g) h.rules_eq h.progress_eq
  rw [hadvance] at hmove hprogress
  rcases h.carved with ⟨head, behind, hcarved⟩
  refine ⟨hrules.trans h.rules_eq, hprogress, hcarved.move hmove, ?_⟩
  rw [Engine.steps_advance_of_advanced hadvance]
  exact h.counted.move hcarved hmove

theorem Works.searched {root : Nat} {after : Engine source} (h : Works root engine g)
    (hadvance : engine.advance g = (.fixedPoint, after)) : Works root after g := by
  have hrules := Engine.rules_of_advance hadvance
  have hprogress := progress_advance (g := g) h.rules_eq h.progress_eq
  rw [hadvance] at hprogress
  refine ⟨hrules.trans h.rules_eq, hprogress, h.carved, ?_⟩
  rw [Engine.steps_advance_of_fixedPoint hadvance]
  exact h.counted

theorem exists_first (hrules : engine.rules = rules) (hprogress : engine.progress = fired 0)
    (hsteps : engine.steps = 0)
    (hblack : forall index symbol, g.get? index = some symbol -> symbol = .black) :
    exists root next after, engine.advance g = (.advanced next, after) ∧
      next.get? root = some .red ∧ Works root after next := by
  rcases Engine.exists_dot_advance hrules hprogress hsteps rfl hblack candidates_first with
    ⟨root, next, after, hadvance, hrulesAfter, hprogressAfter, hone, _, hwrites⟩
  refine ⟨root, next, after, hadvance, (hwrites.written 0 root rfl).right, hrulesAfter,
    hprogressAfter, ⟨root, [], Carved.of_dot hblack hwrites⟩, ?_⟩
  rw [hone]
  exact Carved.counted_of_dot hblack hwrites

theorem exists_works (hrules : engine.rules = rules) (hprogress : engine.progress = fired 0)
    (hsteps : engine.steps = 0)
    (hblack : forall index symbol, g.get? index = some symbol -> symbol = .black) :
    exists root, (engine.run g 1).1.grid.get? root = some .red ∧
      forall steps, 0 < steps ->
        Works root (engine.run g steps).2 (engine.run g steps).1.grid := by
  rcases exists_first hrules hprogress hsteps hblack with
    ⟨root, next, after, hadvance, hred, hworks⟩
  refine ⟨root, ?_, ?_⟩
  · rw [Engine.run_succ_of_advanced 0 hadvance]
    exact hred
  · intro steps hpos
    exact Engine.run_induction_first Works.advance Works.searched hadvance hworks hpos

theorem Works.rests {root : Nat} (h : Works root engine g)
    (hrest : (engine.advance g).1 = .fixedPoint) : Carved root g root [] ∧ Blocked g := by
  have hmove := move_advance (g := g) h.rules_eq h.progress_eq
  rw [hrest] at hmove
  rcases h.carved with ⟨head, behind, hcarved⟩
  cases hmove with
  | rest blocked stuck =>
      rcases hcarved.behind_eq_nil stuck with ⟨rfl, rfl⟩
      exact ⟨hcarved, blocked⟩

end

/-- On a black grid of any shape and for any seed, a run of the maze rules that may take
more steps than there are cells ends at a fixed point.  Every grid after the first step has
one red cell, and the last one is where it was in the beginning.  No cell is left green.
All cells that are aligned with the red one are red or white, and their number determines
the number of steps and of white cells.  The other cells are black. -/
theorem mazeBackTracker_spans {set : RuleSet} {edges : Shape} {g : Grid Symbol} {bound : Nat}
    (seed : UInt64) (hset : Script.mazeBackTracker.rules SymbolTable.standard = .ok set)
    (hg : Grid.filled .black edges = .ok g) (hbound : g.size < bound) :
    let outcome := fun steps => ((Engine.ofSeed set seed).run g steps).1
    let last := (outcome bound).grid
    (outcome bound).fixedPoint = true ∧
      (forall steps, 0 < steps ->
        exists head, forall index,
          (outcome steps).grid.get? index = some .red ↔ index = head) ∧
      (forall index, last.get? index ≠ some .green) ∧
      exists root, (outcome 1).grid.get? root = some .red ∧ last.get? root = some .red ∧
        (forall index, index < g.size -> edges.Aligned root index ->
          last.get? index = some .red ∨ last.get? index = some .white) ∧
        (outcome bound).steps = 2 * (edges.alignedCells root).card - 1 ∧
        (last.holding .white).card = 2 * ((edges.alignedCells root).card - 1) ∧
        forall index, index < g.size -> last.get? index ≠ some .red ->
          last.get? index ≠ some .white -> last.get? index = some .black := by
  have hrules : set = rules := by
    rw [rules_mazeBackTracker] at hset
    exact (Except.ok.inj hset).symm
  subst hrules
  rcases Grid.of_filled hg with ⟨hedges, hblack⟩
  subst hedges
  intro outcome last
  rcases exists_works (rfl : (Engine.ofSeed rules seed).rules = rules) fresh_rules rfl hblack with
    ⟨root, hroot, hworks⟩
  have hlast := hworks bound (Nat.lt_of_le_of_lt (Nat.zero_le _) hbound)
  have hedges : last.edges = g.edges := Engine.edges_run _ g bound
  have hsize : last.size = g.size := Engine.size_run _ g bound
  have hsteps : ((Engine.ofSeed rules seed).run g bound).2.steps = (outcome bound).steps := by
    rw [Engine.steps_run]
    exact Nat.zero_add _
  -- Otherwise the run would have taken more steps than there are cells.
  have hfixed : (outcome bound).fixedPoint = true := by
    by_contra hnot
    have hall := Engine.steps_run_of_not_fixedPoint (Bool.eq_false_iff.mpr hnot)
    have hle := hlast.steps_le
    rw [hsteps, hsize] at hle
    exact absurd (hall ▸ hle) (Nat.not_le.mpr hbound)
  have hrest := Engine.advance_run_of_fixedPoint hfixed
  rcases hlast.rests (by rw [hrest]) with ⟨hcarved, hblocked⟩
  rcases hcarved.counts hblocked hlast.counted with ⟨hcount, hwhite⟩
  have hcases : forall index, index < g.size -> _ :=
    fun index hindex => hcarved.rest_cases hblocked (hsize.symm ▸ hindex)
  refine ⟨hfixed, fun steps hpos => (hworks steps hpos).exists_head, ?_, root, hroot,
    hcarved.head_eq, ?_, ?_, ?_, ?_⟩
  · intro index hgreen
    cases hcarved.mem_behind hgreen
  · intro index hindex haligned
    rcases hcases index hindex with rfl | ⟨_, hcontent⟩ | ⟨_, _, hnot⟩
    · exact Or.inl hcarved.head_eq
    · exact Or.inr hcontent
    · exact absurd (hedges.symm ▸ haligned) hnot
  · rw [← hsteps, hcount, hedges]
  · rw [hwhite, hedges]
  · intro index hindex hred hnotWhite
    rcases hcases index hindex with rfl | ⟨_, hcontent⟩ | ⟨_, hcontent, _⟩
    · exact absurd hcarved.head_eq hred
    · exact absurd hcontent hnotWhite
    · exact hcontent

/-!
## A maze in a square

In a square with an even edge, a quarter of the cells is aligned with each of them.
-/

def square : Grid Symbol where
  edges := [4, 4]
  cells := Array.replicate 16 .black
  edges_ne_nil := by decide
  zero_not_mem := by decide
  size_eq := rfl
  addressable := by decide

theorem mazeBackTracker_spans_square :
    Script.mazeBackTracker.rules SymbolTable.standard = .ok rules ∧
      Grid.filled .black [4, 4] = .ok square ∧ square.size < 17 ∧
      ((Engine.ofSeed rules 5).run square 17).1.fixedPoint = true ∧
      ((Engine.ofSeed rules 5).run square 17).1.steps = 7 ∧
      (((Engine.ofSeed rules 5).run square 17).1.grid.holding .white).card = 6 := by
  have hfilled : Grid.filled .black [4, 4] = .ok square := rfl
  have hsize : square.size < 17 := by decide
  have hquarter : forall root, root < 16 -> (Shape.alignedCells [4, 4] root).card = 4 := by
    decide
  rcases mazeBackTracker_spans 5 rules_mazeBackTracker hfilled hsize with
    ⟨hfixed, _, _, root, hroot, _, _, hsteps, hwhite, _⟩
  have hcells : ((Engine.ofSeed rules 5).run square 1).1.grid.size = 16 :=
    Engine.size_run _ square 1
  have hlt : root < 16 := hcells ▸ (Array.getElem?_eq_some_iff.mp hroot).1
  rw [hquarter root hlt] at hsteps hwhite
  exact ⟨rules_mazeBackTracker, hfilled, hsize, hfixed, hsteps, hwhite⟩

end Maze
end GridRules
