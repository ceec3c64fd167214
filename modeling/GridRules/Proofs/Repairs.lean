import GridRules.Proofs.FixedPoints

/-!
# Repairing progress

Progress of the wrong shape is replaced by fresh progress, but a search looks at one
level at a time, and only at the parts that it comes to.  After it some parts are
repaired and others are not.  Here the whole tree is repaired at once, and the
difference turns out not to matter.

## Main statements

A search from repaired progress gives the same answer as one from the progress as it
is, and it leaves behind what the other one leaves behind, repaired.  Rule sets
inherit this, and so does every sequence of steps of an engine.
-/

namespace GridRules

namespace Progress

variable {rules : List Rule} {progress : Progress}

theorem fits_markov (rules : List Rule) (progress : Progress) :
    progress.fits (.markov rules) = progress.fits (.composite rules) := by
  cases progress <;> rfl

theorem asGroup_of_not_fits (h : progress.fits (.composite rules) = false) :
    progress.asGroup rules = Rule.freshAll rules := by
  cases progress with
  | group states => exact if_neg (beq_eq_false_iff_ne.mp h)
  | leaf | limited fired inner | sequential cursor states => rfl

theorem asSequential_of_not_fits (h : progress.fits (.sequential rules) = false) :
    progress.asSequential rules = (0, Rule.freshAll rules) := by
  cases progress with
  | sequential cursor states => exact if_neg (beq_eq_false_iff_ne.mp h)
  | leaf | group states | limited fired inner => rfl

end Progress

namespace Rule

/-!
# Repairing a tree
-/

mutual

/-- Replace the topmost parts that do not fit by fresh progress. -/
def repair (rule : Rule) (progress : Progress) : Progress :=
  if progress.fits rule then
    match rule, progress with
    | composite rules, .group states => .group (repairAll rules states)
    | limited _ rule, .limited fired inner => .limited fired (repair rule inner)
    | sequential rules, .sequential cursor states => .sequential cursor (repairAll rules states)
    | markov rules, .group states => .group (repairAll rules states)
    | _, progress => progress
  else rule.fresh

def repairAll : List Rule -> List Progress -> List Progress
  | rule :: rules, state :: states => repair rule state :: repairAll rules states
  | _, states => states

end

theorem repair_of_not_fits {rule : Rule} {progress : Progress}
    (h : progress.fits rule = false) : repair rule progress = rule.fresh := by
  rw [repair.eq_def, h]
  rfl

theorem repairAll_nil (states : List Progress) : repairAll [] states = states := by
  cases states <;> rfl

theorem repairAll_states_nil (rules : List Rule) : repairAll rules [] = [] := by
  cases rules <;> rfl

theorem repairAll_cons (rule : Rule) (rules : List Rule) (state : Progress)
    (states : List Progress) :
    repairAll (rule :: rules) (state :: states) = repair rule state :: repairAll rules states := by
  rw [repairAll]

@[simp] theorem length_repairAll (rules : List Rule) (states : List Progress) :
    (repairAll rules states).length = states.length := by
  induction rules generalizing states with
  | nil => rw [repairAll_nil]
  | cons rule rules ih =>
      cases states with
      | nil => rw [repairAll_states_nil]
      | cons state states => rw [repairAll_cons, List.length_cons, ih, List.length_cons]

mutual

theorem repair_eq_self :
    (rule : Rule) -> (progress : Progress) -> progress.fitsDeeply rule = true ->
      repair rule progress = progress
  | single _, .leaf, _ => rfl
  | composite rules, .group states, h => by
      rw [repair, if_pos (Progress.fits_of_fitsDeeply h), repairAll_eq_self rules states h]
  | limited _ rule, .limited fired inner, h => by
      rw [repair, if_pos (Progress.fits_of_fitsDeeply h), repair_eq_self rule inner h]
  | sequential rules, .sequential cursor states, h => by
      rw [repair, if_pos (Progress.fits_of_fitsDeeply h), repairAll_eq_self rules states h]
  | markov rules, .group states, h => by
      rw [repair, if_pos (Progress.fits_of_fitsDeeply h), repairAll_eq_self rules states h]

theorem repairAll_eq_self :
    (rules : List Rule) -> (states : List Progress) ->
      Progress.allFitDeeply states rules = true -> repairAll rules states = states
  | [], [], _ => rfl
  | rule :: rules, state :: states, h => by
      rcases Bool.and_eq_true_iff.mp h with ⟨hstate, hstates⟩
      rw [repairAll_cons, repair_eq_self rule state hstate, repairAll_eq_self rules states hstates]

end

theorem repairAll_freshAll (rules : List Rule) :
    repairAll rules (freshAll rules) = freshAll rules :=
  repairAll_eq_self rules (freshAll rules) (allFitDeeply_freshAll rules)

/-!
# One kind of rule at a time

Repairing the top is what a search does, and leaves the parts to be repaired.
-/

section Kinds

variable (times : UInt32) (rule : Rule) (rules : List Rule) (progress : Progress)

theorem repair_single (clause : Clause) : repair (single clause) progress = .leaf := by
  cases progress <;> rfl

theorem repair_composite :
    repair (composite rules) progress = .group (repairAll rules (progress.asGroup rules)) := by
  cases hfits : progress.fits (composite rules) with
  | false =>
      rw [repair_of_not_fits hfits, Progress.asGroup_of_not_fits hfits, repairAll_freshAll, fresh]
  | true =>
      cases progress with
      | group states =>
          rw [repair, if_pos hfits, Progress.asGroup_group (beq_iff_eq.mp hfits)]
      | leaf | limited fired inner | sequential cursor states => cases hfits

theorem repair_limited :
    repair (limited times rule) progress =
      .limited (progress.asLimited rule).1 (repair rule (progress.asLimited rule).2) := by
  cases progress with
  | limited fired inner =>
      rw [repair]
      exact if_pos rfl
  | leaf | group states | sequential cursor states =>
      have hfresh := repair_eq_self rule rule.fresh (fitsDeeply_fresh rule)
      rw [repair_of_not_fits rfl, fresh]
      exact congrArg (Progress.limited 0) hfresh.symm

theorem repair_sequential :
    repair (sequential rules) progress =
      .sequential (progress.asSequential rules).1
        (repairAll rules (progress.asSequential rules).2) := by
  cases hfits : progress.fits (sequential rules) with
  | false =>
      rw [repair_of_not_fits hfits, Progress.asSequential_of_not_fits hfits, repairAll_freshAll,
        fresh]
  | true =>
      cases progress with
      | sequential cursor states =>
          rw [repair, if_pos hfits, Progress.asSequential_sequential _ (beq_iff_eq.mp hfits)]
      | leaf | group states | limited fired inner => cases hfits

theorem repair_markov :
    repair (markov rules) progress = .group (repairAll rules (progress.asGroup rules)) := by
  rw [← repair_composite, repair.eq_def, repair.eq_def, Progress.fits_markov]
  cases progress <;> rfl

end Kinds

mutual

theorem fitsDeeply_repair :
    (rule : Rule) -> (progress : Progress) -> (repair rule progress).fitsDeeply rule = true
  | single clause, progress => by
      rw [repair_single]
      rfl
  | composite rules, progress => by
      rw [repair_composite]
      exact allFitDeeply_repairAll rules _ (progress.asGroup_length rules).symm
  | limited times rule, progress => by
      rw [repair_limited]
      exact fitsDeeply_repair rule _
  | sequential rules, progress => by
      rw [repair_sequential]
      exact allFitDeeply_repairAll rules _ (progress.asSequential_length rules).symm
  | markov rules, progress => by
      rw [repair_markov]
      exact allFitDeeply_repairAll rules _ (progress.asGroup_length rules).symm

theorem allFitDeeply_repairAll :
    (rules : List Rule) -> (states : List Progress) -> rules.length = states.length ->
      Progress.allFitDeeply (repairAll rules states) rules = true
  | [], [], _ => rfl
  | rule :: rules, state :: states, h => by
      rw [repairAll_cons]
      exact Bool.and_eq_true_iff.mpr ⟨fitsDeeply_repair rule state,
        allFitDeeply_repairAll rules states (Nat.succ.inj h)⟩

end

/-!
# Searching from repaired progress

A search and the search from repaired progress go through the rules side by side, and
the progress behind them differs by a repair at every point.
-/

section Parts

variable {g : Grid Symbol} {times fired : UInt32} {cursor : Nat} {rule : Rule} {rules : List Rule}
  {inner : Progress} {states : List Progress}

theorem search_limited_repair
    (ih : search g rule (repair rule inner) =
      ((search g rule inner).1, repair rule (search g rule inner).2)) :
    search g (limited times rule) (.limited fired (repair rule inner)) =
      ((search g (limited times rule) (.limited fired inner)).1,
        repair (limited times rule) (search g (limited times rule) (.limited fired inner)).2) := by
  rw [search_limited_limited, search_limited_limited, ih]
  split
  · rw [repair_limited]
    rfl
  · rw [repair_limited]
    rfl

theorem search_sequential_repair (hlength : rules.length = states.length)
    (ih : searchFirst g cursor rules (repairAll rules states) =
      ((searchFirst g cursor rules states).1,
        repairAll rules (searchFirst g cursor rules states).2)) :
    search g (sequential rules) (.sequential cursor (repairAll rules states)) =
      ((search g (sequential rules) (.sequential cursor states)).1,
        repair (sequential rules) (search g (sequential rules) (.sequential cursor states)).2) := by
  have hrepaired : rules.length = (repairAll rules states).length := by
    rw [length_repairAll, hlength]
  have hafter : rules.length = (searchFirst g cursor rules states).2.length := by
    rw [length_searchFirst, hlength]
  rw [search_sequential_sequential g cursor hrepaired,
    search_sequential_sequential g cursor hlength, ih, repair_sequential,
    Progress.asSequential_sequential _ hafter]

end Parts

mutual

theorem search_repair (g : Grid Symbol) :
    (rule : Rule) -> (progress : Progress) ->
      search g rule (repair rule progress) =
        ((search g rule progress).1, repair rule (search g rule progress).2)
  | single clause, progress => by
      rw [repair_single, search, search, repair_single]
  | composite rules, progress => by
      have hlength := (progress.asGroup_length rules).symm
      rw [repair_composite, search, search, Progress.asGroup_group (by simp [hlength]),
        searchAll_repair g rules, repair_composite, Progress.asGroup_group (by simp [hlength])]
  | limited times rule, progress => by
      have hview : search g (limited times rule) progress =
          search g (limited times rule)
            (.limited (progress.asLimited rule).1 (progress.asLimited rule).2) := by
        rw [search, search]
        rfl
      rw [repair_limited, hview]
      exact search_limited_repair (search_repair g rule (progress.asLimited rule).2)
  | sequential rules, progress => by
      have hlength := (progress.asSequential_length rules).symm
      have hview : search g (sequential rules) progress =
          search g (sequential rules)
            (.sequential (progress.asSequential rules).1 (progress.asSequential rules).2) := by
        rw [search, search, Progress.asSequential_sequential _ hlength]
      rw [repair_sequential, hview]
      exact search_sequential_repair hlength (searchFirst_repair g _ rules _)
  | markov rules, progress => by
      have hlength := (progress.asGroup_length rules).symm
      rw [repair_markov, search, search, Progress.asGroup_group (by simp [hlength]),
        searchFirst_repair g 0 rules, repair_markov, Progress.asGroup_group (by simp [hlength])]

theorem searchAll_repair (g : Grid Symbol) :
    (rules : List Rule) -> (states : List Progress) ->
      searchAll g rules (repairAll rules states) =
        ((searchAll g rules states).1, repairAll rules (searchAll g rules states).2)
  | [], states => by
      rw [repairAll_nil, searchAll_nil, repairAll_nil]
  | rule :: rules, [] => by
      rw [repairAll_states_nil, searchAll_states_nil, repairAll_states_nil]
  | rule :: rules, state :: states => by
      rw [repairAll_cons, searchAll, searchAll, search_repair g rule state,
        searchAll_repair g rules states, repairAll_cons]

theorem searchFirst_repair (g : Grid Symbol) :
    (start : Nat) -> (rules : List Rule) -> (states : List Progress) ->
      searchFirst g start rules (repairAll rules states) =
        ((searchFirst g start rules states).1, repairAll rules (searchFirst g start rules states).2)
  | start, [], states => by
      rw [repairAll_nil, searchFirst_nil, repairAll_nil]
  | start, rule :: rules, [] => by
      rw [repairAll_states_nil, searchFirst_states_nil, repairAll_states_nil]
  | start + 1, rule :: rules, state :: states => by
      rw [repairAll_cons, searchFirst_skip, searchFirst_skip,
        searchFirst_repair g start rules states, repairAll_cons]
  | 0, rule :: rules, state :: states => by
      have ih := search_repair g rule state
      rw [repairAll_cons]
      cases hanswer : (search g rule state).1 with
      | none =>
          rw [searchFirst_of_none rules states hanswer,
            searchFirst_of_none rules _ (by rw [ih, hanswer]), ih,
            searchFirst_repair g 0 rules states, repairAll_cons]
      | some found =>
          rw [searchFirst_of_some rules states hanswer,
            searchFirst_of_some rules _ (by rw [ih, hanswer]), ih, repairAll_cons]

end

end Rule

namespace RuleSet

/-!
# Rule sets

A rule set compares only the roots, and starts all of them over if one of them does
not fit.
-/

variable {set : RuleSet} {progress : List Progress}

def Misfits (set : RuleSet) (progress : List Progress) : Prop :=
  progress.length ≠ set.size ∨
    exists (index : Nat) (rule : Rule) (state : Progress), set.rules[index]? = some rule ∧
      progress[index]? = some state ∧ state.fits rule = false

theorem fits_eq_false_iff : set.fits progress = false ↔ set.Misfits progress := by
  rw [fits, Misfits, Bool.and_eq_false_iff, beq_eq_false_iff_ne, List.all_eq_false]
  refine or_congr_right ⟨?_, ?_⟩
  · rintro ⟨⟨state, rule⟩, hmem, hfits⟩
    rcases List.mem_iff_getElem?.mp hmem with ⟨index, hindex⟩
    rcases List.getElem?_zip_eq_some.mp hindex with ⟨hstate, hrule⟩
    exact ⟨index, rule, state, hrule, hstate, Bool.eq_false_iff.mpr hfits⟩
  · rintro ⟨index, rule, state, hrule, hstate, hfits⟩
    have hindex : (progress.zip set.rules)[index]? = some (state, rule) :=
      List.getElem?_zip_eq_some.mpr ⟨hstate, hrule⟩
    exact ⟨(state, rule), List.mem_of_getElem? hindex, Bool.eq_false_iff.mp hfits⟩

instance (set : RuleSet) (progress : List Progress) : Decidable (set.Misfits progress) :=
  decidable_of_iff (set.fits progress = false) fits_eq_false_iff

theorem orFresh_of_misfits (h : set.Misfits progress) : set.orFresh progress = set.fresh := by
  rw [orFresh, fits_eq_false_iff.mpr h]
  rfl

theorem orFresh_of_not_misfits (h : ¬ set.Misfits progress) :
    set.orFresh progress = progress := by
  rw [← fits_eq_false_iff, Bool.not_eq_false] at h
  rw [orFresh, if_pos h]

/-- Start over if a root does not fit, otherwise repair root by root. -/
def repaired (set : RuleSet) (progress : List Progress) : List Progress :=
  Rule.repairAll set.rules (set.orFresh progress)

theorem orFresh_repaired (set : RuleSet) (progress : List Progress) :
    set.orFresh (set.repaired progress) = set.repaired progress :=
  orFresh_of_allFitDeeply (Rule.allFitDeeply_repairAll set.rules _ (set.length_orFresh progress))

theorem candidates_repaired (set : RuleSet) (g : Grid Symbol) (progress : List Progress) :
    set.candidates g (set.repaired progress) =
      ((set.candidates g progress).1, set.repaired (set.candidates g progress).2) := by
  have hafter := set.orFresh_candidates g progress
  rw [candidates, orFresh_repaired, repaired, Rule.searchFirst_repair, repaired, hafter]
  rfl

/-- Repaired progress fits at every depth, and a search cannot tell it from the progress as
it was: both give the same answer, and a repair makes the progress after them the same.  A
rule set takes progress with a misfit among the roots for fresh progress, and any other for
progress that is repaired root by root. -/
theorem lazy_repair_eq_eager (rule : Rule) (set : RuleSet) (g : Grid Symbol)
    (state : Progress) (progress : List Progress) :
    (rule.repair state).fitsDeeply rule = true ∧
      rule.search g (rule.repair state) =
        ((rule.search g state).1, rule.repair (rule.search g state).2) ∧
      (set.Misfits progress -> set.candidates g progress = set.candidates g set.fresh) ∧
      (¬ set.Misfits progress ->
        set.candidates g (Rule.repairAll set.rules progress) =
          ((set.candidates g progress).1,
            Rule.repairAll set.rules (set.candidates g progress).2)) := by
  refine ⟨Rule.fitsDeeply_repair rule state, Rule.search_repair g rule state, ?_, ?_⟩
  · intro hmisfits
    rw [candidates, candidates, orFresh_of_misfits hmisfits, orFresh, if_pos set.fits_fresh]
  · intro hfits
    have h := set.candidates_repaired g progress
    rwa [repaired, orFresh_of_not_misfits hfits, repaired, orFresh_candidates] at h

/-!
## Progress that is repaired in part

The search repairs the first part of the sequential rule, which it needs, and leaves
the second part as it is.
-/

theorem lazy_repair_eq_eager_strayed :
    ¬ Engine.strayed.rules.Misfits Engine.strayed.progress ∧
      (Engine.strayed.rules.candidates (dot .black) Engine.strayed.progress).2 =
        [.sequential 0 [.limited 1 .leaf, .limited 7 .leaf]] ∧
      Engine.strayed.rules.candidates (dot .black)
          [.sequential 0 [.limited 0 .leaf, .group [.leaf]]] =
        ((Engine.strayed.rules.candidates (dot .black) Engine.strayed.progress).1,
          [.sequential 0 [.limited 1 .leaf, .group [.leaf]]]) ∧
      Engine.strayed.rules.Misfits [.sequential 0 []] ∧
      Engine.strayed.rules.candidates (dot .black) [.sequential 0 []] =
        Engine.strayed.rules.candidates (dot .black) Engine.strayed.rules.fresh := by
  have hfits : ¬ Engine.strayed.rules.Misfits Engine.strayed.progress := by decide
  have hmisfits : Engine.strayed.rules.Misfits [.sequential 0 []] := by decide
  rcases lazy_repair_eq_eager Engine.strayed.rules.asRule Engine.strayed.rules (dot .black)
    (.group Engine.strayed.progress) Engine.strayed.progress with ⟨_, _, _, hroots⟩
  rcases lazy_repair_eq_eager Engine.strayed.rules.asRule Engine.strayed.rules (dot .black)
    (.group []) [.sequential 0 []] with ⟨_, _, hstart, _⟩
  exact ⟨hfits, rfl, hroots hfits, hmisfits, hstart hmisfits⟩

theorem choose_repaired {source : Type} [Picker source] (set : RuleSet) (g : Grid Symbol)
    (progress : List Progress) (generator : source) :
    set.choose g (set.repaired progress) generator =
      ((set.choose g progress generator).1, set.repaired (set.choose g progress generator).2.1,
        (set.choose g progress generator).2.2) := by
  rw [choose, choose, candidates_repaired]
  rcases set.candidates g progress with ⟨answer, after⟩
  cases answer with
  | none => rfl
  | some found =>
      rcases hpick : Picker.pick generator found.2 with ⟨picked, rest⟩
      cases picked <;> simp only [hpick]

end RuleSet

namespace Engine

/-!
# Engines
-/

variable {source : Type}

def repaired (engine : Engine source) : Engine source :=
  { engine with progress := engine.rules.repaired engine.progress }

variable [Picker source]

theorem advance_repaired (engine : Engine source) (g : Grid Symbol) :
    engine.repaired.advance g = ((engine.advance g).1, (engine.advance g).2.repaired) := by
  have hchoose : engine.repaired.rules.choose g engine.repaired.progress
      engine.repaired.generator = _ :=
    engine.rules.choose_repaired g engine.progress engine.generator
  rw [advance, advance, hchoose]
  rcases engine.rules.choose g engine.progress engine.generator with ⟨mask, after, rest⟩
  cases mask <;> rfl

theorem advances_repaired (engine : Engine source) (grids : List (Grid Symbol)) :
    engine.repaired.advances grids =
      ((engine.advances grids).1, (engine.advances grids).2.repaired) := by
  induction grids generalizing engine with
  | nil => rfl
  | cons g grids ih => rw [advances, advances, advance_repaired, ih]

end Engine
end GridRules
