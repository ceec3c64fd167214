import GridRules.Proofs.Steps

/-!
# Fixed points

A search that finds nothing may still move cursors and replace progress that does
not fit.  It leaves behind progress from which the same search finds nothing again,
and which does not change any more.

## Main statements

The search of a rule, whatever its kind and whatever progress it starts from, is
settled once it has found nothing.  Rule sets and engines inherit this: an engine
that has reported a fixed point reports it for ever, and stays as it is.
-/

namespace GridRules

namespace Rule

/-!
# Searches that found nothing
-/

section Settled

variable {g : Grid Symbol} {rule : Rule} {rules : List Rule} {state : Progress}
  {states : List Progress}

theorem searchFirst_cons_eq_none_iff :
    (searchFirst g 0 (rule :: rules) (state :: states)).1 = none ↔
      (search g rule state).1 = none ∧ (searchFirst g 0 rules states).1 = none := by
  cases h : (search g rule state).1 with
  | none => rw [searchFirst_of_none rules states h, Option.map_eq_none_iff]; simp
  | some found => rw [searchFirst_of_some rules states h]; simp

theorem searchAll_cons_eq_nil_iff :
    (searchAll g (rule :: rules) (state :: states)).1 = [] ↔
      (search g rule state).1 = none ∧ (searchAll g rules states).1 = [] := by
  rw [searchAll, List.append_eq_nil_iff]
  cases h : (search g rule state).1 with
  | none => simp
  | some found =>
      have hfound : found ≠ [] := by
        intro hnil
        exact search_ne_some_nil g rule state (by rw [h, hnil])
      simp [hfound]

end Settled

mutual

/-- A search that found nothing finds nothing again, and changes nothing. -/
theorem search_settled (g : Grid Symbol) :
    (rule : Rule) -> (progress : Progress) -> (search g rule progress).1 = none ->
      search g rule (search g rule progress).2 = (none, (search g rule progress).2)
  | single clause, progress, h => by
      rw [search] at h
      rw [search, search]
      exact Prod.ext h rfl
  | composite rules, progress, h => by
      rw [search] at h
      have ih := searchAll_settled g rules (progress.asGroup rules)
        (offered_eq_none_iff.mp h)
      have hlength : rules.length = (searchAll g rules (progress.asGroup rules)).2.length := by
        rw [length_searchAll, Progress.asGroup_length]
      rw [search, search, Progress.asGroup_group hlength, ih]
      rfl
  | limited times rule, progress, h => by
      by_cases hspent : times ≤ (progress.asLimited rule).1
      · rw [search_limited_of_spent g hspent]
        exact search_limited_of_spent g hspent
      · cases hinner : (search g rule (progress.asLimited rule).2).1 with
        | none =>
            have ih := search_settled g rule (progress.asLimited rule).2 hinner
            have hagain : search g (limited times rule)
                (.limited (progress.asLimited rule).1
                  (search g rule (progress.asLimited rule).2).2) =
                (none, .limited (progress.asLimited rule).1
                  (search g rule (search g rule (progress.asLimited rule).2).2).2) :=
              search_limited_of_none hspent (congrArg Prod.fst ih)
            rw [search_limited_of_none hspent hinner, hagain, ih]
        | some found =>
            rw [search_limited_of_some hspent hinner] at h
            cases h
  | sequential rules, progress, h => by
      cases hfirst : (searchFirst g (progress.asSequential rules).1 rules
          (progress.asSequential rules).2).1 with
      | none =>
          have hlength : rules.length = (searchFirst g (progress.asSequential rules).1 rules
              (progress.asSequential rules).2).2.length := by
            rw [length_searchFirst, Progress.asSequential_length]
          -- The cursor is past the last part, so nothing is searched the second time.
          have hpast := searchFirst_of_length_le g (searchFirst g
            (progress.asSequential rules).1 rules (progress.asSequential rules).2).2
            (Nat.le_refl rules.length)
          rw [search_sequential_of_none hfirst, search_sequential_of_none] <;>
            rw [Progress.asSequential_sequential _ hlength, hpast]
      | some answer =>
          rw [search_sequential_of_some hfirst] at h
          cases h
  | markov rules, progress, h => by
      rw [search] at h
      have ih := searchFirst_settled g rules (progress.asGroup rules)
        (Option.map_eq_none_iff.mp h)
      have hlength :
          rules.length = (searchFirst g 0 rules (progress.asGroup rules)).2.length := by
        rw [length_searchFirst, Progress.asGroup_length]
      rw [search, search, Progress.asGroup_group hlength, ih]
      rfl

theorem searchAll_settled (g : Grid Symbol) :
    (rules : List Rule) -> (states : List Progress) -> (searchAll g rules states).1 = [] ->
      searchAll g rules (searchAll g rules states).2 = ([], (searchAll g rules states).2)
  | [], states, _ => by
      rw [searchAll_nil, searchAll_nil]
  | rule :: rules, [], _ => by
      rw [searchAll_states_nil, searchAll_states_nil]
  | rule :: rules, state :: states, h => by
      rcases searchAll_cons_eq_nil_iff.mp h with ⟨hfirst, hrest⟩
      rw [searchAll, searchAll, search_settled g rule state hfirst,
        searchAll_settled g rules states hrest]
      rfl

theorem searchFirst_settled (g : Grid Symbol) :
    (rules : List Rule) -> (states : List Progress) -> (searchFirst g 0 rules states).1 = none ->
      searchFirst g 0 rules (searchFirst g 0 rules states).2 =
        (none, (searchFirst g 0 rules states).2)
  | [], states, _ => by
      rw [searchFirst_nil, searchFirst_nil]
  | rule :: rules, [], _ => by
      rw [searchFirst_states_nil, searchFirst_states_nil]
  | rule :: rules, state :: states, h => by
      rcases searchFirst_cons_eq_none_iff.mp h with ⟨hfirst, hrest⟩
      have ih := search_settled g rule state hfirst
      rw [searchFirst_of_none rules states hfirst, searchFirst_of_none rules _ (by rw [ih]),
        ih, searchFirst_settled g rules states hrest]
      rfl

end

/-!
# Rules that are tried in order keep fitting progress
-/

theorem all_fit_searchFirst {g : Grid Symbol} {start : Nat} {rules : List Rule}
    {states : List Progress}
    (h : (states.zip rules).all (fun entry => entry.1.fits entry.2) = true) :
    ((searchFirst g start rules states).2.zip rules).all
      (fun entry => entry.1.fits entry.2) = true := by
  induction start, rules, states using searchFirst_induction g with
  | nil start states => rwa [searchFirst_nil]
  | lacking start rule rules => rwa [searchFirst_states_nil]
  | skip start rule rules state states ih =>
      rw [List.zip_cons_cons, List.all_cons, Bool.and_eq_true] at h
      rw [searchFirst_skip, List.zip_cons_cons, List.all_cons, Bool.and_eq_true]
      exact ⟨h.left, ih h.right⟩
  | silent rule rules state states hsilent ih =>
      rw [List.zip_cons_cons, List.all_cons, Bool.and_eq_true] at h
      rw [searchFirst_of_none rules states hsilent, List.zip_cons_cons, List.all_cons,
        Bool.and_eq_true]
      exact ⟨fits_search g rule state, ih h.right⟩
  | offer rule rules state states found hoffer =>
      rw [List.zip_cons_cons, List.all_cons, Bool.and_eq_true] at h
      rw [searchFirst_of_some rules states hoffer, List.zip_cons_cons, List.all_cons,
        Bool.and_eq_true]
      exact ⟨fits_search g rule state, h.right⟩

end Rule

namespace RuleSet

theorem fits_orFresh (set : RuleSet) (progress : List Progress) :
    set.fits (set.orFresh progress) = true := by
  unfold orFresh
  split
  · assumption
  · exact set.fits_fresh

theorem orFresh_candidates (set : RuleSet) (g : Grid Symbol) (progress : List Progress) :
    set.orFresh (set.candidates g progress).2 = (set.candidates g progress).2 := by
  have hfits := set.fits_orFresh progress
  rw [fits, Bool.and_eq_true] at hfits
  rw [orFresh, if_pos]
  rw [fits, Bool.and_eq_true]
  refine ⟨?_, Rule.all_fit_searchFirst hfits.right⟩
  rw [candidates, Rule.length_searchFirst]
  exact hfits.left

theorem candidates_settled {set : RuleSet} {g : Grid Symbol} {progress : List Progress}
    (h : (set.candidates g progress).1 = none) :
    set.candidates g (set.candidates g progress).2 =
      (none, (set.candidates g progress).2) := by
  rw [candidates, orFresh_candidates]
  exact Rule.searchFirst_settled g set.rules (set.orFresh progress) h

end RuleSet

namespace Engine

/-!
# Engines at a fixed point
-/

variable {source : Type} [Picker source]

theorem advance_settled {engine after : Engine source} {g : Grid Symbol}
    (h : engine.advance g = (.fixedPoint, after)) : after.advance g = (.fixedPoint, after) := by
  rcases advance_eq_fixedPoint_iff.mp h with ⟨hnil, rfl⟩
  have hsettled := RuleSet.candidates_settled (RuleSet.proposals_eq_nil_iff.mp hnil)
  refine advance_eq_fixedPoint_iff.mpr ⟨RuleSet.proposals_eq_nil_iff.mpr ?_, ?_⟩
  · rw [searched, hsettled]
  · rw [searched, searched, hsettled]

theorem advances_settled {engine : Engine source} {g : Grid Symbol}
    (h : engine.advance g = (.fixedPoint, engine)) (calls : Nat) :
    engine.advances (List.replicate calls g) = (List.replicate calls .fixedPoint, engine) := by
  induction calls with
  | zero => rfl
  | succ calls ih => rw [List.replicate_succ, advances, h, ih, List.replicate_succ]

/-- A reported fixed point is stable.  The report itself costs no random choice
and no step, and any number of further steps on the same grid report it again and
leave the whole engine as the first report left it. -/
theorem fixedPoint_stable {engine after : Engine source} {g : Grid Symbol}
    (h : engine.advance g = (.fixedPoint, after)) :
    after.generator = engine.generator ∧ after.steps = engine.steps ∧
      forall calls, after.advances (List.replicate calls g) =
        (List.replicate calls .fixedPoint, after) := by
  rcases advance_eq_fixedPoint_iff.mp h with ⟨_, hafter⟩
  refine ⟨?_, ?_, advances_settled (advance_settled h)⟩
  · rw [← hafter, searched]
  · rw [← hafter, searched]

/-!
## An engine with foreign progress

The parts of the sequential rule are given progress that does not fit them.  The
first report replaces it and moves the cursor past the end.
-/

def strayed : Engine Generator where
  rules := { rules := [.sequential
    [.limited 1 (RuleSet.repaint .black .white), .markov [RuleSet.repaint .white .red]]] }
  progress := [.sequential 0 [.leaf, .limited 7 .leaf]]
  generator := Generator.ofSeed 5
  steps := 3
  maxSteps := 9

def strayedAfter : Engine Generator :=
  { strayed with progress := [.sequential 2 [.limited 0 .leaf, .group [.leaf]]] }

theorem fixedPoint_stable_strayed :
    strayed.advance (RuleSet.dot .blue) = (.fixedPoint, strayedAfter) ∧
      forall calls, strayedAfter.advances (List.replicate calls (RuleSet.dot .blue)) =
        (List.replicate calls .fixedPoint, strayedAfter) := by
  have hreport : strayed.advance (RuleSet.dot .blue) = (.fixedPoint, strayedAfter) := rfl
  exact ⟨hreport, (fixedPoint_stable hreport).right.right⟩

end Engine
end GridRules
