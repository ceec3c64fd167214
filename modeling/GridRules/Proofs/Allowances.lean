import Mathlib.Data.List.Infix
import GridRules.Proofs.Counters

/-!
# Rules that can only fire so often

A rule is capped when every leaf of it lies in a limited rule.  Whatever a search of it
offers then comes through some limited rule that no other limited rule contains, and this
rule is charged for it.  What these outermost rules have left is therefore a measure that
no search raises and every search with an offer lowers, on any grid.

## Main statements

An engine with capped rules takes no more steps than the outermost limited rules allow
together, on any sequence of grids.  A run that may take more of them stops at a fixed
point.
-/

namespace GridRules

namespace Rule

/-!
# Capped rules
-/

def isLimited : Rule -> Bool
  | limited _ _ => true
  | _ => false

/-- Every leaf has a limited rule above it. -/
def Capped (rule : Rule) : Prop :=
  forall leaf, leaf ∈ rule.leaves ->
    exists path, path <+: leaf.path ∧ (rule.part? path).any isLimited = true

instance (rule : Rule) : Decidable rule.Capped :=
  decidable_of_iff
    (forall leaf, leaf ∈ rule.leaves ->
      exists path, path ∈ leaf.path.inits ∧ (rule.part? path).any isLimited = true)
    (by simp only [List.mem_inits, Capped])

theorem not_capped_single (clause : Clause) : ¬ (single clause).Capped := by
  intro h
  rcases h _ (List.mem_singleton.mpr rfl) with ⟨path, hprefix, hlimited⟩
  rw [List.prefix_nil.mp hprefix] at hlimited
  cases hlimited

theorem under_mem_leavesFrom {rules : List Rule} {part : Rule} {index : Nat} {leaf : Leaf}
    (hpart : rules[index]? = some part) (hleaf : leaf ∈ part.leaves) (start : Nat) :
    leaf.under (start + index) ∈ leavesFrom start rules := by
  induction rules generalizing start index with
  | nil => cases hpart
  | cons rule rules ih =>
      rw [leavesFrom, List.mem_append]
      cases index with
      | zero =>
          cases hpart
          exact Or.inl (List.mem_map_of_mem hleaf)
      | succ index =>
          rw [Nat.add_comm index, ← Nat.add_assoc]
          exact Or.inr (ih hpart (start + 1))

theorem under_mem_leaves {rule part : Rule} {index : Nat} {leaf : Leaf}
    (hpart : rule.children[index]? = some part) (hleaf : leaf ∈ part.leaves) :
    leaf.under index ∈ rule.leaves := by
  have hmem := fun rules (hrules : rules[index]? = some part) =>
    under_mem_leavesFrom hrules hleaf 0
  rw [Nat.zero_add] at hmem
  cases rule with
  | single clause => cases hpart
  | composite rules => exact hmem rules hpart
  | limited times inner =>
      cases index with
      | zero =>
          cases hpart
          exact List.mem_map_of_mem hleaf
      | succ index => cases hpart
  | sequential rules => exact hmem rules hpart
  | markov rules => exact hmem rules hpart

theorem Capped.part {rule part : Rule} (h : rule.Capped) (hopen : rule.isLimited = false)
    (hpart : part ∈ rule.children) : part.Capped := by
  rcases List.mem_iff_getElem?.mp hpart with ⟨index, hindex⟩
  intro leaf hleaf
  rcases h _ (under_mem_leaves hindex hleaf) with ⟨path, hprefix, hlimited⟩
  cases path with
  | nil =>
      rw [part?, Option.any_some, hopen] at hlimited
      cases hlimited
  | cons first path =>
      rcases List.cons_prefix_cons.mp hprefix with ⟨rfl, hrest⟩
      rw [part?_cons, hindex] at hlimited
      exact ⟨path, hrest, hlimited⟩

/-!
# What the outermost limited rules allow
-/

mutual

/-- Bounds of the limited rules that no other limited rule contains, from left to right. -/
def outermost : Rule -> List UInt32
  | single _ => []
  | composite rules => outermostAll rules
  | limited times _ => [times]
  | sequential rules => outermostAll rules
  | markov rules => outermostAll rules

def outermostAll : List Rule -> List UInt32
  | [] => []
  | rule :: rules => rule.outermost ++ outermostAll rules

end

def total : List UInt32 -> Nat
  | [] => 0
  | times :: bounds => times.toNat + total bounds

theorem total_append (bounds others : List UInt32) :
    total (bounds ++ others) = total bounds + total others := by
  induction bounds with
  | nil => exact (Nat.zero_add _).symm
  | cons times bounds ih => rw [List.cons_append, total, total, ih, Nat.add_assoc]

mutual

/-- Firings that the outermost limited rules have left. -/
def remaining : Rule -> Progress -> Nat
  | single _, _ => 0
  | composite rules, progress => remainingAll rules (progress.asGroup rules)
  | limited times rule, progress => times.toNat - (progress.asLimited rule).1.toNat
  | sequential rules, progress => remainingAll rules (progress.asSequential rules).2
  | markov rules, progress => remainingAll rules (progress.asGroup rules)

def remainingAll : List Rule -> List Progress -> Nat
  | rule :: rules, progress :: others => remaining rule progress + remainingAll rules others
  | _, _ => 0

end

theorem remainingAll_nil (states : List Progress) : remainingAll [] states = 0 := by
  rw [remainingAll]
  simp

mutual

theorem remaining_fresh : (rule : Rule) -> remaining rule rule.fresh = total rule.outermost
  | single clause => by
      rw [remaining, outermost]
      rfl
  | composite rules => by
      rw [remaining, fresh, Progress.asGroup_group (freshAll_length rules).symm, outermost]
      exact remainingAll_fresh rules
  | limited times rule => by
      rw [remaining, outermost, total, total]
      rfl
  | sequential rules => by
      rw [remaining, fresh, Progress.asSequential_sequential 0 (freshAll_length rules).symm,
        outermost]
      exact remainingAll_fresh rules
  | markov rules => by
      rw [remaining, fresh, Progress.asGroup_group (freshAll_length rules).symm, outermost]
      exact remainingAll_fresh rules

theorem remainingAll_fresh :
    (rules : List Rule) -> remainingAll rules (freshAll rules) = total (outermostAll rules)
  | [] => by
      rw [freshAll, outermostAll, remainingAll_nil]
      rfl
  | rule :: rules => by
      rw [freshAll, remainingAll, outermostAll, total_append, remaining_fresh rule,
        remainingAll_fresh rules]

end

/-!
# What a search spends
-/

theorem toNat_sub_succ {times fired : UInt32} (h : ¬ times ≤ fired) :
    times.toNat - (fired + 1).toNat + 1 = times.toNat - fired.toNat := by
  have hlt := UInt32.not_le.mp h
  rw [toNat_succ_of_lt hlt]
  rw [UInt32.lt_iff_toNat_lt] at hlt
  omega

mutual

/-- A search with a capped rule spends a firing if it has something to offer, whatever
progress it starts from. -/
theorem remaining_search (g : Grid Symbol) :
    (rule : Rule) -> (progress : Progress) -> rule.Capped ->
      remaining rule (search g rule progress).2 + (search g rule progress).1.isSome.toNat ≤
        remaining rule progress
  | single clause, progress, h => absurd h (not_capped_single clause)
  | composite rules, progress, h => by
      have ih := remainingAll_searchAll g rules (progress.asGroup rules)
        fun part hpart => h.part rfl hpart
      have hlength : rules.length = (searchAll g rules (progress.asGroup rules)).2.length := by
        rw [length_searchAll, Progress.asGroup_length]
      rw [search, remaining, remaining, Progress.asGroup_group hlength]
      exact ih
  | limited times rule, progress, h => by
      rw [remaining, remaining]
      by_cases hspent : times ≤ (progress.asLimited rule).1
      · rw [search_limited_of_spent g hspent]
        exact Nat.le_refl _
      · cases hinner : (search g rule (progress.asLimited rule).2).1 with
        | none =>
            rw [search_limited_of_none hspent hinner]
            exact Nat.le_refl _
        | some found =>
            rw [search_limited_of_some hspent hinner]
            exact Nat.le_of_eq (toNat_sub_succ hspent)
  | sequential rules, progress, h => by
      have ih := remainingAll_searchFirst g (progress.asSequential rules).1 rules
        (progress.asSequential rules).2 fun part hpart => h.part rfl hpart
      have hlength : rules.length = (searchFirst g (progress.asSequential rules).1 rules
          (progress.asSequential rules).2).2.length := by
        rw [length_searchFirst, Progress.asSequential_length]
      rw [remaining, remaining]
      cases hfirst : (searchFirst g (progress.asSequential rules).1 rules
          (progress.asSequential rules).2).1 with
      | none =>
          rw [hfirst] at ih
          rw [search_sequential_of_none hfirst, Progress.asSequential_sequential _ hlength]
          exact ih
      | some answer =>
          rw [hfirst] at ih
          rw [search_sequential_of_some hfirst, Progress.asSequential_sequential _ hlength]
          exact ih
  | markov rules, progress, h => by
      have ih := remainingAll_searchFirst g 0 rules (progress.asGroup rules)
        fun part hpart => h.part rfl hpart
      have hlength :
          rules.length = (searchFirst g 0 rules (progress.asGroup rules)).2.length := by
        rw [length_searchFirst, Progress.asGroup_length]
      rw [search, remaining, remaining, Progress.asGroup_group hlength, Option.isSome_map]
      exact ih

theorem remainingAll_searchAll (g : Grid Symbol) :
    (rules : List Rule) -> (states : List Progress) ->
      (forall rule, rule ∈ rules -> rule.Capped) ->
        remainingAll rules (searchAll g rules states).2 +
            (Candidate.offered (searchAll g rules states).1).isSome.toNat ≤
          remainingAll rules states
  | [], states, _ => by
      rw [searchAll_nil]
      exact Nat.le_refl _
  | rule :: rules, [], _ => by
      rw [searchAll_states_nil]
      exact Nat.le_refl _
  | rule :: rules, state :: states, h => by
      rcases List.forall_mem_cons.mp h with ⟨hrule, hrules⟩
      have hfirst := remaining_search g rule state hrule
      have hrest := remainingAll_searchAll g rules states hrules
      rw [searchAll, remainingAll, remainingAll]
      cases hoffered : (search g rule state).1 with
      | none =>
          rw [hoffered] at hfirst
          rw [Option.getD_none, List.nil_append, Nat.add_assoc]
          exact Nat.add_le_add hfirst hrest
      | some found =>
          rw [hoffered] at hfirst
          have hone := Bool.toNat_le (Candidate.offered
            (found ++ (searchAll g rules states).1)).isSome
          simp only [Option.isSome_some, Bool.toNat_true, Option.getD_some] at hfirst ⊢
          omega

theorem remainingAll_searchFirst (g : Grid Symbol) :
    (start : Nat) -> (rules : List Rule) -> (states : List Progress) ->
      (forall rule, rule ∈ rules -> rule.Capped) ->
        remainingAll rules (searchFirst g start rules states).2 +
            (searchFirst g start rules states).1.isSome.toNat ≤
          remainingAll rules states
  | start, [], states, _ => by
      rw [searchFirst_nil]
      exact Nat.le_refl _
  | start, rule :: rules, [], _ => by
      rw [searchFirst_states_nil]
      exact Nat.le_refl _
  | start + 1, rule :: rules, state :: states, h => by
      have hrest := remainingAll_searchFirst g start rules states (List.forall_mem_cons.mp h).right
      rw [searchFirst_skip, remainingAll, remainingAll, Option.isSome_map, Nat.add_assoc]
      exact Nat.add_le_add_left hrest _
  | 0, rule :: rules, state :: states, h => by
      rcases List.forall_mem_cons.mp h with ⟨hrule, hrules⟩
      have hfirst := remaining_search g rule state hrule
      cases hoffered : (search g rule state).1 with
      | none =>
          have hrest := remainingAll_searchFirst g 0 rules states hrules
          rw [hoffered] at hfirst
          rw [searchFirst_of_none rules states hoffered, remainingAll, remainingAll,
            Option.isSome_map, Nat.add_assoc]
          exact Nat.add_le_add hfirst hrest
      | some found =>
          rw [hoffered] at hfirst
          rw [searchFirst_of_some rules states hoffered, remainingAll, remainingAll,
            Nat.add_right_comm]
          exact Nat.add_le_add_right hfirst _

end

end Rule

namespace RuleSet

def Capped (set : RuleSet) : Prop :=
  set.asRule.Capped

instance (set : RuleSet) : Decidable set.Capped :=
  inferInstanceAs (Decidable set.asRule.Capped)

def allowance (set : RuleSet) : Nat :=
  Rule.total set.asRule.outermost

end RuleSet

namespace Engine

/-!
# Steps of an engine with capped rules
-/

variable {source : Type} {engine : Engine source}

def remaining (engine : Engine source) : Nat :=
  Rule.remainingAll engine.rules.rules (engine.rules.orFresh engine.progress)

theorem remaining_of_fresh (h : engine.Fresh) : engine.remaining = engine.rules.allowance := by
  rw [remaining, h, RuleSet.orFresh, if_pos engine.rules.fits_fresh, RuleSet.fresh,
    ← Rule.freshAll_eq_map, Rule.remainingAll_fresh, RuleSet.allowance, RuleSet.asRule,
    Rule.outermost]

variable [Picker source]

theorem remaining_advance (h : engine.rules.Capped) (g : Grid Symbol) :
    (engine.advance g).2.remaining + (decide ((engine.advance g).1 ≠ .fixedPoint)).toNat ≤
      engine.remaining := by
  have hsearch := Rule.remainingAll_searchFirst g 0 engine.rules.rules
    (engine.rules.orFresh engine.progress) fun part hpart => Rule.Capped.part h rfl hpart
  rw [← RuleSet.candidates] at hsearch
  rw [remaining, rules_advance, progress_advance, RuleSet.orFresh_candidates]
  cases happlied : engine.applied? g with
  | none =>
      rw [advance_of_none happlied]
      exact Nat.le_trans (Nat.le_add_right _ _) hsearch
  | some proposal =>
      have hsome : (engine.rules.candidates g engine.progress).1.isSome = true := by
        rw [Option.isSome_iff_ne_none]
        intro hnone
        have hnil := applied?_eq_none_iff.mpr (RuleSet.proposals_eq_nil_iff.mpr hnone)
        cases happlied.symm.trans hnil
      rw [hsome] at hsearch
      rw [advance_of_some happlied]
      exact hsearch

theorem countP_advances_le (h : engine.rules.Capped) (grids : List (Grid Symbol)) :
    (engine.advances grids).1.countP (fun answer => answer ≠ .fixedPoint) ≤
      engine.remaining := by
  induction grids generalizing engine with
  | nil => exact Nat.zero_le _
  | cons g grids ih =>
      have hfirst := remaining_advance h g
      rw [← rules_advance engine g] at h
      have hrest := ih h
      rw [advances, List.countP_cons]
      cases hanswer : (engine.advance g).1 with
      | fixedPoint =>
          rw [hanswer] at hfirst
          exact Nat.le_trans hrest hfirst
      | advanced next =>
          rw [hanswer] at hfirst
          exact Nat.le_trans (Nat.succ_le_succ hrest) hfirst

theorem steps_add_remaining_run_le (h : engine.rules.Capped) (g : Grid Symbol) (bound : Nat) :
    (engine.run g bound).2.steps + (engine.run g bound).2.remaining ≤
      engine.steps + engine.remaining := by
  refine (run_induction
    (motive := fun later _ => later.rules.Capped ∧
      later.steps + later.remaining ≤ engine.steps + engine.remaining)
    ?_ ?_ ⟨h, Nat.le_refl _⟩ bound).right
  · intro later after shown next hlater hadvance
    have hspent := remaining_advance hlater.left shown
    rw [hadvance] at hspent
    refine ⟨rules_of_advance hadvance ▸ hlater.left, ?_⟩
    rw [steps_advance_of_advanced hadvance, Nat.add_assoc, Nat.add_comm 1]
    exact Nat.le_trans (Nat.add_le_add_left hspent _) hlater.right
  · intro later after shown hlater hadvance
    have hspent := remaining_advance hlater.left shown
    rw [hadvance] at hspent
    refine ⟨rules_of_advance hadvance ▸ hlater.left, ?_⟩
    rw [steps_advance_of_fixedPoint hadvance]
    exact Nat.le_trans (Nat.add_le_add_left hspent _) hlater.right

theorem steps_run_le_remaining (h : engine.rules.Capped) (g : Grid Symbol) (bound : Nat) :
    (engine.run g bound).1.steps ≤ engine.remaining := by
  have hspent := steps_add_remaining_run_le h g bound
  rw [steps_run] at hspent
  omega

/-- A new or reset engine with capped rules takes no more steps than their outermost
limited rules allow, whatever grids it is given and whatever its generator draws.  A run
with a larger bound stops at a fixed point. -/
theorem advances_le_allowance (hfresh : engine.Fresh) (hcapped : engine.rules.Capped) :
    (forall grids, (engine.advances grids).1.countP (fun answer => answer ≠ .fixedPoint) ≤
        engine.rules.allowance) ∧
      forall g bound, engine.rules.allowance < bound ->
        (engine.run g bound).1.fixedPoint = true := by
  rw [← remaining_of_fresh hfresh]
  refine ⟨countP_advances_le hcapped, ?_⟩
  intro g bound hbound
  exact fixedPoint_of_steps_lt (Nat.lt_of_le_of_lt (steps_run_le_remaining hcapped g bound) hbound)

/-!
## Pooled and nested limits

The limits of the alternatives are charged together, and the limit inside another one does
not count.  Black and white cells are repainted in turn, so only the limits end the run.
-/

def rationed : RuleSet where
  rules :=
    [ .sequential
        [ .composite
            [ .limited 2 (RuleSet.repaint .black .white),
              .limited 3 (.markov [.limited 9 (RuleSet.repaint .white .black)]) ] ] ]

theorem advances_le_allowance_rationed :
    rationed.Capped ∧ rationed.allowance = 5 ∧
      (forall grids,
        ((ofSeed rationed 5).advances grids).1.countP (fun answer => answer ≠ .fixedPoint) ≤ 5) ∧
      ((ofSeed rationed 5).run (RuleSet.pair .black .white) 6).1.fixedPoint = true := by
  have hcapped : rationed.Capped := by decide
  have hallowance : rationed.allowance = 5 := rfl
  rcases advances_le_allowance (fresh_ofGenerator rationed (Generator.ofSeed 5)) hcapped with
    ⟨hsteps, hrun⟩
  exact ⟨hcapped, hallowance, hsteps, hrun (RuleSet.pair .black .white) 6 (by decide)⟩

end Engine
end GridRules
