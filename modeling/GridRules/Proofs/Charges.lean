import GridRules.Proofs.FixedPoints

/-!
# Charging limited rules

A limited rule is charged when its part has something to offer, whether or not a
step then applies it.  Where no rule above it pools its parts, nobody else has a
say in that search, so a charge always goes with an applied rewrite.

## Main statements

A search charges the limited rule at such a path exactly when all proposals come
from it, and otherwise none does.  Over any sequence of steps its count therefore
grows by the number of rewrites that came from it, and stays below its bound.
-/

namespace GridRules

/-!
# Parts at a path
-/

/-- Part of a rule at the end of a path. -/
def Rule.part? (rule : Rule) : List Nat -> Option Rule
  | [] => some rule
  | index :: path => rule.children[index]?.bind fun part => part.part? path

/-- Whether no rule above the end of a path pools what its parts offer. -/
def Rule.unpooled : Rule -> List Nat -> Bool
  | _, [] => true
  | composite _, _ :: _ => false
  | rule, index :: path => rule.children[index]?.all fun part => part.unpooled path

namespace Progress

def part? (progress : Progress) : List Nat -> Option Progress
  | [] => some progress
  | index :: path => progress.children[index]?.bind fun part => part.part? path

def firedAt? (progress : Progress) (path : List Nat) : Option UInt32 :=
  (progress.part? path).bind fired?

theorem firedAt?_cons (progress : Progress) (index : Nat) (path : List Nat) :
    progress.firedAt? (index :: path) =
      progress.children[index]?.bind fun part => part.firedAt? path := by
  rw [firedAt?, part?, Option.bind_assoc]
  rfl

end Progress

namespace Rule

theorem part?_cons (rule : Rule) (index : Nat) (path : List Nat) :
    rule.part? (index :: path) = rule.children[index]?.bind fun part => part.part? path := rfl

theorem children_fresh (rule : Rule) : rule.fresh.children = rule.children.map fresh := by
  cases rule <;> simp [fresh, children, Progress.children, freshAll_eq_map]

theorem part?_fresh {rule part : Rule} {path : List Nat} (h : rule.part? path = some part) :
    rule.fresh.part? path = some part.fresh := by
  induction path generalizing rule with
  | nil =>
      cases h
      rfl
  | cons index path ih =>
      rcases Option.bind_eq_some_iff.mp h with ⟨child, hchild, hpart⟩
      rw [Progress.part?, children_fresh, List.getElem?_map, hchild]
      exact ih hpart

theorem firedAt?_fresh {rule part : Rule} {path : List Nat} {times : UInt32}
    (h : rule.part? path = some (limited times part)) :
    rule.fresh.firedAt? path = some 0 := by
  rw [Progress.firedAt?, part?_fresh h]
  rfl

end Rule

/-!
# Charges
-/

/-- What a search means for the limited rule at a path.  It either makes all
proposals and is charged for them, which its bound allows, or it makes none. -/
inductive Charged (path : List Nat) (times before after : UInt32) (proposals : List Proposal) :
    Prop where
  | paid (hne : proposals ≠ [])
      (hall : forall proposal, proposal ∈ proposals -> path <+: proposal.leaf.path)
      (hlt : before < times) (hafter : after = before + 1)
  | free (hnone : forall proposal, proposal ∈ proposals -> ¬ path <+: proposal.leaf.path)
      (hafter : after = before)

namespace Charged

variable {path : List Nat} {times before after : UInt32} {proposals : List Proposal}

theorem under (index : Nat) (h : Charged path times before after proposals) :
    Charged (index :: path) times before after (proposals.map (Proposal.under index)) := by
  cases h with
  | paid hne hall hlt hafter =>
      refine paid (fun hnil => hne (List.map_eq_nil_iff.mp hnil)) ?_ hlt hafter
      intro proposal hproposal
      rcases List.mem_map.mp hproposal with ⟨inner, hinner, rfl⟩
      exact List.cons_prefix_cons.mpr ⟨rfl, hall inner hinner⟩
  | free hnone hafter =>
      refine free ?_ hafter
      intro proposal hproposal hprefix
      rcases List.mem_map.mp hproposal with ⟨inner, hinner, rfl⟩
      exact hnone inner hinner (List.cons_prefix_cons.mp hprefix).right

theorem nil (path : List Nat) (times before : UInt32) : Charged path times before before [] :=
  free (fun proposal hproposal => by cases hproposal) rfl

theorem elsewhere {index other : Nat} (h : other ≠ index) (path : List Nat)
    (times before : UInt32) (proposals : List Proposal) :
    Charged (index :: path) times before before (proposals.map (Proposal.under other)) := by
  refine free ?_ rfl
  intro proposal hproposal hprefix
  rcases List.mem_map.mp hproposal with ⟨inner, _, rfl⟩
  exact h (List.cons_prefix_cons.mp hprefix).left.symm

theorem le (h : Charged path times before after proposals) (hle : before ≤ times) :
    after ≤ times := by
  cases h with
  | paid _ _ hlt hafter =>
      rw [UInt32.lt_iff_toNat_lt] at hlt
      rw [hafter, UInt32.le_iff_toNat_le, UInt32.toNat_add]
      exact Nat.le_trans (Nat.mod_le _ _) hlt
  | free _ hafter => rwa [hafter]

end Charged

namespace Rule

variable {g : Grid Symbol}

theorem charged_searchFirst {start index : Nat} {rules : List Rule} {states : List Progress}
    {rule : Rule} {state : Progress} {path : List Nat} {times before : UInt32}
    (hrule : rules[index]? = some rule) (hstate : states[index]? = some state)
    (hbefore : state.firedAt? path = some before)
    (hcharged : exists after, (search g rule state).2.firedAt? path = some after ∧
      Charged path times before after (proposals g rule state)) :
    exists after,
      ((searchFirst g start rules states).2[index]?.bind fun part => part.firedAt? path) =
        some after ∧
      Charged (index :: path) times before after (proposalsFirst g start rules states) := by
  rcases hcharged with ⟨after, hafter, hcharge⟩
  rw [getElem?_searchFirst hrule hstate, Option.bind_some]
  by_cases hanswers : exists found, (searchFirst g start rules states).1 = some (index, found)
  · rcases hanswers with ⟨found, hanswer⟩
    rcases exists_proposalsFirst_eq hanswer with ⟨rule', state', hrule', hstate', hproposals⟩
    cases hrule.symm.trans hrule'
    cases hstate.symm.trans hstate'
    have hreached : start ≤ index ∧ reaches (searchFirst g start rules states).1 index = true := by
      refine ⟨(exists_of_searchFirst_eq_some hanswer).left, ?_⟩
      rw [hanswer]
      simp [reaches]
    rw [if_pos hreached, hproposals]
    exact ⟨after, hafter, hcharge.under index⟩
  · have helsewhere :
        Charged (index :: path) times before before (proposalsFirst g start rules states) := by
      cases hanswer : (searchFirst g start rules states).1 with
      | none =>
          rw [proposalsFirst_eq_nil_iff.mpr hanswer]
          exact Charged.nil _ times before
      | some answer =>
          rcases exists_proposalsFirst_eq hanswer with ⟨_, _, _, _, hproposals⟩
          rw [hproposals]
          refine Charged.elsewhere ?_ path times before _
          intro heq
          exact hanswers ⟨answer.2, by rw [hanswer, ← heq]⟩
    refine ⟨before, ?_, helsewhere⟩
    split
    · rename_i hreached
      -- The rule was searched, but another one answers, so it had nothing to offer.
      have hsilent := search_eq_none_of_passed hrule hstate hreached.left hreached.right
        fun found hfound => hanswers ⟨found, hfound⟩
      cases hcharge with
      | paid hne => exact absurd (proposals_eq_nil_iff.mpr hsilent) hne
      | free _ heq => rw [hafter, heq]
    · exact hbefore

/-!
# Charges at a path
-/

theorem fitsDeeply_of_allFitDeeply {rules : List Rule} {states : List Progress} {index : Nat}
    {rule : Rule} {state : Progress} (h : Progress.allFitDeeply states rules = true)
    (hrule : rules[index]? = some rule) (hstate : states[index]? = some state) :
    state.fitsDeeply rule = true := by
  revert h
  refine position_induction hrule hstate ?_ ?_
  · intro rules states h
    exact (Bool.and_eq_true_iff.mp h).left
  · intro first rules before states index ih h
    exact ih (Bool.and_eq_true_iff.mp h).right

theorem unpooled_of_getElem? {rule part : Rule} {index : Nat} {path : List Nat}
    (h : rule.unpooled (index :: path) = true) (hpart : rule.children[index]? = some part) :
    part.unpooled path = true := by
  cases rule with
  | composite rules => cases h
  | _ =>
      rw [unpooled, hpart] at h
      · exact h
      · simp

theorem children_search_limited (g : Grid Symbol) {times fired : UInt32} (rule : Rule)
    (state : Progress) (hfree : ¬ times ≤ fired) :
    (search g (limited times rule) (.limited fired state)).2.children =
      [(search g rule state).2] := by
  rw [search_limited_limited, if_neg hfree, Progress.children]

theorem children_search_sequential (g : Grid Symbol) {rules : List Rule} (cursor : Nat)
    {states : List Progress} (hlength : rules.length = states.length) :
    (search g (sequential rules) (.sequential cursor states)).2.children =
      (searchFirst g cursor rules states).2 := by
  rw [search_sequential_sequential g cursor hlength, Progress.children]

theorem charged_limited (g : Grid Symbol) (times before : UInt32) (part : Rule)
    (inner : Progress) :
    exists after,
      (search g (limited times part) (.limited before inner)).2.firedAt? [] = some after ∧
      Charged [] times before after (proposals g (limited times part) (.limited before inner)) := by
  have hanswer := search_limited_limited g times before part inner
  by_cases hspent : times ≤ before
  · rw [if_pos hspent] at hanswer
    rw [proposals_eq_nil_iff.mpr (by rw [hanswer]), hanswer]
    exact ⟨before, rfl, Charged.nil [] times before⟩
  · rw [if_neg hspent] at hanswer
    cases hinner : (search g part inner).1 with
    | none =>
        rw [hinner] at hanswer
        rw [proposals_eq_nil_iff.mpr (by rw [hanswer]), hanswer]
        exact ⟨before, rfl, Charged.nil [] times before⟩
    | some found =>
        rw [hinner] at hanswer
        refine ⟨before + 1, by rw [hanswer]; rfl, ?_⟩
        refine Charged.paid ?_ (fun _ _ => List.nil_prefix) (UInt32.not_le.mp hspent) rfl
        intro hnil
        rw [proposals_eq_nil_iff, hanswer] at hnil
        cases hnil

/-- A search charges the limited rule at a path that leads through no composite
rule exactly when all proposals come from there. -/
theorem charged_search (g : Grid Symbol) {rule part : Rule} {state : Progress}
    {path : List Nat} {times before : UInt32} (hfits : state.fitsDeeply rule = true)
    (hunpooled : rule.unpooled path = true)
    (hpart : rule.part? path = some (limited times part))
    (hbefore : state.firedAt? path = some before) :
    exists after, (search g rule state).2.firedAt? path = some after ∧
      Charged path times before after (proposals g rule state) := by
  induction path generalizing rule state with
  | nil =>
      cases hpart
      cases state with
      | limited fired inner =>
          cases hbefore
          exact charged_limited g times before part inner
      | _ => cases hfits
  | cons index path ih =>
      rcases Option.bind_eq_some_iff.mp hpart with ⟨child, hchild, hpart'⟩
      rw [Progress.firedAt?_cons] at hbefore
      rcases Option.bind_eq_some_iff.mp hbefore with ⟨childState, hchildState, hbefore'⟩
      have hunpooled' := unpooled_of_getElem? hunpooled hchild
      cases rule with
      | single clause => cases hchild
      | composite rules => cases hunpooled
      | limited cap inner =>
          cases state with
          | limited fired innerState =>
              cases index with
              | succ index => cases hchild
              | zero =>
                  cases hchild
                  cases hchildState
                  have hfits' : childState.fitsDeeply child = true := hfits
                  rw [proposals, Progress.asLimited]
                  by_cases hspent : cap ≤ fired
                  · rw [search_limited_of_spent g hspent, if_pos hspent]
                    exact ⟨before, hbefore', Charged.nil _ times before⟩
                  · rcases ih hfits' hunpooled' hpart' hbefore' with ⟨after, hafter, hcharged⟩
                    rw [Progress.firedAt?_cons, children_search_limited g _ _ hspent,
                      if_neg hspent]
                    exact ⟨after, hafter, hcharged.under 0⟩
          | _ => cases hfits
      | sequential rules =>
          cases state with
          | sequential cursor states =>
              have hlength := length_eq_of_allFitDeeply hfits
              have hchildFits := fitsDeeply_of_allFitDeeply hfits hchild hchildState
              rw [Progress.firedAt?_cons, children_search_sequential g cursor hlength, proposals,
                Progress.asSequential_sequential cursor hlength]
              exact charged_searchFirst hchild hchildState hbefore'
                (ih hchildFits hunpooled' hpart' hbefore')
          | _ => cases hfits
      | markov rules =>
          cases state with
          | group states =>
              have hchildFits := fitsDeeply_of_allFitDeeply hfits hchild hchildState
              rw [Progress.firedAt?_cons, search, proposals,
                Progress.asGroup_group (length_eq_of_allFitDeeply hfits)]
              exact charged_searchFirst hchild hchildState hbefore'
                (ih hchildFits hunpooled' hpart' hbefore')
          | _ => cases hfits

end Rule

theorem RuleSet.group_fresh (set : RuleSet) : Progress.group set.fresh = set.asRule.fresh := by
  rw [asRule, Rule.fresh, Rule.freshAll_eq_map]
  rfl

namespace Engine

/-!
# Counting applied rewrites
-/

variable {source : Type} {engine : Engine source}

def firedAt? (engine : Engine source) (path : List Nat) : Option UInt32 :=
  (Progress.group engine.progress).firedAt? path

def Fits (engine : Engine source) : Prop :=
  Progress.allFitDeeply engine.progress engine.rules.rules = true

/-- None of the rules has done anything yet, as after making or resetting an engine. -/
def Fresh (engine : Engine source) : Prop :=
  engine.progress = engine.rules.fresh

theorem fresh_ofGenerator (rules : RuleSet) (generator : source) :
    (ofGenerator rules generator).Fresh := rfl

theorem Fresh.withBound (h : engine.Fresh) (maxSteps : Nat) : (engine.withBound maxSteps).Fresh := h

theorem fresh_ofConfig (rules : RuleSet) (config : Config) : (ofConfig rules config).Fresh :=
  (fresh_ofGenerator rules (Generator.ofSeed config.seed)).withBound config.maxSteps

theorem fresh_reset (engine : Engine source) : engine.reset.Fresh := rfl

theorem Fresh.fits (h : engine.Fresh) : engine.Fits := by
  rw [Fits, h, RuleSet.fresh, ← Rule.freshAll_eq_map]
  exact Rule.allFitDeeply_freshAll engine.rules.rules

variable [Picker source] {g : Grid Symbol} {path : List Nat} {times before after : UInt32}
  {part : Rule}

/-- Whether the next step applies a rewrite that comes from the rule at a path. -/
def appliesFrom (engine : Engine source) (path : List Nat) (g : Grid Symbol) : Bool :=
  (engine.applied? g).any fun proposal => path.isPrefixOf proposal.leaf.path

/-- Number of steps on the given grids, one after the other, that apply a rewrite
from the rule at a path. -/
def firings (path : List Nat) : Engine source -> List (Grid Symbol) -> Nat
  | _, [] => 0
  | engine, g :: grids =>
      (engine.appliesFrom path g).toNat + firings path (engine.advance g).2 grids

theorem Fits.advance (h : engine.Fits) (g : Grid Symbol) : (engine.advance g).2.Fits := by
  rw [Fits, progress_advance, rules_advance, RuleSet.candidates,
    RuleSet.orFresh_of_allFitDeeply h]
  exact Rule.allFitDeeply_searchFirst g 0 engine.rules.rules engine.progress h

theorem charged_advance (hfits : engine.Fits)
    (hunpooled : engine.rules.asRule.unpooled path = true)
    (hpart : engine.rules.asRule.part? path = some (.limited times part))
    (hbefore : engine.firedAt? path = some before) (g : Grid Symbol) :
    exists after, (engine.advance g).2.firedAt? path = some after ∧
      Charged path times before after (engine.proposals g) := by
  have hsearch := engine.rules.search_asRule g engine.progress
  rw [RuleSet.orFresh_of_allFitDeeply hfits] at hsearch
  have hroot : (Progress.group engine.progress).fitsDeeply engine.rules.asRule = true := hfits
  rcases Rule.charged_search g hroot hunpooled hpart hbefore with ⟨after, hafter, hcharged⟩
  rw [hsearch] at hafter
  refine ⟨after, ?_, ?_⟩
  · rw [firedAt?, progress_advance]
    exact hafter
  · rwa [proposals, RuleSet.proposals, RuleSet.orFresh_of_allFitDeeply hfits]

theorem toNat_of_charged (h : Charged path times before after (engine.proposals g)) :
    after.toNat = before.toNat + (engine.appliesFrom path g).toNat := by
  cases h with
  | paid hne hall hlt hafter =>
      have happlies : engine.appliesFrom path g = true := by
        cases happlied : engine.applied? g with
        | none => exact absurd (applied?_eq_none_iff.mp happlied) hne
        | some proposal =>
            rw [appliesFrom, happlied, Option.any_some, List.isPrefixOf_iff_prefix]
            exact hall proposal (mem_proposals_of_applied? happlied)
      have hbound := times.toNat_lt
      rw [UInt32.lt_iff_toNat_lt] at hlt
      rw [happlies, hafter, UInt32.toNat_add]
      exact Nat.mod_eq_of_lt (Nat.lt_of_le_of_lt hlt hbound)
  | free hnone hafter =>
      have happlies : engine.appliesFrom path g = false := by
        cases happlied : engine.applied? g with
        | none => rw [appliesFrom, happlied, Option.any_none]
        | some proposal =>
            rw [appliesFrom, happlied, Option.any_some, ← Bool.not_eq_true,
              List.isPrefixOf_iff_prefix]
            exact hnone proposal (mem_proposals_of_applied? happlied)
      rw [happlies, hafter]
      rfl

/-- Over any sequence of steps the count grows by the number of rewrites that came
from the rule, and does not pass its bound. -/
theorem fired_advances (hfits : engine.Fits)
    (hunpooled : engine.rules.asRule.unpooled path = true)
    (hpart : engine.rules.asRule.part? path = some (.limited times part))
    (hbefore : engine.firedAt? path = some before) (hle : before ≤ times)
    (grids : List (Grid Symbol)) :
    exists after, (engine.advances grids).2.firedAt? path = some after ∧
      after.toNat = before.toNat + firings path engine grids ∧ after ≤ times := by
  induction grids generalizing engine before with
  | nil => exact ⟨before, hbefore, rfl, hle⟩
  | cons g grids ih =>
      rcases charged_advance hfits hunpooled hpart hbefore g with ⟨middle, hmiddle, hcharged⟩
      rw [← rules_advance engine g] at hunpooled hpart
      rcases ih (hfits.advance g) hunpooled hpart hmiddle (hcharged.le hle) with
        ⟨after, hafter, hcount, hbound⟩
      refine ⟨after, hafter, ?_, hbound⟩
      rw [hcount, toNat_of_charged hcharged, firings, Nat.add_assoc]

end Engine
end GridRules
