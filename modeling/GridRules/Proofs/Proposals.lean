import GridRules.Proofs.Reached

/-!
# Where candidates come from

A proposal is a candidate together with the leaf that offers it.  The search
itself forgets the leaves.  Here they are kept, so that a rewrite can be traced
back to one clause of the rules, even where several clauses are alike.

## Main statements

Without their leaves, the proposals are the candidates that the search answers
with, in the same order.  The leaf of a proposal is a leaf of the rule, and its
clause offers the candidate.  The progress before the search may have any shape.
-/

namespace GridRules

structure Proposal where
  leaf : Leaf
  candidate : Candidate
deriving DecidableEq

namespace Proposal

def under (index : Nat) (proposal : Proposal) : Proposal :=
  { proposal with leaf := proposal.leaf.under index }

def next (proposal : Proposal) : Proposal :=
  { proposal with leaf := proposal.leaf.next }

@[simp] theorem map_candidate_under (index : Nat) (proposals : List Proposal) :
    (proposals.map (under index)).map candidate = proposals.map candidate := by
  rw [List.map_map]
  rfl

@[simp] theorem map_candidate_next (proposals : List Proposal) :
    (proposals.map next).map candidate = proposals.map candidate := by
  rw [List.map_map]
  rfl

end Proposal

namespace Rule

/-!
# Proposals of a rule
-/

mutual

def proposals (g : Grid Symbol) : Rule -> Progress -> List Proposal
  | single clause, _ =>
      (clause.candidates g).map fun candidate =>
        { leaf := { path := [], clause := clause }
          candidate := candidate }
  | composite rules, progress => proposalsAll g rules (progress.asGroup rules)
  | limited times rule, progress =>
      if times ≤ (progress.asLimited rule).1 then []
      else (proposals g rule (progress.asLimited rule).2).map (Proposal.under 0)
  | sequential rules, progress =>
      proposalsFirst g (progress.asSequential rules).1 rules (progress.asSequential rules).2
  | markov rules, progress => proposalsFirst g 0 rules (progress.asGroup rules)

def proposalsAll (g : Grid Symbol) : List Rule -> List Progress -> List Proposal
  | rule :: rules, progress :: others =>
      (proposals g rule progress).map (Proposal.under 0) ++
        (proposalsAll g rules others).map Proposal.next
  | _, _ => []

def proposalsFirst (g : Grid Symbol) : Nat -> List Rule -> List Progress -> List Proposal
  | skip + 1, _ :: rules, _ :: others => (proposalsFirst g skip rules others).map Proposal.next
  | 0, rule :: rules, progress :: others =>
      match (search g rule progress).1 with
      | some _ => (proposals g rule progress).map (Proposal.under 0)
      | none => (proposalsFirst g 0 rules others).map Proposal.next
  | _, _, _ => []

end

section Equations

variable {g : Grid Symbol} {rule : Rule} {state : Progress}

theorem proposalsFirst_skip (g : Grid Symbol) (start : Nat) (rule : Rule) (rules : List Rule)
    (state : Progress) (states : List Progress) :
    proposalsFirst g (start + 1) (rule :: rules) (state :: states) =
      (proposalsFirst g start rules states).map Proposal.next := by
  rw [proposalsFirst]

theorem proposalsFirst_of_none (rules : List Rule) (states : List Progress)
    (h : (search g rule state).1 = none) :
    proposalsFirst g 0 (rule :: rules) (state :: states) =
      (proposalsFirst g 0 rules states).map Proposal.next := by
  rw [proposalsFirst, h]

theorem proposalsFirst_of_some (rules : List Rule) (states : List Progress)
    {found : List Candidate} (h : (search g rule state).1 = some found) :
    proposalsFirst g 0 (rule :: rules) (state :: states) =
      (proposals g rule state).map (Proposal.under 0) := by
  rw [proposalsFirst, h]

theorem proposalsFirst_nil (g : Grid Symbol) (start : Nat) (states : List Progress) :
    proposalsFirst g start [] states = [] := by
  cases start <;> rw [proposalsFirst] <;> simp

theorem proposalsFirst_states_nil (g : Grid Symbol) (start : Nat) (rules : List Rule) :
    proposalsFirst g start rules [] = [] := by
  cases start <;> rw [proposalsFirst] <;> simp

theorem proposalsAll_nil (g : Grid Symbol) (states : List Progress) :
    proposalsAll g [] states = [] := by
  rw [proposalsAll]
  simp

theorem proposalsAll_states_nil (g : Grid Symbol) (rules : List Rule) :
    proposalsAll g rules [] = [] := by
  rw [proposalsAll]
  simp

end Equations

/-!
# Forgetting the leaves
-/

mutual

theorem map_candidate_proposals (g : Grid Symbol) :
    (rule : Rule) -> (progress : Progress) ->
      (proposals g rule progress).map Proposal.candidate = (search g rule progress).1.getD []
  | single clause, _ => by
      rw [proposals, search, getD_offered, List.map_map]
      exact List.map_id _
  | composite rules, progress => by
      rw [proposals, search, getD_offered]
      exact map_candidate_proposalsAll g rules (progress.asGroup rules)
  | limited times rule, progress => by
      have ih := map_candidate_proposals g rule (progress.asLimited rule).2
      by_cases hspent : times ≤ (progress.asLimited rule).1
      · rw [proposals, if_pos hspent, search_limited_of_spent g hspent]
        rfl
      · rw [proposals, if_neg hspent, Proposal.map_candidate_under, ih]
        cases hinner : (search g rule (progress.asLimited rule).2).1 with
        | none => rw [search_limited_of_none hspent hinner]
        | some found => rw [search_limited_of_some hspent hinner]
  | sequential rules, progress => by
      have ih := map_candidate_proposalsFirst g (progress.asSequential rules).1 rules
        (progress.asSequential rules).2
      rw [proposals, ih]
      cases hfirst : (searchFirst g (progress.asSequential rules).1 rules
          (progress.asSequential rules).2).1 with
      | none =>
          rw [search_sequential_of_none hfirst]
          rfl
      | some answer =>
          rw [search_sequential_of_some hfirst]
          rfl
  | markov rules, progress => by
      rw [proposals, search]
      exact map_candidate_proposalsFirst g 0 rules (progress.asGroup rules)

theorem map_candidate_proposalsAll (g : Grid Symbol) :
    (rules : List Rule) -> (states : List Progress) ->
      (proposalsAll g rules states).map Proposal.candidate = (searchAll g rules states).1
  | [], states => by
      rw [proposalsAll_nil, searchAll_nil]
      rfl
  | rule :: rules, [] => by
      rw [proposalsAll_states_nil, searchAll_states_nil]
      rfl
  | rule :: rules, state :: states => by
      rw [proposalsAll, searchAll, List.map_append, Proposal.map_candidate_under,
        Proposal.map_candidate_next, map_candidate_proposals g rule state,
        map_candidate_proposalsAll g rules states]

theorem map_candidate_proposalsFirst (g : Grid Symbol) :
    (start : Nat) -> (rules : List Rule) -> (states : List Progress) ->
      (proposalsFirst g start rules states).map Proposal.candidate =
        ((searchFirst g start rules states).1.map Prod.snd).getD []
  | start, [], states => by
      rw [proposalsFirst_nil, searchFirst_nil]
      rfl
  | start, rule :: rules, [] => by
      rw [proposalsFirst_states_nil, searchFirst_states_nil]
      rfl
  | start + 1, rule :: rules, state :: states => by
      rw [proposalsFirst_skip, searchFirst_skip, Proposal.map_candidate_next,
        map_candidate_proposalsFirst g start rules states, Option.map_map]
      rfl
  | 0, rule :: rules, state :: states => by
      cases h : (search g rule state).1 with
      | none =>
          rw [proposalsFirst_of_none rules states h, searchFirst_of_none rules states h,
            Proposal.map_candidate_next, map_candidate_proposalsFirst g 0 rules states,
            Option.map_map]
          rfl
      | some found =>
          rw [proposalsFirst_of_some rules states h, searchFirst_of_some rules states h,
            Proposal.map_candidate_under, map_candidate_proposals g rule state, h]
          rfl

end

theorem proposals_eq_nil_iff {g : Grid Symbol} {rule : Rule} {progress : Progress} :
    proposals g rule progress = [] ↔ (search g rule progress).1 = none := by
  rw [← List.map_eq_nil_iff (f := Proposal.candidate), map_candidate_proposals]
  cases h : (search g rule progress).1 with
  | none => simp
  | some found =>
      have hne := search_ne_some_nil g rule progress
      rw [h] at hne
      simpa using hne

/-!
# Leaves of proposals
-/

/-- Every proposal comes from one of the leaves, whose clause offers the
candidate. -/
def ProposedBy (g : Grid Symbol) (leaves : List Leaf) (proposals : List Proposal) : Prop :=
  forall proposal, proposal ∈ proposals ->
    proposal.leaf ∈ leaves ∧ proposal.candidate ∈ proposal.leaf.clause.candidates g

section ProposedBy

variable {g : Grid Symbol} {leaves others : List Leaf} {first second : List Proposal}

theorem proposedBy_nil : ProposedBy g leaves [] := by
  intro proposal hproposal
  cases hproposal

theorem ProposedBy.append (hfirst : ProposedBy g leaves first)
    (hsecond : ProposedBy g leaves second) : ProposedBy g leaves (first ++ second) := by
  intro proposal hproposal
  rcases List.mem_append.mp hproposal with hmem | hmem
  · exact hfirst proposal hmem
  · exact hsecond proposal hmem

theorem ProposedBy.under (index : Nat) (h : ProposedBy g leaves first) :
    ProposedBy g (leaves.map (Leaf.under index)) (first.map (Proposal.under index)) := by
  intro proposal hproposal
  rcases List.mem_map.mp hproposal with ⟨inner, hinner, rfl⟩
  rcases h inner hinner with ⟨hleaf, hcandidate⟩
  exact ⟨List.mem_map_of_mem hleaf, hcandidate⟩

theorem ProposedBy.next (h : ProposedBy g leaves first) :
    ProposedBy g (leaves.map Leaf.next) (first.map Proposal.next) := by
  intro proposal hproposal
  rcases List.mem_map.mp hproposal with ⟨inner, hinner, rfl⟩
  rcases h inner hinner with ⟨hleaf, hcandidate⟩
  exact ⟨List.mem_map_of_mem hleaf, hcandidate⟩

theorem ProposedBy.left (h : ProposedBy g leaves first) :
    ProposedBy g (leaves ++ others) first :=
  fun proposal hproposal => (h proposal hproposal).imp_left (List.mem_append_left others)

theorem ProposedBy.right (h : ProposedBy g others first) :
    ProposedBy g (leaves ++ others) first :=
  fun proposal hproposal => (h proposal hproposal).imp_left (List.mem_append_right leaves)

end ProposedBy

mutual

theorem proposals_proposedBy (g : Grid Symbol) :
    (rule : Rule) -> (progress : Progress) ->
      ProposedBy g rule.leaves (proposals g rule progress)
  | single clause, _ => by
      intro proposal hproposal
      rw [proposals] at hproposal
      rcases List.mem_map.mp hproposal with ⟨candidate, hcandidate, rfl⟩
      exact ⟨List.mem_singleton.mpr rfl, hcandidate⟩
  | composite rules, progress => by
      rw [proposals]
      exact proposalsAll_proposedBy g rules (progress.asGroup rules)
  | limited times rule, progress => by
      rw [proposals]
      split
      · exact proposedBy_nil
      · exact (proposals_proposedBy g rule (progress.asLimited rule).2).under 0
  | sequential rules, progress => by
      rw [proposals]
      exact proposalsFirst_proposedBy g (progress.asSequential rules).1 rules
        (progress.asSequential rules).2
  | markov rules, progress => by
      rw [proposals]
      exact proposalsFirst_proposedBy g 0 rules (progress.asGroup rules)

theorem proposalsAll_proposedBy (g : Grid Symbol) :
    (rules : List Rule) -> (states : List Progress) ->
      ProposedBy g (leavesFrom 0 rules) (proposalsAll g rules states)
  | [], states => by
      rw [proposalsAll_nil]
      exact proposedBy_nil
  | rule :: rules, [] => by
      rw [proposalsAll_states_nil]
      exact proposedBy_nil
  | rule :: rules, state :: states => by
      rw [proposalsAll, leavesFrom_zero_cons]
      exact ((proposals_proposedBy g rule state).under 0).left.append
        (proposalsAll_proposedBy g rules states).next.right

theorem proposalsFirst_proposedBy (g : Grid Symbol) :
    (start : Nat) -> (rules : List Rule) -> (states : List Progress) ->
      ProposedBy g (leavesFrom 0 rules) (proposalsFirst g start rules states)
  | start, [], states => by
      rw [proposalsFirst_nil]
      exact proposedBy_nil
  | start, rule :: rules, [] => by
      rw [proposalsFirst_states_nil]
      exact proposedBy_nil
  | start + 1, rule :: rules, state :: states => by
      rw [proposalsFirst_skip, leavesFrom_zero_cons]
      exact (proposalsFirst_proposedBy g start rules states).next.right
  | 0, rule :: rules, state :: states => by
      rw [leavesFrom_zero_cons]
      cases h : (search g rule state).1 with
      | none =>
          rw [proposalsFirst_of_none rules states h]
          exact (proposalsFirst_proposedBy g 0 rules states).next.right
      | some found =>
          rw [proposalsFirst_of_some rules states h]
          exact ((proposals_proposedBy g rule state).under 0).left

end

theorem exists_proposalsFirst_eq {g : Grid Symbol} {start index : Nat} {rules : List Rule}
    {states : List Progress} {found : List Candidate}
    (h : (searchFirst g start rules states).1 = some (index, found)) :
    exists rule state, rules[index]? = some rule ∧ states[index]? = some state ∧
      proposalsFirst g start rules states =
        (proposals g rule state).map (Proposal.under index) := by
  refine answer_induction h ?_ ?_ ?_
  · intro start first rules before states index ih
    rcases ih with ⟨rule, state, hrule, hstate, hproposals⟩
    refine ⟨rule, state, hrule, hstate, ?_⟩
    rw [proposalsFirst_skip, hproposals, List.map_map]
    rfl
  · intro first rules before states index hsilent ih
    rcases ih with ⟨rule, state, hrule, hstate, hproposals⟩
    refine ⟨rule, state, hrule, hstate, ?_⟩
    rw [proposalsFirst_of_none rules states hsilent, hproposals, List.map_map]
    rfl
  · intro first rules before states hoffer
    exact ⟨first, before, rfl, rfl, proposalsFirst_of_some rules states hoffer⟩

theorem proposalsFirst_eq_nil_iff {g : Grid Symbol} {start : Nat} {rules : List Rule}
    {states : List Progress} :
    proposalsFirst g start rules states = [] ↔ (searchFirst g start rules states).1 = none := by
  rw [← List.map_eq_nil_iff (f := Proposal.candidate), map_candidate_proposalsFirst]
  cases h : (searchFirst g start rules states).1 with
  | none => simp
  | some answer =>
      have hne := searchFirst_ne_some_nil g start rules states answer.1
      rw [h] at hne
      constructor
      · intro hnil
        exact absurd (by rw [← hnil]; rfl) hne
      · intro hnone
        cases hnone

end Rule
end GridRules
