import GridRules.Proofs.Candidates

/-!
# What a search reaches

Rules that are tried in order are searched from a start position on, up to the
first one that has something to offer.  A rule that is reached keeps what its own
search leaves behind.  All other rules keep their progress.

## Main statements

The answer and the progress of rules that are tried in order are described
position by position.  Whatever progress a search starts from, the progress it
leaves behind fits the rule, and it fits at every depth if it did so before.
-/

namespace GridRules

namespace Progress

theorem asGroup_group {rules : List Rule} {states : List Progress}
    (h : rules.length = states.length) : (group states).asGroup rules = states := by
  rw [asGroup, if_pos h]

theorem asSequential_sequential {rules : List Rule} {states : List Progress} (cursor : Nat)
    (h : rules.length = states.length) :
    (sequential cursor states).asSequential rules = (cursor, states) := by
  rw [asSequential, if_pos h]

end Progress

namespace Rule

/-!
# One kind of rule at a time
-/

section Kinds

variable {g : Grid Symbol} {times : UInt32} {rule : Rule} {rules : List Rule}
  {progress : Progress} {found : List Candidate}

theorem search_limited_of_spent (g : Grid Symbol) (h : times ≤ (progress.asLimited rule).1) :
    search g (limited times rule) progress =
      (none, .limited (progress.asLimited rule).1 (progress.asLimited rule).2) := by
  rw [search, if_pos h]

theorem search_limited_of_none (hfree : ¬ times ≤ (progress.asLimited rule).1)
    (h : (search g rule (progress.asLimited rule).2).1 = none) :
    search g (limited times rule) progress =
      (none, .limited (progress.asLimited rule).1
        (search g rule (progress.asLimited rule).2).2) := by
  rw [search, if_neg hfree]
  split
  · rename_i heq
    rw [heq]
  · rename_i heq
    rw [heq] at h
    cases h

theorem search_limited_of_some (hfree : ¬ times ≤ (progress.asLimited rule).1)
    (h : (search g rule (progress.asLimited rule).2).1 = some found) :
    search g (limited times rule) progress =
      (some found, .limited ((progress.asLimited rule).1 + 1)
        (search g rule (progress.asLimited rule).2).2) := by
  rw [search, if_neg hfree]
  split
  · rename_i heq
    rw [heq] at h
    cases h
  · rename_i heq
    rw [heq] at h
    cases h
    rw [heq]

theorem search_sequential_of_none
    (h : (searchFirst g (progress.asSequential rules).1 rules
      (progress.asSequential rules).2).1 = none) :
    search g (sequential rules) progress =
      (none, .sequential rules.length
        (searchFirst g (progress.asSequential rules).1 rules
          (progress.asSequential rules).2).2) := by
  rw [search]
  split
  · rename_i heq
    rw [heq]
  · rename_i heq
    rw [heq] at h
    cases h

theorem search_sequential_of_some {index : Nat}
    (h : (searchFirst g (progress.asSequential rules).1 rules
      (progress.asSequential rules).2).1 = some (index, found)) :
    search g (sequential rules) progress =
      (some found, .sequential index
        (searchFirst g (progress.asSequential rules).1 rules
          (progress.asSequential rules).2).2) := by
  rw [search]
  split
  · rename_i heq
    rw [heq] at h
    cases h
  · rename_i heq
    rw [heq] at h
    cases h
    rw [heq]

theorem search_limited_limited (g : Grid Symbol) (times fired : UInt32) (rule : Rule)
    (inner : Progress) :
    search g (limited times rule) (.limited fired inner) =
      if times ≤ fired then (none, .limited fired inner)
      else
        ((search g rule inner).1,
          .limited (if (search g rule inner).1.isSome then fired + 1 else fired)
            (search g rule inner).2) := by
  by_cases hspent : times ≤ fired
  · rw [if_pos hspent]
    exact search_limited_of_spent g hspent
  · rw [if_neg hspent]
    cases h : (search g rule inner).1 with
    | none => exact search_limited_of_none hspent h
    | some found => exact search_limited_of_some hspent h

theorem search_sequential_sequential (g : Grid Symbol) {states : List Progress} (cursor : Nat)
    (hlength : rules.length = states.length) :
    search g (sequential rules) (.sequential cursor states) =
      ((searchFirst g cursor rules states).1.map Prod.snd,
        .sequential (((searchFirst g cursor rules states).1.map Prod.fst).getD rules.length)
          (searchFirst g cursor rules states).2) := by
  have hstate := Progress.asSequential_sequential cursor hlength
  cases h : (searchFirst g cursor rules states).1 with
  | none =>
      rw [search_sequential_of_none (by rw [hstate, h]), hstate]
      rfl
  | some answer =>
      rw [search_sequential_of_some (by rw [hstate, h]), hstate]
      rfl

end Kinds

/-!
# Rules and their progress side by side

A position at which there is both a rule and progress is the first one, or a later one among
those behind the first rule.
-/

@[elab_as_elim]
theorem position_induction {rule : Rule} {state : Progress}
    {motive : List Rule -> List Progress -> Nat -> Prop} {rules : List Rule}
    {states : List Progress} {index : Nat} (hrule : rules[index]? = some rule)
    (hstate : states[index]? = some state)
    (here : forall rules states, motive (rule :: rules) (state :: states) 0)
    (later : forall first rules before states index, motive rules states index ->
      motive (first :: rules) (before :: states) (index + 1)) :
    motive rules states index := by
  induction rules generalizing states index with
  | nil => cases hrule
  | cons first rules ih =>
      cases states with
      | nil => cases hstate
      | cons before states =>
          cases index with
          | zero =>
              cases hrule
              cases hstate
              exact here rules states
          | succ index => exact later first rules before states index (ih hrule hstate)

/-!
# Rules that are tried in order
-/

section InOrder

variable {g : Grid Symbol} {start index : Nat} {rule : Rule} {rules : List Rule}
  {state : Progress} {states : List Progress} {found : List Candidate}

theorem searchFirst_skip (g : Grid Symbol) (start : Nat) (rule : Rule) (rules : List Rule)
    (state : Progress) (states : List Progress) :
    searchFirst g (start + 1) (rule :: rules) (state :: states) =
      ((searchFirst g start rules states).1.map fun found => (found.1 + 1, found.2),
        state :: (searchFirst g start rules states).2) := by
  rw [searchFirst]

theorem searchFirst_of_none (rules : List Rule) (states : List Progress)
    (h : (search g rule state).1 = none) :
    searchFirst g 0 (rule :: rules) (state :: states) =
      ((searchFirst g 0 rules states).1.map fun found => (found.1 + 1, found.2),
        (search g rule state).2 :: (searchFirst g 0 rules states).2) := by
  rw [searchFirst]
  split
  · rename_i heq
    rw [heq] at h
    cases h
  · rename_i heq
    rw [heq]

theorem searchFirst_of_some (rules : List Rule) (states : List Progress)
    (h : (search g rule state).1 = some found) :
    searchFirst g 0 (rule :: rules) (state :: states) =
      (some (0, found), (search g rule state).2 :: states) := by
  rw [searchFirst]
  split
  · rename_i heq
    rw [heq] at h
    cases h
    rw [heq]
  · rename_i heq
    rw [heq] at h
    cases h

theorem searchFirst_nil (g : Grid Symbol) (start : Nat) (states : List Progress) :
    searchFirst g start [] states = (none, states) := by
  cases start <;> rw [searchFirst] <;> simp

theorem searchFirst_states_nil (g : Grid Symbol) (start : Nat) (rules : List Rule) :
    searchFirst g start rules [] = (none, []) := by
  cases start <;> rw [searchFirst] <;> simp

/-- The ways in which rules that are tried in order are gone through: there is
nothing left, the first rule is left out, it has nothing to offer, or it has
something to offer. -/
theorem searchFirst_induction (g : Grid Symbol)
    {motive : Nat -> List Rule -> List Progress -> Prop}
    (nil : forall start states, motive start [] states)
    (lacking : forall start rule rules, motive start (rule :: rules) [])
    (skip : forall start rule rules state states, motive start rules states ->
      motive (start + 1) (rule :: rules) (state :: states))
    (silent : forall rule rules state states, (search g rule state).1 = none ->
      motive 0 rules states -> motive 0 (rule :: rules) (state :: states))
    (offer : forall rule rules state states found, (search g rule state).1 = some found ->
      motive 0 (rule :: rules) (state :: states))
    (start : Nat) (rules : List Rule) (states : List Progress) : motive start rules states := by
  induction rules generalizing start states with
  | nil => exact nil start states
  | cons rule rules ih =>
      cases states with
      | nil => exact lacking start rule rules
      | cons state states =>
          cases start with
          | succ start => exact skip start rule rules state states (ih start states)
          | zero =>
              cases h : (search g rule state).1 with
              | none => exact silent rule rules state states h (ih 0 states)
              | some found => exact offer rule rules state states found h

theorem searchFirst_of_length_le (g : Grid Symbol) (states : List Progress)
    (h : rules.length ≤ start) : searchFirst g start rules states = (none, states) := by
  induction start, rules, states using searchFirst_induction g with
  | nil start states => exact searchFirst_nil g start states
  | lacking start rule rules => exact searchFirst_states_nil g start (rule :: rules)
  | skip start rule rules state states ih =>
      rw [searchFirst_skip, ih (Nat.le_of_succ_le_succ h), Option.map_none]
  | silent rule rules state states hsilent ih => cases h
  | offer rule rules state states found hoffer => cases h

@[simp] theorem length_searchFirst (g : Grid Symbol) (start : Nat) (rules : List Rule)
    (states : List Progress) : (searchFirst g start rules states).2.length = states.length := by
  induction start, rules, states using searchFirst_induction g with
  | nil start states => rw [searchFirst_nil]
  | lacking start rule rules => rw [searchFirst_states_nil]
  | skip start rule rules state states ih =>
      rw [searchFirst_skip, List.length_cons, ih, List.length_cons]
  | silent rule rules state states hsilent ih =>
      rw [searchFirst_of_none rules states hsilent, List.length_cons, ih, List.length_cons]
  | offer rule rules state states found hoffer =>
      rw [searchFirst_of_some rules states hoffer, List.length_cons, List.length_cons]

theorem searchAll_nil (g : Grid Symbol) (states : List Progress) :
    searchAll g [] states = ([], states) := by
  rw [searchAll]
  simp

theorem searchAll_states_nil (g : Grid Symbol) (rules : List Rule) :
    searchAll g rules [] = ([], []) := by
  rw [searchAll]
  simp

@[simp] theorem length_searchAll (g : Grid Symbol) (rules : List Rule) (states : List Progress) :
    (searchAll g rules states).2.length = states.length := by
  induction rules generalizing states with
  | nil => rw [searchAll_nil]
  | cons rule rules ih =>
      cases states with
      | nil => rw [searchAll_states_nil]
      | cons state states => rw [searchAll, List.length_cons, ih, List.length_cons]

/-- Whether a search that gave this answer came as far as a position. -/
def reaches (answer : Option (Nat × List Candidate)) (index : Nat) : Bool :=
  answer.all fun found => index ≤ found.1

theorem reaches_map_succ (answer : Option (Nat × List Candidate)) (index : Nat) :
    reaches (answer.map fun found => (found.1 + 1, found.2)) (index + 1) =
      reaches answer index := by
  cases answer <;> simp [reaches]

theorem reaches_zero (answer : Option (Nat × List Candidate)) : reaches answer 0 = true := by
  cases answer <;> simp [reaches]

/-- Progress at a position after a search.  It changes only where the search came
along, and there as in a search of the rule at this position alone. -/
theorem getElem?_searchFirst (hrule : rules[index]? = some rule)
    (hstate : states[index]? = some state) :
    (searchFirst g start rules states).2[index]? =
      some (if start ≤ index ∧ reaches (searchFirst g start rules states).1 index = true
        then (search g rule state).2 else state) := by
  induction start, rules, states using searchFirst_induction g generalizing index with
  | nil start states => cases hrule
  | lacking start first rules => cases hstate
  | skip start first rules before states ih =>
      rw [searchFirst_skip]
      cases index with
      | zero => simpa using hstate
      | succ index =>
          simp only [List.getElem?_cons_succ, reaches_map_succ, Nat.add_le_add_iff_right]
          exact ih hrule hstate
  | silent first rules before states hsilent ih =>
      rw [searchFirst_of_none rules states hsilent]
      cases index with
      | zero =>
          cases hrule
          cases hstate
          simp [reaches_zero]
      | succ index =>
          simpa only [List.getElem?_cons_succ, reaches_map_succ, Nat.zero_le] using
            ih hrule hstate
  | offer first rules before states found hoffer =>
      rw [searchFirst_of_some rules states hoffer]
      cases index with
      | zero =>
          cases hrule
          cases hstate
          simp [reaches_zero]
      | succ index => simpa [reaches] using hstate

/-- The ways in which an answer comes about: the first rule is left out or has nothing to
offer, and the answer comes from the others, or the first rule answers. -/
@[elab_as_elim]
theorem answer_induction {motive : Nat -> List Rule -> List Progress -> Nat -> Prop}
    (h : (searchFirst g start rules states).1 = some (index, found))
    (skip : forall start rule rules state states index, motive start rules states index ->
      motive (start + 1) (rule :: rules) (state :: states) (index + 1))
    (silent : forall rule rules state states index, (search g rule state).1 = none ->
      motive 0 rules states index -> motive 0 (rule :: rules) (state :: states) (index + 1))
    (offer : forall rule rules state states, (search g rule state).1 = some found ->
      motive 0 (rule :: rules) (state :: states) 0) :
    motive start rules states index := by
  induction start, rules, states using searchFirst_induction g generalizing index with
  | nil start states =>
      rw [searchFirst_nil] at h
      cases h
  | lacking start first rules =>
      rw [searchFirst_states_nil] at h
      cases h
  | skip start first rules before states ih =>
      rw [searchFirst_skip] at h
      rcases Option.map_eq_some_iff.mp h with ⟨⟨index', found'⟩, hrest, heq⟩
      cases heq
      exact skip start first rules before states index' (ih hrest)
  | silent first rules before states hsilent ih =>
      rw [searchFirst_of_none rules states hsilent] at h
      rcases Option.map_eq_some_iff.mp h with ⟨⟨index', found'⟩, hrest, heq⟩
      cases heq
      exact silent first rules before states index' hsilent (ih hrest)
  | offer first rules before states offered hoffer =>
      rw [searchFirst_of_some rules states hoffer] at h
      cases h
      exact offer first rules before states hoffer

theorem exists_of_searchFirst_eq_some
    (h : (searchFirst g start rules states).1 = some (index, found)) :
    start ≤ index ∧ exists rule state, rules[index]? = some rule ∧
      states[index]? = some state ∧ (search g rule state).1 = some found := by
  refine answer_induction h ?_ ?_ ?_
  · intro start first rules before states index ih
    exact ⟨Nat.succ_le_succ ih.left, ih.right⟩
  · intro first rules before states index _ ih
    exact ⟨Nat.zero_le _, ih.right⟩
  · intro first rules before states hoffer
    exact ⟨Nat.le_refl 0, first, before, rfl, rfl, hoffer⟩

theorem search_eq_none_of_passed (hrule : rules[index]? = some rule)
    (hstate : states[index]? = some state) (hstart : start ≤ index)
    (hreaches : reaches (searchFirst g start rules states).1 index = true)
    (hpassed : forall found, (searchFirst g start rules states).1 ≠ some (index, found)) :
    (search g rule state).1 = none := by
  induction start, rules, states using searchFirst_induction g generalizing index with
  | nil start states => cases hrule
  | lacking start first rules => cases hstate
  | skip start first rules before states ih =>
      cases index with
      | zero => cases hstart
      | succ index =>
          rw [searchFirst_skip] at hreaches hpassed
          rw [reaches_map_succ] at hreaches
          refine ih hrule hstate (Nat.le_of_succ_le_succ hstart) hreaches ?_
          intro found hfound
          exact hpassed found (by rw [hfound, Option.map_some])
  | silent first rules before states hsilent ih =>
      rw [searchFirst_of_none rules states hsilent] at hreaches hpassed
      cases index with
      | zero =>
          cases hrule
          cases hstate
          exact hsilent
      | succ index =>
          rw [reaches_map_succ] at hreaches
          refine ih hrule hstate (Nat.zero_le index) hreaches ?_
          intro found hfound
          exact hpassed found (by rw [hfound, Option.map_some])
  | offer first rules before states offered hoffer =>
      rw [searchFirst_of_some rules states hoffer] at hreaches hpassed
      cases index with
      | zero => exact absurd rfl (hpassed offered)
      | succ index => simp [reaches] at hreaches

end InOrder

/-!
# Shape of the progress left behind
-/

theorem fits_search (g : Grid Symbol) (rule : Rule) (progress : Progress) :
    (search g rule progress).2.fits rule = true := by
  cases rule with
  | single clause => rw [search]; rfl
  | composite rules =>
      rw [search]
      simp [Progress.fits, Progress.asGroup_length]
  | limited times rule =>
      by_cases hspent : times ≤ (progress.asLimited rule).1
      · rw [search_limited_of_spent g hspent]
        rfl
      · cases h : (search g rule (progress.asLimited rule).2).1 with
        | none =>
            rw [search_limited_of_none hspent h]
            rfl
        | some found =>
            rw [search_limited_of_some hspent h]
            rfl
  | sequential rules =>
      cases h : (searchFirst g (progress.asSequential rules).1 rules
          (progress.asSequential rules).2).1 with
      | none =>
          rw [search_sequential_of_none h]
          simp [Progress.fits, Progress.asSequential_length]
      | some answer =>
          rw [search_sequential_of_some h]
          simp [Progress.fits, Progress.asSequential_length]
  | markov rules =>
      rw [search]
      simp [Progress.fits, Progress.asGroup_length]

mutual

theorem fitsDeeply_search (g : Grid Symbol) :
    (rule : Rule) -> (progress : Progress) -> progress.fitsDeeply rule = true ->
      (search g rule progress).2.fitsDeeply rule = true
  | single clause, _, _ => by
      rw [search]
      rfl
  | composite rules, .group states, h => by
      rw [search, Progress.asGroup_group (length_eq_of_allFitDeeply h)]
      exact allFitDeeply_searchAll g rules states h
  | limited times rule, .limited fired inner, h => by
      rw [search_limited_limited]
      split
      · exact h
      · exact fitsDeeply_search g rule inner h
  | sequential rules, .sequential cursor states, h => by
      rw [search_sequential_sequential g cursor (length_eq_of_allFitDeeply h)]
      exact allFitDeeply_searchFirst g cursor rules states h
  | markov rules, .group states, h => by
      rw [search, Progress.asGroup_group (length_eq_of_allFitDeeply h)]
      exact allFitDeeply_searchFirst g 0 rules states h

theorem allFitDeeply_searchAll (g : Grid Symbol) :
    (rules : List Rule) -> (states : List Progress) ->
      Progress.allFitDeeply states rules = true ->
        Progress.allFitDeeply (searchAll g rules states).2 rules = true
  | [], [], _ => by
      rw [searchAll_nil]
      rfl
  | rule :: rules, state :: states, h => by
      rcases Bool.and_eq_true_iff.mp h with ⟨hstate, hstates⟩
      rw [searchAll]
      exact Bool.and_eq_true_iff.mpr
        ⟨fitsDeeply_search g rule state hstate, allFitDeeply_searchAll g rules states hstates⟩

theorem allFitDeeply_searchFirst (g : Grid Symbol) :
    (start : Nat) -> (rules : List Rule) -> (states : List Progress) ->
      Progress.allFitDeeply states rules = true ->
        Progress.allFitDeeply (searchFirst g start rules states).2 rules = true
  | start, [], [], _ => by
      rw [searchFirst_nil]
      rfl
  | start + 1, rule :: rules, state :: states, h => by
      rcases Bool.and_eq_true_iff.mp h with ⟨hstate, hstates⟩
      rw [searchFirst_skip]
      exact Bool.and_eq_true_iff.mpr
        ⟨hstate, allFitDeeply_searchFirst g start rules states hstates⟩
  | 0, rule :: rules, state :: states, h => by
      rcases Bool.and_eq_true_iff.mp h with ⟨hstate, hstates⟩
      have hfirst := fitsDeeply_search g rule state hstate
      cases hanswer : (search g rule state).1 with
      | none =>
          rw [searchFirst_of_none rules states hanswer]
          exact Bool.and_eq_true_iff.mpr
            ⟨hfirst, allFitDeeply_searchFirst g 0 rules states hstates⟩
      | some found =>
          rw [searchFirst_of_some rules states hanswer]
          exact Bool.and_eq_true_iff.mpr ⟨hfirst, hstates⟩

end

mutual

theorem fitsDeeply_fresh : (rule : Rule) -> rule.fresh.fitsDeeply rule = true
  | single _ => rfl
  | composite rules => allFitDeeply_freshAll rules
  | limited _ rule => fitsDeeply_fresh rule
  | sequential rules => allFitDeeply_freshAll rules
  | markov rules => allFitDeeply_freshAll rules

theorem allFitDeeply_freshAll :
    (rules : List Rule) -> Progress.allFitDeeply (freshAll rules) rules = true
  | [] => rfl
  | rule :: rules =>
      Bool.and_eq_true_iff.mpr ⟨fitsDeeply_fresh rule, allFitDeeply_freshAll rules⟩

end

end Rule
end GridRules
