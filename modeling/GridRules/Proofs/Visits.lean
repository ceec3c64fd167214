import Mathlib.Data.List.Infix
import GridRules.Proofs.Counters

/-!
# Which parts a search visits

The search of a rule goes on to search some of its parts and leaves others out.  Here
the search keeps a record of its visits: of itself and of every search of a part that
it makes, each with the answer of that search.

## Main statements

Without the record, the search is the plain one.  A part is either visited or left
out.  The search of a part that is visited leaves behind what it would on its own, and
whatever it offers is handed on without a gap.  A part that is left out keeps its
progress.
-/

namespace GridRules

/-- One search in the course of another: the path of the rule that is searched, and what
its search answers. -/
structure Visit where
  path : List Nat
  answer : Option (List Candidate)
deriving DecidableEq

namespace Visit

def top (answer : Option (List Candidate)) : Visit where
  path := []
  answer := answer

def under (index : Nat) (visit : Visit) : Visit :=
  { visit with path := index :: visit.path }

def next (visit : Visit) : Visit :=
  { visit with
    path :=
      match visit.path with
      | [] => []
      | index :: path => (index + 1) :: path }

section

variable {index other : Nat} {path : List Nat} {answer : Option (List Candidate)}
  {visits : List Visit}

theorem top_not_mem_map_under : top answer ∉ visits.map (under index) := by
  intro h
  rcases List.mem_map.mp h with ⟨visit, _, heq⟩
  cases congrArg Visit.path heq

theorem mem_map_under_iff :
    { path := index :: path, answer := answer : Visit } ∈ visits.map (under other) ↔
      index = other ∧ { path := path, answer := answer : Visit } ∈ visits := by
  rw [List.mem_map]
  constructor
  · rintro ⟨visit, hvisit, heq⟩
    cases heq
    exact ⟨rfl, hvisit⟩
  · rintro ⟨rfl, hvisit⟩
    exact ⟨_, hvisit, rfl⟩

theorem top_mem_map_next_iff : top answer ∈ visits.map next ↔ top answer ∈ visits := by
  rw [List.mem_map]
  constructor
  · rintro ⟨⟨path, answer'⟩, hvisit, heq⟩
    cases path with
    | nil =>
        cases heq
        exact hvisit
    | cons index path => cases congrArg Visit.path heq
  · intro h
    exact ⟨_, h, rfl⟩

theorem zero_not_mem_map_next :
    { path := 0 :: path, answer := answer : Visit } ∉ visits.map next := by
  intro h
  rcases List.mem_map.mp h with ⟨⟨path', answer'⟩, _, heq⟩
  cases path' with
  | nil => cases congrArg Visit.path heq
  | cons index path' => cases congrArg Visit.path heq

theorem succ_mem_map_next_iff :
    { path := (index + 1) :: path, answer := answer : Visit } ∈ visits.map next ↔
      { path := index :: path, answer := answer : Visit } ∈ visits := by
  rw [List.mem_map]
  constructor
  · rintro ⟨⟨path', answer'⟩, hvisit, heq⟩
    cases path' with
    | nil => cases congrArg Visit.path heq
    | cons index' path' =>
        cases heq
        exact hvisit
  · intro h
    exact ⟨_, h, rfl⟩

end

end Visit

namespace Rule

/-!
# Searching with a record
-/

def visiting (result : Option (List Candidate) × Progress) (parts : List Visit) :
    (Option (List Candidate) × Progress) × List Visit :=
  (result, Visit.top result.1 :: parts)

mutual

/-- The search of a rule, with a record of the searches that it is made of. -/
def searchVisiting (g : Grid Symbol) :
    Rule -> Progress -> (Option (List Candidate) × Progress) × List Visit
  | single clause, _ => visiting (Candidate.offered (clause.candidates g), .leaf) []
  | composite rules, progress =>
      let result := searchAllVisiting g rules (progress.asGroup rules)
      visiting (Candidate.offered result.1.1, .group result.1.2) result.2
  | limited times rule, progress =>
      let state := progress.asLimited rule
      if times ≤ state.1 then visiting (none, .limited state.1 state.2) []
      else
        match searchVisiting g rule state.2 with
        | ((none, inner), visits) =>
            visiting (none, .limited state.1 inner) (visits.map (Visit.under 0))
        | ((some found, inner), visits) =>
            visiting (some found, .limited (state.1 + 1) inner) (visits.map (Visit.under 0))
  | sequential rules, progress =>
      let state := progress.asSequential rules
      match searchFirstVisiting g state.1 rules state.2 with
      | ((none, children), visits) => visiting (none, .sequential rules.length children) visits
      | ((some (index, found), children), visits) =>
          visiting (some found, .sequential index children) visits
  | markov rules, progress =>
      let result := searchFirstVisiting g 0 rules (progress.asGroup rules)
      visiting (result.1.1.map Prod.snd, .group result.1.2) result.2

def searchAllVisiting (g : Grid Symbol) :
    List Rule -> List Progress -> (List Candidate × List Progress) × List Visit
  | rule :: rules, progress :: others =>
      let first := searchVisiting g rule progress
      let rest := searchAllVisiting g rules others
      ((first.1.1.getD [] ++ rest.1.1, first.1.2 :: rest.1.2),
        first.2.map (Visit.under 0) ++ rest.2.map Visit.next)
  | _, others => (([], others), [])

def searchFirstVisiting (g : Grid Symbol) :
    Nat -> List Rule -> List Progress ->
      (Option (Nat × List Candidate) × List Progress) × List Visit
  | skip + 1, _ :: rules, progress :: others =>
      let rest := searchFirstVisiting g skip rules others
      ((rest.1.1.map fun found => (found.1 + 1, found.2), progress :: rest.1.2),
        rest.2.map Visit.next)
  | 0, rule :: rules, progress :: others =>
      match searchVisiting g rule progress with
      | ((some found, after), visits) =>
          ((some (0, found), after :: others), visits.map (Visit.under 0))
      | ((none, after), visits) =>
          let rest := searchFirstVisiting g 0 rules others
          ((rest.1.1.map fun found => (found.1 + 1, found.2), after :: rest.1.2),
            visits.map (Visit.under 0) ++ rest.2.map Visit.next)
  | _, _, others => ((none, others), [])

end

mutual

theorem searchVisiting_fst (g : Grid Symbol) :
    (rule : Rule) -> (progress : Progress) ->
      (searchVisiting g rule progress).1 = search g rule progress
  | single clause, progress => by
      rw [searchVisiting, search]
      rfl
  | composite rules, progress => by
      rw [searchVisiting, search, visiting, searchAllVisiting_fst g rules]
  | limited times rule, progress => by
      rw [searchVisiting, search, ← searchVisiting_fst g rule]
      split
      · rfl
      · rcases searchVisiting g rule (progress.asLimited rule).2 with
          ⟨⟨_ | found, inner⟩, visits⟩ <;> rfl
  | sequential rules, progress => by
      rw [searchVisiting, search, ← searchFirstVisiting_fst g _ rules]
      rcases searchFirstVisiting g (progress.asSequential rules).1 rules
        (progress.asSequential rules).2 with ⟨⟨_ | answer, children⟩, visits⟩ <;> rfl
  | markov rules, progress => by
      rw [searchVisiting, search, visiting, searchFirstVisiting_fst g 0 rules]

theorem searchAllVisiting_fst (g : Grid Symbol) :
    (rules : List Rule) -> (states : List Progress) ->
      (searchAllVisiting g rules states).1 = searchAll g rules states
  | [], states => by
      rw [searchAllVisiting, searchAll] <;> simp
  | rule :: rules, [] => by
      rw [searchAllVisiting, searchAll] <;> simp
  | rule :: rules, state :: states => by
      rw [searchAllVisiting, searchAll, searchVisiting_fst g rule, searchAllVisiting_fst g rules]

theorem searchFirstVisiting_fst (g : Grid Symbol) :
    (start : Nat) -> (rules : List Rule) -> (states : List Progress) ->
      (searchFirstVisiting g start rules states).1 = searchFirst g start rules states
  | start, [], states => by
      cases start <;> rw [searchFirstVisiting, searchFirst] <;> simp
  | start, rule :: rules, [] => by
      cases start <;> rw [searchFirstVisiting, searchFirst] <;> simp
  | start + 1, rule :: rules, state :: states => by
      rw [searchFirstVisiting, searchFirst, searchFirstVisiting_fst g start rules]
  | 0, rule :: rules, state :: states => by
      rw [searchFirstVisiting, searchFirst, ← searchVisiting_fst g rule,
        ← searchFirstVisiting_fst g 0 rules]
      rcases searchVisiting g rule state with ⟨⟨_ | found, after⟩, visits⟩ <;> rfl

end

/-!
# Visits of one rule
-/

/-- Every search in the course of a search, its own first. -/
def visits (g : Grid Symbol) (rule : Rule) (progress : Progress) : List Visit :=
  (searchVisiting g rule progress).2

def visitsAll (g : Grid Symbol) (rules : List Rule) (states : List Progress) : List Visit :=
  (searchAllVisiting g rules states).2

def visitsFirst (g : Grid Symbol) (start : Nat) (rules : List Rule) (states : List Progress) :
    List Visit :=
  (searchFirstVisiting g start rules states).2

section Equations

variable {g : Grid Symbol} {times : UInt32} {rule : Rule} {rules : List Rule}
  {progress state : Progress} {states : List Progress}

theorem snd_of_eq_visiting {result : Option (List Candidate) × Progress} {parts : List Visit}
    (h : searchVisiting g rule progress = visiting result parts) :
    visits g rule progress = Visit.top (search g rule progress).1 :: parts := by
  rw [visits, ← searchVisiting_fst, h]
  rfl

theorem visits_single (g : Grid Symbol) (clause : Clause) (progress : Progress) :
    visits g (single clause) progress =
      [Visit.top (search g (single clause) progress).1] := by
  apply snd_of_eq_visiting
  rw [searchVisiting]

theorem visits_composite (g : Grid Symbol) (rules : List Rule) (progress : Progress) :
    visits g (composite rules) progress =
      Visit.top (search g (composite rules) progress).1 ::
        visitsAll g rules (progress.asGroup rules) := by
  apply snd_of_eq_visiting
  rw [searchVisiting]
  rfl

theorem visits_limited_of_spent (h : times ≤ (progress.asLimited rule).1) :
    visits g (limited times rule) progress =
      [Visit.top (search g (limited times rule) progress).1] := by
  apply snd_of_eq_visiting
  rw [searchVisiting, if_pos h]

theorem visits_limited_of_free (h : ¬ times ≤ (progress.asLimited rule).1) :
    visits g (limited times rule) progress =
      Visit.top (search g (limited times rule) progress).1 ::
        (visits g rule (progress.asLimited rule).2).map (Visit.under 0) := by
  rw [visits.eq_def g rule]
  rcases hinner : searchVisiting g rule (progress.asLimited rule).2 with
    ⟨⟨_ | found, inner⟩, parts⟩
  · apply snd_of_eq_visiting
    rw [searchVisiting, if_neg h, hinner]
  · apply snd_of_eq_visiting
    rw [searchVisiting, if_neg h, hinner]

theorem visits_sequential (g : Grid Symbol) (rules : List Rule) (progress : Progress) :
    visits g (sequential rules) progress =
      Visit.top (search g (sequential rules) progress).1 ::
        visitsFirst g (progress.asSequential rules).1 rules (progress.asSequential rules).2 := by
  rw [visitsFirst]
  rcases hparts : searchFirstVisiting g (progress.asSequential rules).1 rules
    (progress.asSequential rules).2 with ⟨⟨_ | ⟨index, found⟩, children⟩, parts⟩
  · apply snd_of_eq_visiting
    rw [searchVisiting, hparts]
  · apply snd_of_eq_visiting
    rw [searchVisiting, hparts]

theorem visits_markov (g : Grid Symbol) (rules : List Rule) (progress : Progress) :
    visits g (markov rules) progress =
      Visit.top (search g (markov rules) progress).1 ::
        visitsFirst g 0 rules (progress.asGroup rules) := by
  apply snd_of_eq_visiting
  rw [searchVisiting]
  rfl

theorem visitsAll_nil (g : Grid Symbol) (states : List Progress) : visitsAll g [] states = [] := by
  rw [visitsAll, searchAllVisiting]
  simp

theorem visitsAll_states_nil (g : Grid Symbol) (rules : List Rule) :
    visitsAll g rules [] = [] := by
  rw [visitsAll, searchAllVisiting]
  simp

theorem visitsAll_cons (g : Grid Symbol) (rule : Rule) (rules : List Rule) (state : Progress)
    (states : List Progress) :
    visitsAll g (rule :: rules) (state :: states) =
      (visits g rule state).map (Visit.under 0) ++ (visitsAll g rules states).map Visit.next := by
  rw [visitsAll, searchAllVisiting]
  rfl

theorem visitsFirst_nil (g : Grid Symbol) (start : Nat) (states : List Progress) :
    visitsFirst g start [] states = [] := by
  cases start <;> rw [visitsFirst, searchFirstVisiting] <;> simp

theorem visitsFirst_states_nil (g : Grid Symbol) (start : Nat) (rules : List Rule) :
    visitsFirst g start rules [] = [] := by
  cases start <;> rw [visitsFirst, searchFirstVisiting] <;> simp

theorem visitsFirst_skip (g : Grid Symbol) (start : Nat) (rule : Rule) (rules : List Rule)
    (state : Progress) (states : List Progress) :
    visitsFirst g (start + 1) (rule :: rules) (state :: states) =
      (visitsFirst g start rules states).map Visit.next := by
  rw [visitsFirst, searchFirstVisiting]
  rfl

theorem visitsFirst_of_none (rules : List Rule) (states : List Progress)
    (h : (search g rule state).1 = none) :
    visitsFirst g 0 (rule :: rules) (state :: states) =
      (visits g rule state).map (Visit.under 0) ++
        (visitsFirst g 0 rules states).map Visit.next := by
  rw [← searchVisiting_fst] at h
  rw [visitsFirst, searchFirstVisiting, visits]
  rcases hfirst : searchVisiting g rule state with ⟨⟨_ | found, after⟩, parts⟩
  · rfl
  · rw [hfirst] at h
    cases h

theorem visitsFirst_of_some (rules : List Rule) (states : List Progress)
    {found : List Candidate} (h : (search g rule state).1 = some found) :
    visitsFirst g 0 (rule :: rules) (state :: states) =
      (visits g rule state).map (Visit.under 0) := by
  rw [← searchVisiting_fst] at h
  rw [visitsFirst, searchFirstVisiting, visits]
  rcases hfirst : searchVisiting g rule state with ⟨⟨_ | found', after⟩, parts⟩
  · rw [hfirst] at h
    cases h
  · rfl

end Equations

/-!
# Visits of one part
-/

section Members

variable {g : Grid Symbol} {start index : Nat} {rule : Rule} {rules : List Rule}
  {progress state : Progress} {states : List Progress} {path : List Nat}
  {answer : Option (List Candidate)}

theorem top_not_mem_visitsAll : Visit.top answer ∉ visitsAll g rules states := by
  induction rules generalizing states with
  | nil =>
      rw [visitsAll_nil]
      exact List.not_mem_nil
  | cons rule rules ih =>
      cases states with
      | nil =>
          rw [visitsAll_states_nil]
          exact List.not_mem_nil
      | cons state states =>
          rw [visitsAll_cons, List.mem_append, Visit.top_mem_map_next_iff, not_or]
          exact ⟨Visit.top_not_mem_map_under, ih⟩

theorem top_not_mem_visitsFirst : Visit.top answer ∉ visitsFirst g start rules states := by
  induction start, rules, states using searchFirst_induction g with
  | nil start states =>
      rw [visitsFirst_nil]
      exact List.not_mem_nil
  | lacking start rule rules =>
      rw [visitsFirst_states_nil]
      exact List.not_mem_nil
  | skip start rule rules state states ih =>
      rw [visitsFirst_skip, Visit.top_mem_map_next_iff]
      exact ih
  | silent rule rules state states hsilent ih =>
      rw [visitsFirst_of_none rules states hsilent, List.mem_append, Visit.top_mem_map_next_iff,
        not_or]
      exact ⟨Visit.top_not_mem_map_under, ih⟩
  | offer rule rules state states found hoffer =>
      rw [visitsFirst_of_some rules states hoffer]
      exact Visit.top_not_mem_map_under

theorem top_mem_visits_iff :
    Visit.top answer ∈ visits g rule progress ↔ answer = (search g rule progress).1 := by
  have own : forall {parts}, Visit.top answer ∉ parts ->
      visits g rule progress = Visit.top (search g rule progress).1 :: parts ->
        (Visit.top answer ∈ visits g rule progress ↔ answer = (search g rule progress).1) := by
    intro parts hparts hvisits
    rw [hvisits, List.mem_cons, or_iff_left hparts]
    exact ⟨congrArg Visit.answer, congrArg Visit.top⟩
  cases rule with
  | single clause => exact own List.not_mem_nil (visits_single g clause progress)
  | composite rules => exact own top_not_mem_visitsAll (visits_composite g rules progress)
  | limited times rule =>
      by_cases hspent : times ≤ (progress.asLimited rule).1
      · exact own List.not_mem_nil (visits_limited_of_spent hspent)
      · exact own Visit.top_not_mem_map_under (visits_limited_of_free hspent)
  | sequential rules => exact own top_not_mem_visitsFirst (visits_sequential g rules progress)
  | markov rules => exact own top_not_mem_visitsFirst (visits_markov g rules progress)

theorem mem_visitsAll_iff (hrule : rules[index]? = some rule)
    (hstate : states[index]? = some state) :
    { path := index :: path, answer := answer : Visit } ∈ visitsAll g rules states ↔
      { path := path, answer := answer : Visit } ∈ visits g rule state := by
  refine position_induction hrule hstate ?_ ?_
  · intro rules states
    rw [visitsAll_cons, List.mem_append, Visit.mem_map_under_iff,
      or_iff_left Visit.zero_not_mem_map_next]
    exact and_iff_right rfl
  · intro first rules before states index ih
    rw [visitsAll_cons, List.mem_append, Visit.mem_map_under_iff, Visit.succ_mem_map_next_iff, ih]
    exact or_iff_right fun h => by cases h.left

theorem mem_visitsFirst_iff (hrule : rules[index]? = some rule)
    (hstate : states[index]? = some state) :
    { path := index :: path, answer := answer : Visit } ∈ visitsFirst g start rules states ↔
      (start ≤ index ∧ reaches (searchFirst g start rules states).1 index = true) ∧
        { path := path, answer := answer : Visit } ∈ visits g rule state := by
  induction start, rules, states using searchFirst_induction g generalizing index with
  | nil start states => cases hrule
  | lacking start first rules => cases hstate
  | skip start first rules before states ih =>
      rw [visitsFirst_skip, searchFirst_skip]
      cases index with
      | zero => simp [Visit.zero_not_mem_map_next]
      | succ index =>
          rw [Visit.succ_mem_map_next_iff, reaches_map_succ, Nat.add_le_add_iff_right]
          exact ih hrule hstate
  | silent first rules before states hsilent ih =>
      rw [visitsFirst_of_none rules states hsilent, searchFirst_of_none rules states hsilent,
        List.mem_append, Visit.mem_map_under_iff]
      cases index with
      | zero =>
          cases hrule
          cases hstate
          rw [or_iff_left Visit.zero_not_mem_map_next]
          simp [reaches_zero]
      | succ index =>
          rw [Visit.succ_mem_map_next_iff, reaches_map_succ, ih hrule hstate]
          simp
  | offer first rules before states found hoffer =>
      rw [visitsFirst_of_some rules states hoffer, searchFirst_of_some rules states hoffer,
        Visit.mem_map_under_iff]
      cases index with
      | zero =>
          cases hrule
          cases hstate
          simp [reaches_zero]
      | succ index => simp [reaches]

end Members

/-!
# What a search hands on
-/

section Offers

variable {g : Grid Symbol} {start index : Nat} {rule : Rule} {rules : List Rule}
  {state : Progress} {states : List Progress}

theorem getElem?_searchAll (hrule : rules[index]? = some rule)
    (hstate : states[index]? = some state) :
    (searchAll g rules states).2[index]? = some (search g rule state).2 := by
  refine position_induction hrule hstate ?_ ?_
  · intro rules states
    rw [searchAll]
    rfl
  · intro first rules before states index ih
    rw [searchAll]
    exact ih

theorem infix_searchAll (hrule : rules[index]? = some rule)
    (hstate : states[index]? = some state) :
    (search g rule state).1.getD [] <:+: (searchAll g rules states).1 := by
  refine position_induction hrule hstate ?_ ?_
  · intro rules states
    rw [searchAll]
    exact (List.prefix_append _ _).isInfix
  · intro first rules before states index ih
    rw [searchAll]
    exact ih.trans (List.suffix_append _ _).isInfix

theorem infix_searchFirst (hrule : rules[index]? = some rule)
    (hstate : states[index]? = some state) (hstart : start ≤ index)
    (hreaches : reaches (searchFirst g start rules states).1 index = true) :
    (search g rule state).1.getD [] <:+:
      ((searchFirst g start rules states).1.map Prod.snd).getD [] := by
  by_cases hanswers : exists found, (searchFirst g start rules states).1 = some (index, found)
  · rcases hanswers with ⟨found, hanswer⟩
    rcases exists_of_searchFirst_eq_some hanswer with
      ⟨_, rule', state', hrule', hstate', hfound⟩
    cases hrule.symm.trans hrule'
    cases hstate.symm.trans hstate'
    rw [hanswer, hfound]
    exact List.infix_refl found
  · rw [search_eq_none_of_passed hrule hstate hstart hreaches
      fun found hfound => hanswers ⟨found, hfound⟩]
    exact List.nil_infix

end Offers

/-!
# Visited or left out
-/

/-- What the search of a rule means for the part at a position. -/
inductive Attends (g : Grid Symbol) (rule : Rule) (progress : Progress) (index : Nat)
    (part : Rule) (state : Progress) : Prop where
  | visited
      (mem_iff : forall path answer,
        { path := index :: path, answer := answer : Visit } ∈ visits g rule progress ↔
          { path := path, answer := answer : Visit } ∈ visits g part state)
      (after : (search g rule progress).2.children[index]? = some (search g part state).2)
      (offers : (search g part state).1.getD [] <:+: (search g rule progress).1.getD [])
  | omitted
      (not_mem : forall path answer,
        { path := index :: path, answer := answer : Visit } ∉ visits g rule progress)
      (after : (search g rule progress).2.children[index]? = some state)

section Attends

variable {g : Grid Symbol} {start index : Nat} {rule part : Rule} {rules : List Rule}
  {progress state : Progress} {states : List Progress}

theorem mem_visits_iff_of_eq {own : Option (List Candidate)} {parts : List Visit}
    (h : visits g rule progress = Visit.top own :: parts) (path : List Nat)
    (answer : Option (List Candidate)) :
    { path := index :: path, answer := answer : Visit } ∈ visits g rule progress ↔
      { path := index :: path, answer := answer : Visit } ∈ parts := by
  rw [h, List.mem_cons]
  exact or_iff_right fun heq => by cases congrArg Visit.path heq

theorem attends_of_searchAll {own : Option (List Candidate)}
    (hvisits : visits g rule progress = Visit.top own :: visitsAll g rules states)
    (hchildren : (search g rule progress).2.children = (searchAll g rules states).2)
    (hanswer : (search g rule progress).1.getD [] = (searchAll g rules states).1)
    (hpart : rules[index]? = some part) (hstate : states[index]? = some state) :
    Attends g rule progress index part state := by
  refine .visited ?_ ?_ ?_
  · intro path answer
    rw [mem_visits_iff_of_eq hvisits, mem_visitsAll_iff hpart hstate]
  · rw [hchildren, getElem?_searchAll hpart hstate]
  · rw [hanswer]
    exact infix_searchAll hpart hstate

theorem attends_of_searchFirst {own : Option (List Candidate)}
    (hvisits : visits g rule progress = Visit.top own :: visitsFirst g start rules states)
    (hchildren : (search g rule progress).2.children = (searchFirst g start rules states).2)
    (hanswer : (search g rule progress).1 = (searchFirst g start rules states).1.map Prod.snd)
    (hpart : rules[index]? = some part) (hstate : states[index]? = some state) :
    Attends g rule progress index part state := by
  have hafter : (searchFirst g start rules states).2[index]? =
      some (if start ≤ index ∧ reaches (searchFirst g start rules states).1 index = true
        then (search g part state).2 else state) := getElem?_searchFirst hpart hstate
  rw [← hchildren] at hafter
  have hmem : forall path answer,
      { path := index :: path, answer := answer : Visit } ∈ visits g rule progress ↔
        (start ≤ index ∧ reaches (searchFirst g start rules states).1 index = true) ∧
          { path := path, answer := answer : Visit } ∈ visits g part state := by
    intro path answer
    rw [mem_visits_iff_of_eq hvisits, mem_visitsFirst_iff hpart hstate]
  by_cases hreached :
      start ≤ index ∧ reaches (searchFirst g start rules states).1 index = true
  · rw [if_pos hreached] at hafter
    refine .visited (fun path answer => (hmem path answer).trans (and_iff_right hreached)) hafter ?_
    rw [hanswer]
    exact infix_searchFirst hpart hstate hreached.left hreached.right
  · rw [if_neg hreached] at hafter
    exact .omitted (fun path answer h => hreached ((hmem path answer).mp h).left) hafter

theorem attends (g : Grid Symbol) (hfits : progress.fits rule = true)
    (hpart : rule.children[index]? = some part) (hstate : progress.children[index]? = some state) :
    Attends g rule progress index part state := by
  cases rule with
  | single clause => cases hpart
  | composite rules =>
      cases progress with
      | group states =>
          have hstates := Progress.asGroup_group (beq_iff_eq.mp hfits)
          have hvisits := visits_composite g rules (.group states)
          rw [hstates] at hvisits
          refine attends_of_searchAll hvisits ?_ ?_ hpart hstate
          · rw [search, hstates, Progress.children]
          · rw [search, hstates, getD_offered]
      | _ => cases hfits
  | limited times inner =>
      cases progress with
      | limited fired innerState =>
          cases index with
          | succ index => cases hpart
          | zero =>
              cases hpart
              cases hstate
              by_cases hspent : times ≤ fired
              · refine .omitted ?_ ?_
                · intro path answer h
                  rw [mem_visits_iff_of_eq (visits_limited_of_spent hspent)] at h
                  cases h
                · rw [search_limited_of_spent g hspent]
                  rfl
              · refine .visited ?_ ?_ ?_
                · intro path answer
                  rw [mem_visits_iff_of_eq (visits_limited_of_free hspent),
                    Visit.mem_map_under_iff]
                  exact and_iff_right rfl
                · rw [children_search_limited g _ _ hspent]
                  rfl
                · rw [search_limited_limited, if_neg hspent]
      | _ => cases hfits
  | sequential rules =>
      cases progress with
      | sequential cursor states =>
          have hlength := beq_iff_eq.mp hfits
          have hvisits := visits_sequential g rules (.sequential cursor states)
          rw [Progress.asSequential_sequential cursor hlength] at hvisits
          refine attends_of_searchFirst hvisits (children_search_sequential g cursor hlength) ?_
            hpart hstate
          rw [search_sequential_sequential g cursor hlength]
      | _ => cases hfits
  | markov rules =>
      cases progress with
      | group states =>
          have hstates := Progress.asGroup_group (beq_iff_eq.mp hfits)
          have hvisits := visits_markov g rules (.group states)
          rw [hstates] at hvisits
          refine attends_of_searchFirst hvisits ?_ ?_ hpart hstate
          · rw [search, hstates, Progress.children]
          · rw [search, hstates]
      | _ => cases hfits

end Attends

end Rule
end GridRules
