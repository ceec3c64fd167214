import GridRules.Proofs.Visits

/-!
# Charges and what they deliver

A limited rule is charged in the course of a search that may still come to nothing
further up.  It never does: what a part offers is handed on by every kind of rule.  So
the charge of a limited rule always goes with candidates that the whole search offers.

## Main statements

A search raises the count of a limited rule by one if it visits the rule and the rule
has something to offer, and otherwise not at all.  All that a visited part offers is
offered by the whole.  A search that finds nothing changes cursors only.
-/

namespace GridRules

namespace Progress

/-!
# Progress without its cursors
-/

mutual

def withoutCursors : Progress -> Progress
  | leaf => leaf
  | group children => group (withoutCursorsAll children)
  | limited fired inner => limited fired (withoutCursors inner)
  | sequential _ children => sequential 0 (withoutCursorsAll children)

def withoutCursorsAll : List Progress -> List Progress
  | [] => []
  | progress :: others => withoutCursors progress :: withoutCursorsAll others

end

theorem withoutCursorsAll_eq_map (states : List Progress) :
    withoutCursorsAll states = states.map withoutCursors := by
  induction states with
  | nil => rfl
  | cons state states ih => rw [withoutCursorsAll, ih, List.map_cons]

theorem children_withoutCursors (progress : Progress) :
    progress.withoutCursors.children = progress.children.map withoutCursors := by
  cases progress with
  | leaf => rfl
  | group children => exact withoutCursorsAll_eq_map children
  | limited fired inner => rfl
  | sequential cursor children => exact withoutCursorsAll_eq_map children

theorem fired?_withoutCursors (progress : Progress) :
    progress.withoutCursors.fired? = progress.fired? := by
  cases progress <;> rfl

theorem firedAt?_withoutCursors (progress : Progress) (path : List Nat) :
    progress.withoutCursors.firedAt? path = progress.firedAt? path := by
  induction path generalizing progress with
  | nil => exact fired?_withoutCursors progress
  | cons index path ih =>
      rw [firedAt?_cons, firedAt?_cons, children_withoutCursors, List.getElem?_map]
      cases progress.children[index]? with
      | none => rfl
      | some part => exact ih part

/-!
# Parts of progress that fits
-/

section

variable {progress : Progress} {rule part : Rule} {index : Nat}

theorem exists_part_of_fits (h : progress.fits rule = true)
    (hpart : rule.children[index]? = some part) :
    exists state, progress.children[index]? = some state := by
  have hindex := (List.getElem?_eq_some_iff.mp hpart).1
  rw [← length_children_of_fits h] at hindex
  exact ⟨_, List.getElem?_eq_getElem hindex⟩

theorem fitsDeeply_of_getElem? {state : Progress} (h : progress.fitsDeeply rule = true)
    (hpart : rule.children[index]? = some part) (hstate : progress.children[index]? = some state) :
    state.fitsDeeply part = true := by
  cases rule with
  | single clause => cases hpart
  | composite rules =>
      cases progress with
      | group states => exact Rule.fitsDeeply_of_allFitDeeply h hpart hstate
      | _ => cases h
  | limited times inner =>
      cases progress with
      | limited fired innerState =>
          cases index with
          | zero =>
              cases hpart
              cases hstate
              exact h
          | succ index => cases hpart
      | _ => cases h
  | sequential rules =>
      cases progress with
      | sequential cursor states => exact Rule.fitsDeeply_of_allFitDeeply h hpart hstate
      | _ => cases h
  | markov rules =>
      cases progress with
      | group states => exact Rule.fitsDeeply_of_allFitDeeply h hpart hstate
      | _ => cases h

end

end Progress

namespace Rule

/-!
# Charges along a path
-/

/-- What a search means for the count of the limited rule at a path. -/
inductive Billed (visits : List Visit) (path : List Nat) (times before after : UInt32) : Prop
  where
  | paid (found : List Candidate)
      (visit : { path := path, answer := some found : Visit } ∈ visits)
      (free : before < times) (after_eq : after = before + 1)
  | unpaid (visit : forall found, { path := path, answer := some found : Visit } ∉ visits)
      (after_eq : after = before)

section Paths

variable {g : Grid Symbol} {rule part : Rule} {progress : Progress} {path : List Nat}
  {times : UInt32}

theorem billed_limited (g : Grid Symbol) (times before : UInt32) (part : Rule)
    (inner : Progress) :
    exists after,
      (search g (limited times part) (.limited before inner)).2.firedAt? [] = some after ∧
        Billed (visits g (limited times part) (.limited before inner)) [] times before after := by
  have unpaid : (search g (limited times part) (.limited before inner)).1 = none ->
      Billed (visits g (limited times part) (.limited before inner)) [] times before before := by
    intro hnone
    refine .unpaid ?_ rfl
    intro found hvisit
    have hanswer := top_mem_visits_iff.mp hvisit
    rw [hnone] at hanswer
    cases hanswer
  have hanswer := search_limited_limited g times before part inner
  by_cases hspent : times ≤ before
  · rw [if_pos hspent] at hanswer
    exact ⟨before, by rw [hanswer]; rfl, unpaid (by rw [hanswer])⟩
  · rw [if_neg hspent] at hanswer
    cases hinner : (search g part inner).1 with
    | none =>
        rw [hinner] at hanswer
        exact ⟨before, by rw [hanswer]; rfl, unpaid (by rw [hanswer])⟩
    | some found =>
        rw [hinner] at hanswer
        refine ⟨before + 1, by rw [hanswer]; rfl, ?_⟩
        exact .paid found (top_mem_visits_iff.mpr (by rw [hanswer]))
          (UInt32.not_le.mp hspent) rfl

/-- A part that is visited is charged as in its own search, and one that is left out is
not charged. -/
theorem billed_search (hfits : progress.fitsDeeply rule = true)
    (hpart : rule.part? path = some (limited times part)) :
    exists before after, progress.firedAt? path = some before ∧
      (search g rule progress).2.firedAt? path = some after ∧
        Billed (visits g rule progress) path times before after := by
  induction path generalizing rule progress with
  | nil =>
      cases hpart
      cases progress with
      | limited fired inner =>
          rcases billed_limited g times fired part inner with ⟨after, hafter, hbilled⟩
          exact ⟨fired, after, rfl, hafter, hbilled⟩
      | _ => cases hfits
  | cons index path ih =>
      rcases Option.bind_eq_some_iff.mp hpart with ⟨child, hchild, hpart'⟩
      have htop := Progress.fits_of_fitsDeeply hfits
      rcases Progress.exists_part_of_fits htop hchild with ⟨state, hstate⟩
      rcases ih (Progress.fitsDeeply_of_getElem? hfits hchild hstate) hpart' with
        ⟨before, after, hbefore, hfired, hbilled⟩
      rw [Progress.firedAt?_cons, Progress.firedAt?_cons, hstate]
      cases attends g htop hchild hstate with
      | visited mem_iff hafter _ =>
          refine ⟨before, after, hbefore, by rw [hafter]; exact hfired, ?_⟩
          cases hbilled with
          | paid found hvisit hfree heq =>
              exact .paid found ((mem_iff path (some found)).mpr hvisit) hfree heq
          | unpaid hvisit heq =>
              exact .unpaid (fun found h => hvisit found ((mem_iff path (some found)).mp h)) heq
      | omitted not_mem hafter =>
          refine ⟨before, before, hbefore, by rw [hafter]; exact hbefore, ?_⟩
          exact .unpaid (fun found => not_mem path (some found)) rfl

/-- Whatever a visited part offers is offered by the whole, in one piece. -/
theorem exists_offered_of_mem_visits {found : List Candidate}
    (hfits : progress.fitsDeeply rule = true) (hpart : rule.part? path = some part)
    (hvisit : { path := path, answer := some found : Visit } ∈ visits g rule progress) :
    exists offered, (search g rule progress).1 = some offered ∧ found <:+: offered := by
  induction path generalizing rule progress with
  | nil => exact ⟨found, (top_mem_visits_iff.mp hvisit).symm, List.infix_refl found⟩
  | cons index path ih =>
      rcases Option.bind_eq_some_iff.mp hpart with ⟨child, hchild, hpart'⟩
      have htop := Progress.fits_of_fitsDeeply hfits
      rcases Progress.exists_part_of_fits htop hchild with ⟨state, hstate⟩
      cases attends g htop hchild hstate with
      | omitted not_mem _ => exact absurd hvisit (not_mem path (some found))
      | visited mem_iff _ hoffers =>
          rcases ih (Progress.fitsDeeply_of_getElem? hfits hchild hstate) hpart'
            ((mem_iff path (some found)).mp hvisit) with ⟨inner, hinner, hinfix⟩
          rw [hinner, Option.getD_some] at hoffers
          cases hanswer : (search g rule progress).1 with
          | some offered =>
              rw [hanswer] at hoffers
              exact ⟨offered, rfl, hinfix.trans hoffers⟩
          | none =>
              -- An answer is never empty, so it cannot be lost.
              rw [hanswer] at hoffers
              have hnil : inner = [] := List.infix_nil.mp hoffers
              rw [hnil] at hinner
              exact absurd hinner (search_ne_some_nil g child state)

end Paths

/-!
# Searches that find nothing
-/

mutual

theorem withoutCursors_search (g : Grid Symbol) :
    (rule : Rule) -> (progress : Progress) -> progress.fitsDeeply rule = true ->
      (search g rule progress).1 = none ->
        (search g rule progress).2.withoutCursors = progress.withoutCursors
  | single clause, .leaf, _, _ => by
      rw [search]
  | composite rules, .group states, hfits, h => by
      rw [search, Progress.asGroup_group (length_eq_of_allFitDeeply hfits)] at h ⊢
      exact congrArg Progress.group
        (withoutCursors_searchAll g rules states hfits (offered_eq_none_iff.mp h))
  | limited times rule, .limited fired inner, hfits, h => by
      by_cases hspent : times ≤ fired
      · rw [search_limited_limited, if_pos hspent]
      · rw [search_limited_limited, if_neg hspent] at h ⊢
        have hinner : (search g rule inner).1 = none := h
        rw [hinner]
        exact congrArg (Progress.limited fired) (withoutCursors_search g rule inner hfits hinner)
  | sequential rules, .sequential cursor states, hfits, h => by
      rw [search_sequential_sequential g cursor (length_eq_of_allFitDeeply hfits)] at h ⊢
      exact congrArg (Progress.sequential 0)
        (withoutCursors_searchFirst g cursor rules states hfits (Option.map_eq_none_iff.mp h))
  | markov rules, .group states, hfits, h => by
      rw [search, Progress.asGroup_group (length_eq_of_allFitDeeply hfits)] at h ⊢
      exact congrArg Progress.group
        (withoutCursors_searchFirst g 0 rules states hfits (Option.map_eq_none_iff.mp h))

theorem withoutCursors_searchAll (g : Grid Symbol) :
    (rules : List Rule) -> (states : List Progress) ->
      Progress.allFitDeeply states rules = true -> (searchAll g rules states).1 = [] ->
        Progress.withoutCursorsAll (searchAll g rules states).2 =
          Progress.withoutCursorsAll states
  | [], [], _, _ => by
      rw [searchAll_nil]
  | rule :: rules, state :: states, hfits, h => by
      rcases Bool.and_eq_true_iff.mp hfits with ⟨hstate, hstates⟩
      rcases searchAll_cons_eq_nil_iff.mp h with ⟨hfirst, hrest⟩
      rw [searchAll, Progress.withoutCursorsAll, Progress.withoutCursorsAll,
        withoutCursors_search g rule state hstate hfirst,
        withoutCursors_searchAll g rules states hstates hrest]

theorem withoutCursors_searchFirst (g : Grid Symbol) :
    (start : Nat) -> (rules : List Rule) -> (states : List Progress) ->
      Progress.allFitDeeply states rules = true -> (searchFirst g start rules states).1 = none ->
        Progress.withoutCursorsAll (searchFirst g start rules states).2 =
          Progress.withoutCursorsAll states
  | start, [], [], _, _ => by
      rw [searchFirst_nil]
  | start + 1, rule :: rules, state :: states, hfits, h => by
      rw [searchFirst_skip, Option.map_eq_none_iff] at h
      rw [searchFirst_skip, Progress.withoutCursorsAll, Progress.withoutCursorsAll,
        withoutCursors_searchFirst g start rules states (Bool.and_eq_true_iff.mp hfits).right h]
  | 0, rule :: rules, state :: states, hfits, h => by
      rcases Bool.and_eq_true_iff.mp hfits with ⟨hstate, hstates⟩
      rcases searchFirst_cons_eq_none_iff.mp h with ⟨hfirst, hrest⟩
      rw [searchFirst_of_none rules states hfirst, Progress.withoutCursorsAll,
        Progress.withoutCursorsAll, withoutCursors_search g rule state hstate hfirst,
        withoutCursors_searchFirst g 0 rules states hstates hrest]

end

/-- The count of a limited rule grows by one if the rule is visited and has something to
offer, and otherwise it stays the same.  A count that grows was below its bound, so it
does not overflow, whatever it was.  All that a visited part offers is among the candidates
of the whole search, so a search that finds nothing leaves every count alone, and all of
the progress but its cursors. -/
theorem charges_exact (g : Grid Symbol) (rule : Rule) (progress : Progress)
    (hfits : progress.fitsDeeply rule = true) :
    (forall path times part, rule.part? path = some (limited times part) ->
      exists before after, progress.firedAt? path = some before ∧
        (search g rule progress).2.firedAt? path = some after ∧
        ((exists found, { path := path, answer := some found } ∈ visits g rule progress) ->
          before < times ∧ after.toNat = before.toNat + 1) ∧
        ((forall found, { path := path, answer := some found } ∉ visits g rule progress) ->
          after = before)) ∧
    (forall path part found, rule.part? path = some part ->
      { path := path, answer := some found } ∈ visits g rule progress ->
        exists offered, (search g rule progress).1 = some offered ∧ found <:+: offered) ∧
    ((search g rule progress).1 = none ->
      (forall path, (search g rule progress).2.firedAt? path = progress.firedAt? path) ∧
        (search g rule progress).2.withoutCursors = progress.withoutCursors) := by
  refine ⟨?_, ?_, ?_⟩
  · intro path times part hpart
    rcases billed_search hfits hpart with ⟨before, after, hbefore, hafter, hbilled⟩
    refine ⟨before, after, hbefore, hafter, ?_⟩
    cases hbilled with
    | paid found hvisit hfree heq =>
        refine ⟨fun _ => ⟨hfree, ?_⟩, fun hnone => absurd hvisit (hnone found)⟩
        rw [heq, toNat_succ_of_lt hfree]
    | unpaid hvisit heq =>
        exact ⟨fun ⟨found, hfound⟩ => absurd hfound (hvisit found), fun _ => heq⟩
  · exact fun path part found hpart hvisit => exists_offered_of_mem_visits hfits hpart hvisit
  · intro hnone
    have hcursors := withoutCursors_search g rule progress hfits hnone
    refine ⟨?_, hcursors⟩
    intro path
    rw [← Progress.firedAt?_withoutCursors, hcursors, Progress.firedAt?_withoutCursors]

/-!
## Spent and searched in vain

The first part searches a sequential rule in vain.  Of the pooled parts, the first one has a
firing left, and the second one is far beyond its bound.
-/

def mixed : Rule :=
  .markov
    [ .limited 5 (.sequential [RuleSet.repaint .red .blue]),
      .composite
        [.limited 2 (RuleSet.repaint .black .white), .limited 1 (RuleSet.repaint .white .red)] ]

def mixedSpent : Progress :=
  .group
    [ .limited 0 (.sequential 0 [.leaf]),
      .group [.limited 1 .leaf, .limited 4294967295 .leaf] ]

theorem charges_exact_mixed :
    mixedSpent.fitsDeeply mixed = true ∧
      { path := [1, 0], answer := some [{ target := [0], replacement := [.white] }] } ∈
        visits (RuleSet.pair .black .white) mixed mixedSpent ∧
      (exists after, (search (RuleSet.pair .black .white) mixed mixedSpent).2.firedAt? [1, 0] =
        some after ∧ after.toNat = 2) ∧
      (search (RuleSet.pair .black .white) mixed mixedSpent).2.firedAt? [1, 1] =
        some 4294967295 := by
  have hfits : mixedSpent.fitsDeeply mixed = true := by decide
  have hexact := charges_exact (RuleSet.pair .black .white) mixed mixedSpent hfits
  have hvisit : { path := [1, 0], answer := some [{ target := [0], replacement := [.white] }] } ∈
      visits (RuleSet.pair .black .white) mixed mixedSpent := by decide
  rcases hexact.left [1, 0] 2 (RuleSet.repaint .black .white) rfl with
    ⟨before, after, hbefore, hafter, hpaid, _⟩
  rcases hexact.left [1, 1] 1 (RuleSet.repaint .white .red) rfl with
    ⟨before', after', hbefore', hafter', hpaid', hunpaid'⟩
  cases hbefore
  cases hbefore'
  refine ⟨hfits, hvisit, ⟨after, hafter, (hpaid ⟨_, hvisit⟩).right⟩, ?_⟩
  rw [hafter', hunpaid' fun found hfound => absurd (hpaid' ⟨found, hfound⟩).left (by decide)]

end Rule
end GridRules
