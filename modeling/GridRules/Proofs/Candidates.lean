import GridRules.Proofs.Leaves

/-!
# What a rule set offers

The candidates that a search answers with depend only on the grid, the rules and
the progress before the search.  They are those of the selected leaves, from
left to right.

## Main statements

For one rule, and for several rules that are pooled or tried in order, the answer
is read off the leaves.  The statement for rule sets is the case of rules that are
tried in order from the first one on.
-/

namespace GridRules

namespace Leaf

/-!
# Selecting leaves
-/

variable {able able' : Leaf -> Bool} {overrules overrules' : List Nat -> List Nat -> Bool}

theorem select_eq_nil {leaves : List Leaf}
    (h : forall leaf, leaf ∈ leaves -> able leaf = false) : select able overrules leaves = [] := by
  rw [select, List.filter_eq_nil_iff]
  intro leaf hleaf
  simp [h leaf hleaf]

/-- Moving leaves to another place does not change which of them are selected, as
long as it keeps the leaves able and the order among them. -/
theorem select_map {leaves : List Leaf} (f : Leaf -> Leaf)
    (hable : forall leaf, leaf ∈ leaves -> able (f leaf) = able' leaf)
    (hoverrules : forall leaf other, leaf ∈ leaves -> other ∈ leaves -> able' leaf = true ->
      overrules (f other).path (f leaf).path = overrules' other.path leaf.path) :
    select able overrules (leaves.map f) = (select able' overrules' leaves).map f := by
  rw [select, List.filter_map, select]
  congr 1
  apply List.filter_congr
  intro leaf hleaf
  simp only [Function.comp_apply, hable leaf hleaf]
  cases hcase : able' leaf with
  | false => rfl
  | true =>
      rw [List.all_map, Bool.true_and, Bool.true_and, Bool.eq_iff_iff, List.all_eq_true,
        List.all_eq_true]
      constructor
      · intro h other hother
        simpa [hable other hother, hoverrules leaf other hleaf hother hcase] using h other hother
      · intro h other hother
        simpa [hable other hother, hoverrules leaf other hleaf hother hcase] using h other hother

/-- Later leaves count only when no earlier one is able, if earlier leaves are
preferred, and in any case if they are not. -/
theorem select_append (earlierFirst : Bool) {first second : List Leaf}
    (hback : forall leaf other, leaf ∈ first -> other ∈ second ->
      overrules other.path leaf.path = false)
    (hforth : forall leaf other, leaf ∈ first -> other ∈ second -> able other = true ->
      overrules leaf.path other.path = earlierFirst) :
    select able overrules (first ++ second) =
      select able overrules first ++
        if earlierFirst && first.any able then [] else select able overrules second := by
  rw [select, List.filter_append]
  congr 1
  · apply List.filter_congr
    intro leaf hleaf
    have hrest : second.all
        (fun other => !(able other && overrules other.path leaf.path)) = true := by
      rw [List.all_eq_true]
      intro other hother
      simp [hback leaf other hleaf hother]
    rw [List.all_append, hrest, Bool.and_true]
  · split
    · rename_i hpreferred
      rw [Bool.and_eq_true, List.any_eq_true] at hpreferred
      rcases hpreferred with ⟨hfirst, leaf, hleaf, hable⟩
      rw [List.filter_eq_nil_iff]
      intro other hother hselected
      simp only [Bool.and_eq_true, List.all_append, List.all_eq_true] at hselected
      have hnot := hselected.right.left leaf hleaf
      rw [hable, hforth leaf other hleaf hother hselected.left, hfirst] at hnot
      cases hnot
    · rename_i hrest
      apply List.filter_congr
      intro other hother
      cases hable : able other with
      | false => rfl
      | true =>
          have hfirst : first.all
              (fun leaf => !(able leaf && overrules leaf.path other.path)) = true := by
            rw [List.all_eq_true]
            intro leaf hleaf
            rw [hforth leaf other hleaf hother hable]
            cases hleafAble : able leaf with
            | false => rfl
            | true =>
                cases earlierFirst with
                | false => rfl
                | true => exact absurd (List.any_eq_true.mpr ⟨leaf, hleaf, hleafAble⟩) hrest
          rw [List.all_append, hfirst, Bool.true_and]

end Leaf

namespace Rule

/-!
# Leaves among several rules

A leaf among several rules either lies in the first of them or is, but for its
numbering, a leaf among the others.
-/

def selected (g : Grid Symbol) (rule : Rule) (progress : Progress) : List Leaf :=
  Leaf.select (rule.able g progress) rule.overrules rule.leaves

/-- Whether a leaf is able when the rules before `start` are left out. -/
def ableAmong (g : Grid Symbol) (start : Nat) (rules : List Rule) (states : List Progress)
    (leaf : Leaf) : Bool :=
  (leaf.path.head?.any fun index => start ≤ index) &&
    (liveAmong rules states leaf.path && leaf.occurs g)

def selectedAmong (g : Grid Symbol) (earlierFirst : Bool) (start : Nat) (rules : List Rule)
    (states : List Progress) : List Leaf :=
  Leaf.select (ableAmong g start rules states) (overrulesAmong earlierFirst rules)
    (leavesFrom 0 rules)

def offers (g : Grid Symbol) (leaves : List Leaf) : List Candidate :=
  leaves.flatMap fun leaf => leaf.clause.candidates g

theorem leavesFrom_succ (index : Nat) (rules : List Rule) :
    leavesFrom (index + 1) rules = (leavesFrom index rules).map Leaf.next := by
  induction rules generalizing index with
  | nil => rfl
  | cons rule rules ih =>
      rw [leavesFrom, leavesFrom, List.map_append, List.map_map, ih]
      rfl

theorem leavesFrom_zero_cons (rule : Rule) (rules : List Rule) :
    leavesFrom 0 (rule :: rules) =
      rule.leaves.map (Leaf.under 0) ++ (leavesFrom 0 rules).map Leaf.next := by
  rw [leavesFrom, leavesFrom_succ]

theorem forall_leavesFrom_cons {rule : Rule} {rules : List Rule} {holds : Leaf -> Prop} :
    (forall leaf, leaf ∈ leavesFrom 0 (rule :: rules) -> holds leaf) ↔
      (forall leaf, leaf ∈ rule.leaves -> holds (leaf.under 0)) ∧
        forall leaf, leaf ∈ leavesFrom 0 rules -> holds leaf.next := by
  simp only [leavesFrom_zero_cons, List.mem_append, or_imp, forall_and, List.forall_mem_map]

theorem path_ne_nil_of_mem_leavesFrom {rules : List Rule} {leaf : Leaf}
    (h : leaf ∈ leavesFrom 0 rules) : leaf.path ≠ [] := by
  induction rules generalizing leaf with
  | nil => cases h
  | cons rule rules ih =>
      revert leaf
      rw [forall_leavesFrom_cons]
      constructor
      · intro leaf _ hpath
        cases hpath
      · intro leaf hleaf hpath
        rcases List.exists_cons_of_ne_nil (ih hleaf) with ⟨index, path, heq⟩
        rw [Leaf.next, heq] at hpath
        cases hpath

section Cons

variable (g : Grid Symbol) (start : Nat) (rule : Rule) (rules : List Rule) (state : Progress)
  (states : List Progress)

theorem ableAmong_zero_under (leaf : Leaf) :
    ableAmong g 0 (rule :: rules) (state :: states) (leaf.under 0) = rule.able g state leaf := rfl

theorem ableAmong_succ_under (leaf : Leaf) :
    ableAmong g (start + 1) (rule :: rules) (state :: states) (leaf.under 0) = false := rfl

theorem liveAmong_next (leaf : Leaf) :
    liveAmong (rule :: rules) (state :: states) leaf.next.path =
      liveAmong rules states leaf.path := by
  cases hpath : leaf.path with
  | nil => simp [Leaf.next, hpath, liveAmong]
  | cons index path => simp [Leaf.next, hpath, liveAmong]

theorem ableAmong_zero_next (leaf : Leaf) :
    ableAmong g 0 (rule :: rules) (state :: states) leaf.next =
      ableAmong g 0 rules states leaf := by
  rw [ableAmong, ableAmong, liveAmong_next]
  cases hpath : leaf.path with
  | nil => simp [Leaf.next, hpath]
  | cons index path =>
      simp only [Leaf.next, hpath, List.head?_cons, Option.any_some, Nat.zero_le, decide_true]
      rfl

theorem ableAmong_succ_next (leaf : Leaf) :
    ableAmong g (start + 1) (rule :: rules) (state :: states) leaf.next =
      ableAmong g start rules states leaf := by
  rw [ableAmong, ableAmong, liveAmong_next]
  cases hpath : leaf.path with
  | nil => simp [Leaf.next, hpath]
  | cons index path =>
      simp only [Leaf.next, hpath, List.head?_cons, Option.any_some, Nat.add_le_add_iff_right]
      rfl

end Cons

section Overrules

variable (earlierFirst : Bool) (rule : Rule) (rules : List Rule)

theorem overrulesAmong_under_under (first second : Leaf) :
    overrulesAmong earlierFirst (rule :: rules) (first.under 0).path (second.under 0).path =
      rule.overrules first.path second.path := rfl

theorem overrulesAmong_next_under (first second : Leaf) :
    overrulesAmong earlierFirst (rule :: rules) first.next.path (second.under 0).path =
      false := by
  cases hpath : first.path with
  | nil => simp [Leaf.next, hpath, overrulesAmong]
  | cons index path => simp [Leaf.next, Leaf.under, hpath, overrulesAmong]

theorem overrulesAmong_under_next {first second : Leaf} (h : second.path ≠ []) :
    overrulesAmong earlierFirst (rule :: rules) (first.under 0).path second.next.path =
      earlierFirst := by
  rcases List.exists_cons_of_ne_nil h with ⟨index, path, hpath⟩
  simp [Leaf.next, Leaf.under, hpath, overrulesAmong]

theorem overrulesAmong_next_next (first second : Leaf) :
    overrulesAmong earlierFirst (rule :: rules) first.next.path second.next.path =
      overrulesAmong earlierFirst rules first.path second.path := by
  cases hfirst : first.path with
  | nil => simp [Leaf.next, hfirst, overrulesAmong]
  | cons index path =>
      cases hsecond : second.path with
      | nil => simp [Leaf.next, hfirst, hsecond, overrulesAmong]
      | cons index' path' => simp [Leaf.next, hfirst, hsecond, overrulesAmong]

end Overrules

/-!
# Selection among several rules
-/

section Selection

variable {g : Grid Symbol} {start : Nat} {rule : Rule} {rules : List Rule} {state : Progress}
  {states : List Progress}

theorem select_leavesFrom_cons (earlierFirst : Bool) (able : Leaf -> Bool) :
    Leaf.select able (overrulesAmong earlierFirst (rule :: rules)) (leavesFrom 0 (rule :: rules)) =
      Leaf.select able (overrulesAmong earlierFirst (rule :: rules))
          (rule.leaves.map (Leaf.under 0)) ++
        if earlierFirst && (rule.leaves.map (Leaf.under 0)).any able then []
        else
          Leaf.select able (overrulesAmong earlierFirst (rule :: rules))
            ((leavesFrom 0 rules).map Leaf.next) := by
  rw [leavesFrom_zero_cons, Leaf.select_append earlierFirst]
  · intro leaf other hleaf hother
    rcases List.mem_map.mp hleaf with ⟨inner, _, rfl⟩
    rcases List.mem_map.mp hother with ⟨inner', _, rfl⟩
    exact overrulesAmong_next_under _ _ _ _ _
  · intro leaf other hleaf hother _
    rcases List.mem_map.mp hleaf with ⟨inner, _, rfl⟩
    rcases List.mem_map.mp hother with ⟨inner', hinner', rfl⟩
    exact overrulesAmong_under_next _ _ _ (path_ne_nil_of_mem_leavesFrom hinner')

theorem selectedAmong_zero_cons (earlierFirst : Bool) :
    selectedAmong g earlierFirst 0 (rule :: rules) (state :: states) =
      (rule.selected g state).map (Leaf.under 0) ++
        if earlierFirst && rule.leaves.any (rule.able g state) then []
        else (selectedAmong g earlierFirst 0 rules states).map Leaf.next := by
  have hunder : (rule.leaves.map (Leaf.under 0)).any
      (ableAmong g 0 (rule :: rules) (state :: states)) =
        rule.leaves.any (rule.able g state) := by
    rw [List.any_map]
    rfl
  rw [selectedAmong, select_leavesFrom_cons, hunder]
  congr 1
  · exact Leaf.select_map _ (fun leaf _ => ableAmong_zero_under g rule rules state states leaf)
      (fun leaf other _ _ _ => overrulesAmong_under_under _ _ _ other leaf)
  · congr 1
    exact Leaf.select_map _ (fun leaf _ => ableAmong_zero_next g rule rules state states leaf)
      (fun leaf other _ _ _ => overrulesAmong_next_next _ _ _ other leaf)

theorem selectedAmong_succ_cons :
    selectedAmong g true (start + 1) (rule :: rules) (state :: states) =
      (selectedAmong g true start rules states).map Leaf.next := by
  have hunable : forall leaf, leaf ∈ rule.leaves.map (Leaf.under 0) ->
      ableAmong g (start + 1) (rule :: rules) (state :: states) leaf = false := by
    rw [List.forall_mem_map]
    exact fun leaf _ => ableAmong_succ_under g start rule rules state states leaf
  have hunder : (rule.leaves.map (Leaf.under 0)).any
      (ableAmong g (start + 1) (rule :: rules) (state :: states)) = false := by
    rw [List.any_eq_false]
    intro leaf hleaf hable
    rw [hunable leaf hleaf] at hable
    cases hable
  rw [selectedAmong, select_leavesFrom_cons, hunder, Leaf.select_eq_nil hunable]
  exact Leaf.select_map _ (fun leaf _ => ableAmong_succ_next g start rule rules state states leaf)
    (fun leaf other _ _ _ => overrulesAmong_next_next _ _ _ other leaf)

theorem offers_map_under (leaves : List Leaf) (index : Nat) :
    offers g (leaves.map (Leaf.under index)) = offers g leaves := by
  rw [offers, List.flatMap_map]
  rfl

theorem offers_map_next (leaves : List Leaf) :
    offers g (leaves.map Leaf.next) = offers g leaves := by
  rw [offers, List.flatMap_map]
  rfl

theorem able_eq_ableAmong
    (hadmits : forall index, rule.admits state index = decide (start ≤ index))
    (hleaves : rule.leaves = leavesFrom 0 rule.children) :
    forall leaf, leaf ∈ rule.leaves ->
      rule.able g state leaf = ableAmong g start rule.children state.children leaf := by
  intro leaf hleaf
  rw [hleaves] at hleaf
  rcases List.exists_cons_of_ne_nil (path_ne_nil_of_mem_leavesFrom hleaf) with
    ⟨index, path, hpath⟩
  rw [able, ableAmong, hpath, live, hadmits, Bool.and_assoc]
  rfl

theorem forall_able_eq_false_iff
    (hadmits : forall index, rule.admits state index = decide (start ≤ index))
    (hleaves : rule.leaves = leavesFrom 0 rule.children) :
    (forall leaf, leaf ∈ rule.leaves -> rule.able g state leaf = false) ↔
      forall leaf, leaf ∈ leavesFrom 0 rule.children ->
        ableAmong g start rule.children state.children leaf = false := by
  have hable := able_eq_ableAmong (g := g) hadmits hleaves
  rw [← hleaves]
  exact forall₂_congr fun leaf hleaf => by rw [hable leaf hleaf]

theorem selected_eq_selectedAmong
    (hadmits : forall index, rule.admits state index = decide (start ≤ index))
    (hleaves : rule.leaves = leavesFrom 0 rule.children) :
    rule.selected g state =
      selectedAmong g rule.prefersEarlier start rule.children state.children := by
  have hpaths : forall leaf other, leaf ∈ rule.leaves -> other ∈ rule.leaves ->
      rule.overrules other.path leaf.path =
        overrulesAmong rule.prefersEarlier rule.children other.path leaf.path := by
    intro leaf other hleaf hother
    rw [hleaves] at hleaf hother
    rcases List.exists_cons_of_ne_nil (path_ne_nil_of_mem_leavesFrom hleaf) with
      ⟨index, path, hpath⟩
    rcases List.exists_cons_of_ne_nil (path_ne_nil_of_mem_leavesFrom hother) with
      ⟨index', path', hpath'⟩
    rw [hpath, hpath', overrules, overrulesAmong]
  rw [selected, selectedAmong, ← hleaves]
  have hmap := Leaf.select_map id (able_eq_ableAmong (g := g) hadmits hleaves)
    (fun leaf other hleaf hother _ => hpaths leaf other hleaf hother)
  rwa [List.map_id, List.map_id] at hmap

end Selection

/-!
# The search reads off the leaves

The progress that a search leaves behind plays no part here.  A part that is
searched changes its own progress only, so each part is searched with the
progress that it had before the search.
-/

structure FirstAble (g : Grid Symbol) (start : Nat) (rules : List Rule) (states : List Progress)
    (index : Nat) : Prop where
  holds : exists leaf, leaf ∈ leavesFrom 0 rules ∧ ableAmong g start rules states leaf = true ∧
    leaf.path.head? = some index
  least : forall leaf other, leaf ∈ leavesFrom 0 rules ->
    ableAmong g start rules states leaf = true -> leaf.path.head? = some other -> index ≤ other

theorem head?_next (leaf : Leaf) : leaf.next.path.head? = leaf.path.head?.map (· + 1) := by
  cases hpath : leaf.path <;> simp [Leaf.next, hpath]

theorem FirstAble.next {g : Grid Symbol} {start start' : Nat} {rule : Rule} {rules : List Rule}
    {state : Progress} {states : List Progress} {index : Nat}
    (hunder : forall leaf, leaf ∈ rule.leaves ->
      ableAmong g start' (rule :: rules) (state :: states) (leaf.under 0) = false)
    (hnext : forall leaf, ableAmong g start' (rule :: rules) (state :: states) leaf.next =
      ableAmong g start rules states leaf)
    (h : FirstAble g start rules states index) :
    FirstAble g start' (rule :: rules) (state :: states) (index + 1) where
  holds := by
    rcases h.holds with ⟨leaf, hleaf, hable, hhead⟩
    refine ⟨leaf.next, ?_, (hnext leaf).trans hable, by rw [head?_next, hhead]; rfl⟩
    rw [leavesFrom_zero_cons]
    exact List.mem_append_right _ (List.mem_map_of_mem hleaf)
  least := by
    intro leaf other hleaf
    revert leaf
    rw [forall_leavesFrom_cons]
    constructor
    · intro leaf hleaf hable _
      rw [hunder leaf hleaf] at hable
      cases hable
    · intro leaf hleaf hable hhead
      rw [hnext leaf] at hable
      rw [head?_next] at hhead
      rcases Option.map_eq_some_iff.mp hhead with ⟨before, hbefore, rfl⟩
      exact Nat.succ_le_succ (h.least leaf before hleaf hable hbefore)

theorem FirstAble.zero {g : Grid Symbol} {rule : Rule} {rules : List Rule}
    {state : Progress} {states : List Progress} {leaf : Leaf} (hleaf : leaf ∈ rule.leaves)
    (hable : rule.able g state leaf = true) :
    FirstAble g 0 (rule :: rules) (state :: states) 0 where
  holds := by
    refine ⟨leaf.under 0, ?_, hable, rfl⟩
    rw [leavesFrom_zero_cons]
    exact List.mem_append_left _ (List.mem_map_of_mem hleaf)
  least := fun _ _ _ _ _ => Nat.zero_le _

theorem length_eq_of_allFitDeeply {states : List Progress} {rules : List Rule}
    (h : Progress.allFitDeeply states rules = true) : rules.length = states.length := by
  induction rules generalizing states with
  | nil =>
      cases states with
      | nil => rfl
      | cons => cases h
  | cons rule rules ih =>
      cases states with
      | nil => cases h
      | cons state states =>
          rw [Progress.allFitDeeply, Bool.and_eq_true] at h
          rw [List.length_cons, List.length_cons, ih h.right]

/-- A rule offers nothing exactly when no leaf is able, and it offers the
candidates of its selected leaves. -/
structure Answers (g : Grid Symbol) (rule : Rule) (progress : Progress) : Prop where
  none_iff : (search g rule progress).1 = none ↔
    forall leaf, leaf ∈ rule.leaves -> rule.able g progress leaf = false
  getD_eq : (search g rule progress).1.getD [] = offers g (rule.selected g progress)

structure AnswersAll (g : Grid Symbol) (rules : List Rule) (states : List Progress) : Prop where
  nil_iff : (searchAll g rules states).1 = [] ↔
    forall leaf, leaf ∈ leavesFrom 0 rules -> ableAmong g 0 rules states leaf = false
  eq : (searchAll g rules states).1 = offers g (selectedAmong g false 0 rules states)

structure AnswersFirst (g : Grid Symbol) (start : Nat) (rules : List Rule)
    (states : List Progress) : Prop where
  none_iff : (searchFirst g start rules states).1 = none ↔
    forall leaf, leaf ∈ leavesFrom 0 rules -> ableAmong g start rules states leaf = false
  eq_of_some : forall index found, (searchFirst g start rules states).1 = some (index, found) ->
    found = offers g (selectedAmong g true start rules states) ∧
      FirstAble g start rules states index

section Answers

variable {g : Grid Symbol} {rule : Rule} {rules : List Rule} {state : Progress}
  {states : List Progress}

theorem offered_eq_none_iff {candidates : List Candidate} :
    Candidate.offered candidates = none ↔ candidates = [] := by
  cases candidates <;> simp [Candidate.offered]

theorem getD_offered (candidates : List Candidate) :
    (Candidate.offered candidates).getD [] = candidates := by
  cases candidates <;> simp [Candidate.offered]

theorem offers_append (first second : List Leaf) :
    offers g (first ++ second) = offers g first ++ offers g second :=
  List.flatMap_append

theorem Answers.nil_iff (h : Answers g rule state) :
    (search g rule state).1.getD [] = [] ↔
      forall leaf, leaf ∈ rule.leaves -> rule.able g state leaf = false := by
  rw [← h.none_iff]
  cases hsearch : (search g rule state).1 with
  | none => simp
  | some found =>
      constructor
      · intro hnil
        rw [Option.getD_some] at hnil
        exact absurd (hnil ▸ hsearch) (search_ne_some_nil g rule state)
      · intro hnone
        cases hnone

theorem AnswersFirst.offers_getD {start : Nat} (h : AnswersFirst g start rules states) :
    ((searchFirst g start rules states).1.map Prod.snd).getD [] =
      offers g (selectedAmong g true start rules states) := by
  cases hsearch : (searchFirst g start rules states).1 with
  | none =>
      rw [selectedAmong, Leaf.select_eq_nil (h.none_iff.mp hsearch)]
      rfl
  | some answer => exact (h.eq_of_some answer.1 answer.2 hsearch).left

/-!
## Each kind of rule
-/

theorem answers_single (clause : Clause) (progress : Progress) :
    Answers g (single clause) progress where
  none_iff := by
    rw [search, offered_eq_none_iff]
    simp [Clause.candidates, leaves, able, live, Leaf.occurs]
  getD_eq := by
    rw [search, getD_offered]
    by_cases hempty : g.occurrences clause.lhs = []
    · simp [offers, selected, Leaf.select, leaves, able, live, Leaf.occurs, hempty,
        Clause.candidates]
    · simp [offers, selected, Leaf.select, leaves, able, live, Leaf.occurs, hempty, overrules]

theorem answers_composite (hlength : rules.length = states.length)
    (h : AnswersAll g rules states) : Answers g (composite rules) (.group states) := by
  have hstates : (Progress.group states).asGroup rules = states := by
    rw [Progress.asGroup, if_pos hlength]
  have hadmits : forall index,
      (composite rules).admits (.group states) index = decide (0 ≤ index) := by
    intro index
    simp [admits]
  constructor
  · rw [search, hstates, offered_eq_none_iff, h.nil_iff]
    exact (forall_able_eq_false_iff hadmits rfl).symm
  · rw [search, hstates, getD_offered, h.eq, selected_eq_selectedAmong hadmits rfl]
    rfl

theorem answers_limited (times fired : UInt32) (h : Answers g rule state) :
    Answers g (limited times rule) (.limited fired state) := by
  have hable : forall leaf,
      (limited times rule).able g (.limited fired state) (leaf.under 0) =
        (decide (fired < times) && rule.able g state leaf) := by
    intro leaf
    exact Bool.and_assoc _ _ _
  have hleaves : (limited times rule).leaves = rule.leaves.map (Leaf.under 0) := by
    rw [leaves]
  by_cases hspent : times ≤ fired
  · have hunable : forall leaf, leaf ∈ (limited times rule).leaves ->
        (limited times rule).able g (.limited fired state) leaf = false := by
      rw [hleaves, List.forall_mem_map]
      intro leaf _
      rw [hable, decide_eq_false (UInt32.not_lt.mpr hspent), Bool.false_and]
    have hnone : (search g (limited times rule) (.limited fired state)).1 = none := by
      rw [search, Progress.asLimited, if_pos hspent]
    refine ⟨iff_of_true hnone hunable, ?_⟩
    rw [hnone, selected, Leaf.select_eq_nil hunable]
    rfl
  · have hinner : (search g (limited times rule) (.limited fired state)).1 =
        (search g rule state).1 := by
      rw [search, Progress.asLimited, if_neg hspent]
      split
      · rename_i heq
        rw [heq]
      · rename_i heq
        rw [heq]
    have hable : forall leaf,
        (limited times rule).able g (.limited fired state) (leaf.under 0) =
          rule.able g state leaf := by
      intro leaf
      rw [hable, decide_eq_true (UInt32.not_le.mp hspent), Bool.true_and]
    constructor
    · rw [hinner, h.none_iff, hleaves, List.forall_mem_map]
      exact forall₂_congr fun leaf _ => by rw [hable]
    · have hselected : (limited times rule).selected g (.limited fired state) =
          (rule.selected g state).map (Leaf.under 0) := by
        rw [selected, hleaves]
        exact Leaf.select_map (Leaf.under 0) (fun leaf _ => hable leaf) (fun _ _ _ _ _ => rfl)
      rw [hinner, h.getD_eq, hselected, offers_map_under]

theorem answers_sequential (cursor : Nat) (hlength : rules.length = states.length)
    (h : AnswersFirst g cursor rules states) :
    Answers g (sequential rules) (.sequential cursor states) := by
  have hstate : (Progress.sequential cursor states).asSequential rules = (cursor, states) := by
    rw [Progress.asSequential, if_pos hlength]
  have hadmits : forall index,
      (sequential rules).admits (.sequential cursor states) index = decide (cursor ≤ index) :=
    fun _ => rfl
  have hanswer : (search g (sequential rules) (.sequential cursor states)).1 =
      (searchFirst g cursor rules states).1.map Prod.snd := by
    rw [search, hstate]
    split
    · rename_i heq
      rw [heq]
      rfl
    · rename_i heq
      rw [heq]
      rfl
  constructor
  · rw [hanswer, Option.map_eq_none_iff, h.none_iff]
    exact (forall_able_eq_false_iff hadmits rfl).symm
  · rw [hanswer, h.offers_getD, selected_eq_selectedAmong hadmits rfl]
    rfl

theorem answers_markov (hlength : rules.length = states.length)
    (h : AnswersFirst g 0 rules states) : Answers g (markov rules) (.group states) := by
  have hstates : (Progress.group states).asGroup rules = states := by
    rw [Progress.asGroup, if_pos hlength]
  have hadmits : forall index,
      (markov rules).admits (.group states) index = decide (0 ≤ index) := by
    intro index
    simp [admits]
  constructor
  · rw [search, hstates, Option.map_eq_none_iff, h.none_iff]
    exact (forall_able_eq_false_iff hadmits rfl).symm
  · rw [search, hstates, h.offers_getD, selected_eq_selectedAmong hadmits rfl]
    rfl

/-!
## Several rules
-/

theorem answersAll_nil : AnswersAll g [] [] where
  nil_iff := by
    refine iff_of_true rfl ?_
    intro leaf hleaf
    cases hleaf
  eq := rfl

theorem answersAll_cons (hfirst : Answers g rule state) (hrest : AnswersAll g rules states) :
    AnswersAll g (rule :: rules) (state :: states) where
  nil_iff := by
    rw [searchAll, List.append_eq_nil_iff, hfirst.nil_iff, hrest.nil_iff, forall_leavesFrom_cons]
    simp only [ableAmong_zero_under, ableAmong_zero_next]
  eq := by
    rw [searchAll, hfirst.getD_eq, hrest.eq, selectedAmong_zero_cons, offers_append,
      offers_map_under, Bool.false_and, if_neg Bool.false_ne_true, offers_map_next]

theorem answersFirst_nil (start : Nat) : AnswersFirst g start [] [] where
  none_iff := by
    refine iff_of_true ?_ ?_
    · cases start <;> rfl
    · intro leaf hleaf
      cases hleaf
  eq_of_some := by
    intro index found h
    cases start <;> cases h

theorem answersFirst_skip {start : Nat} (hrest : AnswersFirst g start rules states) :
    AnswersFirst g (start + 1) (rule :: rules) (state :: states) where
  none_iff := by
    rw [searchFirst, Option.map_eq_none_iff, hrest.none_iff, forall_leavesFrom_cons]
    simp only [ableAmong_succ_under, ableAmong_succ_next, implies_true, true_and]
  eq_of_some := by
    intro index found h
    rw [searchFirst] at h
    rcases Option.map_eq_some_iff.mp h with ⟨⟨before, found'⟩, hsome, heq⟩
    cases heq
    rcases hrest.eq_of_some before _ hsome with ⟨hfound, hfirst⟩
    refine ⟨?_, hfirst.next ?_ ?_⟩
    · rw [hfound, selectedAmong_succ_cons, offers_map_next]
    · exact fun leaf _ => ableAmong_succ_under g start rule rules state states leaf
    · exact ableAmong_succ_next g start rule rules state states

theorem answersFirst_cons_of_none (hfirst : Answers g rule state)
    (hrest : AnswersFirst g 0 rules states) (hnone : (search g rule state).1 = none) :
    AnswersFirst g 0 (rule :: rules) (state :: states) := by
  have hunable := hfirst.none_iff.mp hnone
  have hany : rule.leaves.any (rule.able g state) = false := by
    rw [List.any_eq_false]
    intro leaf hleaf hable
    rw [hunable leaf hleaf] at hable
    cases hable
  have hselected : rule.selected g state = [] := Leaf.select_eq_nil hunable
  cases hsearch : search g rule state with
  | mk answer after =>
      rw [hsearch] at hnone
      subst hnone
      constructor
      · rw [searchFirst, hsearch, Option.map_eq_none_iff, hrest.none_iff,
          forall_leavesFrom_cons]
        simp only [ableAmong_zero_under, ableAmong_zero_next]
        exact ⟨fun h => ⟨hunable, h⟩, fun h => h.right⟩
      · intro index found h
        rw [searchFirst, hsearch] at h
        rcases Option.map_eq_some_iff.mp h with ⟨⟨before, found'⟩, hsome, heq⟩
        cases heq
        rcases hrest.eq_of_some before _ hsome with ⟨hfound, hleast⟩
        refine ⟨?_, hleast.next hunable ?_⟩
        · rw [hfound, selectedAmong_zero_cons, hany, hselected, List.map_nil, List.nil_append,
            Bool.and_false, if_neg Bool.false_ne_true, offers_map_next]
        · exact ableAmong_zero_next g rule rules state states

theorem answersFirst_cons_of_some (hfirst : Answers g rule state) {found : List Candidate}
    (hsome : (search g rule state).1 = some found) :
    AnswersFirst g 0 (rule :: rules) (state :: states) := by
  have hany : rule.leaves.any (rule.able g state) = true := by
    apply Bool.of_not_eq_false
    intro hnone
    have hunable : forall leaf, leaf ∈ rule.leaves -> rule.able g state leaf = false := by
      intro leaf hleaf
      exact Bool.eq_false_iff.mpr (List.any_eq_false.mp hnone leaf hleaf)
    rw [hfirst.none_iff.mpr hunable] at hsome
    cases hsome
  have hgetD := hfirst.getD_eq
  rw [hsome, Option.getD_some] at hgetD
  rcases List.any_eq_true.mp hany with ⟨leaf, hleaf, hable⟩
  cases hsearch : search g rule state with
  | mk answer after =>
      rw [hsearch] at hsome
      subst hsome
      constructor
      · rw [searchFirst, hsearch]
        refine iff_of_false (fun h => by cases h) ?_
        rw [forall_leavesFrom_cons]
        intro h
        have hunable := h.left leaf hleaf
        rw [ableAmong_zero_under, hable] at hunable
        cases hunable
      · intro index found' h
        rw [searchFirst, hsearch] at h
        cases h
        refine ⟨?_, FirstAble.zero hleaf hable⟩
        rw [hgetD, selectedAmong_zero_cons, hany, Bool.and_true, if_pos rfl, List.append_nil,
          offers_map_under]

theorem answersFirst_cons (hfirst : Answers g rule state)
    (hrest : AnswersFirst g 0 rules states) :
    AnswersFirst g 0 (rule :: rules) (state :: states) := by
  cases hanswer : (search g rule state).1 with
  | none => exact answersFirst_cons_of_none hfirst hrest hanswer
  | some found => exact answersFirst_cons_of_some hfirst hanswer

end Answers

/-!
## All rules
-/

mutual

theorem answers (g : Grid Symbol) :
    (rule : Rule) -> (progress : Progress) -> progress.fitsDeeply rule = true ->
      Answers g rule progress
  | single clause, progress, _ => answers_single clause progress
  | composite rules, .group states, h =>
      answers_composite (length_eq_of_allFitDeeply h) (answersAll g rules states h)
  | limited times rule, .limited fired inner, h =>
      answers_limited times fired (answers g rule inner h)
  | sequential rules, .sequential cursor states, h =>
      answers_sequential cursor (length_eq_of_allFitDeeply h)
        (answersFirst g cursor rules states h)
  | markov rules, .group states, h =>
      answers_markov (length_eq_of_allFitDeeply h) (answersFirst g 0 rules states h)

theorem answersAll (g : Grid Symbol) :
    (rules : List Rule) -> (states : List Progress) ->
      Progress.allFitDeeply states rules = true -> AnswersAll g rules states
  | [], [], _ => answersAll_nil
  | rule :: rules, state :: states, h =>
      answersAll_cons (answers g rule state (Bool.and_eq_true_iff.mp h).left)
        (answersAll g rules states (Bool.and_eq_true_iff.mp h).right)

theorem answersFirst (g : Grid Symbol) :
    (start : Nat) -> (rules : List Rule) -> (states : List Progress) ->
      Progress.allFitDeeply states rules = true -> AnswersFirst g start rules states
  | start, [], [], _ => answersFirst_nil start
  | start + 1, _ :: rules, _ :: states, h =>
      answersFirst_skip (answersFirst g start rules states (Bool.and_eq_true_iff.mp h).right)
  | 0, rule :: rules, state :: states, h =>
      answersFirst_cons (answers g rule state (Bool.and_eq_true_iff.mp h).left)
        (answersFirst g 0 rules states (Bool.and_eq_true_iff.mp h).right)

end

end Rule

namespace Progress

/-!
# Rule sets

A rule set is searched like rules that are tried in order, once its progress is
known to fit.
-/

theorem fits_of_fitsDeeply {progress : Progress} {rule : Rule}
    (h : progress.fitsDeeply rule = true) : progress.fits rule = true := by
  cases rule with
  | single clause =>
      cases progress with
      | leaf => rfl
      | _ => cases h
  | composite rules =>
      cases progress with
      | group states => exact beq_iff_eq.mpr (Rule.length_eq_of_allFitDeeply h)
      | _ => cases h
  | limited times rule =>
      cases progress with
      | limited fired inner => rfl
      | _ => cases h
  | sequential rules =>
      cases progress with
      | sequential cursor states => exact beq_iff_eq.mpr (Rule.length_eq_of_allFitDeeply h)
      | _ => cases h
  | markov rules =>
      cases progress with
      | group states => exact beq_iff_eq.mpr (Rule.length_eq_of_allFitDeeply h)
      | _ => cases h

theorem all_fit_of_allFitDeeply {states : List Progress} {rules : List Rule}
    (h : allFitDeeply states rules = true) :
    (states.zip rules).all (fun entry => entry.1.fits entry.2) = true := by
  induction rules generalizing states with
  | nil => rw [List.zip_nil_right, List.all_nil]
  | cons rule rules ih =>
      cases states with
      | nil => rfl
      | cons state states =>
          rw [allFitDeeply, Bool.and_eq_true] at h
          rw [List.zip_cons_cons, List.all_cons, fits_of_fitsDeeply h.left, ih h.right,
            Bool.and_true]

end Progress

namespace RuleSet

theorem orFresh_of_allFitDeeply {set : RuleSet} {progress : List Progress}
    (h : Progress.allFitDeeply progress set.rules = true) : set.orFresh progress = progress := by
  have hlength : (progress.length == set.size) = true :=
    beq_iff_eq.mpr (Rule.length_eq_of_allFitDeeply h).symm
  rw [orFresh, fits, hlength, Progress.all_fit_of_allFitDeeply h]
  rfl

theorem able_eq_ableAmong (set : RuleSet) (g : Grid Symbol) (progress : List Progress)
    (leaf : Leaf) : set.able g progress leaf = Rule.ableAmong g 0 set.rules progress leaf := by
  rw [able, Rule.ableAmong]
  cases hpath : leaf.path <;> simp [Rule.liveAmong]

/-- The answer of a rule set, read off its leaves and the progress before the
search.  Nothing is offered when no leaf is able.  Otherwise the answer names the
first top-level rule with an able leaf and lists the occurrences of the left sides
of all selected leaves, each with the cells of the right side. -/
theorem candidates_exact (set : RuleSet) (g : Grid Symbol) (progress : List Progress)
    (hfits : Progress.allFitDeeply progress set.rules = true) :
    ((set.candidates g progress).1 = none ↔
      forall leaf, leaf ∈ set.leaves -> set.able g progress leaf = false) ∧
    (forall index found, (set.candidates g progress).1 = some (index, found) ->
      (exists leaf, leaf ∈ set.leaves ∧ set.able g progress leaf = true ∧
        leaf.path.head? = some index) ∧
      (forall leaf other, leaf ∈ set.leaves -> set.able g progress leaf = true ->
        leaf.path.head? = some other -> index ≤ other) ∧
      found = (set.selected g progress).flatMap fun leaf =>
        (g.occurrences leaf.clause.lhs).map fun target =>
          { target := target
            replacement := leaf.clause.rhs.cells.toList }) ∧
    forall index, (set.candidates g progress).1 ≠ some (index, []) := by
  have hanswers := Rule.answersFirst g 0 set.rules progress hfits
  have hable : set.able g progress = Rule.ableAmong g 0 set.rules progress :=
    funext (set.able_eq_ableAmong g progress)
  have hselected : set.selected g progress = Rule.selectedAmong g true 0 set.rules progress := by
    rw [selected, hable]
    rfl
  refine ⟨?_, ?_, set.candidates_ne_nil g progress⟩
  · rw [candidates, orFresh_of_allFitDeeply hfits, hanswers.none_iff, hable]
    rfl
  · intro index found h
    rw [candidates, orFresh_of_allFitDeeply hfits] at h
    rcases hanswers.eq_of_some index found h with ⟨hfound, hfirst⟩
    rw [hable, hselected]
    exact ⟨hfirst.holds, hfirst.least, hfound⟩

/-!
## A spent rule

The first rule is limited and has fired as often as it may, so the pooled rules
after it are searched and the last rule is not.
-/

def dot (symbol : Symbol) : Grid Symbol where
  edges := [1]
  cells := #[symbol]
  edges_ne_nil := by decide
  zero_not_mem := by decide
  size_eq := rfl
  addressable := by decide

theorem size_dot (before after : Symbol) : (dot before).size = (dot after).size := rfl

def pair (first second : Symbol) : Grid Symbol where
  edges := [2]
  cells := #[first, second]
  edges_ne_nil := by decide
  zero_not_mem := by decide
  size_eq := rfl
  addressable := by decide

def repaint (before after : Symbol) : Rule :=
  .single
    { lhs := dot before
      rhs := dot after
      size_eq := size_dot before after }

def painter : RuleSet where
  rules :=
    [ .markov
        [ .limited 1 (repaint .black .white),
          .composite [repaint .white .red, repaint .black .red],
          repaint .black .blue ] ]

def painterSpent : List Progress :=
  [.group [.limited 1 .leaf, .group [.leaf, .leaf], .leaf]]

theorem candidates_exact_painter :
    Progress.allFitDeeply painterSpent painter.rules = true ∧
      (painter.candidates (pair .black .white) painterSpent).1 ≠ none ∧
      forall index found,
        (painter.candidates (pair .black .white) painterSpent).1 = some (index, found) ->
          found =
            [ { target := [1], replacement := [.red] },
              { target := [0], replacement := [.red] } ] := by
  have hexact := candidates_exact painter (pair .black .white) painterSpent (by decide)
  refine ⟨by decide, ?_, ?_⟩
  · intro hnone
    have hunable := hexact.left.mp hnone
    revert hunable
    decide
  · intro index found hsome
    rw [(hexact.right.left index found hsome).right.right]
    decide

end RuleSet
end GridRules
