import GridRules.Proofs.Visits

/-!
# Sequential rules only go forward

A sequential rule is searched again and again, on one grid after the other.  Its cursor
names the part that it has come to.  Parts behind the cursor are done with, and a search
that finds nothing puts the cursor behind the last part.

## Main statements

The parts that supply the candidates of one search after the other never go back.  After a
search with candidates the cursor is the part that supplied them.  Parts behind the cursor
are not visited any more and keep their progress.  Once a search has found nothing, no later
search finds anything or changes any progress.
-/

namespace GridRules

namespace Rule

def progressAfter (rule : Rule) (progress : Progress) (grids : List (Grid Symbol)) : Progress :=
  grids.foldl (fun progress g => (search g rule progress).2) progress

theorem progressAfter_append (rule : Rule) (progress : Progress)
    (grids others : List (Grid Symbol)) :
    rule.progressAfter progress (grids ++ others) =
      rule.progressAfter (rule.progressAfter progress grids) others := by
  rw [progressAfter, List.foldl_append]
  rfl

theorem progressAfter_cons (rule : Rule) (progress : Progress) (g : Grid Symbol)
    (grids : List (Grid Symbol)) :
    rule.progressAfter progress (g :: grids) =
      rule.progressAfter (search g rule progress).2 grids := rfl

/-- A search visits the part at a position and answers with what this part offers. -/
def Supplies (g : Grid Symbol) (rule : Rule) (progress : Progress) (index : Nat) : Prop :=
  exists found, { path := [index], answer := some found } ∈ visits g rule progress ∧
    (search g rule progress).1 = some found

/-!
# Before the start
-/

section Start

variable {g : Grid Symbol} {start index : Nat} {rules : List Rule} {states : List Progress}

theorem getElem?_searchFirst_of_lt (h : index < start) :
    (searchFirst g start rules states).2[index]? = states[index]? := by
  induction start, rules, states using searchFirst_induction g generalizing index with
  | nil start states => rw [searchFirst_nil]
  | lacking start rule rules => rw [searchFirst_states_nil]
  | skip start rule rules state states ih =>
      rw [searchFirst_skip]
      cases index with
      | zero => rfl
      | succ index => exact ih (Nat.lt_of_succ_lt_succ h)
  | silent rule rules state states hsilent ih => cases h
  | offer rule rules state states found hoffer => cases h

theorem not_mem_visitsFirst_of_lt (h : index < start) (path : List Nat)
    (answer : Option (List Candidate)) :
    { path := index :: path, answer := answer } ∉ visitsFirst g start rules states := by
  induction start, rules, states using searchFirst_induction g generalizing index with
  | nil start states =>
      rw [visitsFirst_nil]
      exact List.not_mem_nil
  | lacking start rule rules =>
      rw [visitsFirst_states_nil]
      exact List.not_mem_nil
  | skip start rule rules state states ih =>
      rw [visitsFirst_skip]
      cases index with
      | zero => exact Visit.zero_not_mem_map_next
      | succ index =>
          rw [Visit.succ_mem_map_next_iff]
          exact ih (Nat.lt_of_succ_lt_succ h)
  | silent rule rules state states hsilent ih => cases h
  | offer rule rules state states found hoffer => cases h

theorem single_mem_visitsFirst_iff {found : List Candidate} :
    { path := [index], answer := some found } ∈ visitsFirst g start rules states ↔
      (searchFirst g start rules states).1 = some (index, found) := by
  have own : forall rule state,
      ({ path := [], answer := some found } ∈ visits g rule state ↔
        some found = (search g rule state).1) := fun _ _ => top_mem_visits_iff
  induction start, rules, states using searchFirst_induction g generalizing index with
  | nil start states =>
      rw [visitsFirst_nil, searchFirst_nil]
      simp
  | lacking start rule rules =>
      rw [visitsFirst_states_nil, searchFirst_states_nil]
      simp
  | skip start rule rules state states ih =>
      rw [visitsFirst_skip, searchFirst_skip]
      cases index with
      | zero => simp [Visit.zero_not_mem_map_next]
      | succ index =>
          rw [Visit.succ_mem_map_next_iff]
          refine Iff.trans ih ?_
          simp
  | silent rule rules state states hsilent ih =>
      rw [visitsFirst_of_none rules states hsilent, searchFirst_of_none rules states hsilent,
        List.mem_append, Visit.mem_map_under_iff, own, hsilent]
      cases index with
      | zero => simp [Visit.zero_not_mem_map_next]
      | succ index =>
          rw [Visit.succ_mem_map_next_iff]
          refine (or_iff_right fun h => by cases h.left).trans (Iff.trans ih ?_)
          simp
  | offer rule rules state states found' hoffer =>
      rw [visitsFirst_of_some rules states hoffer, searchFirst_of_some rules states hoffer,
        Visit.mem_map_under_iff, own, hoffer]
      cases index with
      | zero => simp [eq_comm]
      | succ index => simp

end Start

/-!
# Standing at a cursor
-/

/-- The progress is that of a sequential rule with the given parts, and its cursor is not
past the end. -/
structure Stands (rules : List Rule) (progress : Progress) (cursor : Nat) : Prop where
  fits : progress.fits (sequential rules) = true
  cursor_eq : progress.cursor? = some cursor
  cursor_le : cursor ≤ rules.length

/-- From one progress to a later one, the cursor does not go back, and the parts behind the
earlier cursor keep their progress. -/
structure Forward (rules : List Rule) (earlier : Progress) (cursor : Nat) (later : Progress)
    (cursor' : Nat) : Prop where
  stands : Stands rules later cursor'
  cursor_le : cursor ≤ cursor'
  kept : forall index, index < cursor -> later.children[index]? = earlier.children[index]?

section Stands

variable {g : Grid Symbol} {rules : List Rule} {progress : Progress} {cursor index : Nat}

theorem stands_sequential {states : List Progress} (hlength : rules.length = states.length)
    (hcursor : cursor ≤ rules.length) : Stands rules (.sequential cursor states) cursor where
  fits := beq_iff_eq.mpr hlength
  cursor_eq := rfl
  cursor_le := hcursor

theorem Stands.exists_eq (h : Stands rules progress cursor) :
    exists states, progress = .sequential cursor states ∧ rules.length = states.length := by
  rcases h with ⟨hfits, hcursor, _⟩
  cases progress with
  | sequential cursor' states =>
      cases hcursor
      exact ⟨states, rfl, beq_iff_eq.mp hfits⟩
  | _ => cases hcursor

theorem Forward.refl (h : Stands rules progress cursor) :
    Forward rules progress cursor progress cursor where
  stands := h
  cursor_le := Nat.le_refl cursor
  kept := fun _ _ => rfl

theorem Forward.trans {second third : Progress} {cursor' cursor'' : Nat}
    (h : Forward rules progress cursor second cursor')
    (h' : Forward rules second cursor' third cursor'') :
    Forward rules progress cursor third cursor'' where
  stands := h'.stands
  cursor_le := Nat.le_trans h.cursor_le h'.cursor_le
  kept := fun index hindex =>
    (h'.kept index (Nat.lt_of_lt_of_le hindex h.cursor_le)).trans (h.kept index hindex)

/-!
# One search
-/

theorem mem_visits_sequential_iff {states : List Progress} {path : List Nat}
    {answer : Option (List Candidate)} (hlength : rules.length = states.length) :
    { path := index :: path, answer := answer } ∈
        visits g (sequential rules) (.sequential cursor states) ↔
      { path := index :: path, answer := answer } ∈ visitsFirst g cursor rules states := by
  have hvisits := visits_sequential g rules (.sequential cursor states)
  rw [Progress.asSequential_sequential cursor hlength] at hvisits
  exact mem_visits_iff_of_eq hvisits path answer

/-- A part supplies the candidates when it is the first one from the cursor on with
something to offer, and then the cursor moves there. -/
theorem Stands.of_supplies (h : Stands rules progress cursor)
    (hsupplies : Supplies g (sequential rules) progress index) :
    (search g (sequential rules) progress).2.cursor? = some index ∧ cursor ≤ index ∧
      forall other, Supplies g (sequential rules) progress other -> other = index := by
  rcases h.exists_eq with ⟨states, rfl, hlength⟩
  have answers : forall other, Supplies g (sequential rules) (.sequential cursor states) other ->
      exists found, (searchFirst g cursor rules states).1 = some (other, found) := by
    rintro other ⟨found, hvisit, _⟩
    rw [mem_visits_sequential_iff hlength, single_mem_visitsFirst_iff] at hvisit
    exact ⟨found, hvisit⟩
  rcases answers index hsupplies with ⟨found, hanswer⟩
  refine ⟨?_, (exists_of_searchFirst_eq_some hanswer).left, ?_⟩
  · rw [search_sequential_sequential g cursor hlength, hanswer]
    rfl
  · intro other hother
    rcases answers other hother with ⟨found', hanswer'⟩
    cases hanswer.symm.trans hanswer'
    rfl

theorem Stands.exists_supplies (h : Stands rules progress cursor) {found : List Candidate}
    (hfound : (search g (sequential rules) progress).1 = some found) :
    exists index, Supplies g (sequential rules) progress index := by
  rcases h.exists_eq with ⟨states, rfl, hlength⟩
  have hanswer := hfound
  rw [search_sequential_sequential g cursor hlength] at hanswer
  rcases Option.map_eq_some_iff.mp hanswer with ⟨⟨index, found'⟩, hfirst, rfl⟩
  refine ⟨index, found', ?_, hfound⟩
  exact (mem_visits_sequential_iff hlength).mpr (single_mem_visitsFirst_iff.mpr hfirst)

theorem Stands.not_mem_visits (h : Stands rules progress cursor) (hindex : index < cursor)
    (g : Grid Symbol) (path : List Nat) (answer : Option (List Candidate)) :
    { path := index :: path, answer := answer } ∉ visits g (sequential rules) progress := by
  rcases h.exists_eq with ⟨states, rfl, hlength⟩
  rw [mem_visits_sequential_iff hlength]
  exact not_mem_visitsFirst_of_lt hindex path answer

theorem Stands.exists_forward_search (h : Stands rules progress cursor) (g : Grid Symbol) :
    exists later,
      Forward rules progress cursor (search g (sequential rules) progress).2 later := by
  rcases h.exists_eq with ⟨states, rfl, hlength⟩
  have hsearch := search_sequential_sequential g cursor hlength
  have hchildren := children_search_sequential g cursor hlength
  have hfits := fits_search g (sequential rules) (.sequential cursor states)
  have hkept : forall index, index < cursor ->
      (search g (sequential rules) (.sequential cursor states)).2.children[index]? =
        states[index]? := by
    intro index hindex
    rw [hchildren, getElem?_searchFirst_of_lt hindex]
  cases hfirst : (searchFirst g cursor rules states).1 with
  | none =>
      have hcursor : (search g (sequential rules) (.sequential cursor states)).2.cursor? =
          some rules.length := by
        rw [hsearch, hfirst]
        rfl
      exact ⟨rules.length, ⟨hfits, hcursor, Nat.le_refl _⟩, h.cursor_le, hkept⟩
  | some answer =>
      have hcursor : (search g (sequential rules) (.sequential cursor states)).2.cursor? =
          some answer.1 := by
        rw [hsearch, hfirst]
        rfl
      rcases exists_of_searchFirst_eq_some hfirst with ⟨hle, rule, _, hrule, _, _⟩
      have hlt := (List.getElem?_eq_some_iff.mp hrule).1
      exact ⟨answer.1, ⟨hfits, hcursor, Nat.le_of_lt hlt⟩, hle, hkept⟩

theorem Stands.ended (h : Stands rules progress cursor)
    (hnone : (search g (sequential rules) progress).1 = none) :
    Stands rules (search g (sequential rules) progress).2 rules.length := by
  rcases h.exists_eq with ⟨states, rfl, hlength⟩
  rw [search_sequential_sequential g cursor hlength] at hnone
  refine ⟨fits_search g (sequential rules) (.sequential cursor states), ?_, Nat.le_refl _⟩
  rw [search_sequential_sequential g cursor hlength, Option.map_eq_none_iff.mp hnone]
  rfl

theorem Stands.search_of_ended (h : Stands rules progress rules.length) (g : Grid Symbol) :
    search g (sequential rules) progress = (none, progress) := by
  rcases h.exists_eq with ⟨states, rfl, hlength⟩
  have hpast := searchFirst_of_length_le g states (Nat.le_refl rules.length)
  rw [search_sequential_sequential g rules.length hlength, hpast]
  rfl

/-!
# Many searches
-/

theorem Stands.exists_forward (h : Stands rules progress cursor) (grids : List (Grid Symbol)) :
    exists later,
      Forward rules progress cursor ((sequential rules).progressAfter progress grids) later := by
  induction grids generalizing progress cursor with
  | nil => exact ⟨cursor, Forward.refl h⟩
  | cons g grids ih =>
      rcases h.exists_forward_search g with ⟨middle, hfirst⟩
      rcases ih hfirst.stands with ⟨later, hrest⟩
      exact ⟨later, hfirst.trans hrest⟩

theorem Stands.progressAfter_of_ended (h : Stands rules progress rules.length)
    (grids : List (Grid Symbol)) :
    (sequential rules).progressAfter progress grids = progress := by
  induction grids with
  | nil => rfl
  | cons g grids ih => rw [progressAfter_cons, h.search_of_ended g, ih]

theorem Stands.le_of_supplies {g' : Grid Symbol} {between : List (Grid Symbol)}
    {first second : Nat} (h : Stands rules progress cursor)
    (hfirst : Supplies g (sequential rules) progress first)
    (hsecond : Supplies g' (sequential rules)
      ((sequential rules).progressAfter progress (g :: between)) second) : first ≤ second := by
  rcases h.exists_forward_search g with ⟨middle, hsearch⟩
  rcases hsearch.stands.exists_forward between with ⟨cursor', hforward⟩
  have hmiddle := hsearch.stands.cursor_eq
  rw [(h.of_supplies hfirst).left] at hmiddle
  cases hmiddle
  exact Nat.le_trans hforward.cursor_le (hforward.stands.of_supplies hsecond).right.left

theorem Stands.untouched (h : Stands rules progress cursor) (hindex : index < cursor)
    (between : List (Grid Symbol)) :
    ((sequential rules).progressAfter progress between).children[index]? =
        progress.children[index]? ∧
      forall g path answer, { path := index :: path, answer := answer } ∉
        visits g (sequential rules) ((sequential rules).progressAfter progress between) := by
  rcases h.exists_forward between with ⟨cursor', hforward⟩
  exact ⟨hforward.kept index hindex,
    hforward.stands.not_mem_visits (Nat.lt_of_lt_of_le hindex hforward.cursor_le)⟩

theorem Stands.search_after_end (h : Stands rules progress cursor)
    (hnone : (search g (sequential rules) progress).1 = none) (between : List (Grid Symbol))
    (g' : Grid Symbol) :
    search g' (sequential rules) ((sequential rules).progressAfter progress (g :: between)) =
      (none, (search g (sequential rules) progress).2) := by
  have hended := h.ended hnone
  rw [progressAfter_cons, hended.progressAfter_of_ended, hended.search_of_ended g']

end Stands

/-- A sequential rule never goes back, on any sequence of grids.  Candidates come from one
part, which the cursor names afterwards, and the parts that supply them in two searches are
in order.  Parts behind the cursor are not searched and keep their progress from then on.
After a search that found nothing, every search finds nothing and leaves all progress as
this search left it. -/
theorem sequential_never_goes_back (rules : List Rule) (start : Nat) (states : List Progress)
    (hlength : rules.length = states.length) (hstart : start ≤ rules.length) :
    let after := (sequential rules).progressAfter (.sequential start states)
    (forall earlier g found, (search g (sequential rules) (after earlier)).1 = some found ->
      exists index, (after (earlier ++ [g])).cursor? = some index ∧
        forall other, Supplies g (sequential rules) (after earlier) other ↔ other = index) ∧
    (forall earlier g between g' first second,
      Supplies g (sequential rules) (after earlier) first ->
        Supplies g' (sequential rules) (after (earlier ++ g :: between)) second ->
          first ≤ second) ∧
    (forall earlier, exists cursor, (after earlier).cursor? = some cursor ∧
      forall index, index < cursor -> forall between,
        (after (earlier ++ between)).children[index]? = (after earlier).children[index]? ∧
        forall g path answer,
          { path := index :: path, answer := answer } ∉
            visits g (sequential rules) (after (earlier ++ between))) ∧
    (forall earlier g, (search g (sequential rules) (after earlier)).1 = none ->
      forall between g',
        search g' (sequential rules) (after (earlier ++ g :: between)) =
          (none, (search g (sequential rules) (after earlier)).2)) := by
  intro after
  have reached : forall earlier, exists cursor, Stands rules (after earlier) cursor := by
    intro earlier
    rcases (stands_sequential hlength hstart).exists_forward earlier with ⟨cursor, hforward⟩
    exact ⟨cursor, hforward.stands⟩
  have later : forall earlier between, after (earlier ++ between) =
      (sequential rules).progressAfter (after earlier) between :=
    fun earlier between => progressAfter_append _ _ earlier between
  refine ⟨?_, ?_, ?_, ?_⟩
  · intro earlier g found hfound
    rcases reached earlier with ⟨cursor, hstands⟩
    rcases hstands.exists_supplies hfound with ⟨index, hsupplies⟩
    rcases hstands.of_supplies hsupplies with ⟨hcursor, _, hunique⟩
    refine ⟨index, ?_, fun other => ⟨hunique other, fun heq => heq ▸ hsupplies⟩⟩
    rw [later]
    exact hcursor
  · intro earlier g between g' first second hfirst hsecond
    rcases reached earlier with ⟨cursor, hstands⟩
    rw [later] at hsecond
    exact hstands.le_of_supplies hfirst hsecond
  · intro earlier
    rcases reached earlier with ⟨cursor, hstands⟩
    refine ⟨cursor, hstands.cursor_eq, ?_⟩
    intro index hindex between
    rw [later]
    exact hstands.untouched hindex between
  · intro earlier g hnone between g'
    rcases reached earlier with ⟨cursor, hstands⟩
    rw [later]
    exact hstands.search_after_end hnone between g'

/-!
## Two parts in turn

The first part may fire once, so the second search is supplied by the second part.  The
third search finds nothing, and this is the end.
-/

def relay : List Rule :=
  [.limited 1 (RuleSet.repaint .black .white), RuleSet.repaint .white .red]

def relayAfter (grids : List (Grid Symbol)) : Progress :=
  (sequential relay).progressAfter (.sequential 0 [.limited 0 .leaf, .leaf]) grids

theorem sequential_never_goes_back_relay :
    relay.length = [Progress.limited 0 .leaf, .leaf].length ∧ 0 ≤ relay.length ∧
      (forall index, Supplies (RuleSet.pair .black .white) (sequential relay)
        (relayAfter [RuleSet.pair .black .white]) index ↔ index = 1) ∧
      (search (RuleSet.dot .blue) (sequential relay)
        (relayAfter (List.replicate 2 (RuleSet.pair .black .white)))).1 = none ∧
      forall between g,
        (search g (sequential relay)
          (relayAfter (List.replicate 2 (RuleSet.pair .black .white) ++
            RuleSet.dot .blue :: between))).1 = none := by
  have hlength : relay.length = [Progress.limited 0 .leaf, .leaf].length := rfl
  have hstart : 0 ≤ relay.length := Nat.zero_le _
  rcases sequential_never_goes_back relay 0 [.limited 0 .leaf, .leaf] hlength hstart with
    ⟨hsupplied, _, _, hended⟩
  have hfound : (search (RuleSet.pair .black .white) (sequential relay)
      (relayAfter [RuleSet.pair .black .white])).1 =
        some [{ target := [1], replacement := [.red] }] := by decide
  have hnone : (search (RuleSet.dot .blue) (sequential relay)
      (relayAfter (List.replicate 2 (RuleSet.pair .black .white)))).1 = none := by decide
  refine ⟨hlength, hstart, ?_, hnone, ?_⟩
  · rcases hsupplied [RuleSet.pair .black .white] (RuleSet.pair .black .white) _ hfound with
      ⟨index, hcursor, hunique⟩
    have hone : (relayAfter (List.replicate 2 (RuleSet.pair .black .white))).cursor? = some 1 := rfl
    cases hone.symm.trans hcursor
    exact hunique
  · intro between g
    exact congrArg Prod.fst (hended (List.replicate 2 (RuleSet.pair .black .white))
      (RuleSet.dot .blue) hnone between g)

end Rule
end GridRules
