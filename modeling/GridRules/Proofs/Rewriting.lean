import GridRules.Proofs.Rows
import GridRules.Proofs.Steps

/-!
# What a step writes

The mask of a candidate pairs the cells of an occurrence with those of the right
side.  An occurrence holds no index twice, so the mask has one entry for each cell,
and none of them is lost to another.

## Main statements

A step writes one right side over one occurrence of its left side and keeps every
other cell.  A run keeps the shape of the grid, and shows no symbol that is neither
in the first grid nor in a right side.
-/

namespace GridRules

namespace MaskEntries

variable {cell : Type}

theorem length_write {index : Nat} (value : cell) {entries : List (Nat × cell)}
    (h : read? entries index = none) :
    (write index value entries).length = entries.length + 1 := by
  induction entries with
  | nil => rfl
  | cons head rest ih =>
      rw [read?] at h
      split at h
      · cases h
      · rename_i hne
        rw [write]
        split
        · rfl
        · split
          · rename_i heq
            exact absurd heq.symm hne
          · rw [List.length_cons, ih h, List.length_cons]

end MaskEntries

namespace Mask

variable {cell : Type}

/-!
# Masks of several assignments
-/

theorem size_insert (mask : Mask cell) {index : Nat} (value : cell)
    (h : mask.get? index = none) : (mask.insert index value).size = mask.size + 1 :=
  MaskEntries.length_write value h

def insertAll (mask : Mask cell) (pairs : List (Nat × cell)) : Mask cell :=
  pairs.foldl (fun mask pair => mask.insert pair.1 pair.2) mask

theorem ofPairs_eq_insertAll (pairs : List (Nat × cell)) :
    ofPairs pairs = empty.insertAll pairs := rfl

theorem insertAll_cons (mask : Mask cell) (pair : Nat × cell) (pairs : List (Nat × cell)) :
    mask.insertAll (pair :: pairs) = (mask.insert pair.1 pair.2).insertAll pairs := rfl

theorem get?_insertAll_of_not_mem {mask : Mask cell} {pairs : List (Nat × cell)} {index : Nat}
    (h : index ∉ pairs.map Prod.fst) : (mask.insertAll pairs).get? index = mask.get? index := by
  induction pairs generalizing mask with
  | nil => rfl
  | cons pair pairs ih =>
      rw [List.map_cons, List.mem_cons, not_or] at h
      rw [insertAll_cons, ih h.right, get?_insert, if_neg (Ne.symm h.left)]

theorem get?_insertAll_of_mem {mask : Mask cell} {pairs : List (Nat × cell)}
    (hkeys : (pairs.map Prod.fst).Nodup) {pair : Nat × cell} (h : pair ∈ pairs) :
    (mask.insertAll pairs).get? pair.1 = some pair.2 := by
  induction pairs generalizing mask with
  | nil => cases h
  | cons first pairs ih =>
      rw [List.map_cons, List.nodup_cons] at hkeys
      rw [insertAll_cons]
      rcases List.mem_cons.mp h with rfl | hrest
      · rw [get?_insertAll_of_not_mem hkeys.left, get?_insert, if_pos rfl]
      · exact ih hkeys.right hrest

theorem size_insertAll {mask : Mask cell} {pairs : List (Nat × cell)}
    (hkeys : (pairs.map Prod.fst).Nodup)
    (hfree : forall index, index ∈ pairs.map Prod.fst -> mask.get? index = none) :
    (mask.insertAll pairs).size = mask.size + pairs.length := by
  induction pairs generalizing mask with
  | nil => rfl
  | cons pair pairs ih =>
      rw [List.map_cons, List.nodup_cons] at hkeys
      rw [List.map_cons] at hfree
      have hrest : forall index, index ∈ pairs.map Prod.fst ->
          (mask.insert pair.1 pair.2).get? index = none := by
        intro index hindex
        have hne : pair.1 ≠ index := fun heq => hkeys.left (heq ▸ hindex)
        rw [get?_insert, if_neg hne]
        exact hfree index (List.mem_cons_of_mem _ hindex)
      rw [insertAll_cons, ih hkeys.right hrest,
        size_insert mask pair.2 (hfree pair.1 List.mem_cons_self), List.length_cons]
      omega

section Occurrence

variable {found : Occurrence} {replacement : List cell}

theorem size_ofOccurrence (hnodup : found.Nodup) (hlength : found.length = replacement.length) :
    (ofOccurrence found replacement).size = found.length := by
  have hkeys : (found.zip replacement).map Prod.fst = found :=
    List.map_fst_zip (Nat.le_of_eq hlength)
  rw [ofOccurrence, ofPairs_eq_insertAll, size_insertAll (by rwa [hkeys]) (fun _ _ => rfl),
    List.length_zip, ← hlength, Nat.min_self]
  exact Nat.zero_add _

theorem get?_ofOccurrence (hnodup : found.Nodup) (hlength : found.length = replacement.length)
    {position index : Nat} (hindex : found[position]? = some index) :
    (ofOccurrence found replacement).get? index = replacement[position]? := by
  have hkeys : (found.zip replacement).map Prod.fst = found :=
    List.map_fst_zip (Nat.le_of_eq hlength)
  have hposition : position < replacement.length :=
    hlength ▸ (List.getElem?_eq_some_iff.mp hindex).1
  have hvalue := List.getElem?_eq_getElem hposition
  have hpair : (index, replacement[position]) ∈ found.zip replacement :=
    List.mem_of_getElem? (List.getElem?_zip_eq_some.mpr ⟨hindex, hvalue⟩)
  rw [hvalue, ofOccurrence, ofPairs_eq_insertAll]
  exact get?_insertAll_of_mem (by rwa [hkeys]) hpair

theorem get?_ofOccurrence_of_not_mem {index : Nat} (h : index ∉ found) :
    (ofOccurrence found replacement).get? index = none := by
  rw [ofOccurrence, ofPairs_eq_insertAll, get?_insertAll_of_not_mem, get?_empty]
  intro hmem
  rcases List.mem_map.mp hmem with ⟨pair, hpair, rfl⟩
  exact h (List.of_mem_zip hpair).left

end Occurrence

end Mask

namespace Grid

/-!
# Writing a pattern
-/

variable {cell : Type}

/-- The cells of a pattern stand at the indices of an occurrence, in order, and
every other cell is as before. -/
structure Writes (g next : Grid cell) (found : Occurrence) (pattern : Grid cell) : Prop where
  edges_eq : next.edges = g.edges
  length_eq : found.length = pattern.size
  written : forall position index, found[position]? = some index ->
    index < g.size ∧ next.get? index = pattern.get? position
  kept : forall index, index ∉ found -> next.get? index = g.get? index

theorem Writes.mem_cells {g next pattern : Grid cell} {found : Occurrence}
    (h : g.Writes next found pattern) {value : cell} (hvalue : value ∈ next.cells) :
    value ∈ g.cells ∨ value ∈ pattern.cells := by
  rcases Array.mem_iff_getElem?.mp hvalue with ⟨index, hindex⟩
  by_cases hmem : index ∈ found
  · rcases List.mem_iff_getElem?.mp hmem with ⟨position, hposition⟩
    have hwritten := (h.written position index hposition).right
    exact Or.inr (Array.mem_iff_getElem?.mpr ⟨position, hwritten.symm.trans hindex⟩)
  · exact Or.inl (Array.mem_iff_getElem?.mpr ⟨index, (h.kept index hmem).symm.trans hindex⟩)

theorem Writes.size_eq {g next pattern : Grid cell} {found : Occurrence}
    (h : g.Writes next found pattern) : next.size = g.size := by
  rw [size_eq_cellCount, size_eq_cellCount, h.edges_eq]

theorem writes_ofOccurrence {g pattern : Grid cell} {found : Occurrence} (hnodup : found.Nodup)
    (hlength : found.length = pattern.size)
    (hinside : forall index, index ∈ found -> index < g.size) :
    g.Writes (g.overwrite (Mask.ofOccurrence found pattern.cells.toList)) found pattern where
  edges_eq := edges_overwrite g _
  length_eq := hlength
  written := by
    intro position index hindex
    have hlt := hinside index (List.mem_of_getElem? hindex)
    have hcells : found.length = pattern.cells.toList.length := by
      rw [hlength, Array.length_toList]
      rfl
    rcases exists_get? hlt with ⟨value, hvalue⟩
    have hposition : position < pattern.size :=
      hlength ▸ (List.getElem?_eq_some_iff.mp hindex).1
    rcases exists_get? hposition with ⟨new, hnew⟩
    refine ⟨hlt, ?_⟩
    rw [get?_overwrite, hvalue, Mask.get?_ofOccurrence hnodup hcells hindex,
      Array.getElem?_toList]
    rw [get?] at hnew ⊢
    rw [hnew]
    rfl
  kept := by
    intro index hindex
    rw [get?_overwrite, Mask.get?_ofOccurrence_of_not_mem hindex]
    exact Option.map_id'

theorem writes_overwrite [DecidableEq cell] {g lhs rhs : Grid cell} {found : Occurrence}
    (hfound : found ∈ g.occurrences lhs) (hsize : lhs.size = rhs.size) :
    g.Writes (g.overwrite (Mask.ofOccurrence found rhs.cells.toList)) found rhs :=
  writes_ofOccurrence (nodup_of_mem_occurrences hfound)
    ((length_of_mem_occurrences hfound).trans hsize)
    (fun _ => lt_size_of_mem_occurrences hfound)

def holding (g : Grid Symbol) (symbol : Symbol) : Finset Nat :=
  {index ∈ Finset.range g.size | g.get? index = some symbol}

theorem mem_holding_iff {g : Grid Symbol} {symbol : Symbol} {index : Nat} :
    index ∈ g.holding symbol ↔ g.get? index = some symbol := by
  rw [holding, Finset.mem_filter, Finset.mem_range]
  exact and_iff_right_of_imp fun h => (Array.getElem?_eq_some_iff.mp h).1

end Grid

theorem Clause.offered_candidates_eq_none_iff {clause : Clause} {g : Grid Symbol} :
    Candidate.offered (clause.candidates g) = none ↔
      forall found, found ∉ g.occurrences clause.lhs := by
  rw [Rule.offered_eq_none_iff, Clause.candidates, List.map_eq_nil_iff,
    List.eq_nil_iff_forall_not_mem]

theorem Clause.exists_writes {clause : Clause} {g : Grid Symbol} {chosen : Candidate}
    {found : List Candidate} (h : Candidate.offered (clause.candidates g) = some found)
    (hchosen : chosen ∈ found) :
    exists target, target ∈ g.occurrences clause.lhs ∧
      g.Writes (g.overwrite (Mask.ofOccurrence chosen.target chosen.replacement)) target
        clause.rhs := by
  have hfound : clause.candidates g = found := by
    rw [← Rule.getD_offered (clause.candidates g), h, Option.getD_some]
  rw [← hfound] at hchosen
  rcases List.mem_map.mp hchosen with ⟨target, htarget, rfl⟩
  exact ⟨target, htarget, Grid.writes_overwrite htarget clause.size_eq⟩

namespace Engine

variable {source : Type} [Picker source] {engine after : Engine source} {g next : Grid Symbol}

/-!
# One step of one clause
-/

theorem advance_of_candidates {index : Nat} {found : List Candidate} {progress : List Progress}
    (h : engine.rules.candidates g engine.progress = (some (index, found), progress)) :
    exists chosen, chosen ∈ found ∧ (engine.advance g).1 =
      .advanced (g.overwrite (Mask.ofOccurrence chosen.target chosen.replacement)) := by
  have hne : found ≠ [] := by
    intro hnil
    exact engine.rules.candidates_ne_nil g engine.progress index (by rw [h, hnil])
  rcases Picker.pick_of_ne_nil engine.generator hne with ⟨position, chosen, hpick, hget⟩
  refine ⟨chosen, List.mem_of_getElem? hget, ?_⟩
  have hpair : Picker.pick engine.generator found =
      (some (position, chosen), (Picker.pick engine.generator found).2) := by
    rw [← hpick]
  rw [advance, RuleSet.choose, h]
  simp only
  rw [hpair]

theorem advance_of_no_candidates {progress : List Progress}
    (h : engine.rules.candidates g engine.progress = (none, progress)) :
    (engine.advance g).1 = .fixedPoint := by
  rw [advance, RuleSet.choose, h]

theorem exists_writes_advance {clause : Clause} {index : Nat} {found : List Candidate}
    {progress : List Progress} (hoffered : Candidate.offered (clause.candidates g) = some found)
    (hcandidates : engine.rules.candidates g engine.progress = (some (index, found), progress)) :
    exists target next, (engine.advance g).1 = .advanced next ∧
      target ∈ g.occurrences clause.lhs ∧ g.Writes next target clause.rhs := by
  rcases advance_of_candidates hcandidates with ⟨chosen, hchosen, hadvance⟩
  rcases Clause.exists_writes hoffered hchosen with ⟨target, htarget, hwrites⟩
  exact ⟨target, _, hadvance, htarget, hwrites⟩

theorem exists_dot_advance {set : RuleSet} {clause : Clause} {symbol : Symbol} {index : Nat}
    {progress fired : List Progress} (hrules : engine.rules = set)
    (hprogress : engine.progress = progress) (hsteps : engine.steps = 0)
    (hlhs : clause.lhs = RuleSet.dot symbol)
    (hall : forall position content, g.get? position = some content -> content = symbol)
    (hcandidates : forall {found}, Candidate.offered (clause.candidates g) = some found ->
      set.candidates g progress = (some (index, found), fired)) :
    exists root next after, engine.advance g = (.advanced next, after) ∧ after.rules = set ∧
      after.progress = fired ∧ after.steps = 1 ∧ g.get? root = some symbol ∧
        g.Writes next [root] clause.rhs := by
  subst hrules hprogress
  have hdot : (RuleSet.dot symbol).edges = [1] := rfl
  have hoccurs : [0] ∈ g.occurrences clause.lhs := by
    rcases Grid.exists_get? g.size_pos with ⟨content, hcontent⟩
    rw [hlhs]
    refine (Grid.mem_occurrences_dot_iff hdot).mpr ⟨0, rfl, g.size_pos, ?_⟩
    rw [hcontent, hall 0 content hcontent]
    rfl
  cases hoffered : Candidate.offered (clause.candidates g) with
  | none => exact absurd hoccurs (Clause.offered_candidates_eq_none_iff.mp hoffered [0])
  | some found =>
      rcases exists_writes_advance hoffered (hcandidates hoffered) with
        ⟨target, next, hstep, htarget, hwrites⟩
      rw [hlhs] at htarget
      rcases (Grid.mem_occurrences_dot_iff hdot).mp htarget with ⟨root, rfl, _, hroot⟩
      have hfired := progress_advance engine g
      rcases hadvance : engine.advance g with ⟨step, after⟩
      rw [hadvance] at hstep hfired
      cases hstep
      refine ⟨root, next, after, rfl, rules_of_advance hadvance, ?_, ?_, hroot, hwrites⟩
      · rw [hfired, hcandidates hoffered]
      · rw [steps_advance_of_advanced hadvance, hsteps]

/-!
# Steps and runs
-/

/-- A step rewrites one occurrence of the left side of a leaf.  Its mask assigns a
value to each cell of the occurrence and to nothing else. -/
structure Rewrites (engine : Engine source) (g next : Grid Symbol) (leaf : Leaf)
    (found : Occurrence) (mask : Mask Symbol) : Prop where
  leaf_mem : leaf ∈ engine.rules.leaves
  found_mem : found ∈ g.occurrences leaf.clause.lhs
  writes : g.Writes next found leaf.clause.rhs
  chosen : (engine.rules.choose g engine.progress engine.generator).1 = some mask
  next_eq : next = g.overwrite mask
  size_mask : mask.size = leaf.clause.lhs.size

theorem exists_rewrites (h : engine.advance g = (.advanced next, after)) :
    exists leaf found mask, engine.Rewrites g next leaf found mask := by
  cases happlied : engine.applied? g with
  | none =>
      rw [advance_of_none happlied] at h
      cases h
  | some proposal =>
      rw [advance_of_some happlied] at h
      cases h
      rcases Option.map_eq_some_iff.mp happlied with ⟨⟨index, chosen⟩, hpick, rfl⟩
      rcases RuleSet.mem_proposals (mem_proposals_of_applied? happlied) with
        ⟨hleaf, hcandidate⟩
      rcases List.mem_map.mp hcandidate with ⟨found, hfound, hcandidateEq⟩
      have hlength := Grid.length_of_mem_occurrences hfound
      have hsize := chosen.leaf.clause.size_eq
      refine ⟨chosen.leaf, found, _, hleaf, hfound, ?_, ?_, rfl, ?_⟩
      · rw [Proposal.rewrite, ← hcandidateEq]
        exact Grid.writes_overwrite hfound hsize
      · rw [RuleSet.choose_eq]
        exact Option.map_eq_some_iff.mpr ⟨_, hpick, rfl⟩
      · rw [← hcandidateEq, Mask.size_ofOccurrence (Grid.nodup_of_mem_occurrences hfound), hlength]
        rw [hlength, hsize, Array.length_toList]
        rfl

/-- A symbol that the rules may write. -/
def Paints (set : RuleSet) (symbol : Symbol) : Prop :=
  exists leaf, leaf ∈ set.leaves ∧ symbol ∈ leaf.clause.rhs.cells

/-- A grid has the shape of an earlier one, and each of its symbols is in the
earlier one or was written by the rules. -/
structure Descends (set : RuleSet) (g later : Grid Symbol) : Prop where
  edges_eq : later.edges = g.edges
  symbols : forall symbol, symbol ∈ later.cells -> symbol ∈ g.cells ∨ Paints set symbol

theorem descends_refl (set : RuleSet) (g : Grid Symbol) : Descends set g g where
  edges_eq := rfl
  symbols := fun _ => Or.inl

theorem Descends.trans {set : RuleSet} {first second third : Grid Symbol}
    (h : Descends set first second) (h' : Descends set second third) :
    Descends set first third where
  edges_eq := h'.edges_eq.trans h.edges_eq
  symbols := by
    intro symbol hsymbol
    rcases h'.symbols symbol hsymbol with hmem | hpaints
    · exact h.symbols symbol hmem
    · exact Or.inr hpaints

theorem descends_advance (h : engine.advance g = (.advanced next, after)) :
    Descends engine.rules g next := by
  rcases exists_rewrites h with ⟨leaf, found, mask, hrewrites⟩
  refine ⟨hrewrites.writes.edges_eq, ?_⟩
  intro symbol hsymbol
  exact (hrewrites.writes.mem_cells hsymbol).imp_right fun hmem =>
    ⟨leaf, hrewrites.leaf_mem, hmem⟩

theorem descends_run (engine : Engine source) (g : Grid Symbol) (bound : Nat) :
    Descends engine.rules g (engine.run g bound).1.grid := by
  refine (run_induction
    (motive := fun later shown => later.rules = engine.rules ∧ Descends engine.rules g shown)
    ?_ ?_ ⟨rfl, descends_refl engine.rules g⟩ bound).right
  · intro later after shown next h hadvance
    refine ⟨(rules_of_advance hadvance).trans h.left, h.right.trans ?_⟩
    rw [← h.left]
    exact descends_advance hadvance
  · intro later after shown h hadvance
    exact ⟨(rules_of_advance hadvance).trans h.left, h.right⟩

theorem edges_run (engine : Engine source) (g : Grid Symbol) (bound : Nat) :
    (engine.run g bound).1.grid.edges = g.edges :=
  (descends_run engine g bound).edges_eq

theorem size_run (engine : Engine source) (g : Grid Symbol) (bound : Nat) :
    (engine.run g bound).1.grid.size = g.size := by
  rw [Grid.size_eq_cellCount, Grid.size_eq_cellCount, edges_run]

/-- Every step is one rewrite that the rules allow: the right side of a leaf is
written over an occurrence of its left side, through a mask with one entry for each
cell, and every other cell is kept.  So a run of any length keeps the shape of its
grid, and shows only symbols of the first grid and of right sides. -/
theorem steps_rewrite_occurrences (engine : Engine source) (g : Grid Symbol) :
    (forall next after, engine.advance g = (.advanced next, after) ->
      exists leaf found mask, engine.Rewrites g next leaf found mask) ∧
    forall bound, (engine.run g bound).1.grid.edges = g.edges ∧
      forall symbol, symbol ∈ (engine.run g bound).1.grid.cells ->
        symbol ∈ g.cells ∨
          exists leaf, leaf ∈ engine.rules.leaves ∧ symbol ∈ leaf.clause.rhs.cells := by
  refine ⟨fun next after h => exists_rewrites h, ?_⟩
  intro bound
  have hdescends := descends_run engine g bound
  exact ⟨hdescends.edges_eq, hdescends.symbols⟩

/-- The first rule is spent.  Of the two pooled clauses, seed five picks the one
that paints white cells red. -/
def painting : Engine Generator :=
  { ofSeed RuleSet.painter 5 with progress := RuleSet.painterSpent }

theorem steps_rewrite_occurrences_painting :
    (painting.advance (RuleSet.pair .black .white)).1 = .advanced (RuleSet.pair .black .red) ∧
      exists leaf found mask,
        painting.Rewrites (RuleSet.pair .black .white) (RuleSet.pair .black .red) leaf found
          mask := by
  have hstep : (painting.advance (RuleSet.pair .black .white)).1 =
      .advanced (RuleSet.pair .black .red) := by
    decide +kernel
  exact ⟨hstep, (steps_rewrite_occurrences painting (RuleSet.pair .black .white)).left
    (RuleSet.pair .black .red) _ (Prod.ext hstep rfl)⟩

end Engine
end GridRules
