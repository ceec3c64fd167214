import Mathlib.Logic.Relation
import GridRules.Proofs.Diagonals
import GridRules.Proofs.Rewriting

/-!
# Undoing rewrites

An occurrence names the cells of its pattern in order, and the cells hold the values of
the pattern.  So the grid is what the pattern makes of it, and writing the pattern there
later takes back whatever was written in between.

## Main statements

Writing a right side over an occurrence of the left side is undone by writing the left
side over the same cells.  If both sides have the same shape, these cells are then an
occurrence of the right side, so the reversed clause undoes the step.  A run of clauses
of this kind can be played backwards.
-/

namespace GridRules

namespace Grid

variable {cell : Type} {g next other pattern : Grid cell} {found : Occurrence}

/-!
# Writing over an occurrence
-/

def stamp (g : Grid cell) (found : Occurrence) (pattern : Grid cell) : Grid cell :=
  g.overwrite (Mask.ofOccurrence found pattern.cells.toList)

theorem Writes.lt_size (h : g.Writes next found pattern) {index : Nat} (hindex : index ∈ found) :
    index < g.size := by
  rcases List.mem_iff_getElem?.mp hindex with ⟨position, hposition⟩
  exact (h.written position index hposition).left

theorem Writes.unique (h : g.Writes next found pattern) (h' : g.Writes other found pattern) :
    next = other := by
  refine ext (h.edges_eq.trans h'.edges_eq.symm) (Array.ext_getElem? fun index => ?_)
  by_cases hindex : index ∈ found
  · rcases List.mem_iff_getElem?.mp hindex with ⟨position, hposition⟩
    have hnext := (h.written position index hposition).right
    have hother := (h'.written position index hposition).right
    exact hnext.trans hother.symm
  · exact (h.kept index hindex).trans (h'.kept index hindex).symm

theorem Writes.stamp_eq (h : g.Writes next found pattern) (hnodup : found.Nodup) :
    g.stamp found pattern = next :=
  (writes_ofOccurrence hnodup h.length_eq fun _ => h.lt_size).unique h

/-!
# Taking back what was written
-/

section Search

variable [DecidableEq cell] {lhs rhs : Grid cell}

theorem get?_of_mem_occurrences (h : found ∈ g.occurrences pattern) {position index : Nat}
    (hindex : found[position]? = some index) : g.get? index = pattern.get? position := by
  rcases mem_occurrences_iff_reaches.mp h with ⟨_, o, start, _, hlands⟩
  exact (hlands position index hindex).right.right

theorem Writes.undone (h : g.Writes next found rhs) (hfound : found ∈ g.occurrences lhs) :
    next.Writes g found lhs where
  edges_eq := h.edges_eq.symm
  length_eq := length_of_mem_occurrences hfound
  written := by
    intro position index hindex
    rw [h.size_eq]
    exact ⟨(h.written position index hindex).left, get?_of_mem_occurrences hfound hindex⟩
  kept := fun index hindex => (h.kept index hindex).symm

/-- The walk through the left side is a walk through the right side of the same shape,
and the values were just written. -/
theorem Writes.mem_occurrences (h : g.Writes next found rhs) (hfound : found ∈ g.occurrences lhs)
    (hedges : rhs.edges = lhs.edges) : found ∈ next.occurrences rhs := by
  rcases mem_occurrences_iff_reaches.mp hfound with ⟨_, o, start, hproper, hlands⟩
  refine mem_occurrences_iff_reaches.mpr ⟨h.length_eq, o, start, ?_, ?_⟩
  · rwa [dimensions, dimensions, h.edges_eq, hedges]
  · intro position index hindex
    rcases h.written position index hindex with ⟨hlt, hvalue⟩
    rw [h.size_eq, h.edges_eq, hedges]
    exact ⟨hlt, (hlands position index hindex).right.left, hvalue⟩

/-- Writing the right side over an occurrence of the left side changes the cells of the
occurrence and nothing else.  Writing the left side over the same cells brings the grid
back, and a right side of the same shape is found where it was written. -/
theorem stamp_undone (hfound : found ∈ g.occurrences lhs) (hsize : lhs.size = rhs.size) :
    g.Writes (g.stamp found rhs) found rhs ∧
      (g.stamp found rhs).stamp found lhs = g ∧
      (rhs.edges = lhs.edges -> found ∈ (g.stamp found rhs).occurrences rhs) := by
  have hwrites : g.Writes (g.stamp found rhs) found rhs := writes_overwrite hfound hsize
  refine ⟨hwrites, ?_, hwrites.mem_occurrences hfound⟩
  exact (hwrites.undone hfound).stamp_eq (nodup_of_mem_occurrences hfound)

end Search

/-- The pair lies upwards along the first column, from the second row to the first. -/
theorem stamp_undone_pair :
    [2, 0] ∈ (square .black .white .red .green).occurrences (RuleSet.pair .red .black) ∧
      (RuleSet.pair .red .black).size = (RuleSet.pair .blue .white).size ∧
      (RuleSet.pair .blue .white).edges = (RuleSet.pair .red .black).edges ∧
      (square .black .white .red .green).stamp [2, 0] (RuleSet.pair .blue .white) =
        square .white .white .blue .green ∧
      (square .white .white .blue .green).stamp [2, 0] (RuleSet.pair .red .black) =
        square .black .white .red .green ∧
      [2, 0] ∈ (square .white .white .blue .green).occurrences (RuleSet.pair .blue .white) := by
  have hfound : [2, 0] ∈ (square .black .white .red .green).occurrences
      (RuleSet.pair .red .black) := by
    decide
  have hsize : (RuleSet.pair .red .black).size = (RuleSet.pair .blue .white).size := rfl
  have hedges : (RuleSet.pair .blue .white).edges = (RuleSet.pair .red .black).edges := rfl
  have hstamp : (square .black .white .red .green).stamp [2, 0] (RuleSet.pair .blue .white) =
      square .white .white .blue .green := by
    decide
  rcases stamp_undone hfound hsize with ⟨_, hback, hagain⟩
  rw [hstamp] at hback hagain
  exact ⟨hfound, hsize, hedges, hstamp, hback, hagain hedges⟩

end Grid

namespace Clause

/-!
# Playing backwards

A clause leads from one grid to another if one rewrite does.  Rules keep shapes if both sides
of every clause have the same shape.
-/

variable {clause : Clause} {g next : Grid Symbol}

def reversed (clause : Clause) : Clause where
  lhs := clause.rhs
  rhs := clause.lhs
  size_eq := clause.size_eq.symm

def Leads (clause : Clause) (g next : Grid Symbol) : Prop :=
  exists found, found ∈ g.occurrences clause.lhs ∧ g.Writes next found clause.rhs

theorem leads_iff_candidate :
    clause.Leads g next ↔ exists chosen, chosen ∈ clause.candidates g ∧
      g.overwrite (Mask.ofOccurrence chosen.target chosen.replacement) = next := by
  constructor
  · rintro ⟨found, hfound, hwrites⟩
    exact ⟨_, List.mem_map_of_mem hfound,
      hwrites.stamp_eq (Grid.nodup_of_mem_occurrences hfound)⟩
  · rintro ⟨chosen, hchosen, rfl⟩
    rcases List.mem_map.mp hchosen with ⟨found, hfound, rfl⟩
    exact ⟨found, hfound, Grid.writes_overwrite hfound clause.size_eq⟩

theorem Leads.reversed (h : clause.Leads g next) (hedges : clause.rhs.edges = clause.lhs.edges) :
    clause.reversed.Leads next g := by
  rcases h with ⟨found, hfound, hwrites⟩
  exact ⟨found, hwrites.mem_occurrences hfound hedges, hwrites.undone hfound⟩

end Clause

namespace RuleSet

def KeepsShapes (set : RuleSet) : Prop :=
  forall leaf, leaf ∈ set.leaves -> leaf.clause.rhs.edges = leaf.clause.lhs.edges

/-- Some clause, read from right to left, leads from one grid to the other. -/
def LeadsBack (set : RuleSet) (later earlier : Grid Symbol) : Prop :=
  exists leaf, leaf ∈ set.leaves ∧ leaf.clause.reversed.Leads later earlier

end RuleSet

namespace Engine

variable {source : Type} [Picker source]

theorem leadsBack_advance {engine after : Engine source} {g next : Grid Symbol}
    (hkeeps : engine.rules.KeepsShapes) (h : engine.advance g = (.advanced next, after)) :
    engine.rules.LeadsBack next g := by
  rcases exists_rewrites h with ⟨leaf, found, mask, hrewrites⟩
  have hleads : leaf.clause.Leads g next := ⟨found, hrewrites.found_mem, hrewrites.writes⟩
  exact ⟨leaf, hrewrites.leaf_mem, hleads.reversed (hkeeps leaf hrewrites.leaf_mem)⟩

theorem leadsBack_run {engine : Engine source} (hkeeps : engine.rules.KeepsShapes) (g : Grid Symbol)
    (bound : Nat) :
    Relation.ReflTransGen engine.rules.LeadsBack (engine.run g bound).1.grid g := by
  refine (run_induction
    (motive := fun later shown => later.rules = engine.rules ∧
      Relation.ReflTransGen engine.rules.LeadsBack shown g)
    ?_ ?_ ⟨rfl, .refl⟩ bound).right
  · intro later after shown next h hadvance
    refine ⟨(rules_of_advance hadvance).trans h.left, h.right.head ?_⟩
    rw [← h.left] at hkeeps ⊢
    exact leadsBack_advance hkeeps hadvance
  · intro later after shown h hadvance
    exact ⟨(rules_of_advance hadvance).trans h.left, h.right⟩

end Engine
end GridRules
