import Mathlib.Data.List.Lex
import GridRules.Proofs.Coordinates

/-!
# The order of cells

The numbering of cells is read off in three ways.  Coordinates are gathered from the
innermost axis by remainders, an index is folded from the outermost axis, and the steps of
the axes are products of the lengths inside of them.  The weighted sum of a tuple ties the
three together.

## Main statements

Flat indices and the tuples inside a shape determine each other, and an index comes before
another exactly if its tuple comes first in dictionary order.  So the cells of a grid are
listed with each tuple once and in this order.  As long as the cells of a shape can be
addressed, no number on the way leaves the addressable range.
-/

namespace GridRules
namespace Shape

variable {edges : Shape} {tuple : List Nat}

/-!
# Dictionary order
-/

theorem mul_add_lt_mul_add_iff {base outer outer' inner inner' : Nat} (hinner : inner < base)
    (hinner' : inner' < base) :
    outer * base + inner < outer' * base + inner' ↔
      outer < outer' ∨ outer = outer' ∧ inner < inner' := by
  rcases Nat.lt_trichotomy outer outer' with hlt | rfl | hgt
  · have hstep := Nat.mul_le_mul_right base (Nat.succ_le_of_lt hlt)
    rw [Nat.succ_mul] at hstep
    exact iff_of_true (by omega) (Or.inl hlt)
  · simp
  · have hstep := Nat.mul_le_mul_right base (Nat.succ_le_of_lt hgt)
    rw [Nat.succ_mul] at hstep
    exact iff_of_false (by omega) (by omega)

/-- The outermost coordinates decide, unless they are equal: what the inner axes add is less
than one step of the outermost axis. -/
theorem flat_lt_flat_iff {first second : List Nat} (hfirst : edges.Inside first)
    (hsecond : edges.Inside second) :
    flat edges first < flat edges second ↔ List.Lex (· < ·) first second := by
  induction hfirst generalizing second with
  | nil =>
      cases hsecond with
      | nil => simp
  | cons _ hrest ih =>
      cases hsecond with
      | cons _ hrest' =>
          rw [flat_cons, flat_cons, mul_add_lt_mul_add_iff (flat_lt hrest) (flat_lt hrest'),
            List.cons_lex_cons_iff, ih hrest']

theorem pairwise_coordinates (edges : Shape) (hedges : 0 ∉ edges) :
    ((List.range (cellCount edges)).map (coordinates edges)).Pairwise (List.Lex (· < ·)) := by
  rw [List.pairwise_map]
  refine List.pairwise_lt_range.imp_of_mem ?_
  intro first second hfirst hsecond hlt
  refine (flat_lt_flat_iff (inside_coordinates hedges first)
    (inside_coordinates hedges second)).mp ?_
  rwa [flat_coordinates (List.mem_range.mp hfirst), flat_coordinates (List.mem_range.mp hsecond)]

theorem mem_map_coordinates_iff (hedges : 0 ∉ edges) :
    tuple ∈ (List.range (cellCount edges)).map (coordinates edges) ↔ edges.Inside tuple := by
  rw [List.mem_map]
  constructor
  · rintro ⟨index, _, rfl⟩
    exact inside_coordinates hedges index
  · intro h
    exact ⟨flat edges tuple, List.mem_range.mpr (flat_lt h), coordinates_flat h⟩

/-!
# Tuples without an index
-/

theorem index?_eq_none_iff_not_inside : index? edges tuple = none ↔ ¬ edges.Inside tuple := by
  rw [Option.eq_none_iff_forall_ne_some]
  constructor
  · intro h hinside
    exact h (flat edges tuple) (index?_eq_some_iff.mpr ⟨hinside, rfl⟩)
  · intro h index hindex
    exact h (index?_eq_some_iff.mp hindex).left

theorem index?_eq_none_iff :
    index? edges tuple = none ↔
      tuple.length ≠ edges.length ∨ exists (axis coordinate edge : Nat),
        tuple[axis]? = some coordinate ∧ edges[axis]? = some edge ∧ edge ≤ coordinate := by
  rw [index?_eq_none_iff_not_inside, Inside, List.forall₂_iff_get, not_and_or]
  refine or_congr_right' fun hlength => ?_
  rw [not_not] at hlength
  constructor
  · intro h
    push Not at h
    rcases h with ⟨axis, htuple, hedge, hle⟩
    exact ⟨axis, _, _, List.getElem?_eq_getElem htuple, List.getElem?_eq_getElem hedge, hle⟩
  · rintro ⟨axis, coordinate, edge, hcoordinate, hedge, hle⟩ h
    rcases List.getElem?_eq_some_iff.mp hcoordinate with ⟨htuple, rfl⟩
    rcases List.getElem?_eq_some_iff.mp hedge with ⟨haxis, rfl⟩
    exact Nat.not_lt.mpr hle (h axis htuple haxis)

/-!
# The addressable range
-/

theorem le_cellCount_of_mem_strides (hedges : 0 ∉ edges) {step : Nat} (h : step ∈ edges.strides) :
    step ≤ cellCount edges := by
  induction edges with
  | nil => cases h
  | cons edge rest ih =>
      rw [List.mem_cons, not_or] at hedges
      have hedge : 0 < edge := Nat.pos_of_ne_zero (Ne.symm hedges.left)
      have hrest : cellCount rest ≤ edge * cellCount rest := Nat.le_mul_of_pos_left _ hedge
      rw [strides_cons] at h
      rw [cellCount_cons]
      rcases List.mem_cons.mp h with rfl | hmem
      · exact hrest
      · exact Nat.le_trans (ih hedges.right hmem) hrest

theorem cellCount_outer_le {outer inner : Shape} (hinner : 0 ∉ inner) :
    cellCount outer ≤ cellCount (outer ++ inner) := by
  rw [cellCount_append]
  exact Nat.le_mul_of_pos_right _ (cellCount_pos hinner)

end Shape

namespace Grid

variable {cell : Type}

theorem map_fst_entries (g : Grid cell) :
    g.entries.map Prod.fst = (List.range g.edges.cellCount).map g.edges.coordinates := by
  have hsnd : g.cells.toList.zipIdx.map Prod.snd = List.range g.edges.cellCount := by
    rw [List.zipIdx_map_snd, ← List.range_eq_range', Array.length_toList, g.size_eq]
  rw [← hsnd, entries, List.map_map, List.map_map]
  rfl

end Grid

namespace Shape

variable {edges : Shape}

/-- Flat indices and the tuples inside a shape are in bijection, and the bijection keeps their
order.  An index is the sum of the coordinates weighted by the steps of the axes, and only
tuples inside the shape have one.  A grid lists each of these tuples once and in order.  Every
step, and the index that is read from any number of outer axes, is in the addressable range. -/
theorem numbering_exact (hedges : 0 ∉ edges) (haddress : cellCount edges < addressLimit) :
    (forall index, index < cellCount edges ->
        (coordinates? edges index).bind (index? edges) = some index) ∧
      (forall tuple, edges.Inside tuple ->
        (index? edges tuple).bind (coordinates? edges) = some tuple) ∧
      (forall tuple, index? edges tuple = none ↔
        tuple.length ≠ edges.length ∨ exists (axis coordinate edge : Nat),
          tuple[axis]? = some coordinate ∧ edges[axis]? = some edge ∧ edge ≤ coordinate) ∧
      (forall tuple index, index? edges tuple = some index ->
        index = (List.zipWith (· * ·) tuple edges.strides).sum ∧ index < cellCount edges) ∧
      (forall first second index index', index? edges first = some index ->
        index? edges second = some index' ->
        (index < index' ↔ List.Lex (· < ·) first second)) ∧
      (forall {cell : Type} (g : Grid cell), g.edges = edges ->
        (g.entries.map Prod.fst).Nodup ∧
          (forall tuple, tuple ∈ g.entries.map Prod.fst ↔ edges.Inside tuple) ∧
          (g.entries.map Prod.fst).Pairwise (List.Lex (· < ·))) ∧
      (forall step, step ∈ edges.strides -> step < addressLimit) ∧
      forall outer inner tuple index, edges = outer ++ inner -> index? outer tuple = some index ->
        index < addressLimit := by
  have hcoordinates : forall index, coordinates? edges index = some (coordinates edges index) :=
    fun index => if_neg hedges
  refine ⟨?_, ?_, fun tuple => index?_eq_none_iff, ?_, ?_, ?_, ?_, ?_⟩
  · intro index hindex
    rw [hcoordinates, Option.bind_some, index?_eq_some_iff]
    exact ⟨inside_coordinates hedges index, (flat_coordinates hindex).symm⟩
  · intro tuple htuple
    rw [index?_eq_some_iff.mpr ⟨htuple, rfl⟩, Option.bind_some, hcoordinates,
      coordinates_flat htuple]
  · intro tuple index hindex
    exact ⟨(index?_eq_some_iff.mp hindex).right, index?_lt hindex⟩
  · intro first second index index' hindex hindex'
    rcases index?_eq_some_iff.mp hindex with ⟨hfirst, rfl⟩
    rcases index?_eq_some_iff.mp hindex' with ⟨hsecond, rfl⟩
    exact flat_lt_flat_iff hfirst hsecond
  · rintro cell g rfl
    have hpairwise := pairwise_coordinates g.edges hedges
    rw [← g.map_fst_entries] at hpairwise
    refine ⟨hpairwise.imp fun hlex heq => ?_, fun tuple => ?_, hpairwise⟩
    · rw [heq] at hlex
      exact List.lex_irrefl Nat.lt_irrefl _ hlex
    · rw [g.map_fst_entries, mem_map_coordinates_iff hedges]
  · intro step hstep
    exact Nat.lt_of_le_of_lt (le_cellCount_of_mem_strides hedges hstep) haddress
  · rintro outer inner tuple index rfl hindex
    have hinner : 0 ∉ inner := fun hmem => hedges (List.mem_append_right outer hmem)
    exact Nat.lt_of_lt_of_le (index?_lt hindex)
      (Nat.le_trans (cellCount_outer_le hinner) (Nat.le_of_lt haddress))

/-- The fifth cell of two rows of three stands in the middle of the second row, and comes after
the last cell of the first row. -/
theorem numbering_exact_rows :
    0 ∉ [2, 3] ∧ cellCount [2, 3] < addressLimit ∧
      (coordinates? [2, 3] 4).bind (index? [2, 3]) = some 4 ∧
      (index? [2, 3] [1, 1]).bind (coordinates? [2, 3]) = some [1, 1] ∧
      index? [2, 3] [0, 3] = none ∧
      (2 < 4 ↔ List.Lex (· < ·) [0, 2] [1, 1]) := by
  have hedges : 0 ∉ [2, 3] := by decide
  have haddress : cellCount [2, 3] < addressLimit := by decide
  have hindexed : index? [2, 3] [1, 1] = some 4 := rfl
  have hinside : Inside [2, 3] [1, 1] := (index?_eq_some_iff.mp hindexed).left
  rcases numbering_exact hedges haddress with ⟨hindex, htuple, hnone, _, horder, _⟩
  refine ⟨hedges, haddress, hindex 4 (by decide), htuple [1, 1] hinside, ?_, ?_⟩
  · exact (hnone [0, 3]).mpr (Or.inr ⟨1, 3, 3, rfl, rfl, Nat.le_refl 3⟩)
  · exact horder [0, 2] [1, 1] 2 4 rfl rfl

end Shape
end GridRules
