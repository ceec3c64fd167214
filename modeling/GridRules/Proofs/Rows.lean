import Mathlib.Algebra.Order.BigOperators.Group.Finset
import GridRules.Proofs.PatternSearch

/-!
# Three cells in a row

A row leads from one cell over a neighbour to the cell behind it.  Its ends differ by two
along one axis, so they agree in the parity of every coordinate, and the middle differs
from them.

## Main statements

A middle cell determines the ends of its row among the cells that are aligned with a
root.  From the root, rows lead to all cells that are aligned with it.  A pattern of three
cells on one axis occurs in a grid exactly where a row shows its symbols.
-/

namespace GridRules

theorem Direction.sign_eq (direction : Direction) :
    direction.sign = 1 ∨ direction.sign = -1 := by
  cases direction with
  | forward => exact Or.inl rfl
  | backward => exact Or.inr rfl

theorem Direction.exists_sign_eq {step : Int} (h : step = 1 ∨ step = -1) :
    exists direction : Direction, direction.sign = step := by
  rcases h with rfl | rfl
  · exact ⟨.forward, rfl⟩
  · exact ⟨.backward, rfl⟩

namespace Shape

variable {edges : Shape}

/-!
# Coordinates of a cell
-/

def coordinate (edges : Shape) (index axis : Nat) : Nat :=
  along (edges.coordinates index) axis

theorem coordinate_lt (hedges : 0 ∉ edges) (index : Nat) {axis : Nat}
    (haxis : axis < edges.length) : edges.coordinate index axis < along edges axis :=
  (inside_iff.mp (inside_coordinates hedges index)).right axis haxis

theorem eq_of_coordinate_eq {first second : Nat} (hfirst : first < edges.cellCount)
    (hsecond : second < edges.cellCount)
    (h : forall axis, axis < edges.length ->
      edges.coordinate first axis = edges.coordinate second axis) : first = second := by
  have hcoordinates : edges.coordinates first = edges.coordinates second := by
    apply ext_along (by rw [coordinates_length, coordinates_length])
    rwa [coordinates_length]
  rw [← flat_coordinates hfirst, hcoordinates, flat_coordinates hsecond]

theorem exists_coordinate_ne {first second : Nat} (hfirst : first < edges.cellCount)
    (hsecond : second < edges.cellCount) (hne : first ≠ second) :
    exists axis, axis < edges.length ∧
      edges.coordinate first axis ≠ edges.coordinate second axis := by
  by_contra hall
  push Not at hall
  exact hne (eq_of_coordinate_eq hfirst hsecond hall)

theorem exists_coordinate_eq {f : Nat -> Nat}
    (h : forall axis, axis < edges.length -> f axis < along edges axis) :
    exists index, index < edges.cellCount ∧
      forall axis, axis < edges.length -> edges.coordinate index axis = f axis := by
  have hinside : edges.Inside ((List.range edges.length).map f) := by
    refine inside_iff.mpr ⟨by simp, ?_⟩
    intro axis haxis
    rw [along_map_range f haxis]
    exact h axis haxis
  refine ⟨edges.flat ((List.range edges.length).map f), flat_lt hinside, ?_⟩
  intro axis haxis
  rw [coordinate, coordinates_flat hinside, along_map_range f haxis]

theorem reaches_iff_coordinate {o : Orientation} {steps : List Nat} {first last : Nat} :
    o.Reaches (edges.coordinates first) steps (edges.coordinates last) ↔
      forall axis, axis < edges.length ->
        (edges.coordinate last axis : Int) = edges.coordinate first axis + o.shift steps axis := by
  constructor
  · intro h axis haxis
    exact h.along_eq axis (by rwa [coordinates_length])
  · intro h
    refine ⟨by rw [coordinates_length, coordinates_length], ?_⟩
    rwa [coordinates_length]

theorem reaches_single_iff {placement : Placement} {count first last : Nat} :
    Orientation.Reaches [placement] (edges.coordinates first) [count]
        (edges.coordinates last) ↔
      forall axis, axis < edges.length ->
        (edges.coordinate last axis : Int) = edges.coordinate first axis +
          if placement.axis = axis then placement.direction.sign * count else 0 := by
  simp only [reaches_iff_coordinate, Orientation.shift_cons, Orientation.shift_nil_left,
    Int.add_zero]

/-!
# Rows
-/

/-- One step leads from the first cell to the middle one, and two steps in the same
direction lead to the last one. -/
structure Row (edges : Shape) (first middle last : Nat) : Prop where
  first_lt : first < edges.cellCount
  middle_lt : middle < edges.cellCount
  last_lt : last < edges.cellCount
  walk : exists placement : Placement, placement.axis < edges.length ∧
    Orientation.Reaches [placement] (edges.coordinates first) [1] (edges.coordinates middle) ∧
    Orientation.Reaches [placement] (edges.coordinates first) [2] (edges.coordinates last)

structure Row.Along (edges : Shape) (first middle last axis : Nat) (step : Int) : Prop where
  axis_lt : axis < edges.length
  step_eq : step = 1 ∨ step = -1
  near : (edges.coordinate middle axis : Int) = edges.coordinate first axis + step
  far : (edges.coordinate last axis : Int) = edges.coordinate first axis + 2 * step
  still : forall other, other < edges.length -> other ≠ axis ->
    edges.coordinate middle other = edges.coordinate first other ∧
      edges.coordinate last other = edges.coordinate first other

section

variable {root first middle last : Nat}

theorem Row.exists_along (h : edges.Row first middle last) :
    exists axis step, Row.Along edges first middle last axis step := by
  rcases h.walk with ⟨placement, haxis, hnear, hfar⟩
  rw [reaches_single_iff] at hnear hfar
  refine ⟨placement.axis, placement.direction.sign, haxis, placement.direction.sign_eq, ?_, ?_,
    ?_⟩
  · rw [hnear _ haxis, if_pos rfl, Nat.cast_one, Int.mul_one]
  · rw [hfar _ haxis, if_pos rfl, Nat.cast_two, Int.mul_comm]
  · intro other hother hne
    have hone := hnear other hother
    have htwo := hfar other hother
    rw [if_neg (Ne.symm hne)] at hone htwo
    omega

theorem Row.Along.row {axis : Nat} {step : Int} (h : Row.Along edges first middle last axis step)
    (hfirst : first < edges.cellCount) (hmiddle : middle < edges.cellCount)
    (hlast : last < edges.cellCount) : edges.Row first middle last := by
  rcases Direction.exists_sign_eq h.step_eq with ⟨direction, rfl⟩
  refine ⟨hfirst, hmiddle, hlast, { axis := axis, direction := direction }, h.axis_lt, ?_, ?_⟩
  · refine reaches_single_iff.mpr fun other hother => ?_
    by_cases hmoved : axis = other
    · rw [if_pos hmoved, Nat.cast_one, Int.mul_one, ← hmoved, h.near]
    · rw [if_neg hmoved, (h.still other hother (Ne.symm hmoved)).left, Int.add_zero]
  · refine reaches_single_iff.mpr fun other hother => ?_
    by_cases hmoved : axis = other
    · rw [if_pos hmoved, Nat.cast_two, Int.mul_comm, ← hmoved, h.far]
    · rw [if_neg hmoved, (h.still other hother (Ne.symm hmoved)).right, Int.add_zero]

theorem Row.Along.symm {axis : Nat} {step : Int}
    (h : Row.Along edges first middle last axis step) :
    Row.Along edges last middle first axis (-step) where
  axis_lt := h.axis_lt
  step_eq := by
    have hstep := h.step_eq
    omega
  near := by
    have hnear := h.near
    have hfar := h.far
    omega
  far := by
    have hfar := h.far
    omega
  still := by
    intro other hother hne
    rcases h.still other hother hne with ⟨hmiddle, hlast⟩
    exact ⟨hmiddle.trans hlast.symm, hlast.symm⟩

theorem Row.symm (h : edges.Row first middle last) : edges.Row last middle first := by
  rcases h.exists_along with ⟨axis, step, halong⟩
  exact halong.symm.row h.last_lt h.middle_lt h.first_lt

theorem Row.nodup (h : edges.Row first middle last) : [first, middle, last].Nodup := by
  rcases h.exists_along with ⟨axis, step, halong⟩
  have hstep := halong.step_eq
  have hnear := halong.near
  have hfar := halong.far
  simp only [List.nodup_cons, List.mem_cons, List.not_mem_nil, or_false, not_or]
  refine ⟨⟨?_, ?_⟩, ?_, not_false, List.nodup_nil⟩
  · rintro rfl
    omega
  · rintro rfl
    omega
  · rintro rfl
    omega

/-!
# Aligned cells
-/

/-- All coordinates of a cell have the same parity as those of the root. -/
def Aligned (edges : Shape) (root index : Nat) : Prop :=
  forall axis, axis < edges.length ->
    edges.coordinate index axis % 2 = edges.coordinate root axis % 2

instance (edges : Shape) (root index : Nat) : Decidable (edges.Aligned root index) :=
  inferInstanceAs (Decidable (forall axis, axis < edges.length -> _))

theorem aligned_refl (edges : Shape) (root : Nat) : edges.Aligned root root :=
  fun _ _ => rfl

theorem Row.aligned_last (h : edges.Row first middle last) (hfirst : edges.Aligned root first) :
    edges.Aligned root last := by
  rcases h.exists_along with ⟨axis, step, halong⟩
  intro other hother
  have hparity := hfirst other hother
  by_cases hmoved : other = axis
  · have hfar := halong.far
    subst hmoved
    omega
  · rw [(halong.still other hother hmoved).right, hparity]

theorem Row.not_aligned_middle (h : edges.Row first middle last)
    (hfirst : edges.Aligned root first) : ¬ edges.Aligned root middle := by
  rcases h.exists_along with ⟨axis, step, halong⟩
  intro hmiddle
  have hparity := hfirst axis halong.axis_lt
  have hparity' := hmiddle axis halong.axis_lt
  have hnear := halong.near
  have hstep := halong.step_eq
  omega

theorem Row.Along.axis_eq {first' last' axis axis' : Nat} {step step' : Int}
    (h : Row.Along edges first middle last axis step)
    (h' : Row.Along edges first' middle last' axis' step') (hfirst : edges.Aligned root first)
    (hfirst' : edges.Aligned root first') : axis = axis' := by
  by_contra hne
  have hparity := hfirst axis h.axis_lt
  have hparity' := hfirst' axis h.axis_lt
  have hnear := h.near
  have hstill := (h'.still axis h.axis_lt hne).left
  have hstep := h.step_eq
  omega

theorem Row.Along.ends_eq {first' last' axis : Nat} {step : Int}
    (h : Row.Along edges first middle last axis step)
    (h' : Row.Along edges first' middle last' axis step) (hrow : edges.Row first middle last)
    (hrow' : edges.Row first' middle last') : first = first' ∧ last = last' := by
  have hnear := h.near
  have hnear' := h'.near
  have hfar := h.far
  have hfar' := h'.far
  constructor
  · apply eq_of_coordinate_eq hrow.first_lt hrow'.first_lt
    intro other hother
    by_cases hmoved : other = axis
    · subst hmoved
      omega
    · exact (h.still other hother hmoved).left.symm.trans (h'.still other hother hmoved).left
  · apply eq_of_coordinate_eq hrow.last_lt hrow'.last_lt
    intro other hother
    by_cases hmoved : other = axis
    · subst hmoved
      omega
    · rcases h.still other hother hmoved with ⟨hmiddle, hlast⟩
      rcases h'.still other hother hmoved with ⟨hmiddle', hlast'⟩
      omega

theorem Row.ends_eq {first' last' : Nat} (h : edges.Row first middle last)
    (h' : edges.Row first' middle last') (hfirst : edges.Aligned root first)
    (hfirst' : edges.Aligned root first') :
    first = first' ∧ last = last' ∨ first = last' ∧ last = first' := by
  rcases h.exists_along with ⟨axis, step, halong⟩
  rcases h'.exists_along with ⟨axis', step', halong'⟩
  have haxis : axis = axis' := halong.axis_eq halong' hfirst hfirst'
  subst haxis
  by_cases hstep : step = step'
  · subst hstep
    exact Or.inl (halong.ends_eq halong' h h')
  · have hopposite : -step' = step := by
      have hone := halong.step_eq
      have hone' := halong'.step_eq
      omega
    exact Or.inr (halong.ends_eq (hopposite ▸ halong'.symm) h h'.symm)

end

/-!
# Reaching all aligned cells
-/

def distance (edges : Shape) (first second : Nat) : Nat :=
  ∑ axis ∈ Finset.range edges.length,
    ((edges.coordinate second axis : Int) - edges.coordinate first axis).natAbs

theorem exists_moved (hedges : 0 ∉ edges) (index : Nat) {axis : Nat}
    (haxis : axis < edges.length) {position : Int} (hpos : 0 ≤ position)
    (hlt : position < along edges axis) :
    exists moved, moved < edges.cellCount ∧ (edges.coordinate moved axis : Int) = position ∧
      forall other, other < edges.length -> other ≠ axis ->
        edges.coordinate moved other = edges.coordinate index other := by
  have hinside : forall other, other < edges.length ->
      (if other = axis then position.toNat else edges.coordinate index other) <
        along edges other := by
    intro other hother
    split
    · rename_i heq
      subst heq
      omega
    · exact coordinate_lt hedges index hother
  rcases exists_coordinate_eq hinside with ⟨moved, hmoved, hcoordinate⟩
  refine ⟨moved, hmoved, ?_, ?_⟩
  · rw [hcoordinate axis haxis, if_pos rfl, Int.toNat_of_nonneg hpos]
  · intro other hother hne
    rw [hcoordinate other hother, if_neg hne]

theorem exists_nearer (hedges : 0 ∉ edges) {root last : Nat} (hroot : root < edges.cellCount)
    (hlast : last < edges.cellCount) (haligned : edges.Aligned root last) (hne : last ≠ root) :
    exists first middle, edges.Row first middle last ∧
      edges.distance root first < edges.distance root last := by
  rcases exists_coordinate_ne hlast hroot hne with ⟨axis, haxis, hcoordinate⟩
  have hparity := haligned axis haxis
  have hstep : exists step : Int, (step = 1 ∨ step = -1) ∧
      2 ≤ step * ((edges.coordinate last axis : Int) - edges.coordinate root axis) := by
    rcases Nat.lt_or_gt_of_ne hcoordinate with hlt | hgt
    · exact ⟨-1, Or.inr rfl, by omega⟩
    · exact ⟨1, Or.inl rfl, by omega⟩
  -- Two steps back from the last cell do not lead past the root.
  rcases hstep with ⟨step, hstep, htwo⟩
  have hback : forall count : Nat, (count = 1 ∨ count = 2) ->
      exists index, index < edges.cellCount ∧
        (edges.coordinate index axis : Int) = edges.coordinate last axis - count * step ∧
        forall other, other < edges.length -> other ≠ axis ->
          edges.coordinate index other = edges.coordinate last other := by
    intro count hcount
    have hlastBound := coordinate_lt hedges last haxis
    have hrootBound := coordinate_lt hedges root haxis
    apply exists_moved hedges last haxis
    · rcases hcount with rfl | rfl <;> rcases hstep with rfl | rfl <;> omega
    · rcases hcount with rfl | rfl <;> rcases hstep with rfl | rfl <;> omega
  rcases hback 2 (Or.inr rfl) with ⟨first, hfirst, hfar, hfirstStill⟩
  rcases hback 1 (Or.inl rfl) with ⟨middle, hmiddle, hnear, hmiddleStill⟩
  have halong : Row.Along edges first middle last axis step := by
    refine ⟨haxis, hstep, by omega, by omega, ?_⟩
    intro other hother hne
    rw [hfirstStill other hother hne, hmiddleStill other hother hne]
    exact ⟨rfl, rfl⟩
  refine ⟨first, middle, halong.row hfirst hmiddle hlast, ?_⟩
  have hcloser : ((edges.coordinate first axis : Int) - edges.coordinate root axis).natAbs <
      ((edges.coordinate last axis : Int) - edges.coordinate root axis).natAbs := by
    rcases hstep with rfl | rfl <;> omega
  apply Finset.sum_lt_sum
  · intro other hother
    by_cases hmoved : other = axis
    · exact Nat.le_of_lt (hmoved ▸ hcloser)
    · rw [hfirstStill other (Finset.mem_range.mp hother) hmoved]
  · exact ⟨axis, Finset.mem_range.mpr haxis, hcloser⟩

/-- What holds of the root and is handed on along rows holds of all aligned cells. -/
theorem aligned_induction (hedges : 0 ∉ edges) {root : Nat} (hroot : root < edges.cellCount)
    {motive : Nat -> Prop} (start : motive root)
    (row : forall first middle last, edges.Row first middle last -> edges.Aligned root first ->
      motive first -> motive last)
    {index : Nat} (hindex : index < edges.cellCount) (haligned : edges.Aligned root index) :
    motive index := by
  by_cases hsame : index = root
  · exact hsame ▸ start
  · rcases exists_nearer hedges hroot hindex haligned hsame with ⟨first, middle, hrow, hnearer⟩
    have hfirst := hrow.symm.aligned_last haligned
    exact row first middle index hrow hfirst
      (aligned_induction hedges hroot start row hrow.first_lt hfirst)
termination_by edges.distance root index

theorem coordinates_singleton {extent position : Nat} (h : position < extent) :
    coordinates [extent] position = [position] := by
  simp [Nat.mod_eq_of_lt h]

end Shape

namespace Grid

variable {cell : Type} [DecidableEq cell] {g pattern : Grid cell}

/-!
# Patterns with one axis
-/

theorem mem_occurrences_line_iff {extent : Nat} (hextent : pattern.edges = [extent])
    {found : Occurrence} :
    found ∈ g.occurrences pattern ↔
      found.length = extent ∧ exists (placement : Placement) (start : Nat),
        placement.axis < g.dimensions ∧
          forall position index, found[position]? = some index ->
            index < g.size ∧
              Orientation.Reaches [placement] (g.edges.coordinates start) [position]
                (g.edges.coordinates index) ∧
              g.get? index = pattern.get? position := by
  have hdimensions : pattern.dimensions = 1 := by rw [dimensions, hextent, List.length_singleton]
  have hsize : pattern.size = extent := by rw [size_eq_cellCount, hextent]; simp
  have hcoordinates : forall position index, found[position]? = some index ->
      found.length = extent -> pattern.edges.coordinates position = [position] := by
    intro position index hindex hlength
    rw [hextent]
    exact Shape.coordinates_singleton (hlength ▸ (List.getElem?_eq_some_iff.mp hindex).1)
  rw [mem_occurrences_iff_reaches, hsize]
  constructor
  · intro h
    rcases h with ⟨hlength, o, start, hproper, hlands⟩
    rcases List.length_eq_one_iff.mp (hproper.length_eq.trans hdimensions) with ⟨placement, rfl⟩
    refine ⟨hlength, placement, start, hproper.axis_lt placement List.mem_cons_self, ?_⟩
    intro position index hindex
    rw [← hcoordinates position index hindex hlength]
    exact hlands position index hindex
  · intro h
    rcases h with ⟨hlength, placement, start, haxis, hlands⟩
    refine ⟨hlength, [placement], start, ⟨?_, ?_, ?_⟩, ?_⟩
    · rw [hdimensions, List.length_singleton]
    · intro p hp
      rw [List.mem_singleton.mp hp]
      exact haxis
    · exact List.nodup_singleton _
    · intro position index hindex
      rw [hcoordinates position index hindex hlength]
      exact hlands position index hindex

theorem mem_occurrences_dot_iff (hextent : pattern.edges = [1]) {found : Occurrence} :
    found ∈ g.occurrences pattern ↔
      exists index, found = [index] ∧ index < g.size ∧ g.get? index = pattern.get? 0 := by
  rw [mem_occurrences_line_iff hextent]
  constructor
  · rintro ⟨hlength, placement, start, _, hlands⟩
    rcases List.length_eq_one_iff.mp hlength with ⟨index, rfl⟩
    rcases hlands 0 index rfl with ⟨hindex, _, hvalue⟩
    exact ⟨index, rfl, hindex, hvalue⟩
  · rintro ⟨index, rfl, hindex, hvalue⟩
    refine ⟨rfl, { axis := 0, direction := .forward }, index,
      List.length_pos_of_ne_nil g.edges_ne_nil, ?_⟩
    intro position other hother
    cases position with
    | zero =>
        cases hother
        exact ⟨hindex, Orientation.reaches_self (by simp) _ _, hvalue⟩
    | succ position => cases hother

def strip (first middle last : cell) : Grid cell where
  edges := [3]
  cells := #[first, middle, last]
  edges_ne_nil := by decide
  zero_not_mem := by decide
  size_eq := rfl
  addressable := by decide

structure Shows (g : Grid cell) (first middle last : Nat) (a b c : cell) : Prop where
  row : g.edges.Row first middle last
  first_eq : g.get? first = some a
  middle_eq : g.get? middle = some b
  last_eq : g.get? last = some c

theorem mem_occurrences_strip_iff {a b c : cell} {found : Occurrence} :
    found ∈ g.occurrences (strip a b c) ↔
      exists first middle last, found = [first, middle, last] ∧
        g.Shows first middle last a b c := by
  have hextent : (strip a b c).edges = [3] := rfl
  rw [mem_occurrences_line_iff hextent]
  constructor
  · rintro ⟨hlength, placement, start, haxis, hlands⟩
    rcases List.length_eq_three.mp hlength with ⟨first, middle, last, rfl⟩
    rcases hlands 0 first rfl with ⟨hfirst, hstart, hfirstEq⟩
    rcases hlands 1 middle rfl with ⟨hmiddle, hnear, hmiddleEq⟩
    rcases hlands 2 last rfl with ⟨hlast, hfar, hlastEq⟩
    have hself : g.edges.coordinates first = g.edges.coordinates start :=
      hstart.tuple_unique (Orientation.reaches_self (by simp) _ _)
    rw [← hself] at hnear hfar
    rw [size_eq_cellCount] at hfirst hmiddle hlast
    exact ⟨first, middle, last, rfl,
      ⟨hfirst, hmiddle, hlast, placement, haxis, hnear, hfar⟩, hfirstEq, hmiddleEq, hlastEq⟩
  · rintro ⟨first, middle, last, rfl, hrow, hfirstEq, hmiddleEq, hlastEq⟩
    rcases hrow.walk with ⟨placement, haxis, hnear, hfar⟩
    refine ⟨rfl, placement, first, haxis, ?_⟩
    rw [size_eq_cellCount]
    intro position index hindex
    match position, hindex with
    | 0, hindex =>
        cases hindex
        exact ⟨hrow.first_lt, Orientation.reaches_self (by simp) _ _, hfirstEq⟩
    | 1, hindex =>
        cases hindex
        exact ⟨hrow.middle_lt, hnear, hmiddleEq⟩
    | 2, hindex =>
        cases hindex
        exact ⟨hrow.last_lt, hfar, hlastEq⟩

end Grid
end GridRules
