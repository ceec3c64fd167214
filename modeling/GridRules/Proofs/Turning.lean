import Mathlib.Algebra.BigOperators.Fin
import Mathlib.Data.Set.Function
import GridRules.Proofs.CellCounts
import GridRules.Proofs.PatternSearch

/-!
# Turned grids

A turn takes the axes of a grid in another order and walks some of them backwards.  All
rotations and mirror images of a grid are turns of it.

## Main statements

A turn and its inverse undo each other, on shapes, on tuples, on flat indices and on grids.
The indices of a grid and of the turned grid correspond one to one, and corresponding cells
hold the same value.
-/

namespace GridRules

/-- A rearrangement of axes.  An axis of the turned grid is one of the axes of the grid,
walked in the given direction. -/
structure Turn (dimensions : Nat) where
  axis : Equiv.Perm (Fin dimensions)
  direction : Fin dimensions -> Direction

namespace Turn

variable {dimensions : Nat}

def placement (turn : Turn dimensions) (i : Fin dimensions) : Placement where
  axis := turn.axis i
  direction := turn.direction i

def inverse (turn : Turn dimensions) : Turn dimensions where
  axis := turn.axis.symm
  direction := fun i => turn.direction (turn.axis.symm i)

@[simp] theorem placement_axis (turn : Turn dimensions) (i : Fin dimensions) :
    (turn.placement i).axis = turn.axis i := rfl

@[simp] theorem placement_direction (turn : Turn dimensions) (i : Fin dimensions) :
    (turn.placement i).direction = turn.direction i := rfl

theorem inverse_axis (turn : Turn dimensions) (i : Fin dimensions) :
    turn.inverse.axis (turn.axis i) = i :=
  turn.axis.symm_apply_apply i

theorem inverse_direction (turn : Turn dimensions) (i : Fin dimensions) :
    turn.inverse.direction (turn.axis i) = turn.direction i :=
  congrArg turn.direction (turn.axis.symm_apply_apply i)

theorem inverse_inverse (turn : Turn dimensions) : turn.inverse.inverse = turn := by
  rcases turn with ⟨axis, direction⟩
  simp [inverse]

theorem exists_axis_eq (turn : Turn dimensions) {axis : Nat} (h : axis < dimensions) :
    exists i : Fin dimensions, axis = turn.axis i :=
  ⟨turn.axis.symm ⟨axis, h⟩, by rw [Equiv.apply_symm_apply]⟩

end Turn

namespace Shape

variable {dimensions : Nat} {edges : Shape}

/-!
# Shapes and tuples

An axis of the turned grid is as long as the axis that it shows.
-/

def turned (edges : Shape) (turn : Turn dimensions) : Shape :=
  List.ofFn fun i => along edges (turn.axis i)

/-- Coordinates in the turned grid, counted along its axes. -/
def turnedTuple (edges : Shape) (turn : Turn dimensions) (tuple : List Nat) : List Nat :=
  List.ofFn fun i => anchorPosition edges (turn.placement i) (along tuple (turn.axis i))

def turnedIndex (edges : Shape) (turn : Turn dimensions) (index : Nat) : Nat :=
  flat (turned edges turn) (turnedTuple edges turn (coordinates edges index))

theorem along_ofFn (f : Fin dimensions -> Nat) (i : Fin dimensions) :
    along (List.ofFn f) i = f i := by
  simp [along]

@[simp] theorem length_turned (edges : Shape) (turn : Turn dimensions) :
    (turned edges turn).length = dimensions :=
  List.length_ofFn

@[simp] theorem length_turnedTuple (edges : Shape) (turn : Turn dimensions) (tuple : List Nat) :
    (turnedTuple edges turn tuple).length = dimensions :=
  List.length_ofFn

theorem along_turned (edges : Shape) (turn : Turn dimensions) (i : Fin dimensions) :
    along (turned edges turn) i = along edges (turn.axis i) :=
  along_ofFn _ i

theorem along_turnedTuple (edges : Shape) (turn : Turn dimensions) (tuple : List Nat)
    (i : Fin dimensions) :
    along (turnedTuple edges turn tuple) i =
      anchorPosition edges (turn.placement i) (along tuple (turn.axis i)) :=
  along_ofFn _ i

theorem axis_lt_length (hlength : edges.length = dimensions) (turn : Turn dimensions)
    (i : Fin dimensions) : (turn.axis i : Nat) < edges.length := by
  rw [hlength]
  exact (turn.axis i).isLt

theorem turned_inverse (hlength : edges.length = dimensions) (turn : Turn dimensions) :
    turned (turned edges turn) turn.inverse = edges := by
  apply ext_along (by simp [hlength])
  intro axis haxis
  rw [length_turned] at haxis
  rcases turn.exists_axis_eq haxis with ⟨i, rfl⟩
  rw [along_turned, turn.inverse_axis, along_turned]

theorem inside_turnedTuple {tuple : List Nat} (hlength : edges.length = dimensions)
    (turn : Turn dimensions) (h : edges.Inside tuple) :
    (turned edges turn).Inside (turnedTuple edges turn tuple) := by
  refine inside_iff.mpr ⟨by simp, ?_⟩
  intro axis haxis
  rw [length_turned] at haxis
  have hbelow := (inside_iff.mp h).right _ (axis_lt_length hlength turn ⟨axis, haxis⟩)
  rw [along_turned edges turn ⟨axis, haxis⟩, along_turnedTuple edges turn tuple ⟨axis, haxis⟩]
  exact anchorPosition_lt hbelow

theorem turnedTuple_inverse {tuple : List Nat} (hlength : edges.length = dimensions)
    (turn : Turn dimensions) (h : edges.Inside tuple) :
    turnedTuple (turned edges turn) turn.inverse (turnedTuple edges turn tuple) = tuple := by
  apply ext_along (by simp [h.length_eq, hlength])
  intro axis haxis
  rw [length_turnedTuple] at haxis
  rcases turn.exists_axis_eq haxis with ⟨i, rfl⟩
  have hbelow := (inside_iff.mp h).right _ (axis_lt_length hlength turn i)
  -- Both turns count from the same end of the axis.
  have hposition : forall position,
      anchorPosition (turned edges turn) (turn.inverse.placement (turn.axis i)) position =
        anchorPosition edges (turn.placement i) position := by
    intro position
    simp only [anchorPosition, Turn.placement, turn.inverse_axis, turn.inverse_direction,
      along_turned]
  rw [along_turnedTuple, hposition, turn.inverse_axis, along_turnedTuple]
  exact anchorPosition_anchorPosition hbelow

theorem eq_ofFn_along (hlength : edges.length = dimensions) :
    edges = List.ofFn fun i : Fin dimensions => along edges i := by
  apply ext_along (by simp [hlength])
  intro axis haxis
  exact (along_ofFn (fun i : Fin dimensions => along edges i) ⟨axis, hlength ▸ haxis⟩).symm

theorem cellCount_turned (hlength : edges.length = dimensions) (turn : Turn dimensions) :
    cellCount (turned edges turn) = cellCount edges := by
  rw [cellCount_eq_prod, cellCount_eq_prod, turned, List.prod_ofFn,
    Equiv.prod_comp turn.axis fun i : Fin dimensions => along edges i, ← List.prod_ofFn,
    ← eq_ofFn_along hlength]

theorem zero_not_mem_turned (hlength : edges.length = dimensions) (turn : Turn dimensions)
    (h : 0 ∉ edges) : 0 ∉ turned edges turn := by
  intro hzero
  rcases List.mem_ofFn.mp hzero with ⟨i, hi⟩
  exact Nat.ne_of_gt (along_pos h (axis_lt_length hlength turn i)) hi

/-!
# Flat indices
-/

section

variable {index : Nat}

theorem turnedIndex_lt (hlength : edges.length = dimensions) (turn : Turn dimensions)
    (h : 0 ∉ edges) (index : Nat) : turnedIndex edges turn index < cellCount edges := by
  rw [← cellCount_turned hlength turn]
  exact flat_lt (inside_turnedTuple hlength turn (inside_coordinates h index))

theorem coordinates_turnedIndex (hlength : edges.length = dimensions) (turn : Turn dimensions)
    (h : 0 ∉ edges) (index : Nat) :
    coordinates (turned edges turn) (turnedIndex edges turn index) =
      turnedTuple edges turn (coordinates edges index) :=
  coordinates_flat (inside_turnedTuple hlength turn (inside_coordinates h index))

theorem turnedIndex_inverse (hlength : edges.length = dimensions) (turn : Turn dimensions)
    (h : 0 ∉ edges) (hindex : index < cellCount edges) :
    turnedIndex (turned edges turn) turn.inverse (turnedIndex edges turn index) = index := by
  rw [turnedIndex, coordinates_turnedIndex hlength turn h, turned_inverse hlength,
    turnedTuple_inverse hlength turn (inside_coordinates h index), flat_coordinates hindex]

theorem turnedIndex_turnedIndex_inverse (hlength : edges.length = dimensions)
    (turn : Turn dimensions) (h : 0 ∉ edges) (hindex : index < cellCount edges) :
    turnedIndex edges turn (turnedIndex (turned edges turn) turn.inverse index) = index := by
  have hcount := cellCount_turned hlength turn
  have hback := turnedIndex_inverse (length_turned edges turn) turn.inverse
    (zero_not_mem_turned hlength turn h) (hcount.symm ▸ hindex)
  rwa [turned_inverse hlength, turn.inverse_inverse] at hback

end

end Shape

namespace Grid

variable {cell : Type} {dimensions : Nat}

/-!
# Grids
-/

theorem turnedIndex_inverse_lt_size (g : Grid cell) (turn : Turn dimensions)
    (h : g.dimensions = dimensions) (index : Nat) :
    (g.edges.turned turn).turnedIndex turn.inverse index < g.cells.size := by
  rw [g.size_eq, ← Shape.cellCount_turned h turn]
  exact Shape.turnedIndex_lt (Shape.length_turned _ _) turn.inverse
    (Shape.zero_not_mem_turned h turn g.zero_not_mem) index

def turned (g : Grid cell) (turn : Turn dimensions) (h : g.dimensions = dimensions) :
    Grid cell where
  edges := g.edges.turned turn
  cells := Array.ofFn fun index : Fin (g.edges.turned turn).cellCount =>
    have hsource := g.turnedIndex_inverse_lt_size turn h index
    g.cells[(g.edges.turned turn).turnedIndex turn.inverse index]
  edges_ne_nil := by
    intro hnil
    have hlength := Shape.length_turned g.edges turn
    rw [hnil] at hlength
    exact g.edges_ne_nil (List.length_eq_zero_iff.mp (h.trans hlength.symm))
  zero_not_mem := Shape.zero_not_mem_turned h turn g.zero_not_mem
  size_eq := Array.size_ofFn
  addressable := by
    rw [Shape.cellCount_turned h turn]
    exact g.addressable

theorem get?_eq_none {g : Grid cell} {index : Nat} (h : g.size ≤ index) : g.get? index = none :=
  Array.getElem?_eq_none h

section

variable {g : Grid cell} (turn : Turn dimensions) (h : g.dimensions = dimensions)

@[simp] theorem edges_turned : (g.turned turn h).edges = g.edges.turned turn := rfl

theorem dimensions_turned : (g.turned turn h).dimensions = dimensions :=
  Shape.length_turned g.edges turn

theorem size_turned : (g.turned turn h).size = g.size := by
  rw [size_eq_cellCount, size_eq_cellCount, edges_turned, Shape.cellCount_turned h]

theorem get?_turned {index : Nat} (hindex : index < g.size) :
    (g.turned turn h).get? index =
      g.get? ((g.edges.turned turn).turnedIndex turn.inverse index) := by
  have hcount : index < (g.edges.turned turn).cellCount := by
    rwa [Shape.cellCount_turned h turn, ← size_eq_cellCount]
  have hsource := g.turnedIndex_inverse_lt_size turn h index
  rw [get?, get?, turned, Array.getElem?_eq_getElem hsource,
    Array.getElem?_eq_getElem (by rwa [Array.size_ofFn]), Array.getElem_ofFn]

theorem get?_turned_turnedIndex {index : Nat} (hindex : index < g.size) :
    (g.turned turn h).get? (g.edges.turnedIndex turn index) = g.get? index := by
  have hlt := Shape.turnedIndex_lt h turn g.zero_not_mem index
  rw [size_eq_cellCount] at hindex
  rw [get?_turned turn h (by rwa [size_eq_cellCount]),
    Shape.turnedIndex_inverse h turn g.zero_not_mem hindex]

theorem turned_turned_inverse :
    (g.turned turn h).turned turn.inverse (dimensions_turned turn h) = g := by
  apply Grid.ext
  · exact Shape.turned_inverse h turn
  · apply Array.ext_getElem?
    intro index
    change get? ((g.turned turn h).turned turn.inverse (dimensions_turned turn h)) index =
      g.get? index
    have hsize := size_turned turn.inverse (dimensions_turned turn h)
    rw [size_turned turn h] at hsize
    by_cases hindex : index < g.size
    · have hback := hindex
      rw [size_eq_cellCount] at hback
      rw [get?_turned turn.inverse (dimensions_turned turn h) (by rwa [size_turned]),
        edges_turned, Shape.turned_inverse h, turn.inverse_inverse,
        get?_turned_turnedIndex turn h hindex]
    · rw [get?_eq_none (Nat.not_lt.mp hindex),
        get?_eq_none (hsize.trans_le (Nat.not_lt.mp hindex))]

theorem turnedIndex_bijOn :
    Set.BijOn (g.edges.turnedIndex turn) (Set.Iio g.size) (Set.Iio (g.turned turn h).size) := by
  rw [size_turned]
  have hinverse : Set.InvOn ((g.edges.turned turn).turnedIndex turn.inverse)
      (g.edges.turnedIndex turn) (Set.Iio g.size) (Set.Iio g.size) := by
    constructor
    · intro index hindex
      exact Shape.turnedIndex_inverse h turn g.zero_not_mem (g.size_eq_cellCount ▸ hindex)
    · intro index hindex
      exact Shape.turnedIndex_turnedIndex_inverse h turn g.zero_not_mem
        (g.size_eq_cellCount ▸ hindex)
  refine hinverse.bijOn ?_ ?_
  · intro index _
    rw [Set.mem_Iio, size_eq_cellCount]
    exact Shape.turnedIndex_lt h turn g.zero_not_mem index
  · intro index _
    exact g.turnedIndex_inverse_lt_size turn h index

end

end Grid
end GridRules
