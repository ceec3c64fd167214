import GridRules.Grid.Fault

/-!
# Grids

A grid is a rectangular array with any positive number of axes, kept as its
shape and its cells in row-major order.  The shape of a grid is always
acceptable: it has an axis, no axis is empty, and its cells can be addressed.

## Addressing

A cell is named by its flat index or by its coordinates.  The checked access by
coordinates reports what is wrong with a tuple.  The other accesses answer with
an option.
-/

namespace GridRules

structure Grid (cell : Type) where
  edges : Shape
  cells : Array cell
  edges_ne_nil : edges ≠ []
  zero_not_mem : 0 ∉ edges
  size_eq : cells.size = edges.cellCount
  addressable : edges.cellCount < addressLimit
deriving DecidableEq

/-- Types of cells, with the number of bytes that one cell takes up. -/
class Stored (cell : Type) where
  width : Nat

namespace Grid

variable {cell : Type}

/-!
# Building grids
-/

def acceptedCount (edges : Shape) : Except GridFault Nat :=
  if edges = [] ∨ 0 ∈ edges then .error .emptyShape
  else
    match edges.cellCount? with
    | none => .error (.tooLarge edges)
    | some count => .ok count

/-- Grid of the given cells in row-major order.  The shape is judged before the
number of cells is compared with it. -/
def ofCells (cells : Array cell) (edges : Shape) : Except GridFault (Grid cell) :=
  if hshape : edges = [] ∨ 0 ∈ edges then .error .emptyShape
  else
    match hcount : edges.cellCount? with
    | none => .error (.tooLarge edges)
    | some count =>
        if hsize : cells.size = count then
          .ok
            { edges := edges
              cells := cells
              edges_ne_nil := fun h => hshape (Or.inl h)
              zero_not_mem := fun h => hshape (Or.inr h)
              size_eq := hsize.trans (Shape.cellCount?_eq_some hcount)
              addressable :=
                Shape.cellCount?_eq_some hcount ▸ Shape.cellCount?_lt hcount }
        else .error (.shapeMismatch count cells.size)

def line (cells : Array cell) : Except GridFault (Grid cell) :=
  ofCells cells [cells.size]

/-- A block of memory with a value in every cell.  Its bytes are counted in a signed word.
Whether the machine has that much memory left is not asked. -/
def allocate [Stored cell] (count : Nat) (value : cell) : Except FillFailure (Array cell) :=
  if count * Stored.width cell < signedLimit then .ok (Array.replicate count value)
  else .error .capacityOverflow

def filled [Stored cell] (value : cell) (edges : Shape) : Except FillFailure (Grid cell) := do
  let count <- (acceptedCount edges).mapError .fault
  let cells <- allocate count value
  (ofCells cells edges).mapError .fault

/-!
# Reading grids
-/

def dimensions (g : Grid cell) : Nat :=
  g.edges.length

def size (g : Grid cell) : Nat :=
  g.cells.size

def isEmpty (g : Grid cell) : Bool :=
  g.cells.isEmpty

def get? (g : Grid cell) (index : Nat) : Option cell :=
  g.cells[index]?

def edge (g : Grid cell) (axis : Nat) : Except GridFault Nat :=
  match g.edges[axis]? with
  | some edge => .ok edge
  | none => .error (.axisOutOfRange axis g.dimensions)

def indexOf? (g : Grid cell) (tuple : List Nat) : Option Nat :=
  g.edges.index? tuple

def coordinatesOf? (g : Grid cell) (index : Nat) : Option (List Nat) :=
  if index < g.size then some (g.edges.coordinates index) else none

/-- The first axis, counted from `axis`, on which a tuple leaves the shape,
with the coordinate and the length found there. -/
def firstOutside? : Nat -> Shape -> List Nat -> Option (Nat × Nat × Nat)
  | axis, edge :: rest, coordinate :: others =>
      if edge ≤ coordinate then some (axis, coordinate, edge)
      else firstOutside? (axis + 1) rest others
  | _, _, _ => none

/-- Cell at a coordinate tuple.  A tuple of the wrong length is reported before
any coordinate is compared, and of several bad coordinates the outermost is
reported. -/
def cellAt (g : Grid cell) (tuple : List Nat) : Except GridFault cell :=
  if tuple.length ≠ g.dimensions then
    .error (.dimensionMismatch g.dimensions tuple.length)
  else
    match firstOutside? 0 g.edges tuple with
    | some (axis, coordinate, edge) => .error (.outOfBounds axis coordinate edge)
    | none =>
        match (g.indexOf? tuple).bind g.get? with
        | some value => .ok value
        | none => .error (.dimensionMismatch g.dimensions tuple.length)

def entries (g : Grid cell) : List (List Nat × cell) :=
  g.cells.toList.zipIdx.map fun entry => (g.edges.coordinates entry.2, entry.1)

theorem size_eq_cellCount (g : Grid cell) : g.size = g.edges.cellCount :=
  g.size_eq

theorem size_pos (g : Grid cell) : 0 < g.size := by
  rw [size_eq_cellCount]
  exact Shape.cellCount_pos g.zero_not_mem

theorem isEmpty_eq_false (g : Grid cell) : g.isEmpty = false := by
  have h : 0 < g.cells.size := g.size_pos
  simp [isEmpty, Array.isEmpty, Nat.ne_of_gt h]

theorem indexOf?_lt_size {g : Grid cell} {tuple : List Nat} {index : Nat}
    (h : g.indexOf? tuple = some index) : index < g.size := by
  rw [size_eq_cellCount]
  exact Shape.index?_lt h

theorem ext {g h : Grid cell} (hedges : g.edges = h.edges) (hcells : g.cells = h.cells) :
    g = h := by
  cases g
  cases h
  simp_all

end Grid
end GridRules
