import GridRules.Grid.Basic
import GridRules.Orientation

/-!
# Pattern search

An occurrence of a pattern is a list of flat grid indices, one for each pattern
cell in row-major order, that hold the values of the pattern.  The search walks
the orientations in order.  Under one orientation it tries every base cell, and
from a base cell it looks at fixed signed displacements through the flat
numbering.

## Base cells

The base of an occurrence is the grid cell of the first pattern cell.  Bases
run over slices, one for each position along the free axes, and within a slice
over anchors, one for each position that leaves room for the pattern.
-/

namespace GridRules

/-- Flat grid indices of the cells of one occurrence, in the order of the
pattern. -/
abbrev Occurrence := List Nat

namespace Shape

/-- Length of an axis, or step along it.  Axes past the last count as zero. -/
def along (lengths : List Nat) (axis : Nat) : Nat :=
  lengths.getD axis 0

/-!
# Room for a pattern
-/

/-- Number of anchor positions along each pattern axis, or `none` when some
pattern axis is longer than the grid axis it is laid onto. -/
def spans? (edges : Shape) : Orientation -> Shape -> Option (List Nat)
  | placement :: others, extent :: extents =>
      if along edges placement.axis < extent then none
      else
        (spans? edges others extents).map
          fun spans => (along edges placement.axis - extent + 1) :: spans
  | _, _ => some []

/-!
# Displacements and bases

The displacement of a pattern cell has one signed term for each pattern axis.
The base of an occurrence has one term for each free axis, from its slice, and
one for each pattern axis, from its anchor.
-/

def displacementTerms (edges : Shape) (o : Orientation) (tuple : List Nat) : List Int :=
  List.zipWith
    (fun position placement =>
      placement.direction.sign * ((position * along edges.strides placement.axis : Nat) : Int))
    tuple o

def displacements (edges patternEdges : Shape) (o : Orientation) : List Int :=
  (List.range patternEdges.cellCount).map fun cell =>
    (displacementTerms edges o (patternEdges.coordinates cell)).foldr (· + ·) 0

def sliceTerms (edges : Shape) (free tuple : List Nat) : List Nat :=
  List.zipWith (fun position axis => position * along edges.strides axis) tuple free

/-- Position along a grid axis of the anchor counted in walking direction. -/
def anchorPosition (edges : Shape) (placement : Placement) (anchor : Nat) : Nat :=
  match placement.direction with
  | .forward => anchor
  | .backward => along edges placement.axis - 1 - anchor

def anchorTerms (edges : Shape) (o : Orientation) (tuple : List Nat) : List Nat :=
  List.zipWith
    (fun anchor placement =>
      anchorPosition edges placement anchor * along edges.strides placement.axis)
    tuple o

def freeEdges (edges : Shape) (o : Orientation) : Shape :=
  (o.freeAxes edges.length).map (along edges)

def base (edges : Shape) (o : Orientation) (spans : List Nat) (slice anchor : Nat) : Nat :=
  (sliceTerms edges (o.freeAxes edges.length)
      (coordinates (freeEdges edges o) slice)).foldr (· + ·) 0 +
    (anchorTerms edges o (coordinates spans anchor)).foldr (· + ·) 0

def bases (edges : Shape) (o : Orientation) (spans : List Nat) : List Nat :=
  (List.range (freeEdges edges o).cellCount).flatMap fun slice =>
    (List.range (cellCount spans)).map fun anchor => base edges o spans slice anchor

end Shape

namespace Grid

variable {cell : Type} [DecidableEq cell]

/-!
# Search
-/

def target (base : Nat) (displacement : Int) : Nat :=
  ((base : Int) + displacement).toNat

def holdsAt (g : Grid cell) (wanted : List (Int × cell)) (base : Nat) : Bool :=
  wanted.all fun entry => g.get? (target base entry.1) == some entry.2

def occurrencesUnder (g pattern : Grid cell) (o : Orientation) : List Occurrence :=
  match g.edges.spans? o pattern.edges with
  | none => []
  | some spans =>
      let displacements := g.edges.displacements pattern.edges o
      let wanted := displacements.zip pattern.cells.toList
      ((g.edges.bases o spans).filter (g.holdsAt wanted)).map
        fun base => displacements.map (target base)

/-- Occurrences of a pattern under every orientation that it can tell apart.
They are grouped by orientation, then ordered by slice and anchor.  A symmetric
pattern occurs once for each orientation that it fits in. -/
def occurrences (g pattern : Grid cell) : List Occurrence :=
  (Orientation.distinguishable g.dimensions pattern.edges).flatMap (g.occurrencesUnder pattern)

end Grid
end GridRules
