import GridRules.Shape
import GridRules.Text.Numeral

/-!
# Grid faults

The ways in which building a grid or addressing one of its cells can fail.
Pattern search has no faults: a place where a pattern does not fit is simply
not a place where it occurs.
-/

namespace GridRules

inductive GridFault where
  | outOfBounds (axis coordinate edge : Nat)
  | axisOutOfRange (axis dimensions : Nat)
  | dimensionMismatch (expected actual : Nat)
  | shapeMismatch (expected actual : Nat)
  | emptyShape
  | tooLarge (edges : Shape)
deriving DecidableEq

namespace GridFault

def message : GridFault -> String
  | outOfBounds axis coordinate edge =>
      s!"coordinate {coordinate} is out of bounds for axis {axis} of length {edge}"
  | axisOutOfRange axis dimensions =>
      s!"axis {axis} does not exist in a grid with {dimensions} dimensions"
  | dimensionMismatch expected actual =>
      s!"expected {expected} coordinates, got {actual}"
  | shapeMismatch expected actual =>
      s!"shape holds {expected} cells but {actual} values were given"
  | emptyShape => "a grid needs at least one axis and every axis must be non-empty"
  | tooLarge edges =>
      "shape " ++ Text.numberList edges ++ " holds more cells than can be addressed"

end GridFault

/-- Why a grid was not filled.  A shape at fault is reported.  Cells that no block of memory can
hold end the program. -/
inductive FillFailure where
  | fault (reason : GridFault)
  | capacityOverflow
deriving DecidableEq

namespace FillFailure

def message : FillFailure -> String
  | fault reason => reason.message
  | capacityOverflow => "capacity overflow"

end FillFailure
end GridRules
