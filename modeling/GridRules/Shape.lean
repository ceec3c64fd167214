/-!
# Shapes and coordinates

A shape lists the axis lengths of a grid, outermost axis first.  Cells are
numbered in row-major order, so the last axis varies fastest.  This module
counts cells, gives the step of each axis through the flat numbering, and
converts between flat indices and coordinate tuples.

## Conventions

Shapes and coordinate tuples are plain lists of natural numbers.  Everything
here is exact arithmetic.  Only the checked cell count knows about the limit
on how many cells a machine can address.
-/

namespace GridRules

/-- Axis lengths, outermost axis first. -/
abbrev Shape := List Nat

/-- Counts of cells and flat indices are addressable below this limit. -/
def addressLimit : Nat := UInt64.size

/-- Signed words hold the integers below this limit, down to its negative. -/
def signedLimit : Nat := Nat.pow 2 63

namespace Shape

/-!
# Cell counts
-/

def cellCount : Shape -> Nat
  | [] => 1
  | edge :: rest => edge * cellCount rest

@[simp] theorem cellCount_nil : cellCount [] = 1 := rfl

@[simp] theorem cellCount_cons (edge : Nat) (rest : Shape) :
    cellCount (edge :: rest) = edge * cellCount rest := rfl

theorem cellCount_append (outer inner : Shape) :
    cellCount (outer ++ inner) = cellCount outer * cellCount inner := by
  induction outer with
  | nil => simp
  | cons edge rest ih => simp [ih, Nat.mul_assoc]

theorem cellCount_pos {edges : Shape} (h : 0 ∉ edges) : 0 < cellCount edges := by
  induction edges with
  | nil => simp
  | cons edge rest ih =>
      simp only [List.mem_cons, not_or] at h
      exact Nat.mul_pos (Nat.pos_of_ne_zero (Ne.symm h.left)) (ih h.right)

/-- Multiply the remaining axes into a running count, giving up as soon as the
count is no longer addressable. -/
def countFrom? : Nat -> Shape -> Option Nat
  | count, [] => some count
  | count, edge :: rest =>
      if count * edge < addressLimit then countFrom? (count * edge) rest
      else none

/-- Number of cells of a shape, or `none` when a running product leaves the
addressable range.  A later axis of length zero does not repair the count. -/
def cellCount? (edges : Shape) : Option Nat :=
  countFrom? 1 edges

theorem countFrom?_eq_some {count total : Nat} {edges : Shape}
    (h : countFrom? count edges = some total) :
    total = count * cellCount edges := by
  induction edges generalizing count with
  | nil =>
      simp only [countFrom?, Option.some.injEq] at h
      simp [h]
  | cons edge rest ih =>
      simp only [countFrom?] at h
      split at h
      · rw [ih h, cellCount_cons, Nat.mul_assoc]
      · cases h

theorem countFrom?_lt {count total : Nat} {edges : Shape}
    (hcount : count < addressLimit) (h : countFrom? count edges = some total) :
    total < addressLimit := by
  induction edges generalizing count with
  | nil =>
      simp only [countFrom?, Option.some.injEq] at h
      exact h ▸ hcount
  | cons edge rest ih =>
      simp only [countFrom?] at h
      split at h
      · rename_i hnext
        exact ih hnext h
      · cases h

theorem cellCount?_eq_some {edges : Shape} {total : Nat}
    (h : cellCount? edges = some total) : total = cellCount edges := by
  simpa using countFrom?_eq_some h

theorem cellCount?_lt {edges : Shape} {total : Nat}
    (h : cellCount? edges = some total) : total < addressLimit :=
  countFrom?_lt (by decide) h

/-!
# Steps through the flat numbering

The step of an axis is the distance in the flat numbering between cells that
are neighbours along it.  Steps are gathered from the innermost axis outwards:
each axis hands the product of its step and its length to the axis before it.
-/

/-- Steps of all axes, together with the step an axis outside of them would
have. -/
def stepsWithSpan : Shape -> List Nat × Nat
  | [] => ([], 1)
  | edge :: rest =>
      let inner := stepsWithSpan rest
      (inner.2 :: inner.1, inner.2 * edge)

def strides (edges : Shape) : List Nat :=
  (stepsWithSpan edges).1

theorem stepsWithSpan_snd (edges : Shape) :
    (stepsWithSpan edges).2 = cellCount edges := by
  induction edges with
  | nil => rfl
  | cons edge rest ih => simp [stepsWithSpan, ih, Nat.mul_comm]

@[simp] theorem strides_nil : strides [] = [] := rfl

@[simp] theorem strides_cons (edge : Nat) (rest : Shape) :
    strides (edge :: rest) = cellCount rest :: strides rest := by
  simp [strides, stepsWithSpan, stepsWithSpan_snd]

@[simp] theorem strides_length (edges : Shape) :
    (strides edges).length = edges.length := by
  induction edges with
  | nil => rfl
  | cons edge rest ih => simp [ih]

/-!
# Coordinates of an index

The innermost coordinate is the remainder by the innermost length.  The
quotient is passed outwards, and what is left after the outermost axis is
dropped, so an index past the last cell wraps around.
-/

/-- Coordinates of an index, together with the quotient left over after the
outermost axis. -/
def digits : Shape -> Nat -> List Nat × Nat
  | [], index => ([], index)
  | edge :: rest, index =>
      let inner := digits rest index
      (inner.2 % edge :: inner.1, inner.2 / edge)

def coordinates (edges : Shape) (index : Nat) : List Nat :=
  (digits edges index).1

/-- Coordinates of a flat index, for shapes in which an index has coordinates
at all: an axis of length zero leaves no remainder to take. -/
def coordinates? (edges : Shape) (index : Nat) : Option (List Nat) :=
  if 0 ∈ edges then none else some (coordinates edges index)

theorem digits_snd (edges : Shape) (index : Nat) :
    (digits edges index).2 = index / cellCount edges := by
  induction edges with
  | nil => simp [digits]
  | cons edge rest ih =>
      simp only [digits, ih, cellCount_cons]
      rw [Nat.div_div_eq_div_mul, Nat.mul_comm]

@[simp] theorem coordinates_nil (index : Nat) : coordinates [] index = [] := rfl

@[simp] theorem coordinates_cons (edge : Nat) (rest : Shape) (index : Nat) :
    coordinates (edge :: rest) index =
      index / cellCount rest % edge :: coordinates rest index := by
  simp [coordinates, digits, digits_snd]

@[simp] theorem coordinates_length (edges : Shape) (index : Nat) :
    (coordinates edges index).length = edges.length := by
  induction edges with
  | nil => rfl
  | cons edge rest ih => simp [ih]

/-!
# Index of coordinates
-/

/-- Read the remaining coordinates into a running index.  The reading stops
without an index at the first coordinate outside its axis, and when the tuple
and the shape differ in length. -/
def indexFrom? : Nat -> Shape -> List Nat -> Option Nat
  | index, [], [] => some index
  | index, edge :: rest, coordinate :: others =>
      if coordinate < edge then indexFrom? (index * edge + coordinate) rest others
      else none
  | _, [], _ :: _ => none
  | _, _ :: _, [] => none

def index? (edges : Shape) (tuple : List Nat) : Option Nat :=
  indexFrom? 0 edges tuple

theorem indexFrom?_lt {index found : Nat} {edges : Shape} {tuple : List Nat}
    (h : indexFrom? index edges tuple = some found) :
    found < (index + 1) * cellCount edges := by
  induction edges generalizing index tuple with
  | nil =>
      cases tuple with
      | nil =>
          simp only [indexFrom?, Option.some.injEq] at h
          simp [h]
      | cons => cases h
  | cons edge rest ih =>
      cases tuple with
      | nil => cases h
      | cons coordinate others =>
          simp only [indexFrom?] at h
          split at h
          · rename_i hlt
            have hfound := ih h
            have hstep : index * edge + coordinate + 1 ≤ (index + 1) * edge := by
              rw [Nat.add_mul, Nat.one_mul]
              exact Nat.add_le_add_left hlt (index * edge)
            have hbound := Nat.mul_le_mul_right (cellCount rest) hstep
            rw [cellCount_cons, ← Nat.mul_assoc]
            exact Nat.lt_of_lt_of_le hfound hbound
          · cases h

theorem index?_lt {edges : Shape} {tuple : List Nat} {found : Nat}
    (h : index? edges tuple = some found) : found < cellCount edges := by
  simpa using indexFrom?_lt h

end Shape
end GridRules
