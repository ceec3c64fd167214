import GridRules.Shape

/-!
# Orientations

An orientation lays the axes of a pattern onto distinct axes of a grid and
gives each of them a walking direction.  Running through all orientations
covers every turned and mirrored way to place a pattern.  Grid axes that no
pattern axis is laid onto are free.

## Order

The order of the enumeration is part of its meaning, since a choice among
occurrences is made by position.  Directions vary more slowly than axes, and
the first pattern axis varies most slowly.
-/

namespace GridRules

inductive Direction where
  | forward
  | backward
deriving DecidableEq

namespace Direction

def all : List Direction :=
  [forward, backward]

def sign : Direction -> Int
  | forward => 1
  | backward => -1

theorem mem_all (d : Direction) : d ∈ all := by
  cases d <;> simp [all]

end Direction

structure Placement where
  axis : Nat
  direction : Direction
deriving DecidableEq

/-- Placements of the pattern axes, outermost pattern axis first. -/
abbrev Orientation := List Placement

namespace Orientation

/-!
# Enumeration
-/

/-- Every way to place `count` more axes on grid axes that are not in use. -/
def placements (dimensions : Nat) : Nat -> List Nat -> List Orientation
  | 0, _ => [[]]
  | count + 1, used =>
      Direction.all.flatMap fun direction =>
        ((List.range dimensions).filter fun axis => axis ∉ used).flatMap fun axis =>
          (placements dimensions count (axis :: used)).map
            fun others => { axis := axis, direction := direction } :: others

/-- Every orientation of a pattern in a grid.  A pattern without axes has none,
and neither has a pattern with more axes than the grid. -/
def all (gridDimensions patternDimensions : Nat) : List Orientation :=
  if patternDimensions = 0 ∨ gridDimensions < patternDimensions then []
  else placements gridDimensions patternDimensions []

theorem placements_length {dimensions count : Nat} {used : List Nat} {o : Orientation}
    (h : o ∈ placements dimensions count used) : o.length = count := by
  induction count generalizing used o with
  | zero =>
      simp only [placements, List.mem_singleton] at h
      simp [h]
  | succ count ih =>
      simp only [placements, List.mem_flatMap, List.mem_map] at h
      rcases h with ⟨_, _, _, _, others, hothers, heq⟩
      rw [← heq, List.length_cons, ih hothers]

theorem placements_axis_lt {dimensions count : Nat} {used : List Nat} {o : Orientation}
    (h : o ∈ placements dimensions count used) :
    forall p, p ∈ o -> p.axis < dimensions ∧ p.axis ∉ used := by
  induction count generalizing used o with
  | zero =>
      simp only [placements, List.mem_singleton] at h
      simp [h]
  | succ count ih =>
      simp only [placements, List.mem_flatMap, List.mem_map, List.mem_filter, List.mem_range,
        decide_eq_true_eq] at h
      rcases h with ⟨_, _, axis, ⟨haxis, hfree⟩, others, hothers, heq⟩
      intro p hp
      rw [← heq] at hp
      rcases List.mem_cons.mp hp with hhead | htail
      · rw [hhead]
        exact ⟨haxis, hfree⟩
      · rcases ih hothers p htail with ⟨hlt, hnot⟩
        exact ⟨hlt, fun hmem => hnot (List.mem_cons_of_mem _ hmem)⟩

theorem mem_all_length {gridDimensions patternDimensions : Nat} {o : Orientation}
    (h : o ∈ all gridDimensions patternDimensions) : o.length = patternDimensions := by
  unfold all at h
  split at h
  · cases h
  · exact placements_length h

/-!
# Distinguishable orientations

A pattern axis of length one looks the same wherever it is laid and however it
is walked.  Two orientations that agree on all longer axes place the pattern on
the same cells, so the first of them stands for both.
-/

def visible (o : Orientation) (patternEdges : Shape) : List (Option Placement) :=
  List.zipWith (fun placement extent => if 1 < extent then some placement else none)
    o patternEdges

/-- Orientations of a pattern of the given shape, keeping the first of those
that it cannot tell apart. -/
def distinguishable (gridDimensions : Nat) (patternEdges : Shape) : List Orientation :=
  (all gridDimensions patternEdges.length).eraseDupsBy
    fun later first => later.visible patternEdges == first.visible patternEdges

/-!
# Free axes
-/

def freeAxes (o : Orientation) (gridDimensions : Nat) : List Nat :=
  (List.range gridDimensions).filter fun axis => axis ∉ o.map Placement.axis

theorem mem_freeAxes {o : Orientation} {gridDimensions axis : Nat} :
    axis ∈ o.freeAxes gridDimensions ↔
      axis < gridDimensions ∧ forall p, p ∈ o -> p.axis ≠ axis := by
  simp [freeAxes]

end Orientation
end GridRules
