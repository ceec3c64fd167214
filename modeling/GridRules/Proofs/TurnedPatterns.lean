import Mathlib.Tactic.LinearCombination
import GridRules.Proofs.TurnedGrids
import GridRules.Proofs.UnitAxes

/-!
# Patterns that are written in other ways

A pattern may be turned, and axes of length one may be inserted into it.  Its cells are
then listed in another order or under more axes, but they lie in the grid as before.

## Main statements

A turned pattern has the same occurrences, with the cells of each of them in the order of
the turned pattern.  A pattern with more axes of length one has the same occurrences, as
long as it has no more axes than the grid.
-/

namespace GridRules

/-!
# Placing a turned pattern
-/

namespace Turn

variable {dimensions : Nat}

/-- An axis of the turned pattern is placed where the axis that it shows was placed. -/
def onto (turn : Turn dimensions) (o : Orientation) (h : o.length = dimensions) : Orientation :=
  List.ofFn fun i =>
    let p := o.get ((turn.axis i).cast h.symm)
    { axis := p.axis
      direction := (turn.direction i).times p.direction }

end Turn

namespace Shape

theorem sign_mul_anchorPosition {extents : Shape} {p : Placement} {corner position : Nat}
    (hcorner : corner < along extents p.axis)
    (hposition : position < along extents p.axis)
    (hzero : anchorPosition extents p corner = 0) :
    p.direction.sign * (anchorPosition extents p position : Int) = position - corner := by
  cases hdirection : p.direction with
  | forward =>
      simp only [anchorPosition, hdirection, Direction.sign] at hzero ⊢
      omega
  | backward =>
      simp only [anchorPosition, hdirection, Direction.sign] at hzero ⊢
      omega

end Shape

namespace Orientation

variable {dimensions : Nat} {o : Orientation} {extents : Shape} {corner steps : List Nat}

@[simp] theorem length_onto (turn : Turn dimensions) (h : o.length = dimensions) :
    (turn.onto o h).length = dimensions :=
  List.length_ofFn

theorem getElem_onto (turn : Turn dimensions) (h : o.length = dimensions) (i : Fin dimensions)
    (hi : (i : Nat) < (turn.onto o h).length) (hj : (turn.axis i : Nat) < o.length) :
    (turn.onto o h)[(i : Nat)] =
      { axis := o[(turn.axis i : Nat)].axis
        direction := (turn.direction i).times o[(turn.axis i : Nat)].direction } :=
  List.getElem_ofFn hi

theorem axis_of_mem_onto {turn : Turn dimensions} {h : o.length = dimensions} {q : Placement}
    (hq : q ∈ turn.onto o h) : exists p, p ∈ o ∧ p.axis = q.axis := by
  rcases List.mem_ofFn.mp hq with ⟨i, rfl⟩
  exact ⟨_, List.get_mem _ _, rfl⟩

theorem Proper.onto {gridDimensions : Nat} (turn : Turn dimensions)
    (h : o.Proper gridDimensions dimensions) :
    (turn.onto o h.length_eq).Proper gridDimensions dimensions where
  length_eq := length_onto turn h.length_eq
  axis_lt := by
    intro q hq
    rcases axis_of_mem_onto hq with ⟨p, hp, heq⟩
    exact heq ▸ h.axis_lt p hp
  nodup := by
    rw [Turn.onto, List.map_ofFn, List.nodup_ofFn]
    intro i j heq
    have hget := List.inj_on_of_nodup_map h.nodup (List.get_mem _ _) (List.get_mem _ _) heq
    have hindex := (h.nodup.of_map _).injective_get hget
    exact turn.axis.injective (Fin.ext (Fin.mk.inj hindex))

/-- A walk through the turned pattern starts at the cell that is shown first. -/
theorem shift_onto (turn : Turn dimensions) {gridDimensions : Nat}
    (hproper : o.Proper gridDimensions dimensions) (hextents : extents.length = dimensions)
    (hcorner : extents.Inside corner) (hsteps : extents.Inside steps)
    (hfirst : forall count, count ∈ extents.turnedTuple turn corner -> count = 0) (axis : Nat) :
    o.shift steps axis =
      o.shift corner axis +
        (turn.onto o hproper.length_eq).shift (extents.turnedTuple turn steps) axis := by
  by_cases hplaced : exists p, p ∈ o ∧ p.axis = axis
  · rcases hplaced with ⟨p, hp, rfl⟩
    rcases List.mem_iff_getElem.mp hp with ⟨j, hj, rfl⟩
    rcases turn.exists_axis_eq (hproper.length_eq ▸ hj) with ⟨i, rfl⟩
    have hlt := Shape.axis_lt_length hextents turn i
    have hzero := hfirst _ (List.mem_ofFn.mpr ⟨i, rfl⟩)
    have hmoved := Shape.sign_mul_anchorPosition ((Shape.inside_iff.mp hcorner).right _ hlt)
      ((Shape.inside_iff.mp hsteps).right _ hlt) hzero
    have hlength := hextents.trans hproper.length_eq.symm
    have hi : (i : Nat) < (turn.onto o hproper.length_eq).length :=
      (length_onto turn hproper.length_eq).symm ▸ i.isLt
    have honto := shift_placed (hproper.onto turn).nodup
      ((Shape.length_turnedTuple extents turn steps).trans
        (length_onto turn hproper.length_eq).symm) hi
    rw [getElem_onto turn hproper.length_eq i hi hj, Shape.along_turnedTuple] at honto
    rw [shift_placed hproper.nodup (hsteps.length_eq.trans hlength) hj,
      shift_placed hproper.nodup (hcorner.length_eq.trans hlength) hj, honto,
      Direction.sign_times]
    rw [Turn.placement_axis, Turn.placement_direction] at hmoved
    linear_combination -(o[(turn.axis i : Nat)].direction.sign) * hmoved
  · have hnone : forall p, p ∈ o -> p.axis ≠ axis := fun p hp heq => hplaced ⟨p, hp, heq⟩
    rw [shift_of_not_placed hnone, shift_of_not_placed hnone, shift_of_not_placed]
    · rfl
    · intro q hq
      rcases axis_of_mem_onto hq with ⟨p, hp, heq⟩
      exact heq ▸ hnone p hp

theorem Reaches.onto {gridDimensions : Nat} (turn : Turn dimensions)
    (hproper : o.Proper gridDimensions dimensions) (hextents : extents.length = dimensions)
    (hcorner : extents.Inside corner) (hsteps : extents.Inside steps)
    (hfirst : forall count, count ∈ extents.turnedTuple turn corner -> count = 0)
    {start first tuple : List Nat} (hreached : o.Reaches start corner first)
    (h : o.Reaches start steps tuple) :
    (turn.onto o hproper.length_eq).Reaches first (extents.turnedTuple turn steps) tuple where
  length_eq := h.length_eq.trans hreached.length_eq.symm
  along_eq := by
    intro axis haxis
    have hstart : axis < start.length := hreached.length_eq ▸ haxis
    rw [h.along_eq axis hstart, hreached.along_eq axis hstart,
      shift_onto turn hproper hextents hcorner hsteps hfirst axis, Int.add_assoc]

end Orientation

/-!
# Occurrences of a turned pattern
-/

namespace Occurrence

def rearranged (source : Nat -> Nat) (found : Occurrence) : Occurrence :=
  (List.range found.length).map fun position => found.getD (source position) 0

@[simp] theorem length_rearranged (source : Nat -> Nat) (found : Occurrence) :
    (rearranged source found).length = found.length := by
  rw [rearranged, List.length_map, List.length_range]

theorem getElem?_rearranged {source : Nat -> Nat} {found : Occurrence} {position : Nat}
    (hposition : position < found.length) (hsource : source position < found.length) :
    (rearranged source found)[position]? = found[source position]? := by
  rw [rearranged, List.getElem?_map, List.getElem?_range hposition, Option.map_some,
    List.getD_eq_getElem?_getD, List.getElem?_eq_getElem hsource, Option.getD_some]

theorem rearranged_rearranged {source back : Nat -> Nat} {found : Occurrence}
    (hback : forall position, position < found.length -> back position < found.length)
    (hsource : forall position, position < found.length -> source (back position) = position) :
    rearranged back (rearranged source found) = found := by
  apply List.ext_getElem?
  intro position
  by_cases hposition : position < found.length
  · have hlength := length_rearranged source found
    rw [getElem?_rearranged (hlength.symm ▸ hposition) (hlength.symm ▸ hback position hposition),
      getElem?_rearranged (hback position hposition)
        ((hsource position hposition).symm ▸ hposition), hsource position hposition]
  · rw [List.getElem?_eq_none (by simpa using hposition),
      List.getElem?_eq_none (Nat.not_lt.mp hposition)]

end Occurrence

namespace Grid

variable {cell : Type} {dimensions : Nat} {g pattern : Grid cell} {found : Occurrence}

def shown (pattern : Grid cell) (turn : Turn dimensions) : Nat -> Nat :=
  (pattern.edges.turned turn).turnedIndex turn.inverse

theorem coordinates_eq_turnedTuple_shown (turn : Turn dimensions)
    (hd : pattern.dimensions = dimensions) {position : Nat} (h : position < pattern.size) :
    (pattern.edges.turned turn).coordinates position =
      pattern.edges.turnedTuple turn (pattern.edges.coordinates (pattern.shown turn position)) := by
  rw [size_eq_cellCount] at h
  rw [← Shape.coordinates_turnedIndex hd turn pattern.zero_not_mem, shown,
    Shape.turnedIndex_turnedIndex_inverse hd turn pattern.zero_not_mem h]

theorem shown_lt_size (turn : Turn dimensions) (hd : pattern.dimensions = dimensions)
    (position : Nat) : pattern.shown turn position < pattern.size :=
  pattern.turnedIndex_inverse_lt_size turn hd position

theorem Embeds.onto (turn : Turn dimensions) (hd : pattern.dimensions = dimensions)
    {o : Orientation} {start : List Nat} (hproper : o.Proper g.dimensions dimensions)
    (h : g.Embeds pattern o start found) :
    exists first, g.Embeds (pattern.turned turn hd) (turn.onto o hproper.length_eq) first
      (found.rearranged (pattern.shown turn)) := by
  -- The walks to all cells of the turned pattern lead over the cell that it shows first.
  have hcorner := Shape.inside_coordinates pattern.zero_not_mem (pattern.shown turn 0)
  rcases h.lands_at hcorner with ⟨first, hinside, hreached, _⟩
  have hfirst : forall count, count ∈ pattern.edges.turnedTuple turn
      (pattern.edges.coordinates (pattern.shown turn 0)) -> count = 0 := by
    intro count hcount
    rw [← coordinates_eq_turnedTuple_shown turn hd pattern.size_pos] at hcount
    exact Shape.eq_zero_of_mem_coordinates_zero hcount
  refine ⟨first, hinside, ?_, ?_⟩
  · rw [Occurrence.length_rearranged, h.length_eq, size_turned]
  · intro position index hindex
    have hposition : position < found.length := by
      have hlt := (List.getElem?_eq_some_iff.mp hindex).choose
      rwa [Occurrence.length_rearranged] at hlt
    have hsize : position < pattern.size := h.length_eq ▸ hposition
    rw [Occurrence.getElem?_rearranged hposition
      (h.length_eq.symm ▸ shown_lt_size turn hd position)] at hindex
    rcases h.lands _ index hindex with ⟨tuple, hreaches, hflat, hvalue⟩
    refine ⟨tuple, ?_, hflat, ?_⟩
    · rw [edges_turned, coordinates_eq_turnedTuple_shown turn hd hsize]
      exact hreached.onto turn hproper hd hcorner
        (Shape.inside_coordinates pattern.zero_not_mem _) hfirst hreaches
    · rw [hvalue, get?_turned turn hd hsize]
      rfl

theorem rearranged_mem_occurrences [DecidableEq cell] (turn : Turn dimensions)
    (hd : pattern.dimensions = dimensions) (h : found ∈ g.occurrences pattern) :
    found.rearranged (pattern.shown turn) ∈ g.occurrences (pattern.turned turn hd) := by
  rcases mem_occurrences_iff.mp h with ⟨o, start, hproper, hembeds⟩
  rw [hd] at hproper
  rcases hembeds.onto turn hd hproper with ⟨first, honto⟩
  refine mem_occurrences_iff.mpr ⟨turn.onto o hproper.length_eq, first, ?_, honto⟩
  rw [dimensions_turned turn hd]
  exact hproper.onto turn

theorem mem_occurrences_of_turned [DecidableEq cell] (turn : Turn dimensions)
    (hd : pattern.dimensions = dimensions)
    (h : found ∈ g.occurrences (pattern.turned turn hd)) :
    found.rearranged (pattern.edges.turnedIndex turn) ∈ g.occurrences pattern := by
  have hback := rearranged_mem_occurrences turn.inverse (dimensions_turned turn hd) h
  rw [turned_turned_inverse turn hd, shown, edges_turned, Shape.turned_inverse hd,
    turn.inverse_inverse] at hback
  exact hback

theorem occurrences_turned_pattern_perm [DecidableEq cell] (g : Grid cell)
    (turn : Turn dimensions) (hd : pattern.dimensions = dimensions) :
    (g.occurrences (pattern.turned turn hd)).Perm
      ((g.occurrences pattern).map (Occurrence.rearranged (pattern.shown turn))) := by
  have hlt : forall position,
      pattern.edges.turnedIndex turn position < pattern.size := by
    intro position
    rw [size_eq_cellCount]
    exact Shape.turnedIndex_lt hd turn pattern.zero_not_mem position
  let back : Occurrence -> Occurrence := Occurrence.rearranged (pattern.edges.turnedIndex turn)
  have hturn : forall found, found ∈ g.occurrences pattern ->
      found.rearranged (pattern.shown turn) ∈ g.occurrences (pattern.turned turn hd) ∧
        back (found.rearranged (pattern.shown turn)) = found := by
    intro found hfound
    refine ⟨rearranged_mem_occurrences turn hd hfound, Occurrence.rearranged_rearranged ?_ ?_⟩
    · intro position _
      rw [length_of_mem_occurrences hfound]
      exact hlt position
    · intro position hposition
      rw [length_of_mem_occurrences hfound, size_eq_cellCount] at hposition
      exact Shape.turnedIndex_inverse hd turn pattern.zero_not_mem hposition
  have hback : forall found, found ∈ g.occurrences (pattern.turned turn hd) ->
      back found ∈ g.occurrences pattern ∧
        (back found).rearranged (pattern.shown turn) = found := by
    intro found hfound
    refine ⟨mem_occurrences_of_turned turn hd hfound, Occurrence.rearranged_rearranged ?_ ?_⟩
    · intro position _
      rw [length_of_mem_occurrences hfound, size_turned]
      exact shown_lt_size turn hd position
    · intro position hposition
      rw [length_of_mem_occurrences hfound, size_turned, size_eq_cellCount] at hposition
      exact Shape.turnedIndex_turnedIndex_inverse hd turn pattern.zero_not_mem hposition
  exact perm_map_of_inverse occurrences_nodup occurrences_nodup hturn hback

theorem shown_bijOn (turn : Turn dimensions) (hd : pattern.dimensions = dimensions) :
    Set.BijOn (pattern.shown turn) (Set.Iio (pattern.turned turn hd).size)
      (Set.Iio pattern.size) := by
  have hback := turnedIndex_bijOn turn.inverse (dimensions_turned turn hd)
  rwa [turned_turned_inverse turn hd] at hback

/-- Where a pattern is found does not depend on how it is written down.  If it is turned,
its occurrences list the same cells in the order of the turned pattern, in which the cells
correspond one to one to those of the pattern, hold the same values and have the coordinates
along the axes that are shown, counted from the other end along the axes shown backwards.
If axes of length one are inserted and it still has no more axes than the grid, its
occurrences are the same. -/
theorem occurrences_rewritten_perm [DecidableEq cell] (g pattern : Grid cell) :
    (forall turn : Turn pattern.dimensions,
      let next := pattern.turned turn rfl
      let source := pattern.shown turn
      next.dimensions = pattern.dimensions ∧
        (forall i : Fin pattern.dimensions,
          Shape.along next.edges i = Shape.along pattern.edges (turn.axis i)) ∧
        Set.BijOn source (Set.Iio next.size) (Set.Iio pattern.size) ∧
        (forall position, position < next.size ->
          next.get? position = pattern.get? (source position) ∧
            forall i : Fin pattern.dimensions,
              Shape.along (next.edges.coordinates position) i =
                match turn.direction i with
                | .forward =>
                    Shape.along (pattern.edges.coordinates (source position)) (turn.axis i)
                | .backward => Shape.along pattern.edges (turn.axis i) - 1 -
                    Shape.along (pattern.edges.coordinates (source position)) (turn.axis i)) ∧
        (forall found, found ∈ g.occurrences pattern ->
          (found.rearranged source).length = next.size ∧
            forall position, position < next.size ->
              (found.rearranged source)[position]? = found[source position]?) ∧
        (g.occurrences next).Perm
          ((g.occurrences pattern).map (Occurrence.rearranged source))) ∧
      forall widened : Grid cell, pattern.edges.Widened widened.edges ->
        widened.cells = pattern.cells -> widened.dimensions ≤ g.dimensions ->
          (g.occurrences widened).Perm (g.occurrences pattern) := by
  constructor
  · intro turn next source
    have hsize : next.size = pattern.size := size_turned turn rfl
    refine ⟨dimensions_turned turn rfl, Shape.along_turned pattern.edges turn,
      shown_bijOn turn rfl, ?_, ?_, occurrences_turned_pattern_perm g turn rfl⟩
    · intro position hposition
      rw [hsize] at hposition
      refine ⟨get?_turned turn rfl hposition, fun i => ?_⟩
      rw [edges_turned, coordinates_eq_turnedTuple_shown turn rfl hposition,
        Shape.along_turnedTuple]
      rfl
    · intro found hfound
      have hlength := length_of_mem_occurrences hfound
      refine ⟨(Occurrence.length_rearranged source found).trans (hlength.trans hsize.symm), ?_⟩
      intro position hposition
      rw [hsize, ← hlength] at hposition
      exact Occurrence.getElem?_rearranged hposition
        (hlength.symm ▸ shown_lt_size turn rfl position)
  · intro widened hedges hcells hle
    exact occurrences_widened_perm hedges hcells hle

def twoRows : Shape := [2, 2]

def oneRow : Shape := [2]

def numbered : Grid Nat where
  edges := twoRows
  cells := #[1, 2, 3, 4]
  edges_ne_nil := by decide
  zero_not_mem := by decide
  size_eq := rfl
  addressable := by decide

def bar : Grid Nat where
  edges := oneRow
  cells := #[1, 2]
  edges_ne_nil := by decide
  zero_not_mem := by decide
  size_eq := rfl
  addressable := by decide

def standingBar : Grid Nat where
  edges := [2, 1]
  cells := #[1, 2]
  edges_ne_nil := by decide
  zero_not_mem := by decide
  size_eq := rfl
  addressable := by decide

def mirror : Turn bar.dimensions where
  axis := Equiv.refl _
  direction := fun _ => .backward

theorem occurrences_rewritten_perm_bar :
    bar.edges.Widened standingBar.edges ∧ standingBar.cells = bar.cells ∧
      standingBar.dimensions ≤ numbered.dimensions ∧
      (numbered.occurrences standingBar).Perm [[0, 1]] ∧
      (numbered.occurrences (bar.turned mirror rfl)).Perm [[1, 0]] := by
  have hedges : bar.edges.Widened standingBar.edges := .axis 2 (.unit .nil)
  have hcells : standingBar.cells = bar.cells := rfl
  have hle : standingBar.dimensions ≤ numbered.dimensions := by decide
  have hfound : numbered.occurrences bar = [[0, 1]] := by decide
  rcases occurrences_rewritten_perm numbered bar with ⟨hturned, hwidened⟩
  have hmirrored := (hturned mirror).right.right.right.right.right
  have hstanding := hwidened standingBar hedges hcells hle
  rw [hfound] at hmirrored hstanding
  exact ⟨hedges, hcells, hle, hstanding, hmirrored⟩

end Grid
end GridRules
