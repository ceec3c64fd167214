import GridRules.Proofs.Turning

/-!
# Searching turned grids

A placement on an axis of a grid is a placement on the axis of the turned grid that shows
it.  When this axis is shown backwards, the walk goes the other way.

## Main statements

A pattern has the same occurrences in a turned grid as in the grid, up to the renumbering
of the cells.
-/

namespace GridRules

theorem perm_map_of_inverse {item image : Type} {items : List item} {images : List image}
    {f : item -> image} {back : image -> item} (hitems : items.Nodup) (himages : images.Nodup)
    (hf : forall x, x ∈ items -> f x ∈ images ∧ back (f x) = x)
    (hback : forall y, y ∈ images -> back y ∈ items ∧ f (back y) = y) :
    images.Perm (items.map f) := by
  have hnodup : (items.map f).Nodup := by
    apply List.Nodup.map_on _ hitems
    intro x hx x' hx' heq
    rw [← (hf x hx).right, heq, (hf x' hx').right]
  refine (List.perm_ext_iff_of_nodup himages hnodup).mpr fun y => ?_
  rw [List.mem_map]
  constructor
  · intro hy
    exact ⟨back y, hback y hy⟩
  · intro h
    rcases h with ⟨x, hx, heq⟩
    rw [← heq]
    exact (hf x hx).left

/-!
# Placements
-/

namespace Direction

def times : Direction -> Direction -> Direction
  | forward, other => other
  | backward, forward => backward
  | backward, backward => forward

theorem sign_times (first second : Direction) :
    (first.times second).sign = first.sign * second.sign := by
  cases first <;> cases second <;> rfl

end Direction

namespace Turn

variable {dimensions : Nat} {turn : Turn dimensions}

/-- A placement on a grid, as it is seen in the turned grid. -/
def carry (turn : Turn dimensions) (p : Placement) : Placement :=
  if h : p.axis < dimensions then
    let i := turn.axis.symm ⟨p.axis, h⟩
    { axis := i
      direction := (turn.direction i).times p.direction }
  else p

theorem carry_of_axis_eq {p : Placement} {i : Fin dimensions} (h : p.axis = turn.axis i) :
    turn.carry p = { axis := i, direction := (turn.direction i).times p.direction } := by
  have hlt : p.axis < dimensions := h ▸ (turn.axis i).isLt
  have hi : turn.axis.symm ⟨p.axis, hlt⟩ = i :=
    turn.axis.symm_apply_eq.mpr (Fin.ext h)
  rw [carry, dif_pos hlt]
  simp only [hi]

theorem axis_carry_eq_iff {p : Placement} (hp : p.axis < dimensions) {i : Fin dimensions} :
    (turn.carry p).axis = i ↔ p.axis = turn.axis i := by
  rcases turn.exists_axis_eq hp with ⟨j, hj⟩
  rw [carry_of_axis_eq hj, hj, Fin.val_inj, Fin.val_inj, turn.axis.apply_eq_iff_eq]

end Turn

namespace Orientation

variable {dimensions : Nat} {o : Orientation}

theorem Proper.carry {patternDimensions : Nat} (turn : Turn dimensions)
    (h : o.Proper dimensions patternDimensions) :
    Proper (o.map turn.carry) dimensions patternDimensions where
  length_eq := by
    rw [List.length_map]
    exact h.length_eq
  axis_lt := by
    intro q hq
    rcases List.mem_map.mp hq with ⟨p, hp, rfl⟩
    rcases turn.exists_axis_eq (h.axis_lt p hp) with ⟨i, hi⟩
    rw [Turn.carry_of_axis_eq hi]
    exact i.isLt
  nodup := by
    have hnodup := h.nodup
    rw [List.map_map]
    rw [List.Nodup, List.pairwise_map] at hnodup ⊢
    apply hnodup.imp_of_mem
    intro p q hp hq hne heq
    rcases turn.exists_axis_eq (h.axis_lt q hq) with ⟨i, hi⟩
    have hcarry : (turn.carry q).axis = i := (Turn.axis_carry_eq_iff (h.axis_lt q hq)).mpr hi
    exact hne (((Turn.axis_carry_eq_iff (h.axis_lt p hp)).mp (heq.trans hcarry)).trans hi.symm)

theorem shift_carry (turn : Turn dimensions) (haxis : forall p, p ∈ o -> p.axis < dimensions)
    (steps : List Nat) (i : Fin dimensions) :
    shift (o.map turn.carry) steps i =
      (turn.direction i).sign * o.shift steps (turn.axis i) := by
  induction o generalizing steps with
  | nil => simp
  | cons p others ih =>
      cases steps with
      | nil => simp
      | cons count counts =>
          have hp := haxis p List.mem_cons_self
          rw [List.map_cons, shift_cons, shift_cons,
            ih (fun q hq => haxis q (List.mem_cons_of_mem _ hq)), Int.mul_add]
          congr 1
          by_cases hplaced : p.axis = turn.axis i
          · rw [if_pos ((Turn.axis_carry_eq_iff hp).mpr hplaced), if_pos hplaced,
              Turn.carry_of_axis_eq hplaced, Direction.sign_times, Int.mul_assoc]
          · rw [if_neg (mt (Turn.axis_carry_eq_iff hp).mp hplaced), if_neg hplaced, Int.mul_zero]

theorem Reaches.carry {edges : Shape} {start steps tuple : List Nat}
    (hlength : edges.length = dimensions) (turn : Turn dimensions)
    (haxis : forall p, p ∈ o -> p.axis < dimensions) (hstart : edges.Inside start)
    (htuple : edges.Inside tuple) (h : o.Reaches start steps tuple) :
    Reaches (o.map turn.carry) (edges.turnedTuple turn start) steps
      (edges.turnedTuple turn tuple) where
  length_eq := by rw [Shape.length_turnedTuple, Shape.length_turnedTuple]
  along_eq := by
    intro axis hbound
    rw [Shape.length_turnedTuple] at hbound
    have hlt := Shape.axis_lt_length hlength turn ⟨axis, hbound⟩
    have hmoved := h.along_eq _ (hstart.length_eq.symm ▸ hlt)
    have hstartLt := (Shape.inside_iff.mp hstart).right _ hlt
    have htupleLt := (Shape.inside_iff.mp htuple).right _ hlt
    rw [shift_carry turn haxis steps ⟨axis, hbound⟩,
      Shape.along_turnedTuple edges turn tuple ⟨axis, hbound⟩,
      Shape.along_turnedTuple edges turn start ⟨axis, hbound⟩]
    cases hdirection : turn.direction ⟨axis, hbound⟩ with
    | forward =>
        simp only [Shape.anchorPosition, Turn.placement, hdirection, Direction.sign]
        omega
    | backward =>
        simp only [Shape.anchorPosition, Turn.placement, hdirection, Direction.sign]
        omega

end Orientation

namespace Grid

variable {cell : Type} {dimensions : Nat} {g pattern : Grid cell} {found : Occurrence}

/-!
# Occurrences
-/

theorem Embeds.carry (turn : Turn dimensions) (hd : g.dimensions = dimensions)
    {o : Orientation} {start : List Nat}
    (hproper : o.Proper dimensions pattern.dimensions) (h : g.Embeds pattern o start found) :
    (g.turned turn hd).Embeds pattern (o.map turn.carry) (g.edges.turnedTuple turn start)
      (found.map (g.edges.turnedIndex turn)) where
  start_inside := Shape.inside_turnedTuple hd turn h.start_inside
  length_eq := by
    rw [List.length_map]
    exact h.length_eq
  lands := by
    intro position target htarget
    rw [List.getElem?_map, Option.map_eq_some_iff] at htarget
    rcases htarget with ⟨index, hindex, rfl⟩
    rcases h.lands position index hindex with ⟨tuple, hreaches, hflat, hvalue⟩
    rcases Shape.index?_eq_some_iff.mp hflat with ⟨htuple, rfl⟩
    refine ⟨g.edges.turnedTuple turn tuple, ?_, ?_, ?_⟩
    · exact hreaches.carry hd turn hproper.axis_lt h.start_inside htuple
    · refine Shape.index?_eq_some_iff.mpr ⟨Shape.inside_turnedTuple hd turn htuple, ?_⟩
      rw [Shape.turnedIndex, Shape.coordinates_flat htuple, edges_turned]
    · rw [get?_turned_turnedIndex turn hd (indexOf?_lt_size hflat), hvalue]

variable [DecidableEq cell]

theorem mem_occurrences_turned (turn : Turn dimensions) (hd : g.dimensions = dimensions)
    (h : found ∈ g.occurrences pattern) :
    found.map (g.edges.turnedIndex turn) ∈ (g.turned turn hd).occurrences pattern := by
  rcases mem_occurrences_iff.mp h with ⟨o, start, hproper, hembeds⟩
  rw [hd] at hproper
  refine mem_occurrences_iff.mpr ⟨o.map turn.carry, _, ?_, hembeds.carry turn hd hproper⟩
  rw [dimensions_turned turn hd]
  exact hproper.carry turn

theorem map_turnedIndex_inverse (turn : Turn dimensions) (hd : g.dimensions = dimensions)
    (h : found ∈ g.occurrences pattern) :
    (found.map (g.edges.turnedIndex turn)).map
      ((g.edges.turned turn).turnedIndex turn.inverse) = found := by
  have hid : found.map ((g.edges.turned turn).turnedIndex turn.inverse ∘
      g.edges.turnedIndex turn) = found.map id := by
    apply List.map_congr_left
    intro index hindex
    have hlt := lt_size_of_mem_occurrences h hindex
    rw [size_eq_cellCount] at hlt
    exact Shape.turnedIndex_inverse hd turn g.zero_not_mem hlt
  rw [List.map_map, hid, List.map_id]

/-- Search commutes with turning: the occurrences in a turned grid are those in the grid,
with every index carried over to the turned grid.  The indices correspond one to one,
corresponding cells hold the same value, and a coordinate in the turned grid is the
coordinate along the axis that is shown, counted from the other end if this axis is shown
backwards. -/
theorem occurrences_turned_perm (g pattern : Grid cell) (turn : Turn g.dimensions) :
    let next := g.turned turn rfl
    let carried := g.edges.turnedIndex turn
    next.dimensions = g.dimensions ∧
      (forall i : Fin g.dimensions,
        Shape.along next.edges i = Shape.along g.edges (turn.axis i)) ∧
      Set.BijOn carried (Set.Iio g.size) (Set.Iio next.size) ∧
      (forall index, index < g.size ->
        next.get? (carried index) = g.get? index ∧
          forall i : Fin g.dimensions, Shape.along (next.edges.coordinates (carried index)) i =
            match turn.direction i with
            | .forward => Shape.along (g.edges.coordinates index) (turn.axis i)
            | .backward => Shape.along g.edges (turn.axis i) - 1 -
                Shape.along (g.edges.coordinates index) (turn.axis i)) ∧
      (next.occurrences pattern).Perm ((g.occurrences pattern).map (List.map carried)) := by
  have hlength : g.edges.length = g.dimensions := rfl
  refine ⟨dimensions_turned turn rfl, Shape.along_turned g.edges turn,
    turnedIndex_bijOn turn rfl, ?_, ?_⟩
  · intro index hindex
    refine ⟨get?_turned_turnedIndex turn rfl hindex, fun i => ?_⟩
    rw [edges_turned, Shape.coordinates_turnedIndex hlength turn g.zero_not_mem,
      Shape.along_turnedTuple]
    rfl
  · apply perm_map_of_inverse occurrences_nodup occurrences_nodup
    · intro found hfound
      exact ⟨mem_occurrences_turned turn rfl hfound, map_turnedIndex_inverse turn rfl hfound⟩
    · intro found hfound
      have hback := dimensions_turned turn (rfl : g.dimensions = _)
      have hmem := mem_occurrences_turned turn.inverse hback hfound
      have hcarried := map_turnedIndex_inverse turn.inverse hback hfound
      rw [turned_turned_inverse] at hmem
      have hedges : (g.edges.turned turn).turned turn.inverse = g.edges :=
        Shape.turned_inverse hlength turn
      rw [edges_turned, hedges, turn.inverse_inverse] at hcarried
      exact ⟨hmem, hcarried⟩

end Grid
end GridRules
