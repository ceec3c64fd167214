import Mathlib.Order.Interval.Finset.Nat
import GridRules.Proofs.Walks

/-!
# Base cells of a search

Under one orientation the search runs over slices and anchors.  A slice fixes
the coordinates on the free axes and an anchor those on the placed axes, so
together they name one cell of the grid.

## Main statements

The base cells are the cells from which the pattern stays inside the grid, and
no cell is a base twice.
-/

namespace GridRules
namespace Shape

/-- A pattern shape has room in a grid shape under an orientation.  The spans
count its anchor positions along the placed axes. -/
structure Room (edges extents : Shape) (o : Orientation) (spans : List Nat) : Prop where
  edges_pos : 0 ∉ edges
  extents_pos : 0 ∉ extents
  proper : o.Proper edges.length extents.length
  spans_eq : edges.spans? o extents = some spans

def anchors (edges : Shape) (o : Orientation) (start : List Nat) : List Nat :=
  o.map fun placement => anchorPosition edges placement (along start placement.axis)

/-!
# Anchor positions
-/

theorem spans?_eq_some_iff {edges : Shape} {o : Orientation} {extents : Shape}
    {spans : List Nat} (hlength : o.length = extents.length) :
    edges.spans? o extents = some spans ↔
      spans.length = o.length ∧
        forall (i : Nat) (hi : i < o.length),
          along extents i ≤ along edges o[i].axis ∧
            along spans i = along edges o[i].axis - along extents i + 1 := by
  induction o generalizing extents spans with
  | nil => simp [spans?, eq_comm]
  | cons placement others ih =>
      cases extents with
      | nil => cases hlength
      | cons extent extents =>
          have hrest : others.length = extents.length := Nat.succ.inj hlength
          rw [spans?]
          split
          · rename_i hlt
            constructor
            · intro h
              cases h
            · rintro ⟨_, h⟩
              exact absurd (h 0 (Nat.succ_pos _)).left (Nat.not_le.mpr hlt)
          · rename_i hge
            rw [Option.map_eq_some_iff]
            constructor
            · rintro ⟨rest, hsome, rfl⟩
              rcases (ih hrest).mp hsome with ⟨hspans, h⟩
              refine ⟨congrArg Nat.succ hspans, ?_⟩
              intro i hi
              cases i with
              | zero => exact ⟨Nat.not_lt.mp hge, rfl⟩
              | succ i => exact h i (Nat.lt_of_succ_lt_succ hi)
            · rintro ⟨hspans, h⟩
              cases spans with
              | nil => cases hspans
              | cons span rest =>
                  refine ⟨rest, (ih hrest).mpr ⟨Nat.succ.inj hspans, ?_⟩, ?_⟩
                  · intro i hi
                    exact h (i + 1) (Nat.succ_lt_succ hi)
                  · have hspan : span = along edges placement.axis - extent + 1 :=
                      (h 0 (Nat.succ_pos _)).right
                    rw [hspan]

theorem anchorPosition_anchorPosition {edges : Shape} {placement : Placement} {position : Nat}
    (h : position < along edges placement.axis) :
    anchorPosition edges placement (anchorPosition edges placement position) = position := by
  cases hdirection : placement.direction with
  | forward => simp [anchorPosition, hdirection]
  | backward =>
      simp only [anchorPosition, hdirection]
      omega

theorem anchorPosition_lt {edges : Shape} {placement : Placement} {position : Nat}
    (h : position < along edges placement.axis) :
    anchorPosition edges placement position < along edges placement.axis := by
  cases hdirection : placement.direction with
  | forward => simpa [anchorPosition, hdirection] using h
  | backward =>
      simp only [anchorPosition, hdirection]
      omega

theorem anchorPosition_lt_span_iff {edges : Shape} {placement : Placement}
    {position extent : Nat} (hposition : position < along edges placement.axis)
    (hextent : 0 < extent) :
    extent ≤ along edges placement.axis ∧
        anchorPosition edges placement position < along edges placement.axis - extent + 1 ↔
      forall count, count < extent ->
        0 ≤ (position : Int) + placement.direction.sign * (count : Int) ∧
          (position : Int) + placement.direction.sign * (count : Int) <
            along edges placement.axis := by
  cases hdirection : placement.direction with
  | forward =>
      simp only [anchorPosition, hdirection, Direction.sign]
      constructor
      · intro h count hcount
        omega
      · intro h
        have hlast := h (extent - 1) (Nat.sub_one_lt_of_lt hextent)
        omega
  | backward =>
      simp only [anchorPosition, hdirection, Direction.sign]
      constructor
      · intro h count hcount
        omega
      · intro h
        have hlast := h (extent - 1) (Nat.sub_one_lt_of_lt hextent)
        omega

theorem anchors_length (edges : Shape) (o : Orientation) (start : List Nat) :
    (anchors edges o start).length = o.length := by
  simp [anchors]

theorem along_anchors (edges : Shape) {o : Orientation} (start : List Nat) {i : Nat}
    (hi : i < o.length) :
    along (anchors edges o start) i =
      anchorPosition edges o[i] (along start o[i].axis) := by
  rw [along_of_lt (by simpa [anchors] using hi)]
  simp [anchors]

namespace Room

variable {edges extents : Shape} {o : Orientation} {spans : List Nat}

theorem spans_spec (h : Room edges extents o spans) :
    spans.length = o.length ∧
      forall (i : Nat) (hi : i < o.length),
        along extents i ≤ along edges o[i].axis ∧
          along spans i = along edges o[i].axis - along extents i + 1 :=
  (spans?_eq_some_iff h.proper.length_eq).mp h.spans_eq

theorem axis_lt (h : Room edges extents o spans) {i : Nat} (hi : i < o.length) :
    o[i].axis < edges.length :=
  h.proper.axis_lt o[i] (List.getElem_mem hi)

theorem extent_pos (h : Room edges extents o spans) {i : Nat} (hi : i < o.length) :
    0 < along extents i :=
  along_pos h.extents_pos (h.proper.length_eq ▸ hi)

theorem span_le (h : Room edges extents o spans) {i : Nat} (hi : i < o.length) :
    along spans i ≤ along edges o[i].axis := by
  have hspan := h.spans_spec.right i hi
  have hextent := h.extent_pos hi
  omega

theorem spans_pos (h : Room edges extents o spans) : 0 ∉ spans := by
  intro hzero
  rcases List.mem_iff_getElem.mp hzero with ⟨i, hi, heq⟩
  have hspan := (h.spans_spec.right i (h.spans_spec.left ▸ hi)).right
  rw [along_of_lt hi] at hspan
  omega

theorem freeEdges_pos (h : Room edges extents o spans) : 0 ∉ freeEdges edges o := by
  intro hzero
  rcases List.mem_map.mp hzero with ⟨axis, haxis, heq⟩
  have hpos := along_pos h.edges_pos (Orientation.mem_freeAxes.mp haxis).left
  omega

theorem anchors_inside_iff (h : Room edges extents o spans) {start : List Nat} :
    Inside spans (anchors edges o start) ↔
      forall (i : Nat) (hi : i < o.length),
        anchorPosition edges o[i] (along start o[i].axis) < along spans i := by
  rw [Shape.inside_iff, anchors_length, h.spans_spec.left]
  constructor
  · rintro ⟨_, hinside⟩ i hi
    have hlt := hinside i hi
    rwa [along_anchors edges start hi] at hlt
  · intro hinside
    refine ⟨rfl, ?_⟩
    intro i hi
    rw [along_anchors edges start hi]
    exact hinside i hi

/-!
# Slices and anchors name cells

The coordinates of a cell on the placed axes and on the free axes can be chosen
independently, and together they make up the cell.
-/

theorem flat_eq_terms (h : Room edges extents o spans) {start : List Nat}
    (hstart : edges.Inside start) :
    flat edges start =
      (sliceTerms edges (o.freeAxes edges.length)
          ((o.freeAxes edges.length).map (along start))).sum +
        (anchorTerms edges o (anchors edges o start)).sum := by
  let weighted : Nat -> Nat := fun axis => along start axis * along edges.strides axis
  have hfree : sliceTerms edges (o.freeAxes edges.length)
      ((o.freeAxes edges.length).map (along start)) =
        (o.freeAxes edges.length).map weighted := by
    rw [sliceTerms, List.zipWith_map_left, List.zipWith_self]
  have hplaced : anchorTerms edges o (anchors edges o start) =
      (o.map Placement.axis).map weighted := by
    rw [anchorTerms, anchors, List.zipWith_map_left, List.zipWith_self, List.map_map]
    apply List.map_congr_left
    intro placement hmem
    have hlt := (Shape.inside_iff.mp hstart).right _ (h.proper.axis_lt placement hmem)
    rw [anchorPosition_anchorPosition hlt]
    rfl
  have hsum : flat edges start = ((List.range edges.length).map weighted).sum := by
    rw [flat_eq_sum hstart.length_eq, ← List.toFinset_range,
      List.sum_toFinset _ List.nodup_range]
  rw [hsum, (h.proper.range_perm.map weighted).sum_eq, List.map_append, List.sum_append, hfree,
    hplaced, Nat.add_comm]

theorem exists_values {keys values : List Nat} (hnodup : keys.Nodup)
    (hlength : values.length = keys.length) : exists f : Nat -> Nat, keys.map f = values := by
  induction keys generalizing values with
  | nil => exact ⟨id, (List.length_eq_zero_iff.mp hlength).symm⟩
  | cons key keys ih =>
      cases values with
      | nil => cases hlength
      | cons value values =>
          rcases List.nodup_cons.mp hnodup with ⟨hnew, hkeys⟩
          rcases ih hkeys (Nat.succ.inj hlength) with ⟨f, hf⟩
          refine ⟨Function.update f key value, ?_⟩
          rw [List.map_cons, Function.update_self, ← hf]
          congr 1
          apply List.map_congr_left
          intro other hother
          have hne : other ≠ key := fun heq => hnew (heq ▸ hother)
          exact Function.update_of_ne hne _ _

theorem exists_coordinates (h : Room edges extents o spans) {slice anchor : List Nat}
    (hslice : slice.length = (o.freeAxes edges.length).length)
    (hanchor : anchor.length = o.length) :
    exists f : Nat -> Nat, (o.freeAxes edges.length).map f = slice ∧
      forall (i : Nat) (hi : i < o.length),
        f o[i].axis = anchorPosition edges o[i] (along anchor i) := by
  let positions := List.zipWith (anchorPosition edges) o anchor
  have hkeys : (o.map Placement.axis ++ o.freeAxes edges.length).Nodup :=
    h.proper.range_perm.nodup_iff.mp List.nodup_range
  have hlength : (positions ++ slice).length =
      (o.map Placement.axis ++ o.freeAxes edges.length).length := by
    simp [positions, hanchor, hslice]
  rcases exists_values hkeys hlength with ⟨f, hf⟩
  rw [List.map_append] at hf
  rcases List.append_inj hf (by simp [positions, hanchor]) with ⟨hplaced, hfree⟩
  refine ⟨f, hfree, ?_⟩
  intro i hi
  have heq := congrArg (fun values => values[i]?) hplaced
  simpa [positions, hi, hanchor, along] using heq

theorem forall_axis_of (h : Room edges extents o spans) {f : Nat -> Nat}
    (hfree : forall axis, axis ∈ o.freeAxes edges.length -> f axis < along edges axis)
    (hplaced : forall (i : Nat) (hi : i < o.length), f o[i].axis < along edges o[i].axis) :
    forall axis, axis < edges.length -> f axis < along edges axis := by
  intro axis haxis
  have hmem := h.proper.range_perm.mem_iff.mp (List.mem_range.mpr haxis)
  rcases List.mem_append.mp hmem with hmem | hmem
  · rcases List.mem_map.mp hmem with ⟨placement, hplacement, haxisEq⟩
    rcases List.mem_iff_getElem.mp hplacement with ⟨i, hi, hplacementEq⟩
    subst hplacementEq haxisEq
    exact hplaced i hi
  · exact hfree axis hmem

theorem exists_start (h : Room edges extents o spans) {slice anchor : List Nat}
    (hslice : (freeEdges edges o).Inside slice) (hanchor : Inside spans anchor) :
    exists start, edges.Inside start ∧
      (o.freeAxes edges.length).map (along start) = slice ∧
        anchors edges o start = anchor := by
  have hanchorLength : anchor.length = o.length :=
    hanchor.length_eq.trans h.spans_spec.left
  have hsliceLength : slice.length = (o.freeAxes edges.length).length := by
    rw [hslice.length_eq, freeEdges, List.length_map]
  rcases h.exists_coordinates hsliceLength hanchorLength with ⟨f, hfree, hposition⟩
  have hanchorLt : forall (i : Nat) (hi : i < o.length),
      along anchor i < along edges o[i].axis := by
    intro i hi
    have hlt := (Shape.inside_iff.mp hanchor).right i (h.spans_spec.left ▸ hi)
    exact Nat.lt_of_lt_of_le hlt (h.span_le hi)
  have hfreeBound : forall axis, axis ∈ o.freeAxes edges.length ->
      f axis < along edges axis := by
    rwa [← hfree, freeEdges, Inside, List.forall₂_map_left_iff, List.forall₂_map_right_iff,
      List.forall₂_same] at hslice
  have hplacedBound : forall (i : Nat) (hi : i < o.length),
      f o[i].axis < along edges o[i].axis := by
    intro i hi
    rw [hposition i hi]
    exact anchorPosition_lt (hanchorLt i hi)
  -- Every axis is free or placed, so the slice and the anchor choose all coordinates.
  have hbound := h.forall_axis_of hfreeBound hplacedBound
  refine ⟨(List.range edges.length).map f, Shape.inside_iff.mpr ⟨by simp, ?_⟩, ?_, ?_⟩
  · intro axis haxis
    rw [along_map_range f haxis]
    exact hbound axis haxis
  · rw [← hfree]
    apply List.map_congr_left
    intro axis haxis
    exact along_map_range f (Orientation.mem_freeAxes.mp haxis).left
  · apply ext_along
    · rw [anchors_length, hanchorLength]
    · intro i hi
      have hi : i < o.length := anchors_length edges o _ ▸ hi
      rw [along_anchors edges _ hi, along_map_range f (h.axis_lt hi), hposition i hi,
        anchorPosition_anchorPosition (hanchorLt i hi)]

theorem base_eq_sum (edges : Shape) (o : Orientation) (spans : List Nat) (slice anchor : Nat) :
    base edges o spans slice anchor =
      (sliceTerms edges (o.freeAxes edges.length) (coordinates (freeEdges edges o) slice)).sum +
        (anchorTerms edges o (coordinates spans anchor)).sum := rfl

theorem base_eq_flat (h : Room edges extents o spans) (slice anchor : Nat) :
    exists start, edges.Inside start ∧
      (o.freeAxes edges.length).map (along start) = coordinates (freeEdges edges o) slice ∧
        anchors edges o start = coordinates spans anchor ∧
          base edges o spans slice anchor = flat edges start := by
  rcases h.exists_start (inside_coordinates h.freeEdges_pos slice)
      (inside_coordinates h.spans_pos anchor) with ⟨start, hstart, hslice, hanchor⟩
  refine ⟨start, hstart, hslice, hanchor, ?_⟩
  rw [h.flat_eq_terms hstart, hslice, hanchor, base_eq_sum]

theorem base_inj (h : Room edges extents o spans) {slice slice' anchor anchor' : Nat}
    (hslice : slice < (freeEdges edges o).cellCount)
    (hslice' : slice' < (freeEdges edges o).cellCount)
    (hanchor : anchor < cellCount spans) (hanchor' : anchor' < cellCount spans)
    (heq : base edges o spans slice anchor = base edges o spans slice' anchor') :
    slice = slice' ∧ anchor = anchor' := by
  rcases h.base_eq_flat slice anchor with
    ⟨start, hstart, hsliceEq, hanchorEq, hbase⟩
  rcases h.base_eq_flat slice' anchor' with
    ⟨start', hstart', hsliceEq', hanchorEq', hbase'⟩
  have hsame : start = start' := flat_inj hstart hstart' (hbase ▸ hbase' ▸ heq)
  subst hsame
  constructor
  · rw [← flat_coordinates hslice, ← hsliceEq, hsliceEq', flat_coordinates hslice']
  · rw [← flat_coordinates hanchor, ← hanchorEq, hanchorEq', flat_coordinates hanchor']

/-!
# All bases
-/

/-- The bases are the cells that have an anchor position on every placed axis. -/
theorem mem_bases_iff (h : Room edges extents o spans) {index : Nat} :
    index ∈ bases edges o spans ↔
      exists start, edges.Inside start ∧ Inside spans (anchors edges o start) ∧
        index = flat edges start := by
  simp only [bases, List.mem_flatMap, List.mem_map, List.mem_range]
  constructor
  · rintro ⟨slice, _, anchor, _, rfl⟩
    rcases h.base_eq_flat slice anchor with
      ⟨start, hstart, _, hanchor, hbase⟩
    exact ⟨start, hstart, hanchor ▸ inside_coordinates h.spans_pos anchor, hbase⟩
  · rintro ⟨start, hstart, hanchors, rfl⟩
    have hslice : (freeEdges edges o).Inside ((o.freeAxes edges.length).map (along start)) := by
      rw [freeEdges, Inside, List.forall₂_map_left_iff, List.forall₂_map_right_iff,
        List.forall₂_same]
      intro axis haxis
      exact (Shape.inside_iff.mp hstart).right axis (Orientation.mem_freeAxes.mp haxis).left
    refine ⟨_, flat_lt hslice, _, flat_lt hanchors, ?_⟩
    rw [base_eq_sum, coordinates_flat hslice, coordinates_flat hanchors, ← h.flat_eq_terms hstart]

theorem bases_nodup (h : Room edges extents o spans) : (bases edges o spans).Nodup := by
  rw [bases, List.nodup_flatMap]
  constructor
  · intro slice hslice
    apply List.Nodup.map_on _ List.nodup_range
    intro anchor hanchor anchor' hanchor' heq
    have hslice := List.mem_range.mp hslice
    exact (h.base_inj hslice hslice (List.mem_range.mp hanchor) (List.mem_range.mp hanchor')
      heq).right
  · apply List.nodup_range.imp_of_mem
    intro slice slice' hslice hslice' hne index hindex hindex'
    rcases List.mem_map.mp hindex with ⟨anchor, hanchor, rfl⟩
    rcases List.mem_map.mp hindex' with ⟨anchor', hanchor', heq⟩
    exact hne (h.base_inj (List.mem_range.mp hslice) (List.mem_range.mp hslice')
      (List.mem_range.mp hanchor) (List.mem_range.mp hanchor') heq.symm).left

end Room

/-!
# Walks from a base

A cell is a base exactly when every walk through the pattern that starts there
stays inside the grid.
-/

def stepsAlong (dimensions i count : Nat) : List Nat :=
  (List.range dimensions).map fun axis => if axis = i then count else 0

theorem stepsAlong_inside {extents : Shape} (hextents : 0 ∉ extents) {i count : Nat}
    (hcount : count < along extents i) : extents.Inside (stepsAlong extents.length i count) := by
  refine Shape.inside_iff.mpr ⟨by simp [stepsAlong], ?_⟩
  intro axis haxis
  rw [stepsAlong, along_map_range _ haxis]
  split
  · rename_i heq
    exact heq ▸ hcount
  · exact along_pos hextents haxis

theorem shift_stepsAlong {o : Orientation} (hnodup : (o.map Placement.axis).Nodup) {i : Nat}
    (hi : i < o.length) (count : Nat) :
    o.shift (stepsAlong o.length i count) o[i].axis = o[i].direction.sign * (count : Int) := by
  rw [Orientation.shift_placed hnodup (by simp [stepsAlong]) hi, stepsAlong,
    along_map_range _ hi, if_pos rfl]

theorem shift_stepsAlong_of_ne {o : Orientation} (hnodup : (o.map Placement.axis).Nodup) {i : Nat}
    (hi : i < o.length) {count axis : Nat} (hne : o[i].axis ≠ axis) :
    o.shift (stepsAlong o.length i count) axis = 0 := by
  by_cases hplaced : axis ∈ o.map Placement.axis
  · rcases List.mem_map.mp hplaced with ⟨placement, hmem, rfl⟩
    rcases List.mem_iff_getElem.mp hmem with ⟨j, hj, rfl⟩
    have hji : j ≠ i := by
      rintro rfl
      exact hne rfl
    rw [Orientation.shift_placed hnodup (by simp [stepsAlong]) hj, stepsAlong,
      along_map_range _ hj, if_neg hji]
    simp
  · exact Orientation.shift_of_not_placed
      (fun p hp heq => hplaced (List.mem_map.mpr ⟨p, hp, heq⟩)) _

theorem Room.exists_reaches {edges extents : Shape} {o : Orientation} {spans : List Nat}
    (h : Room edges extents o spans) {start steps : List Nat} (hstart : edges.Inside start)
    (hanchors : Inside spans (anchors edges o start)) (hsteps : extents.Inside steps) :
    exists tuple, edges.Inside tuple ∧ o.Reaches start steps tuple := by
  apply Orientation.exists_reaches hstart.length_eq
  intro axis haxis
  have hbelow := (Shape.inside_iff.mp hstart).right axis haxis
  by_cases hplaced : axis ∈ o.map Placement.axis
  · rcases List.mem_map.mp hplaced with ⟨placement, hmem, rfl⟩
    rcases List.mem_iff_getElem.mp hmem with ⟨i, hi, rfl⟩
    have hlength : steps.length = o.length :=
      hsteps.length_eq.trans h.proper.length_eq.symm
    have hspan := h.spans_spec.right i hi
    have hanchor := h.anchors_inside_iff.mp hanchors i hi
    rw [hspan.right] at hanchor
    rw [Orientation.shift_placed h.proper.nodup hlength hi]
    apply (anchorPosition_lt_span_iff hbelow (h.extent_pos hi)).mp ⟨hspan.left, hanchor⟩
    exact (Shape.inside_iff.mp hsteps).right i (h.proper.length_eq ▸ hi)
  · have hstill : o.shift steps axis = 0 :=
      Orientation.shift_of_not_placed
        (fun p hp heq => hplaced (List.mem_map.mpr ⟨p, hp, heq⟩)) steps
    omega

/-- A cell from which every walk stays inside the grid is a base. -/
theorem exists_room {edges extents : Shape} {o : Orientation} (hedges : 0 ∉ edges)
    (hextents : 0 ∉ extents) (hproper : o.Proper edges.length extents.length)
    {start : List Nat} (hstart : edges.Inside start)
    (hwalks : forall steps, extents.Inside steps ->
      exists tuple, edges.Inside tuple ∧ o.Reaches start steps tuple) :
    exists spans, Room edges extents o spans ∧ Inside spans (anchors edges o start) := by
  have hfits : forall (i : Nat) (hi : i < o.length),
      along extents i ≤ along edges o[i].axis ∧
        anchorPosition edges o[i] (along start o[i].axis) <
          along edges o[i].axis - along extents i + 1 := by
    intro i hi
    have haxis : o[i].axis < edges.length := hproper.axis_lt o[i] (List.getElem_mem hi)
    have hextent : 0 < along extents i := along_pos hextents (hproper.length_eq ▸ hi)
    apply (anchorPosition_lt_span_iff ((Shape.inside_iff.mp hstart).right _ haxis) hextent).mpr
    intro count hcount
    rcases hwalks _ (stepsAlong_inside hextents hcount) with ⟨tuple, htuple, hreaches⟩
    have halong := hreaches.along_eq o[i].axis (hstart.length_eq ▸ haxis)
    rw [← hproper.length_eq, shift_stepsAlong hproper.nodup hi] at halong
    have hlt := (Shape.inside_iff.mp htuple).right _ haxis
    omega
  let spans := List.zipWith
    (fun placement extent => along edges placement.axis - extent + 1) o extents
  have hspan : forall (i : Nat) (hi : i < o.length),
      along spans i = along edges o[i].axis - along extents i + 1 := by
    intro i hi
    have hi' : i < extents.length := hproper.length_eq ▸ hi
    simp [spans, along, hi, hi']
  have hsome : edges.spans? o extents = some spans := by
    refine (spans?_eq_some_iff hproper.length_eq).mpr ⟨?_, ?_⟩
    · simp [spans, hproper.length_eq]
    · exact fun i hi => ⟨(hfits i hi).left, hspan i hi⟩
  have hroom : Room edges extents o spans :=
    { edges_pos := hedges
      extents_pos := hextents
      proper := hproper
      spans_eq := hsome }
  refine ⟨spans, hroom, hroom.anchors_inside_iff.mpr ?_⟩
  intro i hi
  rw [hspan i hi]
  exact (hfits i hi).right

end Shape
end GridRules
