import GridRules.Config
import GridRules.Proofs.PatternSearch
import GridRules.Proofs.Words

/-!
# Pattern search in machine words

A search multiplies positions by steps, adds terms of either sign and turns the result into
an index.  Here it is carried out with checked operations, in which every look-up must find
something as well.  Two sums bound all numbers that occur.  The terms of a base are those of
the flat index of a cell.  The terms of a displacement, with their signs left out, are those
of a walk that only goes forward, and such a walk ends inside the grid.

## Main statements

On grids whose cells can be counted in a signed word, the search in machine words has a
result for every pattern, and the result is that of the exact search.
-/

namespace GridRules
namespace Word

/-!
# Definitions
-/

/-- Number of anchor positions along each pattern axis.  The inner option says whether the
pattern fits. -/
def spans? (edges : Shape) : Orientation -> Shape -> Option (Option (List Nat))
  | placement :: others, extent :: extents => do
      let edge <- edges[placement.axis]?
      if edge < extent then some none
      else do
        let room <- sub? edge extent
        let span <- add? room 1
        let rest <- spans? edges others extents
        some (rest.map fun spans => span :: spans)
  | _, _ => some (some [])

/-- A distance is multiplied out as an unsigned word, and gets its sign as a signed one. -/
def displacementTerm? (steps : List Nat) (entry : Nat × Placement) : Option Int := do
  let step <- steps[entry.2.axis]?
  let distance <- mul? entry.1 step
  let walked <- signed? distance
  signed? (entry.2.direction.sign * walked)

def displacements? (steps : List Nat) (extents : Shape) (o : Orientation) (count : Nat) :
    Option (List Int) :=
  (List.range count).mapM fun position => do
    let tuple <- coordinates? extents position
    sumFrom? signed? (displacementTerm? steps) 0 (tuple.zip o)

def sliceTerm? (steps : List Nat) (entry : Nat × Nat) : Option Nat := do
  let step <- steps[entry.2]?
  mul? entry.1 step

def anchorPosition? (edges : Shape) (placement : Placement) (anchor : Nat) : Option Nat :=
  match placement.direction with
  | .forward => some anchor
  | .backward => do
      let edge <- edges[placement.axis]?
      let last <- sub? edge 1
      sub? last anchor

def anchorTerm? (edges : Shape) (steps : List Nat) (entry : Nat × Placement) : Option Nat := do
  let position <- anchorPosition? edges entry.2 entry.1
  let step <- steps[entry.2.axis]?
  mul? position step

def base? (edges : Shape) (steps : List Nat) (o : Orientation) (freeEdges spans : Shape)
    (slice anchor : Nat) : Option Int := do
  let outer <- coordinates? freeEdges slice
  let sliceBase <- sumFrom? unsigned? (sliceTerm? steps) 0 (outer.zip (o.freeAxes edges.length))
  let inner <- coordinates? spans anchor
  let anchorBase <- sumFrom? unsigned? (anchorTerm? edges steps) 0 (inner.zip o)
  let base <- add? sliceBase anchorBase
  signed? base

def bases? (edges : Shape) (steps : List Nat) (o : Orientation) (spans : Shape) :
    Option (List Int) := do
  let freeEdges <- (o.freeAxes edges.length).mapM fun axis => edges[axis]?
  let slices <- Shape.cellCount? freeEdges
  let anchors <- Shape.cellCount? spans
  let rows <- (List.range slices).mapM fun slice =>
    (List.range anchors).mapM fun anchor => base? edges steps o freeEdges spans slice anchor
  some rows.flatten

/-- The sum must be a signed word, and then an index. -/
def target? (base displacement : Int) : Option Nat := do
  let index <- signed? (base + displacement)
  if 0 ≤ index then some index.toNat else none

section Search

variable {cell : Type} [DecidableEq cell]

def holdsAt? (g : Grid cell) (wanted : List (Int × cell)) (base : Int) : Option Bool :=
  wanted.allM fun entry => do
    let index <- target? base entry.1
    let value <- g.get? index
    some (value == entry.2)

/-- The occurrence at a base.  The inner option says whether there is one. -/
def occurrenceAt? (g pattern : Grid cell) (displacements : List Int) (base : Int) :
    Option (Option Occurrence) := do
  let holds <- holdsAt? g (displacements.zip pattern.cells.toList) base
  if holds then do
    let found <- displacements.mapM (target? base)
    some (some found)
  else some none

def occurrencesUnder? (g pattern : Grid cell) (steps : List Nat) (o : Orientation) :
    Option (List Occurrence) := do
  let room <- spans? g.edges o pattern.edges
  match room with
  | none => some []
  | some spans => do
      let displacements <- displacements? steps pattern.edges o pattern.size
      let bases <- bases? g.edges steps o spans
      let found <- bases.mapM (occurrenceAt? g pattern displacements)
      some (found.filterMap id)

def occurrences? (g pattern : Grid cell) : Option (List Occurrence) := do
  let steps <- strides? g.edges
  let found <- (Orientation.distinguishable g.dimensions pattern.edges).mapM
    (occurrencesUnder? g pattern steps)
  some found.flatten

end Search
end Word

/-!
# Walks that only go forward
-/

def Orientation.forwards (o : Orientation) : Orientation :=
  o.map fun placement => { axis := placement.axis, direction := .forward }

theorem Orientation.map_axis_forwards (o : Orientation) :
    o.forwards.map Placement.axis = o.map Placement.axis := by
  rw [forwards, List.map_map]
  rfl

namespace Shape

/-- Distances through the flat numbering that are walked along each placement. -/
def distances (edges : Shape) (o : Orientation) (tuple : List Nat) : List Nat :=
  (tuple.zip o).map fun entry => entry.1 * along edges.strides entry.2.axis

section

variable {edges extents : Shape} {o : Orientation} {spans tuple : List Nat}

theorem spans?_forwards (edges : Shape) (o : Orientation) (extents : Shape) :
    edges.spans? o.forwards extents = edges.spans? o extents := by
  induction o generalizing extents with
  | nil => rfl
  | cons placement others ih =>
      cases extents with
      | nil => rfl
      | cons extent extents =>
          rw [Orientation.forwards, List.map_cons, spans?, spans?, ← ih extents]
          rfl

theorem Room.forwards (h : Room edges extents o spans) :
    Room edges extents o.forwards spans where
  edges_pos := h.edges_pos
  extents_pos := h.extents_pos
  proper := by
    refine ⟨?_, ?_, ?_⟩
    · rw [Orientation.forwards, List.length_map, h.proper.length_eq]
    · intro p hp
      rcases List.mem_map.mp hp with ⟨placement, hplacement, heq⟩
      rw [← heq]
      exact h.proper.axis_lt placement hplacement
    · rw [o.map_axis_forwards]
      exact h.proper.nodup
  spans_eq := (spans?_forwards edges o extents).trans h.spans_eq

theorem displacementTerms_eq_map (edges : Shape) (o : Orientation) (tuple : List Nat) :
    displacementTerms edges o tuple =
      (tuple.zip o).map fun entry =>
        entry.2.direction.sign * ((entry.1 * along edges.strides entry.2.axis : Nat) : Int) := by
  rw [displacementTerms, List.map_zip_eq_zipWith]
  rfl

theorem sum_displacementTerms_forwards (edges : Shape) (o : Orientation) (tuple : List Nat) :
    (displacementTerms edges o.forwards tuple).sum = (distances edges o tuple).sum := by
  rw [displacementTerms_eq_map, Orientation.forwards, List.zip_map_right, List.map_map, distances,
    Nat.cast_list_sum, List.map_map]
  congr 1
  apply List.map_congr_left
  intro entry _
  exact Int.one_mul _

theorem along_coordinates_zero (edges : Shape) (axis : Nat) :
    along (coordinates edges 0) axis = 0 := by
  by_cases haxis : axis < (coordinates edges 0).length
  · rw [along_of_lt haxis]
    exact eq_zero_of_mem_coordinates_zero (List.getElem_mem haxis)
  · rw [along, List.getD_eq_getElem?_getD, List.getElem?_eq_none (Nat.not_lt.mp haxis)]
    rfl

theorem Room.sum_distances_lt (h : Room edges extents o spans) (htuple : extents.Inside tuple) :
    (distances edges o tuple).sum < edges.cellCount := by
  have hstart : edges.Inside (edges.coordinates 0) := inside_coordinates h.edges_pos 0
  have hanchors : Inside spans (anchors edges o.forwards (edges.coordinates 0)) := by
    apply h.forwards.anchors_inside_iff.mpr
    intro i hi
    have hposition : anchorPosition edges o.forwards[i]
        (along (edges.coordinates 0) o.forwards[i].axis) = 0 := by
      simp [Orientation.forwards, anchorPosition, along_coordinates_zero]
    rw [hposition]
    exact along_pos h.spans_pos (h.forwards.spans_spec.left ▸ hi)
  -- The walk forward from the first cell ends inside the grid, and all its signs are positive.
  rcases h.forwards.exists_reaches hstart hanchors htuple with ⟨reached, hinside, hreaches⟩
  have hflat := flat_reaches h.forwards.proper.axis_lt hstart.length_eq hreaches
  rw [flat_coordinates (cellCount_pos h.edges_pos), sum_displacementTerms_forwards] at hflat
  have hlt := flat_lt hinside
  omega

end

end Shape

namespace Grid

variable {cell : Type} [DecidableEq cell] {g pattern : Grid cell}

def occurrenceAt (g pattern : Grid cell) (displacements : List Int) (base : Nat) :
    Option Occurrence :=
  if g.holdsAt (displacements.zip pattern.cells.toList) base then
    some (displacements.map (target base))
  else none

theorem occurrencesUnder_eq_filterMap {o : Orientation} {spans : List Nat}
    (h : g.edges.spans? o pattern.edges = some spans) :
    g.occurrencesUnder pattern o =
      (g.edges.bases o spans).filterMap
        (g.occurrenceAt pattern (g.edges.displacements pattern.edges o)) := by
  rw [occurrencesUnder, h]
  show ((g.edges.bases o spans).filter _).map _ = _
  induction g.edges.bases o spans with
  | nil => rfl
  | cons base rest ih =>
      rw [List.filter_cons, List.filterMap_cons, occurrenceAt]
      split
      · rw [List.map_cons, ih]
      · exact ih

end Grid

namespace Word

section

variable {edges extents : Shape} {o : Orientation} {spans : List Nat}

/-!
# Anchors and displacements
-/

theorem getElem?_eq_along {lengths : List Nat} {axis : Nat} (h : axis < lengths.length) :
    lengths[axis]? = some (Shape.along lengths axis) := by
  rw [Shape.along_of_lt h, List.getElem?_eq_getElem h]

theorem along_lt_addressLimit (h : edges.Acceptable) {axis : Nat} (haxis : axis < edges.length) :
    Shape.along edges axis < addressLimit := by
  rw [Shape.along_of_lt haxis]
  have hdvd : edges[axis] ∣ edges.cellCount := by
    rw [Shape.cellCount_eq_prod]
    exact List.dvd_prod (List.getElem_mem haxis)
  exact Nat.lt_of_le_of_lt (Nat.le_of_dvd (Shape.cellCount_pos h.zero_not_mem) hdvd)
    h.addressable

theorem spans?_eq_some (h : edges.Acceptable) (haxis : forall p, p ∈ o -> p.axis < edges.length)
    (hextents : 0 ∉ extents) : spans? edges o extents = some (edges.spans? o extents) := by
  induction o generalizing extents with
  | nil => rfl
  | cons placement others ih =>
      cases extents with
      | nil => rfl
      | cons extent extents =>
          rw [List.mem_cons, not_or] at hextents
          have hplaced := haxis placement List.mem_cons_self
          have hedge := along_lt_addressLimit h hplaced
          have hothers := ih (fun p hp => haxis p (List.mem_cons_of_mem _ hp)) hextents.right
          rw [spans?, getElem?_eq_along hplaced, some_bind, Shape.spans?]
          by_cases hfits : Shape.along edges placement.axis < extent
          · rw [if_pos hfits, if_pos hfits]
          · have hextent : 0 < extent := Nat.pos_of_ne_zero (Ne.symm hextents.left)
            rw [if_neg hfits, if_neg hfits, sub?_of_le (Nat.le_of_not_lt hfits), some_bind,
              add?_of_lt (by omega), some_bind, hothers, some_bind]

theorem natAbs_sign_mul (direction : Direction) (number : Nat) :
    (direction.sign * (number : Int)).natAbs = number := by
  cases direction <;> simp [Direction.sign]

theorem displacementTerm?_eq_some {entry : Nat × Placement} (haxis : entry.2.axis < edges.length)
    (hlt : entry.1 * Shape.along edges.strides entry.2.axis < signedLimit) :
    displacementTerm? edges.strides entry =
      some (entry.2.direction.sign *
        ((entry.1 * Shape.along edges.strides entry.2.axis : Nat) : Int)) := by
  have hsteps : entry.2.axis < edges.strides.length := by rwa [Shape.strides_length]
  have hword : entry.1 * Shape.along edges.strides entry.2.axis < addressLimit :=
    Nat.lt_trans hlt (by decide)
  have hwalked : signed? ((entry.1 * Shape.along edges.strides entry.2.axis : Nat) : Int) =
      some ((entry.1 * Shape.along edges.strides entry.2.axis : Nat) : Int) :=
    signed?_of_lt (by rwa [Int.natAbs_natCast])
  rw [displacementTerm?, getElem?_eq_along hsteps, some_bind, mul?_of_lt hword, some_bind,
    hwalked, some_bind]
  exact signed?_of_lt (by rwa [natAbs_sign_mul])

theorem displacements?_eq_some (h : Shape.Room edges extents o spans)
    (hsigned : edges.cellCount < signedLimit) :
    displacements? edges.strides extents o extents.cellCount =
      some (edges.displacements extents o) := by
  rw [Grid.displacements_eq_sums]
  apply mapM_of_forall
  intro position _
  have hsum := h.sum_distances_lt (Shape.inside_coordinates h.extents_pos position)
  rw [coordinates?_eq_some h.extents_pos, some_bind, Shape.displacementTerms_eq_map]
  apply sumFrom?_signed
  · intro entry hentry hlt
    rw [natAbs_sign_mul] at hlt
    exact displacementTerm?_eq_some (h.proper.axis_lt _ (List.of_mem_zip hentry).2) hlt
  · simp only [natAbs_sign_mul]
    exact Nat.lt_trans hsum hsigned

/-!
# Bases
-/

theorem sliceTerm?_eq_some {entry : Nat × Nat} (haxis : entry.2 < edges.length)
    (hlt : entry.1 * Shape.along edges.strides entry.2 < addressLimit) :
    sliceTerm? edges.strides entry =
      some (entry.1 * Shape.along edges.strides entry.2) := by
  have hsteps : entry.2 < edges.strides.length := by rwa [Shape.strides_length]
  rw [sliceTerm?, getElem?_eq_along hsteps, some_bind, mul?_of_lt hlt]

theorem sumFrom?_sliceTerms {free tuple : List Nat}
    (haxis : forall axis, axis ∈ free -> axis < edges.length)
    (hlt : (edges.sliceTerms free tuple).sum < addressLimit) :
    sumFrom? unsigned? (sliceTerm? edges.strides) 0 (tuple.zip free) =
      some (edges.sliceTerms free tuple).sum := by
  apply sumFrom?_zipWith _ hlt
  intro entry hentry hword
  exact sliceTerm?_eq_some (haxis _ (List.of_mem_zip hentry).2) hword

theorem anchorPosition?_eq_some {placement : Placement} {anchor : Nat}
    (haxis : placement.axis < edges.length)
    (hanchor : anchor < Shape.along edges placement.axis) :
    anchorPosition? edges placement anchor =
      some (Shape.anchorPosition edges placement anchor) := by
  cases hdirection : placement.direction with
  | forward => simp [anchorPosition?, Shape.anchorPosition, hdirection]
  | backward =>
      simp only [anchorPosition?, Shape.anchorPosition, hdirection]
      rw [getElem?_eq_along haxis, some_bind, sub?_of_le (by omega), some_bind,
        sub?_of_le (by omega)]

theorem anchorTerm?_eq_some {entry : Nat × Placement} (haxis : entry.2.axis < edges.length)
    (hanchor : entry.1 < Shape.along edges entry.2.axis)
    (hlt : Shape.anchorPosition edges entry.2 entry.1 *
      Shape.along edges.strides entry.2.axis < addressLimit) :
    anchorTerm? edges edges.strides entry =
      some (Shape.anchorPosition edges entry.2 entry.1 *
        Shape.along edges.strides entry.2.axis) := by
  have hsteps : entry.2.axis < edges.strides.length := by rwa [Shape.strides_length]
  rw [anchorTerm?, anchorPosition?_eq_some haxis hanchor, some_bind, getElem?_eq_along hsteps,
    some_bind, mul?_of_lt hlt]

theorem lt_along_of_mem_zip (h : Shape.Room edges extents o spans) {tuple : List Nat}
    (htuple : Shape.Inside spans tuple) {entry : Nat × Placement} (hentry : entry ∈ tuple.zip o) :
    entry.1 < Shape.along edges entry.2.axis := by
  rcases List.mem_iff_getElem?.mp hentry with ⟨i, hi⟩
  rcases List.getElem?_zip_eq_some.mp hi with ⟨hposition, hplacement⟩
  rcases List.getElem?_eq_some_iff.mp hposition with ⟨htupleLt, hpositionEq⟩
  rcases List.getElem?_eq_some_iff.mp hplacement with ⟨hlt, hplacementEq⟩
  have hspan := (Shape.inside_iff.mp htuple).right i (h.spans_spec.left ▸ hlt)
  rw [Shape.along_of_lt htupleLt, hpositionEq] at hspan
  rw [← hplacementEq]
  exact Nat.lt_of_lt_of_le hspan (h.span_le hlt)

theorem sumFrom?_anchorTerms (h : Shape.Room edges extents o spans) {tuple : List Nat}
    (htuple : Shape.Inside spans tuple)
    (hlt : (edges.anchorTerms o tuple).sum < addressLimit) :
    sumFrom? unsigned? (anchorTerm? edges edges.strides) 0 (tuple.zip o) =
      some (edges.anchorTerms o tuple).sum := by
  apply sumFrom?_zipWith _ hlt
  intro entry hentry hword
  exact anchorTerm?_eq_some (h.proper.axis_lt _ (List.of_mem_zip hentry).2)
    (lt_along_of_mem_zip h htuple hentry) hword

theorem base?_eq_some (h : Shape.Room edges extents o spans)
    (hsigned : edges.cellCount < signedLimit) (slice anchor : Nat) :
    base? edges edges.strides o (edges.freeEdges o) spans slice anchor =
      some (edges.base o spans slice anchor : Int) := by
  -- The base is the flat index of a cell, and its two parts are no larger.
  rcases h.base_eq_flat slice anchor with ⟨start, hstart, _, _, hbase⟩
  have hlt : edges.base o spans slice anchor < signedLimit :=
    hbase ▸ Nat.lt_trans (Shape.flat_lt hstart) hsigned
  have hword : edges.base o spans slice anchor < addressLimit := Nat.lt_trans hlt (by decide)
  have hsum := Shape.Room.base_eq_sum edges o spans slice anchor
  rw [hsum] at hword
  have hfree : forall axis, axis ∈ o.freeAxes edges.length -> axis < edges.length :=
    fun axis haxis => (Orientation.mem_freeAxes.mp haxis).left
  have hslice := sumFrom?_sliceTerms hfree (Nat.lt_of_le_of_lt (Nat.le_add_right _ _) hword)
  have hanchor := sumFrom?_anchorTerms h (Shape.inside_coordinates h.spans_pos anchor)
    (Nat.lt_of_le_of_lt (Nat.le_add_left _ _) hword)
  rw [base?, coordinates?_eq_some h.freeEdges_pos, some_bind, hslice, some_bind,
    coordinates?_eq_some h.spans_pos, some_bind, hanchor, some_bind, add?_of_lt hword,
    some_bind, ← hsum]
  exact signed?_of_lt (by rwa [Int.natAbs_natCast])

/-- Slices and anchors together name different cells of the grid. -/
theorem mul_cellCount_le (h : Shape.Room edges extents o spans) :
    (edges.freeEdges o).cellCount * Shape.cellCount spans ≤ edges.cellCount := by
  have hlength : (edges.bases o spans).length =
      (edges.freeEdges o).cellCount * Shape.cellCount spans := by
    rw [Shape.bases, List.length_flatMap]
    simp
  have hsubset : edges.bases o spans ⊆ List.range edges.cellCount := by
    intro index hindex
    rcases h.mem_bases_iff.mp hindex with ⟨start, hstart, _, heq⟩
    rw [heq]
    exact List.mem_range.mpr (Shape.flat_lt hstart)
  have hle := (h.bases_nodup.subperm hsubset).length_le
  rwa [hlength, List.length_range] at hle

theorem cellCount?_freeEdges (h : Shape.Room edges extents o spans)
    (hlt : edges.cellCount < addressLimit) :
    (edges.freeEdges o).cellCount? = some (edges.freeEdges o).cellCount := by
  have hle := Nat.le_mul_of_pos_right (edges.freeEdges o).cellCount
    (Shape.cellCount_pos h.spans_pos)
  have hcells := Nat.le_trans hle (mul_cellCount_le h)
  exact (Shape.cellCount?_eq_some_iff h.freeEdges_pos).mpr ⟨rfl, Nat.lt_of_le_of_lt hcells hlt⟩

theorem cellCount?_spans (h : Shape.Room edges extents o spans)
    (hlt : edges.cellCount < addressLimit) :
    Shape.cellCount? spans = some (Shape.cellCount spans) := by
  have hle := Nat.le_mul_of_pos_left (Shape.cellCount spans)
    (Shape.cellCount_pos h.freeEdges_pos)
  have hcells := Nat.le_trans hle (mul_cellCount_le h)
  exact (Shape.cellCount?_eq_some_iff h.spans_pos).mpr ⟨rfl, Nat.lt_of_le_of_lt hcells hlt⟩

theorem bases?_eq_some (h : Shape.Room edges extents o spans)
    (hsigned : edges.cellCount < signedLimit) :
    bases? edges edges.strides o spans = some ((edges.bases o spans).map Nat.cast) := by
  have hlt : edges.cellCount < addressLimit := Nat.lt_trans hsigned (by decide)
  have hfreeEdges : ((o.freeAxes edges.length).mapM fun axis => edges[axis]?) =
      some (edges.freeEdges o) := by
    apply mapM_of_forall
    intro axis haxis
    exact getElem?_eq_along (Orientation.mem_freeAxes.mp haxis).left
  have hrows : ((List.range (edges.freeEdges o).cellCount).mapM fun slice =>
      (List.range (Shape.cellCount spans)).mapM fun anchor =>
        base? edges edges.strides o (edges.freeEdges o) spans slice anchor) =
      some ((List.range (edges.freeEdges o).cellCount).map fun slice =>
        (List.range (Shape.cellCount spans)).map fun anchor =>
          (edges.base o spans slice anchor : Int)) := by
    apply mapM_of_forall
    intro slice _
    apply mapM_of_forall
    intro anchor _
    exact base?_eq_some h hsigned slice anchor
  rw [bases?, hfreeEdges, some_bind, cellCount?_freeEdges h hlt, some_bind,
    cellCount?_spans h hlt, some_bind, hrows, some_bind, Shape.bases, List.map_flatMap,
    List.flatMap]
  simp only [List.map_map, Function.comp_def]

end

/-!
# Search
-/

section Search

variable {cell : Type} {g pattern : Grid cell} {o : Orientation} {spans : List Nat}

/-- From every base, every displacement leads to an index in a word. -/
theorem target?_eq_some (hroom : Shape.Room g.edges pattern.edges o spans)
    (hsigned : g.size < signedLimit) {base : Nat} (hbase : base ∈ g.edges.bases o spans)
    {displacement : Int} (hdisplacement : displacement ∈ g.edges.displacements pattern.edges o) :
    target? base displacement = some (Grid.target base displacement) := by
  rcases Grid.displaced_inside hroom hbase hdisplacement with ⟨hnonneg, hlt⟩
  rw [Grid.target] at hlt
  rw [target?, signed?_of_lt (by omega), some_bind, if_pos hnonneg, Grid.target]

variable [DecidableEq cell]

theorem holdsAt?_eq_some (hroom : Shape.Room g.edges pattern.edges o spans)
    (hsigned : g.size < signedLimit) {base : Nat} (hbase : base ∈ g.edges.bases o spans) :
    holdsAt? g ((g.edges.displacements pattern.edges o).zip pattern.cells.toList) base =
      some (g.holdsAt ((g.edges.displacements pattern.edges o).zip pattern.cells.toList)
        base) := by
  apply allM_of_forall
  intro entry hentry
  have hdisplacement := (List.of_mem_zip hentry).1
  have hlt := (Grid.displaced_inside hroom hbase hdisplacement).right
  rcases Grid.exists_get? hlt with ⟨value, hvalue⟩
  rw [target?_eq_some hroom hsigned hbase hdisplacement, some_bind, hvalue, some_bind]
  simp

theorem occurrenceAt?_eq_some (hroom : Shape.Room g.edges pattern.edges o spans)
    (hsigned : g.size < signedLimit) {base : Nat} (hbase : base ∈ g.edges.bases o spans) :
    occurrenceAt? g pattern (g.edges.displacements pattern.edges o) base =
      some (g.occurrenceAt pattern (g.edges.displacements pattern.edges o) base) := by
  have hfound : (g.edges.displacements pattern.edges o).mapM (target? base) =
      some ((g.edges.displacements pattern.edges o).map (Grid.target base)) :=
    mapM_of_forall fun displacement hmem => target?_eq_some hroom hsigned hbase hmem
  rw [occurrenceAt?, holdsAt?_eq_some hroom hsigned hbase, some_bind, Grid.occurrenceAt]
  split
  · rw [hfound, some_bind]
  · rfl

theorem occurrencesUnder?_eq_some (hproper : o.Proper g.dimensions pattern.dimensions)
    (hsigned : g.size < signedLimit) :
    occurrencesUnder? g pattern g.edges.strides o = some (g.occurrencesUnder pattern o) := by
  have hspans := spans?_eq_some g.acceptable hproper.axis_lt pattern.zero_not_mem
  rw [occurrencesUnder?, hspans, some_bind]
  cases hfits : g.edges.spans? o pattern.edges with
  | none =>
      rw [Grid.occurrencesUnder, hfits]
  | some spans =>
      have hroom := Grid.room hproper hfits
      have hcells : g.edges.cellCount < signedLimit := g.size_eq_cellCount ▸ hsigned
      have hfound : ((g.edges.bases o spans).map Nat.cast).mapM
          (occurrenceAt? g pattern (g.edges.displacements pattern.edges o)) =
            some ((g.edges.bases o spans).map
              (g.occurrenceAt pattern (g.edges.displacements pattern.edges o))) := by
        rw [List.mapM_map]
        exact mapM_of_forall fun base hbase => occurrenceAt?_eq_some hroom hsigned hbase
      show (displacements? _ _ o pattern.size >>= _) = _
      rw [pattern.size_eq_cellCount, displacements?_eq_some hroom hcells, some_bind,
        bases?_eq_some hroom hcells, some_bind, hfound, some_bind, List.filterMap_map,
        Grid.occurrencesUnder_eq_filterMap hfits]
      rfl

theorem occurrences?_eq_some (g pattern : Grid cell) (hsigned : g.size < signedLimit) :
    occurrences? g pattern = some (g.occurrences pattern) := by
  have hfound : (Orientation.distinguishable g.dimensions pattern.edges).mapM
      (occurrencesUnder? g pattern g.edges.strides) =
        some ((Orientation.distinguishable g.dimensions pattern.edges).map
          (g.occurrencesUnder pattern)) := by
    apply mapM_of_forall
    intro o ho
    exact occurrencesUnder?_eq_some (Grid.proper_of_mem_distinguishable ho) hsigned
  rw [occurrences?, strides?_eq_some g.zero_not_mem g.addressable, some_bind, hfound, some_bind,
    Grid.occurrences, List.flatMap]

end Search

/-- Without an empty axis the checked count exists exactly if all cells can be addressed, in
whatever order the axes stand.  So a shape is accepted exactly if it is not empty, has no empty
axis, and can be addressed, and cells are accepted with it if there are as many as it has.  A
grid is filled for it if the bytes of the cells can be counted in a signed word, and otherwise
the program ends.  On an accepted shape the cell count, the steps, the coordinates of an index
and the index of any tuple are computed in words.  On a grid whose cells can be counted in a
signed word, so is the whole search for any pattern, with the results of the exact search, and
every index that the search may look at is one of the grid. -/
theorem overflow_free :
    (forall edges : Shape, 0 ∉ edges ->
      (edges.cellCount?.isSome ↔ edges.cellCount < addressLimit) ∧
        forall reordered : Shape, reordered.Perm edges ->
          reordered.cellCount? = edges.cellCount?) ∧
    (forall {cell : Type} (cells : Array cell) (edges : Shape),
      (exists g, Grid.ofCells cells edges = .ok g) ↔
        edges.Acceptable ∧ cells.size = edges.cellCount) ∧
    (forall {cell : Type} [Stored cell] (value : cell) (edges : Shape),
      ((exists g, Grid.filled value edges = .ok g) ↔
        edges.Acceptable ∧ edges.cellCount * Stored.width cell < signedLimit) ∧
      (edges.Acceptable -> signedLimit ≤ edges.cellCount * Stored.width cell ->
        Grid.filled value edges = .error .capacityOverflow)) ∧
    (forall edges : Shape, edges.Acceptable ->
      edges.cellCount? = some edges.cellCount ∧
        strides? edges = some edges.strides ∧
        (forall index, index < edges.cellCount ->
          coordinates? edges index = some (edges.coordinates index)) ∧
        forall tuple, index? edges tuple = some (edges.index? tuple)) ∧
    forall {cell : Type} [DecidableEq cell] (g pattern : Grid cell), g.size < signedLimit ->
      occurrences? g pattern = some (g.occurrences pattern) ∧
        forall o spans base displacement,
          o ∈ Orientation.distinguishable g.dimensions pattern.edges ->
            g.edges.spans? o pattern.edges = some spans -> base ∈ g.edges.bases o spans ->
              displacement ∈ g.edges.displacements pattern.edges o ->
                target? base displacement = some (Grid.target base displacement) ∧
                  Grid.target base displacement < g.size := by
  refine ⟨?_, fun _ _ => Grid.exists_ofCells_iff,
    fun value _ => ⟨Grid.exists_filled_iff, Grid.filled_of_le value⟩, ?_, ?_⟩
  · intro edges hzero
    exact ⟨Shape.cellCount?_isSome_iff hzero, fun _ hperm => Shape.cellCount?_perm hzero hperm⟩
  · intro edges h
    refine ⟨(Shape.cellCount?_eq_some_iff h.zero_not_mem).mpr ⟨rfl, h.addressable⟩,
      strides?_eq_some h.zero_not_mem h.addressable, ?_, ?_⟩
    · exact fun index _ => coordinates?_eq_some h.zero_not_mem index
    · exact fun tuple => index?_eq_some h.zero_not_mem h.addressable tuple
  · intro cell _ g pattern hsigned
    refine ⟨occurrences?_eq_some g pattern hsigned, ?_⟩
    intro o spans base displacement ho hspans hbase hdisplacement
    have hroom := Grid.room (Grid.proper_of_mem_distinguishable ho) hspans
    exact ⟨target?_eq_some hroom hsigned hbase hdisplacement,
      (Grid.displaced_inside hroom hbase hdisplacement).right⟩

/-- This shape is accepted, but not even cells of one byte fit into a block of memory. -/
theorem acceptable_not_filled :
    Shape.Acceptable [2 ^ 63] ∧ ¬ exists g, Grid.filled Symbol.black [2 ^ 63] = .ok g := by
  refine ⟨⟨by decide, by decide, by decide⟩, ?_⟩
  rw [Grid.exists_filled_iff]
  intro h
  exact absurd h.right (by decide)

/-- Steps leave the range of words on a shape that is not accepted, and so would an index. -/
example :
    strides? [1, 4294967296, 4294967296] = none ∧
      index? [4294967296, 4294967296, 2] [4294967295, 4294967295, 1] = none := by
  decide

end Word
end GridRules
