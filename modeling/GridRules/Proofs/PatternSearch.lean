import GridRules.Proofs.Bases

/-!
# What pattern search finds

An embedding lays a pattern into a grid: from a start cell, a walk leads to the
grid cell of each pattern cell, and the two cells hold the same value.  The
search finds the index lists of all embeddings and finds each of them once.

## Main statements

Under one orientation the search finds exactly the embeddings under it.  An
index list belongs to only one of the orientations that are kept, so no list is
found twice.
-/

namespace GridRules
namespace Grid

variable {cell : Type}

/-- The found indices are those of the grid cells that the pattern cells are
laid onto, in the order of the pattern. -/
structure Embeds (g pattern : Grid cell) (o : Orientation) (start : List Nat)
    (found : Occurrence) : Prop where
  start_inside : g.edges.Inside start
  length_eq : found.length = pattern.size
  lands : forall position index, found[position]? = some index ->
    exists tuple, o.Reaches start (pattern.edges.coordinates position) tuple ∧
      g.indexOf? tuple = some index ∧ g.get? index = pattern.get? position

/-!
# Embeddings

The index list of an embedding determines its start, and with it where each
single step leads.  This leaves no choice for the axes that the pattern shows.
-/

namespace Embeds

variable {g pattern : Grid cell} {o : Orientation} {start : List Nat} {found : Occurrence}

theorem lands_at (h : g.Embeds pattern o start found) {steps : List Nat}
    (hsteps : pattern.edges.Inside steps) :
    exists tuple, g.edges.Inside tuple ∧ o.Reaches start steps tuple ∧
      found[pattern.edges.flat steps]? = some (g.edges.flat tuple) := by
  have hposition : pattern.edges.flat steps < found.length := by
    rw [h.length_eq, size_eq_cellCount]
    exact Shape.flat_lt hsteps
  rcases h.lands _ _ (List.getElem?_eq_getElem hposition) with ⟨tuple, hreaches, hindex, _⟩
  rw [Shape.coordinates_flat hsteps] at hreaches
  rcases Shape.index?_eq_some_iff.mp hindex with ⟨htuple, hflat⟩
  exact ⟨tuple, htuple, hreaches, hflat ▸ List.getElem?_eq_getElem hposition⟩

theorem reaches_at (h : g.Embeds pattern o start found) {steps tuple : List Nat}
    (hsteps : pattern.edges.Inside steps) (hreaches : o.Reaches start steps tuple) :
    g.edges.Inside tuple ∧ found[pattern.edges.flat steps]? = some (g.edges.flat tuple) := by
  rcases h.lands_at hsteps with ⟨other, hother, hreachesOther, hfound⟩
  rw [hreaches.tuple_unique hreachesOther]
  exact ⟨hother, hfound⟩

theorem head_eq (h : g.Embeds pattern o start found) :
    found[0]? = some (g.edges.flat start) := by
  let still := pattern.edges.coordinates 0
  have hpos : 0 < pattern.edges.cellCount := Shape.cellCount_pos pattern.zero_not_mem
  have hstill : forall count, count ∈ still -> count = 0 := by
    intro count hcount
    exact Shape.eq_zero_of_mem_coordinates_zero hcount
  have hsteps := Shape.inside_coordinates pattern.zero_not_mem 0
  have hfound := (h.reaches_at hsteps (Orientation.reaches_self hstill o start)).right
  rwa [Shape.flat_coordinates hpos] at hfound

theorem start_unique {other : Orientation} {start' : List Nat}
    (h : g.Embeds pattern o start found) (h' : g.Embeds pattern other start' found) :
    start = start' := by
  apply Shape.flat_inj h.start_inside h'.start_inside
  exact Option.some.inj (h.head_eq.symm.trans h'.head_eq)

theorem of_visible {other : Orientation} (h : g.Embeds pattern o start found)
    (hlength : o.length = pattern.dimensions) (hlength' : other.length = pattern.dimensions)
    (hvisible : o.visible pattern.edges = other.visible pattern.edges) :
    g.Embeds pattern other start found where
  start_inside := h.start_inside
  length_eq := h.length_eq
  lands := by
    intro position index hindex
    rcases h.lands position index hindex with ⟨tuple, hreaches, hrest⟩
    have hsteps := Shape.inside_coordinates pattern.zero_not_mem position
    exact ⟨tuple, hreaches.of_visible hlength hlength' hvisible hsteps, hrest⟩

/-- Two orientations with the same index list place every long pattern axis in
the same way. -/
theorem placement_eq {other : Orientation} (h : g.Embeds pattern o start found)
    (h' : g.Embeds pattern other start found)
    (hproper : o.Proper g.dimensions pattern.dimensions)
    (hproper' : other.Proper g.dimensions pattern.dimensions) {i : Nat} (hi : i < o.length)
    (hi' : i < other.length) (hextent : 1 < Shape.along pattern.edges i) : o[i] = other[i] := by
  -- One step along the pattern axis leads to the same cell under both orientations.
  have hsteps : pattern.edges.Inside (Shape.stepsAlong pattern.edges.length i 1) :=
    Shape.stepsAlong_inside pattern.zero_not_mem hextent
  rcases h.lands_at hsteps with ⟨tuple, htuple, hreaches, hfound⟩
  rcases h'.lands_at hsteps with ⟨tuple', htuple', hreaches', hfound'⟩
  have hsame : tuple = tuple' :=
    Shape.flat_inj htuple htuple' (Option.some.inj (hfound.symm.trans hfound'))
  have hlength : o.length = pattern.edges.length := hproper.length_eq
  have hlength' : other.length = pattern.edges.length := hproper'.length_eq
  have hstart : start.length = g.dimensions := h.start_inside.length_eq
  have haxis : o[i].axis < start.length :=
    hstart ▸ hproper.axis_lt o[i] (List.getElem_mem hi)
  have hmoved := (hreaches.along_eq _ haxis).symm.trans
    (hsame ▸ hreaches'.along_eq o[i].axis haxis)
  have hshift : o[i].direction.sign =
      other.shift (Shape.stepsAlong other.length i 1) o[i].axis := by
    rw [← hlength, Shape.shift_stepsAlong hproper.nodup hi, hlength, ← hlength'] at hmoved
    omega
  have hsign : o[i].direction.sign ≠ 0 := by
    cases o[i].direction <;> simp [Direction.sign]
  have hsameAxis : other[i].axis = o[i].axis := by
    by_contra hne
    exact hsign (hshift.trans (Shape.shift_stepsAlong_of_ne hproper'.nodup hi' hne))
  rw [← hsameAxis, Shape.shift_stepsAlong hproper'.nodup hi'] at hshift
  have hsameDirection : o[i].direction = other[i].direction := by
    cases hd : o[i].direction <;> cases hd' : other[i].direction <;>
      simp [hd, hd', Direction.sign] at hshift ⊢
  calc
    o[i] = { axis := o[i].axis, direction := o[i].direction } := rfl
    _ = { axis := other[i].axis, direction := other[i].direction } := by
      rw [hsameAxis, hsameDirection]
    _ = other[i] := rfl

theorem nodup (h : g.Embeds pattern o start found)
    (hproper : o.Proper g.dimensions pattern.dimensions) : found.Nodup := by
  rw [List.nodup_iff_getElem?_ne_getElem?]
  intro i j hij hj heq
  have hi : i < found.length := Nat.lt_trans hij hj
  rcases h.lands i _ (List.getElem?_eq_getElem hi) with ⟨tuple, hreaches, hindex, _⟩
  rcases h.lands j _ (List.getElem?_eq_getElem hj) with ⟨tuple', hreaches', hindex', _⟩
  rcases Shape.index?_eq_some_iff.mp hindex with ⟨htuple, hflat⟩
  rcases Shape.index?_eq_some_iff.mp hindex' with ⟨htuple', hflat'⟩
  have hindices : found[i] = found[j] := by
    simpa [hi, hj] using heq
  have hsame : tuple = tuple' :=
    Shape.flat_inj htuple htuple' (hflat.symm.trans (hindices.trans hflat'))
  have hlength : o.length = pattern.edges.length := hproper.length_eq
  have haxis : forall p, p ∈ o -> p.axis < start.length := by
    intro p hp
    rw [h.start_inside.length_eq]
    exact hproper.axis_lt p hp
  have hsteps := hreaches.steps_unique (hsame ▸ hreaches') hproper.nodup haxis
    (by simp [hlength]) (by simp [hlength])
  have hcells := congrArg (Shape.flat pattern.edges) hsteps
  rw [h.length_eq, size_eq_cellCount] at hi hj
  rw [Shape.flat_coordinates hi, Shape.flat_coordinates hj] at hcells
  exact Nat.ne_of_lt hij hcells

end Embeds

/-!
# Search under one orientation
-/

section Search

variable {g pattern : Grid cell} {o : Orientation} {spans : List Nat}

theorem room (hproper : o.Proper g.dimensions pattern.dimensions)
    (hspans : g.edges.spans? o pattern.edges = some spans) :
    Shape.Room g.edges pattern.edges o spans where
  edges_pos := g.zero_not_mem
  extents_pos := pattern.zero_not_mem
  proper := hproper
  spans_eq := hspans

theorem exists_get? {index : Nat} (h : index < g.size) :
    exists value, g.get? index = some value :=
  ⟨_, Array.getElem?_eq_getElem h⟩

theorem displacements_eq_sums (edges patternEdges : Shape) (o : Orientation) :
    edges.displacements patternEdges o =
      (List.range patternEdges.cellCount).map fun cell =>
        (edges.displacementTerms o (patternEdges.coordinates cell)).sum := rfl

theorem length_displacements (edges patternEdges : Shape) (o : Orientation) :
    (edges.displacements patternEdges o).length = patternEdges.cellCount := by
  rw [Shape.displacements, List.length_map, List.length_range]

theorem getElem?_displacements_eq_some_iff {position : Nat} {displacement : Int} :
    (g.edges.displacements pattern.edges o)[position]? = some displacement ↔
      position < pattern.size ∧
        (g.edges.displacementTerms o (pattern.edges.coordinates position)).sum =
          displacement := by
  rw [displacements_eq_sums, List.getElem?_map, Option.map_eq_some_iff, size_eq_cellCount]
  constructor
  · rintro ⟨_, hrange, heq⟩
    rcases List.getElem?_eq_some_iff.mp hrange with ⟨hlt, hposition⟩
    rw [List.getElem_range] at hposition
    rw [List.length_range] at hlt
    exact ⟨hlt, hposition ▸ heq⟩
  · rintro ⟨hlt, heq⟩
    exact ⟨position, by simp [hlt], heq⟩

theorem exists_walk (hroom : Shape.Room g.edges pattern.edges o spans) {start : List Nat}
    (hstart : g.edges.Inside start)
    (hanchors : Shape.Inside spans (Shape.anchors g.edges o start)) (position : Nat) :
    exists tuple, g.edges.Inside tuple ∧
      o.Reaches start (pattern.edges.coordinates position) tuple ∧
        (g.edges.flat start : Int) +
            (g.edges.displacementTerms o (pattern.edges.coordinates position)).sum =
          g.edges.flat tuple := by
  rcases hroom.exists_reaches hstart hanchors
      (Shape.inside_coordinates pattern.zero_not_mem position) with ⟨tuple, htuple, hreaches⟩
  exact ⟨tuple, htuple, hreaches,
    Shape.flat_reaches hroom.proper.axis_lt hstart.length_eq hreaches⟩

theorem displaced_inside (hroom : Shape.Room g.edges pattern.edges o spans) {base : Nat}
    (hbase : base ∈ g.edges.bases o spans) {displacement : Int}
    (hdisplacement : displacement ∈ g.edges.displacements pattern.edges o) :
    0 ≤ (base : Int) + displacement ∧ target base displacement < g.size := by
  rcases hroom.mem_bases_iff.mp hbase with ⟨start, hstart, hanchors, rfl⟩
  rcases List.mem_iff_getElem?.mp hdisplacement with ⟨position, hposition⟩
  rcases getElem?_displacements_eq_some_iff.mp hposition with ⟨_, rfl⟩
  rcases exists_walk hroom hstart hanchors position with ⟨tuple, htuple, _, hflat⟩
  have hlt := Shape.flat_lt htuple
  rw [target, hflat, size_eq_cellCount]
  exact ⟨Int.natCast_nonneg _, by rwa [Int.toNat_natCast]⟩

theorem Embeds.displaced (hproper : o.Proper g.dimensions pattern.dimensions)
    {start : List Nat} {found : Occurrence} (h : g.Embeds pattern o start found)
    {position : Nat} {displacement : Int}
    (hdisplacement : (g.edges.displacements pattern.edges o)[position]? = some displacement) :
    found[position]? = some (target (g.edges.flat start) displacement) ∧
      g.get? (target (g.edges.flat start) displacement) = pattern.get? position := by
  rcases getElem?_displacements_eq_some_iff.mp hdisplacement with ⟨hposition, hsum⟩
  have hlt : position < found.length := h.length_eq ▸ hposition
  have hfound := List.getElem?_eq_getElem hlt
  rcases h.lands position _ hfound with ⟨tuple, hreaches, hindex, hvalue⟩
  have hflat := Shape.flat_reaches hproper.axis_lt h.start_inside.length_eq hreaches
  have htarget : target (g.edges.flat start) displacement = found[position] := by
    rw [target, ← hsum, hflat, Int.toNat_natCast]
    exact (Shape.index?_eq_some_iff.mp hindex).right.symm
  rw [htarget]
  exact ⟨hfound, hvalue⟩

variable [DecidableEq cell]

theorem holdsAt_zip_iff {displacements : List Int} {values : List cell} {base : Nat} :
    g.holdsAt (displacements.zip values) base = true ↔
      forall (position : Nat) (displacement : Int) (value : cell),
        displacements[position]? = some displacement -> values[position]? = some value ->
          g.get? (target base displacement) = some value := by
  rw [holdsAt, List.all_eq_true]
  constructor
  · intro h position displacement value hdisplacement hvalue
    have hentry : (displacements.zip values)[position]? = some (displacement, value) :=
      List.getElem?_zip_eq_some.mpr ⟨hdisplacement, hvalue⟩
    exact beq_iff_eq.mp (h _ (List.mem_of_getElem? hentry))
  · intro h entry hentry
    rcases List.mem_iff_getElem?.mp hentry with ⟨position, hposition⟩
    rcases List.getElem?_zip_eq_some.mp hposition with ⟨hdisplacement, hvalue⟩
    exact beq_iff_eq.mpr (h position _ _ hdisplacement hvalue)

theorem mem_occurrencesUnder_of_room (hroom : Shape.Room g.edges pattern.edges o spans)
    {found : Occurrence} :
    found ∈ g.occurrencesUnder pattern o ↔
      exists base, base ∈ g.edges.bases o spans ∧
        g.holdsAt ((g.edges.displacements pattern.edges o).zip pattern.cells.toList) base = true ∧
          found = (g.edges.displacements pattern.edges o).map (target base) := by
  unfold occurrencesUnder
  rw [hroom.spans_eq]
  simp only [List.mem_map, List.mem_filter, and_assoc, eq_comm]

theorem exists_embeds_of_mem (hproper : o.Proper g.dimensions pattern.dimensions)
    {found : Occurrence} (h : found ∈ g.occurrencesUnder pattern o) :
    exists start, g.Embeds pattern o start found := by
  cases hspans : g.edges.spans? o pattern.edges with
  | none =>
      rw [occurrencesUnder, hspans] at h
      cases h
  | some spans =>
      have hroom := room hproper hspans
      rcases (mem_occurrencesUnder_of_room hroom).mp h with ⟨base, hbase, hholds, hfound⟩
      rcases hroom.mem_bases_iff.mp hbase with ⟨start, hstart, hanchors, hflatStart⟩
      subst hfound hflatStart
      refine ⟨start, hstart, ?_, ?_⟩
      · rw [List.length_map, length_displacements, size_eq_cellCount]
      · intro position index hindex
        rw [List.getElem?_map, Option.map_eq_some_iff] at hindex
        rcases hindex with ⟨displacement, hdisplacement, hindexEq⟩
        rcases getElem?_displacements_eq_some_iff.mp hdisplacement with ⟨hposition, hsum⟩
        rcases exists_walk hroom hstart hanchors position with
          ⟨tuple, htuple, hreaches, hflat⟩
        have htarget : target (g.edges.flat start) displacement = g.edges.flat tuple := by
          rw [target, ← hsum, hflat, Int.toNat_natCast]
        rcases exists_get? hposition with ⟨value, hvalue⟩
        rw [← hindexEq]
        refine ⟨tuple, hreaches, ?_, ?_⟩
        · exact Shape.index?_eq_some_iff.mpr ⟨htuple, htarget⟩
        · rw [hvalue]
          apply holdsAt_zip_iff.mp hholds position displacement value hdisplacement
          rwa [Array.getElem?_toList]

theorem Embeds.mem_occurrencesUnder (hproper : o.Proper g.dimensions pattern.dimensions)
    {start : List Nat} {found : Occurrence} (h : g.Embeds pattern o start found) :
    found ∈ g.occurrencesUnder pattern o := by
  have hlands : forall steps, pattern.edges.Inside steps ->
      exists tuple, g.edges.Inside tuple ∧ o.Reaches start steps tuple := by
    intro steps hsteps
    rcases h.lands_at hsteps with ⟨tuple, htuple, hreaches, _⟩
    exact ⟨tuple, htuple, hreaches⟩
  rcases Shape.exists_room g.zero_not_mem pattern.zero_not_mem hproper h.start_inside hlands with
    ⟨spans, hroom, hanchors⟩
  refine (mem_occurrencesUnder_of_room hroom).mpr ⟨g.edges.flat start, ?_, ?_, ?_⟩
  · exact hroom.mem_bases_iff.mpr ⟨start, h.start_inside, hanchors, rfl⟩
  · apply holdsAt_zip_iff.mpr
    intro position displacement value hdisplacement hvalue
    rw [(h.displaced hproper hdisplacement).right]
    rwa [Array.getElem?_toList] at hvalue
  · apply List.ext_getElem?
    intro position
    rw [List.getElem?_map]
    cases hdisplacement : (g.edges.displacements pattern.edges o)[position]? with
    | none =>
        have hlength : (g.edges.displacements pattern.edges o).length = found.length := by
          rw [h.length_eq, size_eq_cellCount, length_displacements]
        rw [List.getElem?_eq_none_iff, hlength] at hdisplacement
        rw [List.getElem?_eq_none_iff.mpr hdisplacement]
        rfl
    | some displacement =>
        rw [(h.displaced hproper hdisplacement).left]
        rfl

theorem mem_occurrencesUnder_iff (hproper : o.Proper g.dimensions pattern.dimensions)
    {found : Occurrence} :
    found ∈ g.occurrencesUnder pattern o ↔ exists start, g.Embeds pattern o start found := by
  constructor
  · exact exists_embeds_of_mem hproper
  · intro h
    rcases h with ⟨start, hembeds⟩
    exact hembeds.mem_occurrencesUnder hproper

theorem occurrencesUnder_nodup (hproper : o.Proper g.dimensions pattern.dimensions) :
    (g.occurrencesUnder pattern o).Nodup := by
  unfold occurrencesUnder
  split
  · exact List.nodup_nil
  · rename_i spans hspans
    have hroom := room hproper hspans
    have hfirst : (g.edges.displacements pattern.edges o)[0]? = some 0 := by
      refine getElem?_displacements_eq_some_iff.mpr ⟨pattern.size_pos, ?_⟩
      rw [Shape.displacementTerms_sum hproper.axis_lt]
      apply Finset.sum_eq_zero
      intro axis _
      rw [Orientation.shift_of_still
        (fun count hcount => Shape.eq_zero_of_mem_coordinates_zero hcount), Int.zero_mul]
    apply List.Nodup.map_on _ (hroom.bases_nodup.filter _)
    intro base _ base' _ heq
    have hhead := congrArg (fun found => found[0]?) heq
    simpa [hfirst, target] using hhead

end Search

/-!
# Search under all orientations
-/

section AllOrientations

variable {g pattern : Grid cell}

theorem proper_of_mem_distinguishable {o : Orientation}
    (h : o ∈ Orientation.distinguishable g.dimensions pattern.edges) :
    o.Proper g.dimensions pattern.dimensions :=
  (Orientation.mem_all_iff.mp (Orientation.mem_all_of_mem_distinguishable h)).right

variable [DecidableEq cell]

theorem mem_occurrences_iff {found : Occurrence} :
    found ∈ g.occurrences pattern ↔
      exists o start, o.Proper g.dimensions pattern.dimensions ∧
        g.Embeds pattern o start found := by
  rw [occurrences, List.mem_flatMap]
  constructor
  · rintro ⟨o, ho, hfound⟩
    have hproper := proper_of_mem_distinguishable ho
    rcases (mem_occurrencesUnder_iff hproper).mp hfound with ⟨start, hembeds⟩
    exact ⟨o, start, hproper, hembeds⟩
  · rintro ⟨o, start, hproper, hembeds⟩
    have hpos : 0 < pattern.edges.length := List.length_pos_of_ne_nil pattern.edges_ne_nil
    have hall : o ∈ Orientation.all g.dimensions pattern.edges.length :=
      Orientation.mem_all_iff.mpr ⟨hpos, hproper⟩
    rcases Orientation.exists_distinguishable hall with ⟨kept, hkept, hvisible⟩
    have hproperKept := proper_of_mem_distinguishable hkept
    refine ⟨kept, hkept, (mem_occurrencesUnder_iff hproperKept).mpr ⟨start, ?_⟩⟩
    exact hembeds.of_visible hproper.length_eq hproperKept.length_eq hvisible.symm

theorem mem_occurrences_iff_reaches {found : Occurrence} :
    found ∈ g.occurrences pattern ↔
      found.length = pattern.size ∧ exists (o : Orientation) (start : Nat),
        o.Proper g.dimensions pattern.dimensions ∧
          forall position index, found[position]? = some index ->
            index < g.size ∧
              o.Reaches (g.edges.coordinates start) (pattern.edges.coordinates position)
                (g.edges.coordinates index) ∧
              g.get? index = pattern.get? position := by
  rw [mem_occurrences_iff]
  constructor
  · intro h
    rcases h with ⟨o, start, hproper, hembeds⟩
    refine ⟨hembeds.length_eq, o, g.edges.flat start, hproper, ?_⟩
    intro position index hindex
    rcases hembeds.lands position index hindex with ⟨tuple, hreaches, hflat, hvalue⟩
    rcases Shape.index?_eq_some_iff.mp hflat with ⟨htuple, rfl⟩
    rw [Shape.coordinates_flat hembeds.start_inside, Shape.coordinates_flat htuple]
    exact ⟨indexOf?_lt_size hflat, hreaches, hvalue⟩
  · intro h
    rcases h with ⟨hlength, o, start, hproper, hlands⟩
    refine ⟨o, g.edges.coordinates start, hproper,
      Shape.inside_coordinates g.zero_not_mem start, hlength, ?_⟩
    intro position index hindex
    rcases hlands position index hindex with ⟨hlt, hreaches, hvalue⟩
    rw [size_eq_cellCount] at hlt
    refine ⟨g.edges.coordinates index, hreaches, ?_, hvalue⟩
    exact Shape.index?_eq_some_iff.mpr
      ⟨Shape.inside_coordinates g.zero_not_mem index, (Shape.flat_coordinates hlt).symm⟩

theorem length_of_mem_occurrences {found : Occurrence} (h : found ∈ g.occurrences pattern) :
    found.length = pattern.size := by
  rcases mem_occurrences_iff.mp h with ⟨o, start, _, hembeds⟩
  exact hembeds.length_eq

theorem lt_size_of_mem_occurrences {found : Occurrence} (h : found ∈ g.occurrences pattern)
    {index : Nat} (hindex : index ∈ found) : index < g.size := by
  rcases mem_occurrences_iff.mp h with ⟨o, start, _, hembeds⟩
  rcases List.mem_iff_getElem?.mp hindex with ⟨position, hposition⟩
  rcases hembeds.lands position index hposition with ⟨tuple, _, hflat, _⟩
  exact indexOf?_lt_size hflat

theorem nodup_of_mem_occurrences {found : Occurrence} (h : found ∈ g.occurrences pattern) :
    found.Nodup := by
  rcases mem_occurrences_iff.mp h with ⟨o, start, hproper, hembeds⟩
  exact hembeds.nodup hproper

theorem occurrences_nodup : (g.occurrences pattern).Nodup := by
  rw [occurrences, List.nodup_flatMap]
  constructor
  · intro o ho
    exact occurrencesUnder_nodup (proper_of_mem_distinguishable ho)
  · apply (Orientation.distinguishable_pairwise g.dimensions pattern.edges).imp_of_mem
    intro o other ho hother hne found hfound hfound'
    have hproper := proper_of_mem_distinguishable ho
    have hproper' := proper_of_mem_distinguishable hother
    rcases (mem_occurrencesUnder_iff hproper).mp hfound with ⟨start, hembeds⟩
    rcases (mem_occurrencesUnder_iff hproper').mp hfound' with ⟨start', hembeds'⟩
    have hstart : start = start' := hembeds.start_unique hembeds'
    subst hstart
    apply hne
    apply Orientation.visible_eq (hproper.length_eq.trans hproper'.length_eq.symm)
    intro i hi hi' hextent
    exact hembeds.placement_eq hembeds' hproper hproper' hi hi' hextent

/-- The search finds the index list of every embedding, and nothing else, once
each.  No index occurs twice in a list, and every cell that the search looks at
is a cell of the grid. -/
theorem occurrences_exact (g pattern : Grid cell) :
    (forall found, found ∈ g.occurrences pattern ↔
      pattern.dimensions ≤ g.dimensions ∧ exists o start,
        o.Proper g.dimensions pattern.dimensions ∧ g.Embeds pattern o start found) ∧
    (g.occurrences pattern).Nodup ∧
    (forall found, found ∈ g.occurrences pattern -> found.Nodup) ∧
    forall o spans base displacement,
      o ∈ Orientation.distinguishable g.dimensions pattern.edges ->
        g.edges.spans? o pattern.edges = some spans -> base ∈ g.edges.bases o spans ->
          displacement ∈ g.edges.displacements pattern.edges o ->
            0 ≤ (base : Int) + displacement ∧ target base displacement < g.size := by
  refine ⟨?_, occurrences_nodup, fun _ => nodup_of_mem_occurrences, ?_⟩
  · intro found
    rw [mem_occurrences_iff]
    constructor
    · rintro ⟨o, start, hproper, hembeds⟩
      exact ⟨hproper.dimensions_le, o, start, hproper, hembeds⟩
    · exact And.right
  · intro o spans base displacement ho hspans hbase hdisplacement
    exact displaced_inside (room (proper_of_mem_distinguishable ho) hspans) hbase hdisplacement

end AllOrientations
end Grid
end GridRules
