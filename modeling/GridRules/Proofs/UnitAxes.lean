import GridRules.Proofs.PatternSearch

/-!
# Axes of length one

A pattern axis of length one takes up a grid axis, but no walk to a pattern cell moves along
it.  So it can be left out, and it can be inserted as long as a free grid axis is left.

## Main statements

An orientation of a pattern extends to an orientation of the pattern with more axes of
length one, and is what is left of it when these axes are left out.  Both lead to the same
cells, so the pattern has the same occurrences with these axes and without them.
-/

namespace GridRules

/-!
# Inserted axes
-/

/-- The second shape has the axes of the first one and, at any places among them, more axes
of length one. -/
inductive Shape.Widened : Shape -> Shape -> Prop where
  | nil : Widened [] []
  | axis (edge : Nat) {edges wide : Shape} :
      Widened edges wide -> Widened (edge :: edges) (edge :: wide)
  | unit {edges wide : Shape} : Widened edges wide -> Widened edges (1 :: wide)

/-- The second orientation places the axes of a widened shape, and the first one places those
of them that were not inserted in the same way. -/
inductive Orientation.Widened : Shape -> Orientation -> Shape -> Orientation -> Prop where
  | nil : Widened [] [] [] []
  | axis (edge : Nat) (p : Placement) {edges wide : Shape} {o next : Orientation} :
      Widened edges o wide next -> Widened (edge :: edges) (p :: o) (edge :: wide) (p :: next)
  | unit (p : Placement) {edges wide : Shape} {o next : Orientation} :
      Widened edges o wide next -> Widened edges o (1 :: wide) (p :: next)

namespace Shape

variable {edges wide : Shape}

theorem Widened.length_le (h : Widened edges wide) : edges.length ≤ wide.length := by
  induction h with
  | nil => exact Nat.le_refl _
  | axis _ _ ih => exact Nat.succ_le_succ ih
  | unit _ ih => exact Nat.le_succ_of_le ih

theorem Widened.cellCount_eq (h : Widened edges wide) : wide.cellCount = edges.cellCount := by
  induction h with
  | nil => rfl
  | axis _ _ ih => rw [cellCount_cons, cellCount_cons, ih]
  | unit _ ih => rw [cellCount_cons, ih, Nat.one_mul]

end Shape

namespace Orientation

variable {edges wide : Shape} {o next : Orientation}

theorem Widened.shape (h : Widened edges o wide next) : edges.Widened wide := by
  induction h with
  | nil => exact Shape.Widened.nil
  | axis edge _ _ ih => exact Shape.Widened.axis edge ih
  | unit _ _ ih => exact Shape.Widened.unit ih

theorem Widened.sublist (h : Widened edges o wide next) : o.Sublist next := by
  induction h with
  | nil => exact List.Sublist.slnil
  | axis _ p _ ih => exact ih.cons_cons p
  | unit p _ ih => exact ih.cons p

theorem Widened.length_eq (h : Widened edges o wide next) : o.length = edges.length := by
  induction h with
  | nil => rfl
  | axis _ _ _ ih => exact congrArg Nat.succ ih
  | unit _ _ ih => exact ih

theorem Widened.shift_eq (h : Widened edges o wide next) (index axis : Nat) :
    next.shift (wide.coordinates index) axis = o.shift (edges.coordinates index) axis := by
  induction h with
  | nil => rfl
  | axis edge p hrest ih =>
      rw [Shape.coordinates_cons, Shape.coordinates_cons, shift_cons, shift_cons,
        hrest.shape.cellCount_eq, ih]
  | unit p _ ih =>
      rw [Shape.coordinates_cons, Nat.mod_one, shift_cons, ih]
      simp

theorem Widened.reaches_iff (h : Widened edges o wide next) {start tuple : List Nat}
    (index : Nat) :
    next.Reaches start (wide.coordinates index) tuple ↔
      o.Reaches start (edges.coordinates index) tuple := by
  constructor
  · intro hreaches
    refine ⟨hreaches.length_eq, fun axis haxis => ?_⟩
    rw [hreaches.along_eq axis haxis, h.shift_eq]
  · intro hreaches
    refine ⟨hreaches.length_eq, fun axis haxis => ?_⟩
    rw [hreaches.along_eq axis haxis, h.shift_eq]

/-!
# Leaving axes out and putting them in
-/

theorem exists_narrow (h : edges.Widened wide) (hlength : next.length = wide.length) :
    exists o, Widened edges o wide next := by
  induction h generalizing next with
  | nil =>
      rw [List.length_eq_zero_iff.mp hlength]
      exact ⟨[], Widened.nil⟩
  | axis edge _ ih =>
      rcases List.exists_cons_of_length_eq_add_one hlength with ⟨p, others, rfl⟩
      rcases ih (Nat.succ.inj hlength) with ⟨o, ho⟩
      exact ⟨p :: o, Widened.axis edge p ho⟩
  | unit _ ih =>
      rcases List.exists_cons_of_length_eq_add_one hlength with ⟨p, others, rfl⟩
      rcases ih (Nat.succ.inj hlength) with ⟨o, ho⟩
      exact ⟨o, Widened.unit p ho⟩

theorem exists_wide (h : edges.Widened wide) {extra : List Placement}
    (hlength : o.length = edges.length) (hextra : extra.length + edges.length = wide.length) :
    exists next, Widened edges o wide next ∧ next.Perm (extra ++ o) := by
  induction h generalizing o extra with
  | nil =>
      rw [List.length_eq_zero_iff.mp hlength, List.length_eq_zero_iff.mp hextra]
      exact ⟨[], Widened.nil, List.Perm.refl _⟩
  | axis edge _ ih =>
      rcases List.exists_cons_of_length_eq_add_one hlength with ⟨p, others, rfl⟩
      rcases ih (Nat.succ.inj hlength) (Nat.succ.inj hextra) with ⟨next, hnext, hperm⟩
      exact ⟨p :: next, Widened.axis edge p hnext, (hperm.cons p).trans List.perm_middle.symm⟩
  | unit hrest ih =>
      rename_i inner
      cases extra with
      | nil =>
          have hle := hrest.length_le
          rw [List.length_nil, List.length_cons] at hextra
          omega
      | cons p others =>
          rw [List.length_cons, List.length_cons, Nat.add_right_comm] at hextra
          rcases ih hlength (Nat.succ.inj hextra) with ⟨next, hnext, hperm⟩
          exact ⟨p :: next, Widened.unit p hnext, hperm.cons p⟩

theorem Proper.narrow {gridDimensions : Nat} (hproper : next.Proper gridDimensions wide.length)
    (h : Widened edges o wide next) : o.Proper gridDimensions edges.length where
  length_eq := h.length_eq
  axis_lt := fun p hp => hproper.axis_lt p (h.sublist.subset hp)
  nodup := hproper.nodup.sublist (h.sublist.map Placement.axis)

/-- An inserted axis takes up a grid axis that is free. -/
theorem Proper.exists_wide {gridDimensions : Nat}
    (hproper : o.Proper gridDimensions edges.length) (h : edges.Widened wide)
    (hle : wide.length ≤ gridDimensions) :
    exists next, Widened edges o wide next ∧ next.Proper gridDimensions wide.length := by
  -- The inserted axes are placed on grid axes that are still free.
  let extra := ((o.freeAxes gridDimensions).take (wide.length - edges.length)).map
    fun axis => ({ axis := axis, direction := .forward } : Placement)
  have hrange := hproper.range_perm
  have haxes : extra.map Placement.axis =
      (o.freeAxes gridDimensions).take (wide.length - edges.length) := by
    rw [List.map_map]
    exact List.map_id _
  have hsublist : (extra.map Placement.axis).Sublist (o.freeAxes gridDimensions) :=
    haxes ▸ List.take_sublist _ _
  have hextra : extra.length + edges.length = wide.length := by
    have hfree := hrange.length_eq
    rw [List.length_range, List.length_append, List.length_map, hproper.length_eq] at hfree
    have hnarrow := h.length_le
    rw [← List.length_map Placement.axis, haxes, List.length_take]
    omega
  rcases Orientation.exists_wide h hproper.length_eq hextra with ⟨next, hnext, hperm⟩
  have hnextAxes := hperm.map Placement.axis
  rw [List.map_append] at hnextAxes
  refine ⟨next, hnext, ?_, ?_, ?_⟩
  · rw [hperm.length_eq, List.length_append, hproper.length_eq, hextra]
  · intro p hp
    rcases List.mem_append.mp (hperm.mem_iff.mp hp) with hnew | hold
    · exact (mem_freeAxes.mp (hsublist.subset (List.mem_map_of_mem hnew))).left
    · exact hproper.axis_lt p hold
  · have hall := (hrange.nodup_iff.mp List.nodup_range)
    have hsub := (List.Sublist.refl (o.map Placement.axis)).append hsublist
    exact hnextAxes.nodup_iff.mpr (List.perm_append_comm.nodup_iff.mp (hall.sublist hsub))

end Orientation

namespace Grid

variable {cell : Type} {g pattern widened : Grid cell}

/-!
# Occurrences
-/

theorem embeds_widened_iff {o next : Orientation} {start : List Nat} {found : Occurrence}
    (hcells : widened.cells = pattern.cells)
    (h : Orientation.Widened pattern.edges o widened.edges next) :
    g.Embeds widened next start found ↔ g.Embeds pattern o start found := by
  have hsize : widened.size = pattern.size := congrArg Array.size hcells
  have hget : forall position, widened.get? position = pattern.get? position := by
    intro position
    rw [get?, get?, hcells]
  constructor
  · intro hembeds
    refine ⟨hembeds.start_inside, hembeds.length_eq.trans hsize, fun position index hindex => ?_⟩
    rcases hembeds.lands position index hindex with ⟨tuple, hreaches, hflat, hvalue⟩
    exact ⟨tuple, (h.reaches_iff position).mp hreaches, hflat, hvalue.trans (hget position)⟩
  · intro hembeds
    refine ⟨hembeds.start_inside, hembeds.length_eq.trans hsize.symm,
      fun position index hindex => ?_⟩
    rcases hembeds.lands position index hindex with ⟨tuple, hreaches, hflat, hvalue⟩
    exact ⟨tuple, (h.reaches_iff position).mpr hreaches, hflat,
      hvalue.trans (hget position).symm⟩

theorem occurrences_widened_perm [DecidableEq cell] (hedges : pattern.edges.Widened widened.edges)
    (hcells : widened.cells = pattern.cells) (hle : widened.dimensions ≤ g.dimensions) :
    (g.occurrences widened).Perm (g.occurrences pattern) := by
  refine (List.perm_ext_iff_of_nodup occurrences_nodup occurrences_nodup).mpr fun found => ?_
  rw [mem_occurrences_iff, mem_occurrences_iff]
  constructor
  · intro h
    rcases h with ⟨next, start, hproper, hembeds⟩
    rcases Orientation.exists_narrow hedges hproper.length_eq with ⟨o, ho⟩
    exact ⟨o, start, hproper.narrow ho, (embeds_widened_iff hcells ho).mp hembeds⟩
  · intro h
    rcases h with ⟨o, start, hproper, hembeds⟩
    rcases hproper.exists_wide hedges hle with ⟨next, hnext, hnextProper⟩
    exact ⟨next, start, hnextProper, (embeds_widened_iff hcells hnext).mpr hembeds⟩

end Grid
end GridRules
