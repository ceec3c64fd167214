import GridRules.Proofs.Coordinates
import GridRules.Session

/-!
# Addressing cells

A cell is reached by its tuple, by its flat index, through the list of all cells, or by
inspecting it in a session.  Each way makes checks of its own.  A tuple is in one of three
situations: its length is wrong, some axis is the first one that it leaves, or it lies
inside the shape.

## Main statements

All ways to address a cell agree on which tuples name a cell and on the cell that they
name.  A tuple that names none is reported for what is wrong with it, and an inspection of
it changes nothing.
-/

namespace GridRules
namespace Shape

/-- The axis is the first one on which a tuple leaves a shape.  The coordinate and the length
that are found there come with it. -/
structure FirstOutside (edges : Shape) (tuple : List Nat) (axis coordinate edge : Nat) :
    Prop where
  coordinate_eq : tuple[axis]? = some coordinate
  edge_eq : edges[axis]? = some edge
  edge_le : edge ≤ coordinate
  before : Inside (edges.take axis) (tuple.take axis)

/-!
# The first axis outside
-/

section

variable {rest : Shape} {edge coordinate : Nat} {others : List Nat}

theorem firstOutside_cons_zero_iff {found length : Nat} :
    FirstOutside (edge :: rest) (coordinate :: others) 0 found length ↔
      found = coordinate ∧ length = edge ∧ edge ≤ coordinate := by
  constructor
  · intro h
    have hcoordinate : coordinate = found := Option.some.inj h.coordinate_eq
    have hedge : edge = length := Option.some.inj h.edge_eq
    have hle := h.edge_le
    subst hcoordinate hedge
    exact ⟨rfl, rfl, hle⟩
  · intro h
    rcases h with ⟨hfound, hlength, hle⟩
    subst hfound hlength
    exact ⟨rfl, rfl, hle, List.Forall₂.nil⟩

theorem firstOutside_cons_succ_iff {axis found length : Nat} :
    FirstOutside (edge :: rest) (coordinate :: others) (axis + 1) found length ↔
      coordinate < edge ∧ FirstOutside rest others axis found length := by
  constructor
  · intro h
    rcases List.forall₂_cons.mp h.before with ⟨hlt, hbefore⟩
    exact ⟨hlt, h.coordinate_eq, h.edge_eq, h.edge_le, hbefore⟩
  · intro h
    rcases h with ⟨hlt, hfirst⟩
    exact ⟨hfirst.coordinate_eq, hfirst.edge_eq, hfirst.edge_le,
      List.Forall₂.cons hlt hfirst.before⟩

end

end Shape

namespace Grid

theorem firstOutside?_eq_some_iff {start axis coordinate edge : Nat} {edges : Shape}
    {tuple : List Nat} :
    firstOutside? start edges tuple = some (axis, coordinate, edge) ↔
      exists passed, axis = start + passed ∧
        edges.FirstOutside tuple passed coordinate edge := by
  induction edges generalizing start tuple with
  | nil =>
      constructor
      · intro h
        cases h
      · intro h
        rcases h with ⟨_, _, hfirst⟩
        cases hfirst.edge_eq
  | cons length rest ih =>
      cases tuple with
      | nil =>
          constructor
          · intro h
            cases h
          · intro h
            rcases h with ⟨_, _, hfirst⟩
            cases hfirst.coordinate_eq
      | cons position others =>
          rw [firstOutside?]
          split
          · rename_i hle
            rw [Option.some.injEq, Prod.mk.injEq, Prod.mk.injEq]
            constructor
            · intro h
              rcases h with ⟨haxis, hposition, hlength⟩
              exact ⟨0, haxis.symm,
                Shape.firstOutside_cons_zero_iff.mpr ⟨hposition.symm, hlength.symm, hle⟩⟩
            · intro h
              rcases h with ⟨passed, haxis, hfirst⟩
              cases passed with
              | zero =>
                  rcases Shape.firstOutside_cons_zero_iff.mp hfirst with
                    ⟨hposition, hlength, _⟩
                  exact ⟨haxis.symm, hposition.symm, hlength.symm⟩
              | succ passed =>
                  have hlt := (Shape.firstOutside_cons_succ_iff.mp hfirst).left
                  exact absurd hle (Nat.not_le.mpr hlt)
          · rename_i hlt
            rw [ih]
            constructor
            · intro h
              rcases h with ⟨passed, haxis, hfirst⟩
              refine ⟨passed + 1, ?_, ?_⟩
              · rw [haxis, Nat.add_assoc, Nat.add_comm 1]
              · exact Shape.firstOutside_cons_succ_iff.mpr ⟨Nat.lt_of_not_le hlt, hfirst⟩
            · intro h
              rcases h with ⟨passed, haxis, hfirst⟩
              cases passed with
              | zero => exact absurd (Shape.firstOutside_cons_zero_iff.mp hfirst).2.2 hlt
              | succ passed =>
                  refine ⟨passed, ?_, (Shape.firstOutside_cons_succ_iff.mp hfirst).right⟩
                  rw [haxis, Nat.add_assoc, Nat.add_comm 1]

theorem firstOutside?_eq_none_iff {start : Nat} {edges : Shape} {tuple : List Nat}
    (hlength : tuple.length = edges.length) :
    firstOutside? start edges tuple = none ↔ edges.Inside tuple := by
  induction edges generalizing start tuple with
  | nil =>
      rw [List.length_eq_zero_iff.mp hlength]
      exact iff_of_true rfl List.Forall₂.nil
  | cons length rest ih =>
      cases tuple with
      | nil => cases hlength
      | cons position others =>
          rw [firstOutside?, Shape.Inside, List.forall₂_cons]
          split
          · rename_i hle
            apply iff_of_false
            · exact Option.some_ne_none _
            · exact fun h => Nat.not_lt.mpr hle h.left
          · rename_i hlt
            rw [ih (Nat.succ.inj hlength)]
            exact (and_iff_right (Nat.lt_of_not_le hlt)).symm

/-!
# The three situations of a tuple
-/

section

variable {cell : Type} {g : Grid cell} {tuple : List Nat} {index : Nat} {value : cell}

theorem get?_eq_none_iff_le : g.get? index = none ↔ g.size ≤ index :=
  Array.getElem?_eq_none_iff

theorem lt_size_of_get? (h : g.get? index = some value) : index < g.size :=
  (Array.getElem?_eq_some_iff.mp h).1

theorem coordinatesOf?_eq_none_iff : g.coordinatesOf? index = none ↔ g.size ≤ index := by
  rw [coordinatesOf?, ite_eq_right_iff, ← Nat.not_lt]
  constructor
  · intro h hlt
    cases h hlt
  · intro h hlt
    exact absurd hlt h

theorem exists_cell_of_inside (h : g.edges.Inside tuple) :
    exists index value, g.indexOf? tuple = some index ∧ g.get? index = some value ∧
      g.coordinatesOf? index = some tuple := by
  have hlt : g.edges.flat tuple < g.size := by
    rw [size_eq_cellCount]
    exact Shape.flat_lt h
  refine ⟨g.edges.flat tuple, g.cells[g.edges.flat tuple], ?_, ?_, ?_⟩
  · exact Shape.index?_eq_some_iff.mpr ⟨h, rfl⟩
  · exact Array.getElem?_eq_getElem hlt
  · rw [coordinatesOf?, if_pos hlt, Shape.coordinates_flat h]

theorem inside_of_indexOf? (h : g.indexOf? tuple = some index) : g.edges.Inside tuple :=
  (Shape.index?_eq_some_iff.mp h).left

theorem coordinates_of_indexOf? (h : g.indexOf? tuple = some index) :
    g.edges.coordinates index = tuple := by
  rcases Shape.index?_eq_some_iff.mp h with ⟨hinside, hindex⟩
  rw [hindex, Shape.coordinates_flat hinside]

theorem cellAt_of_length_ne (h : tuple.length ≠ g.dimensions) :
    g.cellAt tuple = .error (.dimensionMismatch g.dimensions tuple.length) :=
  if_pos h

theorem cellAt_of_firstOutside {axis coordinate edge : Nat}
    (hlength : tuple.length = g.dimensions)
    (h : g.edges.FirstOutside tuple axis coordinate edge) :
    g.cellAt tuple = .error (.outOfBounds axis coordinate edge) := by
  have hfirst : firstOutside? 0 g.edges tuple = some (axis, coordinate, edge) :=
    firstOutside?_eq_some_iff.mpr ⟨axis, (Nat.zero_add axis).symm, h⟩
  rw [cellAt, if_neg (not_not.mpr hlength), hfirst]

theorem cellAt_of_get? (hindex : g.indexOf? tuple = some index)
    (hvalue : g.get? index = some value) : g.cellAt tuple = .ok value := by
  have hinside := inside_of_indexOf? hindex
  have hlength : tuple.length = g.dimensions := hinside.length_eq
  have hnone : firstOutside? 0 g.edges tuple = none :=
    (firstOutside?_eq_none_iff hlength).mpr hinside
  rw [cellAt, if_neg (not_not.mpr hlength), hnone, hindex, Option.bind_some, hvalue]

/-- A tuple has the wrong length, or leaves the shape on a first axis, or names a cell. -/
theorem tuple_cases (g : Grid cell) (tuple : List Nat) :
    tuple.length ≠ g.dimensions ∨
      (tuple.length = g.dimensions ∧ exists axis coordinate edge,
        g.edges.FirstOutside tuple axis coordinate edge) ∨
      (exists index value, g.indexOf? tuple = some index ∧ g.get? index = some value ∧
        g.coordinatesOf? index = some tuple) := by
  by_cases hlength : tuple.length = g.dimensions
  · cases hfirst : firstOutside? 0 g.edges tuple with
    | none =>
        have hinside := (firstOutside?_eq_none_iff hlength).mp hfirst
        exact Or.inr (Or.inr (exists_cell_of_inside hinside))
    | some entry =>
        rcases entry with ⟨axis, coordinate, edge⟩
        rcases firstOutside?_eq_some_iff.mp hfirst with ⟨passed, _, houtside⟩
        exact Or.inr (Or.inl ⟨hlength, passed, coordinate, edge, houtside⟩)
  · exact Or.inl hlength

theorem cellAt_eq_ok_iff :
    g.cellAt tuple = .ok value ↔
      exists index, g.indexOf? tuple = some index ∧ g.get? index = some value ∧
        g.coordinatesOf? index = some tuple := by
  constructor
  · intro h
    rcases g.tuple_cases tuple with hlength | ⟨hlength, axis, coordinate, edge, hfirst⟩ |
      ⟨index, content, hindex, hcontent, hback⟩
    · rw [cellAt_of_length_ne hlength] at h
      cases h
    · rw [cellAt_of_firstOutside hlength hfirst] at h
      cases h
    · rw [cellAt_of_get? hindex hcontent] at h
      cases h
      exact ⟨index, hindex, hcontent, hback⟩
  · intro h
    rcases h with ⟨index, hindex, hvalue, _⟩
    exact cellAt_of_get? hindex hvalue

theorem cellAt_eq_error_iff {fault : GridFault} :
    g.cellAt tuple = .error fault ↔
      tuple.length ≠ g.dimensions ∧
          fault = .dimensionMismatch g.dimensions tuple.length ∨
        tuple.length = g.dimensions ∧ exists axis coordinate edge,
          g.edges.FirstOutside tuple axis coordinate edge ∧
            fault = .outOfBounds axis coordinate edge := by
  constructor
  · intro h
    rcases g.tuple_cases tuple with hlength | ⟨hlength, axis, coordinate, edge, hfirst⟩ |
      ⟨index, content, hindex, hcontent, _⟩
    · rw [cellAt_of_length_ne hlength] at h
      cases h
      exact Or.inl ⟨hlength, rfl⟩
    · rw [cellAt_of_firstOutside hlength hfirst] at h
      cases h
      exact Or.inr ⟨hlength, axis, coordinate, edge, hfirst, rfl⟩
    · rw [cellAt_of_get? hindex hcontent] at h
      cases h
  · intro h
    rcases h with ⟨hlength, hfault⟩ | ⟨hlength, axis, coordinate, edge, hfirst, hfault⟩
    · rw [hfault, cellAt_of_length_ne hlength]
    · rw [hfault, cellAt_of_firstOutside hlength hfirst]

/-!
# The list of all cells
-/

theorem mem_entries_iff :
    (tuple, value) ∈ g.entries ↔
      exists index, g.get? index = some value ∧ g.edges.coordinates index = tuple := by
  rw [entries, List.mem_map]
  constructor
  · intro h
    rcases h with ⟨⟨content, index⟩, hentry, heq⟩
    cases heq
    refine ⟨index, ?_, rfl⟩
    rw [List.mem_zipIdx_iff_getElem?, Array.getElem?_toList] at hentry
    exact hentry
  · intro h
    rcases h with ⟨index, hvalue, htuple⟩
    refine ⟨(value, index), ?_, by rw [htuple]⟩
    rw [List.mem_zipIdx_iff_getElem?, Array.getElem?_toList]
    exact hvalue

theorem mem_entries_iff_cellAt : (tuple, value) ∈ g.entries ↔ g.cellAt tuple = .ok value := by
  rw [mem_entries_iff, cellAt_eq_ok_iff]
  constructor
  · intro h
    rcases h with ⟨index, hvalue, htuple⟩
    have hlt := lt_size_of_get? hvalue
    have hinside := Shape.inside_coordinates g.zero_not_mem index
    rw [size_eq_cellCount] at hlt
    subst htuple
    refine ⟨index, ?_, hvalue, if_pos (lt_size_of_get? hvalue)⟩
    exact Shape.index?_eq_some_iff.mpr ⟨hinside, (Shape.flat_coordinates hlt).symm⟩
  · intro h
    rcases h with ⟨index, hindex, hvalue, _⟩
    exact ⟨index, hvalue, coordinates_of_indexOf? hindex⟩

end

end Grid

namespace Session

/-!
# Inspection
-/

variable {session : Session} {tuple : List Nat} {index : Nat} {symbol : Symbol}

theorem inspect_of_get? (hindex : session.grid.indexOf? tuple = some index)
    (hvalue : session.grid.get? index = some symbol) :
    session.inspect tuple =
      (some (report tuple symbol index tuple),
        { session with inspection := some (report tuple symbol index tuple) }) := by
  rw [inspect, hindex]
  simp only [hvalue, Grid.coordinates_of_indexOf? hindex]

theorem inspect_of_fault {fault : GridFault} (h : session.grid.cellAt tuple = .error fault) :
    session.inspect tuple = (none, session) := by
  have hnone : session.grid.indexOf? tuple = none := by
    rw [Option.eq_none_iff_forall_ne_some]
    intro index hindex
    rcases Grid.exists_cell_of_inside (Grid.inside_of_indexOf? hindex) with
      ⟨other, symbol, hother, hsymbol, _⟩
    rw [Grid.cellAt_of_get? hother hsymbol] at h
    cases h
  rw [inspect, hnone]

/-- The cell at a tuple is the cell at the index of the tuple, and the index leads back to the
tuple.  It stands beside the tuple in the list of all cells.  A tuple that names no cell has the
wrong length, or else it is reported for the first axis that it leaves.  After both checks the
tuple has an index and the index a cell.  An inspection reports exactly on the tuples that name
a cell, it shows the cell, its index and the coordinates of the index, and keeps nothing but the
report.  Where it reports nothing, it changes nothing. -/
theorem addressing_exact :
    (forall {cell : Type} (g : Grid cell) (tuple : List Nat),
      (forall value, g.cellAt tuple = .ok value ↔
        exists index, g.indexOf? tuple = some index ∧ g.get? index = some value ∧
          g.coordinatesOf? index = some tuple) ∧
      (forall value, (tuple, value) ∈ g.entries ↔ g.cellAt tuple = .ok value) ∧
      (forall fault, g.cellAt tuple = .error fault ↔
        tuple.length ≠ g.dimensions ∧
            fault = .dimensionMismatch g.dimensions tuple.length ∨
          tuple.length = g.dimensions ∧ exists axis coordinate edge,
            g.edges.FirstOutside tuple axis coordinate edge ∧
              fault = .outOfBounds axis coordinate edge) ∧
      (tuple.length = g.dimensions -> Grid.firstOutside? 0 g.edges tuple = none ->
        exists index value, g.indexOf? tuple = some index ∧ g.get? index = some value) ∧
      forall index,
        (g.coordinatesOf? index = none ↔ g.size ≤ index) ∧
          (g.get? index = none ↔ g.size ≤ index)) ∧
    forall (session : Session) (tuple : List Nat),
      ((session.inspect tuple).1.isSome ↔
        exists symbol, session.grid.cellAt tuple = .ok symbol) ∧
      (forall symbol index, session.grid.cellAt tuple = .ok symbol ->
        session.grid.indexOf? tuple = some index ->
        exists text,
          text = Text.numberList tuple ++ ": " ++ symbol.text ++ "\nShould be at: " ++
            toString index ++ " -> " ++ Text.numberList tuple ∧
          session.inspect tuple = (some text, { session with inspection := some text })) ∧
      ((session.inspect tuple).1 = none -> (session.inspect tuple).2 = session) := by
  constructor
  · intro cell g tuple
    refine ⟨fun _ => Grid.cellAt_eq_ok_iff, fun _ => Grid.mem_entries_iff_cellAt,
      fun _ => Grid.cellAt_eq_error_iff, ?_, ?_⟩
    · intro hlength hnone
      have hinside := (Grid.firstOutside?_eq_none_iff hlength).mp hnone
      rcases Grid.exists_cell_of_inside hinside with ⟨index, value, hindex, hvalue, _⟩
      exact ⟨index, value, hindex, hvalue⟩
    · intro index
      exact ⟨Grid.coordinatesOf?_eq_none_iff, Grid.get?_eq_none_iff_le⟩
  · intro session tuple
    refine ⟨?_, ?_, ?_⟩
    · cases hcell : session.grid.cellAt tuple with
      | ok symbol =>
          rcases Grid.cellAt_eq_ok_iff.mp hcell with ⟨index, hindex, hvalue, _⟩
          rw [inspect_of_get? hindex hvalue]
          exact iff_of_true rfl ⟨symbol, rfl⟩
      | error fault =>
          rw [inspect_of_fault hcell]
          apply iff_of_false
          · exact Bool.false_ne_true
          · intro h
            rcases h with ⟨symbol, hsymbol⟩
            cases hsymbol
    · intro symbol index hcell hindex
      rcases Grid.cellAt_eq_ok_iff.mp hcell with ⟨other, hother, hvalue, _⟩
      rw [hindex] at hother
      cases hother
      exact ⟨report tuple symbol index tuple, rfl, inspect_of_get? hindex hvalue⟩
    · intro hnone
      cases hcell : session.grid.cellAt tuple with
      | ok symbol =>
          rcases Grid.cellAt_eq_ok_iff.mp hcell with ⟨index, hindex, hvalue, _⟩
          rw [inspect_of_get? hindex hvalue] at hnone
          cases hnone
      | error fault => rw [inspect_of_fault hcell]

end Session
end GridRules
