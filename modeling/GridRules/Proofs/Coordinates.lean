import Mathlib.Algebra.BigOperators.Group.Finset.Basic
import Mathlib.Data.List.Forall2
import Mathlib.Tactic.Ring
import GridRules.Grid.Search

/-!
# Coordinates and flat indices

A tuple lies inside a shape when it has one coordinate for each axis and every
coordinate is below the length of its axis.  The flat index of such a tuple is
the sum of its coordinates weighted by the steps of the axes.

## Main statements

Flat indices and the tuples inside a shape determine each other, and reading a
tuple as an index succeeds exactly for the tuples inside the shape.
-/

namespace GridRules
namespace Shape

def Inside (edges : Shape) (tuple : List Nat) : Prop :=
  List.Forall₂ (fun coordinate edge => coordinate < edge) tuple edges

def flat (edges : Shape) (tuple : List Nat) : Nat :=
  (List.zipWith (fun coordinate step => coordinate * step) tuple edges.strides).sum

@[simp] theorem flat_nil (tuple : List Nat) : flat [] tuple = 0 := by
  cases tuple <;> rfl

@[simp] theorem flat_cons (edge : Nat) (rest : Shape) (coordinate : Nat) (others : List Nat) :
    flat (edge :: rest) (coordinate :: others) =
      coordinate * cellCount rest + flat rest others := by
  simp [flat]

theorem Inside.length_eq {edges : Shape} {tuple : List Nat} (h : edges.Inside tuple) :
    tuple.length = edges.length :=
  List.Forall₂.length_eq h

/-!
# Between tuples and indices
-/

theorem flat_lt {edges : Shape} {tuple : List Nat} (h : edges.Inside tuple) :
    flat edges tuple < cellCount edges := by
  induction h with
  | nil => simp
  | cons hlt _ ih =>
      rename_i coordinate edge others rest _
      rw [flat_cons, cellCount_cons]
      calc
        coordinate * cellCount rest + flat rest others
            < coordinate * cellCount rest + cellCount rest := Nat.add_lt_add_left ih _
        _ = (coordinate + 1) * cellCount rest := by rw [Nat.add_mul, Nat.one_mul]
        _ ≤ edge * cellCount rest := Nat.mul_le_mul_right _ hlt

theorem coordinates_turns (edges : Shape) (turns index : Nat) :
    coordinates edges (turns * cellCount edges + index) = coordinates edges index := by
  induction edges generalizing turns with
  | nil => rfl
  | cons edge rest ih =>
      have hinner : turns * cellCount (edge :: rest) = turns * edge * cellCount rest := by
        rw [cellCount_cons, Nat.mul_assoc]
      rw [coordinates_cons, coordinates_cons, hinner, ih]
      congr 1
      rcases Nat.eq_zero_or_pos (cellCount rest) with hzero | hpos
      · simp [hzero]
      · rw [Nat.add_comm, Nat.add_mul_div_right _ _ hpos, Nat.add_mul_mod_self_right]

theorem coordinates_flat {edges : Shape} {tuple : List Nat} (h : edges.Inside tuple) :
    coordinates edges (flat edges tuple) = tuple := by
  induction h with
  | nil => rfl
  | cons hlt hrest ih =>
      rename_i coordinate edge others rest
      have hbound : flat rest others < cellCount rest := flat_lt hrest
      rw [flat_cons, coordinates_cons, coordinates_turns, ih]
      congr 1
      rw [Nat.add_comm, Nat.add_mul_div_right _ _ (Nat.zero_lt_of_lt hbound),
        Nat.div_eq_of_lt hbound, Nat.zero_add, Nat.mod_eq_of_lt hlt]

theorem flat_coordinates_mod (edges : Shape) (index : Nat) :
    flat edges (coordinates edges index) = index % cellCount edges := by
  induction edges with
  | nil => simp [Nat.mod_one]
  | cons edge rest ih =>
      rw [coordinates_cons, flat_cons, ih, cellCount_cons, Nat.mul_comm edge, Nat.mod_mul]
      rw [Nat.add_comm, Nat.mul_comm]

theorem flat_coordinates {edges : Shape} {index : Nat} (h : index < cellCount edges) :
    flat edges (coordinates edges index) = index := by
  rw [flat_coordinates_mod, Nat.mod_eq_of_lt h]

theorem inside_coordinates {edges : Shape} (h : 0 ∉ edges) (index : Nat) :
    edges.Inside (coordinates edges index) := by
  induction edges with
  | nil => exact List.Forall₂.nil
  | cons edge rest ih =>
      simp only [List.mem_cons, not_or] at h
      rw [coordinates_cons]
      exact List.Forall₂.cons (Nat.mod_lt _ (Nat.pos_of_ne_zero (Ne.symm h.left))) (ih h.right)

theorem eq_zero_of_mem_coordinates_zero {edges : Shape} {coordinate : Nat}
    (h : coordinate ∈ coordinates edges 0) : coordinate = 0 := by
  induction edges with
  | nil => cases h
  | cons edge rest ih =>
      rw [coordinates_cons] at h
      rcases List.mem_cons.mp h with hhead | hrest
      · simpa using hhead
      · exact ih hrest

theorem flat_inj {edges : Shape} {first second : List Nat} (hfirst : edges.Inside first)
    (hsecond : edges.Inside second) (h : flat edges first = flat edges second) :
    first = second := by
  rw [← coordinates_flat hfirst, h, coordinates_flat hsecond]

theorem indexFrom?_eq_some_iff {start index : Nat} {edges : Shape} {tuple : List Nat} :
    indexFrom? start edges tuple = some index ↔
      edges.Inside tuple ∧ index = start * cellCount edges + flat edges tuple := by
  induction edges generalizing start tuple with
  | nil =>
      cases tuple with
      | nil => simp [indexFrom?, Inside, eq_comm]
      | cons => simp [indexFrom?, Inside]
  | cons edge rest ih =>
      cases tuple with
      | nil => simp [indexFrom?, Inside]
      | cons coordinate others =>
          have hsum : (start * edge + coordinate) * cellCount rest + flat rest others =
              start * cellCount (edge :: rest) + flat (edge :: rest) (coordinate :: others) := by
            rw [cellCount_cons, flat_cons]
            ring
          rw [indexFrom?, Inside, List.forall₂_cons]
          split
          · rename_i hlt
            rw [ih, hsum]
            simp [Inside, hlt]
          · rename_i hge
            simp [hge]

theorem index?_eq_some_iff {edges : Shape} {tuple : List Nat} {index : Nat} :
    index? edges tuple = some index ↔ edges.Inside tuple ∧ index = flat edges tuple := by
  simp [index?, indexFrom?_eq_some_iff]

/-!
# Axis by axis
-/

@[simp] theorem along_cons_zero (first : Nat) (rest : List Nat) :
    along (first :: rest) 0 = first := rfl

@[simp] theorem along_cons_succ (first : Nat) (rest : List Nat) (axis : Nat) :
    along (first :: rest) (axis + 1) = along rest axis := rfl

theorem along_of_lt {lengths : List Nat} {axis : Nat} (h : axis < lengths.length) :
    along lengths axis = lengths[axis] := by
  simp [along, h]

theorem along_map_range (f : Nat -> Nat) {count axis : Nat} (h : axis < count) :
    along ((List.range count).map f) axis = f axis := by
  simp [along, h]

theorem ext_along {first second : List Nat} (hlength : first.length = second.length)
    (h : forall axis, axis < first.length -> along first axis = along second axis) :
    first = second := by
  apply List.ext_getElem hlength
  intro axis hfirst hsecond
  rw [← along_of_lt hfirst, ← along_of_lt hsecond]
  exact h axis hfirst

theorem inside_iff {edges : Shape} {tuple : List Nat} :
    edges.Inside tuple ↔
      tuple.length = edges.length ∧
        forall axis, axis < edges.length -> along tuple axis < along edges axis := by
  rw [Inside, List.forall₂_iff_get]
  constructor
  · rintro ⟨hlength, h⟩
    refine ⟨hlength, ?_⟩
    intro axis haxis
    rw [along_of_lt haxis, along_of_lt (hlength ▸ haxis)]
    exact h axis (hlength ▸ haxis) haxis
  · rintro ⟨hlength, h⟩
    refine ⟨hlength, ?_⟩
    intro axis htuple haxis
    have hlt := h axis haxis
    rwa [along_of_lt haxis, along_of_lt htuple] at hlt

theorem along_pos {edges : Shape} (h : 0 ∉ edges) {axis : Nat} (haxis : axis < edges.length) :
    0 < along edges axis := by
  rw [along_of_lt haxis]
  exact Nat.pos_of_ne_zero fun hzero => h (hzero ▸ List.getElem_mem haxis)

theorem flat_eq_sum {edges : Shape} {tuple : List Nat} (h : tuple.length = edges.length) :
    flat edges tuple =
      ∑ axis ∈ Finset.range edges.length, along tuple axis * along edges.strides axis := by
  induction edges generalizing tuple with
  | nil => simp
  | cons edge rest ih =>
      cases tuple with
      | nil => cases h
      | cons coordinate others =>
          rw [flat_cons, ih (Nat.succ.inj h), List.length_cons, Finset.sum_range_succ',
            strides_cons, Nat.add_comm]
          rfl

end Shape
end GridRules
