import Mathlib.Algebra.BigOperators.Group.List.Basic
import GridRules.Grid.Basic

/-!
# Shapes that are accepted

The checked cell count multiplies axis by axis and gives up when a running
product is too large.  On a shape without an empty axis the running products
only grow, so what counts is the whole product.

## Main statements

A grid can be built from given cells exactly when it exists: the shape and the
cells determine it, and nothing else is asked of them.  A grid can be filled for
each acceptable shape whose cells fit into one block of memory.  In what order
the axes stand does not matter.
-/

namespace GridRules

namespace Shape

structure Acceptable (edges : Shape) : Prop where
  ne_nil : edges ≠ []
  zero_not_mem : 0 ∉ edges
  addressable : cellCount edges < addressLimit

theorem cellCount_eq_prod (edges : Shape) : cellCount edges = edges.prod := by
  induction edges with
  | nil => rfl
  | cons edge rest ih => rw [cellCount_cons, List.prod_cons, ih]

theorem cellCount_eq_zero_iff {edges : Shape} : cellCount edges = 0 ↔ 0 ∈ edges := by
  induction edges with
  | nil => simp
  | cons edge rest ih => rw [cellCount_cons, Nat.mul_eq_zero, ih, List.mem_cons, eq_comm]

theorem countFrom?_eq_some_of_lt {count : Nat} {edges : Shape} (hzero : 0 ∉ edges)
    (hlt : count * cellCount edges < addressLimit) :
    countFrom? count edges = some (count * cellCount edges) := by
  induction edges generalizing count with
  | nil => simp [countFrom?]
  | cons edge rest ih =>
      have hrest : 0 ∉ rest := fun h => hzero (List.mem_cons_of_mem edge h)
      rw [cellCount_cons, ← Nat.mul_assoc] at hlt ⊢
      have hnext : count * edge < addressLimit :=
        Nat.lt_of_le_of_lt (Nat.le_mul_of_pos_right _ (cellCount_pos hrest)) hlt
      rw [countFrom?, if_pos hnext]
      exact ih hrest hlt

theorem cellCount?_eq_some_iff {edges : Shape} (hzero : 0 ∉ edges) {total : Nat} :
    cellCount? edges = some total ↔ total = cellCount edges ∧ total < addressLimit := by
  constructor
  · intro h
    exact ⟨cellCount?_eq_some h, cellCount?_lt h⟩
  · intro h
    have hlt : 1 * cellCount edges < addressLimit := by
      rw [Nat.one_mul, ← h.left]
      exact h.right
    rw [cellCount?, countFrom?_eq_some_of_lt hzero hlt, Nat.one_mul, h.left]

theorem cellCount?_isSome_iff {edges : Shape} (hzero : 0 ∉ edges) :
    edges.cellCount?.isSome ↔ edges.cellCount < addressLimit := by
  rw [Option.isSome_iff_exists]
  constructor
  · intro h
    rcases h with ⟨total, htotal⟩
    rcases (cellCount?_eq_some_iff hzero).mp htotal with ⟨heq, hlt⟩
    rwa [← heq]
  · intro hlt
    exact ⟨edges.cellCount, (cellCount?_eq_some_iff hzero).mpr ⟨rfl, hlt⟩⟩

/-- Without an empty axis the checked count does not depend on the order of the axes, although
its running products do. -/
theorem cellCount?_perm {edges reordered : Shape} (hzero : 0 ∉ edges)
    (h : reordered.Perm edges) : reordered.cellCount? = edges.cellCount? := by
  have hcount : reordered.cellCount = edges.cellCount := by
    rw [cellCount_eq_prod, cellCount_eq_prod, h.prod_eq]
  have hzero' : 0 ∉ reordered := fun hmem => hzero (h.mem_iff.mp hmem)
  apply Option.ext
  intro total
  rw [cellCount?_eq_some_iff hzero', cellCount?_eq_some_iff hzero, hcount]

end Shape

namespace Grid

variable {cell : Type}

theorem ofCells_eq_ok_iff {cells : Array cell} {edges : Shape} {g : Grid cell} :
    ofCells cells edges = .ok g ↔ g.edges = edges ∧ g.cells = cells := by
  constructor
  · intro h
    rw [ofCells] at h
    split at h
    · cases h
    · split at h
      · cases h
      · split at h
        · cases h
          exact ⟨rfl, rfl⟩
        · cases h
  · intro h
    rcases h with ⟨hedges, hcells⟩
    subst hedges hcells
    have hshape : ¬ (g.edges = [] ∨ 0 ∈ g.edges) :=
      not_or.mpr ⟨g.edges_ne_nil, g.zero_not_mem⟩
    have hcount : g.edges.cellCount? = some g.edges.cellCount :=
      (Shape.cellCount?_eq_some_iff g.zero_not_mem).mpr ⟨rfl, g.addressable⟩
    rw [ofCells, dif_neg hshape]
    split
    · rename_i hnone
      rw [hcount] at hnone
      cases hnone
    · rename_i count hsome
      have hsize : g.cells.size = count := by
        rw [g.size_eq]
        exact Option.some.inj (hcount.symm.trans hsome)
      rw [dif_pos hsize]

theorem acceptable (g : Grid cell) : g.edges.Acceptable :=
  ⟨g.edges_ne_nil, g.zero_not_mem, g.addressable⟩

theorem exists_ofCells_iff {cells : Array cell} {edges : Shape} :
    (exists g, ofCells cells edges = .ok g) ↔
      edges.Acceptable ∧ cells.size = edges.cellCount := by
  constructor
  · intro h
    rcases h with ⟨g, hg⟩
    rcases ofCells_eq_ok_iff.mp hg with ⟨hedges, hcells⟩
    subst hedges hcells
    exact ⟨g.acceptable, g.size_eq⟩
  · intro h
    rcases h with ⟨hshape, hsize⟩
    exact ⟨⟨edges, cells, hshape.ne_nil, hshape.zero_not_mem, hsize, hshape.addressable⟩,
      ofCells_eq_ok_iff.mpr ⟨rfl, rfl⟩⟩

theorem acceptedCount_eq_ok_iff {edges : Shape} {count : Nat} :
    acceptedCount edges = .ok count ↔ edges.Acceptable ∧ count = edges.cellCount := by
  by_cases hshape : edges = [] ∨ 0 ∈ edges
  · rw [acceptedCount, if_pos hshape]
    constructor
    · intro h
      cases h
    · intro h
      rcases hshape with hnil | hzero
      · exact absurd hnil h.left.ne_nil
      · exact absurd hzero h.left.zero_not_mem
  · rw [acceptedCount, if_neg hshape]
    rw [not_or] at hshape
    constructor
    · intro h
      cases hcount : edges.cellCount? with
      | none =>
          rw [hcount] at h
          cases h
      | some total =>
          rw [hcount] at h
          cases h
          rcases (Shape.cellCount?_eq_some_iff hshape.right).mp hcount with ⟨heq, hlt⟩
          exact ⟨⟨hshape.left, hshape.right, heq ▸ hlt⟩, heq⟩
    · intro h
      have hcount := (Shape.cellCount?_eq_some_iff hshape.right).mpr
        ⟨rfl, h.left.addressable⟩
      rw [hcount, h.right]

theorem exists_acceptedCount_eq_error {edges : Shape} (h : ¬ edges.Acceptable) :
    exists reason, acceptedCount edges = .error reason := by
  cases hcount : acceptedCount edges with
  | error reason => exact ⟨reason, rfl⟩
  | ok count => exact absurd (acceptedCount_eq_ok_iff.mp hcount).left h

/-!
# Filled grids

The cells of a filled grid are allocated before the grid is made of them, so the shape is
judged first, and then the bytes of its cells.
-/

section Filled

variable [Stored cell] {edges : Shape}

theorem filled_of_acceptable (value : cell) (h : edges.Acceptable) :
    filled value edges =
      (allocate edges.cellCount value >>= fun cells => (ofCells cells edges).mapError .fault) := by
  rw [filled, acceptedCount_eq_ok_iff.mpr ⟨h, rfl⟩]
  rfl

theorem filled_of_not_acceptable (value : cell) (h : ¬ edges.Acceptable) :
    exists reason, filled value edges = .error (.fault reason) := by
  rcases exists_acceptedCount_eq_error h with ⟨reason, hreason⟩
  refine ⟨reason, ?_⟩
  rw [filled, hreason]
  rfl

theorem filled_of_lt (value : cell) (h : edges.Acceptable)
    (hlt : edges.cellCount * Stored.width cell < signedLimit) :
    exists g, filled value edges = .ok g ∧ g.edges = edges ∧
      g.cells = Array.replicate edges.cellCount value := by
  rcases exists_ofCells_iff.mpr ⟨h, Array.size_replicate (v := value)⟩ with ⟨g, hg⟩
  refine ⟨g, ?_, ofCells_eq_ok_iff.mp hg⟩
  have hcells : allocate edges.cellCount value =
      .ok (Array.replicate edges.cellCount value) := if_pos hlt
  rw [filled_of_acceptable value h, hcells]
  show (ofCells _ edges).mapError _ = _
  rw [hg]
  rfl

theorem filled_of_le (value : cell) (h : edges.Acceptable)
    (hle : signedLimit ≤ edges.cellCount * Stored.width cell) :
    filled value edges = .error .capacityOverflow := by
  have hcells : allocate edges.cellCount value = .error .capacityOverflow :=
    if_neg (Nat.not_lt.mpr hle)
  rw [filled_of_acceptable value h, hcells]
  rfl

theorem exists_filled_iff {value : cell} :
    (exists g, filled value edges = .ok g) ↔
      edges.Acceptable ∧ edges.cellCount * Stored.width cell < signedLimit := by
  constructor
  · intro h
    rcases h with ⟨g, hg⟩
    by_cases hshape : edges.Acceptable
    · refine ⟨hshape, Nat.lt_of_not_le fun hle => ?_⟩
      rw [filled_of_le value hshape hle] at hg
      cases hg
    · rcases filled_of_not_acceptable value hshape with ⟨reason, hreason⟩
      rw [hreason] at hg
      cases hg
  · intro h
    rcases h with ⟨hshape, hlt⟩
    rcases filled_of_lt value hshape hlt with ⟨g, hg, _⟩
    exact ⟨g, hg⟩

theorem of_filled {value : cell} {g : Grid cell} (h : filled value edges = .ok g) :
    g.edges = edges ∧ forall index content, g.get? index = some content -> content = value := by
  rcases exists_filled_iff.mp ⟨g, h⟩ with ⟨hshape, hlt⟩
  rcases filled_of_lt value hshape hlt with ⟨g', hg', hedges, hcells⟩
  rw [h] at hg'
  cases hg'
  refine ⟨hedges, ?_⟩
  intro index content hcontent
  rw [get?, hcells] at hcontent
  exact Array.eq_of_mem_replicate (Array.mem_of_getElem? hcontent)

end Filled

end Grid
end GridRules
