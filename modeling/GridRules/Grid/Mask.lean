import GridRules.Grid.Search

/-!
# Masks

A mask assigns new values to some flat indices of a grid.  It is kept as a list
of entries in ascending order of the index, with one entry for each index, so
two masks that assign the same values are equal.

## Main statements

Reading a mask after a write gives the value written at the index written to,
and the earlier value at every other index.
-/

namespace GridRules

namespace MaskEntries

/-!
# Sorted entries
-/

variable {cell : Type}

def write (index : Nat) (value : cell) : List (Nat × cell) -> List (Nat × cell)
  | [] => [(index, value)]
  | entry :: rest =>
      if index < entry.1 then (index, value) :: entry :: rest
      else if index = entry.1 then (index, value) :: rest
      else entry :: write index value rest

theorem fst_of_mem_write {index : Nat} {value : cell} {entries : List (Nat × cell)}
    {entry : Nat × cell} (h : entry ∈ write index value entries) :
    entry.1 = index ∨ entry ∈ entries := by
  induction entries with
  | nil =>
      simp only [write, List.mem_singleton] at h
      exact Or.inl (h ▸ rfl)
  | cons head rest ih =>
      simp only [write] at h
      split at h
      · rcases List.mem_cons.mp h with hnew | hold
        · exact Or.inl (hnew ▸ rfl)
        · exact Or.inr hold
      · split at h
        · rcases List.mem_cons.mp h with hnew | hold
          · exact Or.inl (hnew ▸ rfl)
          · exact Or.inr (List.mem_cons_of_mem _ hold)
        · rcases List.mem_cons.mp h with hhead | hrest
          · exact Or.inr (hhead ▸ List.mem_cons_self)
          · exact (ih hrest).imp id (List.mem_cons_of_mem _)

def Ascending (entries : List (Nat × cell)) : Prop :=
  entries.Pairwise fun first second => first.1 < second.1

theorem ascending_write (index : Nat) (value : cell) {entries : List (Nat × cell)}
    (h : Ascending entries) : Ascending (write index value entries) := by
  induction entries with
  | nil => exact List.pairwise_singleton _ _
  | cons head rest ih =>
      rcases List.pairwise_cons.mp h with ⟨hhead, hrest⟩
      simp only [write]
      split
      · rename_i hlt
        refine List.pairwise_cons.mpr ⟨?_, h⟩
        intro entry hentry
        rcases List.mem_cons.mp hentry with heq | hmem
        · exact heq ▸ hlt
        · exact Nat.lt_trans hlt (hhead entry hmem)
      · split
        · rename_i heq
          exact List.pairwise_cons.mpr ⟨fun entry hentry => heq ▸ hhead entry hentry, hrest⟩
        · refine List.pairwise_cons.mpr ⟨?_, ih hrest⟩
          intro entry hentry
          rcases fst_of_mem_write hentry with heq | hmem
          · omega
          · exact hhead entry hmem

def read? : List (Nat × cell) -> Nat -> Option cell
  | [], _ => none
  | entry :: rest, index => if entry.1 = index then some entry.2 else read? rest index

theorem read?_write (index : Nat) (value : cell) (entries : List (Nat × cell)) (other : Nat) :
    read? (write index value entries) other =
      if index = other then some value else read? entries other := by
  induction entries with
  | nil => simp [write, read?]
  | cons head rest ih =>
      simp only [write]
      split
      · simp [read?]
      · split
        · rename_i heq
          by_cases hother : index = other
          · simp [read?, hother]
          · have hhead : ¬ head.1 = other := fun hcontra => hother (heq.trans hcontra)
            simp [read?, hother, hhead]
        · rename_i hlt hne
          by_cases hhead : head.1 = other
          · have hindex : ¬ index = other := fun hcontra => hne (hcontra.trans hhead.symm)
            simp [read?, hhead, hindex]
          · simp [read?, hhead, ih]

end MaskEntries

/-- New values for some flat indices. -/
structure Mask (cell : Type) where
  entries : List (Nat × cell)
  ascending : MaskEntries.Ascending entries
deriving DecidableEq

namespace Mask

variable {cell : Type}

/-!
# Building and reading masks
-/

def empty : Mask cell where
  entries := []
  ascending := List.Pairwise.nil

def insert (mask : Mask cell) (index : Nat) (value : cell) : Mask cell where
  entries := MaskEntries.write index value mask.entries
  ascending := MaskEntries.ascending_write index value mask.ascending

def ofPairs (pairs : List (Nat × cell)) : Mask cell :=
  pairs.foldl (fun mask pair => mask.insert pair.1 pair.2) empty

/-- Pair each index of an occurrence with the replacement at its position. -/
def ofOccurrence (occurrence : Occurrence) (replacement : List cell) : Mask cell :=
  ofPairs (occurrence.zip replacement)

def get? (mask : Mask cell) (index : Nat) : Option cell :=
  MaskEntries.read? mask.entries index

def size (mask : Mask cell) : Nat :=
  mask.entries.length

def isEmpty (mask : Mask cell) : Bool :=
  mask.entries.isEmpty

@[simp] theorem get?_empty (index : Nat) : (empty : Mask cell).get? index = none := rfl

@[simp] theorem get?_insert (mask : Mask cell) (index : Nat) (value : cell) (other : Nat) :
    (mask.insert index value).get? other =
      if index = other then some value else mask.get? other :=
  MaskEntries.read?_write index value mask.entries other

end Mask

namespace Grid

variable {cell : Type}

/-!
# Applying masks
-/

/-- Replace the cells that a mask assigns a value to.  Assignments outside of
the grid have no effect. -/
def overwrite (g : Grid cell) (mask : Mask cell) : Grid cell where
  edges := g.edges
  cells := g.cells.mapIdx fun index value => (mask.get? index).getD value
  edges_ne_nil := g.edges_ne_nil
  zero_not_mem := g.zero_not_mem
  size_eq := by
    rw [Array.size_mapIdx]
    exact g.size_eq
  addressable := g.addressable

@[simp] theorem edges_overwrite (g : Grid cell) (mask : Mask cell) :
    (g.overwrite mask).edges = g.edges := rfl

@[simp] theorem size_overwrite (g : Grid cell) (mask : Mask cell) :
    (g.overwrite mask).size = g.size := by
  simp [size, overwrite]

theorem get?_overwrite (g : Grid cell) (mask : Mask cell) (index : Nat) :
    (g.overwrite mask).get? index =
      (g.get? index).map fun value => (mask.get? index).getD value := by
  simp [get?, overwrite]

end Grid
end GridRules
