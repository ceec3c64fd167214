import Mathlib.Data.List.Nodup
import Mathlib.Data.List.Perm.Subperm
import GridRules.Orientation

/-!
# Orientations as placements on distinct axes

An orientation is proper for a grid and a pattern when it lays every pattern
axis onto a grid axis and no two of them onto the same one.  The enumeration
lists exactly the proper orientations.

## Main statements

The placed axes and the free axes of a proper orientation make up all axes of
the grid.  Among the orientations that a pattern cannot tell apart, exactly one
is kept.
-/

namespace GridRules
namespace Orientation

/-- Every pattern axis is laid onto a grid axis of its own. -/
structure Proper (o : Orientation) (gridDimensions patternDimensions : Nat) : Prop where
  length_eq : o.length = patternDimensions
  axis_lt : forall p, p ∈ o -> p.axis < gridDimensions
  nodup : (o.map Placement.axis).Nodup

/-!
# The enumeration
-/

theorem mem_placements_iff {dimensions count : Nat} {used : List Nat} {o : Orientation} :
    o ∈ placements dimensions count used ↔
      o.Proper dimensions count ∧ forall p, p ∈ o -> p.axis ∉ used := by
  induction count generalizing used o with
  | zero =>
      rw [placements, List.mem_singleton]
      constructor
      · rintro rfl
        exact ⟨⟨rfl, by simp, List.nodup_nil⟩, by simp⟩
      · rintro ⟨hproper, _⟩
        exact List.length_eq_zero_iff.mp hproper.length_eq
  | succ count ih =>
      simp only [placements, List.mem_flatMap, List.mem_map, List.mem_filter, List.mem_range,
        decide_eq_true_eq]
      constructor
      · rintro ⟨direction, _, axis, ⟨haxis, hfree⟩, others, hothers, rfl⟩
        rcases ih.mp hothers with ⟨hproper, hunused⟩
        have hnew : axis ∉ others.map Placement.axis := by
          intro hmem
          rcases List.mem_map.mp hmem with ⟨p, hp, heq⟩
          exact hunused p hp (heq ▸ List.mem_cons_self)
        refine ⟨⟨by simp [hproper.length_eq], ?_, ?_⟩, ?_⟩
        · intro p hp
          rcases List.mem_cons.mp hp with rfl | htail
          · exact haxis
          · exact hproper.axis_lt p htail
        · exact List.nodup_cons.mpr ⟨hnew, hproper.nodup⟩
        · intro p hp
          rcases List.mem_cons.mp hp with rfl | htail
          · exact hfree
          · exact fun hmem => hunused p htail (List.mem_cons_of_mem _ hmem)
      · rintro ⟨hproper, hunused⟩
        cases o with
        | nil => cases hproper.length_eq
        | cons head others =>
            rcases List.nodup_cons.mp hproper.nodup with ⟨hnew, hnodup⟩
            refine ⟨head.direction, Direction.mem_all _, head.axis,
              ⟨hproper.axis_lt head List.mem_cons_self, hunused head List.mem_cons_self⟩,
              others, ih.mpr ⟨⟨?_, ?_, hnodup⟩, ?_⟩, rfl⟩
            · exact Nat.succ.inj hproper.length_eq
            · exact fun p hp => hproper.axis_lt p (List.mem_cons_of_mem _ hp)
            · intro p hp hmem
              rcases List.mem_cons.mp hmem with heq | hused
              · exact hnew (heq ▸ List.mem_map_of_mem hp)
              · exact hunused p (List.mem_cons_of_mem _ hp) hused

theorem Proper.dimensions_le {o : Orientation} {gridDimensions patternDimensions : Nat}
    (h : o.Proper gridDimensions patternDimensions) : patternDimensions ≤ gridDimensions := by
  have hsubset : o.map Placement.axis ⊆ List.range gridDimensions := by
    intro axis haxis
    rcases List.mem_map.mp haxis with ⟨p, hp, rfl⟩
    exact List.mem_range.mpr (h.axis_lt p hp)
  have hlength := (h.nodup.subperm hsubset).length_le
  simpa [h.length_eq] using hlength

theorem mem_all_iff {gridDimensions patternDimensions : Nat} {o : Orientation} :
    o ∈ all gridDimensions patternDimensions ↔
      0 < patternDimensions ∧ o.Proper gridDimensions patternDimensions := by
  unfold all
  split
  · rename_i hnone
    constructor
    · intro h
      cases h
    · rintro ⟨hpos, hproper⟩
      have hle := hproper.dimensions_le
      omega
  · rename_i hsome
    rw [mem_placements_iff]
    simp only [List.not_mem_nil, not_false_eq_true, implies_true, and_true]
    exact ⟨fun h => ⟨by omega, h⟩, fun h => h.right⟩

/-!
# Placed and free axes
-/

theorem Proper.range_perm {o : Orientation} {gridDimensions patternDimensions : Nat}
    (h : o.Proper gridDimensions patternDimensions) :
    (List.range gridDimensions).Perm (o.map Placement.axis ++ o.freeAxes gridDimensions) := by
  have hfree : (o.freeAxes gridDimensions).Nodup := List.nodup_range.filter _
  have hdisjoint : (o.map Placement.axis).Disjoint (o.freeAxes gridDimensions) := by
    intro axis hplaced haxis
    rcases List.mem_map.mp hplaced with ⟨p, hp, heq⟩
    exact (mem_freeAxes.mp haxis).right p hp heq
  refine (List.perm_ext_iff_of_nodup List.nodup_range (h.nodup.append hfree hdisjoint)).mpr ?_
  intro axis
  rw [List.mem_range, List.mem_append, mem_freeAxes, List.mem_map]
  constructor
  · intro haxis
    by_cases hplaced : exists p, p ∈ o ∧ p.axis = axis
    · exact Or.inl hplaced
    · exact Or.inr ⟨haxis, fun p hp heq => hplaced ⟨p, hp, heq⟩⟩
  · rintro (⟨p, hp, rfl⟩ | ⟨haxis, _⟩)
    · exact h.axis_lt p hp
    · exact haxis

/-!
# Keeping the first of each kind

Entries of a list are of one kind when they carry the same label.
-/

section Firsts

variable {item label : Type} [DecidableEq label] (kind : item -> label)

/-- The first entry of each kind, in the order of the list. -/
def firsts (items : List item) : List item :=
  items.eraseDupsBy fun later first => kind later == kind first

theorem firsts_cons (head : item) (rest : List item) :
    firsts kind (head :: rest) =
      head :: firsts kind (rest.filter fun later => kind later ≠ kind head) := by
  unfold firsts
  rw [List.eraseDupsBy_cons]
  congr 2
  apply List.filter_congr
  intro later _
  by_cases h : kind later = kind head <;> simp [h]

theorem firsts_sublist (items : List item) : (firsts kind items).Sublist items := by
  match items with
  | [] => exact List.Sublist.slnil
  | head :: rest =>
      rw [firsts_cons]
      exact ((firsts_sublist _).trans List.filter_sublist).cons_cons head
termination_by items.length
decreasing_by exact Nat.lt_succ_of_le (List.length_filter_le _ _)

theorem firsts_pairwise (items : List item) :
    (firsts kind items).Pairwise fun first second => kind first ≠ kind second := by
  match items with
  | [] => exact List.Pairwise.nil
  | head :: rest =>
      rw [firsts_cons]
      refine List.pairwise_cons.mpr ⟨?_, firsts_pairwise _⟩
      intro later hlater
      have hmem := (firsts_sublist kind _).subset hlater
      simp only [List.mem_filter, decide_eq_true_eq] at hmem
      exact Ne.symm hmem.right
termination_by items.length
decreasing_by exact Nat.lt_succ_of_le (List.length_filter_le _ _)

theorem exists_firsts {items : List item} {wanted : item} (h : wanted ∈ items) :
    exists kept, kept ∈ firsts kind items ∧ kind kept = kind wanted := by
  match items with
  | [] => cases h
  | head :: rest =>
      rw [firsts_cons]
      by_cases heq : kind wanted = kind head
      · exact ⟨head, List.mem_cons_self, heq.symm⟩
      · have hrest : wanted ∈ rest := by
          rcases List.mem_cons.mp h with rfl | hmem
          · exact absurd rfl heq
          · exact hmem
        have hmem : wanted ∈ rest.filter fun later => kind later ≠ kind head := by
          simp [hrest, heq]
        rcases exists_firsts hmem with ⟨kept, hkept, hkind⟩
        exact ⟨kept, List.mem_cons_of_mem _ hkept, hkind⟩
termination_by items.length
decreasing_by exact Nat.lt_succ_of_le (List.length_filter_le _ _)

end Firsts

/-!
# Distinguishable orientations
-/

theorem distinguishable_eq_firsts (gridDimensions : Nat) (patternEdges : Shape) :
    distinguishable gridDimensions patternEdges =
      firsts (fun o => o.visible patternEdges) (all gridDimensions patternEdges.length) := by
  unfold distinguishable firsts
  congr 1
  funext later first
  by_cases h : later.visible patternEdges = first.visible patternEdges <;> simp [h]

theorem mem_all_of_mem_distinguishable {gridDimensions : Nat} {patternEdges : Shape}
    {o : Orientation} (h : o ∈ distinguishable gridDimensions patternEdges) :
    o ∈ all gridDimensions patternEdges.length := by
  rw [distinguishable_eq_firsts] at h
  exact (firsts_sublist _ _).subset h

theorem distinguishable_pairwise (gridDimensions : Nat) (patternEdges : Shape) :
    (distinguishable gridDimensions patternEdges).Pairwise
      fun first second => first.visible patternEdges ≠ second.visible patternEdges := by
  rw [distinguishable_eq_firsts]
  exact firsts_pairwise _ _

theorem exists_distinguishable {gridDimensions : Nat} {patternEdges : Shape} {o : Orientation}
    (h : o ∈ all gridDimensions patternEdges.length) :
    exists kept, kept ∈ distinguishable gridDimensions patternEdges ∧
      kept.visible patternEdges = o.visible patternEdges := by
  rw [distinguishable_eq_firsts]
  exact exists_firsts (fun o : Orientation => o.visible patternEdges) h

end Orientation
end GridRules
