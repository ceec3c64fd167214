import Mathlib.Algebra.BigOperators.Ring.Finset
import GridRules.Proofs.Coordinates
import GridRules.Proofs.Orientations

/-!
# Walks through a grid

A cell of a pattern lies some steps along each pattern axis away from the first
cell.  Under an orientation these steps are a walk through the grid.  Where the
walk ends is said coordinate by coordinate, without flat indices.

## Main statements

The displacement of a pattern cell is the difference of the flat indices at the
two ends of its walk.  Only placements of axes longer than one matter for it.
-/

namespace GridRules
namespace Orientation

/-- Signed distance along one grid axis that a walk covers, when it takes the
given number of steps along each placement. -/
def shift (o : Orientation) (steps : List Nat) (axis : Nat) : Int :=
  (List.zipWith
    (fun placement count =>
      if placement.axis = axis then placement.direction.sign * (count : Int) else 0)
    o steps).sum

structure Reaches (o : Orientation) (start steps tuple : List Nat) : Prop where
  length_eq : tuple.length = start.length
  along_eq : forall axis, axis < start.length ->
    (Shape.along tuple axis : Int) = Shape.along start axis + o.shift steps axis

/-!
# Distances
-/

@[simp] theorem shift_nil_left (steps : List Nat) (axis : Nat) : shift [] steps axis = 0 := rfl

@[simp] theorem shift_nil_right (o : Orientation) (axis : Nat) : shift o [] axis = 0 := by
  cases o <;> rfl

@[simp] theorem shift_cons (placement : Placement) (others : Orientation) (count : Nat)
    (counts : List Nat) (axis : Nat) :
    shift (placement :: others) (count :: counts) axis =
      (if placement.axis = axis then placement.direction.sign * (count : Int) else 0) +
        shift others counts axis := by
  simp [shift]

theorem shift_append {front : Orientation} {before : List Nat}
    (hlength : front.length = before.length) (back : Orientation) (behind : List Nat)
    (axis : Nat) :
    shift (front ++ back) (before ++ behind) axis =
      shift front before axis + shift back behind axis := by
  induction front generalizing before with
  | nil =>
      rw [List.eq_nil_of_length_eq_zero hlength.symm, shift_nil_left, Int.zero_add]
      rfl
  | cons placement others ih =>
      cases before with
      | nil => cases hlength
      | cons count counts =>
          rw [List.cons_append, List.cons_append, shift_cons, shift_cons,
            ih (Nat.succ.inj hlength), Int.add_assoc]

theorem shift_of_not_placed {o : Orientation} {axis : Nat}
    (h : forall p, p ∈ o -> p.axis ≠ axis) (steps : List Nat) : o.shift steps axis = 0 := by
  induction o generalizing steps with
  | nil => rfl
  | cons placement others ih =>
      cases steps with
      | nil => rfl
      | cons count counts =>
          rw [shift_cons, if_neg (h placement List.mem_cons_self),
            ih (fun p hp => h p (List.mem_cons_of_mem _ hp)), Int.zero_add]

theorem shift_of_still {steps : List Nat} (h : forall count, count ∈ steps -> count = 0)
    (o : Orientation) (axis : Nat) : o.shift steps axis = 0 := by
  induction o generalizing steps with
  | nil => rfl
  | cons placement others ih =>
      cases steps with
      | nil => rfl
      | cons count counts =>
          rw [shift_cons, ih (fun c hc => h c (List.mem_cons_of_mem _ hc)),
            h count List.mem_cons_self]
          simp

theorem shift_placed {o : Orientation} (hnodup : (o.map Placement.axis).Nodup)
    {steps : List Nat} (hlength : steps.length = o.length) {i : Nat} (hi : i < o.length) :
    o.shift steps o[i].axis = o[i].direction.sign * (Shape.along steps i : Int) := by
  induction o generalizing steps i with
  | nil => cases hi
  | cons placement others ih =>
      rcases List.nodup_cons.mp hnodup with ⟨hnew, hothers⟩
      cases steps with
      | nil => cases hlength
      | cons count counts =>
          rw [shift_cons]
          cases i with
          | zero =>
              have hrest : shift others counts placement.axis = 0 :=
                shift_of_not_placed
                  (fun p hp heq => hnew (List.mem_map.mpr ⟨p, hp, heq⟩)) counts
              simp [hrest]
          | succ i =>
              have hi' : i < others.length := Nat.lt_of_succ_lt_succ hi
              have hne : placement.axis ≠ others[i].axis := by
                intro heq
                exact hnew (heq ▸ List.mem_map_of_mem (List.getElem_mem hi'))
              simp only [List.getElem_cons_succ, Shape.along_cons_succ]
              rw [if_neg hne, Int.zero_add]
              exact ih hothers (Nat.succ.inj hlength) hi'

theorem visible_eq {first second : Orientation} {extents : Shape}
    (hlength : first.length = second.length)
    (h : forall (i : Nat) (hi : i < first.length) (hi' : i < second.length),
      1 < Shape.along extents i -> first[i] = second[i]) :
    first.visible extents = second.visible extents := by
  apply List.ext_getElem
  · simp [visible, hlength]
  · intro i hi hi'
    simp only [visible, List.length_zipWith, Nat.lt_min] at hi hi'
    simp only [visible, List.getElem_zipWith]
    split
    · rename_i hextent
      rw [h i hi.left hi'.left (by rwa [Shape.along_of_lt hi.right])]
    · rfl

theorem shift_eq_of_visible {first second : Orientation} {extents : Shape}
    (hfirst : first.length = extents.length) (hsecond : second.length = extents.length)
    (hvisible : first.visible extents = second.visible extents) {steps : List Nat}
    (hsteps : extents.Inside steps) (axis : Nat) :
    first.shift steps axis = second.shift steps axis := by
  induction hsteps generalizing first second with
  | nil => rw [shift_nil_right, shift_nil_right]
  | cons hlt hrest ih =>
      rename_i count extent counts extents'
      cases first with
      | nil => cases hfirst
      | cons p ps =>
          cases second with
          | nil => cases hsecond
          | cons q qs =>
              simp only [visible, List.zipWith_cons_cons, List.cons.injEq] at hvisible
              rw [shift_cons, shift_cons,
                ih (Nat.succ.inj hfirst) (Nat.succ.inj hsecond) hvisible.right]
              congr 1
              by_cases hextent : 1 < extent
              · have heq : p = q := by simpa [hextent] using hvisible.left
                rw [heq]
              · have hzero : count = 0 := by omega
                simp [hzero]

/-!
# Ends of walks
-/

theorem Reaches.tuple_unique {o : Orientation} {start steps first second : List Nat}
    (hfirst : o.Reaches start steps first) (hsecond : o.Reaches start steps second) :
    first = second := by
  apply Shape.ext_along (hfirst.length_eq.trans hsecond.length_eq.symm)
  intro axis haxis
  have hstart : axis < start.length := hfirst.length_eq ▸ haxis
  exact Int.ofNat_inj.mp ((hfirst.along_eq axis hstart).trans (hsecond.along_eq axis hstart).symm)

theorem Reaches.steps_unique {o : Orientation} {start first second tuple : List Nat}
    (hfirst : o.Reaches start first tuple) (hsecond : o.Reaches start second tuple)
    (hnodup : (o.map Placement.axis).Nodup)
    (haxis : forall p, p ∈ o -> p.axis < start.length)
    (hlength : first.length = o.length) (hlength' : second.length = o.length) :
    first = second := by
  apply Shape.ext_along (hlength.trans hlength'.symm)
  intro i hi
  have hplacement : i < o.length := hlength ▸ hi
  have hbelow := haxis o[i] (List.getElem_mem hplacement)
  have halong := hfirst.along_eq _ hbelow
  rw [hsecond.along_eq _ hbelow, shift_placed hnodup hlength' hplacement,
    shift_placed hnodup hlength hplacement] at halong
  cases hd : o[i].direction with
  | forward =>
      simp only [hd, Direction.sign] at halong
      omega
  | backward =>
      simp only [hd, Direction.sign] at halong
      omega

theorem reaches_self {steps : List Nat} (h : forall count, count ∈ steps -> count = 0)
    (o : Orientation) (start : List Nat) : o.Reaches start steps start where
  length_eq := rfl
  along_eq := by
    intro axis _
    rw [shift_of_still h, Int.add_zero]

theorem Reaches.of_visible {first second : Orientation} {extents : Shape}
    (hfirst : first.length = extents.length) (hsecond : second.length = extents.length)
    (hvisible : first.visible extents = second.visible extents) {start steps tuple : List Nat}
    (hsteps : extents.Inside steps) (h : first.Reaches start steps tuple) :
    second.Reaches start steps tuple where
  length_eq := h.length_eq
  along_eq := by
    intro axis haxis
    rw [h.along_eq axis haxis, shift_eq_of_visible hfirst hsecond hvisible hsteps]

theorem exists_reaches {edges : Shape} {o : Orientation} {start steps : List Nat}
    (hstart : start.length = edges.length)
    (h : forall axis, axis < edges.length ->
      0 ≤ (Shape.along start axis : Int) + o.shift steps axis ∧
        (Shape.along start axis : Int) + o.shift steps axis < Shape.along edges axis) :
    exists tuple, edges.Inside tuple ∧ o.Reaches start steps tuple := by
  let moved : Nat -> Nat := fun axis => ((Shape.along start axis : Int) + o.shift steps axis).toNat
  refine ⟨(List.range edges.length).map moved, Shape.inside_iff.mpr ⟨by simp, ?_⟩, ?_, ?_⟩
  · intro axis haxis
    rw [Shape.along_map_range moved haxis]
    have hbounds := h axis haxis
    simp only [moved]
    omega
  · simp [hstart]
  · intro axis haxis
    rw [Shape.along_map_range moved (hstart ▸ haxis)]
    exact Int.toNat_of_nonneg (h axis (hstart ▸ haxis)).left

end Orientation

namespace Shape

/-!
# Displacements
-/

@[simp] theorem displacementTerms_cons (edges : Shape) (placement : Placement)
    (others : Orientation) (count : Nat) (counts : List Nat) :
    displacementTerms edges (placement :: others) (count :: counts) =
      placement.direction.sign * ((count * along edges.strides placement.axis : Nat) : Int) ::
        displacementTerms edges others counts := rfl

theorem displacementTerms_sum {edges : Shape} {o : Orientation}
    (haxis : forall p, p ∈ o -> p.axis < edges.length) (steps : List Nat) :
    (displacementTerms edges o steps).sum =
      ∑ axis ∈ Finset.range edges.length, o.shift steps axis * along edges.strides axis := by
  induction o generalizing steps with
  | nil => simp [displacementTerms]
  | cons placement others ih =>
      cases steps with
      | nil => simp [displacementTerms]
      | cons count counts =>
          have hplaced : placement.axis ∈ Finset.range edges.length :=
            Finset.mem_range.mpr (haxis placement List.mem_cons_self)
          rw [displacementTerms_cons, List.sum_cons,
            ih (fun p hp => haxis p (List.mem_cons_of_mem _ hp))]
          simp only [Orientation.shift_cons, Int.add_mul, Finset.sum_add_distrib, ite_mul,
            Int.zero_mul]
          rw [Finset.sum_ite_eq, if_pos hplaced]
          push_cast
          ring

theorem flat_reaches {edges : Shape} {o : Orientation}
    (haxis : forall p, p ∈ o -> p.axis < edges.length) {start steps tuple : List Nat}
    (hstart : start.length = edges.length) (h : o.Reaches start steps tuple) :
    (flat edges start : Int) + (displacementTerms edges o steps).sum = flat edges tuple := by
  rw [displacementTerms_sum haxis, flat_eq_sum hstart,
    flat_eq_sum (h.length_eq.trans hstart)]
  push_cast
  rw [← Finset.sum_add_distrib]
  apply Finset.sum_congr rfl
  intro axis hmem
  rw [h.along_eq axis (hstart ▸ Finset.mem_range.mp hmem), Int.add_mul]

end Shape
end GridRules
