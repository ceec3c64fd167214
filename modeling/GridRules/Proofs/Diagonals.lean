import Mathlib.Tactic.LinearCombination
import GridRules.Proofs.Rows

/-!
# Square blocks of four cells

A block has one cell and its neighbours along two axes, and the cell diagonal to it.  A step
along an axis changes the parity of the coordinate sum, so the diagonal cells of a block
agree in parity and the two others differ from them.

## Main statements

When two axes are longer than one, blocks lead from every cell to all cells of the same
parity.  A pattern of two by two cells occurs in a grid exactly where a block shows its
symbols.
-/

namespace GridRules
namespace Shape

variable {edges : Shape}

/-!
# Neighbours
-/

/-- One step along an axis leads from the first cell to the last one. -/
structure Neighbour (edges : Shape) (first last axis : Nat) (step : Int) : Prop where
  axis_lt : axis < edges.length
  step_eq : step = 1 ∨ step = -1
  moved : (edges.coordinate last axis : Int) = edges.coordinate first axis + step
  still : forall other, other < edges.length -> other ≠ axis ->
    edges.coordinate last other = edges.coordinate first other

/-- Sum of the weights of all coordinates of a cell. -/
def total (weight : Nat -> Int -> Int) (edges : Shape) (index : Nat) : Int :=
  ∑ axis ∈ Finset.range edges.length, weight axis (edges.coordinate index axis)

def parity (edges : Shape) (index : Nat) : Nat :=
  (edges.coordinates index).sum % 2

theorem sum_eq_along (tuple : List Nat) :
    tuple.sum = ∑ axis ∈ Finset.range tuple.length, along tuple axis := by
  induction tuple with
  | nil => rfl
  | cons coordinate others ih =>
      rw [List.sum_cons, List.length_cons, Finset.sum_range_succ', ih, Nat.add_comm]
      rfl

theorem sum_coordinates (edges : Shape) (index : Nat) :
    ((edges.coordinates index).sum : Int) =
      total (fun _ position => position) edges index := by
  rw [sum_eq_along, coordinates_length, total]
  push_cast
  rfl

section

variable {first last axis : Nat} {step : Int}

theorem Neighbour.symm (h : edges.Neighbour first last axis step) :
    edges.Neighbour last first axis (-step) where
  axis_lt := h.axis_lt
  step_eq := by
    have hstep := h.step_eq
    omega
  moved := by
    have hmoved := h.moved
    omega
  still := fun other hother hne => (h.still other hother hne).symm

theorem total_sub_total (haxis : axis < edges.length)
    (hstill : forall other, other < edges.length -> other ≠ axis ->
      edges.coordinate last other = edges.coordinate first other) (weight : Nat -> Int -> Int) :
    edges.total weight last - edges.total weight first =
      weight axis (edges.coordinate last axis) - weight axis (edges.coordinate first axis) := by
  rw [total, total, ← Finset.sum_sub_distrib, Finset.sum_eq_single axis]
  · intro other hother hne
    rw [hstill other (Finset.mem_range.mp hother) hne, sub_self]
  · intro hout
    exact absurd (Finset.mem_range.mpr haxis) hout

theorem Neighbour.parity_ne (h : edges.Neighbour first last axis step) :
    edges.parity last ≠ edges.parity first := by
  have hstep := h.step_eq
  have htotal := total_sub_total h.axis_lt h.still fun _ position => position
  rw [← sum_coordinates, ← sum_coordinates, h.moved] at htotal
  rw [parity, parity]
  omega

theorem exists_neighbour (hedges : 0 ∉ edges) (first : Nat) (haxis : axis < edges.length)
    (hstep : step = 1 ∨ step = -1) (hpos : 0 ≤ (edges.coordinate first axis : Int) + step)
    (hlt : (edges.coordinate first axis : Int) + step < along edges axis) :
    exists last, last < edges.cellCount ∧ edges.Neighbour first last axis step := by
  rcases exists_moved hedges first haxis hpos hlt with ⟨last, hlast, hmoved, hstill⟩
  exact ⟨last, hlast, haxis, hstep, hmoved, hstill⟩

theorem exists_step (hedges : 0 ∉ edges) (index : Nat) (haxis : axis < edges.length)
    (hwide : 2 ≤ along edges axis) :
    exists step : Int, (step = 1 ∨ step = -1) ∧
      0 ≤ (edges.coordinate index axis : Int) + step ∧
        (edges.coordinate index axis : Int) + step < along edges axis := by
  have hlt := coordinate_lt hedges index haxis
  by_cases hzero : edges.coordinate index axis = 0
  · exact ⟨1, Or.inl rfl, by omega, by omega⟩
  · exact ⟨-1, Or.inr rfl, by omega, by omega⟩

end

/-!
# Walks and neighbours

One more step along a placement leads to a neighbour.
-/

section

variable {p : Placement} {start first last m : Nat}

theorem neighbour_iff (haxis : p.axis < edges.length) :
    edges.Neighbour first last p.axis p.direction.sign ↔
      forall axis, axis < edges.length ->
        (edges.coordinate last axis : Int) = edges.coordinate first axis +
          if p.axis = axis then p.direction.sign else 0 := by
  constructor
  · intro h axis hlt
    by_cases hmoved : p.axis = axis
    · rw [if_pos hmoved, ← hmoved, h.moved]
    · rw [if_neg hmoved, h.still axis hlt (Ne.symm hmoved), Int.add_zero]
  · intro h
    refine ⟨haxis, Direction.sign_eq p.direction, by rw [h _ haxis, if_pos rfl], ?_⟩
    intro other hother hne
    have hother := h other hother
    rwa [if_neg (Ne.symm hne), Int.add_zero, Int.natCast_inj] at hother

/-- The placement that moves may stand anywhere among the others. -/
theorem reaches_succ_iff (front : Orientation) (before : List Nat) {back : Orientation}
    {behind : List Nat} (hlength : front.length = before.length)
    (h : Orientation.Reaches (front ++ p :: back) (edges.coordinates start)
      (before ++ m :: behind) (edges.coordinates first))
    (haxis : p.axis < edges.length) :
    Orientation.Reaches (front ++ p :: back) (edges.coordinates start)
        (before ++ (m + 1) :: behind) (edges.coordinates last) ↔
      edges.Neighbour first last p.axis p.direction.sign := by
  rw [reaches_iff_coordinate] at h
  rw [reaches_iff_coordinate, neighbour_iff haxis]
  refine forall₂_congr fun axis hlt => ?_
  rw [h axis hlt]
  simp only [Orientation.shift_append hlength, Orientation.shift_cons]
  push_cast
  by_cases hmoved : p.axis = axis
  · rw [if_pos hmoved, if_pos hmoved, if_pos hmoved, Int.mul_add, Int.mul_one]
    omega
  · rw [if_neg hmoved, if_neg hmoved, if_neg hmoved]
    omega

end

/-!
# Blocks
-/

/-- Steps along two axes lead from the corner to the cells beside and below it, and in
either order to the opposite cell. -/
structure Block (edges : Shape) (corner beside below opposite : Nat) : Prop where
  corner_lt : corner < edges.cellCount
  beside_lt : beside < edges.cellCount
  below_lt : below < edges.cellCount
  opposite_lt : opposite < edges.cellCount
  sides : exists axis other step turn, axis ≠ other ∧
    edges.Neighbour corner below axis step ∧ edges.Neighbour corner beside other turn ∧
      edges.Neighbour below opposite other turn ∧ edges.Neighbour beside opposite axis step

section

variable {corner beside below opposite axis other : Nat} {step turn : Int}

theorem Neighbour.across (hne : axis ≠ other) (hbelow : edges.Neighbour corner below axis step)
    (hbeside : edges.Neighbour corner beside other turn)
    (hopposite : edges.Neighbour below opposite other turn) :
    edges.Neighbour beside opposite axis step where
  axis_lt := hbelow.axis_lt
  step_eq := hbelow.step_eq
  moved := by
    rw [hopposite.still axis hbelow.axis_lt hne, hbelow.moved,
      hbeside.still axis hbelow.axis_lt hne]
  still := by
    intro third hthird hstill
    by_cases hmoved : third = other
    · subst hmoved
      have hdown := hbelow.still third hthird hstill
      have hright := hbeside.moved
      have hlast := hopposite.moved
      omega
    · rw [hopposite.still third hthird hmoved, hbelow.still third hthird hstill,
        hbeside.still third hthird hmoved]

theorem Block.symm (h : edges.Block corner beside below opposite) :
    edges.Block opposite below beside corner where
  corner_lt := h.opposite_lt
  beside_lt := h.below_lt
  below_lt := h.beside_lt
  opposite_lt := h.corner_lt
  sides := by
    rcases h.sides with ⟨axis, other, step, turn, hne, hbelow, hbeside, hright, hdown⟩
    exact ⟨axis, other, -step, -turn, hne, hdown.symm, hright.symm, hbeside.symm, hbelow.symm⟩

theorem Block.parity_opposite (h : edges.Block corner beside below opposite) :
    edges.parity opposite = edges.parity corner := by
  rcases h.sides with ⟨_, _, _, _, _, hbelow, _, hright, _⟩
  have hfirst := hbelow.parity_ne
  have hlast := hright.parity_ne
  rw [parity, parity] at hfirst hlast ⊢
  omega

theorem Block.parity_beside (h : edges.Block corner beside below opposite) :
    edges.parity beside ≠ edges.parity corner := by
  rcases h.sides with ⟨_, _, _, _, _, _, hbeside, _, _⟩
  exact hbeside.parity_ne

theorem Block.parity_below (h : edges.Block corner beside below opposite) :
    edges.parity below ≠ edges.parity corner := by
  rcases h.sides with ⟨_, _, _, _, _, hbelow, _, _, _⟩
  exact hbelow.parity_ne

end

/-!
# Reaching all cells of one parity
-/

/-- Sum of the squared distances from a root along all axes. -/
def spread (edges : Shape) (root index : Nat) : Int :=
  edges.total (fun axis position => (position - edges.coordinate root axis) ^ 2) index

theorem spread_nonneg (edges : Shape) (root index : Nat) : 0 ≤ edges.spread root index := by
  rw [spread, total]
  apply Finset.sum_nonneg
  intro axis _
  exact sq_nonneg _

theorem Neighbour.spread_eq {first last axis : Nat} {step : Int}
    (h : edges.Neighbour first last axis step) (root : Nat) :
    edges.spread root last = edges.spread root first +
      (2 * (step * (edges.coordinate first axis - edges.coordinate root axis)) + 1) := by
  have htotal := total_sub_total h.axis_lt h.still fun axis position =>
    (position - edges.coordinate root axis) ^ 2
  have hstep : step * step = 1 := by
    rcases h.step_eq with rfl | rfl
    · rfl
    · rfl
  rw [h.moved] at htotal
  rw [spread, spread]
  linear_combination htotal + hstep

/-- A cell that differs from the root along an axis can step towards the root. -/
theorem exists_step_towards (hedges : 0 ∉ edges) {root index axis : Nat}
    (haxis : axis < edges.length)
    (hne : edges.coordinate index axis ≠ edges.coordinate root axis) :
    exists step : Int, (step = 1 ∨ step = -1) ∧
      0 ≤ (edges.coordinate index axis : Int) + step ∧
        (edges.coordinate index axis : Int) + step < along edges axis ∧
          step * ((edges.coordinate index axis : Int) - edges.coordinate root axis) =
            -((edges.coordinate index axis : Int) - edges.coordinate root axis).natAbs := by
  have hindex := coordinate_lt hedges index haxis
  have hroot := coordinate_lt hedges root haxis
  rcases Nat.lt_or_gt_of_ne hne with hlt | hgt
  · exact ⟨1, Or.inl rfl, by omega, by omega, by omega⟩
  · exact ⟨-1, Or.inr rfl, by omega, by omega, by omega⟩

/-- Every axis has another one beside it that is longer than one. -/
def Spacious (edges : Shape) : Prop :=
  forall axis, exists other, other < edges.length ∧ other ≠ axis ∧ 2 ≤ along edges other

theorem spacious_of_countP (h : 2 ≤ edges.countP fun edge => 2 ≤ edge) : edges.Spacious := by
  intro axis
  induction edges generalizing axis with
  | nil => simp at h
  | cons edge rest ih =>
      cases axis with
      | zero =>
          have hrest : 0 < rest.countP fun edge => 2 ≤ edge := by
            rw [List.countP_cons] at h
            split at h <;> omega
          rcases List.countP_pos_iff.mp hrest with ⟨other, hmem, hwide⟩
          rcases List.mem_iff_getElem.mp hmem with ⟨i, hi, rfl⟩
          refine ⟨i + 1, Nat.succ_lt_succ hi, Nat.succ_ne_zero i, ?_⟩
          rw [along_cons_succ, along_of_lt hi]
          exact of_decide_eq_true hwide
      | succ axis =>
          by_cases hedge : 2 ≤ edge
          · exact ⟨0, Nat.zero_lt_succ _, (Nat.succ_ne_zero axis).symm, hedge⟩
          · rw [List.countP_cons_of_neg (by simpa using hedge)] at h
            rcases ih h axis with ⟨other, hother, hne, hwide⟩
            exact ⟨other + 1, Nat.succ_lt_succ hother, fun heq => hne (Nat.succ.inj heq), hwide⟩

section

variable {root last : Nat}

/-- Next to a cell of the same parity as the root, a second axis along which the cell can
step without losing what it wins along the first one. -/
theorem exists_turn (hedges : 0 ∉ edges) (hspacious : edges.Spacious)
    (hparity : edges.parity last = edges.parity root) {axis : Nat} (haxis : axis < edges.length)
    (hne : edges.coordinate last axis ≠ edges.coordinate root axis) :
    exists other turn, other < edges.length ∧ other ≠ axis ∧ (turn = 1 ∨ turn = -1) ∧
      0 ≤ (edges.coordinate last other : Int) + turn ∧
        (edges.coordinate last other : Int) + turn < along edges other ∧
          turn * ((edges.coordinate last other : Int) - edges.coordinate root other) + 2 ≤
            ((edges.coordinate last axis : Int) - edges.coordinate root axis).natAbs := by
  by_cases hall : forall other, other < edges.length -> other ≠ axis ->
      edges.coordinate last other = edges.coordinate root other
  · -- Along the only axis that differs, the distance is even.
    rcases hspacious axis with ⟨other, hother, hotherNe, hwide⟩
    rcases exists_step hedges last hother hwide with ⟨turn, hturn, hpos, hlt⟩
    refine ⟨other, turn, hother, hotherNe, hturn, hpos, hlt, ?_⟩
    have hsame := hall other hother hotherNe
    have heven : ((edges.coordinate last axis : Int) - edges.coordinate root axis) % 2 = 0 := by
      have hchange := total_sub_total haxis hall fun _ position => position
      rw [← sum_coordinates, ← sum_coordinates] at hchange
      rw [parity, parity] at hparity
      omega
    rw [hsame, sub_self, Int.mul_zero]
    omega
  · push Not at hall
    rcases hall with ⟨other, hother, hotherNe, hdiffers⟩
    rcases exists_step_towards hedges hother hdiffers with ⟨turn, hturn, hpos, hlt, htowards⟩
    refine ⟨other, turn, hother, hotherNe, hturn, hpos, hlt, ?_⟩
    rw [htowards]
    omega

theorem exists_nearer_block (hedges : 0 ∉ edges) (hspacious : edges.Spacious)
    (hroot : root < edges.cellCount) (hlast : last < edges.cellCount)
    (hparity : edges.parity last = edges.parity root) (hne : last ≠ root) :
    exists first beside below, edges.Block first beside below last ∧
      edges.spread root first < edges.spread root last := by
  rcases exists_coordinate_ne hlast hroot hne with ⟨axis, haxis, hcoordinate⟩
  rcases exists_step_towards hedges haxis hcoordinate with ⟨step, hstep, hpos, hlt, htowards⟩
  -- The step along the second axis does not lose what the first one wins.
  rcases exists_turn hedges hspacious hparity haxis hcoordinate with
    ⟨other, turn, hother, hotherNe, hturn, hturnPos, hturnLt, hgain⟩
  rcases exists_neighbour hedges last haxis hstep hpos hlt with ⟨below, hbelowLt, hbelow⟩
  rcases exists_neighbour hedges last hother hturn hturnPos hturnLt with
    ⟨beside, hbesideLt, hbeside⟩
  have hstill := hbelow.still other hother hotherNe
  rcases exists_neighbour hedges below hother hturn (by rwa [hstill]) (by rwa [hstill]) with
    ⟨first, hfirst, hright⟩
  have hdown := Neighbour.across hotherNe.symm hbelow hbeside hright
  have hblock : edges.Block last beside below first :=
    ⟨hlast, hbesideLt, hbelowLt, hfirst, axis, other, step, turn, hotherNe.symm, hbelow, hbeside,
      hright, hdown⟩
  refine ⟨first, below, beside, hblock.symm, ?_⟩
  rw [hright.spread_eq, hbelow.spread_eq, hstill, htowards]
  omega

/-- What holds of the root and is handed on across blocks holds of all cells of its parity. -/
theorem parity_induction (hedges : 0 ∉ edges) (hspacious : edges.Spacious)
    (hroot : root < edges.cellCount) {motive : Nat -> Prop} (start : motive root)
    (block : forall corner beside below opposite, edges.Block corner beside below opposite ->
      edges.parity corner = edges.parity root -> motive corner -> motive opposite)
    {index : Nat} (hindex : index < edges.cellCount)
    (hparity : edges.parity index = edges.parity root) : motive index := by
  by_cases hsame : index = root
  · exact hsame ▸ start
  · rcases exists_nearer_block hedges hspacious hroot hindex hparity hsame with
      ⟨first, beside, below, hblock, hnearer⟩
    have hfirst : edges.parity first = edges.parity root := hblock.parity_opposite ▸ hparity
    exact block first beside below index hblock hfirst
      (parity_induction hedges hspacious hroot start block hblock.corner_lt hfirst)
termination_by (edges.spread root index).toNat
decreasing_by
  have hnonneg := spread_nonneg edges root first
  omega

end

end Shape

namespace Grid

/-!
# Patterns of two by two cells
-/

variable {cell : Type}

def square (corner beside below opposite : cell) : Grid cell where
  edges := [2, 2]
  cells := #[corner, beside, below, opposite]
  edges_ne_nil := by decide
  zero_not_mem := by decide
  size_eq := rfl
  addressable := by decide

structure ShowsBlock (g : Grid cell) (corner beside below opposite : Nat) (a b c d : cell) :
    Prop where
  block : g.edges.Block corner beside below opposite
  corner_eq : g.get? corner = some a
  beside_eq : g.get? beside = some b
  below_eq : g.get? below = some c
  opposite_eq : g.get? opposite = some d

variable [DecidableEq cell] {g : Grid cell} {a b c d : cell}

theorem mem_occurrences_square_iff {found : Occurrence} :
    found ∈ g.occurrences (square a b c d) ↔
      exists corner beside below opposite, found = [corner, beside, below, opposite] ∧
        g.ShowsBlock corner beside below opposite a b c d := by
  rw [mem_occurrences_iff_reaches]
  constructor
  · intro h
    rcases h with ⟨hlength, o, start, hproper, hlands⟩
    rcases List.length_eq_two.mp hproper.length_eq with ⟨p, q, rfl⟩
    match found, hlength with
    | [corner, beside, below, opposite], _ =>
        rcases hlands 0 corner rfl with ⟨hcorner, hstart, hcornerEq⟩
        rcases hlands 1 beside rfl with ⟨hbeside, hright, hbesideEq⟩
        rcases hlands 2 below rfl with ⟨hbelow, hdown, hbelowEq⟩
        rcases hlands 3 opposite rfl with ⟨hopposite, hboth, hoppositeEq⟩
        rw [size_eq_cellCount] at hcorner hbeside hbelow hopposite
        have hp := hproper.axis_lt p (by simp)
        have hq := hproper.axis_lt q (by simp)
        have hne : p.axis ≠ q.axis := by
          have hnodup := hproper.nodup
          simpa using hnodup
        refine ⟨corner, beside, below, opposite, rfl,
          ⟨hcorner, hbeside, hbelow, hopposite, p.axis, q.axis, p.direction.sign,
            q.direction.sign, hne, ?_, ?_, ?_, ?_⟩,
          hcornerEq, hbesideEq, hbelowEq, hoppositeEq⟩
        · exact (Shape.reaches_succ_iff [] [] rfl hstart hp).mp hdown
        · exact (Shape.reaches_succ_iff [p] [0] rfl hstart hq).mp hright
        · exact (Shape.reaches_succ_iff [p] [1] rfl hdown hq).mp hboth
        · exact (Shape.reaches_succ_iff [] [] rfl hright hp).mp hboth
  · intro h
    rcases h with ⟨corner, beside, below, opposite, rfl, hblock, hcornerEq, hbesideEq, hbelowEq,
      hoppositeEq⟩
    rcases hblock.sides with ⟨axis, other, step, turn, hne, hbelow, hbeside, hright, _⟩
    rcases Direction.exists_sign_eq hbelow.step_eq with ⟨direction, rfl⟩
    rcases Direction.exists_sign_eq hbeside.step_eq with ⟨direction', rfl⟩
    let p : Placement := { axis := axis, direction := direction }
    let q : Placement := { axis := other, direction := direction' }
    have hproper : Orientation.Proper [p, q] g.dimensions 2 := by
      refine ⟨rfl, ?_, by simpa [p, q] using hne⟩
      intro placement hplacement
      rcases List.mem_pair.mp hplacement with rfl | rfl
      · exact hbelow.axis_lt
      · exact hbeside.axis_lt
    have hstart : Orientation.Reaches [p, q] (g.edges.coordinates corner) [0, 0]
        (g.edges.coordinates corner) := Orientation.reaches_self (by simp) _ _
    have hdown := (Shape.reaches_succ_iff [] [] rfl hstart hbelow.axis_lt).mpr hbelow
    refine ⟨rfl, [p, q], corner, hproper, ?_⟩
    intro position index hindex
    rw [size_eq_cellCount]
    match position, hindex with
    | 0, hindex =>
        cases hindex
        exact ⟨hblock.corner_lt, hstart, hcornerEq⟩
    | 1, hindex =>
        cases hindex
        exact ⟨hblock.beside_lt,
          (Shape.reaches_succ_iff [p] [0] rfl hstart hbeside.axis_lt).mpr hbeside, hbesideEq⟩
    | 2, hindex =>
        cases hindex
        exact ⟨hblock.below_lt, hdown, hbelowEq⟩
    | 3, hindex =>
        cases hindex
        exact ⟨hblock.opposite_lt,
          (Shape.reaches_succ_iff [p] [1] rfl hdown hbeside.axis_lt).mpr hright, hoppositeEq⟩

end Grid
end GridRules
