import GridRules.Proofs.Multiplicity

/-!
# The enumeration of orientations

A choice among occurrences is made by position, so the order in which orientations are
tried decides what a draw means.  The enumeration fills one pattern axis after the other.
The placements for the next axis are independent of it, except that grid axes in use are
left out.

## Main statements

Every way to lay the pattern axes onto distinct grid axes is listed once, and the list is
in dictionary order.  The grid axes that an orientation leaves free are listed upwards, and
together with the placed axes they are all axes of the grid.
-/

namespace GridRules

/-- Placements are tried by direction first, forward before backward, and then by axis. -/
def Placement.Precedes (first second : Placement) : Prop :=
  first.direction = .forward ∧ second.direction = .backward ∨
    first.direction = second.direction ∧ first.axis < second.axis

namespace Orientation

/-!
# Order
-/

theorem openings_pairwise (dimensions : Nat) (used : List Nat) :
    (openings dimensions used).Pairwise Placement.Precedes := by
  rw [openings, List.pairwise_flatMap]
  constructor
  · intro direction _
    rw [List.pairwise_map]
    exact (List.pairwise_lt_range.filter _).imp fun hlt => Or.inr ⟨rfl, hlt⟩
  · have hdirections : Direction.all.Pairwise fun first second =>
        first = .forward ∧ second = .backward := by decide
    apply hdirections.imp
    intro first second h placement hmem placement' hmem'
    rcases List.mem_map.mp hmem with ⟨axis, _, heq⟩
    rcases List.mem_map.mp hmem' with ⟨axis', _, heq'⟩
    rw [← heq, ← heq']
    exact Or.inl h

theorem placements_pairwise (dimensions count : Nat) (used : List Nat) :
    (placements dimensions count used).Pairwise (List.Lex Placement.Precedes) := by
  induction count generalizing used with
  | zero => exact List.pairwise_singleton _ _
  | succ count ih =>
      rw [placements_succ, List.pairwise_flatMap]
      constructor
      · intro placement _
        rw [List.pairwise_map]
        exact (ih (placement.axis :: used)).imp List.Lex.cons
      · apply (openings_pairwise dimensions used).imp
        intro first second hprecedes o ho o' ho'
        rcases List.mem_map.mp ho with ⟨others, _, heq⟩
        rcases List.mem_map.mp ho' with ⟨others', _, heq'⟩
        rw [← heq, ← heq']
        exact List.Lex.rel hprecedes

theorem not_precedes_self (placement : Placement) : ¬ placement.Precedes placement := by
  intro h
  rcases h with ⟨hforward, hbackward⟩ | ⟨_, hlt⟩
  · rw [hforward] at hbackward
    cases hbackward
  · exact Nat.lt_irrefl _ hlt

theorem placements_nodup (dimensions count : Nat) (used : List Nat) :
    (placements dimensions count used).Nodup := by
  apply (placements_pairwise dimensions count used).imp
  intro o o' hlex heq
  rw [heq] at hlex
  exact List.lex_irrefl not_precedes_self _ hlex

/-!
# Number

An orientation with no placement prescribed leaves every choice open.
-/

theorem completes_replicate_none (o : Orientation) :
    completes (List.replicate o.length none) o = true := by
  induction o with
  | nil => rfl
  | cons placement others ih => simpa [completes, List.replicate_succ] using ih

theorem prescribedAxes_replicate_none (count : Nat) :
    prescribedAxes (List.replicate count none) = [] := by
  simp [prescribedAxes]

theorem length_placements {dimensions count : Nat} {used : List Nat} (hnodup : used.Nodup)
    (hlt : forall axis, axis ∈ used -> axis < dimensions) :
    (placements dimensions count used).length = choices (dimensions - used.length) count := by
  have hheld : used ++ prescribedAxes (List.replicate count none) = used := by
    rw [prescribedAxes_replicate_none, List.append_nil]
  have hcount := countP_placements (hheld.symm ▸ hnodup) (hheld.symm ▸ hlt)
  rw [hheld, List.length_replicate, List.count_replicate_self] at hcount
  rw [← hcount, eq_comm, List.countP_eq_length]
  intro o ho
  rw [← placements_length ho]
  exact completes_replicate_none o

/-!
# All orientations
-/

section

variable {gridDimensions patternDimensions : Nat}

theorem all_eq_placements (hpos : 0 < patternDimensions)
    (hle : patternDimensions ≤ gridDimensions) :
    all gridDimensions patternDimensions =
      placements gridDimensions patternDimensions [] := by
  rw [all, if_neg]
  intro h
  rcases h with hzero | hlt
  · exact Nat.ne_of_gt hpos hzero
  · exact Nat.not_lt.mpr hle hlt

theorem all_eq_nil (h : patternDimensions = 0 ∨ gridDimensions < patternDimensions) :
    all gridDimensions patternDimensions = [] :=
  if_pos h

theorem length_all (hpos : 0 < patternDimensions) (hle : patternDimensions ≤ gridDimensions) :
    (all gridDimensions patternDimensions).length =
      gridDimensions.factorial / (gridDimensions - patternDimensions).factorial *
        2 ^ patternDimensions := by
  rw [all_eq_placements hpos hle, length_placements List.nodup_nil (fun _ h => by cases h),
    choices, List.length_nil, Nat.sub_zero, Nat.descFactorial_eq_div hle]

end

theorem freeAxes_pairwise (o : Orientation) (gridDimensions : Nat) :
    (o.freeAxes gridDimensions).Pairwise (· < ·) :=
  List.pairwise_lt_range.filter _

/-- A pattern with at least one axis, and with no more axes than the grid, has every sequence of
placements on distinct grid axes as an orientation.  Each of them is listed once, and they are
listed in dictionary order.  Other patterns have no orientation.  The axes that an orientation
leaves free are those that it does not use, in ascending order, so that placed and free axes
together are each grid axis once. -/
theorem enumeration_exact (gridDimensions patternDimensions : Nat) :
    (0 < patternDimensions -> patternDimensions ≤ gridDimensions ->
      (forall o, o ∈ all gridDimensions patternDimensions ↔
        o.Proper gridDimensions patternDimensions) ∧
      (all gridDimensions patternDimensions).Nodup ∧
      (all gridDimensions patternDimensions).length =
        gridDimensions.factorial / (gridDimensions - patternDimensions).factorial *
          2 ^ patternDimensions ∧
      (all gridDimensions patternDimensions).Pairwise (List.Lex Placement.Precedes)) ∧
    (patternDimensions = 0 ∨ gridDimensions < patternDimensions ->
      all gridDimensions patternDimensions = []) ∧
    forall o, o ∈ all gridDimensions patternDimensions ->
      (forall axis, axis ∈ o.freeAxes gridDimensions ↔
        axis < gridDimensions ∧ axis ∉ o.map Placement.axis) ∧
      (o.freeAxes gridDimensions).Pairwise (· < ·) ∧
      (List.range gridDimensions).Perm
        (o.map Placement.axis ++ o.freeAxes gridDimensions) := by
  refine ⟨?_, all_eq_nil, ?_⟩
  · intro hpos hle
    refine ⟨?_, ?_, length_all hpos hle, ?_⟩
    · intro o
      rw [mem_all_iff]
      exact ⟨And.right, And.intro hpos⟩
    · rw [all_eq_placements hpos hle]
      exact placements_nodup gridDimensions patternDimensions []
    · rw [all_eq_placements hpos hle]
      exact placements_pairwise gridDimensions patternDimensions []
  · intro o ho
    have hproper := (mem_all_iff.mp ho).right
    refine ⟨?_, freeAxes_pairwise o gridDimensions, hproper.range_perm⟩
    intro axis
    rw [mem_freeAxes, List.mem_map]
    constructor
    · intro h
      exact ⟨h.left, fun ⟨p, hp, heq⟩ => h.right p hp heq⟩
    · intro h
      exact ⟨h.left, fun p hp heq => h.right ⟨p, hp, heq⟩⟩

/-- A row in a grid with two axes runs forward along either axis before it runs backward. -/
example :
    all 2 1 =
      [[⟨0, .forward⟩], [⟨1, .forward⟩], [⟨0, .backward⟩], [⟨1, .backward⟩]] := by
  decide

end Orientation
end GridRules
