import Mathlib.Algebra.BigOperators.Group.List.Basic
import Mathlib.Algebra.Field.Rat
import Mathlib.Data.Nat.Factorial.Basic
import Mathlib.Tactic.Ring
import GridRules.Proofs.PatternSearch

/-!
# Orientations that a pattern cannot tell apart

A pattern axis of length one may be laid onto any grid axis that is not taken, and
walked in either direction, without a difference to what is found.  How many choices
this leaves depends on the numbers of axes only.

## Main statements

Each orientation is represented by one of those that are kept, the first one that
places the longer axes in the same way, and finds a permutation of what this one finds.
A search under all orientations finds every occurrence equally often, so a uniform pick
among its results has the same chances as one among the occurrences.
-/

namespace GridRules

/-!
# Counting
-/

theorem sum_map_eq_countP_mul {item : Type} {items : List item} {counts : item -> Bool}
    {weight : item -> Nat} {amount : Nat}
    (hcounted : forall entry, entry ∈ items -> counts entry = true -> weight entry = amount)
    (hothers : forall entry, entry ∈ items -> counts entry = false -> weight entry = 0) :
    (items.map weight).sum = items.countP counts * amount := by
  induction items with
  | nil => simp
  | cons head rest ih =>
      rw [List.map_cons, List.sum_cons, List.countP_cons,
        ih (fun entry hentry => hcounted entry (List.mem_cons_of_mem _ hentry))
          (fun entry hentry => hothers entry (List.mem_cons_of_mem _ hentry))]
      cases hhead : counts head with
      | true =>
          rw [hcounted head List.mem_cons_self hhead, if_pos rfl, Nat.add_mul, Nat.one_mul,
            Nat.add_comm]
      | false =>
          rw [hothers head List.mem_cons_self hhead, if_neg Bool.false_ne_true, Nat.zero_add,
            Nat.add_zero]

theorem length_filter_not_mem_range {taken : List Nat} {count : Nat} (hnodup : taken.Nodup)
    (hlt : forall axis, axis ∈ taken -> axis < count) :
    ((List.range count).filter fun axis => axis ∉ taken).length = count - taken.length := by
  have hdisjoint : taken.Disjoint ((List.range count).filter fun axis => axis ∉ taken) := by
    intro axis htaken hfree
    rw [List.mem_filter, decide_eq_true_eq] at hfree
    exact hfree.right htaken
  have hperm : (List.range count).Perm
      (taken ++ (List.range count).filter fun axis => axis ∉ taken) := by
    refine (List.perm_ext_iff_of_nodup List.nodup_range
      (hnodup.append (List.nodup_range.filter _) hdisjoint)).mpr ?_
    intro axis
    rw [List.mem_append, List.mem_filter, decide_eq_true_eq, List.mem_range]
    by_cases htaken : axis ∈ taken
    · exact iff_of_true (hlt axis htaken) (Or.inl htaken)
    · simp [htaken]
  have hlength := hperm.length_eq
  rw [List.length_range, List.length_append] at hlength
  omega

namespace Orientation

/-!
# Completing an orientation

Some placements are prescribed, the others are left open.
-/

/-- Whether an orientation has the prescribed placements at their positions. -/
def completes : List (Option Placement) -> Orientation -> Bool
  | [], [] => true
  | wanted :: rest, placement :: others =>
      wanted.all (fun prescribed => placement = prescribed) && completes rest others
  | _, _ => false

def prescribedAxes (wanted : List (Option Placement)) : List Nat :=
  wanted.filterMap fun placement => placement.map Placement.axis

/-- Number of ways to place axes that are left open on free grid axes. -/
def choices (free opened : Nat) : Nat :=
  free.descFactorial opened * 2 ^ opened

theorem choices_zero (free : Nat) : choices free 0 = 1 := by
  simp [choices]

theorem choices_succ (free opened : Nat) :
    choices free (opened + 1) = free * (2 * choices (free - 1) opened) := by
  cases free with
  | zero => simp [choices]
  | succ free =>
      rw [choices, choices, Nat.succ_descFactorial_succ, Nat.add_sub_cancel, Nat.pow_succ]
      ring

theorem axis_mem_of_completes {wanted : List (Option Placement)} {o : Orientation}
    (h : completes wanted o = true) {axis : Nat} (haxis : axis ∈ prescribedAxes wanted) :
    axis ∈ o.map Placement.axis := by
  induction wanted generalizing o with
  | nil => cases haxis
  | cons first rest ih =>
      cases o with
      | nil => cases h
      | cons placement others =>
          rw [completes, Bool.and_eq_true] at h
          rw [List.map_cons, List.mem_cons]
          cases first with
          | none => exact Or.inr (ih h.right haxis)
          | some prescribed =>
              have hplacement : placement = prescribed := by simpa using h.left
              rcases List.mem_cons.mp haxis with heq | hrest
              · exact Or.inl (by rw [hplacement]; exact heq)
              · exact Or.inr (ih h.right hrest)

def openings (dimensions : Nat) (used : List Nat) : List Placement :=
  Direction.all.flatMap fun direction =>
    ((List.range dimensions).filter fun axis => axis ∉ used).map fun axis =>
      { axis := axis, direction := direction }

theorem placements_succ (dimensions count : Nat) (used : List Nat) :
    placements dimensions (count + 1) used =
      (openings dimensions used).flatMap fun placement =>
        (placements dimensions count (placement.axis :: used)).map fun others =>
          placement :: others := by
  simp only [placements, openings, List.flatMap_assoc, List.flatMap_map]

theorem mem_openings {dimensions : Nat} {used : List Nat} {placement : Placement} :
    placement ∈ openings dimensions used ↔
      placement.axis < dimensions ∧ placement.axis ∉ used := by
  simp only [openings, List.mem_flatMap, List.mem_map, List.mem_filter, List.mem_range,
    decide_eq_true_eq]
  constructor
  · rintro ⟨direction, _, axis, haxis, rfl⟩
    exact haxis
  · intro h
    exact ⟨placement.direction, Direction.mem_all _, placement.axis, h, rfl⟩

theorem openings_nodup (dimensions : Nat) (used : List Nat) :
    (openings dimensions used).Nodup := by
  rw [openings, List.nodup_flatMap]
  constructor
  · intro direction _
    apply List.Nodup.map _ (List.nodup_range.filter _)
    intro axis axis' heq
    exact congrArg Placement.axis heq
  · apply List.Pairwise.imp _ (show Direction.all.Nodup by decide)
    intro direction direction' hne placement hmem hmem'
    rcases List.mem_map.mp hmem with ⟨axis, _, rfl⟩
    rcases List.mem_map.mp hmem' with ⟨axis', _, heq⟩
    exact hne (congrArg Placement.direction heq).symm

theorem countP_openings {dimensions : Nat} {used held : List Nat}
    (hnodup : (used ++ held).Nodup) (hlt : forall axis, axis ∈ used ++ held -> axis < dimensions) :
    (openings dimensions used).countP (fun placement => placement.axis ∉ held) =
      2 * (dimensions - (used ++ held).length) := by
  have hfilter : (((List.range dimensions).filter fun axis => axis ∉ used).countP
      fun axis => axis ∉ held) = dimensions - (used ++ held).length := by
    rw [← length_filter_not_mem_range hnodup hlt, List.countP_eq_length_filter,
      List.filter_filter]
    congr 2
    funext axis
    simp [Bool.and_comm]
  simp only [openings, Direction.all, List.flatMap_cons, List.flatMap_nil, List.append_nil,
    List.countP_append, List.countP_map, Function.comp_def, hfilter]
  omega

/-- Completions, sorted by their first placement. -/
theorem countP_placements_succ (dimensions count : Nat) (used : List Nat)
    (wanted : Option Placement) (rest : List (Option Placement)) :
    (placements dimensions (count + 1) used).countP (completes (wanted :: rest)) =
      ((openings dimensions used).map fun placement =>
        if wanted.all (fun prescribed => placement = prescribed) = true then
          (placements dimensions count (placement.axis :: used)).countP (completes rest)
        else 0).sum := by
  rw [placements_succ, List.countP_flatMap]
  congr 1
  apply List.map_congr_left
  intro placement _
  rw [Function.comp_apply, List.countP_map]
  split
  · rename_i h
    congr 1
    funext others
    simp [completes, h]
  · rename_i h
    rw [List.countP_eq_zero]
    intro others _
    simp [completes, h]

/-- No completion lays an axis onto a grid axis that is prescribed for a later one. -/
theorem countP_placements_eq_zero {dimensions count axis : Nat} {used : List Nat}
    {wanted : List (Option Placement)} (haxis : axis ∈ prescribedAxes wanted) :
    (placements dimensions count (axis :: used)).countP (completes wanted) = 0 := by
  rw [List.countP_eq_zero]
  intro o ho hcompletes
  rcases List.mem_map.mp (axis_mem_of_completes hcompletes haxis) with ⟨placement, hmem, rfl⟩
  exact (placements_axis_lt ho placement hmem).right List.mem_cons_self

theorem countP_placements_none {dimensions count amount : Nat} {used : List Nat}
    {rest : List (Option Placement)} (hnodup : (used ++ prescribedAxes rest).Nodup)
    (hlt : forall axis, axis ∈ used ++ prescribedAxes rest -> axis < dimensions)
    (hamount : forall axis, axis < dimensions -> axis ∉ used ++ prescribedAxes rest ->
      (placements dimensions count (axis :: used)).countP (completes rest) = amount) :
    (placements dimensions (count + 1) used).countP (completes (none :: rest)) =
      2 * (dimensions - (used ++ prescribedAxes rest).length) * amount := by
  rw [countP_placements_succ, ← countP_openings hnodup hlt]
  apply sum_map_eq_countP_mul
  · intro placement hmem hfree
    rw [decide_eq_true_eq] at hfree
    rcases mem_openings.mp hmem with ⟨hbelow, hunused⟩
    rw [Option.all_none, if_pos rfl]
    refine hamount placement.axis hbelow ?_
    rw [List.mem_append, not_or]
    exact ⟨hunused, hfree⟩
  · intro placement _ htaken
    rw [decide_eq_false_iff_not, not_not] at htaken
    rw [Option.all_none, if_pos rfl, countP_placements_eq_zero htaken]

theorem countP_placements_some {dimensions : Nat} (count : Nat) {used : List Nat}
    {prescribed : Placement} (rest : List (Option Placement))
    (h : prescribed ∈ openings dimensions used) :
    (placements dimensions (count + 1) used).countP (completes (some prescribed :: rest)) =
      (placements dimensions count (prescribed.axis :: used)).countP (completes rest) := by
  have hone : (openings dimensions used).countP (fun placement => placement = prescribed) = 1 :=
    List.count_eq_one_of_mem (openings_nodup dimensions used) h
  rw [countP_placements_succ, ← Nat.one_mul (List.countP _ _), ← hone]
  apply sum_map_eq_countP_mul
  · intro placement _ heq
    rw [decide_eq_true_eq] at heq
    subst heq
    rw [if_pos (by simp)]
  · intro placement _ hne
    rw [if_neg]
    simpa using hne

/-- The number of completions depends only on how many grid axes are free and on how many
placements are open. -/
theorem countP_placements {dimensions : Nat} {used : List Nat}
    {wanted : List (Option Placement)} (hnodup : (used ++ prescribedAxes wanted).Nodup)
    (hlt : forall axis, axis ∈ used ++ prescribedAxes wanted -> axis < dimensions) :
    (placements dimensions wanted.length used).countP (completes wanted) =
      choices (dimensions - (used ++ prescribedAxes wanted).length) (wanted.count none) := by
  -- The taken axes grow by one with each placement, whether it is prescribed or open.
  induction wanted generalizing used with
  | nil => simp [placements, completes, choices_zero]
  | cons first rest ih =>
      cases first with
      | none =>
          have hheld : prescribedAxes (none :: rest) = prescribedAxes rest := rfl
          rw [hheld] at hnodup hlt ⊢
          have hamount : forall axis, axis < dimensions -> axis ∉ used ++ prescribedAxes rest ->
              (placements dimensions rest.length (axis :: used)).countP (completes rest) =
                choices (dimensions - (used ++ prescribedAxes rest).length - 1)
                  (rest.count none) := by
            intro axis hbelow hnew
            rw [ih, List.cons_append, List.length_cons, Nat.sub_sub]
            · exact List.nodup_cons.mpr ⟨hnew, hnodup⟩
            · intro other hother
              rcases List.mem_cons.mp hother with rfl | hrest
              · exact hbelow
              · exact hlt other hrest
          rw [List.length_cons, countP_placements_none hnodup hlt hamount,
            List.count_cons_self, choices_succ]
          ring
      | some prescribed =>
          have hheld : prescribedAxes (some prescribed :: rest) =
              prescribed.axis :: prescribedAxes rest := rfl
          rw [hheld] at hnodup hlt ⊢
          have hperm : (prescribed.axis :: used ++ prescribedAxes rest).Perm
              (used ++ prescribed.axis :: prescribedAxes rest) :=
            List.perm_middle.symm
          have hopening : prescribed ∈ openings dimensions used :=
            mem_openings.mpr ⟨hlt _ (by simp), fun hused =>
              (List.nodup_append.mp hnodup).2.2 _ hused _ List.mem_cons_self rfl⟩
          rw [List.length_cons, countP_placements_some _ rest hopening,
            ih (hperm.nodup_iff.mpr hnodup)
              (fun axis haxis => hlt axis (hperm.mem_iff.mp haxis)),
            hperm.length_eq, List.count_cons_of_ne (by simp)]

/-!
# Orientations that agree
-/

/-- Two orientations place every pattern axis that is longer than one in the same way. -/
def Agrees (extents : Shape) (first second : Orientation) : Prop :=
  forall i : Nat, 1 < Shape.along extents i -> first[i]? = second[i]?

section

variable {extents : Shape} {first second : Orientation}

theorem getElem?_visible {o : Orientation} (hlength : o.length = extents.length) {i : Nat}
    (hlong : 1 < Shape.along extents i) :
    (o.visible extents)[i]? = o[i]?.map some := by
  have hi : i < extents.length := by
    by_contra hge
    simp [Shape.along, Nat.not_lt.mp hge] at hlong
  rw [Shape.along_of_lt hi] at hlong
  simp [visible, hi, hlength, hlong]

theorem agrees_iff (hfirst : first.length = extents.length)
    (hsecond : second.length = extents.length) :
    Agrees extents first second ↔ first.visible extents = second.visible extents := by
  constructor
  · intro h
    apply visible_eq (hfirst.trans hsecond.symm)
    intro i hi hi' hlong
    have heq := h i hlong
    rwa [List.getElem?_eq_getElem hi, List.getElem?_eq_getElem hi', Option.some.injEq] at heq
  · intro h i hlong
    have heq := congrArg (fun shown => shown[i]?) h
    simp only [getElem?_visible hfirst hlong, getElem?_visible hsecond hlong] at heq
    exact Option.map_injective (Option.some_injective _) heq

theorem completes_visible_iff (hfirst : first.length = extents.length)
    (hsecond : second.length = extents.length) :
    completes (second.visible extents) first = true ↔
      first.visible extents = second.visible extents := by
  induction extents generalizing first second with
  | nil =>
      cases List.length_eq_zero_iff.mp hfirst
      cases List.length_eq_zero_iff.mp hsecond
      exact iff_of_true rfl rfl
  | cons extent extents ih =>
      cases first with
      | nil => cases hfirst
      | cons p ps =>
          cases second with
          | nil => cases hsecond
          | cons q qs =>
              have ihRest := ih (Nat.succ.inj hfirst) (Nat.succ.inj hsecond)
              by_cases hlong : 1 < extent
              · simpa [visible, completes, hlong] using fun _ => ihRest
              · simpa [visible, completes, hlong] using ihRest

theorem prescribedAxes_visible_sublist (o : Orientation) (extents : Shape) :
    (prescribedAxes (o.visible extents)).Sublist (o.map Placement.axis) := by
  induction o generalizing extents with
  | nil => exact List.Sublist.slnil
  | cons placement others ih =>
      cases extents with
      | nil => exact List.nil_sublist _
      | cons extent extents =>
          by_cases hlong : 1 < extent
          · simpa [visible, prescribedAxes, hlong] using ih extents
          · simpa [visible, prescribedAxes, hlong] using (ih extents).cons placement.axis

theorem length_prescribedAxes_visible {o : Orientation} (hlength : o.length = extents.length) :
    (prescribedAxes (o.visible extents)).length = extents.countP (1 < ·) := by
  induction extents generalizing o with
  | nil =>
      cases List.length_eq_zero_iff.mp hlength
      rfl
  | cons extent extents ih =>
      cases o with
      | nil => cases hlength
      | cons placement others =>
          have ihRest := ih (Nat.succ.inj hlength)
          by_cases hlong : 1 < extent
          · simpa [visible, prescribedAxes, hlong] using ihRest
          · simpa [visible, prescribedAxes, hlong] using ihRest

theorem length_prescribedAxes_add_count_none (wanted : List (Option Placement)) :
    (prescribedAxes wanted).length + wanted.count none = wanted.length := by
  induction wanted with
  | nil => rfl
  | cons placement others ih =>
      cases placement with
      | none =>
          rw [List.count_cons_self, List.length_cons, ← ih, ← Nat.add_assoc]
          rfl
      | some placement =>
          rw [List.count_cons_of_ne (Option.some_ne_none _), List.length_cons, ← ih,
            Nat.add_right_comm]
          rfl

theorem count_none_visible {o : Orientation} (hlength : o.length = extents.length) :
    (o.visible extents).count none = extents.length - extents.countP (1 < ·) := by
  have htotal := length_prescribedAxes_add_count_none (o.visible extents)
  rw [length_prescribedAxes_visible hlength, visible, List.length_zipWith, hlength,
    Nat.min_self] at htotal
  exact Nat.eq_sub_of_add_eq' htotal

end

theorem countP_visible_eq {gridDimensions : Nat} {extents : Shape} {o : Orientation}
    (h : o ∈ all gridDimensions extents.length) :
    (all gridDimensions extents.length).countP
        (fun other => other.visible extents = o.visible extents) =
      choices (gridDimensions - extents.countP (1 < ·))
        (extents.length - extents.countP (1 < ·)) := by
  rcases mem_all_iff.mp h with ⟨hpos, hproper⟩
  have hlength := hproper.length_eq
  have hvisible : (o.visible extents).length = extents.length := by
    simp [visible, hlength]
  have hplacements : all gridDimensions extents.length =
      placements gridDimensions extents.length [] := by
    rw [all, if_neg]
    have hle := hproper.dimensions_le
    omega
  have hsublist := prescribedAxes_visible_sublist o extents
  have hlt : forall axis, axis ∈ [] ++ prescribedAxes (o.visible extents) ->
      axis < gridDimensions := by
    intro axis haxis
    rcases List.mem_map.mp (hsublist.subset haxis) with ⟨p, hp, rfl⟩
    exact hproper.axis_lt p hp
  have hcount := countP_placements (hsublist.nodup hproper.nodup) hlt
  rw [List.nil_append, length_prescribedAxes_visible hlength, count_none_visible hlength,
    hvisible] at hcount
  rw [hplacements, ← hcount]
  apply List.countP_congr
  intro other hother
  rw [decide_eq_true_iff]
  exact (completes_visible_iff (placements_length hother) hlength).symm

/-!
# The orientation that is kept
-/

theorem find?_of_mem_firsts {item label : Type} [DecidableEq label] {kind : item -> label}
    {items : List item} {kept : item} (h : kept ∈ firsts kind items) :
    items.find? (fun entry => kind entry = kind kept) = some kept := by
  match items with
  | [] => cases h
  | head :: rest =>
      rw [firsts_cons] at h
      rcases List.mem_cons.mp h with rfl | hrest
      · simp
      · have hmem := (firsts_sublist kind _).subset hrest
        simp only [List.mem_filter, decide_eq_true_eq] at hmem
        rw [List.find?_cons_of_neg (by simpa using Ne.symm hmem.right),
          ← find?_of_mem_firsts hrest, List.find?_filter]
        congr 1
        funext entry
        by_cases heq : kind entry = kind kept
        · simp [heq, hmem.right]
        · simp [heq]
termination_by items.length
decreasing_by exact Nat.lt_succ_of_le (List.length_filter_le _ _)

theorem length_of_mem_distinguishable {gridDimensions : Nat} {extents : Shape}
    {o : Orientation} (h : o ∈ distinguishable gridDimensions extents) :
    o.length = extents.length :=
  mem_all_length (mem_all_of_mem_distinguishable h)

theorem visible_injOn_distinguishable {gridDimensions : Nat} {extents : Shape}
    {first second : Orientation} (hfirst : first ∈ distinguishable gridDimensions extents)
    (hsecond : second ∈ distinguishable gridDimensions extents)
    (h : first.visible extents = second.visible extents) : first = second := by
  rw [distinguishable_eq_firsts] at hfirst hsecond
  have hfind := find?_of_mem_firsts hfirst
  rw [h, find?_of_mem_firsts hsecond] at hfind
  exact (Option.some.inj hfind).symm

theorem exists_kept {gridDimensions : Nat} {extents : Shape} {o : Orientation}
    (h : o ∈ all gridDimensions extents.length) :
    exists kept earlier later,
      kept ∈ distinguishable gridDimensions extents ∧ Agrees extents kept o ∧
        (forall other, other ∈ distinguishable gridDimensions extents ->
          Agrees extents other o -> other = kept) ∧
        all gridDimensions extents.length = earlier ++ kept :: later ∧
        forall other, other ∈ earlier -> ¬ Agrees extents other o := by
  have hlength := mem_all_length h
  rcases exists_distinguishable h with ⟨kept, hkept, hvisible⟩
  have hfind : (all gridDimensions extents.length).find?
      (fun other => other.visible extents = kept.visible extents) = some kept :=
    find?_of_mem_firsts (distinguishable_eq_firsts gridDimensions extents ▸ hkept)
  rcases List.find?_eq_some_iff_append.mp hfind with ⟨_, earlier, later, hsplit, hearlier⟩
  refine ⟨kept, earlier, later, hkept, ?_, ?_, hsplit, ?_⟩
  · exact (agrees_iff (length_of_mem_distinguishable hkept) hlength).mpr hvisible
  · intro other hother hagrees
    apply visible_injOn_distinguishable hother hkept
    rw [hvisible]
    exact (agrees_iff (length_of_mem_distinguishable hother) hlength).mp hagrees
  · intro other hother hagrees
    have hmem : other ∈ all gridDimensions extents.length :=
      hsplit ▸ List.mem_append_left _ hother
    have hne := hearlier other hother
    rw [(agrees_iff (mem_all_length hmem) hlength).mp hagrees, hvisible] at hne
    simp at hne

end Orientation

namespace Grid

variable {cell : Type}

theorem proper_of_mem_all {g pattern : Grid cell} {o : Orientation}
    (h : o ∈ Orientation.all g.dimensions pattern.dimensions) :
    o.Proper g.dimensions pattern.dimensions :=
  (Orientation.mem_all_iff.mp h).right

/-!
# Multiplicity

The multiplicity is how often the search under every orientation finds each occurrence.
-/

def multiplicity (g pattern : Grid cell) : Nat :=
  Orientation.choices (g.dimensions - pattern.edges.countP (1 < ·))
    (pattern.dimensions - pattern.edges.countP (1 < ·))

theorem multiplicity_eq {g pattern : Grid cell} (h : pattern.dimensions ≤ g.dimensions) :
    g.multiplicity pattern =
      (g.dimensions - pattern.edges.countP (1 < ·)).factorial /
          (g.dimensions - pattern.dimensions).factorial *
        2 ^ (pattern.dimensions - pattern.edges.countP (1 < ·)) := by
  have hlong : pattern.edges.countP (1 < ·) ≤ pattern.dimensions := List.countP_le_length
  rw [multiplicity, Orientation.choices, Nat.descFactorial_eq_div (Nat.sub_le_sub_right h _),
    Nat.sub_sub_sub_cancel_right hlong]

theorem multiplicity_pos {g pattern : Grid cell} (h : pattern.dimensions ≤ g.dimensions) :
    0 < g.multiplicity pattern :=
  Nat.mul_pos (Nat.descFactorial_pos.mpr (Nat.sub_le_sub_right h _)) (Nat.two_pow_pos _)

variable [DecidableEq cell]

/-!
# Search under every orientation
-/

def occurrencesEverywhere (g pattern : Grid cell) : List Occurrence :=
  (Orientation.all g.dimensions pattern.dimensions).flatMap (g.occurrencesUnder pattern)

def chance (items : List Occurrence) (wanted : Occurrence) : Rat :=
  items.count wanted / items.length

section

variable {g pattern : Grid cell} {o other : Orientation}

theorem occurrencesUnder_perm (ho : o.Proper g.dimensions pattern.dimensions)
    (hother : other.Proper g.dimensions pattern.dimensions)
    (h : o.visible pattern.edges = other.visible pattern.edges) :
    (g.occurrencesUnder pattern o).Perm (g.occurrencesUnder pattern other) := by
  apply (List.perm_ext_iff_of_nodup (occurrencesUnder_nodup ho)
    (occurrencesUnder_nodup hother)).mpr
  intro found
  rw [mem_occurrencesUnder_iff ho, mem_occurrencesUnder_iff hother]
  constructor
  · rintro ⟨start, hembeds⟩
    exact ⟨start, hembeds.of_visible ho.length_eq hother.length_eq h⟩
  · rintro ⟨start, hembeds⟩
    exact ⟨start, hembeds.of_visible hother.length_eq ho.length_eq h.symm⟩

/-- An index list that is found under an orientation is found under those that agree with
it, and under no other one. -/
theorem mem_occurrencesUnder_iff_visible (ho : o.Proper g.dimensions pattern.dimensions)
    (hother : other.Proper g.dimensions pattern.dimensions) {found : Occurrence}
    (h : found ∈ g.occurrencesUnder pattern o) :
    found ∈ g.occurrencesUnder pattern other ↔
      other.visible pattern.edges = o.visible pattern.edges := by
  constructor
  · intro hfound
    rcases (mem_occurrencesUnder_iff ho).mp h with ⟨start, hembeds⟩
    rcases (mem_occurrencesUnder_iff hother).mp hfound with ⟨start', hembeds'⟩
    cases hembeds.start_unique hembeds'
    apply Orientation.visible_eq (hother.length_eq.trans ho.length_eq.symm)
    intro i hi hi' hlong
    exact hembeds'.placement_eq hembeds hother ho hi hi' hlong
  · intro hvisible
    exact (occurrencesUnder_perm ho hother hvisible.symm).mem_iff.mp h

theorem mem_occurrencesEverywhere_iff {found : Occurrence} :
    found ∈ g.occurrencesEverywhere pattern ↔ found ∈ g.occurrences pattern := by
  rw [occurrencesEverywhere, occurrences, List.mem_flatMap, List.mem_flatMap]
  constructor
  · rintro ⟨o, ho, hfound⟩
    rcases Orientation.exists_distinguishable ho with ⟨kept, hkept, hvisible⟩
    exact ⟨kept, hkept, (mem_occurrencesUnder_iff_visible (proper_of_mem_all ho)
      (proper_of_mem_distinguishable hkept) hfound).mpr hvisible⟩
  · rintro ⟨o, ho, hfound⟩
    exact ⟨o, Orientation.mem_all_of_mem_distinguishable ho, hfound⟩

end

theorem count_occurrencesEverywhere {g pattern : Grid cell} {found : Occurrence}
    (h : found ∈ g.occurrences pattern) :
    (g.occurrencesEverywhere pattern).count found = g.multiplicity pattern := by
  rcases List.mem_flatMap.mp (mem_occurrencesEverywhere_iff.mpr h) with ⟨o, ho, hfound⟩
  have hproper := proper_of_mem_all ho
  have hagreeing : (Orientation.all g.dimensions pattern.dimensions).countP
      (fun other => other.visible pattern.edges = o.visible pattern.edges) =
        g.multiplicity pattern := Orientation.countP_visible_eq ho
  rw [← hagreeing, occurrencesEverywhere, List.count_flatMap, ← Nat.mul_one (List.countP _ _)]
  apply sum_map_eq_countP_mul
  · intro other hother hvisible
    rw [decide_eq_true_eq] at hvisible
    have hother' := proper_of_mem_all hother
    exact List.count_eq_one_of_mem (occurrencesUnder_nodup hother')
      ((mem_occurrencesUnder_iff_visible hproper hother' hfound).mpr hvisible)
  · intro other hother hdiffers
    rw [decide_eq_false_iff_not] at hdiffers
    apply List.count_eq_zero_of_not_mem
    intro hfound'
    exact hdiffers ((mem_occurrencesUnder_iff_visible hproper (proper_of_mem_all hother)
      hfound).mp hfound')

theorem count_occurrencesEverywhere_of_not_mem {g pattern : Grid cell} {found : Occurrence}
    (h : found ∉ g.occurrences pattern) : (g.occurrencesEverywhere pattern).count found = 0 :=
  List.count_eq_zero_of_not_mem fun hmem => h (mem_occurrencesEverywhere_iff.mp hmem)

theorem occurrencesEverywhere_perm (g pattern : Grid cell) :
    (g.occurrencesEverywhere pattern).Perm
      ((g.occurrences pattern).flatMap (List.replicate (g.multiplicity pattern))) := by
  rw [List.perm_iff_count]
  intro found
  have hrepeated : ((g.occurrences pattern).flatMap
      (List.replicate (g.multiplicity pattern))).count found =
        (g.occurrences pattern).count found * g.multiplicity pattern := by
    rw [List.count_flatMap, List.count_eq_countP]
    apply sum_map_eq_countP_mul
    · intro entry _ heq
      rw [Function.comp_apply, beq_iff_eq.mp heq, List.count_replicate_self]
    · intro entry _ hne
      rw [Function.comp_apply, List.count_replicate, if_neg (Bool.eq_false_iff.mp hne)]
  by_cases hmem : found ∈ g.occurrences pattern
  · rw [hrepeated, count_occurrencesEverywhere hmem,
      List.count_eq_one_of_mem occurrences_nodup hmem, Nat.one_mul]
  · rw [hrepeated, count_occurrencesEverywhere_of_not_mem hmem,
      List.count_eq_zero_of_not_mem hmem, Nat.zero_mul]

theorem length_occurrencesEverywhere (g pattern : Grid cell) :
    (g.occurrencesEverywhere pattern).length =
      (g.occurrences pattern).length * g.multiplicity pattern := by
  rw [(occurrencesEverywhere_perm g pattern).length_eq, List.length_flatMap]
  simp

theorem dimensions_le_of_mem_occurrences {g pattern : Grid cell} {found : Occurrence}
    (h : found ∈ g.occurrences pattern) : pattern.dimensions ≤ g.dimensions := by
  rcases mem_occurrences_iff.mp h with ⟨o, _, hproper, _⟩
  exact hproper.dimensions_le

theorem chance_occurrencesEverywhere (g pattern : Grid cell) (found : Occurrence) :
    chance (g.occurrencesEverywhere pattern) found = chance (g.occurrences pattern) found := by
  by_cases hmem : found ∈ g.occurrences pattern
  · have hpos := multiplicity_pos (dimensions_le_of_mem_occurrences hmem)
    have hne : (g.multiplicity pattern : Rat) ≠ 0 := by exact_mod_cast hpos.ne'
    rw [chance, chance, count_occurrencesEverywhere hmem, length_occurrencesEverywhere,
      List.count_eq_one_of_mem occurrences_nodup hmem, Nat.cast_mul]
    calc
      (g.multiplicity pattern : Rat) / ((g.occurrences pattern).length * g.multiplicity pattern) =
          (1 * g.multiplicity pattern) /
            ((g.occurrences pattern).length * g.multiplicity pattern) := by rw [one_mul]
      _ = (1 : Nat) / (g.occurrences pattern).length := by
        rw [mul_div_mul_right _ _ hne, Nat.cast_one]
  · rw [chance, chance, count_occurrencesEverywhere_of_not_mem hmem,
      List.count_eq_zero_of_not_mem hmem, Nat.cast_zero, zero_div, zero_div]

/-- Each orientation is represented by exactly one of those that are kept, the first one that
agrees with it, and the two find the same occurrences.  A search under all orientations finds
each occurrence equally often and nothing else, so a uniform pick has the same chances. -/
theorem skipping_exact (g pattern : Grid cell) :
    (forall o, o ∈ Orientation.all g.dimensions pattern.dimensions ->
      exists kept earlier later,
        kept ∈ Orientation.distinguishable g.dimensions pattern.edges ∧
          Orientation.Agrees pattern.edges kept o ∧
          (forall other, other ∈ Orientation.distinguishable g.dimensions pattern.edges ->
            Orientation.Agrees pattern.edges other o -> other = kept) ∧
          Orientation.all g.dimensions pattern.dimensions = earlier ++ kept :: later ∧
          (forall other, other ∈ earlier -> ¬ Orientation.Agrees pattern.edges other o) ∧
          (g.occurrencesUnder pattern o).Perm (g.occurrencesUnder pattern kept)) ∧
    (forall found, (g.occurrencesEverywhere pattern).count found =
      if found ∈ g.occurrences pattern then
        (g.dimensions - pattern.edges.countP (1 < ·)).factorial /
            (g.dimensions - pattern.dimensions).factorial *
          2 ^ (pattern.dimensions - pattern.edges.countP (1 < ·))
      else 0) ∧
    forall found, chance (g.occurrencesEverywhere pattern) found =
      chance (g.occurrences pattern) found := by
  refine ⟨?_, ?_, chance_occurrencesEverywhere g pattern⟩
  · intro o ho
    have hrepresented := @Orientation.exists_kept g.dimensions pattern.edges o ho
    rcases hrepresented with ⟨kept, earlier, later, hkept, hagrees, hunique, hsplit, hearlier⟩
    refine ⟨kept, earlier, later, hkept, hagrees, hunique, hsplit, hearlier, ?_⟩
    have hproper := proper_of_mem_all ho
    have hproperKept := proper_of_mem_distinguishable hkept
    exact occurrencesUnder_perm hproper hproperKept
      ((Orientation.agrees_iff hproperKept.length_eq hproper.length_eq).mp hagrees).symm
  · intro found
    split
    · rename_i hmem
      rw [count_occurrencesEverywhere hmem,
        multiplicity_eq (dimensions_le_of_mem_occurrences hmem)]
    · rename_i hmem
      exact count_occurrencesEverywhere_of_not_mem hmem

end Grid
end GridRules
