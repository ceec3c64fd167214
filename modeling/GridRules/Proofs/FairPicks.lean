import Mathlib.Order.Interval.Finset.Nat
import GridRules.Proofs.Candidates
import GridRules.Random.Generator

/-!
# Fair picks

A pick uses the first draw that is accepted.  The products of the draws with the number of
things lie evenly, and the accepted ones among them fill windows of equal length, one for
each thing.  So each thing is selected by the same number of draws.

A stream of draws repeats after its period.  If any draw is accepted at all, then one of the
first period is, and the search that is bounded by the period finds it.

## Main statements

Of all draws, each index below a count is selected by as many as a power of two that depends
on the count only.  The candidate that a rule set applies stands at the position that the
first accepted draw selects, and without candidates nothing is drawn.
-/

namespace GridRules

namespace Uniform

variable {count index draw : Nat}

/-!
# Draws that select an index
-/

def selecting (count index : Nat) : Finset Nat :=
  {draw ∈ Finset.range draws | index? count draw = some index}

theorem window_le (hcount : count < draws) : count * 2 ^ leadingZeros count ≤ draws := by
  rcases Nat.eq_zero_or_pos count with rfl | hpos
  · rw [Nat.zero_mul]
    exact Nat.zero_le _
  · have hlog : count.log2 < 64 := (Nat.log2_lt (Nat.ne_of_gt hpos)).mpr hcount
    have hexponent : count.log2 + 1 + leadingZeros count = 64 := by
      unfold leadingZeros
      omega
    calc
      count * 2 ^ leadingZeros count
          ≤ 2 ^ (count.log2 + 1) * 2 ^ leadingZeros count :=
            Nat.mul_le_mul_right _ (Nat.le_of_lt Nat.lt_log2_self)
      _ = draws := by rw [← Nat.pow_add, hexponent]; rfl

theorem zone_eq (count : Nat) : zone count = count * 2 ^ leadingZeros count - 1 := by
  rw [zone, Nat.shiftLeft_eq]

theorem index?_eq_some_iff (hpos : 0 < count) (hcount : count < draws) :
    index? count draw = some index ↔
      index * draws ≤ draw * count ∧
        draw * count < index * draws + count * 2 ^ leadingZeros count := by
  have hwindow := window_le hcount
  have hlength : 0 < count * 2 ^ leadingZeros count :=
    Nat.mul_pos hpos (Nat.two_pow_pos _)
  have hsplit := Nat.div_add_mod (draw * count) draws
  have hmod : draw * count % draws < draws := Nat.mod_lt _ (by decide)
  rw [Nat.mul_comm] at hsplit
  unfold index?
  rw [zone_eq]
  constructor
  · intro h
    split at h
    · rename_i hle
      cases h
      omega
    · cases h
  · rintro ⟨hlow, hhigh⟩
    have hindex : draw * count / draws = index :=
      Nat.div_eq_of_lt_le hlow (by rw [Nat.succ_mul]; omega)
    rw [hindex] at hsplit
    rw [if_pos (by omega), hindex]

/-- The first draw whose product with the count reaches the window of an index. -/
def opening (count index : Nat) : Nat :=
  (index * draws + (count - 1)) / count

theorem lt_opening_iff (hpos : 0 < count) :
    draw < opening count index ↔ draw * count < index * draws := by
  rw [opening, ← Nat.succ_le_iff, Nat.le_div_iff_mul_le hpos, Nat.succ_mul]
  omega

/-- The windows have room for a power of two of consecutive draws. -/
theorem mem_selecting_iff (hpos : 0 < count) (hcount : count < draws) (hindex : index < count) :
    draw ∈ selecting count index ↔
      opening count index ≤ draw ∧ draw < opening count index + 2 ^ leadingZeros count := by
  have hlow : opening count index ≤ draw ↔ index * draws ≤ draw * count := by
    rw [← Nat.not_lt, lt_opening_iff hpos, Nat.not_lt]
  have hhigh : draw < opening count index + 2 ^ leadingZeros count ↔
      draw * count < index * draws + count * 2 ^ leadingZeros count := by
    rcases Nat.lt_or_ge draw (2 ^ leadingZeros count) with hlt | hge
    · have hproduct := Nat.mul_lt_mul_of_pos_right hlt hpos
      rw [Nat.mul_comm (2 ^ leadingZeros count)] at hproduct
      exact iff_of_true (by omega) (by omega)
    · obtain ⟨offset, rfl⟩ := Nat.exists_eq_add_of_le' hge
      rw [Nat.add_lt_add_iff_right, lt_opening_iff hpos, Nat.add_mul,
        Nat.mul_comm (2 ^ leadingZeros count), Nat.add_lt_add_iff_right]
  rw [selecting, Finset.mem_filter, Finset.mem_range, index?_eq_some_iff hpos hcount, hlow, hhigh]
  refine and_iff_right_of_imp fun h => ?_
  have hend : (index + 1) * draws ≤ count * draws := Nat.mul_le_mul_right _ hindex
  have hwindow := window_le hcount
  rw [Nat.succ_mul] at hend
  refine Nat.lt_of_mul_lt_mul_right (a := count) ?_
  rw [Nat.mul_comm draws]
  omega

theorem card_selecting (hpos : 0 < count) (hcount : count < draws) (hindex : index < count) :
    (selecting count index).card = 2 ^ leadingZeros count := by
  have hinterval : selecting count index =
      Finset.Ico (opening count index) (opening count index + 2 ^ leadingZeros count) := by
    ext draw
    rw [mem_selecting_iff hpos hcount hindex, Finset.mem_Ico]
  rw [hinterval, Nat.card_Ico, Nat.add_sub_cancel_left]

end Uniform

namespace Generator

variable {g : Generator} {count rejections index : Nat}

/-!
# The first accepted draw
-/

def skip (g : Generator) (count : Nat) : Generator :=
  { g with position := g.position + BitVec.ofNat 68 (2 * count) }

@[simp] theorem skip_zero (g : Generator) : g.skip 0 = g := by
  simp [skip]

theorem skip_skip (g : Generator) (first second : Nat) :
    (g.skip first).skip second = g.skip (first + second) := by
  simp only [skip, Nat.mul_add, BitVec.ofNat_add, BitVec.add_assoc]

theorem draw_snd (g : Generator) : g.draw.2 = g.skip 1 := rfl

theorem skip_period (g : Generator) : g.skip period = g := by
  have hwhole : BitVec.ofNat 68 (2 * period) = 0#68 := by decide
  rw [skip, hwhole, BitVec.add_zero]

/-- Some draws are rejected, and the next one selects an index. -/
structure Settles (g : Generator) (count rejections index : Nat) : Prop where
  rejected : forall earlier, earlier < rejections ->
    Uniform.index? count (g.skip earlier).draw.1.toNat = none
  accepted : Uniform.index? count (g.skip rejections).draw.1.toNat = some index

/-- Whatever is rejected for a whole period is rejected for ever. -/
theorem Settles.lt_period (h : g.Settles count rejections index) : rejections < period := by
  by_contra hlate
  obtain ⟨earlier, rfl⟩ := Nat.exists_eq_add_of_le (Nat.le_of_not_lt hlate)
  have hpos : 0 < period := Nat.two_pow_pos 67
  have hrejected := h.rejected earlier (by omega)
  have haccepted := h.accepted
  rw [← skip_skip, skip_period, hrejected] at haccepted
  cases haccepted

theorem Settles.tail (h : g.Settles count (rejections + 1) index) :
    Uniform.index? count g.draw.1.toNat = none ∧ g.draw.2.Settles count rejections index := by
  refine ⟨g.skip_zero ▸ h.rejected 0 (Nat.succ_pos rejections), ?_, ?_⟩
  · intro earlier hearlier
    rw [draw_snd, skip_skip, Nat.add_comm]
    exact h.rejected (earlier + 1) (Nat.succ_lt_succ hearlier)
  · rw [draw_snd, skip_skip, Nat.add_comm]
    exact h.accepted

theorem firstAccepted_of_settles (h : g.Settles count rejections index) {attempts : Nat}
    (hattempts : rejections < attempts) :
    firstAccepted count attempts g = (index, g.skip (rejections + 1)) := by
  induction rejections generalizing g attempts with
  | zero =>
      obtain ⟨fewer, rfl⟩ := Nat.exists_eq_add_of_lt hattempts
      have haccepted := h.accepted
      rw [skip_zero] at haccepted
      rw [Nat.zero_add, firstAccepted, haccepted]
      rfl
  | succ rejections ih =>
      obtain ⟨fewer, rfl⟩ := Nat.exists_eq_add_of_lt hattempts
      rcases h.tail with ⟨hrejected, hrest⟩
      rw [firstAccepted, hrejected]
      simp only
      rw [ih hrest (by omega), draw_snd, skip_skip, Nat.add_comm 1]

/-- A pick takes the item at the index that the first accepted draw selects, and uses up the
draws up to this one. -/
theorem pick_of_settles {item : Type} {items : List item}
    (h : g.Settles items.length rejections index) (hne : items ≠ []) :
    exists chosen, items[index]? = some chosen ∧
      Picker.pick g items = (some (index, chosen), g.skip (rejections + 1)) := by
  have hlength : 0 < items.length := List.length_pos_iff.mpr hne
  have hindex : index < items.length :=
    Uniform.index?_lt hlength (UInt64.toNat_lt _) h.accepted
  have hpicked : Picker.pickIndex g items.length = (some index, g.skip (rejections + 1)) := by
    show g.pickIndex items.length = _
    rw [pickIndex, if_neg (Nat.ne_of_gt hlength), firstAccepted_of_settles h h.lt_period]
  have hchosen := List.getElem?_eq_getElem hindex
  refine ⟨items[index], hchosen, ?_⟩
  rw [Picker.pick, hpicked]
  simp only [hchosen, Option.map_some]

theorem pickIndex_eq_none (h : (g.pickIndex count).1 = none) : count = 0 := by
  by_contra hne
  rw [pickIndex, if_neg hne] at h
  cases h

end Generator

namespace RuleSet

variable {source : Type} [Picker source] {set : RuleSet} {g : Grid Symbol}
  {progress after : List Progress} {generator rest : source} {index position : Nat}
  {found : List Candidate}

/-!
# Fair choices
-/

theorem choose_of_pick {chosen : Candidate}
    (h : set.candidates g progress = (some (index, found), after))
    (hpick : Picker.pick generator found = (some (position, chosen), rest)) :
    set.choose g progress generator =
      (some (Mask.ofOccurrence chosen.target chosen.replacement), after, rest) := by
  rw [choose, h]
  simp only [hpick]

theorem choose_of_none (h : (set.candidates g progress).1 = none) :
    set.choose g progress generator =
      (none, (set.candidates g progress).2, generator) := by
  rcases hcandidates : set.candidates g progress with ⟨answer, after⟩
  rw [hcandidates] at h
  cases h
  rw [choose, hcandidates]

theorem found_ne_nil (h : set.candidates g progress = (some (index, found), after)) :
    found ≠ [] := by
  intro hnil
  exact set.candidates_ne_nil g progress index (by rw [h, hnil])

theorem exists_choose (h : set.candidates g progress = (some (index, found), after))
    (generator : source) :
    exists (position : Nat) (chosen : Candidate) (rest : source),
      found[position]? = some chosen ∧
      set.choose g progress generator =
        (some (Mask.ofOccurrence chosen.target chosen.replacement), after, rest) := by
  rcases Picker.pick_of_ne_nil generator (found_ne_nil h) with
    ⟨position, chosen, hpick, hchosen⟩
  have hpair : Picker.pick generator found =
      (some (position, chosen), (Picker.pick generator found).2) := by
    rw [← hpick]
  exact ⟨position, chosen, _, hchosen, choose_of_pick h hpair⟩

/-- Of all draws, each index below a count is selected by the same number, and no other index
is selected by any.  A rule set with candidates applies the one at the position that the first
accepted draw selects, so all positions have equal chances.  Nothing is drawn for a pick from
nothing. -/
theorem choice_unbiased :
    (forall count, 0 < count -> count < Uniform.draws ->
        (forall index, index < count ->
          (Uniform.selecting count index).card = 2 ^ Uniform.leadingZeros count) ∧
        forall draw index, draw < Uniform.draws -> Uniform.index? count draw = some index ->
          index < count) ∧
      (forall (generator : Generator) (count : Nat), (generator.pickIndex count).1 = none ->
        generator.pickIndex count = (none, generator)) ∧
      forall (set : RuleSet) (g : Grid Symbol) (progress : List Progress)
        (generator : Generator),
        ((set.choose g progress generator).1 = none ->
          set.choose g progress generator = (none, (set.candidates g progress).2, generator)) ∧
        forall index found after,
          set.candidates g progress = (some (index, found), after) ->
          (found.length < Uniform.draws -> forall position, position < found.length ->
            (Uniform.selecting found.length position).card =
              2 ^ Uniform.leadingZeros found.length) ∧
          (forall rejections position,
            generator.Settles found.length rejections position ->
            exists chosen, found[position]? = some chosen ∧
              set.choose g progress generator =
                (some (Mask.ofOccurrence chosen.target chosen.replacement), after,
                  generator.skip (rejections + 1))) ∧
          exists (position : Nat) (chosen : Candidate) (rest : Generator),
            found[position]? = some chosen ∧ set.choose g progress generator =
              (some (Mask.ofOccurrence chosen.target chosen.replacement), after, rest) := by
  refine ⟨?_, ?_, ?_⟩
  · intro count hpos hcount
    exact ⟨fun index => Uniform.card_selecting hpos hcount,
      fun draw index hdraw => Uniform.index?_lt hpos hdraw⟩
  · intro generator count hnone
    rw [Generator.pickIndex_eq_none hnone, Generator.pickIndex_zero]
  · intro set g progress generator
    constructor
    · intro hnone
      rcases hcandidates : set.candidates g progress with ⟨answer, after⟩
      cases answer with
      | none =>
          have hempty : (set.candidates g progress).1 = none := by rw [hcandidates]
          rw [choose_of_none hempty, hcandidates]
      | some found =>
          rcases exists_choose hcandidates generator with ⟨_, _, _, _, hchoose⟩
          rw [hchoose] at hnone
          cases hnone
    · intro index found after hcandidates
      have hne := found_ne_nil hcandidates
      refine ⟨fun hlength position => ?_, ?_, exists_choose hcandidates generator⟩
      · exact Uniform.card_selecting (List.length_pos_iff.mpr hne) hlength
      · intro rejections position hsettles
        rcases Generator.pick_of_settles hsettles hne with ⟨chosen, hchosen, hpick⟩
        exact ⟨chosen, hchosen, choose_of_pick hcandidates hpick⟩

/-- Of two candidates, seed two takes the second one.  Its first draw is rejected. -/
theorem choice_unbiased_painter :
    (Uniform.selecting 3 2).card = 2 ^ 62 ∧
      painter.candidates (pair .black .white) painterSpent =
        (some (0, [{ target := [1], replacement := [.red] },
          { target := [0], replacement := [.red] }]), painterSpent) ∧
      (Uniform.selecting 2 1).card = 2 ^ 62 ∧
      (Generator.ofSeed 2).Settles 2 1 1 ∧
      painter.choose (pair .black .white) painterSpent (Generator.ofSeed 2) =
        (some (Mask.ofOccurrence [0] [.red]), painterSpent, (Generator.ofSeed 2).skip 2) := by
  have hcandidates : painter.candidates (pair .black .white) painterSpent =
      (some (0, [{ target := [1], replacement := [.red] },
        { target := [0], replacement := [.red] }]), painterSpent) :=
    Prod.ext (by decide) rfl
  have hsettles : (Generator.ofSeed 2).Settles 2 1 1 :=
    { rejected := by decide +kernel
      accepted := by decide +kernel }
  rcases choice_unbiased with ⟨hcount, _, hchoice⟩
  have hfair := (hchoice painter (pair .black .white) painterSpent (Generator.ofSeed 2)).right 0
    _ _ hcandidates
  rcases hfair.right.left 1 1 hsettles with ⟨chosen, hchosen, hchoose⟩
  cases hchosen
  exact ⟨(hcount 3 (by decide) (by decide)).left 2 (by decide), hcandidates,
    hfair.left (by decide) 1 (by decide), hsettles, hchoose⟩

end RuleSet
end GridRules
