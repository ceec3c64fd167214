import GridRules.Proofs.Charges
import GridRules.Proofs.Documents

/-!
# Repeat counts in rule text

In rule text only a whole rule line takes a repeat count.  Its limited rule is a
direct part of a block, and blocks try their parts in order, so no other rule
shares in its search.

## Main statements

A line of rule text denotes the part of its block at the same position.  For a
line with a repeat count, the count kept by an engine is the number of rewrites
that came from this line, and it never exceeds the count in the text.
-/

namespace GridRules
namespace RuleText

/-!
# Lines of a text by position
-/

namespace Grammar

/-- A marker line and lines that do not begin like one. -/
def BlockLines (lines : List (List Char)) : Prop :=
  exists kind own, lines = [BlockKind.marker kind] :: own ∧
    forall line, line ∈ own -> Unmarked line

/-- The content of a rule line, by the position of its block in the text and its
own position below the marker of the block. -/
def LineAt (text : List Char) (block line : Nat) (content : List Char) : Prop :=
  exists lines contents blocks own, Lines text lines ∧ Contents lines contents ∧
    contents = List.flatten blocks ∧ (forall lines, lines ∈ blocks -> BlockLines lines) ∧
    blocks[block]? = some own ∧ own[line + 1]? = some content

theorem own_lines_inj :
    forall {own own' rest rest' : List (List Char)},
      (forall line, line ∈ own -> Unmarked line) ->
      (forall line, line ∈ own' -> Unmarked line) ->
      (forall line, rest.head? = some line -> ¬ Unmarked line) ->
      (forall line, rest'.head? = some line -> ¬ Unmarked line) ->
      own ++ rest = own' ++ rest' -> own = own' ∧ rest = rest'
  | [], [], _, _, _, _, _, _, h => ⟨rfl, h⟩
  | [], line :: own', rest, rest', _, hown', hrest, _, h => by
      -- A line of one side only would begin the rest of the other side, like a marker.
      rw [List.nil_append] at h
      exact absurd (hown' line List.mem_cons_self) (hrest line (by rw [h]; rfl))
  | line :: own, [], rest, rest', hown, _, _, hrest', h => by
      rw [List.nil_append] at h
      exact absurd (hown line List.mem_cons_self) (hrest' line (by rw [← h]; rfl))
  | line :: own, line' :: own', rest, rest', hown, hown', hrest, hrest', h => by
      rcases List.cons.inj h with ⟨hline, htail⟩
      rcases own_lines_inj (fun l hl => hown l (List.mem_cons_of_mem _ hl))
        (fun l hl => hown' l (List.mem_cons_of_mem _ hl)) hrest hrest' htail with ⟨hown, hrest⟩
      exact ⟨by rw [hline, hown], hrest⟩

theorem not_unmarked_head {blocks : List (List (List Char))}
    (h : forall lines, lines ∈ blocks -> BlockLines lines) (line : List Char)
    (hline : blocks.flatten.head? = some line) : ¬ Unmarked line := by
  cases blocks with
  | nil => cases hline
  | cons lines blocks =>
      rcases h lines List.mem_cons_self with ⟨kind, own, rfl, _⟩
      cases hline
      exact not_unmarked_marker kind

/-- The lines of a text fall into blocks in one way only. -/
theorem blocks_inj {blocks others : List (List (List Char))}
    (hblocks : forall lines, lines ∈ blocks -> BlockLines lines)
    (hothers : forall lines, lines ∈ others -> BlockLines lines)
    (h : blocks.flatten = others.flatten) : blocks = others := by
  induction blocks generalizing others with
  | nil =>
      cases others with
      | nil => rfl
      | cons lines others =>
          rcases hothers lines List.mem_cons_self with ⟨kind, own, rfl, _⟩
          cases h
  | cons lines blocks ih =>
      rcases hblocks lines List.mem_cons_self with ⟨kind, own, rfl, hown⟩
      cases others with
      | nil => cases h
      | cons lines' others =>
          rcases hothers lines' List.mem_cons_self with ⟨kind', own', rfl, hown'⟩
          have hrest := fun lines hlines => hblocks lines (List.mem_cons_of_mem _ hlines)
          have hrest' := fun lines hlines => hothers lines (List.mem_cons_of_mem _ hlines)
          rw [List.flatten_cons, List.flatten_cons, List.cons_append, List.cons_append] at h
          rcases List.cons.inj h with ⟨hmarker, htail⟩
          rcases own_lines_inj hown hown' (not_unmarked_head hrest)
            (not_unmarked_head hrest') htail with ⟨howns, hflat⟩
          rw [hmarker, howns, ih hrest hrest' hflat]

end Grammar

open Grammar

section

variable {table : SymbolTable}

/-!
# Lines and parts of the rule set
-/

theorem exists_of_forall₂ {first second : Type} {related : first -> second -> Prop}
    {xs : List first} {ys : List second} (h : List.Forall₂ related xs ys) {index : Nat}
    {x : first} (hx : xs[index]? = some x) : exists y, ys[index]? = some y ∧ related x y := by
  induction h generalizing index with
  | nil => cases hx
  | cons hhead _ ih =>
      cases index with
      | zero =>
          cases hx
          exact ⟨_, rfl, hhead⟩
      | succ index => exact ih hx

theorem blockLines_of_blockText {lines : List (List Char)} {rule : Rule}
    (h : BlockText table lines rule) : BlockLines lines := by
  rcases blockText_iff.mp h with ⟨kind, own, rules, hlines, _, hown, _⟩
  refine ⟨kind, own, hlines, ?_⟩
  intro line hline
  rcases List.mem_iff_getElem?.mp hline with ⟨index, hindex⟩
  rcases exists_of_forall₂ hown hindex with ⟨_, _, htext⟩
  exact htext.left

theorem exists_child_of_blockText {lines : List (List Char)} {rule : Rule}
    (h : BlockText table lines rule) {line : Nat} {content : List Char}
    (hline : lines[line + 1]? = some content) :
    exists part, rule.children[line]? = some part ∧ RuleLine table content part ∧
      rule.unpooled [line] = true := by
  rcases blockText_iff.mp h with ⟨kind, own, rules, rfl, _, hown, rfl⟩
  rw [List.getElem?_cons_succ] at hline
  rcases exists_of_forall₂ hown hline with ⟨part, hpart, htext⟩
  have hchildren : (kind.rule rules).children = rules := by
    cases kind <;> rfl
  have hunpooled : (kind.rule rules).unpooled [line] =
      rules[line]?.all fun part => part.unpooled [] := by
    cases kind <;> rfl
  refine ⟨part, by rwa [hchildren], htext.right, ?_⟩
  rw [hunpooled, hpart]
  rfl

theorem exists_blockText_of_lineAt {text : String} {set : RuleSet}
    (hdecode : decode table text = .ok set) {block line : Nat} {content : List Char}
    (hline : LineAt text.toList block line content) :
    exists own rule, set.rules[block]? = some rule ∧ BlockText table own rule ∧
      own[line + 1]? = some content := by
  have hdocument := readLines_contentLines_iff.mp (decode_eq_ok_iff_readLines.mp hdecode)
  rcases hdocument with ⟨lines, contents, hlines, hcontents, blocks, _, hflat, hblocks⟩
  rcases hline with ⟨lines', contents', blocks', own, hlines', hcontents', hflat', hblocks',
    hown, hcontent⟩
  have hsame : contents = contents' := by
    rw [← contentLines_iff.mpr ⟨lines, hlines, hcontents⟩,
      ← contentLines_iff.mpr ⟨lines', hlines', hcontents'⟩]
  have hshape : forall lines, lines ∈ blocks -> BlockLines lines := by
    intro lines hmem
    rcases List.mem_iff_getElem?.mp hmem with ⟨index, hindex⟩
    rcases exists_of_forall₂ hblocks hindex with ⟨rule, _, hblock⟩
    exact blockLines_of_blockText hblock
  have hunique : blocks = blocks' :=
    blocks_inj hshape hblocks' (by rw [← hflat, hsame, hflat'])
  rw [← hunique] at hown
  rcases exists_of_forall₂ hblocks hown with ⟨rule, hrule, hblock⟩
  exact ⟨own, rule, hrule, hblock, hcontent⟩

/-- A rule line of a text that can be read denotes the part at its position, and no
rule above that part pools. -/
theorem exists_part_of_lineAt {text : String} {set : RuleSet}
    (hdecode : decode table text = .ok set) {block line : Nat} {content : List Char}
    (hline : LineAt text.toList block line content) :
    exists rule, set.asRule.part? [block, line] = some rule ∧ RuleLine table content rule ∧
      set.asRule.unpooled [block, line] = true := by
  rcases exists_blockText_of_lineAt hdecode hline with ⟨own, rule, hrule, hblock, hcontent⟩
  rcases exists_child_of_blockText hblock hcontent with ⟨part, hpart, htext, hunpooled⟩
  have hroot : set.asRule.children[block]? = some rule := hrule
  refine ⟨part, ?_, htext, ?_⟩
  · rw [Rule.part?_cons, hroot, Option.bind_some, Rule.part?_cons, hpart]
    rfl
  · show (set.asRule.children[block]?.all fun part => part.unpooled [line]) = true
    rw [hroot]
    exact hunpooled

/-- The bound of a repeat count holds over whole runs.  From fresh progress on, the
count kept for a line is the number of rewrites that came from this line, and it
never passes the number in the text, whatever grids the steps are taken on. -/
theorem repeat_count_exact {text : String} {set : RuleSet}
    (hdecode : decode table text = .ok set) {block line : Nat} {content : List Char}
    (hline : LineAt text.toList block line content) (hstar : '*' ∈ content)
    {source : Type} [Picker source] {engine : Engine source}
    (hrules : engine.rules = set) (hfresh : engine.Fresh) (grids : List (Grid Symbol)) :
    exists body count rule times fired, content = body ++ '*' :: count ∧
      ChoiceText table body rule ∧ CountText count times ∧
      set.asRule.part? [block, line] = some (.limited times rule) ∧
      (engine.advances grids).2.firedAt? [block, line] = some fired ∧
      fired.toNat = Engine.firings [block, line] engine grids ∧ fired ≤ times := by
  subst hrules
  rcases exists_part_of_lineAt hdecode hline with ⟨part, hpart, hrule, hunpooled⟩
  cases hrule with
  | plain hnone _ => exact absurd hstar hnone
  | @limited body count rule times _ _ hchoice htimes =>
      have hzero : engine.firedAt? [block, line] = some 0 := by
        rw [Engine.firedAt?, hfresh, RuleSet.group_fresh]
        exact Rule.firedAt?_fresh hpart
      rcases Engine.fired_advances hfresh.fits hunpooled hpart hzero UInt32.zero_le grids with
        ⟨fired, hfired, hcount, hle⟩
      refine ⟨body, count, rule, times, fired, rfl, hchoice, htimes, hpart, hfired, ?_, hle⟩
      rw [hcount, UInt32.toNat_zero, Nat.zero_add]

end

/-!
## A rule that is asked too often

The first line may fire twice.  The third time it is skipped, and the second line
has nothing to repaint in a grid that is still black.
-/

def cappedText : String := "?\nB > W * 2\nW > R"

def capped : RuleSet where
  rules :=
    [.markov [.limited 2 (RuleSet.repaint .black .white), RuleSet.repaint .white .red]]

theorem lineAt_cappedText : LineAt cappedText.toList 0 0 "B > W * 2".toList := by
  have hcontents : (contentLines cappedText.toList).map Prod.snd =
      [['?'], "B > W * 2".toList, "W > R".toList] := by decide +kernel
  rcases contentLines_iff.mp hcontents with ⟨lines, hlines, hcontents⟩
  refine ⟨lines, _, [[['?'], "B > W * 2".toList, "W > R".toList]], _, hlines, hcontents, rfl, ?_,
    rfl, rfl⟩
  intro lines hlines
  cases List.mem_singleton.mp hlines
  exact ⟨.markov, _, rfl, by unfold Unmarked; decide⟩

theorem repeat_count_exact_capped :
    decode SymbolTable.standard cappedText = .ok capped ∧
      Engine.firings [0, 0] (Engine.ofSeed capped 5)
        (List.replicate 3 (RuleSet.pair .black .black)) = 2 ∧
      exists fired,
        ((Engine.ofSeed capped 5).advances
          (List.replicate 3 (RuleSet.pair .black .black))).2.firedAt? [0, 0] = some fired ∧
        fired.toNat = 2 := by
  have hdecode : decode SymbolTable.standard cappedText = .ok capped := rfl
  have hfirings : Engine.firings [0, 0] (Engine.ofSeed capped 5)
      (List.replicate 3 (RuleSet.pair .black .black)) = 2 := by decide +kernel
  have hfresh := Engine.fresh_ofGenerator capped (Generator.ofSeed 5)
  rcases repeat_count_exact hdecode lineAt_cappedText (by decide) rfl hfresh
    (List.replicate 3 (RuleSet.pair .black .black)) with
    ⟨_, _, _, _, fired, _, _, _, _, hfired, hcount, _⟩
  exact ⟨hdecode, hfirings, fired, hfired, hcount.trans hfirings⟩

end RuleText
end GridRules
