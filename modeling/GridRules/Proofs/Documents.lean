import GridRules.Proofs.Reading

/-!
# What is read as a document

The reader goes through the lines of a text with one block open.  What the open
block and the lines still to come denote together is a relation between them,
and each line that is read leaves it in place.

## Main statements

Reading gives a rule set exactly for the documents that denote it.
-/

namespace GridRules
namespace RuleText

open Grammar

section

variable {table : SymbolTable}

/-!
# Blocks

While a block is open, the lines that follow belong to it up to the next
marker.  The relation for the open block has one lemma for each kind of line.
-/

theorem ofLine?_eq_some_iff {text : List Char} {kind : BlockKind} :
    BlockKind.ofLine? text = some kind ↔ text = [kind.marker] := by
  constructor
  · intro h
    unfold BlockKind.ofLine? at h
    split at h <;> cases h <;> rfl
  · intro h
    subst h
    cases kind <;> rfl

theorem marker_inj {kind other : BlockKind} (h : kind.marker = other.marker) : kind = other := by
  have hkind : BlockKind.ofLine? [other.marker] = some kind :=
    ofLine?_eq_some_iff.mpr (by rw [h])
  exact Option.some.inj (hkind.symm.trans (ofLine?_eq_some_iff.mpr rfl))

theorem startsLikeMarker_eq_false_iff {text : List Char} :
    startsLikeMarker text = false ↔ Unmarked text := by
  unfold startsLikeMarker Unmarked
  split
  · simp
  · simp
  · rename_i hbang hquestion
    cases text with
    | nil => simp
    | cons c cs =>
        have hc : c ≠ '!' ∧ c ≠ '?' :=
          ⟨fun heq => hbang cs (by rw [heq]), fun heq => hquestion cs (by rw [heq])⟩
        simp [hc]

theorem not_unmarked_marker (kind : BlockKind) : ¬ Unmarked [kind.marker] := by
  intro h
  cases kind with
  | sequential => exact h.left rfl
  | markov => exact h.right rfl

theorem blockText_iff {lines : List (List Char)} {rule : Rule} :
    BlockText table lines rule ↔
      exists kind own rules, lines = [BlockKind.marker kind] :: own ∧ own ≠ [] ∧
        List.Forall₂ (LineText table) own rules ∧ rule = kind.rule rules := by
  constructor
  · intro h
    cases h with
    | sequential hne hlines => exact ⟨.sequential, _, _, rfl, hne, hlines, rfl⟩
    | markov hne hlines => exact ⟨.markov, _, _, rfl, hne, hlines, rfl⟩
  · intro h
    rcases h with ⟨kind, own, rules, hlines, hne, hown, hrule⟩
    subst hlines hrule
    cases kind with
    | sequential => exact BlockText.sequential hne hown
    | markov => exact BlockText.markov hne hown

theorem close_eq_ok_iff {block : PartialBlock} {rule : Rule} :
    block.close = .ok rule ↔ block.rules ≠ [] ∧ block.kind.rule block.rules = rule := by
  unfold PartialBlock.close
  cases hrules : block.rules with
  | nil => simp
  | cons first rest => simp

def AnyBlocks (table : SymbolTable) (contents : List (List Char)) (rules : List Rule) : Prop :=
  exists blocks : List (List (List Char)), contents = blocks.flatten ∧
    List.Forall₂ (BlockText table) blocks rules

/-- The lines after a marker finish the open block and then form blocks of
their own. -/
def Resumes (table : SymbolTable) (block : PartialBlock) (contents : List (List Char))
    (rules : List Rule) : Prop :=
  exists own parts rest others, contents = own ++ rest ∧
    List.Forall₂ (LineText table) own parts ∧ block.rules ++ parts ≠ [] ∧
    AnyBlocks table rest others ∧ rules = block.kind.rule (block.rules ++ parts) :: others

theorem anyBlocks_nil_iff {rules : List Rule} : AnyBlocks table [] rules ↔ rules = [] := by
  constructor
  · intro h
    rcases h with ⟨blocks, hcontents, hblocks⟩
    cases hblocks with
    | nil => rfl
    | cons hblock _ =>
        rcases blockText_iff.mp hblock with ⟨kind, own, parts, hlines, _⟩
        subst hlines
        cases hcontents
  · intro h
    subst h
    exact ⟨[], rfl, List.Forall₂.nil⟩

theorem anyBlocks_cons_iff {text : List Char} {contents : List (List Char)}
    {rules : List Rule} (number : Nat) :
    AnyBlocks table (text :: contents) rules ↔
      exists kind, text = [BlockKind.marker kind] ∧
        Resumes table { kind := kind, line := number, rules := [] } contents rules := by
  constructor
  · intro h
    rcases h with ⟨blocks, hcontents, hblocks⟩
    cases hblocks with
    | nil => cases hcontents
    | cons hblock hrest =>
        rename_i rule blocks others
        rcases blockText_iff.mp hblock with ⟨kind, own, parts, hlines, hne, hown, hrule⟩
        subst hlines
        rw [List.flatten_cons, List.cons_append] at hcontents
        rcases List.cons.inj hcontents with ⟨htext, htail⟩
        refine ⟨kind, htext, own, parts, _, others, htail, hown, ?_, ⟨blocks, rfl, hrest⟩, ?_⟩
        · intro hnil
          rw [List.nil_append] at hnil
          rw [hnil, List.forall₂_nil_right_iff] at hown
          exact hne hown
        · rw [hrule]
          rfl
  · intro h
    rcases h with ⟨kind, htext, own, parts, rest, others, hcontents, hown, hne, hrest, hrules⟩
    rcases hrest with ⟨blocks, hflat, hblocks⟩
    have hownNe : own ≠ [] := by
      intro hnil
      rw [hnil, List.forall₂_nil_left_iff] at hown
      exact hne hown
    have hblock : BlockText table ([kind.marker] :: own) (kind.rule parts) :=
      blockText_iff.mpr ⟨kind, own, parts, rfl, hownNe, hown, rfl⟩
    refine ⟨([kind.marker] :: own) :: blocks, ?_, ?_⟩
    · rw [htext, hcontents, hflat]
      rfl
    · rw [hrules]
      exact List.Forall₂.cons hblock hblocks

theorem blocksText_iff {contents : List (List Char)} {rules : List Rule} :
    BlocksText table contents rules ↔ contents ≠ [] ∧ AnyBlocks table contents rules := by
  constructor
  · intro h
    rcases h with ⟨blocks, hne, hcontents, hblocks⟩
    refine ⟨?_, blocks, hcontents, hblocks⟩
    intro hnil
    rw [hnil] at hcontents
    rw [anyBlocks_nil_iff.mp ⟨blocks, hcontents, hblocks⟩, List.forall₂_nil_right_iff] at hblocks
    exact hne hblocks
  · intro h
    rcases h with ⟨hne, blocks, hcontents, hblocks⟩
    refine ⟨blocks, ?_, hcontents, hblocks⟩
    intro hnil
    rw [hnil] at hcontents
    exact hne hcontents

theorem resumes_nil_iff {block : PartialBlock} {rules : List Rule} :
    Resumes table block [] rules ↔
      block.rules ≠ [] ∧ rules = [block.kind.rule block.rules] := by
  constructor
  · intro h
    rcases h with ⟨own, parts, rest, others, hcontents, hown, hne, hrest, hrules⟩
    rcases List.append_eq_nil_iff.mp hcontents.symm with ⟨hownNil, hrestNil⟩
    rw [hownNil, List.forall₂_nil_left_iff] at hown
    rw [hrestNil, anyBlocks_nil_iff] at hrest
    subst hown hrest
    rw [List.append_nil] at hne hrules
    exact ⟨hne, hrules⟩
  · intro h
    refine ⟨[], [], [], [], rfl, List.Forall₂.nil, ?_, anyBlocks_nil_iff.mpr rfl, ?_⟩
    · rw [List.append_nil]
      exact h.left
    · rw [List.append_nil]
      exact h.right

theorem resumes_marker_iff {block : PartialBlock} {kind : BlockKind} (number : Nat)
    {contents : List (List Char)} {rules : List Rule} :
    Resumes table block ([kind.marker] :: contents) rules ↔
      block.rules ≠ [] ∧ exists others,
        Resumes table { kind := kind, line := number, rules := [] } contents others ∧
          rules = block.kind.rule block.rules :: others := by
  constructor
  · intro h
    rcases h with ⟨own, parts, rest, others, hcontents, hown, hne, hrest, hrules⟩
    cases hown with
    | cons hline _ =>
        rw [List.cons_append] at hcontents
        rw [← (List.cons.inj hcontents).left] at hline
        exact absurd hline.left (not_unmarked_marker kind)
    | nil =>
        rw [List.append_nil] at hne hrules
        rw [List.nil_append] at hcontents
        rw [← hcontents] at hrest
        rcases (anyBlocks_cons_iff number).mp hrest with ⟨other, hmarker, hresumes⟩
        have hkind : kind = other := marker_inj (List.cons.inj hmarker).left
        rw [← hkind] at hresumes
        exact ⟨hne, others, hresumes, hrules⟩
  · intro h
    rcases h with ⟨hne, others, hresumes, hrules⟩
    refine ⟨[], [], [kind.marker] :: contents, others, rfl, List.Forall₂.nil, ?_,
      (anyBlocks_cons_iff number).mpr ⟨kind, rfl, hresumes⟩, ?_⟩
    · rwa [List.append_nil]
    · rwa [List.append_nil]

theorem resumes_line_iff {block : PartialBlock} {text : List Char}
    {contents : List (List Char)} {rules : List Rule} (htext : Unmarked text) :
    Resumes table block (text :: contents) rules ↔
      exists rule, RuleLine table text rule ∧ Resumes table (block.add rule) contents rules := by
  constructor
  · intro h
    rcases h with ⟨own, parts, rest, others, hcontents, hown, hne, hrest, hrules⟩
    cases hown with
    | nil =>
        rw [List.nil_append] at hcontents
        rw [← hcontents] at hrest
        rcases (anyBlocks_cons_iff 0).mp hrest with ⟨kind, hmarker, _⟩
        rw [hmarker] at htext
        exact absurd htext (not_unmarked_marker kind)
    | cons hline hown =>
        rename_i rule own parts
        rw [List.cons_append] at hcontents
        rcases List.cons.inj hcontents with ⟨hhead, htail⟩
        rw [← hhead] at hline
        refine ⟨rule, hline.right, own, parts, rest, others, htail, hown, ?_, hrest, ?_⟩
        · simp [PartialBlock.add]
        · simp [PartialBlock.add, hrules]
  · intro h
    rcases h with ⟨rule, hrule, own, parts, rest, others, hcontents, hown, _, hrest, hrules⟩
    refine ⟨text :: own, rule :: parts, rest, others, ?_,
      List.Forall₂.cons ⟨htext, hrule⟩ hown, ?_, hrest, ?_⟩
    · rw [hcontents, List.cons_append]
    · simp
    · simp [PartialBlock.add, hrules]

theorem not_resumes_of_marked {block : PartialBlock} {text : List Char}
    {contents : List (List Char)} {rules : List Rule}
    (hkind : BlockKind.ofLine? text = none) (htext : ¬ Unmarked text) :
    ¬ Resumes table block (text :: contents) rules := by
  intro h
  rcases h with ⟨own, parts, rest, others, hcontents, hown, _, hrest, _⟩
  cases hown with
  | cons hline _ =>
      rw [List.cons_append] at hcontents
      rw [(List.cons.inj hcontents).left] at htext
      exact htext hline.left
  | nil =>
      rw [List.nil_append] at hcontents
      rw [← hcontents] at hrest
      rcases (anyBlocks_cons_iff 0).mp hrest with ⟨kind, hmarker, _⟩
      rw [ofLine?_eq_some_iff.mpr hmarker] at hkind
      cases hkind

theorem readBlocks_eq_ok_iff {lines : List (Nat × List Char)} {block : PartialBlock}
    {rules : List Rule} :
    readBlocks table block lines = .ok rules ↔
      Resumes table block (lines.map Prod.snd) rules := by
  induction lines generalizing block rules with
  | nil =>
      rw [List.map_nil, resumes_nil_iff]
      unfold readBlocks
      simp only [bind_eq_ok_iff, close_eq_ok_iff, Except.ok.injEq]
      constructor
      · intro h
        rcases h with ⟨rule, ⟨hne, hrule⟩, hrules⟩
        exact ⟨hne, by rw [hrule, hrules]⟩
      · intro h
        exact ⟨_, ⟨h.left, rfl⟩, h.right.symm⟩
  | cons entry lines ih =>
      rcases entry with ⟨number, text⟩
      rw [List.map_cons]
      unfold readBlocks
      cases hkind : BlockKind.ofLine? text with
      | some kind =>
          rw [ofLine?_eq_some_iff.mp hkind, resumes_marker_iff number]
          simp only [bind_eq_ok_iff, close_eq_ok_iff, ih, Except.ok.injEq]
          constructor
          · intro h
            rcases h with ⟨rule, ⟨hne, hrule⟩, others, hothers, hrules⟩
            exact ⟨hne, others, hothers, by rw [hrule, hrules]⟩
          · intro h
            rcases h with ⟨hne, others, hothers, hrules⟩
            exact ⟨_, ⟨hne, rfl⟩, others, hothers, hrules.symm⟩
      | none =>
          cases hmarked : startsLikeMarker text with
          | true =>
              have htext : ¬ Unmarked text := by
                rw [← startsLikeMarker_eq_false_iff, hmarked]
                exact Bool.noConfusion
              simp [not_resumes_of_marked hkind htext]
          | false =>
              rw [resumes_line_iff (startsLikeMarker_eq_false_iff.mp hmarked)]
              simp only [bind_eq_ok_iff, readRule_eq_ok_iff, ih, Bool.false_eq_true, if_false]

/-!
# Documents

The reader cuts at line feeds only.  A carriage return that it leaves behind is
white space at the end of a line, so trimming removes it.
-/

theorem readLines_eq_ok_iff {lines : List (Nat × List Char)} {rules : List Rule} :
    readLines table lines = .ok rules ↔ BlocksText table (lines.map Prod.snd) rules := by
  rw [blocksText_iff]
  cases lines with
  | nil => simp [readLines]
  | cons entry lines =>
      rcases entry with ⟨number, text⟩
      rw [List.map_cons, anyBlocks_cons_iff number]
      cases hkind : BlockKind.ofLine? text with
      | some kind =>
          simp only [readLines, hkind]
          rw [readBlocks_eq_ok_iff]
          constructor
          · intro h
            exact ⟨List.cons_ne_nil _ _, kind, ofLine?_eq_some_iff.mp hkind, h⟩
          · intro h
            rcases h.right with ⟨other, hmarker, hresumes⟩
            rw [ofLine?_eq_some_iff.mpr hmarker] at hkind
            cases hkind
            exact hresumes
      | none =>
          have hnone : forall kind, text ≠ [BlockKind.marker kind] := by
            intro kind hmarker
            rw [ofLine?_eq_some_iff.mpr hmarker] at hkind
            cases hkind
          cases hmarked : startsLikeMarker text <;> simp [readLines, hkind, hmarked, hnone]

end

theorem lines_trim_eq {text : List Char} {lines : List (List Char)} (h : Lines text lines) :
    lines.map Text.trim = (text.splitOn '\n').map Text.trim := by
  induction h with
  | last hline => rw [List.splitOn_eq_singleton hline]
  | feed hline _ _ ih =>
      rw [List.splitOn_append_cons_self_of_not_mem hline, List.map_cons, List.map_cons, ih]
  | returnFeed hline _ ih =>
      rename_i line rest lines _
      have hcut : '\n' ∉ line ++ ['\r'] := by simp [hline]
      have hpadded : Text.Padded (line ++ ['\r']) line :=
        ⟨[], ['\r'], Text.allBlank_nil, Text.allBlank_singleton (by decide), rfl⟩
      have htrim : Text.trim (line ++ ['\r']) = Text.trim line :=
        (hpadded.trimmed (Text.trimmed_trim line)).trim_eq
      have hsplit : line ++ '\r' :: '\n' :: rest = (line ++ ['\r']) ++ '\n' :: rest := by simp
      rw [hsplit, List.splitOn_append_cons_self_of_not_mem hcut, List.map_cons, List.map_cons,
        ih, htrim]

theorem exists_lines (text : List Char) : exists lines, Lines text lines := by
  have hpieces := Text.separated_splitOn '\n' text
  generalize text.splitOn '\n' = pieces at hpieces
  induction hpieces with
  | last hpiece => exact ⟨_, Lines.last hpiece⟩
  | more hpiece _ ih =>
      rename_i piece rest pieces _
      rcases ih with ⟨lines, hlines⟩
      cases hlast : decide (piece.getLast? = some '\r') with
      | false => exact ⟨piece :: lines, Lines.feed hpiece (of_decide_eq_false hlast) hlines⟩
      | true =>
          rcases List.getLast?_eq_some_iff.mp (of_decide_eq_true hlast) with ⟨line, hline⟩
          subst hline
          have hcut : '\n' ∉ line := fun hmem => hpiece (List.mem_append_left _ hmem)
          rw [List.append_assoc]
          exact ⟨line :: lines, Lines.returnFeed hcut hlines⟩

theorem contents_iff {lines contents : List (List Char)} :
    Contents lines contents ↔
      (lines.map Text.trim).filter (fun content => !content.isEmpty) = contents := by
  induction lines generalizing contents with
  | nil =>
      constructor
      · intro h
        cases h
        rfl
      · intro h
        rw [← h]
        exact Contents.nil
  | cons line lines ih =>
      rw [List.map_cons]
      constructor
      · intro h
        cases h with
        | blank hline hlines =>
            rw [Text.trim_eq_nil_iff.mpr hline]
            exact ih.mp hlines
        | content hline hcontent hlines =>
            rw [hline.trim_eq, List.filter_cons_of_pos (by simpa using hcontent), ih.mp hlines]
      · intro h
        by_cases hblank : Text.trim line = []
        · rw [hblank] at h
          exact Contents.blank (Text.trim_eq_nil_iff.mp hblank) (ih.mpr h)
        · rw [List.filter_cons_of_pos (by simpa using hblank)] at h
          subst h
          exact Contents.content (Text.trimmed_trim line) hblank (ih.mpr rfl)

theorem contentLines_map_snd (text : List Char) :
    (contentLines text).map Prod.snd =
      ((text.splitOn '\n').map Text.trim).filter (fun content => !content.isEmpty) := by
  have hfst : (text.splitOn '\n').map Text.trim =
      (((text.splitOn '\n').zipIdx 1).map fun entry => (entry.2, Text.trim entry.1)).map
        Prod.snd := by
    rw [List.map_map]
    show _ = ((text.splitOn '\n').zipIdx 1).map (Text.trim ∘ Prod.fst)
    rw [← List.map_map, List.zipIdx_map_fst]
  rw [contentLines, hfst, List.filter_map (f := Prod.snd)]
  rfl

theorem contentLines_iff {text : List Char} {contents : List (List Char)} :
    (contentLines text).map Prod.snd = contents ↔
      exists lines, Lines text lines ∧ Contents lines contents := by
  rw [contentLines_map_snd]
  constructor
  · intro h
    rcases exists_lines text with ⟨lines, hlines⟩
    refine ⟨lines, hlines, contents_iff.mpr ?_⟩
    rw [lines_trim_eq hlines, h]
  · intro h
    rcases h with ⟨lines, hlines, hcontents⟩
    rw [← contents_iff.mp hcontents, lines_trim_eq hlines]

theorem readLines_contentLines_iff {table : SymbolTable} {text : List Char} {set : RuleSet} :
    readLines table (contentLines text) = .ok set.rules ↔ DocumentText table text set := by
  rw [readLines_eq_ok_iff]
  constructor
  · intro h
    rcases contentLines_iff.mp rfl with ⟨lines, hlines, hcontents⟩
    exact ⟨lines, _, hlines, hcontents, h⟩
  · intro h
    rcases h with ⟨lines, contents, hlines, hcontents, hblocks⟩
    rw [contentLines_iff.mpr ⟨lines, hlines, hcontents⟩]
    exact hblocks

theorem decode_eq_ok_iff_readLines {table : SymbolTable} {text : String} {set : RuleSet} :
    decode table text = .ok set ↔ readLines table (contentLines text.toList) = .ok set.rules := by
  unfold decode
  rw [bind_eq_ok_iff]
  constructor
  · intro h
    rcases h with ⟨rules, hrules, hset⟩
    cases hset
    exact hrules
  · intro h
    exact ⟨set.rules, h, rfl⟩

/-- A text is read as a rule set exactly when it is a document of the grammar
that denotes it. -/
theorem decode_exact (table : SymbolTable) (text : String) (set : RuleSet) :
    decode table text = .ok set ↔ DocumentText table text.toList set := by
  rw [decode_eq_ok_iff_readLines, readLines_contentLines_iff]

end RuleText
end GridRules
