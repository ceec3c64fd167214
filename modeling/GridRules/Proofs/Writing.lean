import GridRules.Proofs.Layout
import GridRules.Proofs.Reading
import GridRules.Proofs.Tables

/-!
# What written text denotes

The writer drops two distinctions that rule text does not make.  A pattern with
one row is written like a pattern with one axis, and a single alternative is
written like the alternative itself.  The canonical form of a rule makes the
same identifications, and written text denotes it.

## Main statements

Text that is written with a legible table is a document of the grammar, and it
denotes the canonical form of what was written.
-/

namespace GridRules

/-!
# Canonical forms
-/

namespace Grid

variable {cell : Type}

def flattenedEdges : Shape -> Shape
  | [1, width] => [width]
  | edges => edges

theorem flattenedEdges_eq (edges : Shape) :
    flattenedEdges edges = edges ∨ exists width, edges = [1, width] ∧
      flattenedEdges edges = [width] := by
  unfold flattenedEdges
  split
  · rename_i width
    exact Or.inr ⟨width, rfl, rfl⟩
  · exact Or.inl rfl

theorem cellCount_flattenedEdges (edges : Shape) :
    Shape.cellCount (flattenedEdges edges) = edges.cellCount := by
  rcases flattenedEdges_eq edges with heq | ⟨width, hedges, hflat⟩
  · rw [heq]
  · rw [hflat, hedges]
    simp

def flattened (g : Grid cell) : Grid cell where
  edges := flattenedEdges g.edges
  cells := g.cells
  edges_ne_nil := by
    rcases flattenedEdges_eq g.edges with heq | ⟨width, _, hflat⟩
    · rw [heq]
      exact g.edges_ne_nil
    · rw [hflat]
      exact List.cons_ne_nil width []
  zero_not_mem := by
    rw [← Shape.cellCount_eq_zero_iff, cellCount_flattenedEdges, Shape.cellCount_eq_zero_iff]
    exact g.zero_not_mem
  size_eq := g.size_eq.trans (cellCount_flattenedEdges g.edges).symm
  addressable := by
    rw [cellCount_flattenedEdges]
    exact g.addressable

end Grid

namespace Clause

def flattened (clause : Clause) : Clause where
  lhs := clause.lhs.flattened
  rhs := clause.rhs.flattened
  size_eq := clause.size_eq

end Clause

namespace Rule

def alternatives : List Rule -> Rule
  | [rule] => rule
  | rules => .composite rules

mutual

/-- The form in which a rule is read back. -/
def canonical : Rule -> Rule
  | single clause => single clause.flattened
  | composite rules => alternatives (canonicalAll rules)
  | limited times rule => limited times rule.canonical
  | sequential rules => sequential (canonicalAll rules)
  | markov rules => markov (canonicalAll rules)

def canonicalAll : List Rule -> List Rule
  | [] => []
  | rule :: rules => rule.canonical :: canonicalAll rules

end

theorem canonicalAll_eq_map (rules : List Rule) : canonicalAll rules = rules.map canonical := by
  induction rules with
  | nil => rfl
  | cons rule rules ih => rw [canonicalAll, List.map_cons, ih]

end Rule

def RuleSet.canonical (set : RuleSet) : RuleSet where
  rules := set.rules.map Rule.canonical

namespace RuleText

open Text (Padded Trimmed)
open Grammar

/-- Every symbol that a table writes is written with a letter that names it. -/
structure Legible (table : SymbolTable) : Prop where
  coherent : table.Coherent
  letter : forall symbol c, table.charFor? symbol = some c -> Letter c

variable {table : SymbolTable}

/-!
# Sides
-/

def Writes (table : SymbolTable) (symbol : Symbol) (c : Char) : Prop :=
  table.charFor? symbol = some c

theorem writeSymbols_eq_ok_iff {symbols : List Symbol} {cs : List Char} :
    writeSymbols table symbols = .ok cs ↔ List.Forall₂ (Writes table) symbols cs := by
  induction symbols generalizing cs with
  | nil => simp [writeSymbols, eq_comm]
  | cons symbol symbols ih =>
      rw [List.forall₂_cons_left_iff]
      unfold writeSymbols
      cases hchar : table.charFor? symbol with
      | none => simp [Writes, hchar]
      | some c =>
          simp only [bind_eq_ok_iff, ih, Except.ok.injEq]
          constructor
          · intro h
            rcases h with ⟨rest, hrest, heq⟩
            exact ⟨c, rest, hchar, hrest, heq.symm⟩
          · intro h
            rcases h with ⟨written, rest, hwritten, hrest, heq⟩
            cases hchar.symm.trans hwritten
            exact ⟨rest, hrest, heq.symm⟩

theorem names_of_writes (htable : Legible table) {symbols : List Symbol} {cs : List Char}
    (h : List.Forall₂ (Writes table) symbols cs) : List.Forall₂ (Names table) cs symbols := by
  apply List.Forall₂.flip
  exact h.imp htable.coherent.symbolFor?_of_charFor?

theorem rowLayout_eq_ok {edges : Shape} {count width : Nat}
    (h : rowLayout edges = .ok (count, width)) :
    edges.cellCount = count * width ∧ width ∈ edges ∧
      Grid.flattenedEdges edges = sideEdges count width := by
  unfold rowLayout at h
  split at h
  · cases h
    refine ⟨?_, List.mem_cons_self, ?_⟩
    · simp
    · simp [Grid.flattenedEdges, sideEdges]
  · cases h
    refine ⟨?_, List.mem_cons_of_mem _ List.mem_cons_self, ?_⟩
    · simp
    · unfold sideEdges
      by_cases hone : count = 1
      · rw [if_pos hone, hone]
        rfl
      · rw [if_neg hone]
        rcases Grid.flattenedEdges_eq [count, width] with heq | ⟨other, hedges, _⟩
        · exact heq
        · exact absurd (List.cons.inj hedges).left hone
  · cases h

theorem writeSide_rows (htable : Legible table) {pattern : Grid Symbol} {text : List Char}
    (h : writeSide table pattern = .ok text) :
    exists rows width, text = (spaced '^').intercalate rows ∧
      Stacked table width rows pattern.flattened ∧
      forall row, row ∈ rows -> forall c, c ∈ row -> Letter c := by
  unfold writeSide at h
  simp only [bind_eq_ok_iff, writeSymbols_eq_ok_iff, Except.ok.injEq] at h
  rcases h with ⟨⟨count, width⟩, hlayout, cs, hcs, htext⟩
  rcases rowLayout_eq_ok hlayout with ⟨hcount, hwidth, hedges⟩
  have hlength : cs.length = count * width := by
    rw [← hcs.length_eq, ← hcount, ← pattern.size_eq]
    rfl
  have hpos : 0 < width :=
    Nat.pos_of_ne_zero fun hzero => pattern.zero_not_mem (hzero ▸ hwidth)
  have hflat := flatten_cutRows hlength
  have hrows : (cutRows width count cs).length = count := length_cutRows width count cs
  refine ⟨cutRows width count cs, width, htext.symm, ?_, ?_⟩
  · apply Stacked.of_edges
    · intro row hrow hnil
      have hlen := length_of_mem_cutRows hlength hrow
      rw [hnil] at hlen
      exact Nat.ne_of_lt hpos hlen
    · intro row hrow
      exact length_of_mem_cutRows hlength hrow
    · rw [hrows]
      exact hedges
    · rw [hflat]
      exact names_of_writes htable hcs
  · intro row hrow c hc
    have hmem : c ∈ cs := by
      rw [← hflat]
      exact List.mem_flatten_of_mem hrow hc
    exact forall_mem_of_forall₂ hcs htable.letter c hmem

theorem rows_ne_nil {width : Nat} {rows : List (List Char)} {pattern : Grid Symbol}
    (h : Stacked table width rows pattern) : rows ≠ [] := by
  intro hnil
  have hnames := h.names
  rw [hnil, List.flatten_nil, List.forall₂_nil_left_iff] at hnames
  have hsize : pattern.size = 0 := by
    rw [Grid.size, ← Array.length_toList, hnames]
    rfl
  exact Nat.ne_of_gt pattern.size_pos hsize

theorem writeSide_neat (htable : Legible table) {pattern : Grid Symbol} {text : List Char}
    (h : writeSide table pattern = .ok text) : Neat sideMarks text := by
  rcases writeSide_rows htable h with ⟨rows, width, htext, hstacked, hletters⟩
  rw [htext]
  apply Neat.intercalate (rows_ne_nil hstacked)
  intro row hrow
  exact Neat.word (hstacked.row_ne_nil row hrow) (hletters row hrow)

theorem writeSide_sound (htable : Legible table) {pattern : Grid Symbol}
    {text outer : List Char} (h : writeSide table pattern = .ok text)
    (houter : Padded outer text) : SideText table outer pattern.flattened := by
  rcases writeSide_rows htable h with ⟨rows, width, htext, hstacked, hletters⟩
  rw [htext] at houter
  have hneat : forall row, row ∈ rows -> Neat [] row := fun row hrow =>
    Neat.word (hstacked.row_ne_nil row hrow) (hletters row hrow)
  rcases separated_intercalate (by decide) List.not_mem_nil (rows_ne_nil hstacked) hneat
    houter with ⟨pieces, hpieces, hpadded⟩
  refine ⟨pieces, rows, width, hpieces, ?_, hstacked⟩
  exact trimmed_of_padded hpadded fun row hrow => (hneat row hrow).tight

/-!
# Clauses
-/

def WritesClause (table : SymbolTable) (clause : Clause) (text : List Char) : Prop :=
  writeClause table clause = .ok text

theorem writesClause_iff {clause : Clause} {text : List Char} :
    WritesClause table clause text ↔
      exists left right, writeSide table clause.lhs = .ok left ∧
        writeSide table clause.rhs = .ok right ∧ text = left ++ spaced '>' ++ right := by
  unfold WritesClause writeClause
  simp only [bind_eq_ok_iff, Except.ok.injEq]
  constructor
  · intro h
    rcases h with ⟨left, hleft, right, hright, htext⟩
    exact ⟨left, right, hleft, hright, htext.symm⟩
  · intro h
    rcases h with ⟨left, right, hleft, hright, htext⟩
    exact ⟨left, hleft, right, hright, htext.symm⟩

theorem WritesClause.neat (htable : Legible table) {clause : Clause} {text : List Char}
    (h : WritesClause table clause text) : Neat clauseMarks text := by
  rcases writesClause_iff.mp h with ⟨left, right, hleft, hright, htext⟩
  rw [htext]
  apply Neat.join
  · exact (writeSide_neat htable hleft).lift '>'
  · exact (writeSide_neat htable hright).lift '>'

theorem WritesClause.sound (htable : Legible table) {clause : Clause} {text outer : List Char}
    (h : WritesClause table clause text) (houter : Padded outer text) :
    ClauseText table outer clause.flattened := by
  rcases writesClause_iff.mp h with ⟨left, right, hleft, hright, htext⟩
  rw [htext] at houter
  rcases separated_pair (by decide) (by decide) (writeSide_neat htable hleft)
    (writeSide_neat htable hright) houter with ⟨first, second, hpieces, hfirst, hsecond⟩
  exact ⟨first, second, hpieces, writeSide_sound htable hleft hfirst,
    writeSide_sound htable hright hsecond⟩

/-!
# Rule lines
-/

theorem writeAlternatives_eq_ok_iff {rules : List Rule} {texts : List (List Char)} :
    writeAlternatives table rules = .ok texts ↔
      exists clauses, rules = clauses.map .single ∧
        List.Forall₂ (WritesClause table) clauses texts := by
  induction rules generalizing texts with
  | nil =>
      constructor
      · intro h
        cases h
        exact ⟨[], rfl, List.Forall₂.nil⟩
      · intro h
        rcases h with ⟨clauses, hrules, htexts⟩
        rw [List.map_eq_nil_iff.mp hrules.symm, List.forall₂_nil_left_iff] at htexts
        rw [htexts]
        rfl
  | cons rule rules ih =>
      constructor
      · intro h
        cases rule with
        | single clause =>
            simp only [writeAlternatives, bind_eq_ok_iff, ih, Except.ok.injEq] at h
            rcases h with ⟨text, htext, rest, ⟨clauses, hrules, hrest⟩, htexts⟩
            rw [hrules, ← htexts]
            exact ⟨clause :: clauses, rfl, List.Forall₂.cons htext hrest⟩
        | _ => cases h
      · intro h
        rcases h with ⟨clauses, hrules, htexts⟩
        cases htexts with
        | nil => cases hrules
        | cons htext hrest =>
            rw [List.map_cons] at hrules
            rw [(List.cons.inj hrules).left]
            simp only [writeAlternatives, bind_eq_ok_iff, ih, Except.ok.injEq]
            exact ⟨_, htext, _, ⟨_, (List.cons.inj hrules).right, hrest⟩, rfl⟩

theorem canonical_alternatives (clauses : List Clause) :
    (Rule.composite (clauses.map .single)).canonical = choice (clauses.map Clause.flattened) := by
  rw [Rule.canonical, Rule.canonicalAll_eq_map, List.map_map]
  match clauses with
  | [] => rfl
  | [clause] => rfl
  | first :: second :: rest =>
      simp [Rule.alternatives, Rule.canonical, choice]

theorem writeChoice_clauses {rule : Rule} {text : List Char}
    (h : writeChoice table rule = .ok text) :
    exists clauses texts, clauses ≠ [] ∧ List.Forall₂ (WritesClause table) clauses texts ∧
      text = (spaced '|').intercalate texts ∧
      rule.canonical = choice (clauses.map Clause.flattened) := by
  cases rule with
  | single clause =>
      refine ⟨[clause], [text], List.cons_ne_nil _ _, ?_, ?_, rfl⟩
      · exact List.Forall₂.cons h List.Forall₂.nil
      · rw [List.intercalate_singleton]
  | composite rules =>
      dsimp only [writeChoice] at h
      split at h
      · cases h
      · rename_i hne
        simp only [bind_eq_ok_iff, writeAlternatives_eq_ok_iff, Except.ok.injEq] at h
        rcases h with ⟨texts, ⟨clauses, hrules, htexts⟩, htext⟩
        subst hrules
        refine ⟨clauses, texts, ?_, htexts, htext.symm, canonical_alternatives clauses⟩
        intro hnil
        rw [hnil] at hne
        exact hne rfl
  | limited => cases h
  | sequential => cases h
  | markov => cases h

theorem writeChoice_choice {clauses : List Clause} {texts : List (List Char)}
    (hne : clauses ≠ []) (h : List.Forall₂ (WritesClause table) clauses texts) :
    writeChoice table (choice clauses) = .ok ((spaced '|').intercalate texts) := by
  match clauses, h with
  | [], _ => exact absurd rfl hne
  | [clause], List.Forall₂.cons hclause List.Forall₂.nil =>
      rw [List.intercalate_singleton]
      exact hclause
  | first :: second :: rest, h =>
      have halternatives :
          writeAlternatives table ((first :: second :: rest).map .single) = .ok texts :=
        writeAlternatives_eq_ok_iff.mpr ⟨_, rfl, h⟩
      exact bind_eq_ok_iff.mpr ⟨texts, halternatives, rfl⟩

theorem writtenClauses_neat (htable : Legible table) {clauses : List Clause}
    {texts : List (List Char)} (h : List.Forall₂ (WritesClause table) clauses texts) :
    forall text, text ∈ texts -> Neat clauseMarks text :=
  forall_mem_of_forall₂ h fun _ _ hclause => hclause.neat htable

theorem writtenClauses_sound (htable : Legible table) {clauses : List Clause}
    {texts pieces : List (List Char)} (h : List.Forall₂ (WritesClause table) clauses texts)
    (hpieces : List.Forall₂ Padded pieces texts) :
    List.Forall₂ (ClauseText table) pieces (clauses.map Clause.flattened) := by
  induction h generalizing pieces with
  | nil =>
      rw [List.forall₂_nil_right_iff] at hpieces
      rw [hpieces]
      exact List.Forall₂.nil
  | cons hclause _ ih =>
      cases hpieces with
      | cons hpiece hrest => exact List.Forall₂.cons (hclause.sound htable hpiece) (ih hrest)

theorem writeChoice_neat (htable : Legible table) {rule : Rule} {text : List Char}
    (h : writeChoice table rule = .ok text) : Neat choiceMarks text := by
  rcases writeChoice_clauses h with ⟨clauses, texts, hne, htexts, htext, _⟩
  rw [htext]
  apply Neat.intercalate (ne_nil_of_forall₂ htexts hne)
  exact writtenClauses_neat htable htexts

theorem writeChoice_sound (htable : Legible table) {rule : Rule} {text outer : List Char}
    (h : writeChoice table rule = .ok text) (houter : Padded outer text) :
    ChoiceText table outer rule.canonical := by
  rcases writeChoice_clauses h with ⟨clauses, texts, hne, htexts, htext, hrule⟩
  rw [htext] at houter
  rcases separated_intercalate (by decide) (by decide) (ne_nil_of_forall₂ htexts hne)
    (writtenClauses_neat htable htexts) houter with ⟨pieces, hpieces, hpadded⟩
  refine choiceText_iff.mpr ⟨clauses.map Clause.flattened, ?_, hrule.symm⟩
  rw [hpieces.splitOn_eq]
  exact writtenClauses_sound htable htexts hpadded

theorem letter_of_isDigit {c : Char} (h : c.isDigit) : Letter c := by
  rcases Char.isDigit_iff_toNat.mp h with ⟨hlow, hhigh⟩
  have hlow : 48 ≤ c.toNat := hlow
  have hhigh : c.toNat ≤ 57 := hhigh
  constructor
  · simp only [Text.isBlank, List.mem_cons, List.not_mem_nil, or_false, decide_eq_false_iff_not]
    omega
  · intro hmark
    rw [not_isDigit_of_mem_marks hmark] at h
    cases h

theorem numeral_neat (used : List Char) (n : Nat) : Neat used (Text.numeral n) :=
  Neat.word (Text.numeral_ne_nil n) fun _ hc => letter_of_isDigit (Text.isDigit_of_mem_numeral hc)

theorem countText_numeral {count : List Char} {times : UInt32}
    (h : Padded count (Text.numeral times.toNat)) : CountText count times := by
  have htrim : Trimmed count (Text.numeral times.toNat) :=
    ⟨h, (numeral_neat [] times.toNat).tight⟩
  rw [countText_iff, htrim.trim_eq]
  exact Text.unsigned?_numeral times.toNat

theorem writeRule_of_writeChoice {rule : Rule} {text : List Char}
    (h : writeChoice table rule = .ok text) : writeRule table rule = .ok text := by
  cases rule with
  | limited => cases h
  | _ => exact h

theorem writeRule_cases {rule : Rule} {text : List Char} (h : writeRule table rule = .ok text) :
    writeChoice table rule = .ok text ∨
      exists times part body, rule = .limited times part ∧
        writeChoice table part = .ok body ∧
        text = body ++ spaced '*' ++ Text.numeral times.toNat := by
  cases rule with
  | limited times part =>
      simp only [writeRule, bind_eq_ok_iff, Except.ok.injEq] at h
      rcases h with ⟨body, hbody, htext⟩
      exact Or.inr ⟨times, part, body, rfl, hbody, htext.symm⟩
  | _ => exact Or.inl h

theorem writeRule_neat (htable : Legible table) {rule : Rule} {text : List Char}
    (h : writeRule table rule = .ok text) : Neat lineMarks text := by
  rcases writeRule_cases h with hchoice | ⟨times, part, body, _, hbody, htext⟩
  · exact (writeChoice_neat htable hchoice).lift '*'
  · rw [htext]
    apply Neat.join
    · exact (writeChoice_neat htable hbody).lift '*'
    · exact numeral_neat lineMarks times.toNat

theorem writeRule_sound (htable : Legible table) {rule : Rule} {text : List Char}
    (h : writeRule table rule = .ok text) : LineText table text rule.canonical := by
  refine ⟨(writeRule_neat htable h).unmarked, ?_⟩
  rcases writeRule_cases h with hchoice | ⟨times, part, body, hrule, hbody, htext⟩
  · apply RuleLine.plain
    · exact (writeChoice_neat htable hchoice).mark_not_mem (by decide) (by decide)
    · exact writeChoice_sound htable hchoice (Padded.refl text)
  · have houter : Padded text (body ++ spaced '*' ++ Text.numeral times.toNat) := by
      rw [htext]
      exact Padded.refl _
    rcases separated_pair (by decide) (by decide) (writeChoice_neat htable hbody)
      (numeral_neat choiceMarks times.toNat) houter with ⟨first, second, hpieces, hfirst, hsecond⟩
    rcases Text.Separated.pair_iff.mp hpieces with ⟨hjoined, hnotFirst, hnotSecond⟩
    rw [hjoined, hrule, Rule.canonical]
    exact RuleLine.limited hnotFirst hnotSecond (writeChoice_sound htable hbody hfirst)
      (countText_numeral hsecond)

/-!
# Blocks and documents
-/

theorem writeRules_eq_ok_iff {rules : List Rule} {texts : List (List Char)} :
    writeRules table rules = .ok texts ↔
      List.Forall₂ (fun rule text => writeRule table rule = .ok text) rules texts :=
  traverse_eq_ok_iff (writeRule table) (writeRules table) rfl fun _ _ => rfl

theorem writeBlocks_eq_ok_iff {rules : List Rule} {texts : List (List Char)} :
    writeBlocks table rules = .ok texts ↔
      List.Forall₂ (fun rule text => writeBlock table rule = .ok text) rules texts :=
  traverse_eq_ok_iff (writeBlock table) (writeBlocks table) rfl fun _ _ => rfl

theorem writeBody_eq_ok_iff {marker : Char} {rules : List Rule} {text : List Char} :
    writeBody table marker rules = .ok text ↔
      rules ≠ [] ∧ exists texts, writeRules table rules = .ok texts ∧
        text = [marker] ++ '\n' :: ['\n'].intercalate texts := by
  unfold writeBody
  cases rules with
  | nil => simp
  | cons rule rules =>
      simp only [List.isEmpty_cons, Bool.false_eq_true, if_false, bind_eq_ok_iff,
        Except.ok.injEq]
      constructor
      · intro h
        rcases h with ⟨texts, htexts, htext⟩
        exact ⟨List.cons_ne_nil _ _, texts, htexts, htext.symm⟩
      · intro h
        rcases h with ⟨_, texts, htexts, htext⟩
        exact ⟨texts, htexts, htext.symm⟩

theorem writeRules_sound (htable : Legible table) {rules : List Rule}
    {texts : List (List Char)} (h : writeRules table rules = .ok texts) :
    List.Forall₂ (LineText table) texts (Rule.canonicalAll rules) := by
  rw [writeRules_eq_ok_iff] at h
  rw [Rule.canonicalAll_eq_map, List.forall₂_map_right_iff]
  apply List.Forall₂.flip
  exact h.imp fun _ _ hrule => writeRule_sound htable hrule

theorem writeRules_whole (htable : Legible table) {rules : List Rule}
    {texts : List (List Char)} (h : writeRules table rules = .ok texts) :
    forall text, text ∈ texts -> Whole text := by
  refine forall_mem_of_forall₂ (writeRules_eq_ok_iff.mp h) ?_
  intro rule text hrule
  exact (writeRule_neat htable hrule).whole (by decide)

theorem writeBody_sound (htable : Legible table) {marker : Char} (hmarker : marker ∈ marks)
    {rules : List Rule} {text : List Char} (h : writeBody table marker rules = .ok text) :
    exists lines, lines ≠ [] ∧ Closed text ([marker] :: lines) ∧
      List.Forall₂ (LineText table) lines (Rule.canonicalAll rules) ∧
      forall line, line ∈ [marker] :: lines -> Whole line := by
  rcases writeBody_eq_ok_iff.mp h with ⟨hne, texts, htexts, htext⟩
  have htextsNe : texts ≠ [] := ne_nil_of_forall₂ (writeRules_eq_ok_iff.mp htexts) hne
  have hmarkerLine : Whole [marker] := whole_marker hmarker
  have hwhole := writeRules_whole htable htexts
  refine ⟨texts, htextsNe, ?_, writeRules_sound htable htexts, ?_⟩
  · rw [htext]
    exact hmarkerLine.closed.join (closed_lines htextsNe hwhole)
  · intro line hline
    cases List.mem_cons.mp hline with
    | inl heq =>
        rw [heq]
        exact hmarkerLine
    | inr hrest => exact hwhole line hrest

theorem writeBlock_sound (htable : Legible table) {rule : Rule} {text : List Char}
    (h : writeBlock table rule = .ok text) :
    exists lines, Closed text lines ∧ BlockText table lines rule.canonical ∧
      forall line, line ∈ lines -> Whole line := by
  cases rule with
  | sequential rules =>
      rcases writeBody_sound htable (by decide) h with ⟨lines, hne, hclosed, hlines, hwhole⟩
      exact ⟨['!'] :: lines, hclosed, BlockText.sequential hne hlines, hwhole⟩
  | markov rules =>
      rcases writeBody_sound htable (by decide) h with ⟨lines, hne, hclosed, hlines, hwhole⟩
      exact ⟨['?'] :: lines, hclosed, BlockText.markov hne hlines, hwhole⟩
  | _ => cases h

theorem writeBlocks_sound (htable : Legible table) {rules : List Rule}
    {texts : List (List Char)} (h : writeBlocks table rules = .ok texts) :
    exists blocks, List.Forall₂ Closed texts blocks ∧
      List.Forall₂ (BlockText table) blocks (rules.map Rule.canonical) ∧
      forall line, line ∈ blocks.flatten -> Whole line := by
  rw [writeBlocks_eq_ok_iff] at h
  induction h with
  | nil =>
      refine ⟨[], List.Forall₂.nil, List.Forall₂.nil, ?_⟩
      intro line hline
      cases hline
  | cons hblock _ ih =>
      rcases ih with ⟨blocks, hclosed, hblocks, hwhole⟩
      rcases writeBlock_sound htable hblock with ⟨lines, hfirst, hlines, hfirstWhole⟩
      refine ⟨lines :: blocks, List.Forall₂.cons hfirst hclosed,
        List.Forall₂.cons hlines hblocks, ?_⟩
      intro line hline
      rw [List.flatten_cons] at hline
      cases List.mem_append.mp hline with
      | inl hown => exact hfirstWhole line hown
      | inr hrest => exact hwhole line hrest

theorem encode_eq_ok_iff {set : RuleSet} {written : String} :
    encode table set = .ok written ↔
      exists texts, writeBlocks table set.rules = .ok texts ∧
        String.ofList (['\n'].intercalate texts) = written := by
  unfold encode
  simp only [bind_eq_ok_iff, Except.ok.injEq]

/-- Written text is a document that denotes the canonical form of what was
written. -/
theorem encode_sound (htable : Legible table) {set : RuleSet} {written : String}
    (hne : set.rules ≠ []) (h : encode table set = .ok written) :
    DocumentText table written.toList set.canonical := by
  rcases encode_eq_ok_iff.mp h with ⟨texts, htexts, hwritten⟩
  rcases writeBlocks_sound htable htexts with ⟨blocks, hclosed, hblocks, hwhole⟩
  have htextsNe : texts ≠ [] := ne_nil_of_forall₂ (writeBlocks_eq_ok_iff.mp htexts) hne
  have hblocksNe : blocks ≠ [] := ne_nil_of_forall₂ hclosed htextsNe
  have hlines : Lines written.toList blocks.flatten := by
    rw [← hwritten, String.toList_ofList]
    exact (closed_intercalate htextsNe hclosed).left
  exact ⟨blocks.flatten, blocks.flatten, hlines, contents_self hwhole, blocks, hblocksNe, rfl,
    hblocks⟩

end RuleText
end GridRules
