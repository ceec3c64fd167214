import GridRules.Proofs.Documents
import GridRules.Proofs.Writing

/-!
# Reading, writing and reading again

What a text denotes is in canonical form, and every symbol in it has a name, so
the writer accepts it.  The written text then denotes the same rule set.

The written text need not be the text that was read.  White space is laid out
anew, and a symbol that has several names is written with one of them.
-/

namespace GridRules
namespace RuleText

open Grammar

section

variable {table : SymbolTable}

/-!
# Sides and clauses
-/

theorem flattenedEdges_sideEdges (count width : Nat) :
    Grid.flattenedEdges (sideEdges count width) = sideEdges count width := by
  rcases Grid.flattenedEdges_eq (sideEdges count width) with heq | ⟨other, hedges, _⟩
  · exact heq
  · unfold sideEdges at hedges
    split at hedges
    · cases hedges
    · rename_i hseveral
      exact absurd (List.cons.inj hedges).left hseveral

theorem exists_rowLayout (count width : Nat) :
    exists layout, rowLayout (sideEdges count width) = .ok layout := by
  unfold sideEdges
  split
  · exact ⟨_, rfl⟩
  · exact ⟨_, rfl⟩

theorem flattened_of_sideText {text : List Char} {pattern : Grid Symbol}
    (h : SideText table text pattern) : pattern.flattened = pattern := by
  rcases h with ⟨pieces, rows, width, _, _, hstacked⟩
  apply Grid.ext
  · show Grid.flattenedEdges pattern.edges = pattern.edges
    rw [hstacked.edges_eq]
    exact flattenedEdges_sideEdges rows.length width
  · rfl

theorem exists_writeSide (htable : table.Coherent) {text : List Char} {pattern : Grid Symbol}
    (h : SideText table text pattern) : exists written, writeSide table pattern = .ok written := by
  rcases h with ⟨pieces, rows, width, _, _, hstacked⟩
  rcases exists_rowLayout rows.length width with ⟨layout, hlayout⟩
  rcases exists_forall₂ hstacked.names htable.exists_charFor? with ⟨cs, hcs⟩
  rw [← hstacked.edges_eq] at hlayout
  refine ⟨_, bind_eq_ok_iff.mpr ⟨layout, hlayout, bind_eq_ok_iff.mpr ⟨cs, ?_, rfl⟩⟩⟩
  exact writeSymbols_eq_ok_iff.mpr hcs

theorem flattened_of_clauseText {text : List Char} {clause : Clause}
    (h : ClauseText table text clause) : clause.flattened = clause := by
  rcases h with ⟨left, right, _, hleft, hright⟩
  cases clause
  unfold Clause.flattened
  simp only [flattened_of_sideText hleft, flattened_of_sideText hright]

theorem exists_writesClause (htable : table.Coherent) {text : List Char} {clause : Clause}
    (h : ClauseText table text clause) : exists written, WritesClause table clause written := by
  rcases h with ⟨left, right, _, hleft, hright⟩
  rcases exists_writeSide htable hleft with ⟨lhs, hlhs⟩
  rcases exists_writeSide htable hright with ⟨rhs, hrhs⟩
  exact ⟨_, writesClause_iff.mpr ⟨lhs, rhs, hlhs, hrhs, rfl⟩⟩

/-!
# Rule lines
-/

theorem canonical_of_choiceText {text : List Char} {rule : Rule}
    (h : ChoiceText table text rule) : rule.canonical = rule := by
  cases h with
  | one _ hclause => rw [Rule.canonical, flattened_of_clauseText hclause]
  | @several pieces clauses _ hseveral hclauses =>
      rw [hclauses.length_eq] at hseveral
      have hflattened : clauses.map Clause.flattened = clauses :=
        map_eq_self_of_forall₂ hclauses fun _ _ hclause => flattened_of_clauseText hclause
      rw [canonical_alternatives, hflattened]
      unfold choice
      split
      · exact absurd hseveral (Nat.lt_irrefl 1)
      · rfl

theorem exists_writeChoice (htable : table.Coherent) {text : List Char} {rule : Rule}
    (h : ChoiceText table text rule) : exists written, writeChoice table rule = .ok written := by
  rcases choiceText_iff.mp h with ⟨clauses, hclauses, hrule⟩
  have hne : clauses ≠ [] := ne_nil_of_forall₂ hclauses (List.splitOn_ne_nil '|' text)
  rcases exists_forall₂ hclauses fun _ _ hclause => exists_writesClause htable hclause with
    ⟨texts, htexts⟩
  rw [← hrule]
  exact ⟨_, writeChoice_choice hne htexts⟩

theorem canonical_of_lineText {text : List Char} {rule : Rule}
    (h : LineText table text rule) : rule.canonical = rule := by
  cases h.right with
  | plain _ hchoice => exact canonical_of_choiceText hchoice
  | limited _ _ hchoice _ => rw [Rule.canonical, canonical_of_choiceText hchoice]

theorem exists_writeRule (htable : table.Coherent) {text : List Char} {rule : Rule}
    (h : LineText table text rule) : exists written, writeRule table rule = .ok written := by
  cases h.right with
  | plain _ hchoice =>
      rcases exists_writeChoice htable hchoice with ⟨written, hwritten⟩
      exact ⟨written, writeRule_of_writeChoice hwritten⟩
  | limited _ _ hchoice _ =>
      rcases exists_writeChoice htable hchoice with ⟨written, hwritten⟩
      exact ⟨_, bind_eq_ok_iff.mpr ⟨written, hwritten, rfl⟩⟩

/-!
# Blocks and documents
-/

theorem canonical_of_lines {texts : List (List Char)} {rules : List Rule}
    (h : List.Forall₂ (LineText table) texts rules) : Rule.canonicalAll rules = rules := by
  rw [Rule.canonicalAll_eq_map]
  exact map_eq_self_of_forall₂ h fun _ _ hline => canonical_of_lineText hline

theorem exists_writeBody (htable : table.Coherent) (marker : Char) {lines : List (List Char)}
    {rules : List Rule} (hne : lines ≠ []) (h : List.Forall₂ (LineText table) lines rules) :
    exists written, writeBody table marker rules = .ok written := by
  rcases exists_forall₂ h fun _ _ hline => exists_writeRule htable hline with ⟨texts, htexts⟩
  exact ⟨_, writeBody_eq_ok_iff.mpr
    ⟨ne_nil_of_forall₂ h hne, texts, writeRules_eq_ok_iff.mpr htexts, rfl⟩⟩

theorem canonical_of_blockText {lines : List (List Char)} {rule : Rule}
    (h : BlockText table lines rule) : rule.canonical = rule := by
  cases h with
  | sequential _ hlines => rw [Rule.canonical, canonical_of_lines hlines]
  | markov _ hlines => rw [Rule.canonical, canonical_of_lines hlines]

theorem exists_writeBlock (htable : table.Coherent) {lines : List (List Char)} {rule : Rule}
    (h : BlockText table lines rule) : exists written, writeBlock table rule = .ok written := by
  cases h with
  | sequential hne hlines => exact exists_writeBody htable '!' hne hlines
  | markov hne hlines => exact exists_writeBody htable '?' hne hlines

theorem exists_encode (htable : table.Coherent) {text : List Char} {set : RuleSet}
    (h : DocumentText table text set) :
    set.rules ≠ [] ∧ set.canonical = set ∧
      exists written, encode table set = .ok written := by
  rcases h with ⟨lines, contents, _, _, blocks, hne, _, hblocks⟩
  refine ⟨ne_nil_of_forall₂ hblocks hne, ?_, ?_⟩
  · unfold RuleSet.canonical
    rw [map_eq_self_of_forall₂ hblocks fun _ _ hblock => canonical_of_blockText hblock]
  · rcases exists_forall₂ hblocks fun _ _ hblock => exists_writeBlock htable hblock with
      ⟨texts, htexts⟩
    exact ⟨_, encode_eq_ok_iff.mpr ⟨texts, writeBlocks_eq_ok_iff.mpr htexts, rfl⟩⟩

theorem exists_encode_of_decode (htable : Legible table) {text : String} {set : RuleSet}
    (h : decode table text = .ok set) :
    exists written, encode table set = .ok written ∧ decode table written = .ok set := by
  rw [decode_eq_ok_iff_readLines, readLines_contentLines_iff] at h
  rcases exists_encode htable.coherent h with ⟨hne, hcanonical, written, hwritten⟩
  refine ⟨written, hwritten, ?_⟩
  rw [decode_eq_ok_iff_readLines, readLines_contentLines_iff]
  have hsound := encode_sound htable hne hwritten
  rwa [hcanonical] at hsound

theorem letter_of_written
    (h : forall entry, entry ∈ table.written ->
      Text.isBlank entry.2 = false ∧ entry.2 ∉ marks) :
    forall symbol c, table.charFor? symbol = some c -> Letter c := by
  intro symbol c hc
  rcases h (symbol, c) (Entries.mem_of_find?_eq_some hc) with ⟨hblank, hmark⟩
  exact ⟨hblank, hmark⟩

end

theorem legible_standard : Legible SymbolTable.standard where
  coherent := SymbolTable.coherent_ofPairs _
  letter := letter_of_written (by decide)

theorem exists_encode_of_decode_standard {text : String} {set : RuleSet}
    (h : decode SymbolTable.standard text = .ok set) :
    exists written, encode SymbolTable.standard set = .ok written ∧
      decode SymbolTable.standard written = .ok set :=
  exists_encode_of_decode legible_standard h

/-- With any table that is reached by insertions and writes letters only,
whatever can be read can be written, and the written text is read as the same
rule set. -/
theorem decode_encode_decode (pairs : List (Char × Symbol))
    (hletter : forall symbol c,
      (SymbolTable.ofPairs pairs).charFor? symbol = some c -> Letter c)
    (text : String) (set : RuleSet)
    (hdecode : decode (SymbolTable.ofPairs pairs) text = .ok set) :
    exists written, encode (SymbolTable.ofPairs pairs) set = .ok written ∧
      decode (SymbolTable.ofPairs pairs) written = .ok set := by
  have htable : Legible (SymbolTable.ofPairs pairs) :=
    { coherent := SymbolTable.coherent_ofPairs pairs
      letter := hletter }
  exact exists_encode_of_decode htable hdecode

/-!
The first name of black moves on to red, so black is written with its other
name.  One name of white is a mark that is never used for writing.
-/

def movedNames : List (Char × Symbol) :=
  [('B', .black), ('b', .black), ('W', .white), ('B', .red), ('!', .white)]

theorem decode_encode_decode_moved :
    exists set,
      decode (SymbolTable.ofPairs movedNames) "\n ?\n Wb>BB | W ^ ! > b^W * +02\r\n" = .ok set ∧
        encode (SymbolTable.ofPairs movedNames) set =
          .ok "?\nWb > BB | W ^ W > b ^ W * 2" ∧
        decode (SymbolTable.ofPairs movedNames) "?\nWb > BB | W ^ W > b ^ W * 2" = .ok set := by
  have hletter : forall symbol c,
      (SymbolTable.ofPairs movedNames).charFor? symbol = some c -> Letter c :=
    letter_of_written (by decide)
  have hboth :
      (decode (SymbolTable.ofPairs movedNames) "\n ?\n Wb>BB | W ^ ! > b^W * +02\r\n" >>=
        encode (SymbolTable.ofPairs movedNames)) = .ok "?\nWb > BB | W ^ W > b ^ W * 2" := by
    rfl
  rcases bind_eq_ok_iff.mp hboth with ⟨set, hdecode, hencode⟩
  rcases decode_encode_decode movedNames hletter _ set hdecode with ⟨written, hwritten, hagain⟩
  cases hencode.symm.trans hwritten
  exact ⟨set, hdecode, hencode, hagain⟩

end RuleText
end GridRules
