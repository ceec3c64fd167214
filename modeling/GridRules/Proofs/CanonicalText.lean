import GridRules.Proofs.PlainForms

/-!
# Written text is canonical

The writer gives a rule and its canonical form the same text.  Whatever was written
therefore denotes a rule set that is written with this very text again.

## Main statements

Reading written text gives the canonical form of what was written, for every rule set that
can be written and every table that writes letters.  Writing what was read changes nothing.
-/

namespace GridRules
namespace RuleText

variable {table : SymbolTable}

/-!
# Sides and clauses
-/

theorem rowLayout_flattenedEdges (edges : Shape) :
    rowLayout (Grid.flattenedEdges edges) = rowLayout edges := by
  rcases Grid.flattenedEdges_eq edges with heq | ⟨width, hedges, hflat⟩
  · rw [heq]
  · rw [hflat, hedges]
    rfl

theorem writeSide_flattened (table : SymbolTable) (pattern : Grid Symbol) :
    writeSide table pattern.flattened = writeSide table pattern := by
  have hlayout : rowLayout pattern.flattened.edges = rowLayout pattern.edges :=
    rowLayout_flattenedEdges pattern.edges
  rw [writeSide, hlayout]
  rfl

theorem WritesClause.flattened {clause : Clause} {text : List Char}
    (h : WritesClause table clause text) : WritesClause table clause.flattened text := by
  rcases writesClause_iff.mp h with ⟨left, right, hleft, hright, htext⟩
  refine writesClause_iff.mpr ⟨left, right, ?_, ?_, htext⟩
  · exact (writeSide_flattened table clause.lhs).trans hleft
  · exact (writeSide_flattened table clause.rhs).trans hright

/-!
# Rule lines
-/

theorem writeChoice_canonical {rule : Rule} {text : List Char}
    (h : writeChoice table rule = .ok text) : writeChoice table rule.canonical = .ok text := by
  rcases writeChoice_clauses h with ⟨clauses, texts, hne, htexts, htext, hrule⟩
  have hflattened : List.Forall₂ (WritesClause table) (clauses.map Clause.flattened) texts :=
    List.forall₂_map_left_iff.mpr (htexts.imp fun _ _ hclause => hclause.flattened)
  rw [hrule, htext]
  exact writeChoice_choice (mt List.map_eq_nil_iff.mp hne) hflattened

theorem writeRule_canonical {rule : Rule} {text : List Char}
    (h : writeRule table rule = .ok text) : writeRule table rule.canonical = .ok text := by
  rcases writeRule_cases h with hchoice | ⟨times, part, body, hrule, hbody, htext⟩
  · exact writeRule_of_writeChoice (writeChoice_canonical hchoice)
  · rw [hrule, htext, Rule.canonical]
    exact bind_eq_ok_iff.mpr ⟨body, writeChoice_canonical hbody, rfl⟩

/-!
# Blocks and documents
-/

theorem writeBody_canonical {marker : Char} {rules : List Rule} {text : List Char}
    (h : writeBody table marker rules = .ok text) :
    writeBody table marker (Rule.canonicalAll rules) = .ok text := by
  rcases writeBody_eq_ok_iff.mp h with ⟨hne, texts, htexts, htext⟩
  rw [writeRules_eq_ok_iff] at htexts
  rw [Rule.canonicalAll_eq_map]
  refine writeBody_eq_ok_iff.mpr ⟨mt List.map_eq_nil_iff.mp hne, texts, ?_, htext⟩
  rw [writeRules_eq_ok_iff, List.forall₂_map_left_iff]
  exact htexts.imp fun _ _ hrule => writeRule_canonical hrule

theorem writeBlock_canonical {rule : Rule} {text : List Char}
    (h : writeBlock table rule = .ok text) : writeBlock table rule.canonical = .ok text := by
  cases rule with
  | sequential rules => exact writeBody_canonical h
  | markov rules => exact writeBody_canonical h
  | _ => cases h

theorem encode_canonical {set : RuleSet} {written : String}
    (h : encode table set = .ok written) : encode table set.canonical = .ok written := by
  rcases encode_eq_ok_iff.mp h with ⟨texts, htexts, hwritten⟩
  rw [writeBlocks_eq_ok_iff] at htexts
  refine encode_eq_ok_iff.mpr ⟨texts, ?_, hwritten⟩
  rw [writeBlocks_eq_ok_iff, RuleSet.canonical, List.forall₂_map_left_iff]
  exact htexts.imp fun _ _ hblock => writeBlock_canonical hblock

/-- With any table that is reached by insertions and writes letters only, written text is
read as the canonical form of the rule set, and this form is written with the same text
again. -/
theorem decode_encode_canonical (pairs : List (Char × Symbol))
    (hletter : forall symbol c,
      (SymbolTable.ofPairs pairs).charFor? symbol = some c -> Letter c)
    (set : RuleSet) (hne : set.rules ≠ []) (written : String)
    (hencode : encode (SymbolTable.ofPairs pairs) set = .ok written) :
    decode (SymbolTable.ofPairs pairs) written = .ok set.canonical ∧
      (decode (SymbolTable.ofPairs pairs) written >>= encode (SymbolTable.ofPairs pairs)) =
        .ok written := by
  have htable : Legible (SymbolTable.ofPairs pairs) :=
    { coherent := SymbolTable.coherent_ofPairs pairs
      letter := hletter }
  have hread := decode_of_encode htable hne hencode
  refine ⟨hread, ?_⟩
  rw [hread]
  exact encode_canonical hencode

/-!
Both kinds of rules that are not plain occur in one rule set, below a repeat count and with
the names that moved.
-/

def lonelyRow : RuleSet where
  rules :=
    [ .markov
        [ .limited 12
            (.composite
              [ .single
                  { lhs := rowOnTwoAxes
                    rhs := RuleSet.pair .white .red
                    size_eq := size_rowOnTwoAxes .white .red } ]) ],
      .sequential [RuleSet.repaint .red .black] ]

def lonelyRowRead : RuleSet where
  rules :=
    [ .markov
        [ .limited 12
            (.single
              { lhs := RuleSet.pair .black .white
                rhs := RuleSet.pair .white .red
                size_eq := rfl }) ],
      .sequential [RuleSet.repaint .red .black] ]

theorem decode_encode_canonical_moved :
    encode (SymbolTable.ofPairs movedNames) lonelyRow = .ok "?\nbW > WB * 12\n!\nB > b" ∧
      decode (SymbolTable.ofPairs movedNames) "?\nbW > WB * 12\n!\nB > b" = .ok lonelyRowRead ∧
      encode (SymbolTable.ofPairs movedNames) lonelyRowRead =
        .ok "?\nbW > WB * 12\n!\nB > b" := by
  have hletter : forall symbol c,
      (SymbolTable.ofPairs movedNames).charFor? symbol = some c -> Letter c :=
    letter_of_written (by decide)
  have hwritten : encode (SymbolTable.ofPairs movedNames) lonelyRow =
      .ok "?\nbW > WB * 12\n!\nB > b" := rfl
  have hcanonical : lonelyRow.canonical = lonelyRowRead := rfl
  rcases decode_encode_canonical movedNames hletter lonelyRow (List.cons_ne_nil _ _) _ hwritten
    with ⟨hread, hagain⟩
  rw [hcanonical] at hread
  rw [hread] at hagain
  exact ⟨hwritten, hread, hagain⟩

end RuleText
end GridRules
