import GridRules.Proofs.Candidates
import GridRules.Proofs.RoundTrip

/-!
# Rule sets that are read back unchanged

The writer accepts some rules that no text denotes.  It writes a composite rule with one
alternative like the alternative itself, and a single row on two axes like a row on one
axis.  A rule set is plain when neither occurs in it.

## Main statements

Whatever is written with the standard names is read back in canonical form.  It is read
back unchanged exactly if it was plain.
-/

namespace GridRules

/-!
# Plain rules
-/

namespace Grid

variable {cell : Type}

/-- Not a single row on two axes. -/
def Plain (g : Grid cell) : Prop :=
  forall width, g.edges ≠ [1, width]

theorem flattened_eq_self_iff {g : Grid cell} : g.flattened = g ↔ g.Plain := by
  constructor
  · intro h width hedges
    have hflat := congrArg Grid.edges h
    change flattenedEdges g.edges = g.edges at hflat
    rw [hedges] at hflat
    cases hflat
  · intro h
    rcases flattenedEdges_eq g.edges with hedges | ⟨width, hedges, _⟩
    · exact Grid.ext hedges rfl
    · exact absurd hedges (h width)

end Grid

namespace Clause

def Plain (clause : Clause) : Prop :=
  clause.lhs.Plain ∧ clause.rhs.Plain

theorem flattened_eq_self_iff {clause : Clause} : clause.flattened = clause ↔ clause.Plain := by
  rw [Plain, ← Grid.flattened_eq_self_iff, ← Grid.flattened_eq_self_iff]
  constructor
  · intro h
    exact ⟨congrArg Clause.lhs h, congrArg Clause.rhs h⟩
  · intro h
    rcases clause with ⟨lhs, rhs, size_eq⟩
    unfold flattened
    simp only [h.left, h.right]

end Clause

namespace Rule

mutual

/-- No composite rule has exactly one alternative, and all clauses are plain. -/
def Plain : Rule -> Prop
  | single clause => clause.Plain
  | composite rules => rules.length ≠ 1 ∧ PlainAll rules
  | limited _ rule => rule.Plain
  | sequential rules => PlainAll rules
  | markov rules => PlainAll rules

def PlainAll : List Rule -> Prop
  | [] => True
  | rule :: rules => rule.Plain ∧ PlainAll rules

end

theorem alternatives_of_length_ne {rules : List Rule} (h : rules.length ≠ 1) :
    alternatives rules = .composite rules := by
  unfold alternatives
  split
  · exact absurd rfl h
  · rfl

theorem canonical_ne_composite_singleton (inner : Rule) :
    (rule : Rule) -> rule.canonical ≠ .composite [inner]
  | single _ => by simp [canonical]
  | composite [] => by simp [canonical, canonicalAll, alternatives]
  | composite [rule] => by
      simp only [canonical, canonicalAll, alternatives]
      exact canonical_ne_composite_singleton inner rule
  | composite (_ :: _ :: _) => by simp [canonical, canonicalAll, alternatives]
  | limited _ _ => by simp [canonical]
  | sequential _ => by simp [canonical]
  | markov _ => by simp [canonical]

mutual

theorem canonical_eq_self_iff : (rule : Rule) -> (rule.canonical = rule ↔ rule.Plain)
  | single clause => by
      rw [canonical, single.injEq, Clause.flattened_eq_self_iff, Plain]
  | composite rules => by
      have hall := canonicalAll_eq_self_iff rules
      rw [canonical, Plain, ← hall]
      by_cases hone : rules.length = 1
      · rcases List.length_eq_one_iff.mp hone with ⟨rule, rfl⟩
        refine iff_of_false ?_ fun h => h.left hone
        exact canonical_ne_composite_singleton rule rule
      · have hlength : (canonicalAll rules).length ≠ 1 := by
          rwa [canonicalAll_eq_map, List.length_map]
        rw [alternatives_of_length_ne hlength, composite.injEq]
        exact ⟨fun h => ⟨hone, h⟩, And.right⟩
  | limited times rule => by
      have hrule := canonical_eq_self_iff rule
      simp only [canonical, limited.injEq, true_and, hrule, Plain]
  | sequential rules => by
      rw [canonical, sequential.injEq, canonicalAll_eq_self_iff rules, Plain]
  | markov rules => by
      rw [canonical, markov.injEq, canonicalAll_eq_self_iff rules, Plain]

theorem canonicalAll_eq_self_iff :
    (rules : List Rule) -> (canonicalAll rules = rules ↔ PlainAll rules)
  | [] => by simp [canonicalAll, PlainAll]
  | rule :: rules => by
      rw [canonicalAll, List.cons.injEq, canonical_eq_self_iff rule,
        canonicalAll_eq_self_iff rules, PlainAll]

end

end Rule

namespace RuleSet

def Plain (set : RuleSet) : Prop :=
  Rule.PlainAll set.rules

theorem canonical_eq_self_iff {set : RuleSet} : set.canonical = set ↔ set.Plain := by
  rw [Plain, ← Rule.canonicalAll_eq_self_iff, Rule.canonicalAll_eq_map]
  rcases set with ⟨rules⟩
  simp only [canonical, mk.injEq]

end RuleSet

/-!
# Reading what was written
-/

namespace RuleText

variable {table : SymbolTable}

theorem decode_of_encode (htable : Legible table) {set : RuleSet} {written : String}
    (hne : set.rules ≠ []) (h : encode table set = .ok written) :
    decode table written = .ok set.canonical := by
  rw [decode_eq_ok_iff_readLines, readLines_contentLines_iff]
  exact encode_sound htable hne h

/-- The empty rule set is written as the empty text, which is not valid. -/
theorem decodeOrEmpty_of_encode (htable : Legible table) {set : RuleSet} {written : String}
    (h : encode table set = .ok written) : decodeOrEmpty table written = set.canonical := by
  by_cases hne : set.rules = []
  · rcases set with ⟨rules⟩
    cases hne
    cases h
    rfl
  · rw [decodeOrEmpty, decode_of_encode htable hne h]

/-- Text that is written with the standard names denotes the canonical form of what was
written.  This is the rule set itself exactly if no composite rule in it has a single
alternative and no pattern in it is a single row on two axes. -/
theorem decodeOrEmpty_encode_eq_iff {set : RuleSet} {written : String}
    (h : encode SymbolTable.standard set = .ok written) :
    decodeOrEmpty SymbolTable.standard written = set.canonical ∧
      (decodeOrEmpty SymbolTable.standard written = set ↔ set.Plain) := by
  have hread := decodeOrEmpty_of_encode legible_standard h
  rw [hread]
  exact ⟨rfl, RuleSet.canonical_eq_self_iff⟩

/-!
## Rule sets that change

The first rule set has a composite rule with one alternative.  In the second one, the left
side of the clause is a single row on two axes.
-/

def lonely : RuleSet where
  rules := [.markov [.composite [RuleSet.repaint .black .white]]]

def rowOnTwoAxes : Grid Symbol where
  edges := [1, 2]
  cells := #[.black, .white]
  edges_ne_nil := by decide
  zero_not_mem := by decide
  size_eq := rfl
  addressable := by decide

theorem size_rowOnTwoAxes (first second : Symbol) :
    rowOnTwoAxes.size = (RuleSet.pair first second).size := rfl

def flatRules : RuleSet where
  rules :=
    [ .markov
        [ .single
            { lhs := rowOnTwoAxes
              rhs := RuleSet.pair .white .black
              size_eq := size_rowOnTwoAxes .white .black } ] ]

theorem decodeOrEmpty_encode_eq_iff_lonely :
    encode SymbolTable.standard lonely = .ok "?\nB > W" ∧
      decodeOrEmpty SymbolTable.standard "?\nB > W" =
        { rules := [.markov [RuleSet.repaint .black .white]] } ∧
      ¬ lonely.Plain := by
  have hwritten : encode SymbolTable.standard lonely = .ok "?\nB > W" := rfl
  rcases decodeOrEmpty_encode_eq_iff hwritten with ⟨hread, hplain⟩
  refine ⟨hwritten, hread, fun h => ?_⟩
  have hcontra := hread.symm.trans (hplain.mpr h)
  revert hcontra
  decide

/-- Both rule sets are written, and none of them is denoted by any text. -/
theorem exists_encode_not_decoded :
    encode SymbolTable.standard lonely = .ok "?\nB > W" ∧
      (forall text, decodeOrEmpty SymbolTable.standard text ≠ lonely) ∧
      encode SymbolTable.standard flatRules = .ok "?\nBW > WB" ∧
      forall text, decodeOrEmpty SymbolTable.standard text ≠ flatRules := by
  have hnone : forall set : RuleSet, set ≠ RuleSet.empty -> set.canonical ≠ set ->
      forall text, decodeOrEmpty SymbolTable.standard text ≠ set := by
    intro set hempty hcanonical text hread
    rw [decodeOrEmpty] at hread
    split at hread
    · rename_i decoded hdecode
      rw [decode_eq_ok_iff_readLines, readLines_contentLines_iff, hread] at hdecode
      exact hcanonical (exists_encode legible_standard.coherent hdecode).right.left
    · exact hempty hread.symm
  exact ⟨rfl, hnone lonely (by decide) (by decide), rfl, hnone flatRules (by decide) (by decide)⟩

end RuleText
end GridRules
