import GridRules.Proofs.CellCounts
import GridRules.Proofs.Grammar
import GridRules.RuleText.Reader

/-!
# What is read on a rule line

The reader takes a text apart with cuts and trims, and the grammar puts it
together.  Each reading function is compared with the relation of the grammar
that it decides, from the characters of a side up to the rule line.

## Main statements

A reading function gives a value exactly for the texts that denote it.  Line
numbers only reach the faults, so the comparison holds for every number.
-/

namespace GridRules
namespace RuleText

open Text (Trimmed Separated)
open Grammar

theorem bind_eq_ok_iff {fault first second : Type} {x : Except fault first}
    {next : first -> Except fault second} {result : second} :
    (x >>= next) = .ok result ↔ exists value, x = .ok value ∧ next value = .ok result := by
  cases x with
  | error => simp [bind, Except.bind]
  | ok value => simp [bind, Except.bind]

/-- A function that works through a list item by item succeeds exactly when it
succeeds on every item. -/
theorem traverse_eq_ok_iff {fault first second : Type} (one : first -> Except fault second)
    (all : List first -> Except fault (List second)) (hnil : all [] = .ok [])
    (hcons : forall x xs,
      all (x :: xs) = one x >>= fun y => all xs >>= fun ys => .ok (y :: ys))
    {xs : List first} {ys : List second} :
    all xs = .ok ys ↔ List.Forall₂ (fun x y => one x = .ok y) xs ys := by
  induction xs generalizing ys with
  | nil => simp [hnil, eq_comm]
  | cons x xs ih =>
      rw [List.forall₂_cons_left_iff, hcons]
      simp only [bind_eq_ok_iff, ih, Except.ok.injEq]
      constructor
      · intro h
        rcases h with ⟨y, hy, rest, hrest, heq⟩
        exact ⟨y, rest, hy, hrest, heq.symm⟩
      · intro h
        rcases h with ⟨y, rest, hy, hrest, heq⟩
        exact ⟨y, hy, rest, hrest, heq.symm⟩

section

variable {table : SymbolTable} {line : Nat}

/-!
# Sides and clauses
-/

theorem readSymbols_eq_ok_iff {cs : List Char} {symbols : List Symbol} :
    readSymbols table line cs = .ok symbols ↔ List.Forall₂ (Names table) cs symbols := by
  induction cs generalizing symbols with
  | nil => simp [readSymbols, eq_comm]
  | cons c cs ih =>
      rw [List.forall₂_cons_left_iff]
      unfold readSymbols
      cases hsymbol : table.symbolFor? c with
      | none => simp [Names, hsymbol]
      | some symbol =>
          simp only [bind_eq_ok_iff, ih, Except.ok.injEq]
          constructor
          · intro h
            rcases h with ⟨rest, hrest, heq⟩
            exact ⟨symbol, rest, hsymbol, hrest, heq.symm⟩
          · intro h
            rcases h with ⟨named, rest, hnamed, hrest, heq⟩
            cases hsymbol.symm.trans hnamed
            exact ⟨rest, hrest, heq.symm⟩

theorem Grammar.Stacked.edges_eq {width : Nat} {rows : List (List Char)}
    {pattern : Grid Symbol} (h : Stacked table width rows pattern) :
    pattern.edges = sideEdges rows.length width := by
  unfold sideEdges
  split
  · rename_i hone
    exact h.edges_of_one hone
  · rename_i hseveral
    exact h.edges_of_several hseveral

theorem Grammar.Stacked.of_edges {width : Nat} {rows : List (List Char)}
    {pattern : Grid Symbol} (hne : forall row, row ∈ rows -> row ≠ [])
    (hlength : forall row, row ∈ rows -> row.length = width)
    (hedges : pattern.edges = sideEdges rows.length width)
    (hnames : List.Forall₂ (Names table) rows.flatten pattern.cells.toList) :
    Stacked table width rows pattern where
  row_ne_nil := hne
  row_length := hlength
  edges_of_one := fun hone => hedges.trans (if_pos hone)
  edges_of_several := fun hseveral => hedges.trans (if_neg hseveral)
  names := hnames

theorem readSide_sound {text : List Char} {pattern : Grid Symbol}
    (h : readSide table line text = .ok pattern) : SideText table text pattern := by
  dsimp only [readSide] at h
  split at h
  · cases h
  · rename_i hempty
    split at h
    · cases h
    · rename_i hragged
      rcases bind_eq_ok_iff.mp h with ⟨symbols, hsymbols, hgrid⟩
      split at hgrid
      · rename_i built hbuilt
        cases hgrid
        rcases Grid.ofCells_eq_ok_iff.mp hbuilt with ⟨hedges, hcells⟩
        refine ⟨text.splitOn '^', sideRows text, ((sideRows text).headD []).length,
          Text.separated_splitOn '^' text, Text.map_trim_eq_iff.mp rfl, ?_⟩
        apply Stacked.of_edges
        · intro row hrow hnil
          exact hempty (List.any_eq_true.mpr ⟨row, hrow, by simp [hnil]⟩)
        · intro row hrow
          by_contra hne
          exact hragged (List.any_eq_true.mpr ⟨row, hrow, by simpa using hne⟩)
        · exact hedges
        · rw [hcells]
          exact readSymbols_eq_ok_iff.mp hsymbols
      · cases hgrid

theorem readSide_complete {text : List Char} {pattern : Grid Symbol}
    (h : SideText table text pattern) : readSide table line text = .ok pattern := by
  rcases h with ⟨pieces, rows, width, hpieces, hrows, hstacked⟩
  have hside : sideRows text = rows := by
    rw [sideRows, hpieces.splitOn_eq]
    exact Text.map_trim_eq_iff.mpr hrows
  have hwidth : (rows.headD []).length = width := by
    cases rows with
    | nil =>
        cases hrows
        cases hpieces
    | cons row rest => exact hstacked.row_length row List.mem_cons_self
  have hempty : ¬ rows.any List.isEmpty = true := by
    intro hany
    rcases List.any_eq_true.mp hany with ⟨row, hrow, hnil⟩
    exact hstacked.row_ne_nil row hrow (List.isEmpty_iff.mp hnil)
  have hragged : ¬ (rows.any fun row => row.length ≠ (rows.headD []).length) = true := by
    intro hany
    rcases List.any_eq_true.mp hany with ⟨row, hrow, hne⟩
    rw [hwidth, hstacked.row_length row hrow] at hne
    simp at hne
  have hgrid : Grid.ofCells pattern.cells.toList.toArray (sideEdges rows.length width) =
      .ok pattern :=
    Grid.ofCells_eq_ok_iff.mpr ⟨hstacked.edges_eq, rfl⟩
  dsimp only [readSide]
  rw [hside, if_neg hempty, if_neg hragged, bind_eq_ok_iff]
  refine ⟨pattern.cells.toList, readSymbols_eq_ok_iff.mpr hstacked.names, ?_⟩
  rw [hwidth, hgrid]

theorem readSide_eq_ok_iff {text : List Char} {pattern : Grid Symbol} :
    readSide table line text = .ok pattern ↔ SideText table text pattern :=
  ⟨readSide_sound, readSide_complete⟩

theorem length_flatten_of_width {width : Nat} {rows : List (List Char)}
    (h : forall row, row ∈ rows -> row.length = width) :
    rows.flatten.length = rows.length * width := by
  induction rows with
  | nil => simp
  | cons row rows ih =>
      have hrow := h row List.mem_cons_self
      have hrows := ih fun other hother => h other (List.mem_cons_of_mem row hother)
      rw [List.flatten_cons, List.length_append, hrow, hrows, List.length_cons, Nat.succ_mul,
        Nat.add_comm]

theorem exists_names_iff {cs : List Char} :
    (exists symbols, List.Forall₂ (Names table) cs symbols) ↔
      forall c, c ∈ cs -> exists symbol, Names table c symbol := by
  induction cs with
  | nil => simp
  | cons c cs ih =>
      simp only [List.forall₂_cons_left_iff, List.forall_mem_cons, ← ih]
      constructor
      · intro h
        rcases h with ⟨_, symbol, symbols, hsymbol, hsymbols, _⟩
        exact ⟨⟨symbol, hsymbol⟩, symbols, hsymbols⟩
      · intro h
        rcases h with ⟨⟨symbol, hsymbol⟩, symbols, hsymbols⟩
        exact ⟨_, symbol, symbols, hsymbol, hsymbols, rfl⟩

theorem exists_stacked {width : Nat} {rows : List (List Char)} (hne : rows ≠ [])
    (hrows : forall row, row ∈ rows -> row ≠ [] ∧ row.length = width)
    (hnames : forall c, c ∈ rows.flatten -> exists symbol, Names table c symbol)
    (haddress : rows.flatten.length < addressLimit) :
    exists pattern, Stacked table width rows pattern := by
  rcases exists_names_iff.mpr hnames with ⟨symbols, hsymbols⟩
  have hwidth : forall row, row ∈ rows -> row.length = width := fun row hrow =>
    (hrows row hrow).right
  have hcount : (sideEdges rows.length width).cellCount = rows.flatten.length := by
    rw [length_flatten_of_width hwidth]
    unfold sideEdges
    split
    · rename_i hone
      simp [hone]
    · simp
  have hpos : 0 ∉ sideEdges rows.length width := by
    rw [← Shape.cellCount_eq_zero_iff, hcount]
    intro hempty
    rcases List.exists_cons_of_ne_nil hne with ⟨row, rest, hcons⟩
    have hrow := (hrows row (by simp [hcons])).left
    simp [hcons, hrow] at hempty
  let pattern : Grid Symbol :=
    { edges := sideEdges rows.length width
      cells := symbols.toArray
      edges_ne_nil := by unfold sideEdges; split <;> exact List.cons_ne_nil _ _
      zero_not_mem := hpos
      size_eq := by rw [hcount, hsymbols.length_eq]; rfl
      addressable := hcount ▸ haddress }
  exact ⟨pattern, Stacked.of_edges (fun row hrow => (hrows row hrow).left) hwidth rfl hsymbols⟩

/-- On texts that fit into memory, a side has a meaning as soon as its rows are
non-empty, of one length and made of characters that the table names. -/
theorem exists_sideText_iff {text : List Char} (hlength : text.length < addressLimit) :
    (exists pattern, SideText table text pattern) ↔
      exists pieces rows width, Separated '^' pieces text ∧ List.Forall₂ Trimmed pieces rows ∧
        (forall row, row ∈ rows -> row ≠ [] ∧ row.length = width) ∧
        forall c, c ∈ rows.flatten -> exists symbol, Names table c symbol := by
  constructor
  · intro h
    rcases h with ⟨pattern, pieces, rows, width, hpieces, hrows, hstacked⟩
    refine ⟨pieces, rows, width, hpieces, hrows, ?_, ?_⟩
    · intro row hrow
      exact ⟨hstacked.row_ne_nil row hrow, hstacked.row_length row hrow⟩
    · exact exists_names_iff.mp ⟨_, hstacked.names⟩
  · intro h
    rcases h with ⟨pieces, rows, width, hpieces, hrows, hfit, hnames⟩
    have hne : rows ≠ [] := by
      intro hnil
      rw [hnil, List.forall₂_nil_right_iff] at hrows
      rw [hrows] at hpieces
      cases hpieces
    have haddress : rows.flatten.length < addressLimit :=
      calc rows.flatten.length
          ≤ pieces.flatten.length := Text.length_flatten_le_of_trimmed hrows
        _ ≤ text.length := hpieces.length_flatten_le
        _ < addressLimit := hlength
    rcases exists_stacked hne hfit hnames haddress with ⟨pattern, hstacked⟩
    exact ⟨pattern, pieces, rows, width, hpieces, hrows, hstacked⟩

theorem ofSides_eq_ok_iff {lhs rhs : Grid Symbol} {clause : Clause} :
    Clause.ofSides line lhs rhs = .ok clause ↔ clause.lhs = lhs ∧ clause.rhs = rhs := by
  unfold Clause.ofSides
  constructor
  · intro h
    split at h
    · cases h
      exact ⟨rfl, rfl⟩
    · cases h
  · intro h
    rcases h with ⟨hlhs, hrhs⟩
    subst hlhs hrhs
    rw [dif_pos clause.size_eq]

theorem readClause_eq_ok_iff {text : List Char} {clause : Clause} :
    readClause table line text = .ok clause ↔ ClauseText table text clause := by
  unfold readClause
  constructor
  · intro h
    split at h
    · rename_i left right hsides
      simp only [bind_eq_ok_iff, readSide_eq_ok_iff, ofSides_eq_ok_iff] at h
      rcases h with ⟨lhs, hleft, rhs, hright, hlhs, hrhs⟩
      subst hlhs hrhs
      exact ⟨left, right, Text.splitOn_eq_iff.mp hsides, hleft, hright⟩
    · cases h
  · intro h
    rcases h with ⟨left, right, hsides, hleft, hright⟩
    rw [hsides.splitOn_eq]
    simp only [bind_eq_ok_iff, readSide_eq_ok_iff, ofSides_eq_ok_iff]
    exact ⟨clause.lhs, hleft, clause.rhs, hright, rfl, rfl⟩

theorem readClauses_eq_ok_iff {texts : List (List Char)} {clauses : List Clause} :
    readClauses table line texts = .ok clauses ↔
      List.Forall₂ (ClauseText table) texts clauses := by
  rw [traverse_eq_ok_iff (readClause table line) (readClauses table line) rfl fun _ _ => rfl]
  simp only [readClause_eq_ok_iff]

/-!
# Rule lines
-/

theorem choiceText_iff {text : List Char} {rule : Rule} :
    ChoiceText table text rule ↔
      exists clauses, List.Forall₂ (ClauseText table) (text.splitOn '|') clauses ∧
        choice clauses = rule := by
  constructor
  · intro h
    cases h with
    | one hbar hclause =>
        rw [List.splitOn_eq_singleton hbar]
        exact ⟨[_], List.Forall₂.cons hclause List.Forall₂.nil, rfl⟩
    | several hpieces hseveral hclauses =>
        rw [hpieces.splitOn_eq]
        refine ⟨_, hclauses, ?_⟩
        rw [hclauses.length_eq] at hseveral
        unfold choice
        split
        · exact absurd hseveral (Nat.lt_irrefl 1)
        · rfl
  · intro h
    rcases h with ⟨clauses, hclauses, hrule⟩
    have hpieces := Text.separated_splitOn '|' text
    subst hrule
    unfold choice
    split
    · rename_i clause
      rw [List.forall₂_cons_right_iff] at hclauses
      rcases hclauses with ⟨piece, rest, hclause, hrest, hsplit⟩
      rw [List.forall₂_nil_right_iff.mp hrest] at hsplit
      rw [hsplit, Text.Separated.singleton_iff] at hpieces
      rw [← hpieces.left] at hclause
      exact ChoiceText.one (hpieces.left ▸ hpieces.right) hclause
    · rename_i hmany
      refine ChoiceText.several hpieces ?_ hclauses
      rw [hclauses.length_eq]
      match clauses with
      | [] => exact absurd (List.forall₂_nil_right_iff.mp hclauses) (List.splitOn_ne_nil '|' text)
      | [clause] => exact absurd rfl (hmany clause)
      | _ :: _ :: _ => simp

theorem digits?_eq_some_iff {cs : List Char} {value : Nat} :
    Text.digits? cs = some value ↔
      cs ≠ [] ∧ (forall c, c ∈ cs -> c.isDigit) ∧ Nat.ofDigitChars 10 cs 0 = value := by
  simp [Text.digits?, and_assoc]

theorem countText_iff {text : List Char} {times : UInt32} :
    CountText text times ↔ Text.unsigned? (Text.trim text) = some times.toNat := by
  constructor
  · intro h
    cases h with
    | plain htext hne hdigits hvalue =>
        rename_i digits
        rw [htext.trim_eq]
        unfold Text.unsigned?
        split
        · rename_i rest
          have hplus : ('+').isDigit = true := hdigits '+' List.mem_cons_self
          exact absurd hplus (by decide)
        · exact digits?_eq_some_iff.mpr ⟨hne, hdigits, hvalue⟩
    | signed htext hne hdigits hvalue =>
        rw [htext.trim_eq]
        exact digits?_eq_some_iff.mpr ⟨hne, hdigits, hvalue⟩
  · intro h
    have htext := Text.trimmed_trim text
    unfold Text.unsigned? at h
    split at h
    · rename_i rest heq
      rcases digits?_eq_some_iff.mp h with ⟨hne, hdigits, hvalue⟩
      rw [heq] at htext
      exact CountText.signed htext hne hdigits hvalue
    · rcases digits?_eq_some_iff.mp h with ⟨hne, hdigits, hvalue⟩
      exact CountText.plain htext hne hdigits hvalue

theorem readTimes_eq_ok_iff {text : List Char} {times : UInt32} :
    readTimes line (Text.trim text) = .ok times ↔ CountText text times := by
  rw [countText_iff]
  unfold readTimes
  cases hvalue : Text.unsigned? (Text.trim text) with
  | none => simp
  | some value =>
      simp only [Option.some.injEq]
      constructor
      · intro h
        split at h
        · rename_i hlt
          cases h
          exact (UInt32.toNat_ofNat_of_lt' hlt).symm
        · cases h
      · intro h
        subst h
        rw [if_pos times.toNat_lt_size, UInt32.ofNat_toNat]

theorem splitRepeat_eq_none_iff {text body : List Char} :
    splitRepeat line text = .ok (body, none) ↔ text = body ∧ '*' ∉ body := by
  rw [← Text.Separated.singleton_iff, ← Text.splitOn_eq_iff]
  unfold splitRepeat
  split <;> simp_all

theorem splitRepeat_eq_some_iff {text body count : List Char} :
    splitRepeat line text = .ok (body, some count) ↔
      exists raw, text.splitOn '*' = [body, raw] ∧ Text.trim raw = count := by
  unfold splitRepeat
  split <;> simp_all

theorem readRule_eq_ok_iff {text : List Char} {rule : Rule} :
    readRule table line text = .ok rule ↔ RuleLine table text rule := by
  unfold readRule
  simp only [bind_eq_ok_iff, readClauses_eq_ok_iff]
  constructor
  · intro h
    rcases h with ⟨⟨body, repeated⟩, hparts, clauses, hclauses, hrule⟩
    cases repeated with
    | none =>
        rcases splitRepeat_eq_none_iff.mp hparts with ⟨htext, hstar⟩
        rw [htext]
        exact RuleLine.plain hstar
          (choiceText_iff.mpr ⟨clauses, hclauses, Except.ok.inj hrule⟩)
    | some count =>
        rcases splitRepeat_eq_some_iff.mp hparts with ⟨raw, hsplit, htrim⟩
        rcases bind_eq_ok_iff.mp hrule with ⟨times, htimes, hlimited⟩
        rw [← htrim] at htimes
        cases hlimited
        rcases Text.Separated.pair_iff.mp (Text.splitOn_eq_iff.mp hsplit) with
          ⟨htext, hbody, hcount⟩
        rw [htext]
        exact RuleLine.limited hbody hcount (choiceText_iff.mpr ⟨clauses, hclauses, rfl⟩)
          (readTimes_eq_ok_iff.mp htimes)
  · intro h
    cases h with
    | plain hstar hchoice =>
        rcases choiceText_iff.mp hchoice with ⟨clauses, hclauses, hrule⟩
        refine ⟨(text, none), splitRepeat_eq_none_iff.mpr ⟨rfl, hstar⟩, clauses, hclauses, ?_⟩
        rw [← hrule]
    | limited hbody hcount hchoice htimes =>
        rename_i body count rule times
        rcases choiceText_iff.mp hchoice with ⟨clauses, hclauses, hrule⟩
        have hsplit : (body ++ '*' :: count).splitOn '*' = [body, count] :=
          (Text.Separated.pair_iff.mpr ⟨rfl, hbody, hcount⟩).splitOn_eq
        refine ⟨(body, some (Text.trim count)),
          splitRepeat_eq_some_iff.mpr ⟨count, hsplit, rfl⟩, clauses, hclauses, ?_⟩
        refine bind_eq_ok_iff.mpr ⟨times, readTimes_eq_ok_iff.mpr htimes, ?_⟩
        rw [hrule]

end

end RuleText
end GridRules
