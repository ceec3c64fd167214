import GridRules.Proofs.Documents

/-!
# The first fault of a text

The reader works through the lines and stops at the first one that it cannot use.  What it
has read by then is a relation between the lines so far and the open block, with one rule for
a marker and one for a rule line.  An empty block is the exception: it is noticed at the next
marker or at the end, and named by its own marker.

## Main statements

A text without blocks has only blank lines.  Any other invalid text has a first line at fault,
which the fault names: all lines before it are in order, and the line itself decides the
fault.  Unless the fault is an empty block, nothing after this line matters.
-/

namespace GridRules

namespace RuleFault

def ruleLine? : RuleFault -> Option Nat
  | arrowCount line _ => some line
  | repeatCount line => some line
  | invalidRepeat line _ => some line
  | emptySide line => some line
  | raggedSide line => some line
  | unknownSymbol line _ => some line
  | cellCountMismatch line _ _ => some line
  | _ => none

def line? : RuleFault -> Option Nat
  | unknownBlockMarker line _ => some line
  | missingBlockMarker line => some line
  | emptyBlock line => some line
  | fault => fault.ruleLine?

theorem line?_of_ruleLine? {fault : RuleFault} {line : Nat} (h : fault.ruleLine? = some line) :
    fault.line? = some line := by
  cases fault <;> first | exact h | cases h

theorem ne_emptyBlock_of_ruleLine? {fault : RuleFault} {line number : Nat}
    (h : fault.ruleLine? = some line) : fault ≠ .emptyBlock number := by
  rintro rfl
  cases h

end RuleFault

namespace RuleText

open Grammar

theorem bind_eq_error_iff {fault first second : Type} {x : Except fault first}
    {next : first -> Except fault second} {reason : fault} :
    (x >>= next) = .error reason ↔
      x = .error reason ∨ exists value, x = .ok value ∧ next value = .error reason := by
  cases x with
  | error => simp [bind, Except.bind]
  | ok value => simp [bind, Except.bind]

section

variable {table : SymbolTable} {line : Nat} {text : List Char} {fault : RuleFault}

/-!
# Faults of a rule line

Whatever is wrong on a rule line is reported with the number of this line.
-/

theorem ruleLine?_readSymbols {cs : List Char} (h : readSymbols table line cs = .error fault) :
    fault.ruleLine? = some line := by
  induction cs with
  | nil => cases h
  | cons c cs ih =>
      unfold readSymbols at h
      split at h
      · cases h
        rfl
      · rcases bind_eq_error_iff.mp h with hrest | ⟨_, _, hok⟩
        · exact ih hrest
        · cases hok

theorem ruleLine?_readSide (h : readSide table line text = .error fault) :
    fault.ruleLine? = some line := by
  unfold readSide at h
  simp only at h
  split at h
  · cases h
    rfl
  · split at h
    · cases h
      rfl
    · rcases bind_eq_error_iff.mp h with hsymbols | ⟨symbols, _, hgrid⟩
      · exact ruleLine?_readSymbols hsymbols
      · split at hgrid
        · cases hgrid
        · cases hgrid
          rfl

theorem ruleLine?_readClause (h : readClause table line text = .error fault) :
    fault.ruleLine? = some line := by
  unfold readClause at h
  split at h
  · rcases bind_eq_error_iff.mp h with hleft | ⟨lhs, _, h⟩
    · exact ruleLine?_readSide hleft
    · rcases bind_eq_error_iff.mp h with hright | ⟨rhs, _, hsides⟩
      · exact ruleLine?_readSide hright
      · unfold Clause.ofSides at hsides
        split at hsides
        · cases hsides
        · cases hsides
          rfl
  · cases h
    rfl

theorem ruleLine?_readClauses {texts : List (List Char)}
    (h : readClauses table line texts = .error fault) : fault.ruleLine? = some line := by
  induction texts with
  | nil => cases h
  | cons text texts ih =>
      rcases bind_eq_error_iff.mp h with hclause | ⟨clause, _, h⟩
      · exact ruleLine?_readClause hclause
      · rcases bind_eq_error_iff.mp h with hrest | ⟨clauses, _, hok⟩
        · exact ih hrest
        · cases hok

theorem ruleLine?_readRule (h : readRule table line text = .error fault) :
    fault.ruleLine? = some line := by
  unfold readRule at h
  rcases bind_eq_error_iff.mp h with hparts | ⟨parts, _, h⟩
  · unfold splitRepeat at hparts
    split at hparts <;> cases hparts
    rfl
  · rcases bind_eq_error_iff.mp h with hclauses | ⟨clauses, _, h⟩
    · exact ruleLine?_readClauses hclauses
    · split at h
      · cases h
      · rcases bind_eq_error_iff.mp h with htimes | ⟨times, _, hok⟩
        · unfold readTimes at htimes
          split at htimes
          · cases htimes
            rfl
          · split at htimes <;> cases htimes
            rfl
        · cases hok

end

/-!
# Reading up to a line
-/

section

variable {table : SymbolTable} {before rest : List (Nat × List Char)}
  {opened : Option PartialBlock} {block : PartialBlock} {number : Nat} {content : List Char}
  {fault : RuleFault}

def Settled (opened : Option PartialBlock) : Prop :=
  forall block, opened = some block -> block.rules ≠ []

/-- Numbered lines that are read without a fault leave this block open. -/
inductive Reads (table : SymbolTable) : List (Nat × List Char) -> Option PartialBlock -> Prop where
  | start : Reads table [] none
  | marker {before : List (Nat × List Char)} {opened : Option PartialBlock} (kind : BlockKind)
      (number : Nat) (h : Reads table before opened) (hsettled : Settled opened) :
      Reads table (before ++ [(number, [kind.marker])])
        (some { kind := kind, line := number, rules := [] })
  | rule {before : List (Nat × List Char)} {block : PartialBlock} {number : Nat}
      {content : List Char} {rule : Rule} (h : Reads table before (some block))
      (hcontent : Unmarked content) (hrule : readRule table number content = .ok rule) :
      Reads table (before ++ [(number, content)]) (some (block.add rule))

/-- A line that cannot be used while this block is open. -/
inductive Refuses (table : SymbolTable) (number : Nat) (content : List Char) :
    Option PartialBlock -> RuleFault -> Prop where
  | marker {opened : Option PartialBlock}
      (hkind : forall kind, content ≠ [BlockKind.marker kind])
      (hcontent : ¬ Unmarked content) :
      Refuses table number content opened (.unknownBlockMarker number content)
  | missing (hcontent : Unmarked content) :
      Refuses table number content none (.missingBlockMarker number)
  | rule {block : PartialBlock} {fault : RuleFault} (hcontent : Unmarked content)
      (hfault : readRule table number content = .error fault) :
      Refuses table number content (some block) fault

/-- A line at fault, with what is read before it.  A marker is at fault if another marker or
the end comes next. -/
inductive FirstFault (table : SymbolTable) : List (Nat × List Char) -> RuleFault -> Prop where
  | document : FirstFault table [] .emptyDocument
  | block {before rest : List (Nat × List Char)} {opened : Option PartialBlock}
      {kind : BlockKind} {number : Nat} (h : Reads table before opened)
      (hsettled : Settled opened)
      (hrest : forall entry, rest.head? = some entry ->
        exists kind, entry.2 = [BlockKind.marker kind]) :
      FirstFault table (before ++ (number, [kind.marker]) :: rest) (.emptyBlock number)
  | line {before rest : List (Nat × List Char)} {opened : Option PartialBlock} {number : Nat}
      {content : List Char} {fault : RuleFault} (h : Reads table before opened)
      (hrefuses : Refuses table number content opened fault) :
      FirstFault table (before ++ (number, content) :: rest) fault

theorem Reads.eq_nil (h : Reads table before none) : before = [] := by
  cases h
  rfl

theorem settled_none : Settled none := by
  intro block heq
  cases heq

theorem settled_some (h : block.rules ≠ []) : Settled (some block) := by
  intro other heq
  cases heq
  exact h

theorem close_eq_error_iff :
    block.close = .error fault ↔ block.rules = [] ∧ fault = .emptyBlock block.line := by
  unfold PartialBlock.close
  cases hrules : block.rules with
  | nil => simp [eq_comm]
  | cons first rest => simp

/-!
# One line
-/

theorem line_cases (content : List Char) :
    (exists kind, content = [BlockKind.marker kind]) ∨
      ((forall kind, content ≠ [BlockKind.marker kind]) ∧ ¬ Unmarked content) ∨
        Unmarked content := by
  by_cases hkind : exists kind, content = [BlockKind.marker kind]
  · exact Or.inl hkind
  · rw [not_exists] at hkind
    by_cases hcontent : Unmarked content
    · exact Or.inr (Or.inr hcontent)
    · exact Or.inr (Or.inl ⟨hkind, hcontent⟩)

theorem ofLine?_eq_none_iff :
    BlockKind.ofLine? content = none ↔ forall kind, content ≠ [BlockKind.marker kind] := by
  rw [Option.eq_none_iff_forall_ne_some]
  exact forall_congr' fun kind => not_congr ofLine?_eq_some_iff

theorem ne_marker_of_unmarked (h : Unmarked content) (kind : BlockKind) :
    content ≠ [kind.marker] := by
  rintro rfl
  exact not_unmarked_marker kind h

theorem startsLikeMarker_eq_true_iff : startsLikeMarker content = true ↔ ¬ Unmarked content := by
  rw [← startsLikeMarker_eq_false_iff, Bool.not_eq_false]

theorem readBlocks_marker (kind : BlockKind) :
    readBlocks table block ((number, [kind.marker]) :: rest) =
      block.close >>= fun rule =>
        readBlocks table { kind := kind, line := number, rules := [] } rest >>= fun rules =>
          .ok (rule :: rules) := by
  rw [readBlocks, ofLine?_eq_some_iff.mpr rfl]

theorem readBlocks_marked (hkind : forall kind, content ≠ [BlockKind.marker kind])
    (hcontent : ¬ Unmarked content) :
    readBlocks table block ((number, content) :: rest) =
      .error (.unknownBlockMarker number content) := by
  rw [readBlocks, ofLine?_eq_none_iff.mpr hkind]
  exact if_pos (startsLikeMarker_eq_true_iff.mpr hcontent)

theorem readBlocks_unmarked (hcontent : Unmarked content) :
    readBlocks table block ((number, content) :: rest) =
      readRule table number content >>= fun rule => readBlocks table (block.add rule) rest := by
  rw [readBlocks, ofLine?_eq_none_iff.mpr (ne_marker_of_unmarked hcontent)]
  exact if_neg fun hmarked => startsLikeMarker_eq_true_iff.mp hmarked hcontent

theorem readLines_marker (kind : BlockKind) :
    readLines table ((number, [kind.marker]) :: rest) =
      readBlocks table { kind := kind, line := number, rules := [] } rest := by
  rw [readLines, ofLine?_eq_some_iff.mpr rfl]

theorem readLines_marked (hkind : forall kind, content ≠ [BlockKind.marker kind])
    (hcontent : ¬ Unmarked content) :
    readLines table ((number, content) :: rest) =
      .error (.unknownBlockMarker number content) := by
  rw [readLines, ofLine?_eq_none_iff.mpr hkind]
  exact if_pos (startsLikeMarker_eq_true_iff.mpr hcontent)

theorem readLines_unmarked (hcontent : Unmarked content) :
    readLines table ((number, content) :: rest) = .error (.missingBlockMarker number) := by
  rw [readLines, ofLine?_eq_none_iff.mpr (ne_marker_of_unmarked hcontent)]
  exact if_neg fun hmarked => startsLikeMarker_eq_true_iff.mp hmarked hcontent

/-!
# Where the reader fails
-/

theorem Reads.firstFault_of_rules_eq_nil (h : Reads table before (some block))
    (hrules : block.rules = [])
    (hrest : forall entry, rest.head? = some entry ->
      exists kind, entry.2 = [BlockKind.marker kind]) :
    FirstFault table (before ++ rest) (.emptyBlock block.line) := by
  cases h with
  | marker kind number h hsettled =>
      rw [List.append_assoc]
      exact FirstFault.block h hsettled hrest
  | rule h hcontent hrule => simp [PartialBlock.add] at hrules

/-- The reader fails at the first line at fault.  The induction goes over the lines still to
come, and each line that is read moves to the lines before. -/
theorem Reads.firstFault (h : Reads table before (some block))
    (hfault : readBlocks table block rest = .error fault) :
    FirstFault table (before ++ rest) fault := by
  induction rest generalizing before block with
  | nil =>
      rcases bind_eq_error_iff.mp hfault with hclose | ⟨_, _, hok⟩
      · rcases close_eq_error_iff.mp hclose with ⟨hrules, rfl⟩
        exact h.firstFault_of_rules_eq_nil hrules fun _ hentry => by cases hentry
      · cases hok
  | cons entry rest ih =>
      rcases entry with ⟨number, content⟩
      rcases line_cases content with ⟨kind, rfl⟩ | ⟨hkind, hcontent⟩ | hcontent
      · rw [readBlocks_marker] at hfault
        rcases bind_eq_error_iff.mp hfault with hclose | ⟨rule, hclose, hfault⟩
        · rcases close_eq_error_iff.mp hclose with ⟨hrules, rfl⟩
          exact h.firstFault_of_rules_eq_nil hrules fun _ hentry => by
            cases hentry
            exact ⟨kind, rfl⟩
        · rcases bind_eq_error_iff.mp hfault with hrest | ⟨_, _, hok⟩
          · have hsettled := settled_some (close_eq_ok_iff.mp hclose).left
            have hfirst := ih (Reads.marker kind number h hsettled) hrest
            rwa [List.append_assoc] at hfirst
          · cases hok
      · rw [readBlocks_marked hkind hcontent] at hfault
        cases hfault
        exact FirstFault.line h (Refuses.marker hkind hcontent)
      · rw [readBlocks_unmarked hcontent] at hfault
        rcases bind_eq_error_iff.mp hfault with hrule | ⟨rule, hrule, hrest⟩
        · exact FirstFault.line h (Refuses.rule hcontent hrule)
        · have hfirst := ih (Reads.rule h hcontent hrule) hrest
          rwa [List.append_assoc] at hfirst

theorem firstFault_of_readLines (h : readLines table rest = .error fault) :
    FirstFault table rest fault := by
  cases rest with
  | nil =>
      cases h
      exact FirstFault.document
  | cons entry rest =>
      rcases entry with ⟨number, content⟩
      have hstart : Reads table [] none := Reads.start
      rcases line_cases content with ⟨kind, rfl⟩ | ⟨hkind, hcontent⟩ | hcontent
      · rw [readLines_marker] at h
        exact (Reads.marker kind number hstart settled_none).firstFault h
      · rw [readLines_marked hkind hcontent] at h
        cases h
        exact FirstFault.line hstart (Refuses.marker hkind hcontent)
      · rw [readLines_unmarked hcontent] at h
        cases h
        exact FirstFault.line hstart (Refuses.missing hcontent)

theorem Reads.readLines_eq_error (h : Reads table before (some block))
    (hfault : readBlocks table block rest = .error fault) :
    readLines table (before ++ rest) = .error fault := by
  generalize hopened : some block = opened at h
  induction h generalizing block rest with
  | start => cases hopened
  | marker kind number h hsettled ih =>
      rename_i before opened
      cases hopened
      rw [List.append_assoc, List.singleton_append]
      cases opened with
      | none =>
          rw [h.eq_nil, List.nil_append, readLines_marker]
          exact hfault
      | some block =>
          have hclose := close_eq_ok_iff.mpr ⟨hsettled block rfl, rfl⟩
          refine ih ?_ rfl
          rw [readBlocks_marker]
          exact bind_eq_error_iff.mpr
            (Or.inr ⟨_, hclose, bind_eq_error_iff.mpr (Or.inl hfault)⟩)
  | rule h hcontent hrule ih =>
      cases hopened
      rw [List.append_assoc, List.singleton_append]
      refine ih ?_ rfl
      rw [readBlocks_unmarked hcontent]
      exact bind_eq_error_iff.mpr (Or.inr ⟨_, hrule, hfault⟩)

theorem Refuses.readLines_eq_error (hrefuses : Refuses table number content opened fault)
    (h : Reads table before opened) (rest : List (Nat × List Char)) :
    readLines table (before ++ (number, content) :: rest) = .error fault := by
  cases hrefuses with
  | marker hkind hcontent =>
      cases opened with
      | none =>
          rw [h.eq_nil, List.nil_append, readLines_marked hkind hcontent]
      | some block => exact h.readLines_eq_error (readBlocks_marked hkind hcontent)
  | missing hcontent => rw [h.eq_nil, List.nil_append, readLines_unmarked hcontent]
  | rule hcontent hfault =>
      refine h.readLines_eq_error ?_
      rw [readBlocks_unmarked hcontent]
      exact bind_eq_error_iff.mpr (Or.inl hfault)

end

end RuleText
end GridRules
