import Mathlib.Data.List.Sort
import GridRules.Proofs.FirstFaults

/-!
# Line numbers of faults

The reader skips blank lines but counts them.  The lines that it works on come in the order
of their numbers, so a place among them is the same as a line number.

## Main statements

A fault of a text names the first line that is at fault.  Whether a line is at fault depends
on the lines before it, except that a marker is at fault because of what comes next.
-/

namespace GridRules
namespace RuleText

open Grammar
open MaskEntries (Ascending)

/-!
# Numbered lines
-/

def ContentAt (lines : List (List Char)) (number : Nat) (content : List Char) : Prop :=
  exists index line, number = index + 1 ∧ lines[index]? = some line ∧
    Text.Trimmed line content ∧ content ≠ []

def ContentBefore (lines : List (List Char)) (number earlier : Nat) (content : List Char) :
    Prop :=
  earlier < number ∧ ContentAt lines earlier content

section

variable {text : List Char} {lines : List (List Char)}
  {entries before after : List (Nat × List Char)} {number : Nat} {content : List Char}

theorem ascending_contentLines (text : List Char) : Ascending (contentLines text) := by
  refine List.Pairwise.filter _ (List.pairwise_map.mpr ?_)
  rw [← List.pairwise_map (f := Prod.snd) (R := (· < ·)), List.zipIdx_map_snd]
  exact List.pairwise_lt_range'

theorem mem_contentLines_iff (hlines : Lines text lines) :
    (number, content) ∈ contentLines text ↔ ContentAt lines number content := by
  have hcontent : forall index : Nat, (exists piece, (text.splitOn '\n')[index]? = some piece ∧
      Text.trim piece = content) ↔ exists line, lines[index]? = some line ∧
        Text.Trimmed line content := by
    intro index
    simp only [← Text.trim_eq_iff, ← Option.map_eq_some_iff, ← List.getElem?_map,
      lines_trim_eq hlines]
  rw [contentLines, List.mem_filter, List.mem_map]
  constructor
  · rintro ⟨⟨⟨piece, position⟩, hpiece, heq⟩, hne⟩
    rcases List.mem_zipIdx_iff_le_and_getElem?_sub.mp hpiece with ⟨hle, hget⟩
    cases heq
    rcases (hcontent _).mp ⟨piece, hget, rfl⟩ with ⟨line, hline, htrimmed⟩
    exact ⟨position - 1, line, (Nat.sub_add_cancel hle).symm, hline, htrimmed, by simpa using hne⟩
  · rintro ⟨index, line, rfl, hline, htrimmed, hne⟩
    rcases (hcontent index).mpr ⟨line, hline, htrimmed⟩ with ⟨piece, hget, rfl⟩
    refine ⟨⟨(piece, index + 1), ?_, rfl⟩, by simpa using hne⟩
    exact List.mem_zipIdx_iff_le_and_getElem?_sub.mpr ⟨Nat.le_add_left 1 index, hget⟩

theorem contentAt_unique {other : List Char} (h : ContentAt lines number content)
    (hother : ContentAt lines number other) : other = content := by
  rcases h with ⟨index, line, rfl, hline, hcontent, _⟩
  rcases hother with ⟨index', line', hindex, hline', hother, _⟩
  cases Nat.succ.inj hindex
  cases hline.symm.trans hline'
  rw [← hcontent.trim_eq, hother.trim_eq]

theorem ext_of_ascending {others : List (Nat × List Char)} (h : Ascending entries)
    (hothers : Ascending others) (hmem : forall entry, entry ∈ entries ↔ entry ∈ others) :
    entries = others := by
  have hirrefl : Std.Irrefl fun entry later : Nat × List Char => entry.1 < later.1 :=
    ⟨fun entry => Nat.lt_irrefl entry.1⟩
  have hantisymm : Std.Antisymm fun entry later : Nat × List Char => entry.1 < later.1 :=
    ⟨fun _ _ hlt hgt => absurd hlt (Nat.lt_asymm hgt)⟩
  exact List.Pairwise.eq_of_mem_iff h hothers hmem

theorem ascending_append_cons_iff :
    Ascending (before ++ (number, content) :: after) ↔
      Ascending before ∧ Ascending after ∧ (forall entry, entry ∈ before -> entry.1 < number) ∧
        forall entry, entry ∈ after -> number < entry.1 := by
  unfold Ascending
  rw [List.pairwise_append, List.pairwise_cons]
  constructor
  · rintro ⟨hbefore, ⟨hhead, hafter⟩, hcross⟩
    exact ⟨hbefore, hafter, fun entry hentry => hcross entry hentry _ List.mem_cons_self, hhead⟩
  · rintro ⟨hbefore, hafter, hless, hmore⟩
    refine ⟨hbefore, ⟨hmore, hafter⟩, fun entry hentry later hlater => ?_⟩
    rcases List.mem_cons.mp hlater with rfl | hlater
    · exact hless entry hentry
    · exact Nat.lt_trans (hless entry hentry) (hmore later hlater)

theorem ascending_of_split (hsplit : contentLines text = before ++ (number, content) :: after) :
    Ascending before ∧ Ascending after ∧ (forall entry, entry ∈ before -> entry.1 < number) ∧
      forall entry, entry ∈ after -> number < entry.1 := by
  rw [← ascending_append_cons_iff, ← hsplit]
  exact ascending_contentLines text

section Split

variable (hlines : Lines text lines)
  (hsplit : contentLines text = before ++ (number, content) :: after)

include hlines hsplit

theorem contentAt_of_split : ContentAt lines number content := by
  rw [← mem_contentLines_iff hlines, hsplit]
  exact List.mem_append_right before List.mem_cons_self

theorem mem_before_iff {earlier : Nat} {other : List Char} :
    (earlier, other) ∈ before ↔ ContentBefore lines number earlier other := by
  rcases ascending_of_split hsplit with ⟨_, _, hless, hmore⟩
  rw [ContentBefore, ← mem_contentLines_iff hlines, hsplit, List.mem_append, List.mem_cons]
  constructor
  · intro h
    exact ⟨hless _ h, Or.inl h⟩
  · rintro ⟨hlt, h | h | h⟩
    · exact h
    · cases h
      exact absurd hlt (Nat.lt_irrefl number)
    · exact absurd hlt (Nat.lt_asymm (hmore _ h))

theorem mem_after_iff {later : Nat} {other : List Char} :
    (later, other) ∈ after ↔ number < later ∧ ContentAt lines later other := by
  rcases ascending_of_split hsplit with ⟨_, _, hless, hmore⟩
  rw [← mem_contentLines_iff hlines, hsplit, List.mem_append, List.mem_cons]
  constructor
  · intro h
    exact ⟨hmore _ h, Or.inr (Or.inr h)⟩
  · rintro ⟨hlt, h | h | h⟩
    · exact absurd hlt (Nat.lt_asymm (hless _ h))
    · cases h
      exact absurd hlt (Nat.lt_irrefl number)
    · exact h

theorem exists_split_of_take_eq {other : List Char} {others : List (List Char)}
    (hothers : Lines other others) (htake : others.take number = lines.take number) :
    exists later, contentLines other = before ++ (number, content) :: later := by
  have hascending := ascending_contentLines other
  rcases ascending_of_split hsplit with ⟨hbefore, _, hless, _⟩
  have hagree : forall earlier content, earlier ≤ number ->
      (ContentAt others earlier content ↔ ContentAt lines earlier content) := by
    intro earlier content hle
    refine exists_congr fun index => exists_congr fun line => and_congr_right fun heq => ?_
    have hlt : index < number := by omega
    rw [← List.getElem?_take_of_lt hlt, htake, List.getElem?_take_of_lt hlt]
  let later := (contentLines other).filter fun entry => number < entry.1
  refine ⟨later, ext_of_ascending hascending (ascending_append_cons_iff.mpr ?_) ?_⟩
  · exact ⟨hbefore, hascending.filter _, hless, by simp [later]⟩
  · rintro ⟨position, found⟩
    have hhere := contentAt_of_split hlines hsplit
    rw [List.mem_append, List.mem_cons, mem_before_iff hlines hsplit, List.mem_filter,
      mem_contentLines_iff hothers, ContentBefore, Prod.mk.injEq, decide_eq_true_iff]
    rcases Nat.lt_trichotomy position number with hlt | rfl | hgt
    · have hne := Nat.ne_of_lt hlt
      have hnot := Nat.lt_asymm hlt
      simp [hlt, hne, hnot, hagree position found (Nat.le_of_lt hlt)]
    · rw [hagree position found (Nat.le_refl position)]
      have hsame : ContentAt lines position found ↔ found = content :=
        ⟨contentAt_unique hhere, fun heq => heq ▸ hhere⟩
      simp [hsame]
    · have hne := Nat.ne_of_gt hgt
      have hnot := Nat.lt_asymm hgt
      simp [hgt, hne, hnot]

end Split

theorem contentLines_eq_nil_iff (hlines : Lines text lines) :
    contentLines text = [] ↔ forall line, line ∈ lines -> Text.trim line = [] := by
  rw [List.eq_nil_iff_forall_not_mem]
  constructor
  · intro h line hline
    rcases List.mem_iff_getElem?.mp hline with ⟨index, hindex⟩
    by_contra hne
    refine h (index + 1, Text.trim line) ((mem_contentLines_iff hlines).mpr ?_)
    exact ⟨index, line, rfl, hindex, Text.trimmed_trim line, hne⟩
  · rintro h ⟨number, content⟩ hmem
    rcases (mem_contentLines_iff hlines).mp hmem with ⟨index, line, _, hline, htrimmed, hne⟩
    rw [← htrimmed.trim_eq] at hne
    exact hne (h line (List.mem_of_getElem? hline))

end

/-!
# Lines that are in order

Contents are given by their line numbers.  A rule line has a marker somewhere before it, and
two markers have a rule line between them.
-/

section

variable {table : SymbolTable} {before : List (Nat × List Char)} {opened : Option PartialBlock}
  {block : PartialBlock} {number : Nat} {content : List Char}

/-- Each content is a marker or a rule line, a marker stands before each rule line, and a rule
line stands between any two markers. -/
structure Orderly (table : SymbolTable) (holds : Nat -> List Char -> Prop) : Prop where
  line : forall number content, holds number content ->
    (exists kind, content = [BlockKind.marker kind]) ∨
      (Unmarked content ∧ (exists rule, readRule table number content = .ok rule) ∧
        exists earlier kind, earlier < number ∧ holds earlier [BlockKind.marker kind])
  separated : forall first second kind kind', first < second ->
    holds first [BlockKind.marker kind] -> holds second [BlockKind.marker kind'] ->
    exists between content, first < between ∧ between < second ∧ holds between content ∧
      Unmarked content

/-- The open block was opened by the last marker, and each of its rules stands after it. -/
structure LastBlock (before : List (Nat × List Char)) (block : PartialBlock) : Prop where
  marker_mem : (block.line, [block.kind.marker]) ∈ before
  last : forall number kind, (number, [BlockKind.marker kind]) ∈ before -> number ≤ block.line
  rule_after : block.rules ≠ [] -> exists number content, (number, content) ∈ before ∧
    block.line < number ∧ Unmarked content

theorem ascending_concat_iff :
    Ascending (before ++ [(number, content)]) ↔
      Ascending before ∧ forall entry, entry ∈ before -> entry.1 < number := by
  rw [ascending_append_cons_iff]
  simp [Ascending]

theorem Reads.lastBlock (h : Reads table before (some block)) (hbefore : Ascending before) :
    LastBlock before block := by
  generalize hopened : some block = opened at h
  induction h generalizing block with
  | start => cases hopened
  | marker kind number h hsettled ih =>
      cases hopened
      rcases ascending_concat_iff.mp hbefore with ⟨_, hless⟩
      refine ⟨List.mem_concat_self, ?_, fun hne => absurd rfl hne⟩
      intro other kind' hother
      rcases List.mem_append.mp hother with hother | hother
      · exact Nat.le_of_lt (hless _ hother)
      · exact Nat.le_of_eq (congrArg Prod.fst (List.mem_singleton.mp hother))
  | rule h hcontent hrule ih =>
      rename_i before block number content rule
      cases hopened
      rcases ascending_concat_iff.mp hbefore with ⟨hbefore, hless⟩
      have hlast := ih hbefore rfl
      refine ⟨List.mem_append_left _ hlast.marker_mem, ?_, ?_⟩
      · intro other kind hother
        rcases List.mem_append.mp hother with hother | hother
        · exact hlast.last other kind hother
        · cases List.mem_singleton.mp hother
          exact absurd hcontent (not_unmarked_marker kind)
      · intro _
        exact ⟨number, content, List.mem_concat_self, hless _ hlast.marker_mem, hcontent⟩

theorem Orderly.concat (h : Orderly table fun number content => (number, content) ∈ before)
    (hless : forall entry, entry ∈ before -> entry.1 < number)
    (hline : (exists kind, content = [BlockKind.marker kind]) ∨
      (Unmarked content ∧ (exists rule, readRule table number content = .ok rule) ∧
        exists earlier kind, (earlier, [BlockKind.marker kind]) ∈ before))
    (hmarker : forall first kind kind', content = [BlockKind.marker kind'] ->
      (first, [BlockKind.marker kind]) ∈ before -> exists between found, first < between ∧
        (between, found) ∈ before ∧ Unmarked found) :
    Orderly table fun earlier found => (earlier, found) ∈ before ++ [(number, content)] := by
  constructor
  · intro other found hother
    rcases List.mem_append.mp hother with hold | hnew
    · refine (h.line other found hold).imp_right fun hrule => ?_
      rcases hrule with ⟨hfound, hread, earlier, kind, hlt, hearlier⟩
      exact ⟨hfound, hread, earlier, kind, hlt, List.mem_append_left _ hearlier⟩
    · cases List.mem_singleton.mp hnew
      refine hline.imp_right fun hrule => ?_
      rcases hrule with ⟨hfound, hread, earlier, kind, hearlier⟩
      exact ⟨hfound, hread, earlier, kind, hless _ hearlier, List.mem_append_left _ hearlier⟩
  · intro first second kind kind' hlt hfirst hsecond
    rcases List.mem_append.mp hfirst with hold | hnew
    · rcases List.mem_append.mp hsecond with hsecond | hsecond
      · rcases h.separated first second kind kind' hlt hold hsecond with
          ⟨between, found, hafter, hbelow, hmem, hfound⟩
        exact ⟨between, found, hafter, hbelow, List.mem_append_left _ hmem, hfound⟩
      · rcases Prod.mk.inj (List.mem_singleton.mp hsecond) with ⟨rfl, heq⟩
        rcases hmarker first kind kind' heq.symm hold with ⟨between, found, hafter, hmem, hfound⟩
        exact ⟨between, found, hafter, hless _ hmem, List.mem_append_left _ hmem, hfound⟩
    · cases congrArg Prod.fst (List.mem_singleton.mp hnew)
      rcases List.mem_append.mp hsecond with hsecond | hsecond
      · exact absurd hlt (Nat.lt_asymm (hless _ hsecond))
      · cases congrArg Prod.fst (List.mem_singleton.mp hsecond)
        exact absurd hlt (Nat.lt_irrefl _)

theorem Reads.orderly (h : Reads table before opened) (hbefore : Ascending before) :
    Orderly table fun number content => (number, content) ∈ before := by
  induction h with
  | start =>
      constructor
      · intro number content hmem
        exact absurd hmem List.not_mem_nil
      · intro first second kind kind' hlt hfirst
        exact absurd hfirst List.not_mem_nil
  | marker kind number h hsettled ih =>
      rename_i before opened
      rcases ascending_concat_iff.mp hbefore with ⟨hbefore, hless⟩
      refine (ih hbefore).concat hless (Or.inl ⟨kind, rfl⟩) ?_
      intro first kind' _ _ hfirst
      cases opened with
      | none =>
          rw [h.eq_nil] at hfirst
          exact absurd hfirst List.not_mem_nil
      | some block =>
          have hlast := h.lastBlock hbefore
          rcases hlast.rule_after (hsettled block rfl) with ⟨between, found, hmem, hafter, hfound⟩
          exact ⟨between, found, Nat.lt_of_le_of_lt (hlast.last first kind' hfirst) hafter, hmem,
            hfound⟩
  | rule h hcontent hrule ih =>
      rename_i before block number content rule
      rcases ascending_concat_iff.mp hbefore with ⟨hbefore, hless⟩
      have hlast := h.lastBlock hbefore
      refine (ih hbefore).concat hless (Or.inr ⟨hcontent, ⟨rule, hrule⟩, ?_⟩) ?_
      · exact ⟨block.line, block.kind, hlast.marker_mem⟩
      · intro first kind kind' heq
        exact absurd heq (ne_marker_of_unmarked hcontent kind')

end

/-!
# The line that a fault names
-/

section

variable {table : SymbolTable} {lines : List (List Char)} {number : Nat} {content : List Char}
  {fault : RuleFault}

inductive AtFault (table : SymbolTable) (lines : List (List Char)) (number : Nat)
    (content : List Char) : RuleFault -> Prop where
  | unknownBlockMarker (hkind : forall kind, content ≠ [BlockKind.marker kind])
      (hcontent : ¬ Unmarked content) :
      AtFault table lines number content (.unknownBlockMarker number content)
  | missingBlockMarker (hcontent : Unmarked content)
      (hnone : forall earlier kind, ¬ ContentBefore lines number earlier [BlockKind.marker kind]) :
      AtFault table lines number content (.missingBlockMarker number)
  | rule {fault : RuleFault} (hcontent : Unmarked content)
      (hsome : exists earlier kind, ContentBefore lines number earlier [BlockKind.marker kind])
      (hfault : readRule table number content = .error fault) :
      AtFault table lines number content fault

/-- A line is a marker, and a marker or nothing comes next. -/
structure Barren (lines : List (List Char)) (number : Nat) (content : List Char) : Prop where
  marker : exists kind, content = [BlockKind.marker kind]
  next : (forall later other, number < later -> ¬ ContentAt lines later other) ∨
    exists next kind, number < next ∧ ContentAt lines next [BlockKind.marker kind] ∧
      forall between other, number < between -> between < next ->
        ¬ ContentAt lines between other

theorem decode_eq_error_iff {text : String} :
    decode table text = .error fault ↔
      readLines table (contentLines text.toList) = .error fault := by
  unfold decode
  rw [bind_eq_error_iff]
  simp

theorem Refuses.line?_eq {opened : Option PartialBlock}
    (h : Refuses table number content opened fault) : fault.line? = some number := by
  cases h with
  | marker hkind hcontent => rfl
  | missing hcontent => rfl
  | rule hcontent hfault => exact RuleFault.line?_of_ruleLine? (ruleLine?_readRule hfault)

theorem Refuses.ne_emptyBlock {opened : Option PartialBlock}
    (h : Refuses table number content opened fault) (line : Nat) :
    fault ≠ .emptyBlock line := by
  cases h with
  | marker hkind hcontent => exact RuleFault.noConfusion
  | missing hcontent => exact RuleFault.noConfusion
  | rule hcontent hfault =>
      exact RuleFault.ne_emptyBlock_of_ruleLine? (ruleLine?_readRule hfault)

section Split

variable {text : List Char} {before after : List (Nat × List Char)}
  {opened : Option PartialBlock} (hlines : Lines text lines)
  (hsplit : contentLines text = before ++ (number, content) :: after)
  (hreads : Reads table before opened)

include hlines hsplit hreads

theorem Reads.orderly_before : Orderly table (ContentBefore lines number) := by
  have hbefore : (fun earlier other => (earlier, other) ∈ before) = ContentBefore lines number := by
    funext earlier other
    exact propext (mem_before_iff hlines hsplit)
  rw [← hbefore]
  exact hreads.orderly (ascending_of_split hsplit).left

theorem Reads.atFault (hrefuses : Refuses table number content opened fault) :
    AtFault table lines number content fault := by
  cases hrefuses with
  | marker hkind hcontent => exact AtFault.unknownBlockMarker hkind hcontent
  | missing hcontent =>
      refine AtFault.missingBlockMarker hcontent fun earlier kind hearlier => ?_
      rw [← mem_before_iff hlines hsplit, hreads.eq_nil] at hearlier
      exact absurd hearlier List.not_mem_nil
  | rule hcontent hfault =>
      rename_i block
      have hmarker := (hreads.lastBlock (ascending_of_split hsplit).left).marker_mem
      rw [mem_before_iff hlines hsplit] at hmarker
      exact AtFault.rule hcontent ⟨block.line, block.kind, hmarker⟩ hfault

end Split

theorem barren_of_split {text : List Char} {before after : List (Nat × List Char)}
    {kind : BlockKind} (hlines : Lines text lines)
    (hsplit : contentLines text = before ++ (number, [kind.marker]) :: after)
    (hafter : forall entry, after.head? = some entry ->
      exists kind, entry.2 = [BlockKind.marker kind]) :
    Barren lines number [kind.marker] := by
  refine ⟨⟨kind, rfl⟩, ?_⟩
  cases after with
  | nil =>
      refine Or.inl fun later other hlater hother => ?_
      exact absurd ((mem_after_iff hlines hsplit).mpr ⟨hlater, hother⟩) List.not_mem_nil
  | cons entry rest =>
      rcases entry with ⟨next, content⟩
      rcases hafter _ rfl with ⟨kind', hmarker⟩
      simp only at hmarker
      subst hmarker
      rcases (mem_after_iff hlines hsplit).mp List.mem_cons_self with ⟨hnext, hcontent⟩
      refine Or.inr ⟨next, kind', hnext, hcontent, fun between other hbetween hless hother => ?_⟩
      have hmem := (mem_after_iff hlines hsplit).mpr ⟨hbetween, hother⟩
      have hascending := (ascending_of_split hsplit).right.left
      rcases List.mem_cons.mp hmem with heq | hmem
      · cases congrArg Prod.fst heq
        exact absurd hless (Nat.lt_irrefl _)
      · exact Nat.lt_asymm hless ((List.pairwise_cons.mp hascending).left _ hmem)

/-- A text without blocks has only blank lines.  Any other invalid text has a first line at
fault, and texts that agree up to this line have the same fault, unless it is an empty block. -/
theorem decode_fault_exact {text : String} (hlines : Lines text.toList lines)
    (h : decode table text = .error fault) :
    (fault = .emptyDocument ↔ forall line, line ∈ lines -> Text.trim line = []) ∧
      (fault ≠ .emptyDocument -> exists number content,
        fault.line? = some number ∧ ContentAt lines number content ∧
          Orderly table (ContentBefore lines number) ∧
          (fault = .emptyBlock number -> Barren lines number content) ∧
          (fault ≠ .emptyBlock number -> AtFault table lines number content fault ∧
            forall (other : String) (others : List (List Char)), Lines other.toList others ->
              others.take number = lines.take number -> decode table other = .error fault)) := by
  rw [← contentLines_eq_nil_iff hlines]
  have hfirst := firstFault_of_readLines (decode_eq_error_iff.mp h)
  generalize hread : contentLines text.toList = read at hfirst
  cases hfirst with
  | document => exact ⟨by simp, fun hne => absurd rfl hne⟩
  | block hreads hsettled hrest =>
      rename_i before rest opened kind number
      refine ⟨by simp, fun _ => ⟨number, [kind.marker], rfl, ?_, ?_, fun _ => ?_, ?_⟩⟩
      · exact contentAt_of_split hlines hread
      · exact hreads.orderly_before hlines hread
      · exact barren_of_split hlines hread hrest
      · exact fun hne => absurd rfl hne
  | line hreads hrefuses =>
      rename_i before rest opened number content
      have hline := hrefuses.line?_eq
      have hdocument : fault ≠ .emptyDocument := by
        rintro rfl
        cases hline
      refine ⟨by simp [hdocument], fun _ => ⟨number, content, hline, ?_, ?_, ?_, fun _ => ⟨?_, ?_⟩⟩⟩
      · exact contentAt_of_split hlines hread
      · exact hreads.orderly_before hlines hread
      · exact fun hblock => absurd hblock (hrefuses.ne_emptyBlock number)
      · exact hreads.atFault hlines hread hrefuses
      · intro other others hothers htake
        rcases exists_split_of_take_eq hlines hread hothers htake with ⟨later, hother⟩
        rw [decode_eq_error_iff, hother]
        exact hrefuses.readLines_eq_error hreads later

end

/-!
## A misspelled symbol

The symbol on the fourth line has no name.  The blank line before it is counted.
-/

def misspelled : String := "!\nB > W\n\nB > Q"

def misspelledLines : List (List Char) := [['!'], "B > W".toList, [], "B > Q".toList]

theorem lines_misspelled : Lines misspelled.toList misspelledLines := by
  change Lines (['!'] ++ '\n' :: ("B > W".toList ++ '\n' :: ([] ++ '\n' :: "B > Q".toList))) _
  refine Lines.feed (by decide) (by decide) (Lines.feed (by decide) (by decide) ?_)
  exact Lines.feed (by decide) (by decide) (Lines.last (by decide))

theorem decode_fault_exact_misspelled :
    decode SymbolTable.standard misspelled = .error (.unknownSymbol 4 'Q') ∧
      AtFault SymbolTable.standard misspelledLines 4 "B > Q".toList (.unknownSymbol 4 'Q') ∧
      forall (other : String) (rest : List (List Char)),
        Lines other.toList (misspelledLines ++ rest) ->
          decode SymbolTable.standard other = .error (.unknownSymbol 4 'Q') := by
  have hfault : decode SymbolTable.standard misspelled = .error (.unknownSymbol 4 'Q') := rfl
  have hnamed := (decode_fault_exact lines_misspelled hfault).right RuleFault.noConfusion
  rcases hnamed with ⟨number, content, hnumber, hcontent, _, _, hline⟩
  cases hnumber
  have hlast : ContentAt misspelledLines 4 "B > Q".toList :=
    ⟨3, "B > Q".toList, rfl, rfl, Text.trimmed_trim _, by decide⟩
  cases contentAt_unique hlast hcontent
  rcases hline RuleFault.noConfusion with ⟨hat, hagree⟩
  exact ⟨hfault, hat, fun other rest hother => hagree other _ hother rfl⟩

end RuleText
end GridRules
