import GridRules.Proofs.Grammar
import GridRules.RuleText.Writer

/-!
# Layout of written text

Written text is made of letters, of separators set off by spaces and of line
feeds.  Letters are neither white space nor marks of the grammar, so what the
writer joins can be told apart again: a text begins and ends with a letter, and
it holds no marks but those of its own level.

## Main statements

Joined pieces are separated in the sense of the grammar, up to the spaces that
the layout puts around them, and joined lines are the lines of the text.
-/

namespace GridRules
namespace RuleText

open Text (Padded Trimmed Tight Separated AllBlank)
open Grammar

def marks : List Char :=
  ['!', '?', '>', '|', '*', '^']

def sideMarks : List Char := ['^']
def clauseMarks : List Char := '>' :: sideMarks
def choiceMarks : List Char := '|' :: clauseMarks
def lineMarks : List Char := '*' :: choiceMarks

/-- A character that can stand for a symbol or for a digit. -/
structure Letter (c : Char) : Prop where
  not_blank : Text.isBlank c = false
  not_mark : c ∉ marks

/-- A text of letters, spaces and some marks, with a letter at each end. -/
structure Neat (used text : List Char) : Prop where
  within : forall c, c ∈ text -> Letter c ∨ c = ' ' ∨ c ∈ used
  head_letter : exists c, text.head? = some c ∧ Letter c
  last_letter : exists c, text.getLast? = some c ∧ Letter c

def spaced (separator : Char) : List Char :=
  [' ', separator, ' ']

theorem not_blank_of_mem_marks {c : Char} (h : c ∈ marks) : Text.isBlank c = false := by
  have hall : marks.all (fun d => !Text.isBlank d) = true := by decide
  simpa using List.all_eq_true.mp hall c h

theorem not_isDigit_of_mem_marks {c : Char} (h : c ∈ marks) : c.isDigit = false := by
  have hall : marks.all (fun d => !d.isDigit) = true := by decide
  simpa using List.all_eq_true.mp hall c h

/-!
# Neat text
-/

namespace Neat

variable {used text : List Char}

theorem word {letters : List Char} (hne : letters ≠ [])
    (hletters : forall c, c ∈ letters -> Letter c) : Neat used letters where
  within := fun c hc => Or.inl (hletters c hc)
  head_letter := ⟨letters.head hne, List.head?_eq_some_head hne,
    hletters _ (List.head_mem hne)⟩
  last_letter := ⟨letters.getLast hne, List.getLast?_eq_some_getLast hne,
    hletters _ (List.getLast_mem hne)⟩

theorem ne_nil (h : Neat used text) : text ≠ [] := by
  rcases h.head_letter with ⟨c, hc, _⟩
  intro hnil
  rw [hnil] at hc
  cases hc

theorem lift (h : Neat used text) (mark : Char) : Neat (mark :: used) text where
  within := fun c hc => (h.within c hc).imp id (Or.imp id (List.mem_cons_of_mem mark))
  head_letter := h.head_letter
  last_letter := h.last_letter

theorem join {mark : Char} {rest : List Char} (h : Neat (mark :: used) text)
    (hrest : Neat (mark :: used) rest) : Neat (mark :: used) (text ++ spaced mark ++ rest) where
  within := by
    intro c hc
    rw [List.mem_append, List.mem_append] at hc
    rcases hc with (htext | hmid) | hright
    · exact h.within c htext
    · simp only [spaced, List.mem_cons, List.not_mem_nil, or_false] at hmid
      rcases hmid with hspace | hsep | hspace
      · exact Or.inr (Or.inl hspace)
      · exact Or.inr (Or.inr (hsep ▸ List.mem_cons_self))
      · exact Or.inr (Or.inl hspace)
    · exact hrest.within c hright
  head_letter := by
    rcases h.head_letter with ⟨c, hc, hletter⟩
    exact ⟨c, by simp [List.head?_append, hc], hletter⟩
  last_letter := by
    rcases hrest.last_letter with ⟨c, hc, hletter⟩
    exact ⟨c, by simp [List.getLast?_append, hc], hletter⟩

theorem intercalate {mark : Char} {texts : List (List Char)} (hne : texts ≠ [])
    (htexts : forall text, text ∈ texts -> Neat used text) :
    Neat (mark :: used) ((spaced mark).intercalate texts) := by
  induction texts with
  | nil => exact absurd rfl hne
  | cons text rest ih =>
      have htext := (htexts text List.mem_cons_self).lift mark
      have hrest := fun other hother => htexts other (List.mem_cons_of_mem text hother)
      by_cases hnil : rest = []
      · rw [hnil, List.intercalate_singleton]
        exact htext
      · rw [List.intercalate_cons_of_ne_nil hnil]
        exact htext.join (ih hnil hrest)

theorem mark_not_mem {mark : Char} (h : Neat used text) (hmark : mark ∈ marks)
    (hunused : mark ∉ used) : mark ∉ text := by
  intro hmem
  rcases h.within mark hmem with hletter | hspace | hused
  · exact hletter.not_mark hmark
  · rw [hspace] at hmark
    exact absurd hmark (by decide)
  · exact hunused hused

theorem tight (h : Neat used text) : Tight text where
  head_not_blank := by
    rcases h.head_letter with ⟨d, hd, hletter⟩
    intro c hc
    cases hd.symm.trans hc
    exact hletter.not_blank
  last_not_blank := by
    rcases h.last_letter with ⟨d, hd, hletter⟩
    intro c hc
    cases hd.symm.trans hc
    exact hletter.not_blank

theorem unmarked (h : Neat used text) : Unmarked text := by
  rcases h.head_letter with ⟨c, hc, hletter⟩
  constructor
  · intro hbang
    cases hc.symm.trans hbang
    exact hletter.not_mark (by decide)
  · intro hquestion
    cases hc.symm.trans hquestion
    exact hletter.not_mark (by decide)

theorem newline_not_mem (h : Neat used text) (hused : used ⊆ marks) : '\n' ∉ text := by
  intro hmem
  rcases h.within '\n' hmem with hletter | hspace | hmark
  · exact absurd hletter.not_blank (by decide)
  · exact absurd hspace (by decide)
  · exact absurd (hused hmark) (by decide)

end Neat

/-!
# Joined pieces
-/

theorem allBlank_space : AllBlank [' '] :=
  Text.allBlank_singleton (by decide)

/-- Pieces that are joined with a mark of the next level are found again, padded
with the spaces between them and with what stands around the whole text. -/
theorem separated_intercalate {used : List Char} {mark : Char} {texts : List (List Char)}
    (hmark : mark ∈ marks) (hunused : mark ∉ used) (hne : texts ≠ [])
    (htexts : forall text, text ∈ texts -> Neat used text) {outer : List Char}
    (houter : Padded outer ((spaced mark).intercalate texts)) :
    exists pieces, Separated mark pieces outer ∧ List.Forall₂ Padded pieces texts := by
  rcases houter with ⟨before, after, hbefore, hafter, houter⟩
  subst houter
  have hvisible := not_blank_of_mem_marks hmark
  induction texts generalizing before with
  | nil => exact absurd rfl hne
  | cons text rest ih =>
      have htext := (htexts text List.mem_cons_self).mark_not_mem hmark hunused
      have hfirst := hbefore.not_mem hvisible
      by_cases hnil : rest = []
      · subst hnil
        rw [List.intercalate_singleton]
        have hlast := hafter.not_mem hvisible
        refine ⟨[before ++ text ++ after], Separated.last (by simp [htext, hfirst, hlast]), ?_⟩
        exact List.Forall₂.cons ⟨before, after, hbefore, hafter, rfl⟩ List.Forall₂.nil
      · have hspace := allBlank_space.not_mem hvisible
        rcases ih hnil (fun other hother => htexts other (List.mem_cons_of_mem text hother))
          [' '] allBlank_space with ⟨pieces, hpieces, hpadded⟩
        have hsplit : before ++ (spaced mark).intercalate (text :: rest) ++ after =
            (before ++ text ++ [' ']) ++
              mark :: ([' '] ++ (spaced mark).intercalate rest ++ after) := by
          rw [List.intercalate_cons_of_ne_nil hnil]
          simp [spaced]
        have hpiece : mark ∉ before ++ text ++ [' '] := by
          simp only [List.mem_append, not_or]
          exact ⟨⟨hfirst, htext⟩, hspace⟩
        rw [hsplit]
        refine ⟨(before ++ text ++ [' ']) :: pieces, Separated.more hpiece hpieces, ?_⟩
        exact List.Forall₂.cons ⟨before, [' '], hbefore, allBlank_space, rfl⟩ hpadded

theorem separated_pair {used : List Char} {mark : Char} {left right : List Char}
    (hmark : mark ∈ marks) (hunused : mark ∉ used) (hleft : Neat used left)
    (hright : Neat used right) {outer : List Char}
    (houter : Padded outer (left ++ spaced mark ++ right)) :
    exists first second, Separated mark [first, second] outer ∧ Padded first left ∧
      Padded second right := by
  have hjoined : left ++ spaced mark ++ right = (spaced mark).intercalate [left, right] := by
    rw [List.intercalate_cons_cons, List.intercalate_singleton]
  rw [hjoined] at houter
  have htexts : forall text, text ∈ [left, right] -> Neat used text := by
    intro text htext
    rcases List.mem_cons.mp htext with heq | hrest
    · rw [heq]
      exact hleft
    · rw [List.mem_singleton.mp hrest]
      exact hright
  rcases separated_intercalate hmark hunused (List.cons_ne_nil _ _) htexts houter with
    ⟨pieces, hpieces, hpadded⟩
  cases hpadded with
  | cons hfirst hrest =>
      cases hrest with
      | cons hsecond hnil =>
          cases hnil
          exact ⟨_, _, hpieces, hfirst, hsecond⟩

theorem trimmed_of_padded {pieces texts : List (List Char)}
    (hpadded : List.Forall₂ Padded pieces texts)
    (htexts : forall text, text ∈ texts -> Tight text) : List.Forall₂ Trimmed pieces texts := by
  induction hpadded with
  | nil => exact List.Forall₂.nil
  | cons hpiece _ ih =>
      refine List.Forall₂.cons ⟨hpiece, htexts _ List.mem_cons_self⟩ (ih ?_)
      intro text htext
      exact htexts text (List.mem_cons_of_mem _ htext)

/-!
# Rows
-/

theorem length_cutRows {item : Type} (width count : Nat) (items : List item) :
    (cutRows width count items).length = count := by
  induction count generalizing items with
  | zero => rfl
  | succ count ih => rw [cutRows, List.length_cons, ih]

theorem flatten_cutRows {item : Type} {width count : Nat} {items : List item}
    (h : items.length = count * width) : (cutRows width count items).flatten = items := by
  induction count generalizing items with
  | zero =>
      rw [Nat.zero_mul] at h
      rw [List.length_eq_zero_iff.mp h]
      rfl
  | succ count ih =>
      have hrest : (items.drop width).length = count * width := by
        rw [List.length_drop, h, Nat.succ_mul, Nat.add_sub_cancel]
      rw [cutRows, List.flatten_cons, ih hrest, List.take_append_drop]

theorem length_of_mem_cutRows {item : Type} {width count : Nat} {items row : List item}
    (h : items.length = count * width) (hrow : row ∈ cutRows width count items) :
    row.length = width := by
  induction count generalizing items with
  | zero => cases hrow
  | succ count ih =>
      rw [Nat.succ_mul] at h
      rw [cutRows] at hrow
      cases List.mem_cons.mp hrow with
      | inl heq =>
          rw [heq, List.length_take, h]
          exact Nat.min_eq_left (Nat.le_add_left width _)
      | inr hrest =>
          apply ih _ hrest
          rw [List.length_drop, h, Nat.add_sub_cancel]

/-!
# Joined lines
-/

theorem getLast?_eq_return_iff {first rest : List Char} :
    (first ++ '\n' :: rest).getLast? = some '\r' ↔ rest.getLast? = some '\r' := by
  rw [List.getLast?_append, List.getLast?_cons]
  cases rest.getLast? with
  | none => simp
  | some c => simp

theorem Grammar.Lines.join {first rest : List Char} {lines others : List (List Char)}
    (hfirst : Lines first lines) (hreturn : first.getLast? ≠ some '\r')
    (hrest : Lines rest others) : Lines (first ++ '\n' :: rest) (lines ++ others) := by
  induction hfirst with
  | last hline => exact Lines.feed hline hreturn hrest
  | feed hline hkept _ ih =>
      rw [List.append_assoc, List.cons_append, List.cons_append]
      apply Lines.feed hline hkept
      apply ih
      intro hlast
      exact hreturn (getLast?_eq_return_iff.mpr hlast)
  | returnFeed hline _ ih =>
      rw [List.append_assoc, List.cons_append, List.cons_append, List.cons_append]
      apply Lines.returnFeed hline
      apply ih
      intro hlast
      rw [List.append_cons] at hreturn
      exact hreturn (getLast?_eq_return_iff.mpr hlast)

/-- A text that can be followed by a line feed, with its lines. -/
def Closed (text : List Char) (lines : List (List Char)) : Prop :=
  Lines text lines ∧ text.getLast? ≠ some '\r'

theorem Closed.join {first rest : List Char} {lines others : List (List Char)}
    (hfirst : Closed first lines) (hrest : Closed rest others) :
    Closed (first ++ '\n' :: rest) (lines ++ others) := by
  refine ⟨hfirst.left.join hfirst.right hrest.left, ?_⟩
  intro hlast
  exact hrest.right (getLast?_eq_return_iff.mp hlast)

theorem closed_intercalate {texts : List (List Char)} {lines : List (List (List Char))}
    (hne : texts ≠ []) (h : List.Forall₂ Closed texts lines) :
    Closed (['\n'].intercalate texts) lines.flatten := by
  induction h with
  | nil => exact absurd rfl hne
  | cons hfirst hrest ih =>
      rename_i text own texts others
      by_cases hnil : texts = []
      · rw [hnil, List.forall₂_nil_left_iff] at hrest
        rw [hnil, hrest, List.intercalate_singleton]
        simpa using hfirst
      · rw [List.intercalate_cons_of_ne_nil hnil, List.flatten_cons, List.append_assoc]
        exact hfirst.join (ih hnil)

/-- A line that is its own content. -/
structure Whole (line : List Char) : Prop where
  ne_nil : line ≠ []
  tight : Tight line
  newline_not_mem : '\n' ∉ line

theorem Whole.closed {line : List Char} (h : Whole line) : Closed line [line] := by
  refine ⟨Lines.last h.newline_not_mem, ?_⟩
  intro hreturn
  exact absurd (h.tight.last_not_blank '\r' hreturn) (by decide)

theorem Neat.whole {used text : List Char} (h : Neat used text) (hused : used ⊆ marks) :
    Whole text where
  ne_nil := h.ne_nil
  tight := h.tight
  newline_not_mem := h.newline_not_mem hused

theorem whole_marker {marker : Char} (h : marker ∈ marks) : Whole [marker] where
  ne_nil := List.cons_ne_nil marker []
  tight := by
    constructor
    · intro c hc
      cases hc
      exact not_blank_of_mem_marks h
    · intro c hc
      cases hc
      exact not_blank_of_mem_marks h
  newline_not_mem := by
    intro hmem
    rw [← List.mem_singleton.mp hmem] at h
    exact absurd h (by decide)

theorem closed_lines {lines : List (List Char)} (hne : lines ≠ [])
    (h : forall line, line ∈ lines -> Whole line) : Closed (['\n'].intercalate lines) lines := by
  have hsame : List.Forall₂ Closed lines (lines.map fun line => [line]) := by
    rw [List.forall₂_map_right_iff, List.forall₂_same]
    intro line hline
    exact (h line hline).closed
  have hflat : (lines.map fun line => [line]).flatten = lines := by
    rw [← List.flatMap_def, List.flatMap_singleton']
  have hclosed := closed_intercalate hne hsame
  rwa [hflat] at hclosed

theorem contents_self {lines : List (List Char)}
    (h : forall line, line ∈ lines -> Whole line) : Contents lines lines := by
  induction lines with
  | nil => exact Contents.nil
  | cons line lines ih =>
      have hline := h line List.mem_cons_self
      refine Contents.content ⟨Padded.refl line, hline.tight⟩ hline.ne_nil (ih ?_)
      intro other hother
      exact h other (List.mem_cons_of_mem line hother)

end RuleText
end GridRules
