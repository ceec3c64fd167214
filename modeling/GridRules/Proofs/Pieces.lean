import Mathlib.Data.List.Forall2
import GridRules.Text.Blank

/-!
# Pieces of text

A text is cut at a separator and the pieces are trimmed.  Both are described
here from the side of the result: how a text is put together from pieces, and
how it is put together from its content and the white space around it.

## Main statements

Cutting and trimming find the one decomposition of the text.
-/

namespace GridRules

/-!
# Lists side by side

Texts and what they denote are lists that are related item by item.
-/

section

variable {first second third : Type} {related : first -> second -> Prop}
  {xs : List first} {ys : List second}

theorem ne_nil_of_forall₂ (h : List.Forall₂ related xs ys) (hne : xs ≠ []) : ys ≠ [] := by
  intro hnil
  rw [hnil, List.forall₂_nil_right_iff] at h
  exact hne h

theorem forall_mem_of_forall₂ {holds : second -> Prop} (h : List.Forall₂ related xs ys)
    (hholds : forall x y, related x y -> holds y) : forall y, y ∈ ys -> holds y := by
  induction h with
  | nil =>
      intro y hy
      cases hy
  | cons hhead _ ih =>
      intro y hy
      cases List.mem_cons.mp hy with
      | inl heq =>
          rw [heq]
          exact hholds _ _ hhead
      | inr hrest => exact ih y hrest

theorem exists_forall₂ {leads : second -> third -> Prop} (h : List.Forall₂ related xs ys)
    (hleads : forall x y, related x y -> exists z, leads y z) :
    exists zs, List.Forall₂ leads ys zs := by
  induction h with
  | nil => exact ⟨[], List.Forall₂.nil⟩
  | cons hhead _ ih =>
      rcases hleads _ _ hhead with ⟨z, hz⟩
      rcases ih with ⟨zs, hzs⟩
      exact ⟨z :: zs, List.Forall₂.cons hz hzs⟩

theorem map_eq_self_of_forall₂ {f : second -> second} (h : List.Forall₂ related xs ys)
    (hfixed : forall x y, related x y -> f y = y) : ys.map f = ys := by
  induction h with
  | nil => rfl
  | cons hhead _ ih => rw [List.map_cons, hfixed _ _ hhead, ih]

end

namespace Text

/-!
# White space around a text
-/

def AllBlank (text : List Char) : Prop :=
  forall c, c ∈ text -> isBlank c = true

/-- Neither the first nor the last character is white space. -/
structure Tight (core : List Char) : Prop where
  head_not_blank : forall c, core.head? = some c -> isBlank c = false
  last_not_blank : forall c, core.getLast? = some c -> isBlank c = false

def Padded (text core : List Char) : Prop :=
  exists before after, AllBlank before ∧ AllBlank after ∧ text = before ++ core ++ after

def Trimmed (text core : List Char) : Prop :=
  Padded text core ∧ Tight core

theorem allBlank_nil : AllBlank [] := by
  intro c hc
  cases hc

theorem allBlank_singleton {c : Char} (h : isBlank c = true) : AllBlank [c] := by
  intro d hd
  rwa [List.mem_singleton.mp hd]

theorem AllBlank.append {first second : List Char} (hfirst : AllBlank first)
    (hsecond : AllBlank second) : AllBlank (first ++ second) := by
  intro c hc
  cases List.mem_append.mp hc with
  | inl h => exact hfirst c h
  | inr h => exact hsecond c h

theorem AllBlank.not_mem {text : List Char} (h : AllBlank text) {c : Char}
    (hc : isBlank c = false) : c ∉ text := by
  intro hmem
  rw [h c hmem] at hc
  cases hc

theorem Padded.refl (text : List Char) : Padded text text :=
  ⟨[], [], allBlank_nil, allBlank_nil, by simp⟩

theorem Padded.trans {outer inner core : List Char} (houter : Padded outer inner)
    (hinner : Padded inner core) : Padded outer core := by
  rcases houter with ⟨before, after, hbefore, hafter, houterEq⟩
  rcases hinner with ⟨before', after', hbefore', hafter', hinnerEq⟩
  refine ⟨before ++ before', after' ++ after, hbefore.append hbefore', hafter'.append hafter, ?_⟩
  rw [houterEq, hinnerEq]
  simp only [List.append_assoc]

theorem Padded.trimmed {outer inner core : List Char} (houter : Padded outer inner)
    (hinner : Trimmed inner core) : Trimmed outer core :=
  ⟨houter.trans hinner.left, hinner.right⟩

theorem Trimmed.length_le {text core : List Char} (h : Trimmed text core) :
    core.length ≤ text.length := by
  rcases h.left with ⟨before, after, _, _, htext⟩
  rw [htext, List.length_append, List.length_append]
  omega

theorem dropWhile_blank_append {before rest : List Char} (hbefore : AllBlank before)
    (hrest : forall c, rest.head? = some c -> isBlank c = false) :
    (before ++ rest).dropWhile isBlank = rest := by
  rw [List.dropWhile_append_of_pos hbefore]
  cases rest with
  | nil => rfl
  | cons c cs =>
      have hc : ¬ isBlank c = true := by simp [hrest c rfl]
      exact List.dropWhile_cons_of_neg hc

theorem dropWhile_blank_tail {core after : List Char} (hcore : Tight core)
    (hafter : AllBlank after) : (core ++ after).reverse.dropWhile isBlank = core.reverse := by
  rw [List.reverse_append]
  apply dropWhile_blank_append
  · intro c hc
    exact hafter c (List.mem_reverse.mp hc)
  · intro c hc
    rw [List.head?_reverse] at hc
    exact hcore.last_not_blank c hc

theorem Trimmed.trim_eq {text core : List Char} (h : Trimmed text core) : trim text = core := by
  rcases h with ⟨⟨before, after, hbefore, hafter, htext⟩, htight⟩
  cases core with
  | nil =>
      have hall : AllBlank text := by
        rw [htext, List.append_nil]
        exact hbefore.append hafter
      have hdrop : (text ++ []).dropWhile isBlank = [] :=
        dropWhile_blank_append hall (by intro c hc; cases hc)
      rw [List.append_nil] at hdrop
      simp [trim, hdrop]
  | cons c cs =>
      have hdrop : text.dropWhile isBlank = c :: cs ++ after := by
        rw [htext, List.append_assoc]
        exact dropWhile_blank_append hbefore htight.head_not_blank
      rw [trim, hdrop, dropWhile_blank_tail htight hafter, List.reverse_reverse]

theorem allBlank_takeWhile (text : List Char) : AllBlank (text.takeWhile isBlank) := by
  intro c hc
  exact List.all_eq_true.mp List.all_takeWhile c hc

theorem head?_dropWhile_blank {text : List Char} {c : Char}
    (h : (text.dropWhile isBlank).head? = some c) : isBlank c = false := by
  have hnot := List.head?_dropWhile_not isBlank text
  rw [h] at hnot
  simpa using hnot

theorem trimmed_trim (text : List Char) : Trimmed text (trim text) := by
  -- Cut off the blanks in front, then those behind.
  let opened := text.dropWhile isBlank
  let after := (opened.reverse.takeWhile isBlank).reverse
  have hopened : opened = trim text ++ after := by
    have hsplit := congrArg List.reverse
      (List.takeWhile_append_dropWhile (p := isBlank) (l := opened.reverse))
    rw [List.reverse_append, List.reverse_reverse] at hsplit
    exact hsplit.symm
  constructor
  · refine ⟨text.takeWhile isBlank, after, allBlank_takeWhile text, ?_, ?_⟩
    · intro c hc
      exact allBlank_takeWhile opened.reverse c (List.mem_reverse.mp hc)
    · rw [List.append_assoc, ← hopened]
      exact List.takeWhile_append_dropWhile.symm
  · constructor
    · intro c hc
      have hhead : opened.head? = some c := by
        rw [hopened, List.head?_append, hc]
        rfl
      exact head?_dropWhile_blank hhead
    · intro c hc
      rw [trim, List.getLast?_reverse] at hc
      exact head?_dropWhile_blank hc

theorem trim_eq_iff {text core : List Char} : trim text = core ↔ Trimmed text core := by
  constructor
  · intro h
    rw [← h]
    exact trimmed_trim text
  · intro h
    exact h.trim_eq

theorem map_trim_eq_iff {texts cores : List (List Char)} :
    texts.map trim = cores ↔ List.Forall₂ Trimmed texts cores := by
  induction texts generalizing cores with
  | nil => simp [eq_comm]
  | cons text texts ih =>
      cases cores with
      | nil => simp
      | cons core cores => simp [trim_eq_iff, ih]

theorem length_flatten_le_of_trimmed {texts cores : List (List Char)}
    (h : List.Forall₂ Trimmed texts cores) : cores.flatten.length ≤ texts.flatten.length := by
  induction h with
  | nil => simp
  | cons hcore _ ih =>
      simp only [List.flatten_cons, List.length_append]
      exact Nat.add_le_add hcore.length_le ih

theorem trim_eq_nil_iff {text : List Char} : trim text = [] ↔ AllBlank text := by
  rw [trim_eq_iff]
  constructor
  · intro h
    rcases h.left with ⟨before, after, hbefore, hafter, htext⟩
    rw [htext, List.append_nil]
    exact hbefore.append hafter
  · intro h
    refine ⟨⟨text, [], h, allBlank_nil, by simp⟩, ?_, ?_⟩
    · intro c hc
      cases hc
    · intro c hc
      cases hc

/-!
# Pieces between separators
-/

/-- The pieces of a text between the occurrences of a separator. -/
inductive Separated (separator : Char) : List (List Char) -> List Char -> Prop where
  | last {piece : List Char} (hpiece : separator ∉ piece) :
      Separated separator [piece] piece
  | more {piece rest : List Char} {pieces : List (List Char)} (hpiece : separator ∉ piece)
      (hrest : Separated separator pieces rest) :
      Separated separator (piece :: pieces) (piece ++ separator :: rest)

namespace Separated

variable {separator : Char} {pieces : List (List Char)} {text : List Char}

theorem splitOn_eq (h : Separated separator pieces text) : text.splitOn separator = pieces := by
  induction h with
  | last hpiece => exact List.splitOn_eq_singleton hpiece
  | more hpiece _ ih => rw [List.splitOn_append_cons_self_of_not_mem hpiece, ih]

theorem length_flatten_le (h : Separated separator pieces text) :
    pieces.flatten.length ≤ text.length := by
  induction h with
  | last _ => simp
  | more _ _ ih =>
      simp only [List.flatten_cons, List.length_append, List.length_cons]
      omega

theorem cons (h : Separated separator pieces text) {c : Char} (hc : separator ≠ c) :
    Separated separator (pieces.modifyHead (c :: ·)) (c :: text) := by
  cases h with
  | last hpiece =>
      exact last (List.not_mem_cons_of_ne_of_not_mem hc hpiece)
  | more hpiece hrest =>
      exact more (List.not_mem_cons_of_ne_of_not_mem hc hpiece) hrest

theorem singleton_iff {piece : List Char} :
    Separated separator [piece] text ↔ text = piece ∧ separator ∉ piece := by
  constructor
  · intro h
    cases h with
    | last hpiece => exact ⟨rfl, hpiece⟩
    | more _ hrest => cases hrest
  · intro h
    rw [h.left]
    exact last h.right

theorem pair_iff {first second : List Char} :
    Separated separator [first, second] text ↔
      text = first ++ separator :: second ∧ separator ∉ first ∧ separator ∉ second := by
  constructor
  · intro h
    cases h with
    | more hfirst hrest =>
        rcases singleton_iff.mp hrest with ⟨hsecond, hnot⟩
        rw [hsecond]
        exact ⟨rfl, hfirst, hnot⟩
  · intro h
    rcases h with ⟨htext, hfirst, hsecond⟩
    rw [htext]
    exact more hfirst (last hsecond)

end Separated

theorem separated_splitOn (separator : Char) (text : List Char) :
    Separated separator (text.splitOn separator) text := by
  induction text with
  | nil =>
      rw [List.splitOn_nil]
      exact Separated.last List.not_mem_nil
  | cons c rest ih =>
      rw [List.splitOn_cons_eq_if_modifyHead]
      split
      · rename_i hc
        rw [eq_of_beq hc]
        exact Separated.more List.not_mem_nil ih
      · rename_i hc
        apply ih.cons
        intro heq
        simp [heq] at hc

theorem splitOn_eq_iff {separator : Char} {text : List Char} {pieces : List (List Char)} :
    text.splitOn separator = pieces ↔ Separated separator pieces text := by
  constructor
  · intro h
    rw [← h]
    exact separated_splitOn separator text
  · intro h
    exact h.splitOn_eq

end Text
end GridRules
