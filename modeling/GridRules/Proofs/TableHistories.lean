import Mathlib.Data.Char
import Mathlib.Data.List.Induction
import GridRules.Proofs.Tables

/-!
# Symbol tables and their insertions

What a table answers depends on the insertions that made it, and on nothing else.  The
entries of both directions may stand in any order, and may be put into another order at any
time, between insertions as well as before the first look-up.

## Main statements

A character names the symbol of its last insertion.  A symbol is written with one of its
names, and with none exactly if it has none.  An insertion changes the written name of a
symbol in two ways only: a symbol without a name gets the new one, or a symbol loses its
written name to another symbol and is written with the least name that is left.
-/

namespace GridRules

namespace Entries

variable {key value : Type} {entries others : List (key × value)}

theorem nodup_keys_of_perm (h : others.Perm entries) (hnodup : (keys entries).Nodup) :
    (keys others).Nodup :=
  (h.map Prod.fst).nodup_iff.mpr hnodup

variable [DecidableEq key]

theorem mem_iff_find?_eq_some (hnodup : (keys entries).Nodup) (k : key) (v : value) :
    (k, v) ∈ entries ↔ find? k entries = some v :=
  ⟨find?_eq_some_of_mem hnodup, mem_of_find?_eq_some⟩

theorem find?_of_perm (h : others.Perm entries) (hnodup : (keys entries).Nodup) (k : key) :
    find? k others = find? k entries := by
  apply Option.ext
  intro v
  rw [← mem_iff_find?_eq_some (nodup_keys_of_perm h hnodup), ← mem_iff_find?_eq_some hnodup]
  exact h.mem_iff

theorem nodup_keys_remove (hnodup : (keys entries).Nodup) (k : key) :
    (keys (remove k entries)).Nodup :=
  hnodup.sublist (List.filter_sublist.map Prod.fst)

end Entries

namespace SymbolTable

variable {table other : SymbolTable}

/-!
# Least names
-/

/-- The least name of a symbol, or none if the symbol has no name. -/
def LeastName (table : SymbolTable) (symbol : Symbol) : Option Char -> Prop
  | some c => table.symbolFor? c = some symbol ∧
      forall d, table.symbolFor? d = some symbol -> c ≤ d
  | none => forall d, table.symbolFor? d ≠ some symbol

theorem LeastName.unique {symbol : Symbol} {first second : Option Char}
    (h : table.LeastName symbol first) (h' : table.LeastName symbol second) : first = second := by
  cases first with
  | none =>
      cases second with
      | none => rfl
      | some d => exact absurd h'.left (h d)
  | some c =>
      cases second with
      | none => exact absurd h.left (h' c)
      | some d => exact congrArg some (le_antisymm (h.right d h'.left) (h'.right c h.left))

theorem smallestName?_cons_le {symbol : Symbol} {first c : Char} {rest : List (Char × Symbol)}
    (h : smallestName? symbol ((first, symbol) :: rest) = some c) :
    c ≤ first ∧ forall least, smallestName? symbol rest = some least -> c ≤ least := by
  rw [smallestName?, if_pos rfl] at h
  cases hrest : smallestName? symbol rest with
  | none =>
      rw [hrest] at h
      cases h
      exact ⟨le_refl first, fun _ hleast => by cases hleast⟩
  | some least =>
      rw [hrest] at h
      rw [← Option.some.inj h]
      by_cases hlt : least < first
      · rw [if_pos hlt]
        exact ⟨le_of_lt hlt, fun _ hleast => le_of_eq (Option.some.inj hleast)⟩
      · rw [if_neg hlt]
        exact ⟨le_refl first, fun _ hleast => Option.some.inj hleast ▸ le_of_not_gt hlt⟩

theorem smallestName?_le {symbol : Symbol} {c d : Char} {named : List (Char × Symbol)}
    (hd : (d, symbol) ∈ named) (h : smallestName? symbol named = some c) : c ≤ d := by
  induction named generalizing c with
  | nil => cases hd
  | cons entry rest ih =>
      rcases entry with ⟨first, owner⟩
      by_cases howner : owner = symbol
      · subst howner
        rcases smallestName?_cons_le h with ⟨hfirst, hrest⟩
        cases List.mem_cons.mp hd with
        | inl heq =>
            cases heq
            exact hfirst
        | inr hmem =>
            rcases exists_smallestName? hmem with ⟨least, hleast⟩
            exact le_trans (hrest least hleast) (ih hmem hleast)
      · rw [smallestName?, if_neg howner] at h
        cases List.mem_cons.mp hd with
        | inl heq =>
            cases heq
            exact absurd rfl howner
        | inr hmem => exact ih hmem h

theorem leastName_smallestName? (hnodup : (Entries.keys table.named).Nodup) (symbol : Symbol) :
    table.LeastName symbol (smallestName? symbol table.named) := by
  cases hname : smallestName? symbol table.named with
  | none =>
      intro d hd
      rcases exists_smallestName? (Entries.mem_of_find?_eq_some hd) with ⟨name, hsome⟩
      cases hname.symm.trans hsome
  | some c =>
      refine ⟨Entries.find?_eq_some_of_mem hnodup (mem_of_smallestName? hname), ?_⟩
      intro d hd
      exact smallestName?_le (Entries.mem_of_find?_eq_some hd) hname

/-!
# Written names after one more insertion
-/

/-- How a symbol is written after an insertion.  It was without a written name and gets the
inserted one, or the inserted character was its written name and goes to another symbol, or
nothing changes. -/
inductive Respelled (table : SymbolTable) (c : Char) (symbol other : Symbol)
    (written : Option Char) : Prop where
  | named (hother : other = symbol) (hbefore : table.charFor? other = none)
      (hwritten : written = some c)
  | released (hother : other ≠ symbol) (hbefore : table.charFor? other = some c)
      (hwritten : (table.insert c symbol).LeastName other written)
  | kept (hnamed : ¬ (other = symbol ∧ table.charFor? other = none))
      (hreleased : ¬ (other ≠ symbol ∧ table.charFor? other = some c))
      (hwritten : written = table.charFor? other)

theorem Coherent.respelled_insert (h : table.Coherent) (c : Char) (symbol other : Symbol) :
    Respelled table c symbol other ((table.insert c symbol).charFor? other) := by
  by_cases hother : other = symbol
  · subst hother
    have hself := charFor?_insert_self table c other
    cases hbefore : table.charFor? other with
    | none =>
        rw [hbefore] at hself
        exact Respelled.named rfl hbefore hself
    | some name =>
        rw [hbefore] at hself
        refine Respelled.kept ?_ (fun hreleased => hreleased.left rfl) (hself.trans hbefore.symm)
        intro hnamed
        cases hbefore.symm.trans hnamed.right
  · cases charFor?_insert_of_ne table c (Ne.symm hother) with
    | inl hdisplaced =>
        rw [hdisplaced.right]
        exact Respelled.released hother hdisplaced.left.right.right
          (leastName_smallestName? (h.keys_nodup_insert c symbol) other)
    | inr hkept =>
        refine Respelled.kept (fun hnamed => hother hnamed.left) ?_ hkept.right
        intro hreleased
        exact hkept.left
          ⟨h.symbolFor?_of_charFor? other c hreleased.right, hother, hreleased.right⟩

theorem Coherent.charFor?_eq_none_iff (h : table.Coherent) {symbol : Symbol} :
    table.charFor? symbol = none ↔ forall c, table.symbolFor? c ≠ some symbol := by
  constructor
  · intro hnone c hc
    rcases h.exists_charFor? c symbol hc with ⟨name, hname⟩
    cases hnone.symm.trans hname
  · intro hunnamed
    cases hwritten : table.charFor? symbol with
    | none => rfl
    | some c => exact absurd (h.symbolFor?_of_charFor? symbol c hwritten) (hunnamed c)

/-!
# Tables that answer alike
-/

structure Alike (table other : SymbolTable) : Prop where
  symbolFor?_eq : forall c, table.symbolFor? c = other.symbolFor? c
  charFor?_eq : forall symbol, table.charFor? symbol = other.charFor? symbol

namespace Alike

theorem symbolFor?_insert (h : table.Alike other) (c : Char) (symbol : Symbol) (d : Char) :
    (table.insert c symbol).symbolFor? d = (other.insert c symbol).symbolFor? d := by
  rw [SymbolTable.symbolFor?_insert, SymbolTable.symbolFor?_insert, h.symbolFor?_eq]

theorem leastName_insert (h : table.Alike other) {c : Char} {symbol symbol' : Symbol}
    {name : Option Char} (hname : (table.insert c symbol).LeastName symbol' name) :
    (other.insert c symbol).LeastName symbol' name := by
  cases name with
  | none =>
      intro d hd
      exact hname d ((h.symbolFor?_insert c symbol d).trans hd)
  | some least =>
      refine ⟨(h.symbolFor?_insert c symbol least).symm.trans hname.left, ?_⟩
      intro d hd
      exact hname.right d ((h.symbolFor?_insert c symbol d).trans hd)

theorem respelled_unique (h : table.Alike other) {c : Char} {symbol symbol' : Symbol}
    {first second : Option Char} (hfirst : Respelled table c symbol symbol' first)
    (hsecond : Respelled other c symbol symbol' second) : first = second := by
  have hbefore := h.charFor?_eq symbol'
  cases hfirst with
  | named hother hnone hfirst =>
      cases hsecond with
      | named _ _ hsecond => rw [hfirst, hsecond]
      | released hcontra _ _ => exact absurd hother hcontra
      | kept hcontra _ _ => exact absurd ⟨hother, hbefore.symm.trans hnone⟩ hcontra
  | released hother htaken hfirst =>
      cases hsecond with
      | named hcontra _ _ => exact absurd hcontra hother
      | released _ _ hsecond => exact (h.leastName_insert hfirst).unique hsecond
      | kept _ hcontra _ => exact absurd ⟨hother, hbefore.symm.trans htaken⟩ hcontra
  | kept hnamed hreleased hfirst =>
      cases hsecond with
      | named hother hnone _ => exact absurd ⟨hother, hbefore.trans hnone⟩ hnamed
      | released hother htaken _ => exact absurd ⟨hother, hbefore.trans htaken⟩ hreleased
      | kept _ _ hsecond => rw [hfirst, hsecond, hbefore]

theorem insert (h : table.Alike other) (htable : table.Coherent) (hother : other.Coherent)
    (c : Char) (symbol : Symbol) : (table.insert c symbol).Alike (other.insert c symbol) where
  symbolFor?_eq := h.symbolFor?_insert c symbol
  charFor?_eq := fun symbol' =>
    h.respelled_unique (htable.respelled_insert c symbol symbol')
      (hother.respelled_insert c symbol symbol')

end Alike

/-!
# Tables whose entries move
-/

/-- Tables that are reached by insertions, when the entries may be put into any other order
at any time. -/
inductive Reached : List (Char × Symbol) -> SymbolTable -> Prop where
  | empty : Reached [] empty
  | insert {pairs : List (Char × Symbol)} {table : SymbolTable} (h : Reached pairs table)
      (c : Char) (symbol : Symbol) : Reached (pairs ++ [(c, symbol)]) (table.insert c symbol)
  | rearrange {pairs : List (Char × Symbol)} {table other : SymbolTable}
      (h : Reached pairs table) (hnamed : other.named.Perm table.named)
      (hwritten : other.written.Perm table.written) : Reached pairs other

structure Settled (table : SymbolTable) : Prop where
  coherent : table.Coherent
  written_nodup : (Entries.keys table.written).Nodup

theorem nodup_keys_release {written : List (Symbol × Char)}
    (hnodup : (Entries.keys written).Nodup) (named : List (Char × Symbol)) (previous : Symbol) :
    (Entries.keys (release named previous written)).Nodup := by
  unfold release
  split
  · exact Entries.nodup_keys_put hnodup
  · exact Entries.nodup_keys_remove hnodup previous

theorem nodup_keys_claim {written : List (Symbol × Char)}
    (hnodup : (Entries.keys written).Nodup) (symbol : Symbol) (c : Char) :
    (Entries.keys (claim symbol c written)).Nodup := by
  unfold claim
  split
  · exact hnodup
  · exact Entries.nodup_keys_put hnodup

namespace Settled

theorem insert (h : table.Settled) (c : Char) (symbol : Symbol) :
    (table.insert c symbol).Settled := by
  refine ⟨h.coherent.insert c symbol, ?_⟩
  unfold SymbolTable.insert
  apply nodup_keys_claim
  split
  · split
    · exact nodup_keys_release h.written_nodup _ _
    · exact h.written_nodup
  · exact h.written_nodup

theorem alike (h : table.Settled) (hnamed : other.named.Perm table.named)
    (hwritten : other.written.Perm table.written) : other.Alike table where
  symbolFor?_eq := Entries.find?_of_perm hnamed h.coherent.keys_nodup
  charFor?_eq := Entries.find?_of_perm hwritten h.written_nodup

theorem rearrange (h : table.Settled) (hnamed : other.named.Perm table.named)
    (hwritten : other.written.Perm table.written) : other.Settled where
  written_nodup := Entries.nodup_keys_of_perm hwritten h.written_nodup
  coherent :=
    { keys_nodup := Entries.nodup_keys_of_perm hnamed h.coherent.keys_nodup
      symbolFor?_of_charFor? := by
        intro symbol c hc
        have halike := h.alike hnamed hwritten
        rw [halike.charFor?_eq] at hc
        rw [halike.symbolFor?_eq]
        exact h.coherent.symbolFor?_of_charFor? symbol c hc
      exists_charFor? := by
        intro c symbol hsymbol
        have halike := h.alike hnamed hwritten
        rw [halike.symbolFor?_eq] at hsymbol
        rw [halike.charFor?_eq]
        exact h.coherent.exists_charFor? c symbol hsymbol }

end Settled

theorem ofPairs_concat (pairs : List (Char × Symbol)) (c : Char) (symbol : Symbol) :
    ofPairs (pairs ++ [(c, symbol)]) = (ofPairs pairs).insert c symbol := by
  rw [ofPairs, List.foldl_append, ofPairs]
  rfl

theorem Reached.settled_and_alike {pairs : List (Char × Symbol)} (h : Reached pairs table) :
    table.Settled ∧ table.Alike (ofPairs pairs) := by
  induction h with
  | empty => exact ⟨⟨coherent_empty, List.nodup_nil⟩, ⟨fun _ => rfl, fun _ => rfl⟩⟩
  | insert _ c symbol ih =>
      rw [ofPairs_concat]
      exact ⟨ih.left.insert c symbol,
        ih.right.insert ih.left.coherent (coherent_ofPairs _) c symbol⟩
  | rearrange _ hnamed hwritten ih =>
      have halike := ih.left.alike hnamed hwritten
      refine ⟨ih.left.rearrange hnamed hwritten, ?_, ?_⟩
      · exact fun c => (halike.symbolFor?_eq c).trans (ih.right.symbolFor?_eq c)
      · exact fun symbol => (halike.charFor?_eq symbol).trans (ih.right.charFor?_eq symbol)

/-!
# Both directions
-/

theorem symbolFor?_ofPairs (pairs : List (Char × Symbol)) (c : Char) :
    (ofPairs pairs).symbolFor? c = pairs.reverse.lookup c := by
  induction pairs using List.reverseRecOn with
  | nil => rfl
  | append_singleton pairs pair ih =>
      rcases pair with ⟨d, symbol⟩
      rw [ofPairs_concat, symbolFor?_insert, List.reverse_concat, List.lookup_cons, ih]
      by_cases heq : d = c
      · rw [if_pos heq, beq_iff_eq.mpr heq.symm]
      · rw [if_neg heq, beq_eq_false_iff_ne.mpr (Ne.symm heq)]

/-- After any insertions the two directions agree, and the order in which a table keeps its
entries makes no difference to them. -/
theorem directions_agree (pairs : List (Char × Symbol)) :
    let table := ofPairs pairs
    (forall c, table.symbolFor? c = pairs.reverse.lookup c) ∧
      (forall symbol c, table.charFor? symbol = some c -> table.symbolFor? c = some symbol) ∧
      (forall symbol,
        table.charFor? symbol = none ↔ forall c, table.symbolFor? c ≠ some symbol) ∧
      (forall c symbol other,
        Respelled table c symbol other ((table.insert c symbol).charFor? other)) ∧
      forall other, Reached pairs other -> other.Alike table := by
  have hcoherent := coherent_ofPairs pairs
  refine ⟨symbolFor?_ofPairs pairs, hcoherent.symbolFor?_of_charFor?, ?_,
    hcoherent.respelled_insert, ?_⟩
  · exact fun symbol => hcoherent.charFor?_eq_none_iff
  · exact fun other hother => hother.settled_and_alike.right

end SymbolTable
end GridRules
