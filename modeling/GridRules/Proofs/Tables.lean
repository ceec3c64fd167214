import Mathlib.Data.List.Nodup
import GridRules.Symbol.Table

/-!
# Symbol tables stay coherent

A table keeps two directions of one naming, and every insertion updates both.
Tables are reached from the empty table by insertions, so what each insertion
preserves holds of all of them.

## Main statements

A symbol that is written is written with one of its names, and a symbol that
has a name is written.
-/

namespace GridRules

namespace Entries

variable {key value : Type} [DecidableEq key]

def keys (entries : List (key × value)) : List key :=
  entries.map Prod.fst

theorem mem_of_find?_eq_some {k : key} {v : value} {entries : List (key × value)}
    (h : find? k entries = some v) : (k, v) ∈ entries := by
  induction entries with
  | nil => cases h
  | cons entry rest ih =>
      unfold find? at h
      split at h
      · rename_i hkey
        rw [← hkey, ← Option.some.inj h]
        exact List.mem_cons_self
      · exact List.mem_cons_of_mem entry (ih h)

theorem find?_eq_some_of_mem {k : key} {v : value} {entries : List (key × value)}
    (hnodup : (keys entries).Nodup) (h : (k, v) ∈ entries) : find? k entries = some v := by
  induction entries with
  | nil => cases h
  | cons entry rest ih =>
      rw [keys, List.map_cons, List.nodup_cons] at hnodup
      unfold find?
      cases List.mem_cons.mp h with
      | inl heq => rw [← heq, if_pos rfl]
      | inr hrest =>
          have hne : entry.1 ≠ k := by
            intro heq
            apply hnodup.left
            rw [heq]
            exact List.mem_map_of_mem hrest
          rw [if_neg hne]
          exact ih hnodup.right hrest

theorem mem_keys_put {k other : key} {v : value} {entries : List (key × value)}
    (h : other ∈ keys (put k v entries)) : other = k ∨ other ∈ keys entries := by
  induction entries with
  | nil => exact Or.inl (List.mem_singleton.mp h)
  | cons entry rest ih =>
      unfold put at h
      split at h
      · rename_i hkey
        rw [keys, List.map_cons, ← hkey] at h
        exact Or.inr h
      · rw [keys, List.map_cons, List.mem_cons] at h
        rw [keys, List.map_cons, List.mem_cons]
        cases h with
        | inl hhead => exact Or.inr (Or.inl hhead)
        | inr htail => exact (ih htail).imp id Or.inr

theorem nodup_keys_put {k : key} {v : value} {entries : List (key × value)}
    (h : (keys entries).Nodup) : (keys (put k v entries)).Nodup := by
  induction entries with
  | nil => exact List.nodup_singleton k
  | cons entry rest ih =>
      unfold put
      split
      · rename_i hkey
        rw [keys, List.map_cons, ← hkey]
        exact h
      · rename_i hkey
        rw [keys, List.map_cons, List.nodup_cons] at h ⊢
        refine ⟨?_, ih h.right⟩
        intro hmem
        cases mem_keys_put hmem with
        | inl heq => exact hkey heq
        | inr hrest => exact h.left hrest

end Entries

namespace SymbolTable

/-!
# Names that remain
-/

theorem mem_of_smallestName? {symbol : Symbol} {c : Char} {named : List (Char × Symbol)}
    (h : smallestName? symbol named = some c) : (c, symbol) ∈ named := by
  induction named generalizing c with
  | nil => cases h
  | cons entry rest ih =>
      rcases entry with ⟨first, owner⟩
      unfold smallestName? at h
      split at h
      · rename_i howner
        rw [howner]
        split at h
        · rename_i other hother
          rw [← Option.some.inj h]
          split
          · exact List.mem_cons_of_mem _ (ih hother)
          · exact List.mem_cons_self
        · rw [← Option.some.inj h]
          exact List.mem_cons_self
      · exact List.mem_cons_of_mem _ (ih h)

theorem exists_smallestName? {symbol : Symbol} {c : Char} {named : List (Char × Symbol)}
    (h : (c, symbol) ∈ named) : exists name, smallestName? symbol named = some name := by
  induction named with
  | nil => cases h
  | cons entry rest ih =>
      rcases entry with ⟨first, owner⟩
      unfold smallestName?
      by_cases howner : owner = symbol
      · rw [if_pos howner]
        cases smallestName? symbol rest with
        | none => exact ⟨first, rfl⟩
        | some other => exact ⟨_, rfl⟩
      · rw [if_neg howner]
        cases List.mem_cons.mp h with
        | inl heq =>
            cases heq
            exact absurd rfl howner
        | inr hrest => exact ih hrest

/-!
# One insertion
-/

theorem find?_release (named : List (Char × Symbol)) (symbol : Symbol)
    (written : List (Symbol × Char)) (other : Symbol) :
    Entries.find? other (release named symbol written) =
      if symbol = other then smallestName? symbol named else Entries.find? other written := by
  unfold release
  cases smallestName? symbol named with
  | none => exact Entries.find?_remove symbol written other
  | some c => exact Entries.find?_put symbol c written other

theorem find?_claim (symbol : Symbol) (c : Char) (written : List (Symbol × Char))
    (other : Symbol) :
    Entries.find? other (claim symbol c written) =
      if symbol = other then some ((Entries.find? symbol written).getD c)
      else Entries.find? other written := by
  unfold claim
  cases hfound : Entries.find? symbol written with
  | none => exact Entries.find?_put symbol c written other
  | some d =>
      by_cases hother : symbol = other
      · rw [if_pos hother, ← hother, hfound]
        rfl
      · rw [if_neg hother]

/-- A character is taken away from the symbol that it was the written name of. -/
def Displaces (table : SymbolTable) (c : Char) (symbol other : Symbol) : Prop :=
  table.symbolFor? c = some other ∧ other ≠ symbol ∧ table.charFor? other = some c

theorem charFor?_insert_of_ne (table : SymbolTable) (c : Char) {symbol other : Symbol}
    (hne : symbol ≠ other) :
    (Displaces table c symbol other ∧ (table.insert c symbol).charFor? other =
        smallestName? other (table.insert c symbol).named) ∨
      (¬ Displaces table c symbol other ∧
        (table.insert c symbol).charFor? other = table.charFor? other) := by
  unfold charFor? insert
  rw [find?_claim, if_neg hne]
  cases hnamed : table.symbolFor? c with
  | none =>
      refine Or.inr ⟨?_, rfl⟩
      intro h
      cases hnamed.symm.trans h.left
  | some previous =>
      by_cases htaken : previous ≠ symbol ∧ table.charFor? previous = some c
      · dsimp only
        rw [if_pos htaken, find?_release]
        by_cases hprevious : previous = other
        · subst hprevious
          exact Or.inl ⟨⟨hnamed, htaken⟩, if_pos rfl⟩
        · refine Or.inr ⟨?_, if_neg hprevious⟩
          intro h
          exact hprevious (Option.some.inj (hnamed.symm.trans h.left))
      · dsimp only
        rw [if_neg htaken]
        refine Or.inr ⟨?_, rfl⟩
        intro h
        cases hnamed.symm.trans h.left
        exact htaken h.right

theorem charFor?_insert_self (table : SymbolTable) (c : Char) (symbol : Symbol) :
    (table.insert c symbol).charFor? symbol = some ((table.charFor? symbol).getD c) := by
  unfold charFor? insert
  rw [find?_claim, if_pos rfl]
  cases hnamed : table.symbolFor? c with
  | none => rfl
  | some previous =>
      by_cases htaken : previous ≠ symbol ∧ table.charFor? previous = some c
      · dsimp only
        rw [if_pos htaken, find?_release, if_neg htaken.left]
      · dsimp only
        rw [if_neg htaken]

/-!
# All insertions
-/

structure Coherent (table : SymbolTable) : Prop where
  keys_nodup : (Entries.keys table.named).Nodup
  symbolFor?_of_charFor? : forall symbol c,
    table.charFor? symbol = some c -> table.symbolFor? c = some symbol
  exists_charFor? : forall c symbol,
    table.symbolFor? c = some symbol -> exists name, table.charFor? symbol = some name

theorem coherent_empty : Coherent empty where
  keys_nodup := List.nodup_nil
  symbolFor?_of_charFor? := by
    intro symbol c h
    cases h
  exists_charFor? := by
    intro c symbol h
    cases h

namespace Coherent

variable {table : SymbolTable}

theorem keys_nodup_insert (h : table.Coherent) (c : Char) (symbol : Symbol) :
    (Entries.keys (table.insert c symbol).named).Nodup :=
  Entries.nodup_keys_put h.keys_nodup

theorem symbolFor?_of_charFor?_insert (h : table.Coherent) {c d : Char} {symbol other : Symbol}
    (hd : (table.insert c symbol).charFor? other = some d) :
    (table.insert c symbol).symbolFor? d = some other := by
  by_cases hother : symbol = other
  · subst hother
    rw [charFor?_insert_self] at hd
    rw [symbolFor?_insert]
    split
    · rfl
    · rename_i hne
      cases hwritten : table.charFor? symbol with
      | none =>
          rw [hwritten] at hd
          exact absurd (Option.some.inj hd) hne
      | some name =>
          rw [hwritten] at hd
          cases hd
          exact h.symbolFor?_of_charFor? symbol name hwritten
  · cases charFor?_insert_of_ne table c hother with
    | inl hdisplaced =>
        rw [hdisplaced.right] at hd
        exact Entries.find?_eq_some_of_mem (h.keys_nodup_insert c symbol)
          (mem_of_smallestName? hd)
    | inr hkept =>
        rw [hkept.right] at hd
        have hnamed := h.symbolFor?_of_charFor? other d hd
        -- Otherwise the inserted character would have been taken from the symbol.
        have hne : c ≠ d := by
          intro heq
          subst heq
          exact hkept.left ⟨hnamed, Ne.symm hother, hd⟩
        rw [symbolFor?_insert, if_neg hne]
        exact hnamed

theorem exists_charFor?_insert (h : table.Coherent) {c d : Char} {symbol other : Symbol}
    (hd : (table.insert c symbol).symbolFor? d = some other) :
    exists name, (table.insert c symbol).charFor? other = some name := by
  by_cases hother : symbol = other
  · subst hother
    exact ⟨_, charFor?_insert_self table c symbol⟩
  · cases charFor?_insert_of_ne table c hother with
    | inl hdisplaced =>
        rw [hdisplaced.right]
        exact exists_smallestName? (Entries.mem_of_find?_eq_some hd)
    | inr hkept =>
        rw [symbolFor?_insert] at hd
        split at hd
        · exact absurd (Option.some.inj hd) hother
        · rw [hkept.right]
          exact h.exists_charFor? d other hd

theorem insert (h : table.Coherent) (c : Char) (symbol : Symbol) :
    (table.insert c symbol).Coherent where
  keys_nodup := h.keys_nodup_insert c symbol
  symbolFor?_of_charFor? := fun _ _ => h.symbolFor?_of_charFor?_insert
  exists_charFor? := fun _ _ => h.exists_charFor?_insert

end Coherent

theorem Coherent.foldl {table : SymbolTable} (h : table.Coherent) (pairs : List (Char × Symbol)) :
    (pairs.foldl (fun table pair => table.insert pair.1 pair.2) table).Coherent := by
  induction pairs generalizing table with
  | nil => exact h
  | cons pair pairs ih => exact ih (h.insert pair.1 pair.2)

theorem coherent_ofPairs (pairs : List (Char × Symbol)) : (ofPairs pairs).Coherent :=
  coherent_empty.foldl pairs

end SymbolTable
end GridRules
