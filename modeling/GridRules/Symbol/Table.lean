import GridRules.Symbol

/-!
# Symbol tables

Rule text names symbols by characters.  A table holds both directions of the
naming: the symbol that each character names, and the character that each
symbol is written with.

Several characters may name one symbol.  It is written with the first of them,
as long as that character still names it.  When the character moves on to
another symbol, the smallest of the remaining names takes its place.
-/

namespace GridRules

namespace Entries

/-!
# Entries with one value for each key
-/

variable {key value : Type} [DecidableEq key]

def find? (k : key) : List (key × value) -> Option value
  | [] => none
  | entry :: rest => if entry.1 = k then some entry.2 else find? k rest

def put (k : key) (v : value) : List (key × value) -> List (key × value)
  | [] => [(k, v)]
  | entry :: rest => if entry.1 = k then (k, v) :: rest else entry :: put k v rest

def remove (k : key) (entries : List (key × value)) : List (key × value) :=
  entries.filter fun entry => entry.1 ≠ k

theorem find?_put (k : key) (v : value) (entries : List (key × value)) (other : key) :
    find? other (put k v entries) = if k = other then some v else find? other entries := by
  induction entries with
  | nil => simp [put, find?]
  | cons entry rest ih =>
      simp only [put]
      split
      · rename_i heq
        by_cases hother : k = other
        · simp [find?, hother]
        · have hhead : ¬ entry.1 = other := fun hcontra => hother (heq.symm.trans hcontra)
          simp [find?, hother, hhead]
      · rename_i hne
        by_cases hhead : entry.1 = other
        · have hother : ¬ k = other := fun hcontra => hne (hhead.trans hcontra.symm)
          simp [find?, hhead, hother]
        · simp [find?, hhead, ih]

theorem remove_cons (k : key) (entry : key × value) (rest : List (key × value)) :
    remove k (entry :: rest) = if entry.1 = k then remove k rest else entry :: remove k rest := by
  by_cases h : entry.1 = k <;> simp [remove, h]

theorem find?_remove (k : key) (entries : List (key × value)) (other : key) :
    find? other (remove k entries) = if k = other then none else find? other entries := by
  induction entries with
  | nil => simp [remove, find?]
  | cons entry rest ih =>
      rw [remove_cons]
      split
      · rename_i heq
        rw [ih]
        by_cases hother : k = other
        · simp [hother]
        · have hhead : ¬ entry.1 = other := fun hcontra => hother (heq.symm.trans hcontra)
          simp [find?, hother, hhead]
      · rename_i hne
        by_cases hhead : entry.1 = other
        · have hother : ¬ k = other := fun hcontra => hne (hhead.trans hcontra.symm)
          simp [find?, hhead, hother]
        · simp [find?, hhead, ih]

end Entries

structure SymbolTable where
  named : List (Char × Symbol)
  written : List (Symbol × Char)

namespace SymbolTable

/-!
# Looking up names
-/

def empty : SymbolTable where
  named := []
  written := []

def symbolFor? (table : SymbolTable) (c : Char) : Option Symbol :=
  Entries.find? c table.named

def charFor? (table : SymbolTable) (symbol : Symbol) : Option Char :=
  Entries.find? symbol table.written

def size (table : SymbolTable) : Nat :=
  table.named.length

def isEmpty (table : SymbolTable) : Bool :=
  table.named.isEmpty

/-!
# Naming symbols
-/

def smallestName? (symbol : Symbol) : List (Char × Symbol) -> Option Char
  | [] => none
  | (c, named) :: rest =>
      if named = symbol then
        match smallestName? symbol rest with
        | some other => some (if other < c then other else c)
        | none => some c
      else smallestName? symbol rest

/-- Stop writing a symbol with a character that no longer names it. -/
def release (named : List (Char × Symbol)) (symbol : Symbol)
    (written : List (Symbol × Char)) : List (Symbol × Char) :=
  match smallestName? symbol named with
  | some c => Entries.put symbol c written
  | none => Entries.remove symbol written

/-- Write a symbol with a character unless it is already written with one. -/
def claim (symbol : Symbol) (c : Char) (written : List (Symbol × Char)) :
    List (Symbol × Char) :=
  match Entries.find? symbol written with
  | some _ => written
  | none => Entries.put symbol c written

/-- Let a character name a symbol, in place of the symbol it named before. -/
def insert (table : SymbolTable) (c : Char) (symbol : Symbol) : SymbolTable :=
  let named := Entries.put c symbol table.named
  let written :=
    match table.symbolFor? c with
    | some previous =>
        if previous ≠ symbol ∧ table.charFor? previous = some c then
          release named previous table.written
        else table.written
    | none => table.written
  { named := named
    written := claim symbol c written }

def ofPairs (pairs : List (Char × Symbol)) : SymbolTable :=
  pairs.foldl (fun table pair => table.insert pair.1 pair.2) empty

def standard : SymbolTable :=
  ofPairs
    [ ('B', ⟨0⟩), ('I', ⟨1⟩), ('P', ⟨2⟩), ('E', ⟨3⟩), ('N', ⟨4⟩), ('D', ⟨5⟩), ('A', ⟨6⟩),
      ('W', ⟨7⟩), ('R', ⟨8⟩), ('O', ⟨9⟩), ('Y', ⟨10⟩), ('G', ⟨11⟩), ('U', ⟨12⟩),
      ('S', ⟨13⟩), ('K', ⟨14⟩), ('F', ⟨15⟩) ]

theorem symbolFor?_insert (table : SymbolTable) (c : Char) (symbol : Symbol) (other : Char) :
    (table.insert c symbol).symbolFor? other =
      if c = other then some symbol else table.symbolFor? other :=
  Entries.find?_put c symbol table.named other

end SymbolTable
end GridRules
