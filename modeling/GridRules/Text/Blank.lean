/-!
# Blank characters

Rule text may be laid out with any Unicode white space.  The zero-width space
and the byte order mark are not white space, so they count as content.
-/

namespace GridRules
namespace Text

def isBlank (c : Char) : Bool :=
  c.toNat ∈ [0x09, 0x0a, 0x0b, 0x0c, 0x0d, 0x20, 0x85, 0xa0, 0x1680,
    0x2000, 0x2001, 0x2002, 0x2003, 0x2004, 0x2005, 0x2006, 0x2007, 0x2008,
    0x2009, 0x200a, 0x2028, 0x2029, 0x202f, 0x205f, 0x3000]

def trim (cs : List Char) : List Char :=
  ((cs.dropWhile isBlank).reverse.dropWhile isBlank).reverse

theorem isBlank_of_isWhitespace {c : Char} (h : c.isWhitespace) : isBlank c := by
  simp only [Char.isWhitespace, Bool.or_eq_true, decide_eq_true_eq] at h
  rcases h with ((h | h) | h) | h <;> subst h <;> decide

@[simp] theorem trim_nil : trim [] = [] := rfl

theorem trim_eq_self {cs : List Char} (hfirst : forall c, cs.head? = some c -> isBlank c = false)
    (hlast : forall c, cs.getLast? = some c -> isBlank c = false) : trim cs = cs := by
  have hdrop : forall ds : List Char,
      (forall c, ds.head? = some c -> isBlank c = false) -> ds.dropWhile isBlank = ds := by
    intro ds hds
    cases ds with
    | nil => rfl
    | cons d rest => simp [hds d rfl]
  rw [trim, hdrop cs hfirst, hdrop, List.reverse_reverse]
  intro c hc
  exact hlast c (by simpa using hc)

end Text
end GridRules
