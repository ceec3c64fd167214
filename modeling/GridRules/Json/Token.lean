import GridRules.Json.Basic

/-!
# JSON tokens

Text is cut into punctuation, words, numbers and strings.  Blanks between
tokens are skipped.  Every token takes at least one character, so cutting ends.
-/

namespace GridRules
namespace Json

inductive Token where
  | openBrace
  | closeBrace
  | openBracket
  | closeBracket
  | colon
  | comma
  | null
  | bool (value : Bool)
  | number (spelling : List Char)
  | string (points : List Nat)
deriving DecidableEq

def isBlank (c : Char) : Bool :=
  c = ' ' || c = '\n' || c = '\t' || c = '\r'

/-!
# Strings
-/

def hexDigit? (c : Char) : Option Nat :=
  if '0' ≤ c ∧ c ≤ '9' then some (c.toNat - 48)
  else if 'a' ≤ c ∧ c ≤ 'f' then some (c.toNat - 87)
  else if 'A' ≤ c ∧ c ≤ 'F' then some (c.toNat - 55)
  else none

def hexUnit? (a b c d : Char) : Option Nat := do
  let a <- hexDigit? a
  let b <- hexDigit? b
  let c <- hexDigit? c
  let d <- hexDigit? d
  some (((a * 16 + b) * 16 + c) * 16 + d)

def escape? (c : Char) : Option Nat :=
  if c = '\x22' ∨ c = '\\' ∨ c = '/' then some c.toNat
  else if c = 'b' then some 0x08
  else if c = 'f' then some 0x0c
  else if c = 'n' then some 0x0a
  else if c = 'r' then some 0x0d
  else if c = 't' then some 0x09
  else none

/-- Code units up to the closing quotation mark, and the text after it. -/
def scanString : List Char -> Option (List Nat × List Char)
  | [] => none
  | '\\' :: 'u' :: a :: b :: c :: d :: rest =>
      match hexUnit? a b c d with
      | none => none
      | some unit => (scanString rest).map fun found => (unit :: found.1, found.2)
  | '\\' :: c :: rest =>
      match escape? c with
      | none => none
      | some unit => (scanString rest).map fun found => (unit :: found.1, found.2)
  | c :: rest =>
      if c = '\x22' then some ([], rest)
      else if c.toNat < 0x20 then none
      else (scanString rest).map fun found => (c.toNat :: found.1, found.2)

/-- Join the two halves of surrogate pairs. -/
def joinPairs : List Nat -> List Nat
  | high :: low :: rest =>
      if 0xd800 ≤ high ∧ high < 0xdc00 ∧ 0xdc00 ≤ low ∧ low < 0xe000 then
        (0x10000 + (high - 0xd800) * 0x400 + (low - 0xdc00)) :: joinPairs rest
      else high :: joinPairs (low :: rest)
  | units => units

theorem scanString_length {cs rest : List Char} {units : List Nat}
    (h : scanString cs = some (units, rest)) : rest.length < cs.length := by
  fun_induction scanString cs generalizing units with
  | case1 => cases h
  | case2 => cases h
  | case3 a b c d tail unit hunit ih =>
      rcases Option.map_eq_some_iff.mp h with ⟨⟨more, left⟩, hfound, heq⟩
      injection heq with _ hrest
      subst hrest
      have hlt : left.length < tail.length := ih hfound
      simp only [List.length_cons]
      omega
  | case4 => cases h
  | case5 c tail hnot unit hunit ih =>
      rcases Option.map_eq_some_iff.mp h with ⟨⟨more, left⟩, hfound, heq⟩
      injection heq with _ hrest
      subst hrest
      have hlt : left.length < tail.length := ih hfound
      simp only [List.length_cons]
      omega
  | case6 =>
      cases h
      simp
  | case7 => cases h
  | case8 c tail hnot hplain hquote hlow ih =>
      rcases Option.map_eq_some_iff.mp h with ⟨⟨more, left⟩, hfound, heq⟩
      injection heq with _ hrest
      subst hrest
      have hlt : left.length < tail.length := ih hfound
      simp only [List.length_cons]
      omega

/-!
# Numbers
-/

def isExponent : List Char -> Bool
  | [] => true
  | mark :: rest =>
      let digits :=
        match rest with
        | '+' :: cs => cs
        | '-' :: cs => cs
        | cs => cs
      (mark = 'e' || mark = 'E') && !digits.isEmpty && digits.all Char.isDigit

def isFraction : List Char -> Bool
  | '.' :: rest =>
      !(rest.takeWhile Char.isDigit).isEmpty && isExponent (rest.dropWhile Char.isDigit)
  | cs => isExponent cs

/-- A number has no sign, or a minus sign.  Only zero begins with a zero. -/
def isNumber (cs : List Char) : Bool :=
  let unsigned :=
    match cs with
    | '-' :: rest => rest
    | rest => rest
  match unsigned with
  | '0' :: rest => isFraction rest
  | digits =>
      !(digits.takeWhile Char.isDigit).isEmpty && isFraction (digits.dropWhile Char.isDigit)

def isNumberChar (c : Char) : Bool :=
  c.isDigit || c = '-' || c = '+' || c = '.' || c = 'e' || c = 'E'

/-!
# Cutting text
-/

def punctuation? (c : Char) : Option Token :=
  if c = '\x7b' then some .openBrace
  else if c = '\x7d' then some .closeBrace
  else if c = '[' then some .openBracket
  else if c = ']' then some .closeBracket
  else if c = ':' then some .colon
  else if c = ',' then some .comma
  else none

def word? (cs : List Char) : Option Token :=
  if cs = "null".toList then some .null
  else if cs = "true".toList then some (.bool true)
  else if cs = "false".toList then some (.bool false)
  else none

def scanToken (c : Char) (rest : List Char) : Option (Token × List Char) :=
  match punctuation? c with
  | some token => some (token, rest)
  | none =>
      if c = '\x22' then
        (scanString rest).map fun found => (.string (joinPairs found.1), found.2)
      else if c.isAlpha then
        (word? (c :: rest.takeWhile Char.isAlpha)).map
          fun token => (token, rest.dropWhile Char.isAlpha)
      else
        let spelling := c :: rest.takeWhile isNumberChar
        if isNumber spelling then some (.number spelling, rest.dropWhile isNumberChar)
        else none

theorem scanToken_length {c : Char} {cs rest : List Char} {token : Token}
    (h : scanToken c cs = some (token, rest)) : rest.length ≤ cs.length := by
  unfold scanToken at h
  split at h
  · cases h
    exact Nat.le_refl _
  · split at h
    · rcases Option.map_eq_some_iff.mp h with ⟨⟨units, left⟩, hfound, heq⟩
      cases heq
      exact Nat.le_of_lt (scanString_length hfound)
    · split at h
      · rcases Option.map_eq_some_iff.mp h with ⟨found, _, heq⟩
        cases heq
        exact (List.dropWhile_sublist _).length_le
      · dsimp only at h
        split at h
        · cases h
          exact (List.dropWhile_sublist _).length_le
        · cases h

def tokens? (cs : List Char) : Option (List Token) :=
  match _hblank : cs.dropWhile isBlank with
  | [] => some []
  | c :: rest =>
      match _hscan : scanToken c rest with
      | none => none
      | some (token, left) => (tokens? left).map (token :: ·)
termination_by cs.length
decreasing_by
  have hsub := (List.dropWhile_sublist (l := cs) isBlank).length_le
  rw [_hblank, List.length_cons] at hsub
  have hlen := scanToken_length _hscan
  omega

end Json
end GridRules
