/-!
# Numerals

Numbers are written in decimal.  Reading accepts one optional plus sign and at
least one ASCII digit, nothing else.
-/

namespace GridRules
namespace Text

def numeral (n : Nat) : List Char :=
  Nat.toDigits 10 n

def digits? (cs : List Char) : Option Nat :=
  if cs ≠ [] && cs.all Char.isDigit then some (Nat.ofDigitChars 10 cs 0) else none

/-- Value of a numeral that may carry a plus sign. -/
def unsigned? : List Char -> Option Nat
  | '+' :: cs => digits? cs
  | cs => digits? cs

def numberList (numbers : List Nat) : String :=
  "[" ++ ", ".intercalate (numbers.map toString) ++ "]"

theorem numeral_ne_nil (n : Nat) : numeral n ≠ [] := by
  simp [numeral]

theorem isDigit_of_mem_numeral {n : Nat} {c : Char} (h : c ∈ numeral n) : c.isDigit :=
  Nat.isDigit_of_mem_toDigits (by decide) (by decide) h

theorem digits?_numeral (n : Nat) : digits? (numeral n) = some n := by
  have hall : (numeral n).all Char.isDigit = true := by
    simp only [List.all_eq_true]
    exact fun c hc => isDigit_of_mem_numeral hc
  have hvalue : Nat.ofDigitChars 10 (numeral n) 0 = n :=
    Nat.ofDigitChars_toDigits (by decide) (by decide)
  simp [digits?, numeral_ne_nil, hall, hvalue]

theorem unsigned?_numeral (n : Nat) : unsigned? (numeral n) = some n := by
  have hsign : forall cs, numeral n ≠ '+' :: cs := by
    intro cs h
    have hdigit : ('+').isDigit = true := isDigit_of_mem_numeral (n := n) (by simp [h])
    exact absurd hdigit (by decide)
  unfold unsigned?
  split
  · rename_i cs heq
    exact absurd heq (hsign cs)
  · exact digits?_numeral n

end Text
end GridRules
