import GridRules.Text.Numeral

/-!
# Symbols

A symbol is the value of a grid cell: a number below 256.  The first sixteen
symbols have a colour in the default palette.
-/

namespace GridRules

structure Symbol where
  index : UInt8
deriving DecidableEq, Inhabited

namespace Symbol

def black : Symbol := ⟨0⟩
def darkGreen : Symbol := ⟨3⟩
def white : Symbol := ⟨7⟩
def red : Symbol := ⟨8⟩
def green : Symbol := ⟨11⟩
def blue : Symbol := ⟨12⟩

def palette : List Nat :=
  [ 0x000000, 0x1D2B53, 0x7E2553, 0x008751, 0xAB5236, 0x5F574F, 0xC2C3C7, 0xFFF1E8,
    0xFF004D, 0xFFA300, 0xFFEC27, 0x00E436, 0x29ADFF, 0x83769C, 0xFF77A8, 0xFFCCAA ]

def rgb? (symbol : Symbol) : Option Nat :=
  palette[symbol.index.toNat]?

def text (symbol : Symbol) : String :=
  s!"Symbol({symbol.index.toNat})"

theorem rgb?_isSome (symbol : Symbol) : symbol.rgb?.isSome ↔ symbol.index < 16 := by
  simp [rgb?, palette, UInt8.lt_iff_toNat_lt]

end Symbol
end GridRules
