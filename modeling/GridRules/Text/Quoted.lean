import GridRules.Text.Hidden

/-!
# Quoted text

Messages show a piece of rule text between quotation marks.  Backslash
sequences stand for the backslash, the surrounding mark, tab, line feed,
carriage return and the null character.  Any other hidden character is shown by
its code point in hexadecimal.
-/

namespace GridRules
namespace Text

def shown (mark c : Char) : List Char :=
  if c = '\x00' then ['\\', '0']
  else if c = '\t' then ['\\', 't']
  else if c = '\r' then ['\\', 'r']
  else if c = '\n' then ['\\', 'n']
  else if c = '\\' || c = mark then ['\\', c]
  else if isHidden c then
    ['\\', 'u', '\x7b'] ++ Nat.toDigits 16 c.toNat ++ ['\x7d']
  else [c]

def quoted (text : List Char) : String :=
  String.ofList ('\x22' :: text.flatMap (shown '\x22') ++ ['\x22'])

def quotedChar (c : Char) : String :=
  String.ofList ('\x27' :: shown '\x27' c ++ ['\x27'])

end Text
end GridRules
