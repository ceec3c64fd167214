import GridRules.Json.Basic

/-!
# Writing JSON

Values are written without blanks.  In a string, the quotation mark, the
backslash and the control characters are escaped, and everything else stands
for itself.
-/

namespace GridRules
namespace Json

/-!
# Strings
-/

def hexUnit (unit : Nat) : List Char :=
  let digits := Nat.toDigits 16 unit
  List.replicate (4 - digits.length) '0' ++ digits

def writePoint (point : Nat) : List Char :=
  if point = 0x22 then ['\\', '\x22']
  else if point = 0x5c then ['\\', '\\']
  else if point = 0x08 then ['\\', 'b']
  else if point = 0x09 then ['\\', 't']
  else if point = 0x0a then ['\\', 'n']
  else if point = 0x0c then ['\\', 'f']
  else if point = 0x0d then ['\\', 'r']
  else if point < 0x20 || !point.isValidChar then ['\\', 'u'] ++ hexUnit point
  else [Char.ofNat point]

def writeString (points : List Nat) : List Char :=
  '\x22' :: points.flatMap writePoint ++ ['\x22']

/-!
# Values
-/

mutual

def write : Json -> List Char
  | null => "null".toList
  | bool true => "true".toList
  | bool false => "false".toList
  | number spelling => spelling
  | string points => writeString points
  | array items => '[' :: [','].intercalate (writeItems items) ++ [']']
  | object members => '\x7b' :: [','].intercalate (writeMembers members) ++ ['\x7d']

def writeItems : List Json -> List (List Char)
  | [] => []
  | item :: items => write item :: writeItems items

def writeMembers : List (List Nat × Json) -> List (List Char)
  | [] => []
  | (key, value) :: members =>
      (writeString key ++ ':' :: write value) :: writeMembers members

end

def render (value : Json) : String :=
  String.ofList (write value)

end Json
end GridRules
