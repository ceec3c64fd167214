import GridRules.Text.Numeral

/-!
# JSON values

Saved states are JSON text.  A value keeps what the text says and nothing is
rounded: numbers are kept as they are spelled, members of an object in order
and with repetitions.

A string is a list of code points.  An escape may denote half of a surrogate
pair.  A half without its other half stays in the list, and a string that
contains one denotes no text.
-/

namespace GridRules

inductive Json where
  | null
  | bool (value : Bool)
  | number (spelling : List Char)
  | string (points : List Nat)
  | array (items : List Json)
  | object (members : List (List Nat × Json))
deriving Inhabited

namespace Json

/-!
# Text
-/

def text? : List Nat -> Option (List Char)
  | [] => some []
  | point :: points =>
      if point.isValidChar then (text? points).map (Char.ofNat point :: ·) else none

def ofChars (cs : List Char) : Json :=
  .string (cs.map Char.toNat)

def ofString (s : String) : Json :=
  ofChars s.toList

def chars? : Json -> Option (List Char)
  | string points => text? points
  | _ => none

theorem text?_map_toNat (cs : List Char) : text? (cs.map Char.toNat) = some cs := by
  induction cs with
  | nil => rfl
  | cons c cs ih =>
      have hvalid : c.toNat.isValidChar := c.valid
      simp [text?, ih, hvalid]

/-!
# Numbers
-/

def ofNat (n : Nat) : Json :=
  .number (Text.numeral n)

def nat? : Json -> Option Nat
  | number spelling => Text.digits? spelling
  | _ => none

def natBelow? (limit : Nat) (value : Json) : Option Nat :=
  (nat? value).filter fun n => n < limit

theorem nat?_ofNat (n : Nat) : nat? (ofNat n) = some n :=
  Text.digits?_numeral n

/-!
# Records

A record is written as an object with one member for each field.  It may also
be given as an array of exactly its fields in order.
-/

def named? : List (List Nat × Json) -> Option (List (List Char × Json))
  | [] => some []
  | (key, value) :: members => do
      let name <- text? key
      let rest <- named? members
      some ((name, value) :: rest)

def only? (members : List (List Char × Json)) (name : String) : Option Json :=
  match members.filter fun entry => entry.1 = name.toList with
  | [(_, value)] => some value
  | _ => none

/-- Values of the named fields of a record.  Members with other names are
ignored, but no field may be missing or repeated. -/
def fields? (names : List String) : Json -> Option (List Json)
  | array items => if items.length = names.length then some items else none
  | object members => (named? members).bind fun entries => names.mapM (only? entries)
  | _ => none

def record (members : List (String × Json)) : Json :=
  .object (members.map fun entry => (entry.1.toList.map Char.toNat, entry.2))

end Json
end GridRules
