import GridRules.Json.Token

/-!
# Reading JSON

Tokens are read one after another.  Open arrays and objects wait on a stack
until the value inside of them is complete.
-/

namespace GridRules
namespace Json

/-- An array or object that waits for a value.  What it holds so far is kept in
reverse. -/
inductive Frame where
  | array (items : List Json)
  | object (members : List (List Nat × Json)) (key : List Nat)

inductive Expecting where
  | value
  | itemOrClose
  | keyOrClose
  | key (members : List (List Nat × Json))
  | colon (members : List (List Nat × Json)) (key : List Nat)
  | next (done : Json)

/-- State of reading: the frames around the next token, innermost first. -/
structure ReadState where
  expecting : Expecting
  frames : List Frame

namespace ReadState

def done (value : Json) (frames : List Frame) : ReadState where
  expecting := .next value
  frames := frames

def begin? (frames : List Frame) : Token -> Option ReadState
  | .openBrace => some { expecting := .keyOrClose, frames := frames }
  | .openBracket => some { expecting := .itemOrClose, frames := frames }
  | .null => some (done .null frames)
  | .bool value => some (done (.bool value) frames)
  | .number spelling => some (done (.number spelling) frames)
  | .string points => some (done (.string points) frames)
  | _ => none

def after? (value : Json) : List Frame -> Token -> Option ReadState
  | .array items :: frames, .comma =>
      some { expecting := .value, frames := .array (value :: items) :: frames }
  | .array items :: frames, .closeBracket =>
      some (done (.array (value :: items).reverse) frames)
  | .object members key :: frames, .comma =>
      some { expecting := .key ((key, value) :: members), frames := frames }
  | .object members key :: frames, .closeBrace =>
      some (done (.object ((key, value) :: members).reverse) frames)
  | _, _ => none

def step? (state : ReadState) (token : Token) : Option ReadState :=
  match state.expecting with
  | .value => begin? state.frames token
  | .itemOrClose =>
      if token = .closeBracket then some (done (.array []) state.frames)
      else begin? (.array [] :: state.frames) token
  | .keyOrClose =>
      match token with
      | .closeBrace => some (done (.object []) state.frames)
      | .string points => some { state with expecting := .colon [] points }
      | _ => none
  | .key members =>
      match token with
      | .string points => some { state with expecting := .colon members points }
      | _ => none
  | .colon members key =>
      if token = .colon then
        some { expecting := .value, frames := .object members key :: state.frames }
      else none
  | .next value => after? value state.frames token

end ReadState

def ofTokens? (tokens : List Token) : Option Json :=
  match tokens.foldlM ReadState.step? { expecting := .value, frames := [] } with
  | some { expecting := .next value, frames := [] } => some value
  | _ => none

def parse? (text : String) : Option Json :=
  (tokens? text.toList).bind ofTokens?

end Json
end GridRules
