import GridRules.Config
import GridRules.Json.Reader
import GridRules.Json.Writer
import GridRules.Random.Generator
import GridRules.Rule.Progress

/-!
# Saved states

Configurations, generator states, progress and symbols are saved as JSON.
Numbers are spelled with digits only and have to fit their type.

## Nesting

Progress trees may be nested to any depth, but saved text may not: arrays and
objects that hold part of a saved state are nested at most 127 deep.  What is
ignored does not count.
-/

namespace GridRules

/-- Nesting that saved text may have. -/
def savedDepth : Nat := 127

namespace Symbol

def toJson (symbol : Symbol) : Json :=
  Json.ofNat symbol.index.toNat

def ofJson? (value : Json) : Option Symbol := do
  let index <- Json.natBelow? UInt8.size value
  some { index := UInt8.ofNat index }

end Symbol

namespace Config

def toJson (config : Config) : Json :=
  Json.record
    [ ("seed", Json.ofNat config.seed.toNat),
      ("edges", .array (config.edges.map Json.ofNat)),
      ("fill", Json.ofChars [config.fill]),
      ("max_steps", Json.ofNat config.maxSteps),
      ("start_playing", .bool config.startPlaying) ]

def ofJson? (value : Json) : Option Config := do
  match <- Json.fields? ["seed", "edges", "fill", "max_steps", "start_playing"] value with
  | [seed, .array edges, fill, maxSteps, .bool startPlaying] =>
      let seed <- Json.natBelow? UInt64.size seed
      let edges <- edges.mapM (Json.natBelow? UInt64.size)
      let maxSteps <- Json.natBelow? UInt64.size maxSteps
      match <- Json.chars? fill with
      | [c] =>
          some
            { seed := UInt64.ofNat seed
              edges := edges
              fill := c
              maxSteps := maxSteps
              startPlaying := startPlaying }
      | _ => none
  | _ => none

end Config

namespace GeneratorState

def toJson (state : GeneratorState) : Json :=
  Json.record
    [ ("seed", Json.ofNat state.seed.toNat),
      ("stream", Json.ofNat state.stream.toNat),
      ("word_pos", Json.ofNat state.position.toNat),
      ("next_stream", Json.ofNat state.nextStream.toNat) ]

def ofJson? (value : Json) : Option GeneratorState := do
  match <- Json.fields? ["seed", "stream", "word_pos", "next_stream"] value with
  | [seed, stream, position, nextStream] =>
      let seed <- Json.natBelow? UInt64.size seed
      let stream <- Json.natBelow? UInt64.size stream
      let position <- Json.natBelow? (Nat.pow 2 128) position
      let nextStream <- Json.natBelow? UInt64.size nextStream
      some
        { seed := UInt64.ofNat seed
          stream := UInt64.ofNat stream
          position := BitVec.ofNat 128 position
          nextStream := UInt64.ofNat nextStream }
  | _ => none

end GeneratorState

namespace Progress

mutual

def toJson : Progress -> Json
  | leaf => Json.ofString "Leaf"
  | group children => Json.record [("Group", .array (toJsonAll children))]
  | limited fired inner =>
      Json.record
        [ ("Limited",
            Json.record [("fired", Json.ofNat fired.toNat), ("inner", toJson inner)]) ]
  | sequential cursor children =>
      Json.record
        [ ("Sequential",
            Json.record
              [("cursor", Json.ofNat cursor), ("children", .array (toJsonAll children))]) ]

def toJsonAll : List Progress -> List Json
  | [] => []
  | progress :: others => toJson progress :: toJsonAll others

end

def tagged? : Json -> Option (String × Json)
  | .object [(name, content)] => (Json.text? name).map fun cs => (String.ofList cs, content)
  | _ => none

/-- Progress saved in a value, when arrays and objects may be nested `depth`
deep from here on. -/
def ofJson? (depth : Nat) (value : Json) : Option Progress :=
  match Json.chars? value with
  | some name => if name = "Leaf".toList then some leaf else none
  | none =>
      match depth, tagged? value with
      | _ + 1, some ("Leaf", .null) => some leaf
      | depth + 2, some ("Group", .array items) =>
          (items.mapM (ofJson? depth)).map group
      | depth + 2, some ("Limited", content) => do
          match <- Json.fields? ["fired", "inner"] content with
          | [fired, inner] =>
              let fired <- Json.natBelow? UInt32.size fired
              let inner <- ofJson? depth inner
              some (limited (UInt32.ofNat fired) inner)
          | _ => none
      | depth + 3, some ("Sequential", content) => do
          match <- Json.fields? ["cursor", "children"] content with
          | [cursor, .array children] =>
              let cursor <- Json.natBelow? UInt64.size cursor
              let children <- children.mapM (ofJson? depth)
              some (sequential cursor children)
          | _ => none
      | _, _ => none

def rootsToJson (roots : List Progress) : Json :=
  Json.record [("roots", .array (toJsonAll roots))]

def rootsOfJson? (value : Json) : Option (List Progress) := do
  match <- Json.fields? ["roots"] value with
  | [.array roots] => roots.mapM (ofJson? (savedDepth - 2))
  | _ => none

end Progress
end GridRules
