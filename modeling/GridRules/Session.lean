import GridRules.Engine
import GridRules.RuleText.Writer
import GridRules.Script

/-!
# Sessions

A session is what an interactive display keeps between frames: the grid it
started from, the grid it shows, the engine that makes the next one, and
whether it is playing.  Loading rule text starts over from the first grid with
a fresh engine, which draws from the next stream of the session's seed.

A session counts frames only below the bound of its configuration, so its
frame number fits into 64 bits if that bound does.
-/

namespace GridRules

structure Session where
  table : SymbolTable
  config : Config
  root : Generator
  engine : Engine Generator
  initial : Grid Symbol
  grid : Grid Symbol
  playing : Bool
  frame : Nat
  inspection : Option String

namespace Session

/-!
# Starting sessions
-/

def start (rules : RuleSet) (config : Config) (table : SymbolTable) :
    Except FillFailure Session := do
  let initial <- config.initialGrid table
  let opened := (Generator.ofSeed config.seed).openStream
  .ok
    { table := table
      config := config
      root := opened.2
      engine := (Engine.ofGenerator rules opened.1).withBound config.maxSteps
      initial := initial
      grid := initial
      playing := config.startPlaying
      frame := 0
      inspection := none }

def ofScript (script : Script) (config : Config) : Except FillFailure Session :=
  start (RuleText.decodeOrEmpty SymbolTable.standard script.source) config SymbolTable.standard

/-!
# Playing
-/

def toggle (session : Session) : Session :=
  { session with playing := !session.playing }

/-- Show the next frame, and tell whether a rule fired.  At a fixed point, and
once as many frames as the configuration allows were shown since rules were
last loaded, the grid stays as it is and playing stops. -/
def nextFrame (session : Session) : Bool × Session :=
  if session.engine.maxSteps ≤ session.frame then
    (false, { session with playing := false })
  else
    match session.engine.advance session.grid with
    | (.advanced next, after) =>
        ( true,
          { session with
            engine := after
            grid := next
            frame := session.frame + 1 } )
    | (.fixedPoint, after) =>
        ( false,
          { session with
            engine := after
            playing := false } )

/-!
# Loading rules
-/

/-- Read rule text and start over with it.  Invalid text loads the rule set
that never fires. -/
def load (session : Session) (text : String) : Session :=
  let opened := session.root.openStream
  { session with
    root := opened.2
    engine :=
      (Engine.ofGenerator (RuleText.decodeOrEmpty session.table text) opened.1).withBound
        session.config.maxSteps
    grid := session.initial
    frame := 0
    inspection := none }

def loadScript (session : Session) (script : Script) : Session :=
  session.load script.source

def script? (session : Session) : Option Script :=
  Script.ofRules? session.engine.rules session.table

def text (session : Session) : Except RuleFault String :=
  RuleText.encode session.table session.engine.rules

/-!
# Inspecting cells
-/

def report (tuple : List Nat) (symbol : Symbol) (index : Nat) (decoded : List Nat) : String :=
  Text.numberList tuple ++ ": " ++ symbol.text ++ "\nShould be at: " ++ toString index ++
    " -> " ++ Text.numberList decoded

/-- Report on the cell at a coordinate tuple and keep the report.  A tuple that
names no cell leaves the session as it is. -/
def inspect (session : Session) (tuple : List Nat) : Option String × Session :=
  match session.grid.indexOf? tuple with
  | none => (none, session)
  | some index =>
      match session.grid.get? index with
      | none => (none, session)
      | some symbol =>
          let text := report tuple symbol index (session.grid.edges.coordinates index)
          (some text, { session with inspection := some text })

end Session
end GridRules
