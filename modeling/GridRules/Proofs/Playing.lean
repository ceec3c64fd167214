import Mathlib.Data.List.Induction
import GridRules.Proofs.Runs
import GridRules.Session

/-!
# Playing sessions

Calls on a session come in any order.  Only frames and loads touch its engine and the
grid that it shows, and a load starts both over.

## Main statements

After any calls, a session shows where one bounded run of a fresh engine ends.  The
rules of this run are those loaded last, its generator stands at the beginning of a
stream that only the number of loads decides, and its bound is the number of frames
since the last load, as far as the configuration allows.
-/

namespace GridRules

/-!
# Numbered streams
-/

namespace Generator

def ofStream (seed : UInt64) (number : Nat) : Generator where
  seed := seed
  stream := UInt64.ofNat number
  position := 0
  nextStream := UInt64.ofNat (number + 1)

/-- The root generator of a seed after it has opened a number of streams. -/
def root (seed : UInt64) (opened : Nat) : Generator :=
  { ofSeed seed with nextStream := UInt64.ofNat (opened + 1) }

theorem root_zero (seed : UInt64) : root seed 0 = ofSeed seed := rfl

theorem openStream_root (seed : UInt64) (opened : Nat) :
    (root seed opened).openStream =
      (ofStream seed (opened + 1), root seed (opened + 1)) := by
  simp only [openStream, root, ofSeed, ofStream, UInt64.ofNat_add (opened + 1) 1]
  rfl

end Generator

namespace Session

/-!
# Calls
-/

inductive Call where
  | frame
  | toggle
  | inspect (tuple : List Nat)
  | load (text : String)
  | loadScript (script : Script)
deriving DecidableEq

def call (session : Session) : Call -> Session
  | .frame => session.nextFrame.2
  | .toggle => session.toggle
  | .inspect tuple => (session.inspect tuple).2
  | .load text => session.load text
  | .loadScript script => session.loadScript script

def calls (session : Session) (history : List Call) : Session :=
  history.foldl call session

namespace Call

def text? : Call -> Option String
  | load text => some text
  | loadScript script => some script.source
  | _ => none

def texts (history : List Call) : List String :=
  history.filterMap text?

def loads (history : List Call) : Nat :=
  (texts history).length

/-- The rules of the last load, or the given ones if nothing was loaded. -/
def rules (table : SymbolTable) (initial : RuleSet) (history : List Call) : RuleSet :=
  ((texts history).getLast?.map (RuleText.decodeOrEmpty table)).getD initial

/-- Number of frames asked for since the last load. -/
def frames (history : List Call) : Nat :=
  (history.reverse.takeWhile fun call => call.text?.isNone).count frame

section

variable {call : Call} {text : String}

theorem texts_concat (history : List Call) (call : Call) :
    texts (history ++ [call]) = texts history ++ call.text?.toList := by
  rw [texts, List.filterMap_append]
  cases h : call.text? with
  | none => rw [List.filterMap_cons_none h]; rfl
  | some text => rw [List.filterMap_cons_some h]; rfl

theorem loads_concat (history : List Call) (call : Call) :
    loads (history ++ [call]) = loads history + call.text?.toList.length := by
  rw [loads, texts_concat, List.length_append, loads]

theorem rules_concat_of_none (table : SymbolTable) (initial : RuleSet)
    (history : List Call) (h : call.text? = none) :
    rules table initial (history ++ [call]) = rules table initial history := by
  rw [rules, texts_concat, h, Option.toList_none, List.append_nil, rules]

theorem rules_concat_of_some (table : SymbolTable) (initial : RuleSet)
    (history : List Call) (h : call.text? = some text) :
    rules table initial (history ++ [call]) = RuleText.decodeOrEmpty table text := by
  rw [rules, texts_concat, h, Option.toList_some, List.getLast?_concat, Option.map_some,
    Option.getD_some]

theorem frames_concat_of_none (history : List Call) (h : call.text? = none) :
    frames (history ++ [call]) = frames history + if call = frame then 1 else 0 := by
  have hquiet : call.text?.isNone = true := by rw [h]; rfl
  rw [frames, List.reverse_concat, List.takeWhile_cons, if_pos hquiet, List.count_cons, frames]
  simp only [beq_iff_eq]

theorem frames_concat_of_some (history : List Call) (h : call.text? = some text) :
    frames (history ++ [call]) = 0 := by
  have hloads : ¬ call.text?.isNone = true := by rw [h]; exact Bool.false_ne_true
  rw [frames, List.reverse_concat, List.takeWhile_cons, if_neg hloads, List.count_nil]

end

end Call

theorem calls_append (session : Session) (history later : List Call) :
    session.calls (history ++ later) = (session.calls history).calls later :=
  List.foldl_append

theorem calls_concat (session : Session) (history : List Call) (call : Call) :
    session.calls (history ++ [call]) = (session.calls history).call call :=
  calls_append session history [call]

/-!
# Frames
-/

section Frames

variable {session : Session} {next : Grid Symbol} {after : Engine Generator}

theorem nextFrame_of_le (h : session.engine.maxSteps ≤ session.frame) :
    session.nextFrame = (false, { session with playing := false }) :=
  if_pos h

theorem nextFrame_of_advanced (h : ¬ session.engine.maxSteps ≤ session.frame)
    (hadvance : session.engine.advance session.grid = (.advanced next, after)) :
    session.nextFrame =
      ( true,
        { session with
          engine := after
          grid := next
          frame := session.frame + 1 } ) := by
  rw [nextFrame, if_neg h, hadvance]

theorem nextFrame_of_fixedPoint (h : ¬ session.engine.maxSteps ≤ session.frame)
    (hadvance : session.engine.advance session.grid = (.fixedPoint, after)) :
    session.nextFrame =
      ( false,
        { session with
          engine := after
          playing := false } ) := by
  rw [nextFrame, if_neg h, hadvance]

theorem nextFrame_cases (session : Session) :
    (session.engine.maxSteps ≤ session.frame ∧
        session.nextFrame = (false, { session with playing := false })) ∨
      (exists next after, session.frame < session.engine.maxSteps ∧
        session.engine.advance session.grid = (.advanced next, after) ∧
        session.nextFrame =
          ( true,
            { session with
              engine := after
              grid := next
              frame := session.frame + 1 } )) ∨
      (exists after, session.frame < session.engine.maxSteps ∧
        session.engine.advance session.grid = (.fixedPoint, after) ∧
        session.nextFrame =
          ( false,
            { session with
              engine := after
              playing := false } )) := by
  by_cases hlimit : session.engine.maxSteps ≤ session.frame
  · exact Or.inl ⟨hlimit, nextFrame_of_le hlimit⟩
  · have hbelow := Nat.lt_of_not_le hlimit
    rcases hadvance : session.engine.advance session.grid with ⟨step, after⟩
    cases step with
    | advanced next =>
        exact Or.inr (Or.inl ⟨next, after, hbelow, rfl, nextFrame_of_advanced hlimit hadvance⟩)
    | fixedPoint =>
        exact Or.inr (Or.inr ⟨after, hbelow, rfl, nextFrame_of_fixedPoint hlimit hadvance⟩)

end Frames

/-- A session shows where a run ends, with the run's engine ready to go on. -/
structure Shows (session : Session) (result : RunOutcome × Engine Generator) : Prop where
  grid_eq : session.grid = result.1.grid
  frame_eq : session.frame = result.1.steps
  engine_eq : session.engine = result.2.withBound session.config.maxSteps

theorem Shows.advance {session : Session} {result : RunOutcome × Engine Generator}
    (h : session.Shows result) :
    session.engine.advance session.grid =
      ((result.2.advance result.1.grid).1,
        (result.2.advance result.1.grid).2.withBound session.config.maxSteps) := by
  rw [h.engine_eq, h.grid_eq, Engine.advance_withBound]

theorem Shows.maxSteps {session : Session} {result : RunOutcome × Engine Generator}
    (h : session.Shows result) : session.engine.maxSteps = session.config.maxSteps := by
  rw [h.engine_eq]
  rfl

/-- One more frame is one more step of the run, unless the session is at its bound. -/
theorem shows_nextFrame {session : Session} {engine : Engine Generator} {g : Grid Symbol} {frames : Nat}
    (h : session.Shows (engine.run g (min frames session.config.maxSteps))) :
    session.nextFrame.2.Shows (engine.run g (min (frames + 1) session.config.maxSteps)) := by
  have hsteps := engine.steps_run_le g (min frames session.config.maxSteps)
  by_cases hlimit : session.config.maxSteps ≤ session.frame
  · have hsame : min (frames + 1) session.config.maxSteps =
        min frames session.config.maxSteps := by
      rw [h.frame_eq] at hlimit
      omega
    rw [nextFrame_of_le (by rwa [h.maxSteps]), hsame]
    exact ⟨h.grid_eq, h.frame_eq, h.engine_eq⟩
  · have hmore : engine.run g (min (frames + 1) session.config.maxSteps) =
        engine.run g (min frames session.config.maxSteps + 1) := by
      by_cases hframes : frames < session.config.maxSteps
      · rw [Nat.min_eq_left hframes, Nat.min_eq_left (Nat.le_of_lt hframes)]
      · have hbound := Nat.le_of_not_lt hframes
        rw [h.frame_eq, Nat.min_eq_right hbound] at hlimit
        rw [Nat.min_eq_right hbound, Nat.min_eq_right (Nat.le_succ_of_le hbound),
          Engine.run_of_steps_lt (Nat.lt_of_not_le hlimit) 1]
    have hlimit' : ¬ session.engine.maxSteps ≤ session.frame := by rwa [h.maxSteps]
    have hadvance := h.advance
    rw [hmore]
    rcases hstep : (engine.run g (min frames session.config.maxSteps)).2.advance
      (engine.run g (min frames session.config.maxSteps)).1.grid with ⟨step, after⟩
    rw [hstep] at hadvance
    cases step with
    | advanced next =>
        rw [nextFrame_of_advanced hlimit' hadvance, Engine.run_concat_of_advanced hstep]
        exact ⟨rfl, congrArg (· + 1) h.frame_eq, rfl⟩
    | fixedPoint =>
        rw [nextFrame_of_fixedPoint hlimit' hadvance, Engine.run_concat_of_fixedPoint hstep]
        exact ⟨h.grid_eq, h.frame_eq, rfl⟩

/-!
# Histories

Of the calls between two loads only frames count.  What a session keeps besides its
engine, its grid and its frame number was settled when it started, except that each
load advances the root generator by one stream.
-/

/-- The run of fresh rules on a numbered stream, for as many frames as a configuration
allows. -/
def replay (config : Config) (rules : RuleSet) (stream frames : Nat) (g : Grid Symbol) :
    RunOutcome × Engine Generator :=
  (Engine.ofGenerator rules (Generator.ofStream config.seed stream)).run g
    (min frames config.maxSteps)

def opening (config : Config) (table : SymbolTable) (rules : RuleSet) (stream : Nat)
    (g : Grid Symbol) (playing : Bool) : Session where
  table := table
  config := config
  root := Generator.root config.seed stream
  engine :=
    (Engine.ofGenerator rules (Generator.ofStream config.seed stream)).withBound config.maxSteps
  initial := g
  grid := g
  playing := playing
  frame := 0
  inspection := none

/-- A session of a configuration and a table, after a number of loads and of frames
with the last loaded rules. -/
structure Follows (session : Session) (config : Config) (table : SymbolTable) (rules : RuleSet)
    (loads frames : Nat) : Prop where
  table_eq : session.table = table
  config_eq : session.config = config
  initial_eq : config.initialGrid table = .ok session.initial
  root_eq : session.root = Generator.root config.seed (loads + 1)
  shows : session.Shows (replay config rules (loads + 1) frames session.initial)

section

variable {session : Session} {config : Config} {table : SymbolTable} {rules initial : RuleSet}
  {loads frames : Nat}

theorem start_eq_ok_iff :
    start rules config table = .ok session ↔
      exists g, config.initialGrid table = .ok g ∧
        session = opening config table rules 1 g config.startPlaying := by
  have hopened := Generator.openStream_root config.seed 0
  rw [Generator.root_zero, Nat.zero_add] at hopened
  cases hinitial : config.initialGrid table with
  | error fault => simp [start, hinitial, bind, Except.bind]
  | ok g => simp [start, hinitial, bind, Except.bind, hopened, opening, eq_comm]

theorem load_eq (h : session.Follows config table initial loads frames) (text : String) :
    session.load text =
      opening config table (RuleText.decodeOrEmpty table text) (loads + 2) session.initial
        session.playing := by
  have hopened := Generator.openStream_root config.seed (loads + 1)
  rw [load, h.root_eq, hopened, h.table_eq, h.config_eq, opening]

theorem follows_opening {g : Grid Symbol} (h : config.initialGrid table = .ok g)
    (rules : RuleSet) (loads : Nat) (playing : Bool) :
    (opening config table rules (loads + 1) g playing).Follows config table rules loads 0 := by
  refine ⟨rfl, rfl, h, rfl, ?_⟩
  rw [replay, Nat.zero_min]
  exact ⟨rfl, rfl, rfl⟩

theorem follows_start (h : start rules config table = .ok session) :
    session.Follows config table rules 0 0 := by
  rcases start_eq_ok_iff.mp h with ⟨g, hinitial, rfl⟩
  exact follows_opening hinitial rules 0 config.startPlaying

theorem follows_load (h : session.Follows config table initial loads frames) (text : String) :
    (session.load text).Follows config table (RuleText.decodeOrEmpty table text) (loads + 1) 0 := by
  rw [load_eq h text]
  exact follows_opening h.initial_eq _ (loads + 1) session.playing

theorem exists_nextFrame_eq (session : Session) :
    exists engine grid playing frame, session.nextFrame.2 =
      { session with
        engine := engine
        grid := grid
        playing := playing
        frame := frame } := by
  unfold nextFrame
  split
  · exact ⟨_, _, _, _, rfl⟩
  · split <;> exact ⟨_, _, _, _, rfl⟩

theorem exists_inspect_eq (session : Session) (tuple : List Nat) :
    exists inspection, (session.inspect tuple).2 = { session with inspection := inspection } := by
  unfold inspect
  split
  · exact ⟨_, rfl⟩
  · split <;> exact ⟨_, rfl⟩

theorem follows_nextFrame (h : session.Follows config table rules loads frames) :
    session.nextFrame.2.Follows config table rules loads (frames + 1) := by
  rcases h with ⟨htable, hconfig, hinitial, hroot, hshows⟩
  subst hconfig
  have hnext := shows_nextFrame hshows
  rcases exists_nextFrame_eq session with ⟨engine, grid, playing, frame, heq⟩
  rw [heq] at hnext ⊢
  exact ⟨htable, rfl, hinitial, hroot, hnext⟩

theorem Follows.display (h : session.Follows config table rules loads frames) (playing : Bool)
    (inspection : Option String) :
    { session with playing := playing, inspection := inspection }.Follows config table rules
      loads frames :=
  ⟨h.table_eq, h.config_eq, h.initial_eq, h.root_eq,
    ⟨h.shows.grid_eq, h.shows.frame_eq, h.shows.engine_eq⟩⟩

theorem follows_call (h : session.Follows config table rules loads frames) {call : Call}
    (hquiet : call.text? = none) :
    (session.call call).Follows config table rules loads
      (frames + if call = .frame then 1 else 0) := by
  cases call with
  | frame => exact follows_nextFrame h
  | toggle =>
      simp only [reduceCtorEq, if_false, Nat.add_zero]
      exact h.display _ _
  | inspect tuple =>
      rcases exists_inspect_eq session tuple with ⟨inspection, heq⟩
      simp only [Session.call, heq, reduceCtorEq, if_false, Nat.add_zero]
      exact h.display _ _
  | load text => cases hquiet
  | loadScript script => cases hquiet

theorem follows_calls (h : start rules config table = .ok session) (history : List Call) :
    (session.calls history).Follows config table (Call.rules table rules history)
      (Call.loads history) (Call.frames history) := by
  induction history using List.reverseRecOn with
  | nil => exact follows_start h
  | append_singleton history call ih =>
      rw [calls_concat, Call.loads_concat]
      cases hcall : call.text? with
      | none =>
          rw [Call.rules_concat_of_none table rules history hcall,
            Call.frames_concat_of_none history hcall]
          exact follows_call ih hcall
      | some text =>
          rw [Call.rules_concat_of_some table rules history hcall,
            Call.frames_concat_of_some history hcall]
          have hload : (session.calls history).call call = (session.calls history).load text := by
            cases call <;> cases hcall <;> rfl
          rw [hload]
          exact follows_load ih text

/-!
# What a load forgets

A load keeps the playing flag, which neither frames nor reports look at.
-/

/-- All of a session but whether it is playing. -/
def paused (session : Session) : Session :=
  { session with playing := false }

theorem paused_nextFrame (session : Session) :
    session.paused.nextFrame.2.paused = session.nextFrame.2.paused := by
  by_cases hlimit : session.engine.maxSteps ≤ session.frame
  · have hlimit' : session.paused.engine.maxSteps ≤ session.paused.frame := hlimit
    rw [nextFrame_of_le hlimit, nextFrame_of_le hlimit']
    rfl
  · have hlimit' : ¬ session.paused.engine.maxSteps ≤ session.paused.frame := hlimit
    rcases hadvance : session.engine.advance session.grid with ⟨step, after⟩
    have hadvance' : session.paused.engine.advance session.paused.grid = (step, after) := hadvance
    cases step with
    | advanced next =>
        rw [nextFrame_of_advanced hlimit hadvance, nextFrame_of_advanced hlimit' hadvance']
        rfl
    | fixedPoint =>
        rw [nextFrame_of_fixedPoint hlimit hadvance, nextFrame_of_fixedPoint hlimit' hadvance']
        rfl

theorem paused_inspect (session : Session) (tuple : List Nat) :
    (session.paused.inspect tuple).2.paused = (session.inspect tuple).2.paused := by
  show (inspect { session with playing := false } tuple).2.paused = _
  unfold inspect
  cases session.grid.indexOf? tuple with
  | none => rfl
  | some index =>
      cases hsymbol : session.grid.get? index <;> simp only [hsymbol] <;> rfl

theorem paused_call (session : Session) (call : Call) :
    (session.paused.call call).paused = (session.call call).paused := by
  cases call with
  | frame => exact paused_nextFrame session
  | toggle => rfl
  | inspect tuple => exact paused_inspect session tuple
  | load text => rfl
  | loadScript script => rfl

theorem paused_calls {first second : Session} (h : first.paused = second.paused)
    (later : List Call) : (first.calls later).paused = (second.calls later).paused := by
  induction later generalizing first second with
  | nil => exact h
  | cons call later ih =>
      refine ih ?_
      rw [← paused_call first, ← paused_call second, h]

theorem paused_load {other : Session} {others : RuleSet} {frames' : Nat}
    (h : session.Follows config table rules loads frames)
    (h' : other.Follows config table others loads frames') (text : String) :
    (session.load text).paused = (other.load text).paused := by
  have hinitial := h.initial_eq.symm.trans h'.initial_eq
  rw [load_eq h, load_eq h', Except.ok.inj hinitial]
  rfl

/-- Whatever calls were made, a session shows where a bounded run of fresh rules ends:
those of the last load, on the stream that follows one stream for each load.  It never
passes the bound of its configuration.  From a load on, only the number of loads before
it matters, and of the rest nothing but the playing flag is kept. -/
theorem calls_eq_run (hstart : start rules config table = .ok session) (history : List Call)
    (hloads : Call.loads history + 2 < UInt64.size) :
    let last := session.calls history
    let generator := Generator.ofStream config.seed (Call.loads history + 1)
    let result := (Engine.ofGenerator (Call.rules table rules history) generator).run last.initial
      (min (Call.frames history) config.maxSteps)
    config.initialGrid table = .ok last.initial ∧
      generator.stream.toNat = Call.loads history + 1 ∧
      generator.nextStream.toNat = Call.loads history + 2 ∧
      last.grid = result.1.grid ∧ last.frame = result.1.steps ∧
      last.engine = result.2.withBound config.maxSteps ∧ last.frame ≤ config.maxSteps ∧
      forall others other past text later, start others config table = .ok other ->
        Call.loads past = Call.loads history ->
        ((last.load text).calls later).paused =
          (((other.calls past).load text).calls later).paused := by
  intro last generator result
  have hfollows := follows_calls hstart history
  have hframe : last.frame = result.1.steps := hfollows.shows.frame_eq
  refine ⟨hfollows.initial_eq, ?_, ?_, hfollows.shows.grid_eq, hframe, ?_, ?_, ?_⟩
  · exact UInt64.toNat_ofNat_of_lt' (Nat.lt_of_succ_lt hloads)
  · exact UInt64.toNat_ofNat_of_lt' hloads
  · rw [← hfollows.config_eq]
    exact hfollows.shows.engine_eq
  · rw [hframe]
    exact Nat.le_trans (Engine.steps_run_le _ _ _) (Nat.min_le_right _ _)
  · intro others other past text later hother hpast
    have hfollows' := follows_calls hother past
    rw [hpast] at hfollows'
    exact paused_calls (paused_load hfollows hfollows' text) later

end

/-!
## A session at its bound

The script would paint both cells white, but the configuration allows one frame.
-/

def brief : Config where
  seed := 5
  edges := [2]
  fill := 'B'
  maxSteps := 1
  startPlaying := true

def briefHistory : List Call :=
  [.frame, .loadScript .straightWhiteLine, .toggle, .frame, .inspect [0], .frame]

def briefRun : RunOutcome × Engine Generator :=
  (Engine.ofGenerator (RuleText.decodeOrEmpty SymbolTable.standard Script.straightWhiteLine.source)
    (Generator.ofStream 5 2)).run (RuleSet.pair .black .black) 1

theorem calls_eq_run_brief :
    exists session, start RuleSet.painter brief SymbolTable.standard = .ok session ∧
      Call.loads briefHistory = 1 ∧ Call.frames briefHistory = 2 ∧
      (session.calls briefHistory).grid = briefRun.1.grid ∧
      (session.calls briefHistory).engine = briefRun.2.withBound 1 ∧
      (session.calls briefHistory).frame = 1 := by
  have hinitial : brief.initialGrid SymbolTable.standard = .ok (RuleSet.pair .black .black) := rfl
  have hstart : start RuleSet.painter brief SymbolTable.standard = .ok _ :=
    start_eq_ok_iff.mpr ⟨_, hinitial, rfl⟩
  have hloads : Call.loads briefHistory = 1 := rfl
  have hframes : Call.frames briefHistory = 2 := rfl
  rcases calls_eq_run hstart briefHistory (by decide) with
    ⟨hsame, _, _, hgrid, hframe, hengine, _⟩
  rw [← Except.ok.inj (hinitial.symm.trans hsame), hloads, hframes] at hgrid hframe hengine
  have hsteps : briefRun.1.steps = 1 := by decide +kernel
  exact ⟨_, hstart, hloads, hframes, hgrid, hengine, hframe.trans hsteps⟩

end Session
end GridRules
