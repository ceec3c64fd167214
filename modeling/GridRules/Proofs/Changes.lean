import Mathlib.Data.List.DropRight
import GridRules.Proofs.Halting
import GridRules.Proofs.Undoing

/-!
# Frames that change nothing

A frame answers whether a rule fired.  The rule writes its right side over cells that hold
its left side.  If both sides hold the same symbols in the same order, the grid is the same
as before.

## Main statements

A frame answers that the grid changed if it did, and also if the clause that was applied is
idle.  Frames of both kinds since the last load are what the frame number counts.  If none
of the loaded clauses is idle, the answers are true and the frame number counts changes.
-/

namespace GridRules

namespace Clause

/-!
# Idle clauses

A rule set recolours if none of its clauses is idle.
-/

variable {clause : Clause} {g next : Grid Symbol}

/-- Both sides hold the same symbols in the same order, if not in the same shape. -/
def Idle (clause : Clause) : Prop :=
  clause.lhs.cells = clause.rhs.cells

instance (clause : Clause) : Decidable clause.Idle :=
  inferInstanceAs (Decidable (clause.lhs.cells = clause.rhs.cells))

theorem idle_of_leads (h : clause.Leads g g) : clause.Idle := by
  rcases h with ⟨found, hfound, hwrites⟩
  refine Array.ext_getElem? fun position => ?_
  by_cases hposition : position < found.length
  · have hindex := List.getElem?_eq_getElem hposition
    have hleft := Grid.get?_of_mem_occurrences hfound hindex
    have hright := (hwrites.written position _ hindex).right
    exact hleft.symm.trans hright
  · have hleft : clause.lhs.cells.size ≤ position := by
      rw [Grid.length_of_mem_occurrences hfound] at hposition
      exact Nat.le_of_not_lt hposition
    have hright : clause.rhs.cells.size ≤ position := by
      rw [hwrites.length_eq] at hposition
      exact Nat.le_of_not_lt hposition
    rw [Array.getElem?_eq_none hleft, Array.getElem?_eq_none hright]

theorem Leads.eq_of_idle (h : clause.Leads g next) (hidle : clause.Idle) : next = g := by
  rcases h with ⟨found, hfound, hwrites⟩
  have hkept : g.Writes g found clause.rhs :=
    { edges_eq := rfl
      length_eq := hwrites.length_eq
      written := by
        intro position index hindex
        refine ⟨(hwrites.written position index hindex).left, ?_⟩
        rw [Grid.get?_of_mem_occurrences hfound hindex, Grid.get?, Grid.get?, hidle]
      kept := fun _ _ => rfl }
  exact hwrites.unique hkept

theorem Leads.eq_iff (h : clause.Leads g next) : next = g ↔ clause.Idle := by
  constructor
  · rintro rfl
    exact idle_of_leads h
  · exact h.eq_of_idle

end Clause

def RuleSet.Recolours (set : RuleSet) : Prop :=
  forall leaf, leaf ∈ set.leaves -> ¬ leaf.clause.Idle

namespace Engine

/-!
# Idle steps

An engine idles on a grid, and a session idles, if the next step applies an idle clause.
-/

variable {source : Type} [Picker source] {engine after : Engine source} {g next : Grid Symbol}
  {proposal : Proposal}

def Idles (engine : Engine source) (g : Grid Symbol) : Prop :=
  exists proposal, proposal ∈ engine.applied? g ∧ proposal.leaf.clause.Idle

instance (engine : Engine source) (g : Grid Symbol) : Decidable (engine.Idles g) :=
  inferInstanceAs (Decidable (exists proposal, proposal ∈ engine.applied? g ∧
    proposal.leaf.clause.Idle))

theorem leads_of_applied? (h : engine.applied? g = some proposal) :
    proposal.leaf ∈ engine.rules.leaves ∧ proposal.leaf.clause.Leads g (proposal.rewrite g) := by
  rcases RuleSet.mem_proposals (mem_proposals_of_applied? h) with ⟨hleaf, hcandidate⟩
  exact ⟨hleaf, Clause.leads_iff_candidate.mpr ⟨proposal.candidate, hcandidate, rfl⟩⟩

theorem eq_iff_idles (h : engine.advance g = (.advanced next, after)) :
    next = g ↔ engine.Idles g := by
  cases happlied : engine.applied? g with
  | none =>
      rw [advance_of_none happlied] at h
      cases h
  | some proposal =>
      rw [advance_of_some happlied] at h
      cases h
      rw [(leads_of_applied? happlied).right.eq_iff, Idles, happlied]
      simp

theorem not_idles_of_fixedPoint (h : engine.advance g = (.fixedPoint, after)) :
    ¬ engine.Idles g := by
  rintro ⟨proposal, happlied, _⟩
  rw [advance_of_some happlied] at h
  cases h

theorem rules_run (engine : Engine source) (g : Grid Symbol) (bound : Nat) :
    (engine.run g bound).2.rules = engine.rules := by
  refine run_induction (motive := fun later _ => later.rules = engine.rules) ?_ ?_ rfl bound
  · exact fun hrules hadvance => (rules_of_advance hadvance).trans hrules
  · exact fun hrules hadvance => (rules_of_advance hadvance).trans hrules

theorem not_idles_of_recolours (h : engine.rules.Recolours) : ¬ engine.Idles g := by
  rintro ⟨proposal, happlied, hidle⟩
  exact h proposal.leaf (leads_of_applied? happlied).left hidle

end Engine

namespace Session

/-!
# What a frame answers
-/

variable {session : Session}

def Changes (session : Session) : Prop :=
  session.nextFrame.2.grid ≠ session.grid

instance (session : Session) : Decidable session.Changes :=
  inferInstanceAs (Decidable (session.nextFrame.2.grid ≠ session.grid))

def Idles (session : Session) : Prop :=
  session.frame < session.engine.maxSteps ∧ session.engine.Idles session.grid

instance (session : Session) : Decidable session.Idles :=
  inferInstanceAs (Decidable (_ ∧ _))

theorem changes_iff : session.Changes ↔ session.nextFrame.1 = true ∧ ¬ session.Idles := by
  rcases session.nextFrame_cases with ⟨_, hframe⟩ | ⟨next, after, hbelow, hadvance, hframe⟩ |
    ⟨after, _, _, hframe⟩
  · simp [Changes, hframe]
  · rw [Changes, Idles, hframe, ← Engine.eq_iff_idles hadvance]
    simp [hbelow]
  · simp [Changes, hframe]

theorem Idles.answer (h : session.Idles) : session.nextFrame.1 = true := by
  rcases session.nextFrame_cases with ⟨hlimit, _⟩ | ⟨next, after, _, _, hframe⟩ |
    ⟨after, _, hadvance, _⟩
  · exact absurd h.left (Nat.not_lt_of_le hlimit)
  · rw [hframe]
  · exact absurd h.right (Engine.not_idles_of_fixedPoint hadvance)

theorem answer_iff : session.nextFrame.1 = true ↔ session.Changes ∨ session.Idles := by
  constructor
  · intro hanswer
    by_cases hidles : session.Idles
    · exact Or.inr hidles
    · exact Or.inl (changes_iff.mpr ⟨hanswer, hidles⟩)
  · rintro (hchanges | hidles)
    · exact (changes_iff.mp hchanges).left
    · exact hidles.answer

/-!
# What the frame number counts
-/

namespace Call

/-- The calls up to the last load. -/
def past (history : List Call) : List Call :=
  history.rdropWhile fun call => call.text?.isNone

/-- The calls after the last load. -/
def recent (history : List Call) : List Call :=
  history.rtakeWhile fun call => call.text?.isNone

theorem past_append_recent (history : List Call) : past history ++ recent history = history :=
  List.rdropWhile_append_rtakeWhile

theorem quiet_recent (history : List Call) : Quiet (recent history) := by
  intro call hcall
  have hnone : call.text?.isNone = true :=
    List.mem_rtakeWhile_imp (p := fun call : Call => call.text?.isNone) hcall
  exact Option.isNone_iff_eq_none.mp hnone

theorem frames_past (history : List Call) : frames (past history) = 0 := by
  have hnone : (past history).rtakeWhile (fun call => call.text?.isNone) = [] :=
    List.rtakeWhile_eq_nil_iff.mpr (List.rdropWhile_last_not _ history)
  rw [frames, ← List.count_reverse]
  exact congrArg (List.count frame) hnone

end Call

/-- The sessions that are asked for a frame, in order. -/
def asked : Session -> List Call -> List Session
  | _, [] => []
  | session, call :: later =>
      if call = .frame then session :: asked (session.call call) later
      else asked (session.call call) later

theorem answers_eq_map (session : Session) (later : List Call) :
    session.answers later = (session.asked later).map fun asked => asked.nextFrame.1 := by
  induction later generalizing session with
  | nil => rfl
  | cons call later ih =>
      rw [answers, asked, ih]
      cases call <;> rfl

theorem frame_calls (session : Session) {later : List Call} (hquiet : Call.Quiet later) :
    (session.calls later).frame = session.frame + (session.answers later).count true := by
  induction later generalizing session with
  | nil => rfl
  | cons call later ih =>
      rcases List.forall_mem_cons.mp hquiet with ⟨hcall, hlater⟩
      have hrest := ih (session.call call) hlater
      rw [(session.counts_call hcall).frame_eq, Nat.add_assoc, ← List.count_append] at hrest
      exact hrest

theorem countP_answer (sessions : List Session) :
    (sessions.countP fun session => session.nextFrame.1) =
      (sessions.countP fun session => session.Changes) +
        sessions.countP fun session => session.Idles := by
  induction sessions with
  | nil => rfl
  | cons session sessions ih =>
      have hanswer := session.answer_iff
      have hchanges := session.changes_iff
      simp only [List.countP_cons, ih]
      by_cases hidles : session.Idles
      · simp [hidles, hidles.answer, hchanges]
        omega
      · by_cases hanswer : session.nextFrame.1 = true
        · simp [hidles, hanswer, hchanges]
          omega
        · simp [hidles, hanswer, hchanges]

theorem rules_call (session : Session) {call : Call} (hquiet : call.text? = none) :
    (session.call call).engine.rules = session.engine.rules := by
  cases call with
  | frame =>
      have hrules := session.engine.rules_advance session.grid
      rcases session.nextFrame_cases with ⟨_, hframe⟩ | ⟨next, after, _, hadvance, hframe⟩ |
        ⟨after, _, hadvance, hframe⟩
      · rw [Session.call, hframe]
      · rw [hadvance] at hrules
        rw [Session.call, hframe]
        exact hrules
      · rw [hadvance] at hrules
        rw [Session.call, hframe]
        exact hrules
  | toggle => rfl
  | inspect tuple =>
      rcases exists_inspect_eq session tuple with ⟨inspection, heq⟩
      rw [Session.call, heq]
  | load text => cases hquiet
  | loadScript script => cases hquiet

theorem rules_calls (session : Session) {later : List Call} (hquiet : Call.Quiet later) :
    (session.calls later).engine.rules = session.engine.rules := by
  induction later generalizing session with
  | nil => rfl
  | cons call later ih =>
      rcases List.forall_mem_cons.mp hquiet with ⟨hcall, hlater⟩
      exact (ih (session.call call) hlater).trans (session.rules_call hcall)

theorem rules_asked (session : Session) {later : List Call} (hquiet : Call.Quiet later)
    {asked : Session} (hasked : asked ∈ session.asked later) :
    asked.engine.rules = session.engine.rules := by
  induction later generalizing session with
  | nil => cases hasked
  | cons call later ih =>
      rcases List.forall_mem_cons.mp hquiet with ⟨hcall, hlater⟩
      have hsame := session.rules_call hcall
      rw [Session.asked] at hasked
      split at hasked
      · rcases List.mem_cons.mp hasked with rfl | hmem
        · rfl
        · exact (ih (session.call call) hlater hmem).trans hsame
      · exact (ih (session.call call) hlater hasked).trans hsame

theorem not_idles_of_recolours (h : session.engine.rules.Recolours) : ¬ session.Idles :=
  fun hidles => Engine.not_idles_of_recolours h hidles.right

section

variable {rules : RuleSet} {config : Config} {table : SymbolTable}

theorem rules_of_start (hstart : start rules config table = .ok session) (history : List Call) :
    (session.calls history).engine.rules = Call.rules table rules history := by
  rw [(follows_calls hstart history).shows.engine_eq]
  exact Engine.rules_run _ _ _

theorem frame_past (hstart : start rules config table = .ok session) (history : List Call) :
    (session.calls (Call.past history)).frame = 0 := by
  have hsteps := (follows_calls hstart (Call.past history)).shows.frame_eq
  rw [Call.frames_past, replay, Nat.zero_min] at hsteps
  exact hsteps

/-- A frame answers that the grid changed exactly if it changed or an idle clause was applied,
and both cannot be.  The frame number counts the frames of both kinds since the last load.
Rules that recolour have no frames of the second kind. -/
theorem answer_exact (hstart : start rules config table = .ok session) (history : List Call) :
    let last := session.calls history
    let asked := (session.calls (Call.past history)).asked (Call.recent history)
    (last.nextFrame.1 = true ↔ last.Changes ∨ last.Idles) ∧ ¬ (last.Changes ∧ last.Idles) ∧
      last.frame = (asked.countP fun session => session.Changes) +
        (asked.countP fun session => session.Idles) ∧
      ((Call.rules table rules history).Recolours ->
        (last.nextFrame.1 = true ↔ last.Changes) ∧
          last.frame = asked.countP fun session => session.Changes) := by
  intro last asked
  have hquiet := Call.quiet_recent history
  have hlast : last = (session.calls (Call.past history)).calls (Call.recent history) := by
    rw [← calls_append, Call.past_append_recent]
  have hframe : last.frame = (asked.countP fun session => session.Changes) +
      (asked.countP fun session => session.Idles) := by
    rw [hlast, frame_calls _ hquiet, frame_past hstart, answers_eq_map, Nat.zero_add,
      ← countP_answer, List.count, List.countP_map]
    congr 1
    funext session
    simp
  refine ⟨answer_iff, fun h => (changes_iff.mp h.left).right h.right, hframe, ?_⟩
  intro hrecolours
  have hrules : last.engine.rules = Call.rules table rules history := rules_of_start hstart history
  have hnone : (asked.countP fun session => session.Idles) = 0 := by
    rw [List.countP_eq_zero]
    intro session hsession
    rw [← hrules, hlast, rules_calls _ hquiet, ← rules_asked _ hquiet hsession] at hrecolours
    simpa using not_idles_of_recolours hrecolours
  rw [hnone, Nat.add_zero] at hframe
  rw [← hrules] at hrecolours
  rw [answer_iff, or_iff_left (not_idles_of_recolours hrecolours)]
  exact ⟨Iff.rfl, hframe⟩

end

/-!
## Rules that do not recolour

One clause of the first rules is idle, and the other paints a cell.  After the load, the first
frame applies the one that paints and the second frame the idle one.  The second rules have
only the idle clause.
-/

def roomy : Config :=
  { brief with maxSteps := 4 }

def waveringHistory : List Call :=
  [.frame, .load "?\nB > B | B > W", .frame, .toggle, .frame]

theorem recolours_painter : RuleSet.painter.Recolours := by
  unfold RuleSet.Recolours
  decide

theorem answer_exact_wavering :
    exists session, start RuleSet.painter roomy SymbolTable.standard = .ok session ∧
      (session.nextFrame.1 = true ↔ session.Changes) ∧
      (let asked := (session.calls (Call.past waveringHistory)).asked (Call.recent waveringHistory)
      (asked.countP fun session => session.Changes) = 1 ∧
        (asked.countP fun session => session.Idles) = 1 ∧
          (session.calls waveringHistory).frame = 2) := by
  have hinitial : roomy.initialGrid SymbolTable.standard = .ok (RuleSet.pair .black .black) := rfl
  have hstart : start RuleSet.painter roomy SymbolTable.standard = .ok _ :=
    start_eq_ok_iff.mpr ⟨_, hinitial, rfl⟩
  rcases answer_exact hstart [] with ⟨_, _, _, hrecolours⟩
  rcases answer_exact hstart waveringHistory with ⟨_, _, hframe, _⟩
  refine ⟨_, hstart, (hrecolours recolours_painter).left, ?_⟩
  intro asked
  have hcounts : (asked.countP fun session => session.Changes) = 1 ∧
      (asked.countP fun session => session.Idles) = 1 := by
    decide +kernel
  rw [hcounts.left, hcounts.right] at hframe
  exact ⟨hcounts.left, hcounts.right, hframe⟩

/-- The idle clause is applied, and the frame that it makes is counted. -/
theorem exists_answer_without_change :
    exists session, start RuleSet.painter roomy SymbolTable.standard = .ok session ∧
      (session.load "?\nB > B").nextFrame.1 = true ∧
      ¬ (session.load "?\nB > B").Changes ∧
      (session.load "?\nB > B").nextFrame.2.frame = 1 := by
  have hinitial : roomy.initialGrid SymbolTable.standard = .ok (RuleSet.pair .black .black) := rfl
  refine ⟨_, start_eq_ok_iff.mpr ⟨_, hinitial, rfl⟩, ?_⟩
  generalize hloaded : Session.load _ _ = loaded
  have hidles : loaded.Idles := by
    rw [← hloaded]
    decide +kernel
  have hframe : loaded.frame = 0 := by
    rw [← hloaded]
    rfl
  have hcounted := (changed_nextFrame hidles.answer).right.right
  rw [hframe] at hcounted
  exact ⟨hidles.answer, fun hchanges => (changes_iff.mp hchanges).right hidles, hcounted⟩

end Session
end GridRules
