import GridRules.Proofs.Playing

/-!
# Sessions halt

A session stops for one of two reasons.  It has shown as many frames as its configuration
allows, or its rules are at a fixed point on the grid that it shows.  Either reason lasts
until rules are loaded, whatever is asked of the session in the meantime.

## Main statements

Of more frames than the configuration allows, with no load between them, one answers that
nothing changed, so a session that is played for as long as it is playing stops.  Such an
answer leaves the display as it is, and so does every call after it up to the next load.
-/

namespace GridRules

namespace Session

/-!
# Answers of frames

Only frames have answers.  Calls are quiet if none of them loads rules.
-/

def Call.Quiet (later : List Call) : Prop :=
  forall call, call ∈ later -> call.text? = none

instance (later : List Call) : Decidable (Call.Quiet later) :=
  inferInstanceAs (Decidable (forall call, call ∈ later -> call.text? = none))

def answer? (session : Session) : Call -> Option Bool
  | .frame => some session.nextFrame.1
  | _ => none

def answers : Session -> List Call -> List Bool
  | _, [] => []
  | session, call :: later => (session.answer? call).toList ++ answers (session.call call) later

theorem length_answers (session : Session) (later : List Call) :
    (session.answers later).length = later.count .frame := by
  induction later generalizing session with
  | nil => rfl
  | cons call later ih =>
      rw [answers, List.length_append, ih, List.count_cons, Nat.add_comm]
      cases call <;> rfl

/-- What one call does to the counters of a session, if it loads no rules. -/
structure Counts (session : Session) (call : Call) : Prop where
  maxSteps_eq : (session.call call).engine.maxSteps = session.engine.maxSteps
  frame_eq : (session.call call).frame =
    session.frame + (session.answer? call).toList.count true
  below : session.answer? call = some true -> session.frame < session.engine.maxSteps

theorem counts_frame (session : Session) : session.Counts .frame := by
  have hmaxSteps := session.engine.maxSteps_advance session.grid
  rcases session.nextFrame_cases with ⟨_, hframe⟩ | ⟨next, after, hbelow, hadvance, hframe⟩ |
    ⟨after, _, hadvance, hframe⟩
  · refine ⟨?_, ?_, ?_⟩
    · rw [Session.call, hframe]
    · rw [Session.call, answer?, hframe]
      rfl
    · rw [answer?, hframe]
      exact fun h => by cases h
  · rw [hadvance] at hmaxSteps
    refine ⟨?_, ?_, fun _ => hbelow⟩
    · rw [Session.call, hframe]
      exact hmaxSteps
    · rw [Session.call, answer?, hframe]
      rfl
  · rw [hadvance] at hmaxSteps
    refine ⟨?_, ?_, ?_⟩
    · rw [Session.call, hframe]
      exact hmaxSteps
    · rw [Session.call, answer?, hframe]
      rfl
    · rw [answer?, hframe]
      exact fun h => by cases h

theorem changed_nextFrame {session : Session} (h : session.nextFrame.1 = true) :
    session.frame < session.engine.maxSteps ∧
      session.nextFrame.2.engine.maxSteps = session.engine.maxSteps ∧
      session.nextFrame.2.frame = session.frame + 1 := by
  have hcounts := session.counts_frame
  have hframe := hcounts.frame_eq
  rw [answer?, h] at hframe
  exact ⟨hcounts.below (congrArg some h), hcounts.maxSteps_eq, hframe⟩

theorem counts_call (session : Session) {call : Call} (hquiet : call.text? = none) :
    session.Counts call := by
  cases call with
  | frame => exact counts_frame session
  | toggle => exact ⟨rfl, rfl, fun h => by cases h⟩
  | inspect tuple =>
      rcases exists_inspect_eq session tuple with ⟨inspection, heq⟩
      refine ⟨?_, ?_, fun h => by cases h⟩
      · rw [Session.call, heq]
      · rw [Session.call, heq]
        rfl
  | load text => cases hquiet
  | loadScript script => cases hquiet

theorem count_answers_le (session : Session) {later : List Call} (hquiet : Call.Quiet later) :
    session.frame + (session.answers later).count true ≤
      max session.frame session.engine.maxSteps := by
  induction later generalizing session with
  | nil => exact Nat.le_max_left _ _
  | cons call later ih =>
      rcases List.forall_mem_cons.mp hquiet with ⟨hcall, hlater⟩
      have hcounts := session.counts_call hcall
      have hrest := ih (session.call call) hlater
      rw [hcounts.maxSteps_eq, hcounts.frame_eq] at hrest
      rw [answers, List.count_append]
      cases hanswer : session.answer? call with
      | none =>
          rw [hanswer] at hrest
          simpa using hrest
      | some answer =>
          rw [hanswer] at hrest
          cases answer with
          | false => simpa using hrest
          | true =>
              have hbelow := hcounts.below hanswer
              simp only [Option.toList_some, List.count_singleton_self] at hrest ⊢
              omega

theorem exists_false_answer (session : Session) {later : List Call}
    (hquiet : Call.Quiet later) (hmany : session.engine.maxSteps < later.count .frame) :
    false ∈ session.answers later := by
  by_contra hnone
  have hall : forall answer, answer ∈ session.answers later -> true = answer := by
    intro answer hanswer
    cases answer with
    | true => rfl
    | false => exact absurd hanswer hnone
  have hcount := session.count_answers_le hquiet
  rw [List.count_eq_length.mpr hall, length_answers] at hcount
  omega

/-!
# Playing to the end
-/

/-- A session is shown frame by frame for as long as it is playing. -/
inductive PlaysOut : Session -> Nat -> Session -> Prop where
  | stopped {session : Session} (h : session.playing = false) : PlaysOut session 0 session
  | frame {session final : Session} {frames : Nat} (h : session.playing = true)
      (rest : PlaysOut session.nextFrame.2 frames final) : PlaysOut session (frames + 1) final

theorem PlaysOut.playing_eq {session final : Session} {frames : Nat}
    (h : session.PlaysOut frames final) : final.playing = false := by
  induction h with
  | stopped h => exact h
  | frame _ _ ih => exact ih

/-!
# Halted sessions
-/

structure Displays (later session : Session) : Prop where
  grid_eq : later.grid = session.grid
  frame_eq : later.frame = session.frame

/-- The session is at its bound, or its rules are settled on the grid that it shows. -/
def Halted (session : Session) : Prop :=
  session.engine.maxSteps ≤ session.frame ∨
    session.engine.advance session.grid = (.fixedPoint, session.engine)

theorem halted_nextFrame {session : Session} (h : session.nextFrame.1 = false) :
    session.nextFrame.2.Halted ∧ session.nextFrame.2.Displays session ∧
      session.nextFrame.2.playing = false := by
  rcases session.nextFrame_cases with ⟨hlimit, hframe⟩ | ⟨next, after, _, _, hframe⟩ |
    ⟨after, _, hadvance, hframe⟩
  · rw [hframe]
    exact ⟨Or.inl hlimit, ⟨rfl, rfl⟩, rfl⟩
  · rw [hframe] at h
    cases h
  · rw [hframe]
    exact ⟨Or.inr (Engine.advance_settled hadvance), ⟨rfl, rfl⟩, rfl⟩

namespace Halted

variable {session : Session}

theorem nextFrame_eq (h : session.Halted) :
    session.nextFrame = (false, { session with playing := false }) := by
  by_cases hlimit : session.engine.maxSteps ≤ session.frame
  · exact nextFrame_of_le hlimit
  · cases h with
    | inl hle => exact absurd hle hlimit
    | inr hsettled => exact nextFrame_of_fixedPoint hlimit hsettled

theorem call (h : session.Halted) {call : Call} (hquiet : call.text? = none) :
    (session.call call).Halted ∧ (session.call call).Displays session := by
  cases call with
  | frame =>
      rw [Session.call, h.nextFrame_eq]
      exact ⟨h, ⟨rfl, rfl⟩⟩
  | toggle => exact ⟨h, ⟨rfl, rfl⟩⟩
  | inspect tuple =>
      rcases exists_inspect_eq session tuple with ⟨inspection, heq⟩
      rw [Session.call, heq]
      exact ⟨h, ⟨rfl, rfl⟩⟩
  | load text => cases hquiet
  | loadScript script => cases hquiet

theorem calls (h : session.Halted) {later : List Call} (hquiet : Call.Quiet later) :
    (forall answer, answer ∈ session.answers later -> answer = false) ∧
      (session.calls later).Displays session := by
  induction later generalizing session with
  | nil => exact ⟨fun _ hanswer => (List.not_mem_nil hanswer).elim, ⟨rfl, rfl⟩⟩
  | cons call later ih =>
      rcases List.forall_mem_cons.mp hquiet with ⟨hcall, hlater⟩
      rcases h.call hcall with ⟨hhalted, hdisplays⟩
      rcases ih hhalted hlater with ⟨hanswers, hrest⟩
      refine ⟨?_, ⟨hrest.grid_eq.trans hdisplays.grid_eq, hrest.frame_eq.trans hdisplays.frame_eq⟩⟩
      intro answer hanswer
      rw [answers, List.mem_append] at hanswer
      cases hanswer with
      | inl hfirst =>
          cases call with
          | frame =>
              rw [answer?, h.nextFrame_eq] at hfirst
              exact List.mem_singleton.mp hfirst
          | _ => cases hfirst
      | inr hlast => exact hanswers answer hlast

end Halted

/-- Every frame uses up one of those that are left, or stops the session. -/
theorem exists_playsOut (session : Session) :
    exists frames final, session.PlaysOut frames final ∧
      frames ≤ session.engine.maxSteps - session.frame + 1 := by
  generalize hleft : session.engine.maxSteps - session.frame = left
  induction left using Nat.strongRecOn generalizing session with
  | ind left ih =>
      cases hplaying : session.playing with
      | false => exact ⟨0, session, PlaysOut.stopped hplaying, Nat.zero_le _⟩
      | true =>
          cases hanswer : session.nextFrame.1 with
          | false =>
              have hstopped := PlaysOut.stopped (halted_nextFrame hanswer).right.right
              exact ⟨1, _, PlaysOut.frame hplaying hstopped, Nat.le_add_left 1 left⟩
          | true =>
              rcases changed_nextFrame hanswer with ⟨hbelow, hmaxSteps, hframe⟩
              have hfewer : session.nextFrame.2.engine.maxSteps - session.nextFrame.2.frame <
                  left := by
                rw [hmaxSteps, hframe]
                omega
              rcases ih _ hfewer session.nextFrame.2 rfl with ⟨frames, final, hplays, hle⟩
              exact ⟨frames + 1, final, PlaysOut.frame hplaying hplays,
                Nat.succ_le_succ (Nat.le_trans hle hfewer)⟩

/-- Whatever calls were made, a session halts within as many frames as its configuration
allows and one more, and stays halted until rules are loaded. -/
theorem halts_for_good {rules : RuleSet} {config : Config} {table : SymbolTable}
    {session : Session} (hstart : start rules config table = .ok session)
    (history : List Call) :
    let last := session.calls history
    (forall later, Call.Quiet later -> config.maxSteps + 1 ≤ later.count .frame ->
        false ∈ last.answers later) ∧
      (exists frames final, last.PlaysOut frames final ∧ frames ≤ config.maxSteps + 1 ∧
        final.playing = false) ∧
      (last.nextFrame.1 = false ->
        last.nextFrame.2.Displays last ∧ last.nextFrame.2.playing = false ∧
          forall later, Call.Quiet later ->
            (forall answer, answer ∈ last.nextFrame.2.answers later -> answer = false) ∧
              (last.nextFrame.2.calls later).Displays last) := by
  intro last
  have hfollows := follows_calls hstart history
  have hbound : last.engine.maxSteps = config.maxSteps := by
    rw [hfollows.shows.maxSteps, hfollows.config_eq]
  refine ⟨?_, ?_, ?_⟩
  · intro later hquiet hmany
    exact last.exists_false_answer hquiet (hbound ▸ hmany)
  · rcases last.exists_playsOut with ⟨frames, final, hplays, hle⟩
    rw [hbound] at hle
    exact ⟨frames, final, hplays, Nat.le_trans hle (Nat.succ_le_succ (Nat.sub_le _ _)),
      hplays.playing_eq⟩
  · intro hanswer
    rcases halted_nextFrame hanswer with ⟨hhalted, hdisplays, hplaying⟩
    refine ⟨hdisplays, hplaying, fun later hquiet => ?_⟩
    rcases hhalted.calls hquiet with ⟨hanswers, hlater⟩
    exact ⟨hanswers, hlater.grid_eq.trans hdisplays.grid_eq,
      hlater.frame_eq.trans hdisplays.frame_eq⟩

/-!
## A session that is asked to go on

The session of two black cells may show one frame.  It is toggled back on after that.
-/

theorem halts_for_good_brief :
    exists session, start RuleSet.painter brief SymbolTable.standard = .ok session ∧
      false ∈ session.answers [.frame, .inspect [1], .frame] ∧
      (exists frames final, session.PlaysOut frames final ∧ frames ≤ 2 ∧
        final.playing = false) ∧
      (session.calls [.frame]).nextFrame.1 = false ∧
      ((session.calls [.frame]).nextFrame.2.calls [.toggle, .frame]).Displays
        (session.calls [.frame]) := by
  have hinitial : brief.initialGrid SymbolTable.standard = .ok (RuleSet.pair .black .black) := rfl
  have hstart : start RuleSet.painter brief SymbolTable.standard = .ok _ :=
    start_eq_ok_iff.mpr ⟨_, hinitial, rfl⟩
  have hquiet : Call.Quiet [.frame, .inspect [1], .frame] := by decide
  have hquiet' : Call.Quiet [.toggle, .frame] := by decide
  rcases halts_for_good hstart [] with ⟨hmany, hloop, _⟩
  rcases halts_for_good hstart [.frame] with ⟨_, _, hstays⟩
  have hanswer : (Session.calls (opening brief SymbolTable.standard RuleSet.painter 1
      (RuleSet.pair .black .black) brief.startPlaying) [.frame]).nextFrame.1 = false := by
    decide +kernel
  exact ⟨_, hstart, hmany _ hquiet (by decide), hloop, hanswer,
    ((hstays hanswer).right.right _ hquiet').right⟩

end Session
end GridRules
