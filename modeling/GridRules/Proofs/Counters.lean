import Mathlib.Data.List.Forall2
import GridRules.Proofs.Charges
import GridRules.Proofs.Runs

/-!
# Counters of rules

A limited rule counts its firings.  A sequential rule counts the parts that it has left
behind.  Progress is sound for a rule when it fits at every depth and no counter has
passed its limit.  A search of sound progress leaves it sound, lowers no counter, and
never replaces any part of it by fresh progress.

## Main statements

The progress of an engine is sound after any calls.  Between resets no counter is
lowered, and no search starts the progress of a rule over.
-/

namespace GridRules

/-!
# Sound progress
-/

namespace Progress

def counter? : Progress -> Option Nat
  | limited fired _ => some fired.toNat
  | sequential cursor _ => some cursor
  | _ => none

def counterAt? (progress : Progress) (path : List Nat) : Option Nat :=
  (progress.part? path).bind counter?

theorem counterAt?_cons (progress : Progress) (index : Nat) (path : List Nat) :
    progress.counterAt? (index :: path) =
      progress.children[index]?.bind fun part => part.counterAt? path := by
  rw [counterAt?, part?, Option.bind_assoc]
  rfl

end Progress

/-- The highest value that the counter of a rule may have. -/
def Rule.limit? : Rule -> Option Nat
  | limited times _ => some times.toNat
  | sequential rules => some rules.length
  | _ => none

namespace Progress

/-- The progress has the kind and the number of parts that the rule asks for, and its
counter has not passed the limit. -/
structure InBounds (progress : Progress) (rule : Rule) : Prop where
  fits : progress.fits rule = true
  counter_le : forall count limit, progress.counter? = some count ->
    rule.limit? = some limit -> count ≤ limit

/-- Every part of the rule finds progress in bounds at its place. -/
def Sound (progress : Progress) (rule : Rule) : Prop :=
  forall path part, rule.part? path = some part ->
    exists state, progress.part? path = some state ∧ state.InBounds part

/-- Every counter of the earlier progress stands in the later one and is not lower
there. -/
def Precedes (earlier later : Progress) : Prop :=
  forall path count, earlier.counterAt? path = some count ->
    exists count', later.counterAt? path = some count' ∧ count ≤ count'

section

variable {progress earlier later : Progress} {rule : Rule}

theorem length_children_of_fits (h : progress.fits rule = true) :
    progress.children.length = rule.children.length := by
  cases rule <;> cases progress <;> simp_all [fits, children, Rule.children]

theorem sound_iff :
    progress.Sound rule ↔
      progress.InBounds rule ∧ List.Forall₂ Sound progress.children rule.children := by
  constructor
  · intro h
    rcases h [] rule rfl with ⟨state, hstate, hbounds⟩
    cases hstate
    refine ⟨hbounds, List.forall₂_iff_get.mpr ⟨length_children_of_fits hbounds.fits, ?_⟩⟩
    intro index hstate hpart path part hpath
    have hroot : rule.part? (index :: path) = some part := by
      rw [Rule.part?_cons, List.getElem?_eq_getElem hpart]
      exact hpath
    rcases h _ part hroot with ⟨state, hfound, hbounds⟩
    rw [part?, List.getElem?_eq_getElem hstate] at hfound
    exact ⟨state, hfound, hbounds⟩
  · rintro ⟨hbounds, hchildren⟩ path part hpath
    cases path with
    | nil =>
        cases hpath
        exact ⟨progress, rfl, hbounds⟩
    | cons index path =>
        rcases Option.bind_eq_some_iff.mp hpath with ⟨child, hchild, hpart⟩
        rcases List.getElem?_eq_some_iff.mp hchild with ⟨hindex, rfl⟩
        have hindex' : index < progress.children.length := hchildren.length_eq ▸ hindex
        rcases (List.forall₂_iff_get.mp hchildren).right index hindex' hindex path part hpart with
          ⟨state, hstate, hbounds⟩
        refine ⟨state, ?_, hbounds⟩
        rw [part?, List.getElem?_eq_getElem hindex']
        exact hstate

theorem precedes_refl (progress : Progress) : progress.Precedes progress :=
  fun _ count h => ⟨count, h, Nat.le_refl count⟩

theorem Precedes.trans {third : Progress} (h : earlier.Precedes later)
    (h' : later.Precedes third) : earlier.Precedes third := by
  intro path count hcount
  rcases h path count hcount with ⟨middle, hmiddle, hle⟩
  rcases h' path middle hmiddle with ⟨last, hlast, hle'⟩
  exact ⟨last, hlast, Nat.le_trans hle hle'⟩

theorem precedes_of_children
    (hcounter : forall count, earlier.counter? = some count ->
      exists count', later.counter? = some count' ∧ count ≤ count')
    (hchildren : List.Forall₂ Precedes earlier.children later.children) :
    earlier.Precedes later := by
  intro path count hcount
  cases path with
  | nil => exact hcounter count hcount
  | cons index path =>
      rw [counterAt?_cons] at hcount ⊢
      rcases Option.bind_eq_some_iff.mp hcount with ⟨part, hpart, hcount⟩
      rcases List.getElem?_eq_some_iff.mp hpart with ⟨hindex, rfl⟩
      have hindex' : index < later.children.length := hchildren.length_eq ▸ hindex
      rw [List.getElem?_eq_getElem hindex']
      exact (List.forall₂_iff_get.mp hchildren).right index hindex hindex' path count hcount

end

end Progress

/-!
# Searches of sound progress

What a search keeps is sound progress with no counter lowered.
-/

structure Kept (rule : Rule) (earlier later : Progress) : Prop where
  sound : later.Sound rule
  precedes : earlier.Precedes later

structure KeptAll (rules : List Rule) (earlier later : List Progress) : Prop where
  sound : List.Forall₂ Progress.Sound later rules
  precedes : List.Forall₂ Progress.Precedes earlier later

section

variable {rule : Rule} {rules : List Rule} {earlier later state : Progress}
  {states others : List Progress}

theorem kept_refl (h : earlier.Sound rule) : Kept rule earlier earlier where
  sound := h
  precedes := Progress.precedes_refl earlier

theorem keptAll_refl (h : List.Forall₂ Progress.Sound states rules) :
    KeptAll rules states states where
  sound := h
  precedes := List.forall₂_same.mpr fun state _ => state.precedes_refl

theorem KeptAll.cons (h : Kept rule earlier later) (hrest : KeptAll rules states others) :
    KeptAll (rule :: rules) (earlier :: states) (later :: others) where
  sound := List.Forall₂.cons h.sound hrest.sound
  precedes := List.Forall₂.cons h.precedes hrest.precedes

theorem KeptAll.length_eq (h : KeptAll rules states others) : rules.length = others.length :=
  h.sound.length_eq.symm

theorem KeptAll.kept (hbounds : later.InBounds rule)
    (hcounter : forall count, earlier.counter? = some count ->
      exists count', later.counter? = some count' ∧ count ≤ count')
    (h : KeptAll rule.children earlier.children later.children) : Kept rule earlier later where
  sound := Progress.sound_iff.mpr ⟨hbounds, h.sound⟩
  precedes := Progress.precedes_of_children hcounter h.precedes

theorem KeptAll.composite (h : KeptAll rules states others) :
    Kept (.composite rules) (.group states) (.group others) :=
  KeptAll.kept ⟨beq_iff_eq.mpr h.length_eq, fun _ _ hcount => by cases hcount⟩
    (fun _ hcount => by cases hcount) h

theorem KeptAll.markov (h : KeptAll rules states others) :
    Kept (.markov rules) (.group states) (.group others) :=
  KeptAll.kept ⟨beq_iff_eq.mpr h.length_eq, fun _ _ hcount => by cases hcount⟩
    (fun _ hcount => by cases hcount) h

theorem KeptAll.sequential {cursor cursor' : Nat} (h : KeptAll rules states others)
    (hle : cursor ≤ cursor') (hend : cursor' ≤ rules.length) :
    Kept (.sequential rules) (.sequential cursor states) (.sequential cursor' others) := by
  refine KeptAll.kept ⟨beq_iff_eq.mpr h.length_eq, ?_⟩ ?_ h
  · intro count limit hcount hlimit
    cases hcount
    cases hlimit
    exact hend
  · intro count hcount
    cases hcount
    exact ⟨cursor', rfl, hle⟩

theorem Kept.limited {times fired fired' : UInt32} (h : Kept rule earlier later)
    (hle : fired ≤ fired') (hend : fired' ≤ times) :
    Kept (.limited times rule) (.limited fired earlier) (.limited fired' later) := by
  refine KeptAll.kept ⟨rfl, ?_⟩ ?_ (KeptAll.cons h ⟨List.Forall₂.nil, List.Forall₂.nil⟩)
  · intro count limit hcount hlimit
    cases hcount
    cases hlimit
    exact hend
  · intro count hcount
    cases hcount
    exact ⟨fired'.toNat, rfl, hle⟩

end

namespace Progress

/-!
# Kinds of sound progress
-/

section

variable {progress : Progress} {rule : Rule} {rules : List Rule} {times : UInt32}
  {clause : Clause}

theorem Sound.fits (h : progress.Sound rule) : progress.fits rule = true :=
  (sound_iff.mp h).left.fits

theorem Sound.of_single (h : progress.Sound (.single clause)) : progress = leaf := by
  cases progress with
  | leaf => rfl
  | _ => cases h.fits

theorem Sound.of_composite (h : progress.Sound (.composite rules)) :
    exists states, progress = group states ∧ List.Forall₂ Sound states rules := by
  cases progress with
  | group states => exact ⟨states, rfl, (sound_iff.mp h).right⟩
  | _ => cases h.fits

theorem Sound.of_markov (h : progress.Sound (.markov rules)) :
    exists states, progress = group states ∧ List.Forall₂ Sound states rules := by
  cases progress with
  | group states => exact ⟨states, rfl, (sound_iff.mp h).right⟩
  | _ => cases h.fits

theorem Sound.of_limited (h : progress.Sound (.limited times rule)) :
    exists fired inner, progress = limited fired inner ∧ fired ≤ times ∧ inner.Sound rule := by
  rcases sound_iff.mp h with ⟨hbounds, hparts⟩
  cases progress with
  | limited fired inner =>
      exact ⟨fired, inner, rfl, hbounds.counter_le _ _ rfl rfl, (List.forall₂_cons.mp hparts).left⟩
  | _ => cases hbounds.fits

theorem Sound.of_sequential (h : progress.Sound (.sequential rules)) :
    exists cursor states, progress = sequential cursor states ∧ cursor ≤ rules.length ∧
      List.Forall₂ Sound states rules := by
  rcases sound_iff.mp h with ⟨hbounds, hparts⟩
  cases progress with
  | sequential cursor states =>
      exact ⟨cursor, states, rfl, hbounds.counter_le _ _ rfl rfl, hparts⟩
  | _ => cases hbounds.fits

end

end Progress

namespace Rule

/-!
# Searches keep sound progress
-/

theorem toNat_succ_of_lt {fired times : UInt32} (h : fired < times) :
    (fired + 1).toNat = fired.toNat + 1 := by
  have hbound := times.toNat_lt
  rw [UInt32.lt_iff_toNat_lt] at h
  rw [UInt32.toNat_add]
  exact Nat.mod_eq_of_lt (Nat.lt_of_le_of_lt h hbound)

theorem kept_charged {rule : Rule} {earlier later : Progress} {times fired : UInt32}
    (h : Kept rule earlier later) (hfree : fired < times) :
    Kept (.limited times rule) (.limited fired earlier) (.limited (fired + 1) later) := by
  have hsucc := toNat_succ_of_lt hfree
  apply h.limited
  · rw [UInt32.le_iff_toNat_le, hsucc]
    exact Nat.le_succ _
  · rw [UInt32.le_iff_toNat_le, hsucc]
    exact UInt32.lt_iff_toNat_lt.mp hfree

mutual

/-- A search of sound progress leaves it sound and lowers no counter. -/
theorem kept_search (g : Grid Symbol) :
    (rule : Rule) -> (progress : Progress) -> progress.Sound rule ->
      Kept rule progress (search g rule progress).2
  | single clause, progress, h => by
      cases h.of_single
      rw [search]
      exact kept_refl h
  | composite rules, progress, h => by
      rcases h.of_composite with ⟨states, rfl, hparts⟩
      rw [search, Progress.asGroup_group hparts.length_eq.symm]
      exact (keptAll_searchAll g rules states hparts).composite
  | limited times rule, progress, h => by
      rcases h.of_limited with ⟨fired, inner, rfl, hle, hinner⟩
      have ih := kept_search g rule inner hinner
      by_cases hspent : times ≤ fired
      · rw [search_limited_of_spent g hspent]
        exact kept_refl h
      · cases hanswer : (search g rule inner).1 with
        | none =>
            rw [search_limited_of_none hspent hanswer]
            exact ih.limited (UInt32.le_refl fired) hle
        | some found =>
            rw [search_limited_of_some hspent hanswer]
            exact kept_charged ih (UInt32.not_le.mp hspent)
  | sequential rules, progress, h => by
      rcases h.of_sequential with ⟨cursor, states, rfl, hle, hparts⟩
      have ih := keptAll_searchFirst g cursor rules states hparts
      have hstate := Progress.asSequential_sequential cursor hparts.length_eq.symm
      cases hfirst : (searchFirst g cursor rules states).1 with
      | none =>
          rw [search_sequential_of_none (by rw [hstate, hfirst]), hstate]
          exact ih.sequential hle (Nat.le_refl _)
      | some answer =>
          rw [search_sequential_of_some (by rw [hstate, hfirst]), hstate]
          rcases exists_of_searchFirst_eq_some hfirst with ⟨hstart, _, _, hrule, _, _⟩
          exact ih.sequential hstart (Nat.le_of_lt (List.getElem?_eq_some_iff.mp hrule).1)
  | markov rules, progress, h => by
      rcases h.of_markov with ⟨states, rfl, hparts⟩
      rw [search, Progress.asGroup_group hparts.length_eq.symm]
      exact (keptAll_searchFirst g 0 rules states hparts).markov

theorem keptAll_searchAll (g : Grid Symbol) :
    (rules : List Rule) -> (states : List Progress) -> List.Forall₂ Progress.Sound states rules ->
      KeptAll rules states (searchAll g rules states).2
  | [], states, h => by
      rw [searchAll_nil]
      exact keptAll_refl h
  | rule :: rules, [], h => by cases h
  | rule :: rules, state :: states, h => by
      rcases List.forall₂_cons.mp h with ⟨hstate, hstates⟩
      rw [searchAll]
      exact (keptAll_searchAll g rules states hstates).cons (kept_search g rule state hstate)

theorem keptAll_searchFirst (g : Grid Symbol) :
    (start : Nat) -> (rules : List Rule) -> (states : List Progress) ->
      List.Forall₂ Progress.Sound states rules ->
        KeptAll rules states (searchFirst g start rules states).2
  | start, [], states, h => by
      rw [searchFirst_nil]
      exact keptAll_refl h
  | start, rule :: rules, [], h => by cases h
  | start + 1, rule :: rules, state :: states, h => by
      rcases List.forall₂_cons.mp h with ⟨hstate, hstates⟩
      rw [searchFirst_skip]
      exact (keptAll_searchFirst g start rules states hstates).cons (kept_refl hstate)
  | 0, rule :: rules, state :: states, h => by
      rcases List.forall₂_cons.mp h with ⟨hstate, hstates⟩
      have hfirst := kept_search g rule state hstate
      cases hanswer : (search g rule state).1 with
      | none =>
          rw [searchFirst_of_none rules states hanswer]
          exact (keptAll_searchFirst g 0 rules states hstates).cons hfirst
      | some found =>
          rw [searchFirst_of_some rules states hanswer]
          exact (keptAll_refl hstates).cons hfirst

end

mutual

theorem sound_fresh : (rule : Rule) -> rule.fresh.Sound rule
  | single clause =>
      Progress.sound_iff.mpr ⟨⟨rfl, fun _ _ hcount => by cases hcount⟩, List.Forall₂.nil⟩
  | composite rules => (keptAll_refl (sound_freshAll rules)).composite.sound
  | limited times rule =>
      ((kept_refl (sound_fresh rule)).limited (UInt32.le_refl 0) UInt32.zero_le).sound
  | sequential rules =>
      ((keptAll_refl (sound_freshAll rules)).sequential (Nat.le_refl 0) (Nat.zero_le _)).sound
  | markov rules => (keptAll_refl (sound_freshAll rules)).markov.sound

theorem sound_freshAll : (rules : List Rule) -> List.Forall₂ Progress.Sound (freshAll rules) rules
  | [] => List.Forall₂.nil
  | rule :: rules => List.Forall₂.cons (sound_fresh rule) (sound_freshAll rules)

end

/-!
# Starting over
-/

mutual

/-- Whether a search replaces progress by fresh progress because it does not fit, be it
that of the rule or of a part that the search comes to. -/
def startsOver (g : Grid Symbol) : Rule -> Progress -> Bool
  | single clause, progress => !progress.fits (single clause)
  | composite rules, progress =>
      !progress.fits (composite rules) || startsOverAll g rules (progress.asGroup rules)
  | limited times rule, progress =>
      !progress.fits (limited times rule) ||
        ((progress.asLimited rule).1 < times && startsOver g rule (progress.asLimited rule).2)
  | sequential rules, progress =>
      !progress.fits (sequential rules) ||
        startsOverFirst g (progress.asSequential rules).1 rules (progress.asSequential rules).2
  | markov rules, progress =>
      !progress.fits (markov rules) || startsOverFirst g 0 rules (progress.asGroup rules)

def startsOverAll (g : Grid Symbol) : List Rule -> List Progress -> Bool
  | rule :: rules, progress :: others =>
      startsOver g rule progress || startsOverAll g rules others
  | _, _ => false

/-- The first `skip` rules are not searched, and neither are those after the first one
that has something to offer. -/
def startsOverFirst (g : Grid Symbol) : Nat -> List Rule -> List Progress -> Bool
  | skip + 1, _ :: rules, _ :: others => startsOverFirst g skip rules others
  | 0, rule :: rules, progress :: others =>
      startsOver g rule progress ||
        ((search g rule progress).1.isNone && startsOverFirst g 0 rules others)
  | _, _, _ => false

end

mutual

theorem startsOver_eq_false (g : Grid Symbol) :
    (rule : Rule) -> (progress : Progress) -> progress.Sound rule ->
      startsOver g rule progress = false
  | single clause, progress, h => by
      rw [startsOver, h.fits]
      rfl
  | composite rules, progress, h => by
      rw [startsOver, h.fits]
      rcases h.of_composite with ⟨states, rfl, hparts⟩
      rw [Progress.asGroup_group hparts.length_eq.symm]
      exact startsOverAll_eq_false g rules states hparts
  | limited times rule, progress, h => by
      rw [startsOver, h.fits]
      rcases h.of_limited with ⟨fired, inner, rfl, _, hinner⟩
      rw [Progress.asLimited, startsOver_eq_false g rule inner hinner, Bool.and_false]
      rfl
  | sequential rules, progress, h => by
      rw [startsOver, h.fits]
      rcases h.of_sequential with ⟨cursor, states, rfl, _, hparts⟩
      rw [Progress.asSequential_sequential cursor hparts.length_eq.symm]
      exact startsOverFirst_eq_false g cursor rules states hparts
  | markov rules, progress, h => by
      rw [startsOver, h.fits]
      rcases h.of_markov with ⟨states, rfl, hparts⟩
      rw [Progress.asGroup_group hparts.length_eq.symm]
      exact startsOverFirst_eq_false g 0 rules states hparts

theorem startsOverAll_eq_false (g : Grid Symbol) :
    (rules : List Rule) -> (states : List Progress) -> List.Forall₂ Progress.Sound states rules ->
      startsOverAll g rules states = false
  | [], [], _ => by simp [startsOverAll]
  | rule :: rules, state :: states, h => by
      rcases List.forall₂_cons.mp h with ⟨hstate, hstates⟩
      rw [startsOverAll, startsOver_eq_false g rule state hstate,
        startsOverAll_eq_false g rules states hstates]
      rfl

theorem startsOverFirst_eq_false (g : Grid Symbol) :
    (start : Nat) -> (rules : List Rule) -> (states : List Progress) ->
      List.Forall₂ Progress.Sound states rules -> startsOverFirst g start rules states = false
  | start, [], [], _ => by simp [startsOverFirst]
  | start + 1, rule :: rules, state :: states, h => by
      rw [startsOverFirst]
      exact startsOverFirst_eq_false g start rules states (List.forall₂_cons.mp h).right
  | 0, rule :: rules, state :: states, h => by
      rcases List.forall₂_cons.mp h with ⟨hstate, hstates⟩
      rw [startsOverFirst, startsOver_eq_false g rule state hstate,
        startsOverFirst_eq_false g 0 rules states hstates, Bool.and_false]
      rfl

end

end Rule

namespace RuleSet

variable {set : RuleSet} {progress : List Progress}

def startsOver (set : RuleSet) (g : Grid Symbol) (progress : List Progress) : Bool :=
  !set.fits progress || Rule.startsOverFirst g 0 set.rules (set.orFresh progress)

theorem fits_of_sound (h : List.Forall₂ Progress.Sound progress set.rules) :
    set.fits progress = true := by
  rcases List.forall₂_iff_zip.mp h with ⟨hlength, hzip⟩
  rw [fits, Bool.and_eq_true, List.all_eq_true]
  exact ⟨beq_iff_eq.mpr hlength, fun entry hentry => (hzip hentry).fits⟩

theorem keptAll_candidates (h : List.Forall₂ Progress.Sound progress set.rules)
    (g : Grid Symbol) : KeptAll set.rules progress (set.candidates g progress).2 := by
  rw [candidates, orFresh, if_pos (fits_of_sound h)]
  exact Rule.keptAll_searchFirst g 0 set.rules progress h

theorem startsOver_eq_false (h : List.Forall₂ Progress.Sound progress set.rules)
    (g : Grid Symbol) : set.startsOver g progress = false := by
  rw [startsOver, fits_of_sound h, orFresh, if_pos (fits_of_sound h),
    Rule.startsOverFirst_eq_false g 0 set.rules progress h]
  rfl

end RuleSet

namespace Engine

variable {source : Type}

/-!
# Counters of an engine
-/

def Sound (engine : Engine source) : Prop :=
  List.Forall₂ Progress.Sound engine.progress engine.rules.rules

def counterAt? (engine : Engine source) (path : List Nat) : Option Nat :=
  (Progress.group engine.progress).counterAt? path

/-- A later state of an engine has the same rules and sound progress, and no counter is
lower than it was. -/
structure Continues (engine later : Engine source) : Prop where
  rules_eq : later.rules = engine.rules
  sound : later.Sound
  precedes : (Progress.group engine.progress).Precedes (.group later.progress)

theorem continues_refl {engine : Engine source} (h : engine.Sound) : Continues engine engine where
  rules_eq := rfl
  sound := h
  precedes := Progress.precedes_refl _

theorem sound_fresh {engine : Engine source} (h : engine.Fresh) : engine.Sound := by
  rw [Sound, h, RuleSet.fresh, ← Rule.freshAll_eq_map]
  exact Rule.sound_freshAll engine.rules.rules

/-!
# Calls on an engine
-/

inductive Call where
  | advance (g : Grid Symbol)
  | step (g : Grid Symbol)
  | run (g : Grid Symbol) (bound : Nat)
  | runToBound (g : Grid Symbol)
  | reset

variable [Picker source]

def call (engine : Engine source) : Call -> Engine source
  | .advance g => (engine.advance g).2
  | .step g => (engine.step g).2
  | .run g bound => (engine.run g bound).2
  | .runToBound g => (engine.runToBound g).2
  | .reset => engine.reset

def calls (engine : Engine source) (history : List Call) : Engine source :=
  history.foldl call engine

theorem calls_cons (engine : Engine source) (call : Call) (history : List Call) :
    engine.calls (call :: history) = (engine.call call).calls history := rfl

theorem step_snd (engine : Engine source) (g : Grid Symbol) :
    (engine.step g).2 = (engine.advance g).2 := by
  rw [step]
  rcases engine.advance g with ⟨_ | _, after⟩ <;> rfl

/-- Whatever a step hands on from engine to engine, all calls but a reset do. -/
theorem call_induction {motive : Engine source -> Prop}
    (advance : forall engine g, motive engine -> motive (engine.advance g).2)
    {engine : Engine source} (h : motive engine) {call : Call} (hcall : call ≠ .reset) :
    motive (engine.call call) := by
  have handOn : forall {engine after : Engine source} {g : Grid Symbol} {step : Step},
      motive engine -> engine.advance g = (step, after) -> motive after := by
    intro engine after g step hengine hadvance
    have hafter := advance engine g hengine
    rwa [hadvance] at hafter
  have hrun : forall g bound, motive (engine.run g bound).2 :=
    fun g bound => run_induction (motive := fun engine _ => motive engine) handOn handOn h bound
  cases call with
  | advance g => exact advance engine g h
  | step g =>
      rw [Engine.call, step_snd]
      exact advance engine g h
  | run g bound => exact hrun g bound
  | runToBound g => exact hrun g engine.maxSteps
  | reset => exact absurd rfl hcall

/-!
# Counters after calls
-/

theorem Continues.advance {engine later : Engine source} (h : Continues engine later)
    (g : Grid Symbol) : Continues engine (later.advance g).2 := by
  have hkept := RuleSet.keptAll_candidates h.sound g
  refine ⟨(rules_advance later g).trans h.rules_eq, ?_, h.precedes.trans ?_⟩
  · rw [Sound, progress_advance, rules_advance]
    exact hkept.sound
  · rw [progress_advance]
    exact hkept.markov.precedes

theorem Continues.calls {engine later : Engine source} (h : Continues engine later)
    {history : List Call} (hhistory : Call.reset ∉ history) :
    Continues engine (later.calls history) := by
  induction history generalizing later with
  | nil => exact h
  | cons call history ih =>
      rw [List.mem_cons, not_or] at hhistory
      rw [calls_cons]
      refine ih (call_induction (fun _ g hlater => hlater.advance g) h ?_) hhistory.right
      exact Ne.symm hhistory.left

theorem sound_calls {engine : Engine source} (h : engine.Sound) (history : List Call) :
    (engine.calls history).rules = engine.rules ∧ (engine.calls history).Sound := by
  induction history generalizing engine with
  | nil => exact ⟨rfl, h⟩
  | cons call history ih =>
      rw [calls_cons]
      have hcall : (engine.call call).rules = engine.rules ∧ (engine.call call).Sound := by
        by_cases hreset : call = .reset
        · rw [hreset]
          exact ⟨rfl, sound_fresh (fresh_reset engine)⟩
        · have hcontinues :=
            call_induction (fun _ g hlater => hlater.advance g) (continues_refl h) hreset
          exact ⟨hcontinues.rules_eq, hcontinues.sound⟩
      rw [← hcall.left]
      exact ih hcall.right

/-- After any calls, every part of the rules finds progress that fits it, with a counter
within its limit, and no search starts any progress over.  As long as the engine is not
reset, no counter is ever lowered. -/
theorem counters_kept (rules : RuleSet) (generator : source) (maxSteps : Nat)
    (history : List Call) :
    let engine := ((ofGenerator rules generator).withBound maxSteps).calls history
    engine.rules = rules ∧
    (forall path part, rules.asRule.part? path = some part ->
      exists state, (Progress.group engine.progress).part? path = some state ∧
        state.InBounds part) ∧
    (forall g, engine.rules.startsOver g engine.progress = false) ∧
    forall later, Call.reset ∉ later ->
      forall path count, engine.counterAt? path = some count ->
        exists count', (engine.calls later).counterAt? path = some count' ∧ count ≤ count' := by
  have hfresh := (fresh_ofGenerator rules generator).withBound maxSteps
  rcases sound_calls (sound_fresh hfresh) history with ⟨hrules, hsound⟩
  refine ⟨hrules, ?_, RuleSet.startsOver_eq_false hsound, ?_⟩
  · have hroot := (keptAll_refl hsound).markov.sound
    rwa [hrules] at hroot
  · intro later hlater
    exact ((continues_refl hsound).calls hlater).precedes

end Engine
end GridRules
