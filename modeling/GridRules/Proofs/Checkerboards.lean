import GridRules.Script
import GridRules.Proofs.CellCounts
import GridRules.Proofs.Diagonals
import GridRules.Proofs.Rewriting
import GridRules.Proofs.Runs

/-!
# Checkerboards

The checkerboard script paints one cell of a black grid red.  From then on every step paints
the last cell of a block whose first cell is red and whose other cells are black.

## Main statements

All red cells of a run have one parity, so no two of them are neighbours.  On a grid with two
axes that are longer than one, a run comes to rest when all cells of this parity are red.
-/

namespace GridRules

/-!
# Painting one cell
-/

structure Grid.Reddens (g next : Grid Symbol) (painted : Nat) : Prop where
  edges_eq : next.edges = g.edges
  painted_lt : painted < g.size
  before : g.get? painted = some .black
  after : next.get? painted = some .red
  kept : forall index, index ≠ painted -> next.get? index = g.get? index

namespace Grid

variable {g next : Grid Symbol} {corner beside below opposite painted : Nat}

theorem Writes.reddens_dot (h : g.Writes next [painted] (RuleSet.dot .red))
    (hblack : g.get? painted = some .black) : g.Reddens next painted where
  edges_eq := h.edges_eq
  painted_lt := (h.written 0 painted rfl).left
  before := hblack
  after := (h.written 0 painted rfl).right
  kept := by
    intro index hne
    exact h.kept index (by simpa using hne)

theorem Writes.reddens_square
    (h : g.Writes next [corner, beside, below, opposite] (square .red .black .black .red))
    (hshows : g.ShowsBlock corner beside below opposite .red .black .black .black) :
    g.Reddens next opposite where
  edges_eq := h.edges_eq
  painted_lt := (h.written 3 opposite rfl).left
  before := hshows.opposite_eq
  after := (h.written 3 opposite rfl).right
  kept := by
    intro index hne
    -- The other three cells of the block are written back as they were.
    by_cases hcorner : index = corner
    · rw [hcorner, hshows.corner_eq]
      exact (h.written 0 corner rfl).right
    · by_cases hbeside : index = beside
      · rw [hbeside, hshows.beside_eq]
        exact (h.written 1 beside rfl).right
      · by_cases hbelow : index = below
        · rw [hbelow, hshows.below_eq]
          exact (h.written 2 below rfl).right
        · exact h.kept index (by simp [hcorner, hbeside, hbelow, hne])

theorem Reddens.size_eq (h : g.Reddens next painted) : next.size = g.size := by
  rw [size_eq_cellCount, size_eq_cellCount, h.edges_eq]

theorem Reddens.get?_cases (h : g.Reddens next painted) (index : Nat) :
    index = painted ∧ next.get? index = some .red ∨
      index ≠ painted ∧ next.get? index = g.get? index := by
  by_cases hpainted : index = painted
  · exact Or.inl ⟨hpainted, hpainted ▸ h.after⟩
  · exact Or.inr ⟨hpainted, h.kept index hpainted⟩

theorem Reddens.card_holding (h : g.Reddens next painted) :
    (next.holding .red).card = (g.holding .red).card + 1 := by
  have hnew : painted ∉ g.holding .red := by
    rw [mem_holding_iff, h.before]
    decide
  have hinsert : next.holding .red = insert painted (g.holding .red) := by
    ext index
    rw [Finset.mem_insert, mem_holding_iff, mem_holding_iff]
    rcases h.get?_cases index with ⟨hsame, hred⟩ | ⟨hne, hkept⟩
    · exact iff_of_true hred (Or.inl hsame)
    · rw [hkept, or_iff_right hne]
  rw [hinsert, Finset.card_insert_of_notMem hnew]

end Grid

/-!
# Strokes
-/

/-- No block has one red cell and three black ones. -/
def Full (g : Grid Symbol) : Prop :=
  forall corner beside below opposite,
    ¬ g.ShowsBlock corner beside below opposite .red .black .black .black

/-- What a step does to a grid with a red cell: it paints the opposite cell of a block if it
can, and otherwise nothing. -/
inductive Stroke (g : Grid Symbol) : Step -> Prop where
  | paint {corner beside below opposite : Nat} {next : Grid Symbol}
      (shows : g.ShowsBlock corner beside below opposite .red .black .black .black)
      (reddens : g.Reddens next opposite) : Stroke g (.advanced next)
  | rest (full : Full g) : Stroke g .fixedPoint

/-- After the given number of steps there are as many red cells, all of the parity of the
root, and the other cells are black. -/
structure Painted (root : Nat) (g : Grid Symbol) (steps : Nat) : Prop where
  root_eq : g.get? root = some .red
  parity_eq : forall index, g.get? index = some .red ->
    g.edges.parity index = g.edges.parity root
  red_or_black : forall index, index < g.size ->
    g.get? index = some .red ∨ g.get? index = some .black
  card_eq : (g.holding .red).card = steps

namespace Painted

variable {root steps : Nat} {g next : Grid Symbol}

theorem of_first
    (hblack : forall index symbol, g.get? index = some symbol -> symbol = .black)
    (h : g.Reddens next root) : Painted root next 1 where
  root_eq := h.after
  parity_eq := by
    intro index hred
    rcases h.get?_cases index with ⟨rfl, _⟩ | ⟨_, hsame⟩
    · rfl
    · cases hblack index .red (hsame ▸ hred)
  red_or_black := by
    intro index hindex
    rcases h.get?_cases index with ⟨_, hred⟩ | ⟨_, hsame⟩
    · exact Or.inl hred
    · rcases Grid.exists_get? (h.size_eq ▸ hindex) with ⟨symbol, hsymbol⟩
      rw [hsame, hsymbol, hblack index symbol hsymbol]
      exact Or.inr rfl
  card_eq := by
    have hnone : g.holding .red = ∅ := by
      refine Finset.eq_empty_of_forall_notMem fun index hred => ?_
      cases hblack index .red (Grid.mem_holding_iff.mp hred)
    rw [h.card_holding, hnone, Finset.card_empty]

theorem stroke (h : Painted root g steps) (hstroke : Stroke g (.advanced next)) :
    Painted root next (steps + 1) := by
  cases hstroke with
  | paint shows reddens =>
      rename_i corner beside below opposite
      refine ⟨?_, ?_, ?_, ?_⟩
      · rcases reddens.get?_cases root with ⟨_, hred⟩ | ⟨_, hsame⟩
        · exact hred
        · rw [hsame, h.root_eq]
      · intro index hred
        rw [reddens.edges_eq]
        rcases reddens.get?_cases index with ⟨rfl, _⟩ | ⟨_, hsame⟩
        · rw [shows.block.parity_opposite]
          exact h.parity_eq corner shows.corner_eq
        · exact h.parity_eq index (hsame ▸ hred)
      · intro index hindex
        rcases reddens.get?_cases index with ⟨_, hred⟩ | ⟨_, hsame⟩
        · exact Or.inl hred
        · rw [hsame]
          exact h.red_or_black index (reddens.size_eq ▸ hindex)
      · rw [reddens.card_holding, h.card_eq]

theorem not_neighbour (h : Painted root g steps) {first last axis : Nat} {step : Int}
    (hfirst : g.get? first = some .red) (hlast : g.get? last = some .red) :
    ¬ g.edges.Neighbour first last axis step := by
  intro hneighbour
  exact hneighbour.parity_ne ((h.parity_eq last hlast).trans (h.parity_eq first hfirst).symm)

theorem root_lt (h : Painted root g steps) : root < g.size :=
  (Array.getElem?_eq_some_iff.mp h.root_eq).1

theorem eq_root (h : Painted root g 1) {index : Nat} (hred : g.get? index = some .red) :
    index = root :=
  Finset.card_le_one.mp (Nat.le_of_eq h.card_eq) index (Grid.mem_holding_iff.mpr hred) root
    (Grid.mem_holding_iff.mpr h.root_eq)

theorem black_of_parity_ne (h : Painted root g steps) {index : Nat} (hindex : index < g.size)
    (hparity : g.edges.parity index ≠ g.edges.parity root) : g.get? index = some .black :=
  (h.red_or_black index hindex).resolve_left fun hred => hparity (h.parity_eq index hred)

theorem complete (h : Painted root g steps) (hspacious : g.edges.Spacious) (hfull : Full g)
    {index : Nat} (hindex : index < g.size)
    (hparity : g.edges.parity index = g.edges.parity root) : g.get? index = some .red := by
  have hroot := h.root_lt
  rw [Grid.size_eq_cellCount] at hroot hindex
  refine Shape.parity_induction g.zero_not_mem hspacious hroot
    (motive := fun index => g.get? index = some .red) h.root_eq ?_ hindex hparity
  intro corner beside below opposite hblock hcorner hred
  -- The cells between two diagonal ones have the other parity, so they are still black.
  have hbeside := h.black_of_parity_ne (g.size_eq_cellCount ▸ hblock.beside_lt)
    (hcorner ▸ hblock.parity_beside)
  have hbelow := h.black_of_parity_ne (g.size_eq_cellCount ▸ hblock.below_lt)
    (hcorner ▸ hblock.parity_below)
  refine (h.red_or_black opposite (g.size_eq_cellCount ▸ hblock.opposite_lt)).resolve_right ?_
  intro hblack
  exact hfull corner beside below opposite ⟨hblock, hred, hbeside, hbelow, hblack⟩

/-- A neighbour of the root stays black, so there are fewer steps than cells. -/
theorem steps_lt (h : Painted root g steps) (hspacious : g.edges.Spacious) : steps < g.size := by
  rcases hspacious 0 with ⟨axis, haxis, _, hwide⟩
  rcases Shape.exists_step g.zero_not_mem root haxis hwide with ⟨step, hstep, hpos, hlt⟩
  rcases Shape.exists_neighbour g.zero_not_mem root haxis hstep hpos hlt with
    ⟨other, hother, hneighbour⟩
  rw [← Grid.size_eq_cellCount] at hother
  have hfewer : g.holding .red ⊂ Finset.range g.size := by
    refine Finset.filter_ssubset.mpr ⟨other, Finset.mem_range.mpr hother, ?_⟩
    intro hred
    exact h.not_neighbour h.root_eq hred hneighbour
  have hcard := Finset.card_lt_card hfewer
  rwa [h.card_eq, Finset.card_range] at hcard

end Painted

/-!
# The rules of a checkerboard
-/

namespace Checkerboard

def first : Clause where
  lhs := RuleSet.dot .black
  rhs := RuleSet.dot .red
  size_eq := RuleSet.size_dot .black .red

def across : Clause where
  lhs := Grid.square .red .black .black .black
  rhs := Grid.square .red .black .black .red
  size_eq := rfl

def rules : RuleSet where
  rules := [.sequential [.limited 1 (.single first), .single across]]

theorem rules_checkerboard :
    Script.checkerboard.rules SymbolTable.standard = .ok rules := rfl

def resuming (cursor : Nat) : List Progress :=
  [.sequential cursor [.limited 1 .leaf, .leaf]]

section

variable {source : Type} [Picker source] {engine : Engine source} {g : Grid Symbol}

theorem offered_across_eq_none_iff :
    Candidate.offered (across.candidates g) = none ↔ Full g := by
  rw [Clause.offered_candidates_eq_none_iff]
  constructor
  · intro h corner beside below opposite hshows
    exact h _ (Grid.mem_occurrences_square_iff.mpr ⟨_, _, _, _, rfl, hshows⟩)
  · intro h found hfound
    rcases Grid.mem_occurrences_square_iff.mp hfound with
      ⟨corner, beside, below, opposite, _, hshows⟩
    exact h corner beside below opposite hshows

theorem candidates_first {found : List Candidate}
    (h : Candidate.offered (first.candidates g) = some found) :
    rules.candidates g rules.fresh = (some (0, found), resuming 0) := by
  simp [RuleSet.candidates, RuleSet.orFresh, RuleSet.fits, RuleSet.size, RuleSet.fresh, rules,
    resuming, Rule.fresh, Rule.freshAll, Progress.fits, Rule.searchFirst, Rule.search,
    Progress.asSequential, Progress.asLimited, h]

theorem candidates_started {cursor : Nat} (hcursor : cursor = 0 ∨ cursor = 1) (g : Grid Symbol) :
    rules.candidates g (resuming cursor) =
      match Candidate.offered (across.candidates g) with
      | some found => (some (0, found), resuming 1)
      | none => (none, resuming 2) := by
  rcases hcursor with rfl | rfl <;> cases h : Candidate.offered (across.candidates g) <;>
    simp [RuleSet.candidates, RuleSet.orFresh, RuleSet.fits, RuleSet.size, rules, resuming,
      Progress.fits, Rule.searchFirst, Rule.search, Progress.asSequential, Progress.asLimited, h]

theorem candidates_ended (g : Grid Symbol) :
    rules.candidates g (resuming 2) = (none, resuming 2) := by
  simp [RuleSet.candidates, RuleSet.orFresh, RuleSet.fits, RuleSet.size, rules, resuming,
    Progress.fits, Rule.searchFirst, Rule.search, Progress.asSequential]

/-!
# Runs
-/

/-- The sequence has come to its end only if nothing is left to paint. -/
def Resumes (g : Grid Symbol) (progress : List Progress) : Prop :=
  exists cursor, progress = resuming cursor ∧
    (cursor = 0 ∨ cursor = 1 ∨ cursor = 2 ∧ Full g)

structure Works (root : Nat) (engine : Engine source) (g : Grid Symbol) : Prop where
  rules_eq : engine.rules = rules
  resumes : Resumes g engine.progress
  painted : Painted root g engine.steps

/-- Every step after the first one is a stroke, and the sequence ends only with the run. -/
theorem stroke_advance (hrules : engine.rules = rules) (hresumes : Resumes g engine.progress) :
    Stroke g (engine.advance g).1 ∧
      exists cursor, (engine.advance g).2.progress = resuming cursor ∧
        (cursor = 1 ∨ cursor = 2 ∧ (engine.advance g).1 = .fixedPoint) := by
  rcases hresumes with ⟨cursor, hprogress, hcursor⟩
  rw [Engine.progress_advance, hrules, hprogress]
  rcases or_assoc.mpr hcursor with hopen | ⟨rfl, hfull⟩
  · have hcandidates := candidates_started hopen g
    cases hoffered : Candidate.offered (across.candidates g) with
    | some found =>
        rw [hoffered] at hcandidates
        rcases Engine.exists_writes_advance hoffered (hrules ▸ hprogress ▸ hcandidates) with
          ⟨target, next, hadvance, htarget, hwrites⟩
        rcases Grid.mem_occurrences_square_iff.mp htarget with
          ⟨corner, beside, below, opposite, rfl, hshows⟩
        rw [hadvance, hcandidates]
        exact ⟨Stroke.paint hshows (hwrites.reddens_square hshows), 1, rfl, Or.inl rfl⟩
    | none =>
        rw [hoffered] at hcandidates
        rw [Engine.advance_of_no_candidates (hrules ▸ hprogress ▸ hcandidates), hcandidates]
        exact ⟨Stroke.rest (offered_across_eq_none_iff.mp hoffered), 2, rfl, Or.inr ⟨rfl, rfl⟩⟩
  · have hcandidates := candidates_ended g
    rw [Engine.advance_of_no_candidates (hrules ▸ hprogress ▸ hcandidates), hcandidates]
    exact ⟨Stroke.rest hfull, 2, rfl, Or.inr ⟨rfl, rfl⟩⟩

theorem Works.advance {root : Nat} {after : Engine source} {next : Grid Symbol}
    (h : Works root engine g) (hadvance : engine.advance g = (.advanced next, after)) :
    Works root after next := by
  have hrules := Engine.rules_of_advance hadvance
  rcases stroke_advance h.rules_eq h.resumes with ⟨hstroke, cursor, hprogress, hcursor⟩
  rw [hadvance] at hstroke hprogress hcursor
  have hopen : cursor = 1 := hcursor.resolve_right fun hended => by cases hended.right
  refine ⟨hrules.trans h.rules_eq, ⟨cursor, hprogress, Or.inr (Or.inl hopen)⟩, ?_⟩
  rw [Engine.steps_advance_of_advanced hadvance]
  exact h.painted.stroke hstroke

theorem Works.full {root : Nat} (h : Works root engine g)
    (hrest : (engine.advance g).1 = .fixedPoint) : Full g := by
  have hstroke := (stroke_advance h.rules_eq h.resumes).left
  rw [hrest] at hstroke
  cases hstroke with
  | rest full => exact full

theorem Works.searched {root : Nat} {after : Engine source} (h : Works root engine g)
    (hadvance : engine.advance g = (.fixedPoint, after)) : Works root after g := by
  have hfull := h.full (by rw [hadvance])
  have hrules := Engine.rules_of_advance hadvance
  rcases stroke_advance h.rules_eq h.resumes with ⟨_, cursor, hprogress, hcursor⟩
  rw [hadvance] at hprogress
  refine ⟨hrules.trans h.rules_eq, ⟨cursor, hprogress, Or.inr ?_⟩, ?_⟩
  · exact hcursor.imp_right fun hended => ⟨hended.left, hfull⟩
  · rw [Engine.steps_advance_of_fixedPoint hadvance]
    exact h.painted

theorem exists_first (hrules : engine.rules = rules) (hprogress : engine.progress = rules.fresh)
    (hsteps : engine.steps = 0)
    (hblack : forall index symbol, g.get? index = some symbol -> symbol = .black) :
    exists root next after, engine.advance g = (.advanced next, after) ∧
      Works root after next := by
  rcases Engine.exists_dot_advance hrules hprogress hsteps rfl hblack candidates_first with
    ⟨root, next, after, hadvance, hrulesAfter, hprogressAfter, hone, hroot, hwrites⟩
  refine ⟨root, next, after, hadvance, hrulesAfter, ⟨0, hprogressAfter, Or.inl rfl⟩, ?_⟩
  rw [hone]
  exact Painted.of_first hblack (hwrites.reddens_dot hroot)

theorem exists_works (hrules : engine.rules = rules) (hprogress : engine.progress = rules.fresh)
    (hsteps : engine.steps = 0)
    (hblack : forall index symbol, g.get? index = some symbol -> symbol = .black) :
    exists root, Painted root (engine.run g 1).1.grid 1 ∧
      forall steps, 0 < steps ->
        Works root (engine.run g steps).2 (engine.run g steps).1.grid := by
  rcases exists_first hrules hprogress hsteps hblack with ⟨root, next, after, hadvance, hworks⟩
  have hone : after.steps = 1 := by
    rw [Engine.steps_advance_of_advanced hadvance, hsteps]
  refine ⟨root, ?_, ?_⟩
  · rw [Engine.run_succ_of_advanced 0 hadvance]
    exact hone ▸ hworks.painted
  · intro steps hpos
    exact Engine.run_induction_first Works.advance Works.searched hadvance hworks hpos

end

/-- On a black grid with two axes that are longer than one, and for any seed, a run of the
checkerboard rules that may take as many steps as there are cells ends at a fixed point.  The
first step paints one cell.  On every grid of the run the red cells have the parity of this
cell, so no two of them are neighbours along an axis.  On the last one, all cells of this
parity are red and the others are black, and there are as many red cells as steps. -/
theorem checkerboard_paints {set : RuleSet} {edges : Shape} {g : Grid Symbol} {bound : Nat}
    (seed : UInt64) (hset : Script.checkerboard.rules SymbolTable.standard = .ok set)
    (hg : Grid.filled .black edges = .ok g)
    (hwide : 2 ≤ edges.countP fun edge => 2 ≤ edge) (hbound : g.size ≤ bound) :
    let outcome := fun steps => ((Engine.ofSeed set seed).run g steps).1
    let last := (outcome bound).grid
    (outcome bound).fixedPoint = true ∧
      exists root, root < g.size ∧
        (forall index, (outcome 1).grid.get? index = some .red ↔ index = root) ∧
        (forall steps index, (outcome steps).grid.get? index = some .red ->
          edges.parity index = edges.parity root) ∧
        (forall steps first second axis step, (outcome steps).grid.get? first = some .red ->
          (outcome steps).grid.get? second = some .red ->
            ¬ edges.Neighbour first second axis step) ∧
        (forall index, index < g.size ->
          last.get? index =
            some (if edges.parity index = edges.parity root then .red else .black)) ∧
        (outcome bound).steps = (last.holding .red).card := by
  have hrules : set = rules := by
    rw [rules_checkerboard] at hset
    exact (Except.ok.inj hset).symm
  subst hrules
  rcases Grid.of_filled hg with ⟨hedges, hblack⟩
  subst hedges
  intro outcome last
  rcases exists_works (rfl : (Engine.ofSeed rules seed).rules = rules) rfl rfl hblack with
    ⟨root, hfirst, hworks⟩
  have hpos : 0 < bound := Nat.lt_of_lt_of_le g.size_pos hbound
  have hedges : forall steps, (outcome steps).grid.edges = g.edges := Engine.edges_run _ g
  have hsize : forall steps, (outcome steps).grid.size = g.size := Engine.size_run _ g
  have hspacious : last.edges.Spacious := by
    rw [hedges bound]
    exact Shape.spacious_of_countP hwide
  have hlast : Painted root last (outcome bound).steps := by
    have hpainted := (hworks bound hpos).painted
    rw [Engine.steps_run] at hpainted
    exact Nat.zero_add (outcome bound).steps ▸ hpainted
  have hfixed : (outcome bound).fixedPoint = true := by
    have hlt := hlast.steps_lt hspacious
    rw [hsize bound] at hlt
    exact Engine.fixedPoint_of_steps_lt (Nat.lt_of_lt_of_le hlt hbound)
  have hfull : Full last :=
    (hworks bound hpos).full (by rw [Engine.advance_run_of_fixedPoint hfixed])
  have hparity : forall steps index, (outcome steps).grid.get? index = some .red ->
      g.edges.parity index = g.edges.parity root := by
    intro steps index hred
    cases steps with
    | zero => cases hblack index .red hred
    | succ steps =>
        rw [← hedges (steps + 1)]
        exact (hworks (steps + 1) (Nat.succ_pos steps)).painted.parity_eq index hred
  refine ⟨hfixed, root, hsize 1 ▸ hfirst.root_lt, ?_, hparity, ?_, ?_, hlast.card_eq.symm⟩
  · intro index
    refine ⟨hfirst.eq_root, fun heq => ?_⟩
    rw [heq]
    exact hfirst.root_eq
  · intro steps first second axis step hfirstRed hsecondRed hneighbour
    apply hneighbour.parity_ne
    rw [hparity steps second hsecondRed, hparity steps first hfirstRed]
  · intro index hindex
    rw [← hsize bound] at hindex
    split
    · rename_i hsame
      rw [← hedges bound] at hsame
      exact hlast.complete hspacious hfull hindex hsame
    · rename_i hother
      rw [← hedges bound] at hother
      exact hlast.black_of_parity_ne hindex hother

/-!
## A small board

Two rows of three cells have three cells of each parity.
-/

def board : Grid Symbol where
  edges := [2, 3]
  cells := Array.replicate 6 .black
  edges_ne_nil := by decide
  zero_not_mem := by decide
  size_eq := rfl
  addressable := by decide

theorem checkerboard_paints_board :
    Script.checkerboard.rules SymbolTable.standard = .ok rules ∧
      Grid.filled .black [2, 3] = .ok board ∧
      2 ≤ [2, 3].countP (fun edge => 2 ≤ edge) ∧ board.size ≤ 6 ∧
      ((Engine.ofSeed rules 5).run board 6).1.fixedPoint = true ∧
      ((Engine.ofSeed rules 5).run board 6).1.steps = 3 := by
  have hfilled : Grid.filled .black [2, 3] = .ok board := rfl
  have hwide : 2 ≤ [2, 3].countP fun edge => 2 ≤ edge := by decide
  have hsize : board.size ≤ 6 := by decide
  have hhalf : forall root, root < 6 ->
      {index ∈ Finset.range 6 | Shape.parity [2, 3] index = Shape.parity [2, 3] root}.card = 3 := by
    decide
  rcases checkerboard_paints 5 rules_checkerboard hfilled hwide hsize with
    ⟨hfixed, root, hroot, _, hparity, _, hlast, hsteps⟩
  refine ⟨rules_checkerboard, hfilled, hwide, hsize, hfixed, ?_⟩
  rw [hsteps, ← hhalf root hroot]
  congr 1
  ext index
  rw [Grid.mem_holding_iff, Finset.mem_filter, Finset.mem_range]
  constructor
  · intro hred
    have hlt := (Array.getElem?_eq_some_iff.mp hred).1
    have hcells : ((Engine.ofSeed rules 5).run board 6).1.grid.size = 6 := Engine.size_run _ board 6
    exact ⟨hcells ▸ hlt, hparity 6 index hred⟩
  · intro h
    rw [hlast index h.left, if_pos h.right]

end Checkerboard
end GridRules
