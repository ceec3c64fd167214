import Mathlib.Algebra.BigOperators.Ring.Finset
import GridRules.Proofs.Rewriting
import GridRules.Proofs.Rows

/-!
# Carving a maze

A red head carves its way through black cells.  As long as it sees two black cells in a
row, it goes there and leaves a green trail.  Otherwise it goes back along the trail, two
cells at a time, and paints white what it leaves.

## Main statements

The trail is a stack of rows, so the way back is the last part of the way there.  When the
head can neither go ahead nor back, it is where it started, and every cell that is aligned
with it has been visited.  What a move changes is counted by weights of the cells.
-/

namespace GridRules

namespace Grid

/-!
# Sums over cells
-/

section Tally

variable {cell : Type} {g next pattern : Grid cell}

/-- Sum of the weights of all cells.  A weight depends on the index and what stands
there. -/
def tally (weight : Nat -> Option cell -> Int) (g : Grid cell) : Int :=
  ∑ index ∈ Finset.range g.size, weight index (g.get? index)

theorem tally_writes {found : Occurrence} (h : g.Writes next found pattern) (hnodup : found.Nodup)
    (weight : Nat -> Option cell -> Int) :
    next.tally weight = g.tally weight +
      (found.map fun index => weight index (next.get? index) - weight index (g.get? index)).sum := by
  have hsubset : found.toFinset ⊆ Finset.range g.size := by
    intro index hindex
    rcases List.mem_iff_getElem?.mp (List.mem_toFinset.mp hindex) with ⟨position, hposition⟩
    exact Finset.mem_range.mpr (h.written position index hposition).left
  have hkept : forall index, index ∈ Finset.range g.size -> index ∉ found.toFinset ->
      weight index (next.get? index) - weight index (g.get? index) = 0 := by
    intro index _ hindex
    rw [h.kept index (fun hmem => hindex (List.mem_toFinset.mpr hmem)), sub_self]
  rw [← List.sum_toFinset _ hnodup, Finset.sum_subset hsubset hkept, Finset.sum_sub_distrib,
    tally, tally, h.size_eq]
  ring

end Tally

/-!
# Painted cells
-/

section Painted

variable {g next : Grid Symbol} {first middle last : Nat} {a b c : Symbol}

theorem Writes.strip (h : g.Writes next [first, middle, last] (strip a b c)) :
    next.get? first = some a ∧ next.get? middle = some b ∧ next.get? last = some c :=
  ⟨(h.written 0 first rfl).right, (h.written 1 middle rfl).right, (h.written 2 last rfl).right⟩

theorem Writes.kept_of_ne (h : g.Writes next [first, middle, last] (Grid.strip a b c))
    {index : Nat} (hfirst : index ≠ first) (hmiddle : index ≠ middle) (hlast : index ≠ last) :
    next.get? index = g.get? index :=
  h.kept index (by simp [hfirst, hmiddle, hlast])

def Opened (g : Grid Symbol) (index : Nat) : Prop :=
  exists symbol, g.get? index = some symbol ∧ symbol ≠ .black

theorem Writes.opened_iff (h : g.Writes next [first, middle, last] (Grid.strip a b c))
    (ha : a ≠ .black) (hb : b ≠ .black) (hc : c ≠ .black) {index : Nat} :
    next.Opened index ↔ g.Opened index ∨ index = first ∨ index = middle ∨ index = last := by
  rcases h.strip with ⟨hfirst, hmiddle, hlast⟩
  by_cases hin : index = first ∨ index = middle ∨ index = last
  · refine iff_of_true ?_ (Or.inr hin)
    rcases hin with rfl | rfl | rfl
    · exact ⟨a, hfirst, ha⟩
    · exact ⟨b, hmiddle, hb⟩
    · exact ⟨c, hlast, hc⟩
  · have hout := hin
    simp only [not_or] at hout
    rw [Opened, Opened, h.kept_of_ne hout.left hout.right.left hout.right.right]
    exact ⟨Or.inl, fun hor => hor.resolve_right hin⟩

end Painted

end Grid

/-!
# Moves of the head
-/

/-- Nothing black lies two cells ahead of the head. -/
def Blocked (g : Grid Symbol) : Prop :=
  forall first middle last, ¬ g.Shows first middle last .red .black .black

/-- What a step does to a grid with a head: it goes ahead if it can, otherwise back if it
can, and otherwise nowhere. -/
inductive Move (g : Grid Symbol) : Step -> Prop where
  | ahead {first middle last : Nat} {next : Grid Symbol}
      (shows : g.Shows first middle last .red .black .black)
      (writes : g.Writes next [first, middle, last] (Grid.strip .green .green .red)) :
      Move g (.advanced next)
  | back {first middle last : Nat} {next : Grid Symbol} (blocked : Blocked g)
      (shows : g.Shows first middle last .red .green .green)
      (writes : g.Writes next [first, middle, last] (Grid.strip .white .white .red)) :
      Move g (.advanced next)
  | rest (blocked : Blocked g)
      (stuck : forall first middle last, ¬ g.Shows first middle last .red .green .green) :
      Move g .fixedPoint

/-!
# The trail
-/

/-- Cells from the head back to the root, row by row. -/
inductive Trail (edges : Shape) (root : Nat) : List Nat -> Prop where
  | root : Trail edges root [root]
  | row {first middle last : Nat} {before : List Nat} (row : edges.Row first middle last)
      (trail : Trail edges root (first :: before)) :
      Trail edges root (last :: middle :: first :: before)

namespace Trail

variable {edges : Shape} {root first middle last : Nat} {cells : List Nat}

theorem aligned_head {head : Nat} {before : List Nat} (h : Trail edges root (head :: before)) :
    edges.Aligned root head := by
  generalize hcells : head :: before = cells at h
  induction h generalizing head before with
  | root =>
      cases hcells
      exact Shape.aligned_refl edges _
  | row row trail ih =>
      cases hcells
      exact row.aligned_last (ih rfl)

theorem first_mem (h : Trail edges root cells) (hrow : edges.Row first middle last)
    (hfirst : edges.Aligned root first) (hmiddle : middle ∈ cells) : first ∈ cells := by
  have hnot := hrow.not_aligned_middle hfirst
  induction h with
  | root =>
      rw [List.mem_singleton.mp hmiddle] at hnot
      exact absurd (Shape.aligned_refl edges root) hnot
  | @row first' middle' last' before row trail ih =>
      rcases List.mem_cons.mp hmiddle with rfl | htail
      · exact absurd (row.aligned_last trail.aligned_head) hnot
      rcases List.mem_cons.mp htail with rfl | hbefore
      · rcases hrow.ends_eq row hfirst trail.aligned_head with ⟨rfl, _⟩ | ⟨rfl, _⟩ <;> simp
      · exact List.mem_cons_of_mem _ (List.mem_cons_of_mem _ (ih hbefore))

end Trail

/-!
# Carved grids
-/

/-- A grid with a head and a trail behind it.  Every open cell between aligned ones joins
two open cells, and nothing black is left next to what the head has finished. -/
structure Carved (root : Nat) (g : Grid Symbol) (head : Nat) (behind : List Nat) : Prop where
  trail : Trail g.edges root (head :: behind)
  nodup : (head :: behind).Nodup
  head_eq : g.get? head = some .red
  behind_eq : forall index, index ∈ behind -> g.get? index = some .green
  other_eq : forall index symbol, index ∉ head :: behind -> g.get? index = some symbol ->
    symbol = .black ∨ symbol = .white
  joins : forall middle, g.Opened middle -> ¬ g.edges.Aligned root middle ->
    exists first last, g.edges.Row first middle last ∧ g.edges.Aligned root first ∧
      g.Opened first ∧ g.Opened last
  finished : forall first middle last, g.get? first = some .white ->
    g.edges.Aligned root first -> g.edges.Row first middle last -> g.Opened last

namespace Carved

variable {root head : Nat} {behind : List Nat} {g next : Grid Symbol} {first middle last : Nat}

theorem eq_head (h : Carved root g head behind) {index : Nat}
    (hindex : g.get? index = some .red) : index = head := by
  by_contra hne
  by_cases hbehind : index ∈ behind
  · rw [h.behind_eq index hbehind] at hindex
    cases hindex
  · have hout : index ∉ head :: behind := by
      rw [List.mem_cons, not_or]
      exact ⟨hne, hbehind⟩
    rcases h.other_eq index .red hout hindex with heq | heq <;> cases heq

theorem mem_behind (h : Carved root g head behind) {index : Nat}
    (hindex : g.get? index = some .green) : index ∈ behind := by
  by_contra hbehind
  have hne : index ≠ head := by
    rintro rfl
    rw [h.head_eq] at hindex
    cases hindex
  have hout : index ∉ head :: behind := by
    rw [List.mem_cons, not_or]
    exact ⟨hne, hbehind⟩
  rcases h.other_eq index .green hout hindex with heq | heq <;> cases heq

theorem not_mem_of_black (h : Carved root g head behind) {index : Nat}
    (hindex : g.get? index = some .black) : index ∉ head :: behind := by
  intro hmem
  rcases List.mem_cons.mp hmem with rfl | hbehind
  · rw [h.head_eq] at hindex
    cases hindex
  · rw [h.behind_eq index hbehind] at hindex
    cases hindex

theorem aligned_head (h : Carved root g head behind) : g.edges.Aligned root head :=
  h.trail.aligned_head

theorem opened_of_blocked (h : Carved root g head behind) (hblocked : Blocked g)
    (hrow : g.edges.Row head middle last) : g.Opened last := by
  have hlast : last < g.size := by
    rw [Grid.size_eq_cellCount]
    exact hrow.last_lt
  have hmiddle : middle < g.size := by
    rw [Grid.size_eq_cellCount]
    exact hrow.middle_lt
  rcases Grid.exists_get? hlast with ⟨symbol, hsymbol⟩
  rcases Grid.exists_get? hmiddle with ⟨between, hbetween⟩
  by_cases hblack : symbol = .black
  -- The cell between is open, and the ends that it joins are those of this row.
  · have hopened : between ≠ .black := by
      rintro rfl
      exact hblocked head middle last ⟨hrow, h.head_eq, hbetween, hblack ▸ hsymbol⟩
    rcases h.joins middle ⟨between, hbetween, hopened⟩ (hrow.not_aligned_middle h.aligned_head)
      with ⟨first', last', hrow', haligned', hfirst', hlast'⟩
    rcases hrow.ends_eq hrow' h.aligned_head haligned' with ⟨_, rfl⟩ | ⟨_, rfl⟩
    · exact hlast'
    · exact hfirst'
  · exact ⟨symbol, hsymbol, hblack⟩

/-!
# Moves keep a grid carved
-/

theorem joins_of_writes {a b c : Symbol} (h : Carved root g head behind)
    (hrow : g.edges.Row head middle last)
    (hwrites : g.Writes next [head, middle, last] (Grid.strip a b c))
    (hopened : forall index, next.Opened index ↔
      g.Opened index ∨ index = head ∨ index = middle ∨ index = last) :
    forall middle', next.Opened middle' -> ¬ next.edges.Aligned root middle' ->
      exists first' last', next.edges.Row first' middle' last' ∧
        next.edges.Aligned root first' ∧ next.Opened first' ∧ next.Opened last' := by
  intro middle' hmiddle' hnot
  rw [hwrites.edges_eq] at hnot ⊢
  -- Of the three cells that are written, only the middle one is not aligned.
  rcases (hopened middle').mp hmiddle' with hold | rfl | rfl | rfl
  · rcases h.joins middle' hold hnot with ⟨first', last', hrow', haligned, hfirst, hlast⟩
    exact ⟨first', last', hrow', haligned, (hopened first').mpr (Or.inl hfirst),
      (hopened last').mpr (Or.inl hlast)⟩
  · exact absurd h.aligned_head hnot
  · exact ⟨head, last, hrow, h.aligned_head, (hopened head).mpr (by simp),
      (hopened last).mpr (by simp)⟩
  · exact absurd (hrow.aligned_last h.aligned_head) hnot

theorem ahead (h : Carved root g head behind)
    (hshows : g.Shows head middle last .red .black .black)
    (hwrites : g.Writes next [head, middle, last] (Grid.strip .green .green .red)) :
    Carved root next last (middle :: head :: behind) := by
  rcases hwrites.strip with ⟨hheadNext, hmiddleNext, hlastNext⟩
  have hopened : forall index, next.Opened index ↔
      g.Opened index ∨ index = head ∨ index = middle ∨ index = last :=
    fun index => hwrites.opened_iff (by decide) (by decide) (by decide)
  have hlastAligned := hshows.row.aligned_last h.aligned_head
  have hmiddleAligned := hshows.row.not_aligned_middle h.aligned_head
  have hlastNew := h.not_mem_of_black hshows.last_eq
  have hmiddleNew := h.not_mem_of_black hshows.middle_eq
  refine
    { trail := ?trail
      nodup := ?nodup
      head_eq := hlastNext
      behind_eq := ?behind
      other_eq := ?other
      joins := h.joins_of_writes hshows.row hwrites hopened
      finished := ?finished }
  case trail =>
      rw [hwrites.edges_eq]
      exact Trail.row hshows.row h.trail
  case nodup =>
      refine List.nodup_cons.mpr ⟨?_, List.nodup_cons.mpr ⟨hmiddleNew, h.nodup⟩⟩
      rw [List.mem_cons, not_or]
      exact ⟨fun heq => hmiddleAligned (heq ▸ hlastAligned), hlastNew⟩
  case behind =>
      intro index hindex
      rcases List.mem_cons.mp hindex with rfl | hpath
      · exact hmiddleNext
      rcases List.mem_cons.mp hpath with rfl | hbehind
      · exact hheadNext
      rw [hwrites.kept_of_ne]
      · exact h.behind_eq index hbehind
      · rintro rfl
        exact (List.nodup_cons.mp h.nodup).left hbehind
      · rintro rfl
        exact hmiddleNew hpath
      · rintro rfl
        exact hlastNew hpath
  case other =>
      intro index symbol hindex hsymbol
      simp only [List.mem_cons, not_or] at hindex
      rcases hindex with ⟨hneLast, hneMiddle, hneHead, hbehind⟩
      rw [hwrites.kept_of_ne hneHead hneMiddle hneLast] at hsymbol
      exact h.other_eq index symbol (by simp [hneHead, hbehind]) hsymbol
  case finished =>
      intro first' middle' last' hwhite haligned hrow
      rw [hwrites.edges_eq] at haligned hrow
      have hkept : next.get? first' = g.get? first' := by
        apply hwrites.kept_of_ne
        · rintro rfl
          rw [hheadNext] at hwhite
          cases hwhite
        · rintro rfl
          rw [hmiddleNext] at hwhite
          cases hwhite
        · rintro rfl
          rw [hlastNext] at hwhite
          cases hwhite
      rw [hkept] at hwhite
      exact (hopened last').mpr (Or.inl (h.finished first' middle' last' hwhite haligned hrow))

theorem exists_behind_eq (h : Carved root g head behind)
    (hshows : g.Shows head middle last .red .green .green) :
    exists before, behind = middle :: last :: before ∧ Trail g.edges root (last :: before) := by
  have hmiddle := h.mem_behind hshows.middle_eq
  have htrail := h.trail
  have haligned := h.aligned_head
  cases behind with
  | nil => cases hmiddle
  | cons middle' rest =>
      cases htrail with
      | @row first' _ _ before row trail =>
          have hnodup := List.nodup_cons.mp h.nodup
          have hheadNew : head ∉ first' :: before := by
            intro hmem
            exact hnodup.left (List.mem_cons_of_mem _ hmem)
          -- If the middle stood further back, so would the head.
          have hsame : middle = middle' := by
            rcases List.mem_cons.mp hmiddle with heq | hmem
            · exact heq
            · exact absurd (trail.first_mem hshows.row haligned hmem) hheadNew
          subst hsame
          rcases hshows.row.ends_eq row haligned trail.aligned_head with
            ⟨rfl, _⟩ | ⟨_, rfl⟩
          · exact absurd List.mem_cons_self hheadNew
          · exact ⟨before, rfl, trail⟩

/-- Going back finishes the cell that the head leaves, as it was blocked there. -/
theorem back (h : Carved root g head behind) (hblocked : Blocked g)
    (hshows : g.Shows head middle last .red .green .green)
    (hwrites : g.Writes next [head, middle, last] (Grid.strip .white .white .red)) :
    exists before, Carved root next last before := by
  rcases h.exists_behind_eq hshows with ⟨before, rfl, htrail⟩
  rcases hwrites.strip with ⟨hheadNext, hmiddleNext, hlastNext⟩
  have hopened : forall index, next.Opened index ↔
      g.Opened index ∨ index = head ∨ index = middle ∨ index = last :=
    fun index => hwrites.opened_iff (by decide) (by decide) (by decide)
  have hnodup := h.nodup
  simp only [List.nodup_cons, List.mem_cons, not_or] at hnodup
  rcases hnodup with ⟨⟨hheadMiddle, hheadLast, hheadBefore⟩, ⟨hmiddleLast, hmiddleBefore⟩,
    hlastBefore, hbefore⟩
  refine ⟨before,
    { trail := ?trail
      nodup := List.nodup_cons.mpr ⟨hlastBefore, hbefore⟩
      head_eq := hlastNext
      behind_eq := ?behind
      other_eq := ?other
      joins := h.joins_of_writes hshows.row hwrites hopened
      finished := ?finished }⟩
  case trail =>
      rwa [hwrites.edges_eq]
  case behind =>
      intro index hindex
      rw [hwrites.kept_of_ne]
      · exact h.behind_eq index (by simp [hindex])
      · rintro rfl
        exact hheadBefore hindex
      · rintro rfl
        exact hmiddleBefore hindex
      · rintro rfl
        exact hlastBefore hindex
  case other =>
      intro index symbol hindex hsymbol
      simp only [List.mem_cons, not_or] at hindex
      by_cases hhead : index = head
      · rw [hhead, hheadNext] at hsymbol
        cases hsymbol
        exact Or.inr rfl
      by_cases hmiddle : index = middle
      · rw [hmiddle, hmiddleNext] at hsymbol
        cases hsymbol
        exact Or.inr rfl
      rw [hwrites.kept_of_ne hhead hmiddle hindex.left] at hsymbol
      exact h.other_eq index symbol (by simp [hhead, hmiddle, hindex.left, hindex.right]) hsymbol
  case finished =>
      intro first' middle' last' hwhite haligned hrow
      rw [hwrites.edges_eq] at haligned hrow
      refine (hopened last').mpr (Or.inl ?_)
      by_cases hhead : first' = head
      · subst hhead
        exact h.opened_of_blocked hblocked hrow
      have hmiddle : first' ≠ middle := by
        rintro rfl
        exact hshows.row.not_aligned_middle h.aligned_head haligned
      have hlast : first' ≠ last := by
        rintro rfl
        rw [hlastNext] at hwhite
        cases hwhite
      rw [hwrites.kept_of_ne hhead hmiddle hlast] at hwhite
      exact h.finished first' middle' last' hwhite haligned hrow

/-- A move that paints anything leaves a carved grid. -/
theorem move (h : Carved root g head behind) (hmove : Move g (.advanced next)) :
    exists head behind, Carved root next head behind := by
  cases hmove with
  | ahead shows writes =>
      cases h.eq_head shows.first_eq
      exact ⟨_, _, h.ahead shows writes⟩
  | back blocked shows writes =>
      cases h.eq_head shows.first_eq
      exact ⟨_, h.back blocked shows writes⟩

/-!
# Where the head comes to rest
-/

theorem behind_eq_nil (h : Carved root g head behind)
    (hstuck : forall first middle last, ¬ g.Shows first middle last .red .green .green) :
    head = root ∧ behind = [] := by
  have htrail := h.trail
  cases htrail with
  | root => exact ⟨rfl, rfl⟩
  | row row trail =>
      exact absurd ⟨row.symm, h.head_eq, h.behind_eq _ (by simp), h.behind_eq _ (by simp)⟩
        (hstuck _ _ _)

theorem opened_of_aligned (h : Carved root g root []) (hblocked : Blocked g) {index : Nat}
    (hindex : index < g.size) (haligned : g.edges.Aligned root index) : g.Opened index := by
  have hroot : root < g.edges.cellCount := by
    rw [← Grid.size_eq_cellCount]
    exact (Array.getElem?_eq_some_iff.mp h.head_eq).1
  rw [Grid.size_eq_cellCount] at hindex
  refine Shape.aligned_induction g.zero_not_mem hroot ⟨.red, h.head_eq, by decide⟩ ?_
    hindex haligned
  -- An open cell is the head, which is blocked, or finished.
  intro first middle last hrow hfirst hopened
  rcases hopened with ⟨symbol, hsymbol, hne⟩
  by_cases hhead : first = root
  · exact h.opened_of_blocked hblocked (hhead ▸ hrow)
  · rcases h.other_eq first symbol (by simpa using hhead) hsymbol with heq | rfl
    · exact absurd heq hne
    · exact h.finished first middle last hsymbol hfirst hrow

end Carved

/-!
# Counting the moves
-/

/-- What has been done to a cell: one step paints it, another one finishes it, and each
move paints or finishes two cells. -/
def labour (_ : Nat) (content : Option Symbol) : Int :=
  if content = some .black then 0 else if content = some .white then 2 else 1

@[simp] theorem labour_black (index : Nat) : labour index (some .black) = 0 := rfl

@[simp] theorem labour_white (index : Nat) : labour index (some .white) = 2 := rfl

@[simp] theorem labour_red (index : Nat) : labour index (some .red) = 1 := rfl

@[simp] theorem labour_green (index : Nat) : labour index (some .green) = 1 := rfl

/-- Open aligned cells count for the balance, other open cells against it. -/
def balance (edges : Shape) (root index : Nat) (content : Option Symbol) : Int :=
  if content = some .black then 0 else if edges.Aligned root index then 1 else -1

@[simp] theorem balance_black (edges : Shape) (root index : Nat) :
    balance edges root index (some .black) = 0 := rfl

theorem balance_of_ne (edges : Shape) (root index : Nat) {symbol : Symbol}
    (h : symbol ≠ .black) :
    balance edges root index (some symbol) = if edges.Aligned root index then 1 else -1 := by
  rw [balance, if_neg (by simpa using h)]

/-- The number of steps can be read off the grid, and one more aligned cell is open than
cells between them. -/
structure Counted (root : Nat) (g : Grid Symbol) (steps : Nat) : Prop where
  labour_eq : 2 * (steps : Int) = g.tally labour + 1
  balance_eq : g.tally (balance g.edges root) = 1

namespace Counted

variable {root head steps : Nat} {behind : List Nat} {g next : Grid Symbol}

theorem tally_strip {first middle last : Nat} {a b c a' b' c' : Symbol}
    (hshows : g.Shows first middle last a b c)
    (hwrites : g.Writes next [first, middle, last] (Grid.strip a' b' c'))
    (weight : Nat -> Option Symbol -> Int) :
    next.tally weight = g.tally weight +
      ((weight first (some a') - weight first (some a)) +
        (weight middle (some b') - weight middle (some b)) +
          (weight last (some c') - weight last (some c))) := by
  rcases hwrites.strip with ⟨hfirst, hmiddle, hlast⟩
  rw [Grid.tally_writes hwrites hshows.row.nodup weight]
  simp only [List.map_cons, List.map_nil, List.sum_cons, List.sum_nil, hfirst, hmiddle, hlast,
    hshows.first_eq, hshows.middle_eq, hshows.last_eq]
  ring

theorem move (h : Counted root g steps) (hcarved : Carved root g head behind)
    (hmove : Move g (.advanced next)) : Counted root next (steps + 1) := by
  have hlabour := h.labour_eq
  have hred : Symbol.red ≠ .black := by decide
  have hgreen : Symbol.green ≠ .black := by decide
  have hwhite : Symbol.white ≠ .black := by decide
  cases hmove with
  | @ahead first middle last _ shows writes =>
      cases hcarved.eq_head shows.first_eq
      have hlast := shows.row.aligned_last hcarved.aligned_head
      have hmiddle := shows.row.not_aligned_middle hcarved.aligned_head
      constructor
      · rw [tally_strip shows writes, labour_red, labour_green, labour_black, labour_green,
          labour_red, labour_black, Nat.cast_add]
        omega
      · rw [writes.edges_eq, tally_strip shows writes, h.balance_eq, balance_of_ne _ _ _ hred,
          balance_of_ne _ _ _ hgreen, balance_of_ne _ _ _ hgreen, balance_of_ne _ _ _ hred,
          if_pos hcarved.aligned_head, if_neg hmiddle, if_pos hlast]
        rfl
  | @back first middle last _ _ shows writes =>
      constructor
      · rw [tally_strip shows writes, labour_red, labour_green, labour_white, labour_white,
          labour_red, labour_green, Nat.cast_add]
        omega
      · rw [writes.edges_eq, tally_strip shows writes, h.balance_eq, balance_of_ne _ _ _ hred,
          balance_of_ne _ _ _ hgreen, balance_of_ne _ _ _ hwhite, balance_of_ne _ _ _ hwhite,
          balance_of_ne _ _ _ hred, balance_of_ne _ _ _ hgreen]
        ring

/-- Every step has painted a cell or finished one. -/
theorem steps_le (h : Counted root g steps) (hcarved : Carved root g head behind) :
    steps ≤ g.size := by
  have hhead : head ∈ Finset.range g.size :=
    Finset.mem_range.mpr (Array.getElem?_eq_some_iff.mp hcarved.head_eq).1
  have htwo : forall index, index ∈ Finset.range g.size -> labour index (g.get? index) ≤ 2 := by
    intro index _
    rw [labour]
    split_ifs <;> decide
  have hred : labour head (g.get? head) < 2 := by
    rw [hcarved.head_eq, labour_red]
    decide
  have hbound : g.tally labour < ∑ index ∈ Finset.range g.size, (2 : Int) :=
    Finset.sum_lt_sum htwo ⟨head, hhead, hred⟩
  rw [Finset.sum_const, Finset.card_range, nsmul_eq_mul] at hbound
  have hlabour := h.labour_eq
  omega

end Counted

def Shape.alignedCells (edges : Shape) (root : Nat) : Finset Nat :=
  {index ∈ Finset.range edges.cellCount | edges.Aligned root index}

namespace Carved

variable {root steps : Nat} {g next : Grid Symbol}

/-!
# The first and the last grid
-/

theorem of_dot (hblack : forall index symbol, g.get? index = some symbol -> symbol = .black)
    (hwrites : g.Writes next [root] (RuleSet.dot .red)) : Carved root next root [] := by
  have hroot : next.get? root = some .red := (hwrites.written 0 root rfl).right
  have hother : forall index symbol, index ≠ root -> next.get? index = some symbol ->
      symbol = .black := by
    intro index symbol hne hsymbol
    rw [hwrites.kept index (by simpa using hne)] at hsymbol
    exact hblack index symbol hsymbol
  refine ⟨Trail.root, List.nodup_singleton root, hroot, ?_, ?_, ?_, ?_⟩
  · intro index hindex
    cases hindex
  · intro index symbol hindex hsymbol
    exact Or.inl (hother index symbol (by simpa using hindex) hsymbol)
  · rintro middle ⟨symbol, hsymbol, hne⟩ hnot
    have hmiddle : middle ≠ root := by
      rintro rfl
      exact hnot (Shape.aligned_refl next.edges middle)
    exact absurd (hother middle symbol hmiddle hsymbol) hne
  · intro first middle last hwhite _ _
    by_cases hfirst : first = root
    · rw [hfirst, hroot] at hwhite
      cases hwhite
    · cases hother first .white hfirst hwhite

theorem counted_of_dot
    (hblack : forall index symbol, g.get? index = some symbol -> symbol = .black)
    (hwrites : g.Writes next [root] (RuleSet.dot .red)) : Counted root next 1 := by
  have hroot : next.get? root = some .red := (hwrites.written 0 root rfl).right
  have hbefore : g.get? root = some .black := by
    rcases Grid.exists_get? (hwrites.written 0 root rfl).left with ⟨symbol, hsymbol⟩
    rw [hsymbol, hblack root symbol hsymbol]
  have htally : forall weight : Nat -> Option Symbol -> Int,
      (forall index, weight index (some .black) = 0) ->
        next.tally weight = weight root (some .red) := by
    intro weight hweight
    have hnothing : g.tally weight = 0 := by
      apply Finset.sum_eq_zero
      intro index hindex
      rcases Grid.exists_get? (Finset.mem_range.mp hindex) with ⟨symbol, hsymbol⟩
      rw [hsymbol, hblack index symbol hsymbol, hweight]
    rw [Grid.tally_writes hwrites (List.nodup_singleton root), hnothing, List.map_singleton,
      List.sum_singleton, hroot, hbefore, hweight]
    ring
  constructor
  · rw [htally labour labour_black, labour_red]
    rfl
  · rw [htally _ (balance_black next.edges root), balance_of_ne _ _ _ (by decide),
      if_pos (Shape.aligned_refl next.edges root)]

theorem rest_cases (h : Carved root g root []) (hblocked : Blocked g) {index : Nat}
    (hindex : index < g.size) :
    index = root ∨
      index ≠ root ∧ g.get? index = some .white ∨
        index ≠ root ∧ g.get? index = some .black ∧ ¬ g.edges.Aligned root index := by
  by_cases hroot : index = root
  · exact Or.inl hroot
  rcases Grid.exists_get? hindex with ⟨symbol, hsymbol⟩
  rcases h.other_eq index symbol (by simpa using hroot) hsymbol with rfl | rfl
  · refine Or.inr (Or.inr ⟨hroot, hsymbol, ?_⟩)
    intro haligned
    rcases h.opened_of_aligned hblocked hindex haligned with ⟨other, hother, hne⟩
    rw [hsymbol] at hother
    exact hne (Option.some.inj hother).symm
  · exact Or.inr (Or.inl ⟨hroot, hsymbol⟩)

theorem labour_at (h : Carved root g root []) (hblocked : Blocked g) {index : Nat}
    (hindex : index < g.size) :
    labour index (g.get? index) =
      2 * (if g.get? index = some .white then 1 else 0) + if index = root then 1 else 0 := by
  rcases h.rest_cases hblocked hindex with rfl | ⟨hne, hcontent⟩ | ⟨hne, hcontent, _⟩
  · rw [h.head_eq, labour_red, if_neg (by decide), if_pos rfl]
    rfl
  · rw [hcontent, labour_white, if_pos rfl, if_neg hne]
    rfl
  · rw [hcontent, labour_black, if_neg (by decide), if_neg hne]
    rfl

theorem balance_at (h : Carved root g root []) (hblocked : Blocked g) {index : Nat}
    (hindex : index < g.size) :
    balance g.edges root index (g.get? index) =
      2 * (if g.edges.Aligned root index then 1 else 0) -
        (if g.get? index = some .white then 1 else 0) - if index = root then 1 else 0 := by
  rcases h.rest_cases hblocked hindex with rfl | ⟨hne, hcontent⟩ | ⟨hne, hcontent, hnot⟩
  · rw [h.head_eq, balance_of_ne _ _ _ (by decide), if_pos (Shape.aligned_refl _ _),
      if_pos (Shape.aligned_refl _ _), if_neg (by decide), if_pos rfl]
    rfl
  · rw [hcontent, balance_of_ne _ _ _ (by decide), if_pos rfl, if_neg hne]
    split <;> rfl
  · rw [hcontent, balance_black, if_neg hnot, if_neg (by decide), if_neg hne]
    rfl

theorem counts (h : Carved root g root []) (hblocked : Blocked g)
    (hcounted : Counted root g steps) :
    steps = 2 * (g.edges.alignedCells root).card - 1 ∧
      (g.holding .white).card = 2 * ((g.edges.alignedCells root).card - 1) := by
  have hwhite : (∑ index ∈ Finset.range g.size,
      if g.get? index = some .white then 1 else 0 : Int) = (g.holding .white).card :=
    Finset.sum_boole _ _
  have haligned : (∑ index ∈ Finset.range g.size,
      if g.edges.Aligned root index then 1 else 0 : Int) =
        (g.edges.alignedCells root).card := by
    rw [Grid.size_eq_cellCount]
    exact Finset.sum_boole _ _
  have hroot : (∑ index ∈ Finset.range g.size, if index = root then 1 else 0 : Int) = 1 := by
    rw [Finset.sum_ite_eq', if_pos]
    exact Finset.mem_range.mpr (Array.getElem?_eq_some_iff.mp h.head_eq).1
  have hlabour : g.tally labour = 2 * (g.holding .white).card + 1 := by
    rw [Grid.tally, Finset.sum_congr rfl fun index hindex =>
      h.labour_at hblocked (Finset.mem_range.mp hindex), Finset.sum_add_distrib,
      ← Finset.mul_sum, hwhite, hroot]
  have hbalance : g.tally (balance g.edges root) =
      2 * (g.edges.alignedCells root).card - (g.holding .white).card - 1 := by
    rw [Grid.tally, Finset.sum_congr rfl fun index hindex =>
      h.balance_at hblocked (Finset.mem_range.mp hindex), Finset.sum_sub_distrib,
      Finset.sum_sub_distrib, ← Finset.mul_sum, haligned, hwhite, hroot]
  have hsteps := hcounted.labour_eq
  have hone := hcounted.balance_eq
  omega

end Carved

end GridRules
