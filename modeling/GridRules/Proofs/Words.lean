import Mathlib.Algebra.Order.BigOperators.Group.List
import GridRules.Proofs.CellCounts
import GridRules.Proofs.CellOrder

/-!
# Arithmetic in machine words

The library computes with exact numbers.  Here the same computations are carried out in
machine words, one operation at a time and in the order in which a program meets them.
An operation has a result only if the exact result is a word, so a computation that has
a result has left the range of words nowhere.

## Main statements

As long as the cells of a shape without an empty axis can be addressed, its cell count, its
steps, the coordinates of an index and the index of a tuple come out in words, and they are
the exact ones.
-/

namespace GridRules

namespace Word

/-!
# Checked operations
-/

def unsigned? (number : Nat) : Option Nat :=
  if number < addressLimit then some number else none

def signed? (number : Int) : Option Int :=
  if -(signedLimit : Int) ≤ number ∧ number < signedLimit then some number else none

def add? (first second : Nat) : Option Nat :=
  unsigned? (first + second)

def mul? (first second : Nat) : Option Nat :=
  unsigned? (first * second)

def sub? (first second : Nat) : Option Nat :=
  if second ≤ first then some (first - second) else none

def div? (number divisor : Nat) : Option Nat :=
  if divisor = 0 then none else some (number / divisor)

def mod? (number divisor : Nat) : Option Nat :=
  if divisor = 0 then none else some (number % divisor)

theorem unsigned?_of_lt {number : Nat} (h : number < addressLimit) :
    unsigned? number = some number :=
  if_pos h

theorem signed?_of_lt {number : Int} (h : number.natAbs < signedLimit) :
    signed? number = some number := by
  apply if_pos
  omega

theorem add?_of_lt {first second : Nat} (h : first + second < addressLimit) :
    add? first second = some (first + second) :=
  unsigned?_of_lt h

theorem mul?_of_lt {first second : Nat} (h : first * second < addressLimit) :
    mul? first second = some (first * second) :=
  unsigned?_of_lt h

theorem sub?_of_le {first second : Nat} (h : second ≤ first) :
    sub? first second = some (first - second) :=
  if_pos h

theorem div?_of_pos {number divisor : Nat} (h : 0 < divisor) :
    div? number divisor = some (number / divisor) :=
  if_neg (Nat.ne_of_gt h)

theorem mod?_of_pos {number divisor : Nat} (h : 0 < divisor) :
    mod? number divisor = some (number % divisor) :=
  if_neg (Nat.ne_of_gt h)

/-!
# Checked loops
-/

theorem some_bind {value result : Type} (found : value) (next : value -> Option result) :
    (some found >>= next) = next found := rfl

section Loops

variable {item result : Type} {items : List item}

theorem mapM_of_forall {f : item -> Option result} {exact : item -> result}
    (h : forall entry, entry ∈ items -> f entry = some (exact entry)) :
    items.mapM f = some (items.map exact) := by
  induction items with
  | nil => rfl
  | cons head rest ih =>
      rw [List.mapM_cons, h head List.mem_cons_self, some_bind,
        ih fun entry hentry => h entry (List.mem_cons_of_mem _ hentry), some_bind]
      rfl

theorem allM_of_forall {f : item -> Option Bool} {exact : item -> Bool}
    (h : forall entry, entry ∈ items -> f entry = some (exact entry)) :
    items.allM f = some (items.all exact) := by
  induction items with
  | nil => rfl
  | cons head rest ih =>
      have hrest := ih fun entry hentry => h entry (List.mem_cons_of_mem _ hentry)
      rw [List.allM, h head List.mem_cons_self, List.all_cons]
      cases exact head with
      | true => exact hrest
      | false => rfl

end Loops

/-!
# Checked sums

The terms of a sum are computed and added one after the other.  Every partial sum is
checked.
-/

section Sums

variable {number item : Type}

def sumFrom? [Add number] (check? : number -> Option number) (term? : item -> Option number)
    (start : number) (items : List item) : Option number :=
  items.foldlM
    (fun sum entry => do
      let term <- term? entry
      check? (sum + term))
    start

theorem sumFrom?_eq_some [AddMonoid number] {check? : number -> Option number}
    {term? : item -> Option number} {term : item -> number} {start : number} {items : List item}
    (hterm : forall entry, entry ∈ items -> term? entry = some (term entry))
    (hcheck : forall front, front <+: items ->
      check? (start + (front.map term).sum) = some (start + (front.map term).sum)) :
    sumFrom? check? term? start items = some (start + (items.map term).sum) := by
  induction items generalizing start with
  | nil => exact congrArg some (add_zero start).symm
  | cons head rest ih =>
      have hhead : check? (start + term head) = some (start + term head) := by
        simpa using hcheck [head] (List.prefix_append [head] rest)
      have hrest : sumFrom? check? term? (start + term head) rest =
          some (start + term head + (rest.map term).sum) := by
        apply ih
        · exact fun entry hentry => hterm entry (List.mem_cons_of_mem _ hentry)
        · intro front hfront
          have hlonger := hcheck (head :: front) ((List.prefix_cons_inj head).mpr hfront)
          rwa [List.map_cons, List.sum_cons, ← add_assoc] at hlonger
      rw [sumFrom?, List.foldlM_cons, hterm head List.mem_cons_self, some_bind, hhead,
        some_bind, List.map_cons, List.sum_cons, ← add_assoc]
      exact hrest

/-- Terms and partial sums of natural numbers are bounded by the whole sum. -/
theorem sumFrom?_unsigned {term? : item -> Option Nat} {term : item -> Nat} {items : List item}
    (hterm : forall entry, entry ∈ items -> term entry < addressLimit ->
      term? entry = some (term entry))
    (hlt : (items.map term).sum < addressLimit) :
    sumFrom? unsigned? term? 0 items = some (items.map term).sum := by
  rw [← Nat.zero_add (items.map term).sum]
  apply sumFrom?_eq_some
  · intro entry hentry
    have hle := List.le_sum_of_mem (List.mem_map_of_mem (f := term) hentry)
    exact hterm entry hentry (Nat.lt_of_le_of_lt hle hlt)
  · intro front hfront
    rcases hfront with ⟨back, heq⟩
    rw [← heq, List.map_append, List.sum_append] at hlt
    exact unsigned?_of_lt (by omega)

theorem sumFrom?_zipWith {first second : Type} {term? : first × second -> Option Nat}
    {term : first -> second -> Nat} {left : List first} {right : List second}
    (hterm : forall entry, entry ∈ left.zip right -> term entry.1 entry.2 < addressLimit ->
      term? entry = some (term entry.1 entry.2))
    (hlt : (List.zipWith term left right).sum < addressLimit) :
    sumFrom? unsigned? term? 0 (left.zip right) = some (List.zipWith term left right).sum := by
  have hterms : List.zipWith term left right =
      (left.zip right).map fun entry => term entry.1 entry.2 := by
    rw [List.map_zip_eq_zipWith]
    rfl
  rw [hterms] at hlt ⊢
  exact sumFrom?_unsigned hterm hlt

theorem natAbs_sum_le (terms : List Int) : terms.sum.natAbs ≤ (terms.map Int.natAbs).sum := by
  induction terms with
  | nil => exact Nat.le_refl _
  | cons head rest ih =>
      rw [List.sum_cons, List.map_cons, List.sum_cons]
      exact Nat.le_trans (Int.natAbs_add_le _ _) (Nat.add_le_add_left ih _)

/-- Signs may differ, so terms and partial sums are bounded by the sum of the absolute values. -/
theorem sumFrom?_signed {term? : item -> Option Int} {term : item -> Int} {items : List item}
    (hterm : forall entry, entry ∈ items -> (term entry).natAbs < signedLimit ->
      term? entry = some (term entry))
    (hlt : (items.map fun entry => (term entry).natAbs).sum < signedLimit) :
    sumFrom? signed? term? 0 items = some (items.map term).sum := by
  rw [← Int.zero_add (items.map term).sum]
  apply sumFrom?_eq_some
  · intro entry hentry
    have hle := List.le_sum_of_mem
      (List.mem_map_of_mem (f := fun entry => (term entry).natAbs) hentry)
    exact hterm entry hentry (Nat.lt_of_le_of_lt hle hlt)
  · intro front hfront
    rcases hfront with ⟨back, heq⟩
    rw [← heq, List.map_append, List.sum_append] at hlt
    have hsum := natAbs_sum_le (front.map term)
    rw [List.map_map] at hsum
    rw [Int.zero_add]
    exact signed?_of_lt (Nat.lt_of_le_of_lt hsum (Nat.lt_of_le_of_lt (Nat.le_add_right _ _) hlt))

end Sums

/-!
# Shapes

The cell count is the checked count of the library, which multiplies axis by axis.  Steps
are multiplied from the innermost axis outwards, and the outermost length takes no part.
-/

def strides? : Shape -> Option (List Nat)
  | [] => some []
  | [_] => some [1]
  | _ :: edge :: rest => do
      let steps <- strides? (edge :: rest)
      let step <- steps.head?
      let outer <- mul? step edge
      some (outer :: steps)

def digits? : Shape -> Nat -> Option (List Nat × Nat)
  | [], index => some ([], index)
  | edge :: rest, index => do
      let inner <- digits? rest index
      let coordinate <- mod? inner.2 edge
      let quotient <- div? inner.2 edge
      some (coordinate :: inner.1, quotient)

def coordinates? (edges : Shape) (index : Nat) : Option (List Nat) :=
  (digits? edges index).map Prod.fst

/-- Read the remaining coordinates into a running index.  The inner option says whether the
tuple names a cell. -/
def indexFrom? : Nat -> Shape -> List Nat -> Option (Option Nat)
  | index, edge :: rest, coordinate :: others =>
      if coordinate < edge then do
        let outer <- mul? index edge
        let next <- add? outer coordinate
        indexFrom? next rest others
      else some none
  | index, _, _ => some (some index)

def index? (edges : Shape) (tuple : List Nat) : Option (Option Nat) :=
  if tuple.length ≠ edges.length then some none else indexFrom? 0 edges tuple

variable {edges : Shape}

theorem strides?_eq_some (hzero : 0 ∉ edges) (hlt : edges.cellCount < addressLimit) :
    strides? edges = some edges.strides := by
  induction edges with
  | nil => rfl
  | cons outer rest ih =>
      cases rest with
      | nil => rfl
      | cons edge inner =>
          rw [List.mem_cons, not_or] at hzero
          have hle : Shape.cellCount (edge :: inner) ≤ Shape.cellCount (outer :: edge :: inner) :=
            Nat.le_mul_of_pos_left _ (Nat.pos_of_ne_zero (Ne.symm hzero.left))
          have hinner := Nat.lt_of_le_of_lt hle hlt
          have hstep : mul? (Shape.cellCount inner) edge = some (Shape.cellCount (edge :: inner)) := by
            rw [Shape.cellCount_cons, Nat.mul_comm] at hinner ⊢
            exact mul?_of_lt hinner
          rw [strides?, ih hzero.right hinner, some_bind, Shape.strides_cons, List.head?_cons,
            some_bind, hstep, some_bind, Shape.strides_cons, Shape.strides_cons]

theorem digits?_eq_some (hzero : 0 ∉ edges) (index : Nat) :
    digits? edges index = some (edges.digits index) := by
  induction edges with
  | nil => rfl
  | cons edge rest ih =>
      rw [List.mem_cons, not_or] at hzero
      have hedge : 0 < edge := Nat.pos_of_ne_zero (Ne.symm hzero.left)
      rw [digits?, ih hzero.right, some_bind, mod?_of_pos hedge, some_bind, div?_of_pos hedge,
        some_bind, Shape.digits]

theorem coordinates?_eq_some (hzero : 0 ∉ edges) (index : Nat) :
    coordinates? edges index = some (edges.coordinates index) := by
  rw [coordinates?, digits?_eq_some hzero, Option.map_some, Shape.coordinates]

/-- The running index stays below the cells of the axes that were read, and these divide the
cells of the whole shape. -/
theorem indexFrom?_eq_some {start : Nat} {tuple : List Nat} (hzero : 0 ∉ edges)
    (hlength : tuple.length = edges.length)
    (hlt : (start + 1) * edges.cellCount ≤ addressLimit) :
    indexFrom? start edges tuple = some (edges.indexFrom? start tuple) := by
  induction edges generalizing start tuple with
  | nil =>
      rw [List.length_eq_zero_iff.mp hlength]
      rfl
  | cons edge rest ih =>
      cases tuple with
      | nil => cases hlength
      | cons coordinate others =>
          have hrest : 0 ∉ rest := fun hmem => hzero (List.mem_cons_of_mem edge hmem)
          rw [indexFrom?, Shape.indexFrom?]
          by_cases hcoordinate : coordinate < edge
          · have hstep : start * edge + coordinate + 1 ≤ (start + 1) * edge := by
              rw [Nat.add_mul, Nat.one_mul]
              exact Nat.add_le_add_left hcoordinate _
            have hnext : (start * edge + coordinate + 1) * Shape.cellCount rest ≤ addressLimit := by
              rw [Shape.cellCount_cons, ← Nat.mul_assoc] at hlt
              exact Nat.le_trans (Nat.mul_le_mul_right _ hstep) hlt
            have hword : start * edge + coordinate + 1 ≤ addressLimit :=
              Nat.le_trans (Nat.le_mul_of_pos_right _ (Shape.cellCount_pos hrest)) hnext
            rw [if_pos hcoordinate, if_pos hcoordinate, mul?_of_lt (by omega), some_bind,
              add?_of_lt (by omega), some_bind, ih hrest (Nat.succ.inj hlength) hnext]
          · rw [if_neg hcoordinate, if_neg hcoordinate]

theorem index?_eq_some (hzero : 0 ∉ edges) (hlt : edges.cellCount < addressLimit)
    (tuple : List Nat) : index? edges tuple = some (edges.index? tuple) := by
  by_cases hlength : tuple.length = edges.length
  · rw [index?, if_neg (not_not.mpr hlength), Shape.index?]
    apply indexFrom?_eq_some hzero hlength
    rw [Nat.zero_add, Nat.one_mul]
    exact Nat.le_of_lt hlt
  · rw [index?, if_pos hlength, Shape.index?_eq_none_iff.mpr (Or.inl hlength)]

end Word

end GridRules
