/-!
# Uniform choice from a 64-bit draw

A draw is turned into an index below `count` by taking the upper half of its
product with `count`.  The lower half decides whether the draw is used at all:
the accepted lower halves form a zone whose length is `count` scaled up by a
power of two, so every index is reached by equally many draws.
-/

namespace GridRules
namespace Uniform

def draws : Nat := UInt64.size

def leadingZeros (count : Nat) : Nat :=
  63 - count.log2

/-- Largest lower half that is accepted. -/
def zone (count : Nat) : Nat :=
  (count <<< leadingZeros count) - 1

/-- Index that a draw selects, or `none` for a draw that is rejected. -/
def index? (count draw : Nat) : Option Nat :=
  if draw * count % draws ≤ zone count then some (draw * count / draws) else none

theorem index?_lt {count draw index : Nat} (hcount : 0 < count) (hdraw : draw < draws)
    (h : index? count draw = some index) : index < count := by
  unfold index? at h
  split at h
  · simp only [Option.some.injEq] at h
    rw [← h]
    exact Nat.div_lt_of_lt_mul (Nat.mul_lt_mul_of_pos_right hdraw hcount)
  · cases h

end Uniform
end GridRules
