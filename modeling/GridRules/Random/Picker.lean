/-!
# Pickers

Rules are indifferent to how a choice among candidates is made.  They ask a
source for an index below the number of candidates, and what they rely on is
only that they get one.
-/

namespace GridRules

/-- Sources of picks.  Asked to pick from nothing, a source has no answer and
stays as it is.  Asked to pick from a positive number of things, it names one
of them. -/
class Picker (source : Type) where
  pickIndex : source -> Nat -> Option Nat × source
  pickIndex_zero : forall s, pickIndex s 0 = (none, s)
  pickIndex_of_pos : forall s {count}, 0 < count ->
    exists index, (pickIndex s count).1 = some index ∧ index < count

namespace Picker

variable {source item : Type} [Picker source]

def pick (s : source) (items : List item) : Option (Nat × item) × source :=
  match pickIndex s items.length with
  | (some index, after) => (items[index]?.map fun chosen => (index, chosen), after)
  | (none, after) => (none, after)

theorem pick_nil (s : source) : pick s ([] : List item) = (none, s) := by
  rw [pick, List.length_nil, pickIndex_zero]

theorem pick_of_ne_nil (s : source) {items : List item} (h : items ≠ []) :
    exists index chosen, (pick s items).1 = some (index, chosen) ∧ items[index]? = some chosen := by
  rcases pickIndex_of_pos s (List.length_pos_iff.mpr h) with ⟨index, hindex, hlt⟩
  have hchosen := List.getElem?_eq_getElem hlt
  have hpair : pickIndex s items.length = (some index, (pickIndex s items.length).2) := by
    rw [← hindex]
  refine ⟨index, items[index], ?_, hchosen⟩
  rw [pick, hpair]
  simp only [hchosen, Option.map_some]

theorem pick_mem {s : source} {items : List item} {index : Nat} {chosen : item}
    (h : (pick s items).1 = some (index, chosen)) : chosen ∈ items := by
  by_cases hitems : items = []
  · rw [hitems, pick_nil] at h
    cases h
  · rcases pick_of_ne_nil s hitems with ⟨index', chosen', hpick, hget⟩
    rw [hpick] at h
    cases h
    exact List.mem_of_getElem? hget

theorem pick_eq_none_iff {s : source} {items : List item} :
    (pick s items).1 = none ↔ items = [] := by
  by_cases hitems : items = []
  · exact iff_of_true (by rw [hitems, pick_nil]) hitems
  · rcases pick_of_ne_nil s hitems with ⟨index, chosen, hpick, _⟩
    exact iff_of_false (by rw [hpick]; exact Option.some_ne_none _) hitems

theorem pick_map {other : Type} (s : source) (f : item -> other) (items : List item) :
    pick s (items.map f) =
      ((pick s items).1.map fun picked => (picked.1, f picked.2), (pick s items).2) := by
  unfold pick
  rw [List.length_map]
  rcases pickIndex s items.length with ⟨index, after⟩
  cases index with
  | none => rfl
  | some index => simp [Function.comp_def]

end Picker
end GridRules
