import DocumentIntelligence.GreedySelection

/-!
# Greedy selection by rank

A selection which scans its elements from the best rank to the worst one leaves open in
which order the elements of one rank come. An element stands if no better one which
stands keeps it out. What is selected does not depend on the order exactly when no two
different elements of one rank which stand keep each other out.
-/

set_option autoImplicit false

namespace DocumentIntelligence.RankedSelection
open GreedySelection

variable {α : Type*} {κ : Type*} [LinearOrder κ] (key : α → κ) (admits : α → α → Bool)

/-- The elements of a better rank. -/
def better (xs : List α) (x : α) : List α := xs.filter fun y => decide (key y < key x)

theorem better_length {xs : List α} {x y : α} (hy : y ∈ xs) (h : key y < key x) :
    (better key xs y).length < (better key xs x).length := by
  have hsub : better key xs y = (better key xs x).filter fun z => decide (key z < key y) := by
    rw [better, better, List.filter_filter]
    apply List.filter_congr
    intro z _
    rw [← Bool.decide_and, decide_eq_decide]
    exact ⟨fun hz => ⟨hz,hz.trans h⟩,fun hz => hz.1⟩
  have hmem : y ∈ better key xs x := List.mem_filter.mpr ⟨hy,decide_eq_true h⟩
  rw [hsub]
  apply List.length_filter_lt_length_iff_exists.mpr
  exact ⟨y,hmem,by simp⟩

def Stands (xs : List α) (x : α) : Prop :=
  ∀ y, (_h : y ∈ xs ∧ key y < key x) → Stands xs y → admits x y = true
  termination_by (better key xs x).length
  decreasing_by exact better_length key _h.1 _h.2

theorem stands_iff {xs : List α} {x : α} : Stands key admits xs x ↔
    ∀ y ∈ xs, key y < key x → Stands key admits xs y → admits x y = true := by
  rw [Stands]
  exact ⟨fun h y hy hlt => h y ⟨hy,hlt⟩,fun h y hy => h y hy.1 hy.2⟩

/-- The elements from the best rank to the worst one. -/
def byRank (xs : List α) : List α := xs.mergeSort fun a b => decide (key a ≤ key b)

end DocumentIntelligence.RankedSelection
