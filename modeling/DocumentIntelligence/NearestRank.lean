import Mathlib

/-!
# Nearest ranks

The nearest-rank percentile of a list is its element which enough of the elements do not
exceed, and which too few of them are below. In a sorted list it stands at its rank.
-/

set_option autoImplicit false

namespace DocumentIntelligence.NearestRank

variable {α : Type} [LinearOrder α] {percent : ℕ} {xs ys : List α} {v w : α}

structure IsNearestRank (percent : ℕ) (xs : List α) (v : α) : Prop where
  mem : v ∈ xs
  enough : xs.length*percent ≤ 100*xs.countP (· ≤ v)
  least : 100*xs.countP (· < v) < xs.length*percent

theorem IsNearestRank.perm (h : IsNearestRank percent xs v) (hperm : xs.Perm ys) :
    IsNearestRank percent ys v := by
  constructor
  · exact hperm.mem_iff.mp h.mem
  · rw [← hperm.length_eq, ← hperm.countP_eq]
    exact h.enough
  · rw [← hperm.length_eq, ← hperm.countP_eq]
    exact h.least

/-- A higher percentage has no lower percentile. -/
theorem IsNearestRank.mono {other : ℕ} (h : IsNearestRank percent xs v)
    (h' : IsNearestRank other xs w) (hle : percent ≤ other) : v ≤ w := by
  by_contra hcontra
  have hbelow : xs.countP (· ≤ w) ≤ xs.countP (· < v) := by
    apply List.countP_mono_left
    intro x _ hx
    rw [decide_eq_true_eq] at hx ⊢
    exact hx.trans_lt (not_le.mp hcontra)
  have hlength := Nat.mul_le_mul_left xs.length hle
  have henough := h'.enough
  have hleast := h.least
  omega

theorem IsNearestRank.unique (h : IsNearestRank percent xs v) (h' : IsNearestRank percent xs w) :
    v = w :=
  le_antisymm (h.mono h' le_rfl) (h'.mono h le_rfl)

/-- In a sorted list no more elements are below one than stand before it, and none which
stands before it exceeds it. -/
theorem sorted_countP (hsorted : xs.Pairwise (· ≤ ·)) {i : ℕ} (hi : xs[i]? = some v) :
    xs.countP (· < v) ≤ i ∧ i+1 ≤ xs.countP (· ≤ v) := by
  induction xs generalizing i with
  | nil => cases hi
  | cons x xs ih =>
    rw [List.pairwise_cons] at hsorted
    cases i with
    | zero =>
      rw [List.getElem?_cons_zero, Option.some.injEq] at hi
      have hnone : (x::xs).countP (· < v) = 0 := by
        rw [List.countP_eq_zero]
        intro y hy
        rw [decide_eq_true_eq, not_lt, ← hi]
        rcases List.mem_cons.mp hy with rfl | hy
        · exact le_rfl
        · exact hsorted.1 y hy
      have hone : 0 < (x::xs).countP (· ≤ v) := by
        rw [List.countP_pos_iff]
        exact ⟨x,List.mem_cons_self,decide_eq_true hi.le⟩
      omega
    | succ i =>
      rw [List.getElem?_cons_succ] at hi
      obtain ⟨hbelow,hupto⟩ := ih hsorted.2 hi
      have hx : x ≤ v := hsorted.1 v (List.mem_of_getElem? hi)
      have hfirst : (x::xs).countP (· ≤ v) = xs.countP (· ≤ v)+1 :=
        List.countP_cons_of_pos (decide_eq_true hx)
      have hmost : (x::xs).countP (· < v) ≤ xs.countP (· < v)+1 := by
        rw [List.countP_cons]
        split <;> omega
      omega

/-- The element at the rank, which is rounded up. -/
theorem sorted_nearestRank (hsorted : xs.Pairwise (· ≤ ·)) {i : ℕ} (hi : xs[i]? = some v)
    (hbelow : 100*i < xs.length*percent) (hupto : xs.length*percent ≤ 100*(i+1)) :
    IsNearestRank percent xs v := by
  have hcount := sorted_countP hsorted hi
  constructor
  · exact List.mem_of_getElem? hi
  · omega
  · omega

end DocumentIntelligence.NearestRank
