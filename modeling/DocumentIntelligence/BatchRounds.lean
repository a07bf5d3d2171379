import Mathlib

/-!
# Rounds over budgets

Each of `n` items holds a budget. A round serves the first `b` items which have
budget left, in index order, and lowers each of them. Windows of `b` consecutive
items bound the number of rounds: the first window with budget left is served as
a whole, so the sum of the largest budgets of the windows falls in every round.
Rounds which lower every served item by one attain that bound.
-/

set_option autoImplicit false

namespace DocumentIntelligence.BatchRounds
open Finset

section
variable (n b : ℕ)

/-- The number of items before `i` which have budget left. -/
def ahead (r : ℕ → ℕ) (i : ℕ) : ℕ := ((range i).filter (0 < r ·)).card

def Served (r : ℕ → ℕ) (i : ℕ) : Prop := i < n ∧ 0 < r i ∧ ahead r i < b

structure Round (r r' : ℕ → ℕ) : Prop where
  spent : ∀ i, Served n b r i → r' i < r i
  kept : ∀ i, ¬Served n b r i → r' i = r i

def windows : ℕ := (n+b-1)/b

def window (g : ℕ) : Finset ℕ := (range n).filter (·/b = g)

def load (r : ℕ → ℕ) : ℕ := ∑ g ∈ range (windows n b), (window n b g).sup r

end

variable {n b : ℕ} {r r' : ℕ → ℕ}

theorem mem_window {g i : ℕ} : i ∈ window n b g ↔ i < n ∧ i/b = g := by
  simp [window]

theorem lt_windows (hb : 0 < b) {g : ℕ} : g < windows n b ↔ g*b < n := by
  unfold windows
  rw [Nat.lt_iff_add_one_le, Nat.le_div_iff_mul_le hb, Nat.add_mul]
  omega

theorem window_lt (hb : 0 < b) {i : ℕ} (hi : i < n) : i/b < windows n b :=
  (lt_windows hb).mpr ((Nat.div_mul_le_self i b).trans_lt hi)

theorem round_le (h : Round n b r r') (i : ℕ) : r' i ≤ r i := by
  by_cases hs : Served n b r i
  · exact (h.spent i hs).le
  · exact (h.kept i hs).le

/-- Two items of one window are less than `b` apart. -/
theorem window_dist (hb : 0 < b) {i j : ℕ} (h : i/b = j/b) : i < j+b := by
  have hi := Nat.div_add_mod i b
  have hj := Nat.div_add_mod j b
  have hm := Nat.mod_lt i hb
  rw [h] at hi
  omega

/-- Every item with budget left in the window of the first such item is served. -/
theorem served_of_first (hb : 0 < b) {first i : ℕ} (hfirst : ∀ j < first, r j = 0) (hi : i < n)
    (hpos : 0 < r i) (hwindow : i/b = first/b) : Served n b r i := by
  have hsub : (range i).filter (0 < r ·) ⊆ Ico first i := by
    intro j hj
    rw [mem_filter, mem_range] at hj
    rw [mem_Ico]
    refine ⟨?_,hj.1⟩
    by_contra hlt
    have := hfirst j (not_le.mp hlt)
    omega
  have hcard := card_le_card hsub
  rw [Nat.card_Ico] at hcard
  have hdist := window_dist hb hwindow
  exact ⟨hi,hpos,by unfold ahead; omega⟩

theorem load_round (hb : 0 < b) (h : Round n b r r') (hleft : ∃ i < n, 0 < r i) :
    load n b r' < load n b r := by
  classical
  have hex : ∃ i, i < n ∧ 0 < r i := hleft
  obtain ⟨hfirst,hpos⟩ := Nat.find_spec hex
  have hzero : ∀ j < Nat.find hex, r j = 0 := by
    intro j hj
    have hnone := Nat.find_min hex hj
    rw [not_and, Nat.not_lt, Nat.le_zero] at hnone
    exact hnone (hj.trans hfirst)
  generalize Nat.find hex = first at *
  have hmem : first ∈ window n b (first/b) := mem_window.mpr ⟨hfirst,rfl⟩
  have hsup : r first ≤ (window n b (first/b)).sup r := le_sup hmem
  apply sum_lt_sum
  · intro g _
    exact sup_mono_fun fun i _ => round_le h i
  · refine ⟨first/b,mem_range.mpr (window_lt hb hfirst),?_⟩
    rw [Finset.sup_lt_iff (hpos.trans_le hsup)]
    intro i hi
    obtain ⟨hin,hwindow⟩ := mem_window.mp hi
    by_cases hri : 0 < r i
    · exact (h.spent i (served_of_first hb hzero hin hri hwindow)).trans_le (le_sup hi)
    · have hle := round_le h i
      omega

theorem load_const (hb : 0 < b) (m : ℕ) : load n b (fun _ => m) = windows n b*m := by
  have hwindow : ∀ g ∈ range (windows n b), (window n b g).sup (fun _ => m) = m := by
    intro g hg
    have hg := (lt_windows hb).mp (mem_range.mp hg)
    exact sup_const ⟨g*b,mem_window.mpr ⟨hg,Nat.mul_div_cancel g hb⟩⟩ m
  rw [load, sum_congr rfl hwindow, sum_const, card_range, smul_eq_mul]

/-- As long as budget is left, every round of a sequence has lowered the load. -/
theorem load_rounds (hb : 0 < b) {s : ℕ → ℕ → ℕ} {k : ℕ}
    (hround : ∀ j < k, Round n b (s j) (s (j+1))) (hleft : ∀ j < k, ∃ i < n, 0 < s j i) :
    load n b (s k)+k ≤ load n b (s 0) := by
  induction k with
  | zero => exact le_rfl
  | succ k ih =>
    have hprev := ih (fun j hj => hround j (hj.trans (Nat.lt_succ_self k)))
      (fun j hj => hleft j (hj.trans (Nat.lt_succ_self k)))
    have hlast := load_round hb (hround k (Nat.lt_succ_self k)) (hleft k (Nat.lt_succ_self k))
    omega

/-- What `k` rounds leave of equal budgets `m` if every service costs one: the
windows are drained one after the other. -/
def drained (b m k i : ℕ) : ℕ := min m ((i/b+1)*m-k)

theorem drained_zero (b m i : ℕ) : drained b m 0 i = m := by
  have h : m ≤ (i/b+1)*m := Nat.le_mul_of_pos_left m (Nat.succ_pos _)
  simp [drained, h]

section Drained
variable {m : ℕ} (hm : 0 < m) (k i : ℕ)
include hm

theorem drained_before (h : i/b < k/m) : drained b m k i = 0 := by
  have hmul : (i/b+1)*m ≤ k/m*m := Nat.mul_le_mul_right m h
  have hk := Nat.div_mul_le_self k m
  unfold drained
  omega

theorem drained_at (h : i/b = k/m) : drained b m k i = m-k%m := by
  have hk := Nat.div_add_mod k m
  have hmul : (i/b+1)*m = m*(k/m)+m := by rw [h]; ring
  unfold drained
  omega

theorem drained_after (h : k/m < i/b) : drained b m k i = m := by
  have hk := Nat.div_add_mod k m
  have hlt := Nat.mod_lt k hm
  have hmul : (k/m+2)*m ≤ (i/b+1)*m := Nat.mul_le_mul_right m (by omega)
  have hexpand : (k/m+2)*m = m*(k/m)+m+m := by ring
  unfold drained
  omega

theorem drained_pos_iff : 0 < drained b m k i ↔ k/m ≤ i/b := by
  have hlt := Nat.mod_lt k hm
  rcases lt_trichotomy (i/b) (k/m) with h | h | h
  · rw [drained_before hm k i h]
    omega
  · rw [drained_at hm k i h]
    omega
  · rw [drained_after hm k i h]
    omega

theorem drained_succ :
    drained b m (k+1) i = if i/b = k/m then drained b m k i-1 else drained b m k i := by
  have hk := Nat.div_add_mod k m
  have hlt := Nat.mod_lt k hm
  split
  · rename_i h
    have hmul : (i/b+1)*m = m*(k/m)+m := by rw [h]; ring
    unfold drained
    omega
  · rename_i h
    rcases Nat.lt_or_gt_of_ne h with h | h
    · have hmul : (i/b+1)*m ≤ k/m*m := Nat.mul_le_mul_right m h
      have hle := Nat.div_mul_le_self k m
      unfold drained
      omega
    · have hmul : (k/m+2)*m ≤ (i/b+1)*m := Nat.mul_le_mul_right m (by omega)
      have hexpand : (k/m+2)*m = m*(k/m)+m+m := by ring
      unfold drained
      omega

/-- A later window waits for the whole window which is drained. -/
theorem drained_ahead (hb : 0 < b) (h : k/m < i/b) : b ≤ ahead (drained b m k) i := by
  have hsub : Ico (k/m*b) (k/m*b+b) ⊆ (range i).filter (0 < drained b m k ·) := by
    intro j hj
    rw [mem_Ico] at hj
    have hwindow : k/m ≤ j/b := (Nat.le_div_iff_mul_le hb).mpr hj.1
    have hnext : (k/m+1)*b ≤ i := (Nat.le_div_iff_mul_le hb).mp h
    rw [Nat.add_mul, Nat.one_mul] at hnext
    rw [mem_filter, mem_range, drained_pos_iff hm]
    exact ⟨by omega,hwindow⟩
  have hcard := card_le_card hsub
  rw [Nat.card_Ico] at hcard
  unfold ahead
  omega

theorem drained_served_iff (hb : 0 < b) :
    Served n b (drained b m k) i ↔ i < n ∧ i/b = k/m := by
  constructor
  · rintro ⟨hi,hpos,hahead⟩
    refine ⟨hi,?_⟩
    rw [drained_pos_iff hm] at hpos
    by_contra hne
    have := drained_ahead hm k i hb (lt_of_le_of_ne hpos (Ne.symm hne))
    omega
  · rintro ⟨hi,h⟩
    have hfirst : ∀ j < k/m*b, drained b m k j = 0 := by
      intro j hj
      exact drained_before hm k j ((Nat.div_lt_iff_lt_mul hb).mpr hj)
    apply served_of_first hb hfirst hi
    · rw [drained_pos_iff hm]
      omega
    · rw [h, Nat.mul_div_cancel _ hb]

end Drained

/-- Budget is left until every window has been drained. -/
theorem drained_left (hb : 0 < b) {m k : ℕ} (hk : k < windows n b*m) :
    ∃ i < n, 0 < drained b m k i := by
  have hm : 0 < m := Nat.pos_of_mul_pos_left (Nat.zero_lt_of_lt hk)
  have hwindow : k/m < windows n b := (Nat.div_lt_iff_lt_mul hm).mpr hk
  refine ⟨k/m*b,(lt_windows hb).mp hwindow,?_⟩
  rw [drained_pos_iff hm, Nat.mul_div_cancel _ hb]

end DocumentIntelligence.BatchRounds
