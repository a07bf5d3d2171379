import Mathlib

/-!
# Checked folds

A fold which stops as soon as a number exceeds a bound. Where no operand makes the number
smaller, the fold stops exactly if the whole result exceeds the bound.
-/

set_option autoImplicit false

namespace DocumentIntelligence.CheckedFolds

/-- A number unless it exceeds the bound. -/
def capped (bound n : ℕ) : Option ℕ := if n ≤ bound then some n else none

theorem capped_some {bound n m : ℕ} : capped bound n = some m ↔ n ≤ bound ∧ m = n := by
  rw [capped]
  by_cases h : n ≤ bound
  · rw [if_pos h, Option.some.injEq]
    exact ⟨fun heq => ⟨h,heq.symm⟩,fun heq => heq.2.symm⟩
  · rw [if_neg h]
    exact iff_of_false nofun fun heq => h heq.1

/-- A second, tighter bound decides alone. -/
theorem capped_bind {bound limit n : ℕ} (h : limit ≤ bound) :
    (capped bound n).bind (capped limit) = capped limit n := by
  by_cases hbound : n ≤ bound
  · rw [capped, if_pos hbound, Option.bind_some]
  · have hlimit : ¬n ≤ limit := fun hn => hbound (hn.trans h)
    rw [capped, if_neg hbound, Option.bind_none, capped, if_neg hlimit]

/-- Nothing is lost by checking a number before it grows. -/
theorem capped_grow {bound n : ℕ} {f : ℕ → ℕ} (h : n ≤ f n) :
    ((capped bound n).bind fun n => capped bound (f n)) = capped bound (f n) := by
  by_cases hbound : n ≤ bound
  · rw [capped, if_pos hbound, Option.bind_some]
  · have hend : ¬f n ≤ bound := fun hle => hbound (h.trans hle)
    rw [capped, if_neg hbound, Option.bind_none, capped, if_neg hend]

section Folds
variable {f : ℕ → ℕ → ℕ} {bound limit : ℕ} {xs : List ℕ}

theorem le_foldl (hf : ∀ x ∈ xs, ∀ n, n ≤ f n x) (n : ℕ) : n ≤ xs.foldl f n := by
  induction xs generalizing n with
  | nil => exact le_rfl
  | cons x xs ih =>
    have hfirst := hf x List.mem_cons_self n
    have hrest := ih (fun y hy => hf y (List.mem_cons_of_mem x hy)) (f n x)
    exact hfirst.trans hrest

/-- An early stop is a stop at the end: the numbers only grow. -/
theorem foldlM_capped (hf : ∀ x ∈ xs, ∀ n, n ≤ f n x) {n : ℕ} (hn : n ≤ bound) :
    xs.foldlM (fun n x => capped bound (f n x)) n = capped bound (xs.foldl f n) := by
  induction xs generalizing n with
  | nil => exact (if_pos hn).symm
  | cons x xs ih =>
    have hrest : ∀ y ∈ xs, ∀ n, n ≤ f n y := fun y hy => hf y (List.mem_cons_of_mem x hy)
    rw [List.foldlM_cons, List.foldl_cons]
    by_cases hx : f n x ≤ bound
    · rw [capped, if_pos hx]
      exact ih hrest hx
    · have hend : ¬xs.foldl f (f n x) ≤ bound := fun hle => hx ((le_foldl hrest _).trans hle)
      rw [capped, if_neg hx, capped, if_neg hend]
      rfl

theorem foldl_mul (n : ℕ) : xs.foldl (·*·) n = n*xs.prod := by
  induction xs generalizing n with
  | nil => exact (Nat.mul_one n).symm
  | cons x xs ih => rw [List.foldl_cons, ih, List.prod_cons, Nat.mul_assoc]

/-- A checked product of positive numbers is the product. -/
theorem foldlM_mul (hpos : ∀ x ∈ xs, 1 ≤ x) {n : ℕ} (hn : n ≤ bound) :
    xs.foldlM (fun n x => capped bound (n*x)) n = capped bound (n*xs.prod) := by
  rw [← foldl_mul]
  exact foldlM_capped (fun x hx n => Nat.le_mul_of_pos_right n (hpos x hx)) hn

/-- A checked sum in which each summand has its own limit. -/
theorem foldlM_add {n : ℕ} (hn : n ≤ bound) :
    xs.foldlM (fun n x => (capped limit x).bind fun x => capped bound (n+x)) n =
      if (∀ x ∈ xs, x ≤ limit) ∧ n+xs.sum ≤ bound then some (n+xs.sum) else none := by
  induction xs generalizing n with
  | nil => simp [hn]
  | cons x xs ih =>
    rw [List.foldlM_cons, List.sum_cons, ← Nat.add_assoc]
    by_cases hx : x ≤ limit
    · rw [capped, if_pos hx, Option.bind_some]
      by_cases hsum : n+x ≤ bound
      · rw [capped, if_pos hsum]
        simp only [Option.bind_eq_bind, Option.bind_some, ih hsum, List.forall_mem_cons, hx,
          true_and]
      · have hend : ¬n+x+xs.sum ≤ bound := by omega
        rw [capped, if_neg hsum, if_neg fun h => hend h.2]
        rfl
    · rw [capped, if_neg hx, if_neg fun h => hx (h.1 x List.mem_cons_self)]
      rfl

end Folds

/-- A fold which fails with one error only. -/
theorem foldlM_error {α β ε : Type} (e : ε) (f : β → α → Option β) (xs : List α) (b : β) :
    xs.foldlM (fun b x => (f b x).elim (.error e) .ok) b =
      ((xs.foldlM f b).elim (.error e) .ok : Except ε β) := by
  induction xs generalizing b with
  | nil => rfl
  | cons x xs ih =>
    rw [List.foldlM_cons, List.foldlM_cons]
    cases f b x with
    | none => rfl
    | some b' => exact ih b'

end DocumentIntelligence.CheckedFolds
