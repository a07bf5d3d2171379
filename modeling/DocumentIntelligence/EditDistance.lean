import Mathlib

/-!
# Edit distance

The least number of insertions, deletions and replacements which turn one list into
another. The recursive definition computes it, and it is a metric.
-/

set_option autoImplicit false

namespace DocumentIntelligence.EditDistance

variable {α : Type}

/-- So many edits turn the first list into the second. -/
inductive Edits : ℕ → List α → List α → Prop
  | nil : Edits 0 [] []
  | keep {n : ℕ} {xs ys : List α} (x : α) : Edits n xs ys → Edits n (x::xs) (x::ys)
  | delete {n : ℕ} {xs ys : List α} (x : α) : Edits n xs ys → Edits (n+1) (x::xs) ys
  | insert {n : ℕ} {xs ys : List α} (y : α) : Edits n xs ys → Edits (n+1) xs (y::ys)
  | replace {n : ℕ} {xs ys : List α} (x y : α) : Edits n xs ys → Edits (n+1) (x::xs) (y::ys)

section Edits
variable {m n : ℕ} {xs ys zs : List α}

theorem edits_refl (xs : List α) : Edits 0 xs xs := by
  induction xs with
  | nil => exact Edits.nil
  | cons x xs ih => exact ih.keep x

theorem edits_symm (h : Edits n xs ys) : Edits n ys xs := by
  induction h with
  | nil => exact Edits.nil
  | keep x _ ih => exact ih.keep x
  | delete x _ ih => exact ih.insert x
  | insert y _ ih => exact ih.delete y
  | replace x y _ ih => exact ih.replace y x

theorem eq_of_edits_zero (h : Edits 0 xs ys) : xs = ys := by
  generalize hn : 0 = n at h
  induction h with
  | nil => rfl
  | keep x _ ih => rw [ih hn]
  | delete => cases hn
  | insert => cases hn
  | replace => cases hn

theorem edits_append {xs' ys' : List α} (h : Edits m xs ys) (h' : Edits n xs' ys') :
    Edits (m+n) (xs++xs') (ys++ys') := by
  induction h with
  | nil => rwa [Nat.zero_add]
  | keep x _ ih => exact ih.keep x
  | delete x _ ih =>
    rw [Nat.add_right_comm]
    exact ih.delete x
  | insert y _ ih =>
    rw [Nat.add_right_comm]
    exact ih.insert y
  | replace x y _ ih =>
    rw [Nat.add_right_comm]
    exact ih.replace x y

theorem edits_reverse (h : Edits n xs ys) : Edits n xs.reverse ys.reverse := by
  induction h with
  | nil => exact Edits.nil
  | keep x _ ih =>
    rw [List.reverse_cons, List.reverse_cons]
    exact edits_append ih (edits_refl [x])
  | @delete n xs ys x _ ih =>
    rw [List.reverse_cons, ← List.append_nil ys.reverse]
    exact edits_append ih (Edits.nil.delete x)
  | @insert n xs ys y _ ih =>
    rw [List.reverse_cons, ← List.append_nil xs.reverse]
    exact edits_append ih (Edits.nil.insert y)
  | replace x y _ ih =>
    rw [List.reverse_cons, List.reverse_cons]
    exact edits_append ih (Edits.nil.replace x y)

theorem edits_deleteAll (xs : List α) : Edits xs.length xs [] := by
  induction xs with
  | nil => exact Edits.nil
  | cons x xs ih => exact ih.delete x

/-- Edits of a list with a head insert before it, and then keep, delete or replace it. -/
theorem edits_cons {P : ℕ → List α → Prop} {y : α}
    (hkeep : ∀ n zs, Edits n ys zs → P n (y::zs))
    (hdelete : ∀ n zs, Edits n ys zs → P (n+1) zs)
    (hinsert : ∀ n z zs, P n zs → P (n+1) (z::zs))
    (hreplace : ∀ n z zs, Edits n ys zs → P (n+1) (z::zs)) (h : Edits n (y::ys) zs) : P n zs := by
  generalize hlist : y::ys = list at h
  induction h with
  | nil => cases hlist
  | keep x hrest _ =>
    cases hlist
    exact hkeep _ _ hrest
  | delete x hrest _ =>
    cases hlist
    exact hdelete _ _ hrest
  | insert z _ ih => exact hinsert _ z _ (ih hlist)
  | replace x z hrest _ =>
    cases hlist
    exact hreplace _ z _ hrest

/-- What is edited twice can be edited once, by no more edits. -/
theorem edits_trans (h : Edits m xs ys) (h' : Edits n ys zs) : ∃ k ≤ m+n, Edits k xs zs := by
  induction h generalizing n zs with
  | nil => exact ⟨n,by omega,h'⟩
  | @keep m xs ys x _ ih =>
    apply edits_cons (P := fun n zs => ∃ k ≤ m+n, Edits k (x::xs) zs) _ _ _ _ h'
    · intro n zs hrest
      obtain ⟨k,hk,hedits⟩ := ih hrest
      exact ⟨k,hk,hedits.keep x⟩
    · intro n zs hrest
      obtain ⟨k,hk,hedits⟩ := ih hrest
      exact ⟨k+1,by omega,hedits.delete x⟩
    · intro n z zs hmore
      obtain ⟨k,hk,hedits⟩ := hmore
      exact ⟨k+1,by omega,hedits.insert z⟩
    · intro n z zs hrest
      obtain ⟨k,hk,hedits⟩ := ih hrest
      exact ⟨k+1,by omega,hedits.replace x z⟩
  | @delete m xs ys x _ ih =>
    obtain ⟨k,hk,hedits⟩ := ih h'
    exact ⟨k+1,by omega,hedits.delete x⟩
  | @insert m xs ys y _ ih =>
    apply edits_cons (P := fun n zs => ∃ k ≤ m+1+n, Edits k xs zs) _ _ _ _ h'
    · intro n zs hrest
      obtain ⟨k,hk,hedits⟩ := ih hrest
      exact ⟨k+1,by omega,hedits.insert y⟩
    · intro n zs hrest
      obtain ⟨k,hk,hedits⟩ := ih hrest
      exact ⟨k,by omega,hedits⟩
    · intro n z zs hmore
      obtain ⟨k,hk,hedits⟩ := hmore
      exact ⟨k+1,by omega,hedits.insert z⟩
    · intro n z zs hrest
      obtain ⟨k,hk,hedits⟩ := ih hrest
      exact ⟨k+1,by omega,hedits.insert z⟩
  | @replace m xs ys x y _ ih =>
    apply edits_cons (P := fun n zs => ∃ k ≤ m+1+n, Edits k (x::xs) zs) _ _ _ _ h'
    · intro n zs hrest
      obtain ⟨k,hk,hedits⟩ := ih hrest
      exact ⟨k+1,by omega,hedits.replace x y⟩
    · intro n zs hrest
      obtain ⟨k,hk,hedits⟩ := ih hrest
      exact ⟨k+1,by omega,hedits.delete x⟩
    · intro n z zs hmore
      obtain ⟨k,hk,hedits⟩ := hmore
      exact ⟨k+1,by omega,hedits.insert z⟩
    · intro n z zs hrest
      obtain ⟨k,hk,hedits⟩ := ih hrest
      exact ⟨k+1,by omega,hedits.replace x z⟩

end Edits

/-! ### The distance -/

section Distance
variable [DecidableEq α] {xs ys zs : List α} {n : ℕ}

def replacement (x y : α) : ℕ := if x = y then 0 else 1

def editDistance : List α → List α → ℕ
  | [], ys => ys.length
  | x::xs, [] => (x::xs).length
  | x::xs, y::ys => min (min (editDistance (x::xs) ys+1) (editDistance xs (y::ys)+1))
      (editDistance xs ys+replacement x y)
termination_by xs ys => xs.length+ys.length

theorem editDistance_nil (xs : List α) : editDistance xs [] = xs.length := by
  cases xs with
  | nil => rw [editDistance]
  | cons x xs => rw [editDistance]

theorem editDistance_cons (x y : α) (xs ys : List α) :
    editDistance (x::xs) (y::ys) =
      min (min (editDistance (x::xs) ys+1) (editDistance xs (y::ys)+1))
        (editDistance xs ys+replacement x y) := by
  rw [editDistance]

/-- So many edits suffice. -/
theorem edits_editDistance (xs ys : List α) : Edits (editDistance xs ys) xs ys := by
  fun_induction editDistance xs ys with
  | case1 ys => exact edits_symm (edits_deleteAll ys)
  | case2 x xs => exact edits_deleteAll (x::xs)
  | case3 x xs y ys hinsert hdelete hrest =>
    have hreplace : Edits (editDistance xs ys+replacement x y) (x::xs) (y::ys) := by
      by_cases heq : x = y
      · rw [replacement, if_pos heq, ← heq]
        exact hrest.keep x
      · rw [replacement, if_neg heq]
        exact hrest.replace x y
    rcases min_choice (min (editDistance (x::xs) ys+1) (editDistance xs (y::ys)+1))
      (editDistance xs ys+replacement x y) with h | h
    · rw [h]
      rcases min_choice (editDistance (x::xs) ys+1) (editDistance xs (y::ys)+1) with h | h
      · rw [h]
        exact hinsert.insert y
      · rw [h]
        exact hdelete.delete x
    · rw [h]
      exact hreplace

theorem editDistance_cons_le (x : α) (xs ys : List α) :
    editDistance (x::xs) ys ≤ editDistance xs ys+1 := by
  cases ys with
  | nil => rw [editDistance_nil, editDistance_nil, List.length_cons]
  | cons y ys =>
    rw [editDistance_cons]
    omega

theorem editDistance_le_cons (xs : List α) (y : α) (ys : List α) :
    editDistance xs (y::ys) ≤ editDistance xs ys+1 := by
  cases xs with
  | nil => rw [editDistance, editDistance, List.length_cons]
  | cons x xs =>
    rw [editDistance_cons]
    omega

/-- Fewer edits do not suffice. -/
theorem editDistance_le (h : Edits n xs ys) : editDistance xs ys ≤ n := by
  induction h with
  | nil => rw [editDistance, List.length_nil]
  | keep x _ ih =>
    rw [editDistance_cons, replacement, if_pos rfl]
    omega
  | delete x _ ih => exact (editDistance_cons_le x _ _).trans (Nat.succ_le_succ ih)
  | insert y _ ih => exact (editDistance_le_cons _ y _).trans (Nat.succ_le_succ ih)
  | replace x y _ ih =>
    have hone : replacement x y ≤ 1 := by
      rw [replacement]
      split <;> omega
    rw [editDistance_cons]
    omega

/-! ### A metric -/

theorem editDistance_comm (xs ys : List α) : editDistance xs ys = editDistance ys xs :=
  Nat.le_antisymm (editDistance_le (edits_symm (edits_editDistance ys xs)))
    (editDistance_le (edits_symm (edits_editDistance xs ys)))

theorem editDistance_eq_zero : editDistance xs ys = 0 ↔ xs = ys := by
  constructor
  · intro h
    have hedits := edits_editDistance xs ys
    rw [h] at hedits
    exact eq_of_edits_zero hedits
  · intro h
    rw [h]
    exact Nat.le_zero.mp (editDistance_le (edits_refl ys))

theorem editDistance_triangle (xs ys zs : List α) :
    editDistance xs zs ≤ editDistance xs ys+editDistance ys zs := by
  obtain ⟨k,hk,hedits⟩ := edits_trans (edits_editDistance xs ys) (edits_editDistance ys zs)
  exact (editDistance_le hedits).trans hk

/-! ### From the other end -/

theorem editDistance_reverse (xs ys : List α) :
    editDistance xs.reverse ys.reverse = editDistance xs ys := by
  apply Nat.le_antisymm (editDistance_le (edits_reverse (edits_editDistance xs ys)))
  apply editDistance_le
  have h := edits_reverse (edits_editDistance xs.reverse ys.reverse)
  rwa [List.reverse_reverse, List.reverse_reverse] at h

/-- The recursion over the last elements. -/
theorem editDistance_concat (xs ys : List α) (x y : α) :
    editDistance (xs++[x]) (ys++[y]) =
      min (min (editDistance (xs++[x]) ys+1) (editDistance xs (ys++[y])+1))
        (editDistance xs ys+replacement x y) := by
  rw [← editDistance_reverse (xs++[x]), ← editDistance_reverse (xs++[x]),
    ← editDistance_reverse xs, ← editDistance_reverse xs, List.reverse_append, List.reverse_append]
  exact editDistance_cons x y xs.reverse ys.reverse

end Distance

end DocumentIntelligence.EditDistance
