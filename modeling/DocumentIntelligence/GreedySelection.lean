import Mathlib

/-!
# Greedy selection

A scan keeps every element which a relation admits beside all the elements kept before.
The kept elements are pairwise admitted, and an element is left out only for one which was
kept before it.
-/

set_option autoImplicit false

namespace DocumentIntelligence.GreedySelection

variable {α : Type*} (admits : α → α → Bool)

def keep (kept : List α) (x : α) : List α := if kept.all (admits x) then kept++[x] else kept

def select (xs : List α) : List α := xs.foldl (keep admits) []

/-- The elements which a scan leaves out, when it starts with some kept ones. -/
def leftOut : List α → List α → List α
  | _,[] => []
  | kept,x::xs => if kept.all (admits x) then leftOut (kept++[x]) xs else x::leftOut kept xs

theorem scan_perm (kept xs : List α) :
    (xs.foldl (keep admits) kept++leftOut admits kept xs).Perm (kept++xs) := by
  induction xs generalizing kept with
  | nil => exact List.Perm.refl _
  | cons x xs ih =>
    rw [List.foldl_cons, keep, leftOut]
    by_cases hx : kept.all (admits x) = true
    · rw [if_pos hx, if_pos hx]
      simpa using ih (kept++[x])
    · rw [if_neg hx, if_neg hx]
      exact List.perm_middle.trans (((ih kept).cons x).trans List.perm_middle.symm)

theorem scan_admitted {kept : List α} (h : kept.Pairwise fun a b => admits b a = true)
    (xs : List α) : (xs.foldl (keep admits) kept).Pairwise fun a b => admits b a = true := by
  induction xs generalizing kept with
  | nil => exact h
  | cons x xs ih =>
    rw [List.foldl_cons, keep]
    by_cases hx : kept.all (admits x) = true
    · rw [if_pos hx]
      refine ih (List.pairwise_append.mpr ⟨h,List.pairwise_singleton _ x,?_⟩)
      intro a ha b hb
      rw [List.mem_singleton.mp hb]
      exact List.all_eq_true.mp hx a ha
    · rw [if_neg hx]
      exact ih h

theorem scan_keeps {kept : List α} (xs : List α) {x : α} (h : x ∈ kept) :
    x ∈ xs.foldl (keep admits) kept := by
  induction xs generalizing kept with
  | nil => exact h
  | cons y xs ih =>
    rw [List.foldl_cons, keep]
    by_cases hy : kept.all (admits y) = true
    · rw [if_pos hy]
      exact ih (List.mem_append_left _ h)
    · rw [if_neg hy]
      exact ih h

/-- What is left out is not admitted beside a kept element which comes before it. -/
theorem scan_leftOut {before : α → α → Prop} {kept xs : List α} (hsorted : xs.Pairwise before)
    (hkept : ∀ a ∈ kept, ∀ b ∈ xs, before a b) {x : α} (h : x ∈ leftOut admits kept xs) :
    ∃ y ∈ xs.foldl (keep admits) kept, before y x ∧ admits x y = false := by
  induction xs generalizing kept with
  | nil => cases h
  | cons z xs ih =>
    rw [List.pairwise_cons] at hsorted
    rw [leftOut] at h
    rw [List.foldl_cons, keep]
    by_cases hz : kept.all (admits z) = true
    · rw [if_pos hz] at h ⊢
      refine ih hsorted.2 ?_ h
      intro a ha b hb
      rcases List.mem_append.mp ha with hold | hnew
      · exact hkept a hold b (List.mem_cons_of_mem z hb)
      · rw [List.mem_singleton.mp hnew]
        exact hsorted.1 b hb
    · rw [if_neg hz] at h ⊢
      rcases List.mem_cons.mp h with rfl | hrest
      · rw [Bool.not_eq_true, List.all_eq_false] at hz
        obtain ⟨y,hy,hno⟩ := hz
        exact ⟨y,scan_keeps admits xs hy,hkept y hy x List.mem_cons_self,by simpa using hno⟩
      · exact ih hsorted.2 (fun a ha b hb => hkept a ha b (List.mem_cons_of_mem z hb)) hrest

theorem select_perm (xs : List α) : (select admits xs++leftOut admits [] xs).Perm xs :=
  scan_perm admits [] xs

theorem select_admitted (xs : List α) :
    (select admits xs).Pairwise fun a b => admits b a = true :=
  scan_admitted admits List.Pairwise.nil xs

theorem select_leftOut {before : α → α → Prop} {xs : List α} (hsorted : xs.Pairwise before) {x : α}
    (h : x ∈ leftOut admits [] xs) : ∃ y ∈ select admits xs, before y x ∧ admits x y = false :=
  scan_leftOut admits hsorted (fun _ ha => absurd ha List.not_mem_nil) h

end DocumentIntelligence.GreedySelection
