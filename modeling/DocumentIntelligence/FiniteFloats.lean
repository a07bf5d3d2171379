import Mathlib

/-!
# The order of finite floating point numbers

Of two finite numbers one is not below the other exactly when the other is at most it.
-/

set_option autoImplicit false

namespace DocumentIntelligence.FiniteFloats
open Float.Model (UnpackedFloat)

theorem parts_swap (m n : ℕ) (e f : ℤ) :
    (compare f e).then (compare n m) = ((compare e f).then (compare m n)).swap := by
  rw [Ordering.swap_then, ← Int.compare_swap, ← Nat.compare_swap]

theorem compare_swap {a b : UnpackedFloat} (ha : a.isFinite = true) (hb : b.isFinite = true) :
    b.compare a = (a.compare b).map Ordering.swap := by
  cases a with
  | notANumber => cases ha
  | infinity => cases ha
  | zero =>
    cases b with
    | notANumber => cases hb
    | infinity => cases hb
    | zero => rfl
    | finite t => cases t <;> rfl
  | finite s m e =>
    cases b with
    | notANumber => cases hb
    | infinity => cases hb
    | zero => cases s <;> rfl
    | finite t n f =>
      cases s <;> cases t
      · exact congrArg (fun o => some (Ordering.swap o)) (parts_swap m n e f)
      · rfl
      · rfl
      · exact congrArg some (parts_swap m n e f)

theorem compare_some {a b : UnpackedFloat} (ha : a.isFinite = true) (hb : b.isFinite = true) :
    ∃ o, a.compare b = some o := by
  cases a with
  | notANumber => cases ha
  | infinity => cases ha
  | zero =>
    cases b with
    | notANumber => cases hb
    | infinity => cases hb
    | zero => exact ⟨_,rfl⟩
    | finite t => cases t <;> exact ⟨_,rfl⟩
  | finite s =>
    cases b with
    | notANumber => cases hb
    | infinity => cases hb
    | zero => cases s <;> exact ⟨_,rfl⟩
    | finite t => cases s <;> cases t <;> exact ⟨_,rfl⟩

theorem le_of_not_lt {x y : Float} (hx : x.isFinite = true) (hy : y.isFinite = true)
    (h : ¬x < y) : y ≤ x := by
  obtain ⟨o,ho⟩ := compare_some (a := x.toModel.unpack) (b := y.toModel.unpack) hx hy
  have hswap := compare_swap (a := x.toModel.unpack) (b := y.toModel.unpack) hx hy
  have hlt : o ≠ .lt := by
    rintro rfl
    refine h (decide_eq_true ?_)
    show (x.toModel.unpack.compare y.toModel.unpack == some .lt) = true
    rw [ho]
    rfl
  refine decide_eq_true ?_
  show (y.toModel.unpack.compare x.toModel.unpack).any (·.isLE) = true
  rw [hswap, ho]
  cases o with
  | lt => exact absurd rfl hlt
  | eq => rfl
  | gt => rfl

end DocumentIntelligence.FiniteFloats
