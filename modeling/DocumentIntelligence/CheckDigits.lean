import Mathlib

/-!
# Check digits

Digits are weighted by their positions and summed. Where a weight is prime to the modulus,
the sum tells apart any two digits in its position.
-/

set_option autoImplicit false

namespace DocumentIntelligence.CheckDigits

variable {w : ℕ → ℕ} {m : ℕ}

/-- The digits from a position on, with their weights. -/
def weightedFrom (w : ℕ → ℕ) (start : ℕ) (digits : List ℕ) : ℕ :=
  ((digits.zipIdx start).map fun (d,i) => w i*d).sum

def weighted (w : ℕ → ℕ) (digits : List ℕ) : ℕ := weightedFrom w 0 digits

theorem weightedFrom_cons (start d : ℕ) (digits : List ℕ) :
    weightedFrom w start (d::digits) = w start*d+weightedFrom w (start+1) digits := by
  rw [weightedFrom, List.zipIdx_cons, List.map_cons, List.sum_cons, weightedFrom]

/-- The weights of the digits behind the first are those of the next positions. -/
theorem weightedFrom_succ (start : ℕ) (digits : List ℕ) :
    weightedFrom w (start+1) digits = weightedFrom (fun i => w (i+1)) start digits := by
  induction digits generalizing start with
  | nil => rfl
  | cons d digits ih => rw [weightedFrom_cons, weightedFrom_cons, ih]

theorem weightedFrom_append (start : ℕ) (before after : List ℕ) :
    weightedFrom w start (before++after) =
      weightedFrom w start before+weightedFrom w (start+before.length) after := by
  induction before generalizing start with
  | nil => exact (Nat.zero_add _).symm
  | cons d before ih =>
    rw [List.cons_append, weightedFrom_cons, weightedFrom_cons, ih, List.length_cons,
      show start+1+before.length = start+(before.length+1) by omega]
    omega

/-- The summand of one digit beside those of the others. -/
theorem weighted_split (before after : List ℕ) (d : ℕ) :
    weighted w (before++d::after) =
      weightedFrom w 0 before+weightedFrom w (before.length+1) after+w before.length*d := by
  rw [weighted, weightedFrom_append, Nat.zero_add, weightedFrom_cons]
  omega

/-- No replacement of one digit by another keeps the remainder. -/
theorem weighted_replace {before after : List ℕ} (hw : (w before.length).Coprime m) {c d : ℕ}
    (hc : c < m) (hd : d < m)
    (h : weighted w (before++c::after) ≡ weighted w (before++d::after) [MOD m]) : c = d := by
  rw [weighted_split, weighted_split] at h
  have hproduct : w before.length*c ≡ w before.length*d [MOD m] := Nat.ModEq.add_left_cancel' _ h
  have hdigit : c ≡ d [MOD m] := Nat.ModEq.cancel_left_of_coprime hw.symm hproduct
  exact Nat.ModEq.eq_of_lt_of_lt hdigit hc hd

end DocumentIntelligence.CheckDigits
