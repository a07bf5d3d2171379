import Mathlib

/-!
# Runs of a transition function

A machine is a total function `step`. An action which the machine refuses
leaves the state as it is, so a list of actions is an arbitrary run. `Always`
speaks about every state of a run and `Along` about every step taken in it.
-/

set_option autoImplicit false

namespace DocumentIntelligence.Transition

variable {S A : Type*} (step : S → A → S)

def run (s : S) (as : List A) : S := as.foldl step s

def Always (Q : S → Prop) : S → List A → Prop
  | s, [] => Q s
  | s, a::as => Q s ∧ Always Q (step s a) as

def Along (C : S → A → Prop) : S → List A → Prop
  | _, [] => True
  | s, a::as => C s a ∧ Along C (step s a) as

instance decidableAlong (C : S → A → Prop) [∀ s a, Decidable (C s a)] (s : S) (as : List A) :
    Decidable (Along step C s as) :=
  match as with
  | [] => .isTrue trivial
  | a::as =>
    have := decidableAlong C (step s a) as
    inferInstanceAs (Decidable (C s a ∧ Along step C (step s a) as))

@[simp] theorem run_nil (s : S) : run step s [] = s := rfl

@[simp] theorem run_cons (s : S) (a : A) (as : List A) :
    run step s (a::as) = run step (step s a) as := rfl

theorem run_append (s : S) (as bs : List A) :
    run step s (as++bs) = run step (run step s as) bs :=
  List.foldl_append

theorem run_concat (s : S) (as : List A) (a : A) :
    run step s (as++[a]) = step (run step s as) a := by
  rw [run_append]
  rfl

variable {step}

/-- What holds at the start and is kept by every step holds at the end. -/
theorem run_invariant {I : S → Prop} (hstep : ∀ s a, I s → I (step s a)) {s : S}
    (h : I s) (as : List A) : I (run step s as) := by
  induction as generalizing s with
  | nil => exact h
  | cons a as ih => exact ih (hstep s a h)

theorem always_head {Q : S → Prop} {s : S} {as : List A} (h : Always step Q s as) : Q s := by
  cases as with
  | nil => exact h
  | cons a as => exact h.1

/-- `Always` is membership in every prefix of the run. -/
theorem always_iff_take {Q : S → Prop} {s : S} {as : List A} :
    Always step Q s as ↔ ∀ n, Q (run step s (as.take n)) := by
  induction as generalizing s with
  | nil => simp [Always]
  | cons a as ih =>
    simp only [Always, ih]
    constructor
    · rintro ⟨h0,hrest⟩ n
      cases n with
      | zero => exact h0
      | succ n => exact hrest n
    · intro h
      exact ⟨h 0,fun n => h (n+1)⟩

theorem always_run {Q : S → Prop} {s : S} {as : List A} (h : Always step Q s as) :
    Q (run step s as) := by
  simpa using always_iff_take.mp h as.length

theorem always_mono {P Q : S → Prop} (hpq : ∀ s, P s → Q s) {s : S} {as : List A}
    (h : Always step P s as) : Always step Q s as := by
  rw [always_iff_take] at *
  exact fun n => hpq _ (h n)

/-- A property kept by the steps which meet `C` holds throughout a run of
such steps. The invariant `I` is kept by all steps. -/
theorem always_of_along {I Q : S → Prop} {C : S → A → Prop}
    (hI : ∀ s a, I s → I (step s a))
    (hQ : ∀ s a, I s → Q s → C s a → Q (step s a)) {s : S} {as : List A}
    (hi : I s) (hq : Q s) (h : Along step C s as) : Always step Q s as := by
  induction as generalizing s with
  | nil => exact hq
  | cons a as ih => exact ⟨hq,ih (hI s a hi) (hQ s a hi hq h.1) h.2⟩

/-- Where a step which misses `C` also destroys `Q`, the condition is exact. -/
theorem always_iff_along {I Q : S → Prop} {C : S → A → Prop}
    (hI : ∀ s a, I s → I (step s a))
    (hQ : ∀ s a, I s → Q s → (C s a ↔ Q (step s a))) {s : S} {as : List A}
    (hi : I s) (hq : Q s) : Always step Q s as ↔ Along step C s as := by
  constructor
  · intro h
    induction as generalizing s with
    | nil => trivial
    | cons a as ih =>
      have hnext := always_head h.2
      exact ⟨(hQ s a hi hq).mpr hnext,ih (hI s a hi) hnext h.2⟩
  · exact always_of_along hI (fun s a hi hq => (hQ s a hi hq).mp) hi hq

/-- What every step does from a state of the invariant is done along a run. -/
theorem along_of_invariant {I : S → Prop} {C : S → A → Prop} (hI : ∀ s a, I s → I (step s a))
    (hC : ∀ s a, I s → C s a) {s : S} (hi : I s) (as : List A) : Along step C s as := by
  induction as generalizing s with
  | nil => trivial
  | cons a as ih => exact ⟨hC s a hi,ih (hI s a hi)⟩

/-- What no step establishes was there all along, if it is there in the end. -/
theorem always_of_run {Q : S → Prop} (hback : ∀ s a, Q (step s a) → Q s) {s : S} {as : List A}
    (h : Q (run step s as)) : Always step Q s as := by
  induction as generalizing s with
  | nil => exact h
  | cons a as ih =>
    have hrest := ih h
    exact ⟨hback s a (always_head hrest),hrest⟩

/-- Steps towards what no step establishes are taken along a run which ends with it. -/
theorem along_of_run {Q : S → Prop} {C : S → A → Prop} (hback : ∀ s a, Q (step s a) → Q s)
    (hC : ∀ s a, Q (step s a) → C s a) {s : S} {as : List A} (h : Q (run step s as)) :
    Along step C s as := by
  induction as generalizing s with
  | nil => trivial
  | cons a as ih => exact ⟨hC s a (always_head (always_of_run hback h)),ih h⟩

end DocumentIntelligence.Transition
