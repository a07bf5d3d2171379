import DocumentIntelligence.GreedySelection

/-!
# Text regions

Candidate regions of a detector with exact coordinates, ranked by their confidence and
selected by non-maximum suppression.
-/

set_option autoImplicit false

namespace DocumentIntelligence.Detection
open GreedySelection

inductive Error where
  | invalidDetectionCandidate
  | invalidDetectionLimits
  | detectionOutputLimitExceeded (candidates limit : ℕ)
  deriving DecidableEq, Repr

def unit (x : ℚ) : Bool := decide (0 ≤ x ∧ x ≤ 1)

def validCandidate (left top right bottom confidence : ℚ) : Bool :=
  unit left && unit top && unit right && unit bottom && unit confidence && decide (left < right) &&
    decide (top < bottom)

structure DetectionCandidate where
  left : ℚ
  top : ℚ
  right : ℚ
  bottom : ℚ
  confidence : ℚ
  valid : validCandidate left top right bottom confidence = true
  deriving DecidableEq, Repr

def DetectionCandidate.new (left top right bottom confidence : ℚ) :
    Except Error DetectionCandidate :=
  if h : validCandidate left top right bottom confidence = true then
    .ok ⟨left,top,right,bottom,confidence,h⟩
  else .error .invalidDetectionCandidate

structure DetectionLimits where
  maximumCandidates : ℕ
  overlapThreshold : ℚ
  maximum_pos : 1 ≤ maximumCandidates
  threshold_unit : 0 < overlapThreshold ∧ overlapThreshold ≤ 1
  deriving Repr

def DetectionLimits.new (maximumCandidates : ℕ) (overlapThreshold : ℚ) :
    Except Error DetectionLimits :=
  if h : 1 ≤ maximumCandidates ∧ 0 < overlapThreshold ∧ overlapThreshold ≤ 1 then
    .ok ⟨maximumCandidates,overlapThreshold,h.1,h.2⟩
  else .error .invalidDetectionLimits

/-- The order of the scan. -/
def rank (left right : DetectionCandidate) : Ordering :=
  (compare right.confidence left.confidence).then
    ((compare left.top right.top).then (compare left.left right.left))

/-- The order of the result. -/
def reading (left right : DetectionCandidate) : Ordering :=
  (compare left.top right.top).then ((compare left.left right.left).then
    ((compare left.bottom right.bottom).then (compare left.right right.right)))

def intersectionOverUnion (left right : DetectionCandidate) : ℚ :=
  let intersectionWidth := max (min left.right right.right-max left.left right.left) 0
  let intersectionHeight := max (min left.bottom right.bottom-max left.top right.top) 0
  let intersection := intersectionWidth*intersectionHeight
  let leftArea := (left.right-left.left)*(left.bottom-left.top)
  let rightArea := (right.right-right.left)*(right.bottom-right.top)
  intersection/(leftArea+rightArea-intersection)

def accepts (limits : DetectionLimits) (candidate accepted : DetectionCandidate) : Bool :=
  decide (intersectionOverUnion candidate accepted < limits.overlapThreshold)

def selectRegions (candidates : List DetectionCandidate) (limits : DetectionLimits) :
    Except Error (List DetectionCandidate) :=
  if limits.maximumCandidates < candidates.length then
    .error (.detectionOutputLimitExceeded candidates.length limits.maximumCandidates)
  else
    .ok ((select (accepts limits) (candidates.mergeSort fun a b => (rank a b).isLE)).mergeSort
      fun a b => (reading a b).isLE)

/-! ### The two orders -/

theorem isLE_then {α : Type} [LinearOrder α] (a b : α) (o : Ordering) :
    ((compare a b).then o).isLE = true ↔ a < b ∨ a = b ∧ o.isLE = true := by
  rcases lt_trichotomy a b with h | h | h
  · rw [compare_lt_iff_lt.mpr h]
    simp [h, Ordering.then]
  · rw [compare_eq_iff_eq.mpr h]
    simp [h, Ordering.then]
  · rw [compare_gt_iff_gt.mpr h]
    simp [h.not_gt, h.ne', Ordering.then]

theorem isLE_compare {α : Type} [LinearOrder α] (a b : α) :
    (compare a b).isLE = true ↔ a ≤ b := by
  rw [← compare_le_iff_le, Ordering.isLE_iff_ne_gt]

/-- The key of the result's order. -/
def readingKey (c : DetectionCandidate) : ℚ ×ₗ ℚ ×ₗ ℚ ×ₗ ℚ :=
  toLex (c.top,toLex (c.left,toLex (c.bottom,c.right)))

theorem reading_isLE (a b : DetectionCandidate) :
    (reading a b).isLE = true ↔ readingKey a ≤ readingKey b := by
  rw [reading, isLE_then, isLE_then, isLE_then, isLE_compare]
  simp only [readingKey, Prod.Lex.toLex_le_toLex]

def rankKey (c : DetectionCandidate) : ℚᵒᵈ ×ₗ ℚ ×ₗ ℚ :=
  toLex (OrderDual.toDual c.confidence,toLex (c.top,c.left))

theorem rank_isLE (a b : DetectionCandidate) :
    (rank a b).isLE = true ↔ rankKey a ≤ rankKey b := by
  rw [rank, isLE_then, isLE_then, isLE_compare]
  simp only [rankKey, Prod.Lex.toLex_le_toLex, OrderDual.toDual_lt_toDual, OrderDual.toDual_inj,
    eq_comm]

/-- Sorting by a comparison which is the order of a key. -/
theorem sorted_byKey {κ : Type} [LinearOrder κ] {cmp : DetectionCandidate → DetectionCandidate → Ordering}
    {key : DetectionCandidate → κ} (h : ∀ a b, (cmp a b).isLE = true ↔ key a ≤ key b)
    (cs : List DetectionCandidate) :
    (cs.mergeSort fun a b => (cmp a b).isLE).Pairwise fun a b => key a ≤ key b := by
  refine (@List.pairwise_mergeSort _ (fun a b => (cmp a b).isLE) ?_ ?_ cs).imp
    fun {a b} hab => (h a b).mp hab
  · intro a b c hab hbc
    exact (h a c).mpr (((h a b).mp hab).trans ((h b c).mp hbc))
  · intro a b
    rw [Bool.or_eq_true, h a b, h b a]
    exact le_total _ _

theorem rankKey_confidence {a b : DetectionCandidate} (h : rankKey a ≤ rankKey b) :
    b.confidence ≤ a.confidence := by
  rcases (Prod.Lex.toLex_le_toLex.mp h) with hlt | ⟨heq,_⟩
  · exact le_of_lt (OrderDual.toDual_lt_toDual.mp hlt)
  · exact le_of_eq (OrderDual.toDual_inj.mp heq).symm

theorem intersectionOverUnion_comm (a b : DetectionCandidate) :
    intersectionOverUnion a b = intersectionOverUnion b a := by
  simp only [intersectionOverUnion, min_comm a.right b.right, max_comm a.left b.left,
    min_comm a.bottom b.bottom, max_comm a.top b.top]
  rw [add_comm ((a.right-a.left)*(a.bottom-a.top))]

/-! ### Non-maximum suppression -/

/-- The result of a selection, and the candidates which it leaves out. -/
structure Suppressed (limits : DetectionLimits) (candidates selected leftOut : List DetectionCandidate) :
    Prop where
  split : (selected++leftOut).Perm candidates
  separated : selected.Pairwise fun a b => intersectionOverUnion a b < limits.overlapThreshold
  dominated : ∀ c ∈ leftOut, ∃ s ∈ selected,
    limits.overlapThreshold ≤ intersectionOverUnion c s ∧ c.confidence ≤ s.confidence
  sorted : selected.Pairwise fun a b => readingKey a ≤ readingKey b

theorem selectRegions_suppresses (candidates : List DetectionCandidate) (limits : DetectionLimits) :
    ((∃ e, selectRegions candidates limits = .error e) ↔
      limits.maximumCandidates < candidates.length) ∧
    ∀ selected, selectRegions candidates limits = .ok selected →
      ∃ leftOut, Suppressed limits candidates selected leftOut := by
  refine ⟨?_,?_⟩
  · rw [selectRegions]
    by_cases hmany : limits.maximumCandidates < candidates.length
    · rw [if_pos hmany]
      exact iff_of_true ⟨_,rfl⟩ hmany
    · rw [if_neg hmany]
      exact iff_of_false nofun hmany
  · intro selected hselected
    rw [selectRegions] at hselected
    split_ifs at hselected
    rw [Except.ok.injEq] at hselected
    have hranked := sorted_byKey rank_isLE candidates
    have hsort := List.mergeSort_perm
      (select (accepts limits) (candidates.mergeSort fun a b => (rank a b).isLE))
      (fun a b => (reading a b).isLE)
    refine ⟨leftOut (accepts limits) [] (candidates.mergeSort fun a b => (rank a b).isLE),
      ?_,?_,?_,?_⟩
    · rw [← hselected]
      exact ((hsort.append_right _).trans (select_perm _ _)).trans (List.mergeSort_perm _ _)
    · rw [← hselected]
      have hadmitted := select_admitted (accepts limits)
        (candidates.mergeSort fun a b => (rank a b).isLE)
      refine (hadmitted.perm hsort.symm ?_).imp ?_
      · intro a b hab
        rw [accepts, intersectionOverUnion_comm]
        exact hab
      · intro a b hab
        rw [intersectionOverUnion_comm]
        exact of_decide_eq_true hab
    · intro c hc
      obtain ⟨s,hs,hbefore,hno⟩ := select_leftOut (accepts limits) hranked hc
      refine ⟨s,?_,?_,rankKey_confidence hbefore⟩
      · rw [← hselected]
        exact hsort.mem_iff.mpr hs
      · exact not_lt.mp (of_decide_eq_false hno)
    · rw [← hselected]
      exact sorted_byKey reading_isLE _

end DocumentIntelligence.Detection
