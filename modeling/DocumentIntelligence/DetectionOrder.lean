import DocumentIntelligence.Detection
import DocumentIntelligence.RankedSelection

/-!
# The order of a detector's output

The scan of the candidates breaks the ties of equal confidence by the top and the left
side only, and what two different candidates with the same corner leave of each other
depends on which of them the detector wrote first.
-/

set_option autoImplicit false

namespace DocumentIntelligence.DetectionOrder
open GreedySelection RankedSelection Detection

/-! ### The candidates which are selected -/

/-- The candidates which are kept, in the order of the scan. -/
def kept (limits : DetectionLimits) (candidates : List DetectionCandidate) :
    List DetectionCandidate := select (accepts limits) (byRank rankKey candidates)

/-- No better candidate which stands overlaps the candidate. -/
def StandsAmong (limits : DetectionLimits) (candidates : List DetectionCandidate)
    (candidate : DetectionCandidate) : Prop :=
  Stands rankKey (accepts limits) candidates candidate

theorem standsAmong_iff {limits : DetectionLimits} {candidates : List DetectionCandidate}
    {c : DetectionCandidate} : StandsAmong limits candidates c ↔
      ∀ s ∈ candidates, rankKey s < rankKey c → StandsAmong limits candidates s →
        intersectionOverUnion c s < limits.overlapThreshold := by
  rw [StandsAmong, stands_iff]
  apply forall₄_congr
  intro s _ _ _
  exact decide_eq_true_iff

end DocumentIntelligence.DetectionOrder
