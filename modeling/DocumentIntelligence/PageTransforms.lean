import DocumentIntelligence.PlaneMaps

/-!
# Recorded transforms of a page

Numbers are those of an ordered field, so that the coordinates are exact. The
sine and cosine of an angle in degrees are parameters, of which the sum of the
squares is one.
-/

set_option autoImplicit false

namespace DocumentIntelligence.PageTransforms
open PlaneMaps

/-- The errors of the engine which these functions return. -/
inductive Error where
  | invalidGeometry
  | invalidDeskewAngle
  | invalidDeskewPolicy
  | invalidDetectionCandidate
  | invalidRecognition
  | invalidRecognitionBatch
  | invalidPageObservation
  deriving DecidableEq, Repr

/-- `degrees.to_radians().cos()` and `degrees.to_radians().sin()` -/
structure Trig (K : Type*) [CommRing K] where
  cosine : K → K
  sine : K → K
  unit : ∀ degrees, cosine degrees^2+sine degrees^2 = 1

inductive Rotation where
  | clockwise90
  | clockwise180
  | clockwise270
  deriving DecidableEq, Repr

section Field
variable {K : Type*} [Field K] [LinearOrder K] [IsStrictOrderedRing K]

def maximumDeskewDegrees : K := 12

def validDegrees (degrees : K) : Bool :=
  decide (-maximumDeskewDegrees ≤ degrees ∧ degrees ≤ maximumDeskewDegrees)

variable (K) in
structure DeskewAngle where
  degrees : K
  valid : validDegrees degrees = true
  deriving DecidableEq

omit [IsStrictOrderedRing K] in
theorem DeskewAngle.bounds (angle : DeskewAngle K) : -12 ≤ angle.degrees ∧ angle.degrees ≤ 12 :=
  of_decide_eq_true angle.valid

def DeskewAngle.new (degrees : K) : Except Error (DeskewAngle K) :=
  if h : validDegrees degrees = true then .ok ⟨degrees,h⟩ else .error .invalidDeskewAngle

def validRegion (left top width height : K) : Bool :=
  !(decide (left < 0) || decide (top < 0) || decide (width ≤ 0) || decide (height ≤ 0) ||
    decide (1 < left+width) || decide (1 < top+height))

variable (K) in
structure CropRegion where
  left : K
  top : K
  width : K
  height : K
  valid : validRegion left top width height = true
  deriving DecidableEq

def CropRegion.new (left top width height : K) : Except Error (CropRegion K) :=
  if h : validRegion left top width height = true then .ok ⟨left,top,width,height,h⟩
  else .error .invalidGeometry

variable (K) in
inductive TransformStep where
  | crop (region : CropRegion K)
  | deskew (angle : DeskewAngle K)
  | flipHorizontal
  | flipVertical
  | rotation (rotation : Rotation)
  deriving DecidableEq

variable (K) in
structure TransformChain where
  steps : List (TransformStep K)
  deriving DecidableEq

def TransformChain.new : TransformChain K := ⟨[]⟩

def TransformChain.push (chain : TransformChain K) (step : TransformStep K) : TransformChain K :=
  ⟨chain.steps++[step]⟩

def TransformChain.pushCrop (chain : TransformChain K) (crop : CropRegion K) :
    TransformChain K := chain.push (.crop crop)

def TransformChain.pushDeskew (chain : TransformChain K) (angle : DeskewAngle K) :
    TransformChain K := chain.push (.deskew angle)

def TransformChain.pushRotation (chain : TransformChain K) (rotation : Rotation) :
    TransformChain K := chain.push (.rotation rotation)

def TransformChain.pushFlipHorizontal (chain : TransformChain K) : TransformChain K :=
  chain.push .flipHorizontal

def TransformChain.pushFlipVertical (chain : TransformChain K) : TransformChain K :=
  chain.push .flipVertical

def validCoordinate (value : K) : Bool := decide (0 ≤ value ∧ value ≤ 1)

/-- One step of the fold in `map_to_original`. -/
def TransformStep.toOriginal (trig : Trig K) (step : TransformStep K) (p : K×K) : K×K :=
  let (x,y) := p
  match step with
  | .crop region => (region.left+x*region.width,region.top+y*region.height)
  | .deskew angle =>
    let translatedX := x-1/2
    let translatedY := y-1/2
    (1/2+trig.cosine angle.degrees*translatedX+trig.sine angle.degrees*translatedY,
      1/2-trig.sine angle.degrees*translatedX+trig.cosine angle.degrees*translatedY)
  | .flipHorizontal => (1-x,y)
  | .flipVertical => (x,1-y)
  | .rotation .clockwise90 => (y,1-x)
  | .rotation .clockwise180 => (1-x,1-y)
  | .rotation .clockwise270 => (1-y,x)

/-- The fold runs from the last step to the first one. -/
def TransformChain.mapToOriginal (trig : Trig K) (chain : TransformChain K) (x y : K) :
    Except Error (K×K) :=
  if !validCoordinate x || !validCoordinate y then .error .invalidGeometry
  else
    let (x,y) := chain.steps.foldr (fun step p => step.toOriginal trig p) (x,y)
    if validCoordinate x && validCoordinate y then .ok (x,y) else .error .invalidGeometry

/-! ### The affine maps of the steps -/

def TransformStep.affine (trig : Trig K) : TransformStep K → Affine K
  | .crop region => ⟨region.width,0,region.left,0,region.height,region.top⟩
  | .deskew angle =>
    let c := trig.cosine angle.degrees
    let s := trig.sine angle.degrees
    ⟨c,s,1/2-c/2-s/2,-s,c,1/2+s/2-c/2⟩
  | .flipHorizontal => ⟨-1,0,1,0,1,0⟩
  | .flipVertical => ⟨1,0,0,0,-1,1⟩
  | .rotation .clockwise90 => ⟨0,1,0,-1,0,1⟩
  | .rotation .clockwise180 => ⟨-1,0,1,0,-1,1⟩
  | .rotation .clockwise270 => ⟨0,-1,1,1,0,0⟩

def TransformChain.affine (trig : Trig K) (chain : TransformChain K) : Affine K :=
  PlaneMaps.chain (chain.steps.map (TransformStep.affine trig))

variable (trig : Trig K)

theorem toOriginal_affine (step : TransformStep K) (p : K×K) :
    step.toOriginal trig p = (step.affine trig).apply p := by
  cases step with
  | rotation rotation =>
    cases rotation <;> ext <;> simp only [TransformStep.toOriginal, TransformStep.affine,
      Affine.apply] <;> ring
  | _ => ext <;> simp only [TransformStep.toOriginal, TransformStep.affine, Affine.apply] <;> ring

theorem fold_affine (steps : List (TransformStep K)) (p : K×K) :
    steps.foldr (fun step p => step.toOriginal trig p) p =
      (PlaneMaps.chain (steps.map (TransformStep.affine trig))).apply p := by
  induction steps with
  | nil => simp
  | cons step steps ih =>
    rw [List.foldr_cons, ih, toOriginal_affine, List.map_cons, chain_cons, apply_comp]

omit [IsStrictOrderedRing K] in
theorem validCoordinates_iff (p : K×K) :
    (validCoordinate p.1 && validCoordinate p.2) = true ↔ InSquare p := by
  simp [validCoordinate, InSquare]

/-- A point of the derived image goes where the affine map of the chain takes it,
when that lies in the original page. -/
theorem mapToOriginal_of_inside (chain : TransformChain K) (p : K×K) (hp : InSquare p) :
    chain.mapToOriginal trig p.1 p.2 = if InSquare ((chain.affine trig).apply p) then
      .ok ((chain.affine trig).apply p) else .error .invalidGeometry := by
  have hvalid := (validCoordinates_iff p).mpr hp
  rw [Bool.and_eq_true] at hvalid
  rw [TransformChain.mapToOriginal, hvalid.1, hvalid.2, fold_affine]
  show (if (validCoordinate ((chain.affine trig).apply p).1 &&
      validCoordinate ((chain.affine trig).apply p).2) = true then _ else _) = _
  by_cases h : InSquare ((chain.affine trig).apply p)
  · rw [if_pos h, if_pos ((validCoordinates_iff _).mpr h)]
    rfl
  · rw [if_neg h, if_neg fun hok => h ((validCoordinates_iff _).mp hok)]

theorem mapToOriginal_ok (chain : TransformChain K) (x y : K) (q : K×K)
    (h : chain.mapToOriginal trig x y = .ok q) :
    InSquare (x,y) ∧ InSquare q ∧ q = (chain.affine trig).apply (x,y) := by
  by_cases hp : InSquare (x,y)
  · rw [mapToOriginal_of_inside trig chain (x,y) hp] at h
    by_cases hq : InSquare ((chain.affine trig).apply (x,y))
    · rw [if_pos hq, Except.ok.injEq] at h
      exact ⟨hp, h ▸ hq, h.symm⟩
    · rw [if_neg hq] at h
      simp at h
  · rw [TransformChain.mapToOriginal, if_pos ?_] at h
    · simp at h
    · rw [← Bool.not_and, Bool.not_eq_true', ← Bool.not_eq_true]
      exact fun hok => hp ((validCoordinates_iff (x,y)).mp hok)

omit [IsStrictOrderedRing K] in
/-- Rotations, flips and the deskew keep areas up to their sign. -/
theorem det_sq (step : TransformStep K) (hcrop : ∀ region, step ≠ .crop region) :
    (step.affine trig).det^2 = 1 := by
  cases step with
  | crop region => exact absurd rfl (hcrop region)
  | deskew angle =>
    have hunit := trig.unit angle.degrees
    have hdet : ((TransformStep.deskew angle).affine trig).det =
        trig.cosine angle.degrees^2+trig.sine angle.degrees^2 := by
      simp only [TransformStep.affine, Affine.det]
      ring
    rw [hdet, hunit, one_pow]
  | flipHorizontal => simp [TransformStep.affine, Affine.det]
  | flipVertical => simp [TransformStep.affine, Affine.det]
  | rotation rotation => cases rotation <;> simp [TransformStep.affine, Affine.det]

/-- A point near the centre stays in the page under every rotation about it. -/
theorem deskew_inSquare (angle : DeskewAngle K) (u v : K) (h : u^2+v^2 ≤ 1/4) :
    InSquare ((TransformStep.deskew angle).toOriginal trig (1/2+u,1/2+v)) := by
  have hunit := trig.unit angle.degrees
  have hx : (trig.cosine angle.degrees*u+trig.sine angle.degrees*v)^2 ≤ (1/2)^2 := by
    nlinarith [sq_nonneg (trig.cosine angle.degrees*v-trig.sine angle.degrees*u)]
  have hy : (trig.cosine angle.degrees*v-trig.sine angle.degrees*u)^2 ≤ (1/2)^2 := by
    nlinarith [sq_nonneg (trig.cosine angle.degrees*u+trig.sine angle.degrees*v)]
  have hx' := abs_le.mp (abs_le_of_sq_le_sq hx (by norm_num))
  have hy' := abs_le.mp (abs_le_of_sq_le_sq hy (by norm_num))
  simp only [InSquare, TransformStep.toOriginal]
  constructor <;> constructor <;> linarith

end Field

end DocumentIntelligence.PageTransforms
