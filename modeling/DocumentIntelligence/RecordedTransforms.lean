import DocumentIntelligence.PageObservations

/-!
# Recorded operations and their inverses

A chain records the crops, flips and quarter turns of an image in the order in which they
were made. What an orientation does to an image is said on its pixels.
-/

set_option autoImplicit false

namespace DocumentIntelligence.RecordedTransforms
open PlaneMaps PageTransforms Deskew PageObservations

section Field
variable {K : Type} [Field K] [LinearOrder K]

/-! ### Operations on the points of an image -/

variable (K) in
inductive Operation where
  | crop (region : CropRegion K)
  | flipHorizontal
  | flipVertical
  | rotation (turn : Rotation)

def Operation.step : Operation K → TransformStep K
  | .crop region => .crop region
  | .flipHorizontal => .flipHorizontal
  | .flipVertical => .flipVertical
  | .rotation turn => .rotation turn

def Operation.record (chain : TransformChain K) : Operation K → TransformChain K
  | .crop region => chain.pushCrop region
  | .flipHorizontal => chain.pushFlipHorizontal
  | .flipVertical => chain.pushFlipVertical
  | .rotation turn => chain.pushRotation turn

/-- Where the operation takes a point of the image. -/
def Operation.forward (operation : Operation K) (p : K×K) : K×K :=
  match operation with
  | .crop region => ((p.1-region.left)/region.width,(p.2-region.top)/region.height)
  | .flipHorizontal => (1-p.1,p.2)
  | .flipVertical => (p.1,1-p.2)
  | .rotation .clockwise90 => (1-p.2,p.1)
  | .rotation .clockwise180 => (1-p.1,1-p.2)
  | .rotation .clockwise270 => (p.2,1-p.1)

def record (operations : List (Operation K)) : TransformChain K :=
  operations.foldl Operation.record TransformChain.new

def effect (operations : List (Operation K)) (p : K×K) : K×K :=
  operations.foldl (fun p operation => operation.forward p) p

theorem steps_foldl (operations : List (Operation K)) (chain : TransformChain K) :
    (operations.foldl Operation.record chain).steps =
      chain.steps++operations.map Operation.step := by
  induction operations generalizing chain with
  | nil => rw [List.map_nil, List.append_nil, List.foldl_nil]
  | cons operation operations ih =>
    have hrecord : (operation.record chain).steps = chain.steps++[operation.step] := by
      cases operation <;> rfl
    rw [List.foldl_cons, ih, hrecord, List.map_cons, List.append_assoc, List.singleton_append]

theorem steps_record (operations : List (Operation K)) :
    (record operations).steps = operations.map Operation.step :=
  steps_foldl operations TransformChain.new

theorem CropRegion.pos (region : CropRegion K) : 0 < region.width ∧ 0 < region.height := by
  have hvalid := region.valid
  simp only [validRegion, Bool.not_eq_true', Bool.or_eq_false_iff, decide_eq_false_iff_not,
    not_lt, not_le] at hvalid
  exact ⟨hvalid.1.1.1.2,hvalid.1.1.2⟩

theorem CropRegion.bounds (region : CropRegion K) : 0 ≤ region.left ∧ 0 ≤ region.top ∧
    region.left+region.width ≤ 1 ∧ region.top+region.height ≤ 1 := by
  have hvalid := region.valid
  simp only [validRegion, Bool.not_eq_true', Bool.or_eq_false_iff, decide_eq_false_iff_not,
    not_lt, not_le] at hvalid
  exact ⟨hvalid.1.1.1.1.1,hvalid.1.1.1.1.2,hvalid.1.2,hvalid.2⟩

variable (trig : Trig K)

/-- Back along the steps, from the last to the first. -/
def backward (steps : List (TransformStep K)) (p : K×K) : K×K :=
  steps.foldr (fun step p => step.toOriginal trig p) p

theorem forward_toOriginal (operation : Operation K) (p : K×K) :
    operation.forward (operation.step.toOriginal trig p) = p := by
  cases operation with
  | crop region =>
    obtain ⟨hwidth,hheight⟩ := CropRegion.pos region
    ext
    · simp only [Operation.forward, Operation.step, TransformStep.toOriginal, add_sub_cancel_left]
      exact mul_div_cancel_right₀ _ hwidth.ne'
    · simp only [Operation.forward, Operation.step, TransformStep.toOriginal, add_sub_cancel_left]
      exact mul_div_cancel_right₀ _ hheight.ne'
  | flipHorizontal =>
    ext <;> simp only [Operation.forward, Operation.step, TransformStep.toOriginal, sub_sub_cancel]
  | flipVertical =>
    ext <;> simp only [Operation.forward, Operation.step, TransformStep.toOriginal, sub_sub_cancel]
  | rotation turn =>
    cases turn <;> ext <;>
      simp only [Operation.forward, Operation.step, TransformStep.toOriginal, sub_sub_cancel]

theorem toOriginal_forward (operation : Operation K) (p : K×K) :
    operation.step.toOriginal trig (operation.forward p) = p := by
  cases operation with
  | crop region =>
    obtain ⟨hwidth,hheight⟩ := CropRegion.pos region
    ext
    · simp only [Operation.forward, Operation.step, TransformStep.toOriginal]
      rw [div_mul_cancel₀ _ hwidth.ne', add_sub_cancel]
    · simp only [Operation.forward, Operation.step, TransformStep.toOriginal]
      rw [div_mul_cancel₀ _ hheight.ne', add_sub_cancel]
  | flipHorizontal =>
    ext <;> simp only [Operation.forward, Operation.step, TransformStep.toOriginal, sub_sub_cancel]
  | flipVertical =>
    ext <;> simp only [Operation.forward, Operation.step, TransformStep.toOriginal, sub_sub_cancel]
  | rotation turn =>
    cases turn <;> ext <;>
      simp only [Operation.forward, Operation.step, TransformStep.toOriginal, sub_sub_cancel]

/-- The operations take a point of the original back to where it came from. -/
theorem effect_backward (operations : List (Operation K)) (p : K×K) :
    effect operations (backward trig (operations.map Operation.step) p) = p := by
  induction operations with
  | nil => rfl
  | cons operation operations ih =>
    have hforward := forward_toOriginal trig operation
      (backward trig (operations.map Operation.step) p)
    rw [effect, List.foldl_cons, List.map_cons, backward, List.foldr_cons, ← backward, hforward]
    exact ih

theorem backward_effect (operations : List (Operation K)) (q : K×K) :
    backward trig (operations.map Operation.step) (effect operations q) = q := by
  induction operations generalizing q with
  | nil => rfl
  | cons operation operations ih =>
    rw [effect, List.foldl_cons, ← effect, List.map_cons, backward, List.foldr_cons, ← backward,
      ih, toOriginal_forward]

theorem mapToOriginal_backward {chain : TransformChain K} {p : K×K} (hp : InSquare p)
    (hq : InSquare (backward trig chain.steps p)) :
    chain.mapToOriginal trig p.1 p.2 = .ok (backward trig chain.steps p) := by
  have hvalid := (validCoordinates_iff p).mpr hp
  have hvalid' := (validCoordinates_iff _).mpr hq
  rw [Bool.and_eq_true] at hvalid
  rw [TransformChain.mapToOriginal, hvalid.1, hvalid.2]
  exact if_pos hvalid'

section Ordered
variable [IsStrictOrderedRing K]

/-- A part of an interval of the unit interval. -/
theorem crop_bounds {start extent x : K} (hstart : 0 ≤ start) (hextent : 0 < extent)
    (hend : start+extent ≤ 1) (hx : 0 ≤ x ∧ x ≤ 1) :
    0 ≤ start+x*extent ∧ start+x*extent ≤ 1 := by
  have hlow : 0 ≤ x*extent := mul_nonneg hx.1 hextent.le
  have hhigh : x*extent ≤ extent := mul_le_of_le_one_left hextent.le hx.2
  exact ⟨by linarith,by linarith⟩

theorem toOriginal_inSquare (operation : Operation K) {p : K×K} (hp : InSquare p) :
    InSquare (operation.step.toOriginal trig p) := by
  cases operation with
  | crop region =>
    obtain ⟨hwidth,hheight⟩ := CropRegion.pos region
    obtain ⟨hleft,htop,hright,hbottom⟩ := CropRegion.bounds region
    exact ⟨crop_bounds hleft hwidth hright hp.1,crop_bounds htop hheight hbottom hp.2⟩
  | flipHorizontal => exact (turn_inSquare trig .flipHorizontal rfl p).mpr hp
  | flipVertical => exact (turn_inSquare trig .flipVertical rfl p).mpr hp
  | rotation turn => exact (turn_inSquare trig (.rotation turn) rfl p).mpr hp

theorem backward_inSquare (operations : List (Operation K)) {p : K×K} (hp : InSquare p) :
    InSquare (backward trig (operations.map Operation.step) p) := by
  induction operations with
  | nil => exact hp
  | cons operation operations ih =>
    rw [List.map_cons, backward, List.foldr_cons]
    exact toOriginal_inSquare trig operation ih

theorem record_maps (operations : List (Operation K)) {p : K×K} (hp : InSquare p) :
    (record operations).mapToOriginal trig p.1 p.2 =
      .ok (backward trig (operations.map Operation.step) p) := by
  have hinside := backward_inSquare trig operations hp
  rw [← steps_record] at hinside
  rw [mapToOriginal_backward trig hp hinside, steps_record]

end Ordered

/-! ### Orientations of the pixels -/

/-- `DynamicImage::rotate90`, by 90 degrees clockwise -/
def rotate90 (image : GrayImage) : GrayImage :=
  ⟨image.height,image.width,fun x y => image.getPixel y (image.height-1-x)⟩

def rotate180 (image : GrayImage) : GrayImage :=
  ⟨image.width,image.height,fun x y => image.getPixel (image.width-1-x) (image.height-1-y)⟩

def rotate270 (image : GrayImage) : GrayImage :=
  ⟨image.height,image.width,fun x y => image.getPixel (image.width-1-y) x⟩

def flipHorizontal (image : GrayImage) : GrayImage :=
  ⟨image.width,image.height,fun x y => image.getPixel (image.width-1-x) y⟩

def flipVertical (image : GrayImage) : GrayImage :=
  ⟨image.width,image.height,fun x y => image.getPixel x (image.height-1-y)⟩

/-- `DynamicImage::apply_orientation` -/
def applyOrientation (image : GrayImage) : Orientation → GrayImage
  | .noTransforms => image
  | .rotate90 => rotate90 image
  | .rotate180 => rotate180 image
  | .rotate270 => rotate270 image
  | .flipHorizontal => flipHorizontal image
  | .flipVertical => flipVertical image
  | .rotate90FlipH => flipHorizontal (rotate90 image)
  | .rotate270FlipH => flipHorizontal (rotate270 image)

variable (K) in
/-- The centre of a pixel, in the unit square of its image. -/
def centre (image : GrayImage) (x y : ℕ) : K×K :=
  (((x : K)+1/2)/image.width,((y : K)+1/2)/image.height)

/-- Each pixel of the derived image is that of the image to which the steps take it back. -/
def Shows (steps : List (TransformStep K)) (image derived : GrayImage) : Prop :=
  ∀ x y, x < derived.width → y < derived.height → ∃ x0 y0, x0 < image.width ∧ y0 < image.height ∧
    backward trig steps (centre K derived x y) = centre K image x0 y0 ∧
    derived.getPixel x y = image.getPixel x0 y0

theorem shows_self (image : GrayImage) : Shows trig [] image image :=
  fun x y hx hy => ⟨x,y,hx,hy,rfl,rfl⟩

theorem Shows.trans {steps steps' : List (TransformStep K)} {image middle derived : GrayImage}
    (h : Shows trig steps image middle) (h' : Shows trig steps' middle derived) :
    Shows trig (steps++steps') image derived := by
  intro x y hx hy
  obtain ⟨x1,y1,hx1,hy1,hcentre',hpixel'⟩ := h' x y hx hy
  obtain ⟨x0,y0,hx0,hy0,hcentre,hpixel⟩ := h x1 y1 hx1 hy1
  refine ⟨x0,y0,hx0,hy0,?_,hpixel'.trans hpixel⟩
  rw [backward] at hcentre' ⊢
  rw [List.foldr_append, hcentre']
  exact hcentre

section Pixels
variable [IsStrictOrderedRing K]

/-- The centre of a pixel seen from the other side. -/
theorem mirror {n i : ℕ} (h : i < n) :
    1-((i : K)+1/2)/(n : K) = (((n-1-i : ℕ) : K)+1/2)/(n : K) := by
  have hn : (n : K) ≠ 0 := Nat.cast_ne_zero.mpr (by omega)
  have hcast : ((n-1-i : ℕ) : K) = (n : K)-1-i := by
    rw [Nat.cast_sub (by omega), Nat.cast_sub (by omega), Nat.cast_one]
  rw [hcast, eq_div_iff hn, sub_mul, div_mul_cancel₀ _ hn]
  ring

theorem shows_rotate90 (image : GrayImage) :
    Shows trig [.rotation .clockwise90] image (rotate90 image) := by
  intro x y hx hy
  have hx : x < image.height := hx
  refine ⟨y,image.height-1-x,hy,by omega,?_,rfl⟩
  ext
  · rfl
  · exact mirror hx

theorem shows_rotate180 (image : GrayImage) :
    Shows trig [.rotation .clockwise180] image (rotate180 image) := by
  intro x y hx hy
  have hx : x < image.width := hx
  have hy : y < image.height := hy
  refine ⟨image.width-1-x,image.height-1-y,by omega,by omega,?_,rfl⟩
  ext
  · exact mirror hx
  · exact mirror hy

theorem shows_rotate270 (image : GrayImage) :
    Shows trig [.rotation .clockwise270] image (rotate270 image) := by
  intro x y hx hy
  have hy : y < image.width := hy
  refine ⟨image.width-1-y,x,by omega,hx,?_,rfl⟩
  ext
  · exact mirror hy
  · rfl

theorem shows_flipHorizontal (image : GrayImage) :
    Shows trig [.flipHorizontal] image (flipHorizontal image) := by
  intro x y hx hy
  have hx : x < image.width := hx
  refine ⟨image.width-1-x,y,by omega,hy,?_,rfl⟩
  ext
  · exact mirror hx
  · rfl

theorem shows_flipVertical (image : GrayImage) :
    Shows trig [.flipVertical] image (flipVertical image) := by
  intro x y hx hy
  have hy : y < image.height := hy
  refine ⟨x,image.height-1-y,hx,by omega,?_,rfl⟩
  ext
  · rfl
  · exact mirror hy

theorem shows_orientation (image : GrayImage) (orientation : Orientation) :
    Shows trig (recordOrientation TransformChain.new orientation).steps image
      (applyOrientation image orientation) := by
  cases orientation with
  | noTransforms => exact shows_self trig image
  | rotate90 => exact shows_rotate90 trig image
  | rotate180 => exact shows_rotate180 trig image
  | rotate270 => exact shows_rotate270 trig image
  | flipHorizontal => exact shows_flipHorizontal trig image
  | flipVertical => exact shows_flipVertical trig image
  | rotate90FlipH =>
    exact (shows_rotate90 trig image).trans trig (shows_flipHorizontal trig (rotate90 image))
  | rotate270FlipH =>
    exact (shows_rotate270 trig image).trans trig (shows_flipHorizontal trig (rotate270 image))

theorem centre_inSquare {image : GrayImage} {x y : ℕ} (hx : x < image.width)
    (hy : y < image.height) : InSquare (centre K image x y) := by
  have hbounds : ∀ {n i : ℕ}, i < n →
      0 ≤ ((i : K)+1/2)/(n : K) ∧ ((i : K)+1/2)/(n : K) ≤ 1 := by
    intro n i hi
    have hmirror : 0 ≤ (((n-1-i : ℕ) : K)+1/2)/(n : K) := by positivity
    rw [← mirror hi] at hmirror
    exact ⟨by positivity,by linarith⟩
  exact ⟨hbounds hx,hbounds hy⟩

/-- A chain of crops, flips and quarter turns takes each point of the derived image back
to the point which the operations take there, and that of an orientation takes each
pixel back to the pixel which the orientation shows there. -/
theorem recorded_inverse :
    (∀ (operations : List (Operation K)) (p : K×K), InSquare p →
      ∃ q, (record operations).mapToOriginal trig p.1 p.2 = .ok q ∧ InSquare q ∧
        effect operations q = p) ∧
    (∀ (operations : List (Operation K)) (q : K×K), InSquare (effect operations q) →
      (record operations).mapToOriginal trig (effect operations q).1 (effect operations q).2 =
        .ok q) ∧
    ∀ (orientation : Orientation) (image : GrayImage) (x y : ℕ),
      x < (applyOrientation image orientation).width →
      y < (applyOrientation image orientation).height →
      ∃ x0 y0, x0 < image.width ∧ y0 < image.height ∧
        (recordOrientation TransformChain.new orientation).mapToOriginal trig
            (centre K (applyOrientation image orientation) x y).1
            (centre K (applyOrientation image orientation) x y).2 =
          .ok (centre K image x0 y0) ∧
        (applyOrientation image orientation).getPixel x y = image.getPixel x0 y0 := by
  refine ⟨fun operations p hp => ?_,fun operations q hq => ?_,?_⟩
  · exact ⟨_,record_maps trig operations hp,backward_inSquare trig operations hp,
      effect_backward trig operations p⟩
  · rw [record_maps trig operations hq, backward_effect]
  · intro orientation image x y hx hy
    obtain ⟨x0,y0,hx0,hy0,hcentre,hpixel⟩ := shows_orientation trig image orientation x y hx hy
    have hinside : InSquare (centre K image x0 y0) := centre_inSquare hx0 hy0
    rw [← hcentre] at hinside
    refine ⟨x0,y0,hx0,hy0,?_,hpixel⟩
    rw [mapToOriginal_backward trig (centre_inSquare hx hy) hinside, hcentre]

end Pixels

end Field

/-! ### A quarter of a page -/

noncomputable def quarter : CropRegion ℝ := ⟨1/2,0,1/2,1/2,by norm_num [validRegion]⟩

theorem quarter_inverse :
    ∃ q, (record [.crop quarter,.rotation .clockwise90,.flipHorizontal]).mapToOriginal realTrig
        (1/4) (3/4) = .ok q ∧ InSquare q ∧
      effect [.crop quarter,.rotation .clockwise90,.flipHorizontal] q = (1/4,3/4) :=
  (recorded_inverse realTrig).1 [.crop quarter,.rotation .clockwise90,.flipHorizontal] (1/4,3/4)
    (by norm_num [InSquare])

end DocumentIntelligence.RecordedTransforms
