import DocumentIntelligence.RecordedTransforms

/-!
# Quality of an image

The quality of a page is measured on its pixels as they are stored, before they are turned
upright. Numbers are those of an ordered field, so that the ratios are exact.
-/

set_option autoImplicit false

namespace DocumentIntelligence.ImageQuality
open Deskew (GrayImage)
open PageTransforms (TransformChain)
open PageObservations (Orientation recordOrientation)
open RecordedTransforms

inductive Error where
  | invalidQualityThreshold
  | invalidSharpnessThreshold
  | encodedByteLimitExceeded (bytes limit : ℕ)
  | pixelLimitExceeded (pixels limit : ℕ)
  | unsupportedOrInvalidImage
  deriving DecidableEq, Repr

inductive QualityWarning where
  | blank
  | blurry
  | glare
  | lowResolution
  | overexposed
  | underexposed
  deriving DecidableEq, Repr

inductive QualityDisposition where
  | continue
  | requestBetterSource
  deriving DecidableEq, Repr

inductive RetakeReason where
  | moveCloser
  | holdSteady
  | avoidGlare
  | addLight
  | reduceLight
  deriving DecidableEq, Repr

inductive QualityVerdict where
  | usable
  | retake (reason : RetakeReason)
  | unusable
  deriving DecidableEq, Repr

structure ImageLimits where
  maxEncodedBytes : ℕ
  maxPixels : ℕ

/-! ### The pixels -/

/-- `GrayImage::pixels`, row by row -/
def pixels (image : GrayImage) : List UInt8 :=
  (List.range image.height).flatMap fun y =>
    (List.range image.width).map fun x => image.getPixel x y

def extremes (image : GrayImage) : UInt8 × UInt8 :=
  (pixels image).foldl (fun (minimum,maximum) pixel => (min minimum pixel,max maximum pixel))
    (255,0)

def absDiff (a b : UInt8) : ℕ := (a.toNat-b.toNat)+(b.toNat-a.toNat)

/-- What a pixel adds to the total of the differences and to their number. -/
def edges (image : GrayImage) (x y : ℕ) : ℕ × ℕ :=
  let current := image.getPixel x y
  (if x+1 < image.width then (absDiff current (image.getPixel (x+1) y),1) else (0,0))+
    if y+1 < image.height then (absDiff current (image.getPixel x (y+1)),1) else (0,0)

def edgeTotals (image : GrayImage) : ℕ × ℕ :=
  (List.range image.height).foldl (fun totals y =>
    (List.range image.width).foldl (fun totals x => totals+edges image x y) totals) (0,0)

def saturatedLuminance : ℕ := 250
def glareBackgroundCeiling : ℕ := 217

def histogram (image : GrayImage) : ℕ → ℕ :=
  (pixels image).foldl (fun histogram pixel =>
    Function.update histogram pixel.toNat (histogram pixel.toNat+1)) fun _ => 0

/-- The position of the first count up to which three quarters of the pixels are seen. -/
def quartilePosition (pixels : ℕ) : List ℕ → (seen index : ℕ) → Option ℕ
  | [],_,_ => none
  | count::counts,seen,index =>
    if pixels*3 ≤ (seen+count)*4 then some index
    else quartilePosition pixels counts (seen+count) (index+1)

section Field
variable (K : Type) [Field K] [LinearOrder K]

structure QualityThresholds where
  minimumWidth : ℕ
  minimumHeight : ℕ
  minimumSharpness : K

structure QualityReport where
  width : ℕ
  height : ℕ
  contrast : K
  meanLuminance : K
  sharpness : K
  qualityScore : K
  warnings : List QualityWarning
  disposition : QualityDisposition

variable {K}

def QualityThresholds.new (minimumWidth minimumHeight : ℕ) : Except Error (QualityThresholds K) :=
  if minimumWidth = 0 ∨ minimumHeight = 0 then .error .invalidQualityThreshold
  else .ok ⟨minimumWidth,minimumHeight,0⟩

def QualityThresholds.withMinimumSharpness (thresholds : QualityThresholds K)
    (minimumSharpness : K) : Except Error (QualityThresholds K) :=
  if 0 ≤ minimumSharpness ∧ minimumSharpness ≤ 1 then
    .ok { thresholds with minimumSharpness := minimumSharpness }
  else .error .invalidSharpnessThreshold

def QualityReport.verdict (report : QualityReport K) : QualityVerdict :=
  if report.warnings.contains .blank then .unusable
  else match [(QualityWarning.lowResolution,RetakeReason.moveCloser),(.blurry,.holdSteady),
      (.glare,.avoidGlare),(.underexposed,.addLight),(.overexposed,.reduceLight)].find?
        fun entry => report.warnings.contains entry.1 with
    | none => .usable
    | some (_,reason) => .retake reason

variable (K) in
def edgeDifferenceScore (image : GrayImage) : K :=
  let (total,comparisons) := edgeTotals image
  if comparisons = 0 then 0 else (total : K)/comparisons/255

variable (K) in
def hasGlare (image : GrayImage) (pixels : ℕ) : Bool :=
  let counts := (List.range 256).map (histogram image)
  let saturated := (counts.drop saturatedLuminance).sum
  let thirdQuartile := (quartilePosition pixels counts 0 0).getD 255
  decide ((1 : K)/100 ≤ (saturated : K)/pixels) && decide (thirdQuartile ≤ glareBackgroundCeiling)

/-- What `inspect_image_with_thresholds` reports about decoded pixels. -/
def report (thresholds : QualityThresholds K) (width height : ℕ) (image : GrayImage) :
    QualityReport K :=
  let pixelCount := width*height
  let (minimum,maximum) := extremes image
  let contrast : K := ((maximum.toNat-minimum.toNat : ℕ) : K)/255
  let meanLuminance : K := ((pixels image).map fun pixel => (pixel.toNat : K)).sum/pixelCount/255
  let sharpness := edgeDifferenceScore K image
  let glare := hasGlare K image pixelCount
  let blank := decide (contrast < 2/100)
  let lowResolution := decide (width < thresholds.minimumWidth ∨
    height < thresholds.minimumHeight)
  let warnings :=
    (if blank then [.blank] else [])++
    (if !blank && decide (sharpness < thresholds.minimumSharpness) then [.blurry] else [])++
    (if !blank && glare then [.glare] else [])++
    (if lowResolution then [.lowResolution] else [])++
    (if !blank && decide (95/100 < meanLuminance) then [.overexposed] else [])++
    (if !blank && decide (meanLuminance < 5/100) then [.underexposed] else [])
  let resolutionScore := min (min ((width : K)/thresholds.minimumWidth)
    ((height : K)/thresholds.minimumHeight)) 1
  let exposureScore := max (1-abs (meanLuminance-1/2)*2) 0
  { width := width
    height := height
    contrast := contrast
    meanLuminance := meanLuminance
    sharpness := sharpness
    qualityScore := if blank then 0 else contrast*resolutionScore*exposureScore
    warnings := warnings
    disposition := if warnings.isEmpty then .continue else .requestBetterSource }

/-- The dimensions which the header names, the grayscale pixels and the orientation. -/
structure ImageLibrary where
  dimensions : List UInt8 → Option (ℕ × ℕ)
  decode : List UInt8 → Option GrayImage
  orientation : List UInt8 → Option Orientation
  sized : ∀ encoded image, decode encoded = some image →
    dimensions encoded = some (image.width,image.height)

def inspectImageWithThresholds (library : ImageLibrary) (encoded : List UInt8)
    (limits : ImageLimits) (thresholds : QualityThresholds K) :
    Except Error (QualityReport K) :=
  if limits.maxEncodedBytes < encoded.length then
    .error (.encodedByteLimitExceeded encoded.length limits.maxEncodedBytes)
  else match library.dimensions encoded with
  | none => .error .unsupportedOrInvalidImage
  | some (width,height) =>
    if limits.maxPixels < width*height then
      .error (.pixelLimitExceeded (width*height) limits.maxPixels)
    else match library.decode encoded with
    | none => .error .unsupportedOrInvalidImage
    | some image => .ok (report thresholds width height image)

variable (K) in
structure PreparedImage where
  image : GrayImage
  quality : QualityReport K
  transforms : TransformChain K

variable (K) in
inductive PreparationOutcome where
  | ready (prepared : PreparedImage K)
  | requestBetterSource (report : QualityReport K)

def prepareImage (library : ImageLibrary) (encoded : List UInt8) (limits : ImageLimits)
    (thresholds : QualityThresholds K) : Except Error (PreparationOutcome K) :=
  match inspectImageWithThresholds library encoded limits thresholds with
  | .error e => .error e
  | .ok quality =>
    if quality.disposition = .requestBetterSource then .ok (.requestBetterSource quality)
    else match library.orientation encoded with
    | none => .error .unsupportedOrInvalidImage
    | some orientation =>
      match library.decode encoded with
      | none => .error .unsupportedOrInvalidImage
      | some image => .ok (.ready
        { image := applyOrientation image orientation
          quality := quality
          transforms := recordOrientation TransformChain.new orientation })

end Field

/-! ### Sums over the pixels -/

section Sums
variable {M : Type*} [AddCommMonoid M]

theorem foldl_range_sum (f : ℕ → M) (start : M) (n : ℕ) :
    (List.range n).foldl (fun sum i => sum+f i) start = start+∑ i ∈ Finset.range n, f i := by
  induction n with
  | zero => simp
  | succ n ih =>
    rw [List.range_succ,List.foldl_append,ih,Finset.sum_range_succ,← add_assoc]
    rfl

/-- The sum over the pixels which have a successor, from the other side. -/
theorem sum_successors_reflect {n : ℕ} {f g : ℕ → M} (h : ∀ i, i+1 < n → f i = g (n-2-i)) :
    (∑ i ∈ Finset.range n, if i+1 < n then f i else 0) =
      ∑ i ∈ Finset.range n, if i+1 < n then g i else 0 := by
  cases n with
  | zero => rfl
  | succ n =>
    rw [Finset.sum_range_succ,Finset.sum_range_succ,if_neg (by omega),if_neg (by omega),
      add_zero,add_zero,← Finset.sum_range_reflect]
    apply Finset.sum_congr rfl
    intro i hi
    have hin := Finset.mem_range.mp hi
    rw [if_pos (by omega),if_pos (by omega),h _ (by omega)]
    congr 1
    omega

end Sums

/-! ### Turned pictures -/

def transpose (image : GrayImage) : GrayImage :=
  ⟨image.height,image.width,fun x y => image.getPixel y x⟩

theorem count_row (f : ℕ → UInt8) (value : UInt8) (n : ℕ) :
    ((List.range n).map f).count value = ∑ i ∈ Finset.range n, if f i = value then 1 else 0 := by
  induction n with
  | zero => rfl
  | succ n ih =>
    rw [List.range_succ,List.map_append,List.count_append,ih,Finset.sum_range_succ]
    simp [List.count_singleton]

theorem count_pixels (image : GrayImage) (value : UInt8) :
    (pixels image).count value = ∑ y ∈ Finset.range image.height,
      ∑ x ∈ Finset.range image.width, if image.getPixel x y = value then 1 else 0 := by
  have hrows : ∀ n, ((List.range n).flatMap fun y =>
      (List.range image.width).map fun x => image.getPixel x y).count value =
        ∑ y ∈ Finset.range n, ∑ x ∈ Finset.range image.width,
          if image.getPixel x y = value then 1 else 0 := by
    intro n
    induction n with
    | zero => rfl
    | succ n ih =>
      rw [List.range_succ,List.flatMap_append,List.count_append,ih,Finset.sum_range_succ,
        List.flatMap_singleton,count_row]
  exact hrows image.height

/-- The sums of the edges along the rows. -/
def rowEdges (image : GrayImage) : ℕ × ℕ :=
  ∑ y ∈ Finset.range image.height, ∑ x ∈ Finset.range image.width,
    if x+1 < image.width then (absDiff (image.getPixel x y) (image.getPixel (x+1) y),1) else 0

theorem edgeTotals_eq (image : GrayImage) :
    edgeTotals image = rowEdges image+rowEdges (transpose image) := by
  have hrow : ∀ y, ∑ x ∈ Finset.range image.width, edges image x y =
      (∑ x ∈ Finset.range image.width, if x+1 < image.width then
          (absDiff (image.getPixel x y) (image.getPixel (x+1) y),1) else 0)+
        ∑ x ∈ Finset.range image.width, if y+1 < image.height then
          (absDiff (image.getPixel x y) (image.getPixel x (y+1)),1) else 0 :=
    fun y => Finset.sum_add_distrib
  rw [edgeTotals]
  simp only [foldl_range_sum]
  rw [show ((0,0) : ℕ × ℕ) = 0 from rfl,zero_add]
  simp only [hrow]
  rw [Finset.sum_add_distrib,rowEdges,rowEdges]
  congr 1
  exact Finset.sum_comm

theorem absDiff_comm (a b : UInt8) : absDiff a b = absDiff b a := Nat.add_comm _ _

/-- What the measures see of a picture is the same. -/
structure SameMeasures (image turned : GrayImage) : Prop where
  pixels : (pixels turned).Perm (pixels image)
  edges : edgeTotals turned = edgeTotals image

theorem same_transpose (image : GrayImage) : SameMeasures image (transpose image) where
  pixels := by
    rw [List.perm_iff_count]
    intro value
    rw [count_pixels,count_pixels]
    exact Finset.sum_comm
  edges := by
    rw [edgeTotals_eq,edgeTotals_eq,add_comm]
    rfl

theorem same_flip (image : GrayImage) : SameMeasures image (flipHorizontal image) where
  pixels := by
    rw [List.perm_iff_count]
    intro value
    rw [count_pixels,count_pixels]
    apply Finset.sum_congr rfl
    intro y _
    exact Finset.sum_range_reflect (fun x => if image.getPixel x y = value then 1 else 0) _
  edges := by
    have hrows : rowEdges (flipHorizontal image) = rowEdges image := by
      apply Finset.sum_congr rfl
      intro y _
      refine sum_successors_reflect fun x hx => ?_
      show (absDiff (image.getPixel (image.width-1-x) y) (image.getPixel (image.width-1-(x+1)) y),1)
        = (absDiff (image.getPixel (image.width-2-x) y) (image.getPixel (image.width-2-x+1) y),1)
      have hx : x+1 < image.width := hx
      rw [absDiff_comm,show image.width-1-(x+1) = image.width-2-x by omega,
        show image.width-1-x = image.width-2-x+1 by omega]
    have hcolumns : rowEdges (transpose (flipHorizontal image)) = rowEdges (transpose image) :=
      Finset.sum_range_reflect (fun y => ∑ x ∈ Finset.range image.height,
        if x+1 < image.height then
          (absDiff (image.getPixel y x) (image.getPixel y (x+1)),1) else 0) image.width
    rw [edgeTotals_eq,edgeTotals_eq,hrows,hcolumns]

theorem SameMeasures.trans {image middle turned : GrayImage} (h : SameMeasures image middle)
    (h' : SameMeasures middle turned) : SameMeasures image turned :=
  ⟨h'.pixels.trans h.pixels,h'.edges.trans h.edges⟩

theorem same_orientation (image : GrayImage) (orientation : Orientation) :
    SameMeasures image (applyOrientation image orientation) := by
  have hrotate90 : SameMeasures image (rotate90 image) :=
    (same_transpose image).trans (same_flip (transpose image))
  have hrotate270 : SameMeasures image (rotate270 image) :=
    (same_flip image).trans (same_transpose (flipHorizontal image))
  have hvertical : SameMeasures image (flipVertical image) :=
    (hrotate90).trans (same_transpose (rotate90 image))
  cases orientation with
  | noTransforms => exact ⟨List.Perm.refl _,rfl⟩
  | rotate90 => exact hrotate90
  | rotate180 => exact hvertical.trans (same_flip (flipVertical image))
  | rotate270 => exact hrotate270
  | flipHorizontal => exact same_flip image
  | flipVertical => exact hvertical
  | rotate90FlipH => exact hrotate90.trans (same_flip (rotate90 image))
  | rotate270FlipH => exact hrotate270.trans (same_flip (rotate270 image))

/-! ### The histogram -/

theorem histogram_count (image : GrayImage) (value : ℕ) :
    histogram image value = (pixels image).countP fun pixel => decide (pixel.toNat = value) := by
  have hfold : ∀ (ps : List UInt8) (start : ℕ → ℕ), ps.foldl (fun histogram pixel =>
      Function.update histogram pixel.toNat (histogram pixel.toNat+1)) start value =
        start value+ps.countP fun pixel => decide (pixel.toNat = value) := by
    intro ps
    induction ps with
    | nil => exact fun start => rfl
    | cons pixel ps ih =>
      intro start
      rw [List.foldl_cons,ih,List.countP_cons,Function.update_apply]
      by_cases h : pixel.toNat = value
      · rw [if_pos h.symm,h]
        simp
        omega
      · rw [if_neg (Ne.symm h)]
        simp [h]
  rw [histogram,hfold,Nat.zero_add]

theorem sum_counts (image : GrayImage) (n : ℕ) :
    ((List.range n).map (histogram image)).sum =
      (pixels image).countP fun pixel => decide (pixel.toNat < n) := by
  induction n with
  | zero => simp
  | succ n ih =>
    rw [List.range_succ,List.map_append,List.sum_append,ih,List.map_singleton,List.sum_singleton,
      histogram_count]
    induction pixels image with
    | nil => rfl
    | cons pixel ps hps =>
      rw [List.countP_cons,List.countP_cons,List.countP_cons,← hps]
      have hsplit : (if decide (pixel.toNat < n+1) = true then 1 else 0) =
          (if decide (pixel.toNat < n) = true then 1 else 0)+
            if decide (pixel.toNat = n) = true then 1 else 0 := by
        rcases Nat.lt_trichotomy pixel.toNat n with h | h | h
        · simp [h,h.ne,Nat.lt_succ_of_lt h]
        · simp [h]
        · simp [h.ne',show ¬pixel.toNat < n+1 by omega,show ¬pixel.toNat < n by omega]
      omega

theorem sum_saturated (image : GrayImage) :
    (((List.range 256).map (histogram image)).drop saturatedLuminance).sum =
      (pixels image).countP fun pixel => decide (saturatedLuminance ≤ pixel.toNat) := by
  have hall := sum_counts image 256
  have hlow := sum_counts image saturatedLuminance
  have hsplit : (List.range 256).map (histogram image) =
      (List.range saturatedLuminance).map (histogram image)++
        ((List.range 256).map (histogram image)).drop saturatedLuminance := by
    rw [← List.take_append_drop saturatedLuminance ((List.range 256).map (histogram image)),
      ← List.map_take,List.take_range]
    simp [saturatedLuminance]
  rw [hsplit,List.sum_append,hlow] at hall
  have hcount : (pixels image).countP (fun pixel => decide (pixel.toNat < 256)) =
      (pixels image).countP (fun pixel => decide (pixel.toNat < saturatedLuminance))+
        (pixels image).countP fun pixel => decide (saturatedLuminance ≤ pixel.toNat) := by
    have hbytes : ∀ pixel ∈ pixels image, decide (pixel.toNat < 256) = true :=
      fun pixel _ => decide_eq_true pixel.toNat_lt
    rw [List.countP_eq_length.mpr hbytes,List.length_eq_countP_add_countP fun pixel : UInt8 =>
      decide (pixel.toNat < saturatedLuminance)]
    simp
  omega

theorem quartilePosition_later {total : ℕ} {counts : List ℕ} {seen index i : ℕ}
    (h : quartilePosition total counts seen index = some i) : index ≤ i := by
  induction counts generalizing seen index with
  | nil => cases h
  | cons count counts ih =>
    rw [quartilePosition] at h
    split at h
    · exact (Option.some.inj h).le
    · exact Nat.le_of_succ_le (ih h)

/-- The position is at most that of a count if three quarters are seen up to it. -/
theorem quartilePosition_le {total : ℕ} {counts : List ℕ} {seen index k : ℕ}
    (hk : k < counts.length) :
    (∃ i, quartilePosition total counts seen index = some i ∧ i ≤ index+k) ↔
      total*3 ≤ (seen+(counts.take (k+1)).sum)*4 := by
  induction counts generalizing seen index k with
  | nil => cases hk
  | cons count counts ih =>
    rw [quartilePosition,List.take_succ_cons,List.sum_cons,← Nat.add_assoc]
    by_cases hseen : total*3 ≤ (seen+count)*4
    · rw [if_pos hseen]
      exact ⟨fun _ => by omega,fun _ => ⟨index,rfl,by omega⟩⟩
    · rw [if_neg hseen]
      cases k with
      | zero =>
        rw [List.take_zero,List.sum_nil,Nat.add_zero]
        refine ⟨?_,fun h => absurd h hseen⟩
        rintro ⟨i,hi,hle⟩
        have hlater : index+1 ≤ i := quartilePosition_later hi
        omega
      | succ k =>
        rw [← @ih (seen+count) (index+1) k (Nat.lt_of_succ_lt_succ hk)]
        constructor <;> rintro ⟨i,hi,hle⟩ <;> exact ⟨i,hi,by omega⟩

theorem quartilePosition_ceiling (image : GrayImage) (total : ℕ) :
    (quartilePosition total ((List.range 256).map (histogram image)) 0 0).getD 255 ≤
        glareBackgroundCeiling ↔
      total*3 ≤ ((pixels image).countP
        fun pixel => decide (pixel.toNat ≤ glareBackgroundCeiling))*4 := by
  have hle := @quartilePosition_le total ((List.range 256).map (histogram image)) 0 0
    glareBackgroundCeiling (by simp [glareBackgroundCeiling])
  have htake : ((List.range 256).map (histogram image)).take (glareBackgroundCeiling+1) =
      (List.range (glareBackgroundCeiling+1)).map (histogram image) := by
    rw [← List.map_take,List.take_range]
    rfl
  rw [htake,sum_counts,Nat.zero_add,Nat.zero_add] at hle
  simp only [Nat.lt_succ_iff] at hle
  rw [← hle]
  cases quartilePosition total ((List.range 256).map (histogram image)) 0 0 with
  | none => simp [glareBackgroundCeiling]
  | some i => simp

section Measures
variable {K : Type} [Field K] [LinearOrder K]

variable (K) in
/-- There is glare where one pixel in a hundred is saturated, on a background of which three
quarters are darker than white paper. -/
theorem hasGlare_iff (image : GrayImage) (total : ℕ) :
    hasGlare K image total = true ↔
      (1 : K)/100 ≤ (((pixels image).countP
        fun pixel => decide (saturatedLuminance ≤ pixel.toNat) : ℕ) : K)/total ∧
      total*3 ≤ ((pixels image).countP
        fun pixel => decide (pixel.toNat ≤ glareBackgroundCeiling))*4 := by
  rw [hasGlare]
  simp only [Bool.and_eq_true,decide_eq_true_iff]
  rw [sum_saturated,quartilePosition_ceiling]

theorem hasGlare_same {image turned : GrayImage} (h : SameMeasures image turned) (total : ℕ) :
    hasGlare K turned total = hasGlare K image total := by
  rw [Bool.eq_iff_iff,hasGlare_iff,hasGlare_iff,h.pixels.countP_eq,h.pixels.countP_eq]

theorem extremes_same {image turned : GrayImage} (h : SameMeasures image turned) :
    extremes turned = extremes image := by
  have hmin : ∀ a b c : UInt8, min (min a b) c = min (min a c) b := by
    intro a b c
    have hite : ∀ a b : UInt8, min a b = if a ≤ b then a else b := fun _ _ => rfl
    simp only [hite]
    grind
  have hmax : ∀ a b c : UInt8, max (max a b) c = max (max a c) b := by
    intro a b c
    have hite : ∀ a b : UInt8, max a b = if a ≤ b then b else a := fun _ _ => rfl
    simp only [hite]
    grind
  have hcomm : RightCommutative fun (extremes : UInt8 × UInt8) (pixel : UInt8) =>
      (min extremes.1 pixel,max extremes.2 pixel) :=
    ⟨fun extremes a b => Prod.ext (hmin _ _ _) (hmax _ _ _)⟩
  exact h.pixels.foldl_eq (255,0)

theorem report_same {image turned : GrayImage} (h : SameMeasures image turned)
    (thresholds : QualityThresholds K) (width height : ℕ) :
    report thresholds width height turned = report thresholds width height image := by
  have hmean : ((pixels turned).map fun pixel => (pixel.toNat : K)).sum =
      ((pixels image).map fun pixel => (pixel.toNat : K)).sum := (h.pixels.map _).sum_eq
  have hsharpness : edgeDifferenceScore K turned = edgeDifferenceScore K image := by
    rw [edgeDifferenceScore,edgeDifferenceScore,h.edges]
  rw [report,report,extremes_same h,hmean,hsharpness,hasGlare_same h]

/-! ### Upright pictures -/

def quarterTurn : Orientation → Bool
  | .rotate90 | .rotate270 | .rotate90FlipH | .rotate270FlipH => true
  | .noTransforms | .rotate180 | .flipHorizontal | .flipVertical => false

def QualityThresholds.turn (thresholds : QualityThresholds K) (orientation : Orientation) :
    QualityThresholds K :=
  if quarterTurn orientation then
    ⟨thresholds.minimumHeight,thresholds.minimumWidth,thresholds.minimumSharpness⟩
  else thresholds

def QualityReport.turn (report : QualityReport K) (orientation : Orientation) : QualityReport K :=
  if quarterTurn orientation then
    { report with width := report.height, height := report.width }
  else report

theorem report_turn (thresholds : QualityThresholds K) (image : GrayImage)
    (orientation : Orientation) :
    report (thresholds.turn orientation) (applyOrientation image orientation).width
        (applyOrientation image orientation).height (applyOrientation image orientation) =
      (report thresholds image.width image.height image).turn orientation := by
  rw [report_same (same_orientation image orientation)]
  have hturned : report
      ⟨thresholds.minimumHeight,thresholds.minimumWidth,thresholds.minimumSharpness⟩
        image.height image.width image =
      { report thresholds image.width image.height image with
        width := image.height, height := image.width } := by
    simp only [report,Nat.mul_comm image.height image.width,
      or_comm (a := image.height < thresholds.minimumHeight),
      min_comm ((image.height : K)/thresholds.minimumHeight)]
  cases orientation <;> first | rfl | exact hturned

theorem area_orientation (image : GrayImage) (orientation : Orientation) :
    (applyOrientation image orientation).width*(applyOrientation image orientation).height =
      image.width*image.height := by
  cases orientation <;> first | rfl | exact Nat.mul_comm _ _

omit [Field K] [LinearOrder K] in
theorem turn_disposition (report : QualityReport K) (orientation : Orientation) :
    (report.turn orientation).disposition = report.disposition := by
  rw [QualityReport.turn]
  split <;> rfl

/-- What `prepare_image` finds once the picture is stored upright. -/
def PreparationOutcome.upright (orientation : Orientation) :
    PreparationOutcome K → PreparationOutcome K
  | .ready prepared => .ready ⟨prepared.image,prepared.quality.turn orientation,TransformChain.new⟩
  | .requestBetterSource report => .requestBetterSource (report.turn orientation)

theorem inspect_decoded (library : ImageLibrary) (limits : ImageLimits)
    (thresholds : QualityThresholds K) {encoded : List UInt8} {image : GrayImage}
    (hlength : encoded.length ≤ limits.maxEncodedBytes)
    (hdecode : library.decode encoded = some image) :
    inspectImageWithThresholds library encoded limits thresholds =
      if limits.maxPixels < image.width*image.height then
        .error (.pixelLimitExceeded (image.width*image.height) limits.maxPixels)
      else .ok (report thresholds image.width image.height image) := by
  rw [inspectImageWithThresholds,if_neg (Nat.not_lt.mpr hlength),library.sized _ _ hdecode]
  simp only [hdecode]

/-- Storing a picture upright changes nothing of what its preparation decides. -/
theorem prepare_upright (library : ImageLibrary) (limits : ImageLimits)
    (thresholds : QualityThresholds K) {encoded upright : List UInt8} {image : GrayImage}
    {orientation : Orientation} (hencoded : encoded.length ≤ limits.maxEncodedBytes)
    (hdecode : library.decode encoded = some image)
    (horientation : library.orientation encoded = some orientation)
    (hlength : upright.length ≤ limits.maxEncodedBytes)
    (hupright : library.decode upright = some (applyOrientation image orientation))
    (hnone : library.orientation upright = some .noTransforms) :
    prepareImage library upright limits (thresholds.turn orientation) =
      (prepareImage library encoded limits thresholds).map (·.upright orientation) := by
  rw [prepareImage,prepareImage,inspect_decoded library limits _ hlength hupright,
    inspect_decoded library limits _ hencoded hdecode,area_orientation]
  by_cases hpixels : limits.maxPixels < image.width*image.height
  · simp only [if_pos hpixels]
    rfl
  simp only [if_neg hpixels,report_turn,turn_disposition]
  by_cases hbetter : (report thresholds image.width image.height image).disposition =
      .requestBetterSource
  · simp only [if_pos hbetter]
    rfl
  · simp only [if_neg hbetter,hnone,hupright,horientation,hdecode]
    rfl

end Measures

/-- A picture taken sideways, and what it shows. -/
def sideways : ImageLibrary where
  dimensions
    | [0] => some (3,2)
    | [1] => some (2,3)
    | _ => none
  decode
    | [0] => some ⟨3,2,fun x y => if x = y then 0 else 255⟩
    | [1] => some (rotate90 ⟨3,2,fun x y => if x = y then 0 else 255⟩)
    | _ => none
  orientation
    | [0] => some .rotate90
    | _ => some .noTransforms
  sized := by
    intro encoded image h
    split at h
    · cases h
      rfl
    · cases h
      rfl
    · cases h

theorem sideways_upright :
    prepareImage sideways [1] ⟨10,6⟩ (⟨2,3,1/2⟩ : QualityThresholds ℚ) =
      (prepareImage sideways [0] ⟨10,6⟩ (⟨3,2,1/2⟩ : QualityThresholds ℚ)).map
        (·.upright .rotate90) ∧
      (report (⟨3,2,1/2⟩ : QualityThresholds ℚ) 3 2
        ⟨3,2,fun x y => if x = y then 0 else 255⟩).warnings = [] :=
  ⟨@prepare_upright ℚ _ _ sideways ⟨10,6⟩ ⟨3,2,1/2⟩ [0] [1]
    ⟨3,2,fun x y => if x = y then 0 else 255⟩ .rotate90 (by decide) rfl rfl (by decide) rfl rfl,
    by decide +kernel⟩

end DocumentIntelligence.ImageQuality
