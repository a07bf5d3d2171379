import DocumentIntelligence.Deskew
import DocumentIntelligence.DocumentPages
import DocumentIntelligence.PageCheckpoint
import DocumentIntelligence.Table

/-!
# Observations of a prepared page

The regions which the detector finds on a prepared image, with the text which
the recognizer reads in them, become observations on the original page. The
coordinates are exact numbers of an ordered field.
-/

set_option autoImplicit false

namespace DocumentIntelligence.PageObservations
open PlaneMaps PageTransforms Deskew
open Table (bind_ok forall₂_map_eq forall₂_exists)
open DocumentPages (ObservationId ObservationLevel isWhitespace maximumObservations
  validObservation sorted_byKey)

section Engine
variable {K : Type} [Field K] [LinearOrder K]

/-! ### Preparation -/

/-- `image::metadata::Orientation` -/
inductive Orientation where
  | noTransforms
  | rotate90
  | rotate180
  | rotate270
  | flipHorizontal
  | flipVertical
  | rotate90FlipH
  | rotate270FlipH
  deriving DecidableEq, Repr

def recordOrientation (transforms : TransformChain K) : Orientation → TransformChain K
  | .noTransforms => transforms
  | .rotate90 => transforms.pushRotation .clockwise90
  | .rotate180 => transforms.pushRotation .clockwise180
  | .rotate270 => transforms.pushRotation .clockwise270
  | .flipHorizontal => transforms.pushFlipHorizontal
  | .flipVertical => transforms.pushFlipVertical
  | .rotate90FlipH => (transforms.pushRotation .clockwise90).pushFlipHorizontal
  | .rotate270FlipH => (transforms.pushRotation .clockwise270).pushFlipHorizontal

variable (K) in
/-- The pixels and the recorded transforms of a prepared page. -/
structure PreparedImage where
  image : GrayImage
  transforms : TransformChain K

/-- What `prepare_image` returns for decoded and oriented pixels. -/
def prepared (image : GrayImage) (orientation : Orientation) : PreparedImage K :=
  ⟨image,recordOrientation TransformChain.new orientation⟩

def validPolicy (minimumConfidence minimumMaterialDegrees : K) : Bool :=
  decide (0 ≤ minimumConfidence ∧ minimumConfidence ≤ 1) &&
    decide (0 ≤ minimumMaterialDegrees ∧ minimumMaterialDegrees ≤ maximumDeskewDegrees)

variable (K) in
structure DeskewPolicy where
  minimumConfidence : K
  minimumMaterialDegrees : K
  valid : validPolicy minimumConfidence minimumMaterialDegrees = true

variable (K) in
structure SkewEstimate where
  correction : DeskewAngle K
  confidence : K
  sampledPoints : ℕ

inductive DeskewDecision where
  | applied
  | belowConfidence
  | belowMaterialAngle
  deriving DecidableEq, Repr

variable (K) in
structure DeskewResult where
  image : PreparedImage K
  estimate : SkewEstimate K
  decision : DeskewDecision

/-- The estimate is that of `estimate_skew` for the image. -/
def deskewImage [FloorRing K] (trig : Trig K) (image : PreparedImage K) (policy : DeskewPolicy K)
    (estimate : SkewEstimate K) : DeskewResult K :=
  if |estimate.correction.degrees| < policy.minimumMaterialDegrees then
    ⟨image,estimate,.belowMaterialAngle⟩
  else if estimate.confidence < policy.minimumConfidence then
    ⟨image,estimate,.belowConfidence⟩
  else
    ⟨⟨rotateBilinear trig image.image estimate.correction,
      image.transforms.pushDeskew estimate.correction⟩,estimate,.applied⟩

/-! ### Regions and their text -/

def validCandidate (left top right bottom confidence : K) : Bool :=
  validCoordinate left && validCoordinate top && validCoordinate right &&
    validCoordinate bottom && validCoordinate confidence &&
    decide (left < right) && decide (top < bottom)

variable (K) in
structure DetectionCandidate where
  left : K
  top : K
  right : K
  bottom : K
  confidence : K
  valid : validCandidate left top right bottom confidence = true
  deriving DecidableEq

def maximumRecognizedTextBytes : ℕ := 4096

def maximumAlternatives : ℕ := 16

def validText (value : String) : Bool :=
  !value.toList.all isWhitespace && decide (value.utf8ByteSize ≤ maximumRecognizedTextBytes)

variable (K) in
structure RecognitionAlternative where
  text : String
  confidence : K
  valid : (validText text && validCoordinate confidence) = true
  deriving DecidableEq

variable (K) in
structure RecognizedRegion where
  regionIndex : ℕ
  text : String
  confidence : K
  alternatives : List (RecognitionAlternative K)
  valid : (validText text && validCoordinate confidence &&
    decide (alternatives.length ≤ maximumAlternatives)) = true
  deriving DecidableEq

def assembleRecognitions (outputs : List (RecognizedRegion K)) (regionCount : ℕ) :
    Except Error (List (RecognizedRegion K)) :=
  if outputs.length ≠ regionCount then .error .invalidRecognitionBatch
  else
    let outputs := outputs.mergeSort fun a b => decide (a.regionIndex ≤ b.regionIndex)
    if outputs.zipIdx.any fun (output,expected) => output.regionIndex != expected then
      .error .invalidRecognitionBatch
    else .ok outputs

/-! ### Observations -/

def okOr {α : Type} (error : Error) : Option α → Except Error α
  | some value => .ok value
  | none => .error error

structure PageNumber where
  value : ℕ
  valid : 1 ≤ value ∧ value < 2^32
  deriving DecidableEq

variable (K) in
structure Confidence where
  value : K
  valid : validCoordinate value = true
  deriving DecidableEq

def Confidence.new (value : K) : Option (Confidence K) :=
  if h : validCoordinate value = true then some ⟨value,h⟩ else none

variable (K) in
structure NormalizedPoint where
  x : K
  y : K
  valid : (validCoordinate x && validCoordinate y) = true
  deriving DecidableEq

def NormalizedPoint.new (x y : K) : Option (NormalizedPoint K) :=
  if h : (validCoordinate x && validCoordinate y) = true then some ⟨x,y,h⟩ else none

def signedDoubleArea (points : List (NormalizedPoint K)) : K :=
  doubledArea (points.map fun p => (p.x,p.y))

/-- `f64::EPSILON` -/
def epsilon : K := 1/2^52

def validPolygon (points : List (NormalizedPoint K)) : Bool :=
  !(decide (points.length < 3) || decide (|signedDoubleArea points| ≤ epsilon))

variable (K) in
structure Polygon where
  points : List (NormalizedPoint K)
  valid : validPolygon points = true
  deriving DecidableEq

def Polygon.new (points : List (NormalizedPoint K)) : Option (Polygon K) :=
  if h : validPolygon points = true then some ⟨points,h⟩ else none

def ObservationId.new (value : String) : Option ObservationId :=
  if h : Identifiers.validatedId value "obs_" = true then some ⟨value,h⟩ else none

variable (K) in
structure TextObservation where
  observationId : ObservationId
  level : ObservationLevel
  text : String
  confidence : Confidence K
  polygon : Polygon K
  readingOrder : ℕ
  parentObservationId : Option ObservationId
  valid : validObservation text observationId parentObservationId = true

def TextObservation.new (observationId : ObservationId) (level : ObservationLevel) (text : String)
    (confidence : Confidence K) (polygon : Polygon K) (readingOrder : ℕ)
    (parentObservationId : Option ObservationId) : Option (TextObservation K) :=
  if h : validObservation text observationId parentObservationId = true then
    some ⟨observationId,level,text,confidence,polygon,readingOrder,parentObservationId,h⟩
  else none

/-- The loop of `DocumentPage::new`. -/
def acyclic (seenIds : List ObservationId) (seenOrders : List ℕ) :
    List (TextObservation K) → Bool
  | [] => true
  | o::os => !seenOrders.contains o.readingOrder &&
      (o.parentObservationId.all fun parent => seenIds.contains parent) &&
      !seenIds.contains o.observationId &&
      acyclic (o.observationId::seenIds) (o.readingOrder::seenOrders) os

variable (K) in
structure DocumentPage where
  page : PageNumber
  width : ℕ
  height : ℕ
  observations : List (TextObservation K)

def DocumentPage.new (page : PageNumber) (width height : ℕ)
    (observations : List (TextObservation K)) : Option (DocumentPage K) :=
  if width = 0 ∨ height = 0 ∨ maximumObservations < observations.length then none
  else
    let observations := observations.mergeSort fun a b => decide (a.readingOrder ≤ b.readingOrder)
    if acyclic [] [] observations then some ⟨page,width,height,observations⟩ else none

def originalPoint (trig : Trig K) (transforms : TransformChain K) (p : K×K) :
    Except Error (NormalizedPoint K) := do
  let (x,y) ← transforms.mapToOriginal trig p.1 p.2
  okOr .invalidPageObservation (NormalizedPoint.new x y)

/-- The corners of the region, which `bounds` has in the derived image. -/
def DetectionCandidate.corners (region : DetectionCandidate K) : List (K×K) :=
  PlaneMaps.corners region.left region.top region.right region.bottom

/-- The corners of the region on the original page. -/
def originalPolygon (trig : Trig K) (region : DetectionCandidate K)
    (transforms : TransformChain K) : Except Error (Polygon K) := do
  let points ← region.corners.mapM (originalPoint trig transforms)
  okOr .invalidPageObservation (Polygon.new points)

/-- The observation which `build_page_observations` makes of a region. -/
def observe (trig : Trig K) (page : PageNumber) (transforms : TransformChain K)
    (level : ObservationLevel) (pair : (DetectionCandidate K×RecognizedRegion K)×ℕ) :
    Except Error (TextObservation K) := do
  let ((region,recognition),readingOrder) := pair
  let readingOrder ← okOr .invalidPageObservation
    (if readingOrder < 2^32 then some readingOrder else none)
  let polygon ← originalPolygon trig region transforms
  let observationId ← okOr .invalidPageObservation
    (ObservationId.new ("obs_p"++toString page.value++"_r"++toString recognition.regionIndex))
  let confidence ← okOr .invalidPageObservation (Confidence.new recognition.confidence)
  okOr .invalidPageObservation
    (TextObservation.new observationId level recognition.text confidence polygon readingOrder none)

/-- Rows from top to bottom, each from left to right. -/
def before (a b : DetectionCandidate K×RecognizedRegion K) : Bool :=
  decide (a.1.top < b.1.top) || (decide (a.1.top = b.1.top) && decide (a.1.left ≤ b.1.left))

def buildPageObservations (trig : Trig K) (page : PageNumber) (width height : ℕ)
    (regions : List (DetectionCandidate K)) (recognitions : List (RecognizedRegion K))
    (transforms : TransformChain K) (level : ObservationLevel) :
    Except Error (DocumentPage K) := do
  let recognitions ← assembleRecognitions recognitions regions.length
  let pairs := (regions.zip recognitions).mergeSort before
  let observations ← pairs.zipIdx.mapM (observe trig page transforms level)
  okOr .invalidPageObservation (DocumentPage.new page width height observations)

/-! ### What each part returns -/

theorem okOr_ok {α : Type} {error : Error} {x : Option α} {a : α} :
    okOr error x = .ok a ↔ x = some a := by
  cases x with
  | none => simp [okOr]
  | some value => simp [okOr]

theorem zipIdx_index {outputs : List ℕ} (h : outputs = List.range outputs.length) :
    (outputs.zipIdx.any fun (output,expected) => output != expected) = false := by
  rw [List.any_eq_false]
  rintro ⟨output,expected⟩ hmem
  have hget := List.mem_zipIdx' hmem
  have hrange := congrArg (fun l : List ℕ => l[expected]?) h
  simp only [List.getElem?_eq_getElem hget.1, List.getElem?_range hget.1, Option.some.injEq]
    at hrange
  simp [hget.2, hrange]

/-- A batch with each region once is accepted, in the order of the regions. -/
theorem assembleRecognitions_ok (outputs : List (RecognizedRegion K)) (regionCount : ℕ)
    (hcover : (outputs.map (·.regionIndex)).Perm (List.range regionCount)) :
    ∃ sorted, assembleRecognitions outputs regionCount = .ok sorted ∧ sorted.Perm outputs ∧
      sorted.map (·.regionIndex) = List.range regionCount := by
  let sorted := outputs.mergeSort fun a b => decide (a.regionIndex ≤ b.regionIndex)
  have hperm : sorted.Perm outputs := List.mergeSort_perm _ _
  have hpair : sorted.Pairwise fun a b => a.regionIndex ≤ b.regionIndex :=
    sorted_byKey (·.regionIndex) outputs
  have hkeys : sorted.map (·.regionIndex) = List.range regionCount := by
    refine List.Perm.eq_of_pairwise (fun a b _ _ hab hba => Nat.le_antisymm hab hba)
      (List.pairwise_map.mpr hpair) ?_ ((hperm.map _).trans hcover)
    exact List.pairwise_lt_range.imp Nat.le_of_lt
  have hlength : outputs.length = regionCount := by
    have h := hcover.length_eq
    rwa [List.length_map, List.length_range] at h
  refine ⟨sorted,?_,hperm,hkeys⟩
  rw [assembleRecognitions, if_neg (fun hne => hne hlength)]
  show (if (sorted.zipIdx.any fun (output,expected) => output.regionIndex != expected) = true
    then _ else _) = _
  have hany := @zipIdx_index (sorted.map (·.regionIndex))
    (by rw [List.length_map, hperm.length_eq, hlength, hkeys])
  rw [List.zipIdx_map, List.any_map] at hany
  rw [if_neg]
  rw [Bool.not_eq_true]
  exact hany

/-! #### Identifiers -/

theorem decimal_suffix (n : ℕ) (k : ℕ) (hk : 0 < k) (h : n < 10^k) :
    Identifiers.byteLength (toString n).toList ≤ k ∧
      (toString n).toList.all (fun c => c.isAlphanum || c == '_') = true := by
  have hdigits := PageCheckpoint.toString_digits n
  have hbytes : ∀ cs : List Char, (∀ c ∈ cs, c.isDigit = true) →
      Identifiers.byteLength cs = cs.length := by
    intro cs hcs
    induction cs with
    | nil => rfl
    | cons c cs ih =>
      have hone : c.utf8Size = 1 := by
        have hc := hcs c List.mem_cons_self
        simp only [Char.isDigit, Bool.and_eq_true, decide_eq_true_eq] at hc
        exact Char.utf8Size_eq_one_iff.mpr (UInt32.le_trans hc.2 (by decide))
      rw [Identifiers.byteLength, List.map_cons, List.sum_cons, hone, List.length_cons, Nat.add_comm]
      congr 1
      exact ih fun d hd => hcs d (List.mem_cons_of_mem c hd)
  refine ⟨?_,?_⟩
  · rw [hbytes _ hdigits, show toString n = Nat.repr n from rfl, Nat.toList_repr]
    exact Nat.toDigits_length 10 n k hk h
  · rw [List.all_eq_true]
    intro c hc
    simp [Char.isAlphanum, hdigits c hc]

/-- An identifier made of a page and a number, with short texts before each of them,
is valid. -/
theorem numberedId_new (first second : List Char) (page : PageNumber) {index : ℕ}
    (h : index < 10^6) (hsize : Identifiers.byteLength first+Identifiers.byteLength second ≤ 48)
    (hfirst : first.all (fun c => c.isAlphanum || c == '_') = true) (hnonempty : first ≠ [])
    (hsecond : second.all (fun c => c.isAlphanum || c == '_') = true) {value : String}
    (hvalue : value.toList = "obs_".toList++(first++((toString page.value).toList++
      (second++(toString index).toList)))) :
    ∃ hvalid, ObservationId.new value = some ⟨value,hvalid⟩ := by
  have hpage := decimal_suffix page.value 10 (by omega) (lt_trans page.valid.2 (by norm_num))
  have hindex := decimal_suffix index 6 (by omega) h
  have hsum : ∀ cs ds : List Char, Identifiers.byteLength (cs++ds) =
      Identifiers.byteLength cs+Identifiers.byteLength ds := by
    intro cs ds
    rw [Identifiers.byteLength, List.map_append, List.sum_append]
    rfl
  have hvalid : Identifiers.validatedId value "obs_" = true := by
    rw [← String.ofList_toList (s := value), hvalue, Identifiers.validatedId,
      Identifiers.stripPrefix_append, Option.getD_some, Identifiers.validSuffix, hsum, hsum, hsum]
    simp only [List.all_append, hfirst, hsecond, hpage.2, hindex.2, Bool.and_eq_true,
      decide_eq_true_eq]
    refine ⟨⟨?_,by omega⟩,?_⟩
    · rw [List.isEmpty_eq_false_iff.mpr (List.append_ne_nil_of_left_ne_nil hnonempty _)]
      rfl
    · decide
  exact ⟨hvalid,by rw [ObservationId.new, dif_pos hvalid]⟩

/-- The identifier of every region of a page is valid. -/
theorem observationId_new (page : PageNumber) (index : ℕ) (h : index < 10^6) :
    ∃ hvalid, ObservationId.new ("obs_p"++toString page.value++"_r"++toString index) =
      some ⟨"obs_p"++toString page.value++"_r"++toString index,hvalid⟩ :=
  numberedId_new "p".toList "_r".toList page h (by decide) (by decide) (by decide) (by decide)
    (by simp [String.toList_append])

/-- Regions of one page have different identifiers. -/
theorem observationId_inj (page : PageNumber) {index other : ℕ}
    (h : "obs_p"++toString page.value++"_r"++toString index =
      "obs_p"++toString page.value++"_r"++toString other) : index = other := by
  rw [String.append_right_inj] at h
  exact Nat.repr_injective h

/-! #### Polygons -/

section Ordered
variable [IsStrictOrderedRing K] (trig : Trig K)

omit [IsStrictOrderedRing K] in
theorem corners_inSquare (region : DetectionCandidate K) : ∀ p ∈ region.corners, InSquare p := by
  have hvalid := region.valid
  simp only [validCandidate, validCoordinate, Bool.and_eq_true, decide_eq_true_eq] at hvalid
  intro p hp
  simp only [DetectionCandidate.corners, PlaneMaps.corners, List.mem_cons, List.not_mem_nil,
    or_false] at hp
  rcases hp with rfl | rfl | rfl | rfl
  · exact ⟨hvalid.1.1.1.1.1.1,hvalid.1.1.1.1.1.2⟩
  · exact ⟨hvalid.1.1.1.1.2,hvalid.1.1.1.1.1.2⟩
  · exact ⟨hvalid.1.1.1.1.2,hvalid.1.1.1.2⟩
  · exact ⟨hvalid.1.1.1.1.1.1,hvalid.1.1.1.2⟩

/-- A corner gets a point exactly when it lies in the original page. -/
theorem originalPoint_ok (transforms : TransformChain K) (p : K×K) (hp : InSquare p)
    (q : NormalizedPoint K) : originalPoint trig transforms p = .ok q ↔
      InSquare ((transforms.affine trig).apply p) ∧
        (q.x,q.y) = (transforms.affine trig).apply p := by
  rw [originalPoint, bind_ok, mapToOriginal_of_inside trig transforms p hp]
  constructor
  · rintro ⟨a,ha,hq⟩
    by_cases hin : InSquare ((transforms.affine trig).apply p)
    · rw [if_pos hin, Except.ok.injEq] at ha
      have hpoint := okOr_ok.mp hq
      rw [NormalizedPoint.new] at hpoint
      by_cases hvalid : (validCoordinate a.1 && validCoordinate a.2) = true
      · rw [dif_pos hvalid, Option.some.injEq] at hpoint
        refine ⟨hin,?_⟩
        rw [ha, ← hpoint]
      · rw [dif_neg hvalid] at hpoint
        exact absurd hpoint (by simp)
    · rw [if_neg hin] at ha
      exact absurd ha (by simp)
  · rintro ⟨hin,hq⟩
    refine ⟨_,if_pos hin,okOr_ok.mpr ?_⟩
    show NormalizedPoint.new ((transforms.affine trig).apply p).1
      ((transforms.affine trig).apply p).2 = some q
    rw [← hq, NormalizedPoint.new, dif_pos q.valid]

theorem original_points (transforms : TransformChain K) {points : List (NormalizedPoint K)}
    {ps : List (K×K)} (hps : ∀ p ∈ ps, InSquare p)
    (h : ps.mapM (originalPoint trig transforms) = .ok points) :
    (∀ p ∈ ps, InSquare ((transforms.affine trig).apply p)) ∧
      points.map (fun q => (q.x,q.y)) = ps.map (transforms.affine trig).apply := by
  have hall := Table.mapM_ok_iff.mp h
  clear h
  induction hall with
  | nil => simp
  | @cons p q ps points hq _ ih =>
    have hpoint := (originalPoint_ok trig transforms p (hps p List.mem_cons_self) q).mp hq
    have hrest := ih fun p hp => hps p (List.mem_cons_of_mem _ hp)
    constructor
    · intro r hr
      rcases List.mem_cons.mp hr with rfl | hr
      · exact hpoint.1
      · exact hrest.1 r hr
    · rw [List.map_cons, List.map_cons, hpoint.2, hrest.2]

omit [IsStrictOrderedRing K] in
theorem validPolygon_iff (points : List (NormalizedPoint K)) :
    validPolygon points = true ↔ 3 ≤ points.length ∧ epsilon < |signedDoubleArea points| := by
  simp [validPolygon]

/-- A region gets a polygon exactly when its corners lie in the original page and
its area is above the least one. -/
theorem originalPolygon_ok (region : DetectionCandidate K) (transforms : TransformChain K)
    (hdet : (transforms.affine trig).det^2 = 1) :
    (∃ polygon, originalPolygon trig region transforms = .ok polygon) ↔
      (∀ p ∈ region.corners, InSquare ((transforms.affine trig).apply p)) ∧
        epsilon < 2*((region.right-region.left)*(region.bottom-region.top)) := by
  have hsides : region.left < region.right ∧ region.top < region.bottom := by
    have hvalid := region.valid
    simp only [validCandidate, Bool.and_eq_true, decide_eq_true_eq] at hvalid
    exact ⟨hvalid.1.2,hvalid.2⟩
  have hpositive : 0 < 2*((region.right-region.left)*(region.bottom-region.top)) :=
    mul_pos (by norm_num) (mul_pos (sub_pos.mpr hsides.1) (sub_pos.mpr hsides.2))
  have harea : ∀ points : List (NormalizedPoint K),
      points.map (fun q => (q.x,q.y)) = region.corners.map (transforms.affine trig).apply →
      3 ≤ points.length ∧ |signedDoubleArea points| =
        2*((region.right-region.left)*(region.bottom-region.top)) := by
    intro points hmap
    constructor
    · have hlength := congrArg List.length hmap
      simp only [List.length_map, DetectionCandidate.corners, PlaneMaps.corners,
        List.length_cons, List.length_nil] at hlength
      omega
    · rw [signedDoubleArea, hmap, abs_doubledArea_map _ _ hdet, DetectionCandidate.corners,
        doubledArea_corners, abs_of_pos hpositive]
  constructor
  · rintro ⟨polygon,h⟩
    obtain ⟨points,hpoints,hpolygon⟩ := bind_ok.mp h
    have hmapped := original_points trig transforms (corners_inSquare region) hpoints
    have hnew := okOr_ok.mp hpolygon
    rw [Polygon.new] at hnew
    by_cases hvalid : validPolygon points = true
    · have hlarge := ((validPolygon_iff points).mp hvalid).2
      rw [(harea points hmapped.2).2] at hlarge
      exact ⟨hmapped.1,hlarge⟩
    · rw [dif_neg hvalid] at hnew
      exact absurd hnew (by simp)
  · rintro ⟨hcorners,hlarge⟩
    have heach : ∀ p ∈ region.corners, ∃ q, originalPoint trig transforms p = .ok q := by
      intro p hp
      have hvalid := (validCoordinates_iff _).mpr (hcorners p hp)
      exact ⟨⟨_,_,hvalid⟩,(originalPoint_ok trig transforms p (corners_inSquare region p hp)
        ⟨_,_,hvalid⟩).mpr ⟨hcorners p hp,rfl⟩⟩
    obtain ⟨points,hpoints⟩ := Table.mapM_ok_of_forall heach
    have hmapped := original_points trig transforms (corners_inSquare region) hpoints
    have hvalid : validPolygon points = true := by
      rw [validPolygon_iff, (harea points hmapped.2).2]
      exact ⟨(harea points hmapped.2).1,hlarge⟩
    exact ⟨⟨points,hvalid⟩,bind_ok.mpr ⟨points,hpoints,okOr_ok.mpr (by
      rw [Polygon.new, dif_pos hvalid])⟩⟩

end Ordered

/-! #### Pages -/

section Pages
variable (trig : Trig K)

def idText (page : PageNumber) (index : ℕ) : String :=
  "obs_p"++toString page.value++"_r"++toString index

theorem observe_some {page : PageNumber} {transforms : TransformChain K} {level : ObservationLevel}
    {pair : (DetectionCandidate K×RecognizedRegion K)×ℕ} {o : TextObservation K}
    (h : observe trig page transforms level pair = .ok o) :
    (∃ polygon, originalPolygon trig pair.1.1 transforms = .ok polygon) ∧
      o.observationId.asStr = idText page pair.1.2.regionIndex ∧ o.readingOrder = pair.2 ∧
      o.parentObservationId = none := by
  obtain ⟨k,hk,h⟩ := bind_ok.mp h
  obtain ⟨polygon,hpolygon,h⟩ := bind_ok.mp h
  obtain ⟨id,hid,h⟩ := bind_ok.mp h
  obtain ⟨confidence,_,h⟩ := bind_ok.mp h
  have hnew := okOr_ok.mp h
  rw [TextObservation.new] at hnew
  by_cases hvalid : validObservation pair.1.2.text id none = true
  · rw [dif_pos hvalid, Option.some.injEq] at hnew
    have horder : pair.2 = k := by
      have hsome := okOr_ok.mp hk
      by_cases hlt : pair.2 < 2^32
      · rwa [if_pos hlt, Option.some.injEq] at hsome
      · rw [if_neg hlt] at hsome
        exact absurd hsome (by simp)
    have hidText : id.asStr = idText page pair.1.2.regionIndex := by
      have hsome := okOr_ok.mp hid
      rw [← idText, ObservationId.new] at hsome
      by_cases hv : Identifiers.validatedId (idText page pair.1.2.regionIndex) "obs_" = true
      · rw [dif_pos hv, Option.some.injEq] at hsome
        rw [← hsome]
      · rw [dif_neg hv] at hsome
        exact absurd hsome (by simp)
    rw [← hnew]
    exact ⟨⟨polygon,hpolygon⟩,hidText,horder.symm,rfl⟩
  · rw [dif_neg hvalid] at hnew
    exact absurd hnew (by simp)

theorem observe_exists (page : PageNumber) (transforms : TransformChain K)
    (level : ObservationLevel) (pair : (DetectionCandidate K×RecognizedRegion K)×ℕ)
    (horder : pair.2 < 2^32) (hindex : pair.1.2.regionIndex < 10^6)
    (h : ∃ polygon, originalPolygon trig pair.1.1 transforms = .ok polygon) :
    ∃ o, observe trig page transforms level pair = .ok o := by
  obtain ⟨polygon,hpolygon⟩ := h
  obtain ⟨hid,hnew⟩ := observationId_new page pair.1.2.regionIndex hindex
  have hvalid := pair.1.2.valid
  simp only [validText, Bool.and_eq_true] at hvalid
  have hsize : pair.1.2.text.utf8ByteSize ≤ 4096 := of_decide_eq_true hvalid.1.1.2
  have hconfidence : Confidence.new pair.1.2.confidence = some ⟨_,hvalid.1.2⟩ := by
    rw [Confidence.new, dif_pos hvalid.1.2]
  have hobservation : validObservation pair.1.2.text ⟨_,hid⟩ none = true := by
    rw [validObservation, Bool.and_eq_true, Bool.and_eq_true]
    exact ⟨⟨hvalid.1.1.1,decide_eq_true (le_trans hsize (by decide))⟩,rfl⟩
  refine ⟨⟨⟨_,hid⟩,level,pair.1.2.text,⟨_,hvalid.1.2⟩,polygon,pair.2,none,hobservation⟩,?_⟩
  refine bind_ok.mpr ⟨pair.2,by rw [if_pos horder]; rfl,?_⟩
  refine bind_ok.mpr ⟨polygon,hpolygon,?_⟩
  refine bind_ok.mpr ⟨_,okOr_ok.mpr hnew,?_⟩
  refine bind_ok.mpr ⟨_,okOr_ok.mpr hconfidence,okOr_ok.mpr ?_⟩
  rw [TextObservation.new, dif_pos hobservation]

theorem acyclic_of_nodup (os : List (TextObservation K)) (seenIds : List ObservationId)
    (seenOrders : List ℕ) (hparent : ∀ o ∈ os, o.parentObservationId = none)
    (hids : ∀ o ∈ os, o.observationId ∉ seenIds) (horders : ∀ o ∈ os, o.readingOrder ∉ seenOrders)
    (hid : (os.map (·.observationId)).Nodup) (horder : (os.map (·.readingOrder)).Nodup) :
    acyclic seenIds seenOrders os = true := by
  induction os generalizing seenIds seenOrders with
  | nil => rfl
  | cons o os ih =>
    rw [List.map_cons, List.nodup_cons] at hid horder
    have hmem := List.mem_cons_self (a := o) (l := os)
    have hrest := ih (o.observationId::seenIds) (o.readingOrder::seenOrders)
      (fun x hx => hparent x (List.mem_cons_of_mem o hx))
      (fun x hx hseen => by
        rcases List.mem_cons.mp hseen with heq | hseen
        · exact hid.1 (heq ▸ List.mem_map_of_mem hx)
        · exact hids x (List.mem_cons_of_mem o hx) hseen)
      (fun x hx hseen => by
        rcases List.mem_cons.mp hseen with heq | hseen
        · exact horder.1 (heq ▸ List.mem_map_of_mem (f := TextObservation.readingOrder) hx)
        · exact horders x (List.mem_cons_of_mem o hx) hseen)
      hid.2 horder.2
    rw [acyclic, hrest, hparent o hmem]
    simp [hids o hmem, horders o hmem]

theorem documentPage_new (page : PageNumber) (width height : ℕ) (os : List (TextObservation K))
    (hw : 1 ≤ width) (hh : 1 ≤ height) (hlength : os.length ≤ maximumObservations)
    (hparent : ∀ o ∈ os, o.parentObservationId = none)
    (hid : (os.map (·.observationId)).Nodup) (horder : (os.map (·.readingOrder)).Nodup) :
    ∃ result, DocumentPage.new page width height os = some result := by
  let sorted := os.mergeSort fun a b => decide (a.readingOrder ≤ b.readingOrder)
  have hperm : sorted.Perm os := List.mergeSort_perm _ _
  have hacyclic : acyclic [] [] sorted = true :=
    acyclic_of_nodup sorted [] [] (fun o ho => hparent o (hperm.mem_iff.mp ho))
      (fun _ _ => List.not_mem_nil) (fun _ _ => List.not_mem_nil)
      ((hperm.map _).nodup_iff.mpr hid) ((hperm.map _).nodup_iff.mpr horder)
  refine ⟨⟨page,width,height,sorted⟩,?_⟩
  rw [DocumentPage.new, if_neg (by omega)]
  exact if_pos hacyclic

theorem documentPage_length {page : PageNumber} {width height : ℕ}
    {os : List (TextObservation K)} {result : DocumentPage K}
    (h : DocumentPage.new page width height os = some result) :
    os.length ≤ maximumObservations := by
  by_cases hbad : width = 0 ∨ height = 0 ∨ maximumObservations < os.length
  · rw [DocumentPage.new, if_pos hbad] at h
    exact absurd h (by simp)
  · omega

/-- A page is built of a batch which covers its regions exactly when every region
has a polygon and there are not too many of them. -/
theorem build_ok (page : PageNumber) (width height : ℕ) (hw : 1 ≤ width) (hh : 1 ≤ height)
    (regions : List (DetectionCandidate K)) (recognitions : List (RecognizedRegion K))
    (hcover : (recognitions.map (·.regionIndex)).Perm (List.range regions.length))
    (transforms : TransformChain K) (level : ObservationLevel) :
    (∃ result, buildPageObservations trig page width height regions recognitions transforms level =
      .ok result) ↔ regions.length ≤ maximumObservations ∧
      ∀ region ∈ regions, ∃ polygon, originalPolygon trig region transforms = .ok polygon := by
  obtain ⟨sorted,hassemble,hsorted,hkeys⟩ :=
    assembleRecognitions_ok recognitions regions.length hcover
  have hlength : regions.length = sorted.length := by
    have h := congrArg List.length hkeys
    rw [List.length_map, List.length_range] at h
    exact h.symm
  let pairs := (regions.zip sorted).mergeSort before
  have hpairs : pairs.Perm (regions.zip sorted) := List.mergeSort_perm _ _
  have hcount : pairs.length = regions.length := by
    rw [hpairs.length_eq, List.length_zip, ← hlength, Nat.min_self]
  have hregion : (pairs.map (·.1)).Perm regions := by
    have h := hpairs.map Prod.fst
    rwa [List.map_fst_zip hlength.le] at h
  have hindex : (pairs.map (·.2.regionIndex)).Perm (List.range regions.length) := by
    have h := (hpairs.map Prod.snd).map RecognizedRegion.regionIndex
    rw [List.map_snd_zip hlength.ge, hkeys, List.map_map] at h
    exact h
  have hbuild : ∀ result, buildPageObservations trig page width height regions recognitions
      transforms level = .ok result ↔ ∃ os, pairs.zipIdx.mapM
        (observe trig page transforms level) = .ok os ∧
        DocumentPage.new page width height os = some result := by
    intro result
    rw [buildPageObservations, bind_ok]
    constructor
    · rintro ⟨outputs,houtputs,h⟩
      rw [hassemble, Except.ok.injEq] at houtputs
      subst outputs
      obtain ⟨os,hos,hnew⟩ := bind_ok.mp h
      exact ⟨os,hos,okOr_ok.mp hnew⟩
    · rintro ⟨os,hos,hnew⟩
      exact ⟨sorted,hassemble,bind_ok.mpr ⟨os,hos,okOr_ok.mpr hnew⟩⟩
  constructor
  · rintro ⟨result,h⟩
    obtain ⟨os,hos,hnew⟩ := (hbuild result).mp h
    have hall := Table.mapM_ok_iff.mp hos
    constructor
    · have h := documentPage_length hnew
      rwa [← hall.length_eq, List.length_zipIdx, hcount] at h
    · intro region hmem
      obtain ⟨pair,hpair,rfl⟩ := List.mem_map.mp (hregion.mem_iff.mpr hmem)
      obtain ⟨k,hk⟩ := List.getElem_of_mem hpair
      have hidx : (pair,k) ∈ pairs.zipIdx := by
        rw [List.mk_mem_zipIdx_iff_getElem?, List.getElem?_eq_some_iff]
        exact hk
      obtain ⟨o,ho⟩ := forall₂_exists hall _ hidx
      exact (observe_some trig ho).1
  · rintro ⟨hmax,hpolygon⟩
    have hobserve : ∀ entry ∈ pairs.zipIdx, ∃ o, observe trig page transforms level entry = .ok o := by
      rintro ⟨pair,k⟩ hentry
      have hk := List.mem_zipIdx' hentry
      have hpair : pair ∈ pairs := hk.2 ▸ List.getElem_mem hk.1
      have hlt : pair.2.regionIndex < regions.length :=
        List.mem_range.mp (hindex.mem_iff.mp (List.mem_map_of_mem hpair))
      have hlimit : regions.length ≤ 100000 := hmax
      exact observe_exists trig page transforms level (pair,k) (by simp only; omega)
        (by simp only; omega)
        (hpolygon pair.1 (hregion.mem_iff.mp (List.mem_map_of_mem hpair)))
    obtain ⟨os,hos⟩ := Table.mapM_ok_of_forall hobserve
    have hall := (Table.mapM_ok_iff.mp hos).imp fun _ _ ho => (observe_some trig ho).2
    have hids : os.map (·.observationId.asStr) =
        pairs.zipIdx.map fun entry => idText page entry.1.2.regionIndex :=
      forall₂_map_eq (hall.imp fun _ _ h => h.1)
    have horders : os.map (·.readingOrder) = pairs.zipIdx.map (·.2) :=
      forall₂_map_eq (hall.imp fun _ _ h => h.2.1)
    have hparents : os.map (·.parentObservationId) = pairs.zipIdx.map fun _ => none :=
      forall₂_map_eq (hall.imp fun _ _ h => h.2.2)
    have hidNodup : (os.map (·.observationId.asStr)).Nodup := by
      have hnodup : (pairs.map (·.2.regionIndex)).Nodup :=
        hindex.nodup_iff.mpr List.nodup_range
      have h := hnodup.map fun a b hab => observationId_inj page hab
      rw [hids]
      have hfst : pairs.zipIdx.map (fun entry => idText page entry.1.2.regionIndex) =
          (pairs.zipIdx.map Prod.fst).map fun pair => idText page pair.2.regionIndex := by
        rw [List.map_map]
        rfl
      rw [hfst, List.zipIdx_map_fst]
      rw [List.map_map] at h
      exact h
    have hnew := documentPage_new page width height os hw hh ?_ ?_ ?_ ?_
    · obtain ⟨result,hresult⟩ := hnew
      exact ⟨result,(hbuild result).mpr ⟨os,hos,hresult⟩⟩
    · rw [← hall.length_eq, List.length_zipIdx, hcount]
      exact hmax
    · intro o ho
      have hmem := List.mem_map_of_mem (f := fun o : TextObservation K => o.parentObservationId) ho
      rw [hparents] at hmem
      obtain ⟨_,_,h⟩ := List.mem_map.mp hmem
      exact h.symm
    · exact List.Nodup.of_map (fun id : ObservationId => id.asStr) (by rwa [List.map_map])
    · rw [horders, List.zipIdx_map_snd]
      exact List.nodup_range'

end Pages

/-! ### Recorded chains -/

section Recorded
variable [IsStrictOrderedRing K] (trig : Trig K)

/-- Flips and quarter turns. -/
def isTurn : TransformStep K → Bool
  | .flipHorizontal | .flipVertical | .rotation _ => true
  | .crop _ | .deskew _ => false

theorem turn_inSquare (step : TransformStep K) (h : isTurn step = true) (p : K×K) :
    InSquare (step.toOriginal trig p) ↔ InSquare p := by
  have hflip : ∀ value : K, (0 ≤ 1-value ∧ 1-value ≤ 1) ↔ 0 ≤ value ∧ value ≤ 1 := by
    intro value
    constructor
    · exact fun h => ⟨by linarith,by linarith⟩
    · exact fun h => ⟨by linarith,by linarith⟩
  cases step with
  | crop region => exact absurd h (by simp [isTurn])
  | deskew angle => exact absurd h (by simp [isTurn])
  | flipHorizontal => simp only [TransformStep.toOriginal, InSquare, hflip]
  | flipVertical => simp only [TransformStep.toOriginal, InSquare, hflip]
  | rotation rotation =>
    cases rotation with
    | clockwise90 => simp only [TransformStep.toOriginal, InSquare, hflip]; tauto
    | clockwise180 => simp only [TransformStep.toOriginal, InSquare, hflip]
    | clockwise270 => simp only [TransformStep.toOriginal, InSquare, hflip]; tauto

theorem turns_inSquare (steps : List (TransformStep K)) (h : ∀ step ∈ steps, isTurn step = true)
    (p : K×K) : InSquare ((PlaneMaps.chain (steps.map (TransformStep.affine trig))).apply p) ↔
      InSquare p := by
  induction steps with
  | nil => simp
  | cons step steps ih =>
    rw [List.map_cons, chain_cons, apply_comp, ← toOriginal_affine,
      turn_inSquare trig step (h step List.mem_cons_self)]
    exact ih fun s hs => h s (List.mem_cons_of_mem step hs)

omit [IsStrictOrderedRing K] in
theorem recordOrientation_turns (orientation : Orientation) :
    ∀ step ∈ (recordOrientation (TransformChain.new (K := K)) orientation).steps,
      isTurn step = true := by
  intro step hstep
  cases orientation <;> simp [recordOrientation, TransformChain.new, TransformChain.push,
    TransformChain.pushRotation, TransformChain.pushFlipHorizontal,
    TransformChain.pushFlipVertical] at hstep
  all_goals first
    | (subst hstep; rfl)
    | (rcases hstep with rfl | rfl <;> rfl)

/-- A point turned about the centre of the page. -/
def turned (cosine sine : K) (p : K×K) : K×K :=
  (1/2+cosine*(p.1-1/2)+sine*(p.2-1/2),1/2-sine*(p.1-1/2)+cosine*(p.2-1/2))

variable [FloorRing K] (image : GrayImage) (orientation : Orientation) (policy : DeskewPolicy K)
  (estimate : SkewEstimate K)

def deskewed : DeskewResult K := deskewImage trig (prepared image orientation) policy estimate

omit [IsStrictOrderedRing K] in
/-- The recorded chain is that of the orientation, with the correction after it
when it was applied. -/
theorem deskewed_steps :
    (deskewed trig image orientation policy estimate).image.transforms.steps =
      (recordOrientation TransformChain.new orientation).steps++
        (if (deskewed trig image orientation policy estimate).decision = .applied then
          [.deskew estimate.correction] else []) := by
  rw [deskewed, deskewImage]
  by_cases hangle : |estimate.correction.degrees| < policy.minimumMaterialDegrees
  · simp [hangle, prepared]
  by_cases hconfidence : estimate.confidence < policy.minimumConfidence
  · simp [hangle, hconfidence, prepared]
  · simp [hangle, hconfidence, prepared, TransformChain.pushDeskew, TransformChain.push]

theorem deskewed_inSquare (p : K×K) (hp : InSquare p) :
    InSquare (((deskewed trig image orientation policy estimate).image.transforms.affine
      trig).apply p) ↔ ((deskewed trig image orientation policy estimate).decision = .applied →
        InSquare (turned (trig.cosine estimate.correction.degrees)
          (trig.sine estimate.correction.degrees) p)) := by
  rw [TransformChain.affine, deskewed_steps, List.map_append, chain_append,
    turns_inSquare trig _ (recordOrientation_turns orientation)]
  by_cases happlied : (deskewed trig image orientation policy estimate).decision = .applied
  · rw [if_pos happlied, List.map_cons, chain_cons, apply_comp, List.map_nil, chain_nil, apply_id,
      ← toOriginal_affine]
    exact ⟨fun h _ => h,fun h => h happlied⟩
  · rw [if_neg happlied, List.map_nil, chain_nil, apply_id]
    exact ⟨fun _ h => absurd h happlied,fun _ => hp⟩

omit [IsStrictOrderedRing K] in
theorem deskewed_det :
    ((deskewed trig image orientation policy estimate).image.transforms.affine trig).det^2 = 1 := by
  apply det_chain_sq
  intro m hm
  obtain ⟨step,hstep,rfl⟩ := List.mem_map.mp hm
  apply det_sq
  rintro region rfl
  rw [deskewed_steps, List.mem_append] at hstep
  rcases hstep with hturn | hdeskew
  · exact absurd (recordOrientation_turns orientation _ hturn) (by simp [isTurn])
  · by_cases happlied : (deskewed trig image orientation policy estimate).decision = .applied
    · simp [happlied] at hdeskew
    · simp [happlied] at hdeskew

/-- A prepared page is reported exactly when it has no more regions than a page may
have, each with an area above the least one and, after a deskew, with corners which
stay in the page when they are turned back. -/
theorem reportable_iff (page : PageNumber) (width height : ℕ) (hw : 1 ≤ width) (hh : 1 ≤ height)
    (regions : List (DetectionCandidate K)) (recognitions : List (RecognizedRegion K))
    (hcover : (recognitions.map (·.regionIndex)).Perm (List.range regions.length))
    (level : ObservationLevel) :
    (∃ result, buildPageObservations trig page width height regions recognitions
        (deskewed trig image orientation policy estimate).image.transforms level = .ok result ∧
      ∀ o ∈ result.observations, ∀ q ∈ o.polygon.points, InSquare (q.x,q.y)) ↔
      regions.length ≤ maximumObservations ∧ ∀ region ∈ regions,
        epsilon < 2*((region.right-region.left)*(region.bottom-region.top)) ∧
        ((deskewed trig image orientation policy estimate).decision = .applied →
          ∀ p ∈ region.corners, InSquare (turned (trig.cosine estimate.correction.degrees)
            (trig.sine estimate.correction.degrees) p)) := by
  have hbuild := build_ok trig page width height hw hh regions recognitions hcover
    (deskewed trig image orientation policy estimate).image.transforms level
  have hpolygon : ∀ region : DetectionCandidate K,
      (∃ polygon, originalPolygon trig region
        (deskewed trig image orientation policy estimate).image.transforms = .ok polygon) ↔
      epsilon < 2*((region.right-region.left)*(region.bottom-region.top)) ∧
        ((deskewed trig image orientation policy estimate).decision = .applied →
          ∀ p ∈ region.corners, InSquare (turned (trig.cosine estimate.correction.degrees)
            (trig.sine estimate.correction.degrees) p)) := by
    intro region
    rw [originalPolygon_ok trig region _
      (deskewed_det trig image orientation policy estimate), and_comm]
    apply and_congr_right
    intro _
    constructor
    · intro h happlied p hp
      exact (deskewed_inSquare trig image orientation policy estimate p
        (corners_inSquare region p hp)).mp (h p hp) happlied
    · intro h p hp
      exact (deskewed_inSquare trig image orientation policy estimate p
        (corners_inSquare region p hp)).mpr fun happlied => h happlied p hp
  have hinside : ∀ result : DocumentPage K, ∀ o ∈ result.observations,
      ∀ q ∈ o.polygon.points, InSquare (q.x,q.y) :=
    fun _ _ _ q _ => (validCoordinates_iff (q.x,q.y)).mp q.valid
  constructor
  · rintro ⟨result,hresult,_⟩
    obtain ⟨hmax,hall⟩ := hbuild.mp ⟨result,hresult⟩
    exact ⟨hmax,fun region hregion => (hpolygon region).mp (hall region hregion)⟩
  · rintro ⟨hmax,hall⟩
    obtain ⟨result,hresult⟩ := hbuild.mpr
      ⟨hmax,fun region hregion => (hpolygon region).mpr (hall region hregion)⟩
    exact ⟨result,hresult,hinside result⟩

end Recorded

end Engine

/-! ### A page which was turned by six degrees -/

section Skewed

/-- Ruled lines which rise by one pixel in ten. -/
def ruledLines : GrayImage := ⟨512,256,fun x y => if (y+512-x/10)%24 < 4 then 0 else 255⟩

noncomputable def policy : DeskewPolicy ℝ := ⟨1/10,1/2,by
  rw [validPolicy, Bool.and_eq_true]
  exact ⟨decide_eq_true (by norm_num),decide_eq_true (by norm_num [maximumDeskewDegrees])⟩⟩

noncomputable def estimate : SkewEstimate ℝ := ⟨sixDegrees,1/2,32768⟩

theorem applied : (deskewed realTrig ruledLines .noTransforms policy estimate).decision =
    .applied := by
  have hangle : ¬|estimate.correction.degrees| < policy.minimumMaterialDegrees := by
    norm_num [estimate, policy, sixDegrees]
  have hconfidence : ¬estimate.confidence < policy.minimumConfidence := by
    norm_num [estimate, policy]
  rw [deskewed, deskewImage, if_neg hangle, if_neg hconfidence]

theorem validCoordinate_half : validCoordinate (1/2 : ℝ) = true := decide_eq_true (by norm_num)

/-- A square region. -/
noncomputable def square (start stop : ℝ) (h : 0 ≤ start ∧ start < stop ∧ stop ≤ 1) :
    DetectionCandidate ℝ := ⟨start,start,stop,stop,1/2,by
  have hstart : validCoordinate start = true := decide_eq_true ⟨h.1,by linarith⟩
  have hstop : validCoordinate stop = true := decide_eq_true ⟨by linarith,h.2.2⟩
  rw [validCandidate, hstart, hstop, validCoordinate_half, decide_eq_true h.2.1]
  rfl⟩

noncomputable def recognized : RecognizedRegion ℝ := ⟨0,"Total",1/2,[],by
  rw [validCoordinate_half]
  decide⟩

noncomputable def border : DetectionCandidate ℝ := square 0 (1/2) (by norm_num)

noncomputable def central : DetectionCandidate ℝ := square (1/4) (3/4) (by norm_num)

def firstPage : PageNumber := ⟨1,by decide⟩

/-- The first corner of the turned image is white paper outside of the original page,
and the page is refused for it. -/
theorem border_region_fails :
    ¬∃ result, buildPageObservations realTrig firstPage 512 256 [border] [recognized]
      (deskewed realTrig ruledLines .noTransforms policy estimate).image.transforms .line =
        .ok result := by
  intro h
  have hbuild := (build_ok realTrig firstPage 512 256 (by omega) (by omega) [border] [recognized]
    (List.Perm.refl _) _ .line).mp h
  have hpolygon := (originalPolygon_ok realTrig border _
    (deskewed_det realTrig ruledLines .noTransforms policy estimate)).mp
    (hbuild.2 border List.mem_cons_self)
  have hcorner : ((0,0) : ℝ×ℝ) ∈ border.corners := List.mem_cons_self
  have hturned := (deskewed_inSquare realTrig ruledLines .noTransforms policy estimate (0,0)
    (corners_inSquare border _ hcorner)).mp (hpolygon.1 _ hcorner) applied
  have hsine := sine_pos sixDegrees (by norm_num [sixDegrees])
  have hcosine := cosine_pos sixDegrees
  have hunit := realTrig.unit sixDegrees.degrees
  have hle : realTrig.cosine sixDegrees.degrees+realTrig.sine sixDegrees.degrees ≤ 1 := by
    have hx := hturned.1.1
    simp only [turned, estimate] at hx
    linarith
  nlinarith [mul_pos hsine hcosine]

/-- The same page with a region in its middle is reported. -/
theorem central_region_reported :
    ∃ result, buildPageObservations realTrig firstPage 512 256 [central] [recognized]
        (deskewed realTrig ruledLines .noTransforms policy estimate).image.transforms .line =
          .ok result ∧
      ∀ o ∈ result.observations, ∀ q ∈ o.polygon.points, InSquare (q.x,q.y) := by
  apply (reportable_iff realTrig ruledLines .noTransforms policy estimate firstPage 512 256
    (by omega) (by omega) [central] [recognized] (List.Perm.refl _) .line).mpr
  refine ⟨by decide,?_⟩
  intro region hregion
  rw [List.mem_singleton] at hregion
  subst region
  constructor
  · norm_num [epsilon, central, square]
  · intro _ p hp
    have hnear : (p.1-1/2)^2+(p.2-1/2)^2 ≤ 1/4 := by
      simp only [DetectionCandidate.corners, PlaneMaps.corners, central, square, List.mem_cons,
        List.not_mem_nil, or_false] at hp
      rcases hp with rfl | rfl | rfl | rfl <;> norm_num
    have h := deskew_inSquare realTrig sixDegrees (p.1-1/2) (p.2-1/2) hnear
    have hp : ((1/2+(p.1-1/2),1/2+(p.2-1/2)) : ℝ×ℝ) = p := by ext <;> ring
    rw [hp] at h
    exact h

end Skewed

end DocumentIntelligence.PageObservations
