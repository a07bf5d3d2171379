import DocumentIntelligence.Inspection
import DocumentIntelligence.PageObservations
import Mathlib.Data.List.TakeWhile

/-!
# The text layer of native documents

The lines which the layout tool reports for a PDF become the observations of its
pages. A line whose box is too small for a polygon fails the whole document, and
this is the only way in which a line can.
-/

set_option autoImplicit false

namespace DocumentIntelligence.NativeText
open Inspection (Error okOr okOr_ok)
open Table (bind_ok forall₂_map_eq forall₂_exists)
open DocumentPages (ObservationId ObservationLevel isWhitespace maximumObservations
  validObservation)
open PageObservations (PageNumber Confidence NormalizedPoint Polygon TextObservation DocumentPage
  epsilon signedDoubleArea validPolygon_iff)
open PageTransforms (validCoordinate)

/-! ### The conversion -/

/-- A page of the inspection report, whose number is a `u32`. -/
structure PageGeometry where
  page : PageNumber
  width : ℕ
  height : ℕ
  sizes_valid : 1 ≤ width ∧ 1 ≤ height ∧ width*height ≤ 100000000

/-- What the conversion reads of the report. -/
structure InspectionReport where
  pageCount : ℕ
  pages : List PageGeometry

structure Word where
  text : String
  deriving DecidableEq, Repr

/-- Every report of the inspection has such pages. -/
theorem sound_geometries {limits : Inspection.DocumentLimits} {report : Inspection.InspectionReport}
    (h : report.Sound limits) : ∃ pages : List PageGeometry, pages.length = report.pageCount ∧
      pages.map (fun g => (g.page.value,g.width,g.height)) =
        report.pages.map fun g => (g.page,g.width,g.height) := by
  have hnumber : ∀ g ∈ report.pages, g.page < 2^32 := by
    intro g hg
    have hpage : g.page ∈ (List.range report.pages.length).map (·+1) :=
      h.numbered ▸ List.mem_map_of_mem hg
    obtain ⟨index,hindex,hpage⟩ := List.mem_map.mp hpage
    have hpages := h.count_bounded.2.trans limits.pages_bounded.2
    have hlt := List.mem_range.mp hindex
    rw [Inspection.hardMaximumPages] at hpages
    omega
  refine ⟨report.pages.pmap (fun g hg => ⟨⟨g.page,g.page_pos,hg⟩,g.width,g.height,g.sizes_valid⟩)
    hnumber,?_,?_⟩
  · rw [List.length_pmap, h.count]
  · rw [List.map_pmap]
    exact List.pmap_eq_map (f := fun g : Schema.PageGeometry => (g.page,g.width,g.height)) hnumber

section Layout
variable (K : Type)

structure Line where
  left : K
  top : K
  right : K
  bottom : K
  words : List Word

structure Block where
  lines : List (Line K)

structure Flow where
  blocks : List (Block K)

structure PdfPage where
  width : K
  height : K
  flows : List (Flow K)

/-- A box in the coordinates of the page. -/
structure Box where
  left : K
  top : K
  right : K
  bottom : K

end Layout

section Conversion
variable {K : Type} [Field K] [LinearOrder K]

def PdfPage.lines (page : PdfPage K) : List (Line K) :=
  (page.flows.flatMap (·.blocks)).flatMap (·.lines)

def Line.text (line : Line K) : String := " ".intercalate (line.words.map (·.text))

/-- `text.trim().is_empty()` -/
def blank (text : String) : Bool := text.toList.all isWhitespace

def isControl (c : Char) : Bool := decide (c.toNat < 32) || decide (127 ≤ c.toNat ∧ c.toNat < 160)

/-- A text which makes the text layer of its page unusable. -/
def unreadable (text : String) : Bool :=
  decide (65536 < text.utf8ByteSize) ||
    text.toList.any fun c => c.toNat == 0xfffd || (isControl c && !isWhitespace c)

def clamp (value : K) : K := max 0 (min value 1)

/-- The boxes of a page may follow another rotation than its sizes. -/
def layoutSize (page : PdfPage K) (geometry : PageGeometry) : K×K :=
  if geometry.width ≠ geometry.height ∧
      ¬(geometry.height < geometry.width ↔ page.height < page.width) then
    (page.height,page.width)
  else (page.width,page.height)

def Line.box (size : K×K) (line : Line K) : Box K :=
  ⟨clamp (line.left/size.1),clamp (line.top/size.2),
    clamp (line.right/size.1),clamp (line.bottom/size.2)⟩

def Box.corners (box : Box K) : List (K×K) :=
  PlaneMaps.corners box.left box.top box.right box.bottom

def Box.polygon (box : Box K) : Except Error (Polygon K) := do
  let points ← box.corners.mapM fun p => okOr .invalidDocument (NormalizedPoint.new p.1 p.2)
  okOr .invalidDocument (Polygon.new points)

def lineId (page : PageNumber) (order : ℕ) : String :=
  "obs_native_p"++toString page.value++"_line"++toString order

/-- The observation of a line, with `count` observations made before it. -/
def observeLine (page : PageNumber) (size : K×K) (count : ℕ) (line : Line K) :
    Except Error (TextObservation K) := do
  let polygon ← (line.box size).polygon
  let order ← okOr .nativeTextLimitExceeded (if count < 2^32 then some count else none)
  let observationId ← okOr .invalidDocument
    (PageObservations.ObservationId.new (lineId page order))
  let confidence ← okOr .invalidDocument (Confidence.new 1)
  okOr .invalidDocument
    (TextObservation.new observationId .line line.text confidence polygon order none)

variable (K) in
/-- What the loop does with one line. -/
inductive Reading where
  | skipped
  | unusable
  | observed (observation : TextObservation K)

def readLine (page : PageNumber) (size : K×K) (count : ℕ) (line : Line K) :
    Except Error (Reading K) :=
  if blank line.text then .ok .skipped
  else if unreadable line.text then .ok .unusable
  else if (line.box size).right ≤ (line.box size).left ∨
      (line.box size).bottom ≤ (line.box size).top then .ok .skipped
  else do
    let observation ← observeLine page size count line
    .ok (.observed observation)

/-- The observations of a page, and whether its text layer is usable. -/
def readLines (page : PageNumber) (size : K×K) (observations : List (TextObservation K)) :
    List (Line K) → Except Error (List (TextObservation K)×Bool)
  | [] => .ok (observations,true)
  | line::lines => do
    match ← readLine page size observations.length line with
    | .skipped => readLines page size observations lines
    | .unusable => .ok (observations,false)
    | .observed observation => readLines page size (observations++[observation]) lines

def convertPage (pair : PdfPage K×PageGeometry) : Except Error (DocumentPage K) :=
  if pair.1.width ≤ 0 ∨ pair.1.height ≤ 0 then .error .invalidDocument
  else do
    let read ← readLines pair.2.page (layoutSize pair.1 pair.2) [] pair.1.lines
    okOr .invalidDocument (DocumentPage.new pair.2.page pair.2.width pair.2.height
      (if read.2 then read.1 else []))

/-- The report is that of `inspect_document`, and the layout is what `pdf_layout`
returns, read as XML. -/
def extractNativeDocument (inspected : Except Error InspectionReport) (contentType : String)
    (isAbsolute : Bool) (layout : Except Error (List (PdfPage K))) :
    Except Error (List (DocumentPage K)) := do
  let report ← inspected
  if contentType ≠ "application/pdf" then
    report.pages.mapM fun geometry => okOr .invalidDocument
      (DocumentPage.new geometry.page geometry.width geometry.height [])
  else if !isAbsolute then .error .nativeTextUnavailable
  else do
    let pages ← layout
    if pages.length ≠ report.pageCount then .error .invalidDocument
    else (pages.zip report.pages).mapM convertPage

/-! ### What is asked of a page -/

def Line.unusable (line : Line K) : Bool := !blank line.text && unreadable line.text

/-- The line has text, and its box has a positive width and height on the page. -/
def Line.shown (size : K×K) (line : Line K) : Bool :=
  !blank line.text && decide ((line.box size).left < (line.box size).right) &&
    decide ((line.box size).top < (line.box size).bottom)

def Box.doubleArea (box : Box K) : K := 2*((box.right-box.left)*(box.bottom-box.top))

/-- The observation is that of the line. -/
structure Observed (size : K×K) (line : Line K) (o : TextObservation K) : Prop where
  level : o.level = .line
  text : o.text = line.text
  confidence : o.confidence.value = 1
  polygon : o.polygon.points.map (fun p => (p.x,p.y)) = (line.box size).corners
  parent : o.parentObservationId = none

/-- The page has the lines which are shown, in their order, or none if one of its
lines is unusable. -/
structure Converted (pair : PdfPage K×PageGeometry) (result : DocumentPage K) : Prop where
  page : result.page = pair.2.page
  width : result.width = pair.2.width
  height : result.height = pair.2.height
  lines : List.Forall₂ (Observed (layoutSize pair.1 pair.2))
    (if pair.1.lines.any Line.unusable then []
      else pair.1.lines.filter (Line.shown (layoutSize pair.1 pair.2))) result.observations
  numbered : result.observations.map (·.readingOrder) = List.range result.observations.length
  distinct : (result.observations.map (·.observationId)).Nodup

/-- The lines which are read: those before the first unusable one. -/
def PdfPage.read (page : PdfPage K) : List (Line K) :=
  page.lines.takeWhile fun line => !line.unusable

/-- Every line which is read and shown has an area above the least one. -/
def Measurable (pair : PdfPage K×PageGeometry) : Prop :=
  ∀ line ∈ pair.1.read, line.shown (layoutSize pair.1 pair.2) = true →
    epsilon < (line.box (layoutSize pair.1 pair.2)).doubleArea

variable (K) in
/-- A report with a layout of as many pages, each of a positive size and with no
more lines than a page may have observations. -/
structure NativeLayout where
  report : InspectionReport
  pages : List (PdfPage K)
  counted : report.pageCount = report.pages.length
  paired : pages.length = report.pages.length
  positive : ∀ page ∈ pages, 0 < page.width ∧ 0 < page.height
  bounded : ∀ page ∈ pages, page.lines.length ≤ maximumObservations

/-! ### Identifiers -/

omit [Field K] [LinearOrder K] in
theorem lineId_new (page : PageNumber) (order : ℕ) (h : order < 10^6) :
    ∃ hvalid, PageObservations.ObservationId.new (lineId page order) =
      some ⟨lineId page order,hvalid⟩ :=
  PageObservations.numberedId_new "native_p".toList "_line".toList page h (by decide) (by decide)
    (by decide) (by decide) (by simp [lineId, String.toList_append])

/-- Lines of one page have different identifiers. -/
theorem lineId_inj (page : PageNumber) {order other : ℕ}
    (h : lineId page order = lineId page other) : order = other := by
  rw [lineId, lineId, String.append_right_inj] at h
  exact Nat.repr_injective h

/-! ### One line -/

section Ordered
variable [IsStrictOrderedRing K]

theorem clamp_valid (value : K) : validCoordinate (clamp value) = true := by
  apply decide_eq_true
  constructor
  · exact le_max_left 0 _
  · exact max_le zero_le_one (min_le_right value 1)

theorem box_corners_valid (size : K×K) (line : Line K) : ∀ p ∈ (line.box size).corners,
    (validCoordinate p.1 && validCoordinate p.2) = true := by
  intro p hp
  simp only [Box.corners, PlaneMaps.corners, List.mem_cons, List.not_mem_nil, or_false] at hp
  rcases hp with rfl | rfl | rfl | rfl
  all_goals simp only [Line.box, clamp_valid, Bool.and_self]

/-- The box of a line gets a polygon exactly when its area is above the least one. -/
theorem box_polygon (size : K×K) (line : Line K)
    (hwidth : (line.box size).left < (line.box size).right)
    (hheight : (line.box size).top < (line.box size).bottom) :
    (epsilon < (line.box size).doubleArea → ∃ polygon, (line.box size).polygon = .ok polygon ∧
        polygon.points.map (fun p => (p.x,p.y)) = (line.box size).corners) ∧
      (¬epsilon < (line.box size).doubleArea →
        (line.box size).polygon = .error .invalidDocument) := by
  have hpoint : ∀ p ∈ (line.box size).corners, ∃ q : NormalizedPoint K,
      okOr Error.invalidDocument (NormalizedPoint.new p.1 p.2) = .ok q := by
    intro p hp
    have hvalid := box_corners_valid size line p hp
    exact ⟨⟨p.1,p.2,hvalid⟩,okOr_ok.mpr (by rw [NormalizedPoint.new, dif_pos hvalid])⟩
  obtain ⟨points,hpoints⟩ := Table.mapM_ok_of_forall hpoint
  have hmap : points.map (fun p => (p.x,p.y)) = (line.box size).corners := by
    have hall := Table.mapM_ok_iff.mp hpoints
    rw [← List.map_id (line.box size).corners]
    apply forall₂_map_eq
    apply hall.imp
    intro p q hq
    have hnew := okOr_ok.mp hq
    rw [NormalizedPoint.new] at hnew
    by_cases hvalid : (validCoordinate p.1 && validCoordinate p.2) = true
    · rw [dif_pos hvalid, Option.some.injEq] at hnew
      rw [← hnew, id_eq]
    · rw [dif_neg hvalid] at hnew
      exact absurd hnew (by simp)
  have hlength : 3 ≤ points.length := by
    have h := congrArg List.length hmap
    rw [List.length_map, Box.corners, PlaneMaps.corners] at h
    simp only [List.length_cons, List.length_nil] at h
    omega
  have harea : |signedDoubleArea points| = (line.box size).doubleArea := by
    rw [signedDoubleArea, hmap, Box.corners, PlaneMaps.doubledArea_corners]
    exact abs_of_pos (mul_pos two_pos (mul_pos (sub_pos.mpr hwidth) (sub_pos.mpr hheight)))
  have hpolygon : (line.box size).polygon = okOr .invalidDocument (Polygon.new points) := by
    rw [Box.polygon, hpoints]
    rfl
  rw [hpolygon, Polygon.new]
  constructor
  · intro hlarge
    have hvalid : PageObservations.validPolygon points = true :=
      (validPolygon_iff points).mpr ⟨hlength,harea ▸ hlarge⟩
    exact ⟨⟨points,hvalid⟩,by rw [dif_pos hvalid]; rfl,hmap⟩
  · intro hsmall
    rw [dif_neg]
    · rfl
    · intro hvalid
      exact hsmall (harea ▸ ((validPolygon_iff points).mp hvalid).2)

variable (page : PageNumber) (size : K×K)

omit [IsStrictOrderedRing K] in
theorem readLine_unusable {line : Line K} (count : ℕ) (h : line.unusable = true) :
    readLine page size count line = .ok .unusable := by
  rw [Line.unusable, Bool.and_eq_true, Bool.not_eq_true'] at h
  rw [readLine, if_neg (by rw [h.1]; exact Bool.false_ne_true), if_pos h.2]

omit [IsStrictOrderedRing K] in
theorem readLine_skipped {line : Line K} (count : ℕ) (husable : line.unusable = false)
    (h : line.shown size = false) : readLine page size count line = .ok .skipped := by
  rw [readLine]
  by_cases hblank : blank line.text = true
  · rw [if_pos hblank]
  · have hreadable : ¬unreadable line.text = true := by
      intro hunreadable
      rw [Line.unusable, hunreadable, Bool.and_true, Bool.not_eq_false'] at husable
      exact hblank husable
    rw [if_neg hblank, if_neg hreadable, if_pos]
    by_contra hbox
    rw [not_or, not_le, not_le] at hbox
    rw [Line.shown, decide_eq_true hbox.1, decide_eq_true hbox.2, Bool.and_true, Bool.and_true,
      Bool.not_eq_false'] at h
    exact hblank h

omit [IsStrictOrderedRing K] in
theorem shown_iff (line : Line K) : line.shown size = true ↔ blank line.text = false ∧
    (line.box size).left < (line.box size).right ∧
    (line.box size).top < (line.box size).bottom := by
  rw [Line.shown, Bool.and_eq_true, Bool.and_eq_true, Bool.not_eq_true', decide_eq_true_eq,
    decide_eq_true_eq, and_assoc]

omit [IsStrictOrderedRing K] in
theorem readLine_shown {line : Line K} (count : ℕ) (husable : line.unusable = false)
    (h : line.shown size = true) : readLine page size count line =
      (observeLine page size count line >>= fun o => .ok (.observed o)) := by
  obtain ⟨htext,hwidth,hheight⟩ := (shown_iff size line).mp h
  have hreadable : unreadable line.text = false := by
    rwa [Line.unusable, htext, Bool.not_false, Bool.true_and] at husable
  rw [readLine, if_neg (by rw [htext]; exact Bool.false_ne_true),
    if_neg (by rw [hreadable]; exact Bool.false_ne_true),
    if_neg (not_or.mpr ⟨not_le.mpr hwidth,not_le.mpr hheight⟩)]

theorem readLine_small {line : Line K} (count : ℕ) (husable : line.unusable = false)
    (h : line.shown size = true) (hsmall : ¬epsilon < (line.box size).doubleArea) :
    readLine page size count line = .error .invalidDocument := by
  obtain ⟨_,hwidth,hheight⟩ := (shown_iff size line).mp h
  rw [readLine_shown page size count husable h, observeLine,
    (box_polygon size line hwidth hheight).2 hsmall]
  rfl

theorem readLine_observed {line : Line K} (count : ℕ) (hcount : count < 10^6)
    (husable : line.unusable = false) (h : line.shown size = true)
    (hlarge : epsilon < (line.box size).doubleArea) :
    ∃ o, readLine page size count line = .ok (.observed o) ∧ Observed size line o ∧
      o.readingOrder = count ∧ o.observationId.asStr = lineId page count := by
  obtain ⟨htext,hwidth,hheight⟩ := (shown_iff size line).mp h
  obtain ⟨polygon,hpolygon,hpoints⟩ := (box_polygon size line hwidth hheight).1 hlarge
  obtain ⟨hid,hnew⟩ := lineId_new page count hcount
  have hone : validCoordinate (1 : K) = true := decide_eq_true ⟨zero_le_one,le_rfl⟩
  have hconfidence : Confidence.new (1 : K) = some ⟨1,hone⟩ := by
    rw [Confidence.new, dif_pos hone]
  have hsize : line.text.utf8ByteSize ≤ 65536 := by
    by_contra hlong
    rw [Line.unusable, htext, unreadable, decide_eq_true (not_le.mp hlong)] at husable
    exact absurd husable (by simp)
  have hvalid : validObservation line.text ⟨lineId page count,hid⟩ none = true := by
    rw [validObservation, Bool.and_eq_true, Bool.and_eq_true, Bool.not_eq_true']
    exact ⟨⟨htext,decide_eq_true hsize⟩,rfl⟩
  have hobserve : observeLine page size count line =
      .ok ⟨⟨lineId page count,hid⟩,.line,line.text,⟨1,hone⟩,polygon,count,none,hvalid⟩ := by
    refine bind_ok.mpr ⟨polygon,hpolygon,?_⟩
    refine bind_ok.mpr ⟨count,okOr_ok.mpr (if_pos (lt_trans hcount (by norm_num))),?_⟩
    refine bind_ok.mpr ⟨_,okOr_ok.mpr hnew,?_⟩
    refine bind_ok.mpr ⟨_,okOr_ok.mpr hconfidence,okOr_ok.mpr ?_⟩
    rw [TextObservation.new, dif_pos hvalid]
  refine ⟨⟨⟨lineId page count,hid⟩,.line,line.text,⟨1,hone⟩,polygon,count,none,hvalid⟩,?_,
    ⟨rfl,rfl,rfl,hpoints,rfl⟩,rfl,rfl⟩
  rw [readLine_shown page size count husable h, hobserve]
  rfl

/-! ### All lines of a page -/

theorem readLines_ok (lines : List (Line K)) (before : List (TextObservation K))
    (hcount : before.length+lines.length < 10^6)
    (hlarge : ∀ line ∈ lines.takeWhile fun line => !line.unusable, line.shown size = true →
      epsilon < (line.box size).doubleArea) :
    ∃ os, readLines page size before lines = .ok (before++os,!lines.any Line.unusable) ∧
      List.Forall₂ (Observed size)
        ((lines.takeWhile fun line => !line.unusable).filter (Line.shown size)) os ∧
      os.map (·.readingOrder) = List.range' before.length os.length ∧
      ∀ o ∈ os, o.observationId.asStr = lineId page o.readingOrder := by
  induction lines generalizing before with
  | nil => exact ⟨[],by rw [readLines, List.append_nil]; rfl,.nil,rfl,nofun⟩
  | cons line lines ih =>
    rw [List.length_cons] at hcount
    by_cases husable : line.unusable = true
    · refine ⟨[],?_,?_,rfl,nofun⟩
      · rw [readLines, readLine_unusable page size _ husable, List.any_cons, husable,
          List.append_nil]
        rfl
      · rw [List.takeWhile_cons_of_neg (by rw [husable]; exact Bool.false_ne_true)]
        exact .nil
    rw [Bool.not_eq_true] at husable
    rw [List.takeWhile_cons_of_pos (by rw [husable]; rfl)] at hlarge ⊢
    have hrest := fun l hl => hlarge l (List.mem_cons_of_mem line hl)
    rw [List.any_cons, husable, Bool.false_or]
    by_cases hshown : line.shown size = true
    · obtain ⟨o,hread,hobserved,horder,hid⟩ := readLine_observed page size before.length
        (by omega) husable hshown (hlarge line List.mem_cons_self hshown)
      obtain ⟨os,hos,hlines,horders,hids⟩ := ih (before++[o])
        (by rw [List.length_append, List.length_singleton]; omega) hrest
      refine ⟨o::os,?_,?_,?_,?_⟩
      · rw [readLines, hread]
        show readLines page size (before++[o]) lines = _
        rw [hos, List.append_assoc, List.singleton_append]
      · rw [List.filter_cons_of_pos hshown]
        exact .cons hobserved hlines
      · rw [List.map_cons, horders, horder, List.length_append, List.length_singleton,
          List.length_cons, List.range'_succ]
      · intro x hx
        rcases List.mem_cons.mp hx with rfl | hx
        · rw [hid, horder]
        · exact hids x hx
    · obtain ⟨os,hos,hlines,horders,hids⟩ := ih before (by omega) hrest
      refine ⟨os,?_,?_,horders,hids⟩
      · rw [readLines, readLine_skipped page size _ husable (Bool.not_eq_true _ ▸ hshown)]
        exact hos
      · rw [List.filter_cons_of_neg hshown]
        exact hlines

/-- A page which is read has no small line among those before its first unusable one. -/
theorem readLines_large (lines : List (Line K)) (before : List (TextObservation K))
    {result : List (TextObservation K)×Bool} (h : readLines page size before lines = .ok result) :
    ∀ line ∈ lines.takeWhile fun line => !line.unusable, line.shown size = true →
      epsilon < (line.box size).doubleArea := by
  induction lines generalizing before with
  | nil => exact nofun
  | cons line lines ih =>
    obtain ⟨reading,hread,h⟩ := bind_ok.mp h
    by_cases husable : line.unusable = true
    · rw [List.takeWhile_cons_of_neg (by rw [husable]; exact Bool.false_ne_true)]
      exact nofun
    rw [Bool.not_eq_true] at husable
    rw [List.takeWhile_cons_of_pos (by rw [husable]; rfl)]
    intro l hl hshown
    rcases List.mem_cons.mp hl with rfl | hl
    · by_contra hsmall
      rw [readLine_small page size _ husable hshown hsmall] at hread
      exact absurd hread (by simp)
    · by_cases hfirst : line.shown size = true
      · rw [readLine_shown page size _ husable hfirst] at hread
        obtain ⟨o,_,hreading⟩ := bind_ok.mp hread
        rw [Except.ok.injEq] at hreading
        subst hreading
        exact ih _ h l hl hshown
      · rw [readLine_skipped page size _ husable (Bool.not_eq_true _ ▸ hfirst),
          Except.ok.injEq] at hread
        subst hread
        exact ih _ h l hl hshown

/-! ### Pages -/

omit [IsStrictOrderedRing K] in
/-- A page keeps its observations as they are when their orders ascend. -/
theorem documentPage_kept (width height : ℕ) (hwidth : 1 ≤ width) (hheight : 1 ≤ height)
    (os : List (TextObservation K)) (hlength : os.length ≤ maximumObservations)
    (hparent : ∀ o ∈ os, o.parentObservationId = none)
    (hid : (os.map (·.observationId)).Nodup)
    (horder : os.map (·.readingOrder) = List.range os.length) :
    DocumentPage.new page width height os = some ⟨page,width,height,os⟩ := by
  have hnodup : (os.map (·.readingOrder)).Nodup := horder ▸ List.nodup_range
  have hascending : os.Pairwise fun a b => a.readingOrder ≤ b.readingOrder := by
    have hrange : (List.range os.length).Pairwise (· ≤ ·) :=
      List.pairwise_lt_range.imp Nat.le_of_lt
    rw [← horder] at hrange
    exact List.pairwise_map.mp hrange
  have hsorted : (os.mergeSort fun a b => decide (a.readingOrder ≤ b.readingOrder)) = os :=
    List.mergeSort_of_pairwise (hascending.imp fun h => decide_eq_true h)
  have hacyclic : PageObservations.acyclic [] [] os = true :=
    PageObservations.acyclic_of_nodup os [] [] hparent (fun _ _ => List.not_mem_nil)
      (fun _ _ => List.not_mem_nil) hid hnodup
  rw [DocumentPage.new, if_neg (by omega), hsorted]
  exact if_pos hacyclic

theorem converted_page (pair : PdfPage K×PageGeometry)
    (hpositive : 0 < pair.1.width ∧ 0 < pair.1.height)
    (hbounded : pair.1.lines.length ≤ maximumObservations) (h : Measurable pair) :
    ∃ result, convertPage pair = .ok result ∧ Converted pair result := by
  have hcount : ([] : List (TextObservation K)).length+pair.1.lines.length < 10^6 := by
    rw [List.length_nil, Nat.zero_add]
    exact lt_of_le_of_lt hbounded (by decide)
  obtain ⟨os,hread,hlines,horders,hids⟩ := readLines_ok pair.2.page (layoutSize pair.1 pair.2)
    pair.1.lines [] hcount h
  rw [List.nil_append] at hread
  rw [List.length_nil] at horders
  have hrange : os.map (·.readingOrder) = List.range os.length :=
    horders.trans List.range_eq_range'.symm
  have hdistinct : (os.map (·.observationId)).Nodup := by
    have hnodup : (os.map (·.readingOrder)).Nodup := hrange ▸ List.nodup_range
    refine List.Nodup.map_on ?_ (List.Nodup.of_map _ hnodup)
    intro o ho other hother heq
    have horder : o.readingOrder = other.readingOrder := by
      apply lineId_inj pair.2.page
      rw [← hids o ho, ← hids other hother, heq]
    exact Table.eq_of_key hnodup ho hother horder
  have hparent : ∀ o ∈ os, o.parentObservationId = none := by
    intro o ho
    obtain ⟨line,hline⟩ := forall₂_exists hlines.flip o ho
    exact hline.parent
  have hlength : os.length ≤ maximumObservations := by
    rw [← hlines.length_eq]
    exact ((List.length_filter_le _ _).trans
      (List.takeWhile_prefix _).length_le).trans hbounded
  have hsizes := pair.2.sizes_valid
  rw [convertPage, if_neg (not_or.mpr ⟨not_le.mpr hpositive.1,not_le.mpr hpositive.2⟩), hread]
  by_cases hany : pair.1.lines.any Line.unusable = true
  · refine ⟨⟨pair.2.page,pair.2.width,pair.2.height,[]⟩,?_,rfl,rfl,rfl,?_,rfl,.nil⟩
    · refine bind_ok.mpr ⟨_,rfl,okOr_ok.mpr ?_⟩
      rw [hany]
      exact documentPage_kept pair.2.page _ _ hsizes.1 hsizes.2.1 [] (Nat.zero_le _) nofun .nil rfl
    · rw [if_pos hany]
      exact .nil
  · rw [Bool.not_eq_true] at hany
    have hall : (pair.1.lines.takeWhile fun line => !line.unusable) = pair.1.lines := by
      rw [List.takeWhile_eq_self_iff]
      intro line hline
      rw [List.any_eq_false] at hany
      rw [Bool.not_eq_true', ← Bool.not_eq_true]
      exact hany line hline
    refine ⟨⟨pair.2.page,pair.2.width,pair.2.height,os⟩,?_,rfl,rfl,rfl,?_,hrange,hdistinct⟩
    · refine bind_ok.mpr ⟨_,rfl,okOr_ok.mpr ?_⟩
      rw [hany]
      exact documentPage_kept pair.2.page _ _ hsizes.1 hsizes.2.1 os hlength hparent hdistinct
        hrange
    · rw [hany, if_neg Bool.false_ne_true, ← hall]
      exact hlines

theorem measurable_of_ok (pair : PdfPage K×PageGeometry) {result : DocumentPage K}
    (h : convertPage pair = .ok result) : Measurable pair := by
  rw [convertPage] at h
  by_cases hempty : pair.1.width ≤ 0 ∨ pair.1.height ≤ 0
  · rw [if_pos hempty] at h
    exact absurd h (by simp)
  · rw [if_neg hempty] at h
    obtain ⟨read,hread,_⟩ := bind_ok.mp h
    exact readLines_large pair.2.page _ pair.1.lines [] hread

/-- A native document is converted, with the lines of every page, exactly when no
line which is read has a box of less than the least area. -/
theorem native_document_converted (layout : NativeLayout K) :
    (∃ pages, extractNativeDocument (.ok layout.report) "application/pdf" true
        (.ok layout.pages) = .ok pages ∧
      List.Forall₂ Converted (layout.pages.zip layout.report.pages) pages) ↔
      ∀ pair ∈ layout.pages.zip layout.report.pages, Measurable pair := by
  have hextract : extractNativeDocument (.ok layout.report) "application/pdf" true
      (.ok layout.pages) = (layout.pages.zip layout.report.pages).mapM convertPage := by
    have hcount : ¬layout.pages.length ≠ layout.report.pageCount :=
      not_not_intro (layout.paired.trans layout.counted.symm)
    exact if_neg hcount
  rw [hextract]
  constructor
  · rintro ⟨pages,hpages,_⟩ pair hpair
    obtain ⟨result,hresult⟩ :=
      forall₂_exists (Table.mapM_ok_iff.mp hpages) pair hpair
    exact measurable_of_ok pair hresult
  · intro h
    have heach : ∀ pair ∈ layout.pages.zip layout.report.pages,
        ∃ result, convertPage pair = .ok result ∧ Converted pair result := by
      intro pair hpair
      have hpage := (List.of_mem_zip hpair).1
      exact converted_page pair (layout.positive _ hpage) (layout.bounded _ hpage) (h pair hpair)
    obtain ⟨pages,hpages⟩ := Table.mapM_ok_of_forall fun pair hpair =>
      (heach pair hpair).imp fun _ hresult => hresult.1
    refine ⟨pages,hpages,?_⟩
    have hall := Table.mapM_ok_iff.mp hpages
    rw [List.forall₂_iff_zip] at hall ⊢
    refine ⟨hall.1,?_⟩
    intro pair result hmem
    obtain ⟨other,hother,hconverted⟩ := heach pair (List.of_mem_zip hmem).1
    rw [hall.2 hmem, Except.ok.injEq] at hother
    rwa [hother]

end Ordered

end Conversion

/-! ### A line of nearly no size -/

section Sample

/-- A page of US letter size, in points. -/
def letter : PageGeometry := ⟨PageObservations.firstPage,612,792,by decide⟩

def pageOf (lines : List (Line ℚ)) : PdfPage ℚ := ⟨612,792,[⟨[⟨lines⟩]⟩]⟩

def wordLine (left top right bottom : ℚ) : Line ℚ := ⟨left,top,right,bottom,[⟨"Total"⟩]⟩

/-- A document of one page. -/
def single (lines : List (Line ℚ)) (h : lines.length ≤ 1) : NativeLayout ℚ where
  report := ⟨1,[letter]⟩
  pages := [pageOf lines]
  counted := rfl
  paired := rfl
  positive := by
    intro page hpage
    rw [List.mem_singleton.mp hpage]
    exact ⟨by norm_num [pageOf],by norm_num [pageOf]⟩
  bounded := by
    intro page hpage
    rw [List.mem_singleton.mp hpage]
    simp [PdfPage.lines, pageOf, maximumObservations]
    omega

def tinyLine : Line ℚ := wordLine 100 100 (100+1/10^6) (100+1/10^6)

/-- A line of a millionth of a point fails its document. -/
theorem tiny_line_fails : ¬∃ pages,
    extractNativeDocument (.ok (single [tinyLine] le_rfl).report) "application/pdf" true
      (.ok (single [tinyLine] le_rfl).pages) = .ok pages := by
  rintro ⟨pages,hpages⟩
  obtain ⟨result,hresult⟩ := forall₂_exists
    (Table.mapM_ok_iff.mp (show [(pageOf [tinyLine],letter)].mapM convertPage = .ok pages from
      hpages)) _ List.mem_cons_self
  have hread : tinyLine ∈ (pageOf [tinyLine]).read := by
    show tinyLine ∈ [tinyLine].takeWhile _
    rw [List.takeWhile_cons_of_pos (by decide +kernel)]
    exact List.mem_cons_self
  have hlarge := measurable_of_ok _ hresult tinyLine hread (by decide +kernel)
  revert hlarge
  rw [imp_false]
  decide +kernel

theorem ordinary_line_converted : ∃ pages,
    extractNativeDocument (.ok (single [wordLine 100 100 140 112] le_rfl).report)
      "application/pdf" true (.ok (single [wordLine 100 100 140 112] le_rfl).pages) = .ok pages ∧
      List.Forall₂ Converted ((single [wordLine 100 100 140 112] le_rfl).pages.zip
        (single [wordLine 100 100 140 112] le_rfl).report.pages) pages := by
  apply (native_document_converted (single [wordLine 100 100 140 112] le_rfl)).mpr
  intro pair hpair
  rw [List.mem_singleton.mp hpair]
  intro line hline _
  have hread : line ∈ (pageOf [wordLine 100 100 140 112]).lines :=
    (List.takeWhile_prefix _).subset hline
  rw [List.mem_singleton.mp hread]
  decide +kernel

end Sample

end DocumentIntelligence.NativeText
