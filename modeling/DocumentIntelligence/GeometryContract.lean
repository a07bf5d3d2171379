import DocumentIntelligence.CheckpointText
import DocumentIntelligence.Inspection

/-!
# One geometry contract from the sandbox to the locator

The report of the sandbox is written as JSON, bounded and checked by the parent,
checked by the store, kept in a `jsonb` column and checked when the locator is
loaded. Every sound report passes all of them.
-/

set_option autoImplicit false

namespace DocumentIntelligence.GeometryContract
open Schema (PageGeometry AcceptedSource ParserInspectionMetadata validObjectVersion validDigest
  isValidLeaseOwner validContentType)
open Uploads (AcceptUpload validContentLength validPageGeometries validateAcceptedSource
  isValidParserIdentifier)
open Inspection (InspectionReport DocumentLimits Libraries inspectDocument u64Max
  maximumEncodedBytes newPageGeometry)
open Json (Value Spacing compact spaced)
open CheckpointText (only column toJsonb toJsonbItems name_size)

def maximumOutputBytes : ℕ := 65536
def u32Max : ℕ := 4294967295
def i32Max : ℕ := 2147483647
def i64Max : ℕ := 9223372036854775807
def parserProfile : String := "intake-v1"
def parserVersion : String := "0.1.0"

/-! ### The child -/

def encodeGeometry (g : PageGeometry) : Value :=
  .object [("page",.number g.page),("width",.number g.width),("height",.number g.height)]

def encodeReport (r : InspectionReport) : Value :=
  .object [("page_count",.number r.pageCount),
    ("maximum_page_pixels",.number r.maximumPagePixels),
    ("total_page_pixels",.number r.totalPagePixels),
    ("pages",.array (r.pages.map encodeGeometry)),
    ("password_protected",.bool r.passwordProtected)]

def errorExit : Inspection.Error → ℕ
  | .nativeTextUnavailable => 13
  | .unsupportedContentType | .invalidDocument => 10
  | .passwordProtected => 12
  | _ => 11

structure ParserProcess where
  maximumPages : ℕ
  maximumPagePixels : ℕ
  maximumTotalPixels : ℕ
  deriving DecidableEq, Repr

def ParserProcess.new : ParserProcess := ⟨1000,100000000,100000000000⟩

/-- The exit code of the sandbox and what it wrote. -/
def child (libraries : Libraries) (process : ParserProcess) (encoded : List UInt8)
    (contentType : String) : ℕ × String :=
  match DocumentLimits.new process.maximumPages process.maximumPagePixels
      process.maximumTotalPixels with
  | .error _ => (2,"")
  | .ok limits => match inspectDocument libraries encoded contentType limits with
    | .ok report => (0,(encodeReport report).text compact)
    | .error e => (errorExit e,"")

/-! ### The parent -/

inductive ParserProcessError where
  | invalidConfiguration
  | invalidDocument
  | limitsExceeded
  | passwordRequired
  | unavailable
  deriving DecidableEq, Repr

structure ParserInspectionReport where
  pageCount : ℤ
  maximumPagePixels : ℤ
  totalPagePixels : ℤ
  pages : List PageGeometry
  deriving DecidableEq, Repr

structure WireReport where
  pageCount : ℕ
  maximumPagePixels : ℕ
  totalPagePixels : ℕ
  pages : List PageGeometry
  passwordProtected : Bool
  deriving DecidableEq, Repr

/-- A number of an unsigned type. -/
def decodeUnsigned (maximum : ℕ) : Value → Option ℕ
  | .number n => if n ≤ maximum then some n else none
  | _ => none

def decodeBool : Value → Option Bool
  | .bool b => some b
  | _ => none

/-- Unknown members are refused, and so are the geometries `new` refuses. -/
def decodeGeometry : Value → Option PageGeometry
  | .object members =>
    if members.all fun m => ["page","width","height"].contains m.1 then do
      let page ← (only "page" members).bind (decodeUnsigned u32Max)
      let width ← (only "width" members).bind (decodeUnsigned u32Max)
      let height ← (only "height" members).bind (decodeUnsigned u32Max)
      newPageGeometry page width height
    else none
  | _ => none

def decodeGeometries : Value → Option (List PageGeometry)
  | .array items => items.mapM decodeGeometry
  | _ => none

def decodeReport : Value → Option WireReport
  | .object members =>
    if members.all fun m => ["page_count","maximum_page_pixels","total_page_pixels","pages",
        "password_protected"].contains m.1 then do
      let pageCount ← (only "page_count" members).bind (decodeUnsigned u64Max)
      let maximumPagePixels ← (only "maximum_page_pixels" members).bind (decodeUnsigned u64Max)
      let totalPagePixels ← (only "total_page_pixels" members).bind (decodeUnsigned u64Max)
      let pages ← (only "pages" members).bind decodeGeometries
      let passwordProtected ← (only "password_protected" members).bind decodeBool
      some ⟨pageCount,maximumPagePixels,totalPagePixels,pages,passwordProtected⟩
    else none
  | _ => none

/-- The loop of `parse_report` over the pages, from this index. -/
def computePixels (maximumPagePixels : ℕ) :
    ℕ → List PageGeometry → ℕ × ℕ → Option (ℕ × ℕ)
  | _, [], computed => some computed
  | index, page::pages, (computedMaximum,computedTotal) =>
    if index+1 > u32Max ∨ page.page ≠ index+1 then none else
    if page.pixels > i64Max ∨ page.pixels > maximumPagePixels then none else
    if computedTotal+page.pixels > i64Max then none else
    computePixels maximumPagePixels (index+1) pages
      (max computedMaximum page.pixels,computedTotal+page.pixels)

def parseReport (output : String) : Except ParserProcessError ParserInspectionReport :=
  match (Json.parse output).bind decodeReport with
  | none => .error .unavailable
  | some report =>
    if report.pageCount > i32Max ∨ report.maximumPagePixels > i64Max ∨
        report.totalPagePixels > i64Max then .error .unavailable else
    if report.passwordProtected || !decide (1 ≤ report.pageCount ∧ report.pageCount ≤ 1000) ||
        !decide (1 ≤ report.maximumPagePixels ∧ report.maximumPagePixels ≤ 100000000) ||
        !decide (report.maximumPagePixels ≤ report.totalPagePixels ∧
          report.totalPagePixels ≤ 100000000000) ||
        report.pages.length != report.pageCount then .error .unavailable else
    match computePixels report.maximumPagePixels 0 report.pages (0,0) with
    | none => .error .unavailable
    | some (computedMaximum,computedTotal) =>
      if computedMaximum ≠ report.maximumPagePixels ∨ computedTotal ≠ report.totalPagePixels then
        .error .unavailable
      else .ok ⟨report.pageCount,report.maximumPagePixels,report.totalPagePixels,report.pages⟩

/-- A run of the child which ends before its deadline. -/
def ParserProcess.run (libraries : Libraries) (process : ParserProcess) (encoded : List UInt8)
    (contentType : String) : Except ParserProcessError String :=
  if encoded.isEmpty || decide (encoded.length > maximumEncodedBytes) ||
      !validContentType contentType then .error .invalidDocument else
  let (status,output) := child libraries process encoded contentType
  if output.utf8ByteSize > maximumOutputBytes then .error .unavailable else
  match status with
  | 0 => .ok output
  | 10 => .error .invalidDocument
  | 11 => .error .limitsExceeded
  | 12 => .error .passwordRequired
  | _ => .error .unavailable

def ParserProcess.inspect (libraries : Libraries) (process : ParserProcess)
    (encoded : List UInt8) (contentType : String) :
    Except ParserProcessError ParserInspectionReport := do
  let report ← parseReport (← process.run libraries encoded contentType)
  if report.pageCount > process.maximumPages ∨
      report.maximumPagePixels > process.maximumPagePixels ∨
      report.totalPagePixels > process.maximumTotalPixels then .error .limitsExceeded
  else .ok report

/-! ### The store -/

/-- What the importer passes on of an inspection. -/
def parserInspection (inspection : ParserInspectionReport) : ParserInspectionMetadata where
  pageCount := inspection.pageCount
  maximumPagePixels := inspection.maximumPagePixels
  totalPagePixels := inspection.totalPagePixels
  pageGeometries := inspection.pages
  profile := parserProfile
  version := parserVersion

/-- The checks of `validate_accepted_source` on the locator and the lease owner. -/
def validLocator (accept : AcceptUpload) : Bool :=
  let s := accept.source
  decide (3 ≤ s.sourceBucket.utf8ByteSize ∧ s.sourceBucket.utf8ByteSize ≤ 222) &&
    decide (1 ≤ s.sourceObjectName.utf8ByteSize ∧ s.sourceObjectName.utf8ByteSize ≤ 1024) &&
    validObjectVersion s.sourceObjectVersion && validContentLength s.sourceContentLength &&
    validDigest s.sourceDigest && isValidLeaseOwner accept.inspectionLeaseOwner

/-- The columns of an accepted upload from which its locator is loaded. -/
structure AcceptedColumns where
  sourceBucket : String
  sourceObjectName : String
  sourceObjectVersion : String
  sourceDigest : String
  sourceContentLength : ℤ
  expectedContentType : String
  parserPageCount : ℤ
  parserMaximumPagePixels : ℤ
  parserTotalPagePixels : ℤ
  parserPageGeometries : Value
  parserProfile : String
  parserVersion : String

/-- What `accept_upload` writes; `$13::jsonb` reads the text of the geometries. -/
def acceptedColumns (source : AcceptedSource) (expectedContentType : String) :
    Option AcceptedColumns :=
  let p := source.parserInspection
  let pageGeometries := (Value.array (p.pageGeometries.map encodeGeometry)).text compact
  (column pageGeometries).map fun geometries => {
    sourceBucket := source.sourceBucket
    sourceObjectName := source.sourceObjectName
    sourceObjectVersion := source.sourceObjectVersion
    sourceDigest := source.sourceDigest
    sourceContentLength := source.sourceContentLength
    expectedContentType
    parserPageCount := p.pageCount
    parserMaximumPagePixels := p.maximumPagePixels
    parserTotalPagePixels := p.totalPagePixels
    parserPageGeometries := geometries
    parserProfile := p.profile
    parserVersion := p.version }

/-- The column checks on what the parser reported. -/
def parserChecks (c : AcceptedColumns) : Bool :=
  decide (1 ≤ c.parserPageCount ∧ c.parserPageCount ≤ 1000) &&
    decide (1 ≤ c.parserMaximumPagePixels ∧ c.parserMaximumPagePixels ≤ 100000000) &&
    decide (1 ≤ c.parserTotalPagePixels ∧ c.parserTotalPagePixels ≤ 100000000000) &&
    decide (c.parserMaximumPagePixels ≤ c.parserTotalPagePixels) &&
    decide (1 ≤ c.parserProfile.length ∧ c.parserProfile.length ≤ 64) &&
    decide (1 ≤ c.parserVersion.length ∧ c.parserVersion.length ≤ 64) &&
    match c.parserPageGeometries with
    | .array items => decide ((items.length : ℤ) = c.parserPageCount)
    | _ => false

structure StoredAcceptedSource where
  bucket : String
  objectName : String
  generation : String
  digest : String
  contentLength : ℤ
  contentType : String
  pageCount : ℕ
  maximumPagePixels : ℕ
  totalPagePixels : ℕ
  pageGeometries : List PageGeometry
  parserProfile : String
  parserVersion : String

def validateAcceptedSourceLocator (s : StoredAcceptedSource) : Bool :=
  decide (3 ≤ s.bucket.utf8ByteSize ∧ s.bucket.utf8ByteSize ≤ 222) &&
    decide (1 ≤ s.objectName.utf8ByteSize ∧ s.objectName.utf8ByteSize ≤ 1024) &&
    validObjectVersion s.generation && validContentLength s.contentLength &&
    validDigest s.digest && validContentType s.contentType &&
    decide (1 ≤ s.pageCount ∧ s.pageCount ≤ 1000) &&
    decide (1 ≤ s.maximumPagePixels ∧ s.maximumPagePixels ≤ 100000000) &&
    decide (s.maximumPagePixels ≤ s.totalPagePixels ∧ s.totalPagePixels ≤ 100000000000) &&
    validPageGeometries s.pageGeometries s.pageCount s.maximumPagePixels s.totalPagePixels &&
    isValidParserIdentifier s.parserProfile && isValidParserIdentifier s.parserVersion

def tryUnsigned (maximum : ℕ) (n : ℤ) : Option ℕ :=
  if 0 ≤ n ∧ n ≤ maximum then some n.toNat else none

def storedAcceptedSource (c : AcceptedColumns) : Except Schema.Error StoredAcceptedSource :=
  let source := do
    let pageCount ← tryUnsigned u32Max c.parserPageCount
    let maximumPagePixels ← tryUnsigned u64Max c.parserMaximumPagePixels
    let totalPagePixels ← tryUnsigned u64Max c.parserTotalPagePixels
    let pageGeometries ← (Json.parse (c.parserPageGeometries.text spaced)).bind decodeGeometries
    return {
      bucket := c.sourceBucket
      objectName := c.sourceObjectName
      generation := c.sourceObjectVersion
      digest := c.sourceDigest
      contentLength := c.sourceContentLength
      contentType := c.expectedContentType
      pageCount, maximumPagePixels, totalPagePixels, pageGeometries
      parserProfile := c.parserProfile
      parserVersion := c.parserVersion }
  match source with
  | none => .error .invalidStoredUpload
  | some source => if validateAcceptedSourceLocator source then .ok source
    else .error .invalidStoredUpload

/-! ### Reading what was written -/

section Reading
variable {g : PageGeometry} {pages : List PageGeometry} {r : InspectionReport}

theorem decodeUnsigned_number {maximum n : ℕ} (h : n ≤ maximum) :
    decodeUnsigned maximum (.number n) = some n := if_pos h

theorem newPageGeometry_self (g : PageGeometry) :
    newPageGeometry g.page g.width g.height = some g := by
  have hvalid := And.intro g.page_pos g.sizes_valid
  rw [newPageGeometry, dif_pos hvalid]

/-- A side of a page is no longer than its area. -/
theorem sides_bounded (g : PageGeometry) : g.width ≤ 100000000 ∧ g.height ≤ 100000000 := by
  obtain ⟨hwidth,hheight,harea⟩ := g.sizes_valid
  exact ⟨(Nat.le_mul_of_pos_right _ hheight).trans harea,
    (Nat.le_mul_of_pos_left _ hwidth).trans harea⟩

theorem decodeGeometry_encode (h : g.page ≤ u32Max) :
    decodeGeometry (encodeGeometry g) = some g := by
  obtain ⟨hwidth,hheight⟩ := sides_bounded g
  have hlimit : 100000000 ≤ u32Max := by decide
  show (do
    let page ← (some (Value.number g.page)).bind (decodeUnsigned u32Max)
    let width ← (some (Value.number g.width)).bind (decodeUnsigned u32Max)
    let height ← (some (Value.number g.height)).bind (decodeUnsigned u32Max)
    newPageGeometry page width height) = some g
  simp only [Option.bind_some, decodeUnsigned_number h, decodeUnsigned_number (hwidth.trans hlimit),
    decodeUnsigned_number (hheight.trans hlimit), Option.bind_eq_bind, newPageGeometry_self]

theorem decodeGeometries_encode (h : ∀ g ∈ pages, g.page ≤ u32Max) :
    decodeGeometries (.array (pages.map encodeGeometry)) = some pages := by
  rw [decodeGeometries]
  induction pages with
  | nil => rfl
  | cons g pages ih =>
    rw [List.forall_mem_cons] at h
    rw [List.map_cons, List.mapM_cons, decodeGeometry_encode h.1, ih h.2]
    rfl

/-- The names stand in the order of the column already. -/
theorem toJsonb_geometries (pages : List PageGeometry) :
    toJsonb (.array (pages.map encodeGeometry)) = .array (pages.map encodeGeometry) := by
  have hitems : toJsonbItems (pages.map encodeGeometry) = pages.map encodeGeometry := by
    induction pages with
    | nil => rfl
    | cons g pages ih =>
      have hsame : toJsonb (encodeGeometry g) = encodeGeometry g := rfl
      rw [List.map_cons, toJsonbItems, hsame, ih]
  rw [toJsonb, hitems]

theorem decodeReport_encode (hpages : ∀ g ∈ r.pages, g.page ≤ u32Max) (hcount : r.pageCount ≤ u64Max)
    (hmaximum : r.maximumPagePixels ≤ u64Max) (htotal : r.totalPagePixels ≤ u64Max) :
    decodeReport (encodeReport r) = some ⟨r.pageCount,r.maximumPagePixels,r.totalPagePixels,
      r.pages,r.passwordProtected⟩ := by
  show (do
    let pageCount ← (some (Value.number r.pageCount)).bind (decodeUnsigned u64Max)
    let maximumPagePixels ← (some (Value.number r.maximumPagePixels)).bind (decodeUnsigned u64Max)
    let totalPagePixels ← (some (Value.number r.totalPagePixels)).bind (decodeUnsigned u64Max)
    let pages ← (some (Value.array (r.pages.map encodeGeometry))).bind decodeGeometries
    let passwordProtected ← (some (Value.bool r.passwordProtected)).bind decodeBool
    some (WireReport.mk pageCount maximumPagePixels totalPagePixels pages passwordProtected)) = _
  simp only [Option.bind_some, decodeUnsigned_number hcount, decodeUnsigned_number hmaximum,
    decodeUnsigned_number htotal, decodeGeometries_encode hpages, decodeBool, Option.bind_eq_bind]

end Reading

/-! ### Sizes -/

theorem geometry_size {g : PageGeometry} (h : g.page ≤ 1000) :
    Json.charsSize ((encodeGeometry g).chars compact) ≤ 50 := by
  obtain ⟨hwidth,hheight⟩ := sides_bounded g
  have hnames : (Json.string "page").utf8ByteSize = 6 ∧ (Json.string "width").utf8ByteSize = 7 ∧
      (Json.string "height").utf8ByteSize = 8 :=
    ⟨name_size (by decide),name_size (by decide),name_size (by decide)⟩
  have hblank : Json.charsSize compact.colon = 0 ∧ Json.charsSize compact.comma = 0 := ⟨rfl,rfl⟩
  have hpage : Json.charsSize ((Value.number g.page).chars compact) ≤ 4 :=
    Json.number_size (by decide) (h.trans_lt (by decide))
  have hwidthSize : Json.charsSize ((Value.number g.width).chars compact) ≤ 9 :=
    Json.number_size (by decide) (hwidth.trans_lt (by decide))
  have hheightSize : Json.charsSize ((Value.number g.height).chars compact) ≤ 9 :=
    Json.number_size (by decide) (hheight.trans_lt (by decide))
  rw [encodeGeometry, Json.object_size, Json.memberChars_size, Json.memberChars_size,
    Json.memberChars_nil_size]
  omega

theorem report_size {r : InspectionReport} (hcount : r.pages.length ≤ 1000)
    (hpages : ∀ g ∈ r.pages, g.page ≤ 1000) (hsame : r.pageCount = r.pages.length)
    (hmaximum : r.maximumPagePixels ≤ 100000000) (htotal : r.totalPagePixels ≤ 100000000000) :
    ((encodeReport r).text compact).utf8ByteSize ≤ maximumOutputBytes := by
  have hnames : (Json.string "page_count").utf8ByteSize = 12 ∧
      (Json.string "maximum_page_pixels").utf8ByteSize = 21 ∧
      (Json.string "total_page_pixels").utf8ByteSize = 19 ∧ (Json.string "pages").utf8ByteSize = 7 ∧
      (Json.string "password_protected").utf8ByteSize = 20 :=
    ⟨name_size (by decide),name_size (by decide),name_size (by decide),name_size (by decide),
      name_size (by decide)⟩
  have hblank : Json.charsSize compact.colon = 0 ∧ Json.charsSize compact.comma = 0 := ⟨rfl,rfl⟩
  have hlimit : maximumOutputBytes = 65536 := rfl
  have hcountSize : Json.charsSize ((Value.number r.pageCount).chars compact) ≤ 4 :=
    Json.number_size (by decide) (by omega)
  have hmaximumSize : Json.charsSize ((Value.number r.maximumPagePixels).chars compact) ≤ 9 :=
    Json.number_size (by decide) (by omega)
  have htotalSize : Json.charsSize ((Value.number r.totalPagePixels).chars compact) ≤ 12 :=
    Json.number_size (by decide) (by omega)
  have hflag : Json.charsSize ((Value.bool r.passwordProtected).chars compact) ≤ 5 := by
    cases r.passwordProtected <;> rw [Value.chars] <;> decide
  have hitems : ∀ item ∈ r.pages.map encodeGeometry, Json.charsSize (item.chars compact) ≤ 50 := by
    intro item hm
    obtain ⟨g,hg,rfl⟩ := List.mem_map.mp hm
    exact geometry_size (hpages g hg)
  have harray := Json.array_size hitems
  rw [List.length_map, hblank.2] at harray
  rw [Json.text_size, encodeReport]
  simp only [Json.object_size, Json.memberChars_size, Json.memberChars_nil_size, hnames]
  omega

/-! ### The checks of a sound report -/

section Pixels

theorem foldl_max_le_iff {ns : List ℕ} {a k : ℕ} :
    ns.foldl max a ≤ k ↔ a ≤ k ∧ ∀ n ∈ ns, n ≤ k := by
  induction ns generalizing a with
  | nil => simp
  | cons n ns ih => rw [List.foldl_cons, ih, max_le_iff, List.forall_mem_cons, and_assoc]

theorem computePixels_some {maximumPagePixels index : ℕ} {pages : List PageGeometry}
    {computed : ℕ × ℕ}
    (hnumbered : pages.map (·.page) = (List.range' (index+1) pages.length))
    (hcount : index+pages.length ≤ u32Max)
    (hpixels : ∀ g ∈ pages, g.pixels ≤ maximumPagePixels) (hmaximum : maximumPagePixels ≤ i64Max)
    (htotal : computed.2+(pages.map PageGeometry.pixels).sum ≤ i64Max) :
    computePixels maximumPagePixels index pages computed =
      some ((pages.map PageGeometry.pixels).foldl max computed.1,
        computed.2+(pages.map PageGeometry.pixels).sum) := by
  induction pages generalizing index computed with
  | nil => rfl
  | cons g pages ih =>
    rw [List.map_cons, List.length_cons, List.range'_succ, List.cons.injEq] at hnumbered
    rw [List.length_cons] at hcount
    rw [List.map_cons, List.sum_cons] at htotal
    rw [List.forall_mem_cons] at hpixels
    have hnumber : ¬(index+1 > u32Max ∨ g.page ≠ index+1) := by omega
    have harea : ¬(g.pixels > i64Max ∨ g.pixels > maximumPagePixels) := by omega
    have hadd : ¬computed.2+g.pixels > i64Max := by omega
    have hrest := ih hnumbered.2 (by omega) hpixels.2
      (show (max computed.1 g.pixels,computed.2+g.pixels).2+_ ≤ i64Max by
        rw [Nat.add_assoc]; exact htotal)
    rw [computePixels, if_neg hnumber, if_neg harea, if_neg hadd, hrest, List.map_cons,
      List.foldl_cons, List.sum_cons, Nat.add_assoc]

end Pixels

section Sound
variable {limits : DocumentLimits} {r : InspectionReport}

/-- The bounds behind every check: they follow from the limits whatever they are. -/
structure Bounds (r : InspectionReport) : Prop where
  count : 1 ≤ r.pages.length ∧ r.pages.length ≤ 1000
  pages : ∀ g ∈ r.pages, g.page ≤ 1000
  pixels : ∀ g ∈ r.pages, g.pixels ≤ r.maximumPagePixels
  maximum : 1 ≤ r.maximumPagePixels ∧ r.maximumPagePixels ≤ 100000000
  total : r.maximumPagePixels ≤ r.totalPagePixels ∧ r.totalPagePixels ≤ 100000000000

theorem bounds_of_sound (h : r.Sound limits) : Bounds r := by
  have hpages := limits.pages_bounded.2
  have hpagePixels := limits.page_pixels_bounded.2
  have htotalPixels := limits.total_pixels_bounded.2
  unfold Inspection.hardMaximumPages at hpages
  unfold Inspection.hardMaximumPagePixels at hpagePixels
  unfold Inspection.hardMaximumTotalPixels at htotalPixels
  have hmax := (foldl_max_le_iff.mp h.maximum.ge).2
  have hpixels : ∀ g ∈ r.pages, g.pixels ≤ r.maximumPagePixels := fun g hg =>
    hmax g.pixels (List.mem_map_of_mem hg)
  have hsum : ∀ n ∈ r.pages.map PageGeometry.pixels, n ≤ (r.pages.map PageGeometry.pixels).sum :=
    fun n hn => List.le_sum_of_mem hn
  obtain ⟨g,hg⟩ := List.exists_mem_of_length_pos h.count_bounded.1
  refine ⟨⟨h.count_bounded.1,h.count_bounded.2.trans hpages⟩,?_,hpixels,
    ⟨?_,h.maximum_bounded.trans hpagePixels⟩,?_,h.total_bounded.trans htotalPixels⟩
  · intro g hg
    have hm : g.page ∈ r.pages.map (·.page) := List.mem_map_of_mem hg
    rw [h.numbered, List.mem_map] at hm
    obtain ⟨i,hi,hpage⟩ := hm
    have hlt := List.mem_range.mp hi
    have hcount := h.count_bounded.2
    omega
  · exact (Nat.mul_pos g.sizes_valid.1 g.sizes_valid.2.1).trans_le (hpixels g hg)
  · rw [h.maximum, h.total]
    exact foldl_max_le_iff.mpr ⟨Nat.zero_le _,hsum⟩

theorem validPageGeometries_sound (h : r.Sound limits) :
    validPageGeometries r.pages r.pageCount r.maximumPagePixels r.totalPagePixels = true := by
  simp only [validPageGeometries, h.count, h.numbered, ← h.maximum, ← h.total, beq_self_eq_true,
    Bool.and_self]

/-- The parent reads the report it was sent. -/
theorem parseReport_sound (h : r.Sound limits) :
    parseReport ((encodeReport r).text compact) =
      .ok ⟨r.pageCount,r.maximumPagePixels,r.totalPagePixels,r.pages⟩ := by
  obtain ⟨hcount,hpages,hpixels,hmaximum,htotal⟩ := bounds_of_sound h
  have hsizes : u32Max = 4294967295 ∧ i32Max = 2147483647 ∧ i64Max = 9223372036854775807 ∧
      u64Max = 18446744073709551615 := ⟨rfl,rfl,rfl,rfl⟩
  have hsame := h.count
  have hnumbered : r.pages.map (·.page) = List.range' (0+1) r.pages.length := by
    rw [h.numbered, List.range'_eq_map_range]
    exact List.map_congr_left fun _ _ => Nat.add_comm _ _
  have htotalSum : 0+(r.pages.map PageGeometry.pixels).sum ≤ i64Max := by
    rw [← h.total]
    omega
  have hcompute : computePixels r.maximumPagePixels 0 r.pages (0,0) = some
      ((r.pages.map PageGeometry.pixels).foldl max 0,0+(r.pages.map PageGeometry.pixels).sum) :=
    computePixels_some hnumbered (by omega) hpixels (by omega) htotalSum
  rw [← h.maximum, ← h.total, Nat.zero_add] at hcompute
  have hread := decodeReport_encode (fun g hg => (hpages g hg).trans (by decide))
    (show r.pageCount ≤ u64Max by omega) (show r.maximumPagePixels ≤ u64Max by omega)
    (show r.totalPagePixels ≤ u64Max by omega)
  have hranges : ¬(r.pageCount > i32Max ∨ r.maximumPagePixels > i64Max ∨
      r.totalPagePixels > i64Max) := by omega
  have hcounts : 1 ≤ r.pageCount ∧ r.pageCount ≤ 1000 := by omega
  rw [parseReport, Json.parse_text Json.compact_blank, Option.bind_some, hread]
  simp only [if_neg hranges, h.readable, decide_eq_true hcounts, decide_eq_true hmaximum,
    decide_eq_true htotal, hcompute, ← hsame, bne_self_eq_false, Bool.not_true, Bool.or_self,
    Bool.false_eq_true, if_false, ne_eq, not_true_eq_false, or_self]

theorem parserIdentifiers :
    isValidParserIdentifier parserProfile = true ∧ isValidParserIdentifier parserVersion = true := by
  decide +kernel

/-- The store takes the metadata of a sound report with any valid locator. -/
theorem validateAcceptedSource_sound (h : r.Sound limits) {accept : AcceptUpload}
    (hlocator : validLocator accept = true)
    (hmetadata : accept.source.parserInspection = parserInspection
      ⟨r.pageCount,r.maximumPagePixels,r.totalPagePixels,r.pages⟩) :
    validateAcceptedSource accept = true := by
  have hb := bounds_of_sound h
  have hsame := h.count
  have hcount : 1 ≤ (r.pageCount : ℤ) ∧ (r.pageCount : ℤ) ≤ 1000 := by
    have := hb.count
    omega
  have hmaximum : 1 ≤ (r.maximumPagePixels : ℤ) ∧ (r.maximumPagePixels : ℤ) ≤ 100000000 := by
    have := hb.maximum
    omega
  have htotal : (r.maximumPagePixels : ℤ) ≤ r.totalPagePixels ∧
      (r.totalPagePixels : ℤ) ≤ 100000000000 := by
    have := hb.total
    omega
  unfold validLocator at hlocator
  unfold validateAcceptedSource
  simp only [hlocator, hmetadata, parserInspection, decide_eq_true hcount, decide_eq_true hmaximum,
    decide_eq_true htotal, validPageGeometries_sound h, parserIdentifiers, Bool.and_self]

/-- The columns pass their checks, and the locator is loaded with the report. -/
theorem storedAcceptedSource_sound (h : r.Sound limits) {source : AcceptedSource}
    {owner contentType : String} (hlocator : validLocator ⟨owner,source⟩ = true)
    (hcontent : validContentType contentType = true)
    (hmetadata : source.parserInspection = parserInspection
      ⟨r.pageCount,r.maximumPagePixels,r.totalPagePixels,r.pages⟩) :
    ∃ c, acceptedColumns source contentType = some c ∧ parserChecks c = true ∧
      storedAcceptedSource c = .ok {
        bucket := source.sourceBucket
        objectName := source.sourceObjectName
        generation := source.sourceObjectVersion
        digest := source.sourceDigest
        contentLength := source.sourceContentLength
        contentType
        pageCount := r.pageCount
        maximumPagePixels := r.maximumPagePixels
        totalPagePixels := r.totalPagePixels
        pageGeometries := r.pages
        parserProfile, parserVersion } := by
  have hb := bounds_of_sound h
  have hsame := h.count
  have hbcount := hb.count
  have hbmaximum := hb.maximum
  have hbtotal := hb.total
  have hsizes : u32Max = 4294967295 ∧ u64Max = 18446744073709551615 := ⟨rfl,rfl⟩
  have hcolumn : column ((Value.array (r.pages.map encodeGeometry)).text compact) =
      some (.array (r.pages.map encodeGeometry)) := by
    rw [column, Json.parse_text Json.compact_blank, Option.map_some, toJsonb_geometries]
  have hread : (Json.parse ((Value.array (r.pages.map encodeGeometry)).text spaced)).bind
      decodeGeometries = some r.pages := by
    rw [Json.parse_text Json.spaced_blank, Option.bind_some,
      decodeGeometries_encode fun g hg => (hb.pages g hg).trans (by decide)]
  have hunsigned : ∀ {maximum n : ℕ}, n ≤ maximum → tryUnsigned maximum (n : ℤ) = some n := by
    intro maximum n hn
    have hrange : 0 ≤ (n : ℤ) ∧ (n : ℤ) ≤ maximum := by omega
    rw [tryUnsigned, if_pos hrange, Int.toNat_natCast]
  simp only [acceptedColumns, hmetadata, parserInspection, hcolumn, Option.map_some]
  refine ⟨_,rfl,?_,?_⟩
  · have hcount : 1 ≤ (r.pageCount : ℤ) ∧ (r.pageCount : ℤ) ≤ 1000 := by omega
    have hmaximum : 1 ≤ (r.maximumPagePixels : ℤ) ∧ (r.maximumPagePixels : ℤ) ≤ 100000000 := by
      omega
    have htotal : 1 ≤ (r.totalPagePixels : ℤ) ∧ (r.totalPagePixels : ℤ) ≤ 100000000000 := by omega
    have horder : (r.maximumPagePixels : ℤ) ≤ r.totalPagePixels := by omega
    have hlength : ((r.pages.map encodeGeometry).length : ℤ) = r.pageCount := by
      rw [List.length_map, hsame]
    have hprofile : 1 ≤ parserProfile.length ∧ parserProfile.length ≤ 64 := by decide
    have hversion : 1 ≤ parserVersion.length ∧ parserVersion.length ≤ 64 := by decide
    simp only [parserChecks, decide_eq_true hcount, decide_eq_true hmaximum, decide_eq_true htotal,
      decide_eq_true horder, decide_eq_true hprofile, decide_eq_true hversion,
      decide_eq_true hlength, Bool.and_self]
  · have hcount : 1 ≤ r.pageCount ∧ r.pageCount ≤ 1000 := by omega
    unfold validLocator at hlocator
    simp only [Bool.and_eq_true] at hlocator
    obtain ⟨⟨⟨⟨⟨hbucket,hname⟩,hversion⟩,hlength⟩,hdigest⟩,-⟩ := hlocator
    simp only [storedAcceptedSource, hunsigned (show r.pageCount ≤ u32Max by omega),
      hunsigned (show r.maximumPagePixels ≤ u64Max by omega),
      hunsigned (show r.totalPagePixels ≤ u64Max by omega), hread, Option.bind_eq_bind,
      Option.bind_some, pure, validateAcceptedSourceLocator, hbucket, hname, hversion, hlength,
      hdigest, hcontent, decide_eq_true hcount, decide_eq_true hbmaximum, decide_eq_true hbtotal,
      validPageGeometries_sound h, parserIdentifiers, Bool.and_self, if_true]

end Sound

/-! ### The contract -/

/-- The limits `ParserProcess::new` passes on. -/
def defaultLimits : DocumentLimits :=
  ⟨1000,100000000,100000000000,67108864,by decide,by decide,by decide,by decide⟩

section Contract
variable {libraries : Libraries} {encoded : List UInt8} {contentType : String}
  {report : InspectionReport}

theorem inspected_input {limits : DocumentLimits}
    (h : inspectDocument libraries encoded contentType limits = .ok report) :
    encoded.isEmpty = false ∧ encoded.length ≤ maximumEncodedBytes ∧
      validContentType contentType = true := by
  unfold inspectDocument at h
  obtain ⟨hempty,h⟩ := Inspection.refused.mp h
  obtain ⟨hlength,h⟩ := Inspection.refused.mp h
  refine ⟨Bool.eq_false_iff.mpr hempty,Nat.le_of_not_lt hlength,?_⟩
  split at h <;> first | decide | cases h

/-- Nothing stands between the report and the parent's view of it. -/
theorem inspect_sound (hpages : libraries.pdf.NumbersPages)
    (h : inspectDocument libraries encoded contentType defaultLimits = .ok report) :
    ParserProcess.new.inspect libraries encoded contentType =
      .ok ⟨report.pageCount,report.maximumPagePixels,report.totalPagePixels,report.pages⟩ := by
  have hsound := Inspection.inspectDocument_sound hpages h
  have hb := bounds_of_sound hsound
  have hsize := report_size hb.count.2 hb.pages hsound.count hb.maximum.2 hb.total.2
  obtain ⟨hempty,hlength,hcontent⟩ := inspected_input h
  have hnew : DocumentLimits.new ParserProcess.new.maximumPages ParserProcess.new.maximumPagePixels
      ParserProcess.new.maximumTotalPixels = .ok defaultLimits := rfl
  have hchild : child libraries ParserProcess.new encoded contentType =
      (0,(encodeReport report).text compact) := by
    simp only [child, hnew, h]
  have hrun : ParserProcess.new.run libraries encoded contentType =
      .ok ((encodeReport report).text compact) := by
    simp only [ParserProcess.run, hempty, hcontent, hchild, decide_eq_false (Nat.not_lt.mpr hlength),
      if_neg (Nat.not_lt.mpr hsize), Bool.not_true, Bool.or_self, Bool.false_eq_true, if_false]
  have hcount := hb.count.2
  have hsame := hsound.count
  have hmaximum := hb.maximum.2
  have htotal := hb.total.2
  have hwithin : ¬((report.pageCount : ℤ) > (ParserProcess.new.maximumPages : ℤ) ∨
      (report.maximumPagePixels : ℤ) > (ParserProcess.new.maximumPagePixels : ℤ) ∨
      (report.totalPagePixels : ℤ) > (ParserProcess.new.maximumTotalPixels : ℤ)) := by
    show ¬((report.pageCount : ℤ) > 1000 ∨ (report.maximumPagePixels : ℤ) > 100000000 ∨
      (report.totalPagePixels : ℤ) > 100000000000)
    omega
  simp only [ParserProcess.inspect, hrun, parseReport_sound hsound, bind, Except.bind,
    if_neg hwithin]

/-- What the sandbox reports within the default limits fits the parent's output
cap and passes the parent, the store and the loading of the locator, with the
same geometry throughout. -/
theorem geometry_contract (hpages : libraries.pdf.NumbersPages)
    (h : inspectDocument libraries encoded contentType defaultLimits = .ok report) :
    ((encodeReport report).text compact).utf8ByteSize ≤ maximumOutputBytes ∧
    ∃ parsed, parseReport ((encodeReport report).text compact) = .ok parsed ∧
      ParserProcess.new.inspect libraries encoded contentType = .ok parsed ∧
      parsed.pages = report.pages ∧
      ∀ (owner : String) (source : AcceptedSource) (expectedContentType : String),
        validLocator ⟨owner,source⟩ = true → validContentType expectedContentType = true →
        source.parserInspection = parserInspection parsed →
        validateAcceptedSource ⟨owner,source⟩ = true ∧
        ∃ c, acceptedColumns source expectedContentType = some c ∧ parserChecks c = true ∧
          ∃ loaded, storedAcceptedSource c = .ok loaded ∧ loaded.pageGeometries = report.pages ∧
            loaded.pageCount = report.pageCount ∧
            loaded.maximumPagePixels = report.maximumPagePixels ∧
            loaded.totalPagePixels = report.totalPagePixels := by
  have hsound := Inspection.inspectDocument_sound hpages h
  have hb := bounds_of_sound hsound
  refine ⟨report_size hb.count.2 hb.pages hsound.count hb.maximum.2 hb.total.2,_,
    parseReport_sound hsound,inspect_sound hpages h,rfl,?_⟩
  intro owner source expectedContentType hlocator hcontent hmetadata
  obtain ⟨c,hcolumns,hchecks,hload⟩ := storedAcceptedSource_sound hsound hlocator hcontent hmetadata
  exact ⟨validateAcceptedSource_sound hsound hlocator hmetadata,c,hcolumns,hchecks,_,hload,rfl,rfl,
    rfl,rfl⟩

/-- A grey image of one pixel. -/
def pixelTiff : List UInt8 :=
  [73,73,42,0,10,0,0,0,255,0,8,0,0,1,3,0,1,0,0,0,1,0,0,0,1,1,3,0,1,0,0,0,1,0,0,0,
    2,1,3,0,1,0,0,0,8,0,0,0,3,1,3,0,1,0,0,0,1,0,0,0,6,1,3,0,1,0,0,0,1,0,0,0,
    17,1,4,0,1,0,0,0,8,0,0,0,22,1,3,0,1,0,0,0,1,0,0,0,23,1,4,0,1,0,0,0,1,0,0,0,0,0,0,0]

/-- The decoders at that image: it is no PDF and no other image. -/
def pixelLibraries : Libraries where
  pdf := {
    Document := Empty
    Dictionary := Empty
    Object := Empty
    ObjectId := Empty
    decEq := inferInstance
    loadMemWithOptions := fun _ _ => .error .other
    trailer := nofun
    objects := nofun
    getPages := nofun
    getDictionary := nofun
    get := nofun
    asStream := nofun
    asReference := nofun
    asArray := nofun
    asFloat := nofun }
  image := {
    withGuessedFormat := fun _ => some (some .other)
    intoDimensions := fun _ _ _ => none
    decode := fun _ _ _ => none
    decompressToVecBounded := fun _ _ => none }
  tiff := {
    Decoder := Unit
    new := fun encoded _ => if encoded = pixelTiff then some () else none
    dimensions := fun _ => some ((1,1),())
    readImage := fun _ => .ok ()
    moreImages := fun _ => false
    nextImage := fun _ => none }

/-- The image is inspected, and its report of one page passes every check. -/
theorem pixel_contract : ∃ report,
    inspectDocument pixelLibraries pixelTiff "image/tiff" defaultLimits = .ok report ∧
    ∃ parsed, parseReport ((encodeReport report).text compact) = .ok parsed ∧
      parsed.pages = [⟨1,1,1,by decide,by decide⟩] ∧
      ∀ (owner : String) (source : AcceptedSource) (expectedContentType : String),
        validLocator ⟨owner,source⟩ = true → validContentType expectedContentType = true →
        source.parserInspection = parserInspection parsed →
        validateAcceptedSource ⟨owner,source⟩ = true := by
  have hpages : pixelLibraries.pdf.NumbersPages := nofun
  have hinspect : inspectDocument pixelLibraries pixelTiff "image/tiff" defaultLimits =
      .ok ⟨1,1,1,[⟨1,1,1,by decide,by decide⟩],false⟩ := rfl
  obtain ⟨_,parsed,hparsed,_,hsame,haccepted⟩ := geometry_contract hpages hinspect
  exact ⟨_,hinspect,parsed,hparsed,hsame,fun owner source contentType hlocator hcontent hmetadata =>
    (haccepted owner source contentType hlocator hcontent hmetadata).1⟩

end Contract

end DocumentIntelligence.GeometryContract
