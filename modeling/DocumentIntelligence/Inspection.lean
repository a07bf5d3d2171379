import DocumentIntelligence.Uploads

/-!
# The structural inspection of documents

The sandboxed parser inspects a document of one of five kinds and reports the
geometry of its pages. What its decoders answer is arbitrary; only the page tree
of a PDF is assumed to number its pages from one.
-/

set_option autoImplicit false

namespace DocumentIntelligence.Inspection
open Schema (PageGeometry)
open Table (bind_ok)

def maximumEncodedBytes : ℕ := 104857600
def hardMaximumPages : ℕ := 1000
def hardMaximumPagePixels : ℕ := 100000000
def hardMaximumTotalPixels : ℕ := 100000000000
def hardMaximumDecodedStreamBytes : ℕ := 67108864
def maximumDecompressionRatio : ℕ := 200
def maximumPdfObjects : ℕ := 500000
def maximumPageTreeDepth : ℕ := 64
def maximumPngMetadataBytes : ℕ := 1048576
def u64Max : ℕ := 18446744073709551615

inductive Error where
  | nativeTextUnavailable
  | nativeTextLimitExceeded
  | invalidLimits
  | unsupportedContentType
  | invalidDocument
  | passwordProtected
  | encodedByteLimitExceeded (bytes limit : ℕ)
  | pageLimitExceeded (pages limit : ℕ)
  | pixelLimitExceeded (pixels limit : ℕ)
  | objectLimitExceeded (objects limit : ℕ)
  | decodedStreamLimitExceeded (limit : ℕ)
  | decompressionRatioExceeded (compressed decompressed limit : ℕ)
  deriving DecidableEq, Repr

/-- `new` and `with_maximum_decoded_stream_bytes` admit these values only. -/
structure DocumentLimits where
  maximumPages : ℕ
  maximumPagePixels : ℕ
  maximumTotalPixels : ℕ
  maximumDecodedStreamBytes : ℕ
  pages_bounded : 1 ≤ maximumPages ∧ maximumPages ≤ hardMaximumPages
  page_pixels_bounded : 1 ≤ maximumPagePixels ∧ maximumPagePixels ≤ hardMaximumPagePixels
  total_pixels_bounded :
    maximumPagePixels ≤ maximumTotalPixels ∧ maximumTotalPixels ≤ hardMaximumTotalPixels
  decoded_bounded : 1 ≤ maximumDecodedStreamBytes ∧
    maximumDecodedStreamBytes ≤ hardMaximumDecodedStreamBytes

def DocumentLimits.new (maximumPages maximumPagePixels maximumTotalPixels : ℕ) :
    Except Error DocumentLimits :=
  if h : (1 ≤ maximumPages ∧ maximumPages ≤ hardMaximumPages) ∧
      (1 ≤ maximumPagePixels ∧ maximumPagePixels ≤ hardMaximumPagePixels) ∧
      maximumPagePixels ≤ maximumTotalPixels ∧ maximumTotalPixels ≤ hardMaximumTotalPixels then
    .ok ⟨maximumPages,maximumPagePixels,maximumTotalPixels,hardMaximumDecodedStreamBytes,
      h.1,h.2.1,h.2.2,by decide⟩
  else .error .invalidLimits

structure InspectionReport where
  pageCount : ℕ
  maximumPagePixels : ℕ
  totalPagePixels : ℕ
  pages : List PageGeometry
  passwordProtected : Bool
  deriving DecidableEq, Repr

def okOr {α : Type} (e : Error) : Option α → Except Error α
  | some a => .ok a
  | none => .error e

def checkedMul (a b : ℕ) : Option ℕ := if a*b ≤ u64Max then some (a*b) else none
def checkedAdd (a b : ℕ) : Option ℕ := if a+b ≤ u64Max then some (a+b) else none

/-- `PageNumber::new` and `PageGeometry::new`, whose errors the callers treat
alike. -/
def newPageGeometry (page width height : ℕ) : Option PageGeometry :=
  if h : 1 ≤ page ∧ 1 ≤ width ∧ 1 ≤ height ∧ width*height ≤ 100000000 then
    some ⟨page,width,height,h.1,h.2⟩
  else none

section Floats

/-- The remainder of finite numbers, exact, with the sign of the first: both are
a multiple of the same power of two. -/
def fmod (x y : Float) : Float :=
  let parts (z : Float) : ℕ × ℕ :=
    let exponent := z.toBits.toNat/2^52%2^11
    let fraction := z.toBits.toNat%2^52
    if exponent = 0 then (fraction,1) else (2^52+fraction,exponent)
  let (m,e) := parts x
  let (n,f) := parts y
  let low := min e f
  let r := (Float.ofNat (m*2^(e-low)%(n*2^(f-low)))).scaleB ((low : ℤ)-1075)
  if x < 0 then -r else r

def remEuclid (x y : Float) : Float :=
  let r := fmod x y
  if r < 0 then r+y.abs else r

end Floats

/-! ### The decoders -/

inductive LibraryError where
  | limitExceeded
  | other
  deriving DecidableEq, Repr

structure PdfStream where
  filters : Option (List String)
  content : List UInt8
  decompressedContentWithLimit : ℕ → Except LibraryError (List UInt8)

/-- What the inspection uses of the PDF library. -/
structure PdfLibrary where
  Document : Type
  Dictionary : Type
  Object : Type
  ObjectId : Type
  decEq : DecidableEq ObjectId
  loadMemWithOptions : List UInt8 → ℕ → Except LibraryError Document
  trailer : Document → Dictionary
  objects : Document → List Object
  getPages : Document → List (UInt32 × ObjectId)
  getDictionary : Document → ObjectId → Option Dictionary
  get : Dictionary → String → Option Object
  asStream : Object → Option PdfStream
  asReference : Object → Option ObjectId
  asArray : Object → Option (List Object)
  asFloat : Object → Option Float32

/-- The pages of every document are numbered from one without gaps. -/
def PdfLibrary.NumbersPages (pdf : PdfLibrary) : Prop :=
  ∀ document, (pdf.getPages document).map (·.1.toNat) =
    (List.range (pdf.getPages document).length).map (·+1)

inductive ImageFormat where
  | jpeg
  | png
  | webP
  | other
  deriving DecidableEq, Repr

structure ImageLimits where
  maxImageWidth : Option UInt32
  maxImageHeight : Option UInt32
  maxAlloc : ℕ
  deriving DecidableEq, Repr

structure ImageLibrary where
  withGuessedFormat : List UInt8 → Option (Option ImageFormat)
  intoDimensions : List UInt8 → ImageFormat → ImageLimits → Option (UInt32 × UInt32)
  decode : List UInt8 → ImageFormat → ImageLimits → Option Unit
  decompressToVecBounded : List UInt8 → ℕ → Option (List UInt8)

structure TiffLibrary where
  Decoder : Type
  new : List UInt8 → ℕ → Option Decoder
  dimensions : Decoder → Option ((UInt32 × UInt32) × Decoder)
  readImage : Decoder → Except LibraryError Decoder
  moreImages : Decoder → Bool
  nextImage : Decoder → Option Decoder

structure Libraries where
  pdf : PdfLibrary
  image : ImageLibrary
  tiff : TiffLibrary

/-- What the loops over pages have measured. -/
structure Measured where
  pages : List PageGeometry
  maximum : ℕ
  total : ℕ

def Measured.report (m : Measured) : InspectionReport where
  pageCount := m.pages.length
  maximumPagePixels := m.maximum
  totalPagePixels := m.total
  pages := m.pages
  passwordProtected := false

/-! ### PDF -/

section Pdf
variable (pdf : PdfLibrary) (document : pdf.Document)

def inheritedFrom (key : String) : ℕ → pdf.ObjectId → List pdf.ObjectId →
    Except Error (Option pdf.Object)
  | 0, _, _ => .error .invalidDocument
  | depth+1, current, visited =>
    have := pdf.decEq
    if current ∈ visited then .error .invalidDocument else
    match pdf.getDictionary document current with
    | none => .error .invalidDocument
    | some dictionary => match pdf.get dictionary key, pdf.get dictionary "Parent" with
      | some value, _ => .ok (some value)
      | none, none => .ok none
      | none, some parent => match pdf.asReference parent with
        | none => .error .invalidDocument
        | some next => inheritedFrom key depth next (current::visited)

def inheritedOptionalValue (pageId : pdf.ObjectId) (key : String) :
    Except Error (Option pdf.Object) :=
  inheritedFrom pdf document key maximumPageTreeDepth pageId []

def inheritedValue (pageId : pdf.ObjectId) (key : String) : Except Error pdf.Object := do
  okOr .invalidDocument (← inheritedOptionalValue pdf document pageId key)

def inheritedOptionalNumber (pageId : pdf.ObjectId) (key : String) :
    Except Error (Option Float) := do
  match ← inheritedOptionalValue pdf document pageId key with
  | some value => return some (← okOr .invalidDocument (pdf.asFloat value)).toFloat
  | none => return none

def pageGeometry (pageId : pdf.ObjectId) (page : UInt32) : Except Error PageGeometry := do
  let mediaBox ← okOr .invalidDocument
    (pdf.asArray (← inheritedValue pdf document pageId "MediaBox"))
  match ← mediaBox.mapM fun value => okOr .invalidDocument (pdf.asFloat value) with
  | [x0,y0,x1,y1] =>
    let userUnit := (← inheritedOptionalNumber pdf document pageId "UserUnit").getD 1.0
    let widthPoints := (x1.toFloat-x0.toFloat).abs*userUnit
    let heightPoints := (y1.toFloat-y0.toFloat).abs*userUnit
    if !widthPoints.isFinite || !heightPoints.isFinite || decide (widthPoints ≤ 0.0) ||
        decide (heightPoints ≤ 0.0) then .error .invalidDocument else
    let widthPixels := (widthPoints*300.0/72.0).ceil
    let heightPixels := (heightPoints*300.0/72.0).ceil
    if widthPixels > 4294967295.0 ∨ heightPixels > 4294967295.0 then
      .error (.pixelLimitExceeded u64Max u64Max) else
    let rotation := (← inheritedOptionalNumber pdf document pageId "Rotate").getD 0.0
    if !rotation.isFinite || remEuclid rotation 90.0 != 0.0 then .error .invalidDocument else
    let (width,height) := if remEuclid rotation 180.0 == 90.0 then
        (heightPixels.toUInt32,widthPixels.toUInt32)
      else (widthPixels.toUInt32,heightPixels.toUInt32)
    let pixels ← okOr (.pixelLimitExceeded u64Max hardMaximumPagePixels)
      (checkedMul width.toNat height.toNat)
    if pixels > hardMaximumPagePixels then
      .error (.pixelLimitExceeded pixels hardMaximumPagePixels) else
    okOr .invalidDocument (newPageGeometry page.toNat width.toNat height.toNat)
  | _ => .error .invalidDocument

def streamError (maximumDecodedBytes : ℕ) : LibraryError → Error
  | .limitExceeded => .decodedStreamLimitExceeded maximumDecodedBytes
  | .other => .invalidDocument

def validatePdfStream (maximumDecodedBytes : ℕ) (stream : PdfStream) : Except Error Unit :=
  match stream.filters with
  | none => if stream.content.length > maximumDecodedBytes then
      .error (.decodedStreamLimitExceeded maximumDecodedBytes) else .ok ()
  | some filters =>
    if ¬∀ filter ∈ filters, filter ∈ ["FlateDecode","LZWDecode","ASCII85Decode"] then .ok () else
    match stream.decompressedContentWithLimit maximumDecodedBytes with
    | .error e => .error (streamError maximumDecodedBytes e)
    | .ok decompressed =>
      if !stream.content.isEmpty && decide (decompressed.length >
          min (stream.content.length*maximumDecompressionRatio) u64Max) then
        .error (.decompressionRatioExceeded stream.content.length decompressed.length
          maximumDecompressionRatio)
      else .ok ()

def validatePdfStreams (maximumDecodedBytes : ℕ) : Except Error Unit :=
  ((pdf.objects document).filterMap pdf.asStream).forM (validatePdfStream maximumDecodedBytes)

def measurePages (limits : DocumentLimits) :
    List (UInt32 × pdf.ObjectId) → Measured → Except Error Measured
  | [], m => .ok m
  | (page,pageId)::rest, m => do
    let geometry ← pageGeometry pdf document pageId page
    let pixels := geometry.pixels
    if pixels > limits.maximumPagePixels then
      .error (.pixelLimitExceeded pixels limits.maximumPagePixels) else
    let total ← okOr (.pixelLimitExceeded u64Max limits.maximumTotalPixels)
      (checkedAdd m.total pixels)
    if total > limits.maximumTotalPixels then
      .error (.pixelLimitExceeded total limits.maximumTotalPixels) else
    measurePages limits rest ⟨m.pages++[geometry],max m.maximum pixels,total⟩

end Pdf

/-- The ASCII bytes of a name in a format. -/
def ascii (s : String) : List UInt8 := s.toList.map fun c => c.toNat.toUInt8

def inspectPdf (pdf : PdfLibrary) (encoded : List UInt8) (limits : DocumentLimits) :
    Except Error InspectionReport :=
  if !(ascii "%PDF-").isPrefixOf encoded then .error .invalidDocument else
  match pdf.loadMemWithOptions encoded limits.maximumDecodedStreamBytes with
  | .error e => .error (streamError limits.maximumDecodedStreamBytes e)
  | .ok document => do
    if (pdf.get (pdf.trailer document) "Encrypt").isSome then .error .passwordProtected else
    if (pdf.objects document).length > maximumPdfObjects then
      .error (.objectLimitExceeded (pdf.objects document).length maximumPdfObjects) else
    validatePdfStreams pdf document limits.maximumDecodedStreamBytes
    let pages := pdf.getPages document
    if pages.isEmpty then .error .invalidDocument else
    if pages.length > limits.maximumPages then
      .error (.pageLimitExceeded pages.length limits.maximumPages) else
    let m ← measurePages pdf document limits pages ⟨[],0,0⟩
    return m.report

/-! ### Images -/

section Image
variable (image : ImageLibrary)

def bigEndian (bytes : List UInt8) : ℕ := bytes.foldl (fun n byte => 256*n+byte.toNat) 0

def pngTextField (data : List UInt8) : Option (List UInt8) :=
  match data.dropWhile (· != 0) with
  | [] => none
  | _::rest => some rest

/-- The compressed part of a chunk of this kind. -/
def pngCompressed (kind data : List UInt8) : Option (Option (List UInt8)) := do
  if kind = ascii "iCCP" ∨ kind = ascii "zTXt" then
    match ← pngTextField data with
    | 0::compressed => some (some compressed)
    | _ => none
  else if kind = ascii "iTXt" then
    match ← pngTextField data with
    | compression::method::rest =>
      if compression > 1 || method != 0 then none else
      let text ← pngTextField (← pngTextField rest)
      some (if compression == 1 then some text else none)
    | _ => none
  else some none

def checkedSub (a b : ℕ) : Option ℕ := if b ≤ a then some (a-b) else none

/-- What remains for metadata after a chunk. -/
def pngRemaining (kind data : List UInt8) (remaining : ℕ) : Option ℕ := do
  let ancillary := kind.head?.any fun byte => decide (97 ≤ byte ∧ byte ≤ 122)
  let remaining ← if ancillary && kind != ascii "fdAT" then checkedSub remaining data.length
    else some remaining
  match ← pngCompressed kind data with
  | some compressed =>
    let decoded ← image.decompressToVecBounded compressed remaining
    checkedSub remaining decoded.length
  | none => some remaining

def validatePngChunks (chunks : List UInt8) (remaining : ℕ) : Except Error Unit :=
  let last := bigEndian (chunks.take 4)+12
  if _h : chunks.length < last then .error .invalidDocument else
  let kind := (chunks.take 8).drop 4
  match pngRemaining image kind ((chunks.take (last-4)).drop 8) remaining with
  | none => .error .invalidDocument
  | some remaining => if kind = ascii "IEND" then .ok ()
    else validatePngChunks (chunks.drop last) remaining
termination_by chunks.length
decreasing_by
  rw [List.length_drop]
  omega

def validatePngMetadata (encoded : List UInt8) : Except Error Unit :=
  if encoded.length < 8 then .error .invalidDocument
  else validatePngChunks image (encoded.drop 8) maximumPngMetadataBytes

def inspectImage (encoded : List UInt8) (expectedFormat : ImageFormat) (limits : DocumentLimits) :
    Except Error InspectionReport := do
  let decodeLimits : ImageLimits := ⟨none,none,67108864⟩
  let format ← okOr .invalidDocument (image.withGuessedFormat encoded)
  if format ≠ some expectedFormat then .error .invalidDocument else
  (if expectedFormat = .png then validatePngMetadata image encoded else .ok ())
  let (width,height) ← okOr .invalidDocument
    (image.intoDimensions encoded expectedFormat decodeLimits)
  let pixels ← okOr (.pixelLimitExceeded u64Max limits.maximumPagePixels)
    (checkedMul width.toNat height.toNat)
  if pixels = 0 then .error .invalidDocument else
  if pixels > limits.maximumPagePixels then
    .error (.pixelLimitExceeded pixels limits.maximumPagePixels) else
  okOr .invalidDocument
    (image.decode encoded expectedFormat ⟨some width,some height,decodeLimits.maxAlloc⟩)
  let geometry ← okOr .invalidDocument (newPageGeometry 1 width.toNat height.toNat)
  return ⟨1,pixels,pixels,[geometry],false⟩

end Image

section Tiff
variable (tiff : TiffLibrary) (limits : DocumentLimits)

/-- The loop over images; the argument counts the pages that are still allowed. -/
def measureImages : ℕ → tiff.Decoder → Measured → Except Error Measured
  | 0, _, m => .error (.pageLimitExceeded (m.pages.length+1) limits.maximumPages)
  | remaining+1, decoder, m => do
    let ((width,height),decoder) ← okOr .invalidDocument (tiff.dimensions decoder)
    let pixels ← okOr (.pixelLimitExceeded u64Max limits.maximumTotalPixels)
      ((checkedMul width.toNat height.toNat).filter
        fun n => decide (0 < n ∧ n ≤ limits.maximumPagePixels))
    let total ← okOr (.pixelLimitExceeded u64Max limits.maximumTotalPixels)
      ((checkedAdd m.total pixels).filter fun n => decide (n ≤ limits.maximumTotalPixels))
    let decoder ← (tiff.readImage decoder).mapError fun e => match e with
      | .limitExceeded => .pixelLimitExceeded pixels limits.maximumPagePixels
      | .other => .invalidDocument
    let geometry ← okOr .invalidDocument
      (newPageGeometry (m.pages.length%4294967296+1) width.toNat height.toNat)
    let measured : Measured := ⟨m.pages++[geometry],max m.maximum pixels,total⟩
    if tiff.moreImages decoder then
      let decoder ← okOr .invalidDocument (tiff.nextImage decoder)
      measureImages remaining decoder measured
    else return measured

def inspectTiff (encoded : List UInt8) : Except Error InspectionReport := do
  let decoder ← okOr .invalidDocument (tiff.new encoded hardMaximumDecodedStreamBytes)
  let m ← measureImages tiff limits limits.maximumPages decoder ⟨[],0,0⟩
  return m.report

end Tiff

def inspectDocument (libraries : Libraries) (encoded : List UInt8) (contentType : String)
    (limits : DocumentLimits) : Except Error InspectionReport :=
  if encoded.isEmpty then .error .invalidDocument else
  if encoded.length > maximumEncodedBytes then
    .error (.encodedByteLimitExceeded encoded.length maximumEncodedBytes) else
  match contentType with
  | "application/pdf" => inspectPdf libraries.pdf encoded limits
  | "image/jpeg" => inspectImage libraries.image encoded .jpeg limits
  | "image/png" => inspectImage libraries.image encoded .png limits
  | "image/tiff" => inspectTiff libraries.tiff limits encoded
  | "image/webp" => inspectImage libraries.image encoded .webP limits
  | _ => .error .unsupportedContentType

/-! ### What a report says -/

theorem okOr_ok {α : Type} {e : Error} {o : Option α} {a : α} :
    okOr e o = .ok a ↔ o = some a := by
  cases o <;> simp [okOr]

theorem refused {α : Type} {c : Prop} [Decidable c] {e : Error} {x : Except Error α} {a : α} :
    (if c then .error e else x) = .ok a ↔ ¬c ∧ x = .ok a := by
  by_cases hc : c <;> simp [hc]

theorem newPageGeometry_some {page width height : ℕ} {g : PageGeometry}
    (h : newPageGeometry page width height = some g) :
    g.page = page ∧ g.pixels = width*height := by
  unfold newPageGeometry at h
  split_ifs at h with hvalid
  cases h
  exact ⟨rfl,rfl⟩

/-- What every report says of its pages: their numbers run from one, and the
maximum and the total are those of the pages and within the limits. -/
structure InspectionReport.Sound (limits : DocumentLimits) (r : InspectionReport) : Prop where
  count : r.pageCount = r.pages.length
  count_bounded : 1 ≤ r.pages.length ∧ r.pages.length ≤ limits.maximumPages
  numbered : r.pages.map (·.page) = (List.range r.pages.length).map (·+1)
  maximum : r.maximumPagePixels = (r.pages.map PageGeometry.pixels).foldl max 0
  maximum_bounded : r.maximumPagePixels ≤ limits.maximumPagePixels
  total : r.totalPagePixels = (r.pages.map PageGeometry.pixels).sum
  total_bounded : r.totalPagePixels ≤ limits.maximumTotalPixels
  readable : r.passwordProtected = false

/-- The invariant of both loops over pages. -/
structure Tally (limits : DocumentLimits) (m : Measured) : Prop where
  maximum : m.maximum = (m.pages.map PageGeometry.pixels).foldl max 0
  maximum_bounded : m.maximum ≤ limits.maximumPagePixels
  total : m.total = (m.pages.map PageGeometry.pixels).sum
  total_bounded : m.total ≤ limits.maximumTotalPixels

section Loops
variable {limits : DocumentLimits} {m m' : Measured}

theorem tally_empty (limits : DocumentLimits) : Tally limits ⟨[],0,0⟩ :=
  ⟨rfl,Nat.zero_le _,rfl,Nat.zero_le _⟩

theorem Tally.push (h : Tally limits m) {g : PageGeometry} (hpage : g.pixels ≤ limits.maximumPagePixels)
    (htotal : m.total+g.pixels ≤ limits.maximumTotalPixels) :
    Tally limits ⟨m.pages++[g],max m.maximum g.pixels,m.total+g.pixels⟩ := by
  refine ⟨?_,max_le h.maximum_bounded hpage,?_,htotal⟩
  · rw [List.map_append, List.foldl_append, ← h.maximum]
    rfl
  · rw [List.map_append, List.sum_append, ← h.total]
    rfl

theorem Tally.report (h : Tally limits m) (hcount : 1 ≤ m.pages.length ∧
      m.pages.length ≤ limits.maximumPages)
    (hnumbered : m.pages.map (·.page) = (List.range m.pages.length).map (·+1)) :
    m.report.Sound limits :=
  ⟨rfl,hcount,hnumbered,h.maximum,h.maximum_bounded,h.total,h.total_bounded,rfl⟩

theorem checkedAdd_some {a b n : ℕ} (h : checkedAdd a b = some n) : n = a+b := by
  unfold checkedAdd at h
  split_ifs at h
  exact (Option.some.inj h).symm

theorem checkedMul_some {a b n : ℕ} (h : checkedMul a b = some n) : n = a*b := by
  unfold checkedMul at h
  split_ifs at h
  exact (Option.some.inj h).symm

variable {pdf : PdfLibrary} {document : pdf.Document}

theorem pageGeometry_page {pageId : pdf.ObjectId} {page : UInt32} {g : PageGeometry}
    (h : pageGeometry pdf document pageId page = .ok g) : g.page = page.toNat := by
  unfold pageGeometry at h
  obtain ⟨mediaValue,_,h⟩ := bind_ok.mp h
  obtain ⟨mediaBox,_,h⟩ := bind_ok.mp h
  obtain ⟨coordinates,_,h⟩ := bind_ok.mp h
  split at h
  · obtain ⟨userUnit,_,h⟩ := bind_ok.mp h
    obtain ⟨_,h⟩ := refused.mp h
    obtain ⟨_,h⟩ := refused.mp h
    obtain ⟨rotation,_,h⟩ := bind_ok.mp h
    obtain ⟨_,h⟩ := refused.mp h
    obtain ⟨pixels,_,h⟩ := bind_ok.mp h
    obtain ⟨_,h⟩ := refused.mp h
    exact (newPageGeometry_some (okOr_ok.mp h)).1
  · cases h

/-- The loop of a PDF keeps the tally and takes its numbers from the page tree. -/
theorem measurePages_tally {rest : List (UInt32 × pdf.ObjectId)} (htally : Tally limits m)
    (h : measurePages pdf document limits rest m = .ok m') :
    Tally limits m' ∧
      m'.pages.map (·.page) = m.pages.map (·.page)++rest.map (·.1.toNat) := by
  induction rest generalizing m with
  | nil =>
    cases h
    exact ⟨htally,(List.append_nil _).symm⟩
  | cons entry rest ih =>
    obtain ⟨page,pageId⟩ := entry
    rw [measurePages] at h
    obtain ⟨geometry,hgeometry,h⟩ := bind_ok.mp h
    obtain ⟨hpixels,h⟩ := refused.mp h
    obtain ⟨total,htotal,h⟩ := bind_ok.mp h
    obtain ⟨hlimit,h⟩ := refused.mp h
    cases checkedAdd_some (okOr_ok.mp htotal)
    have hpushed := htally.push (Nat.le_of_not_lt hpixels) (Nat.le_of_not_lt hlimit)
    obtain ⟨hfinal,hpages⟩ := ih hpushed h
    refine ⟨hfinal,?_⟩
    rw [hpages, List.map_append, List.append_assoc, List.map_singleton,
      pageGeometry_page hgeometry]
    rfl

variable {tiff : TiffLibrary}

/-- The loop of a TIFF keeps the tally and numbers the images as it goes. -/
theorem measureImages_tally {remaining : ℕ} {decoder : tiff.Decoder} (htally : Tally limits m)
    (hnumbered : m.pages.map (·.page) = (List.range m.pages.length).map (·+1))
    (hremaining : m.pages.length+remaining = limits.maximumPages)
    (h : measureImages tiff limits remaining decoder m = .ok m') :
    Tally limits m' ∧ (1 ≤ m'.pages.length ∧ m'.pages.length ≤ limits.maximumPages) ∧
      m'.pages.map (·.page) = (List.range m'.pages.length).map (·+1) := by
  induction remaining generalizing m decoder with
  | zero => cases h
  | succ remaining ih =>
    rw [measureImages] at h
    obtain ⟨⟨⟨width,height⟩,decoder⟩,_,h⟩ := bind_ok.mp h
    obtain ⟨pixels,hpixels,h⟩ := bind_ok.mp h
    obtain ⟨total,htotal,h⟩ := bind_ok.mp h
    obtain ⟨decoder,_,h⟩ := bind_ok.mp h
    obtain ⟨geometry,hgeometry,h⟩ := bind_ok.mp h
    obtain ⟨hmul,hbound⟩ := Option.filter_eq_some_iff.mp (okOr_ok.mp hpixels)
    obtain ⟨hadd,hlimit⟩ := Option.filter_eq_some_iff.mp (okOr_ok.mp htotal)
    obtain ⟨hpage,harea⟩ := newPageGeometry_some (okOr_ok.mp hgeometry)
    have hbounds := limits.pages_bounded.2
    have hsame : pixels = geometry.pixels := (checkedMul_some hmul).trans harea.symm
    have hlength : m.pages.length < hardMaximumPages := by omega
    have hsmall : m.pages.length%4294967296 = m.pages.length :=
      Nat.mod_eq_of_lt (hlength.trans (by decide))
    cases checkedAdd_some hadd
    subst hsame
    have hpushed := htally.push (of_decide_eq_true hbound).2 (of_decide_eq_true hlimit)
    have hnext : (m.pages++[geometry]).map (·.page) =
        (List.range (m.pages++[geometry]).length).map (·+1) := by
      rw [List.length_append, List.length_singleton, List.range_succ, List.map_append, List.map_append,
        hnumbered, List.map_singleton, List.map_singleton, hpage, hsmall]
    have hcount : (m.pages++[geometry]).length = m.pages.length+1 := List.length_append
    by_cases hmore : tiff.moreImages decoder = true
    · rw [if_pos hmore] at h
      obtain ⟨next,_,h⟩ := bind_ok.mp h
      exact ih hpushed hnext (by show (m.pages++[geometry]).length+remaining = _; omega) h
    · rw [if_neg hmore] at h
      cases h
      refine ⟨hpushed,?_,hnext⟩
      show 1 ≤ (m.pages++[geometry]).length ∧ (m.pages++[geometry]).length ≤ _
      omega

end Loops

section Reports
variable {libraries : Libraries} {limits : DocumentLimits} {encoded : List UInt8}
  {report : InspectionReport}

theorem inspectPdf_sound {pdf : PdfLibrary} (hpages : pdf.NumbersPages)
    (h : inspectPdf pdf encoded limits = .ok report) : report.Sound limits := by
  unfold inspectPdf at h
  obtain ⟨_,h⟩ := refused.mp h
  cases hload : pdf.loadMemWithOptions encoded limits.maximumDecodedStreamBytes with
  | error e =>
    rw [hload] at h
    cases h
  | ok document =>
    rw [hload] at h
    obtain ⟨_,h⟩ := refused.mp h
    obtain ⟨_,h⟩ := refused.mp h
    obtain ⟨_,_,h⟩ := bind_ok.mp h
    obtain ⟨hempty,h⟩ := refused.mp h
    obtain ⟨hlimit,h⟩ := refused.mp h
    obtain ⟨m,hm,h⟩ := bind_ok.mp h
    cases h
    obtain ⟨htally,hnumbers⟩ := measurePages_tally (tally_empty limits) hm
    have hlength : m.pages.length = (pdf.getPages document).length := by
      have := congrArg List.length hnumbers
      simpa using this
    have hpos : 1 ≤ (pdf.getPages document).length := by
      rw [List.isEmpty_iff] at hempty
      exact List.length_pos_of_ne_nil hempty
    refine htally.report (by omega) ?_
    rw [hnumbers, hlength, ← hpages document]
    rfl

theorem inspectTiff_sound {tiff : TiffLibrary} (h : inspectTiff tiff limits encoded = .ok report) :
    report.Sound limits := by
  unfold inspectTiff at h
  obtain ⟨decoder,_,h⟩ := bind_ok.mp h
  obtain ⟨m,hm,h⟩ := bind_ok.mp h
  cases h
  have htally := tally_empty limits
  obtain ⟨hfinal,hcount,hnumbered⟩ := measureImages_tally htally rfl (Nat.zero_add _) hm
  exact hfinal.report hcount hnumbered

theorem inspectImage_sound {image : ImageLibrary} {format : ImageFormat}
    (h : inspectImage image encoded format limits = .ok report) : report.Sound limits := by
  unfold inspectImage at h
  obtain ⟨guessed,_,h⟩ := bind_ok.mp h
  obtain ⟨_,h⟩ := refused.mp h
  obtain ⟨_,_,h⟩ := bind_ok.mp h
  obtain ⟨⟨width,height⟩,_,h⟩ := bind_ok.mp h
  obtain ⟨pixels,hpixels,h⟩ := bind_ok.mp h
  obtain ⟨_,h⟩ := refused.mp h
  obtain ⟨hlimit,h⟩ := refused.mp h
  obtain ⟨_,_,h⟩ := bind_ok.mp h
  obtain ⟨geometry,hgeometry,h⟩ := bind_ok.mp h
  cases h
  obtain ⟨hpage,harea⟩ := newPageGeometry_some (okOr_ok.mp hgeometry)
  have hsame : pixels = geometry.pixels :=
    (checkedMul_some (okOr_ok.mp hpixels)).trans harea.symm
  have hbound : pixels ≤ limits.maximumPagePixels := Nat.le_of_not_lt hlimit
  exact {
    count := rfl
    count_bounded := ⟨le_rfl,limits.pages_bounded.1⟩
    numbered := congrArg (fun page => [page]) hpage
    maximum := by rw [hsame]; exact (Nat.zero_max _).symm
    maximum_bounded := hbound
    total := hsame
    total_bounded := hbound.trans limits.total_pixels_bounded.1
    readable := rfl }

theorem inspectDocument_sound (hpages : libraries.pdf.NumbersPages) {contentType : String}
    (h : inspectDocument libraries encoded contentType limits = .ok report) :
    report.Sound limits := by
  unfold inspectDocument at h
  obtain ⟨_,h⟩ := refused.mp h
  obtain ⟨_,h⟩ := refused.mp h
  split at h
  · exact inspectPdf_sound hpages h
  · exact inspectImage_sound h
  · exact inspectImage_sound h
  · exact inspectTiff_sound h
  · exact inspectImage_sound h
  · cases h

end Reports

end DocumentIntelligence.Inspection
