import DocumentIntelligence.NativeText
import DocumentIntelligence.PageArtifacts
import DocumentIntelligence.PageSources
import DocumentIntelligence.TextAnchors

/-!
# Recognition by the provider

A page without native text is sent to the provider, whose response names the page and its
lines. Coordinates and confidences are those of an ordered field. A stop of the parser which
is no error is `panic`.
-/

set_option autoImplicit false

namespace DocumentIntelligence.ManagedRecognition
open Table (bind_ok mapM_ok_iff)
open DocumentPages (ObservationId maximumObservations validObservation)
open PageArtifacts (PageRecognitionError)
open PageSources (PageSourceError AcceptedPageSource)
open PageObservations (PageNumber Confidence NormalizedPoint Polygon TextObservation DocumentPage)
open TextAnchors

/-! ### What is sent -/

def mapSourceError : PageSourceError → PageRecognitionError
  | .unavailable => .retryable
  | .notFound | .invalid => .permanent

structure DocumentAiRequest where
  page : ℕ
  contentType : String
  bytes : List UInt8
  deriving DecidableEq, Repr

def DocumentAiRequest.new (page : ℕ) (source : AcceptedPageSource) : DocumentAiRequest :=
  ⟨page,source.contentType,source.bytes⟩

/-- `ParserProcess::prepare_ocr` -/
abbrev Preprocessor := List UInt8 → String → Except Unit (Option (List UInt8))

/-- The request for a source, of which a small picture may be prepared. -/
def prepareRequest (preprocessor : Option Preprocessor) (page : ℕ) (source : AcceptedPageSource) :
    DocumentAiRequest :=
  let request := DocumentAiRequest.new page source
  if max source.geometry.width source.geometry.height ≤ 640 ∧
      64 ≤ min source.geometry.width source.geometry.height ∧
      request.contentType ∈ ["image/png","image/jpeg","image/webp"] then
    match preprocessor with
    | none => request
    | some prepareOcr => match prepareOcr request.bytes request.contentType with
      | .ok (some bytes) => { request with bytes := bytes, contentType := "image/png" }
      | .ok none => request
      | .error _ => request
  else request

/-! ### What comes back -/

inductive DocumentAiTransportError where
  | rateLimited
  | invalid
  | unavailable
  deriving DecidableEq, Repr

def maximumManagedInputBytes : ℕ := 20*1024*1024

def maximumManagedResponseBytes : ℕ := 16*1024*1024

def isSupportedContentType (value : String) : Bool :=
  ["application/pdf","image/jpeg","image/png","image/tiff","image/webp"].contains value

def mapHttpStatus (status : ℕ) : DocumentAiTransportError :=
  if status = 429 then .rateLimited
  else if status = 408 ∨ 500 ≤ status ∧ status < 600 then .unavailable
  else .invalid

/-- The head of a response and the chunks of its body, of which one may fail. -/
structure Response where
  status : ℕ
  contentLength : Option ℕ
  chunks : List (Option (List UInt8))
  deriving DecidableEq, Repr

/-- The loop of `read_bounded_response` -/
def readChunk (body : List UInt8) (chunk : Option (List UInt8)) :
    Except DocumentAiTransportError (List UInt8) :=
  match chunk with
  | none => .error .unavailable
  | some chunk =>
    if maximumManagedResponseBytes < body.length+chunk.length then .error .invalid
    else .ok (body++chunk)

def readBoundedResponse (response : Response) : Except DocumentAiTransportError (List UInt8) :=
  if response.contentLength.any fun length => decide (maximumManagedResponseBytes < length) then
    .error .invalid
  else do
    let body ← response.chunks.foldlM readChunk []
    if body = [] then .error .invalid else .ok body

/-- `process_inner`; without a token or an answer there is no response. -/
def process (request : DocumentAiRequest) (response : Option Response) :
    Except DocumentAiTransportError (List UInt8) :=
  if request.bytes = [] ∨ maximumManagedInputBytes < request.bytes.length ∨
      !isSupportedContentType request.contentType then .error .invalid
  else match response with
  | none => .error .unavailable
  | some response =>
    if !decide (200 ≤ response.status ∧ response.status < 300) then
      .error (mapHttpStatus response.status)
    else readBoundedResponse response

/-! ### The document of the provider -/

variable {K : Type}

variable (K) in
structure WireVertex where
  x : Option K
  y : Option K

variable (K) in
structure WireBoundingPoly where
  normalizedVertices : List (WireVertex K)

variable (K) in
structure WireLayout where
  textAnchor : WireTextAnchor
  confidence : Option K
  boundingPoly : WireBoundingPoly K

variable (K) in
structure WireLine where
  layout : WireLayout K

variable (K) in
structure WirePage where
  pageNumber : ℕ
  lines : List (WireLine K)

variable (K) in
structure WireDocument where
  text : String
  pages : List (WirePage K)

variable (K) in
structure ProcessResponse where
  document : Option (WireDocument K)

section Field
variable [Field K] [LinearOrder K]

def WireVertex.point (vertex : WireVertex K) : K×K := (vertex.x.getD 0,vertex.y.getD 0)

def lineId (page : PageNumber) (index : ℕ) : String :=
  "obs_docai_p"++toString page.value++"_line"++toString index

def observation (documentText : AnchoredText) (page : PageNumber) (index : ℕ)
    (line : WireLine K) : Except Stop (TextObservation K) := do
  let readingOrder ← okOr (if index < 2^32 then some index else none)
  let text ← documentText.resolve line.layout.textAnchor
  let value ← okOr line.layout.confidence
  let confidence ← okOr (Confidence.new value)
  let points ← line.layout.boundingPoly.normalizedVertices.mapM fun vertex =>
    okOr (NormalizedPoint.new vertex.point.1 vertex.point.2)
  let polygon ← okOr (Polygon.new points)
  let observationId ← okOr (PageObservations.ObservationId.new (lineId page index))
  okOr (TextObservation.new observationId .line text confidence polygon readingOrder none)

def parseDocument (parse : List UInt8 → Option (ProcessResponse K)) (encoded : List UInt8)
    (expectedPage width height : ℕ) : Except Stop (DocumentPage K) := do
  let response ← okOr (parse encoded)
  let document ← okOr response.document
  match document.pages with
  | [page] =>
    if maximumManagedResponseBytes < document.text.utf8ByteSize then .error .permanent
    else if page.pageNumber ≠ expectedPage ∨ 100000 < page.lines.length then .error .permanent
    else if h : 1 ≤ expectedPage ∧ expectedPage < 2^32 then do
      let text := AnchoredText.new document.text
      let observations ← page.lines.zipIdx.mapM fun (line,index) =>
        observation text ⟨expectedPage,h⟩ index line
      okOr (DocumentPage.new ⟨expectedPage,h⟩ width height observations)
    else .error .permanent
  | _ => .error .permanent

/-! ### The recognizers -/

inductive RecognitionStop where
  | error (e : PageRecognitionError)
  | panic
  deriving DecidableEq, Repr

def transportError : DocumentAiTransportError → PageRecognitionError
  | .invalid => .permanent
  | .unavailable => .retryable
  | .rateLimited => .rateLimited

/-- `DocumentAiPageRecognizer::recognize_inner`, with what it meets: the source, and what the
provider answers to a request. -/
def recognizeInner (parse : List UInt8 → Option (ProcessResponse K))
    (preprocessor : Option Preprocessor) (provider : DocumentAiRequest → Option Response)
    (source : Except PageSourceError AcceptedPageSource) (page : ℕ) :
    Except RecognitionStop (DocumentPage K) :=
  match source with
  | .error e => .error (.error (mapSourceError e))
  | .ok source =>
    let request := prepareRequest preprocessor page source
    match process request (provider request) with
    | .error e => .error (.error (transportError e))
    | .ok output => match parseDocument parse output page source.geometry.width
        source.geometry.height with
      | .error .permanent => .error (.error .permanent)
      | .error .panic => .error .panic
      | .ok page => .ok page

/-- `HybridPageRecognizer::recognize` -/
def recognize (native managed : Except RecognitionStop (DocumentPage K)) :
    Except RecognitionStop (DocumentPage K) :=
  match native with
  | .error e => .error e
  | .ok page =>
    if page.observations ≠ [] then .ok page
    else match managed with
    -- Pages which the provider cannot take stay without text.
    | .error (.error .permanent) => .ok page
    | read => read

/-! ### The body of a response -/

theorem readChunks_ok {chunks : List (Option (List UInt8))} {start body : List UInt8} :
    chunks.foldlM readChunk start = .ok body ↔ ∃ parts : List (List UInt8),
      chunks = parts.map some ∧ body = start++parts.flatten ∧
        (chunks ≠ [] → body.length ≤ maximumManagedResponseBytes) := by
  induction chunks generalizing start with
  | nil =>
    rw [List.foldlM_nil]
    constructor
    · intro h
      cases h
      exact ⟨[],rfl,(List.append_nil _).symm,fun h => absurd rfl h⟩
    · rintro ⟨parts,hparts,rfl,_⟩
      rw [List.map_eq_nil_iff.mp hparts.symm,List.flatten_nil,List.append_nil]
      rfl
  | cons chunk chunks ih =>
    rw [List.foldlM_cons,bind_ok]
    constructor
    · rintro ⟨next,hnext,hrest⟩
      cases chunk with
      | none => cases hnext
      | some chunk =>
        rw [readChunk] at hnext
        split at hnext
        · cases hnext
        rename_i hfits
        cases hnext
        obtain ⟨parts,rfl,hbody,hlength⟩ := ih.mp hrest
        refine ⟨chunk::parts,rfl,?_,fun _ => ?_⟩
        · rw [hbody,List.flatten_cons,List.append_assoc]
        · by_cases hempty : parts = []
          · rw [hbody,hempty,List.flatten_nil,List.append_nil,List.length_append]
            omega
          · exact hlength (by simpa using hempty)
    · rintro ⟨parts,hparts,rfl,hlength⟩
      cases parts with
      | nil => cases hparts
      | cons part parts =>
        rw [List.map_cons,List.cons.injEq] at hparts
        obtain ⟨rfl,rfl⟩ := hparts
        have hbound := hlength (List.cons_ne_nil _ _)
        rw [List.flatten_cons,List.length_append,List.length_append] at hbound
        refine ⟨start++part,?_,?_⟩
        · rw [readChunk,if_neg (by omega)]
        · refine ih.mpr ⟨parts,rfl,by rw [List.flatten_cons,List.append_assoc],fun _ => ?_⟩
          rw [List.flatten_cons,← List.append_assoc,List.length_append,List.length_append]
          omega

/-- The body is that of a response of the service, however it is cut into chunks. -/
def Response.Body (response : Response) (body : List UInt8) : Prop :=
  (200 ≤ response.status ∧ response.status < 300) ∧
    (∀ length ∈ response.contentLength, length ≤ maximumManagedResponseBytes) ∧
    (∃ parts : List (List UInt8), response.chunks = parts.map some ∧ body = parts.flatten) ∧
    body ≠ [] ∧ body.length ≤ maximumManagedResponseBytes

theorem declared_long {response : Response} : (response.contentLength.any fun length =>
    decide (maximumManagedResponseBytes < length)) = true ↔
      ∃ length ∈ response.contentLength, maximumManagedResponseBytes < length := by
  cases response.contentLength <;> simp

theorem readBoundedResponse_ok {response : Response} {body : List UInt8} :
    readBoundedResponse response = .ok body ↔
      (∀ length ∈ response.contentLength, length ≤ maximumManagedResponseBytes) ∧
        (∃ parts : List (List UInt8), response.chunks = parts.map some ∧ body = parts.flatten) ∧
        body ≠ [] ∧ body.length ≤ maximumManagedResponseBytes := by
  rw [readBoundedResponse]
  split
  · rename_i hlong
    obtain ⟨length,hlength,hlarge⟩ := declared_long.mp hlong
    exact iff_of_false nofun fun h => not_lt.mpr (h.1 length hlength) hlarge
  · rename_i hdeclared
    have hshort : ∀ length ∈ response.contentLength, length ≤ maximumManagedResponseBytes :=
      fun length hlength => not_lt.mp fun hlarge => hdeclared
        (declared_long.mpr ⟨length,hlength,hlarge⟩)
    rw [bind_ok]
    constructor
    · rintro ⟨read,hread,hbody⟩
      obtain ⟨parts,hparts,hflat,hlength⟩ := readChunks_ok.mp hread
      split at hbody
      · cases hbody
      rename_i hne
      cases hbody
      rw [List.nil_append] at hflat
      refine ⟨hshort,⟨parts,hparts,hflat⟩,hne,hlength ?_⟩
      rintro hnil
      rw [hnil,eq_comm,List.map_eq_nil_iff] at hparts
      exact hne (by rw [hflat,hparts,List.flatten_nil])
    · rintro ⟨_,⟨parts,hparts,hflat⟩,hne,hlength⟩
      exact ⟨body,readChunks_ok.mpr ⟨parts,hparts,hflat,fun _ => hlength⟩,if_neg hne⟩

/-- Responses which are refused for good. -/
def Response.Rejected (response : Response) : Prop :=
  (¬(200 ≤ response.status ∧ response.status < 300) ∧
    mapHttpStatus response.status = .invalid) ∨
  (200 ≤ response.status ∧ response.status < 300) ∧
    ((∃ length ∈ response.contentLength, maximumManagedResponseBytes < length) ∨
      (∃ parts : List (List UInt8), parts.map some <+: response.chunks ∧
        maximumManagedResponseBytes < parts.flatten.length) ∨
      ∃ parts : List (List UInt8), response.chunks = parts.map some ∧ parts.flatten = [])

/-- Only too much read ends the loop for good: a chunk which fails may be read again. -/
theorem readChunks_invalid {chunks : List (Option (List UInt8))} {start : List UInt8}
    (hstart : start.length ≤ maximumManagedResponseBytes) :
    chunks.foldlM readChunk start = .error .invalid ↔ ∃ parts : List (List UInt8),
      parts.map some <+: chunks ∧
        maximumManagedResponseBytes < start.length+parts.flatten.length := by
  induction chunks generalizing start with
  | nil =>
    refine iff_of_false nofun ?_
    rintro ⟨parts,hparts,hlong⟩
    rw [List.map_eq_nil_iff.mp (List.prefix_nil.mp hparts),List.flatten_nil] at hlong
    exact absurd hlong (by simpa using hstart)
  | cons chunk chunks ih =>
    rw [List.foldlM_cons]
    cases chunk with
    | none =>
      refine iff_of_false nofun ?_
      rintro ⟨parts,hparts,hlong⟩
      cases parts with
      | nil => exact absurd hlong (by simpa using hstart)
      | cons part parts =>
        rw [List.map_cons,List.cons_prefix_cons] at hparts
        cases hparts.1
    | some chunk =>
      rw [readChunk]
      split
      · rename_i hlong
        refine iff_of_true rfl ⟨[chunk],?_,?_⟩
        · rw [List.map_singleton,List.cons_prefix_cons]
          exact ⟨rfl,List.nil_prefix⟩
        · rwa [List.flatten_singleton]
      · rename_i hfits
        rw [not_lt] at hfits
        change chunks.foldlM readChunk (start++chunk) = _ ↔ _
        rw [ih (by rwa [List.length_append])]
        constructor
        · rintro ⟨parts,hparts,hlong⟩
          refine ⟨chunk::parts,List.cons_prefix_cons.mpr ⟨rfl,hparts⟩,?_⟩
          rw [List.length_append] at hlong
          rw [List.flatten_cons,List.length_append]
          omega
        · rintro ⟨parts,hparts,hlong⟩
          cases parts with
          | nil => exact absurd hlong (by simpa using hstart)
          | cons part parts =>
            rw [List.map_cons,List.cons_prefix_cons,Option.some.injEq] at hparts
            obtain ⟨rfl,hparts⟩ := hparts
            refine ⟨parts,hparts,?_⟩
            rw [List.flatten_cons,List.length_append] at hlong
            rw [List.length_append]
            omega

theorem readBoundedResponse_invalid {response : Response} :
    readBoundedResponse response = .error .invalid ↔
      (∃ length ∈ response.contentLength, maximumManagedResponseBytes < length) ∨
        (∃ parts : List (List UInt8), parts.map some <+: response.chunks ∧
          maximumManagedResponseBytes < parts.flatten.length) ∨
        ∃ parts : List (List UInt8), response.chunks = parts.map some ∧ parts.flatten = [] := by
  have hloop := @readChunks_invalid response.chunks [] (Nat.zero_le _)
  rw [List.length_nil] at hloop
  simp only [Nat.zero_add] at hloop
  rw [readBoundedResponse]
  split
  · rename_i hlong
    exact iff_of_true rfl (.inl (declared_long.mp hlong))
  · rename_i hshort
    rw [declared_long] at hshort
    rw [or_iff_right hshort]
    cases hread : response.chunks.foldlM readChunk [] with
    | error e =>
      have hfailed : ¬∃ parts : List (List UInt8),
          response.chunks = parts.map some ∧ parts.flatten = [] := by
        rintro ⟨parts,hparts,hempty⟩
        have hall : response.chunks.foldlM readChunk [] = .ok [] := readChunks_ok.mpr
          ⟨parts,hparts,by rw [hempty,List.append_nil],fun _ => Nat.zero_le _⟩
        rw [hread] at hall
        cases hall
      rw [or_iff_left hfailed,← hloop,hread]
      rfl
    | ok body =>
      have hfits : ¬∃ parts : List (List UInt8), parts.map some <+: response.chunks ∧
          maximumManagedResponseBytes < parts.flatten.length := by
        rw [← hloop,hread]
        nofun
      obtain ⟨parts,hparts,hbody,_⟩ := readChunks_ok.mp hread
      rw [List.nil_append] at hbody
      rw [or_iff_right hfits]
      change (if body = [] then .error DocumentAiTransportError.invalid else .ok body) =
        Except.error DocumentAiTransportError.invalid ↔ _
      split
      · rename_i hempty
        exact iff_of_true rfl ⟨parts,hparts,hbody ▸ hempty⟩
      · rename_i hne
        refine iff_of_false nofun ?_
        rintro ⟨other,hother,hflat⟩
        rw [hparts] at hother
        rw [hbody,List.map_injective_iff.mpr (Option.some_injective _) hother] at hne
        exact hne hflat

/-- The request is one which the service takes. -/
def DocumentAiRequest.Sent (request : DocumentAiRequest) : Prop :=
  request.bytes ≠ [] ∧ request.bytes.length ≤ maximumManagedInputBytes ∧
    isSupportedContentType request.contentType = true

theorem not_sent {request : DocumentAiRequest} :
    (request.bytes = [] ∨ maximumManagedInputBytes < request.bytes.length ∨
      (!isSupportedContentType request.contentType) = true) ↔ ¬request.Sent := by
  rw [DocumentAiRequest.Sent,not_and_or,not_and_or,not_not,not_le,Bool.not_eq_true,
    Bool.not_eq_true']

theorem process_ok {request : DocumentAiRequest} {response : Option Response}
    {body : List UInt8} : process request response = .ok body ↔
      request.Sent ∧ ∃ answer, response = some answer ∧ answer.Body body := by
  unfold process
  split
  · rename_i hrefused
    exact iff_of_false nofun fun h => not_sent.mp hrefused h.1
  · rename_i haccepted
    rw [not_sent,not_not] at haccepted
    cases response with
    | none => exact iff_of_false nofun nofun
    | some answer =>
      dsimp only
      split
      · rename_i hstatus
        rw [Bool.not_eq_true',decide_eq_false_iff_not] at hstatus
        refine iff_of_false nofun ?_
        rintro ⟨_,other,heq,hbody⟩
        cases heq
        exact hstatus hbody.1
      · rename_i hstatus
        rw [Bool.not_eq_true,Bool.not_eq_false',decide_eq_true_iff] at hstatus
        rw [readBoundedResponse_ok]
        refine ⟨fun h => ⟨haccepted,answer,rfl,hstatus,h⟩,?_⟩
        rintro ⟨_,other,heq,hbody⟩
        cases heq
        exact hbody.2

theorem process_invalid {request : DocumentAiRequest} {response : Option Response} :
    process request response = .error .invalid ↔
      ¬request.Sent ∨ ∃ answer, response = some answer ∧ answer.Rejected := by
  unfold process
  split
  · rename_i hrefused
    exact iff_of_true rfl (.inl (not_sent.mp hrefused))
  · rename_i haccepted
    rw [not_sent] at haccepted
    rw [or_iff_right haccepted]
    cases response with
    | none => exact iff_of_false nofun nofun
    | some answer =>
      simp only [Option.some.injEq,exists_eq_left']
      rw [Response.Rejected]
      split
      · rename_i hstatus
        rw [Bool.not_eq_true',decide_eq_false_iff_not] at hstatus
        rw [Except.error.injEq]
        simp only [hstatus,not_false_eq_true,true_and,false_and,or_false]
      · rename_i hstatus
        rw [Bool.not_eq_true,Bool.not_eq_false',decide_eq_true_iff] at hstatus
        rw [readBoundedResponse_invalid]
        simp only [hstatus,and_self,not_true_eq_false,false_and,true_and,false_or]

/-! ### The lines of a page -/

/-- The observation is what the line says. -/
structure Evidence (text : String) (page : PageNumber) (line : WireLine K) (index : ℕ)
    (o : TextObservation K) : Prop where
  id : o.observationId.asStr = lineId page index
  level : o.level = .line
  anchored : line.layout.textAnchor.textSegments ≠ [] ∧
    Resolves text line.layout.textAnchor.textSegments o.text.toList ∧ ¬Unusable o.text.toList
  confidence : line.layout.confidence = some o.confidence.value
  polygon : o.polygon.points.map (fun p => (p.x,p.y)) =
    line.layout.boundingPoly.normalizedVertices.map WireVertex.point
  order : o.readingOrder = index
  parent : o.parentObservationId = none

theorem okOr_ok {α : Type} {x : Option α} {a : α} : okOr x = .ok a ↔ x = some a := by
  cases x with
  | none => exact iff_of_false nofun nofun
  | some value => rw [okOr,Except.ok.injEq,Option.some.injEq]

theorem okOr_noPanic {α : Type} (x : Option α) : okOr x ≠ .error .panic := by
  cases x <;> nofun

theorem resolve_ok {text value : String} {anchor : WireTextAnchor} :
    (AnchoredText.new text).resolve anchor = .ok value ↔ anchor.textSegments ≠ [] ∧
      Resolves text anchor.textSegments value.toList ∧ ¬Unusable value.toList := by
  have houtcome := resolve_outcome text anchor
  generalize (AnchoredText.new text).resolve anchor = result at houtcome
  cases houtcome with
  | empty hempty => exact iff_of_false nofun fun h => h.1 hempty
  | faulty hfaulty => exact iff_of_false nofun fun h => resolves_not_faulty h.2.1 hfaulty
  | unusable hresolves hunusable =>
    exact iff_of_false nofun fun h => h.2.2 (resolves_unique h.2.1 hresolves ▸ hunusable)
  | text hne hresolves husable =>
    rw [Except.ok.injEq]
    constructor
    · rintro rfl
      rw [String.toList_ofList]
      exact ⟨hne,hresolves,husable⟩
    · rintro ⟨_,hvalue,_⟩
      rw [resolves_unique hresolves hvalue,String.ofList_toList]

theorem resolve_noPanic (text : String) (anchor : WireTextAnchor) :
    (AnchoredText.new text).resolve anchor ≠ .error .panic := by
  have houtcome := resolve_outcome text anchor
  generalize (AnchoredText.new text).resolve anchor = result at houtcome
  cases houtcome <;> nofun

/-- A step which is safe, before one which is safe. -/
theorem bind_noPanic {α β : Type} {x : Except Stop α} {f : α → Except Stop β}
    (hx : x ≠ .error .panic) (hf : ∀ a, f a ≠ .error .panic) : x >>= f ≠ .error .panic := by
  cases x with
  | error e =>
    intro h
    cases h
    exact hx rfl
  | ok a => exact hf a

theorem mapM_noPanic {α β : Type} {f : α → Except Stop β} (hf : ∀ a, f a ≠ .error .panic)
    (xs : List α) : xs.mapM f ≠ .error .panic := by
  induction xs with
  | nil => nofun
  | cons x xs ih =>
    rw [List.mapM_cons]
    exact bind_noPanic (hf x) fun _ => bind_noPanic ih fun _ => nofun

theorem observation_noPanic (text : String) (page : PageNumber) (index : ℕ) (line : WireLine K) :
    observation (AnchoredText.new text) page index line ≠ .error .panic :=
  bind_noPanic (okOr_noPanic _) fun _ => bind_noPanic (resolve_noPanic _ _) fun _ =>
    bind_noPanic (okOr_noPanic _) fun _ => bind_noPanic (okOr_noPanic _) fun _ =>
      bind_noPanic (mapM_noPanic (fun _ => okOr_noPanic _) _) fun _ =>
        bind_noPanic (okOr_noPanic _) fun _ => bind_noPanic (okOr_noPanic _) fun _ =>
          okOr_noPanic _

theorem confidence_new {value : K} {confidence : Confidence K} :
    Confidence.new value = some confidence ↔ value = confidence.value := by
  rw [Confidence.new]
  constructor
  · intro h
    split at h
    · cases h
      rfl
    · cases h
  · rintro rfl
    rw [dif_pos confidence.valid]

theorem point_new {p : K×K} {point : NormalizedPoint K} :
    NormalizedPoint.new p.1 p.2 = some point ↔ (point.x,point.y) = p := by
  rw [NormalizedPoint.new]
  constructor
  · intro h
    split at h
    · cases h
      rfl
    · cases h
  · rintro rfl
    rw [dif_pos point.valid]

theorem polygon_new {points : List (NormalizedPoint K)} {polygon : Polygon K} :
    Polygon.new points = some polygon ↔ points = polygon.points := by
  rw [Polygon.new]
  constructor
  · intro h
    split at h
    · cases h
      rfl
    · cases h
  · rintro rfl
    rw [dif_pos polygon.valid]

theorem points_ok {vertices : List (WireVertex K)} {points : List (NormalizedPoint K)} :
    (vertices.mapM fun vertex => okOr (NormalizedPoint.new vertex.point.1 vertex.point.2)) =
      .ok points ↔ points.map (fun p => (p.x,p.y)) = vertices.map WireVertex.point := by
  rw [mapM_ok_iff]
  simp only [okOr_ok,point_new]
  constructor
  · exact fun h => Table.forall₂_map_eq h
  · intro h
    rw [← List.forall₂_eq_eq_eq,List.forall₂_map_left_iff,List.forall₂_map_right_iff] at h
    exact h.flip

omit [Field K] [LinearOrder K] in
theorem lineId_new (page : PageNumber) {index : ℕ} (h : index < 10^6) :
    ∃ hvalid, PageObservations.ObservationId.new (lineId page index) =
      some ⟨lineId page index,hvalid⟩ :=
  PageObservations.numberedId_new "docai_p".toList "_line".toList page h (by decide) (by decide)
    (by decide) (by decide) (by simp [lineId,String.toList_append])

theorem observation_ok {text : String} {page : PageNumber} {index : ℕ} (hindex : index < 10^6)
    {line : WireLine K} {o : TextObservation K} :
    observation (AnchoredText.new text) page index line = .ok o ↔
      Evidence text page line index o := by
  obtain ⟨hid,hnew⟩ := lineId_new page hindex
  constructor
  · intro h
    obtain ⟨order,horder,h⟩ := bind_ok.mp h
    obtain ⟨value,hvalue,h⟩ := bind_ok.mp h
    obtain ⟨number,hnumber,h⟩ := bind_ok.mp h
    obtain ⟨confidence,hconfidence,h⟩ := bind_ok.mp h
    obtain ⟨points,hpoints,h⟩ := bind_ok.mp h
    obtain ⟨polygon,hpolygon,h⟩ := bind_ok.mp h
    obtain ⟨id,hid',h⟩ := bind_ok.mp h
    rw [okOr_ok] at horder hnumber hid' h
    rw [okOr_ok,confidence_new] at hconfidence
    rw [okOr_ok,polygon_new] at hpolygon
    rw [hnew,Option.some.injEq] at hid'
    rw [TextObservation.new] at h
    split at h
    · cases h
      split at horder
      · cases horder
        subst hid' hconfidence hpolygon
        exact ⟨rfl,rfl,resolve_ok.mp hvalue,hnumber,points_ok.mp hpoints,rfl,rfl⟩
      · cases horder
    · cases h
  · rintro ⟨hid',hlevel,hanchored,hconfidence,hpolygon,horder,hparent⟩
    obtain ⟨id,level,value,confidence,polygon,order,parent,hvalid⟩ := o
    obtain ⟨id,_⟩ := id
    dsimp only at hid' hlevel hanchored hconfidence hpolygon horder hparent
    subst hid' hlevel horder hparent
    refine bind_ok.mpr ⟨order,okOr_ok.mpr (if_pos (lt_trans hindex (by norm_num))),?_⟩
    refine bind_ok.mpr ⟨value,resolve_ok.mpr hanchored,?_⟩
    refine bind_ok.mpr ⟨_,okOr_ok.mpr hconfidence,?_⟩
    refine bind_ok.mpr ⟨confidence,okOr_ok.mpr (confidence_new.mpr rfl),?_⟩
    refine bind_ok.mpr ⟨polygon.points,points_ok.mpr hpolygon,?_⟩
    refine bind_ok.mpr ⟨polygon,okOr_ok.mpr (polygon_new.mpr rfl),?_⟩
    refine bind_ok.mpr ⟨_,okOr_ok.mpr hnew,okOr_ok.mpr ?_⟩
    rw [TextObservation.new,dif_pos hvalid]

/-- The lines of the document, in their order, are the observations of the page. -/
structure Reports (document : WireDocument K) (expectedPage width height : ℕ)
    (page : DocumentPage K) : Prop where
  number : page.page.value = expectedPage
  size : page.width = width ∧ page.height = height ∧ 1 ≤ width ∧ 1 ≤ height
  bounded : document.text.utf8ByteSize ≤ maximumManagedResponseBytes
  lines : ∃ wire, document.pages = [wire] ∧ wire.pageNumber = expectedPage ∧
    wire.lines.length ≤ maximumObservations ∧
    List.Forall₂ (fun pair o => Evidence document.text page.page pair.1 pair.2 o)
      wire.lines.zipIdx page.observations

omit [Field K] [LinearOrder K] in
theorem lineId_inj (page : PageNumber) {index other : ℕ}
    (h : lineId page index = lineId page other) : index = other := by
  rw [lineId,lineId,String.append_right_inj] at h
  exact Nat.repr_injective h

theorem lines_kept {text : String} {page : PageNumber} {lines : List (WireLine K)}
    {os : List (TextObservation K)} {width height : ℕ}
    (hlines : List.Forall₂ (fun pair o => Evidence text page pair.1 pair.2 o) lines.zipIdx os)
    (hsize : 1 ≤ width ∧ 1 ≤ height) (hlength : lines.length ≤ maximumObservations) :
    DocumentPage.new page width height os = some ⟨page,width,height,os⟩ := by
  have hcount : os.length = lines.length := by
    rw [← hlines.length_eq,List.length_zipIdx]
  have horders : os.map (·.readingOrder) = List.range os.length := by
    rw [Table.forall₂_map_eq (hlines.imp fun _ _ h => h.order),List.zipIdx_map_snd,hcount,
      List.range_eq_range']
  have hids : ∀ o ∈ os, o.observationId.asStr = lineId page o.readingOrder := by
    intro o ho
    obtain ⟨pair,hpair⟩ := Table.forall₂_exists hlines.flip o ho
    rw [hpair.id,hpair.order]
  have hnodup : (os.map (·.readingOrder)).Nodup := horders ▸ List.nodup_range
  have hdistinct : (os.map (·.observationId)).Nodup := by
    refine List.Nodup.map_on ?_ (List.Nodup.of_map _ hnodup)
    intro o ho other hother heq
    have horder : o.readingOrder = other.readingOrder := by
      apply lineId_inj page
      rw [← hids o ho,← hids other hother,heq]
    exact Table.eq_of_key hnodup ho hother horder
  have hparents : ∀ o ∈ os, o.parentObservationId = none := by
    intro o ho
    obtain ⟨pair,hpair⟩ := Table.forall₂_exists hlines.flip o ho
    exact hpair.parent
  exact NativeText.documentPage_kept page width height hsize.1 hsize.2 os (hcount ▸ hlength)
    hparents hdistinct horders

theorem lines_ok {text : String} {page : PageNumber} {lines : List (WireLine K)}
    (hlength : lines.length ≤ maximumObservations) {os : List (TextObservation K)} :
    (lines.zipIdx.mapM fun (line,index) => observation (AnchoredText.new text) page index line) =
      .ok os ↔
        List.Forall₂ (fun pair o => Evidence text page pair.1 pair.2 o) lines.zipIdx os := by
  have hindex : ∀ pair ∈ lines.zipIdx, pair.2 < 10^6 := by
    intro pair hpair
    refine lt_of_lt_of_le (List.snd_lt_of_mem_zipIdx hpair) ?_
    exact le_trans hlength (by decide)
  rw [mapM_ok_iff,List.forall₂_iff_zip,List.forall₂_iff_zip]
  refine and_congr_right fun _ => forall₃_congr fun pair o hmem => ?_
  exact observation_ok (hindex pair (List.of_mem_zip hmem).1)

/-- The parser gives the page which the document reports, and no other. -/
theorem parseDocument_ok {parse : List UInt8 → Option (ProcessResponse K)} {encoded : List UInt8}
    {expectedPage width height : ℕ} {page : DocumentPage K} :
    parseDocument parse encoded expectedPage width height = .ok page ↔
      ∃ document, parse encoded = some ⟨some document⟩ ∧
        Reports document expectedPage width height page := by
  rw [parseDocument]
  constructor
  · intro h
    obtain ⟨response,hresponse,h⟩ := bind_ok.mp h
    obtain ⟨document,hdocument,h⟩ := bind_ok.mp h
    rw [okOr_ok] at hresponse hdocument
    split at h
    · rename_i wire hpages
      split at h
      · cases h
      rename_i hbounded
      split at h
      · cases h
      rename_i hwire
      rw [not_or,not_not,not_lt] at hwire
      split at h
      · rename_i hnumber
        obtain ⟨os,hos,h⟩ := bind_ok.mp h
        rw [okOr_ok] at h
        have hsize : 1 ≤ width ∧ 1 ≤ height := by
          rw [DocumentPage.new] at h
          split at h
          · cases h
          · omega
        have hlines := (lines_ok hwire.2).mp hos
        rw [lines_kept hlines hsize hwire.2] at h
        cases h
        refine ⟨document,?_,rfl,⟨rfl,rfl,hsize⟩,not_lt.mp hbounded,wire,hpages,hwire.1,hwire.2,
          hlines⟩
        rw [hresponse,← hdocument]
      · cases h
    · cases h
  · rintro ⟨document,hparse,hreports⟩
    obtain ⟨number,pageWidth,pageHeight,os⟩ := page
    obtain ⟨wire,hpages,hwire,hlength,hlines⟩ := hreports.lines
    obtain ⟨rfl,rfl,hsize⟩ := hreports.size
    have hnumber : number.value = expectedPage := hreports.number
    subst hnumber
    refine bind_ok.mpr ⟨_,okOr_ok.mpr hparse,bind_ok.mpr ⟨document,rfl,?_⟩⟩
    rw [hpages]
    dsimp only
    rw [if_neg (not_lt.mpr hreports.bounded),if_neg (by rw [not_or]; exact ⟨not_not.mpr hwire,
      not_lt.mpr hlength⟩),dif_pos number.valid]
    refine bind_ok.mpr ⟨os,(lines_ok hlength).mpr hlines,okOr_ok.mpr ?_⟩
    exact lines_kept hlines hsize hlength

theorem parseDocument_noPanic (parse : List UInt8 → Option (ProcessResponse K))
    (encoded : List UInt8) (expectedPage width height : ℕ) :
    parseDocument parse encoded expectedPage width height ≠ .error .panic := by
  refine bind_noPanic (okOr_noPanic _) fun response => ?_
  refine bind_noPanic (okOr_noPanic _) fun document => ?_
  split
  · split
    · nofun
    split
    · nofun
    split
    · exact bind_noPanic (mapM_noPanic (fun pair => observation_noPanic _ _ _ _) _)
        fun _ => okOr_noPanic _
    · nofun
  · nofun

end Field

/-! ### What the recognizers return -/

section Recognizers
variable [Field K] [LinearOrder K]
variable {parse : List UInt8 → Option (ProcessResponse K)} {preprocessor : Option Preprocessor}
variable {provider : DocumentAiRequest → Option Response}
variable {source : Except PageSourceError AcceptedPageSource} {page : ℕ}
variable {result : DocumentPage K}

/-- The page is what the provider reports on the picture of the source. -/
def Provided (parse : List UInt8 → Option (ProcessResponse K))
    (preprocessor : Option Preprocessor) (provider : DocumentAiRequest → Option Response)
    (source : Except PageSourceError AcceptedPageSource) (page : ℕ) (result : DocumentPage K) :
    Prop :=
  ∃ picture answer body document, source = .ok picture ∧
    (prepareRequest preprocessor page picture).Sent ∧
    provider (prepareRequest preprocessor page picture) = some answer ∧ answer.Body body ∧
    parse body = some ⟨some document⟩ ∧
    Reports document page picture.geometry.width picture.geometry.height result

/-- There is no picture to send, or the provider does not read it. -/
def Refused (parse : List UInt8 → Option (ProcessResponse K))
    (preprocessor : Option Preprocessor) (provider : DocumentAiRequest → Option Response)
    (source : Except PageSourceError AcceptedPageSource) (page : ℕ) : Prop :=
  source = .error .notFound ∨ source = .error .invalid ∨ ∃ picture, source = .ok picture ∧
    (¬(prepareRequest preprocessor page picture).Sent ∨
      ∃ answer, provider (prepareRequest preprocessor page picture) = some answer ∧
        (answer.Rejected ∨ (prepareRequest preprocessor page picture).Sent ∧
          ∃ body, answer.Body body ∧ ¬∃ document result, parse body = some ⟨some document⟩ ∧
            Reports document page picture.geometry.width picture.geometry.height result))

theorem recognizeInner_ok :
    recognizeInner parse preprocessor provider source page = .ok result ↔
      Provided parse preprocessor provider source page result := by
  unfold recognizeInner
  constructor
  · intro h
    split at h
    · cases h
    rename_i picture
    dsimp only at h
    split at h
    · cases h
    rename_i body hprocess
    obtain ⟨hsent,answer,hanswer,hbody⟩ := process_ok.mp hprocess
    split at h
    · cases h
    · cases h
    · rename_i hread
      cases h
      obtain ⟨document,hparse,hreports⟩ := parseDocument_ok.mp hread
      exact ⟨picture,answer,body,document,rfl,hsent,hanswer,hbody,hparse,hreports⟩
  · rintro ⟨picture,answer,body,document,rfl,hsent,hanswer,hbody,hparse,hreports⟩
    dsimp only
    rw [process_ok.mpr ⟨hsent,answer,hanswer,hbody⟩]
    dsimp only
    rw [parseDocument_ok.mpr ⟨document,hparse,hreports⟩]

theorem recognizeInner_permanent :
    recognizeInner parse preprocessor provider source page = .error (.error .permanent) ↔
      Refused parse preprocessor provider source page := by
  unfold recognizeInner Refused
  cases source with
  | error e => cases e <;> simp [mapSourceError]
  | ok picture =>
    simp only [reduceCtorEq,false_or,Except.ok.injEq,exists_eq_left']
    cases hprocess : process (prepareRequest preprocessor page picture)
        (provider (prepareRequest preprocessor page picture)) with
    | error e =>
      have hbody : ∀ answer, provider (prepareRequest preprocessor page picture) = some answer →
          (prepareRequest preprocessor page picture).Sent → ∀ body, ¬answer.Body body := by
        intro answer hanswer hsent body hbody
        rw [process_ok.mpr ⟨hsent,answer,hanswer,hbody⟩] at hprocess
        cases hprocess
      have hinvalid : e = .invalid ↔ ¬(prepareRequest preprocessor page picture).Sent ∨
          ∃ answer, provider (prepareRequest preprocessor page picture) = some answer ∧
            answer.Rejected := by
        rw [← process_invalid,hprocess,Except.error.injEq]
      have hstop : transportError e = .permanent ↔ e = .invalid := by
        cases e <;> simp [transportError]
      rw [Except.error.injEq,RecognitionStop.error.injEq,hstop,hinvalid]
      refine or_congr_right (exists_congr fun answer => and_congr_right fun hanswer => ?_)
      refine (or_iff_left ?_).symm
      rintro ⟨hsent,body,hread,_⟩
      exact hbody answer hanswer hsent body hread
    | ok body =>
      obtain ⟨hsent,answer,hanswer,hbody⟩ := process_ok.mp hprocess
      have hrejected : ¬answer.Rejected := by
        intro h
        rw [process_invalid.mpr (.inr ⟨answer,hanswer,h⟩)] at hprocess
        cases hprocess
      have hunique : ∀ other, answer.Body other → other = body := by
        intro other hother
        have hagain := process_ok.mpr ⟨hsent,answer,hanswer,hother⟩
        rw [hprocess] at hagain
        exact (Except.ok.inj hagain).symm
      have hrefused : (¬(prepareRequest preprocessor page picture).Sent ∨
          ∃ answer, provider (prepareRequest preprocessor page picture) = some answer ∧
            (answer.Rejected ∨ (prepareRequest preprocessor page picture).Sent ∧
              ∃ body, answer.Body body ∧ ¬∃ document result, parse body = some ⟨some document⟩ ∧
                Reports document page picture.geometry.width picture.geometry.height result)) ↔
          ¬∃ document result, parse body = some ⟨some document⟩ ∧
            Reports document page picture.geometry.width picture.geometry.height result := by
        rw [hanswer]
        constructor
        · rintro (hnot | ⟨other,heq,hrejects | ⟨_,read,hread,hnone⟩⟩)
          · exact absurd hsent hnot
          · cases heq
            exact absurd hrejects hrejected
          · cases heq
            exact hunique read hread ▸ hnone
        · exact fun h => .inr ⟨answer,rfl,.inr ⟨hsent,body,hbody,h⟩⟩
      rw [hrefused]
      dsimp only
      cases hread : parseDocument parse body page picture.geometry.width
          picture.geometry.height with
      | ok read =>
        refine iff_of_false nofun (not_not_intro ?_)
        obtain ⟨document,hparse,hreports⟩ := parseDocument_ok.mp hread
        exact ⟨document,read,hparse,hreports⟩
      | error e =>
        cases e with
        | panic => exact absurd hread (parseDocument_noPanic parse body page _ _)
        | permanent =>
          refine iff_of_true rfl ?_
          rintro ⟨document,read,hparse,hreports⟩
          rw [parseDocument_ok.mpr ⟨document,hparse,hreports⟩] at hread
          cases hread

variable (parse preprocessor provider source page) in
theorem recognizeInner_noPanic :
    recognizeInner parse preprocessor provider source page ≠ .error .panic := by
  unfold recognizeInner
  split
  · nofun
  · dsimp only
    split
    · nofun
    · split
      · nofun
      · rename_i hread
        exact absurd hread (parseDocument_noPanic _ _ _ _ _)
      · nofun

/-- A page is read from its native text or from what the provider reports line by line, and
stays without text only where the provider refuses it for good. -/
theorem hybrid_exact {native : Except RecognitionStop (DocumentPage K)} :
    (recognize native (recognizeInner parse preprocessor provider source page) = .ok result ↔
      (native = .ok result ∧ result.observations ≠ []) ∨
        ∃ blank, native = .ok blank ∧ blank.observations = [] ∧
          (Provided parse preprocessor provider source page result ∨
            Refused parse preprocessor provider source page ∧ result = blank)) ∧
      (recognize native (recognizeInner parse preprocessor provider source page) =
        .error .panic ↔ native = .error .panic) := by
  rw [← recognizeInner_ok,← recognizeInner_permanent]
  have hpanic := recognizeInner_noPanic parse preprocessor provider source page
  generalize recognizeInner parse preprocessor provider source page = managed at hpanic
  unfold recognize
  cases native with
  | error e => simp
  | ok blank =>
    simp only [Except.ok.injEq,exists_eq_left',reduceCtorEq,iff_false]
    by_cases htext : blank.observations = []
    · rw [if_neg (not_not_intro htext)]
      have hblank : ¬(blank = result ∧ result.observations ≠ []) := by
        rintro ⟨rfl,hne⟩
        exact hne htext
      rw [or_iff_right hblank,and_iff_right htext]
      split
      · simp [eq_comm]
      · rename_i hread
        refine ⟨?_,hpanic⟩
        refine (or_iff_left ?_).symm
        exact fun h => hread h.1
    · rw [if_pos htext]
      constructor
      · rw [Except.ok.injEq]
        constructor
        · rintro rfl
          exact .inl ⟨rfl,htext⟩
        · rintro (⟨rfl,_⟩ | ⟨hempty,_⟩)
          · rfl
          · exact absurd hempty htext
      · nofun

end Recognizers

end DocumentIntelligence.ManagedRecognition
