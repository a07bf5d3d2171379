import DocumentIntelligence.Jobs
import DocumentIntelligence.ResultJson

/-!
# Native pages

The pages which were extracted from the text of a document, stored under the job, the
profile and the digest of the accepted source. Every query joins the job and its upload. A
load is an error if it meets a page which it cannot read, or not the number of pages which
the document has.
-/

set_option autoImplicit false

namespace DocumentIntelligence.NativePages
open Identifiers hiding Error
open Schema Uploads Jobs
open DocumentResults (BuiltPage)
open JsonTree (Node)
open PageCheckpoint (maximumPageCount)
open ResultJson (readPage writePage)

abbrev DocumentKey := JobId × String × String

structure NativeDocumentRow where
  nativeDocumentId : ℕ
  jobId : JobId
  scope : Scope
  processingProfile : String
  sourceDigest : String
  pageCount : ℕ
  durationMs : ℕ
  deriving DecidableEq

abbrev PageData := Node Empty

structure NativePageRow where
  nativeDocumentId : ℕ
  scope : Scope
  pageNumber : ℕ
  pageData : PageData

structure SaveNativePages where
  scope : Scope
  jobId : JobId
  profile : String
  sourceDigest : String
  pages : List BuiltPage

/-- The serializer's numbers, and the database's values: the cast to `jsonb` and the bytes
of the text of a value. -/
structure PageCodec where
  formatF64 : Float → String
  jsonb : PageData → Option PageData
  octetLength : PageData → ℕ

def maximumNativeBytes : ℕ := 67108864

def NativeDocumentRow.key (row : NativeDocumentRow) : DocumentKey :=
  (row.jobId,row.processingProfile,row.sourceDigest)

def SaveNativePages.key (request : SaveNativePages) : DocumentKey :=
  (request.jobId,request.profile,request.sourceDigest)

/-- The upload which a query joins to the job. -/
def sourceUpload (s : Store) (scope : Scope) (jobId : JobId) : Option UploadRow :=
  (s.jobs.find? (isJob scope jobId)).bind fun job =>
    s.uploads.find? (isUpload scope job.uploadId)

def sourceDigest (s : Store) (scope : Scope) (jobId : JobId) : Option String :=
  (sourceUpload s scope jobId).bind fun upload => upload.source.map (·.sourceDigest)

def isNativeDocument (scope : Scope) (jobId : JobId) (row : NativeDocumentRow) : Bool :=
  row.jobId == jobId && row.scope == scope

/-- The document of a profile whose digest is that of the joined upload. -/
def isSourceDocument (s : Store) (scope : Scope) (jobId : JobId) (profile : String)
    (row : NativeDocumentRow) : Bool :=
  isNativeDocument scope jobId row && row.processingProfile == profile &&
    sourceDigest s scope jobId == some row.sourceDigest

/-! ### Saving -/

def numbered (pages : List BuiltPage) : Bool := pages.zipIdx.all fun x => x.1.page == x.2+1

def encodedPages (codec : PageCodec) (pages : List BuiltPage) : String :=
  Json.array (pages.map fun page =>
    (writePage page.toDocumentPage : PageData).render codec.formatF64 Empty.elim)

/-- What is checked before a transaction begins. -/
def admissible (codec : PageCodec) (pages : List BuiltPage) : Bool :=
  !pages.isEmpty && decide (pages.length ≤ maximumPageCount) && numbered pages &&
    decide ((encodedPages codec pages).utf8ByteSize ≤ maximumNativeBytes)

/-- The accepted source which the insert of a document selects. -/
def acceptedSource (s : Store) (scope : Scope) (jobId : JobId) : Option AcceptedSource :=
  (sourceUpload s scope jobId).bind fun upload =>
    if upload.status = .accepted then upload.source else none

def selects (s : Store) (request : SaveNativePages) : Bool :=
  (acceptedSource s request.scope request.jobId).any fun source =>
    source.sourceDigest == request.sourceDigest &&
      source.parserInspection.pageCount == (request.pages.length : ℤ)

/-- The column checks of a document, its page count apart. -/
def documentShape (request : SaveNativePages) : Bool :=
  (match request.profile.toList with
    | [] => false
    | c::rest => c.isAlphanum && decide (rest.length ≤ 127) &&
      rest.all fun c => c.isAlphanum || c == '.' || c == '_' || c == '-') &&
    validDigest request.sourceDigest

/-- The milliseconds since the job was created. -/
def elapsedMs (s : Store) (now : ℤ) (request : SaveNativePages) : ℕ :=
  ((s.jobs.find? (isJob request.scope request.jobId)).elim 0 fun job =>
    (now-job.createdAt)/1000).toNat

def newDocument (s : Store) (documentId : ℕ) (now : ℤ) (request : SaveNativePages) :
    NativeDocumentRow where
  nativeDocumentId := documentId
  jobId := request.jobId
  scope := request.scope
  processingProfile := request.profile
  sourceDigest := request.sourceDigest
  pageCount := request.pages.length
  durationMs := elapsedMs s now request

/-- The value of a page column, unless it is too large. -/
def storedPage (codec : PageCodec) (page : BuiltPage) : Option PageData :=
  (codec.jsonb (writePage page.toDocumentPage)).bind fun data =>
    if 1 ≤ codec.octetLength data ∧ codec.octetLength data ≤ maximumNativeBytes*2 then some data
    else none

def pageRow (codec : PageCodec) (documentId : ℕ) (scope : Scope) (page : BuiltPage) :
    Option NativePageRow :=
  (storedPage codec page).map fun data => ⟨documentId,scope,page.page,data⟩

/-! ### Loading -/

/-- The rows which a load joins, by their page numbers. -/
def nativeRows (s : Store) (documents : List NativeDocumentRow) (pages : List NativePageRow)
    (scope : Scope) (jobId : JobId) (profile : String) (digest : Option String) :
    List (NativeDocumentRow × NativePageRow) :=
  ((documents.filter fun n =>
      isSourceDocument s scope jobId profile n && digest.all (· == n.sourceDigest)).flatMap fun n =>
    (pages.filter fun p => p.nativeDocumentId == n.nativeDocumentId && p.scope == n.scope).map
      fun p => (n,p)).mergeSort fun a b => decide (a.2.pageNumber ≤ b.2.pageNumber)

/-- The loop over the joined rows: the pages so far and the page count of the last row. -/
def readRows (total : ℕ) : List BuiltPage → ℕ → List (NativeDocumentRow × NativePageRow) →
    Except Schema.Error (List BuiltPage × ℕ)
  | pages,count,[] => .ok (pages,count)
  | pages,_,(n,p)::rows =>
    if n.pageCount = 0 ∨ maximumPageCount < n.pageCount ∨ n.pageCount ≤ pages.length ∨
        maximumNativeBytes*2 < total then .error .invalidStoredPageArtifact
    else match readPage p.pageData with
      | none => .error .invalidStoredPageArtifact
      | some page =>
        if page.page ≠ pages.length+1 then .error .invalidStoredPageArtifact
        else readRows total (pages++[page]) n.pageCount rows

def loadPages (codec : PageCodec) (s : Store) (documents : List NativeDocumentRow)
    (pages : List NativePageRow) (scope : Scope) (jobId : JobId) (profile : String)
    (digest : Option String) : Except Schema.Error (Option (List BuiltPage)) :=
  let rows := nativeRows s documents pages scope jobId profile digest
  match readRows ((rows.map fun row => codec.octetLength row.2.pageData).sum) [] 0 rows with
  | .error e => .error e
  | .ok (pages,count) =>
    if pages.isEmpty then .ok none
    else if pages.length ≠ count then .error .invalidStoredPageArtifact
    else .ok (some pages)

def loadNativeDurationMs (s : Store) (documents : List NativeDocumentRow) (scope : Scope)
    (jobId : JobId) (profile : String) : Option ℕ :=
  (documents.find? (isSourceDocument s scope jobId profile)).map (·.durationMs)

/-- The pages are deleted with their documents. -/
def clearNativePages (documents : List NativeDocumentRow) (scope : Scope) (jobId : JobId) :
    List NativeDocumentRow := documents.filter fun row => !isNativeDocument scope jobId row

/-! ### What a load returns -/

theorem readRows_ok {total count : ℕ} {pages : List BuiltPage}
    {rows : List (NativeDocumentRow × NativePageRow)} {read : List BuiltPage × ℕ}
    (h : readRows total pages count rows = .ok read) :
    ∃ new, read.1 = pages++new ∧
      List.Forall₂ (fun row page => readPage row.2.pageData = some page) rows new := by
  induction rows generalizing pages count with
  | nil => exact ⟨[],by rw [← Except.ok.inj h, List.append_nil],List.Forall₂.nil⟩
  | cons row rows ih =>
    rw [readRows] at h
    split at h
    · exact absurd h (by simp)
    split at h
    · exact absurd h (by simp)
    rename_i page hpage
    split at h
    · exact absurd h (by simp)
    obtain ⟨new,hread,hrest⟩ := ih h
    exact ⟨page::new,by rw [hread, List.append_assoc]; rfl,List.Forall₂.cons hpage hrest⟩

/-- A load returns all rows of its query. -/
theorem loadPages_ok {codec : PageCodec} {s : Store} {documents : List NativeDocumentRow}
    {rows : List NativePageRow} {scope : Scope} {jobId : JobId} {profile : String}
    {digest : Option String} {pages : List BuiltPage}
    (h : loadPages codec s documents rows scope jobId profile digest = .ok (some pages)) :
    pages ≠ [] ∧ List.Forall₂ (fun row page => readPage row.2.pageData = some page)
      (nativeRows s documents rows scope jobId profile digest) pages := by
  rw [loadPages] at h
  split at h
  · exact absurd h (by simp)
  rename_i read count hread
  split_ifs at h with hempty hcount
  · exact absurd h (by simp)
  rw [Except.ok.injEq, Option.some.injEq] at h
  obtain ⟨new,hnew,hrows⟩ := readRows_ok hread
  rw [List.nil_append] at hnew
  rw [← h]
  refine ⟨fun hnil => hempty (List.isEmpty_iff.mpr hnil),?_⟩
  rw [show read = new from hnew]
  exact hrows

end DocumentIntelligence.NativePages
