import DocumentIntelligence.ArtifactReading
import DocumentIntelligence.DurableWorkflow
import DocumentIntelligence.FinalizerRaces
import DocumentIntelligence.NutritionReadings
import DocumentIntelligence.ResultSizes
import DocumentIntelligence.TenantOperations

/-!
# The finalization activity

The activity finalizes the stored document of a job. After the pages are done an attempt
prepares its result, if the texts of the pages read back and they and their result are
within the limit of a result.
-/

set_option autoImplicit false

namespace DocumentIntelligence.FinalizationActivity
open Identifiers hiding Error
open Jobs hiding maximumResultBytes
open Schema PageWorkflowStore NativePages ObjectStorage StorageLocations
open ArtifactReading (GcsPageArtifactReader WrittenBy written_reads)
open PageArtifacts (GcsPageArtifactWriter)
open DocumentResults (BuiltPage DocumentResult ProcessingProvenance byNumber byNumber_congr
  byNumber_perm)
open ResultAssembly (ExtractionSchema ExtractedFields Assembly maximumResultBytes)
open ResultSizes (resultBytes documentResult)
open TenantOperations (StoredDocumentIdentity loadDocumentIdentity acceptedJob)
open DurableWorkflow (FinalizationErrorKind)
open NutritionReadings (extractedNames extractedNames_valid)
open JobStatusCache (find)
open Finalization

/-- `ExtractionSchema::registered` -/
def registered (reference : SchemaReference) : Option ExtractionSchema :=
  if reference.schemaId = "kora.nutrition_label" ∧ reference.schemaVersion = "1" then
    some .koraNutritionLabelV1
  else none

/-- The clients of the execution worker: the reader has the buckets of the page writer, and
the buckets of pages and results cover the same products. -/
structure Deployment where
  pages : GcsPageArtifactWriter
  reader : GcsPageArtifactReader
  finalizer : DocumentFinalizer
  buckets : ∀ route ∈ pages.routes, route.2 ∈ reader.buckets
  products : ∀ productId,
    (pages.bucket productId).isSome = (finalizer.writer.bucket productId).isSome

/-- What an attempt of the activity meets: the answers about the objects of the pages, the
order in which they arrive, the provider's answer about the result and the version which it
gives, the time, and whether the cleanup is done. -/
structure Attempt where
  reads : StoredPageArtifact → StorageReply
  arrive : List StoredPageArtifact → List StoredPageArtifact
  arrive_perm : ∀ artifacts, (arrive artifacts).Perm artifacts
  reply : StorageReply
  version : Option String
  now : ℤ
  cleans : Bool

inductive FinalizeStoredError where
  | unregisteredSchema
  | finalize (error : DocumentFinalizeError)
  deriving DecidableEq, Repr

section Activity
variable {V : Type} (lib : Libraries V) (deployment : Deployment) (scope : Scope) (jobId : JobId)

def registeredSchema (identity : StoredDocumentIdentity) :
    Except FinalizeStoredError (Option ExtractionSchema) :=
  match identity.extraction with
  | none => .ok none
  | some reference => match registered reference with
    | none => .error .unregisteredSchema
    | some schema => .ok (some schema)

def execution (attempt : Attempt) (objects : StoredObjects) (identity : StoredDocumentIdentity)
    (schema : Option ExtractionSchema) : Execution where
  documentId := identity.documentId
  documentVersion := identity.documentVersion
  schema := schema
  read artifact := ArtifactReading.read lib.sha256 deployment.reader objects
    (attempt.reads artifact) artifact maximumResultBytes
  arrive := attempt.arrive
  arrive_perm := attempt.arrive_perm
  reply := attempt.reply
  version := attempt.version
  now := attempt.now
  cleans := attempt.cleans

def finalizeStored (attempt : Attempt) (σ : World) :
    Except FinalizeStoredError CommitResultOutcome × World :=
  match loadDocumentIdentity σ.store scope jobId with
  | .error e => (.error (.finalize (.store e)),σ)
  | .ok none => (.error (.finalize .notReady),σ)
  | .ok (some identity) => match registeredSchema identity with
    | .error e => (.error e,σ)
    | .ok schema =>
      let finalized := finalize lib deployment.finalizer scope jobId
        (execution lib deployment attempt σ.objects identity schema) σ
      (finalized.1.mapError .finalize,finalized.2)

def errorKind : FinalizeStoredError → FinalizationErrorKind
  | .finalize .cancelled => .scopeNotFound
  | .unregisteredSchema | .finalize .invalidPageArtifact | .finalize (.assembly _) => .invalidInput
  | .finalize _ => .dependencyUnavailable

/-- `DocumentFinalizerExecutor::run` -/
def run (attempt : Attempt) (σ : World) : Except FinalizationErrorKind Unit × World :=
  match finalizeStored lib deployment scope jobId attempt σ with
  | (.ok (.committed _),σ) | (.ok (.existing _),σ) => (.ok (),σ)
  | (.ok .conflict,σ) | (.ok .notCommittable,σ) => (.error .invalidInput,σ)
  | (.ok .notFound,σ) => (.error .scopeNotFound,σ)
  | (.error e,σ) => (.error (errorKind e),σ)

/-- The world after attempts, one after the other. -/
def attempted (attempts : List Attempt) (σ : World) : World :=
  Transition.run (fun σ attempt => (run lib deployment scope jobId attempt σ).2) σ attempts

end Activity

/-- The object store answers. -/
structure Attempt.Available (attempt : Attempt) : Prop where
  reads : ∀ artifact, attempt.reads artifact = .answered
  reply : attempt.reply = .answered

/-- The provider gives a version to what it writes. -/
def Attempt.Versioned (attempt : Attempt) : Prop :=
  ∃ generation, attempt.version = some generation ∧ validObjectVersion generation = true

/-- The extraction has fields of its own names only (`NutritionReadings.extract_named`). -/
def NamesFields {V : Type} (lib : Libraries V) : Prop :=
  ∀ schema pages, ∀ entry ∈ (lib.extract schema pages).fields.entries, entry.1 ∈ extractedNames

/-! ### A document whose pages are done -/

/-- The name of the document of a job. -/
def documentName (jobId : JobId) : String :=
  "doc_"++String.ofList ((stripPrefix jobId.asStr "job_").getD [])

section Done
variable {V : Type} (lib : Libraries V) (deployment : Deployment) (scope : Scope) (jobId : JobId)

/-- The job is in progress, of an accepted upload and a registered schema. -/
structure InProgress (s : Store) (job : JobRow) (upload : UploadRow) (source : AcceptedSource) :
    Prop where
  jobFound : s.jobs.find? (isJob scope jobId) = some job
  uploadFound : s.uploads.find? (fun u =>
    Uploads.isUpload scope job.uploadId u && u.status == .accepted) = some upload
  sourceFound : upload.source = some source
  digest : isCanonicalSha256 source.sourceDigest = true
  status : job.status = .processing ∨ job.status = .validating
  schema : ∀ reference ∈ job.extraction, (registered reference).isSome = true

/-- The state when the pages of a job are done and nobody has finalized it: its workflow is
terminal, and the artifacts of its pages are the processor's. Results are named by their
jobs, and their objects by their results. -/
structure PagesDone (σ : World) : Prop where
  served : (deployment.pages.bucket scope.productId).isSome = true
  job : ∃ job upload source, InProgress scope jobId σ.store job upload source
  workflow : ∃ stored, loadPageWorkflow σ.store scope jobId = some stored ∧
    (stored.workflow.status = .completed ∨ stored.workflow.status = .partialResult)
  agree : PageAgreement.PagesAgree scope jobId σ.store
  written : ∀ row ∈ σ.store.pageArtifacts, row.jobId = jobId →
    WrittenBy lib.formatF64 lib.sha256 deployment.pages scope jobId σ.objects row.artifact
  unfinished : ∀ r ∈ σ.store.results, r.jobId ≠ jobId
  named : ∀ r ∈ σ.store.results, r.locator.documentId.asStr = documentName r.jobId
  absent : ∀ bucket version,
    current σ.objects (bucket,ResultArtifacts.objectName scope jobId version) = none
  durations : ∀ row ∈ σ.native, row.durationMs < 2^64

/-! ### The document -/

/-- What the queries of an attempt return. -/
structure Document where
  identity : StoredDocumentIdentity
  schema : Option ExtractionSchema
  state : JobState
  artifacts : List StoredPageArtifact
  durationMs : Option ℕ

structure Loads (σ : World) (document : Document) : Prop where
  identity : loadDocumentIdentity σ.store scope jobId = .ok (some document.identity)
  schema : registeredSchema document.identity = .ok document.schema
  workflow : ∃ stored, loadPageWorkflow σ.store scope jobId = some stored ∧
    terminalState stored.workflow = .ok document.state ∧
    stored.workflow.successfulPageCount = document.artifacts.length
  artifacts : loadPageArtifacts σ.store scope jobId = .ok document.artifacts
  durationMs : loadNativeDurationMs σ.store σ.native scope jobId nativeProfileName =
    document.durationMs

/-- The page which is read of the object of an artifact. -/
def artifactPage (objects : StoredObjects) (artifact : StoredPageArtifact) : Option BuiltPage :=
  (version objects (artifact.objectBucket,artifact.objectName) (some artifact.objectVersion)).bind
    fun o => ((lib.parse o.bytes).bind ResultJson.readPage).filter (·.page == artifact.page)

/-- The texts of the pages read back, and the artifacts together and the result of the pages
are within the limit. -/
structure Document.Fits (document : Document) (objects : StoredObjects) (pages : List BuiltPage)
    (provenance : Option ProcessingProvenance) : Prop where
  readBack : document.artifacts.mapM (artifactPage lib objects) = some pages
  profiled : (assemblyMode deployment.finalizer document.durationMs).provenance pages =
    .ok provenance
  artifactBytes : (document.artifacts.map (·.contentLength.toNat)).sum ≤ maximumResultBytes
  bytes : resultBytes lib.extract lib.formatF64 lib.formatValue document.identity.documentId
    document.identity.documentVersion document.schema provenance (byNumber pages) ≤
      maximumResultBytes

/-- The document of the job fits. -/
def Fits (σ : World) : Prop :=
  ∃ document pages provenance, Loads scope jobId σ document ∧
    document.Fits lib deployment σ.objects pages provenance

end Done

/-! ### What the queries return -/

theorem documentName_valid (jobId : JobId) : validatedId (documentName jobId) "doc_" = true := by
  obtain ⟨suffix,hstrip,hvalid,_⟩ := validatedId_split jobId.valid
  have hname : documentName jobId = String.ofList ("doc_".toList++suffix) := by
    rw [documentName, hstrip, Option.getD_some, String.ofList_append, String.ofList_toList]
  rw [hname]
  exact validatedId_reprefix "doc_" hvalid

theorem documentName_inj {a b : JobId} (h : documentName a = documentName b) : a = b := by
  obtain ⟨suffix,hstrip,_,hchars⟩ := validatedId_split a.valid
  obtain ⟨suffix',hstrip',_,hchars'⟩ := validatedId_split b.valid
  rw [documentName, documentName, hstrip, hstrip', Option.getD_some, Option.getD_some,
    String.append_right_inj, String.ofList_inj] at h
  refine ScopedNames.jobId_ext (String.toList_inj.mp ?_)
  rw [hchars, hchars', h]

section Queries
variable {scope : Scope} {jobId : JobId} {s : Store}

theorem identity_loaded {job : JobRow} {upload : UploadRow} {source : AcceptedSource}
    (h : InProgress scope jobId s job upload source) :
    ∃ identity, loadDocumentIdentity s scope jobId = .ok (some identity) ∧
      identity.documentId.asStr = documentName jobId ∧ identity.extraction = job.extraction := by
  obtain ⟨suffix,hstrip,_,_⟩ := validatedId_split jobId.valid
  have hname : documentName jobId = "doc_"++String.ofList suffix := by
    rw [documentName, hstrip, Option.getD_some]
  have hvalid := documentName_valid jobId
  rw [hname] at hvalid
  have haccepted : acceptedJob s scope jobId = some (job,upload) := by
    rw [acceptedJob, h.jobFound]
    show (s.uploads.find? _).bind _ = _
    rw [h.uploadFound]
    rfl
  refine ⟨⟨⟨_,hvalid⟩,⟨source.sourceDigest,h.digest⟩,job.extraction⟩,?_,hname.symm,rfl⟩
  rw [loadDocumentIdentity, haccepted]
  simp only [hstrip, dif_pos hvalid, h.sourceFound, dif_pos h.digest]

theorem schema_registered {job : JobRow} {upload : UploadRow} {source : AcceptedSource}
    (h : InProgress scope jobId s job upload source) {identity : StoredDocumentIdentity}
    (hextraction : identity.extraction = job.extraction) :
    ∃ schema, registeredSchema identity = .ok schema := by
  rw [registeredSchema, hextraction]
  cases hjob : job.extraction with
  | none => exact ⟨none,rfl⟩
  | some reference =>
    obtain ⟨schema,hschema⟩ := Option.isSome_iff_exists.mp (h.schema reference hjob)
    exact ⟨some schema,by simp only [hschema]⟩

/-- The numbers of the succeeded pages. -/
def succeededPages (w : PageCheckpoint.PageWorkflow) : List ℕ :=
  (w.pages.zipIdx.filter fun x => x.1.isSucceeded).map fun x => x.2+1

theorem length_succeededPages (w : PageCheckpoint.PageWorkflow) :
    (succeededPages w).length = w.successfulPageCount := by
  have hpages : w.pages.zipIdx.map Prod.fst = w.pages := List.zipIdx_map_fst 0 w.pages
  rw [succeededPages, List.length_map, PageCheckpoint.PageWorkflow.successfulPageCount]
  conv_rhs => rw [← hpages, List.filter_map, List.length_map]
  rfl

theorem nodup_succeededPages (w : PageCheckpoint.PageWorkflow) : (succeededPages w).Nodup := by
  have hall : (w.pages.zipIdx.map fun x => x.2+1).Nodup := by
    have hindices : w.pages.zipIdx.map (fun x => x.2+1) =
        (List.range' 0 w.pages.length).map (·+1) := by
      rw [← List.zipIdx_map_snd 0 w.pages, List.map_map]
      rfl
    rw [hindices]
    exact (List.nodup_range' (s := 0) (n := w.pages.length)).map fun _ _ h => Nat.succ.inj h
  exact (List.filter_sublist.map _).nodup hall

theorem mem_succeededPages {w : PageCheckpoint.PageWorkflow} {page : ℕ} :
    page ∈ succeededPages w ↔
      page ≠ 0 ∧ ∃ attempt, w.pages[page-1]? = some (.succeeded attempt) := by
  rw [succeededPages, List.mem_map]
  constructor
  · rintro ⟨⟨p,i⟩,hmem,rfl⟩
    obtain ⟨hget,hsucceeded⟩ := List.mem_filter.mp hmem
    have hget := List.mem_zipIdx_iff_getElem?.mp hget
    refine ⟨Nat.succ_ne_zero i,?_⟩
    cases p with
    | succeeded attempt => exact ⟨attempt,hget⟩
    | _ => cases hsucceeded
  · rintro ⟨hpage,attempt,hget⟩
    refine ⟨(.succeeded attempt,page-1),List.mem_filter.mpr ⟨?_,rfl⟩,by show page-1+1 = page; omega⟩
    exact List.mem_zipIdx_iff_getElem?.mpr hget

/-- A terminal checkpoint has as many artifacts as succeeded pages. -/
theorem artifacts_counted (hagree : PageAgreement.PagesAgree scope jobId s)
    {stored : StoredPageWorkflow} (hload : loadPageWorkflow s scope jobId = some stored) :
    stored.workflow.successfulPageCount =
      (s.pageArtifacts.filter (·.jobId == jobId)).length := by
  have hmem : ∀ page, page ∈ succeededPages stored.workflow ↔
      page ∈ (s.pageArtifacts.filter (·.jobId == jobId)).map (·.artifact.page) := by
    intro page
    rw [mem_succeededPages, List.mem_map]
    constructor
    · rintro ⟨hpage,attempt,hget⟩
      have hsucceeded : stored.workflow.isSuccessfulTask
          ⟨page,attempt,PageCheckpoint.activityKey stored.workflow.jobId page attempt⟩ = true :=
        PagePasses.isSuccessfulTask_iff.mpr ⟨hpage,rfl,hget⟩
      obtain ⟨row,hrow,hid,htask⟩ := (hagree.succeeded stored hload _).mp hsucceeded
      refine ⟨row,List.mem_filter.mpr ⟨hrow,beq_iff_eq.mpr hid⟩,?_⟩
      exact (congrArg PageCheckpoint.PageTask.page htask).symm
    · rintro ⟨row,hrow,rfl⟩
      obtain ⟨hrow,hid⟩ := List.mem_filter.mp hrow
      have hsucceeded := (hagree.succeeded stored hload _).mpr ⟨row,hrow,beq_iff_eq.mp hid,rfl⟩
      obtain ⟨hpage,_,hget⟩ := PagePasses.isSuccessfulTask_iff.mp hsucceeded
      exact ⟨hpage,_,hget⟩
  have hperm := (List.perm_ext_iff_of_nodup (nodup_succeededPages stored.workflow)
    hagree.pages).mpr hmem
  rw [← length_succeededPages, hperm.length_eq, List.length_map]

end Queries

/-! ### The document of a job whose pages are done -/

section Loaded
variable {V : Type} (lib : Libraries V) (deployment : Deployment) (scope : Scope) (jobId : JobId)

/-- The artifacts are the processor's, of distinct pages, and the duration is a number of 64
bits. -/
structure Document.Written (document : Document) (objects : StoredObjects) : Prop where
  written : ∀ artifact ∈ document.artifacts,
    WrittenBy lib.formatF64 lib.sha256 deployment.pages scope jobId objects artifact
  distinct : (document.artifacts.map (·.page)).Nodup
  duration : ∀ d ∈ document.durationMs, d < 2^64

variable {lib deployment scope jobId} {σ : World}

theorem terminalState_terminal {workflow : PageCheckpoint.PageWorkflow}
    (h : workflow.status = .completed ∨ workflow.status = .partialResult) :
    ∃ state, terminalState workflow = .ok state := by
  rw [terminalState]
  rcases h with h | h
  · exact ⟨.completed,by rw [h]⟩
  · exact ⟨.partialResult,by rw [h]⟩

theorem artifacts_loaded (h : PagesDone lib deployment scope jobId σ) :
    ∃ artifacts, loadPageArtifacts σ.store scope jobId = .ok artifacts ∧
      (∀ artifact ∈ artifacts,
        WrittenBy lib.formatF64 lib.sha256 deployment.pages scope jobId σ.objects artifact) ∧
      (artifacts.map (·.page)).Nodup ∧
      artifacts.length = (σ.store.pageArtifacts.filter (·.jobId == jobId)).length := by
  have hrows : σ.store.pageArtifacts.filter (fun row => row.scope == scope && row.jobId == jobId) =
      σ.store.pageArtifacts.filter (·.jobId == jobId) := by
    refine List.filter_congr ?_
    intro row hrow
    by_cases hid : row.jobId = jobId
    · simp [h.agree.inScope row hrow hid, hid]
    · simp [hid]
  generalize hartifacts : (((σ.store.pageArtifacts.filter fun row => row.scope == scope &&
    row.jobId == jobId).map (·.artifact)).mergeSort fun a b => decide (a.page ≤ b.page)) = artifacts
  have hperm : artifacts.Perm
      ((σ.store.pageArtifacts.filter (·.jobId == jobId)).map (·.artifact)) := by
    rw [← hartifacts, hrows]
    exact List.mergeSort_perm _ _
  have hwritten : ∀ artifact ∈ artifacts,
      WrittenBy lib.formatF64 lib.sha256 deployment.pages scope jobId σ.objects artifact := by
    intro artifact hartifact
    obtain ⟨row,hrow,rfl⟩ := List.mem_map.mp (hperm.mem_iff.mp hartifact)
    obtain ⟨hrow,hid⟩ := List.mem_filter.mp hrow
    exact h.written row hrow (beq_iff_eq.mp hid)
  refine ⟨artifacts,?_,hwritten,?_,?_⟩
  · have hvalid : artifacts.all validatePageArtifact = true := by
      refine List.all_eq_true.mpr fun artifact hartifact => ?_
      obtain ⟨_,_,hvalid,_⟩ := written_reads deployment.buckets (hwritten artifact hartifact)
      exact hvalid
    rw [loadPageArtifacts, hartifacts, if_pos hvalid]
  · rw [(hperm.map _).nodup_iff, List.map_map]
    exact h.agree.pages
  · rw [hperm.length_eq, List.length_map]

/-- Where the pages are done every query has its answer. -/
theorem pagesDone_loads (h : PagesDone lib deployment scope jobId σ) :
    ∃ document, Loads scope jobId σ document ∧
      document.Written lib deployment scope jobId σ.objects ∧
      document.identity.documentId.asStr = documentName jobId := by
  obtain ⟨job,upload,source,hjob⟩ := h.job
  obtain ⟨identity,hidentity,hname,hextraction⟩ := identity_loaded hjob
  obtain ⟨schema,hschema⟩ := schema_registered hjob hextraction
  obtain ⟨stored,hload,hterminal⟩ := h.workflow
  obtain ⟨state,hstate⟩ := terminalState_terminal hterminal
  obtain ⟨artifacts,hartifacts,hwritten,hdistinct,hlength⟩ := artifacts_loaded h
  refine ⟨⟨identity,schema,state,artifacts,_⟩,⟨hidentity,hschema,⟨stored,hload,hstate,?_⟩,
    hartifacts,rfl⟩,⟨hwritten,hdistinct,?_⟩,hname⟩
  · rw [artifacts_counted h.agree hload, hlength]
  · intro d hd
    obtain ⟨row,hrow,rfl⟩ := Option.map_eq_some_iff.mp hd
    exact h.durations row (List.mem_of_find?_eq_some hrow)

end Loaded

/-! ### The pages of the document -/

/-- The fold ends with the sum of the lengths, if it is within the limit. -/
theorem totalBytes_sum {artifacts : List StoredPageArtifact}
    (h : ∀ artifact ∈ artifacts, 0 ≤ artifact.contentLength) {total : ℕ}
    (htotal : total ≤ maximumResultBytes) :
    totalBytes total artifacts =
      if total+(artifacts.map (·.contentLength.toNat)).sum ≤ maximumResultBytes then
        .ok (total+(artifacts.map (·.contentLength.toNat)).sum)
      else .error (.assembly .tooLarge) := by
  induction artifacts generalizing total with
  | nil => simp [totalBytes, htotal]
  | cons artifact artifacts ih =>
    have hlength := h artifact List.mem_cons_self
    rw [totalBytes, if_neg (Int.not_lt.mpr hlength), List.map_cons, List.sum_cons]
    by_cases hlarge : maximumResultBytes < total+artifact.contentLength.toNat
    · rw [if_pos hlarge, if_neg (by omega)]
    · rw [if_neg hlarge, ih (fun a ha => h a (List.mem_cons_of_mem artifact ha)) (by omega),
        Nat.add_assoc]

section Pages
variable {V : Type} {lib : Libraries V} {deployment : Deployment} {scope : Scope} {jobId : JobId}
  {objects : StoredObjects} {attempt : Attempt} {identity : StoredDocumentIdentity}
  {schema : Option ExtractionSchema}

theorem artifactPage_number {artifact : StoredPageArtifact} {page : BuiltPage}
    (h : artifactPage lib objects artifact = some page) : page.page = artifact.page := by
  obtain ⟨o,_,h⟩ := Option.bind_eq_some_iff.mp h
  exact beq_iff_eq.mp (Option.filter_eq_some_iff.mp h).2

/-- An answered read of an artifact has its page. -/
theorem pageOf_stored {artifact : StoredPageArtifact}
    (hwritten : WrittenBy lib.formatF64 lib.sha256 deployment.pages scope jobId objects artifact)
    (hanswered : attempt.reads artifact = .answered) :
    pageOf lib (execution lib deployment attempt objects identity schema) artifact =
      (artifactPage lib objects artifact).elim (.error .invalidPageArtifact) .ok := by
  obtain ⟨text,_,_,_,hversion,hread⟩ := written_reads deployment.buckets hwritten
  have hexecution : (execution lib deployment attempt objects identity schema).read artifact =
      .ok (DocumentPages.toVec lib.formatF64 text) := by
    rw [← hread, ← hanswered]
    rfl
  rw [pageOf, hexecution, artifactPage, hversion, Option.bind_some]
  generalize hpage : (lib.parse (DocumentPages.toVec lib.formatF64 text)).bind
    ResultJson.readPage = decoded
  cases decoded with
  | none =>
    dsimp only
    rw [hpage]
    rfl
  | some page =>
    dsimp only
    rw [hpage]
    dsimp only
    by_cases hnumber : page.page = artifact.page
    · have hequal : (page.page == artifact.page) = true := beq_iff_eq.mpr hnumber
      rw [if_neg (not_not.mpr hnumber), Option.filter_some, if_pos hequal]
      rfl
    · have hdiffer : ¬(page.page == artifact.page) = true := by simpa using hnumber
      rw [if_pos hnumber, Option.filter_some, if_neg hdiffer]
      rfl

/-- A read which has a page is answered. -/
theorem pageOf_answered {artifact : StoredPageArtifact} {page : BuiltPage}
    (h : pageOf lib (execution lib deployment attempt objects identity schema) artifact =
      .ok page) : attempt.reads artifact = .answered := by
  by_contra hreply
  have hread : (execution lib deployment attempt objects identity schema).read artifact =
      ArtifactReading.read lib.sha256 deployment.reader objects (attempt.reads artifact) artifact
        maximumResultBytes := rfl
  rw [pageOf, hread, ArtifactReading.read, if_neg (by decide)] at h
  by_cases hbucket : (!deployment.reader.buckets.contains artifact.objectBucket) = true
  · rw [if_pos hbucket] at h
    exact absurd h (by simp)
  · rw [if_neg hbucket, if_pos hreply] at h
    exact absurd h (by simp)

/-- Pages arrive in any order. -/
theorem arrived_pages {artifacts arrived : List StoredPageArtifact} {pages : List BuiltPage}
    (hperm : arrived.Perm artifacts) (h : arrived.mapM (artifactPage lib objects) = some pages) :
    ∃ others, artifacts.mapM (artifactPage lib objects) = some others ∧ pages.Perm others := by
  obtain ⟨others,hothers,hpages⟩ :=
    List.perm_comp_forall₂ hperm.symm (Table.mapM_some_iff.mp h)
  exact ⟨others,Table.mapM_some_iff.mpr hothers,hpages.symm⟩

variable {document : Document} {pages : List BuiltPage}

theorem pages_numbers (h : document.artifacts.mapM (artifactPage lib objects) = some pages) :
    pages.map (·.page) = document.artifacts.map (·.page) :=
  Table.forall₂_map_eq ((Table.mapM_some_iff.mp h).imp fun _ _ hpage => artifactPage_number hpage)

theorem artifacts_valid (hwritten : document.Written lib deployment scope jobId objects) :
    ∀ artifact ∈ document.artifacts,
      1 ≤ artifact.contentLength ∧ 1 ≤ artifact.page ∧ artifact.page ≤ 1000 := by
  intro artifact hartifact
  obtain ⟨_,_,hvalid,_⟩ := written_reads deployment.buckets (hwritten.written artifact hartifact)
  simp only [validatePageArtifact, Bool.and_eq_true, decide_eq_true_eq] at hvalid
  obtain ⟨⟨⟨⟨⟨⟨⟨⟨⟨hpage,_⟩,_⟩,_⟩,_⟩,_⟩,_⟩,_⟩,hlength⟩,_⟩ := hvalid
  exact ⟨hlength.1,hpage.1,hpage.2⟩

theorem pages_distinct (hwritten : document.Written lib deployment scope jobId objects)
    (h : document.artifacts.mapM (artifactPage lib objects) = some pages) :
    (pages.map (·.page)).Nodup := by
  rw [pages_numbers h]
  exact hwritten.distinct

theorem artifacts_bounded (hwritten : document.Written lib deployment scope jobId objects) :
    document.artifacts.length ≤ 1000 := by
  have hsubset : document.artifacts.map (·.page) ⊆ List.range' 1 1000 := by
    intro page hpage
    obtain ⟨artifact,hartifact,rfl⟩ := List.mem_map.mp hpage
    obtain ⟨_,hlow,hhigh⟩ := artifacts_valid hwritten artifact hartifact
    rw [List.mem_range'_1]
    omega
  have hle := (hwritten.distinct.subperm hsubset).length_le
  rwa [List.length_map, List.length_range'] at hle

theorem pages_bounded (hwritten : document.Written lib deployment scope jobId objects)
    (h : document.artifacts.mapM (artifactPage lib objects) = some pages) : pages.length ≤ 1000 := by
  rw [← (Table.mapM_some_iff.mp h).length_eq]
  exact artifacts_bounded hwritten

end Pages

/-! ### The preparation -/

section Prepare
variable {V : Type} {lib : Libraries V} {deployment : Deployment} {scope : Scope} {jobId : JobId}
  {σ : World} {attempt : Attempt} {document : Document}

variable (lib) in
/-- The result of the pages of a document. -/
def Document.result (document : Document) (pages : List BuiltPage)
    (provenance : Option ProcessingProvenance) : DocumentResult V :=
  documentResult lib.extract document.identity.documentId document.identity.documentVersion
    document.schema provenance (byNumber pages)

theorem provenance_total (deployment : Deployment) (hduration : ∀ d ∈ document.durationMs, d < 2^64)
    (pages : List BuiltPage) : ∃ provenance,
      (assemblyMode deployment.finalizer document.durationMs).provenance pages =
        .ok provenance := by
  have hnew : ∀ provider model profile d, DocumentResults.validVersionName provider = true →
      DocumentResults.validVersionName model = true →
      DocumentResults.validVersionName profile = true → d < 2^64 →
      ∃ provenance, ProcessingProvenance.new provider model profile d = .ok provenance := by
    intro provider model profile d hprovider hmodel hprofile hd
    have hvalid : DocumentResults.validProvenance provider model profile d = true := by
      simp only [DocumentResults.validProvenance, hprovider, hmodel, hprofile, Bool.and_self,
        decide_eq_true hd]
    exact ⟨_,by rw [ProcessingProvenance.new, dif_pos hvalid]⟩
  rw [assemblyMode]
  split
  · cases hstored : document.durationMs with
    | none =>
      obtain ⟨provenance,hprovenance⟩ := hnew "legacy-mixed" "unknown" "native-text-transition-v1" 0
        (by decide) (by decide) (by decide) (by decide)
      exact ⟨some provenance,by
        rw [Option.elim_none, Assembly.provenance, hprovenance]
        rfl⟩
    | some d =>
      have hprofile :
          DocumentResults.validVersionName (ResultAssembly.nativeProfile pages).1 = true ∧
          DocumentResults.validVersionName (ResultAssembly.nativeProfile pages).2.1 = true ∧
          DocumentResults.validVersionName (ResultAssembly.nativeProfile pages).2.2 = true := by
        rw [ResultAssembly.nativeProfile]
        split_ifs <;> decide
      obtain ⟨provenance,hprovenance⟩ := hnew _ _ _ d hprofile.1 hprofile.2.1 hprofile.2.2
        (hduration d hstored)
      refine ⟨some provenance,?_⟩
      rw [Option.elim_some, Assembly.provenance]
      dsimp only
      rw [hprovenance]
      rfl
  · exact ⟨none,rfl⟩

/-- The pages of a document are read unless the artifacts together are too large. -/
theorem storedPages_loaded (hload : Loads scope jobId σ document)
    (hwritten : document.Written lib deployment scope jobId σ.objects) {execution : Execution} :
    storedPages lib scope jobId execution σ.store document.artifacts.length =
      if (document.artifacts.map (·.contentLength.toNat)).sum ≤ maximumResultBytes then
        (execution.arrive document.artifacts).mapM (pageOf lib execution)
      else .error (.assembly .tooLarge) := by
  have hlengths : ∀ artifact ∈ document.artifacts, 0 ≤ artifact.contentLength := by
    intro artifact hartifact
    have hlength := (artifacts_valid hwritten artifact hartifact).1
    omega
  rw [storedPages, hload.artifacts]
  dsimp only
  rw [readPages, if_neg (not_not.mpr rfl), totalBytes_sum hlengths (Nat.zero_le _), Nat.zero_add]
  by_cases hsum : (document.artifacts.map (·.contentLength.toNat)).sum ≤ maximumResultBytes
  · rw [if_pos hsum, if_pos hsum]
    dsimp only
    rw [if_neg]
    rintro ⟨hzero,hsome⟩
    obtain ⟨artifact,hartifact⟩ := List.exists_mem_of_ne_nil _ hsome
    have hlength := (artifacts_valid hwritten artifact hartifact).1
    have hle := List.single_le_sum (fun _ _ => Nat.zero_le _) _ 
      (List.mem_map_of_mem (f := fun a : StoredPageArtifact => a.contentLength.toNat) hartifact)
    omega
  · rw [if_neg hsum, if_neg hsum]

/-- The document fits in one way. -/
theorem fits_unique {document : Document} {objects : StoredObjects} {pages others : List BuiltPage}
    {provenance other : Option ProcessingProvenance}
    (h : document.Fits lib deployment objects pages provenance)
    (hother : document.Fits lib deployment objects others other) :
    others = pages ∧ other = provenance := by
  have hpages : others = pages := by
    have hread := hother.readBack
    rw [h.readBack, Option.some.injEq] at hread
    exact hread.symm
  subst others
  have hprofiled := hother.profiled
  rw [h.profiled, Except.ok.injEq] at hprofiled
  exact ⟨rfl,hprofiled.symm⟩

variable (hnames : NamesFields lib)
include hnames

/-- The assembly of the pages in any order. -/
theorem assembled_outcome {pages arrived : List BuiltPage}
    {provenance : Option ProcessingProvenance} (hperm : arrived.Perm pages)
    (hdistinct : (pages.map (·.page)).Nodup) (hcount : pages.length ≤ 1000)
    (hprovenance : (assemblyMode deployment.finalizer document.durationMs).provenance pages =
      .ok provenance) :
    assembled lib deployment.finalizer
        (execution lib deployment attempt σ.objects document.identity document.schema)
        document.durationMs arrived =
      if resultBytes lib.extract lib.formatF64 lib.formatValue document.identity.documentId
          document.identity.documentVersion document.schema provenance (byNumber pages) ≤
          maximumResultBytes then .ok (document.result lib pages provenance)
      else .error (.assembly .tooLarge) := by
  have harrived : (arrived.map (·.page)).Nodup := (hperm.map _).nodup_iff.mpr hdistinct
  have hsame : byNumber arrived = byNumber pages := byNumber_congr hperm harrived
  have hoffered := ResultAssembly.provenance_perm hperm
    (assemblyMode deployment.finalizer document.durationMs)
  rw [hprovenance] at hoffered
  have houtcome := ResultSizes.assembleWithProvenance_outcome lib.extract lib.formatF64
    lib.formatValue document.identity.documentId document.identity.documentVersion document.schema
    provenance (fun schema pages entry hentry =>
      extractedNames_valid entry.1 (hnames schema pages entry hentry))
    (by rw [hperm.length_eq]; exact hcount) harrived
  have hassemble : ResultAssembly.assemble lib.extract lib.formatF64 lib.formatValue
      (assemblyMode deployment.finalizer document.durationMs) document.identity.documentId
      document.identity.documentVersion arrived document.schema =
      ResultAssembly.assembleWithProvenance lib.extract lib.formatF64 lib.formatValue
        document.identity.documentId document.identity.documentVersion arrived document.schema
        provenance := by
    rw [ResultAssembly.assemble, hoffered]
    rfl
  unfold assembled execution
  simp only [hassemble, houtcome, hsame]
  split_ifs <;> rfl

/-- What an attempt prepares is the result of a document which fits. -/
theorem prepare_fits (hload : Loads scope jobId σ document)
    (hwritten : document.Written lib deployment scope jobId σ.objects)
    {x : JobState × DocumentResult V}
    (h : prepare lib deployment.finalizer scope jobId
      (execution lib deployment attempt σ.objects document.identity document.schema) σ = .ok x) :
    ∃ pages provenance, document.Fits lib deployment σ.objects pages provenance ∧
      x = (reviewedState document.state (document.result lib pages provenance),
        document.result lib pages provenance) := by
  obtain ⟨stored,own,arrived,hstored,hown,hpages,hassembled,hx⟩ := prepare_ok h
  obtain ⟨stored',hstored',hstate,hcount⟩ := hload.workflow
  rw [hstored, Option.some.injEq] at hstored'
  subst stored'
  rw [hown, Except.ok.injEq] at hstate
  rw [hcount, storedPages_loaded hload hwritten] at hpages
  rw [hload.durationMs] at hassembled
  split_ifs at hpages with hsum
  have hread : ((execution lib deployment attempt σ.objects document.identity
      document.schema).arrive document.artifacts).mapM (artifactPage lib σ.objects) =
      some arrived := by
    refine Table.mapM_some_of_ok ?_ hpages
    intro artifact hartifact page hpage
    have hmem := (attempt.arrive_perm document.artifacts).mem_iff.mp hartifact
    rw [pageOf_stored (hwritten.written artifact hmem) (pageOf_answered hpage)] at hpage
    cases hstoredPage : artifactPage lib σ.objects artifact with
    | none =>
      rw [hstoredPage] at hpage
      cases hpage
    | some found =>
      rw [hstoredPage, Option.elim_some, Except.ok.injEq] at hpage
      rw [hpage]
  obtain ⟨pages,hread,hperm⟩ := arrived_pages (attempt.arrive_perm document.artifacts) hread
  obtain ⟨provenance,hprovenance⟩ := provenance_total deployment
    hwritten.duration pages
  rw [assembled_outcome hnames hperm (pages_distinct hwritten hread)
    (pages_bounded hwritten hread) hprovenance] at hassembled
  split_ifs at hassembled with hbytes
  rw [Except.ok.injEq] at hassembled
  refine ⟨pages,provenance,⟨hread,hprovenance,hsum,hbytes⟩,?_⟩
  rw [Prod.ext_iff]
  exact ⟨by rw [hx, hstate, hassembled],hassembled.symm⟩

/-- An attempt which meets an available store prepares the result, or refuses a document
which does not fit. -/
theorem prepare_available (hload : Loads scope jobId σ document)
    (hwritten : document.Written lib deployment scope jobId σ.objects)
    (havailable : attempt.Available) :
    (∃ pages provenance, document.Fits lib deployment σ.objects pages provenance ∧
      prepare lib deployment.finalizer scope jobId
        (execution lib deployment attempt σ.objects document.identity document.schema) σ =
        .ok (reviewedState document.state (document.result lib pages provenance),
          document.result lib pages provenance)) ∨
      (¬∃ pages provenance, document.Fits lib deployment σ.objects pages provenance) ∧
        ∃ e, prepare lib deployment.finalizer scope jobId
          (execution lib deployment attempt σ.objects document.identity document.schema) σ =
          .error e ∧ errorKind (.finalize e) = .invalidInput := by
  obtain ⟨stored,hstored,hstate,hcount⟩ := hload.workflow
  have hprepare : prepare lib deployment.finalizer scope jobId
      (execution lib deployment attempt σ.objects document.identity document.schema) σ =
      (if (document.artifacts.map (·.contentLength.toNat)).sum ≤ maximumResultBytes then
        ((attempt.arrive document.artifacts).mapM (artifactPage lib σ.objects)).elim
          (.error .invalidPageArtifact) .ok
      else .error (.assembly .tooLarge)) >>= fun pages =>
        assembled lib deployment.finalizer
          (execution lib deployment attempt σ.objects document.identity document.schema)
          document.durationMs pages >>= fun result =>
        .ok (reviewedState document.state result,result) := by
    have hpages : (attempt.arrive document.artifacts).mapM (pageOf lib
        (execution lib deployment attempt σ.objects document.identity document.schema)) =
        ((attempt.arrive document.artifacts).mapM (artifactPage lib σ.objects)).elim
          (.error .invalidPageArtifact) .ok := by
      refine Table.mapM_elim fun artifact hartifact => ?_
      have hmem := (attempt.arrive_perm document.artifacts).mem_iff.mp hartifact
      exact pageOf_stored (hwritten.written artifact hmem) (havailable.reads artifact)
    rw [← hpages]
    show loaded (loadPageWorkflow σ.store scope jobId) >>= _ = _
    rw [hstored]
    show terminalState stored.workflow >>= _ = _
    rw [hstate, Table.ok_bind, hcount, storedPages_loaded hload hwritten, hload.durationMs]
    rfl
  by_cases hsum : (document.artifacts.map (·.contentLength.toNat)).sum ≤ maximumResultBytes
  swap
  · refine Or.inr ⟨?_,_,by rw [hprepare, if_neg hsum]; rfl,rfl⟩
    rintro ⟨pages,provenance,hfits⟩
    exact hsum hfits.artifactBytes
  rw [if_pos hsum] at hprepare
  cases hread : document.artifacts.mapM (artifactPage lib σ.objects) with
  | none =>
    have harrived : (attempt.arrive document.artifacts).mapM (artifactPage lib σ.objects) = none := by
      by_contra hsome
      obtain ⟨arrived,harrived⟩ := Option.ne_none_iff_exists'.mp hsome
      obtain ⟨others,hothers,_⟩ := arrived_pages (attempt.arrive_perm document.artifacts) harrived
      rw [hread] at hothers
      cases hothers
    refine Or.inr ⟨?_,_,by rw [hprepare, harrived]; rfl,rfl⟩
    rintro ⟨pages,provenance,hfits⟩
    have hback := hfits.readBack
    rw [hread] at hback
    cases hback
  | some pages =>
    obtain ⟨arrived,harrived,hperm⟩ :=
      arrived_pages (attempt.arrive_perm document.artifacts).symm hread
    obtain ⟨provenance,hprovenance⟩ := provenance_total deployment
      hwritten.duration pages
    rw [harrived, Option.elim_some, Table.ok_bind, assembled_outcome hnames hperm.symm
      (pages_distinct hwritten hread) (pages_bounded hwritten hread) hprovenance] at hprepare
    by_cases hbytes : resultBytes lib.extract lib.formatF64 lib.formatValue
        document.identity.documentId document.identity.documentVersion document.schema provenance
        (byNumber pages) ≤ maximumResultBytes
    · rw [if_pos hbytes, Table.ok_bind] at hprepare
      exact Or.inl ⟨pages,provenance,⟨hread,hprovenance,hsum,hbytes⟩,hprepare⟩
    · rw [if_neg hbytes] at hprepare
      refine Or.inr ⟨?_,_,hprepare,rfl⟩
      rintro ⟨others,other,hfits⟩
      have hback := hfits.readBack
      rw [hread, Option.some.injEq] at hback
      subst others
      have hprofiled := hfits.profiled
      rw [hprovenance, Except.ok.injEq] at hprofiled
      subst other
      exact hbytes hfits.bytes

end Prepare

end DocumentIntelligence.FinalizationActivity
