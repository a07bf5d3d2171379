import DocumentIntelligence.FinalizationActivity

/-!
# Attempts of the finalization activity

After the pages are done the activity ends with a terminal job, if the document fits. The
object of the result is written once, its first commit settles the job, and every later
attempt finds both. A document which does not fit is refused by every attempt.
-/

set_option autoImplicit false

namespace DocumentIntelligence.DurableFinalization
open Identifiers hiding Error
open Jobs hiding maximumResultBytes
open Schema PageWorkflowStore NativePages ObjectStorage StorageLocations
open ArtifactReading (GcsPageArtifactReader WrittenBy written_reads)
open PageArtifacts (GcsPageArtifactWriter)
open DocumentResults (BuiltPage DocumentResult ProcessingProvenance byNumber byNumber_congr
  byNumber_perm)
open ResultAssembly (ExtractionSchema ExtractedFields Assembly maximumResultBytes)
open ResultSizes (resultBytes documentResult)
open TenantOperations (StoredDocumentIdentity loadDocumentIdentity acceptedJob)
open DurableWorkflow (FinalizationErrorKind)
open NutritionReadings (extractedNames extractedNames_valid)
open JobStatusCache (find)
open Finalization FinalizationActivity

/-! ### The object of the result -/

section Publish
variable {V : Type} (lib : Libraries V) (scope : Scope) (jobId : JobId) (bucket : String)
  (result : DocumentResult V)

/-- The bytes of a result. -/
abbrev resultText (lib : Libraries V) (result : DocumentResult V) : List UInt8 :=
  ResultJson.toVec lib.formatF64 lib.formatValue result

/-- The object of a result, with the version which it is given. -/
def resultObject (generation : String) : StoredObject :=
  ⟨(bucket,ResultArtifacts.objectName scope jobId result.documentVersion),some generation,
    resultText lib result⟩

def resultLocator (generation : String) : StoredResultLocator where
  documentId := result.documentId
  documentVersion := result.documentVersion
  objectBucket := bucket
  objectName := ResultArtifacts.objectName scope jobId result.documentVersion
  objectVersion := generation
  objectDigest := sha256Digest lib.sha256 (resultText lib result)
  contentLength := (resultText lib result).length

/-- The result is stored with a version. -/
def StoredAt (objects : StoredObjects) (generation : String) : Prop :=
  validObjectVersion generation = true ∧
    current objects (bucket,ResultArtifacts.objectName scope jobId result.documentVersion) =
      some (resultObject lib scope jobId bucket result generation)

/-- Nothing but the result is stored. -/
def Reserved (objects : StoredObjects) : Prop :=
  current objects (bucket,ResultArtifacts.objectName scope jobId result.documentVersion) = none ∨
    ∃ generation, StoredAt lib scope jobId bucket result objects generation

variable {lib scope jobId bucket result}

theorem objectName_size (scope : Scope) (jobId : JobId) (version : DocumentVersion) :
    1 ≤ (ResultArtifacts.objectName scope jobId version).utf8ByteSize ∧
      (ResultArtifacts.objectName scope jobId version).utf8ByteSize ≤ 1024 := by
  have hjob := (validatedId_json jobId.valid (by decide)).2
  have htenant := (validatedId_json scope.tenantId.valid (by decide)).2
  have hproduct := (productId_json scope.productId).2
  have hjobPrefix : "job_".utf8ByteSize = 4 := rfl
  have htenantPrefix : "ten_".utf8ByteSize = 4 := rfl
  have hdigest : (ResultArtifacts.versionDigest version).utf8ByteSize = 64 := by
    have hvalid := version.valid
    simp only [isCanonicalSha256, Bool.and_eq_true, beq_iff_eq] at hvalid
    rw [ResultArtifacts.versionDigest, Json.utf8ByteSize_eq_sum, String.toList_ofList]
    exact hvalid.1
  have hsize : (ResultArtifacts.objectName scope jobId version).utf8ByteSize =
      9+scope.productId.asStr.utf8ByteSize+9+scope.tenantId.asStr.utf8ByteSize+9+
        jobId.asStr.utf8ByteSize+1+(ResultArtifacts.versionDigest version).utf8ByteSize+5 := by
    unfold ResultArtifacts.objectName
    simp only [String.utf8ByteSize_append]
    rfl
  rw [hsize]
  omega

variable {deployment : Deployment} {attempt : Attempt} {objects : StoredObjects}

/-- The result goes into a bucket of its product, within the limit. -/
structure Publishable (lib : Libraries V) (deployment : Deployment) (scope : Scope)
    (bucket : String) (result : DocumentResult V) : Prop where
  bucket : deployment.finalizer.writer.bucket scope.productId = some bucket
  bytes : (resultText lib result).length ≤ maximumResultBytes

theorem resultText_pos (lib : Libraries V) (result : DocumentResult V) : 1 ≤ (resultText lib result).length := by
  rw [ResultSizes.toVec_length, ResultJson.writeResult, JsonTree.Node.render, Json.size_object]
  omega

theorem prepared_result (h : Publishable lib deployment scope bucket result) :
    ResultArtifacts.prepareResultArtifact lib.formatF64 lib.formatValue deployment.finalizer.writer
      scope jobId result = .ok
        ⟨(bucket,ResultArtifacts.objectName scope jobId result.documentVersion),
          resultText lib result⟩ := by
  have hbytes : ¬(resultText lib result = [] ∨
      maximumResultBytes < (resultText lib result).length) := by
    rw [not_or, ← ne_eq, ← List.length_pos_iff, Nat.not_lt]
    exact ⟨resultText_pos lib result,h.bytes⟩
  rw [ResultArtifacts.prepareResultArtifact, h.bucket]
  exact if_neg hbytes

/-- The locator of a stored result passes the checks of a commit. -/
theorem resultLocator_valid (scope : Scope) (jobId : JobId) (h : Publishable lib deployment scope bucket result)
    {generation : String} (hgeneration : validObjectVersion generation = true) :
    validateLocator (resultLocator lib scope jobId bucket result generation) = true ∧
      resultChecks (resultLocator lib scope jobId bucket result generation) = true := by
  have hname : isBucketName bucket = true := by
    obtain ⟨route,hfind,rfl⟩ := Option.map_eq_some_iff.mp h.bucket
    exact List.all_eq_true.mp deployment.finalizer.writer.valid route
      (List.mem_of_find?_eq_some hfind)
  have hlength := isBucketName_length hname
  have hsize := Json.length_le_size bucket
  have hobject := objectName_size scope jobId result.documentVersion
  have hpos := resultText_pos lib result
  have hbytes := h.bytes
  have hmaximum : Jobs.maximumResultBytes = (maximumResultBytes : ℤ) := rfl
  constructor
  · have hfilled : 1 ≤ bucket.utf8ByteSize ∧ bucket.utf8ByteSize ≤ 222 := by omega
    simp only [validateLocator, Bool.and_eq_true, decide_eq_true_eq, validDigest, bne_iff_ne]
    exact ⟨⟨⟨⟨⟨⟨PageArtifacts.ne_empty_of_size hfilled.1,hfilled.2⟩,
      PageArtifacts.ne_empty_of_size hobject.1⟩,hobject.2⟩,hgeneration⟩,
      Int.natCast_pos.mpr hpos⟩,sha256Digest_valid lib.sha256 (resultText lib result)⟩
  · simp only [resultChecks, Bool.and_eq_true, decide_eq_true_eq, hmaximum]
    exact ⟨hlength.1,Int.ofNat_le.mpr hbytes⟩

/-- A write keeps the place of the result for it. -/
theorem put_stored {version : Option String}
    (hreserved : Reserved lib scope jobId bucket result objects)
    (hversion : ∃ generation, version = some generation ∧ validObjectVersion generation = true) :
    ∃ generation, StoredAt lib scope jobId bucket result
      (ResultArtifacts.putResult
        ⟨(bucket,ResultArtifacts.objectName scope jobId result.documentVersion),
          resultText lib result⟩ version objects) generation := by
  rcases hreserved with hnone | ⟨generation,hvalid,hstored⟩
  · obtain ⟨generation,rfl,hvalid⟩ := hversion
    refine ⟨generation,hvalid,?_⟩
    rw [ResultArtifacts.putResult, current_create, if_pos rfl, hnone]
    rfl
  · exact ⟨generation,hvalid,current_create_of_some hstored _⟩

theorem readBack_result {generation : String}
    (h : StoredAt lib scope jobId bucket result objects generation) :
    ResultArtifacts.readBack lib.sha256 result
      ⟨(bucket,ResultArtifacts.objectName scope jobId result.documentVersion),
        resultText lib result⟩
      (current objects (bucket,ResultArtifacts.objectName scope jobId result.documentVersion)) =
      .ok (resultLocator lib scope jobId bucket result generation) := by
  have hfilter : (some generation).filter validObjectVersion = some generation :=
    Option.filter_some_pos h.1
  rw [h.2, ResultArtifacts.readBack]
  simp only [resultObject, hfilter, ne_eq, not_true_eq_false, if_false, or_self]
  rfl

/-- What a write of the result does. -/
theorem write_result (h : Publishable lib deployment scope bucket result)
    (hreserved : Reserved lib scope jobId bucket result objects) (hversion : attempt.Versioned) :
    ∃ written, Extends objects written ∧
      (∀ generation, StoredAt lib scope jobId bucket result objects generation →
        StoredAt lib scope jobId bucket result written generation) ∧
      Reserved lib scope jobId bucket result written ∧
      ((attempt.reply ≠ .answered ∧ ResultArtifacts.write lib.formatF64 lib.formatValue lib.sha256
          deployment.finalizer.writer scope jobId attempt.reply attempt.version objects result =
            (.error .unavailable,written)) ∨
        ∃ generation, StoredAt lib scope jobId bucket result written generation ∧
          ResultArtifacts.write lib.formatF64 lib.formatValue lib.sha256
            deployment.finalizer.writer scope jobId attempt.reply attempt.version objects result =
              (.ok (resultLocator lib scope jobId bucket result generation),written)) := by
  obtain ⟨generation,hstored⟩ := put_stored hreserved hversion
  have hextends : Extends objects (ResultArtifacts.putResult
      ⟨(bucket,ResultArtifacts.objectName scope jobId result.documentVersion),
        resultText lib result⟩ attempt.version objects) := extends_create objects _
  have hkeeps : ∀ generation, StoredAt lib scope jobId bucket result objects generation →
      StoredAt lib scope jobId bucket result (ResultArtifacts.putResult
        ⟨(bucket,ResultArtifacts.objectName scope jobId result.documentVersion),
          resultText lib result⟩ attempt.version objects) generation :=
    fun _ hold => ⟨hold.1,current_create_of_some hold.2 _⟩
  rw [ResultArtifacts.write, prepared_result h]
  cases attempt.reply with
  | refused =>
    exact ⟨objects,Extends.refl objects,fun _ hold => hold,hreserved,Or.inl ⟨by decide,rfl⟩⟩
  | lost => exact ⟨_,hextends,hkeeps,Or.inr ⟨generation,hstored⟩,Or.inl ⟨by decide,rfl⟩⟩
  | answered =>
    refine ⟨_,hextends,hkeeps,Or.inr ⟨generation,hstored⟩,Or.inr ⟨generation,hstored,?_⟩⟩
    dsimp only
    rw [readBack_result hstored]

end Publish

/-! ### The commit -/

section Commit
variable {V : Type} {scope : Scope} {jobId : JobId} {result : DocumentResult V}
  {locator : StoredResultLocator} {s : Store} {job : JobRow} {state : JobState}
  {eventType : EventType} (now : ℤ)
  (hid : locator.documentId = result.documentId)
  (hversion : locator.documentVersion = result.documentVersion)
  (hvalid : validateLocator locator = true) (hevent : terminalEvent state = some eventType)
  (hjob : s.jobs.find? (isJob scope jobId) = some job)
include hid hversion hvalid hevent hjob

/-- The first commit of a job in progress. -/
theorem commit_first (hchecks : resultChecks locator = true)
    (hstatus : job.status = .processing ∨ job.status = .validating)
    (hunfinished : ∀ r ∈ s.results, r.jobId ≠ jobId)
    (hunique : ∀ r ∈ s.results, r.locator.documentId ≠ locator.documentId) :
    ResultArtifacts.commitLocator scope jobId s now state result locator =
      .ok (.committed (storedJob (setStatus state job)),
        commitRow s now job ⟨locator,state⟩ eventType) := by
  have hnone : s.results.find? (isResult scope jobId) = none := by
    rw [List.find?_eq_none]
    intro r hr
    simp [isResult, hunfinished r hr]
  have hopen : ¬(job.status ≠ .processing ∧ job.status ≠ .validating) := by
    rintro ⟨hprocessing,hvalidating⟩
    exact hstatus.elim hprocessing hvalidating
  have hany : (s.results.any fun r => r.jobId == jobId ||
      r.scope == scope && r.locator.documentId == locator.documentId &&
        r.locator.documentVersion == locator.documentVersion) = false := by
    rw [List.any_eq_false]
    intro r hr
    simp [hunfinished r hr, hunique r hr]
  have hcommit : commitResult s now scope jobId ⟨locator,state⟩ =
      .ok (.committed (storedJob (setStatus state job)),
        commitRow s now job ⟨locator,state⟩ eventType) := by
    simp only [commitResult, hvalid, hevent, hjob, hnone, if_neg hopen, hchecks, hany]
    rfl
  rw [ResultArtifacts.commitLocator, hcommit]
  simp [hid, hversion]

/-- The same commit again. -/
theorem commit_again (hstatus : job.status = state)
    (hresult : s.results.find? (isResult scope jobId) = some ⟨jobId,scope,locator⟩) :
    ResultArtifacts.commitLocator scope jobId s now state result locator =
      .ok (.existing (storedJob job),s) := by
  have hcommit : commitResult s now scope jobId ⟨locator,state⟩ =
      .ok (.existing (storedJob job),s) := by
    simp only [commitResult, hvalid, hevent, hjob, hresult, hstatus, and_self, if_true]
    rfl
  rw [ResultArtifacts.commitLocator, hcommit]
  simp [hid, hversion]

end Commit

/-! ### Queries after a commit -/

section Kept
variable {V : Type} {lib : Libraries V} {deployment : Deployment} {scope : Scope} {jobId : JobId}
  {s : Store} {job : JobRow} {state : JobState} {locator : StoredResultLocator} {now : ℤ}
  {eventType : EventType} {document : Document}

theorem commitRow_uploads (s : Store) (now : ℤ) (job : JobRow) (command : CommitResult)
    (eventType : EventType) : (commitRow s now job command eventType).uploads = s.uploads := by
  unfold commitRow
  split <;> rfl

theorem commitRow_found (now : ℤ) (locator : StoredResultLocator) (state : JobState)
    (eventType : EventType) (hjob : s.jobs.find? (isJob scope jobId) = some job) :
    (commitRow s now job ⟨locator,state⟩ eventType).jobs.find? (isJob scope jobId) =
      some (setStatus state job) := by
  obtain ⟨hscope,hid⟩ := (Commands.isJob_iff _ _ _).mp (Table.mem_of_find? hjob).2
  have hkey : ∀ x, isJob scope jobId (setStatus state x) = isJob scope jobId x := fun _ => rfl
  rw [FinalizerRaces.commitRow_jobs, hscope, hid]
  show (Table.update (isJob scope jobId) (setStatus state) s.jobs).find? _ = _
  rw [Table.find?_update hkey, hjob]
  rfl

/-- The commit changes nothing which an attempt loads. -/
theorem loads_committed {σ : World} (hload : Loads scope jobId σ document)
    (hjob : σ.store.jobs.find? (isJob scope jobId) = some job) {σ' : World}
    (hstore : σ'.store = commitRow σ.store now job ⟨locator,state⟩ eventType)
    (hnative : σ'.native = σ.native) : Loads scope jobId σ' document := by
  have hfound := commitRow_found now locator state eventType hjob
  have huploads := commitRow_uploads σ.store now job ⟨locator,state⟩ eventType
  obtain ⟨hworkflows,hartifacts⟩ := PageAgreement.commitRow_pages σ.store now job ⟨locator,state⟩
    eventType
  rw [← hstore] at hfound huploads hworkflows hartifacts
  have hidentity : loadDocumentIdentity σ'.store scope jobId =
      loadDocumentIdentity σ.store scope jobId := by
    have hupload : (setStatus state job).uploadId = job.uploadId := rfl
    have haccepted : acceptedJob σ'.store scope jobId =
        (acceptedJob σ.store scope jobId).map fun x => (setStatus state job,x.2) := by
      simp only [acceptedJob, hfound, hjob, huploads, hupload, Option.bind_eq_bind,
        Option.bind_some]
      cases σ.store.uploads.find? fun u =>
        Uploads.isUpload scope job.uploadId u && u.status == .accepted <;> rfl
    have hown : ∀ x, acceptedJob σ.store scope jobId = some x → x.1 = job := by
      intro x hx
      simp only [acceptedJob, hjob, Option.bind_eq_bind, Option.bind_some] at hx
      obtain ⟨upload,_,hx⟩ := Option.bind_eq_some_iff.mp hx
      rw [← Option.some.inj hx]
    rw [loadDocumentIdentity, loadDocumentIdentity, haccepted]
    cases haccepted : acceptedJob σ.store scope jobId with
    | none => rfl
    | some x =>
      obtain rfl := hown x haccepted
      rfl
  have hsource : isSourceDocument σ'.store scope jobId nativeProfileName =
      isSourceDocument σ.store scope jobId nativeProfileName := by
    have hdigest : sourceDigest σ'.store scope jobId = sourceDigest σ.store scope jobId := by
      rw [sourceDigest, sourceDigest, sourceUpload, sourceUpload, hfound, hjob, huploads]
      rfl
    funext row
    rw [isSourceDocument, isSourceDocument, hdigest]
  refine ⟨by rw [hidentity, hload.identity],hload.schema,?_,?_,?_⟩
  · obtain ⟨stored,hstored,hrest⟩ := hload.workflow
    exact ⟨stored,by rw [loadPageWorkflow, hworkflows]; exact hstored,hrest⟩
  · rw [loadPageArtifacts, hartifacts]
    exact hload.artifacts
  · rw [loadNativeDurationMs, hsource, hnative]
    exact hload.durationMs

theorem written_extends {objects objects' : StoredObjects} (hextends : Extends objects objects')
    (h : document.Written lib deployment scope jobId objects) :
    document.Written lib deployment scope jobId objects' := by
  refine ⟨?_,h.distinct,h.duration⟩
  intro artifact hartifact
  obtain ⟨services,earlier,task,written,hclaimed,hprocess,hwritten⟩ := h.written artifact hartifact
  exact ⟨services,earlier,task,written,hclaimed,hprocess,hwritten.trans hextends⟩

/-- The objects of the pages are never changed. -/
theorem fits_extends {objects objects' : StoredObjects} (hextends : Extends objects objects')
    (hwritten : document.Written lib deployment scope jobId objects) {pages : List BuiltPage}
    {provenance : Option ProcessingProvenance}
    (h : document.Fits lib deployment objects pages provenance) :
    document.Fits lib deployment objects' pages provenance := by
  refine ⟨?_,h.profiled,h.artifactBytes,h.bytes⟩
  have hread : document.artifacts.mapM (fun artifact =>
      (artifactPage lib objects artifact).elim (Except.error ()) Except.ok) = .ok pages := by
    rw [Table.mapM_elim fun _ _ => rfl, h.readBack]
    rfl
  refine Table.mapM_some_of_ok ?_ hread
  intro artifact hartifact page hpage
  obtain ⟨text,_,_,_,hversion,_⟩ := written_reads deployment.buckets
    (hwritten.written artifact hartifact)
  cases hstored : artifactPage lib objects artifact with
  | none =>
    rw [hstored] at hpage
    cases hpage
  | some found =>
    rw [hstored, Option.elim_some, Except.ok.injEq] at hpage
    rw [← hpage, ← hstored, artifactPage, artifactPage, hextends _ _ _ hversion, hversion]

/-- A job in progress has no committed result. -/
theorem committedResult_none (finalizer : DocumentFinalizer)
    (hjob : s.jobs.find? (isJob scope jobId) = some job)
    (hstatus : job.status = .processing ∨ job.status = .validating)
    (hunfinished : ∀ r ∈ s.results, r.jobId ≠ jobId) :
    committedResult finalizer scope jobId s = none := by
  obtain ⟨_,hid⟩ := (Commands.isJob_iff _ _ _).mp (Table.mem_of_find? hjob).2
  have hnone : s.results.find? (·.jobId == job.jobId) = none := by
    rw [List.find?_eq_none]
    intro r hr
    simpa [hid] using hunfinished r hr
  have hfind : JobLifecycle.findResult s scope jobId = .ok (.notReady job.status) := by
    rw [JobLifecycle.findResult, hjob]
    dsimp only
    rw [hnone]
    rcases hstatus with hstatus | hstatus <;> rw [hstatus]
  rw [committedResult, hfind]
  split <;> rfl

end Kept

/-! ### Attempts on a document which fits -/

section Attempts
variable {V : Type} (lib : Libraries V) (deployment : Deployment) (scope : Scope) (jobId : JobId)
  (bucket : String) (job : JobRow) (state : JobState) (result : DocumentResult V)

/-- The job is in progress, and its document is unchanged. -/
structure Pending (σ₀ σ : World) : Prop where
  store : σ.store = σ₀.store
  native : σ.native = σ₀.native
  objects : Extends σ₀.objects σ.objects
  reserved : Reserved lib scope jobId bucket result σ.objects

/-- The result is committed with its state. -/
structure Settled (σ₀ σ : World) : Prop where
  committed : ∃ now eventType generation, terminalEvent state = some eventType ∧
    σ.store = commitRow σ₀.store now job
      ⟨resultLocator lib scope jobId bucket result generation,state⟩ eventType ∧
    StoredAt lib scope jobId bucket result σ.objects generation
  native : deployment.finalizer.nativeProcessing = false → σ.native = σ₀.native
  objects : Extends σ₀.objects σ.objects

variable {lib deployment scope jobId bucket job state result} {σ₀ σ : World}

theorem settled_job (hjob : σ₀.store.jobs.find? (isJob scope jobId) = some job)
    (h : Settled lib deployment scope jobId bucket job state result σ₀ σ) :
    σ.store.jobs.find? (isJob scope jobId) = some (setStatus state job) := by
  obtain ⟨now,eventType,generation,_,hstore,_⟩ := h.committed
  rw [hstore, commitRow_found _ _ _ _ hjob]

theorem settled_results (hjob : σ₀.store.jobs.find? (isJob scope jobId) = some job)
    (hunfinished : ∀ r ∈ σ₀.store.results, r.jobId ≠ jobId) {now : ℤ} {eventType : EventType}
    {locator : StoredResultLocator}
    (hstore : σ.store = commitRow σ₀.store now job ⟨locator,state⟩ eventType) :
    σ.store.results.find? (isResult scope jobId) = some ⟨jobId,scope,locator⟩ ∧
      σ.store.results.find? (·.jobId == jobId) = some ⟨jobId,scope,locator⟩ := by
  obtain ⟨hscope,hid⟩ := (Commands.isJob_iff _ _ _).mp (Table.mem_of_find? hjob).2
  have hold : σ₀.store.results.find? (isResult scope jobId) = none ∧
      σ₀.store.results.find? (·.jobId == jobId) = none := by
    rw [List.find?_eq_none, List.find?_eq_none]
    exact ⟨fun r hr => by simp [isResult, hunfinished r hr],
      fun r hr => by simp [hunfinished r hr]⟩
  rw [hstore, commitRow_results, hscope, hid, List.find?_append, List.find?_append, hold.1, hold.2]
  simp [isResult]

/-- The state of a document is terminal, also after its review. -/
theorem reviewed_event {workflow : PageCheckpoint.PageWorkflow} {own : JobState}
    (hstate : terminalState workflow = .ok own) (result : DocumentResult V) :
    ∃ eventType, terminalEvent (reviewedState own result) = some eventType := by
  rw [reviewedState]
  split
  · exact ⟨.reviewRequired,rfl⟩
  · rcases terminalState_ok hstate with ⟨rfl,_⟩ | ⟨rfl,_⟩
    · exact ⟨.completed,rfl⟩
    · exact ⟨.partialResult,rfl⟩

variable (lib deployment scope jobId bucket job state result) in
/-- The job has no result, and can be committed with its state and its result. -/
structure Ready (σ₀ : World) : Prop where
  jobFound : σ₀.store.jobs.find? (isJob scope jobId) = some job
  status : job.status = .processing ∨ job.status = .validating
  unfinished : ∀ r ∈ σ₀.store.results, r.jobId ≠ jobId
  unique : ∀ r ∈ σ₀.store.results, r.locator.documentId ≠ result.documentId
  publishable : Publishable lib deployment scope bucket result
  terminal : ∃ eventType, terminalEvent state = some eventType

variable (lib deployment scope jobId bucket job state result) in
/-- The job is pending or settled. -/
def Kept (σ₀ σ : World) : Prop :=
  Pending lib scope jobId bucket result σ₀ σ ∨
    Settled lib deployment scope jobId bucket job state result σ₀ σ

variable (h : Ready lib deployment scope jobId bucket job state result σ₀)
include h

/-- A committed result ends an execution in native mode. -/
theorem committedResult_kept
    (hkept : Kept lib deployment scope jobId bucket job state result σ₀ σ) :
    (∃ found, committedResult deployment.finalizer scope jobId σ.store =
        some (.ok (.existing found)) ∧
      Settled lib deployment scope jobId bucket job state result σ₀ σ) ∨
      committedResult deployment.finalizer scope jobId σ.store = none ∧ σ.native = σ₀.native := by
  obtain ⟨_,hid⟩ := (Commands.isJob_iff _ _ _).mp (Table.mem_of_find? h.jobFound).2
  by_cases hnative : deployment.finalizer.nativeProcessing = true
  swap
  · refine Or.inr ⟨by rw [committedResult, if_neg hnative],?_⟩
    rcases hkept with hpending | hsettled
    · exact hpending.native
    · exact hsettled.native (Bool.not_eq_true _ ▸ hnative)
  rw [committedResult, if_pos hnative]
  rcases hkept with hpending | hsettled
  · refine Or.inr ⟨?_,hpending.native⟩
    have hnone := committedResult_none deployment.finalizer h.jobFound h.status
      h.unfinished
    rwa [← hpending.store, committedResult, if_pos hnative] at hnone
  · obtain ⟨now,eventType,generation,hevent,hstore,hstored⟩ := hsettled.committed
    have hjob := settled_job h.jobFound hsettled
    have hrow := (settled_results h.jobFound h.unfinished hstore).2
    have hvalid := (resultLocator_valid scope jobId h.publishable
      hstored.1).1
    have hfinished : JobLifecycle.finished state = true := by
      rw [JobLifecycle.finished, hevent]
      rfl
    have hkey : (setStatus state job).jobId = jobId := hid
    have hfind : JobLifecycle.findResult σ.store scope jobId =
        .ok (.ready (resultLocator lib scope jobId bucket result generation)) := by
      rw [JobLifecycle.findResult, hjob]
      dsimp only
      rw [hkey, hrow]
      simp only [setStatus, hfinished, hvalid, Bool.not_true, Bool.false_eq_true, if_false]
    refine Or.inl ⟨storedJob (setStatus state job),?_,hsettled⟩
    rw [hfind]
    dsimp only
    rw [find, hjob]
    rfl

/-- What is published is committed once. -/
theorem commit_kept (now : ℤ) {generation : String}
    (hstored : StoredAt lib scope jobId bucket result σ.objects generation)
    (hkept : Kept lib deployment scope jobId bucket job state result σ₀ σ) :
    ∃ outcome s, ResultArtifacts.commitLocator scope jobId σ.store now state result
        (resultLocator lib scope jobId bucket result generation) = .ok (outcome,s) ∧
      published outcome = true ∧
      Settled lib deployment scope jobId bucket job state result σ₀ { σ with store := s } := by
  obtain ⟨hvalid,hchecks⟩ := resultLocator_valid scope jobId h.publishable
    hstored.1
  rcases hkept with hpending | hsettled
  · obtain ⟨eventType,hevent⟩ := h.terminal
    refine ⟨.committed (storedJob (setStatus state job)),_,?_,rfl,
      ⟨⟨now,eventType,generation,hevent,rfl,hstored⟩,fun _ => hpending.native,hpending.objects⟩⟩
    rw [hpending.store]
    exact commit_first now rfl rfl hvalid hevent h.jobFound hchecks h.status h.unfinished h.unique
  · obtain ⟨now',eventType,generation',hevent,hstore,hstored'⟩ := hsettled.committed
    have hsame : generation' = generation := by
      have hobject := hstored'.2
      rw [hstored.2, Option.some.injEq] at hobject
      exact (Option.some.inj (congrArg Stored.version hobject)).symm
    subst generation'
    have hcommit := commit_again now rfl rfl hvalid hevent
      (settled_job h.jobFound hsettled) rfl (settled_results h.jobFound h.unfinished hstore).1
    exact ⟨.existing (storedJob (setStatus state job)),_,hcommit,rfl,hsettled⟩

omit h in
theorem extends_kept {objects : StoredObjects} (hextends : Extends σ.objects objects)
    (hreserved : Reserved lib scope jobId bucket result objects)
    (hstored : ∀ generation, StoredAt lib scope jobId bucket result σ.objects generation →
      StoredAt lib scope jobId bucket result objects generation)
    (hkept : Kept lib deployment scope jobId bucket job state result σ₀ σ) :
    Kept lib deployment scope jobId bucket job state result σ₀ { σ with objects := objects } := by
  refine hkept.imp ?_ ?_
  · exact fun hpending => ⟨hpending.store,hpending.native,hpending.objects.trans hextends,hreserved⟩
  · rintro ⟨⟨now,eventType,generation,hevent,hstore,hobject⟩,hnative,hobjects⟩
    exact ⟨⟨now,eventType,generation,hevent,hstore,hstored generation hobject⟩,hnative,
      hobjects.trans hextends⟩

/-- The publication of the result ends with the result, or it is cut before its commit. -/
theorem publish_kept {attempt : Attempt} (hversion : attempt.Versioned)
    (execution : Execution) (hreply : execution.reply = attempt.reply)
    (hgiven : execution.version = attempt.version)
    (hkept : Kept lib deployment scope jobId bucket job state result σ₀ σ) :
    (∃ e σ', publish lib deployment.finalizer scope jobId execution σ state result =
        (.error e,σ') ∧ attempt.reply ≠ .answered ∧
        Kept lib deployment scope jobId bucket job state result σ₀ σ') ∨
      ∃ outcome σ', publish lib deployment.finalizer scope jobId execution σ state result =
        (.ok outcome,σ') ∧ published outcome = true ∧
        Settled lib deployment scope jobId bucket job state result σ₀ σ' := by
  have hreserved : Reserved lib scope jobId bucket result σ.objects := by
    rcases hkept with hpending | hsettled
    · exact hpending.reserved
    · obtain ⟨_,_,generation,_,_,hstored⟩ := hsettled.committed
      exact Or.inr ⟨generation,hstored⟩
  obtain ⟨written,hextends,hkeeps,hreserved,hwrite⟩ := write_result h.publishable hreserved hversion
  have hwritten := extends_kept hextends hreserved hkeeps hkept
  rw [publish, hreply, hgiven]
  rcases hwrite with ⟨hanswered,hwrite⟩ | ⟨generation,hstored,hwrite⟩
  · refine Or.inl ⟨.artifact .unavailable,{ σ with objects := written },?_,hanswered,hwritten⟩
    rw [hwrite]
  · obtain ⟨outcome,s,hcommit,hpublished,hsettled⟩ :=
      commit_kept h execution.now hstored hwritten
    refine Or.inr ⟨outcome,_,?_,hpublished,hsettled⟩
    rw [hwrite]
    dsimp only
    rw [hcommit]

end Attempts

/-! ### Runs of attempts -/

section Runs
variable {V : Type} {lib : Libraries V} {deployment : Deployment} {scope : Scope} {jobId : JobId}
  {σ₀ σ : World} {document : Document} {pages : List BuiltPage}
  {provenance : Option ProcessingProvenance} {bucket : String} {job : JobRow}

theorem loads_unique {document other : Document} (h : Loads scope jobId σ document)
    (hother : Loads scope jobId σ other) : document = other := by
  obtain ⟨stored,hstored,hstate,_⟩ := h.workflow
  obtain ⟨stored',hstored',hstate',_⟩ := hother.workflow
  rw [hstored, Option.some.injEq] at hstored'
  subst stored'
  have hidentity := hother.identity
  rw [h.identity, Except.ok.injEq, Option.some.injEq] at hidentity
  have hschema := hother.schema
  rw [← hidentity, h.schema, Except.ok.injEq] at hschema
  rw [hstate, Except.ok.injEq] at hstate'
  have hartifacts := hother.artifacts
  rw [h.artifacts, Except.ok.injEq] at hartifacts
  have hduration := h.durationMs.symm.trans hother.durationMs
  cases document
  cases other
  simp only [Document.mk.injEq]
  exact ⟨hidentity,hschema,hstate',hartifacts,hduration⟩

/-- Where the pages are done a document which fits can be committed. -/
theorem pagesDone_ready (h : PagesDone lib deployment scope jobId σ₀)
    (hload : Loads scope jobId σ₀ document)
    (hname : document.identity.documentId.asStr = documentName jobId)
    (hfits : document.Fits lib deployment σ₀.objects pages provenance) :
    ∃ bucket job, Ready lib deployment scope jobId bucket job
      (reviewedState document.state (document.result lib pages provenance))
      (document.result lib pages provenance) σ₀ := by
  obtain ⟨job,upload,source,hjob⟩ := h.job
  obtain ⟨stored,_,hstate,_⟩ := hload.workflow
  obtain ⟨bucket,hbucket⟩ := Option.isSome_iff_exists.mp
    ((deployment.products scope.productId).symm.trans h.served)
  refine ⟨bucket,job,hjob.jobFound,hjob.status,h.unfinished,?_,⟨hbucket,?_⟩,
    reviewed_event hstate _⟩
  · intro r hr hid
    refine h.unfinished r hr (documentName_inj ?_)
    rw [← h.named r hr, hid, ← hname]
    rfl
  · have hsize := ResultSizes.documentResult_size lib.extract lib.formatF64 lib.formatValue
      document.identity.documentId document.identity.documentVersion document.schema provenance
      (byNumber pages) (DocumentResults.byNumber_pairwise pages)
    rw [resultText, Document.result, hsize]
    exact hfits.bytes

section Step
variable (hload : Loads scope jobId σ₀ document)
  (hwritten : document.Written lib deployment scope jobId σ₀.objects)
  (hfits : document.Fits lib deployment σ₀.objects pages provenance)
  (hready : Ready lib deployment scope jobId bucket job
    (reviewedState document.state (document.result lib pages provenance))
    (document.result lib pages provenance) σ₀)

include hload hready in
theorem loads_kept
    (hkept : Kept lib deployment scope jobId bucket job
      (reviewedState document.state (document.result lib pages provenance))
      (document.result lib pages provenance) σ₀ σ) :
    Loads scope jobId { σ with native := σ₀.native } document := by
  rcases hkept with hpending | hsettled
  · have hstore := hpending.store
    refine ⟨?_,hload.schema,?_,?_,?_⟩
    · rw [hstore, hload.identity]
    · rw [hstore]
      exact hload.workflow
    · rw [hstore, hload.artifacts]
    · rw [hstore, hload.durationMs]
  · obtain ⟨now,eventType,generation,_,hstore,_⟩ := hsettled.committed
    exact loads_committed hload hready.jobFound hstore rfl

theorem kept_extends
    (hkept : Kept lib deployment scope jobId bucket job
      (reviewedState document.state (document.result lib pages provenance))
      (document.result lib pages provenance) σ₀ σ) : Extends σ₀.objects σ.objects := by
  rcases hkept with hpending | hsettled
  · exact hpending.objects
  · exact hsettled.objects

theorem settled_clean (execution : Execution) (outcome : CommitResultOutcome) {state : JobState}
    {result : DocumentResult V}
    (h : Settled lib deployment scope jobId bucket job state result σ₀ σ) :
    Settled lib deployment scope jobId bucket job state result σ₀
      (clean deployment.finalizer scope jobId execution outcome σ) := by
  rw [clean]
  split
  · rename_i hclean
    simp only [Bool.and_eq_true] at hclean
    refine ⟨h.committed,?_,h.objects⟩
    intro hnative
    rw [hnative] at hclean
    exact absurd hclean.1.1 Bool.false_ne_true
  · exact h

variable (hnames : NamesFields lib)
include hload hwritten hfits hready hnames

/-- What an attempt does with a document which fits: it ends with the result, or the job is
as before and the store was not available. -/
theorem run_kept {attempt : Attempt} (hversion : attempt.Versioned)
    (hkept : Kept lib deployment scope jobId bucket job
      (reviewedState document.state (document.result lib pages provenance))
      (document.result lib pages provenance) σ₀ σ) :
    (Kept lib deployment scope jobId bucket job
        (reviewedState document.state (document.result lib pages provenance))
        (document.result lib pages provenance) σ₀ (run lib deployment scope jobId attempt σ).2) ∧
      (attempt.Available → (run lib deployment scope jobId attempt σ).1 = .ok () ∧
        Settled lib deployment scope jobId bucket job
          (reviewedState document.state (document.result lib pages provenance))
          (document.result lib pages provenance) σ₀
          (run lib deployment scope jobId attempt σ).2) := by
  have hkeptLoads := loads_kept hload hready hkept
  have hidentity : loadDocumentIdentity σ.store scope jobId = .ok (some document.identity) :=
    hkeptLoads.identity
  rw [run, finalizeStored, hidentity]
  dsimp only
  rw [hload.schema]
  dsimp only
  rw [finalize]
  rcases committedResult_kept hready hkept with ⟨found,hfound,hsettled⟩ | ⟨hnone,hnative⟩
  · rw [hfound]
    exact ⟨Or.inr hsettled,fun _ => ⟨rfl,hsettled⟩⟩
  rw [hnone]
  dsimp only
  rw [← hnative] at hkeptLoads
  have hextends := kept_extends hkept
  have hkeptWritten := written_extends hextends hwritten
  have hkeptFits := fits_extends hextends hwritten hfits
  rcases hprepare : prepare lib deployment.finalizer scope jobId
      (execution lib deployment attempt σ.objects document.identity document.schema) σ with e | x
  · refine ⟨hkept,fun havailable => ?_⟩
    rcases prepare_available hnames hkeptLoads hkeptWritten havailable with
      ⟨_,_,_,hok⟩ | ⟨hlarge,_⟩
    · rw [hprepare] at hok
      cases hok
    · exact absurd ⟨pages,provenance,hkeptFits⟩ hlarge
  · obtain ⟨others,other,hothers,rfl⟩ := prepare_fits hnames hkeptLoads hkeptWritten hprepare
    obtain ⟨rfl,rfl⟩ := fits_unique hkeptFits hothers
    rcases publish_kept hready hversion
      (execution lib deployment attempt σ.objects document.identity document.schema)
      rfl rfl hkept with ⟨e,σ',hpublish,hanswered,hkept'⟩ | ⟨outcome,σ',hpublish,hdone,hsettled⟩
    · dsimp only
      rw [hpublish]
      exact ⟨hkept',fun havailable => absurd havailable.reply hanswered⟩
    · dsimp only
      rw [hpublish]
      have hclean := settled_clean (execution lib deployment attempt σ.objects
        document.identity document.schema) outcome hsettled
      cases outcome with
      | committed found | existing found => exact ⟨Or.inr hclean,fun _ => ⟨rfl,hclean⟩⟩
      | _ => cases hdone

theorem attempted_kept {attempts : List Attempt} (hversions : ∀ a ∈ attempts, a.Versioned)
    (hkept : Kept lib deployment scope jobId bucket job
      (reviewedState document.state (document.result lib pages provenance))
      (document.result lib pages provenance) σ₀ σ) :
    Kept lib deployment scope jobId bucket job
      (reviewedState document.state (document.result lib pages provenance))
      (document.result lib pages provenance) σ₀
      (attempted lib deployment scope jobId attempts σ) := by
  induction attempts generalizing σ with
  | nil => exact hkept
  | cons attempt attempts ih =>
    exact ih (fun a ha => hversions a (List.mem_cons_of_mem attempt ha))
      (run_kept hload hwritten hfits hready hnames (hversions attempt List.mem_cons_self) hkept).1

end Step

/-! Attempts on a document which does not fit change nothing. -/

section Refused
variable (hdone : PagesDone lib deployment scope jobId σ) (hload : Loads scope jobId σ document)
  (hwritten : document.Written lib deployment scope jobId σ.objects)
  (hlarge : ¬∃ pages provenance, document.Fits lib deployment σ.objects pages provenance)
  (hnames : NamesFields lib)
include hdone hload hwritten hlarge hnames

theorem run_refuses (attempt : Attempt) :
    (run lib deployment scope jobId attempt σ).2 = σ ∧
      (run lib deployment scope jobId attempt σ).1 ≠ .ok () ∧
      (attempt.Available →
        (run lib deployment scope jobId attempt σ).1 = .error .invalidInput) := by
  obtain ⟨job,upload,source,hjob⟩ := hdone.job
  have hnone := committedResult_none deployment.finalizer hjob.jobFound hjob.status
    hdone.unfinished
  rw [run, finalizeStored, hload.identity]
  dsimp only
  rw [hload.schema]
  dsimp only
  rw [finalize, hnone]
  dsimp only
  rcases hprepare : prepare lib deployment.finalizer scope jobId
      (execution lib deployment attempt σ.objects document.identity document.schema) σ with e | x
  · refine ⟨rfl,fun hok => (by cases hok),fun havailable => ?_⟩
    rcases prepare_available hnames hload hwritten havailable with
      ⟨pages,provenance,hfits,_⟩ | ⟨_,e',he',hkind⟩
    · exact absurd ⟨pages,provenance,hfits⟩ hlarge
    · rw [hprepare, Except.error.injEq] at he'
      subst e'
      exact congrArg Except.error hkind
  · obtain ⟨pages,provenance,hfits,_⟩ := prepare_fits hnames hload hwritten hprepare
    exact absurd ⟨pages,provenance,hfits⟩ hlarge

theorem attempted_refuses (attempts : List Attempt) :
    attempted lib deployment scope jobId attempts σ = σ := by
  induction attempts with
  | nil => rfl
  | cons attempt attempts ih =>
    have hsame := (run_refuses hdone hload hwritten hlarge hnames attempt).1
    show attempted lib deployment scope jobId attempts
      (run lib deployment scope jobId attempt σ).2 = σ
    rw [hsame]
    exact ih

end Refused

/-- The job ended with the state and the only result of its document. -/
def Finished (lib : Libraries V) (deployment : Deployment) (scope : Scope) (jobId : JobId)
    (σ₀ σ : World) : Prop :=
  ∃ document pages provenance locator found, Loads scope jobId σ₀ document ∧
    document.Fits lib deployment σ₀.objects pages provenance ∧
    find σ.store scope jobId = some found ∧
    found.state = reviewedState document.state (document.result lib pages provenance) ∧
    (terminalEvent found.state).isSome = true ∧
    σ.store.results.filter (·.jobId == jobId) = [⟨jobId,scope,locator⟩] ∧
    ResultArtifacts.Holds lib.formatF64 lib.formatValue lib.sha256 σ.objects locator
      (document.result lib pages provenance)

theorem settled_finished (hload : Loads scope jobId σ₀ document)
    (hfits : document.Fits lib deployment σ₀.objects pages provenance)
    (hready : Ready lib deployment scope jobId bucket job
      (reviewedState document.state (document.result lib pages provenance))
      (document.result lib pages provenance) σ₀)
    (h : Settled lib deployment scope jobId bucket job
      (reviewedState document.state (document.result lib pages provenance))
      (document.result lib pages provenance) σ₀ σ) :
    Finished lib deployment scope jobId σ₀ σ := by
  obtain ⟨now,eventType,generation,hevent,hstore,hvalid,hstored⟩ := h.committed
  obtain ⟨hscope,hid⟩ := (Commands.isJob_iff _ _ _).mp (Table.mem_of_find? hready.jobFound).2
  have hold : σ₀.store.results.filter (·.jobId == jobId) = [] := by
    rw [List.filter_eq_nil_iff]
    intro r hr
    simpa using hready.unfinished r hr
  refine ⟨document,pages,provenance,
    resultLocator lib scope jobId bucket (document.result lib pages provenance) generation,
    storedJob (setStatus (reviewedState document.state (document.result lib pages provenance)) job),
    hload,hfits,?_,rfl,?_,?_,rfl,rfl,rfl,_,current_mem hstored,rfl,rfl,rfl⟩
  · rw [find, settled_job hready.jobFound h]
    rfl
  · show (terminalEvent (reviewedState document.state _)).isSome = true
    rw [hevent]
    rfl
  · rw [hstore, commitRow_results, hscope, hid, List.filter_append, hold]
    simp

/-- After the pages are done, attempts of the activity end with a terminal job and its one
result if the document fits, at the latest with the first attempt to which the object store
answers. A document which does not fit is refused by each of them, and its job stays. -/
theorem finalization_decided (hnames : NamesFields lib)
    (hdone : PagesDone lib deployment scope jobId σ₀) {earlier : List Attempt}
    (hversions : ∀ a ∈ earlier, a.Versioned) {attempt : Attempt} (hversion : attempt.Versioned)
    (havailable : attempt.Available)
    (hσ : σ = attempted lib deployment scope jobId earlier σ₀) :
    (Fits lib deployment scope jobId σ₀ →
      (run lib deployment scope jobId attempt σ).1 = .ok () ∧
        Finished lib deployment scope jobId σ₀ (run lib deployment scope jobId attempt σ).2) ∧
      (¬Fits lib deployment scope jobId σ₀ →
        (run lib deployment scope jobId attempt σ).1 = .error .invalidInput ∧
          (run lib deployment scope jobId attempt σ).2 = σ₀) := by
  obtain ⟨document,hload,hwritten,hname⟩ := pagesDone_loads hdone
  constructor
  · rintro ⟨other,pages,provenance,hother,hfits⟩
    obtain rfl := loads_unique hload hother
    obtain ⟨bucket,job,hready⟩ := pagesDone_ready hdone hload hname hfits
    have hpending : Pending lib scope jobId bucket (document.result lib pages provenance) σ₀ σ₀ :=
      ⟨rfl,rfl,Extends.refl σ₀.objects,Or.inl (hdone.absent bucket _)⟩
    have hkept := attempted_kept hload hwritten hfits hready hnames hversions (Or.inl hpending)
    rw [← hσ] at hkept
    obtain ⟨hok,hsettled⟩ :=
      (run_kept hload hwritten hfits hready hnames hversion hkept).2 havailable
    exact ⟨hok,settled_finished hload hfits hready hsettled⟩
  · intro hlarge
    have hnone : ¬∃ pages provenance, document.Fits lib deployment σ₀.objects pages provenance := by
      rintro ⟨pages,provenance,hfits⟩
      exact hlarge ⟨document,pages,provenance,hload,hfits⟩
    rw [attempted_refuses hdone hload hwritten hnone hnames earlier] at hσ
    rw [hσ]
    obtain ⟨hsame,_,hrefused⟩ := run_refuses hdone hload hwritten hnone hnames attempt
    exact ⟨hrefused havailable,hsame⟩

end Runs

/-! ### A document of one page -/

section OnePage

def pageServices : PageArtifacts.Services where
  recognize _ := .ok nativePage.toDocumentPage
  reply _ := .answered
  version _ := some "1"

theorem pagesBucket_valid : isBucketName "pages-eu" = true := by decide

theorem resultsBucket_valid : isBucketName "results-eu" = true := by decide

/-- One route to a bucket. -/
theorem route_valid {bucket : String} (h : isBucketName bucket = true) :
    ([((default : ProductId),bucket)].all fun route => isBucketName route.2) = true := by
  simp [h]

theorem route_distinct (bucket : String) : ([((default : ProductId),bucket)].map (·.1)).Nodup ∧
    ([((default : ProductId),bucket)].map (·.2)).Nodup :=
  ⟨List.nodup_singleton _,List.nodup_singleton _⟩

theorem bucket_valid {bucket : String} (h : isBucketName bucket = true) :
    (!List.isEmpty [bucket] && [bucket].all isBucketName) = true := by
  simp [h]

theorem onePage_buckets : ∀ route ∈ [((default : ProductId),"pages-eu")],
    route.2 ∈ ["pages-eu"] := by
  simp

theorem onePage_products (productId : ProductId) :
    (([((default : ProductId),"pages-eu")].find? (·.1 == productId)).map (·.2)).isSome =
      (([((default : ProductId),"results-eu")].find? (·.1 == productId)).map (·.2)).isSome := by
  by_cases h : ((default : ProductId) == productId) = true <;> simp [h]

def onePageDeployment : Deployment where
  pages := ⟨[(default,"pages-eu")],route_valid pagesBucket_valid,route_distinct _⟩
  reader := ⟨["pages-eu"],bucket_valid pagesBucket_valid,List.nodup_singleton _⟩
  finalizer :=
    ⟨⟨[(default,"results-eu")],route_valid resultsBucket_valid,route_distinct _⟩,false⟩
  buckets := onePage_buckets
  products := onePage_products

def firstTask : PageCheckpoint.PageTask := ⟨1,1,PageCheckpoint.activityKey default 1 1⟩

def firstWrite : PageRunner.PageOutcome × StoredObjects :=
  PageArtifacts.process plainLibraries.formatF64 plainLibraries.sha256 onePageDeployment.pages
    pageServices default default [] firstTask

/-- The worker records what the processor wrote. -/
def processedRun : List PageWorkers.Action :=
  (Commands.acceptedJob.map fun c => .other (.command 3 c))++
    [.start 0 1 1 1,.load 0,.claim 0 1,.record 0 [(firstTask,firstWrite.1)]]

def onePageJob : World :=
  ⟨(Transition.run (PageWorkers.step default default) PageAgreement.initial processedRun).store,[],
    firstWrite.2⟩

def answeredAttempt : Attempt where
  reads _ := .answered
  arrive := id
  arrive_perm := List.Perm.refl
  reply := .answered
  version := some "7"
  now := 9
  cleans := true

/-- The first attempt writes the result and loses the answer. -/
def lostAttempt : Attempt := { answeredAttempt with reply := .lost }

theorem onePage_agree : PageAgreement.PagesAgree default default onePageJob.store := by
  have hcoherent := PageAgreement.run_coherent PageAgreement.initial
    (@PageAgreement.initial_coherent default default) processedRun
  unfold onePageJob
  dsimp only
  exact hcoherent.agree

/-- What the names of the results of a scope begin with. -/
def resultPrefix (scope : Scope) : String :=
  "products/"++scope.productId.asStr++"/tenants/"++scope.tenantId.asStr++"/results/"

theorem firstWrite_recorded :
    ∀ row ∈ onePageJob.store.pageArtifacts, firstWrite.1 = .ok row.artifact := by
  decide +kernel

theorem firstTask_claimed : PageRunner.ClaimedTask default firstTask where
  page := by decide
  attempt := by decide
  key := rfl

theorem firstWrite_written {artifact : StoredPageArtifact} (h : firstWrite.1 = .ok artifact) :
    WrittenBy plainLibraries.formatF64 plainLibraries.sha256 onePageDeployment.pages default
      default firstWrite.2 artifact := by
  refine ⟨pageServices,[],firstTask,firstWrite.2,firstTask_claimed,?_,Extends.refl _⟩
  rw [← h, Prod.mk.eta, firstWrite]

theorem resultPrefix_objectName (scope : Scope) (jobId : JobId) (version : DocumentVersion) :
    (resultPrefix scope).toList <+: (ResultArtifacts.objectName scope jobId version).toList := by
  rw [ResultArtifacts.objectName, resultPrefix]
  simp only [String.toList_append, List.append_assoc, List.prefix_append_right_inj]
  exact List.prefix_append _ _

theorem onePage_done : PagesDone plainLibraries onePageDeployment default default onePageJob where
  served := by decide
  job := by
    have hfound : ((onePageJob.store.jobs.find? (isJob default default)).bind fun job =>
        (onePageJob.store.uploads.find? fun u =>
          Uploads.isUpload default job.uploadId u && u.status == .accepted).bind fun upload =>
        upload.source.map fun source => (isCanonicalSha256 source.sourceDigest,
          (job.status == .processing),job.extraction.isNone)) = some (true,true,true) := by
      decide +kernel
    obtain ⟨job,hjob,hfound⟩ := Option.bind_eq_some_iff.mp hfound
    obtain ⟨upload,hupload,hfound⟩ := Option.bind_eq_some_iff.mp hfound
    obtain ⟨source,hsource,hfound⟩ := Option.map_eq_some_iff.mp hfound
    simp only [Prod.mk.injEq, beq_iff_eq, Option.isNone_iff_eq_none] at hfound
    refine ⟨job,upload,source,hjob,hupload,hsource,hfound.1,Or.inl hfound.2.1,?_⟩
    rw [hfound.2.2]
    exact fun _ hreference => absurd hreference (by simp)
  workflow := by
    have hfound : (loadPageWorkflow onePageJob.store default default).any
        (fun stored => stored.workflow.status == .completed) = true := by
      decide +kernel
    obtain ⟨stored,hload,hstatus⟩ := (Option.any_eq_true _ _).mp hfound
    exact ⟨stored,hload,Or.inl (beq_iff_eq.mp hstatus)⟩
  agree := onePage_agree
  written row hrow _ := by
    have hwritten := firstWrite_written (firstWrite_recorded row hrow)
    unfold onePageJob
    dsimp only
    exact hwritten
  unfinished := by decide +kernel
  named := by decide +kernel
  absent bucket version := by
    have hpages : ∀ o ∈ onePageJob.objects, 
        ¬(resultPrefix default).toList <+: o.path.2.toList := by
      decide +kernel
    refine List.find?_eq_none.mpr fun o ho hpath => hpages o ho ?_
    rw [of_decide_eq_true hpath]
    exact resultPrefix_objectName default default version
  durations := by decide

/-- The first attempt stores the result, the second one finds it and commits it. -/
theorem onePage_finalized :
    (run plainLibraries onePageDeployment default default answeredAttempt
        (attempted plainLibraries onePageDeployment default default [lostAttempt] onePageJob)).1 =
      .ok () ∧ Fits plainLibraries onePageDeployment default default onePageJob := by
  have hversion : answeredAttempt.Versioned ∧ lostAttempt.Versioned :=
    ⟨⟨"7",rfl,by decide⟩,⟨"7",rfl,by decide⟩⟩
  have hnames : NamesFields plainLibraries := by
    intro schema pages entry hentry
    cases hentry
  obtain ⟨_,hlarge⟩ := finalization_decided hnames onePage_done
    (show ∀ a ∈ [lostAttempt], a.Versioned by simpa using hversion.2) hversion.1
    ⟨fun _ => rfl,rfl⟩ rfl
  have hok : (run plainLibraries onePageDeployment default default answeredAttempt
        (attempted plainLibraries onePageDeployment default default [lostAttempt] onePageJob)).1 =
      .ok () := by
    decide +kernel
  refine ⟨hok,?_⟩
  by_contra hnot
  rw [(hlarge hnot).1] at hok
  cases hok

end OnePage

end DocumentIntelligence.DurableFinalization
