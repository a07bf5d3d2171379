import DocumentIntelligence.GeometryContract
import DocumentIntelligence.JobStatusCache
import DocumentIntelligence.NativePages

/-!
# The operations of the store

Each operation sets its scope and is one transaction over all tables. The work-scope
directory is written for the scope of the operation only; the directory's own claims have
no scope and are no operations.
-/

set_option autoImplicit false

namespace DocumentIntelligence.TenantOperations
open Identifiers hiding Error
open Schema Uploads Jobs Outbox PageWorkflowStore NativePages
open GeometryContract (StoredAcceptedSource acceptedColumns storedAcceptedSource i32Max)
open DocumentResults (BuiltPage)
open PageCheckpoint (PageWorkflow)
open JobLifecycle (ResultLookup)

structure Database where
  store : Store
  nativeDocuments : List NativeDocumentRow
  nativePages : List NativePageRow
  nextDocumentId : ℕ

structure StoredDocumentIdentity where
  documentId : DocumentId
  documentVersion : DocumentVersion
  extraction : Option SchemaReference
  deriving DecidableEq, Repr

/-! ### Queries -/

section Queries
variable (s : Store) (scope : Scope) (jobId : JobId)

/-- The job with its accepted upload. -/
def acceptedJob : Option (JobRow×UploadRow) := do
  let job ← s.jobs.find? (isJob scope jobId)
  let upload ← s.uploads.find? fun u => isUpload scope job.uploadId u && u.status == .accepted
  return (job,upload)

def loadDocumentIdentity : Except Schema.Error (Option StoredDocumentIdentity) :=
  match acceptedJob s scope jobId with
  | none => .ok none
  | some (job,upload) => match stripPrefix jobId.asStr "job_" with
    | none => .error .invalidStoredJob
    | some suffix =>
      let documentId := "doc_"++String.ofList suffix
      if hdocument : validatedId documentId "doc_" = true then match upload.source with
        | none => .error .database
        | some source =>
          if hversion : isCanonicalSha256 source.sourceDigest = true then
            .ok (some ⟨⟨documentId,hdocument⟩,⟨source.sourceDigest,hversion⟩,job.extraction⟩)
          else .error .invalidStoredUpload
      else .error .invalidStoredJob

def loadAcceptedSource : Except Schema.Error (Option StoredAcceptedSource) :=
  match acceptedJob s scope jobId with
  | none => .ok none
  | some (_,upload) =>
    match upload.source.bind fun source => acceptedColumns source upload.expectedContentType with
    | none => .error .database
    | some columns => (storedAcceptedSource columns).map some

end Queries

/-! ### Native pages -/

section NativePages
variable (codec : PageCodec)

def loadNativePage (d : Database) (scope : Scope) (jobId : JobId) (profile : String) (page : ℕ) :
    Except Schema.Error (Option BuiltPage) :=
  if i32Max < page then .error .invalidStoredPageArtifact
  else match (nativeRows d.store d.nativeDocuments d.nativePages scope jobId profile none).find?
      fun row => row.2.pageNumber == page with
  | none => .ok none
  | some row =>
    if maximumNativeBytes*2 < codec.octetLength row.2.pageData then
      .error .invalidStoredPageArtifact
    else match ResultJson.readPage row.2.pageData with
    | none => .error .invalidStoredPageArtifact
    | some value =>
      if value.page ≠ page then .error .invalidStoredPageArtifact else .ok (some value)

/-- The insert of the document and its pages, which does nothing on a conflict. -/
def insertNativePages (d : Database) (now : ℤ) (request : SaveNativePages) :
    Except Schema.Error Database :=
  if !selects d.store request then .ok d
  else if !documentShape request then .error .database
  else if d.nativeDocuments.any (·.key == request.key) then .ok d
  else match request.pages.mapM (pageRow codec d.nextDocumentId request.scope) with
  | none => .error .database
  | some rows => .ok { d with
      nativeDocuments := d.nativeDocuments++[newDocument d.store d.nextDocumentId now request]
      nativePages := d.nativePages++rows
      nextDocumentId := d.nextDocumentId+1 }

def loadNativePages (d : Database) (scope : Scope) (jobId : JobId) (profile : String)
    (digest : Option String) : Except Schema.Error (Option (List BuiltPage)) :=
  loadPages codec d.store d.nativeDocuments d.nativePages scope jobId profile digest

def saveNativePages (d : Database) (now : ℤ) (request : SaveNativePages) :
    Except Schema.Error (List BuiltPage×Database) :=
  if !admissible codec request.pages then .error .invalidStoredPageArtifact
  else do
    let inserted ← insertNativePages codec d now request
    match ← loadNativePages codec inserted request.scope request.jobId request.profile
        (some request.sourceDigest) with
    | none => .error .invalidStoredPageArtifact
    | some pages => .ok (pages,inserted)

/-- The pages of a document are deleted with it. -/
def clearNativePages (d : Database) (scope : Scope) (jobId : JobId) : Database :=
  { d with
    nativeDocuments := NativePages.clearNativePages d.nativeDocuments scope jobId
    nativePages := d.nativePages.filter fun page => !d.nativeDocuments.any fun n =>
      isNativeDocument scope jobId n && n.nativeDocumentId == page.nativeDocumentId &&
        n.scope == page.scope }

end NativePages

/-! ### Operations -/

/-- The operations of a scope with their outcomes. A request carries the scope itself,
which `run` sets. -/
inductive Operation : Type → Type 1 where
  | createUpload (now : ℤ) (request : CreateUpload) : Operation CreateUploadOutcome
  | findUpload (uploadId : UploadId) : Operation (Option StoredUpload)
  | listReconcilableUploads (now : ℤ) (limit : ℕ) : Operation (List UploadId)
  | loadClaimedUpload (now : ℤ) (uploadId : UploadId) (leaseOwner : String) :
      Operation (Option StoredUpload)
  | recordUploaded (now nowUtc : ℤ) (uploadId : UploadId) (record : RecordUpload) :
      Operation RecordUploadOutcome
  | acceptUpload (now : ℤ) (uploadId : UploadId) (accept : AcceptUpload) :
      Operation AcceptUploadOutcome
  | claimUploadInspection (now : ℤ) (uploadId : UploadId) (leaseOwner : String) :
      Operation ClaimUploadInspectionOutcome
  | rejectUpload (now : ℤ) (uploadId : UploadId) (leaseOwner : String)
      (reason : UploadRejectionReason) : Operation RejectUploadOutcome
  | create (now : ℤ) (request : CreateJob) : Operation CreateOutcome
  | find (jobId : JobId) : Operation (Option StoredJob)
  | loadDocumentIdentity (jobId : JobId) : Operation (Option StoredDocumentIdentity)
  | loadAcceptedSource (jobId : JobId) : Operation (Option StoredAcceptedSource)
  | cancel (now : ℤ) (jobId : JobId) : Operation CancelOutcome
  | completeCancellation (jobId : JobId) : Operation CompleteCancellationOutcome
  | findResult (jobId : JobId) : Operation ResultLookup
  | commitResult (now : ℤ) (jobId : JobId) (command : CommitResult) :
      Operation CommitResultOutcome
  | createPageWorkflow (jobId : JobId) (workflow : PageWorkflow) :
      Operation CreatePageWorkflowOutcome
  | loadPageWorkflow (jobId : JobId) : Operation (Option StoredPageWorkflow)
  | loadPageArtifacts (jobId : JobId) : Operation (List StoredPageArtifact)
  | savePageWorkflow (jobId : JobId) (expectedRevision : ℕ) (workflow : PageWorkflow) :
      Operation SavePageWorkflowOutcome
  | savePageWorkflowWithArtifacts (jobId : JobId) (expectedRevision : ℕ)
      (workflow : PageWorkflow) (artifacts : List StoredPageArtifact) :
      Operation SavePageWorkflowOutcome
  | claimJobOutbox (now : ℤ) (claim : ClaimJobOutbox) : Operation (List StoredJobOutboxEvent)
  | claimWebhookOutbox (now : ℤ) (claim : ClaimJobOutbox) :
      Operation (List StoredWebhookOutboxEvent)
  | publishJobOutbox (now : ℤ) (eventId : ℕ) (leaseOwner : String) :
      Operation PublishJobOutboxOutcome
  | loadNativePage (jobId : JobId) (profile : String) (page : ℕ) : Operation (Option BuiltPage)
  | loadNativePages (jobId : JobId) (profile : String) : Operation (Option (List BuiltPage))
  | saveNativePages (now : ℤ) (request : SaveNativePages) : Operation (List BuiltPage)
  | loadNativeDurationMs (jobId : JobId) (profile : String) : Operation (Option ℕ)
  | clearNativePages (jobId : JobId) : Operation Unit

section Run
variable (codec : PageCodec) (scope : Scope) (d : Database)

def onStore {α : Type} (t : Transaction α) : Except Schema.Error (α×Database) :=
  t.map fun result => (result.1,{ d with store := result.2 })

def query {α : Type} (result : Except Schema.Error α) : Except Schema.Error (α×Database) :=
  result.map (·,d)

def Operation.run : {α : Type} → Operation α → Except Schema.Error (α×Database)
  | _, .createUpload now request =>
    onStore d (Uploads.createUpload d.store now { request with scope })
  | _, .findUpload uploadId => query d (Uploads.findUpload d.store scope uploadId)
  | _, .listReconcilableUploads now limit =>
    query d (Uploads.listReconcilableUploads d.store now scope limit)
  | _, .loadClaimedUpload now uploadId leaseOwner =>
    query d (Uploads.loadClaimedUpload d.store now scope uploadId leaseOwner)
  | _, .recordUploaded now nowUtc uploadId record =>
    onStore d (Uploads.recordUploaded d.store now nowUtc scope uploadId record)
  | _, .acceptUpload now uploadId accept =>
    onStore d (Uploads.acceptUpload d.store now scope uploadId accept)
  | _, .claimUploadInspection now uploadId leaseOwner =>
    onStore d (Uploads.claimUploadInspection d.store now scope uploadId leaseOwner)
  | _, .rejectUpload now uploadId leaseOwner reason =>
    onStore d (Uploads.rejectUpload d.store now scope uploadId leaseOwner reason)
  | _, .create now request => onStore d (Jobs.create d.store now { request with scope })
  | _, .find jobId => query d (.ok (JobStatusCache.find d.store scope jobId))
  | _, .loadDocumentIdentity jobId =>
    query d (TenantOperations.loadDocumentIdentity d.store scope jobId)
  | _, .loadAcceptedSource jobId =>
    query d (TenantOperations.loadAcceptedSource d.store scope jobId)
  | _, .cancel now jobId => onStore d (Jobs.cancel d.store now scope jobId)
  | _, .completeCancellation jobId =>
    onStore d (Jobs.completeCancellation d.store scope jobId)
  | _, .findResult jobId => query d (JobLifecycle.findResult d.store scope jobId)
  | _, .commitResult now jobId command =>
    onStore d (Jobs.commitResult d.store now scope jobId command)
  | _, .createPageWorkflow jobId workflow =>
    onStore d (PageWorkflowStore.createPageWorkflow d.store scope jobId workflow)
  | _, .loadPageWorkflow jobId =>
    query d (.ok (PageWorkflowStore.loadPageWorkflow d.store scope jobId))
  | _, .loadPageArtifacts jobId =>
    query d (PageWorkflowStore.loadPageArtifacts d.store scope jobId)
  | _, .savePageWorkflow jobId expectedRevision workflow =>
    onStore d (PageWorkflowStore.savePageWorkflow d.store scope jobId expectedRevision workflow)
  | _, .savePageWorkflowWithArtifacts jobId expectedRevision workflow artifacts =>
    onStore d (PageWorkflowStore.savePageWorkflowWithArtifacts d.store scope jobId
      expectedRevision workflow artifacts)
  | _, .claimJobOutbox now claim => onStore d (Outbox.claimJobOutbox d.store now scope claim)
  | _, .claimWebhookOutbox now claim =>
    onStore d (Outbox.claimWebhookOutbox d.store now scope claim)
  | _, .publishJobOutbox now eventId leaseOwner =>
    onStore d (Outbox.publishJobOutbox d.store now scope eventId leaseOwner)
  | _, .loadNativePage jobId profile page =>
    query d (TenantOperations.loadNativePage codec d scope jobId profile page)
  | _, .loadNativePages jobId profile =>
    query d (TenantOperations.loadNativePages codec d scope jobId profile none)
  | _, .saveNativePages now request =>
    TenantOperations.saveNativePages codec d now { request with scope }
  | _, .loadNativeDurationMs jobId profile =>
    query d (.ok (NativePages.loadNativeDurationMs d.store d.nativeDocuments scope jobId profile))
  | _, .clearNativePages jobId => .ok ((),TenantOperations.clearNativePages d scope jobId)

end Run

end DocumentIntelligence.TenantOperations
