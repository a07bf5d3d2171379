import DocumentIntelligence.Jobs

/-!
# Stored page workflows

The checkpoint of a job is created once and then saved under its revision, so
that of two writers which loaded the same revision one is refused. Artifacts of
succeeded pages are inserted in the transaction which saves their success. A
serialized checkpoint is far below its size limit: it has at most 1000 pages of
less than a hundred bytes.
-/

set_option autoImplicit false

namespace DocumentIntelligence.PageWorkflowStore
open Identifiers hiding Error
open Schema Jobs
open PageCheckpoint (PageWorkflow PageTask PageWorkflowStatus activityKey)

structure StoredPageWorkflow where
  workflow : PageWorkflow
  revision : ℕ
  deriving DecidableEq, Repr

inductive CreatePageWorkflowOutcome where
  | created (stored : StoredPageWorkflow)
  | existing (stored : StoredPageWorkflow)
  | conflict
  | notFound
  deriving DecidableEq, Repr

inductive SavePageWorkflowOutcome where
  | saved (stored : StoredPageWorkflow)
  | conflict
  | notFound
  deriving DecidableEq, Repr

def isPageWorkflow (scope : Scope) (jobId : JobId) (row : PageWorkflowRow) : Bool :=
  row.scope == scope && row.jobId == jobId

def storedPageWorkflow (row : PageWorkflowRow) : StoredPageWorkflow := ⟨row.checkpoint,row.revision⟩

def loadPageWorkflow (s : Store) (scope : Scope) (jobId : JobId) : Option StoredPageWorkflow :=
  (s.pageWorkflows.find? (isPageWorkflow scope jobId)).map storedPageWorkflow

def startable (status : JobState) : Bool := status == .accepted || status == .processing

/-- The statuses under which a checkpoint may be inserted; a cancelled
checkpoint may also be inserted for a cancelled job. -/
def insertable (workflow : PageWorkflow) (status : JobState) : Bool :=
  startable status || decide (workflow.status = .cancelled) &&
    (status == .cancelling || status == .cancelled)

/-- The insert selects the job and does nothing on a stored workflow. -/
def inserts (s : Store) (scope : Scope) (jobId : JobId) (workflow : PageWorkflow) : Bool :=
  ((s.jobs.find? (isJob scope jobId)).any fun job => insertable workflow job.status) &&
    !s.pageWorkflows.any (·.jobId == jobId)

def insertWorkflow (s : Store) (scope : Scope) (jobId : JobId) (workflow : PageWorkflow) : Store :=
  { s with pageWorkflows := s.pageWorkflows++[⟨jobId,scope,0,workflow⟩] }

def createPageWorkflow (s : Store) (scope : Scope) (jobId : JobId) (workflow : PageWorkflow) :
    Transaction CreatePageWorkflowOutcome :=
  if workflow.jobId ≠ jobId then .error .invalidStoredPageWorkflow
  else if inserts s scope jobId workflow then
    let s := insertWorkflow s scope jobId workflow
    if workflow.status = .cancelled then .ok (.created ⟨workflow,0⟩, s)
    else .ok (.created ⟨workflow,0⟩, { s with
      jobs := Table.update (fun job => isJob scope jobId job && startable job.status)
        (setStatus .processing) s.jobs })
  else match loadPageWorkflow s scope jobId with
    | some stored =>
      if stored.workflow = workflow then .ok (.existing stored, s) else .ok (.conflict, s)
    | none => .ok (.notFound, s)

def validatePageArtifact (artifact : StoredPageArtifact) : Bool :=
  decide (1 ≤ artifact.page ∧ artifact.page ≤ PageCheckpoint.maximumPageCount) &&
    decide (1 ≤ artifact.attempt ∧ artifact.attempt ≤ 10) && artifact.activityKey != "" &&
    decide (artifact.activityKey.utf8ByteSize ≤ 160) &&
    decide (3 ≤ artifact.objectBucket.utf8ByteSize ∧ artifact.objectBucket.utf8ByteSize ≤ 222) &&
    artifact.objectName != "" && decide (artifact.objectName.utf8ByteSize ≤ 1024) &&
    validObjectVersion artifact.objectVersion &&
    decide (1 ≤ artifact.contentLength ∧ artifact.contentLength ≤ maximumResultBytes) &&
    validDigest artifact.objectDigest

def StoredPageArtifact.task (artifact : StoredPageArtifact) : PageTask :=
  ⟨artifact.page,artifact.attempt,artifact.activityKey⟩

def validatePageArtifactBatch (jobId : JobId) (workflow : PageWorkflow)
    (artifacts : List StoredPageArtifact) : Bool :=
  decide (artifacts.length ≤ 64) &&
    (artifacts.all fun a => validatePageArtifact a &&
      a.activityKey == activityKey jobId a.page a.attempt &&
      workflow.isSuccessfulTask (StoredPageArtifact.task a)) &&
    decide (artifacts.map (·.page)).Nodup

/-- The batch insert violates no key, and no column check which the validation
leaves open: the bucket's length is checked in characters. -/
def artifactChecks (s : Store) (jobId : JobId) (artifacts : List StoredPageArtifact) : Bool :=
  artifacts.all fun a => decide (3 ≤ a.objectBucket.length) && !s.pageArtifacts.any fun row =>
    row.jobId == jobId && (row.artifact.page == a.page || row.artifact.activityKey == a.activityKey)

def saveRow (s : Store) (scope : Scope) (jobId : JobId) (workflow : PageWorkflow)
    (artifacts : List StoredPageArtifact) : Store :=
  { s with
    pageArtifacts := s.pageArtifacts++artifacts.map fun a => ⟨jobId,scope,a⟩
    pageWorkflows := Table.update (isPageWorkflow scope jobId)
      (fun row => { row with checkpoint := workflow, revision := row.revision+1 })
      s.pageWorkflows }

/-- The expected revision is one which an earlier load returned, so it is never
negative here. -/
def savePageWorkflowWithArtifacts (s : Store) (scope : Scope) (jobId : JobId)
    (expectedRevision : ℕ) (workflow : PageWorkflow) (artifacts : List StoredPageArtifact) :
    Transaction SavePageWorkflowOutcome :=
  if workflow.jobId ≠ jobId then .error .invalidStoredPageWorkflow
  else if !validatePageArtifactBatch jobId workflow artifacts then .error .invalidStoredPageArtifact
  else match s.pageWorkflows.find? (isPageWorkflow scope jobId) with
  | none => .ok (.notFound, s)
  | some row =>
    if row.revision ≠ expectedRevision then .ok (.conflict, s)
    else if !artifactChecks s jobId artifacts then .error .database
    else .ok (.saved ⟨workflow,row.revision+1⟩, saveRow s scope jobId workflow artifacts)

def savePageWorkflow (s : Store) (scope : Scope) (jobId : JobId) (expectedRevision : ℕ)
    (workflow : PageWorkflow) : Transaction SavePageWorkflowOutcome :=
  savePageWorkflowWithArtifacts s scope jobId expectedRevision workflow []

/-- The artifacts of a job in page order, each one validated again. -/
def loadPageArtifacts (s : Store) (scope : Scope) (jobId : JobId) :
    Except Error (List StoredPageArtifact) :=
  let artifacts := ((s.pageArtifacts.filter fun row =>
    row.scope == scope && row.jobId == jobId).map (·.artifact)).mergeSort fun a b =>
      decide (a.page ≤ b.page)
  if artifacts.all validatePageArtifact then .ok artifacts else .error .invalidStoredPageArtifact

end DocumentIntelligence.PageWorkflowStore
