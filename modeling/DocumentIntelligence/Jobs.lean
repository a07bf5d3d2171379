import DocumentIntelligence.Uploads

/-!
# Job transactions

Creation, cancellation and the commit of a result. Each of them writes its
outbox event in the transaction that changes the job. Only the events which the
dispatcher delivers register the scope with it.
-/

set_option autoImplicit false

namespace DocumentIntelligence.Jobs
open Identifiers hiding Error
open WorkScopes Schema Uploads

structure CreateJob where
  jobId : JobId
  scope : Scope
  idempotencyKey : IdempotencyKey
  requestDigest : RequestDigest
  uploadId : UploadId
  webhookSubscriptionId : Option WebhookSubscriptionId
  extraction : Option SchemaReference
  deriving DecidableEq, Repr

structure StoredJob where
  jobId : JobId
  state : JobState
  createdAt : ℤ
  deriving DecidableEq, Repr

inductive CreateOutcome where
  | created (job : StoredJob)
  | existing (job : StoredJob)
  deriving DecidableEq, Repr

inductive CancelOutcome where
  | requested (job : StoredJob)
  | existing (job : StoredJob)
  | notCancellable (job : StoredJob)
  | notFound
  deriving DecidableEq, Repr

inductive CompleteCancellationOutcome where
  | cancelled (job : StoredJob)
  | existing (job : StoredJob)
  | notCancellable (job : StoredJob)
  | notFound
  deriving DecidableEq, Repr

structure CommitResult where
  locator : StoredResultLocator
  terminalState : JobState
  deriving DecidableEq, Repr

inductive CommitResultOutcome where
  | committed (job : StoredJob)
  | existing (job : StoredJob)
  | conflict
  | notCommittable
  | notFound
  deriving DecidableEq, Repr

def storedJob (job : JobRow) : StoredJob := ⟨job.jobId,job.status,job.createdAt⟩

def isJob (scope : Scope) (jobId : JobId) (job : JobRow) : Bool :=
  job.scope == scope && job.jobId == jobId

/-- A job event as it is inserted, before any delivery. -/
def newEvent (eventId : ℕ) (now : ℤ) (scope : Scope) (jobId : JobId) (eventType : EventType) :
    OutboxRow where
  eventId := eventId
  scope := scope
  jobId := jobId
  eventType := eventType
  createdAt := now
  publishedAt := none
  deliveryAttempts := 0
  deliveryLeaseOwner := none
  deliveryLeaseExpiresAt := none
  deadLetteredAt := none

def insertEvent (s : Store) (now : ℤ) (scope : Scope) (jobId : JobId) (eventType : EventType) :
    Store :=
  { s with
    outbox := s.outbox++[newEvent s.nextEventId now scope jobId eventType]
    nextEventId := s.nextEventId+1 }

/-- An event for the dispatcher goes with the registration of its scope. -/
def insertDispatchEvent (s : Store) (now : ℤ) (scope : Scope) (jobId : JobId)
    (eventType : EventType) : Store :=
  let s := insertEvent s now scope jobId eventType
  { s with workScopes := registerWorkScope now scope .dispatch s.workScopes }

/-- The column check of the extraction reference. -/
def extractionShape : Option SchemaReference → Bool
  | none => true
  | some e => decide (1 ≤ e.schemaId.length ∧ e.schemaId.length ≤ 128) &&
      decide (1 ≤ e.schemaVersion.length ∧ e.schemaVersion.length ≤ 64)

def CreateJob.row (request : CreateJob) (now : ℤ) : JobRow where
  jobId := request.jobId
  scope := request.scope
  idempotencyKey := request.idempotencyKey
  requestDigest := request.requestDigest
  status := .accepted
  createdAt := now
  uploadId := request.uploadId
  webhookSubscriptionId := request.webhookSubscriptionId
  extraction := request.extraction

def createRow (s : Store) (now : ℤ) (request : CreateJob) : Store :=
  insertDispatchEvent { s with jobs := s.jobs++[request.row now] } now request.scope
    request.jobId .accepted

def create (s : Store) (now : ℤ) (request : CreateJob) : Transaction CreateOutcome :=
  let source := s.uploads.any fun u =>
    isUpload request.scope request.uploadId u && u.status == .accepted
  if source && !extractionShape request.extraction then .error .database
  else match s.jobs.find? fun j =>
      j.scope == request.scope && j.idempotencyKey == request.idempotencyKey with
  | some job =>
    if job.requestDigest ≠ request.requestDigest ∨
        job.webhookSubscriptionId ≠ request.webhookSubscriptionId then
      .error .idempotencyConflict
    else .ok (.existing (storedJob job), s)
  | none =>
    if !source then .error .uploadSourceUnavailable
    -- The primary key is unique besides the arbiter.
    else if s.jobs.any (·.jobId == request.jobId) then .error .database
    else .ok (.created (storedJob (request.row now)), createRow s now request)

def setStatus (status : JobState) (job : JobRow) : JobRow := { job with status := status }

def cancellable (status : JobState) : Bool :=
  [JobState.accepted, .inspecting, .processing, .validating].contains status

def cancelRow (s : Store) (now : ℤ) (scope : Scope) (jobId : JobId) : Store :=
  insertDispatchEvent { s with
    jobs := Table.update (isJob scope jobId) (setStatus .cancelled) s.jobs } now scope jobId
    .cancellationRequested

def cancel (s : Store) (now : ℤ) (scope : Scope) (jobId : JobId) : Transaction CancelOutcome :=
  match s.jobs.find? (isJob scope jobId) with
  | none => .ok (.notFound, s)
  | some job =>
    if cancellable job.status then
      .ok (.requested (storedJob (setStatus .cancelled job)), cancelRow s now scope jobId)
    else if job.status = .cancelling ∨ job.status = .cancelled then
      .ok (.existing (storedJob job), s)
    else .ok (.notCancellable (storedJob job), s)

def completeCancellation (s : Store) (scope : Scope) (jobId : JobId) :
    Transaction CompleteCancellationOutcome :=
  match s.jobs.find? (isJob scope jobId) with
  | none => .ok (.notFound, s)
  | some job => match job.status with
    | .cancelled => .ok (.existing (storedJob job), s)
    | .cancelling => .ok (.cancelled (storedJob (setStatus .cancelled job)), { s with
        jobs := Table.update (isJob scope jobId) (setStatus .cancelled) s.jobs })
    | _ => .ok (.notCancellable (storedJob job), s)

def maximumResultBytes : ℤ := 67108864

def validateLocator (locator : StoredResultLocator) : Bool :=
  locator.objectBucket != "" && decide (locator.objectBucket.utf8ByteSize ≤ 222) &&
    locator.objectName != "" && decide (locator.objectName.utf8ByteSize ≤ 1024) &&
    validObjectVersion locator.objectVersion && decide (0 < locator.contentLength) &&
    validDigest locator.objectDigest

/-- The column checks of a result which the validation leaves open. -/
def resultChecks (locator : StoredResultLocator) : Bool :=
  decide (3 ≤ locator.objectBucket.length) && decide (locator.contentLength ≤ maximumResultBytes)

/-- The event which announces a terminal state, and so the terminal states. -/
def terminalEvent : JobState → Option EventType
  | .completed => some .completed
  | .partialResult => some .partialResult
  | .reviewRequired => some .reviewRequired
  | _ => none

def isResult (scope : Scope) (jobId : JobId) (result : ResultRow) : Bool :=
  result.scope == scope && result.jobId == jobId

/-- The writes of a commit: the result, the terminal state and, for a job with
a webhook subscription, the event. The dispatcher is not registered. -/
def commitRow (s : Store) (now : ℤ) (job : JobRow) (command : CommitResult)
    (eventType : EventType) : Store :=
  let s := { s with
    results := s.results++[⟨job.jobId,job.scope,command.locator⟩]
    jobs := Table.update (isJob job.scope job.jobId) (setStatus command.terminalState) s.jobs }
  if job.webhookSubscriptionId.isSome then insertEvent s now job.scope job.jobId eventType else s

def commitResult (s : Store) (now : ℤ) (scope : Scope) (jobId : JobId) (command : CommitResult) :
    Transaction CommitResultOutcome :=
  if !validateLocator command.locator then .error .invalidStoredResult
  else match terminalEvent command.terminalState with
  | none => .error .invalidStoredResult
  | some eventType => match s.jobs.find? (isJob scope jobId) with
    | none => .ok (.notFound, s)
    | some job => match s.results.find? (isResult scope jobId) with
      | some existing =>
        if !validateLocator existing.locator then .error .invalidStoredResult
        else if existing.locator = command.locator ∧ job.status = command.terminalState then
          .ok (.existing (storedJob job), s)
        else .ok (.conflict, s)
      | none =>
        if job.status ≠ .processing ∧ job.status ≠ .validating then .ok (.notCommittable, s)
        -- The columns are checked, and the job and the document version are unique.
        else if !resultChecks command.locator || s.results.any fun r => r.jobId == jobId ||
            r.scope == scope && r.locator.documentId == command.locator.documentId &&
              r.locator.documentVersion == command.locator.documentVersion then
          .error .database
        else .ok (.committed (storedJob (setStatus command.terminalState job)),
          commitRow s now job command eventType)

end DocumentIntelligence.Jobs
