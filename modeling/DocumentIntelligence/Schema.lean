import DocumentIntelligence.PageCheckpoint
import DocumentIntelligence.WorkScopes

/-!
# The rows of the store

One record for each table, with the columns which the modelled transactions
read or write. Rows stand in insertion order and the identity columns only
grow, so `order by event_id` is list order. The audit columns `updated_at` and
the event payloads are written but never read, and are left out.
-/

set_option autoImplicit false

namespace DocumentIntelligence.Schema
open Identifiers WorkScopes
open PageCheckpoint (PageWorkflow)

inductive Error where
  | database
  | idempotencyConflict
  | invalidStoredJob
  | invalidStoredResult
  | invalidStoredUpload
  | uploadSourceUnavailable
  | invalidOutboxEvent
  | invalidStoredPageWorkflow
  | invalidStoredPageArtifact
  | invalidWorkScope
  deriving DecidableEq, Repr

inductive UploadState where
  | reserved
  | uploaded
  | inspecting
  | accepted
  | rejected
  | expired
  deriving DecidableEq, Repr

inductive UploadRejectionReason where
  | inspectionAttemptsExhausted
  | malwareDetected
  | invalidDocument
  | parserLimitsExceeded
  | passwordRequired
  | sourceConflict
  deriving DecidableEq, Repr

inductive JobState where
  | accepted
  | inspecting
  | processing
  | validating
  | cancelling
  | cancelled
  | rejected
  | partialResult
  | reviewRequired
  | completed
  deriving DecidableEq, Repr

/-- `PageGeometry`: `new` admits positive sizes of at most 10⁸ pixels. -/
structure PageGeometry where
  page : ℕ
  width : ℕ
  height : ℕ
  page_pos : 1 ≤ page
  sizes_valid : 1 ≤ width ∧ 1 ≤ height ∧ width*height ≤ 100000000
  deriving DecidableEq, Repr

def PageGeometry.pixels (g : PageGeometry) : ℕ := g.width*g.height

structure ParserInspectionMetadata where
  pageCount : ℤ
  maximumPagePixels : ℤ
  totalPagePixels : ℤ
  pageGeometries : List PageGeometry
  profile : String
  version : String
  deriving DecidableEq, Repr

/-- The promoted source object of an accepted upload. -/
structure AcceptedSource where
  sourceBucket : String
  sourceObjectName : String
  sourceObjectVersion : String
  sourceDigest : String
  sourceContentLength : ℤ
  parserInspection : ParserInspectionMetadata
  deriving DecidableEq, Repr

/-- What `record_uploaded` verified about the uploaded object. -/
structure VerifiedObject where
  objectVersion : String
  verifiedContentType : String
  verifiedContentLength : ℤ
  verifiedDigest : String
  uploadedAt : ℤ
  deriving DecidableEq, Repr

/-- The verification columns are null together, and so are the source columns:
each group is one optional record. -/
structure UploadRow where
  uploadId : UploadId
  scope : Scope
  idempotencyKey : IdempotencyKey
  requestDigest : RequestDigest
  objectBucket : String
  objectName : String
  expectedContentType : String
  expectedContentLength : ℤ
  expectedDigest : String
  status : UploadState
  expiresAt : ℤ
  createdAt : ℤ
  verified : Option VerifiedObject
  source : Option AcceptedSource
  acceptedAt : Option ℤ
  inspectionAttempts : ℕ
  inspectionLeaseOwner : Option String
  inspectionLeaseExpiresAt : Option ℤ
  rejectionReason : Option UploadRejectionReason
  deriving DecidableEq, Repr

inductive UploadEventType where
  | received
  | accepted
  | rejected
  deriving DecidableEq, Repr

structure UploadOutboxRow where
  eventId : ℕ
  scope : Scope
  uploadId : UploadId
  eventType : UploadEventType
  deriving DecidableEq, Repr

structure SchemaReference where
  schemaId : String
  schemaVersion : String
  deriving DecidableEq, Repr

structure JobRow where
  jobId : JobId
  scope : Scope
  idempotencyKey : IdempotencyKey
  requestDigest : RequestDigest
  status : JobState
  createdAt : ℤ
  uploadId : UploadId
  webhookSubscriptionId : Option WebhookSubscriptionId
  extraction : Option SchemaReference
  deriving DecidableEq, Repr

inductive EventType where
  | accepted
  | cancellationRequested
  | completed
  | partialResult
  | reviewRequired
  deriving DecidableEq, Repr

structure OutboxRow where
  eventId : ℕ
  scope : Scope
  jobId : JobId
  eventType : EventType
  createdAt : ℤ
  publishedAt : Option ℤ
  deliveryAttempts : ℕ
  deliveryLeaseOwner : Option String
  deliveryLeaseExpiresAt : Option ℤ
  deadLetteredAt : Option ℤ
  deriving DecidableEq, Repr

structure StoredResultLocator where
  documentId : DocumentId
  documentVersion : DocumentVersion
  objectBucket : String
  objectName : String
  objectVersion : String
  objectDigest : String
  contentLength : ℤ
  deriving DecidableEq, Repr

structure ResultRow where
  jobId : JobId
  scope : Scope
  locator : StoredResultLocator
  deriving DecidableEq, Repr

/-- The checkpoint column holds the serialized workflow; the row carries the
value which its validating deserialization returns. -/
structure PageWorkflowRow where
  jobId : JobId
  scope : Scope
  revision : ℕ
  checkpoint : PageWorkflow
  deriving DecidableEq, Repr

structure StoredPageArtifact where
  page : ℕ
  attempt : ℕ
  activityKey : String
  objectBucket : String
  objectName : String
  objectVersion : String
  objectDigest : String
  contentLength : ℤ
  deriving DecidableEq, Repr

structure PageArtifactRow where
  jobId : JobId
  scope : Scope
  artifact : StoredPageArtifact
  deriving DecidableEq, Repr

structure Store where
  uploads : List UploadRow
  uploadOutbox : List UploadOutboxRow
  jobs : List JobRow
  outbox : List OutboxRow
  results : List ResultRow
  pageWorkflows : List PageWorkflowRow
  pageArtifacts : List PageArtifactRow
  workScopes : List WorkScopeRow
  nextUploadEventId : ℕ
  nextEventId : ℕ
  deriving DecidableEq, Repr

def empty : Store := ⟨[],[],[],[],[],[],[],[],1,1⟩

/-- A transaction either fails and is rolled back, or commits with an outcome. -/
abbrev Transaction (α : Type) := Except Error (α × Store)

/-- The committed state after a transaction which began in `s`. -/
def commit {α : Type} (s : Store) (t : Transaction α) : Store :=
  match t with
  | .ok (_, s') => s'
  | .error _ => s

@[simp] theorem commit_ok {α : Type} (s s' : Store) (a : α) :
    commit s (.ok (a, s') : Transaction α) = s' := rfl

@[simp] theorem commit_error {α : Type} (s : Store) (e : Error) :
    commit s (.error e : Transaction α) = s := rfl

def validDigest (value : String) : Bool := isCanonicalSha256 value

/-- Validates a provider version token without interpreting it. -/
def validObjectVersion (value : String) : Bool :=
  value != "" && decide (value.utf8ByteSize ≤ 1024) && value != "null" &&
    value.toList.all isAsciiGraphic

def isValidLeaseOwner (owner : String) : Bool :=
  decide (1 ≤ owner.utf8ByteSize ∧ owner.utf8ByteSize ≤ 128) &&
    owner.toList.all fun c => c.isAlphanum || c == '-' || c == '_' || c == '.' || c == ':'

def validContentType (value : String) : Bool :=
  ["application/pdf", "image/jpeg", "image/png", "image/tiff", "image/webp"].contains value

end DocumentIntelligence.Schema
