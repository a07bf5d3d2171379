import DocumentIntelligence.Schema

/-!
# Upload transactions

Each definition is one transaction of the store over the upload tables and the
work-scope directory. `now` is the transaction's start. An error rolls the
transaction back; the outcomes are those the callers distinguish.
-/

set_option autoImplicit false

namespace DocumentIntelligence.Uploads
open Identifiers hiding Error
open WorkScopes Schema

structure CreateUpload where
  uploadId : UploadId
  scope : Scope
  idempotencyKey : IdempotencyKey
  requestDigest : RequestDigest
  objectBucket : String
  objectName : String
  expectedContentType : String
  expectedContentLength : ℤ
  expectedDigest : String
  expiresAt : ℤ
  deriving DecidableEq, Repr

structure StoredUpload where
  uploadId : UploadId
  state : UploadState
  objectBucket : String
  objectName : String
  expectedContentType : String
  expectedContentLength : ℤ
  expectedDigest : String
  expiresAt : ℤ
  createdAt : ℤ
  objectVersion : Option String
  uploadedAt : Option ℤ
  deriving DecidableEq, Repr

inductive CreateUploadOutcome where
  | created (upload : StoredUpload)
  | existing (upload : StoredUpload)
  deriving DecidableEq, Repr

structure RecordUpload where
  objectVersion : String
  verifiedContentType : String
  verifiedContentLength : ℤ
  verifiedDigest : String
  deriving DecidableEq, Repr

inductive RecordUploadOutcome where
  | recorded (upload : StoredUpload)
  | existing (upload : StoredUpload)
  | expired
  | verificationMismatch
  | notRecordable
  | notFound
  deriving DecidableEq, Repr

inductive ClaimUploadInspectionOutcome where
  | claimed
  | existing
  | busy
  | attemptsExhausted
  | notInspectable
  | notFound
  deriving DecidableEq, Repr

structure AcceptUpload where
  inspectionLeaseOwner : String
  source : AcceptedSource
  deriving DecidableEq, Repr

inductive AcceptUploadOutcome where
  | accepted
  | existing
  | sourceMismatch
  | notAcceptable
  | notFound
  deriving DecidableEq, Repr

inductive RejectUploadOutcome where
  | rejected
  | existing
  | reasonMismatch
  | notRejectable
  | notFound
  deriving DecidableEq, Repr

def maximumContentLength : ℤ := 104857600

def validContentLength (length : ℤ) : Bool := decide (1 ≤ length ∧ length ≤ maximumContentLength)

def validateUpload (upload : StoredUpload) : Bool :=
  let verificationShapeIsValid := match upload.state with
    | .reserved | .expired => upload.objectVersion.isNone && upload.uploadedAt.isNone
    | _ => upload.objectVersion.isSome && upload.uploadedAt.isSome
  upload.objectBucket != "" && upload.objectName != "" &&
    validContentLength upload.expectedContentLength && validDigest upload.expectedDigest &&
    validContentType upload.expectedContentType &&
    decide (upload.createdAt < upload.expiresAt) && verificationShapeIsValid

def storedUpload (row : UploadRow) : Except Error StoredUpload :=
  let upload : StoredUpload := {
    uploadId := row.uploadId
    state := row.status
    objectBucket := row.objectBucket
    objectName := row.objectName
    expectedContentType := row.expectedContentType
    expectedContentLength := row.expectedContentLength
    expectedDigest := row.expectedDigest
    expiresAt := row.expiresAt
    createdAt := row.createdAt
    objectVersion := row.verified.map (·.objectVersion)
    uploadedAt := row.verified.map (·.uploadedAt) }
  if validateUpload upload then .ok upload else .error .invalidStoredUpload

def validateRecord (record : RecordUpload) : Bool :=
  validObjectVersion record.objectVersion && validContentLength record.verifiedContentLength &&
    validDigest record.verifiedDigest && validContentType record.verifiedContentType

def isValidParserIdentifier (value : String) : Bool :=
  decide (1 ≤ value.utf8ByteSize ∧ value.utf8ByteSize ≤ 64) &&
    value.toList.all fun c => c.isAlphanum || c == '-' || c == '_' || c == '.'

/-- The pages are numbered from one and their pixels agree with the maximum and
the total. At most 1000 pages of 10⁸ pixels are compared, so the 64-bit sum of
the source is exact. -/
def validPageGeometries (pages : List PageGeometry) (pageCount maximumPagePixels
    totalPagePixels : ℤ) : Bool :=
  (pages.length : ℤ) == pageCount &&
    pages.map (·.page) == (List.range pages.length).map (·+1) &&
    ((pages.map PageGeometry.pixels).foldl max 0 : ℕ) == maximumPagePixels &&
    ((pages.map PageGeometry.pixels).sum : ℕ) == totalPagePixels

def validateAcceptedSource (accept : AcceptUpload) : Bool :=
  let s := accept.source
  let p := s.parserInspection
  decide (3 ≤ s.sourceBucket.utf8ByteSize ∧ s.sourceBucket.utf8ByteSize ≤ 222) &&
    decide (1 ≤ s.sourceObjectName.utf8ByteSize ∧ s.sourceObjectName.utf8ByteSize ≤ 1024) &&
    validObjectVersion s.sourceObjectVersion && validContentLength s.sourceContentLength &&
    validDigest s.sourceDigest && isValidLeaseOwner accept.inspectionLeaseOwner &&
    decide (1 ≤ p.pageCount ∧ p.pageCount ≤ 1000) &&
    decide (1 ≤ p.maximumPagePixels ∧ p.maximumPagePixels ≤ 100000000) &&
    decide (p.maximumPagePixels ≤ p.totalPagePixels ∧ p.totalPagePixels ≤ 100000000000) &&
    validPageGeometries p.pageGeometries p.pageCount p.maximumPagePixels p.totalPagePixels &&
    isValidParserIdentifier p.profile && isValidParserIdentifier p.version

/-- The column checks of an inserted reservation which no type enforces. -/
def insertChecks (request : CreateUpload) : Bool :=
  decide (3 ≤ request.objectBucket.length ∧ request.objectBucket.length ≤ 222) &&
    decide (1 ≤ request.objectName.length ∧ request.objectName.length ≤ 1024) &&
    validContentType request.expectedContentType &&
    validContentLength request.expectedContentLength && validDigest request.expectedDigest

def CreateUpload.row (request : CreateUpload) (now : ℤ) : UploadRow where
  uploadId := request.uploadId
  scope := request.scope
  idempotencyKey := request.idempotencyKey
  requestDigest := request.requestDigest
  objectBucket := request.objectBucket
  objectName := request.objectName
  expectedContentType := request.expectedContentType
  expectedContentLength := request.expectedContentLength
  expectedDigest := request.expectedDigest
  status := .reserved
  expiresAt := request.expiresAt
  createdAt := now
  verified := none
  source := none
  acceptedAt := none
  inspectionAttempts := 0
  inspectionLeaseOwner := none
  inspectionLeaseExpiresAt := none
  rejectionReason := none

def createUpload (s : Store) (now : ℤ) (request : CreateUpload) :
    Transaction CreateUploadOutcome :=
  if !insertChecks request then .error .database
  else match s.uploads.find? fun u =>
      u.scope == request.scope && u.idempotencyKey == request.idempotencyKey with
  | some existing =>
    if existing.requestDigest ≠ request.requestDigest then .error .idempotencyConflict
    else (storedUpload existing).map fun upload => (.existing upload, s)
  | none =>
    -- The primary key and the object location are unique besides the arbiter.
    if s.uploads.any fun u => u.uploadId == request.uploadId ||
        u.objectBucket == request.objectBucket && u.objectName == request.objectName then
      .error .database
    else (storedUpload (request.row now)).map fun upload =>
      (.created upload, { s with uploads := s.uploads++[request.row now] })

def isUpload (scope : Scope) (uploadId : UploadId) (u : UploadRow) : Bool :=
  u.scope == scope && u.uploadId == uploadId

/-- Append one content-free event of the upload. -/
def insertUploadEvent (s : Store) (scope : Scope) (uploadId : UploadId)
    (eventType : UploadEventType) : Store :=
  { s with
    uploadOutbox := s.uploadOutbox++[⟨s.nextUploadEventId,scope,uploadId,eventType⟩]
    nextUploadEventId := s.nextUploadEventId+1 }

def findUpload (s : Store) (scope : Scope) (uploadId : UploadId) :
    Except Error (Option StoredUpload) :=
  match s.uploads.find? (isUpload scope uploadId) with
  | none => .ok none
  | some u => (storedUpload u).map some

def recordable (now : ℤ) (record : RecordUpload) (u : UploadRow) : Bool :=
  u.status == .reserved && decide (now < u.expiresAt) &&
    u.expectedContentType == record.verifiedContentType &&
    u.expectedContentLength == record.verifiedContentLength &&
    u.expectedDigest == record.verifiedDigest

def RecordUpload.verified (record : RecordUpload) (now : ℤ) : VerifiedObject :=
  ⟨record.objectVersion,record.verifiedContentType,record.verifiedContentLength,
    record.verifiedDigest,now⟩

def markUploaded (now : ℤ) (record : RecordUpload) (u : UploadRow) : UploadRow :=
  { u with status := .uploaded, verified := some (record.verified now) }

/-- The writes of a recording: the row, one received event, and the scope's
registration with the dispatcher. -/
def recordRow (s : Store) (now : ℤ) (scope : Scope) (uploadId : UploadId)
    (record : RecordUpload) : Store :=
  let s := insertUploadEvent { s with
    uploads := Table.update (isUpload scope uploadId) (markUploaded now record) s.uploads }
    scope uploadId .received
  { s with workScopes := registerWorkScope now scope .upload s.workScopes }

def recordUploaded (s : Store) (now nowUtc : ℤ) (scope : Scope) (uploadId : UploadId)
    (record : RecordUpload) : Transaction RecordUploadOutcome :=
  if !validateRecord record then .error .invalidStoredUpload
  else match s.uploads.find? (isUpload scope uploadId) with
  | none => .ok (.notFound, s)
  | some u =>
    if recordable now record u then
      (storedUpload (markUploaded now record u)).map fun upload =>
        (.recorded upload, recordRow s now scope uploadId record)
    else match u.status with
      | .uploaded =>
        if u.verified.map (fun v => (v.objectVersion,v.verifiedContentType,
            v.verifiedContentLength,v.verifiedDigest)) =
            some (record.objectVersion,record.verifiedContentType,
              record.verifiedContentLength,record.verifiedDigest) then
          (storedUpload u).map fun upload => (.existing upload, s)
        else .ok (.notRecordable, s)
      | .reserved => .ok (if u.expiresAt ≤ nowUtc then .expired else .verificationMismatch, s)
      | _ => .ok (.notRecordable, s)

def leaseActive (now : ℤ) (u : UploadRow) : Bool :=
  u.inspectionLeaseExpiresAt.elim false (decide <| now < ·)

def loadClaimedUpload (s : Store) (now : ℤ) (scope : Scope) (uploadId : UploadId)
    (leaseOwner : String) : Except Error (Option StoredUpload) :=
  if !isValidLeaseOwner leaseOwner then .error .invalidStoredUpload
  else
    let claimed := fun u => isUpload scope uploadId u && u.status == .inspecting &&
      u.inspectionLeaseOwner == some leaseOwner && leaseActive now u
    match s.uploads.find? claimed with
    | none => .ok none
    | some u => (storedUpload u).map some

/-- The decision which the claim takes on the locked row. -/
def claimOutcome (now : ℤ) (owner : String) (u : UploadRow) : ClaimUploadInspectionOutcome :=
  match u.status with
  | .uploaded => if u.inspectionAttempts < 10 then .claimed else .notInspectable
  | .inspecting =>
    if leaseActive now u && u.inspectionLeaseOwner == some owner then .existing
    else if !leaseActive now u && decide (u.inspectionAttempts < 10) then .claimed
    else if !leaseActive now u then .attemptsExhausted
    else .busy
  | _ => .notInspectable

def claimInspection (now : ℤ) (owner : String) (u : UploadRow) : UploadRow :=
  { u with
    status := .inspecting
    inspectionAttempts := u.inspectionAttempts+1
    inspectionLeaseOwner := some owner
    inspectionLeaseExpiresAt := some (now+fiveMinutes) }

def renewInspection (now : ℤ) (u : UploadRow) : UploadRow :=
  { u with inspectionLeaseExpiresAt := some (now+fiveMinutes) }

def markRejected (reason : UploadRejectionReason) (u : UploadRow) : UploadRow :=
  { u with
    status := .rejected
    rejectionReason := some reason
    inspectionLeaseOwner := none
    inspectionLeaseExpiresAt := none }

/-- The writes of a rejection, by request or by exhaustion: the row, one
rejected event, and the scope's upload flag, which is cleared unconditionally. -/
def rejectRow (s : Store) (now : ℤ) (scope : Scope) (uploadId : UploadId)
    (reason : UploadRejectionReason) : Store :=
  insertUploadEvent { s with
    uploads := Table.update (isUpload scope uploadId) (markRejected reason) s.uploads
    workScopes := setWorkScopePending now scope .upload false s.workScopes }
    scope uploadId .rejected

def claimUploadInspection (s : Store) (now : ℤ) (scope : Scope) (uploadId : UploadId)
    (leaseOwner : String) : Transaction ClaimUploadInspectionOutcome :=
  if !isValidLeaseOwner leaseOwner then .error .invalidStoredUpload
  else match s.uploads.find? (isUpload scope uploadId) with
  | none => .ok (.notFound, s)
  | some u => match claimOutcome now leaseOwner u with
    | .claimed => .ok (.claimed, { s with
        uploads := Table.update (isUpload scope uploadId) (claimInspection now leaseOwner)
          s.uploads })
    | .existing => .ok (.existing, { s with
        uploads := Table.update
          (fun u => isUpload scope uploadId u && u.inspectionLeaseOwner == some leaseOwner)
          (renewInspection now) s.uploads })
    | .attemptsExhausted => .ok (.attemptsExhausted,
        rejectRow s now scope uploadId .inspectionAttemptsExhausted)
    | outcome => .ok (outcome, s)

def acceptable (now : ℤ) (accept : AcceptUpload) (u : UploadRow) : Bool :=
  u.status == .inspecting &&
    u.verified.map (·.verifiedDigest) == some accept.source.sourceDigest &&
    u.verified.map (·.verifiedContentLength) == some accept.source.sourceContentLength &&
    u.inspectionLeaseOwner == some accept.inspectionLeaseOwner && leaseActive now u

def markAccepted (now : ℤ) (accept : AcceptUpload) (u : UploadRow) : UploadRow :=
  { u with
    status := .accepted
    source := some accept.source
    acceptedAt := some now
    inspectionLeaseOwner := none
    inspectionLeaseExpiresAt := none }

/-- The writes of an acceptance: the row, one accepted event, and the scope's
upload flag, which is cleared unconditionally. -/
def acceptRow (s : Store) (now : ℤ) (scope : Scope) (uploadId : UploadId)
    (accept : AcceptUpload) : Store :=
  let s := insertUploadEvent { s with
    uploads := Table.update (isUpload scope uploadId) (markAccepted now accept) s.uploads }
    scope uploadId .accepted
  { s with workScopes := setWorkScopePending now scope .upload false s.workScopes }

def acceptUpload (s : Store) (now : ℤ) (scope : Scope) (uploadId : UploadId)
    (accept : AcceptUpload) : Transaction AcceptUploadOutcome :=
  if !validateAcceptedSource accept then .error .invalidStoredUpload
  else match s.uploads.find? (isUpload scope uploadId) with
  | none => .ok (.notFound, s)
  | some u =>
    if acceptable now accept u then .ok (.accepted, acceptRow s now scope uploadId accept)
    else if u.status = .accepted then
      .ok (if u.source = some accept.source then .existing else .sourceMismatch, s)
    else .ok (.notAcceptable, s)

def rejectable (now : ℤ) (leaseOwner : String) (u : UploadRow) : Bool :=
  u.status == .inspecting && u.inspectionLeaseOwner == some leaseOwner && leaseActive now u

def rejectUpload (s : Store) (now : ℤ) (scope : Scope) (uploadId : UploadId)
    (leaseOwner : String) (reason : UploadRejectionReason) : Transaction RejectUploadOutcome :=
  if !isValidLeaseOwner leaseOwner then .error .invalidStoredUpload
  else match s.uploads.find? (isUpload scope uploadId) with
  | none => .ok (.notFound, s)
  | some u =>
    if rejectable now leaseOwner u then .ok (.rejected, rejectRow s now scope uploadId reason)
    else if u.status ≠ .rejected then .ok (.notRejectable, s)
    else .ok (if u.rejectionReason = some reason then .existing else .reasonMismatch, s)

/-- `list_reconcilable_uploads`: what the dispatcher inspects in a claimed scope. -/
def listReconcilableUploads (s : Store) (now : ℤ) (scope : Scope) (limit : ℕ) :
    Except Error (List UploadId) :=
  if limit < 1 ∨ 100 < limit then .error .invalidStoredUpload
  else
    let rows := s.uploads.filter fun u => u.scope == scope &&
      (u.status == .uploaded || u.status == .inspecting &&
        u.inspectionLeaseExpiresAt.elim false (decide <| · ≤ now))
    .ok (((rows.mergeSort fun a b =>
      let uploadedAt := fun u : UploadRow => u.verified.elim 0 (·.uploadedAt)
      uploadedAt a < uploadedAt b || uploadedAt a == uploadedAt b &&
        decide (a.uploadId.asStr ≤ b.uploadId.asStr)).take limit).map (·.uploadId))

end DocumentIntelligence.Uploads
