import DocumentIntelligence.GeometryContract
import DocumentIntelligence.SourcePromotion

/-!
# The importer

Calls of `process` claim an upload, scan, read, parse and promote its object and close
its inspection. Each transaction of the store and each request to a service is a step of
its own, so the steps of the calls come in any order, with what others write to the
buckets between them. What the services answer is arbitrary.
-/

set_option autoImplicit false

namespace DocumentIntelligence.Importer
open BigEndian ObjectStorage SourceReading SourcePromotion
open Identifiers (Scope UploadId)
open Schema hiding Error
open Uploads
open ContentVerification (Sha256 DocumentReadError)
open GeometryContract (ParserInspectionReport ParserProcessError parserInspection)
open MalwareScan (Connection)

inductive DocumentParseError where
  | invalid
  | limitsExceeded
  | passwordRequired
  | unavailable
  deriving DecidableEq, Repr

def DocumentParseError.ofProcess : ParserProcessError → DocumentParseError
  | .invalidDocument => .invalid
  | .limitsExceeded => .limitsExceeded
  | .passwordRequired => .passwordRequired
  | .invalidConfiguration | .unavailable => .unavailable

inductive ImportOutcome where
  | accepted
  | existing
  | rejected
  | busy
  | notFound
  | leaseLost
  | retryable
  | conflict
  | notInspectable
  deriving DecidableEq, Repr

inductive Failure where
  | scan (error : UploadInspectionError)
  | read (error : DocumentReadError)
  | parse (error : DocumentParseError)
  | promote (error : SourcePromotionError)
  deriving DecidableEq, Repr

/-- The reason for which a failure rejects the upload; without one the call is retryable. -/
def Failure.reason : Failure → Option UploadRejectionReason
  | .scan .infected => some .malwareDetected
  | .scan .invalid => some .invalidDocument
  | .scan .unavailable => none
  | .read .invalid => some .invalidDocument
  | .read .unavailable => none
  | .parse .invalid => some .invalidDocument
  | .parse .limitsExceeded => some .parserLimitsExceeded
  | .parse .passwordRequired => some .passwordRequired
  | .parse .unavailable => none
  | .promote .invalidSource => some .invalidDocument
  | .promote .destinationConflict => some .sourceConflict
  | .promote .invalidConfiguration | .promote .unavailable => none

/-- What a service has answered to a call. -/
inductive Report where
  | scanned (scan : CleanScan)
  | read (found : SourceObject) (bytes : Bytes)
  | parsed (bytes : Bytes) (contentType : String) (inspection : ParserInspectionReport)
  | promoted (source : PromotedSource)
  | failed (failure : Failure)
  deriving DecidableEq, Repr

inductive Phase where
  | claiming
  | finding
  | loading
  | scanning (upload : StoredUpload)
  | reading (upload : StoredUpload)
  | parsing (upload : StoredUpload) (bytes : Bytes)
  | promoting (upload : StoredUpload) (inspection : ParserInspectionReport)
  | copying (upload : StoredUpload) (inspection : ParserInspectionReport) (p : Promotion)
      (stage : Stage)
  | accepting (inspection : ParserInspectionReport) (source : PromotedSource)
  | rejecting (reason : UploadRejectionReason)
  | returned (outcome : Except Schema.Error ImportOutcome)

/-- A call of `process`, with the reports of the services, the last one first. -/
structure Call where
  scope : Scope
  uploadId : UploadId
  leaseOwner : String
  phase : Phase
  reports : List Report

structure Services where
  inspector : GcsUploadMalwareInspector
  reader : GcsUploadDocumentReader
  promoter : GcsSourcePromoter
  isPath : String → Bool
  sha256 : Sha256

/-- What one turn of a call meets. A transaction may not reach the store, or its answer
may be lost. -/
structure Answers where
  now : ℤ
  committed : Bool
  answered : Bool
  get : GetReply
  connection : Connection
  parser : Bytes → String → Except ParserProcessError ParserInspectionReport
  stage : StageReplies

def Answers.transact {α : Type} (answers : Answers) (store : Store) (t : Transaction α) :
    Store×Except Schema.Error α :=
  if answers.committed then
    (commit store t,if answers.answered then t.map Prod.fst else .error .database)
  else (store,.error .database)

def Answers.query {α : Type} (answers : Answers) (result : Except Schema.Error α) :
    Except Schema.Error α :=
  if answers.answered then result else .error .database

/-! ### The calls -/

def Call.move (call : Call) (phase : Phase) : Call := { call with phase }

def Call.report (call : Call) (report : Report) (phase : Phase) : Call :=
  { call with phase, reports := report::call.reports }

def Call.fail (call : Call) (failure : Failure) : Call :=
  call.report (.failed failure) (match failure.reason with
    | some reason => .rejecting reason
    | none => .returned (.ok .retryable))

def claimed : ClaimUploadInspectionOutcome → Phase
  | .claimed | .existing => .loading
  | .busy => .returned (.ok .busy)
  | .attemptsExhausted => .returned (.ok .rejected)
  | .notFound => .returned (.ok .notFound)
  | .notInspectable => .finding

def found : Option StoredUpload → ImportOutcome
  | none => .notFound
  | some upload => match upload.state with
    | .accepted => .existing
    | .rejected => .rejected
    | _ => .notInspectable

def accepted : AcceptUploadOutcome → ImportOutcome
  | .accepted => .accepted
  | .existing => .existing
  | .sourceMismatch => .conflict
  | .notAcceptable => .leaseLost
  | .notFound => .notFound

def rejected : RejectUploadOutcome → ImportOutcome
  | .rejected | .existing => .rejected
  | .reasonMismatch => .conflict
  | .notRejectable => .leaseLost
  | .notFound => .notFound

def Call.acceptance (call : Call) (inspection : ParserInspectionReport)
    (source : PromotedSource) : AcceptUpload where
  inspectionLeaseOwner := call.leaseOwner
  source := {
    sourceBucket := source.bucket
    sourceObjectName := source.objectName
    sourceObjectVersion := source.generation
    sourceDigest := source.digest
    sourceContentLength := source.contentLength
    parserInspection := parserInspection inspection }

section Turn
variable (services : Services) (answers : Answers) (store : Store) (objects : SourceObjects)

/-- A service answers, or its failure ends the call. -/
def Call.served {α ε : Type} (call : Call) (failure : ε → Failure) (next : α → Call) :
    Except ε α → Call
  | .ok a => next a
  | .error e => call.fail (failure e)

def Call.promote (call : Call) (upload : StoredUpload) (inspection : ParserInspectionReport) :
    Call :=
  call.served .promote (fun start => call.move (.copying upload inspection start.1 start.2)) do
    let p ← services.promoter.promotion call.scope upload
    let stage ← firstStage upload p
    .ok (p,stage)

def Call.copied (call : Call) (upload : StoredUpload) (inspection : ParserInspectionReport)
    (p : Promotion) : StageResult → Call
  | .next stage => call.move (.copying upload inspection p stage)
  | .ended result => call.served .promote
      (fun source => call.report (.promoted source) (.accepting inspection source)) result

/-- The step of a call which reads the store only, or asks a service. -/
def Call.ask (call : Call) : SourceObjects×Call :=
  match call.phase with
  | .finding => (objects,call.move (.returned
      ((answers.query (findUpload store call.scope call.uploadId)).map found)))
  | .loading => (objects,call.move
      (match answers.query (loadClaimedUpload store answers.now call.scope call.uploadId
          call.leaseOwner) with
      | .error e => .returned (.error e)
      | .ok none => .returned (.ok .leaseLost)
      | .ok (some upload) => .scanning upload))
  | .scanning upload => (objects,call.served .scan
      (fun scan => call.report (.scanned scan) (.reading upload))
      (services.inspector.inspect services.isPath upload objects answers.get answers.connection))
  | .reading upload => (objects,call.served .read
      (fun read => call.report (.read read.1 read.2) (.parsing upload read.2))
      (services.reader.read services.isPath services.sha256 upload objects answers.get))
  | .parsing upload bytes => (objects,call.served (.parse ∘ .ofProcess)
      (fun inspection => call.report (.parsed bytes upload.expectedContentType inspection)
        (.promoting upload inspection))
      (answers.parser bytes upload.expectedContentType))
  | .promoting upload inspection => (objects,call.promote services upload inspection)
  | .copying upload inspection p stage =>
    let (objects',result) :=
      stage.step services.isPath services.sha256 upload p objects answers.stage
    (objects',call.copied upload inspection p result)
  | _ => (objects,call)

/-- One step of `process`. -/
def Call.turn (call : Call) : Store×SourceObjects×Call :=
  match call.phase with
  | .claiming =>
    let (store',result) := answers.transact store
      (claimUploadInspection store answers.now call.scope call.uploadId call.leaseOwner)
    (store',objects,call.move (match result with
      | .error e => .returned (.error e)
      | .ok outcome => claimed outcome))
  | .accepting inspection source =>
    let (store',result) := answers.transact store
      (acceptUpload store answers.now call.scope call.uploadId (call.acceptance inspection source))
    (store',objects,call.move (.returned (result.map accepted)))
  | .rejecting reason =>
    let (store',result) := answers.transact store
      (rejectUpload store answers.now call.scope call.uploadId call.leaseOwner reason)
    (store',objects,call.move (.returned (result.map rejected)))
  | _ => (store,call.ask services answers store objects)

end Turn

/-! ### The system -/

structure System where
  store : Store
  objects : SourceObjects
  calls : List Call

/-- Uploads are created and recorded, anyone writes objects, and calls begin and take
their turns. -/
inductive Action where
  | create (now : ℤ) (request : CreateUpload)
  | record (now nowUtc : ℤ) (scope : Scope) (uploadId : UploadId) (record : RecordUpload)
  | write (o : SourceObject)
  | process (scope : Scope) (uploadId : UploadId) (leaseOwner : String)
  | turn (i : ℕ) (answers : Answers)

def step (services : Services) (σ : System) : Action → System
  | .create now request => { σ with store := commit σ.store (createUpload σ.store now request) }
  | .record now nowUtc scope uploadId record => { σ with
      store := commit σ.store (recordUploaded σ.store now nowUtc scope uploadId record) }
  | .write o => { σ with objects := if numbered o then put σ.objects o else σ.objects }
  | .process scope uploadId leaseOwner => { σ with
      calls := σ.calls++[⟨scope,uploadId,leaseOwner,.claiming,[]⟩] }
  | .turn i answers => match σ.calls[i]? with
    | none => σ
    | some call =>
      let (store,objects,call') := call.turn services answers σ.store σ.objects
      ⟨store,objects,σ.calls.set i call'⟩

def start : System := ⟨empty,[],[]⟩

end DocumentIntelligence.Importer
