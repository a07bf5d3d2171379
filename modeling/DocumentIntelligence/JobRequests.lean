import DocumentIntelligence.FinalizationActivity
import DocumentIntelligence.ServedResults
import DocumentIntelligence.WebhookEvents

/-!
# Requests for jobs

A caller names each request for a job by a key. The request is stored as the digest of its
text, so that the key stands for one request and for one job, however often it is sent.
-/

set_option autoImplicit false

namespace DocumentIntelligence.JobRequests
open Identifiers hiding Error
open Schema Jobs CanonicalJson
open RequestSigning (asBytes)
open WebhookEvents (noNumbers asBytes_inj delivery_frame)
open ServedResults (ApiError)
open WorkloadIdentity (TrustedIdentity)
open AccessGrants (Value)
open FinalizationActivity (registered)
open Commands (Command execute)

/-! ### The request -/

structure Source where
  uploadId : String
  deriving DecidableEq, Repr

inductive DocumentType where
  | auto
  | general
  | invoice
  | receipt
  | purchaseOrder
  | identityDocument
  | contract
  | bankStatement
  | medicalForm
  | applicationForm
  | resume
  deriving DecidableEq, Repr

structure OutputOptions where
  text : Bool
  markdown : Bool
  layout : Bool
  evidence : Bool
  deriving DecidableEq, Repr

structure Extraction where
  schemaId : String
  schemaVersion : String
  deriving DecidableEq, Repr

inductive ProcessingClass where
  | interactive
  | priority
  | batch
  deriving DecidableEq, Repr

structure CreateJobRequest where
  source : Source
  documentType : DocumentType
  output : Option OutputOptions
  extraction : Option Extraction
  languageHints : List String
  processingClass : Option ProcessingClass
  webhookSubscriptionId : Option String
  deriving DecidableEq, Repr

def validLanguageHint (value : String) : Bool :=
  decide (2 ≤ value.utf8ByteSize ∧ value.utf8ByteSize ≤ 35) &&
    match value.toList.splitOn '-' with
    | [] => false
    | language::segments =>
      decide (2 ≤ language.length ∧ language.length ≤ 8) && language.all Char.isAlpha &&
        segments.all fun segment =>
          decide (1 ≤ segment.length ∧ segment.length ≤ 8) && segment.all Char.isAlphanum

def Extraction.reference (extraction : Extraction) : SchemaReference :=
  ⟨extraction.schemaId,extraction.schemaVersion⟩

def CreateJobRequest.hasValidBounds (request : CreateJobRequest) : Bool :=
  let languageHintsAreValid := decide (request.languageHints.length ≤ 8) &&
    request.languageHints.all validLanguageHint &&
    request.languageHints.zipIdx.all fun (hint,index) =>
      !(request.languageHints.take index).contains hint
  let extractionIsValid := request.extraction.all fun extraction =>
    (registered extraction.reference).isSome
  languageHintsAreValid && extractionIsValid

/-! ### Its text -/

def DocumentType.name : DocumentType → String
  | .auto => "auto"
  | .general => "general"
  | .invoice => "invoice"
  | .receipt => "receipt"
  | .purchaseOrder => "purchase_order"
  | .identityDocument => "identity_document"
  | .contract => "contract"
  | .bankStatement => "bank_statement"
  | .medicalForm => "medical_form"
  | .applicationForm => "application_form"
  | .resume => "resume"

def ProcessingClass.name : ProcessingClass → String
  | .interactive => "interactive"
  | .priority => "priority"
  | .batch => "batch"

def OutputOptions.members (output : OutputOptions) : List (String × Value Empty) :=
  [("text",.bool output.text),("markdown",.bool output.markdown),
    ("layout",.bool output.layout),("evidence",.bool output.evidence)]

def Extraction.members (extraction : Extraction) : List (String × Value Empty) :=
  [("schema_id",.string extraction.schemaId),("schema_version",.string extraction.schemaVersion)]

def CreateJobRequest.value (request : CreateJobRequest) : Value Empty :=
  .object [("source",.object [("upload_id",.string request.source.uploadId)]),
    ("document_type",.string request.documentType.name),
    ("output",request.output.elim .null fun output => .object output.members),
    ("extraction",request.extraction.elim .null fun extraction => .object extraction.members),
    ("language_hints",.array (request.languageHints.map .string)),
    ("processing_class",request.processingClass.elim .null fun processingClass =>
      .string processingClass.name),
    ("webhook_subscription_id",request.webhookSubscriptionId.elim .null .string)]

/-- `serde_json::to_vec` -/
def CreateJobRequest.toVec (request : CreateJobRequest) : List UInt8 :=
  asBytes (String.ofList (chars noNumbers request.value))

/-! ### The handler -/

def badRequest (code message : String) : ApiError := ⟨400,code,message⟩

def invalidRequest : ApiError := badRequest "invalid_request" "request body is invalid"

def conflict : ApiError :=
  ⟨409,"idempotency_conflict","idempotency key was reused with different input"⟩

def uploadNotFound : ApiError := ⟨404,"upload_not_found","upload was not found"⟩

structure JobResponse where
  jobId : JobId
  status : JobState
  createdAt : ℤ
  statusUrl : Option String
  resultUrl : Option String
  deriving DecidableEq, Repr

/-- What a caller sends. A body which is no request is none. -/
structure Call where
  identity : TrustedIdentity
  idempotencyValue : Option String
  payload : Option CreateJobRequest
  deriving DecidableEq

def Call.scope (call : Call) : Scope := ⟨call.identity.productId,call.identity.tenantId⟩

section Handler
variable (sha256 : List UInt8 → Vector UInt8 32)

/-- The command which `create_job` makes of a call, with a generated identifier. -/
def jobCommand (call : Call) (generatedId : JobId) : Except ApiError CreateJob :=
  match call.idempotencyValue with
  | none => .error (badRequest "idempotency_key_required" "Idempotency-Key is required")
  | some value => match IdempotencyKey.new value with
    | .error _ => .error (badRequest "invalid_idempotency_key" "Idempotency-Key is invalid")
    | .ok idempotencyKey => match call.payload with
      | none => .error invalidRequest
      | some request =>
        if !request.hasValidBounds then
          .error (badRequest "invalid_job_request" "job request is invalid")
        else match UploadId.new request.source.uploadId with
        | .error _ => .error invalidRequest
        | .ok uploadId => match request.webhookSubscriptionId.mapM WebhookSubscriptionId.new with
          | .error _ => .error
            (badRequest "invalid_webhook_subscription_id" "webhook subscription id is invalid")
          | .ok webhookSubscriptionId =>
            match RequestDigest.new (sha256Digest sha256 request.toVec) with
            | .error _ => .error invalidRequest
            | .ok requestDigest => .ok
              { jobId := generatedId
                scope := call.scope
                idempotencyKey := idempotencyKey
                requestDigest := requestDigest
                uploadId := uploadId
                webhookSubscriptionId := webhookSubscriptionId
                extraction := request.extraction.map Extraction.reference }

def jobResponse (job : StoredJob) : JobResponse :=
  let statusUrl := "/v1/ocr/jobs/"++job.jobId.asStr
  ⟨job.jobId,job.state,job.createdAt,some statusUrl,some (statusUrl++"/result")⟩

/-- `create_job` -/
def createJob (s : Store) (now : ℤ) (call : Call) (generatedId : JobId) :
    Except ApiError JobResponse × Store :=
  match jobCommand sha256 call generatedId with
  | .error e => (.error e,s)
  | .ok command => match Jobs.create s now command with
    | .error .idempotencyConflict => (.error conflict,s)
    | .error .uploadSourceUnavailable => (.error uploadNotFound,s)
    | .error _ => (.error .unavailable,s)
    | .ok (.created job,s') => (.ok (jobResponse job),s')
    | .ok (.existing job,s') => (.ok (jobResponse job),s')

end Handler

/-! ### Calls and everything else -/

/-- Jobs are created by the handler alone. -/
def createsJob : OutboxExhaustion.Action → Bool
  | .command _ (.create _) => true
  | _ => false

inductive Action where
  | call (now : ℤ) (call : Call) (generatedId : JobId)
  | other (a : OutboxExhaustion.Action) (h : createsJob a = false)

/-- The database, and every call with its reply. -/
structure Service where
  store : Store
  replies : List (Call × Except ApiError JobResponse)

def initial : Service := ⟨empty,[]⟩

section Runs
variable (sha256 : List UInt8 → Vector UInt8 32)

def step (w : Service) : Action → Service
  | .call now call generatedId =>
    let (reply,store) := createJob sha256 w.store now call generatedId
    ⟨store,w.replies++[(call,reply)]⟩
  | .other a _ => { w with store := OutboxExhaustion.step w.store a }

/-- The name which a caller gives to a request. -/
def Call.keyed (call : Call) : Scope × Option String := (call.scope,call.idempotencyValue)

end Runs

/-! ### What a row keeps of its request -/

/-- The command whose row it is. -/
def rowCommand (job : JobRow) : CreateJob :=
  ⟨job.jobId,job.scope,job.idempotencyKey,job.requestDigest,job.uploadId,
    job.webhookSubscriptionId,job.extraction⟩

theorem command_kept (s : Store) (now : ℤ) (c : Command)
    (h : createsJob (.command now c) = false) :
    (execute s now c).jobs.map rowCommand = s.jobs.map rowCommand := by
  have hset : ∀ (p : JobRow → Bool) (status : JobState),
      (Table.update p (setStatus status) s.jobs).map rowCommand = s.jobs.map rowCommand :=
    fun p status => Table.map_update rowCommand (f := setStatus status) (fun _ => rfl) s.jobs
  cases c with
  | upload action => exact congrArg (List.map rowCommand) (JobConsistency.uploads_frame s action).1
  | create request => cases h
  | cancel scope jobId =>
    simp only [execute,Jobs.cancel]
    split
    · rfl
    · split
      · exact hset _ _
      · split <;> rfl
  | completeCancellation scope jobId =>
    simp only [execute,Jobs.completeCancellation]
    split
    · rfl
    · split
      · rfl
      · exact hset _ _
      · rfl
  | createPageWorkflow scope jobId workflow =>
    simp only [execute,PageWorkflowStore.createPageWorkflow]
    split
    · rfl
    · split
      · split
        · rfl
        · exact hset _ _
      · split
        · split <;> rfl
        · rfl
  | savePageWorkflow scope jobId revision workflow artifacts =>
    simp only [execute,PageWorkflowStore.savePageWorkflowWithArtifacts]
    split
    · rfl
    · split
      · rfl
      · split
        · rfl
        · split
          · rfl
          · split <;> rfl
  | commitResult scope jobId command =>
    simp only [execute,Jobs.commitResult]
    split
    · rfl
    · split
      · rfl
      · split
        · rfl
        · split
          · split
            · rfl
            · split <;> rfl
          · split
            · rfl
            · split
              · rfl
              · simp only [commit_ok,commitRow]
                split <;> exact hset _ _

theorem other_kept {s : Store} (hi : OutboxExhaustion.Inv s) {a : OutboxExhaustion.Action}
    (h : createsJob a = false) :
    (OutboxExhaustion.step s a).jobs.map rowCommand = s.jobs.map rowCommand := by
  by_cases hcommand : ∃ now c, a = .command now c
  · obtain ⟨now,c,rfl⟩ := hcommand
    exact command_kept s now c h
  · have hdelivery : ∀ now c, a ≠ .command now c := fun now c ha => hcommand ⟨now,c,ha⟩
    rw [(delivery_frame hi hdelivery).2.2]

/-! ### What a creation answers -/

/-- The stored command has the name of the other, and what is compared with it. -/
def Named (command stored : CreateJob) : Prop :=
  stored.scope = command.scope ∧ stored.idempotencyKey = command.idempotencyKey

def Same (command stored : CreateJob) : Prop :=
  stored.requestDigest = command.requestDigest ∧
    stored.webhookSubscriptionId = command.webhookSubscriptionId

inductive CreateEffect (s : Store) (now : ℤ) (command : CreateJob) :
    Transaction CreateOutcome → Prop
  | existing (job : JobRow) : job ∈ s.jobs → Named command (rowCommand job) →
      Same command (rowCommand job) →
      CreateEffect s now command (.ok (.existing (storedJob job),s))
  | conflict (job : JobRow) : job ∈ s.jobs → Named command (rowCommand job) →
      ¬Same command (rowCommand job) →
      CreateEffect s now command (.error .idempotencyConflict)
  | created : (∀ job ∈ s.jobs, ¬Named command (rowCommand job)) →
      (∀ job ∈ s.jobs, job.jobId ≠ command.jobId) →
      CreateEffect s now command
        (.ok (.created (storedJob (command.row now)),createRow s now command))
  | refused (e : Schema.Error) : (∀ job ∈ s.jobs, ¬Named command (rowCommand job)) →
      e ≠ .idempotencyConflict → CreateEffect s now command (.error e)

theorem create_effect (s : Store) (now : ℤ) {command : CreateJob}
    (hshape : extractionShape command.extraction = true) :
    CreateEffect s now command (Jobs.create s now command) := by
  simp only [Jobs.create,hshape,Bool.not_true,Bool.and_false,Bool.false_eq_true,if_false]
  split
  · rename_i job hfind
    obtain ⟨hjob,hnamed⟩ := Table.mem_of_find? hfind
    simp only [Bool.and_eq_true,beq_iff_eq] at hnamed
    split
    · rename_i hdiffers
      refine .conflict job hjob hnamed fun hsame => ?_
      exact hdiffers.elim (fun h => h hsame.1) fun h => h hsame.2
    · rename_i hsame
      rw [not_or,ne_eq,ne_eq,not_not,not_not] at hsame
      exact .existing job hjob hnamed hsame
  · rename_i hfind
    have hunnamed : ∀ job ∈ s.jobs, ¬Named command (rowCommand job) := by
      rintro job hjob ⟨hscope,hkey⟩
      have hfalse := List.find?_eq_none.mp hfind job hjob
      simp only [rowCommand] at hscope hkey
      simp [hscope,hkey] at hfalse
    split
    · exact .refused _ hunnamed (by simp)
    · split
      · exact .refused _ hunnamed (by simp)
      · rename_i hfresh
        refine .created hunnamed fun job hjob hid => hfresh ?_
        rw [List.any_eq_true]
        exact ⟨job,hjob,beq_iff_eq.mpr hid⟩

/-! ### The text stands for the request -/

section Calls
variable {sha256 : List UInt8 → Vector UInt8 32}

/-! ### What becomes of a call -/

variable (sha256) in
/-- What the command of a call keeps of it. -/
structure CommandOf (call : Call) (request : CreateJobRequest) (command : CreateJob) : Prop where
  payload : call.payload = some request
  keyed : call.keyed = (command.scope,some command.idempotencyKey.asStr)
  digest : command.requestDigest.asStr = sha256Digest sha256 request.toVec
  shape : extractionShape command.extraction = true

theorem registered_shape {reference : SchemaReference} (h : (registered reference).isSome = true) :
    extractionShape (some reference) = true := by
  rw [registered] at h
  split at h
  · rename_i hnames
    rw [extractionShape,hnames.1,hnames.2]
    decide
  · cases h

theorem command_some {call : Call} {generatedId : JobId} {command : CreateJob}
    (h : jobCommand sha256 call generatedId = .ok command) :
    command.jobId = generatedId ∧ ∃ request, CommandOf sha256 call request command := by
  unfold jobCommand at h
  split at h
  · cases h
  rename_i value hvalue
  split at h
  · cases h
  rename_i idempotencyKey hkey
  split at h
  · cases h
  rename_i request hpayload
  split at h
  · cases h
  rename_i hbounds
  split at h
  · cases h
  split at h
  · cases h
  split at h
  · cases h
  rename_i requestDigest hdigest
  cases h
  refine ⟨rfl,request,hpayload,?_,?_,?_⟩
  · rw [IdempotencyKey.new] at hkey
    split at hkey
    · cases hkey
      rw [Call.keyed,hvalue]
    · cases hkey
  · rw [RequestDigest.new,dif_pos (sha256Digest_valid _ _)] at hdigest
    cases hdigest
    rfl
  · simp only [CreateJobRequest.hasValidBounds,Bool.not_eq_true',Bool.not_eq_false,
      Bool.and_eq_true] at hbounds
    cases hextraction : request.extraction with
    | none => rfl
    | some extraction =>
      rw [hextraction] at hbounds
      exact registered_shape hbounds.2

/-- Another identifier changes nothing else. -/
theorem command_again {call : Call} {generatedId : JobId} {command : CreateJob}
    (h : jobCommand sha256 call generatedId = .ok command) (otherId : JobId) :
    jobCommand sha256 call otherId = .ok { command with jobId := otherId } := by
  unfold jobCommand at h ⊢
  split at h
  · cases h
  split at h
  · cases h
  split at h
  · cases h
  split at h
  · cases h
  rename_i hbounds
  split at h
  · cases h
  split at h
  · cases h
  split at h
  · cases h
  cases h
  simp only [hbounds]
  rfl

theorem command_error {call : Call} {generatedId : JobId} {e : ApiError}
    (h : jobCommand sha256 call generatedId = .error e) : e ≠ conflict := by
  have hstatus : e.status = 400 := by
    unfold jobCommand at h
    split at h
    · cases h
      rfl
    split at h
    · cases h
      rfl
    split at h
    · cases h
      rfl
    split at h
    · cases h
      rfl
    split at h
    · cases h
      rfl
    split at h
    · cases h
      rfl
    split at h
    · cases h
      rfl
    · cases h
  rintro rfl
  exact absurd hstatus (by decide)

variable (sha256) in
inductive CallEffect (s : Store) (now : ℤ) (call : Call) (generatedId : JobId) :
    Except ApiError JobResponse × Store → Prop
  | answered (command : CreateJob) (job : JobRow) :
      jobCommand sha256 call generatedId = .ok command → job ∈ s.jobs →
      Named command (rowCommand job) → Same command (rowCommand job) →
      CallEffect s now call generatedId (.ok (jobResponse (storedJob job)),s)
  | conflict (command : CreateJob) (job : JobRow) :
      jobCommand sha256 call generatedId = .ok command → job ∈ s.jobs →
      Named command (rowCommand job) → ¬Same command (rowCommand job) →
      CallEffect s now call generatedId (.error conflict,s)
  | created (command : CreateJob) :
      jobCommand sha256 call generatedId = .ok command →
      (∀ job ∈ s.jobs, ¬Named command (rowCommand job)) →
      (∀ job ∈ s.jobs, job.jobId ≠ command.jobId) →
      createRow s now command = OutboxExhaustion.step s (.command now (.create command)) →
      CallEffect s now call generatedId
        (.ok (jobResponse (storedJob (command.row now))),createRow s now command)
  | refused (e : ApiError) : e ≠ JobRequests.conflict →
      (∀ command, jobCommand sha256 call generatedId = .ok command →
        ∀ job ∈ s.jobs, ¬Named command (rowCommand job)) →
      CallEffect s now call generatedId (.error e,s)

variable (sha256) in
theorem call_effect (s : Store) (now : ℤ) (call : Call) (generatedId : JobId) :
    CallEffect sha256 s now call generatedId
      (createJob sha256 s now call generatedId) := by
  unfold createJob
  cases hcommand : jobCommand sha256 call generatedId with
  | error e =>
    refine .refused e (command_error hcommand) fun command h => ?_
    rw [hcommand] at h
    cases h
  | ok command =>
    obtain ⟨_,request,hc⟩ := command_some hcommand
    have heffect := create_effect s now hc.shape
    dsimp only
    have hexecute : ∀ outcome s', Jobs.create s now command = .ok (outcome,s') →
        s' = OutboxExhaustion.step s (.command now (.create command)) := by
      intro outcome s' h
      simp only [OutboxExhaustion.step,execute,h,commit_ok]
    generalize houtcome : Jobs.create s now command = outcome at heffect
    cases heffect with
    | existing job hjob hnamed hsame => exact .answered command job hcommand hjob hnamed hsame
    | conflict job hjob hnamed hdiffers => exact .conflict command job hcommand hjob hnamed hdiffers
    | created hunnamed hfresh =>
      exact .created command hcommand hunnamed hfresh (hexecute _ _ houtcome)
    | refused e hunnamed hother =>
      have hnone : ∀ command', jobCommand sha256 call generatedId = .ok command' →
          ∀ job ∈ s.jobs, ¬Named command' (rowCommand job) := by
        intro command' h
        rw [hcommand] at h
        cases h
        exact hunnamed
      cases e with
      | idempotencyConflict => exact absurd rfl hother
      | uploadSourceUnavailable => exact .refused uploadNotFound (by decide) hnone
      | database => exact .refused ApiError.unavailable (by decide) hnone
      | _ => exact .refused ApiError.unavailable (by decide) hnone

/-! ### Keys, requests and jobs -/

/-- The call is answered with the job of the stored command. -/
def Answered (sha256 : List UInt8 → Vector UInt8 32) (call : Call) (stored : CreateJob) : Prop :=
  ∃ command, jobCommand sha256 call stored.jobId = .ok command ∧ Named command stored ∧
    Same command stored

structure Inv (sha256 : List UInt8 → Vector UInt8 32) (w : Service) : Prop where
  reached : OutboxExhaustion.Inv w.store ∧ JobLifecycle.Lifecycle w.store
  ids : ((w.store.jobs.map rowCommand).map (·.jobId)).Nodup
  keys : ((w.store.jobs.map rowCommand).map fun c => (c.scope,c.idempotencyKey)).Nodup
  recorded : ∀ call response, (call,.ok response) ∈ w.replies →
    ∃ stored ∈ w.store.jobs.map rowCommand, Answered sha256 call stored ∧
      stored.jobId = response.jobId
  asked : ∀ stored ∈ w.store.jobs.map rowCommand, ∃ call response,
    (call,.ok response) ∈ w.replies ∧ Answered sha256 call stored
  refused : ∀ call, (call,.error conflict) ∈ w.replies → ∃ other response,
    (other,.ok response) ∈ w.replies ∧ other.keyed = call.keyed ∧ other ≠ call

theorem answered_keyed {call : Call} {stored : CreateJob} (h : Answered sha256 call stored) :
    call.keyed = (stored.scope,some stored.idempotencyKey.asStr) := by
  obtain ⟨command,hcommand,hnamed,_⟩ := h
  obtain ⟨_,request,hc⟩ := command_some hcommand
  rw [hc.keyed,hnamed.1,hnamed.2]

/-- The replies go on, and so do the jobs. -/
theorem inv_reply {w : Service} (h : Inv sha256 w) {call : Call}
    {reply : Except ApiError JobResponse}
    (hrecorded : ∀ response, reply = .ok response →
      ∃ stored ∈ w.store.jobs.map rowCommand, Answered sha256 call stored ∧
        stored.jobId = response.jobId)
    (hrefused : reply = .error conflict → ∃ other response,
      (other,.ok response) ∈ w.replies ∧ other.keyed = call.keyed ∧ other ≠ call) :
    Inv sha256 ⟨w.store,w.replies++[(call,reply)]⟩ where
  reached := h.reached
  ids := h.ids
  keys := h.keys
  recorded := by
    intro call' response hin
    rcases List.mem_append.mp hin with hold | hnew
    · exact h.recorded call' response hold
    · cases List.mem_singleton.mp hnew
      exact hrecorded response rfl
  asked := by
    intro stored hstored
    obtain ⟨call',response,hin,hanswered⟩ := h.asked stored hstored
    exact ⟨call',response,List.mem_append_left _ hin,hanswered⟩
  refused := by
    intro call' hin
    have hsome : ∃ other response, (other,.ok response) ∈ w.replies ∧
        other.keyed = call'.keyed ∧ other ≠ call' := by
      rcases List.mem_append.mp hin with hold | hnew
      · exact h.refused call' hold
      · cases List.mem_singleton.mp hnew
        exact hrefused rfl
    obtain ⟨other,response,hin',hkeyed⟩ := hsome
    exact ⟨other,response,List.mem_append_left _ hin',hkeyed⟩

theorem inv_created {w : Service} (h : Inv sha256 w) {now : ℤ} {call : Call} {generatedId : JobId}
    {command : CreateJob} (hcommand : jobCommand sha256 call generatedId = .ok command)
    (hunnamed : ∀ job ∈ w.store.jobs, ¬Named command (rowCommand job))
    (hfresh : ∀ job ∈ w.store.jobs, job.jobId ≠ command.jobId)
    (hstep : createRow w.store now command =
      OutboxExhaustion.step w.store (.command now (.create command))) :
    Inv sha256 ⟨createRow w.store now command,
      w.replies++[(call,.ok (jobResponse (storedJob (command.row now))))]⟩ := by
  have hjobs : (createRow w.store now command).jobs.map rowCommand =
      w.store.jobs.map rowCommand++[command] :=
    List.map_append
  obtain ⟨hid,_⟩ := command_some hcommand
  have hanswered : Answered sha256 call command :=
    ⟨command,by rw [hid]; exact hcommand,⟨rfl,rfl⟩,⟨rfl,rfl⟩⟩
  have hold : ∀ stored ∈ w.store.jobs.map rowCommand,
      ¬Named command stored ∧ stored.jobId ≠ command.jobId := by
    intro stored hstored
    obtain ⟨job,hjob,rfl⟩ := List.mem_map.mp hstored
    exact ⟨hunnamed job hjob,hfresh job hjob⟩
  refine ⟨?_,?_,?_,?_,?_,?_⟩
  · simp only [hstep]
    exact JobLifecycle.step_kept h.reached _
  · rw [hjobs]
    exact Table.nodup_append_key h.ids fun stored hstored => (hold stored hstored).2
  · rw [hjobs]
    exact Table.nodup_append_key h.keys fun stored hstored heq =>
      (hold stored hstored).1 (Prod.mk.inj heq)
  · intro call' response hin
    rw [hjobs]
    rcases List.mem_append.mp hin with hin | hnew
    · obtain ⟨stored,hstored,hrest⟩ := h.recorded call' response hin
      exact ⟨stored,List.mem_append_left _ hstored,hrest⟩
    · cases List.mem_singleton.mp hnew
      exact ⟨command,List.mem_append_right _ (List.mem_singleton_self _),hanswered,rfl⟩
  · intro stored hstored
    rw [hjobs] at hstored
    rcases List.mem_append.mp hstored with hin | hnew
    · obtain ⟨call',response,hin',hrest⟩ := h.asked stored hin
      exact ⟨call',response,List.mem_append_left _ hin',hrest⟩
    · cases List.mem_singleton.mp hnew
      exact ⟨call,_,List.mem_append_right _ (List.mem_singleton_self _),hanswered⟩
  · intro call' hin
    rcases List.mem_append.mp hin with hin | hnew
    · obtain ⟨other,response,hin',hrest⟩ := h.refused call' hin
      exact ⟨other,response,List.mem_append_left _ hin',hrest⟩
    · cases List.mem_singleton.mp hnew

theorem step_inv {w : Service} (h : Inv sha256 w) (a : Action) : Inv sha256 (step sha256 w a) := by
  cases a with
  | other a ha =>
    have hkept := other_kept h.reached.1 ha
    refine ⟨JobLifecycle.step_kept h.reached a,?_,?_,?_,?_,h.refused⟩
    · exact (congrArg (List.map (·.jobId)) hkept).symm ▸ h.ids
    · rw [step,hkept]
      exact h.keys
    · rw [step,hkept]
      exact h.recorded
    · rw [step,hkept]
      exact h.asked
  | call now call generatedId =>
    have heffect := call_effect sha256 w.store now call generatedId
    show Inv sha256 ⟨(createJob sha256 w.store now call generatedId).2,
      w.replies++[(call,(createJob sha256 w.store now call generatedId).1)]⟩
    generalize createJob sha256 w.store now call generatedId = reply at heffect
    cases heffect with
    | answered command job hcommand hjob hnamed hsame =>
      refine inv_reply h (fun response hresponse => ?_) nofun
      cases hresponse
      exact ⟨rowCommand job,List.mem_map_of_mem hjob,
        ⟨_,command_again hcommand job.jobId,hnamed,hsame⟩,rfl⟩
    | conflict command job hcommand hjob hnamed hdiffers =>
      refine inv_reply h nofun fun _ => ?_
      obtain ⟨other,response,hin,hanswered⟩ := h.asked _ (List.mem_map_of_mem hjob)
      obtain ⟨_,request,hc⟩ := command_some hcommand
      refine ⟨other,response,hin,?_,?_⟩
      · rw [answered_keyed hanswered,hc.keyed,hnamed.1,hnamed.2]
      · rintro rfl
        obtain ⟨command',hcommand',_,hsame⟩ := hanswered
        rw [command_again hcommand,Except.ok.injEq] at hcommand'
        subst hcommand'
        exact hdiffers hsame
    | created command hcommand hunnamed hfresh hstep =>
      exact inv_created h hcommand hunnamed hfresh hstep
    | refused e hother _ =>
      refine inv_reply h nofun fun heq => ?_
      cases heq
      exact absurd rfl hother

theorem initial_inv : Inv sha256 initial where
  reached := ⟨OutboxExhaustion.inv_empty,JobLifecycle.lifecycle_empty⟩
  ids := List.nodup_nil
  keys := List.nodup_nil
  recorded _ _ h := absurd h List.not_mem_nil
  asked _ h := absurd h List.not_mem_nil
  refused _ h := absurd h List.not_mem_nil

theorem run_inv (as : List Action) : Inv sha256 (Transition.run (step sha256) initial as) :=
  @Transition.run_invariant _ _ (step sha256) (Inv sha256) (fun _ a h => step_inv h a) _
    initial_inv as

end Calls

/-! ### A key which is used again -/

theorem secondJob_valid : validatedId "job_b" "job_" = true := by decide

def secondJob : JobId := ⟨"job_b",secondJob_valid⟩

end DocumentIntelligence.JobRequests
