import DocumentIntelligence.Outbox
import DocumentIntelligence.PageWorkflowStore

/-!
# Dispatch of job events

The relay turns a claimed event into a dispatch, which first writes the
checkpoint and then asks the workflow service. A refusal of either of them is
`unavailable`; the transactions which committed before it stay committed.
-/

set_option autoImplicit false

namespace DocumentIntelligence.Dispatch
open Identifiers hiding Error
open Schema Jobs Outbox PageWorkflowStore
open PageCheckpoint (PageWorkflow)

inductive WorkflowAction where
  | start
  | cancel
  deriving DecidableEq, Repr

structure WorkflowDispatch where
  eventId : ℕ
  workflowId : String
  scope : Scope
  jobId : JobId
  pageCount : ℕ
  action : WorkflowAction
  deriving DecidableEq, Repr

inductive WorkflowDispatchOutcome where
  | started
  | existing
  deriving DecidableEq, Repr

inductive WorkflowDispatchError where
  | unavailable
  deriving DecidableEq, Repr

/-- The answer of a starter which writes to the store, and the store it leaves. -/
abbrev Dispatched := Except WorkflowDispatchError WorkflowDispatchOutcome × Store

structure DurableWorkflowStarter where
  maxAttempts : ℕ
  attempts_bounded : 1 ≤ maxAttempts ∧ maxAttempts ≤ 10
  deriving DecidableEq, Repr

namespace DurableWorkflowStarter

/-- `none` is the configuration error. -/
def new (maxAttempts : ℕ) : Option DurableWorkflowStarter :=
  if h : 1 ≤ maxAttempts ∧ maxAttempts ≤ 10 then some ⟨maxAttempts,h⟩ else none

def completeCancellation (s : Store) (dispatch : WorkflowDispatch) : Dispatched :=
  match Jobs.completeCancellation s dispatch.scope dispatch.jobId with
  | .error _ => (.error .unavailable, s)
  | .ok (.cancelled _, s') => (.ok .started, s')
  | .ok (.existing _, s') => (.ok .existing, s')
  | .ok (.notCancellable _, s') | .ok (.notFound, s') => (.error .unavailable, s')

def cancelStored (s : Store) (dispatch : WorkflowDispatch) (stored : StoredPageWorkflow) :
    Dispatched :=
  if stored.workflow.status = .cancelled then completeCancellation s dispatch
  else match savePageWorkflow s dispatch.scope dispatch.jobId stored.revision
      stored.workflow.requestCancellation with
    | .error _ => (.error .unavailable, s)
    | .ok (.saved _, s') => completeCancellation s' dispatch
    | .ok (.conflict, s') | .ok (.notFound, s') => (.error .unavailable, s')

def cancel (starter : DurableWorkflowStarter) (s : Store) (dispatch : WorkflowDispatch) :
    Dispatched :=
  match loadPageWorkflow s dispatch.scope dispatch.jobId with
  | some stored => cancelStored s dispatch stored
  | none => match PageWorkflow.new dispatch.jobId dispatch.pageCount starter.maxAttempts with
    | .error _ => (.error .unavailable, s)
    | .ok workflow =>
      match createPageWorkflow s dispatch.scope dispatch.jobId workflow.requestCancellation with
      | .error _ => (.error .unavailable, s)
      | .ok (.created _, s') => (.ok .started, s')
      | .ok (.existing stored, s') => cancelStored s' dispatch stored
      | .ok (.conflict, s') | .ok (.notFound, s') => (.error .unavailable, s')

def start (starter : DurableWorkflowStarter) (s : Store) (dispatch : WorkflowDispatch) :
    Dispatched :=
  match PageWorkflow.new dispatch.jobId dispatch.pageCount starter.maxAttempts with
  | .error _ => (.error .unavailable, s)
  | .ok workflow => match createPageWorkflow s dispatch.scope dispatch.jobId workflow with
    | .error _ => (.error .unavailable, s)
    | .ok (.created _, s') => (.ok .started, s')
    | .ok (.existing _, s') => (.ok .existing, s')
    | .ok (.conflict, s') | .ok (.notFound, s') => (.error .unavailable, s')

def dispatch (starter : DurableWorkflowStarter) (s : Store) (dispatch : WorkflowDispatch) :
    Dispatched :=
  match dispatch.action with
  | .start => starter.start s dispatch
  | .cancel => starter.cancel s dispatch

end DurableWorkflowStarter

def workflowSchemaVersion : String := "1"
def maxWorkflowInputBytes : ℕ := 512

structure WorkflowInput where
  scope : Scope
  jobId : JobId
  pageCount : ℕ
  deriving DecidableEq, Repr

def WorkflowInput.encode (input : WorkflowInput) : String :=
  Json.object [Json.member "schema_version" (Json.string workflowSchemaVersion),
    Json.member "product_id" (Json.string input.scope.productId.asStr),
    Json.member "tenant_id" (Json.string input.scope.tenantId.asStr),
    Json.member "job_id" (Json.string input.jobId.asStr),
    Json.member "page_count" (toString input.pageCount)]

/-- `none` is the invalid workflow input. -/
def WorkflowInput.new (scope : Scope) (jobId : JobId) (pageCount : ℕ) : Option WorkflowInput :=
  if ¬(1 ≤ pageCount ∧ pageCount ≤ PageCheckpoint.maximumPageCount) then none
  else if maxWorkflowInputBytes < (WorkflowInput.encode ⟨scope,jobId,pageCount⟩).utf8ByteSize then none
  else some ⟨scope,jobId,pageCount⟩

inductive TemporalCommand where
  | start (workflowId requestId taskQueue : String) (input : WorkflowInput)
  | cancel (workflowId requestId : String)
  deriving DecidableEq, Repr

inductive GatewayOutcome where
  | accepted
  | alreadyExists
  deriving DecidableEq, Repr

inductive GatewayError where
  | unavailable
  deriving DecidableEq, Repr

inductive WorkflowStartReply where
  | started
  | alreadyStarted
  | failed
  deriving DecidableEq, Repr

inductive WorkflowCancelReply where
  | cancelled
  | notFound
  | failed
  deriving DecidableEq, Repr

/-- The client of the workflow service, as the calls of one dispatch see it. -/
structure Client where
  startWorkflow : (taskQueue workflowId : String) → Scope → JobId → WorkflowStartReply
  cancel : (workflowId requestId : String) → WorkflowCancelReply

/-- The service answers every call. -/
def Client.Available (client : Client) : Prop :=
  (∀ taskQueue workflowId scope jobId,
    client.startWorkflow taskQueue workflowId scope jobId ≠ .failed) ∧
  ∀ workflowId requestId, client.cancel workflowId requestId ≠ .failed

/-- `OfficialTemporalGateway::execute`. -/
def Client.execute (client : Client) : TemporalCommand → Except GatewayError GatewayOutcome
  | .start workflowId _ taskQueue input =>
    match client.startWorkflow taskQueue workflowId input.scope input.jobId with
    | .started => .ok .accepted
    | .alreadyStarted => .ok .alreadyExists
    | .failed => .error .unavailable
  | .cancel workflowId requestId => match client.cancel workflowId requestId with
    | .cancelled => .ok .accepted
    | .notFound => .ok .alreadyExists
    | .failed => .error .unavailable

theorem execute_ok {client : Client} (h : client.Available) (command : TemporalCommand) :
    ∃ outcome, client.execute command = .ok outcome := by
  cases command with
  | start workflowId requestId taskQueue input =>
    have hreply := h.1 taskQueue workflowId input.scope input.jobId
    simp only [Client.execute]
    cases hr : client.startWorkflow taskQueue workflowId input.scope input.jobId with
    | started => exact ⟨_,rfl⟩
    | alreadyStarted => exact ⟨_,rfl⟩
    | failed => exact absurd hr hreply
  | cancel workflowId requestId =>
    have hreply := h.2 workflowId requestId
    simp only [Client.execute]
    cases hr : client.cancel workflowId requestId with
    | cancelled => exact ⟨_,rfl⟩
    | notFound => exact ⟨_,rfl⟩
    | failed => exact absurd hr hreply

def validTaskQueue (taskQueue : String) : Bool :=
  taskQueue != "" && decide (taskQueue.utf8ByteSize ≤ 127) &&
    taskQueue.toList.all fun c => c.isAlphanum || c == '-' || c == '_' || c == '.'

section
variable (sha256 : List UInt8 → List UInt8)

/-- The first half of the digest over the three identifiers, which zero bytes
separate. -/
def scopedWorkflowId (scope : Scope) (jobId : JobId) : String :=
  let encoded := hexEncode (sha256 (scope.productId.asStr.toUTF8.toList++[0]++
    scope.tenantId.asStr.toUTF8.toList++[0]++jobId.asStr.toUTF8.toList))
  "ocr-v1-" ++ String.ofList (encoded.toList.take 32)

structure TemporalStarter where
  gateway : Client
  taskQueue : String
  valid : validTaskQueue taskQueue = true

def TemporalStarter.dispatch (temporal : TemporalStarter) (dispatch : WorkflowDispatch) :
    Except WorkflowDispatchError WorkflowDispatchOutcome :=
  if dispatch.workflowId ≠ scopedWorkflowId sha256 dispatch.scope dispatch.jobId then
    .error .unavailable
  else match WorkflowInput.new dispatch.scope dispatch.jobId dispatch.pageCount with
  | none => .error .unavailable
  | some input =>
    let requestId := "ocr-outbox-" ++ toString dispatch.eventId
    let command := match dispatch.action with
      | .start => .start dispatch.workflowId requestId temporal.taskQueue input
      | .cancel => .cancel dispatch.workflowId requestId
    match temporal.gateway.execute command with
    | .ok .accepted => .ok .started
    | .ok .alreadyExists => .ok .existing
    | .error .unavailable => .error .unavailable

structure CheckpointedTemporalStarter where
  checkpoint : DurableWorkflowStarter
  temporal : TemporalStarter

def CheckpointedTemporalStarter.dispatch (starter : CheckpointedTemporalStarter) (s : Store)
    (dispatch : WorkflowDispatch) : Dispatched :=
  match starter.checkpoint.dispatch s dispatch with
  | (.error e, s') => (.error e, s')
  | (.ok checkpointed, s') => match starter.temporal.dispatch sha256 dispatch with
    | .error e => (.error e, s')
    | .ok outcome =>
      (.ok (if checkpointed = .started ∨ outcome = .started then .started else .existing), s')

/-- The dispatch which the relay makes of an event. -/
def workflowDispatch (scope : Scope) (event : StoredJobOutboxEvent) : WorkflowDispatch where
  eventId := event.eventId
  workflowId := scopedWorkflowId sha256 scope event.jobId
  scope := scope
  jobId := event.jobId
  pageCount := event.pageCount
  action := match event.eventType with
    | .accepted => .start
    | .cancellationRequested => .cancel

inductive RelayOutcome where
  | idle
  | published (n : ℕ)
  | retryable (n : ℕ)
  | leaseLost (n : ℕ)
  deriving DecidableEq, Repr

/-- The loop of the relay: a refused dispatch leaves the later events of the
batch alone. The publication after `n` published events has its own instant. -/
def relayEvents (starter : CheckpointedTemporalStarter) (clock : ℕ → ℤ) (scope : Scope)
    (owner : String) : Store → ℕ → List StoredJobOutboxEvent → Except Error RelayOutcome × Store
  | s, n, [] => (.ok (.published n), s)
  | s, n, event::events =>
    match starter.dispatch sha256 s (workflowDispatch sha256 scope event) with
    | (.error _, s') => (.ok (.retryable n), s')
    | (.ok _, s') => match publishJobOutbox s' (clock n) scope event.eventId owner with
      | .error e => (.error e, s')
      | .ok (.published, s'') | .ok (.existing, s'') =>
        relayEvents starter clock scope owner s'' (n+1) events
      | .ok (.leaseLost, s'') | .ok (.notFound, s'') => (.ok (.leaseLost n), s'')

def relayScope (starter : CheckpointedTemporalStarter) (s : Store) (now : ℤ) (clock : ℕ → ℤ)
    (scope : Scope) (owner : String) (limit : ℕ) : Except Error RelayOutcome × Store :=
  match claimJobOutbox s now scope ⟨owner,limit⟩ with
  | .error e => (.error e, s)
  | .ok ([], s') => (.ok .idle, s')
  | .ok (events, s') => relayEvents sha256 starter clock scope owner s' 0 events

end

end DocumentIntelligence.Dispatch
