import DocumentIntelligence.PageWorkflowStore

/-!
# The checkpointed page runner

One pass claims a batch of pages, saves the claim, processes the pages and saves
what became of them. The pages are processed concurrently, so their outcomes
arrive in any order. A pass which lost pages to the provider's quota and leaves
the workflow running reports that, after it saved the failures.
-/

set_option autoImplicit false

namespace DocumentIntelligence.PageRunner
open Identifiers hiding Error
open Schema PageWorkflowStore
open PageCheckpoint (PageWorkflow PageTask PageWorkflowStatus activityKey)

inductive PageProcessError where
  | rateLimited
  | retryable
  | permanent
  deriving DecidableEq, Repr

abbrev PageOutcome := Except PageProcessError StoredPageArtifact

inductive PageRunnerOutcome where
  | idle (status : PageWorkflowStatus)
  | progressed (status : PageWorkflowStatus)
  deriving DecidableEq, Repr

def PageRunnerOutcome.status : PageRunnerOutcome → PageWorkflowStatus
  | .idle status | .progressed status => status

inductive PageRunnerError where
  | rateLimited
  | invalidConfiguration
  | notFound
  | retryableConflict
  | domain (e : PageCheckpoint.Error)
  | store (e : Schema.Error)
  deriving DecidableEq, Repr

structure CheckpointedPageRunner where
  batchSize : ℕ
  concurrency : ℕ
  batch_bounded : 1 ≤ batchSize ∧ batchSize ≤ 64
  concurrency_bounded : concurrency ≠ 0 ∧ concurrency ≤ batchSize
  deriving DecidableEq, Repr

def CheckpointedPageRunner.new (batchSize concurrency : ℕ) :
    Except PageRunnerError CheckpointedPageRunner :=
  if h : (1 ≤ batchSize ∧ batchSize ≤ 64) ∧ concurrency ≠ 0 ∧ concurrency ≤ batchSize then
    .ok ⟨batchSize,concurrency,h.1,h.2⟩
  else .error .invalidConfiguration

/-- A task which a claim of the job's checkpoint can hand out. -/
structure ClaimedTask (jobId : JobId) (task : PageTask) : Prop where
  page : 1 ≤ task.page ∧ task.page ≤ PageCheckpoint.maximumPageCount
  attempt : 1 ≤ task.attempt ∧ task.attempt ≤ PageCheckpoint.maximumPageAttempts
  key : task.activityKey = activityKey jobId task.page task.attempt

/-- An artifact which the processor wrote for the task. -/
structure WrittenFor (task : PageTask) (artifact : StoredPageArtifact) : Prop where
  task_eq : StoredPageArtifact.task artifact = task
  valid : validatePageArtifact artifact = true
  bucket : 3 ≤ artifact.objectBucket.length

/-- How the processing of a batch may turn out: an outcome for each task, in the
order of completion, whose artifacts were written for their tasks. -/
structure Processing (jobId : JobId) where
  outcomes : List PageTask → List (PageTask × PageOutcome)
  perm : ∀ tasks, ((outcomes tasks).map (·.1)).Perm tasks
  written : ∀ tasks, ∀ x ∈ outcomes tasks, ClaimedTask jobId x.1 →
    ∀ artifact, x.2 = .ok artifact → WrittenFor x.1 artifact

structure Recorded where
  workflow : PageWorkflow
  artifacts : List StoredPageArtifact
  rateLimited : Bool
  deriving DecidableEq, Repr

/-- The record of an outcome in the checkpoint. -/
def recordOf : PageOutcome → PageCheckpoint.Record
  | .ok _ => .success
  | .error .retryable | .error .rateLimited => .retryableFailure
  | .error .permanent => .permanentFailure

/-- A quota failure which leaves attempts to its page. -/
def limits (maxAttempts : ℕ) (x : PageTask × PageOutcome) : Bool :=
  match x.2 with
  | .error .rateLimited => decide (x.1.attempt < maxAttempts)
  | _ => false

def artifactOf (x : PageTask × PageOutcome) : List StoredPageArtifact :=
  match x.2 with
  | .ok artifact => [artifact]
  | .error _ => []

def recordOutcome (recorded : Recorded) (x : PageTask × PageOutcome) :
    Except PageCheckpoint.Error Recorded :=
  (recorded.workflow.record x.1 (recordOf x.2)).map fun workflow =>
    { workflow := workflow
      artifacts := recorded.artifacts++artifactOf x
      rateLimited := recorded.rateLimited || limits workflow.maxAttempts x }

def recordOutcomes (recorded : Recorded) (xs : List (PageTask × PageOutcome)) :
    Except PageCheckpoint.Error Recorded :=
  xs.foldlM recordOutcome recorded

variable {jobId : JobId}

def runOnce (runner : CheckpointedPageRunner) (s : Store) (scope : Scope)
    (processing : Processing jobId) : Except PageRunnerError PageRunnerOutcome × Store :=
  match loadPageWorkflow s scope jobId with
  | none => (.error .notFound, s)
  | some stored => match stored.workflow.claimReady runner.batchSize with
    | .error e => (.error (.domain e), s)
    | .ok (workflow, []) => (.ok (.idle workflow.status), s)
    | .ok (workflow, tasks) => match savePageWorkflow s scope jobId stored.revision workflow with
      | .error e => (.error (.store e), s)
      | .ok (.conflict, s) => (.error .retryableConflict, s)
      | .ok (.notFound, s) => (.error .notFound, s)
      | .ok (.saved stored, s) =>
        match recordOutcomes ⟨stored.workflow,[],false⟩ (processing.outcomes tasks) with
        | .error e => (.error (.domain e), s)
        | .ok recorded => match savePageWorkflowWithArtifacts s scope jobId stored.revision
            recorded.workflow recorded.artifacts with
          | .error e => (.error (.store e), s)
          | .ok (.conflict, s) => (.error .retryableConflict, s)
          | .ok (.notFound, s) => (.error .notFound, s)
          | .ok (.saved _, s) =>
            if recorded.rateLimited ∧ recorded.workflow.status = .running then
              (.error .rateLimited, s)
            else (.ok (.progressed recorded.workflow.status), s)

end DocumentIntelligence.PageRunner
