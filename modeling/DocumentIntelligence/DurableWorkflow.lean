import DocumentIntelligence.PagePasses

/-!
# The durable document workflow

An iteration of the workflow is one activity, which repeats a failed pass while
the failure is retryable and the activity policy has attempts left. A run makes
fifty iterations and continues as new, until the iteration limit. The workflow
ends with the first status which is not running.
-/

set_option autoImplicit false

namespace DocumentIntelligence.DurableWorkflow
open Identifiers hiding Error
open Schema PageWorkflowStore PageRunner
open PageCheckpoint (PageWorkflowStatus)

def maxDurableRunnerIterations : ℕ := 3000
def durableIterationsPerRun : ℕ := 50

/-- `maximum_attempts` of `ActivityPolicy::page_ocr`. -/
def maximumAttempts : ℕ := 3

inductive DurableActivityStatus where
  | running
  | completed
  | partialResult
  | cancelled
  deriving DecidableEq, Repr

inductive DurableExecutionErrorKind where
  | providerRateLimited
  | dependencyUnavailable
  | revisionConflict
  | invalidInput
  | scopeNotFound
  | iterationLimit
  deriving DecidableEq, Repr

def DurableExecutionErrorKind.isRetryable : DurableExecutionErrorKind → Bool
  | .dependencyUnavailable | .providerRateLimited | .revisionConflict => true
  | _ => false

/-- The kinds which the executor of the finalizer reports. -/
inductive FinalizationErrorKind where
  | invalidInput
  | scopeNotFound
  | dependencyUnavailable
  deriving DecidableEq, Repr

def FinalizationErrorKind.kind : FinalizationErrorKind → DurableExecutionErrorKind
  | .invalidInput => .invalidInput
  | .scopeNotFound => .scopeNotFound
  | .dependencyUnavailable => .dependencyUnavailable

def durableStatus : PageWorkflowStatus → DurableActivityStatus
  | .running => .running
  | .completed => .completed
  | .partialResult => .partialResult
  | .cancelled => .cancelled

def errorKind : PageRunnerError → DurableExecutionErrorKind
  | .rateLimited => .providerRateLimited
  | .retryableConflict => .revisionConflict
  | .notFound => .scopeNotFound
  | .invalidConfiguration | .domain _ => .invalidInput
  | .store _ => .dependencyUnavailable

/-- The store, and how many attempts of activities were made so far. -/
structure World where
  store : Store
  attempts : ℕ

/-- The identifiers of the input stay the same over all runs. -/
structure DurableWorkflowRunInput where
  nextIteration : ℕ
  runNumber : ℕ
  deriving DecidableEq, Repr

namespace DurableWorkflowRunInput

def first : DurableWorkflowRunInput := ⟨1,1⟩

def lastIteration (input : DurableWorkflowRunInput) : ℕ :=
  min (input.nextIteration+(durableIterationsPerRun-1)) maxDurableRunnerIterations

def iterationRange (input : DurableWorkflowRunInput) : List ℕ :=
  List.range' input.nextIteration (input.lastIteration+1-input.nextIteration)

def nextRun (input : DurableWorkflowRunInput) : Option DurableWorkflowRunInput :=
  if input.lastIteration+1 ≤ maxDurableRunnerIterations then
    some ⟨input.lastIteration+1,input.runNumber+1⟩
  else none

end DurableWorkflowRunInput

inductive WorkflowOutcome where
  | completed (status : DurableActivityStatus) (runnerIterations runs : ℕ)
  | failed (kind : DurableExecutionErrorKind)
  deriving DecidableEq, Repr

inductive RunOutcome where
  | ended (outcome : WorkflowOutcome)
  | continueAsNew (next : DurableWorkflowRunInput)
  deriving DecidableEq, Repr

/-- The iterations for which there are activity options. -/
def validIteration (iteration : ℕ) : Bool :=
  decide (1 ≤ iteration ∧ iteration ≤ maxDurableRunnerIterations)

section
variable {jobId : JobId} (runner : CheckpointedPageRunner) (scope : Scope)
  (processing : ℕ → Processing jobId) (finalization : Except FinalizationErrorKind Unit)

def attempt (world : World) : Except DurableExecutionErrorKind DurableActivityStatus × World :=
  let result := runOnce runner world.store scope (processing world.attempts)
  (match result.1 with
    | .ok outcome => .ok (durableStatus outcome.status)
    | .error e => .error (errorKind e), ⟨result.2,world.attempts+1⟩)

/-- An activity with so many retries left. -/
def executeActivity : ℕ → World → Except DurableExecutionErrorKind DurableActivityStatus × World
  | 0, world => attempt runner scope processing world
  | retries+1, world => match attempt runner scope processing world with
    | (.ok status, world) => (.ok status, world)
    | (.error kind, world) =>
      if kind.isRetryable then executeActivity retries world else (.error kind, world)

def runCheckpointedPages (world : World) :
    Except DurableExecutionErrorKind DurableActivityStatus × World :=
  executeActivity runner scope processing (maximumAttempts-1) world

/-- The end of the workflow in a status which is not running. Only a result is
finalized, whose outcome is given. -/
def finish (status : DurableActivityStatus) (iteration runNumber : ℕ) : WorkflowOutcome :=
  match (if status = .completed ∨ status = .partialResult then finalization else .ok ()) with
  | .error e => .failed e.kind
  | .ok _ => .completed status iteration runNumber

def iterate (input : DurableWorkflowRunInput) : List ℕ → World → RunOutcome × World
  | [], world => match input.nextRun with
    | some next => (.continueAsNew next, world)
    | none => (.ended (.failed .iterationLimit), world)
  | iteration::rest, world =>
    if !validIteration iteration then (.ended (.failed .invalidInput), world)
    else match runCheckpointedPages runner scope processing world with
      | (.error kind, world) => (.ended (.failed kind), world)
      | (.ok .running, world) => iterate input rest world
      | (.ok status, world) =>
        (.ended (finish finalization status iteration input.runNumber), world)

def run (input : DurableWorkflowRunInput) (world : World) : RunOutcome × World :=
  iterate runner scope processing finalization input input.iterationRange world

theorem iterate_next {input next : DurableWorkflowRunInput} {iterations : List ℕ}
    {world world' : World}
    (h : iterate runner scope processing finalization input iterations world =
      (.continueAsNew next,world')) : input.nextRun = some next := by
  induction iterations generalizing world with
  | nil =>
    simp only [iterate] at h
    split at h
    · rename_i hnext
      cases h
      exact hnext
    · cases h
  | cons iteration rest ih =>
    simp only [iterate] at h
    split at h
    · cases h
    · split at h
      · cases h
      · exact ih h
      · cases h

/-- A run which continues has made its iterations. -/
theorem nextRun_later {input next : DurableWorkflowRunInput} (h : input.nextRun = some next) :
    input.nextIteration ≤ maxDurableRunnerIterations ∧
      next.nextIteration = input.lastIteration+1 ∧
      input.lastIteration+1 ≤ maxDurableRunnerIterations := by
  unfold DurableWorkflowRunInput.nextRun at h
  split at h
  · rename_i hlast
    cases h
    have hle := hlast
    simp only [DurableWorkflowRunInput.lastIteration] at hle
    exact ⟨by omega,rfl,hlast⟩
  · cases h

theorem lastIteration_le {input : DurableWorkflowRunInput}
    (h : input.nextIteration ≤ maxDurableRunnerIterations) :
    input.nextIteration ≤ input.lastIteration := by
  simp only [DurableWorkflowRunInput.lastIteration]
  omega

/-- The runs of the workflow, from the given input on. -/
def documentWorkflow (input : DurableWorkflowRunInput) (world : World) :
    WorkflowOutcome × World :=
  match hrun : run runner scope processing finalization input world with
  | (.ended outcome, world) => (outcome, world)
  | (.continueAsNew next, world) => documentWorkflow next world
termination_by maxDurableRunnerIterations+1-input.nextIteration
decreasing_by
  obtain ⟨hle,hnext,hlast⟩ := nextRun_later (iterate_next runner scope processing finalization hrun)
  have := lastIteration_le hle
  omega

/-- The rule of the iterations: what one activity keeps while it reports
`running`, and what it establishes where the workflow ends. -/
structure IterationRule (Q : ℕ → World → Prop) (P : WorkflowOutcome → World → Prop) : Prop where
  failure : ∀ i world kind world', Q i world → i ≤ maxDurableRunnerIterations →
    runCheckpointedPages runner scope processing world = (.error kind,world') →
    P (.failed kind) world'
  progress : ∀ i world world', Q i world → i ≤ maxDurableRunnerIterations →
    runCheckpointedPages runner scope processing world = (.ok .running,world') → Q (i+1) world'
  finish : ∀ i world status world' runs, Q i world → i ≤ maxDurableRunnerIterations →
    runCheckpointedPages runner scope processing world = (.ok status,world') → status ≠ .running →
    P (finish finalization status i runs) world'
  limit : ∀ world, Q (maxDurableRunnerIterations+1) world → P (.failed .iterationLimit) world

variable {runner scope processing finalization}

theorem iterate_rule {Q : ℕ → World → Prop} {P : WorkflowOutcome → World → Prop}
    (rule : IterationRule runner scope processing finalization Q P) (input : DurableWorkflowRunInput)
    {world : World} {i k : ℕ} (hlow : 1 ≤ i) (hlast : i+k = input.lastIteration+1)
    (h : Q i world) :
    match iterate runner scope processing finalization input (List.range' i k) world with
    | (.ended outcome,world') => P outcome world'
    | (.continueAsNew next,world') => input.nextRun = some next ∧ Q (input.lastIteration+1) world' := by
  have hbound : input.lastIteration ≤ maxDurableRunnerIterations := Nat.min_le_right _ _
  induction k generalizing i world with
  | zero =>
    rw [Nat.add_zero] at hlast
    rw [hlast] at h
    simp only [List.range'_zero, iterate]
    cases hnext : input.nextRun with
    | some next => exact ⟨rfl,h⟩
    | none =>
      have hend : input.lastIteration+1 = maxDurableRunnerIterations+1 := by
        unfold DurableWorkflowRunInput.nextRun at hnext
        split at hnext
        · cases hnext
        · omega
      exact rule.limit world (hend ▸ h)
  | succ k ih =>
    have hi : i ≤ maxDurableRunnerIterations := by omega
    have hvalid : validIteration i = true := decide_eq_true ⟨hlow,hi⟩
    simp only [List.range'_succ, iterate, hvalid, Bool.not_true, Bool.false_eq_true, if_false]
    rcases hrun : runCheckpointedPages runner scope processing world with ⟨kind | status,world'⟩
    · exact rule.failure i world kind world' h hi hrun
    · by_cases hstatus : status = .running
      · rw [hstatus] at hrun ⊢
        exact ih (by omega) (by omega) (rule.progress i world world' h hi hrun)
      · have hend := rule.finish i world status world' input.runNumber h hi hrun hstatus
        cases status with
        | running => exact absurd rfl hstatus
        | _ => exact hend

/-- The rule of the workflow, over all its runs. -/
theorem documentWorkflow_rule {Q : ℕ → World → Prop} {P : WorkflowOutcome → World → Prop}
    (rule : IterationRule runner scope processing finalization Q P) (input : DurableWorkflowRunInput)
    {world : World}
    (hinput : 1 ≤ input.nextIteration ∧ input.nextIteration ≤ maxDurableRunnerIterations)
    (h : Q input.nextIteration world) :
    P (documentWorkflow runner scope processing finalization input world).1
      (documentWorkflow runner scope processing finalization input world).2 := by
  induction hn : maxDurableRunnerIterations+1-input.nextIteration using Nat.strong_induction_on
    generalizing input world with
  | _ n ih =>
    have hle := lastIteration_le hinput.2
    have hiterate := iterate_rule rule input (k := input.lastIteration+1-input.nextIteration)
      hinput.1 (by omega) h
    rw [documentWorkflow]
    split
    · rename_i outcome world' hrun
      have hrange : iterate runner scope processing finalization input
          (List.range' input.nextIteration (input.lastIteration+1-input.nextIteration)) world =
          (.ended outcome,world') := hrun
      rw [hrange] at hiterate
      exact hiterate
    · rename_i next world' hrun
      have hrange : iterate runner scope processing finalization input
          (List.range' input.nextIteration (input.lastIteration+1-input.nextIteration)) world =
          (.continueAsNew next,world') := hrun
      rw [hrange] at hiterate
      obtain ⟨hnext,hq⟩ := hiterate
      obtain ⟨_,hstart,hlast⟩ := nextRun_later hnext
      rw [← hstart] at hq hlast
      exact ih _ (by omega) next ⟨by omega,hlast⟩ hq rfl

end

end DocumentIntelligence.DurableWorkflow
