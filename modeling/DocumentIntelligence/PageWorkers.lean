import DocumentIntelligence.Dispatch
import DocumentIntelligence.OutboxExhaustion
import DocumentIntelligence.PageHistories
import DocumentIntelligence.PagePasses

/-!
# Workers on one job

Passes, starts and cancellations of one job, each cut at its transactions. A
worker keeps what it loaded, however old that became meanwhile, and loses it in a
crash. The revision of the checkpoint lets only the holder of the current copy
save, so the checkpoint and the artifacts of its succeeded pages stay together.
-/

set_option autoImplicit false

namespace DocumentIntelligence.PageWorkers
open Identifiers hiding Error
open Schema Jobs Outbox PageWorkflowStore PageRunner PageRounds PagePasses Commands Transition
open PageCheckpoint hiding Error
open PageHistories (outcomeOf outcomeOf_claim outcomeOf_record)

/-- What a worker remembers between two transactions. -/
inductive Phase where
  | idle
  | loaded (stored : StoredPageWorkflow)
  | processing (stored : StoredPageWorkflow) (tasks : List PageTask)
  | cancelling (eventId : ℕ) (stored : Option StoredPageWorkflow)
  | checkpointCancelled (eventId : ℕ)
  | delivered (eventId : ℕ)
  deriving DecidableEq, Repr

structure System where
  store : Store
  workers : ℕ → Phase

inductive Action where
  | other (a : OutboxExhaustion.Action)
  | load (i : ℕ)
  | claim (i limit : ℕ)
  | record (i : ℕ) (outcomes : List (PageTask × PageOutcome))
  | start (i eventId pageCount maxAttempts : ℕ)
  | cancelLoad (i eventId : ℕ)
  | cancelWrite (i pageCount maxAttempts : ℕ)
  | cancelComplete (i : ℕ)
  | publish (i : ℕ) (now : ℤ) (owner : String)
  | crash (i : ℕ)

/-- The transactions which belong to no worker here: they write no checkpoint
and publish nothing. -/
def apart : OutboxExhaustion.Action → Bool
  | .command _ (.createPageWorkflow _ _ _) => false
  | .command _ (.savePageWorkflow _ _ _ _ _) => false
  | .publish _ _ _ _ => false
  | _ => true

/-- The outcomes of a batch: one for each task, with artifacts of their tasks. -/
def answers (tasks : List PageTask) (outcomes : List (PageTask × PageOutcome)) : Bool :=
  decide ((outcomes.map (·.1)).Perm tasks) &&
    outcomes.all fun x => match x.2 with
      | .ok artifact => StoredPageArtifact.task artifact == x.1
      | .error _ => true

def System.enter (σ : System) (i : ℕ) (phase : Phase) (store : Store) : System :=
  ⟨store,Function.update σ.workers i phase⟩

section
variable (scope : Scope) (jobId : JobId)

/-- The event of the job which the relay dispatches. -/
def hasEvent (s : Store) (eventId : ℕ) (eventType : EventType) : Bool :=
  s.outbox.any fun row => row.eventId == eventId && row.scope == scope && row.jobId == jobId &&
    row.eventType == eventType

def claimStep (σ : System) (i limit : ℕ) (stored : StoredPageWorkflow) : System :=
  match stored.workflow.claimReady limit with
  | .error _ | .ok (_, []) => σ.enter i .idle σ.store
  | .ok (workflow, task::tasks) =>
    match savePageWorkflow σ.store scope jobId stored.revision workflow with
    | .ok (.saved stored, s) => σ.enter i (.processing stored (task::tasks)) s
    | .ok (.conflict, s) | .ok (.notFound, s) => σ.enter i .idle s
    | .error _ => σ.enter i .idle σ.store

def recordStep (σ : System) (i : ℕ) (stored : StoredPageWorkflow)
    (outcomes : List (PageTask × PageOutcome)) : System :=
  match recordOutcomes ⟨stored.workflow,[],false⟩ outcomes with
  | .error _ => σ.enter i .idle σ.store
  | .ok recorded => σ.enter i .idle (commit σ.store (savePageWorkflowWithArtifacts σ.store scope
      jobId stored.revision recorded.workflow recorded.artifacts))

def startStep (σ : System) (i eventId pageCount maxAttempts : ℕ) : System :=
  match PageWorkflow.new jobId pageCount maxAttempts with
  | .error _ => σ.enter i .idle σ.store
  | .ok workflow => match createPageWorkflow σ.store scope jobId workflow with
    | .ok (.created _, s) | .ok (.existing _, s) => σ.enter i (.delivered eventId) s
    | .ok (.conflict, s) | .ok (.notFound, s) => σ.enter i .idle s
    | .error _ => σ.enter i .idle σ.store

def cancelCreateStep (σ : System) (i eventId pageCount maxAttempts : ℕ) : System :=
  match PageWorkflow.new jobId pageCount maxAttempts with
  | .error _ => σ.enter i .idle σ.store
  | .ok workflow => match createPageWorkflow σ.store scope jobId workflow.requestCancellation with
    | .ok (.created _, s) => σ.enter i (.delivered eventId) s
    | .ok (.existing stored, s) => σ.enter i (.cancelling eventId (some stored)) s
    | .ok (.conflict, s) | .ok (.notFound, s) => σ.enter i .idle s
    | .error _ => σ.enter i .idle σ.store

def cancelStoredStep (σ : System) (i eventId : ℕ) (stored : StoredPageWorkflow) : System :=
  if stored.workflow.status = .cancelled then σ.enter i (.checkpointCancelled eventId) σ.store
  else match savePageWorkflow σ.store scope jobId stored.revision
      stored.workflow.requestCancellation with
    | .ok (.saved _, s) => σ.enter i (.checkpointCancelled eventId) s
    | .ok (.conflict, s) | .ok (.notFound, s) => σ.enter i .idle s
    | .error _ => σ.enter i .idle σ.store

def cancelCompleteStep (σ : System) (i eventId : ℕ) : System :=
  match completeCancellation σ.store scope jobId with
  | .ok (.cancelled _, s) | .ok (.existing _, s) => σ.enter i (.delivered eventId) s
  | .ok (.notCancellable _, s) | .ok (.notFound, s) => σ.enter i .idle s
  | .error _ => σ.enter i .idle σ.store

def step (σ : System) : Action → System
  | .other a => if apart a then ⟨OutboxExhaustion.step σ.store a,σ.workers⟩ else σ
  | .load i => match loadPageWorkflow σ.store scope jobId with
    | some stored => σ.enter i (.loaded stored) σ.store
    | none => σ.enter i .idle σ.store
  | .claim i limit => match σ.workers i with
    | .loaded stored => claimStep scope jobId σ i limit stored
    | _ => σ
  | .record i outcomes => match σ.workers i with
    | .processing stored tasks =>
      if answers tasks outcomes then recordStep scope jobId σ i stored outcomes else σ
    | _ => σ
  | .start i eventId pageCount maxAttempts =>
    if hasEvent scope jobId σ.store eventId .accepted then
      startStep scope jobId σ i eventId pageCount maxAttempts
    else σ
  | .cancelLoad i eventId =>
    if hasEvent scope jobId σ.store eventId .cancellationRequested then
      σ.enter i (.cancelling eventId (loadPageWorkflow σ.store scope jobId)) σ.store
    else σ
  | .cancelWrite i pageCount maxAttempts => match σ.workers i with
    | .cancelling eventId none => cancelCreateStep scope jobId σ i eventId pageCount maxAttempts
    | .cancelling eventId (some stored) => cancelStoredStep scope jobId σ i eventId stored
    | _ => σ
  | .cancelComplete i => match σ.workers i with
    | .checkpointCancelled eventId => cancelCompleteStep scope jobId σ i eventId
    | _ => σ
  | .publish i now owner => match σ.workers i with
    | .delivered eventId =>
      σ.enter i .idle (commit σ.store (publishJobOutbox σ.store now scope eventId owner))
    | _ => σ
  | .crash i => σ.enter i .idle σ.store

end

section Pages
variable {scope : Scope} {jobId : JobId}

/-- What one save makes of the checkpoint, with the artifacts which it adds. -/
structure Saves (w w' : PageWorkflow) (artifacts : List StoredPageArtifact) : Prop where
  jobId : w'.jobId = w.jobId
  outcomes : ∀ (i : ℕ) p, w.pages[i]? = some p →
    ∃ p', w'.pages[i]? = some p' ∧ ∀ a r, outcomeOf p a r → outcomeOf p' a r
  succeeded : ∀ task, w'.isSuccessfulTask task = true ↔
    w.isSuccessfulTask task = true ∨ ∃ a ∈ artifacts, task = StoredPageArtifact.task a
  pages : (artifacts.map (·.page)).Nodup

theorem saves_claim {w w' : PageWorkflow} {b : ℕ} (hplan : SamePlan w w')
    (hpages : w'.pages = (claimPages w.jobId b 1 w.pages).1) : Saves w w' [] where
  jobId := hplan.jobId
  outcomes := by
    intro i p hp
    rw [hpages, claimPages_get, hp, Option.map_some]
    refine ⟨_,rfl,?_⟩
    intro a r hout
    split
    · exact (outcomeOf_claim (valid_get hp) w.attempts_bounded.2 a r).mpr hout
    · exact hout
  succeeded := by
    intro task
    simp only [List.not_mem_nil, false_and, exists_false, or_false]
    constructor
    · intro h
      rw [isSuccessfulTask_iff] at h ⊢
      rw [hplan.jobId, hpages, claimPages_get] at h
      refine ⟨h.1,h.2.1,?_⟩
      obtain ⟨p,hp,hclaim⟩ := Option.map_eq_some_iff.mp h.2.2
      rw [hp]
      split at hclaim
      · cases p <;> simp [claim, PageProgress.claimAttempt] at hclaim ⊢
        exact hclaim
      · rw [hclaim]
    · exact claim_keeps hplan hpages task
  pages := List.nodup_nil

theorem saves_cancellation (w : PageWorkflow) : Saves w w.requestCancellation [] where
  jobId := rfl
  outcomes := fun _ p hp => ⟨p,hp,fun _ _ h => h⟩
  succeeded := by
    intro task
    simp only [List.not_mem_nil, false_and, exists_false, or_false]
    rw [isSuccessfulTask_iff, isSuccessfulTask_iff]
    exact Iff.rfl
  pages := List.nodup_nil

theorem saves_outcomes {w w' : PageWorkflow} {xs : List (PageTask × PageOutcome)}
    (hout : Outcomes w xs w') (hactive : ∀ x ∈ xs, w.activeProgress x.1 = some (x.1.page-1))
    (hnodup : (xs.map (·.1.page)).Nodup)
    (hwritten : ∀ x ∈ xs, ∀ a, x.2 = .ok a → StoredPageArtifact.task a = x.1) :
    Saves w w' (xs.flatMap artifactOf) where
  jobId := hout.plan.jobId
  outcomes := by
    intro i p hp
    by_cases hx : ∃ x ∈ xs, x.1.page-1 = i
    · obtain ⟨x,hx,rfl⟩ := hx
      have hrunning := (activeProgress_iff.mp (hactive x hx)).2.2.2
      have hattempt := PageWorkflow.activeProgress_attempt (hactive x hx)
      rw [hp, Option.some.injEq] at hrunning
      refine ⟨_,hout.recorded x hx,?_⟩
      intro a r hold
      rw [outcomeOf_record hattempt.1, ← hrunning]
      exact Or.inl hold
    · have hother : ∀ x ∈ xs, x.1.page-1 ≠ i := fun x hm heq => hx ⟨x,hm,heq⟩
      exact ⟨p,(hout.kept i hother).trans hp,fun _ _ h => h⟩
  succeeded := by
    intro task
    constructor
    · intro h
      rw [isSuccessfulTask_iff, hout.plan.jobId] at h
      by_cases hx : ∃ x ∈ xs, x.1.page-1 = task.page-1
      · right
        obtain ⟨x,hx,hpage⟩ := hx
        obtain ⟨_,hkey,hpos,_⟩ := activeProgress_iff.mp (hactive x hx)
        have hrecorded := hout.recorded x hx
        rw [hpage, h.2.2, Option.some.injEq] at hrecorded
        cases houtcome : x.2 with
        | ok artifact =>
          rw [houtcome] at hrecorded
          simp only [recordOf, Record.progress, PageProgress.succeeded.injEq] at hrecorded
          refine ⟨artifact,mem_artifacts.mpr ⟨x,hx,houtcome⟩,?_⟩
          have hsame : task.page = x.1.page := by omega
          rw [hwritten x hx artifact houtcome]
          have hkeys : task.activityKey = x.1.activityKey := by
            rw [h.2.1, hkey, hsame, hrecorded]
          exact PageTask.ext hsame hrecorded hkeys
        | error e =>
          rw [houtcome] at hrecorded
          cases e <;> simp only [recordOf, Record.progress] at hrecorded
          · split at hrecorded <;> cases hrecorded
          · split at hrecorded <;> cases hrecorded
          · cases hrecorded
      · left
        have hother : ∀ x ∈ xs, x.1.page-1 ≠ task.page-1 := fun x hm heq => hx ⟨x,hm,heq⟩
        rw [isSuccessfulTask_iff, ← hout.kept _ hother]
        exact h
    · rintro (h | ⟨a,ha,rfl⟩)
      · exact outcomes_keep hout hactive task h
      · obtain ⟨x,hx,houtcome⟩ := mem_artifacts.mp ha
        obtain ⟨_,hkey,hpos,_⟩ := activeProgress_iff.mp (hactive x hx)
        have hrecorded := hout.recorded x hx
        rw [houtcome] at hrecorded
        rw [hwritten x hx a houtcome, isSuccessfulTask_iff, hout.plan.jobId]
        exact ⟨hpos,hkey,hrecorded⟩
  pages := by
    have hpage : ∀ x ∈ xs, ∀ a, x.2 = .ok a → a.page = x.1.page := by
      intro x hx a ha
      rw [← hwritten x hx a ha]
      rfl
    exact (artifacts_sublist hpage).nodup hnodup

/-- The checkpoint which a starter or a canceller creates. -/
structure Untouched (jobId : JobId) (w : PageWorkflow) : Prop where
  jobId_eq : w.jobId = jobId
  pending : ∀ p ∈ w.pages, p = .pending 0

variable (scope jobId) in
/-- What a step does to the checkpoint and the artifacts of the job. -/
inductive PageEffect (s : Store) : Store → Prop
  | kept {s'} : s'.pageWorkflows = s.pageWorkflows → s'.pageArtifacts = s.pageArtifacts →
      PageEffect s s'
  | created {s'} (workflow : PageWorkflow) : (∀ row ∈ s.pageWorkflows, row.jobId ≠ jobId) →
      Untouched jobId workflow →
      s'.pageWorkflows = s.pageWorkflows++[⟨jobId,scope,0,workflow⟩] →
      s'.pageArtifacts = s.pageArtifacts → PageEffect s s'
  | saved {s'} (stored : StoredPageWorkflow) (workflow : PageWorkflow)
      (artifacts : List StoredPageArtifact) : loadPageWorkflow s scope jobId = some stored →
      stored.workflow.cancelled = false → Saves stored.workflow workflow artifacts →
      artifactChecks s jobId artifacts = true →
      s'.pageWorkflows = (saveRow s scope jobId workflow artifacts).pageWorkflows →
      s'.pageArtifacts = s.pageArtifacts++artifacts.map (fun a => ⟨jobId,scope,a⟩) →
      PageEffect s s'

theorem load_created {s s' : Store} {workflow : PageWorkflow}
    (hfresh : ∀ row ∈ s.pageWorkflows, row.jobId ≠ jobId)
    (hrows : s'.pageWorkflows = s.pageWorkflows++[⟨jobId,scope,0,workflow⟩]) :
    loadPageWorkflow s scope jobId = none ∧
      loadPageWorkflow s' scope jobId = some ⟨workflow,0⟩ := by
  have hnone : s.pageWorkflows.find? (isPageWorkflow scope jobId) = none := by
    rw [List.find?_eq_none]
    intro row hrow hkey
    simp only [isPageWorkflow, Bool.and_eq_true, beq_iff_eq] at hkey
    exact hfresh row hrow hkey.2
  refine ⟨by rw [loadPageWorkflow, hnone]; rfl,?_⟩
  rw [loadPageWorkflow, hrows, List.find?_append, hnone]
  simp [isPageWorkflow, storedPageWorkflow]

theorem load_saved {s s' : Store} {stored : StoredPageWorkflow} {workflow : PageWorkflow}
    {artifacts : List StoredPageArtifact} (h : loadPageWorkflow s scope jobId = some stored)
    (hrows : s'.pageWorkflows = (saveRow s scope jobId workflow artifacts).pageWorkflows) :
    loadPageWorkflow s' scope jobId = some ⟨workflow,stored.revision+1⟩ := by
  obtain ⟨row,hfind,rfl⟩ := Option.map_eq_some_iff.mp h
  have hupdate := Table.find?_update (p := isPageWorkflow scope jobId) (f := fun row =>
    { row with checkpoint := workflow, revision := row.revision+1 }) (fun _ => rfl) s.pageWorkflows
  rw [hfind] at hupdate
  rw [loadPageWorkflow, hrows]
  exact congrArg (Option.map storedPageWorkflow) hupdate

/-- A save writes under the expected revision, or nothing. -/
theorem save_cases {s s' : Store} {revision : ℕ} {workflow : PageWorkflow}
    {artifacts : List StoredPageArtifact} {outcome : SavePageWorkflowOutcome}
    (h : savePageWorkflowWithArtifacts s scope jobId revision workflow artifacts =
      .ok (outcome,s')) :
    (outcome = .conflict ∨ outcome = .notFound) ∧ s' = s ∨
    ∃ stored, loadPageWorkflow s scope jobId = some stored ∧ stored.revision = revision ∧
      workflow.jobId = jobId ∧ artifactChecks s jobId artifacts = true ∧
      outcome = .saved ⟨workflow,revision+1⟩ ∧ s' = saveRow s scope jobId workflow artifacts := by
  simp only [savePageWorkflowWithArtifacts] at h
  split at h
  · cases h
  · rename_i hid
    split at h
    · cases h
    · split at h
      · cases h
        exact Or.inl ⟨Or.inr rfl,rfl⟩
      · rename_i row hfind
        split at h
        · cases h
          exact Or.inl ⟨Or.inl rfl,rfl⟩
        · rename_i hrevision
          split at h
          · cases h
          · rename_i hchecks
            cases h
            rw [not_not] at hid hrevision
            refine Or.inr ⟨storedPageWorkflow row,by rw [loadPageWorkflow, hfind]; rfl,hrevision,hid,
              by simpa using hchecks,by rw [hrevision],rfl⟩

/-- A creation inserts the checkpoint, or answers with what is stored. -/
theorem create_cases {s s' : Store} {workflow : PageWorkflow} {outcome : CreatePageWorkflowOutcome}
    (h : createPageWorkflow s scope jobId workflow = .ok (outcome,s')) :
    (outcome = .created ⟨workflow,0⟩ ∧ (∀ row ∈ s.pageWorkflows, row.jobId ≠ jobId) ∧
      s'.pageWorkflows = s.pageWorkflows++[⟨jobId,scope,0,workflow⟩] ∧
      s'.pageArtifacts = s.pageArtifacts) ∨
    s' = s ∧ ((∃ stored, outcome = .existing stored ∧
        loadPageWorkflow s scope jobId = some stored ∧ stored.workflow = workflow) ∨
      outcome = .conflict ∨ outcome = .notFound) := by
  simp only [createPageWorkflow] at h
  split at h
  · cases h
  · split at h
    · rename_i hinserts
      simp only [inserts, Bool.and_eq_true, Bool.not_eq_true', List.any_eq_false, beq_iff_eq]
        at hinserts
      split at h <;> cases h <;> exact Or.inl ⟨rfl,hinserts.2,rfl,rfl⟩
    · split at h
      · rename_i stored hload
        split at h
        · rename_i hsame
          cases h
          exact Or.inr ⟨rfl,Or.inl ⟨stored,rfl,hload,hsame⟩⟩
        · cases h
          exact Or.inr ⟨rfl,Or.inr (Or.inl rfl)⟩
      · cases h
        exact Or.inr ⟨rfl,Or.inr (Or.inr rfl)⟩

end Pages

end DocumentIntelligence.PageWorkers
