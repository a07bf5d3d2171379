import DocumentIntelligence.JobConsistency

/-!
# The lifecycle of jobs

A command changes the jobs, the results and the events of a store in one of six
ways. So a job which is finished or cancelled stays so, a result stands beside
the job exactly when the job is finished, and each job is announced once as
accepted, once as cancelled and once as finished.
-/

set_option autoImplicit false

namespace DocumentIntelligence.JobLifecycle
open Identifiers hiding Error
open Schema Uploads Jobs Outbox PageWorkflowStore Commands Transition JobConsistency

def isAllowedTransition : JobState → JobState → Bool
  | .accepted, .inspecting => true
  | .inspecting, .rejected => true
  | .inspecting, .processing => true
  | .processing, .validating => true
  | .processing, .partialResult => true
  | .validating, .completed => true
  | .validating, .reviewRequired => true
  | .accepted, .cancelling => true
  | .inspecting, .cancelling => true
  | .processing, .cancelling => true
  | .validating, .cancelling => true
  | .cancelling, .cancelled => true
  | .partialResult, .reviewRequired => true
  | _, _ => false

def Allowed (from_ to_ : JobState) : Prop := isAllowedTransition from_ to_ = true

inductive ResultLookup where
  | notFound
  | notReady (state : JobState)
  | unavailable (state : JobState)
  | ready (locator : StoredResultLocator)
  deriving DecidableEq, Repr

/-- The states which have a result. -/
def finished (status : JobState) : Bool := (terminalEvent status).isSome

/-- The result is joined to the job by the identifier of the job alone. -/
def findResult (s : Store) (scope : Scope) (jobId : JobId) : Except Error ResultLookup :=
  match s.jobs.find? (isJob scope jobId) with
  | none => .ok .notFound
  | some job => match s.results.find? (·.jobId == job.jobId) with
    | none => match job.status with
      | .accepted | .inspecting | .processing | .validating | .cancelling =>
        .ok (.notReady job.status)
      | .cancelled | .rejected => .ok (.unavailable job.status)
      | .partialResult | .reviewRequired | .completed => .error .invalidStoredResult
    | some result =>
      if !finished job.status then .error .invalidStoredResult
      else if !validateLocator result.locator then .error .invalidStoredResult
      else .ok (.ready result.locator)

/-- The announcements of which a job has at most one each. -/
inductive Stage where
  | accepted
  | cancelled
  | finished
  deriving DecidableEq, Repr

def stage : EventType → Stage
  | .accepted => .accepted
  | .cancellationRequested => .cancelled
  | .completed | .partialResult | .reviewRequired => .finished

def announcement (row : OutboxRow) : JobId × Stage := (row.jobId,stage row.eventType)

/-- What a command does to the jobs, the results and the events. -/
inductive JobEffect (s : Store) (now : ℤ) : Store → Prop
  | kept {s'} : s'.jobs = s.jobs → s'.results = s.results → s'.outbox = s.outbox → JobEffect s now s'
  | created {s'} (job : JobRow) : (∀ x ∈ s.jobs, x.jobId ≠ job.jobId) → job.status = .accepted →
      s'.jobs = s.jobs++[job] → s'.results = s.results →
      s'.outbox = s.outbox++[newEvent s.nextEventId now job.scope job.jobId .accepted] →
      JobEffect s now s'
  | started {s'} (scope : Scope) (jobId : JobId) :
      s'.jobs = Table.update (fun job => isJob scope jobId job && startable job.status)
        (setStatus .processing) s.jobs →
      s'.results = s.results → s'.outbox = s.outbox → JobEffect s now s'
  | cancelled {s'} (job : JobRow) : job ∈ s.jobs → cancellable job.status = true →
      s'.jobs = Table.update (isJob job.scope job.jobId) (setStatus .cancelled) s.jobs →
      s'.results = s.results →
      s'.outbox = s.outbox++[newEvent s.nextEventId now job.scope job.jobId .cancellationRequested] →
      JobEffect s now s'
  | cancellationCompleted {s'} (job : JobRow) : job ∈ s.jobs → job.status = .cancelling →
      s'.jobs = Table.update (isJob job.scope job.jobId) (setStatus .cancelled) s.jobs →
      s'.results = s.results → s'.outbox = s.outbox → JobEffect s now s'
  | committed {s'} (job : JobRow) (command : CommitResult) (eventType : EventType) : job ∈ s.jobs →
      (job.status = .processing ∨ job.status = .validating) →
      terminalEvent command.terminalState = some eventType →
      validateLocator command.locator = true → (∀ r ∈ s.results, r.jobId ≠ job.jobId) →
      s'.jobs = Table.update (isJob job.scope job.jobId) (setStatus command.terminalState) s.jobs →
      s'.results = s.results++[⟨job.jobId,job.scope,command.locator⟩] →
      (s'.outbox = s.outbox ∨
        s'.outbox = s.outbox++[newEvent s.nextEventId now job.scope job.jobId eventType]) →
      JobEffect s now s'

theorem uploads_results (s : Store) (action : UploadScopes.Action) :
    (UploadScopes.step s action).results = s.results := by
  cases action with
  | create now request =>
    rcases UploadScopes.create_step s now request with h | ⟨_,h⟩ <;> rw [h]
  | record now nowUtc scope uploadId record =>
    rcases UploadScopes.record_step s now nowUtc scope uploadId record with h | h <;> rw [h]
    rfl
  | claim now scope uploadId owner =>
    simp only [UploadScopes.step, claimUploadInspection]
    split
    · rfl
    · split
      · rfl
      · split <;> rfl
  | accept now scope uploadId source =>
    rw [UploadScopes.accept_step]
    split <;> rfl
  | reject now scope uploadId owner reason =>
    rw [UploadScopes.reject_step]
    split <;> rfl

theorem created_effect (s : Store) (now : ℤ) (request : CreateJob) :
    JobEffect s now (execute s now (.create request)) := by
  have hkept : JobEffect s now s := .kept rfl rfl rfl
  simp only [execute, Jobs.create]
  split
  · exact hkept
  · split
    · split <;> exact hkept
    · split
      · exact hkept
      · split
        · exact hkept
        · rename_i hfresh
          refine .created (request.row now) ?_ rfl rfl rfl rfl
          simpa [CreateJob.row] using hfresh

theorem cancelled_effect (s : Store) (now : ℤ) (scope : Scope) (jobId : JobId) :
    JobEffect s now (execute s now (.cancel scope jobId)) := by
  have hkept : JobEffect s now s := .kept rfl rfl rfl
  simp only [execute, Jobs.cancel]
  split
  · exact hkept
  · rename_i job hfind
    obtain ⟨hjob,hkey⟩ := Table.mem_of_find? hfind
    obtain ⟨rfl,rfl⟩ := (isJob_iff _ _ _).mp hkey
    split
    · rename_i hcancellable
      exact .cancelled job hjob hcancellable rfl rfl rfl
    · split <;> exact hkept

theorem cancellationCompleted_effect (s : Store) (now : ℤ) (scope : Scope) (jobId : JobId) :
    JobEffect s now (execute s now (.completeCancellation scope jobId)) := by
  have hkept : JobEffect s now s := .kept rfl rfl rfl
  simp only [execute, Jobs.completeCancellation]
  split
  · exact hkept
  · rename_i job hfind
    obtain ⟨hjob,hkey⟩ := Table.mem_of_find? hfind
    obtain ⟨rfl,rfl⟩ := (isJob_iff _ _ _).mp hkey
    split
    · exact hkept
    · rename_i hstatus
      exact .cancellationCompleted job hjob hstatus rfl rfl rfl
    · exact hkept

theorem started_effect (s : Store) (now : ℤ) (scope : Scope) (jobId : JobId)
    (workflow : PageCheckpoint.PageWorkflow) :
    JobEffect s now (execute s now (.createPageWorkflow scope jobId workflow)) := by
  have hkept : JobEffect s now s := .kept rfl rfl rfl
  simp only [execute, PageWorkflowStore.createPageWorkflow]
  split
  · exact hkept
  · split
    · split
      · exact .kept rfl rfl rfl
      · exact .started scope jobId rfl rfl rfl
    · split
      · split <;> exact hkept
      · exact hkept

theorem saved_effect (s : Store) (now : ℤ) (scope : Scope) (jobId : JobId) (revision : ℕ)
    (workflow : PageCheckpoint.PageWorkflow) (artifacts : List StoredPageArtifact) :
    JobEffect s now (execute s now (.savePageWorkflow scope jobId revision workflow artifacts)) := by
  have hkept : JobEffect s now s := .kept rfl rfl rfl
  simp only [execute, savePageWorkflowWithArtifacts]
  split
  · exact hkept
  · split
    · exact hkept
    · split
      · exact hkept
      · split
        · exact hkept
        · split
          · exact hkept
          · exact .kept rfl rfl rfl

theorem committed_effect (s : Store) (now : ℤ) (scope : Scope) (jobId : JobId)
    (command : CommitResult) :
    JobEffect s now (execute s now (.commitResult scope jobId command)) := by
  have hkept : JobEffect s now s := .kept rfl rfl rfl
  simp only [execute, Jobs.commitResult]
  split
  · exact hkept
  · rename_i hlocator
    split
    · exact hkept
    · rename_i eventType hevent
      split
      · exact hkept
      · rename_i job hfind
        obtain ⟨hjob,hkey⟩ := Table.mem_of_find? hfind
        obtain ⟨rfl,rfl⟩ := (isJob_iff _ _ _).mp hkey
        split
        · split
          · exact hkept
          · split <;> exact hkept
        · split
          · exact hkept
          · rename_i hstatus
            split
            · exact hkept
            · rename_i hunique
              have hactive : job.status = .processing ∨ job.status = .validating := by
                by_contra hother
                exact hstatus (not_or.mp hother)
              have hfresh : ∀ r ∈ s.results, r.jobId ≠ job.jobId := by
                intro r hr hid
                apply hunique
                rw [Bool.or_eq_true, List.any_eq_true]
                exact Or.inr ⟨r,hr,by simp [hid]⟩
              have hvalid : validateLocator command.locator = true := by
                simpa using hlocator
              unfold commitRow
              by_cases hsubscribed : job.webhookSubscriptionId.isSome
              · rw [if_pos hsubscribed]
                exact .committed job command eventType hjob hactive hevent hvalid hfresh rfl rfl
                  (Or.inr rfl)
              · rw [if_neg hsubscribed]
                exact .committed job command eventType hjob hactive hevent hvalid hfresh rfl rfl
                  (Or.inl rfl)

theorem execute_effect (s : Store) (now : ℤ) (c : Command) : JobEffect s now (execute s now c) := by
  cases c with
  | upload action =>
    obtain ⟨hjobs,_,houtbox⟩ := uploads_frame s action
    exact .kept hjobs (uploads_results s action) houtbox
  | create request => exact created_effect s now request
  | cancel scope jobId => exact cancelled_effect s now scope jobId
  | completeCancellation scope jobId => exact cancellationCompleted_effect s now scope jobId
  | createPageWorkflow scope jobId workflow => exact started_effect s now scope jobId workflow
  | savePageWorkflow scope jobId revision workflow artifacts =>
    exact saved_effect s now scope jobId revision workflow artifacts
  | commitResult scope jobId command => exact committed_effect s now scope jobId command

/-- No transaction commits the other states. -/
def committable : JobState → Bool
  | .accepted | .processing | .cancelled | .partialResult | .reviewRequired | .completed => true
  | _ => false

/-- The states which no command leaves. -/
def settled (status : JobState) : Bool := finished status || status == .cancelled

/-- What the stage of an event says about its job. -/
def Announces (eventType : EventType) (status : JobState) : Prop :=
  (stage eventType = .cancelled → status = .cancelled) ∧
    (stage eventType = .finished → finished status = true)

structure Lifecycle (s : Store) : Prop where
  jobKeys : (s.jobs.map (·.jobId)).Nodup
  statuses : ∀ job ∈ s.jobs, committable job.status = true
  resultKeys : (s.results.map (·.jobId)).Nodup
  valid : ∀ r ∈ s.results, validateLocator r.locator = true
  results : ∀ r ∈ s.results, ∃ job ∈ s.jobs, isJob r.scope r.jobId job = true ∧
    finished job.status = true
  finished : ∀ job ∈ s.jobs, finished job.status = true → ∃ r ∈ s.results, r.jobId = job.jobId
  announced : (s.outbox.map announcement).Nodup
  events : ∀ row ∈ s.outbox, ∃ job ∈ s.jobs, isJob row.scope row.jobId job = true ∧
    Announces row.eventType job.status

theorem lifecycle_empty : Lifecycle empty where
  jobKeys := List.nodup_nil
  statuses := fun _ h => absurd h List.not_mem_nil
  resultKeys := List.nodup_nil
  valid := fun _ h => absurd h List.not_mem_nil
  results := fun _ h => absurd h List.not_mem_nil
  finished := fun _ h => absurd h List.not_mem_nil
  announced := List.nodup_nil
  events := fun _ h => absurd h List.not_mem_nil

theorem startable_unsettled {status : JobState} (hstartable : startable status = true) :
    settled status = false := by
  cases status <;> first | rfl | cases hstartable

theorem cancellable_unsettled {status : JobState} (hcancellable : cancellable status = true) :
    settled status = false := by
  cases status <;> first | rfl | cases hcancellable

section Effects
variable {s s' : Store} (h : Lifecycle s)
include h

theorem same_job {job x : JobRow} (hjob : job ∈ s.jobs) (hx : x ∈ s.jobs)
    (hkey : isJob job.scope job.jobId x = true) : x = job :=
  Table.eq_of_key h.jobKeys hx hjob ((isJob_iff _ _ _).mp hkey).2

/-- An announcement which does not fit the job's state was not made yet. -/
theorem unannounced {job : JobRow} (hjob : job ∈ s.jobs) {eventType : EventType}
    (hstate : ¬Announces eventType job.status) :
    ∀ row ∈ s.outbox, announcement row ≠ (job.jobId,stage eventType) := by
  intro row hrow heq
  obtain ⟨x,hx,hkey,hannounces⟩ := h.events row hrow
  simp only [announcement, Prod.mk.injEq] at heq
  have hsame : x = job := Table.eq_of_key h.jobKeys hx hjob
    (((isJob_iff _ _ _).mp hkey).2.trans heq.1)
  rw [hsame, Announces, heq.2] at hannounces
  exact hstate hannounces

/-- A status write to unsettled jobs, with the results and the events which
belong to it. -/
theorem lifecycle_write {p : JobRow → Bool} {status : JobState} (newResults : List ResultRow)
    (newEvents : List OutboxRow) (hjobs : s'.jobs = Table.update p (setStatus status) s.jobs)
    (hresults : s'.results = s.results++newResults) (houtbox : s'.outbox = s.outbox++newEvents)
    (hp : ∀ x ∈ s.jobs, p x = true → settled x.status = false) (hstatus : committable status = true)
    (hkeys : (s'.results.map (·.jobId)).Nodup)
    (hnewResults : ∀ r ∈ newResults, validateLocator r.locator = true ∧ finished status = true ∧
      ∃ job ∈ s.jobs, p job = true ∧ isJob r.scope r.jobId job = true)
    (hfinished : finished status = true → ∀ x ∈ s.jobs, p x = true →
      ∃ r ∈ newResults, r.jobId = x.jobId)
    (hannounced : (s'.outbox.map announcement).Nodup)
    (hnewEvents : ∀ row ∈ newEvents, Announces row.eventType status ∧
      ∃ job ∈ s.jobs, p job = true ∧ isJob row.scope row.jobId job = true) : Lifecycle s' where
  jobKeys := by
    have hmap : (Table.update p (setStatus status) s.jobs).map (·.jobId) = s.jobs.map (·.jobId) := by
      apply Table.map_update JobRow.jobId
      exact fun _ => rfl
    rw [hjobs, hmap]
    exact h.jobKeys
  statuses := by
    rw [hjobs]
    intro job hjob
    rcases Table.mem_update_cases hjob with ⟨hm,_⟩ | ⟨x,_,_,rfl⟩
    · exact h.statuses job hm
    · exact hstatus
  resultKeys := hkeys
  valid := by
    rw [hresults]
    intro r hr
    rcases List.mem_append.mp hr with hm | hm
    · exact h.valid r hm
    · exact (hnewResults r hm).1
  results := by
    rw [hresults, hjobs]
    intro r hr
    rcases List.mem_append.mp hr with hm | hm
    · obtain ⟨job,hjob,hkey,hfin⟩ := h.results r hm
      refine ⟨job,Table.mem_update_kept hjob ?_,hkey,hfin⟩
      by_contra hpjob
      have hopen := hp job hjob (by simpa using hpjob)
      rw [settled, hfin] at hopen
      cases hopen
    · obtain ⟨_,hfin,job,hjob,hpjob,hkey⟩ := hnewResults r hm
      exact ⟨_,Table.mem_update_changed hjob hpjob,hkey,hfin⟩
  finished := by
    rw [hresults, hjobs]
    intro job hjob hfin
    rcases Table.mem_update_cases hjob with ⟨hm,_⟩ | ⟨x,hx,hpx,rfl⟩
    · obtain ⟨r,hr,hkey⟩ := h.finished job hm hfin
      exact ⟨r,List.mem_append_left _ hr,hkey⟩
    · obtain ⟨r,hr,hkey⟩ := hfinished hfin x hx hpx
      exact ⟨r,List.mem_append_right _ hr,hkey⟩
  announced := hannounced
  events := by
    rw [houtbox, hjobs]
    intro row hrow
    rcases List.mem_append.mp hrow with hm | hm
    · obtain ⟨job,hjob,hkey,hannounces⟩ := h.events row hm
      by_cases hpjob : p job = true
      · -- The job is unsettled, so the event can only be its acceptance.
        have hopen := hp job hjob hpjob
        refine ⟨_,Table.mem_update_changed hjob hpjob,hkey,?_⟩
        constructor
        · intro hstage
          rw [hannounces.1 hstage] at hopen
          cases hopen
        · intro hstage
          rw [settled, hannounces.2 hstage] at hopen
          cases hopen
      · exact ⟨job,Table.mem_update_kept hjob (by simpa using hpjob),hkey,hannounces⟩
    · obtain ⟨hannounces,job,hjob,hpjob,hkey⟩ := hnewEvents row hm
      exact ⟨_,Table.mem_update_changed hjob hpjob,hkey,hannounces⟩

theorem announced_append {job : JobRow} (hjob : job ∈ s.jobs) (now : ℤ) {eventType : EventType}
    (hstate : ¬Announces eventType job.status) :
    ((s.outbox++[newEvent s.nextEventId now job.scope job.jobId eventType]).map
      announcement).Nodup :=
  Table.nodup_append_key h.announced (unannounced h hjob hstate)

theorem lifecycle_created {now : ℤ} {job : JobRow} (hfresh : ∀ x ∈ s.jobs, x.jobId ≠ job.jobId)
    (hstatus : job.status = .accepted) (hjobs : s'.jobs = s.jobs++[job])
    (hresults : s'.results = s.results)
    (houtbox : s'.outbox = s.outbox++[newEvent s.nextEventId now job.scope job.jobId .accepted]) :
    Lifecycle s' where
  jobKeys := by
    rw [hjobs]
    exact Table.nodup_append_key h.jobKeys hfresh
  statuses := by
    rw [hjobs]
    intro x hx
    rcases List.mem_append.mp hx with hm | hm
    · exact h.statuses x hm
    · rw [List.mem_singleton.mp hm, hstatus]
      rfl
  resultKeys := hresults ▸ h.resultKeys
  valid := hresults ▸ h.valid
  results := by
    rw [hresults, hjobs]
    intro r hr
    obtain ⟨x,hx,hrest⟩ := h.results r hr
    exact ⟨x,List.mem_append_left _ hx,hrest⟩
  finished := by
    rw [hresults, hjobs]
    intro x hx hfin
    rcases List.mem_append.mp hx with hm | hm
    · exact h.finished x hm hfin
    · rw [List.mem_singleton.mp hm, hstatus] at hfin
      cases hfin
  announced := by
    rw [houtbox]
    apply Table.nodup_append_key h.announced
    intro row hrow heq
    obtain ⟨x,hx,hkey,_⟩ := h.events row hrow
    simp only [announcement, newEvent, Prod.mk.injEq] at heq
    exact hfresh x hx (((isJob_iff _ _ _).mp hkey).2.trans heq.1)
  events := by
    rw [houtbox, hjobs]
    intro row hrow
    rcases List.mem_append.mp hrow with hm | hm
    · obtain ⟨x,hx,hrest⟩ := h.events row hm
      exact ⟨x,List.mem_append_left _ hx,hrest⟩
    · rw [List.mem_singleton.mp hm]
      refine ⟨job,List.mem_append_right _ (List.mem_singleton.mpr rfl),?_,?_⟩
      · simp [isJob, newEvent]
      · constructor
        · intro hstage
          cases hstage
        · intro hstage
          cases hstage

theorem lifecycle_frame (hjobs : s'.jobs = s.jobs) (hresults : s'.results = s.results)
    (houtbox : s'.outbox.map (fun row => (row.scope,row.jobId,row.eventType)) =
      s.outbox.map fun row => (row.scope,row.jobId,row.eventType)) : Lifecycle s' where
  jobKeys := hjobs ▸ h.jobKeys
  statuses := hjobs ▸ h.statuses
  resultKeys := hresults ▸ h.resultKeys
  valid := hresults ▸ h.valid
  results := by
    rw [hresults, hjobs]
    exact h.results
  finished := by
    rw [hresults, hjobs]
    exact h.finished
  announced := by
    have hmap := congrArg (List.map fun x : Scope × JobId × EventType => (x.2.1,stage x.2.2)) houtbox
    rw [List.map_map, List.map_map] at hmap
    have hsame : s'.outbox.map announcement = s.outbox.map announcement := hmap
    rw [hsame]
    exact h.announced
  events := by
    intro row' hrow'
    have hm : (row'.scope,row'.jobId,row'.eventType) ∈
        s.outbox.map fun row => (row.scope,row.jobId,row.eventType) := by
      rw [← houtbox]
      exact List.mem_map_of_mem hrow'
    obtain ⟨row,hrow,heq⟩ := List.mem_map.mp hm
    simp only [Prod.mk.injEq] at heq
    rw [hjobs, ← heq.1, ← heq.2.1, ← heq.2.2]
    exact h.events row hrow

theorem started_lifecycle {scope : Scope} {jobId : JobId}
    (hjobs : s'.jobs = Table.update (fun job => isJob scope jobId job && startable job.status)
      (setStatus .processing) s.jobs)
    (hresults : s'.results = s.results) (houtbox : s'.outbox = s.outbox) : Lifecycle s' := by
  refine lifecycle_write h [] [] hjobs (by simp [hresults])
    (by simp [houtbox]) ?_ rfl (hresults ▸ h.resultKeys) (by simp) (fun hfin => by cases hfin)
    (houtbox ▸ h.announced) (by simp)
  intro x _ hpx
  exact startable_unsettled (Bool.and_eq_true_iff.mp hpx).2

theorem committed_lifecycle {now : ℤ} {job : JobRow} {command : CommitResult} {eventType : EventType}
    (hjob : job ∈ s.jobs) (hactive : job.status = .processing ∨ job.status = .validating)
    (hevent : terminalEvent command.terminalState = some eventType)
    (hvalid : validateLocator command.locator = true)
    (hfresh : ∀ r ∈ s.results, r.jobId ≠ job.jobId)
    (hjobs : s'.jobs = Table.update (isJob job.scope job.jobId) (setStatus command.terminalState)
      s.jobs)
    (hresults : s'.results = s.results++[⟨job.jobId,job.scope,command.locator⟩])
    (houtbox : s'.outbox = s.outbox ∨
      s'.outbox = s.outbox++[newEvent s.nextEventId now job.scope job.jobId eventType]) :
    Lifecycle s' := by
  have hself : isJob job.scope job.jobId job = true := by simp [isJob]
  have hopen : settled job.status = false := by
    rcases hactive with hs | hs <;> rw [hs] <;> rfl
  have hunsettled : ∀ x ∈ s.jobs, isJob job.scope job.jobId x = true → settled x.status = false := by
    intro x hx hkey
    rw [same_job h hjob hx hkey]
    exact hopen
  have hfin : finished command.terminalState = true := by
    rw [finished, hevent]
    rfl
  have hcommittable : committable command.terminalState = true := by
    cases hs : command.terminalState <;> rw [hs] at hevent <;> first | rfl | cases hevent
  have hstage : stage eventType = .finished := by
    cases hs : command.terminalState <;> rw [hs] at hevent <;> cases hevent <;> rfl
  have hannounces : Announces eventType command.terminalState := by
    refine ⟨fun hc => ?_,fun _ => hfin⟩
    rw [hstage] at hc
    cases hc
  have hunannounced : ¬Announces eventType job.status := by
    intro hold
    rw [settled, hold.2 hstage] at hopen
    cases hopen
  have hkeys : (s'.results.map (·.jobId)).Nodup := by
    rw [hresults]
    exact Table.nodup_append_key h.resultKeys hfresh
  have hnewResults : ∀ r ∈ [ResultRow.mk job.jobId job.scope command.locator],
      validateLocator r.locator = true ∧ finished command.terminalState = true ∧
      ∃ x ∈ s.jobs, isJob job.scope job.jobId x = true ∧ isJob r.scope r.jobId x = true := by
    intro r hr
    rw [List.mem_singleton.mp hr]
    exact ⟨hvalid,hfin,job,hjob,hself,hself⟩
  have hcovered : finished command.terminalState = true → ∀ x ∈ s.jobs,
      isJob job.scope job.jobId x = true →
      ∃ r ∈ [ResultRow.mk job.jobId job.scope command.locator], r.jobId = x.jobId := by
    intro _ x _ hkey
    exact ⟨_,List.mem_singleton.mpr rfl,((isJob_iff _ _ _).mp hkey).2.symm⟩
  rcases houtbox with houtbox | houtbox
  · exact lifecycle_write h _ [] hjobs hresults (by simp [houtbox]) hunsettled hcommittable hkeys
      hnewResults hcovered (houtbox ▸ h.announced) (by simp)
  · refine lifecycle_write h _ _ hjobs hresults houtbox hunsettled hcommittable hkeys hnewResults
      hcovered ?_ ?_
    · rw [houtbox]
      exact announced_append h hjob now hunannounced
    · intro row hrow
      rw [List.mem_singleton.mp hrow]
      exact ⟨hannounces,job,hjob,hself,hself⟩

theorem cancelled_lifecycle {job : JobRow} (hjob : job ∈ s.jobs) (hopen : settled job.status = false)
    {newEvents : List OutboxRow} (hnew : ∀ row ∈ newEvents, row.scope = job.scope ∧
      row.jobId = job.jobId ∧ row.eventType = .cancellationRequested)
    (hjobs : s'.jobs = Table.update (isJob job.scope job.jobId) (setStatus .cancelled) s.jobs)
    (hresults : s'.results = s.results) (houtbox : s'.outbox = s.outbox++newEvents)
    (hannounced : (s'.outbox.map announcement).Nodup) : Lifecycle s' := by
  have hself : isJob job.scope job.jobId job = true := by simp [isJob]
  refine lifecycle_write h [] newEvents hjobs (by simp [hresults]) houtbox ?_ rfl
    (hresults ▸ h.resultKeys) (by simp) (fun hfin => by cases hfin) hannounced ?_
  · intro x hx hkey
    rw [same_job h hjob hx hkey]
    exact hopen
  · intro row hrow
    obtain ⟨hscope,hid,htype⟩ := hnew row hrow
    rw [hscope, hid, htype]
    refine ⟨⟨fun _ => rfl,fun hstage => ?_⟩,job,hjob,hself,hself⟩
    cases hstage

theorem effect_lifecycle {now : ℤ} (he : JobEffect s now s') : Lifecycle s' := by
  cases he with
  | kept hjobs hresults houtbox => exact lifecycle_frame h hjobs hresults (by rw [houtbox])
  | created job hfresh hstatus hjobs hresults houtbox =>
    exact lifecycle_created h hfresh hstatus hjobs hresults houtbox
  | started scope jobId hjobs hresults houtbox => exact started_lifecycle h hjobs hresults houtbox
  | cancelled job hjob hcancellable hjobs hresults houtbox =>
    refine cancelled_lifecycle h hjob (cancellable_unsettled hcancellable) ?_ hjobs hresults houtbox ?_
    · intro row hrow
      rw [List.mem_singleton.mp hrow]
      exact ⟨rfl,rfl,rfl⟩
    · rw [houtbox]
      apply announced_append h hjob now
      intro hannounces
      have hopen := cancellable_unsettled hcancellable
      rw [hannounces.1 rfl] at hopen
      cases hopen
  | cancellationCompleted job hjob hstatus hjobs hresults houtbox =>
    have hopen : settled job.status = false := by
      rw [hstatus]
      rfl
    exact cancelled_lifecycle h hjob hopen (fun _ hrow => absurd hrow List.not_mem_nil) hjobs hresults
      (by simp [houtbox]) (houtbox ▸ h.announced)
  | committed job command eventType hjob hactive hevent hvalid hfresh hjobs hresults houtbox =>
    exact committed_lifecycle h hjob hactive hevent hvalid hfresh hjobs hresults houtbox

end Effects

section Deliveries
open OutboxExhaustion (Action step Inv claim_cases claimWebhook_cases publish_cases)

theorem claimRows_lifecycle {s : Store} (h : Lifecycle s) (now : ℤ) (scope : Scope) (c : Channel)
    (claim : ClaimJobOutbox) : Lifecycle (claimRows s now scope c claim) := by
  refine lifecycle_frame h rfl rfl ?_
  have hexhausted : (deadLetterExhausted s now scope).outbox.map
      (fun row => (row.scope,row.jobId,row.eventType)) =
      s.outbox.map fun row => (row.scope,row.jobId,row.eventType) := by
    apply Table.map_update fun row : OutboxRow => (row.scope,row.jobId,row.eventType)
    exact fun _ => rfl
  rw [← hexhausted]
  apply Table.map_update fun row : OutboxRow => (row.scope,row.jobId,row.eventType)
  exact fun _ => rfl

theorem publishRow_lifecycle {s : Store} (h : Lifecycle s) (now : ℤ) (scope : Scope) (eventId : ℕ)
    (owner : String) : Lifecycle (publishRow s now scope eventId owner) := by
  refine lifecycle_frame h rfl rfl ?_
  apply Table.map_update fun row : OutboxRow => (row.scope,row.jobId,row.eventType)
  exact fun _ => rfl

theorem step_lifecycle {s : Store} (h : Lifecycle s) (hi : Inv s) (a : Action) :
    Lifecycle (step s a) := by
  cases a with
  | command now c => exact effect_lifecycle h (execute_effect s now c)
  | claim now scope claim =>
    have hrows := claimRows_lifecycle h now scope .job claim
    rcases claim_cases hi.sourced now scope claim with ⟨_,heq | heq⟩ | ⟨_,_,heq⟩ <;> rw [heq]
    · exact h
    · exact hrows
    · exact lifecycle_frame hrows rfl rfl rfl
  | claimWebhook now scope claim =>
    rcases claimWebhook_cases s now scope claim with heq | heq <;> rw [heq]
    · exact h
    · exact claimRows_lifecycle h now scope .webhook claim
  | publish now scope eventId owner =>
    rcases publish_cases s now scope eventId owner with ⟨_,heq⟩ | ⟨_,heq⟩ <;> rw [heq]
    · exact h
    · exact publishRow_lifecycle h now scope eventId owner

/-- Deliveries leave the jobs and the results alone. -/
theorem step_effect {s : Store} (hi : Inv s) (a : Action) :
    (∃ now, JobEffect s now (step s a)) ∨
      (step s a).jobs = s.jobs ∧ (step s a).results = s.results := by
  cases a with
  | command now c => exact Or.inl ⟨now,execute_effect s now c⟩
  | claim now scope claim =>
    right
    rcases claim_cases hi.sourced now scope claim with ⟨_,heq | heq⟩ | ⟨_,_,heq⟩ <;> rw [heq] <;>
      exact ⟨rfl,rfl⟩
  | claimWebhook now scope claim =>
    right
    rcases claimWebhook_cases s now scope claim with heq | heq <;> rw [heq] <;> exact ⟨rfl,rfl⟩
  | publish now scope eventId owner =>
    right
    rcases publish_cases s now scope eventId owner with ⟨_,heq⟩ | ⟨_,heq⟩ <;> rw [heq] <;>
      exact ⟨rfl,rfl⟩

end Deliveries

def statusOf (s : Store) (jobId : JobId) : Option JobState :=
  (s.jobs.find? (·.jobId == jobId)).map (·.status)

theorem statusOf_of_mem {s : Store} (h : Lifecycle s) {job : JobRow} (hjob : job ∈ s.jobs) :
    statusOf s job.jobId = some job.status := by
  have hfind : s.jobs.find? (·.jobId == job.jobId) = some job := by
    apply Table.find?_eq_of_unique (p := fun x : JobRow => x.jobId == job.jobId) hjob
      (beq_self_eq_true job.jobId)
    intro x hx hkey
    exact Table.eq_of_key h.jobKeys hx hjob (beq_iff_eq.mp hkey)
  rw [statusOf, hfind, Option.map_some]

theorem mem_of_statusOf {s : Store} {jobId : JobId} {status : JobState}
    (h : statusOf s jobId = some status) : ∃ job ∈ s.jobs, job.jobId = jobId ∧ job.status = status := by
  obtain ⟨job,hfind,hstatus⟩ := Option.map_eq_some_iff.mp h
  obtain ⟨hjob,hkey⟩ := Table.mem_of_find? hfind
  exact ⟨job,hjob,beq_iff_eq.mp hkey,hstatus⟩

/-- The paths which the commands take through the allowed transitions. -/
theorem allowed_path {status next : JobState}
    (h : startable status = true ∧ next = .processing ∨
      (cancellable status = true ∨ status = .cancelling) ∧ next = .cancelled ∨
      status = .processing ∧ finished next = true) :
    Relation.ReflTransGen Allowed status next := by
  have hedge : ∀ {a b : JobState}, isAllowedTransition a b = true →
      Relation.ReflTransGen Allowed a b := fun hab => Relation.ReflTransGen.single hab
  rcases h with ⟨hstart,rfl⟩ | ⟨hcancel,rfl⟩ | ⟨rfl,hfin⟩
  · cases status with
    | accepted =>
      have hinspect : isAllowedTransition .accepted .inspecting = true := rfl
      exact (hedge hinspect).trans (hedge rfl)
    | processing => exact Relation.ReflTransGen.refl
    | _ => cases hstart
  · have hlast : isAllowedTransition .cancelling .cancelled = true := rfl
    cases status with
    | cancelling => exact hedge hlast
    | accepted | inspecting | processing | validating =>
      exact Relation.ReflTransGen.trans (hedge rfl) (hedge hlast)
    | _ => rcases hcancel with hc | hc <;> cases hc
  · have hvalidate : isAllowedTransition .processing .validating = true := rfl
    cases next with
    | partialResult => exact hedge rfl
    | completed | reviewRequired => exact (hedge hvalidate).trans (hedge rfl)
    | _ => cases hfin

theorem effect_results {s s' : Store} {now : ℤ} (he : JobEffect s now s') {r : ResultRow} (hr : r ∈ s.results) :
    r ∈ s'.results := by
  cases he with
  | kept _ hresults _ => exact hresults ▸ hr
  | created _ _ _ _ hresults _ => exact hresults ▸ hr
  | started _ _ _ hresults _ => exact hresults ▸ hr
  | cancelled _ _ _ _ hresults _ => exact hresults ▸ hr
  | cancellationCompleted _ _ _ _ hresults _ => exact hresults ▸ hr
  | committed _ _ _ _ _ _ _ _ _ hresults _ =>
    rw [hresults]
    exact List.mem_append_left _ hr

section Statuses
variable {s s' : Store} (h : Lifecycle s)
include h

omit h in
theorem written_status {p : JobRow → Bool} {status : JobState} {jobId : JobId} {old : JobState}
    (hjobs : s'.jobs = Table.update p (setStatus status) s.jobs)
    (hp : ∀ x ∈ s.jobs, p x = true → settled x.status = false ∧
      Relation.ReflTransGen Allowed x.status status) (hold : statusOf s jobId = some old) :
    ∃ new, statusOf s' jobId = some new ∧ Relation.ReflTransGen Allowed old new ∧
      (settled old = true → new = old) := by
  obtain ⟨job,hfind,rfl⟩ := Option.map_eq_some_iff.mp hold
  have hjob := (Table.mem_of_find? hfind).1
  have hid : ∀ x, ((setStatus status x).jobId == jobId) = (x.jobId == jobId) := fun _ => rfl
  have hupdate : s'.jobs.find? (·.jobId == jobId) =
      some (if p job then setStatus status job else job) := by
    rw [hjobs, Table.find?_update_key hid, hfind, Option.map_some]
  rw [statusOf, hupdate, Option.map_some]
  by_cases hpjob : p job = true
  · obtain ⟨hopen,hpath⟩ := hp job hjob hpjob
    rw [if_pos hpjob]
    refine ⟨status,rfl,hpath,fun hsettled => ?_⟩
    rw [hopen] at hsettled
    cases hsettled
  · rw [if_neg hpjob]
    exact ⟨_,rfl,Relation.ReflTransGen.refl,fun _ => rfl⟩

theorem effect_status {now : ℤ} (he : JobEffect s now s') {jobId : JobId} {old : JobState}
    (hold : statusOf s jobId = some old) : ∃ new, statusOf s' jobId = some new ∧
      Relation.ReflTransGen Allowed old new ∧ (settled old = true → new = old) := by
  have hsame : s'.jobs = s.jobs → ∃ new, statusOf s' jobId = some new ∧
      Relation.ReflTransGen Allowed old new ∧ (settled old = true → new = old) := by
    intro hjobs
    exact ⟨old,by rw [statusOf, hjobs]; exact hold,Relation.ReflTransGen.refl,fun _ => rfl⟩
  cases he with
  | kept hjobs _ _ => exact hsame hjobs
  | created job hfresh _ hjobs _ _ =>
    obtain ⟨x,hfind,hx⟩ := Option.map_eq_some_iff.mp hold
    refine ⟨old,?_,Relation.ReflTransGen.refl,fun _ => rfl⟩
    rw [statusOf, hjobs, List.find?_append, hfind]
    exact congrArg some hx
  | started scope id hjobs _ _ =>
    refine written_status hjobs ?_ hold
    intro x _ hpx
    have hstart := (Bool.and_eq_true_iff.mp hpx).2
    exact ⟨startable_unsettled hstart,allowed_path (Or.inl ⟨hstart,rfl⟩)⟩
  | cancelled job hjob hcancellable hjobs _ _ =>
    refine written_status hjobs ?_ hold
    intro x hx hkey
    rw [same_job h hjob hx hkey]
    exact ⟨cancellable_unsettled hcancellable,allowed_path (Or.inr (Or.inl ⟨Or.inl hcancellable,rfl⟩))⟩
  | cancellationCompleted job hjob hstatus hjobs _ _ =>
    refine written_status hjobs ?_ hold
    intro x hx hkey
    rw [same_job h hjob hx hkey, hstatus]
    exact ⟨rfl,allowed_path (Or.inr (Or.inl ⟨Or.inr rfl,rfl⟩))⟩
  | committed job command eventType hjob hactive hevent _ _ hjobs _ _ =>
    have hprocessing : job.status = .processing := by
      rcases hactive with hs | hs
      · exact hs
      · have hcommittable := h.statuses job hjob
        rw [hs] at hcommittable
        cases hcommittable
    have hfin : finished command.terminalState = true := by
      rw [finished, hevent]
      rfl
    refine written_status hjobs ?_ hold
    intro x hx hkey
    rw [same_job h hjob hx hkey, hprocessing]
    exact ⟨rfl,allowed_path (Or.inr (Or.inr ⟨rfl,hfin⟩))⟩

/-- The result of a finished job is found, and is the one which was committed. -/
theorem findResult_ready {r : ResultRow} (hr : r ∈ s.results) :
    findResult s r.scope r.jobId = .ok (.ready r.locator) := by
  obtain ⟨job,hjob,hkey,hfin⟩ := h.results r hr
  obtain ⟨hscope,hid⟩ := (isJob_iff _ _ _).mp hkey
  have hfind : s.jobs.find? (isJob r.scope r.jobId) = some job := by
    apply Table.find?_eq_of_unique hjob hkey
    intro x hx hxkey
    exact Table.eq_of_key h.jobKeys hx hjob (((isJob_iff _ _ _).mp hxkey).2.trans hid.symm)
  have hresult : s.results.find? (·.jobId == job.jobId) = some r := by
    apply Table.find?_eq_of_unique hr
    · rw [hid]
      exact beq_self_eq_true _
    · intro x hx hxkey
      exact Table.eq_of_key h.resultKeys hx hr ((beq_iff_eq.mp hxkey).trans hid)
  simp only [findResult, hfind, hresult, hfin, h.valid r hr, Bool.not_true, Bool.false_eq_true,
    if_false]

theorem findResult_valid (scope : Scope) (jobId : JobId) :
    findResult s scope jobId ≠ .error .invalidStoredResult := by
  cases hfind : s.jobs.find? (isJob scope jobId) with
  | none => simp [findResult, hfind]
  | some job =>
    obtain ⟨hjob,hkey⟩ := Table.mem_of_find? hfind
    obtain ⟨rfl,rfl⟩ := (isJob_iff _ _ _).mp hkey
    cases hresult : s.results.find? (·.jobId == job.jobId) with
    | none =>
      have hopen : finished job.status = false := by
        by_contra hfin
        rw [Bool.not_eq_false] at hfin
        obtain ⟨r,hr,hid⟩ := h.finished job hjob hfin
        exact List.find?_eq_none.mp hresult r hr (beq_iff_eq.mpr hid)
      simp only [findResult, hfind, hresult]
      cases hstatus : job.status <;> rw [hstatus] at hopen <;> first | exact absurd hopen (by decide) |
        (intro heq; cases heq)
    | some r =>
      obtain ⟨hr,hid⟩ := Table.mem_of_find? hresult
      obtain ⟨x,hx,hxkey,_⟩ := h.results r hr
      obtain ⟨hxscope,hxid⟩ := (isJob_iff _ _ _).mp hxkey
      have hsame : x = job :=
        Table.eq_of_key h.jobKeys hx hjob (hxid.trans (beq_iff_eq.mp hid))
      have hready := findResult_ready h hr
      rw [← hxscope, ← hxid, hsame] at hready
      rw [hready]
      intro heq
      cases heq

end Statuses

section Run
open OutboxExhaustion (Action step Inv)

theorem step_kept {s : Store} (h : Inv s ∧ Lifecycle s) (a : Action) :
    Inv (step s a) ∧ Lifecycle (step s a) :=
  ⟨OutboxExhaustion.step_inv s a h.1,step_lifecycle h.2 h.1 a⟩

theorem step_status {s : Store} (h : Inv s ∧ Lifecycle s) (a : Action) {jobId : JobId}
    {old : JobState} (hold : statusOf s jobId = some old) :
    ∃ new, statusOf (step s a) jobId = some new ∧ Relation.ReflTransGen Allowed old new ∧
      (settled old = true → new = old) := by
  rcases step_effect h.1 a with ⟨now,he⟩ | ⟨hjobs,_⟩
  · exact effect_status h.2 he hold
  · exact ⟨old,by rw [statusOf, hjobs]; exact hold,Relation.ReflTransGen.refl,fun _ => rfl⟩

theorem step_results {s : Store} (h : Inv s) (a : Action) {r : ResultRow} (hr : r ∈ s.results) :
    r ∈ (step s a).results := by
  rcases step_effect h a with ⟨now,he⟩ | ⟨_,hresults⟩
  · exact effect_results he hr
  · rw [hresults]
    exact hr

theorem run_kept (as : List Action) :
    Inv (run step empty as) ∧ Lifecycle (run step empty as) := by
  have hstep : ∀ s a, Inv s ∧ Lifecycle s → Inv (step s a) ∧ Lifecycle (step s a) :=
    fun _ a h => step_kept h a
  exact run_invariant hstep ⟨OutboxExhaustion.inv_empty,lifecycle_empty⟩ as

theorem run_settled {s : Store} (h : Inv s ∧ Lifecycle s) {jobId : JobId} {status : JobState}
    (hstatus : statusOf s jobId = some status) (hsettled : settled status = true)
    (as : List Action) : statusOf (run step s as) jobId = some status := by
  induction as generalizing s with
  | nil => exact hstatus
  | cons a as ih =>
    obtain ⟨new,hnew,_,hkept⟩ := step_status h a hstatus
    rw [hkept hsettled] at hnew
    exact ih (step_kept h a) hnew

theorem run_results {s : Store} (h : Inv s ∧ Lifecycle s) {r : ResultRow} (hr : r ∈ s.results)
    (as : List Action) : r ∈ (run step s as).results ∧
      findResult (run step s as) r.scope r.jobId = .ok (.ready r.locator) := by
  induction as generalizing s with
  | nil => exact ⟨hr,findResult_ready h.2 hr⟩
  | cons a as ih => exact ih (step_kept h a) (step_results h.1 a hr)

/-- The lifecycle of every job, in every state which the store reaches. -/
theorem run_lifecycle (as : List Action) :
    let s := run step empty as
    (∀ jobId status, statusOf s jobId = some status → settled status = true →
      ∀ more, statusOf (run step s more) jobId = some status) ∧
    (∀ job ∈ s.jobs, (∃ r ∈ s.results, r.jobId = job.jobId) ↔ finished job.status = true) ∧
    (∀ r ∈ s.results, (∃ job ∈ s.jobs, isJob r.scope r.jobId job = true) ∧
      (∀ r' ∈ s.results, r'.jobId = r.jobId → r' = r) ∧
      ∀ more, r ∈ (run step s more).results ∧
        findResult (run step s more) r.scope r.jobId = .ok (.ready r.locator)) ∧
    (∀ scope jobId, findResult s scope jobId ≠ .error .invalidStoredResult) ∧
    (∀ jobId announced, (s.outbox.filter fun row =>
      row.jobId == jobId && stage row.eventType == announced).length ≤ 1) ∧
    ∀ a jobId old new, statusOf s jobId = some old → statusOf (step s a) jobId = some new →
      Relation.ReflTransGen Allowed old new := by
  intro s
  have h : Inv s ∧ Lifecycle s := run_kept as
  refine ⟨?_,?_,?_,findResult_valid h.2,?_,?_⟩
  · intro jobId status hstatus hsettled more
    exact run_settled h hstatus hsettled more
  · intro job hjob
    constructor
    · rintro ⟨r,hr,hid⟩
      obtain ⟨x,hx,hkey,hfin⟩ := h.2.results r hr
      have hsame : x = job :=
        Table.eq_of_key h.2.jobKeys hx hjob (((isJob_iff _ _ _).mp hkey).2.trans hid)
      exact hsame ▸ hfin
    · exact h.2.finished job hjob
  · intro r hr
    obtain ⟨job,hjob,hkey,_⟩ := h.2.results r hr
    exact ⟨⟨job,hjob,hkey⟩,fun r' hr' hid => Table.eq_of_key h.2.resultKeys hr' hr hid,
      run_results h hr⟩
  · intro jobId announced
    have hcount := List.nodup_iff_count_le_one.mp h.2.announced (jobId,announced)
    rw [List.count, List.countP_map] at hcount
    rw [← List.countP_eq_length_filter]
    refine (List.countP_mono_left ?_).trans hcount
    intro row _ hrow
    simpa [announcement] using hrow
  · intro a jobId old new hold hnew
    obtain ⟨new',hnew',hpath,_⟩ := step_status h a hold
    rw [hnew, Option.some.injEq] at hnew'
    rw [hnew']
    exact hpath

end Run

end DocumentIntelligence.JobLifecycle
