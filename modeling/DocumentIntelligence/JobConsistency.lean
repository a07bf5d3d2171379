import DocumentIntelligence.OutboxExhaustion

/-!
# Jobs, their checkpoints and their cancellations

Job identifiers are unique, a stored checkpoint belongs to the job of its row,
and a job whose cancellation was announced stays cancelled. Each command keeps
this, and so do the deliveries, which write nothing but delivery columns.
-/

set_option autoImplicit false

namespace DocumentIntelligence.JobConsistency
open Identifiers hiding Error
open Schema Uploads Jobs Outbox PageWorkflowStore Commands Transition
open PageCheckpoint (PageWorkflow)

structure Consistent (s : Store) : Prop where
  jobKeys : (s.jobs.map (·.jobId)).Nodup
  workflows : ∀ row ∈ s.pageWorkflows, row.checkpoint.jobId = row.jobId ∧
    ∃ job ∈ s.jobs, isJob row.scope row.jobId job = true
  cancelled : ∀ row ∈ s.outbox, row.eventType = .cancellationRequested →
    ∀ job ∈ s.jobs, isJob row.scope row.jobId job = true → job.status = .cancelled

theorem consistent_empty : Consistent empty where
  jobKeys := List.nodup_nil
  workflows := fun _ h => absurd h List.not_mem_nil
  cancelled := fun _ h => absurd h List.not_mem_nil

/-- Under unique identifiers the job found is the job of that scope. -/
theorem find_job {s : Store} (h : Consistent s) {scope : Scope} {jobId : JobId} {job : JobRow}
    (hjob : job ∈ s.jobs) (hkey : isJob scope jobId job = true) :
    s.jobs.find? (isJob scope jobId) = some job := by
  apply Table.find?_eq_of_unique hjob hkey
  intro x hx hxkey
  rw [isJob_iff] at hkey hxkey
  exact Table.eq_of_key h.jobKeys hx hjob (hxkey.2.trans hkey.2.symm)

/-- A transaction which writes no jobs and no checkpoints, and only delivery
columns of the outbox. -/
theorem consistent_frame {s s' : Store} (h : Consistent s) (hjobs : s'.jobs = s.jobs)
    (hworkflows : s'.pageWorkflows = s.pageWorkflows)
    (houtbox : ∀ row' ∈ s'.outbox, ∃ row ∈ s.outbox, row'.scope = row.scope ∧
      row'.jobId = row.jobId ∧ row'.eventType = row.eventType) : Consistent s' where
  jobKeys := hjobs ▸ h.jobKeys
  workflows := hworkflows ▸ hjobs ▸ h.workflows
  cancelled := by
    intro row' hrow' htype job hjob hkey
    obtain ⟨row,hrow,hscope,hid,heq⟩ := houtbox row' hrow'
    rw [hjobs] at hjob
    rw [hscope, hid] at hkey
    exact h.cancelled row hrow (heq ▸ htype) job hjob hkey

theorem consistent_same {s s' : Store} (h : Consistent s) (hjobs : s'.jobs = s.jobs)
    (hworkflows : s'.pageWorkflows = s.pageWorkflows) (houtbox : s'.outbox = s.outbox) :
    Consistent s' :=
  consistent_frame h hjobs hworkflows fun row hrow => ⟨row,houtbox ▸ hrow,rfl,rfl,rfl⟩

theorem mem_setStatus {s : Store} {p : JobRow → Bool} {status : JobState} {scope : Scope}
    {jobId : JobId} (h : ∃ job ∈ s.jobs, isJob scope jobId job = true) :
    ∃ job ∈ Table.update p (setStatus status) s.jobs, isJob scope jobId job = true := by
  obtain ⟨job,hjob,hkey⟩ := h
  refine ⟨_,Table.mem_update_of_mem hjob,?_⟩
  split <;> exact hkey

/-- A status write spares the cancelled jobs or cancels. -/
theorem consistent_setStatus {s s' : Store} (h : Consistent s) {p : JobRow → Bool}
    {status : JobState} (hjobs : s'.jobs = Table.update p (setStatus status) s.jobs)
    (hworkflows : s'.pageWorkflows = s.pageWorkflows) (houtbox : s'.outbox = s.outbox)
    (hp : ∀ job ∈ s.jobs, p job = true → job.status = .cancelled → status = .cancelled) :
    Consistent s' where
  jobKeys := by
    have hkeys : (Table.update p (setStatus status) s.jobs).map (·.jobId) =
        s.jobs.map (·.jobId) := by
      apply Table.map_update JobRow.jobId
      exact fun _ => rfl
    rw [hjobs, hkeys]
    exact h.jobKeys
  workflows := by
    rw [hworkflows, hjobs]
    exact fun row hrow => ⟨(h.workflows row hrow).1,mem_setStatus (h.workflows row hrow).2⟩
  cancelled := by
    rw [houtbox, hjobs]
    intro row hrow htype job hjob hkey
    rcases Table.mem_update_cases hjob with ⟨hm,_⟩ | ⟨x,hx,hpx,rfl⟩
    · exact h.cancelled row hrow htype job hm hkey
    · exact hp x hx hpx (h.cancelled row hrow htype x hx hkey)

theorem consistent_createJob {s : Store} (h : Consistent s) (hs : Sourced s) {job : JobRow}
    (hfresh : ∀ x ∈ s.jobs, x.jobId ≠ job.jobId) :
    Consistent { s with jobs := s.jobs++[job] } where
  jobKeys := Table.nodup_append_key h.jobKeys hfresh
  workflows := by
    intro row hrow
    obtain ⟨x,hx,hkey⟩ := (h.workflows row hrow).2
    exact ⟨(h.workflows row hrow).1,x,List.mem_append_left _ hx,hkey⟩
  cancelled := by
    intro row hrow htype x hx hkey
    rcases List.mem_append.mp hx with hm | hm
    · exact h.cancelled row hrow htype x hm hkey
    · -- The event has a job of its own, whose identifier the new job cannot have.
      obtain ⟨y,hy,hykey⟩ := hs.events row hrow
      rw [List.mem_singleton] at hm
      rw [hm, isJob_iff] at hkey
      rw [isJob_iff] at hykey
      exact absurd (hykey.2.trans hkey.2.symm) (hfresh y hy)

theorem consistent_insertEvent {s : Store} (h : Consistent s) (now : ℤ) (scope : Scope)
    (jobId : JobId) (eventType : EventType)
    (hevent : eventType = .cancellationRequested →
      ∀ job ∈ s.jobs, isJob scope jobId job = true → job.status = .cancelled) :
    Consistent (insertEvent s now scope jobId eventType) where
  jobKeys := h.jobKeys
  workflows := h.workflows
  cancelled := by
    intro row hrow htype
    rcases List.mem_append.mp hrow with hm | hm
    · exact h.cancelled row hm htype
    · rw [List.mem_singleton] at hm
      rw [hm] at htype ⊢
      exact hevent htype

theorem consistent_insertWorkflow {s : Store} (h : Consistent s) {scope : Scope} {jobId : JobId}
    {workflow : PageWorkflow} (hid : workflow.jobId = jobId)
    (hjob : ∃ job ∈ s.jobs, isJob scope jobId job = true) :
    Consistent (insertWorkflow s scope jobId workflow) where
  jobKeys := h.jobKeys
  workflows := by
    intro row hrow
    rcases List.mem_append.mp hrow with hm | hm
    · exact h.workflows row hm
    · rw [List.mem_singleton] at hm
      rw [hm]
      exact ⟨hid,hjob⟩
  cancelled := h.cancelled

theorem consistent_saveRow {s : Store} (h : Consistent s) {scope : Scope} {jobId : JobId}
    {workflow : PageWorkflow} (hid : workflow.jobId = jobId)
    (artifacts : List StoredPageArtifact) :
    Consistent (saveRow s scope jobId workflow artifacts) where
  jobKeys := h.jobKeys
  workflows := by
    intro row hrow
    rcases Table.mem_update_cases hrow with ⟨hm,_⟩ | ⟨x,hx,hp,rfl⟩
    · exact h.workflows row hm
    · simp only [isPageWorkflow, Bool.and_eq_true, beq_iff_eq] at hp
      exact ⟨hid.trans hp.2.symm,(h.workflows x hx).2⟩
  cancelled := h.cancelled

theorem cancellable_not_cancelled {status : JobState} (h : cancellable status = true) :
    status ≠ .cancelled := by
  rintro rfl
  cases h

theorem startable_not_cancelled {status : JobState} (h : startable status = true) :
    status ≠ .cancelled := by
  rintro rfl
  cases h

theorem createJob_kept {s : Store} (h : Consistent s) (hs : Sourced s) (now : ℤ)
    (request : CreateJob) : Consistent (execute s now (.create request)) := by
  simp only [execute, Jobs.create]
  split
  · exact h
  · split
    · split <;> exact h
    · split
      · exact h
      · split
        · exact h
        · rename_i hfresh
          have hcreated : Consistent { s with jobs := s.jobs++[request.row now] } := by
            apply consistent_createJob h hs
            simpa [CreateJob.row] using hfresh
          have hinserted := consistent_insertEvent hcreated now request.scope request.jobId .accepted
            (fun h => by cases h)
          exact consistent_same hinserted rfl rfl rfl

theorem cancelJob_kept {s : Store} (h : Consistent s) (now : ℤ) (scope : Scope) (jobId : JobId) :
    Consistent (execute s now (.cancel scope jobId)) := by
  simp only [execute, Jobs.cancel]
  split
  · exact h
  · split
    · have hcancelled : Consistent { s with
          jobs := Table.update (isJob scope jobId) (setStatus .cancelled) s.jobs } :=
        consistent_setStatus h rfl rfl rfl fun _ _ _ _ => rfl
      have hevent : ∀ job ∈ Table.update (isJob scope jobId) (setStatus .cancelled) s.jobs,
          isJob scope jobId job = true → job.status = .cancelled := by
        intro job hjob hkey
        rcases Table.mem_update_cases hjob with ⟨_,hp⟩ | ⟨x,_,_,rfl⟩
        · rw [hp] at hkey
          cases hkey
        · rfl
      exact consistent_same (consistent_insertEvent hcancelled now _ _ _ fun _ => hevent) rfl rfl rfl
    · split <;> exact h

theorem completeCancellation_kept {s : Store} (h : Consistent s) (now : ℤ) (scope : Scope)
    (jobId : JobId) : Consistent (execute s now (.completeCancellation scope jobId)) := by
  simp only [execute, Jobs.completeCancellation]
  split
  · exact h
  · split
    · exact h
    · exact consistent_setStatus h rfl rfl rfl fun _ _ _ _ => rfl
    · exact h

theorem inserts_job {s : Store} {scope : Scope} {jobId : JobId} {workflow : PageWorkflow}
    (h : inserts s scope jobId workflow = true) :
    ∃ job ∈ s.jobs, isJob scope jobId job = true := by
  simp only [inserts, Bool.and_eq_true, Option.any_eq_true] at h
  obtain ⟨⟨job,hfind,_⟩,_⟩ := h
  exact ⟨job,Table.mem_of_find? hfind⟩

theorem createPageWorkflow_kept {s : Store} (h : Consistent s) (now : ℤ) (scope : Scope)
    (jobId : JobId) (workflow : PageWorkflow) :
    Consistent (execute s now (.createPageWorkflow scope jobId workflow)) := by
  simp only [execute, PageWorkflowStore.createPageWorkflow]
  split
  · exact h
  · rename_i hid
    split
    · rename_i hinserts
      have hinserted := consistent_insertWorkflow h (not_not.mp hid) (inserts_job hinserts)
      split
      · exact hinserted
      · refine consistent_setStatus hinserted rfl rfl rfl ?_
        intro job _ hp hcancelled
        exact absurd hcancelled (startable_not_cancelled (Bool.and_eq_true_iff.mp hp).2)
    · split
      · split <;> exact h
      · exact h

theorem savePageWorkflow_kept {s : Store} (h : Consistent s) (now : ℤ) (scope : Scope)
    (jobId : JobId) (revision : ℕ) (workflow : PageWorkflow) (artifacts : List StoredPageArtifact) :
    Consistent (execute s now (.savePageWorkflow scope jobId revision workflow artifacts)) := by
  simp only [execute, savePageWorkflowWithArtifacts]
  split
  · exact h
  · rename_i hid
    split
    · exact h
    · split
      · exact h
      · split
        · exact h
        · split
          · exact h
          · exact consistent_saveRow h (not_not.mp hid) artifacts

theorem commitRow_kept {s : Store} (h : Consistent s) (now : ℤ) {job : JobRow}
    (hjob : job ∈ s.jobs) (hstatus : job.status ≠ .cancelled) (command : CommitResult)
    {eventType : EventType} (hevent : terminalEvent command.terminalState = some eventType) :
    Consistent (commitRow s now job command eventType) := by
  have hspared : ∀ x ∈ s.jobs, isJob job.scope job.jobId x = true → x.status = .cancelled →
      command.terminalState = .cancelled := by
    intro x hx hkey hcancelled
    rw [isJob_iff] at hkey
    rw [Table.eq_of_key h.jobKeys hx hjob hkey.2] at hcancelled
    exact absurd hcancelled hstatus
  have hcommitted : Consistent { s with
      results := s.results++[⟨job.jobId,job.scope,command.locator⟩]
      jobs := Table.update (isJob job.scope job.jobId) (setStatus command.terminalState) s.jobs } :=
    consistent_setStatus h rfl rfl rfl hspared
  have htype : eventType ≠ .cancellationRequested := by
    cases hstate : command.terminalState <;> rw [hstate] at hevent <;> cases hevent <;> decide
  unfold commitRow
  by_cases hsubscribed : job.webhookSubscriptionId.isSome
  · rw [if_pos hsubscribed]
    exact consistent_insertEvent hcommitted now _ _ _ fun heq => absurd heq htype
  · rw [if_neg hsubscribed]
    exact hcommitted

theorem commitResult_kept {s : Store} (h : Consistent s) (now : ℤ) (scope : Scope) (jobId : JobId)
    (command : CommitResult) : Consistent (execute s now (.commitResult scope jobId command)) := by
  simp only [execute, Jobs.commitResult]
  split
  · exact h
  · split
    · exact h
    · rename_i hevent
      split
      · exact h
      · rename_i job hfind
        split
        · split
          · exact h
          · split <;> exact h
        · split
          · exact h
          · rename_i hstatus
            split
            · exact h
            · have hactive : job.status ≠ .cancelled := by
                intro hcancelled
                rw [hcancelled] at hstatus
                exact hstatus ⟨by decide,by decide⟩
              exact commitRow_kept h now (Table.mem_of_find? hfind).1 hactive command hevent

theorem uploads_frame (s : Store) (action : UploadScopes.Action) :
    (UploadScopes.step s action).jobs = s.jobs ∧
      (UploadScopes.step s action).pageWorkflows = s.pageWorkflows ∧
      (UploadScopes.step s action).outbox = s.outbox := by
  cases action with
  | create now request =>
    rcases UploadScopes.create_step s now request with h | ⟨_,h⟩ <;> rw [h] <;> exact ⟨rfl,rfl,rfl⟩
  | record now nowUtc scope uploadId record =>
    rcases UploadScopes.record_step s now nowUtc scope uploadId record with h | h <;> rw [h] <;>
      exact ⟨rfl,rfl,rfl⟩
  | claim now scope uploadId owner =>
    simp only [UploadScopes.step, claimUploadInspection]
    split
    · exact ⟨rfl,rfl,rfl⟩
    · split
      · exact ⟨rfl,rfl,rfl⟩
      · split <;> exact ⟨rfl,rfl,rfl⟩
  | accept now scope uploadId source =>
    rw [UploadScopes.accept_step]
    split <;> exact ⟨rfl,rfl,rfl⟩
  | reject now scope uploadId owner reason =>
    rw [UploadScopes.reject_step]
    split <;> exact ⟨rfl,rfl,rfl⟩

theorem execute_consistent {s : Store} (h : Consistent s) (hs : Sourced s) (now : ℤ)
    (c : Command) : Consistent (execute s now c) := by
  cases c with
  | upload action =>
    obtain ⟨hjobs,hworkflows,houtbox⟩ := uploads_frame s action
    exact consistent_same h hjobs hworkflows houtbox
  | create request => exact createJob_kept h hs now request
  | cancel scope jobId => exact cancelJob_kept h now scope jobId
  | completeCancellation scope jobId => exact completeCancellation_kept h now scope jobId
  | createPageWorkflow scope jobId workflow => exact createPageWorkflow_kept h now scope jobId workflow
  | savePageWorkflow scope jobId revision workflow artifacts =>
    exact savePageWorkflow_kept h now scope jobId revision workflow artifacts
  | commitResult scope jobId command => exact commitResult_kept h now scope jobId command

open OutboxExhaustion (Inv claim_cases claimWebhook_cases publish_cases publishedRows_cases)

theorem claimRows_consistent {s : Store} (h : Consistent s) (hi : Inv s) (now : ℤ) (scope : Scope)
    (c : Channel) (claim : ClaimJobOutbox) : Consistent (claimRows s now scope c claim) := by
  refine consistent_frame h rfl rfl ?_
  intro row' hrow'
  obtain ⟨row,hrow,hcase⟩ := claimRows_cases hi.keys hrow'
  refine ⟨row,hrow,?_⟩
  rcases hcase with ⟨rfl,_⟩ | ⟨_,rfl | ⟨rfl,_⟩⟩ <;> exact ⟨rfl,rfl,rfl⟩

theorem publishRow_consistent {s : Store} (h : Consistent s) (now : ℤ) (scope : Scope)
    (eventId : ℕ) (owner : String) : Consistent (publishRow s now scope eventId owner) := by
  refine consistent_frame h rfl rfl ?_
  intro row' hrow'
  rcases publishedRows_cases hrow' with hm | ⟨x,hx,rfl⟩
  · exact ⟨row',hm,rfl,rfl,rfl⟩
  · exact ⟨x,hx,rfl,rfl,rfl⟩

theorem step_consistent {s : Store} (h : Consistent s) (hi : Inv s) (a : OutboxExhaustion.Action) :
    Consistent (OutboxExhaustion.step s a) := by
  cases a with
  | command now c => exact execute_consistent h hi.sourced now c
  | claim now scope claim =>
    have hrows := claimRows_consistent h hi now scope .job claim
    rcases claim_cases hi.sourced now scope claim with ⟨_,heq | heq⟩ | ⟨_,_,heq⟩ <;> rw [heq]
    · exact h
    · exact hrows
    · exact consistent_same hrows rfl rfl rfl
  | claimWebhook now scope claim =>
    rcases claimWebhook_cases s now scope claim with heq | heq <;> rw [heq]
    · exact h
    · exact claimRows_consistent h hi now scope .webhook claim
  | publish now scope eventId owner =>
    rcases publish_cases s now scope eventId owner with ⟨_,heq⟩ | ⟨_,heq⟩ <;> rw [heq]
    · exact h
    · exact publishRow_consistent h now scope eventId owner

end DocumentIntelligence.JobConsistency
