import DocumentIntelligence.Outbox
import DocumentIntelligence.PageWorkflowStore
import DocumentIntelligence.UploadScopes

/-!
# Commands and what they leave alone

A command is one transaction of the services apart from the deliveries of the
outbox. It changes the outbox by appending at most one fresh event, it never
clears a dispatch flag, and it keeps the accepted source of every job.
-/

set_option autoImplicit false

namespace DocumentIntelligence.Commands
open Identifiers hiding Error
open WorkScopes Schema Uploads Jobs Outbox PageWorkflowStore
open PageCheckpoint (PageWorkflow)

inductive Command where
  | upload (action : UploadScopes.Action)
  | create (request : CreateJob)
  | cancel (scope : Scope) (jobId : JobId)
  | completeCancellation (scope : Scope) (jobId : JobId)
  | createPageWorkflow (scope : Scope) (jobId : JobId) (workflow : PageWorkflow)
  | savePageWorkflow (scope : Scope) (jobId : JobId) (expectedRevision : ℕ)
      (workflow : PageWorkflow) (artifacts : List StoredPageArtifact)
  | commitResult (scope : Scope) (jobId : JobId) (command : CommitResult)

def execute (s : Store) (now : ℤ) : Command → Store
  | .upload action => UploadScopes.step s action
  | .create request => commit s (Jobs.create s now request)
  | .cancel scope jobId => commit s (Jobs.cancel s now scope jobId)
  | .completeCancellation scope jobId => commit s (Jobs.completeCancellation s scope jobId)
  | .createPageWorkflow scope jobId workflow =>
    commit s (PageWorkflowStore.createPageWorkflow s scope jobId workflow)
  | .savePageWorkflow scope jobId revision workflow artifacts =>
    commit s (savePageWorkflowWithArtifacts s scope jobId revision workflow artifacts)
  | .commitResult scope jobId command => commit s (Jobs.commitResult s now scope jobId command)

/-- The outbox and the dispatch flags are as before. -/
def KeepsOutbox (s s' : Store) : Prop :=
  s'.outbox = s.outbox ∧ s'.nextEventId = s.nextEventId ∧
    ∀ scope, Pending s.workScopes scope .dispatch → Pending s'.workScopes scope .dispatch

/-- One fresh event is appended, registered if the dispatcher delivers it. -/
def AppendsEvent (s s' : Store) (now : ℤ) : Prop :=
  ∃ scope jobId eventType,
    s'.outbox = s.outbox++[newEvent s.nextEventId now scope jobId eventType] ∧
    s'.nextEventId = s.nextEventId+1 ∧
    (channel eventType = .job → Pending s'.workScopes scope .dispatch) ∧
    ∀ other, Pending s.workScopes other .dispatch → Pending s'.workScopes other .dispatch

theorem KeepsOutbox.refl (s : Store) : KeepsOutbox s s := ⟨rfl,rfl,fun _ h => h⟩

theorem insertDispatchEvent_appends (s : Store) (now : ℤ) (scope : Scope) (jobId : JobId)
    (eventType : EventType) :
    AppendsEvent s (insertDispatchEvent s now scope jobId eventType) now :=
  ⟨scope,jobId,eventType,rfl,rfl,fun _ => pending_register_self now scope .dispatch s.workScopes,
    fun _ => pending_register_mono now scope _ .dispatch .dispatch⟩

theorem upload_keeps (s : Store) (action : UploadScopes.Action) :
    KeepsOutbox s (UploadScopes.step s action) := by
  have hrefl := KeepsOutbox.refl s
  have hclear : ∀ now scope other, Pending s.workScopes other .dispatch →
      Pending (setWorkScopePending now scope .upload false s.workScopes) other .dispatch := by
    intro now scope other h
    exact (pending_set_other now false fun hk => WorkKind.noConfusion hk.2).mpr h
  cases action with
  | create now request =>
    rcases UploadScopes.create_step s now request with h | ⟨_,h⟩ <;> rw [h]
    · exact hrefl
    · exact ⟨rfl,rfl,fun _ h => h⟩
  | record now nowUtc scope uploadId record =>
    rcases UploadScopes.record_step s now nowUtc scope uploadId record with h | h <;> rw [h]
    · exact hrefl
    · exact ⟨rfl,rfl,fun _ => pending_register_mono now scope _ .upload .dispatch⟩
  | claim now scope uploadId owner =>
    simp only [UploadScopes.step, claimUploadInspection]
    split
    · exact hrefl
    · split
      · exact hrefl
      · split
        · exact ⟨rfl,rfl,fun _ h => h⟩
        · exact ⟨rfl,rfl,fun _ h => h⟩
        · exact ⟨rfl,rfl,hclear now scope⟩
        · exact hrefl
  | accept now scope uploadId source =>
    rw [UploadScopes.accept_step]
    split
    · exact ⟨rfl,rfl,hclear now scope⟩
    · exact hrefl
  | reject now scope uploadId owner reason =>
    rw [UploadScopes.reject_step]
    split
    · exact ⟨rfl,rfl,hclear now scope⟩
    · exact hrefl

theorem commitRow_appends_or_keeps (s : Store) (now : ℤ) (job : JobRow) (command : CommitResult)
    {eventType : EventType} (hevent : terminalEvent command.terminalState = some eventType) :
    KeepsOutbox s (commitRow s now job command eventType) ∨
      AppendsEvent s (commitRow s now job command eventType) now := by
  have hchannel : channel eventType ≠ .job := by
    cases hstate : command.terminalState <;> rw [hstate] at hevent <;> cases hevent <;> decide
  unfold commitRow
  by_cases h : job.webhookSubscriptionId.isSome
  · right
    rw [if_pos h]
    exact ⟨job.scope,job.jobId,eventType,rfl,rfl,fun hjob => absurd hjob hchannel,fun _ h => h⟩
  · left
    rw [if_neg h]
    exact ⟨rfl,rfl,fun _ h => h⟩

theorem execute_outbox (s : Store) (now : ℤ) (c : Command) :
    KeepsOutbox s (execute s now c) ∨ AppendsEvent s (execute s now c) now := by
  have hrefl : KeepsOutbox s s := KeepsOutbox.refl s
  cases c with
  | upload action => exact Or.inl (upload_keeps s action)
  | create request =>
    simp only [execute, Jobs.create]
    split
    · exact Or.inl hrefl
    · split
      · split <;> exact Or.inl hrefl
      · split
        · exact Or.inl hrefl
        · split
          · exact Or.inl hrefl
          · exact Or.inr (insertDispatchEvent_appends _ now _ _ _)
  | cancel scope jobId =>
    simp only [execute, Jobs.cancel]
    split
    · exact Or.inl hrefl
    · split
      · exact Or.inr (insertDispatchEvent_appends _ now _ _ _)
      · split <;> exact Or.inl hrefl
  | completeCancellation scope jobId =>
    simp only [execute, Jobs.completeCancellation]
    split
    · exact Or.inl hrefl
    · split
      · exact Or.inl hrefl
      · exact Or.inl ⟨rfl,rfl,fun _ h => h⟩
      · exact Or.inl hrefl
  | createPageWorkflow scope jobId workflow =>
    simp only [execute, PageWorkflowStore.createPageWorkflow]
    split
    · exact Or.inl hrefl
    · split
      · split <;> exact Or.inl ⟨rfl,rfl,fun _ h => h⟩
      · split
        · split <;> exact Or.inl hrefl
        · exact Or.inl hrefl
  | savePageWorkflow scope jobId revision workflow artifacts =>
    simp only [execute, savePageWorkflowWithArtifacts]
    split
    · exact Or.inl hrefl
    · split
      · exact Or.inl hrefl
      · split
        · exact Or.inl hrefl
        · split
          · exact Or.inl hrefl
          · split
            · exact Or.inl hrefl
            · exact Or.inl ⟨rfl,rfl,fun _ h => h⟩
  | commitResult scope jobId command =>
    simp only [execute, Jobs.commitResult]
    split
    · exact Or.inl hrefl
    · split
      · exact Or.inl hrefl
      · rename_i hevent
        split
        · exact Or.inl hrefl
        · split
          · split
            · exact Or.inl hrefl
            · split <;> exact Or.inl hrefl
          · split
            · exact Or.inl hrefl
            · split
              · exact Or.inl hrefl
              · exact commitRow_appends_or_keeps s now _ command hevent

/-- The parser's page count of an accepted upload is one which decodes. -/
def ValidSource (u : UploadRow) : Prop :=
  ∃ source, u.source = some source ∧ 1 ≤ source.parserInspection.pageCount ∧
    source.parserInspection.pageCount ≤ PageCheckpoint.maximumPageCount

/-- Every event has its job and every job its accepted upload. -/
structure Sourced (s : Store) : Prop where
  keys : (s.uploads.map (·.uploadId)).Nodup
  accepted : ∀ u ∈ s.uploads, u.status = .accepted → ValidSource u
  jobs : ∀ job ∈ s.jobs, ∃ u ∈ s.uploads, isUpload job.scope job.uploadId u = true ∧ ValidSource u
  events : ∀ row ∈ s.outbox, ∃ job ∈ s.jobs, isJob row.scope row.jobId job = true

theorem sourced_empty : Sourced empty where
  keys := List.nodup_nil
  accepted := fun _ h => absurd h List.not_mem_nil
  jobs := fun _ h => absurd h List.not_mem_nil
  events := fun _ h => absurd h List.not_mem_nil

theorem sourced_update_uploads {s s' : Store} (hs : Sourced s) {p : UploadRow → Bool}
    {f : UploadRow → UploadRow} (huploads : s'.uploads = Table.update p f s.uploads)
    (hjobs : s'.jobs = s.jobs) (houtbox : s'.outbox = s.outbox)
    (hid : ∀ u, (f u).uploadId = u.uploadId) (hscope : ∀ u, (f u).scope = u.scope)
    (hsource : ∀ u, ValidSource u → ValidSource (f u))
    (haccepted : ∀ u, (u.status = .accepted → ValidSource u) → (f u).status = .accepted →
      ValidSource (f u)) : Sourced s' where
  keys := by
    rw [huploads, Table.map_update _ hid]
    exact hs.keys
  accepted := by
    rw [huploads]
    intro u hu hstatus
    rcases Table.mem_update_cases hu with ⟨hm,_⟩ | ⟨x,hx,_,rfl⟩
    · exact hs.accepted u hm hstatus
    · exact haccepted x (hs.accepted x hx) hstatus
  jobs := by
    rw [huploads, hjobs]
    intro job hjob
    obtain ⟨u,hu,hkey,hvalid⟩ := hs.jobs job hjob
    refine ⟨_,Table.mem_update_of_mem hu,?_,?_⟩
    · split
      · simpa [isUpload, hid, hscope] using hkey
      · exact hkey
    · split
      · exact hsource u hvalid
      · exact hvalid
  events := by
    rw [houtbox, hjobs]
    exact hs.events

theorem acceptRow_sourced {s : Store} (hs : Sourced s) (now : ℤ) (scope : Scope)
    (uploadId : UploadId) {source : AcceptUpload} (hv : validateAcceptedSource source = true) :
    Sourced (acceptRow s now scope uploadId source) := by
  have hvalid : ∀ u, ValidSource (markAccepted now source u) := by
    intro u
    simp only [validateAcceptedSource, Bool.and_eq_true, decide_eq_true_eq] at hv
    obtain ⟨⟨⟨⟨⟨⟨_,hpages⟩,_⟩,_⟩,_⟩,_⟩,_⟩ := hv
    exact ⟨source.source,rfl,hpages.1,hpages.2⟩
  exact sourced_update_uploads hs rfl rfl rfl (fun _ => rfl) (fun _ => rfl)
    (fun u _ => hvalid u) (fun u _ _ => hvalid u)

theorem rejectRow_sourced {s : Store} (hs : Sourced s) (now : ℤ) (scope : Scope)
    (uploadId : UploadId) (reason : UploadRejectionReason) :
    Sourced (rejectRow s now scope uploadId reason) :=
  sourced_update_uploads hs rfl rfl rfl (fun _ => rfl) (fun _ => rfl) (fun _ h => h)
    (fun _ _ h => by cases h)

theorem createRow_sourced {s : Store} (hs : Sourced s) (row : UploadRow)
    (hstatus : row.status = .reserved) (hfresh : ∀ u ∈ s.uploads, u.uploadId ≠ row.uploadId) :
    Sourced { s with uploads := s.uploads++[row] } where
  keys := Table.nodup_append_key hs.keys hfresh
  accepted := by
    intro u hu haccepted
    rcases List.mem_append.mp hu with hm | hm
    · exact hs.accepted u hm haccepted
    · rw [List.mem_singleton] at hm
      rw [hm, hstatus] at haccepted
      cases haccepted
  jobs := by
    intro job hjob
    obtain ⟨u,hu,h⟩ := hs.jobs job hjob
    exact ⟨u,List.mem_append_left _ hu,h⟩
  events := hs.events

theorem upload_sourced {s : Store} (hs : Sourced s) (action : UploadScopes.Action) :
    Sourced (UploadScopes.step s action) := by
  cases action with
  | create now request =>
    rcases UploadScopes.create_step s now request with h | ⟨hfresh,h⟩ <;> rw [h]
    · exact hs
    · exact createRow_sourced hs _ rfl hfresh
  | record now nowUtc scope uploadId record =>
    rcases UploadScopes.record_step s now nowUtc scope uploadId record with h | h <;> rw [h]
    · exact hs
    · exact sourced_update_uploads hs rfl rfl rfl (fun _ => rfl) (fun _ => rfl) (fun _ h => h)
        (fun _ _ h => by cases h)
  | claim now scope uploadId owner =>
    simp only [UploadScopes.step, claimUploadInspection]
    split
    · exact hs
    · split
      · exact hs
      · split
        · exact sourced_update_uploads hs rfl rfl rfl (fun _ => rfl) (fun _ => rfl) (fun _ h => h)
            (fun _ _ h => by cases h)
        · exact sourced_update_uploads hs rfl rfl rfl (fun _ => rfl) (fun _ => rfl) (fun _ h => h)
            (fun _ h => h)
        · exact rejectRow_sourced hs now scope uploadId _
        · exact hs
  | accept now scope uploadId source =>
    rw [UploadScopes.accept_step]
    split
    · rename_i h
      exact acceptRow_sourced hs now scope uploadId (Bool.and_eq_true_iff.mp h).1
    · exact hs
  | reject now scope uploadId owner reason =>
    rw [UploadScopes.reject_step]
    split
    · exact rejectRow_sourced hs now scope uploadId reason
    · exact hs

theorem isJob_iff (scope : Scope) (jobId : JobId) (job : JobRow) :
    isJob scope jobId job = true ↔ job.scope = scope ∧ job.jobId = jobId := by
  simp [isJob]

theorem sourced_frame {s s' : Store} (hs : Sourced s) (huploads : s'.uploads = s.uploads)
    (hjobs : s'.jobs = s.jobs) (houtbox : s'.outbox = s.outbox) : Sourced s' where
  keys := huploads ▸ hs.keys
  accepted := huploads ▸ hs.accepted
  jobs := huploads ▸ hjobs ▸ hs.jobs
  events := hjobs ▸ houtbox ▸ hs.events

theorem sourced_setStatus {s s' : Store} (hs : Sourced s) {p : JobRow → Bool} {status : JobState}
    (huploads : s'.uploads = s.uploads)
    (hjobs : s'.jobs = Table.update p (setStatus status) s.jobs) (houtbox : s'.outbox = s.outbox) :
    Sourced s' where
  keys := huploads ▸ hs.keys
  accepted := huploads ▸ hs.accepted
  jobs := by
    rw [huploads, hjobs]
    intro job hjob
    rcases Table.mem_update_cases hjob with ⟨hm,_⟩ | ⟨x,hx,_,rfl⟩
    · exact hs.jobs job hm
    · exact hs.jobs x hx
  events := by
    rw [hjobs, houtbox]
    intro row hrow
    obtain ⟨job,hjob,hkey⟩ := hs.events row hrow
    refine ⟨_,Table.mem_update_of_mem hjob,?_⟩
    split <;> exact hkey

theorem insertEvent_sourced {s : Store} (hs : Sourced s) (now : ℤ) {scope : Scope} {jobId : JobId}
    (eventType : EventType) (hjob : ∃ job ∈ s.jobs, isJob scope jobId job = true) :
    Sourced (insertEvent s now scope jobId eventType) where
  keys := hs.keys
  accepted := hs.accepted
  jobs := hs.jobs
  events := by
    intro row hrow
    rcases List.mem_append.mp hrow with hm | hm
    · exact hs.events row hm
    · rw [List.mem_singleton] at hm
      rw [hm]
      exact hjob

theorem createJob_sourced {s : Store} (hs : Sourced s) {job : JobRow}
    (hsource : (s.uploads.any fun u => isUpload job.scope job.uploadId u && u.status == .accepted) =
      true) : Sourced { s with jobs := s.jobs++[job] } where
  keys := hs.keys
  accepted := hs.accepted
  jobs := by
    intro x hx
    rcases List.mem_append.mp hx with hm | hm
    · exact hs.jobs x hm
    · rw [List.mem_singleton] at hm
      obtain ⟨u,hu,hkey⟩ := List.any_eq_true.mp hsource
      simp only [Bool.and_eq_true, beq_iff_eq] at hkey
      rw [hm]
      exact ⟨u,hu,hkey.1,hs.accepted u hu hkey.2⟩
  events := by
    intro row hrow
    obtain ⟨x,hx,hkey⟩ := hs.events row hrow
    exact ⟨x,List.mem_append_left _ hx,hkey⟩

/-- The event of a found job, after its status was written. -/
theorem found_job_updated {s : Store} {scope : Scope} {jobId : JobId} {job : JobRow}
    (h : s.jobs.find? (isJob scope jobId) = some job) (status : JobState) :
    ∃ x ∈ Table.update (isJob scope jobId) (setStatus status) s.jobs,
      isJob scope jobId x = true := by
  obtain ⟨hm,hp⟩ := Table.mem_of_find? h
  exact ⟨setStatus status job,Table.mem_update_changed hm hp,hp⟩

theorem execute_sourced {s : Store} (hs : Sourced s) (now : ℤ) (c : Command) :
    Sourced (execute s now c) := by
  cases c with
  | upload action => exact upload_sourced hs action
  | create request =>
    simp only [execute, Jobs.create]
    split
    · exact hs
    · split
      · split <;> exact hs
      · split
        · exact hs
        · rename_i hsource
          split
          · exact hs
          · have hcreated : Sourced { s with jobs := s.jobs++[request.row now] } :=
              createJob_sourced hs (by simpa [CreateJob.row] using hsource)
            have hjob : ∃ job ∈ s.jobs++[request.row now],
                isJob request.scope request.jobId job = true :=
              ⟨request.row now,List.mem_append_right _ (List.mem_singleton_self _),
                by simp [isJob, CreateJob.row]⟩
            exact sourced_frame (insertEvent_sourced hcreated now .accepted hjob) rfl rfl rfl
  | cancel scope jobId =>
    simp only [execute, Jobs.cancel]
    split
    · exact hs
    · rename_i hfind
      split
      · have hcancelled : Sourced { s with
            jobs := Table.update (isJob scope jobId) (setStatus .cancelled) s.jobs } :=
          sourced_setStatus hs rfl rfl rfl
        exact sourced_frame (insertEvent_sourced hcancelled now .cancellationRequested
          (found_job_updated hfind .cancelled)) rfl rfl rfl
      · split <;> exact hs
  | completeCancellation scope jobId =>
    simp only [execute, Jobs.completeCancellation]
    split
    · exact hs
    · split
      · exact hs
      · exact sourced_setStatus hs rfl rfl rfl
      · exact hs
  | createPageWorkflow scope jobId workflow =>
    simp only [execute, PageWorkflowStore.createPageWorkflow]
    split
    · exact hs
    · split
      · split
        · exact sourced_frame hs rfl rfl rfl
        · exact sourced_setStatus hs rfl rfl rfl
      · split
        · split <;> exact hs
        · exact hs
  | savePageWorkflow scope jobId revision workflow artifacts =>
    simp only [execute, savePageWorkflowWithArtifacts]
    split
    · exact hs
    · split
      · exact hs
      · split
        · exact hs
        · split
          · exact hs
          · split
            · exact hs
            · exact sourced_frame hs rfl rfl rfl
  | commitResult scope jobId command =>
    simp only [execute, Jobs.commitResult]
    split
    · exact hs
    · split
      · exact hs
      · split
        · exact hs
        · rename_i job hfind
          split
          · split
            · exact hs
            · split <;> exact hs
          · split
            · exact hs
            · split
              · exact hs
              · have hkey := (isJob_iff _ _ _).mp (Table.mem_of_find? hfind).2
                rw [← hkey.1, ← hkey.2] at hfind
                have hcommitted : Sourced { s with
                    results := s.results++[⟨job.jobId,job.scope,command.locator⟩]
                    jobs := Table.update (isJob job.scope job.jobId)
                      (setStatus command.terminalState) s.jobs } :=
                  sourced_setStatus hs rfl rfl rfl
                simp only [commit_ok, commitRow]
                split
                · exact insertEvent_sourced hcommitted now _ (found_job_updated hfind _)
                · exact hcommitted

/-- The join of a claimed event finds a page count which decodes. -/
theorem joinPageCount_valid {s : Store} (hs : Sourced s) {row : OutboxRow}
    (hrow : ∃ job ∈ s.jobs, isJob row.scope row.jobId job = true) :
    ∃ pageCount : ℤ, joinPageCount s row = some (some pageCount) ∧ 1 ≤ pageCount ∧
      pageCount ≤ PageCheckpoint.maximumPageCount := by
  have hsome : (s.jobs.find? (isJob row.scope row.jobId)).isSome := by
    rw [List.find?_isSome]
    exact hrow
  obtain ⟨job,hfind⟩ := Option.isSome_iff_exists.mp hsome
  obtain ⟨hjob,hkey⟩ := Table.mem_of_find? hfind
  rw [isJob_iff] at hkey
  obtain ⟨u,hu,hukey,source,hsource,hlow,hhigh⟩ := hs.jobs job hjob
  have hunique : ∀ x ∈ s.uploads, isUpload job.scope job.uploadId x = true → x = u := by
    intro x hx hxkey
    rw [UploadScopes.isUpload_iff] at hxkey hukey
    exact Table.eq_of_key hs.keys hx hu (hxkey.2.trans hukey.2.symm)
  have hupload := Table.find?_eq_of_unique hu hukey hunique
  rw [hkey.1] at hupload
  exact ⟨source.parserInspection.pageCount,by simp [joinPageCount, hfind, hupload, hsource],
    hlow,hhigh⟩

/-- A claim of a valid request succeeds and recomputes the flag exactly when it
leases nothing. -/
theorem claimJobOutbox_commit {s : Store} (hs : Sourced s) (now : ℤ) (scope : Scope)
    (claim : ClaimJobOutbox) :
    commit s (claimJobOutbox s now scope claim) =
      if !isValidLeaseOwner claim.leaseOwner || decide (claim.limit < 1 ∨ 100 < claim.limit) then s
      else if (candidates (deadLetterExhausted s now scope) now scope .job claim).isEmpty then
        recomputeDispatch (claimRows s now scope .job claim) now scope
      else claimRows s now scope .job claim := by
  unfold claimJobOutbox
  cases hv : isValidLeaseOwner claim.leaseOwner with
  | false => rfl
  | true =>
    by_cases hlimit : claim.limit < 1 ∨ 100 < claim.limit
    · simp only [hlimit, Bool.not_true, Bool.false_eq_true, if_false, if_true, decide_true,
        Bool.or_true]
      rfl
    · simp only [hlimit, Bool.not_true, Bool.false_eq_true, if_false, decide_false, Bool.or_false]
      set claimed := candidates (deadLetterExhausted s now scope) now scope .job claim
      set s' := claimRows s now scope .job claim
      set rows := claimed.filterMap fun row => (joinPageCount s' row).map (row,·)
      have hjoin : ∀ row ∈ claimed, ∃ pageCount : ℤ, joinPageCount s' row = some (some pageCount) ∧
          1 ≤ pageCount ∧ pageCount ≤ PageCheckpoint.maximumPageCount := by
        intro row hrow
        exact joinPageCount_valid hs (hs.events row (candidates_mem hrow).1)
      have hempty : rows.isEmpty = claimed.isEmpty := by
        rw [Bool.eq_iff_iff, List.isEmpty_iff, List.isEmpty_iff, List.filterMap_eq_nil_iff]
        constructor
        · intro hnone
          apply List.eq_nil_iff_forall_not_mem.mpr
          intro row hrow
          obtain ⟨n,hn,_⟩ := hjoin row hrow
          have hmap := hnone row hrow
          rw [hn] at hmap
          cases hmap
        · intro hnil row hrow
          rw [hnil] at hrow
          cases hrow
      have hdecode : ∀ x ∈ rows, ∃ event, storedJobOutboxEvent x.1 x.2 = .ok event := by
        intro x hx
        obtain ⟨row,hrow,hmap⟩ := List.mem_filterMap.mp hx
        obtain ⟨n,hn,hbounds⟩ := hjoin row hrow
        rw [hn] at hmap
        cases hmap
        have hclaimable := (candidates_mem hrow).2.2
        simp only [claimable, Bool.and_eq_true, beq_iff_eq] at hclaimable
        obtain ⟨t,ht⟩ := jobOutboxEventType_of_channel hclaimable.1.1.1
        exact ⟨_,storedJobOutboxEvent_ok ht hbounds⟩
      obtain ⟨events,hevents⟩ := Table.mapM_ok_of_forall hdecode
      rw [hempty, hevents]
      rfl

def jobRequest : CreateJob := ⟨default,default,default,default,default,none,none⟩

/-- One upload is recorded, inspected and accepted, and a job is created from it. -/
def acceptedJob : List Command :=
  [.upload (.create 0 (UploadScopes.reservation default default)),
    .upload (.record 1 1 default default UploadScopes.received),
    .upload (.claim 2 default default "worker"),
    .upload (.accept 3 default default UploadScopes.promoted), .create jobRequest]

end DocumentIntelligence.Commands
