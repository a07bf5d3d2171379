import DocumentIntelligence.TableParts
import DocumentIntelligence.TenantOperations

/-!
# The rows of a scope

The rows of one scope are a database of their own. A transaction of the scope follows its
run over these rows alone: it has the same outcome and changes them alike, up to the event
identities which it is handed, and no row of another scope is changed.
-/

set_option autoImplicit false

namespace DocumentIntelligence.TenantRows
open Identifiers hiding Error
open WorkScopes Schema Uploads Jobs Outbox PageWorkflowStore
open TableParts

/-- An identity which was handed out after the `next` one was noted. -/
def forget (next identity : ℕ) : ℕ := if next ≤ identity then 0 else identity

theorem forget_new (next : ℕ) : forget next next = 0 := if_pos le_rfl

theorem forget_old {next identity : ℕ} (h : identity < next) : forget next identity = identity :=
  if_neg (Nat.not_le.mpr h)

def forgetUploadEvent (next : ℕ) (row : UploadOutboxRow) : UploadOutboxRow :=
  { row with eventId := forget next row.eventId }

def forgetEvent (next : ℕ) (row : OutboxRow) : OutboxRow :=
  { row with eventId := forget next row.eventId }

/-- The rows of a scope; the next identities belong to no scope. -/
def storeRows (scope : Scope) (s : Store) : Store where
  uploads := part (·.scope) scope s.uploads
  uploadOutbox := part (·.scope) scope s.uploadOutbox
  jobs := part (·.scope) scope s.jobs
  outbox := part (·.scope) scope s.outbox
  results := part (·.scope) scope s.results
  pageWorkflows := part (·.scope) scope s.pageWorkflows
  pageArtifacts := part (·.scope) scope s.pageArtifacts
  workScopes := part (·.scope) scope s.workScopes
  nextUploadEventId := 0
  nextEventId := 0

def forgetStore (before s : Store) : Store :=
  { s with
    uploadOutbox := s.uploadOutbox.map (forgetUploadEvent before.nextUploadEventId)
    outbox := s.outbox.map (forgetEvent before.nextEventId) }

/-- What the constraints of the schema say about keys which cross the scopes. -/
structure Constrained (s : Store) : Prop where
  jobKeys : (s.jobs.map (·.jobId)).Nodup
  eventKeys : (s.outbox.map (·.eventId)).Nodup
  uploadEvents : ∀ e ∈ s.uploadOutbox, e.eventId < s.nextUploadEventId
  events : ∀ e ∈ s.outbox, e.eventId < s.nextEventId
  results : ∀ r ∈ s.results, ∃ job ∈ s.jobs, isJob r.scope r.jobId job = true
  pageWorkflows : ∀ w ∈ s.pageWorkflows, ∃ job ∈ s.jobs, isJob w.scope w.jobId job = true
  pageArtifacts : ∀ a ∈ s.pageArtifacts, ∃ job ∈ s.jobs, isJob a.scope a.jobId job = true

theorem scope_of_and {scope scope' : Scope} {b : Bool} (h : (scope' == scope && b) = true) :
    scope' = scope := by
  rw [Bool.and_eq_true, beq_iff_eq] at h
  exact h.1

theorem isJob_owner {scope : Scope} {jobId : JobId} {job : JobRow}
    (h : isJob scope jobId job = true) : job.scope = scope := scope_of_and h

theorem isUpload_owner {scope : Scope} {uploadId : UploadId} {u : UploadRow}
    (h : isUpload scope uploadId u = true) : u.scope = scope := scope_of_and h

/-- Two jobs of one identity are one job, whose scope is the one found. -/
theorem Constrained.job_scope {s : Store} (h : Constrained s) {scope scope' : Scope}
    {jobId : JobId} {job : JobRow} (hjob : s.jobs.find? (isJob scope jobId) = some job)
    (hother : ∃ job ∈ s.jobs, isJob scope' jobId job = true) : scope' = scope := by
  obtain ⟨hmem,hkey⟩ := Table.mem_of_find? hjob
  obtain ⟨other,homem,hokey⟩ := hother
  rw [Commands.isJob_iff] at hkey hokey
  have heq : other = job := Table.eq_of_key h.jobKeys homem hmem (hokey.2.trans hkey.2.symm)
  rw [← hkey.1, ← hokey.1, heq]

theorem Constrained.find_job {s : Store} (h : Constrained s) {scope : Scope} {jobId : JobId}
    {job : JobRow} (hmem : job ∈ s.jobs) (hkey : isJob scope jobId job = true) :
    s.jobs.find? (isJob scope jobId) = some job := by
  apply Table.find?_eq_of_unique hmem hkey
  intro other homem hother
  rw [Commands.isJob_iff] at hkey hother
  exact Table.eq_of_key h.jobKeys homem hmem (hother.2.trans hkey.2.symm)

/-! ### Following -/

/-- The tables of a store after a transaction of the scope and the tables of the rows of
the scope after the same transaction. -/
structure StoreMirrors (scope : Scope) (before whole mine : Store) : Prop where
  uploads : Mirrors (·.scope) id scope before.uploads whole.uploads mine.uploads
  uploadOutbox : Mirrors (·.scope) (forgetUploadEvent before.nextUploadEventId) scope
    before.uploadOutbox whole.uploadOutbox mine.uploadOutbox
  jobs : Mirrors (·.scope) id scope before.jobs whole.jobs mine.jobs
  outbox : Mirrors (·.scope) (forgetEvent before.nextEventId) scope
    before.outbox whole.outbox mine.outbox
  results : Mirrors (·.scope) id scope before.results whole.results mine.results
  pageWorkflows : Mirrors (·.scope) id scope
    before.pageWorkflows whole.pageWorkflows mine.pageWorkflows
  pageArtifacts : Mirrors (·.scope) id scope
    before.pageArtifacts whole.pageArtifacts mine.pageArtifacts
  workScopes : Mirrors (·.scope) id scope before.workScopes whole.workScopes mine.workScopes

/-- Both runs fail alike, or both commit with one outcome. -/
inductive Follows {D α ε : Type} (R : D → D → Prop) : Except ε (α×D) → Except ε (α×D) → Prop
  | failed (e : ε) : Follows R (.error e) (.error e)
  | committed (outcome : α) {whole mine : D} : R whole mine →
      Follows R (.ok (outcome,whole)) (.ok (outcome,mine))

section Follows
variable {D α β ε : Type} {R : D → D → Prop} {x y x' y' : Except ε (α×D)}

theorem Follows.ite {p : Prop} [Decidable p] (hx : Follows R x y) (hx' : Follows R x' y') :
    Follows R (if p then x else x') (if p then y else y') := by
  by_cases h : p
  · rwa [if_pos h, if_pos h]
  · rwa [if_neg h, if_neg h]

/-- The outcome is computed first, and the write is made if it could be. -/
theorem follows_map {whole mine : D} (h : R whole mine) (result : Except ε β) (f : β → α) :
    Follows R (result.map fun b => (f b,whole)) (result.map fun b => (f b,mine)) := by
  cases result with
  | error e => exact Follows.failed e
  | ok b => exact Follows.committed (f b) h

/-- A first part without an outcome. -/
theorem follows_bind {S : D → D → Prop} {a b : Except ε D} {f g : D → Except ε (α×D)}
    (h : Follows S (a.map fun d => ((),d)) (b.map fun d => ((),d)))
    (hrest : ∀ whole mine, S whole mine → Follows R (f whole) (g mine)) :
    Follows R (a >>= f) (b >>= g) := by
  cases a with
  | error e =>
    cases b with
    | error e' =>
      cases h
      exact Follows.failed e
    | ok mine => cases h
  | ok whole =>
    cases b with
    | error e' => cases h
    | ok mine =>
      cases h with
      | committed _ hs => exact hrest whole mine hs

/-- The state after a transaction: a failed one is rolled back. -/
def stateAfter (d : D) (result : Except ε (α×D)) : D :=
  match result with
  | .ok (_,d') => d'
  | .error _ => d

theorem Follows.outcome (h : Follows R x y) : x.map Prod.fst = y.map Prod.fst := by
  cases h with
  | failed e => rfl
  | committed outcome _ => rfl

theorem Follows.after {d mine : D} (h : Follows R x y) (hkept : R d mine) :
    R (stateAfter d x) (stateAfter mine y) := by
  cases h with
  | failed e => exact hkept
  | committed _ hr => exact hr

end Follows

variable {s s' m : Store} {scope : Scope}

theorem mirrors_kept (h : Constrained s) (scope : Scope) :
    StoreMirrors scope s s (storeRows scope s) where
  uploads := mirrors_refl fun _ _ => rfl
  uploadOutbox := mirrors_refl fun e he =>
    congrArg (fun i => { e with eventId := i }) (forget_old (h.uploadEvents e he))
  jobs := mirrors_refl fun _ _ => rfl
  outbox := mirrors_refl fun e he =>
    congrArg (fun i => { e with eventId := i }) (forget_old (h.events e he))
  results := mirrors_refl fun _ _ => rfl
  pageWorkflows := mirrors_refl fun _ _ => rfl
  pageArtifacts := mirrors_refl fun _ _ => rfl
  workScopes := mirrors_refl fun _ _ => rfl

/-! ### Statements -/

section Statements
variable (h : StoreMirrors scope s s' m)
include h

theorem uploads_update {p : UploadRow → Bool} {f : UploadRow → UploadRow}
    (hp : ∀ u, p u = true → u.scope = scope) (hf : ∀ u, (f u).scope = u.scope) :
    StoreMirrors scope s { s' with uploads := Table.update p f s'.uploads }
      { m with uploads := Table.update p f m.uploads } :=
  { h with uploads := h.uploads.update (fun u _ => hp u) hf (fun _ _ => rfl) fun _ => rfl }

theorem jobs_update {p : JobRow → Bool} {f : JobRow → JobRow}
    (hp : ∀ j, p j = true → j.scope = scope) (hf : ∀ j, (f j).scope = j.scope) :
    StoreMirrors scope s { s' with jobs := Table.update p f s'.jobs }
      { m with jobs := Table.update p f m.jobs } :=
  { h with jobs := h.jobs.update (fun j _ => hp j) hf (fun _ _ => rfl) fun _ => rfl }

theorem jobs_append {job : JobRow} (hjob : job.scope = scope) :
    StoreMirrors scope s { s' with jobs := s'.jobs++[job] } { m with jobs := m.jobs++[job] } :=
  { h with jobs := h.jobs.append hjob hjob rfl }

theorem results_append {result : ResultRow} (hresult : result.scope = scope) :
    StoreMirrors scope s { s' with results := s'.results++[result] }
      { m with results := m.results++[result] } :=
  { h with results := h.results.append hresult hresult rfl }

/-- Each transaction appends one event of a kind at most, with the next identity. -/
theorem insertUploadEvent_mirrors (hnext : s'.nextUploadEventId = s.nextUploadEventId)
    (hmine : m.nextUploadEventId = 0) (uploadId : UploadId) (eventType : UploadEventType) :
    StoreMirrors scope s (insertUploadEvent s' scope uploadId eventType)
      (insertUploadEvent m scope uploadId eventType) := by
  have hevent : forgetUploadEvent s.nextUploadEventId
      ⟨s'.nextUploadEventId,scope,uploadId,eventType⟩ =
        ⟨m.nextUploadEventId,scope,uploadId,eventType⟩ := by
    rw [hnext, hmine, forgetUploadEvent, forget_new]
  exact { h with uploadOutbox := h.uploadOutbox.append rfl rfl hevent }

theorem insertEvent_mirrors (hnext : s'.nextEventId = s.nextEventId) (hmine : m.nextEventId = 0)
    (now : ℤ) (jobId : JobId) (eventType : EventType) :
    StoreMirrors scope s (insertEvent s' now scope jobId eventType)
      (insertEvent m now scope jobId eventType) := by
  have hevent : forgetEvent s.nextEventId (newEvent s'.nextEventId now scope jobId eventType) =
      newEvent m.nextEventId now scope jobId eventType := by
    rw [hnext, hmine, forgetEvent, newEvent, newEvent, forget_new]
  exact { h with outbox := h.outbox.append rfl rfl hevent }

theorem setWorkScopePending_mirrors (now : ℤ) (kind : WorkKind) (pending : Bool) :
    StoreMirrors scope s
      { s' with workScopes := setWorkScopePending now scope kind pending s'.workScopes }
      { m with workScopes := setWorkScopePending now scope kind pending m.workScopes } := by
  have hrows := h.workScopes.update (p := (·.scope == scope)) (f := (·.setPending now kind pending))
    (fun _ _ hp => beq_iff_eq.mp hp) (fun _ => rfl) (fun _ _ => rfl) fun _ => rfl
  exact { h with workScopes := hrows }

theorem registerWorkScope_mirrors (now : ℤ) (kind : WorkKind) :
    StoreMirrors scope s
      { s' with workScopes := registerWorkScope now scope kind s'.workScopes }
      { m with workScopes := registerWorkScope now scope kind m.workScopes } := by
  have hany : m.workScopes.any (·.scope == scope) = s'.workScopes.any (·.scope == scope) :=
    h.workScopes.any_eq (fun _ hp => beq_iff_eq.mp hp) fun _ _ => rfl
  simp only [registerWorkScope, hany]
  by_cases hrow : s'.workScopes.any (·.scope == scope) = true
  · simp only [if_pos hrow]
    have hrows := h.workScopes.update (p := (·.scope == scope)) (f := (·.register now kind))
      (fun _ _ hp => beq_iff_eq.mp hp) (fun _ => rfl) (fun _ _ => rfl) fun _ => rfl
    exact { h with workScopes := hrows }
  · simp only [if_neg hrow]
    exact { h with workScopes := h.workScopes.append rfl rfl rfl }

theorem insertDispatchEvent_mirrors (hnext : s'.nextEventId = s.nextEventId)
    (hmine : m.nextEventId = 0) (now : ℤ) (jobId : JobId) (eventType : EventType) :
    StoreMirrors scope s (insertDispatchEvent s' now scope jobId eventType)
      (insertDispatchEvent m now scope jobId eventType) :=
  registerWorkScope_mirrors (insertEvent_mirrors h hnext hmine now jobId eventType) now .dispatch

end Statements

/-! ### Uploads -/

section Uploads
variable (h : Constrained s) (scope : Scope) (now : ℤ)

theorem find_upload (s : Store) {p : UploadRow → Bool} (hp : ∀ u, p u = true → u.scope = scope) :
    (storeRows scope s).uploads.find? p = s.uploads.find? p :=
  find?_part fun u _ => hp u

theorem find_isUpload (s : Store) (uploadId : UploadId) :
    (storeRows scope s).uploads.find? (isUpload scope uploadId) =
      s.uploads.find? (isUpload scope uploadId) :=
  find_upload scope s fun _ => isUpload_owner

include h

theorem recordRow_mirrors (uploadId : UploadId) (record : RecordUpload) :
    StoreMirrors scope s (recordRow s now scope uploadId record)
      (recordRow (storeRows scope s) now scope uploadId record) := by
  have hrow := uploads_update (mirrors_kept h scope) (p := isUpload scope uploadId)
    (f := markUploaded now record) (fun _ => isUpload_owner) fun _ => rfl
  exact registerWorkScope_mirrors (insertUploadEvent_mirrors hrow rfl rfl uploadId .received)
    now .upload

theorem rejectRow_mirrors (uploadId : UploadId) (reason : UploadRejectionReason) :
    StoreMirrors scope s (rejectRow s now scope uploadId reason)
      (rejectRow (storeRows scope s) now scope uploadId reason) := by
  have hrow := uploads_update (mirrors_kept h scope) (p := isUpload scope uploadId)
    (f := markRejected reason) (fun _ => isUpload_owner) fun _ => rfl
  exact insertUploadEvent_mirrors (setWorkScopePending_mirrors hrow now .upload false) rfl rfl
    uploadId .rejected

theorem acceptRow_mirrors (uploadId : UploadId) (accept : AcceptUpload) :
    StoreMirrors scope s (acceptRow s now scope uploadId accept)
      (acceptRow (storeRows scope s) now scope uploadId accept) := by
  have hrow := uploads_update (mirrors_kept h scope) (p := isUpload scope uploadId)
    (f := markAccepted now accept) (fun _ => isUpload_owner) fun _ => rfl
  exact setWorkScopePending_mirrors (insertUploadEvent_mirrors hrow rfl rfl uploadId .accepted)
    now .upload false

/-- The keys besides the arbiter are asked of all scopes. -/
theorem createUpload_follows (request : CreateUpload)
    (hfresh : ∀ u ∈ s.uploads, (u.uploadId == request.uploadId ||
      u.objectBucket == request.objectBucket && u.objectName == request.objectName) = true →
      u.scope = request.scope) :
    Follows (StoreMirrors request.scope s) (createUpload s now request)
      (createUpload (storeRows request.scope s) now request) := by
  have hkept := mirrors_kept h request.scope
  have hfind : (storeRows request.scope s).uploads.find? (fun u =>
      u.scope == request.scope && u.idempotencyKey == request.idempotencyKey) =
      s.uploads.find? fun u =>
        u.scope == request.scope && u.idempotencyKey == request.idempotencyKey :=
    find_upload request.scope s fun _ => scope_of_and
  have hany : (storeRows request.scope s).uploads.any (fun u => u.uploadId == request.uploadId ||
      u.objectBucket == request.objectBucket && u.objectName == request.objectName) =
      s.uploads.any fun u => u.uploadId == request.uploadId ||
        u.objectBucket == request.objectBucket && u.objectName == request.objectName :=
    any_part hfresh
  simp only [createUpload, hfind, hany]
  apply Follows.ite (Follows.failed _)
  cases s.uploads.find? fun u =>
      u.scope == request.scope && u.idempotencyKey == request.idempotencyKey with
  | some existing => exact Follows.ite (Follows.failed _) (follows_map hkept _ _)
  | none =>
    apply Follows.ite (Follows.failed _)
    apply follows_map
    exact { hkept with uploads := hkept.uploads.append rfl rfl rfl }

theorem recordUploaded_follows (nowUtc : ℤ) (uploadId : UploadId) (record : RecordUpload) :
    Follows (StoreMirrors scope s) (recordUploaded s now nowUtc scope uploadId record)
      (recordUploaded (storeRows scope s) now nowUtc scope uploadId record) := by
  have hkept := mirrors_kept h scope
  simp only [recordUploaded, find_isUpload]
  apply Follows.ite (Follows.failed _)
  cases s.uploads.find? (isUpload scope uploadId) with
  | none => exact Follows.committed _ hkept
  | some u =>
    apply Follows.ite (follows_map (recordRow_mirrors h scope now uploadId record) _ _)
    cases u.status with
    | uploaded => exact Follows.ite (follows_map hkept _ _) (Follows.committed _ hkept)
    | _ => exact Follows.committed _ hkept

theorem claimUploadInspection_follows (uploadId : UploadId) (leaseOwner : String) :
    Follows (StoreMirrors scope s) (claimUploadInspection s now scope uploadId leaseOwner)
      (claimUploadInspection (storeRows scope s) now scope uploadId leaseOwner) := by
  have hkept := mirrors_kept h scope
  simp only [claimUploadInspection, find_isUpload]
  apply Follows.ite (Follows.failed _)
  cases s.uploads.find? (isUpload scope uploadId) with
  | none => exact Follows.committed _ hkept
  | some u =>
    dsimp only
    cases claimOutcome now leaseOwner u with
    | claimed =>
      apply Follows.committed
      exact uploads_update hkept (fun _ => isUpload_owner) fun _ => rfl
    | existing =>
      apply Follows.committed
      apply uploads_update hkept
      · intro u hu
        rw [Bool.and_eq_true] at hu
        exact isUpload_owner hu.1
      · exact fun _ => rfl
    | attemptsExhausted =>
      exact Follows.committed _ (rejectRow_mirrors h scope now uploadId _)
    | _ => exact Follows.committed _ hkept

theorem acceptUpload_follows (uploadId : UploadId) (accept : AcceptUpload) :
    Follows (StoreMirrors scope s) (acceptUpload s now scope uploadId accept)
      (acceptUpload (storeRows scope s) now scope uploadId accept) := by
  have hkept := mirrors_kept h scope
  simp only [acceptUpload, find_isUpload]
  apply Follows.ite (Follows.failed _)
  cases s.uploads.find? (isUpload scope uploadId) with
  | none => exact Follows.committed _ hkept
  | some u =>
    apply Follows.ite (Follows.committed _ (acceptRow_mirrors h scope now uploadId accept))
    exact Follows.ite (Follows.committed _ hkept) (Follows.committed _ hkept)

theorem rejectUpload_follows (uploadId : UploadId) (leaseOwner : String)
    (reason : UploadRejectionReason) :
    Follows (StoreMirrors scope s) (rejectUpload s now scope uploadId leaseOwner reason)
      (rejectUpload (storeRows scope s) now scope uploadId leaseOwner reason) := by
  have hkept := mirrors_kept h scope
  simp only [rejectUpload, find_isUpload]
  apply Follows.ite (Follows.failed _)
  cases s.uploads.find? (isUpload scope uploadId) with
  | none => exact Follows.committed _ hkept
  | some u =>
    apply Follows.ite (Follows.committed _ (rejectRow_mirrors h scope now uploadId reason))
    exact Follows.ite (Follows.committed _ hkept) (Follows.committed _ hkept)

omit h

theorem findUpload_rows (uploadId : UploadId) :
    findUpload (storeRows scope s) scope uploadId = findUpload s scope uploadId := by
  rw [findUpload, find_isUpload, findUpload]

theorem loadClaimedUpload_rows (uploadId : UploadId) (leaseOwner : String) :
    loadClaimedUpload (storeRows scope s) now scope uploadId leaseOwner =
      loadClaimedUpload s now scope uploadId leaseOwner := by
  simp only [loadClaimedUpload]
  rw [find_upload]
  intro u hu
  rw [Bool.and_eq_true, Bool.and_eq_true, Bool.and_eq_true] at hu
  exact isUpload_owner hu.1.1.1

theorem listReconcilableUploads_rows (limit : ℕ) :
    listReconcilableUploads (storeRows scope s) now scope limit =
      listReconcilableUploads s now scope limit := by
  have hrows : ∀ q : UploadRow → Bool, (storeRows scope s).uploads.filter (fun u =>
      u.scope == scope && q u) = s.uploads.filter fun u => u.scope == scope && q u := by
    intro q
    apply filter_part
    intro u _ hu
    rw [Bool.and_eq_true, beq_iff_eq] at hu
    exact hu.1
  simp only [listReconcilableUploads, hrows]

end Uploads

/-! ### Jobs -/

section Jobs
variable (h : Constrained s) (scope : Scope) (now : ℤ)

theorem find_job (s : Store) (jobId : JobId) :
    (storeRows scope s).jobs.find? (isJob scope jobId) = s.jobs.find? (isJob scope jobId) :=
  find?_part fun _ _ => isJob_owner

theorem find_result (s : Store) (jobId : JobId) :
    (storeRows scope s).results.find? (isResult scope jobId) =
      s.results.find? (isResult scope jobId) := find?_part fun _ _ => scope_of_and

include h

theorem setStatus_mirrors (jobId : JobId) (status : JobState) :
    StoreMirrors scope s
      { s with jobs := Table.update (isJob scope jobId) (setStatus status) s.jobs }
      { storeRows scope s with
        jobs := Table.update (isJob scope jobId) (setStatus status) (storeRows scope s).jobs } :=
  jobs_update (mirrors_kept h scope) (fun _ => isJob_owner) fun _ => rfl

/-- The identity of a job is asked of all scopes. -/
theorem create_follows (request : CreateJob)
    (hfresh : ∀ job ∈ s.jobs, (job.jobId == request.jobId) = true → job.scope = request.scope) :
    Follows (StoreMirrors request.scope s) (create s now request)
      (create (storeRows request.scope s) now request) := by
  have hkept := mirrors_kept h request.scope
  have hsource : ((storeRows request.scope s).uploads.any fun u =>
      isUpload request.scope request.uploadId u && u.status == .accepted) =
      s.uploads.any fun u =>
        isUpload request.scope request.uploadId u && u.status == .accepted := by
    apply any_part
    intro u _ hu
    rw [Bool.and_eq_true] at hu
    exact isUpload_owner hu.1
  have hfind : (storeRows request.scope s).jobs.find? (fun j =>
      j.scope == request.scope && j.idempotencyKey == request.idempotencyKey) =
      s.jobs.find? fun j =>
        j.scope == request.scope && j.idempotencyKey == request.idempotencyKey :=
    find?_part fun _ _ => scope_of_and
  have hany : (storeRows request.scope s).jobs.any (·.jobId == request.jobId) =
      s.jobs.any (·.jobId == request.jobId) := any_part hfresh
  simp only [create, hsource, hfind, hany]
  apply Follows.ite (Follows.failed _)
  cases s.jobs.find? fun j =>
      j.scope == request.scope && j.idempotencyKey == request.idempotencyKey with
  | some job => exact Follows.ite (Follows.failed _) (Follows.committed _ hkept)
  | none =>
    apply Follows.ite (Follows.failed _)
    apply Follows.ite (Follows.failed _)
    apply Follows.committed
    have hrow := jobs_append hkept (show (request.row now).scope = request.scope from rfl)
    exact insertDispatchEvent_mirrors hrow rfl rfl now request.jobId .accepted

theorem cancel_follows (jobId : JobId) :
    Follows (StoreMirrors scope s) (cancel s now scope jobId)
      (cancel (storeRows scope s) now scope jobId) := by
  have hkept := mirrors_kept h scope
  simp only [cancel, find_job]
  cases s.jobs.find? (isJob scope jobId) with
  | none => exact Follows.committed _ hkept
  | some job =>
    apply Follows.ite
    · apply Follows.committed
      exact insertDispatchEvent_mirrors (setStatus_mirrors h scope jobId .cancelled) rfl rfl now
        jobId .cancellationRequested
    · exact Follows.ite (Follows.committed _ hkept) (Follows.committed _ hkept)

theorem completeCancellation_follows (jobId : JobId) :
    Follows (StoreMirrors scope s) (completeCancellation s scope jobId)
      (completeCancellation (storeRows scope s) scope jobId) := by
  have hkept := mirrors_kept h scope
  simp only [completeCancellation, find_job]
  cases s.jobs.find? (isJob scope jobId) with
  | none => exact Follows.committed _ hkept
  | some job =>
    dsimp only
    cases job.status with
    | cancelling => exact Follows.committed _ (setStatus_mirrors h scope jobId .cancelled)
    | _ => exact Follows.committed _ hkept

theorem commitRow_mirrors {job : JobRow} (hjob : job.scope = scope) (command : CommitResult)
    (eventType : EventType) :
    StoreMirrors scope s (commitRow s now job command eventType)
      (commitRow (storeRows scope s) now job command eventType) := by
  have hresult : (⟨job.jobId,scope,command.locator⟩ : ResultRow).scope = scope := rfl
  have hrow := results_append (setStatus_mirrors h scope job.jobId command.terminalState) hresult
  simp only [commitRow, hjob]
  by_cases hwebhook : job.webhookSubscriptionId.isSome = true
  · simp only [if_pos hwebhook]
    exact insertEvent_mirrors hrow rfl rfl now job.jobId eventType
  · simp only [if_neg hwebhook]
    exact hrow

/-- A result of the job belongs to the scope in which the job was found. -/
theorem commitResult_follows (jobId : JobId) (command : CommitResult) :
    Follows (StoreMirrors scope s) (commitResult s now scope jobId command)
      (commitResult (storeRows scope s) now scope jobId command) := by
  have hkept := mirrors_kept h scope
  simp only [commitResult, find_job, find_result]
  apply Follows.ite (Follows.failed _)
  cases terminalEvent command.terminalState with
  | none => exact Follows.failed _
  | some eventType =>
    dsimp only
    cases hjob : s.jobs.find? (isJob scope jobId) with
    | none => exact Follows.committed _ hkept
    | some job =>
      dsimp only
      cases s.results.find? (isResult scope jobId) with
      | some existing =>
        apply Follows.ite (Follows.failed _)
        exact Follows.ite (Follows.committed _ hkept) (Follows.committed _ hkept)
      | none =>
        have hany : ((storeRows scope s).results.any fun r => r.jobId == jobId ||
            r.scope == scope && r.locator.documentId == command.locator.documentId &&
              r.locator.documentVersion == command.locator.documentVersion) =
            s.results.any fun r => r.jobId == jobId ||
              r.scope == scope && r.locator.documentId == command.locator.documentId &&
                r.locator.documentVersion == command.locator.documentVersion := by
          apply any_part
          intro r hr hkey
          rw [Bool.or_eq_true, beq_iff_eq, Bool.and_eq_true, Bool.and_eq_true, beq_iff_eq] at hkey
          rcases hkey with hid | hversion
          · exact h.job_scope hjob (hid ▸ h.results r hr)
          · exact hversion.1.1
        simp only [hany]
        apply Follows.ite (Follows.committed _ hkept)
        apply Follows.ite (Follows.failed _)
        have hscope := isJob_owner (Table.mem_of_find? hjob).2
        exact Follows.committed _ (commitRow_mirrors h scope now hscope command eventType)

/-- The result is joined by the identity of the job alone. -/
theorem findResult_rows (jobId : JobId) :
    JobLifecycle.findResult (storeRows scope s) scope jobId =
      JobLifecycle.findResult s scope jobId := by
  simp only [JobLifecycle.findResult, find_job]
  cases hjob : s.jobs.find? (isJob scope jobId) with
  | none => rfl
  | some job =>
    have hresult : (storeRows scope s).results.find? (·.jobId == job.jobId) =
        s.results.find? (·.jobId == job.jobId) := by
      apply find?_part
      intro r hr hid
      have hkey := (Commands.isJob_iff _ _ _).mp (Table.mem_of_find? hjob).2
      rw [beq_iff_eq, hkey.2] at hid
      exact h.job_scope hjob (hid ▸ h.results r hr)
    simp only [hresult]

omit h

theorem find_rows (jobId : JobId) :
    JobStatusCache.find (storeRows scope s) scope jobId =
      JobStatusCache.find s scope jobId := by
  rw [JobStatusCache.find, find_job, JobStatusCache.find]

theorem acceptedJob_rows (jobId : JobId) :
    TenantOperations.acceptedJob (storeRows scope s) scope jobId =
      TenantOperations.acceptedJob s scope jobId := by
  have hupload : ∀ uploadId, (storeRows scope s).uploads.find? (fun u =>
      isUpload scope uploadId u && u.status == .accepted) =
      s.uploads.find? fun u => isUpload scope uploadId u && u.status == .accepted := by
    intro uploadId
    apply find_upload
    intro u hu
    rw [Bool.and_eq_true] at hu
    exact isUpload_owner hu.1
  simp only [TenantOperations.acceptedJob, find_job, hupload]

theorem loadDocumentIdentity_rows (jobId : JobId) :
    TenantOperations.loadDocumentIdentity (storeRows scope s) scope jobId =
      TenantOperations.loadDocumentIdentity s scope jobId := by
  rw [TenantOperations.loadDocumentIdentity, acceptedJob_rows,
    TenantOperations.loadDocumentIdentity]

theorem loadAcceptedSource_rows (jobId : JobId) :
    TenantOperations.loadAcceptedSource (storeRows scope s) scope jobId =
      TenantOperations.loadAcceptedSource s scope jobId := by
  rw [TenantOperations.loadAcceptedSource, acceptedJob_rows,
    TenantOperations.loadAcceptedSource]

end Jobs

/-! ### Page workflows -/

section PageWorkflows
open PageCheckpoint (PageWorkflow)
variable (h : Constrained s) (scope : Scope) (jobId : JobId)

theorem isPageWorkflow_owner {row : PageWorkflowRow} (h : isPageWorkflow scope jobId row = true) :
    row.scope = scope := scope_of_and h

theorem find_pageWorkflow (s : Store) :
    (storeRows scope s).pageWorkflows.find? (isPageWorkflow scope jobId) =
      s.pageWorkflows.find? (isPageWorkflow scope jobId) :=
  find?_part fun _ _ => isPageWorkflow_owner scope jobId

theorem loadPageWorkflow_rows (s : Store) :
    loadPageWorkflow (storeRows scope s) scope jobId = loadPageWorkflow s scope jobId := by
  rw [loadPageWorkflow, find_pageWorkflow, loadPageWorkflow]

theorem loadPageArtifacts_rows (s : Store) :
    loadPageArtifacts (storeRows scope s) scope jobId = loadPageArtifacts s scope jobId := by
  have hrows : (storeRows scope s).pageArtifacts.filter (fun row =>
      row.scope == scope && row.jobId == jobId) =
      s.pageArtifacts.filter fun row => row.scope == scope && row.jobId == jobId :=
    filter_part fun _ _ => scope_of_and
  simp only [loadPageArtifacts, hrows]

include h

/-- A stored workflow of the job belongs to the scope in which the job was found. -/
theorem inserts_rows (workflow : PageWorkflow) :
    inserts (storeRows scope s) scope jobId workflow = inserts s scope jobId workflow := by
  simp only [inserts, find_job]
  cases hjob : s.jobs.find? (isJob scope jobId) with
  | none => rfl
  | some job =>
    have hany : (storeRows scope s).pageWorkflows.any (·.jobId == jobId) =
        s.pageWorkflows.any (·.jobId == jobId) := by
      apply any_part
      intro w hw hid
      exact h.job_scope hjob (beq_iff_eq.mp hid ▸ h.pageWorkflows w hw)
    rw [hany]

theorem createPageWorkflow_follows (workflow : PageWorkflow) :
    Follows (StoreMirrors scope s) (createPageWorkflow s scope jobId workflow)
      (createPageWorkflow (storeRows scope s) scope jobId workflow) := by
  have hkept := mirrors_kept h scope
  simp only [createPageWorkflow, inserts_rows h, loadPageWorkflow_rows]
  apply Follows.ite (Follows.failed _)
  apply Follows.ite
  · have hrow : StoreMirrors scope s (insertWorkflow s scope jobId workflow)
        (insertWorkflow (storeRows scope s) scope jobId workflow) :=
      { hkept with pageWorkflows := hkept.pageWorkflows.append rfl rfl rfl }
    apply Follows.ite (Follows.committed _ hrow)
    apply Follows.committed
    apply jobs_update hrow
    · intro job hjob
      rw [Bool.and_eq_true] at hjob
      exact isJob_owner hjob.1
    · exact fun _ => rfl
  · cases loadPageWorkflow s scope jobId with
    | none => exact Follows.committed _ hkept
    | some stored => exact Follows.ite (Follows.committed _ hkept) (Follows.committed _ hkept)

/-- The artifacts of a job whose workflow was found belong to its scope. -/
theorem artifactChecks_rows {row : PageWorkflowRow}
    (hrow : s.pageWorkflows.find? (isPageWorkflow scope jobId) = some row)
    (artifacts : List StoredPageArtifact) :
    artifactChecks (storeRows scope s) jobId artifacts = artifactChecks s jobId artifacts := by
  obtain ⟨hmem,hkey⟩ := Table.mem_of_find? hrow
  obtain ⟨job,hjob,hjobKey⟩ := h.pageWorkflows row hmem
  rw [isPageWorkflow, Bool.and_eq_true, beq_iff_eq, beq_iff_eq] at hkey
  rw [hkey.1, hkey.2] at hjobKey
  have hfind := h.find_job hjob hjobKey
  have hany : ∀ a : StoredPageArtifact, ((storeRows scope s).pageArtifacts.any fun row =>
      row.jobId == jobId &&
        (row.artifact.page == a.page || row.artifact.activityKey == a.activityKey)) =
      s.pageArtifacts.any fun row => row.jobId == jobId &&
        (row.artifact.page == a.page || row.artifact.activityKey == a.activityKey) := by
    intro a
    apply any_part
    intro r hr hid
    rw [Bool.and_eq_true, beq_iff_eq] at hid
    exact h.job_scope hfind (hid.1 ▸ h.pageArtifacts r hr)
  simp only [artifactChecks, hany]

theorem savePageWorkflowWithArtifacts_follows (expectedRevision : ℕ) (workflow : PageWorkflow)
    (artifacts : List StoredPageArtifact) :
    Follows (StoreMirrors scope s)
      (savePageWorkflowWithArtifacts s scope jobId expectedRevision workflow artifacts)
      (savePageWorkflowWithArtifacts (storeRows scope s) scope jobId expectedRevision workflow
        artifacts) := by
  have hkept := mirrors_kept h scope
  simp only [savePageWorkflowWithArtifacts, find_pageWorkflow]
  apply Follows.ite (Follows.failed _)
  apply Follows.ite (Follows.failed _)
  cases hrow : s.pageWorkflows.find? (isPageWorkflow scope jobId) with
  | none => exact Follows.committed _ hkept
  | some row =>
    simp only [artifactChecks_rows h scope jobId hrow]
    apply Follows.ite (Follows.committed _ hkept)
    apply Follows.ite (Follows.failed _)
    apply Follows.committed
    have hartifacts := hkept.pageArtifacts.append_all
      (artifacts.map fun a => (⟨jobId,scope,a⟩ : PageArtifactRow)) (by simp) (by simp)
    rw [List.map_id] at hartifacts
    have hworkflows := hkept.pageWorkflows.update (p := isPageWorkflow scope jobId)
      (f := fun row => { row with checkpoint := workflow, revision := row.revision+1 })
      (fun _ _ => isPageWorkflow_owner scope jobId) (fun _ => rfl) (fun _ _ => rfl) fun _ => rfl
    exact { hkept with pageArtifacts := hartifacts, pageWorkflows := hworkflows }

end PageWorkflows

/-! ### The outbox -/

section Outbox
variable (h : Constrained s) (scope : Scope) (now : ℤ)

include h

/-- The identities of the events before the transaction are kept. -/
theorem forgetEvent_old {outbox : List OutboxRow}
    (hids : outbox.map (·.eventId) = s.outbox.map (·.eventId)) {row : OutboxRow}
    (hrow : row ∈ outbox) : forgetEvent s.nextEventId row = row := by
  have hid : row.eventId ∈ s.outbox.map (·.eventId) := hids ▸ List.mem_map_of_mem hrow
  obtain ⟨old,hold,heq⟩ := List.mem_map.mp hid
  exact congrArg (fun i => { row with eventId := i }) (forget_old (heq ▸ h.events old hold))

theorem outbox_update {p : OutboxRow → Bool} {f : OutboxRow → OutboxRow}
    (hm : StoreMirrors scope s s' m)
    (hids : s'.outbox.map (·.eventId) = s.outbox.map (·.eventId))
    (hp : ∀ row ∈ s'.outbox, p row = true → row.scope = scope)
    (hf : ∀ row, (f row).scope = row.scope)
    (hgf : ∀ row, forgetEvent s.nextEventId (f row) = f (forgetEvent s.nextEventId row)) :
    StoreMirrors scope s { s' with outbox := Table.update p f s'.outbox }
      { m with outbox := Table.update p f m.outbox } := by
  have hrows := hm.outbox.update hp hf
    (fun row hrow => congrArg p (forgetEvent_old h hids hrow)) hgf
  exact { hm with outbox := hrows }

theorem deadLetterExhausted_mirrors :
    StoreMirrors scope s (deadLetterExhausted s now scope)
      (deadLetterExhausted (storeRows scope s) now scope) :=
  outbox_update h scope (mirrors_kept h scope) rfl (fun _ _ => scope_of_and) (fun _ => rfl)
    fun _ => rfl

theorem candidates_rows (c : Channel) (claim : ClaimJobOutbox) :
    candidates (deadLetterExhausted (storeRows scope s) now scope) now scope c claim =
      candidates (deadLetterExhausted s now scope) now scope c claim := by
  have hids := deadLetterExhausted_ids s now scope
  have hold : ∀ row ∈ (deadLetterExhausted s now scope).outbox,
      forgetEvent s.nextEventId row = row := fun row => forgetEvent_old h hids
  have hrows := (deadLetterExhausted_mirrors h scope now).outbox.congr
    (f := id) fun row hrow => (hold row hrow).symm
  have hfilter := hrows.filter_eq
    (p := fun row => row.scope == scope && claimable now claim.leaseOwner c row)
    (fun _ => scope_of_and) (fun _ => scope_of_and) fun _ _ => rfl
  rw [List.map_id] at hfilter
  rw [candidates, hfilter, candidates]

/-- Only events of the scope are leased, for an identity belongs to one event. -/
theorem claimRows_mirrors (c : Channel) (claim : ClaimJobOutbox) :
    StoreMirrors scope s (claimRows s now scope c claim)
      (claimRows (storeRows scope s) now scope c claim) := by
  have hids := deadLetterExhausted_ids s now scope
  simp only [claimRows, candidates_rows h]
  apply outbox_update h scope (deadLetterExhausted_mirrors h scope now) hids
  · intro row hrow hleased
    obtain ⟨leased,hmem,heq⟩ := List.mem_map.mp (List.contains_iff_mem.mp hleased)
    obtain ⟨hin,hscope⟩ := List.mem_filter.mp (List.mem_of_mem_take hmem)
    have hkeys : ((deadLetterExhausted s now scope).outbox.map (·.eventId)).Nodup := by
      rw [hids]
      exact h.eventKeys
    rw [← Table.eq_of_key hkeys hin hrow heq]
    exact scope_of_and hscope
  · exact fun _ => rfl
  · exact fun _ => rfl

theorem recomputeDispatch_mirrors (hm : StoreMirrors scope s s' m)
    (hids : s'.outbox.map (·.eventId) = s.outbox.map (·.eventId)) :
    StoreMirrors scope s (recomputeDispatch s' now scope) (recomputeDispatch m now scope) := by
  have hany : dispatchPending m scope = dispatchPending s' scope :=
    hm.outbox.any_eq (fun _ => scope_of_and) fun row hrow => by
      rw [forgetEvent_old h hids hrow]
  rw [recomputeDispatch, recomputeDispatch, hany]
  exact setWorkScopePending_mirrors hm now .dispatch _

theorem claimJobOutbox_follows (claim : ClaimJobOutbox) :
    Follows (StoreMirrors scope s) (claimJobOutbox s now scope claim)
      (claimJobOutbox (storeRows scope s) now scope claim) := by
  have hrows := claimRows_mirrors h scope now .job claim
  have hids := claimRows_ids s now scope .job claim
  simp only [claimJobOutbox, candidates_rows h]
  apply Follows.ite (Follows.failed _)
  apply Follows.ite (Follows.failed _)
  have hjoin : (candidates (deadLetterExhausted s now scope) now scope .job claim).filterMap
      (fun row => (joinPageCount (claimRows (storeRows scope s) now scope .job claim) row).map
        (row,·)) =
      (candidates (deadLetterExhausted s now scope) now scope .job claim).filterMap
        fun row => (joinPageCount (claimRows s now scope .job claim) row).map (row,·) := by
    apply List.filterMap_congr
    intro row hrow
    have hscope := (candidates_mem hrow).2.1
    have hjobs : (storeRows scope s).jobs.find? (isJob row.scope row.jobId) =
        s.jobs.find? (isJob row.scope row.jobId) := by
      rw [hscope, find_job]
    have huploads : ∀ uploadId, (storeRows scope s).uploads.find? (isUpload row.scope uploadId) =
        s.uploads.find? (isUpload row.scope uploadId) := by
      intro uploadId
      rw [hscope, find_isUpload]
    simp only [joinPageCount, claimRows, leaseCandidates, deadLetterExhausted, hjobs, huploads]
  rw [hjoin]
  apply follows_map
  by_cases hempty : ((candidates (deadLetterExhausted s now scope) now scope .job claim).filterMap
      fun row => (joinPageCount (claimRows s now scope .job claim) row).map (row,·)).isEmpty = true
  · rw [if_pos hempty, if_pos hempty]
    exact recomputeDispatch_mirrors h scope now hrows hids
  · rw [if_neg hempty, if_neg hempty]
    exact hrows

theorem claimWebhookOutbox_follows (claim : ClaimJobOutbox) :
    Follows (StoreMirrors scope s) (claimWebhookOutbox s now scope claim)
      (claimWebhookOutbox (storeRows scope s) now scope claim) := by
  simp only [claimWebhookOutbox, candidates_rows h]
  apply Follows.ite (Follows.failed _)
  apply Follows.ite (Follows.failed _)
  have hjoin : (candidates (deadLetterExhausted s now scope) now scope .webhook claim).filterMap
      (joinWebhook (claimRows (storeRows scope s) now scope .webhook claim)) =
      (candidates (deadLetterExhausted s now scope) now scope .webhook claim).filterMap
        (joinWebhook (claimRows s now scope .webhook claim)) := by
    apply List.filterMap_congr
    intro row hrow
    have hscope := (candidates_mem hrow).2.1
    have hjobs : (storeRows scope s).jobs.find? (isJob row.scope row.jobId) =
        s.jobs.find? (isJob row.scope row.jobId) := by
      rw [hscope, find_job]
    have hresults : (storeRows scope s).results.find? (isResult row.scope row.jobId) =
        s.results.find? (isResult row.scope row.jobId) := by
      rw [hscope, find_result]
    simp only [joinWebhook, claimRows, leaseCandidates, deadLetterExhausted, hjobs, hresults]
  rw [hjoin]
  exact Follows.committed _ (claimRows_mirrors h scope now .webhook claim)

theorem publishJobOutbox_follows (eventId : ℕ) (leaseOwner : String) :
    Follows (StoreMirrors scope s) (publishJobOutbox s now scope eventId leaseOwner)
      (publishJobOutbox (storeRows scope s) now scope eventId leaseOwner) := by
  have hkept := mirrors_kept h scope
  have hany : ((storeRows scope s).outbox.any fun row =>
      row.scope == scope && publishable now leaseOwner eventId row) =
      s.outbox.any fun row => row.scope == scope && publishable now leaseOwner eventId row :=
    any_part fun _ _ => scope_of_and
  have hfind : (storeRows scope s).outbox.find? (isEvent scope eventId) =
      s.outbox.find? (isEvent scope eventId) := find?_part fun _ _ => scope_of_and
  simp only [publishJobOutbox, hany, hfind]
  apply Follows.ite (Follows.failed _)
  apply Follows.ite (Follows.failed _)
  apply Follows.ite
  · apply Follows.committed
    apply recomputeDispatch_mirrors h scope now
    · exact outbox_update h scope hkept rfl (fun _ _ => scope_of_and) (fun _ => rfl) fun _ => rfl
    · apply Table.map_update OutboxRow.eventId
      exact fun _ => rfl
  · cases s.outbox.find? (isEvent scope eventId) with
    | none => exact Follows.committed _ hkept
    | some row => exact Follows.committed _ hkept

end Outbox

end DocumentIntelligence.TenantRows
