import DocumentIntelligence.Dispatch
import DocumentIntelligence.JobConsistency

/-!
# Delivery of job commands

The workflow input of a dispatch is always within its size limit, so with an
available service everything depends on the checkpoint. A cancellation is
accepted in every reachable state. A start is accepted while the job may still
insert its checkpoint, or while the stored checkpoint is the untouched one.
-/

set_option autoImplicit false

namespace DocumentIntelligence.CommandDelivery
open Identifiers hiding Error
open Schema Uploads Jobs Outbox PageWorkflowStore Commands Dispatch JobConsistency Transition
open PageCheckpoint (PageWorkflow)
open OutboxExhaustion (Inv)

theorem json_identifier {value start : String} (h : validatedId value start = true)
    (hstart : start.toList.all Json.plain = true) :
    (Json.string value).utf8ByteSize ≤ start.utf8ByteSize+66 := by
  obtain ⟨hplain,hsize⟩ := validatedId_json h hstart
  rw [Json.size_string_of_plain hplain]
  omega

theorem encode_size (scope : Scope) (jobId : JobId) {pageCount : ℕ} (h : pageCount ≤ 1000) :
    (WorkflowInput.encode ⟨scope,jobId,pageCount⟩).utf8ByteSize ≤ maxWorkflowInputBytes := by
  have htenant := json_identifier scope.tenantId.valid (by decide)
  have hjob := json_identifier jobId.valid (by decide)
  have hproduct := productId_json scope.productId
  have hcount := Json.decimal_size h
  have htenantPrefix : "ten_".utf8ByteSize = 4 := rfl
  have hjobPrefix : "job_".utf8ByteSize = 4 := rfl
  have hnames : (Json.string "schema_version").utf8ByteSize = 16 ∧
      (Json.string "product_id").utf8ByteSize = 12 ∧ (Json.string "tenant_id").utf8ByteSize = 11 ∧
      (Json.string "job_id").utf8ByteSize = 8 ∧ (Json.string "page_count").utf8ByteSize = 12 ∧
      (Json.string workflowSchemaVersion).utf8ByteSize = 3 := by decide
  simp only [WorkflowInput.encode, Json.size_object, Json.size_member, List.map_cons, List.map_nil,
    List.sum_cons, List.sum_nil, List.length_cons, List.length_nil, hnames,
    Json.size_string_of_plain hproduct.1, maxWorkflowInputBytes]
  omega

theorem workflowInput_new (scope : Scope) (jobId : JobId) {pageCount : ℕ}
    (h : 1 ≤ pageCount ∧ pageCount ≤ PageCheckpoint.maximumPageCount) :
    WorkflowInput.new scope jobId pageCount = some ⟨scope,jobId,pageCount⟩ := by
  have hsize := encode_size scope jobId h.2
  simp only [WorkflowInput.new, not_true_eq_false, if_false, h, and_self, if_neg (Nat.not_lt.mpr hsize)]

/-- An available service accepts every dispatch of the relay. -/
theorem temporal_ok (sha256 : List UInt8 → List UInt8) {temporal : TemporalStarter}
    (h : temporal.gateway.Available) (scope : Scope) {event : StoredJobOutboxEvent}
    (hpages : 1 ≤ event.pageCount ∧ event.pageCount ≤ PageCheckpoint.maximumPageCount) :
    ∃ outcome, temporal.dispatch sha256 (workflowDispatch sha256 scope event) = .ok outcome := by
  have hanswer : ∀ command, temporal.gateway.execute command ≠ .error .unavailable := by
    intro command hcommand
    obtain ⟨answer,hanswer⟩ := execute_ok h command
    simp [hanswer] at hcommand
  have hinput := workflowInput_new scope event.jobId hpages
  simp only [TemporalStarter.dispatch, workflowDispatch, ne_eq, not_true_eq_false, if_false, hinput]
  split
  · exact ⟨.started,rfl⟩
  · exact ⟨.existing,rfl⟩
  · rename_i hcommand
    exact absurd hcommand (hanswer _)

section Checkpoint
variable {s : Store} {scope : Scope} {jobId : JobId} {job : JobRow} {workflow : PageWorkflow}
  {stored : StoredPageWorkflow}

theorem create_of_inserts (hid : workflow.jobId = jobId)
    (h : inserts s scope jobId workflow = true) :
    ∃ s', createPageWorkflow s scope jobId workflow = .ok (.created ⟨workflow,0⟩, s') := by
  simp only [createPageWorkflow, hid, ne_eq, not_true_eq_false, if_false, h, if_true]
  split <;> exact ⟨_,rfl⟩

theorem create_of_not_inserts (hid : workflow.jobId = jobId)
    (h : inserts s scope jobId workflow = false) :
    createPageWorkflow s scope jobId workflow = match loadPageWorkflow s scope jobId with
      | some stored =>
        if stored.workflow = workflow then .ok (.existing stored, s) else .ok (.conflict, s)
      | none => .ok (.notFound, s) := by
  cases hload : loadPageWorkflow s scope jobId <;>
    simp only [createPageWorkflow, hid, ne_eq, not_true_eq_false, if_false, h, Bool.false_eq_true,
      hload]

theorem load_row (h : loadPageWorkflow s scope jobId = some stored) :
    ∃ row ∈ s.pageWorkflows, s.pageWorkflows.find? (isPageWorkflow scope jobId) = some row ∧
      row.scope = scope ∧ row.jobId = jobId ∧ stored = storedPageWorkflow row := by
  obtain ⟨row,hfind,hrow⟩ := Option.map_eq_some_iff.mp h
  obtain ⟨hm,hkey⟩ := Table.mem_of_find? hfind
  simp only [isPageWorkflow, Bool.and_eq_true, beq_iff_eq] at hkey
  exact ⟨row,hm,hfind,hkey.1,hkey.2,hrow.symm⟩

theorem inserts_of_stored (h : loadPageWorkflow s scope jobId = some stored) :
    inserts s scope jobId workflow = false := by
  obtain ⟨row,hm,_,_,hid,_⟩ := load_row h
  have hany : s.pageWorkflows.any (·.jobId == jobId) = true :=
    List.any_eq_true.mpr ⟨row,hm,by simpa using hid⟩
  rw [inserts, hany, Bool.not_true, Bool.and_false]

/-- The checkpoint of another scope would belong to this scope's job. -/
theorem inserts_of_absent (workflow : PageWorkflow) (hc : Consistent s) (hjob : job ∈ s.jobs)
    (hkey : isJob scope jobId job = true) (h : loadPageWorkflow s scope jobId = none) :
    inserts s scope jobId workflow = insertable workflow job.status := by
  have habsent : s.pageWorkflows.any (·.jobId == jobId) = false := by
    rw [List.any_eq_false]
    intro row hrow hid
    rw [beq_iff_eq] at hid
    obtain ⟨x,hx,hxkey⟩ := (hc.workflows row hrow).2
    rw [isJob_iff] at hxkey hkey
    have hsame := Table.eq_of_key hc.jobKeys hx hjob (hxkey.2.trans (hid.trans hkey.2.symm))
    have hscope : row.scope = scope := by rw [← hxkey.1, hsame, hkey.1]
    have hnone := List.find?_eq_none.mp (Option.map_eq_none_iff.mp h) row hrow
    exact hnone (by simp [isPageWorkflow, hscope, hid])
  rw [inserts, find_job hc hjob hkey, habsent, Bool.not_false, Bool.and_true, Option.any_some]

end Checkpoint

/-- A start is taken where the job may still insert its checkpoint, and where
the stored checkpoint is the one which the start would insert. -/
def TakesStart (s : Store) (scope : Scope) (jobId : JobId) (pageCount maxAttempts : ℕ) : Prop :=
  match loadPageWorkflow s scope jobId with
  | none => ∃ job ∈ s.jobs, isJob scope jobId job = true ∧ startable job.status = true
  | some stored => PageWorkflow.new jobId pageCount maxAttempts = .ok stored.workflow

section Dispatch
variable {s : Store} {dispatch : WorkflowDispatch} {job : JobRow}

theorem start_ok_iff (dispatch : WorkflowDispatch) (starter : DurableWorkflowStarter)
    (hc : Consistent s) (hjob : job ∈ s.jobs)
    (hkey : isJob dispatch.scope dispatch.jobId job = true)
    (hpages : 1 ≤ dispatch.pageCount ∧ dispatch.pageCount ≤ PageCheckpoint.maximumPageCount) :
    (∃ outcome, (starter.start s dispatch).1 = .ok outcome) ↔
      TakesStart s dispatch.scope dispatch.jobId dispatch.pageCount starter.maxAttempts := by
  set workflow := PageWorkflow.fresh dispatch.jobId dispatch.pageCount starter.maxAttempts hpages
    starter.attempts_bounded
  have hnew : PageWorkflow.new dispatch.jobId dispatch.pageCount starter.maxAttempts =
      .ok workflow := dif_pos ⟨hpages,starter.attempts_bounded⟩
  have hid : workflow.jobId = dispatch.jobId := rfl
  have hrunning : workflow.status ≠ .cancelled := by
    rw [ne_eq, PageWorkflow.status_cancelled_iff]
    exact Bool.false_ne_true
  simp only [DurableWorkflowStarter.start, TakesStart, hnew]
  cases hload : loadPageWorkflow s dispatch.scope dispatch.jobId with
  | none =>
    have hinserts := inserts_of_absent workflow hc hjob hkey hload
    rw [insertable, decide_eq_false hrunning, Bool.false_and, Bool.or_false] at hinserts
    cases hstart : startable job.status with
    | true =>
      rw [hstart] at hinserts
      obtain ⟨s',hcreate⟩ := create_of_inserts hid hinserts
      rw [hcreate]
      exact iff_of_true ⟨_,rfl⟩ ⟨job,hjob,hkey,hstart⟩
    | false =>
      rw [hstart] at hinserts
      rw [create_of_not_inserts hid hinserts, hload]
      apply iff_of_false
      · rintro ⟨_,h⟩
        cases h
      · rintro ⟨x,hx,hxkey,hxstart⟩
        rw [isJob_iff] at hxkey hkey
        rw [Table.eq_of_key hc.jobKeys hx hjob (hxkey.2.trans hkey.2.symm), hstart] at hxstart
        cases hxstart
  | some stored =>
    rw [create_of_not_inserts hid (inserts_of_stored hload), hload]
    by_cases hsame : stored.workflow = workflow
    · simp only [hsame]
      exact iff_of_true ⟨_,rfl⟩ trivial
    · simp only [if_neg hsame]
      apply iff_of_false
      · rintro ⟨_,h⟩
        cases h
      · intro h
        exact hsame (Except.ok.inj h).symm

theorem complete_ok (hfind : s.jobs.find? (isJob dispatch.scope dispatch.jobId) = some job)
    (hcancelled : job.status = .cancelled) :
    DurableWorkflowStarter.completeCancellation s dispatch = (.ok .existing, s) := by
  simp only [DurableWorkflowStarter.completeCancellation, Jobs.completeCancellation, hfind,
    hcancelled]

theorem cancelStored_ok (hc : Consistent s) (hjob : job ∈ s.jobs)
    (hkey : isJob dispatch.scope dispatch.jobId job = true) (hcancelled : job.status = .cancelled)
    {stored : StoredPageWorkflow}
    (hload : loadPageWorkflow s dispatch.scope dispatch.jobId = some stored) :
    ∃ outcome, (DurableWorkflowStarter.cancelStored s dispatch stored).1 = .ok outcome := by
  have hfind := find_job hc hjob hkey
  unfold DurableWorkflowStarter.cancelStored
  by_cases hstatus : stored.workflow.status = .cancelled
  · rw [if_pos hstatus, complete_ok hfind hcancelled]
    exact ⟨_,rfl⟩
  · obtain ⟨row,hrow,hfindRow,_,hid,hstored⟩ := load_row hload
    have hworkflow : stored.workflow.requestCancellation.jobId = dispatch.jobId := by
      rw [hstored, ← hid, ← (hc.workflows row hrow).1]
      rfl
    have hrevision : row.revision = stored.revision := by
      rw [hstored]
      rfl
    have hsaved : savePageWorkflow s dispatch.scope dispatch.jobId stored.revision
        stored.workflow.requestCancellation =
        .ok (.saved ⟨stored.workflow.requestCancellation,row.revision+1⟩,
          saveRow s dispatch.scope dispatch.jobId stored.workflow.requestCancellation []) := by
      simp [savePageWorkflow, savePageWorkflowWithArtifacts, validatePageArtifactBatch,
        artifactChecks, hworkflow, hfindRow, hrevision]
    rw [if_neg hstatus, hsaved]
    have hcomplete : DurableWorkflowStarter.completeCancellation
        (saveRow s dispatch.scope dispatch.jobId stored.workflow.requestCancellation []) dispatch =
        (.ok .existing, _) := complete_ok hfind hcancelled
    exact ⟨.existing,congrArg Prod.fst hcomplete⟩

/-- The dispatch of a cancellation whose job is cancelled. -/
theorem cancel_ok (starter : DurableWorkflowStarter) (hc : Consistent s) (hjob : job ∈ s.jobs)
    (hkey : isJob dispatch.scope dispatch.jobId job = true) (hcancelled : job.status = .cancelled)
    (hpages : 1 ≤ dispatch.pageCount ∧ dispatch.pageCount ≤ PageCheckpoint.maximumPageCount) :
    ∃ outcome, (starter.cancel s dispatch).1 = .ok outcome := by
  unfold DurableWorkflowStarter.cancel
  cases hload : loadPageWorkflow s dispatch.scope dispatch.jobId with
  | some stored => exact cancelStored_ok hc hjob hkey hcancelled hload
  | none =>
    set workflow := PageWorkflow.fresh dispatch.jobId dispatch.pageCount starter.maxAttempts hpages
      starter.attempts_bounded
    have hnew : PageWorkflow.new dispatch.jobId dispatch.pageCount starter.maxAttempts =
        .ok workflow := dif_pos ⟨hpages,starter.attempts_bounded⟩
    have hinserts : inserts s dispatch.scope dispatch.jobId workflow.requestCancellation = true := by
      have hstatus : workflow.requestCancellation.status = .cancelled :=
        (PageWorkflow.status_cancelled_iff _).mpr rfl
      rw [inserts_of_absent _ hc hjob hkey hload, insertable, hstatus, hcancelled]
      rfl
    have hid : workflow.requestCancellation.jobId = dispatch.jobId := rfl
    obtain ⟨s',hcreate⟩ := create_of_inserts hid hinserts
    simp only [hnew, hcreate]
    exact ⟨_,rfl⟩

end Dispatch

/-- The transactions of a dispatch are commands, and a crash within it leaves
the state after some of them. -/
theorem complete_run (s : Store) (dispatch : WorkflowDispatch) (now : ℤ) :
    (DurableWorkflowStarter.completeCancellation s dispatch).2 =
      execute s now (.completeCancellation dispatch.scope dispatch.jobId) := by
  simp only [DurableWorkflowStarter.completeCancellation, execute]
  rcases Jobs.completeCancellation s dispatch.scope dispatch.jobId with e | ⟨outcome,s'⟩
  · rfl
  · cases outcome <;> rfl

theorem save_run (s : Store) (dispatch : WorkflowDispatch) (stored : StoredPageWorkflow) :
    ∃ cs : List Command, ∀ now, (DurableWorkflowStarter.cancelStored s dispatch stored).2 =
      run (execute · now ·) s cs := by
  unfold DurableWorkflowStarter.cancelStored
  by_cases hstatus : stored.workflow.status = .cancelled
  · refine ⟨[.completeCancellation dispatch.scope dispatch.jobId],fun now => ?_⟩
    rw [if_pos hstatus]
    exact complete_run s dispatch now
  · rw [if_neg hstatus]
    have hsave : ∀ now, execute s now (.savePageWorkflow dispatch.scope dispatch.jobId
        stored.revision stored.workflow.requestCancellation []) = commit s (savePageWorkflow s
          dispatch.scope dispatch.jobId stored.revision stored.workflow.requestCancellation) :=
      fun _ => rfl
    rcases hsaved : savePageWorkflow s dispatch.scope dispatch.jobId stored.revision
      stored.workflow.requestCancellation with e | ⟨outcome,s'⟩
    · exact ⟨[],fun _ => rfl⟩
    · cases outcome with
      | saved row =>
        refine ⟨[.savePageWorkflow dispatch.scope dispatch.jobId stored.revision
          stored.workflow.requestCancellation [],
          .completeCancellation dispatch.scope dispatch.jobId],fun now => ?_⟩
        rw [run_cons, hsave now, hsaved]
        exact complete_run s' dispatch now
      | _ =>
        refine ⟨[.savePageWorkflow dispatch.scope dispatch.jobId stored.revision
          stored.workflow.requestCancellation []],fun now => ?_⟩
        rw [run_cons, hsave now, hsaved]
        rfl

theorem create_run {s : Store} {dispatch : WorkflowDispatch} {workflow : PageWorkflow}
    {r : CreatePageWorkflowOutcome} {s' : Store}
    (h : createPageWorkflow s dispatch.scope dispatch.jobId workflow = .ok (r,s')) (now : ℤ) :
    execute s now (.createPageWorkflow dispatch.scope dispatch.jobId workflow) = s' := by
  rw [execute, h, commit_ok]

theorem dispatch_run (starter : DurableWorkflowStarter) (s : Store) (dispatch : WorkflowDispatch) :
    ∃ cs : List Command, ∀ now, (starter.dispatch s dispatch).2 = run (execute · now ·) s cs := by
  unfold DurableWorkflowStarter.dispatch
  cases dispatch.action with
  | start =>
    simp only [DurableWorkflowStarter.start]
    cases PageWorkflow.new dispatch.jobId dispatch.pageCount starter.maxAttempts with
    | error e => exact ⟨[],fun _ => rfl⟩
    | ok workflow =>
      rcases hcreate : createPageWorkflow s dispatch.scope dispatch.jobId workflow with
        e | ⟨outcome,s'⟩ <;> simp only [hcreate]
      · exact ⟨[],fun _ => rfl⟩
      · refine ⟨[.createPageWorkflow dispatch.scope dispatch.jobId workflow],fun now => ?_⟩
        rw [run_cons, create_run hcreate now]
        cases outcome <;> rfl
  | cancel =>
    simp only [DurableWorkflowStarter.cancel]
    cases loadPageWorkflow s dispatch.scope dispatch.jobId with
    | some stored => exact save_run s dispatch stored
    | none =>
      cases PageWorkflow.new dispatch.jobId dispatch.pageCount starter.maxAttempts with
      | error e => exact ⟨[],fun _ => rfl⟩
      | ok workflow =>
        rcases hcreate : createPageWorkflow s dispatch.scope dispatch.jobId
          workflow.requestCancellation with e | ⟨outcome,s'⟩ <;> simp only [hcreate]
        · exact ⟨[],fun _ => rfl⟩
        · have hrun := create_run hcreate
          cases outcome with
          | existing stored =>
            obtain ⟨cs,hcs⟩ := save_run s' dispatch stored
            refine ⟨.createPageWorkflow dispatch.scope dispatch.jobId
              workflow.requestCancellation::cs,fun now => ?_⟩
            rw [run_cons, hrun now]
            exact hcs now
          | _ =>
            refine ⟨[.createPageWorkflow dispatch.scope dispatch.jobId
              workflow.requestCancellation],fun now => ?_⟩
            rw [run_cons, hrun now]
            rfl

/-- The commands, claims and publications of the store, and the dispatches of
any starter, whether or not the publication follows. -/
inductive Action where
  | store (a : OutboxExhaustion.Action)
  | dispatch (starter : CheckpointedTemporalStarter) (d : WorkflowDispatch)

section
variable (sha256 : List UInt8 → List UInt8)

def step (s : Store) : Action → Store
  | .store a => OutboxExhaustion.step s a
  | .dispatch starter d => (starter.dispatch sha256 s d).2

theorem checkpointed_store (starter : CheckpointedTemporalStarter) (s : Store)
    (d : WorkflowDispatch) :
    (starter.dispatch sha256 s d).2 = (starter.checkpoint.dispatch s d).2 := by
  unfold CheckpointedTemporalStarter.dispatch
  rcases starter.checkpoint.dispatch s d with ⟨e | checkpointed,s'⟩
  · rfl
  · cases starter.temporal.dispatch sha256 d <;> rfl

theorem step_inv (s : Store) (a : Action) (h : Inv s ∧ Consistent s) :
    Inv (step sha256 s a) ∧ Consistent (step sha256 s a) := by
  cases a with
  | store a => exact ⟨OutboxExhaustion.step_inv s a h.1,step_consistent h.2 h.1 a⟩
  | dispatch starter d =>
    have hcommand : ∀ s c, Inv s ∧ Consistent s → Inv (execute s 0 c) ∧ Consistent (execute s 0 c) :=
      fun s c h => ⟨OutboxExhaustion.command_inv h.1 0 c,execute_consistent h.2 h.1.sourced 0 c⟩
    obtain ⟨cs,hcs⟩ := dispatch_run starter.checkpoint s d
    simp only [step, checkpointed_store, hcs 0]
    exact run_invariant hcommand h cs

/-- The event which a claim of the row would hand out. -/
def jobOutboxEvent (s : Store) (row : OutboxRow) : Option StoredJobOutboxEvent :=
  (joinPageCount s row).bind fun pageCount => (storedJobOutboxEvent row pageCount).toOption

/-- The event of the row is handed out and its dispatch is not refused. -/
def Delivered (starter : CheckpointedTemporalStarter) (s : Store) (row : OutboxRow) : Prop :=
  ∃ event outcome, jobOutboxEvent s row = some event ∧
    (starter.dispatch sha256 s (workflowDispatch sha256 row.scope event)).1 = .ok outcome

/-- The state takes the command of the event. -/
def TakesCommand (starter : CheckpointedTemporalStarter) (s : Store) (row : OutboxRow) : Prop :=
  row.eventType = .cancellationRequested ∨ ∃ event, jobOutboxEvent s row = some event ∧
    TakesStart s row.scope row.jobId event.pageCount starter.checkpoint.maxAttempts

theorem jobOutboxEvent_some {s : Store} (h : Inv s) {row : OutboxRow} (hrow : row ∈ s.outbox)
    {t : JobOutboxEventType} (ht : jobOutboxEventType row.eventType = some t) :
    ∃ pageCount, jobOutboxEvent s row = some ⟨row.eventId,row.jobId,t,pageCount⟩ ∧
      1 ≤ pageCount ∧ pageCount ≤ PageCheckpoint.maximumPageCount := by
  obtain ⟨pageCount,hjoin,hbounds⟩ := joinPageCount_valid h.sourced (h.sourced.events row hrow)
  refine ⟨pageCount.toNat,?_,by omega,by omega⟩
  simp only [jobOutboxEvent, hjoin, Option.bind_some, storedJobOutboxEvent_ok ht hbounds]
  rfl

theorem dispatch_ok_iff {starter : CheckpointedTemporalStarter}
    (havailable : starter.temporal.gateway.Available) (s : Store) (scope : Scope)
    (event : StoredJobOutboxEvent)
    (hpages : 1 ≤ event.pageCount ∧ event.pageCount ≤ PageCheckpoint.maximumPageCount) :
    (∃ outcome, (starter.dispatch sha256 s (workflowDispatch sha256 scope event)).1 = .ok outcome) ↔
      ∃ outcome, (starter.checkpoint.dispatch s (workflowDispatch sha256 scope event)).1 =
        .ok outcome := by
  obtain ⟨answer,hanswer⟩ := temporal_ok sha256 havailable scope hpages
  unfold CheckpointedTemporalStarter.dispatch
  rcases starter.checkpoint.dispatch s (workflowDispatch sha256 scope event) with
    ⟨e | checkpointed,s'⟩
  · exact Iff.rfl
  · simp only [hanswer]
    exact iff_of_true ⟨_,rfl⟩ ⟨_,rfl⟩

end

/-- Every job event of every reachable state is delivered exactly when the
state takes its command. -/
theorem delivered_iff_takesCommand (sha256 : List UInt8 → List UInt8)
    {starter : CheckpointedTemporalStarter} (havailable : starter.temporal.gateway.Available)
    (as : List Action) {row : OutboxRow} (hrow : row ∈ (run (step sha256) empty as).outbox)
    (hchannel : channel row.eventType = .job) :
    Delivered sha256 starter (run (step sha256) empty as) row ↔
      TakesCommand starter (run (step sha256) empty as) row := by
  obtain ⟨hinv,hc⟩ := run_invariant (step_inv sha256)
    ⟨OutboxExhaustion.inv_empty,consistent_empty⟩ as
  generalize run (step sha256) empty as = s at *
  obtain ⟨t,ht⟩ := jobOutboxEventType_of_channel hchannel
  obtain ⟨pageCount,hevent,hpages⟩ := jobOutboxEvent_some hinv hrow ht
  obtain ⟨job,hjob,hkey⟩ := hinv.sourced.events row hrow
  have hiff := dispatch_ok_iff sha256 havailable s row.scope ⟨row.eventId,row.jobId,t,pageCount⟩
    hpages
  have hdelivered : Delivered sha256 starter s row ↔ ∃ outcome, (starter.checkpoint.dispatch s
      (workflowDispatch sha256 row.scope ⟨row.eventId,row.jobId,t,pageCount⟩)).1 = .ok outcome := by
    simp only [Delivered, hevent, Option.some.injEq, exists_and_left, exists_eq_left']
    exact hiff
  rw [hdelivered]
  cases htype : row.eventType with
  | accepted =>
    rw [htype] at ht
    cases ht
    have hstart := start_ok_iff (workflowDispatch sha256 row.scope
      ⟨row.eventId,row.jobId,.accepted,pageCount⟩) starter.checkpoint hc hjob hkey hpages
    simp only [TakesCommand, htype, hevent, Option.some.injEq, exists_eq_left', reduceCtorEq,
      false_or]
    exact hstart
  | cancellationRequested =>
    rw [htype] at ht
    cases ht
    exact iff_of_true (cancel_ok starter.checkpoint hc hjob hkey
      (hc.cancelled row hrow htype job hjob hkey) hpages) (Or.inl htype)
  | _ =>
    rw [htype] at hchannel
    cases hchannel

/-- A service which answers, and the digest of the sample's identifiers. -/
def answering : CheckpointedTemporalStarter :=
  ⟨⟨3,by decide⟩,⟨⟨fun _ _ _ _ => .started,fun _ _ => .cancelled⟩,"documents",by decide⟩⟩

def sampleDigest (_ : List UInt8) : List UInt8 :=
  [107,44,178,236,162,36,45,136,151,122,161,76,157,129,14,126,255,120,125,36,99,226,223,188,107,74,
    151,103,52,7,118,107]

def startEvent : StoredJobOutboxEvent := ⟨1,default,.accepted,1⟩

theorem three_attempts : 1 ≤ 3 ∧ 3 ≤ PageCheckpoint.maximumPageAttempts := by decide

/-- The start of a job is claimed and dispatched, and its publication is lost.
The worker claims the page meanwhile. -/
def replayedRun : List Action :=
  (acceptedJob.map fun c => .store (.command 3 c))++
    [.store (.claim 4 default ⟨"relay-01",1⟩),
      .dispatch answering (workflowDispatch sampleDigest default startEvent),
      .store (.command 5 (.savePageWorkflow default default 0
        ⟨default,3,[.running 1],false,three_attempts,by decide,by decide⟩ []))]

def startRow : OutboxRow :=
  ⟨1,default,default,.accepted,3,none,1,some "relay-01",some (4+WorkScopes.fiveMinutes),none⟩

theorem replayed_start_takes :
    Delivered sampleDigest answering (run (step sampleDigest) empty (replayedRun.take 7)) startRow ↔
      TakesCommand answering (run (step sampleDigest) empty (replayedRun.take 7)) startRow :=
  delivered_iff_takesCommand sampleDigest
    ⟨fun _ _ _ _ => WorkflowStartReply.noConfusion,fun _ _ => WorkflowCancelReply.noConfusion⟩
    (replayedRun.take 7) (by decide +kernel) rfl

/-- The start which is claimed again finds another checkpoint. -/
theorem replayed_start_refused :
    ¬∀ row ∈ (run (step sampleDigest) empty replayedRun).outbox, channel row.eventType = .job →
      row.publishedAt = none →
        Delivered sampleDigest answering (run (step sampleDigest) empty replayedRun) row := by
  intro h
  have hrow : startRow ∈ (run (step sampleDigest) empty replayedRun).outbox := by decide +kernel
  obtain ⟨event,outcome,hevent,hok⟩ := h startRow hrow rfl rfl
  have hanswer : (jobOutboxEvent (run (step sampleDigest) empty replayedRun) startRow).map
      (fun event => (answering.dispatch sampleDigest (run (step sampleDigest) empty replayedRun)
        (workflowDispatch sampleDigest startRow.scope event)).1) =
      some (.error .unavailable) := by decide +kernel
  rw [hevent, Option.map_some, hok] at hanswer
  cases hanswer

end DocumentIntelligence.CommandDelivery
