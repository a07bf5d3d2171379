import DocumentIntelligence.PageRounds

/-!
# Passes over a stored checkpoint

Between passes the store holds the checkpoint and, for its job, artifacts of
succeeded pages only. A pass without a concurrent writer saves its claim and its
outcomes, and returns what became of the checkpoint.
-/

set_option autoImplicit false

namespace DocumentIntelligence.PagePasses
open Identifiers hiding Error
open Schema PageWorkflowStore PageRunner PageRounds
open PageCheckpoint hiding Error

structure Tracks (s : Store) (scope : Scope) (jobId : JobId) (stored : StoredPageWorkflow) :
    Prop where
  row : s.pageWorkflows.find? (isPageWorkflow scope jobId) =
    some ⟨jobId,scope,stored.revision,stored.workflow⟩
  job : stored.workflow.jobId = jobId
  artifacts : ∀ row ∈ s.pageArtifacts, row.jobId = jobId →
    stored.workflow.isSuccessfulTask (StoredPageArtifact.task row.artifact) = true

variable {s : Store} {scope : Scope} {jobId : JobId} {stored : StoredPageWorkflow}

theorem load_tracks (h : Tracks s scope jobId stored) :
    loadPageWorkflow s scope jobId = some stored := by
  rw [loadPageWorkflow, h.row]
  rfl

theorem isSuccessfulTask_iff {w : PageWorkflow} {task : PageTask} :
    w.isSuccessfulTask task = true ↔ task.page ≠ 0 ∧
      task.activityKey = activityKey w.jobId task.page task.attempt ∧
      w.pages[task.page-1]? = some (.succeeded task.attempt) := by
  simp [PageWorkflow.isSuccessfulTask, and_assoc]

/-- A save of the loaded revision which keeps the succeeded pages and adds
artifacts of other succeeded pages. -/
theorem save_tracks (h : Tracks s scope jobId stored) {w : PageWorkflow}
    {artifacts : List StoredPageArtifact} (hjob : w.jobId = jobId)
    (hkeep : ∀ task, stored.workflow.isSuccessfulTask task = true → w.isSuccessfulTask task = true)
    (hvalid : validatePageArtifactBatch jobId w artifacts = true)
    (hchecks : artifactChecks s jobId artifacts = true) :
    ∃ s', savePageWorkflowWithArtifacts s scope jobId stored.revision w artifacts =
      .ok (.saved ⟨w,stored.revision+1⟩,s') ∧ Tracks s' scope jobId ⟨w,stored.revision+1⟩ ∧
      s' = saveRow s scope jobId w artifacts := by
  refine ⟨saveRow s scope jobId w artifacts,?_,?_,rfl⟩
  · simp only [savePageWorkflowWithArtifacts, hjob, ne_eq, not_true_eq_false, if_false, hvalid,
      Bool.not_true, Bool.false_eq_true, h.row, hchecks]
  · refine ⟨?_,hjob,?_⟩
    · have hfind := Table.find?_update (p := isPageWorkflow scope jobId) (f := fun row =>
        { row with checkpoint := w, revision := row.revision+1 }) (fun _ => rfl) s.pageWorkflows
      rw [h.row] at hfind
      exact hfind
    · intro row hrow hid
      rcases List.mem_append.mp hrow with hm | hm
      · exact hkeep _ (h.artifacts row hm hid)
      · obtain ⟨a,ha,rfl⟩ := List.mem_map.mp hm
        simp only [validatePageArtifactBatch, Bool.and_eq_true, List.all_eq_true] at hvalid
        exact (hvalid.1.2 a ha).2

theorem claim_of_terminal {p : PageProgress} (h : p.claimAttempt = none) : claim p = p := by
  simp [claim, h]

theorem claim_keeps {w w₁ : PageWorkflow} {b : ℕ} (hplan : SamePlan w w₁)
    (hpages : w₁.pages = (claimPages w.jobId b 1 w.pages).1) (task : PageTask)
    (h : w.isSuccessfulTask task = true) : w₁.isSuccessfulTask task = true := by
  rw [isSuccessfulTask_iff] at *
  rw [hplan.jobId, hpages, claimPages_get, h.2.2]
  refine ⟨h.1,h.2.1,?_⟩
  rw [Option.map_some, claim_of_terminal rfl, ite_self]

theorem outcomes_keep {w w' : PageWorkflow} {xs : List (PageTask × PageOutcome)}
    (h : Outcomes w xs w') (hactive : ∀ x ∈ xs, w.activeProgress x.1 = some (x.1.page-1))
    (task : PageTask) (ht : w.isSuccessfulTask task = true) : w'.isSuccessfulTask task = true := by
  rw [isSuccessfulTask_iff] at *
  have hother : ∀ x ∈ xs, x.1.page-1 ≠ task.page-1 := by
    intro x hx heq
    have hrunning := (activeProgress_iff.mp (hactive x hx)).2.2.2
    rw [heq, ht.2.2] at hrunning
    cases hrunning
  rw [h.plan.jobId, h.kept _ hother]
  exact ht

theorem claimPages_count (limit page : ℕ) (ps : List PageProgress) :
    (claimPages jobId limit page ps).2.length ≤ limit := by
  induction ps generalizing limit page with
  | nil => cases limit <;> simp [claimPages]
  | cons p ps ih =>
    cases limit with
    | zero => simp [claimPages]
    | succ limit =>
      cases hp : p.claimAttempt with
      | none => simpa [claimPages, hp] using ih (limit+1) (page+1)
      | some attempt => simpa [claimPages, hp] using ih limit (page+1)

theorem artifacts_sublist {xs : List (PageTask × PageOutcome)}
    (h : ∀ x ∈ xs, ∀ a, x.2 = .ok a → a.page = x.1.page) :
    ((xs.flatMap artifactOf).map (·.page)).Sublist (xs.map (·.1.page)) := by
  induction xs with
  | nil => exact List.Sublist.refl []
  | cons x xs ih =>
    have hrest := ih fun y hy => h y (List.mem_cons_of_mem x hy)
    rw [List.flatMap_cons, List.map_append, List.map_cons]
    cases hx : x.2 with
    | ok a =>
      have hpage := h x List.mem_cons_self a hx
      simpa [artifactOf, hx, hpage] using hrest
    | error e => simpa [artifactOf, hx] using hrest.cons x.1.page

theorem claimedTask {w : PageWorkflow} {b : ℕ} {task : PageTask} (h : task ∈ tasksOf w b) :
    ClaimedTask w.jobId task := by
  obtain ⟨i,attempt,⟨p,hp,_,ha⟩,rfl⟩ := mem_tasksOf.mp h
  have hlength := (List.getElem?_eq_some_iff.mp hp).1
  have hbound := w.pages_bounded.2
  have hattempt := PageProgress.claimAttempt_valid (valid_get hp) ha
  have hmax := w.attempts_bounded.2
  exact ⟨by simp only [taskAt]; omega,by simp only [taskAt]; omega,rfl⟩

theorem mem_artifacts {xs : List (PageTask × PageOutcome)} {a : StoredPageArtifact} :
    a ∈ xs.flatMap artifactOf ↔ ∃ x ∈ xs, x.2 = .ok a := by
  rw [List.mem_flatMap]
  apply exists_congr
  intro x
  cases hx : x.2 with
  | ok artifact => simp [artifactOf, hx, eq_comm]
  | error e => simp [artifactOf, hx]

section Batch
variable {w w' : PageWorkflow} {xs : List (PageTask × PageOutcome)} (hjob : w.jobId = jobId)
  (hactive : ∀ x ∈ xs, w.activeProgress x.1 = some (x.1.page-1))
  (hwritten : ∀ x ∈ xs, ∀ a, x.2 = .ok a → WrittenFor x.1 a)
include hjob hactive hwritten

/-- The artifacts of a batch are those of its recorded successes. -/
theorem batch_valid (hout : Outcomes w xs w') (hnodup : (xs.map (·.1.page)).Nodup)
    (hcount : xs.length ≤ 64) :
    validatePageArtifactBatch jobId w' (xs.flatMap artifactOf) = true := by
  have hpage : ∀ x ∈ xs, ∀ a, x.2 = .ok a → a.page = x.1.page := by
    intro x hx a ha
    rw [← (hwritten x hx a ha).task_eq]
    rfl
  have hsublist := artifacts_sublist hpage
  have hlength : (xs.flatMap artifactOf).length ≤ xs.length := by
    have hle := hsublist.length_le
    rwa [List.length_map, List.length_map] at hle
  simp only [validatePageArtifactBatch, Bool.and_eq_true, decide_eq_true_eq, List.all_eq_true]
  refine ⟨⟨hlength.trans hcount,?_⟩,hsublist.nodup hnodup⟩
  intro a ha
  obtain ⟨x,hx,hxa⟩ := mem_artifacts.mp ha
  have htask := (hwritten x hx a hxa).task_eq
  obtain ⟨_,hkey,hpos,_⟩ := activeProgress_iff.mp (hactive x hx)
  have hrecorded := hout.recorded x hx
  rw [hxa] at hrecorded
  rw [hjob] at hkey
  have hakey : a.activityKey = activityKey jobId a.page a.attempt := by
    rw [← htask] at hkey
    exact hkey
  refine ⟨⟨(hwritten x hx a hxa).valid,beq_iff_eq.mpr hakey⟩,?_⟩
  rw [htask, isSuccessfulTask_iff, hout.plan.jobId, hjob]
  exact ⟨hpos,hkey,hrecorded⟩

omit hjob in
/-- No artifact of the store is about a page which is running. -/
theorem batch_checks {revision : ℕ} (h : Tracks s scope jobId ⟨w,revision⟩) :
    artifactChecks s jobId (xs.flatMap artifactOf) = true := by
  simp only [artifactChecks, List.all_eq_true, Bool.and_eq_true, decide_eq_true_eq,
    Bool.not_eq_true', List.any_eq_false]
  intro a ha
  obtain ⟨x,hx,hxa⟩ := mem_artifacts.mp ha
  have hw := hwritten x hx a hxa
  refine ⟨hw.bucket,?_⟩
  intro row hrow hclash
  simp only [Bool.or_eq_true, beq_iff_eq] at hclash
  obtain ⟨_,hkey,_,hrunning⟩ := activeProgress_iff.mp (hactive x hx)
  obtain ⟨_,hrowKey,hsucceeded⟩ := isSuccessfulTask_iff.mp (h.artifacts row hrow hclash.1)
  rw [← hw.task_eq] at hkey hrunning
  have hpage : row.artifact.page = a.page := by
    rcases hclash.2 with heq | heq
    · exact heq
    · have hkeys : activityKey w.jobId row.artifact.page row.artifact.attempt =
          activityKey w.jobId a.page a.attempt := hrowKey.symm.trans (heq.trans hkey)
      exact activityKey_page hkeys
  have hsame : w.pages[a.page-1]? = some (.succeeded row.artifact.attempt) := hpage ▸ hsucceeded
  have hrun : w.pages[a.page-1]? = some (.running a.attempt) := hrunning
  rw [hsame] at hrun
  cases hrun

end Batch

variable (runner : CheckpointedPageRunner) (processing : Processing jobId)

/-- A pass over a terminal or cancelled workflow finds nothing to do. -/
theorem runOnce_idle (h : Tracks s scope jobId stored) (hstatus : stored.workflow.status ≠ .running) :
    runOnce runner s scope processing = (.ok (.idle stored.workflow.status),s) := by
  have hb := runner.batch_bounded
  have hlimit : ¬(runner.batchSize < 1 ∨ 64 < runner.batchSize) := by omega
  unfold runOnce
  rw [load_tracks h]
  cases hc : stored.workflow.cancelled with
  | true => simp only [PageWorkflow.claimReady, if_neg hlimit, hc, if_true]
  | false =>
    obtain ⟨w₁,hclaim,hplan,hpages⟩ := claimReady_ok hb hc
    rw [ne_eq, status_running_iff, hc] at hstatus
    have hclosed : ∀ p ∈ stored.workflow.pages, isOpen p = false := by
      intro p hp
      by_contra hopen
      exact hstatus ⟨rfl,p,hp,by simpa using hopen⟩
    have hempty : tasksOf stored.workflow runner.batchSize = [] :=
      (claimPages_empty_iff _ hb.1 1 _).mpr hclosed
    have hsame : w₁.pages = stored.workflow.pages := by
      apply List.ext_getElem?
      intro i
      rw [hpages, claimPages_get]
      cases hp : stored.workflow.pages[i]? with
      | none => rfl
      | some p =>
        have hnone : p.claimAttempt = none := by
          rw [PageProgress.claimAttempt_eq_none]
          simpa [isOpen] using hclosed p (List.mem_of_getElem? hp)
        rw [Option.map_some, claim_of_terminal hnone, ite_self]
    have hw₁ : w₁.status = stored.workflow.status := by
      simp only [PageWorkflow.status, hsame, hplan.cancelled]
    simp only [hclaim, hempty, hw₁]

/-- A pass over a running workflow without a concurrent writer, with the rows
which it inserts. -/
theorem runOnce_saves (h : Tracks s scope jobId stored)
    (hstatus : stored.workflow.status = .running) :
    ∃ w' s', Pass runner.batchSize stored.workflow
        (processing.outcomes (tasksOf stored.workflow runner.batchSize)) w' ∧
      Tracks s' scope jobId ⟨w',stored.revision+2⟩ ∧
      s'.pageArtifacts = s.pageArtifacts++((processing.outcomes
        (tasksOf stored.workflow runner.batchSize)).flatMap artifactOf).map (⟨jobId,scope,·⟩) ∧
      runOnce runner s scope processing =
        (if (processing.outcomes (tasksOf stored.workflow runner.batchSize)).any
            (limits stored.workflow.maxAttempts) ∧ w'.status = .running then .error .rateLimited
          else .ok (.progressed w'.status),s') := by
  have hb := runner.batch_bounded
  obtain ⟨hc,p,hp,hopen⟩ := (status_running_iff _).mp hstatus
  obtain ⟨w₁,hclaim,hplan,hpages⟩ := claimReady_ok hb hc
  have hperm := processing.perm (tasksOf stored.workflow runner.batchSize)
  have hnonempty : tasksOf stored.workflow runner.batchSize ≠ [] := by
    rw [ne_eq, tasksOf, claimPages_empty_iff _ hb.1]
    intro hclosed
    rw [hclosed p hp] at hopen
    cases hopen
  have htasks : ∀ x ∈ processing.outcomes (tasksOf stored.workflow runner.batchSize),
      ClaimedTask jobId x.1 := by
    intro x hx
    rw [← h.job]
    exact claimedTask (hperm.mem_iff.mp (List.mem_map_of_mem hx))
  have hwritten := fun x hx => processing.written _ x hx (htasks x hx)
  have hcount : (processing.outcomes (tasksOf stored.workflow runner.batchSize)).length ≤ 64 := by
    have hlength := hperm.length_eq
    rw [List.length_map] at hlength
    exact hlength.le.trans ((claimPages_count _ _ _).trans hb.2)
  have hjob₁ : w₁.jobId = jobId := hplan.jobId.trans h.job
  have hactive := outcomes_active hc hplan hpages hperm
  have hbatch : validatePageArtifactBatch jobId w₁ [] = true := by
    simp [validatePageArtifactBatch]
  have hchecks : artifactChecks s jobId [] = true := rfl
  obtain ⟨s₁,hsave₁,htracks₁,hs₁⟩ :=
    save_tracks h hjob₁ (claim_keeps hplan hpages) hbatch hchecks
  obtain ⟨w',hrecord,hpass,hout⟩ := pass_ok hc hplan hpages hperm
  obtain ⟨s₂,hsave₂,htracks₂,hs₂⟩ := save_tracks htracks₁ (hout.plan.jobId.trans hjob₁)
    (outcomes_keep hout hactive)
    (batch_valid hjob₁ hactive hwritten hout (outcomes_nodup hperm) hcount)
    (batch_checks hactive hwritten htracks₁)
  have hrows : s₂.pageArtifacts = s.pageArtifacts++((processing.outcomes
      (tasksOf stored.workflow runner.batchSize)).flatMap artifactOf).map (⟨jobId,scope,·⟩) := by
    rw [hs₂, hs₁]
    simp [saveRow]
  refine ⟨w',s₂,hpass,htracks₂,hrows,?_⟩
  obtain ⟨task,tasks,htasks⟩ := List.exists_cons_of_ne_nil hnonempty
  rw [htasks] at hclaim hrecord hsave₂ ⊢
  simp only [runOnce, load_tracks h, hclaim, savePageWorkflow, hsave₁, hrecord, hsave₂]
  split <;> rfl

/-- A pass over a running workflow without a concurrent writer. -/
theorem runOnce_running (h : Tracks s scope jobId stored)
    (hstatus : stored.workflow.status = .running) :
    ∃ w' s', Pass runner.batchSize stored.workflow
        (processing.outcomes (tasksOf stored.workflow runner.batchSize)) w' ∧
      Tracks s' scope jobId ⟨w',stored.revision+2⟩ ∧
      runOnce runner s scope processing =
        (if (processing.outcomes (tasksOf stored.workflow runner.batchSize)).any
            (limits stored.workflow.maxAttempts) ∧ w'.status = .running then .error .rateLimited
          else .ok (.progressed w'.status),s') := by
  obtain ⟨w',s',hpass,htracks,_,hrun⟩ := runOnce_saves runner processing h hstatus
  exact ⟨w',s',hpass,htracks,hrun⟩

end DocumentIntelligence.PagePasses
