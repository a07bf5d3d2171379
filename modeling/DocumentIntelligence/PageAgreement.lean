import DocumentIntelligence.PageWorkers
import DocumentIntelligence.JobLifecycle

/-!
# Agreement of the checkpoint and the artifacts

Whatever the workers of a job do and wherever they crash, an artifact is stored
for a page and an attempt exactly when the stored checkpoint has the page
succeeded at that attempt. A worker whose copy is not the current one changes
nothing, so an outcome which was saved is never lost.
-/

set_option autoImplicit false

namespace DocumentIntelligence.PageAgreement
open Identifiers hiding Error
open Schema Jobs Outbox PageWorkflowStore PageRunner PageRounds PagePasses Commands Transition
open PageWorkers
open PageCheckpoint hiding Error
open PageHistories (outcomeOf)

def KeepsPages (s s' : Store) : Prop :=
  s'.pageWorkflows = s.pageWorkflows ∧ s'.pageArtifacts = s.pageArtifacts

theorem commit_keeps {α : Type} {s : Store} {t : Transaction α}
    (h : ∀ a s', t = .ok (a,s') → KeepsPages s s') : KeepsPages s (commit s t) := by
  cases t with
  | error e => exact ⟨rfl,rfl⟩
  | ok x => exact h x.1 x.2 rfl

theorem uploads_pages (s : Store) (action : UploadScopes.Action) :
    KeepsPages s (UploadScopes.step s action) := by
  cases action with
  | create now request =>
    rcases UploadScopes.create_step s now request with h | ⟨_,h⟩ <;> rw [h] <;> exact ⟨rfl,rfl⟩
  | record now nowUtc scope uploadId record =>
    rcases UploadScopes.record_step s now nowUtc scope uploadId record with h | h <;> rw [h] <;>
      exact ⟨rfl,rfl⟩
  | claim now scope uploadId owner =>
    simp only [UploadScopes.step, Uploads.claimUploadInspection]
    split
    · exact ⟨rfl,rfl⟩
    · split
      · exact ⟨rfl,rfl⟩
      · split <;> exact ⟨rfl,rfl⟩
  | accept now scope uploadId source =>
    rw [UploadScopes.accept_step]
    split <;> exact ⟨rfl,rfl⟩
  | reject now scope uploadId owner reason =>
    rw [UploadScopes.reject_step]
    split <;> exact ⟨rfl,rfl⟩

theorem commitRow_pages (s : Store) (now : ℤ) (job : JobRow) (command : CommitResult)
    (eventType : EventType) : KeepsPages s (commitRow s now job command eventType) := by
  unfold commitRow
  split <;> exact ⟨rfl,rfl⟩

/-- The jobs, the deliveries and the results touch no page. -/
theorem apart_pages (s : Store) {a : OutboxExhaustion.Action} (h : apart a = true) :
    KeepsPages s (OutboxExhaustion.step s a) := by
  cases a with
  | claim now scope claim =>
    simp only [OutboxExhaustion.step, claimJobOutbox]
    split
    · exact ⟨rfl,rfl⟩
    · split
      · exact ⟨rfl,rfl⟩
      · refine commit_keeps (fun _ s' h => ?_)
        simp only [Except.map] at h
        split at h
        · cases h
        · cases h
          split <;> exact ⟨rfl,rfl⟩
  | claimWebhook now scope claim =>
    simp only [OutboxExhaustion.step, claimWebhookOutbox]
    split
    · exact ⟨rfl,rfl⟩
    · split <;> exact ⟨rfl,rfl⟩
  | publish now scope eventId owner => cases h
  | command now c =>
    cases c with
    | upload action => exact uploads_pages s action
    | create request =>
      simp only [OutboxExhaustion.step, execute, Jobs.create]
      repeat' split
      all_goals exact ⟨rfl,rfl⟩
    | cancel scope jobId =>
      simp only [OutboxExhaustion.step, execute, Jobs.cancel]
      repeat' split
      all_goals exact ⟨rfl,rfl⟩
    | completeCancellation scope jobId =>
      simp only [OutboxExhaustion.step, execute, Jobs.completeCancellation]
      repeat' split
      all_goals exact ⟨rfl,rfl⟩
    | createPageWorkflow scope jobId workflow => cases h
    | savePageWorkflow scope jobId revision workflow artifacts => cases h
    | commitResult scope jobId command =>
      simp only [OutboxExhaustion.step, execute, Jobs.commitResult]
      repeat' split
      all_goals first
        | exact ⟨rfl,rfl⟩
        | exact commitRow_pages s now _ command _

theorem publish_pages (s : Store) (now : ℤ) (scope : Scope) (eventId : ℕ) (owner : String) :
    KeepsPages s (commit s (publishJobOutbox s now scope eventId owner)) := by
  rcases OutboxExhaustion.publish_cases s now scope eventId owner with ⟨_,h⟩ | ⟨_,h⟩ <;>
    simp only [OutboxExhaustion.step] at h <;> rw [h] <;> exact ⟨rfl,rfl⟩

section
variable {scope : Scope} {jobId : JobId}

theorem load_kept {s s' : Store} (h : s'.pageWorkflows = s.pageWorkflows) :
    loadPageWorkflow s' scope jobId = loadPageWorkflow s scope jobId := by
  rw [loadPageWorkflow, h]
  rfl

variable (scope jobId) in
/-- The artifacts of the job are those of the succeeded pages of its checkpoint. -/
structure PagesAgree (s : Store) : Prop where
  absent : loadPageWorkflow s scope jobId = none → ∀ row ∈ s.pageArtifacts, row.jobId ≠ jobId
  job : ∀ stored, loadPageWorkflow s scope jobId = some stored → stored.workflow.jobId = jobId
  inScope : ∀ row ∈ s.pageArtifacts, row.jobId = jobId → row.scope = scope
  succeeded : ∀ stored, loadPageWorkflow s scope jobId = some stored → ∀ task,
    stored.workflow.isSuccessfulTask task = true ↔
      ∃ row ∈ s.pageArtifacts, row.jobId = jobId ∧ task = StoredPageArtifact.task row.artifact
  pages : ((s.pageArtifacts.filter (·.jobId == jobId)).map (·.artifact.page)).Nodup

variable (scope jobId) in
theorem agree_empty : PagesAgree scope jobId empty where
  absent := by simp [empty]
  job := by simp [empty, loadPageWorkflow]
  inScope := by simp [empty]
  succeeded := by simp [empty, loadPageWorkflow]
  pages := by simp [empty]

theorem agree_kept {s s' : Store} (h : PagesAgree scope jobId s) (hkeeps : KeepsPages s s') :
    PagesAgree scope jobId s' where
  absent := by
    rw [load_kept hkeeps.1, hkeeps.2]
    exact h.absent
  job := by
    rw [load_kept hkeeps.1]
    exact h.job
  inScope := by
    rw [hkeeps.2]
    exact h.inScope
  succeeded := by
    rw [load_kept hkeeps.1, hkeeps.2]
    exact h.succeeded
  pages := by
    rw [hkeeps.2]
    exact h.pages

theorem untouched_unsuccessful {w : PageWorkflow} (h : Untouched jobId w) (task : PageTask) :
    w.isSuccessfulTask task = false := by
  by_contra hcontra
  rw [Bool.not_eq_false, isSuccessfulTask_iff] at hcontra
  have hpending := h.pending _ (List.mem_of_getElem? hcontra.2.2)
  cases hpending

/-- The rows which a save adds are about pages without a row. -/
theorem saved_pages {s : Store} {artifacts : List StoredPageArtifact}
    (hpages : ((s.pageArtifacts.filter (·.jobId == jobId)).map (·.artifact.page)).Nodup)
    (hchecks : artifactChecks s jobId artifacts = true)
    (hnodup : (artifacts.map (·.page)).Nodup) :
    (((s.pageArtifacts++artifacts.map fun a => (⟨jobId,scope,a⟩ : PageArtifactRow)).filter
      (·.jobId == jobId)).map (·.artifact.page)).Nodup := by
  have hadded : ((artifacts.map fun a => (⟨jobId,scope,a⟩ : PageArtifactRow)).filter
      (·.jobId == jobId)).map (·.artifact.page) = artifacts.map (·.page) := by
    rw [List.filter_eq_self.mpr (by simp), List.map_map]
    rfl
  rw [List.filter_append, List.map_append, hadded, List.nodup_append]
  refine ⟨hpages,hnodup,?_⟩
  intro page hold page' hnew heq
  obtain ⟨row,hrow,rfl⟩ := List.mem_map.mp hold
  obtain ⟨a,ha,rfl⟩ := List.mem_map.mp hnew
  rw [List.mem_filter, beq_iff_eq] at hrow
  simp only [artifactChecks, List.all_eq_true, Bool.and_eq_true, Bool.not_eq_true',
    List.any_eq_false] at hchecks
  have hclash := (hchecks a ha).2 row hrow.1
  simp [hrow.2, heq] at hclash

theorem agree_effect {s s' : Store} (h : PagesAgree scope jobId s)
    (heffect : PageEffect scope jobId s s') : PagesAgree scope jobId s' := by
  cases heffect with
  | kept hrows hartifacts => exact agree_kept h ⟨hrows,hartifacts⟩
  | created workflow hfresh huntouched hrows hartifacts =>
    obtain ⟨hnone,hload⟩ := load_created hfresh hrows
    have habsent := h.absent hnone
    constructor
    · intro hcontra
      rw [hload] at hcontra
      cases hcontra
    · intro stored hstored
      rw [hload] at hstored
      cases hstored
      exact huntouched.jobId_eq
    · rw [hartifacts]
      exact h.inScope
    · intro stored hstored task
      rw [hload] at hstored
      cases hstored
      rw [untouched_unsuccessful huntouched, hartifacts]
      constructor
      · intro hfalse
        cases hfalse
      · rintro ⟨row,hrow,hid,_⟩
        exact absurd hid (habsent row hrow)
    · rw [hartifacts]
      exact h.pages
  | saved stored workflow artifacts hstored hopen hsaves hchecks hrows hartifacts =>
    have hload := load_saved hstored hrows
    constructor
    · intro hcontra
      rw [hload] at hcontra
      cases hcontra
    · intro stored' hstored'
      rw [hload] at hstored'
      cases hstored'
      exact hsaves.jobId.trans (h.job stored hstored)
    · intro row hrow hid
      rw [hartifacts] at hrow
      rcases List.mem_append.mp hrow with hold | hnew
      · exact h.inScope row hold hid
      · obtain ⟨a,_,rfl⟩ := List.mem_map.mp hnew
        rfl
    · intro stored' hstored' task
      rw [hload] at hstored'
      cases hstored'
      rw [hsaves.succeeded, h.succeeded stored hstored, hartifacts]
      constructor
      · rintro (⟨row,hrow,hid,htask⟩ | ⟨a,ha,htask⟩)
        · exact ⟨row,List.mem_append_left _ hrow,hid,htask⟩
        · exact ⟨⟨jobId,scope,a⟩,List.mem_append_right _ (List.mem_map_of_mem ha),rfl,htask⟩
      · rintro ⟨row,hrow,hid,htask⟩
        rcases List.mem_append.mp hrow with hold | hnew
        · exact Or.inl ⟨row,hold,hid,htask⟩
        · obtain ⟨a,ha,rfl⟩ := List.mem_map.mp hnew
          exact Or.inr ⟨a,ha,htask⟩
    · rw [hartifacts]
      exact saved_pages h.pages hchecks hsaves.pages

/-! ## The copies of the workers -/

variable (scope jobId) in
/-- A copy is as old as its revision says. -/
def Held (s : Store) (stored : StoredPageWorkflow) : Prop :=
  ∃ current, loadPageWorkflow s scope jobId = some current ∧
    stored.revision ≤ current.revision ∧ (stored.revision = current.revision → stored = current)

structure Batch (w : PageWorkflow) (tasks : List PageTask) : Prop where
  nonempty : tasks ≠ []
  pages : (tasks.map (·.page)).Nodup
  active : ∀ task ∈ tasks, w.activeProgress task = some (task.page-1)

variable (scope jobId) in
def PhaseOk (s : Store) : Phase → Prop
  | .loaded stored | .cancelling _ (some stored) => Held scope jobId s stored
  | .processing stored tasks => Held scope jobId s stored ∧ Batch stored.workflow tasks
  | _ => True

variable (scope jobId) in
/-- What a worker takes up from the current checkpoint. -/
def Current (s : Store) : Phase → Prop
  | .loaded stored | .cancelling _ (some stored) => loadPageWorkflow s scope jobId = some stored
  | .processing stored tasks =>
    loadPageWorkflow s scope jobId = some stored ∧ Batch stored.workflow tasks
  | _ => True

variable (scope jobId) in
structure Coherent (σ : System) : Prop where
  agree : PagesAgree scope jobId σ.store
  phases : ∀ i, PhaseOk scope jobId σ.store (σ.workers i)

theorem held_current {s : Store} {stored : StoredPageWorkflow}
    (h : loadPageWorkflow s scope jobId = some stored) : Held scope jobId s stored :=
  ⟨stored,h,le_refl _,fun _ => rfl⟩

theorem current_ok {s : Store} {phase : Phase} (h : Current scope jobId s phase) :
    PhaseOk scope jobId s phase := by
  cases phase with
  | loaded stored => exact held_current h
  | processing stored tasks => exact ⟨held_current h.1,h.2⟩
  | cancelling eventId stored =>
    cases stored with
    | none => trivial
    | some stored => exact held_current h
  | _ => trivial

theorem held_effect {s s' : Store} (heffect : PageEffect scope jobId s s')
    {stored : StoredPageWorkflow} (h : Held scope jobId s stored) : Held scope jobId s' stored := by
  obtain ⟨current,hcurrent,hle,hsame⟩ := h
  cases heffect with
  | kept hrows hartifacts => exact ⟨current,(load_kept hrows).trans hcurrent,hle,hsame⟩
  | created workflow hfresh huntouched hrows hartifacts =>
    rw [(load_created hfresh hrows).1] at hcurrent
    cases hcurrent
  | saved stored' workflow artifacts hstored hopen hsaves hchecks hrows hartifacts =>
    rw [hstored, Option.some.injEq] at hcurrent
    subst hcurrent
    refine ⟨_,load_saved hstored hrows,?_,?_⟩
    · show stored.revision ≤ stored'.revision+1
      omega
    · intro heq
      have hnext : stored.revision = stored'.revision+1 := heq
      omega

theorem phase_effect {s s' : Store} (heffect : PageEffect scope jobId s s') {phase : Phase}
    (h : PhaseOk scope jobId s phase) : PhaseOk scope jobId s' phase := by
  cases phase with
  | loaded stored => exact held_effect heffect h
  | processing stored tasks => exact ⟨held_effect heffect h.1,h.2⟩
  | cancelling eventId stored =>
    cases stored with
    | none => trivial
    | some stored => exact held_effect heffect h
  | _ => trivial

variable (scope jobId) in
/-- A step has one effect on the pages, and what its worker takes up is current. -/
structure Advance (σ σ' : System) : Prop where
  effect : PageEffect scope jobId σ.store σ'.store
  phases : ∀ i, σ'.workers i = σ.workers i ∨ Current scope jobId σ'.store (σ'.workers i)

theorem advance_coherent {σ σ' : System} (h : Coherent scope jobId σ)
    (hadvance : Advance scope jobId σ σ') : Coherent scope jobId σ' where
  agree := agree_effect h.agree hadvance.effect
  phases := by
    intro i
    rcases hadvance.phases i with hsame | hnew
    · rw [hsame]
      exact phase_effect hadvance.effect (h.phases i)
    · exact current_ok hnew

theorem advance_refl (σ : System) : Advance scope jobId σ σ :=
  ⟨.kept rfl rfl,fun _ => Or.inl rfl⟩

theorem advance_enter {σ : System} {s : Store} {phase : Phase} (i : ℕ)
    (heffect : PageEffect scope jobId σ.store s) (hphase : Current scope jobId s phase) :
    Advance scope jobId σ (σ.enter i phase s) where
  effect := heffect
  phases := by
    intro j
    by_cases hj : j = i
    · right
      simpa [System.enter, hj] using hphase
    · left
      simp [System.enter, hj]

theorem advance_idle (σ : System) (i : ℕ) : Advance scope jobId σ (σ.enter i .idle σ.store) :=
  advance_enter i (.kept rfl rfl) trivial

theorem claimed_of_ready {w w' : PageWorkflow} {limit : ℕ} {tasks : List PageTask}
    (h : w.claimReady limit = .ok (w',tasks)) (hne : tasks ≠ []) :
    w.cancelled = false ∧ SamePlan w w' ∧ w'.pages = (claimPages w.jobId limit 1 w.pages).1 ∧
      tasks = tasksOf w limit := by
  by_cases hlimit : limit < 1 ∨ 64 < limit
  · rw [PageWorkflow.claimReady, if_pos hlimit] at h
    cases h
  · cases hc : w.cancelled with
    | true =>
      rw [PageWorkflow.claimReady, if_neg hlimit, hc, if_pos rfl] at h
      cases h
      exact absurd rfl hne
    | false =>
      obtain ⟨w₁,hready,hplan,hpages⟩ := claimReady_ok (show 1 ≤ limit ∧ limit ≤ 64 by omega) hc
      rw [hready] at h
      cases h
      exact ⟨rfl,hplan,hpages,rfl⟩

/-- A save by the holder of a copy which is not the current one is refused. -/
theorem held_save {s s' : Store} {stored : StoredPageWorkflow} {workflow : PageWorkflow}
    {artifacts : List StoredPageArtifact} {outcome : SavePageWorkflowOutcome}
    (hheld : Held scope jobId s stored)
    (h : savePageWorkflowWithArtifacts s scope jobId stored.revision workflow artifacts =
      .ok (outcome,s')) :
    (outcome = .conflict ∨ outcome = .notFound) ∧ s' = s ∨
    loadPageWorkflow s scope jobId = some stored ∧ artifactChecks s jobId artifacts = true ∧
      outcome = .saved ⟨workflow,stored.revision+1⟩ ∧
      s' = saveRow s scope jobId workflow artifacts := by
  rcases save_cases h with hrefused | ⟨stored',hload,hrevision,_,hchecks,houtcome,hstore⟩
  · exact Or.inl hrefused
  · obtain ⟨current,hcurrent,_,hsame⟩ := hheld
    rw [hload, Option.some.injEq] at hcurrent
    subst hcurrent
    have heq := hsame hrevision.symm
    subst heq
    exact Or.inr ⟨hload,hchecks,houtcome,hstore⟩

theorem effect_saved {s : Store} {stored : StoredPageWorkflow} {workflow : PageWorkflow}
    {artifacts : List StoredPageArtifact} (hload : loadPageWorkflow s scope jobId = some stored)
    (hopen : stored.workflow.cancelled = false) (hsaves : Saves stored.workflow workflow artifacts)
    (hchecks : artifactChecks s jobId artifacts = true) :
    PageEffect scope jobId s (saveRow s scope jobId workflow artifacts) ∧
      loadPageWorkflow (saveRow s scope jobId workflow artifacts) scope jobId =
        some ⟨workflow,stored.revision+1⟩ :=
  ⟨.saved stored workflow artifacts hload hopen hsaves hchecks rfl rfl,load_saved hload rfl⟩

section Steps
variable {σ : System} (i : ℕ)

theorem claimStep_advance {stored : StoredPageWorkflow} (hheld : Held scope jobId σ.store stored)
    (limit : ℕ) : Advance scope jobId σ (claimStep scope jobId σ i limit stored) := by
  unfold claimStep
  split
  · exact advance_idle σ i
  · exact advance_idle σ i
  · rename_i workflow task tasks hready
    obtain ⟨hopen,hplan,hpages,htasks⟩ := claimed_of_ready hready (List.cons_ne_nil task tasks)
    have hsaves := saves_claim hplan hpages
    split
    · rename_i stored' s hsave
      rcases held_save hheld hsave with ⟨hout | hout,_⟩ | ⟨hload,hchecks,hout,hs⟩
      · cases hout
      · cases hout
      · cases hout
        subst hs
        obtain ⟨heffect,hload'⟩ := effect_saved hload hopen hsaves hchecks
        refine advance_enter i heffect ⟨hload',List.cons_ne_nil task tasks,?_,?_⟩
        · rw [htasks]
          exact claimPages_nodup _ _ _ _
        · rw [htasks]
          exact tasks_active hopen hplan hpages
    · rename_i s hsave
      rcases held_save hheld hsave with ⟨_,rfl⟩ | ⟨_,_,hout,_⟩
      · exact advance_idle σ i
      · cases hout
    · rename_i s hsave
      rcases held_save hheld hsave with ⟨_,rfl⟩ | ⟨_,_,hout,_⟩
      · exact advance_idle σ i
      · cases hout
    · exact advance_idle σ i

theorem answers_iff {tasks : List PageTask} {xs : List (PageTask × PageOutcome)} :
    answers tasks xs = true ↔ (xs.map (·.1)).Perm tasks ∧
      ∀ x ∈ xs, ∀ a, x.2 = .ok a → StoredPageArtifact.task a = x.1 := by
  rw [answers, Bool.and_eq_true, decide_eq_true_eq, List.all_eq_true]
  apply and_congr_right
  intro _
  apply forall₂_congr
  intro x _
  cases x.2 <;> simp

theorem recordStep_advance {stored : StoredPageWorkflow} {tasks : List PageTask}
    (hheld : Held scope jobId σ.store stored) (hbatch : Batch stored.workflow tasks)
    {xs : List (PageTask × PageOutcome)} (hanswers : answers tasks xs = true) :
    Advance scope jobId σ (recordStep scope jobId σ i stored xs) := by
  obtain ⟨hperm,hwritten⟩ := answers_iff.mp hanswers
  have hactive : ∀ x ∈ xs, stored.workflow.activeProgress x.1 = some (x.1.page-1) := by
    intro x hx
    exact hbatch.active x.1 (hperm.mem_iff.mp (List.mem_map_of_mem hx))
  have hnodup : (xs.map (·.1.page)).Nodup := by
    have hmap : xs.map (·.1.page) = (xs.map (·.1)).map (·.page) := by simp
    rw [hmap]
    exact (hperm.map (·.page)).nodup_iff.mpr hbatch.pages
  have hopen : stored.workflow.cancelled = false := by
    obtain ⟨task,htask⟩ := List.exists_mem_of_ne_nil tasks hbatch.nonempty
    exact (activeProgress_iff.mp (hbatch.active task htask)).1
  obtain ⟨w',hrecord,hout⟩ := recordOutcomes_ok [] false hnodup hactive
  have hsaves := saves_outcomes hout hactive hnodup hwritten
  unfold recordStep
  rw [hrecord]
  refine advance_enter i ?_ trivial
  cases hsave : savePageWorkflowWithArtifacts σ.store scope jobId stored.revision w'
      ([]++xs.flatMap artifactOf) with
  | error e => exact .kept rfl rfl
  | ok x =>
    obtain ⟨outcome,s⟩ := x
    rw [commit_ok]
    rcases held_save hheld hsave with ⟨_,rfl⟩ | ⟨hload,hchecks,_,rfl⟩
    · exact .kept rfl rfl
    · exact (effect_saved hload hopen hsaves hchecks).1

theorem untouched_new {pageCount maxAttempts : ℕ} {workflow : PageWorkflow}
    (h : PageWorkflow.new jobId pageCount maxAttempts = .ok workflow) :
    Untouched jobId workflow ∧ Untouched jobId workflow.requestCancellation := by
  unfold PageWorkflow.new at h
  split at h
  · cases h
    exact ⟨⟨rfl,fun _ hp => List.eq_of_mem_replicate hp⟩,
      ⟨rfl,fun _ hp => List.eq_of_mem_replicate hp⟩⟩
  · cases h

theorem create_effect {s s' : Store} {workflow : PageWorkflow}
    (huntouched : Untouched jobId workflow) {outcome : CreatePageWorkflowOutcome}
    (h : createPageWorkflow s scope jobId workflow = .ok (outcome,s')) :
    PageEffect scope jobId s s' ∧
      (∀ stored, outcome = .existing stored → loadPageWorkflow s' scope jobId = some stored) := by
  rcases create_cases h with ⟨hout,hfresh,hrows,hartifacts⟩ | ⟨rfl,hcases⟩
  · refine ⟨.created workflow hfresh huntouched hrows hartifacts,?_⟩
    intro stored hcontra
    rw [hout] at hcontra
    cases hcontra
  · refine ⟨.kept rfl rfl,?_⟩
    intro stored hstored
    rcases hcases with ⟨stored',hout,hload,_⟩ | hout | hout
    · rw [hout] at hstored
      cases hstored
      exact hload
    · rw [hout] at hstored
      cases hstored
    · rw [hout] at hstored
      cases hstored

theorem startStep_advance (eventId pageCount maxAttempts : ℕ) :
    Advance scope jobId σ (startStep scope jobId σ i eventId pageCount maxAttempts) := by
  unfold startStep
  split
  · exact advance_idle σ i
  · rename_i workflow hnew
    split <;> try exact advance_idle σ i
    all_goals
      rename_i hcreate
      exact advance_enter i (create_effect (untouched_new hnew).1 hcreate).1 trivial

theorem cancelCreateStep_advance (eventId pageCount maxAttempts : ℕ) :
    Advance scope jobId σ (cancelCreateStep scope jobId σ i eventId pageCount maxAttempts) := by
  unfold cancelCreateStep
  split
  · exact advance_idle σ i
  · rename_i workflow hnew
    split
    · rename_i stored s hcreate
      exact advance_enter i (create_effect (untouched_new hnew).2 hcreate).1 trivial
    · rename_i stored s hcreate
      obtain ⟨heffect,hexisting⟩ := create_effect (untouched_new hnew).2 hcreate
      exact advance_enter i heffect (hexisting stored rfl)
    · rename_i s hcreate
      exact advance_enter i (create_effect (untouched_new hnew).2 hcreate).1 trivial
    · rename_i s hcreate
      exact advance_enter i (create_effect (untouched_new hnew).2 hcreate).1 trivial
    · exact advance_idle σ i

theorem cancelStoredStep_advance {stored : StoredPageWorkflow}
    (hheld : Held scope jobId σ.store stored) (eventId : ℕ) :
    Advance scope jobId σ (cancelStoredStep scope jobId σ i eventId stored) := by
  unfold cancelStoredStep
  by_cases hstatus : stored.workflow.status = .cancelled
  · rw [if_pos hstatus]
    exact advance_enter i (.kept rfl rfl) trivial
  · rw [if_neg hstatus]
    rw [PageWorkflow.status_cancelled_iff, Bool.not_eq_true] at hstatus
    have hsaved : ∀ outcome s, savePageWorkflow σ.store scope jobId stored.revision
        stored.workflow.requestCancellation = .ok (outcome,s) →
        PageEffect scope jobId σ.store s := by
      intro outcome s hsave
      rcases held_save hheld hsave with ⟨_,rfl⟩ | ⟨hload,hchecks,_,rfl⟩
      · exact .kept rfl rfl
      · exact (effect_saved hload hstatus (saves_cancellation _) hchecks).1
    split
    · rename_i hsave
      exact advance_enter i (hsaved _ _ hsave) trivial
    · rename_i hsave
      exact advance_enter i (hsaved _ _ hsave) trivial
    · rename_i hsave
      exact advance_enter i (hsaved _ _ hsave) trivial
    · exact advance_idle σ i

theorem completeCancellation_pages {s s' : Store} {outcome : CompleteCancellationOutcome}
    (h : completeCancellation s scope jobId = .ok (outcome,s')) : KeepsPages s s' := by
  have hkeeps : KeepsPages s (execute s 0 (.completeCancellation scope jobId)) :=
    apart_pages (a := .command 0 (.completeCancellation scope jobId)) s rfl
  simp only [execute, h, commit_ok] at hkeeps
  exact hkeeps

theorem cancelCompleteStep_advance (eventId : ℕ) :
    Advance scope jobId σ (cancelCompleteStep scope jobId σ i eventId) := by
  unfold cancelCompleteStep
  split <;> try exact advance_idle σ i
  all_goals
    rename_i hcomplete
    obtain ⟨hrows,hartifacts⟩ := completeCancellation_pages hcomplete
    exact advance_enter i (.kept hrows hartifacts) trivial

end Steps

theorem step_advance {σ : System} (h : Coherent scope jobId σ) (a : Action) :
    Advance scope jobId σ (PageWorkers.step scope jobId σ a) := by
  cases a with
  | other a =>
    simp only [PageWorkers.step]
    split
    · rename_i hapart
      obtain ⟨hrows,hartifacts⟩ := apart_pages σ.store hapart
      exact ⟨.kept hrows hartifacts,fun _ => Or.inl rfl⟩
    · exact advance_refl σ
  | load i =>
    simp only [PageWorkers.step]
    split
    · rename_i stored hload
      exact advance_enter i (.kept rfl rfl) hload
    · exact advance_idle σ i
  | claim i limit =>
    have hphase := h.phases i
    simp only [PageWorkers.step]
    split
    · rename_i stored hworker
      rw [hworker] at hphase
      exact claimStep_advance i hphase limit
    · exact advance_refl σ
  | record i outcomes =>
    have hphase := h.phases i
    simp only [PageWorkers.step]
    split
    · rename_i stored tasks hworker
      rw [hworker] at hphase
      split
      · rename_i hanswers
        exact recordStep_advance i hphase.1 hphase.2 hanswers
      · exact advance_refl σ
    · exact advance_refl σ
  | start i eventId pageCount maxAttempts =>
    simp only [PageWorkers.step]
    split
    · exact startStep_advance i eventId pageCount maxAttempts
    · exact advance_refl σ
  | cancelLoad i eventId =>
    simp only [PageWorkers.step]
    split
    · refine advance_enter i (.kept rfl rfl) ?_
      cases hload : loadPageWorkflow σ.store scope jobId with
      | none => trivial
      | some stored => exact hload
    · exact advance_refl σ
  | cancelWrite i pageCount maxAttempts =>
    have hphase := h.phases i
    simp only [PageWorkers.step]
    split
    · exact cancelCreateStep_advance i _ pageCount maxAttempts
    · rename_i eventId stored hworker
      rw [hworker] at hphase
      exact cancelStoredStep_advance i hphase eventId
    · exact advance_refl σ
  | cancelComplete i =>
    simp only [PageWorkers.step]
    split
    · exact cancelCompleteStep_advance i _
    · exact advance_refl σ
  | publish i now owner =>
    simp only [PageWorkers.step]
    split
    · obtain ⟨hrows,hartifacts⟩ := publish_pages σ.store now scope _ owner
      exact advance_enter i (.kept hrows hartifacts) trivial
    · exact advance_refl σ
  | crash i => exact advance_idle σ i

theorem step_coherent (σ : System) (a : Action) (h : Coherent scope jobId σ) :
    Coherent scope jobId (PageWorkers.step scope jobId σ a) :=
  advance_coherent h (step_advance h a)

def initial : System := ⟨empty,fun _ => .idle⟩

theorem initial_coherent : Coherent scope jobId initial :=
  ⟨agree_empty scope jobId,fun _ => trivial⟩

theorem run_coherent (σ : System) (h : Coherent scope jobId σ) (as : List Action) :
    Coherent scope jobId (run (PageWorkers.step scope jobId) σ as) :=
  run_invariant step_coherent h as

@[simp] theorem enter_workers (σ : System) (i : ℕ) (phase : Phase) (s : Store) :
    (σ.enter i phase s).workers i = phase := by
  simp [System.enter]

@[simp] theorem enter_store (σ : System) (i : ℕ) (phase : Phase) (s : Store) :
    (σ.enter i phase s).store = s := rfl

/-- A pass which nothing interrupts is a load, a claim and a record. -/
theorem runOnce_steps {σ : System} (h : Coherent scope jobId σ) (i : ℕ)
    (runner : CheckpointedPageRunner) (processing : Processing jobId) :
    ∃ outcomes, (runOnce runner σ.store scope processing).2 =
      (run (PageWorkers.step scope jobId) σ
        [.load i,.claim i runner.batchSize,.record i outcomes]).store := by
  simp only [run_cons, run_nil]
  unfold runOnce
  cases hload : loadPageWorkflow σ.store scope jobId with
  | none => exact ⟨[],by simp [PageWorkers.step, hload]⟩
  | some stored =>
    have hstep : PageWorkers.step scope jobId σ (.load i) = σ.enter i (.loaded stored) σ.store := by
      simp [PageWorkers.step, hload]
    rw [hstep]
    cases hready : stored.workflow.claimReady runner.batchSize with
    | error e => exact ⟨[],by simp [PageWorkers.step, claimStep, hready]⟩
    | ok x =>
      obtain ⟨workflow,tasks⟩ := x
      cases tasks with
      | nil => exact ⟨[],by simp [PageWorkers.step, claimStep, hready]⟩
      | cons task tasks =>
        obtain ⟨hopen,hplan,hpages,htasks⟩ := claimed_of_ready hready (List.cons_ne_nil task tasks)
        have hanswers : answers (task::tasks) (processing.outcomes (task::tasks)) = true := by
          refine answers_iff.mpr ⟨processing.perm _,?_⟩
          intro x hx a ha
          have hclaimed : ClaimedTask stored.workflow.jobId x.1 := by
            apply claimedTask (w := stored.workflow) (b := runner.batchSize)
            rw [← htasks]
            exact (processing.perm _).mem_iff.mp (List.mem_map_of_mem hx)
          rw [h.agree.job stored hload] at hclaimed
          exact (processing.written _ x hx hclaimed a ha).task_eq
        refine ⟨processing.outcomes (task::tasks),?_⟩
        cases hsave : savePageWorkflow σ.store scope jobId stored.revision workflow with
        | error e => simp [PageWorkers.step, claimStep, hready, hsave]
        | ok y =>
          obtain ⟨outcome,s⟩ := y
          cases outcome with
          | conflict => simp [PageWorkers.step, claimStep, hready, hsave]
          | notFound => simp [PageWorkers.step, claimStep, hready, hsave]
          | saved stored' =>
            simp only [PageWorkers.step, claimStep, hready, hsave, enter_workers, enter_store,
              hanswers, if_true, recordStep]
            cases hrecord : recordOutcomes ⟨stored'.workflow,[],false⟩
                (processing.outcomes (task::tasks)) with
            | error e => rfl
            | ok recorded =>
              simp only [enter_store]
              cases hwrite : savePageWorkflowWithArtifacts s scope jobId stored'.revision
                  recorded.workflow recorded.artifacts with
              | error e => rfl
              | ok z =>
                obtain ⟨outcome,s'⟩ := z
                cases outcome with
                | saved stored'' =>
                  simp only [commit_ok]
                  split <;> rfl
                | _ => rfl

/-! ## What later steps keep -/

variable (scope jobId) in
/-- The outcome of an attempt which the stored checkpoint has. -/
def SavedOutcome (s : Store) (page attempt : ℕ) (r : Record) : Prop :=
  page ≠ 0 ∧ ∃ stored p, loadPageWorkflow s scope jobId = some stored ∧
    stored.workflow.pages[page-1]? = some p ∧ outcomeOf p attempt r

theorem savedOutcome_effect {s s' : Store} (heffect : PageEffect scope jobId s s')
    {page attempt : ℕ} {r : Record} (h : SavedOutcome scope jobId s page attempt r) :
    SavedOutcome scope jobId s' page attempt r := by
  obtain ⟨hpage,stored,p,hload,hp,hout⟩ := h
  refine ⟨hpage,?_⟩
  cases heffect with
  | kept hrows hartifacts => exact ⟨stored,p,(load_kept hrows).trans hload,hp,hout⟩
  | created workflow hfresh huntouched hrows hartifacts =>
    rw [(load_created hfresh hrows).1] at hload
    cases hload
  | saved stored' workflow artifacts hstored hopen hsaves hchecks hrows hartifacts =>
    rw [hstored, Option.some.injEq] at hload
    subst hload
    obtain ⟨p',hp',hkept⟩ := hsaves.outcomes _ p hp
    exact ⟨_,p',load_saved hstored hrows,hp',hkept _ _ hout⟩

theorem artifacts_effect {s s' : Store} (heffect : PageEffect scope jobId s s')
    {row : PageArtifactRow} (h : row ∈ s.pageArtifacts) : row ∈ s'.pageArtifacts := by
  cases heffect with
  | kept hrows hartifacts => exact hartifacts ▸ h
  | created workflow hfresh huntouched hrows hartifacts => exact hartifacts ▸ h
  | saved stored workflow artifacts hstored hopen hsaves hchecks hrows hartifacts =>
    rw [hartifacts]
    exact List.mem_append_left _ h

theorem cancelled_effect {s s' : Store} (heffect : PageEffect scope jobId s s')
    {stored : StoredPageWorkflow} (hload : loadPageWorkflow s scope jobId = some stored)
    (hcancelled : stored.workflow.cancelled = true) : loadPageWorkflow s' scope jobId = some stored ∧
      s'.pageArtifacts = s.pageArtifacts := by
  cases heffect with
  | kept hrows hartifacts => exact ⟨(load_kept hrows).trans hload,hartifacts⟩
  | created workflow hfresh huntouched hrows hartifacts =>
    rw [(load_created hfresh hrows).1] at hload
    cases hload
  | saved stored' workflow artifacts hstored hopen hsaves hchecks hrows hartifacts =>
    rw [hstored, Option.some.injEq] at hload
    rw [hload, hcancelled] at hopen
    cases hopen

/-- What every step of a coherent system keeps, a run keeps. -/
theorem run_keeps {P : Store → Prop}
    (hstep : ∀ s s', PageEffect scope jobId s s' → P s → P s') {σ : System}
    (h : Coherent scope jobId σ) (hP : P σ.store) (as : List Action) :
    P (run (PageWorkers.step scope jobId) σ as).store := by
  have hboth := run_invariant (I := fun σ => Coherent scope jobId σ ∧ P σ.store)
    (fun σ a hσ => ⟨step_coherent σ a hσ.1,hstep _ _ (step_advance hσ.1 a).effect hσ.2⟩) ⟨h,hP⟩ as
  exact hboth.2

/-! ## A stale worker -/

/-- The copy of the checkpoint which a worker saves next. -/
def copyOf : Phase → Option StoredPageWorkflow
  | .loaded stored | .processing stored _ | .cancelling _ (some stored) => some stored
  | _ => none

theorem stale_save {s : Store} {stored : StoredPageWorkflow} (hheld : Held scope jobId s stored)
    (hstale : loadPageWorkflow s scope jobId ≠ some stored) (workflow : PageWorkflow)
    (artifacts : List StoredPageArtifact) :
    commit s (savePageWorkflowWithArtifacts s scope jobId stored.revision workflow artifacts) = s ∧
      ∀ outcome s', savePageWorkflowWithArtifacts s scope jobId stored.revision workflow artifacts =
        .ok (outcome,s') → s' = s := by
  have hkept : ∀ outcome s', savePageWorkflowWithArtifacts s scope jobId stored.revision workflow
      artifacts = .ok (outcome,s') → s' = s := by
    intro outcome s' hsave
    rcases held_save hheld hsave with ⟨_,hs⟩ | ⟨hload,_⟩
    · exact hs
    · exact absurd hload hstale
  refine ⟨?_,hkept⟩
  cases hsave : savePageWorkflowWithArtifacts s scope jobId stored.revision workflow artifacts with
  | error e => rfl
  | ok x => exact hkept x.1 x.2 hsave

theorem stale_step {σ : System} (h : Coherent scope jobId σ) {i : ℕ} {stored : StoredPageWorkflow}
    (hcopy : copyOf (σ.workers i) = some stored)
    (hstale : loadPageWorkflow σ.store scope jobId ≠ some stored) :
    (∀ limit, (PageWorkers.step scope jobId σ (.claim i limit)).store = σ.store) ∧
    (∀ outcomes, (PageWorkers.step scope jobId σ (.record i outcomes)).store = σ.store) ∧
    ∀ pageCount maxAttempts,
      (PageWorkers.step scope jobId σ (.cancelWrite i pageCount maxAttempts)).store = σ.store := by
  have hphase := h.phases i
  cases hworker : σ.workers i with
  | loaded stored' =>
    rw [hworker] at hcopy hphase
    cases hcopy
    refine ⟨?_,by simp [PageWorkers.step, hworker],by simp [PageWorkers.step, hworker]⟩
    intro limit
    simp only [PageWorkers.step, hworker, claimStep]
    split <;> try rfl
    split <;> try rfl
    all_goals
      rename_i hsave
      exact (stale_save hphase hstale _ _).2 _ _ hsave
  | processing stored' tasks =>
    rw [hworker] at hcopy hphase
    cases hcopy
    refine ⟨by simp [PageWorkers.step, hworker],?_,by simp [PageWorkers.step, hworker]⟩
    intro outcomes
    simp only [PageWorkers.step, hworker, recordStep]
    split <;> try rfl
    split <;> try rfl
    exact (stale_save hphase.1 hstale _ _).1
  | cancelling eventId held =>
    cases held with
    | none =>
      rw [hworker] at hcopy
      cases hcopy
    | some stored' =>
      rw [hworker] at hcopy hphase
      cases hcopy
      refine ⟨by simp [PageWorkers.step, hworker],by simp [PageWorkers.step, hworker],?_⟩
      intro pageCount maxAttempts
      simp only [PageWorkers.step, hworker, cancelStoredStep]
      split <;> try rfl
      split <;> try rfl
      all_goals
        rename_i hsave
        exact (stale_save hphase hstale _ _).2 _ _ hsave
  | _ =>
    rw [hworker] at hcopy
    cases hcopy

/-! ## Every interleaving -/

theorem run_agreement (as bs : List Action) :
    let σ := run (PageWorkers.step scope jobId) initial as
    let σ' := run (PageWorkers.step scope jobId) σ bs
    ((σ.store.pageArtifacts.filter (·.jobId == jobId)).map (·.artifact.page)).Nodup ∧
    (∀ page attempt,
      (∃ row ∈ σ.store.pageArtifacts, row.scope = scope ∧ row.jobId = jobId ∧
        row.artifact.page = page ∧ row.artifact.attempt = attempt) ↔
      page ≠ 0 ∧ ∃ stored, loadPageWorkflow σ.store scope jobId = some stored ∧
        stored.workflow.pages[page-1]? = some (.succeeded attempt)) ∧
    (∀ i stored, copyOf (σ.workers i) = some stored →
      loadPageWorkflow σ.store scope jobId ≠ some stored →
      (∀ limit, (PageWorkers.step scope jobId σ (.claim i limit)).store = σ.store) ∧
      (∀ outcomes, (PageWorkers.step scope jobId σ (.record i outcomes)).store = σ.store) ∧
      ∀ pageCount maxAttempts,
        (PageWorkers.step scope jobId σ (.cancelWrite i pageCount maxAttempts)).store = σ.store) ∧
    (∀ page attempt r, SavedOutcome scope jobId σ.store page attempt r →
      SavedOutcome scope jobId σ'.store page attempt r) ∧
    (∀ row ∈ σ.store.pageArtifacts, row ∈ σ'.store.pageArtifacts) ∧
    ∀ stored, loadPageWorkflow σ.store scope jobId = some stored →
      stored.workflow.cancelled = true → loadPageWorkflow σ'.store scope jobId = some stored ∧
        σ'.store.pageArtifacts = σ.store.pageArtifacts := by
  intro σ σ'
  have hσ : Coherent scope jobId σ := run_coherent initial initial_coherent as
  refine ⟨hσ.agree.pages,?_,?_,?_,?_,?_⟩
  · intro page attempt
    constructor
    · rintro ⟨row,hrow,_,hid,rfl,rfl⟩
      cases hload : loadPageWorkflow σ.store scope jobId with
      | none => exact absurd hid (hσ.agree.absent hload row hrow)
      | some stored =>
        have hsucceeded := (hσ.agree.succeeded stored hload _).mpr ⟨row,hrow,hid,rfl⟩
        obtain ⟨hpage,_,hget⟩ := isSuccessfulTask_iff.mp hsucceeded
        exact ⟨hpage,stored,rfl,hget⟩
    · rintro ⟨hpage,stored,hload,hget⟩
      have hsucceeded : stored.workflow.isSuccessfulTask
          ⟨page,attempt,activityKey stored.workflow.jobId page attempt⟩ = true :=
        isSuccessfulTask_iff.mpr ⟨hpage,rfl,hget⟩
      obtain ⟨row,hrow,hid,htask⟩ := (hσ.agree.succeeded stored hload _).mp hsucceeded
      simp only [StoredPageArtifact.task, PageTask.mk.injEq] at htask
      exact ⟨row,hrow,hσ.agree.inScope row hrow hid,hid,htask.1.symm,htask.2.1.symm⟩
  · intro i stored hcopy hstale
    exact stale_step hσ hcopy hstale
  · intro page attempt r hsaved
    exact run_keeps (P := fun s => SavedOutcome scope jobId s page attempt r)
      (fun _ _ heffect h => savedOutcome_effect heffect h) hσ hsaved bs
  · intro row hrow
    exact run_keeps (P := fun s => row ∈ s.pageArtifacts)
      (fun _ _ heffect h => artifacts_effect heffect h) hσ hrow bs
  · intro stored hload hcancelled
    refine run_keeps (P := fun s => loadPageWorkflow s scope jobId = some stored ∧
      s.pageArtifacts = σ.store.pageArtifacts) ?_ hσ ⟨hload,rfl⟩ bs
    intro s s' heffect h
    obtain ⟨hkept,hartifacts⟩ := cancelled_effect heffect h.1 hcancelled
    exact ⟨hkept,hartifacts.trans h.2⟩

end

end DocumentIntelligence.PageAgreement
