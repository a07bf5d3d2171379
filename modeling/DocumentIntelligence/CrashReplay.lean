import DocumentIntelligence.PageArtifacts
import DocumentIntelligence.PagePasses
import DocumentIntelligence.Transition

/-!
# Replay after a crash

An execution which crashes has saved its claim and has written the objects of
some of its pages. A later execution is handed out the same attempts: their
pages are recognized again, and their objects are still there.
-/

set_option autoImplicit false

namespace DocumentIntelligence.CrashReplay
open Identifiers hiding Error
open Schema PageWorkflowStore PageRunner PageRounds PagePasses ObjectStorage StorageLocations
open PageArtifacts
open DocumentPages (toVec DocumentPage)
open PageCheckpoint hiding Error
open Jobs (maximumResultBytes)

/-- The database and the object store. -/
structure World where
  store : Store
  objects : StoredObjects

/-- What an execution meets, and the order in which its pages are done. -/
structure Execution extends Services where
  order : List PageTask → List PageTask
  perm : ∀ tasks, (order tasks).Perm tasks

section Model
variable (formatF64 : Float → String) (sha256 : List UInt8 → Vector UInt8 32)
  (writer : GcsPageArtifactWriter) (runner : CheckpointedPageRunner) (scope : Scope)
  (jobId : JobId)

/-- Processes tasks one after another. -/
def processAll (services : Services) :
    StoredObjects → List PageTask → List (PageTask × PageOutcome) × StoredObjects
  | objects, [] => ([], objects)
  | objects, task::tasks =>
    let x := process formatF64 sha256 writer services scope jobId objects task
    let rest := processAll services x.2 tasks
    ((task,x.1)::rest.1, rest.2)

theorem processAll_tasks (services : Services) (objects : StoredObjects) (tasks : List PageTask) :
    (processAll formatF64 sha256 writer scope jobId services objects tasks).1.map (·.1) = tasks := by
  induction tasks generalizing objects with
  | nil => rfl
  | cons task tasks ih => rw [processAll, List.map_cons, ih]

/-- Every outcome is that of its task, at objects which extend the first ones. -/
theorem processAll_mem (services : Services) {objects : StoredObjects} {tasks : List PageTask}
    {x : PageTask × PageOutcome}
    (hx : x ∈ (processAll formatF64 sha256 writer scope jobId services objects tasks).1) :
    ∃ objects', (∀ path o, current objects path = some o → current objects' path = some o) ∧
      x.2 = (process formatF64 sha256 writer services scope jobId objects' x.1).1 := by
  induction tasks generalizing objects with
  | nil => exact absurd hx List.not_mem_nil
  | cons task tasks ih =>
    rw [processAll, List.mem_cons] at hx
    rcases hx with rfl | hx
    · exact ⟨objects,fun _ _ h => h,rfl⟩
    · obtain ⟨objects',hkeep,heq⟩ := ih hx
      refine ⟨objects',?_,heq⟩
      intro path o h
      exact hkeep path o (process_keeps formatF64 sha256 writer services scope jobId task h)

theorem processAll_keeps (services : Services) {objects : StoredObjects} (tasks : List PageTask)
    {path : ObjectPath} {o : StoredObject} (h : current objects path = some o) :
    current (processAll formatF64 sha256 writer scope jobId services objects tasks).2 path =
      some o := by
  induction tasks generalizing objects with
  | nil => exact h
  | cons task tasks ih =>
    exact ih (process_keeps formatF64 sha256 writer services scope jobId task h)

/-- An object which appears was written for one of the tasks. -/
theorem processAll_creates (services : Services) {objects : StoredObjects} {tasks : List PageTask}
    {path : ObjectPath} {o : StoredObject} (hnone : current objects path = none)
    (h : current (processAll formatF64 sha256 writer scope jobId services objects tasks).2 path =
      some o) :
    ∃ task ∈ tasks, path.2 = objectName scope jobId task.page task.attempt ∧ ∃ page,
      services.recognize task = .ok page ∧ page.page = task.page ∧ o.bytes = toVec formatF64 page ∧
        o.bytes ≠ [] ∧ (o.bytes.length : ℤ) ≤ maximumResultBytes := by
  induction tasks generalizing objects with
  | nil =>
    rw [processAll, hnone] at h
    cases h
  | cons task tasks ih =>
    cases hnext : current
        (process formatF64 sha256 writer services scope jobId objects task).2 path with
    | none =>
      obtain ⟨t,ht,hrest⟩ := ih hnext h
      exact ⟨t,List.mem_cons_of_mem task ht,hrest⟩
    | some x =>
      have hkept := processAll_keeps formatF64 sha256 writer scope jobId services tasks hnext
      rw [processAll, hkept, Option.some.injEq] at h
      rw [h] at hnext
      exact ⟨task,List.mem_cons_self,
        process_creates formatF64 sha256 writer services scope jobId task hnone hnext⟩

/-- The processing of an execution which begins with these objects. -/
def Execution.processing (exec : Execution) (objects : StoredObjects) : Processing jobId where
  outcomes tasks := (processAll formatF64 sha256 writer scope jobId exec.toServices objects
    (exec.order tasks)).1
  perm := by
    intro tasks
    rw [processAll_tasks]
    exact exec.perm tasks
  written := by
    intro tasks x hx hclaimed artifact hartifact
    obtain ⟨objects',_,heq⟩ := processAll_mem formatF64 sha256 writer scope jobId _ hx
    rw [heq] at hartifact
    exact process_written hclaimed hartifact

/-- The beginning of an execution: the tasks which it claimed, after the claim
was saved. -/
def claimBatch (s : Store) : Option (List PageTask × Store) :=
  match loadPageWorkflow s scope jobId with
  | none => none
  | some stored => match stored.workflow.claimReady runner.batchSize with
    | .error _ | .ok (_, []) => none
    | .ok (workflow, tasks) => match savePageWorkflow s scope jobId stored.revision workflow with
      | .ok (.saved _, s) => some (tasks, s)
      | _ => none

/-- The worker crashes when it has processed so many of the claimed pages. -/
def crash (w : World) (x : Execution × ℕ) : World :=
  match claimBatch runner scope jobId w.store with
  | none => w
  | some (tasks, s) => ⟨s,(processAll formatF64 sha256 writer scope jobId x.1.toServices w.objects
      ((x.1.order tasks).take x.2)).2⟩

/-- The execution runs to its end. -/
def complete (w : World) (exec : Execution) : World where
  store := (runOnce runner w.store scope
    (exec.processing formatF64 sha256 writer scope jobId w.objects)).2
  objects := match claimBatch runner scope jobId w.store with
    | none => w.objects
    | some (tasks, _) => (processAll formatF64 sha256 writer scope jobId exec.toServices w.objects
        (exec.order tasks)).2

end Model

def attemptTask (jobId : JobId) (page attempt : ℕ) : PageTask :=
  ⟨page,attempt,activityKey jobId page attempt⟩

/-- The attempt is recorded as succeeded, with one artifact of its page. -/
structure RecordedOnce (s : Store) (scope : Scope) (jobId : JobId) (task : PageTask) : Prop where
  succeeded : ∃ stored, loadPageWorkflow s scope jobId = some stored ∧
    stored.workflow.pages[task.page-1]? = some (.succeeded task.attempt)
  stored : ∃ row, (s.pageArtifacts.filter fun row => row.jobId == jobId &&
    row.artifact.page == task.page) = [row] ∧ StoredPageArtifact.task row.artifact = task

def PermanentlyFailed (s : Store) (scope : Scope) (jobId : JobId) (task : PageTask) : Prop :=
  ∃ stored, loadPageWorkflow s scope jobId = some stored ∧
    stored.workflow.pages[task.page-1]? = some (.permanentlyFailed task.attempt)

/-- The attempt of a page is the next one to be handed out, or it is running. -/
structure AtAttempt (b : ℕ) (s : Store) (scope : Scope) (jobId : JobId) (page attempt : ℕ)
    (stored : StoredPageWorkflow) : Prop where
  tracks : Tracks s scope jobId stored
  active : stored.workflow.cancelled = false
  page_pos : 1 ≤ page
  handed : HandedOut b stored.workflow (page-1) attempt

section Crash
variable {formatF64 : Float → String} {sha256 : List UInt8 → Vector UInt8 32}
  {writer : GcsPageArtifactWriter} {runner : CheckpointedPageRunner} {scope : Scope}
  {jobId : JobId} {s : Store} {stored : StoredPageWorkflow} {page attempt : ℕ}

theorem at_running {b : ℕ} (h : AtAttempt b s scope jobId page attempt stored) :
    stored.workflow.status = .running := by
  obtain ⟨p,hp,_,hattempt⟩ := h.handed
  rw [status_running_iff]
  exact ⟨h.active,p,List.mem_of_getElem? hp,(isOpen_iff p).mpr ⟨attempt,hattempt⟩⟩

theorem taskAt_attempt {b : ℕ} (h : AtAttempt b s scope jobId page attempt stored) :
    taskAt stored.workflow (page-1) attempt = attemptTask jobId page attempt := by
  have hpage : 1+(page-1) = page := by
    have hpos := h.page_pos
    omega
  rw [taskAt, attemptTask, h.tracks.job, hpage]

theorem isOpen_claim (p : PageProgress) : isOpen (claim p) = isOpen p := by
  cases p <;> rfl

theorem claimAttempt_claim (p : PageProgress) : (claim p).claimAttempt = p.claimAttempt := by
  cases p <;> rfl

/-- A claimed checkpoint hands out the attempts which were claimed. -/
theorem handedOut_claimed {b : ℕ} {w w₁ : PageWorkflow} {i : ℕ}
    (hpages : w₁.pages = (claimPages w.jobId b 1 w.pages).1) (h : HandedOut b w i attempt) :
    HandedOut b w₁ i attempt := by
  obtain ⟨p,hp,hlt,hattempt⟩ := h
  have hopen : openBefore w₁.pages i = openBefore w.pages i := by
    unfold openBefore
    have hget : ∀ j : ℕ, (w₁.pages.map isOpen)[j]? = (w.pages.map isOpen)[j]? := by
      intro j
      rw [List.getElem?_map, List.getElem?_map, hpages, claimPages_get]
      cases w.pages[j]? with
      | none => rfl
      | some q =>
        simp only [Option.map_some]
        split
        · rw [isOpen_claim]
        · rfl
    have hmap : w₁.pages.map isOpen = w.pages.map isOpen := List.ext_getElem? hget
    have hcount : ∀ ps : List PageProgress,
        (ps.take i).countP isOpen = ((ps.map isOpen).take i).countP id := by
      intro ps
      rw [← List.map_take, List.countP_map]
      rfl
    rw [hcount, hcount, hmap]
  refine ⟨claim p,?_,hopen ▸ hlt,(claimAttempt_claim p).trans hattempt⟩
  rw [hpages, claimPages_get, hp, Option.map_some, if_pos hlt]

/-- A claim can be repeated: the attempt stays the one to be handed out. -/
theorem claimBatch_ok (h : AtAttempt runner.batchSize s scope jobId page attempt stored) :
    ∃ stored₁ s₁, claimBatch runner scope jobId s =
        some (tasksOf stored.workflow runner.batchSize,s₁) ∧
      AtAttempt runner.batchSize s₁ scope jobId page attempt stored₁ := by
  obtain ⟨w₁,hclaim,hplan,hpages⟩ := claimReady_ok runner.batch_bounded h.active
  have hnonempty : tasksOf stored.workflow runner.batchSize ≠ [] := by
    intro hempty
    have hmem := mem_tasksOf.mpr ⟨page-1,attempt,h.handed,rfl⟩
    rw [hempty] at hmem
    exact absurd hmem List.not_mem_nil
  have hbatch : validatePageArtifactBatch jobId w₁ [] = true := by
    simp [validatePageArtifactBatch]
  obtain ⟨s₁,hsave,htracks,_⟩ := save_tracks h.tracks (hplan.jobId.trans h.tracks.job)
    (claim_keeps hplan hpages) hbatch rfl
  refine ⟨⟨w₁,stored.revision+1⟩,s₁,?_,htracks,hplan.cancelled.trans h.active,h.page_pos,
    handedOut_claimed hpages h.handed⟩
  obtain ⟨task,tasks,htasks⟩ := List.exists_cons_of_ne_nil hnonempty
  rw [htasks] at hclaim ⊢
  simp only [claimBatch, load_tracks h.tracks, hclaim, savePageWorkflow, hsave]

theorem handedOut_unique {b : ℕ} {w : PageWorkflow} {i a a' : ℕ} (h : HandedOut b w i a)
    (h' : HandedOut b w i a') : a = a' := by
  obtain ⟨p,hp,_,ha⟩ := h
  obtain ⟨q,hq,_,ha'⟩ := h'
  rw [hp, Option.some.injEq] at hq
  rw [hq, ha', Option.some.injEq] at ha
  exact ha.symm

/-- A task of the batch whose object has the name of the attempt is the attempt. -/
theorem task_of_name (h : AtAttempt runner.batchSize s scope jobId page attempt stored)
    {task : PageTask} (htask : task ∈ tasksOf stored.workflow runner.batchSize)
    (hname : objectName scope jobId page attempt = objectName scope jobId task.page task.attempt) :
    task = attemptTask jobId page attempt := by
  obtain ⟨i,a,hi,rfl⟩ := mem_tasksOf.mp htask
  have hpage : page = 1+i := objectName_page hname
  have hindex : page-1 = i := by omega
  have hattempt : attempt = a := handedOut_unique h.handed (hindex ▸ hi)
  rw [← hindex, ← hattempt, taskAt_attempt h]

variable (formatF64 sha256 writer) {objects : StoredObjects}

theorem crash_at {w : World}
    (h : AtAttempt runner.batchSize w.store scope jobId page attempt stored) (x : Execution × ℕ) :
    ∃ stored₁, AtAttempt runner.batchSize
      (crash formatF64 sha256 writer runner scope jobId w x).store scope jobId page attempt
      stored₁ := by
  obtain ⟨stored₁,s₁,hclaim,hat⟩ := claimBatch_ok h
  refine ⟨stored₁,?_⟩
  simp only [crash, hclaim]
  exact hat

theorem crash_keeps (w : World) (x : Execution × ℕ) {path : ObjectPath} {o : StoredObject}
    (h : current w.objects path = some o) :
    current (crash formatF64 sha256 writer runner scope jobId w x).objects path = some o := by
  unfold crash
  split
  · exact h
  · exact processAll_keeps formatF64 sha256 writer scope jobId _ _ h

/-- The object which a crashed execution wrote for the attempt holds the page
which it recognized. -/
theorem crash_creates (h : AtAttempt runner.batchSize s scope jobId page attempt stored)
    {x : Execution × ℕ} {bucket : String} {o : StoredObject}
    (hnone : current objects (bucket,objectName scope jobId page attempt) = none)
    (hsome : current (crash formatF64 sha256 writer runner scope jobId ⟨s,objects⟩ x).objects
      (bucket,objectName scope jobId page attempt) = some o) :
    ∃ recognized, x.1.recognize (attemptTask jobId page attempt) = .ok recognized ∧
      o.bytes = toVec formatF64 recognized ∧
      o.bytes ≠ [] ∧ (o.bytes.length : ℤ) ≤ maximumResultBytes := by
  obtain ⟨stored₁,s₁,hclaim,_⟩ := claimBatch_ok h
  simp only [crash, hclaim] at hsome
  obtain ⟨task,htask,hname,recognized,hrecognized,_,hbytes,hsize⟩ :=
    processAll_creates formatF64 sha256 writer scope jobId _ hnone hsome
  have hbatch := (x.1.perm _).mem_iff.mp (List.mem_of_mem_take htask)
  rw [task_of_name h hbatch hname] at hrecognized
  exact ⟨recognized,hrecognized,hbytes,hsize⟩

/-- Crashes leave the attempt to be handed out, and the objects where they are. -/
theorem crashes_at (crashes : List (Execution × ℕ)) {w : World}
    (h : AtAttempt runner.batchSize w.store scope jobId page attempt stored) {path : ObjectPath}
    {o : StoredObject} (hobject : current w.objects path = some o) :
    (∃ stored₁, AtAttempt runner.batchSize (Transition.run
      (crash formatF64 sha256 writer runner scope jobId) w crashes).store scope jobId page attempt
      stored₁) ∧
    current (Transition.run (crash formatF64 sha256 writer runner scope jobId) w crashes).objects
      path = some o := by
  induction crashes generalizing w stored with
  | nil => exact ⟨⟨stored,h⟩,hobject⟩
  | cons x xs ih =>
    obtain ⟨stored₁,hat⟩ := crash_at formatF64 sha256 writer h x
    exact ih hat (crash_keeps formatF64 sha256 writer w x hobject)

end Crash

section Complete
variable {runner : CheckpointedPageRunner} {scope : Scope}
  {jobId : JobId} {stored : StoredPageWorkflow} {page attempt : ℕ}

theorem artifactOf_page {x : PageTask × PageOutcome} (h : ∀ a, x.2 = .ok a → a.page = x.1.page)
    (page : ℕ) : (artifactOf x).filter (·.page == page) =
      if x.1.page = page then artifactOf x else [] := by
  cases hx : x.2 with
  | error e => simp [artifactOf, hx]
  | ok a =>
    rw [← h a hx]
    by_cases hpage : a.page = page <;> simp [artifactOf, hx, hpage]

/-- The artifacts of a batch for one of its pages. -/
theorem artifacts_of_page {xs : List (PageTask × PageOutcome)} (hnodup : (xs.map (·.1.page)).Nodup)
    (hpages : ∀ x ∈ xs, ∀ a, x.2 = .ok a → a.page = x.1.page) {x : PageTask × PageOutcome}
    (hx : x ∈ xs) : (xs.flatMap artifactOf).filter (·.page == x.1.page) = artifactOf x := by
  have hnone : ∀ ys : List (PageTask × PageOutcome), (∀ y ∈ ys, y ∈ xs) →
      x.1.page ∉ ys.map (·.1.page) → (ys.flatMap artifactOf).filter (·.page == x.1.page) = [] := by
    intro ys hsub habsent
    induction ys with
    | nil => rfl
    | cons y ys ih =>
      rw [List.map_cons, List.mem_cons, not_or] at habsent
      rw [List.flatMap_cons, List.filter_append,
        artifactOf_page (hpages y (hsub y List.mem_cons_self)), if_neg fun h => habsent.1 h.symm,
        ih (fun z hz => hsub z (List.mem_cons_of_mem y hz)) habsent.2, List.nil_append]
  obtain ⟨before,after,rfl⟩ := List.append_of_mem hx
  rw [List.map_append, List.map_cons, List.nodup_append] at hnodup
  obtain ⟨_,hafter,hdisjoint⟩ := hnodup
  rw [List.nodup_cons] at hafter
  have hbefore : x.1.page ∉ before.map (·.1.page) :=
    fun hm => hdisjoint _ hm _ List.mem_cons_self rfl
  rw [List.flatMap_append, List.flatMap_cons, List.filter_append, List.filter_append,
    artifactOf_page (hpages x hx), if_pos rfl, hnone before (fun y hy => by simp [hy]) hbefore,
    hnone after (fun y hy => by simp [hy]) hafter.1, List.nil_append, List.append_nil]

/-- What an execution which runs to its end makes of the attempt. -/
theorem complete_outcome (formatF64 : Float → String) (sha256 : List UInt8 → Vector UInt8 32)
    (writer : GcsPageArtifactWriter) {w : World}
    (h : AtAttempt runner.batchSize w.store scope jobId page attempt stored) (exec : Execution)
    {path : ObjectPath} {object : StoredObject} (hobject : current w.objects path = some object) :
    ∃ objects' stored' outcome, current objects' path = some object ∧
      outcome = (process formatF64 sha256 writer exec.toServices scope jobId objects'
        (attemptTask jobId page attempt)).1 ∧
      loadPageWorkflow (complete formatF64 sha256 writer runner scope jobId w exec).store scope
        jobId = some stored' ∧
      stored'.workflow.pages[page-1]? =
        some ((recordOf outcome).progress stored.workflow.maxAttempts attempt) ∧
      ((complete formatF64 sha256 writer runner scope jobId w exec).store.pageArtifacts.filter
          fun row => row.jobId == jobId && row.artifact.page == page) =
        (artifactOf (attemptTask jobId page attempt,outcome)).map (⟨jobId,scope,·⟩) := by
  obtain ⟨w',s',hpass,htracks,hrows,hrun⟩ := runOnce_saves runner
    (exec.processing formatF64 sha256 writer scope jobId w.objects) h.tracks (at_running h)
  have hcomplete : (complete formatF64 sha256 writer runner scope jobId w exec).store = s' := by
    rw [complete, hrun]
  have hperm := (exec.processing formatF64 sha256 writer scope jobId w.objects).perm
    (tasksOf stored.workflow runner.batchSize)
  have hwritten := (exec.processing formatF64 sha256 writer scope jobId w.objects).written
    (tasksOf stored.workflow runner.batchSize)
  obtain ⟨outcome,hm,hpage⟩ := hpass.served (page-1) attempt h.handed
  rw [taskAt_attempt h] at hm
  obtain ⟨objects',hkeep,hprocess⟩ := processAll_mem formatF64 sha256 writer scope jobId _ hm
  have hpages : ∀ x ∈ (exec.processing formatF64 sha256 writer scope jobId w.objects).outcomes
      (tasksOf stored.workflow runner.batchSize), ∀ a, x.2 = .ok a → a.page = x.1.page := by
    intro x hx a ha
    have hclaimed := claimedTask (hperm.mem_iff.mp (List.mem_map_of_mem hx))
    rw [h.tracks.job] at hclaimed
    rw [← (hwritten x hx hclaimed a ha).task_eq]
    rfl
  have hnew := artifacts_of_page (outcomes_nodup hperm) hpages hm
  have hold : (w.store.pageArtifacts.filter
      fun row => row.jobId == jobId && row.artifact.page == page) = [] := by
    rw [List.filter_eq_nil_iff]
    intro row hrow hkey
    rw [Bool.and_eq_true, beq_iff_eq, beq_iff_eq] at hkey
    have hsucceeded := (isSuccessfulTask_iff.mp (h.tracks.artifacts row hrow hkey.1)).2.2
    obtain ⟨p,hp,_,hattempt⟩ := h.handed
    rw [StoredPageArtifact.task, hkey.2, hp, Option.some.injEq] at hsucceeded
    rw [hsucceeded] at hattempt
    cases hattempt
  refine ⟨objects',⟨w',stored.revision+2⟩,outcome,hkeep path object hobject,hprocess,?_,hpage,?_⟩
  · rw [hcomplete]
    exact load_tracks htracks
  · rw [hcomplete, hrows, List.filter_append, hold, List.nil_append, List.filter_map]
    have hsame : (fun row : PageArtifactRow => row.jobId == jobId && row.artifact.page == page) ∘
        (⟨jobId,scope,·⟩) = fun a : StoredPageArtifact => a.page == page := by
      ext a
      simp
    rw [hsame]
    exact congrArg (List.map _) hnew

/-- The attempt whose object a crashed execution wrote is recorded as succeeded
if and only if the page which is recognized again has the text of the object;
with any other page it is recorded as permanently failed. -/
theorem replay_recorded_iff (formatF64 : Float → String) (sha256 : List UInt8 → Vector UInt8 32)
    {writer : GcsPageArtifactWriter} {runner : CheckpointedPageRunner} {scope : Scope}
    {jobId : JobId} {bucket : String} (hbucket : writer.bucket scope.productId = some bucket)
    {w : World} {stored : StoredPageWorkflow} {page attempt : ℕ}
    (hat : AtAttempt runner.batchSize w.store scope jobId page attempt stored)
    (first : Execution × ℕ) {object : StoredObject} {generation : String}
    (habsent : current w.objects (bucket,objectName scope jobId page attempt) = none)
    (hwritten : current (crash formatF64 sha256 writer runner scope jobId w first).objects
      (bucket,objectName scope jobId page attempt) = some object)
    (hversion : object.version.filter validObjectVersion = some generation)
    (others : List (Execution × ℕ)) (last : Execution)
    (hanswered : last.reply (attemptTask jobId page attempt) = .answered) :
    ∃ page₁, first.1.recognize (attemptTask jobId page attempt) = .ok page₁ ∧
      object.bytes = toVec formatF64 page₁ ∧
      let final := (complete formatF64 sha256 writer runner scope jobId (Transition.run
        (crash formatF64 sha256 writer runner scope jobId) w (first::others)) last).store
      (RecordedOnce final scope jobId (attemptTask jobId page attempt) ↔
        Reproduces formatF64 last.toServices (attemptTask jobId page attempt) object) ∧
      ∀ page₂, last.recognize (attemptTask jobId page attempt) = .ok page₂ →
        (PermanentlyFailed final scope jobId (attemptTask jobId page attempt) ↔
          ¬Reproduces formatF64 last.toServices (attemptTask jobId page attempt) object) := by
  obtain ⟨page₁,hpage₁,hbytes,hsize⟩ := crash_creates formatF64 sha256 writer hat habsent hwritten
  obtain ⟨stored₁,hat₁⟩ := crash_at formatF64 sha256 writer hat first
  obtain ⟨⟨stored₂,hat₂⟩,hobject⟩ := crashes_at formatF64 sha256 writer others hat₁ hwritten
  obtain ⟨objects',stored',outcome,hcurrent,houtcome,hload,hrecorded,hrows⟩ :=
    complete_outcome formatF64 sha256 writer hat₂ last hobject
  have hkey : (attemptTask jobId page attempt).activityKey = activityKey jobId
      (attemptTask jobId page attempt).page (attemptTask jobId page attempt).attempt := rfl
  obtain ⟨hsame,hdiffers⟩ :=
    process_existing formatF64 sha256 hkey hbucket hcurrent hsize hanswered hversion
  rw [← houtcome] at hsame hdiffers
  refine ⟨page₁,hpage₁,hbytes,?_⟩
  by_cases hreproduces : Reproduces formatF64 last.toServices (attemptTask jobId page attempt) object
  · obtain ⟨artifact,hok,htask⟩ := hsame hreproduces
    rw [hok] at hrecorded hrows
    refine ⟨iff_of_true ⟨⟨stored',hload,hrecorded⟩,⟨_,hrows,htask⟩⟩ hreproduces,?_⟩
    intro page₂ _
    refine iff_of_false ?_ (not_not.mpr hreproduces)
    rintro ⟨stored'',hload'',hfailed⟩
    have hsame := Option.some.inj (hload.symm.trans hload'')
    rw [← hsame] at hfailed
    cases hrecorded.symm.trans hfailed
  · obtain ⟨e,herror,hpermanent⟩ := hdiffers hreproduces
    rw [herror] at hrecorded hrows
    constructor
    · refine iff_of_false ?_ hreproduces
      rintro ⟨_,row,hrow,_⟩
      cases hrows.symm.trans hrow
    · intro page₂ hpage₂
      rw [hpermanent page₂ hpage₂] at hrecorded
      exact iff_of_true ⟨stored',hload,hrecorded⟩ hreproduces

end Complete

/-! ### A page of another width -/

section Sample

def emptyPage (width : ℕ) (h : 1 ≤ width) : DocumentPage :=
  ⟨1,width,100,[],by simp [h, DocumentPages.acyclic]⟩

def recognizing (page : DocumentPage) : Execution where
  recognize _ := .ok page
  reply _ := .answered
  version _ := some "1"
  order := id
  perm _ := List.Perm.refl _

/-- The checkpoint of a new job of one page. -/
def newJob : Store :=
  { empty with pageWorkflows := [⟨default,default,0,
      ⟨default,3,[.pending 0],false,by decide,by decide,by decide⟩⟩] }

def oneRoute : GcsPageArtifactWriter := ⟨[(default,"pages")],by decide +kernel,by decide⟩

def oneByOne : CheckpointedPageRunner := ⟨1,1,by decide,by decide⟩

/-- SHA-256 on the texts of the two pages below. -/
def digests (bytes : List UInt8) : Vector UInt8 32 :=
  if bytes = toVec (fun _ => "0.0") (emptyPage 100 (by decide)) then
    #v[221,228,43,98,114,175,8,17,35,242,134,109,175,232,113,100,100,62,89,34,196,219,164,92,231,
      105,102,222,232,39,249,94]
  else #v[7,249,211,75,150,142,5,22,237,47,70,44,39,45,211,199,20,96,221,65,192,28,144,206,161,196,
      170,69,64,117,203,225]

/-- The worker crashes after the object of its only page was written. -/
def crashed : World :=
  crash (fun _ => "0.0") digests oneRoute oneByOne default default ⟨newJob,[]⟩
    (recognizing (emptyPage 100 (by decide)),1)

/-- Recognized again, the page is a hundred and one wide. -/
theorem other_width_fails :
    (loadPageWorkflow crashed.store default default).map (·.workflow.pages) = some [.running 1] ∧
    (current crashed.objects ("pages",objectName default default 1 1)).map (·.bytes) =
      some (toVec (fun _ => "0.0") (emptyPage 100 (by decide))) ∧
    let final := (complete (fun _ => "0.0") digests oneRoute oneByOne default default crashed
      (recognizing (emptyPage 101 (by decide)))).store
    PermanentlyFailed final default default (attemptTask default 1 1) ∧
      ¬RecordedOnce final default default (attemptTask default 1 1) := by
  have hfinal : (loadPageWorkflow (complete (fun _ => "0.0") digests oneRoute oneByOne default
      default crashed (recognizing (emptyPage 101 (by decide)))).store default default).map
        (·.workflow.pages) = some [.permanentlyFailed 1] := by decide +kernel
  obtain ⟨stored,hload,hpages⟩ := Option.map_eq_some_iff.mp hfinal
  have hfailed : stored.workflow.pages[0]? = some (.permanentlyFailed 1) := by rw [hpages]; rfl
  refine ⟨by decide +kernel,by decide +kernel,⟨stored,hload,hfailed⟩,?_⟩
  rintro ⟨⟨stored',hload',hsucceeded⟩,_⟩
  have hsame := Option.some.inj (hload.symm.trans hload')
  rw [← hsame] at hsucceeded
  cases hfailed.symm.trans hsucceeded

/-- Recognized again, the page is the same. -/
theorem same_width_recorded :
    RecordedOnce (complete (fun _ => "0.0") digests oneRoute oneByOne default default crashed
      (recognizing (emptyPage 100 (by decide)))).store default default (attemptTask default 1 1) := by
  have hat : AtAttempt oneByOne.batchSize (⟨newJob,[]⟩ : World).store default default 1 1
      ⟨⟨default,3,[.pending 0],false,by decide,by decide,by decide⟩,0⟩ :=
    ⟨⟨rfl,rfl,fun _ h => absurd h List.not_mem_nil⟩,rfl,by decide,.pending 0,rfl,by decide,rfl⟩
  have hbucket : oneRoute.bucket (default : Scope).productId = some "pages" := by decide
  have hwritten : current crashed.objects ("pages",objectName default default 1 1) =
      some ⟨("pages",objectName default default 1 1),some "1",
        toVec (fun _ => "0.0") (emptyPage 100 (by decide))⟩ := by decide +kernel
  have hversion : (some "1").filter validObjectVersion = some "1" := by decide
  obtain ⟨_,_,_,hiff,_⟩ := replay_recorded_iff (fun _ => "0.0") digests hbucket hat
    (recognizing (emptyPage 100 (by decide)),1) rfl hwritten hversion []
    (recognizing (emptyPage 100 (by decide))) rfl
  exact hiff.mpr ⟨emptyPage 100 (by decide),rfl,rfl,rfl⟩

end Sample

end DocumentIntelligence.CrashReplay
