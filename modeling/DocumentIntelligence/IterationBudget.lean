import DocumentIntelligence.DurableWorkflow

/-!
# The iteration budget

Every pass lowers the load of the checkpoint, which starts as the number of
batch windows times the maximum attempts. So the iterations suffice if that
product is within the limit, and if it is not, pages which fail with retryable
errors only drain one window after the other and use up the iterations.
-/

set_option autoImplicit false

namespace DocumentIntelligence.IterationBudget
open Identifiers hiding Error
open Schema PageWorkflowStore PageRunner PageRounds PagePasses BatchRounds DurableWorkflow
open PageCheckpoint hiding Error

/-- A pass with outcomes for the tasks which the claim hands out. -/
def Advances (b : ℕ) (w w' : PageWorkflow) : Prop :=
  ∃ xs, (xs.map (·.1)).Perm (tasksOf w b) ∧ Pass b w xs w'

/-- A pass which lost pages to the quota and left the workflow running. -/
def Limited (b : ℕ) (w w' : PageWorkflow) : Prop :=
  ∃ xs, (xs.map (·.1)).Perm (tasksOf w b) ∧ Pass b w xs w' ∧
    xs.any (limits w.maxAttempts) = true ∧ w'.status = .running

def LimitedTimes (b : ℕ) : ℕ → PageWorkflow → PageWorkflow → Prop
  | 0, w, w' => w = w'
  | k+1, w, w' => ∃ w₁, Limited b w w₁ ∧ LimitedTimes b k w₁ w'

theorem Limited.advances {b : ℕ} {w w' : PageWorkflow} (h : Limited b w w') : Advances b w w' := by
  obtain ⟨xs,hperm,hpass,_⟩ := h
  exact ⟨xs,hperm,hpass⟩

theorem advances_plan {b : ℕ} {w w' : PageWorkflow} (h : Advances b w w') : SamePlan w w' := by
  obtain ⟨_,_,hpass⟩ := h
  exact hpass.plan

theorem durableStatus_running {status : PageWorkflowStatus} :
    durableStatus status = .running ↔ status = .running := by
  cases status <;> simp [durableStatus]

section
variable {jobId : JobId} (runner : CheckpointedPageRunner) {scope : Scope}
  (processing : ℕ → Processing jobId) {stored : StoredPageWorkflow} {world : World}

/-- The outcomes of the next pass over a checkpoint. -/
def nextOutcomes (world : World) (w : PageWorkflow) : List (PageTask × PageOutcome) :=
  (processing world.attempts).outcomes (tasksOf w runner.batchSize)

theorem nextOutcomes_perm (world : World) (w : PageWorkflow) :
    ((nextOutcomes runner processing world w).map (·.1)).Perm (tasksOf w runner.batchSize) :=
  (processing world.attempts).perm (tasksOf w runner.batchSize)

/-- One attempt on a running workflow is a pass, and it fails if it was limited. -/
theorem attempt_running (h : Tracks world.store scope jobId stored)
    (hstatus : stored.workflow.status = .running) :
    ∃ w' world', Pass runner.batchSize stored.workflow
        (nextOutcomes runner processing world stored.workflow) w' ∧
      Tracks world'.store scope jobId ⟨w',stored.revision+2⟩ ∧
      world'.attempts = world.attempts+1 ∧
      attempt runner scope processing world =
        (if (nextOutcomes runner processing world stored.workflow).any
            (limits stored.workflow.maxAttempts) = true ∧ w'.status = .running then
          .error .providerRateLimited else .ok (durableStatus w'.status),world') := by
  obtain ⟨w',s',hpass,htracks,hrun⟩ := runOnce_running runner (processing world.attempts) h hstatus
  refine ⟨w',⟨s',world.attempts+1⟩,hpass,htracks,rfl,?_⟩
  unfold nextOutcomes
  simp only [attempt, hrun]
  by_cases hlimited : ((processing world.attempts).outcomes
      (tasksOf stored.workflow runner.batchSize)).any (limits stored.workflow.maxAttempts) = true ∧
      w'.status = .running
  · rw [if_pos hlimited, if_pos hlimited]
    rfl
  · rw [if_neg hlimited, if_neg hlimited]
    rfl

theorem attempt_idle (h : Tracks world.store scope jobId stored)
    (hstatus : stored.workflow.status ≠ .running) :
    attempt runner scope processing world =
      (.ok (durableStatus stored.workflow.status),⟨world.store,world.attempts+1⟩) := by
  simp only [attempt, runOnce_idle runner (processing world.attempts) h hstatus]
  rfl

/-- An activity on a running workflow makes passes. It fails only if each of its
attempts was limited. -/
theorem activity_running (retries : ℕ) (h : Tracks world.store scope jobId stored)
    (hstatus : stored.workflow.status = .running) :
    ∃ stored' world', Relation.TransGen (Advances runner.batchSize) stored.workflow
        stored'.workflow ∧ Tracks world'.store scope jobId stored' ∧
      ((executeActivity runner scope processing retries world =
          (.ok (durableStatus stored'.workflow.status),world')) ∨
        executeActivity runner scope processing retries world =
          (.error .providerRateLimited,world') ∧
          LimitedTimes runner.batchSize (retries+1) stored.workflow stored'.workflow) := by
  induction retries generalizing world stored with
  | zero =>
    obtain ⟨w',world',hpass,htracks,_,hattempt⟩ := attempt_running runner processing h hstatus
    have hperm := nextOutcomes_perm runner processing world stored.workflow
    refine ⟨⟨w',_⟩,world',Relation.TransGen.single ⟨_,hperm,hpass⟩,htracks,?_⟩
    rw [executeActivity, hattempt]
    split
    · rename_i hlimited
      exact Or.inr ⟨rfl,w',⟨_,hperm,hpass,hlimited.1,hlimited.2⟩,rfl⟩
    · exact Or.inl rfl
  | succ retries ih =>
    obtain ⟨w',world',hpass,htracks,_,hattempt⟩ := attempt_running runner processing h hstatus
    have hperm := nextOutcomes_perm runner processing world stored.workflow
    by_cases hlimited : (nextOutcomes runner processing world stored.workflow).any
        (limits stored.workflow.maxAttempts) = true ∧ w'.status = .running
    · obtain ⟨stored',world'',htrans,htracks',hcase⟩ := ih htracks hlimited.2
      have hretry : executeActivity runner scope processing (retries+1) world =
          executeActivity runner scope processing retries world' := by
        simp only [executeActivity, hattempt, if_pos hlimited,
          DurableExecutionErrorKind.isRetryable, if_true]
      refine ⟨stored',world'',Relation.TransGen.head ⟨_,hperm,hpass⟩ htrans,htracks',?_⟩
      rw [hretry]
      rcases hcase with hok | ⟨hfail,htimes⟩
      · exact Or.inl hok
      · exact Or.inr ⟨hfail,w',⟨_,hperm,hpass,hlimited.1,hlimited.2⟩,htimes⟩
    · refine ⟨⟨w',_⟩,world',Relation.TransGen.single ⟨_,hperm,hpass⟩,htracks,Or.inl ?_⟩
      simp only [executeActivity, hattempt, if_neg hlimited]

end

theorem running_left {w : PageWorkflow} (h : w.status = .running) :
    ∃ i < w.pages.length, 0 < budgets w i := by
  obtain ⟨_,p,hp,hopen⟩ := (status_running_iff w).mp h
  obtain ⟨i,hi,rfl⟩ := List.mem_iff_getElem.mp hp
  exact ⟨i,hi,budgets_pos_iff.mpr ⟨_,List.getElem?_eq_getElem hi,hopen⟩⟩

theorem left_running {w : PageWorkflow} (hc : w.cancelled = false) {i : ℕ} (h : 0 < budgets w i) :
    w.status = .running := by
  obtain ⟨p,hp,hopen⟩ := budgets_pos_iff.mp h
  exact (status_running_iff w).mpr ⟨hc,p,List.mem_of_getElem? hp,hopen⟩

/-- The load of a checkpoint under batches of `b` pages. -/
def pageLoad (b : ℕ) (w : PageWorkflow) : ℕ := load w.pages.length b (budgets w)

theorem advances_load {b : ℕ} (hb : 0 < b) {w w' : PageWorkflow} (h : Advances b w w')
    (hrun : w.status = .running) : pageLoad b w' < pageLoad b w := by
  obtain ⟨xs,_,hpass⟩ := h
  unfold pageLoad
  rw [hpass.plan.length]
  exact load_round hb (pass_round hpass) (running_left hrun)

theorem advances_load_le {b : ℕ} {w w' : PageWorkflow} (h : Advances b w w') :
    pageLoad b w' ≤ pageLoad b w := by
  obtain ⟨xs,_,hpass⟩ := h
  unfold pageLoad load
  rw [hpass.plan.length]
  exact Finset.sum_le_sum fun g _ => Finset.sup_mono_fun fun i _ => round_le (pass_round hpass) i

theorem trans_load {b : ℕ} (hb : 0 < b) {w w' : PageWorkflow}
    (h : Relation.TransGen (Advances b) w w') (hrun : w.status = .running) :
    pageLoad b w' < pageLoad b w := by
  induction h with
  | single h => exact advances_load hb h hrun
  | tail _ hlast ih => exact (advances_load_le hlast).trans_lt ih

theorem running_load {b : ℕ} (hb : 0 < b) {w : PageWorkflow} (h : w.status = .running) :
    0 < pageLoad b w := by
  obtain ⟨i,hi,hpos⟩ := running_left h
  apply Nat.pos_of_ne_zero
  intro hzero
  unfold pageLoad load at hzero
  have hwindow := Finset.sum_eq_zero_iff.mp hzero (i/b) (Finset.mem_range.mpr (window_lt hb hi))
  have hle : budgets w i ≤ (window w.pages.length b (i/b)).sup (budgets w) :=
    Finset.le_sup (mem_window.mpr ⟨hi,rfl⟩)
  omega

section Fresh
variable (jobId : JobId) {pageCount maxAttempts : ℕ}
  (hp : 1 ≤ pageCount ∧ pageCount ≤ maximumPageCount)
  (ha : 1 ≤ maxAttempts ∧ maxAttempts ≤ maximumPageAttempts)

theorem fresh_budgets {i : ℕ} (hi : i < pageCount) :
    budgets (PageWorkflow.fresh jobId pageCount maxAttempts hp ha) i = maxAttempts := by
  simp [budgets, PageWorkflow.fresh, hi, budget]

theorem fresh_load {b : ℕ} (hb : 0 < b) :
    pageLoad b (PageWorkflow.fresh jobId pageCount maxAttempts hp ha) =
      windows pageCount b*maxAttempts := by
  have hlength : (PageWorkflow.fresh jobId pageCount maxAttempts hp ha).pages.length = pageCount :=
    List.length_replicate
  rw [pageLoad, hlength, ← load_const hb maxAttempts]
  unfold load
  apply Finset.sum_congr rfl
  intro g _
  apply Finset.sup_congr rfl
  intro i hi
  exact fresh_budgets jobId hp ha (mem_window.mp hi).1

theorem fresh_running :
    (PageWorkflow.fresh jobId pageCount maxAttempts hp ha).status = .running := by
  apply left_running (i := 0) rfl
  rw [fresh_budgets jobId hp ha hp.1]
  exact ha.1

end Fresh

section Upper
variable {jobId : JobId} {runner : CheckpointedPageRunner} {scope : Scope} {limit : ℕ}

/-- A running checkpoint whose load is within what `limit` iterations leave. -/
def WithinBudget (runner : CheckpointedPageRunner) (scope : Scope) (jobId : JobId) (limit i : ℕ)
    (world : World) : Prop :=
  ∃ stored, Tracks world.store scope jobId stored ∧ stored.workflow.status = .running ∧
    pageLoad runner.batchSize stored.workflow+i ≤ limit+1

/-- A loaded workflow has iterations left, so the limit is not reached. -/
theorem budget_rule (processing : ℕ → Processing jobId)
    (finalization : Except FinalizationErrorKind Unit) (hlimit : limit ≤ maxDurableRunnerIterations) :
    IterationRule runner scope processing finalization (WithinBudget runner scope jobId limit)
      fun outcome _ => outcome ≠ .failed .iterationLimit where
  failure := by
    rintro i world kind world' ⟨stored,htracks,hrun,_⟩ _ hfail
    obtain ⟨_,_,_,_,hcase⟩ := activity_running runner processing (maximumAttempts-1) htracks hrun
    have hsame : executeActivity runner scope processing (maximumAttempts-1) world =
        (.error kind,world') := hfail
    rw [hsame] at hcase
    rcases hcase with hok | ⟨herror,_⟩
    · cases hok
    · cases herror
      exact fun h => by cases h
  progress := by
    rintro i world world' ⟨stored,htracks,hrun,hload⟩ _ hok
    obtain ⟨stored',world'',htrans,htracks',hcase⟩ :=
      activity_running runner processing (maximumAttempts-1) htracks hrun
    have hsame : executeActivity runner scope processing (maximumAttempts-1) world =
        (.ok .running,world') := hok
    rw [hsame] at hcase
    rcases hcase with heq | ⟨herror,_⟩
    · rw [Prod.mk.injEq, Except.ok.injEq] at heq
      have hlower := trans_load runner.batch_bounded.1 htrans hrun
      rw [heq.2]
      exact ⟨stored',htracks',durableStatus_running.mp heq.1.symm,by omega⟩
    · cases herror
  finish := by
    rintro i world status world' runs _ _ _ _
    unfold finish
    split
    · rename_i e _
      cases e <;> exact fun h => by cases h
    · exact fun h => by cases h
  limit := by
    rintro world ⟨stored,_,hrun,hload⟩
    have hpos := running_load runner.batch_bounded.1 hrun
    omega

end Upper

/-- Every page of every batch fails in this way, in the order of the tasks. -/
def failing (jobId : JobId) (e : PageProcessError) : Processing jobId where
  outcomes tasks := tasks.map fun task => (task,.error e)
  perm tasks := by
    rw [List.map_map]
    exact List.Perm.of_eq (List.map_id tasks)
  written := by
    intro tasks x hx _ artifact hok
    obtain ⟨task,_,rfl⟩ := List.mem_map.mp hx
    cases hok

section Lower
variable {jobId : JobId} {b maxAttempts k : ℕ}

/-- Only the budgets of the items themselves decide who is served. -/
theorem served_congr {n : ℕ} {r r' : ℕ → ℕ} (h : ∀ i < n, r i = r' i) {i : ℕ} (hi : i < n) :
    Served n b r i ↔ Served n b r' i := by
  have hahead : ahead r i = ahead r' i := by
    unfold ahead
    congr 1
    apply Finset.filter_congr
    intro j hj
    rw [h j ((Finset.mem_range.mp hj).trans hi)]
  unfold Served
  rw [h i hi, hahead]

/-- The checkpoint after `k` passes in which every page failed retryably. -/
def Drained (b k : ℕ) (w : PageWorkflow) : Prop :=
  w.cancelled = false ∧ ∀ i < w.pages.length, budgets w i = drained b w.maxAttempts k i

theorem drained_pass (hb : 0 < b) {w w' : PageWorkflow} {xs : List (PageTask × PageOutcome)}
    (h : Pass b w xs w') (hxs : ∀ x ∈ xs, x.2 = .error .retryable) (hw : Drained b k w) :
    Drained b (k+1) w' := by
  have hm : 0 < w.maxAttempts := w.attempts_bounded.1
  refine ⟨h.plan.cancelled.trans hw.1,?_⟩
  intro i hi
  rw [h.plan.length] at hi
  rw [h.plan.maxAttempts, drained_succ hm]
  have hserved : Served w.pages.length b (budgets w) i ↔ i/b = k/w.maxAttempts := by
    rw [served_congr hw.2 hi, drained_served_iff hm k i hb]
    exact and_iff_right hi
  split
  · rename_i hwindow
    obtain ⟨attempt,hi'⟩ := served_iff.mp (hserved.mpr hwindow)
    obtain ⟨outcome,hm,_,hcost⟩ := pass_served h hi'
    have hretryable : outcome = .error .retryable := hxs _ hm
    rw [hcost (by rw [hretryable]; rfl), hw.2 i hi]
  · rename_i hwindow
    have hkept : ∀ attempt, ¬HandedOut b w i attempt :=
      fun attempt ha => hwindow (hserved.mp (served_iff.mpr ⟨attempt,ha⟩))
    rw [pass_kept h hkept, hw.2 i hi]

theorem drained_running (hb : 0 < b) {w : PageWorkflow} (hw : Drained b k w)
    (hk : k < windows w.pages.length b*w.maxAttempts) : w.status = .running := by
  obtain ⟨i,hi,hpos⟩ := drained_left hb hk
  rw [← hw.2 i hi] at hpos
  exact left_running hw.1 hpos

theorem drained_fresh {pageCount : ℕ} (hp : 1 ≤ pageCount ∧ pageCount ≤ maximumPageCount)
    (ha : 1 ≤ maxAttempts ∧ maxAttempts ≤ maximumPageAttempts) :
    Drained b 0 (PageWorkflow.fresh jobId pageCount maxAttempts hp ha) := by
  refine ⟨rfl,?_⟩
  intro i hi
  rw [fresh_budgets jobId hp ha (hi.trans_eq List.length_replicate), drained_zero]
  rfl

end Lower

section Passes
variable {jobId : JobId} (runner : CheckpointedPageRunner) (scope : Scope)
  (processing : ℕ → Processing jobId)

/-- The world after so many passes, one after the other. -/
def passes : ℕ → World → World
  | 0, world => world
  | k+1, world => (attempt runner scope processing (passes k world)).2

def storedStatus (jobId : JobId) (world : World) : Option PageWorkflowStatus :=
  (loadPageWorkflow world.store scope jobId).map (·.workflow.status)

variable {runner scope processing}

theorem storedStatus_tracks {world : World} {stored : StoredPageWorkflow}
    (h : Tracks world.store scope jobId stored) :
    storedStatus scope jobId world = some stored.workflow.status := by
  rw [storedStatus, load_tracks h, Option.map_some]

/-- As long as the workflow runs, every pass lowers its load. -/
theorem passes_load (runner : CheckpointedPageRunner) (processing : ℕ → Processing jobId)
    {world : World} {stored : StoredPageWorkflow} (h : Tracks world.store scope jobId stored)
    (k : ℕ) :
    ∃ stored', Tracks (passes runner scope processing k world).store scope jobId stored' ∧
      (stored'.workflow.status = .running →
        pageLoad runner.batchSize stored'.workflow+k ≤ pageLoad runner.batchSize stored.workflow) := by
  induction k with
  | zero => exact ⟨stored,h,fun _ => le_rfl⟩
  | succ k ih =>
    obtain ⟨stored₁,htracks,hload⟩ := ih
    by_cases hrun : stored₁.workflow.status = .running
    · obtain ⟨w',world',hpass,htracks',_,hattempt⟩ := attempt_running runner processing htracks hrun
      have hlower := advances_load runner.batch_bounded.1
        ⟨_,nextOutcomes_perm runner processing _ _,hpass⟩ hrun
      have hprev := hload hrun
      refine ⟨⟨w',stored₁.revision+2⟩,?_,fun _ => ?_⟩
      · rw [passes, hattempt]
        exact htracks'
      · show pageLoad runner.batchSize w'+(k+1) ≤ _
        omega
    · refine ⟨stored₁,?_,fun h => absurd h hrun⟩
      rw [passes, attempt_idle runner processing htracks hrun]
      exact htracks

theorem executeActivity_ok {world world' : World} {status : DurableActivityStatus}
    (h : attempt runner scope processing world = (.ok status,world')) (retries : ℕ) :
    executeActivity runner scope processing retries world = (.ok status,world') := by
  cases retries with
  | zero => rw [executeActivity, h]
  | succ retries => rw [executeActivity, h]

end Passes

section Exact
variable {jobId : JobId} {runner : CheckpointedPageRunner} {scope : Scope}
  {pageCount maxAttempts : ℕ}

/-- What the iterations find while all pages fail retryably: after `k` passes the
checkpoint is drained by `k`. -/
def Draining (runner : CheckpointedPageRunner) (scope : Scope) (jobId : JobId)
    (pageCount maxAttempts k : ℕ) (world : World) : Prop :=
  ∃ stored, Tracks world.store scope jobId stored ∧ Drained runner.batchSize k stored.workflow ∧
    stored.workflow.pages.length = pageCount ∧ stored.workflow.maxAttempts = maxAttempts

theorem draining_running {k : ℕ} {world : World}
    (h : Draining runner scope jobId pageCount maxAttempts k world)
    (hk : k < windows pageCount runner.batchSize*maxAttempts) :
    storedStatus scope jobId world = some .running := by
  obtain ⟨stored,htracks,hdrained,rfl,rfl⟩ := h
  rw [storedStatus_tracks htracks, drained_running runner.batch_bounded.1 hdrained hk]

/-- A pass in which all pages fail retryably succeeds itself. -/
theorem draining_attempt {k : ℕ} {world : World}
    (h : Draining runner scope jobId pageCount maxAttempts k world)
    (hk : k < windows pageCount runner.batchSize*maxAttempts) :
    ∃ status world', attempt runner scope (fun _ => failing jobId .retryable) world =
        (.ok (durableStatus status),world') ∧ storedStatus scope jobId world' = some status ∧
      Draining runner scope jobId pageCount maxAttempts (k+1) world' := by
  obtain ⟨stored,htracks,hdrained,rfl,rfl⟩ := h
  have hb := runner.batch_bounded.1
  have hrun := drained_running hb hdrained hk
  obtain ⟨w',world',hpass,htracks',_,hattempt⟩ :=
    attempt_running runner (fun _ => failing jobId .retryable) htracks hrun
  have hretryable : ∀ x ∈ nextOutcomes runner (fun _ => failing jobId .retryable) world
      stored.workflow, x.2 = .error .retryable := by
    intro x hx
    obtain ⟨task,_,rfl⟩ := List.mem_map.mp hx
    rfl
  have hunlimited : (nextOutcomes runner (fun _ => failing jobId .retryable) world
      stored.workflow).any (limits stored.workflow.maxAttempts) = false := by
    rw [List.any_eq_false]
    intro x hx
    simp [limits, hretryable x hx]
  rw [hunlimited, if_neg (fun h => Bool.false_ne_true h.1)] at hattempt
  exact ⟨_,world',hattempt,storedStatus_tracks htracks',_,htracks',
    drained_pass hb hpass hretryable hdrained,hpass.plan.length,hpass.plan.maxAttempts⟩

theorem draining_passes {world : World}
    (h : Draining runner scope jobId pageCount maxAttempts 0 world) {k : ℕ}
    (hk : k ≤ windows pageCount runner.batchSize*maxAttempts) :
    Draining runner scope jobId pageCount maxAttempts k
      (passes runner scope (fun _ => failing jobId .retryable) k world) := by
  induction k with
  | zero => exact h
  | succ k ih =>
    obtain ⟨_,world',hattempt,_,hnext⟩ := draining_attempt (ih (by omega)) hk
    rw [passes, hattempt]
    exact hnext

/-- Pages which all fail retryably use up the iterations where the windows need
more of them. -/
theorem draining_rule (finalization : Except FinalizationErrorKind Unit)
    (hlimit : maxDurableRunnerIterations < windows pageCount runner.batchSize*maxAttempts) :
    IterationRule runner scope (fun _ => failing jobId .retryable) finalization
      (fun i world => ∃ k, i = k+1 ∧ Draining runner scope jobId pageCount maxAttempts k world)
      fun outcome _ => outcome = .failed .iterationLimit where
  failure := by
    rintro i world kind world' ⟨k,rfl,h⟩ hi hfail
    obtain ⟨_,_,hattempt,_⟩ := draining_attempt h (by omega)
    rw [runCheckpointedPages, executeActivity_ok hattempt] at hfail
    cases hfail
  progress := by
    rintro i world world' ⟨k,rfl,h⟩ hi hok
    obtain ⟨_,_,hattempt,_,hnext⟩ := draining_attempt h (by omega)
    rw [runCheckpointedPages, executeActivity_ok hattempt, Prod.mk.injEq] at hok
    exact ⟨k+1,rfl,hok.2 ▸ hnext⟩
  finish := by
    rintro i world status world' runs ⟨k,rfl,h⟩ hi hok hstatus
    obtain ⟨_,_,hattempt,hstored,hnext⟩ := draining_attempt h (by omega)
    rw [draining_running hnext (by omega), Option.some.injEq] at hstored
    rw [runCheckpointedPages, executeActivity_ok hattempt, ← hstored] at hok
    cases hok
    exact absurd rfl hstatus
  limit := fun _ _ => rfl

variable {s : Store} {revision : ℕ} {hp : 1 ≤ pageCount ∧ pageCount ≤ maximumPageCount}
  {ha : 1 ≤ maxAttempts ∧ maxAttempts ≤ maximumPageAttempts}
  (h : Tracks s scope jobId ⟨PageWorkflow.fresh jobId pageCount maxAttempts hp ha,revision⟩)
include h

theorem fresh_draining : Draining runner scope jobId pageCount maxAttempts 0 ⟨s,0⟩ :=
  ⟨_,h,drained_fresh hp ha,List.length_replicate,rfl⟩

theorem fresh_passes_suffice
    (hlimit : windows pageCount runner.batchSize*maxAttempts ≤ maxDurableRunnerIterations)
    (processing : ℕ → Processing jobId) :
    ∃ k ≤ maxDurableRunnerIterations,
      storedStatus scope jobId (passes runner scope processing k ⟨s,0⟩) ≠ some .running := by
  have hworld : Tracks (World.mk s 0).store scope jobId _ := h
  obtain ⟨stored,htracks,hload⟩ := passes_load runner processing hworld maxDurableRunnerIterations
  refine ⟨maxDurableRunnerIterations,le_rfl,?_⟩
  rw [storedStatus_tracks htracks, ne_eq, Option.some.injEq]
  intro hrun
  have hle := hload hrun
  have hpos := running_load runner.batch_bounded.1 hrun
  rw [fresh_load jobId hp ha runner.batch_bounded.1] at hle
  omega

theorem fresh_workflow_suffices
    (hlimit : windows pageCount runner.batchSize*maxAttempts ≤ maxDurableRunnerIterations)
    (processing : ℕ → Processing jobId) (finalization : Except FinalizationErrorKind Unit) :
    (documentWorkflow runner scope processing finalization .first ⟨s,0⟩).1 ≠
      .failed .iterationLimit := by
  have hstart : WithinBudget runner scope jobId maxDurableRunnerIterations
      DurableWorkflowRunInput.first.nextIteration ⟨s,0⟩ := by
    refine ⟨_,h,fresh_running jobId hp ha,?_⟩
    rw [fresh_load jobId hp ha runner.batch_bounded.1]
    exact Nat.add_le_add_right hlimit 1
  exact documentWorkflow_rule (budget_rule processing finalization le_rfl) .first
    (by decide) hstart

theorem fresh_workflow_fails (finalization : Except FinalizationErrorKind Unit)
    (hlimit : maxDurableRunnerIterations < windows pageCount runner.batchSize*maxAttempts) :
    (documentWorkflow runner scope (fun _ => failing jobId .retryable) finalization .first
      ⟨s,0⟩).1 = .failed .iterationLimit :=
  documentWorkflow_rule (draining_rule finalization hlimit) .first (by decide)
    ⟨0,rfl,fresh_draining h⟩

/-- The iterations suffice for a new checkpoint, whatever becomes of the pages,
exactly when the attempts of all its batch windows are within the limit. -/
theorem iterations_suffice_iff :
    ((∀ processing : ℕ → Processing jobId, ∃ k ≤ maxDurableRunnerIterations,
        storedStatus scope jobId (passes runner scope processing k ⟨s,0⟩) ≠ some .running) ↔
      windows pageCount runner.batchSize*maxAttempts ≤ maxDurableRunnerIterations) ∧
    ((∀ (processing : ℕ → Processing jobId) (finalization : Except FinalizationErrorKind Unit),
        (documentWorkflow runner scope processing finalization .first ⟨s,0⟩).1 ≠
          .failed .iterationLimit) ↔
      windows pageCount runner.batchSize*maxAttempts ≤ maxDurableRunnerIterations) := by
  constructor
  · constructor
    · intro hall
      by_contra hlimit
      obtain ⟨k,hk,hstatus⟩ := hall fun _ => failing jobId .retryable
      have hstart : Draining runner scope jobId pageCount maxAttempts 0 ⟨s,0⟩ := fresh_draining h
      have hdraining := draining_passes hstart (k := k) (by omega)
      exact hstatus (draining_running hdraining (by omega))
    · exact fresh_passes_suffice h
  · constructor
    · intro hall
      by_contra hlimit
      exact hall (fun _ => failing jobId .retryable) (.ok ())
        (fresh_workflow_fails h (.ok ()) (by omega))
    · exact fresh_workflow_suffices h

end Exact

section Sample

/-- A store with the first checkpoint of a job of so many pages. -/
def startedStore (pageCount maxAttempts : ℕ) (hp : 1 ≤ pageCount ∧ pageCount ≤ maximumPageCount)
    (ha : 1 ≤ maxAttempts ∧ maxAttempts ≤ maximumPageAttempts) : Store :=
  insertWorkflow empty default default (PageWorkflow.fresh default pageCount maxAttempts hp ha)

theorem startedStore_tracks (pageCount maxAttempts : ℕ)
    (hp : 1 ≤ pageCount ∧ pageCount ≤ maximumPageCount)
    (ha : 1 ≤ maxAttempts ∧ maxAttempts ≤ maximumPageAttempts) :
    Tracks (startedStore pageCount maxAttempts hp ha) default default
      ⟨PageWorkflow.fresh default pageCount maxAttempts hp ha,0⟩ where
  row := by
    simp only [startedStore, insertWorkflow, empty, List.nil_append, isPageWorkflow,
      List.find?_cons, beq_self_eq_true, Bool.and_self]
  job := rfl
  artifacts := fun _ hrow => absurd hrow List.not_mem_nil

theorem one_batch : 1 ≤ 1 ∧ 1 ≤ 64 := by decide
theorem one_claim : 1 ≠ 0 ∧ 1 ≤ 1 := by decide

def oneByOne : CheckpointedPageRunner := ⟨1,1,one_batch,one_claim⟩

/-- Two pages with two attempts, one page in a batch. -/
theorem two_pages_suffice :
    ((∀ processing : ℕ → Processing default, ∃ k ≤ maxDurableRunnerIterations,
        storedStatus default default (passes oneByOne default processing k
          ⟨startedStore 2 2 (by decide) (by decide),0⟩) ≠ some .running) ↔
      windows 2 1*2 ≤ maxDurableRunnerIterations) ∧
    ((∀ (processing : ℕ → Processing default) (finalization : Except FinalizationErrorKind Unit),
        (documentWorkflow oneByOne default processing finalization .first
          ⟨startedStore 2 2 (by decide) (by decide),0⟩).1 ≠ .failed .iterationLimit) ↔
      windows 2 1*2 ≤ maxDurableRunnerIterations) :=
  iterations_suffice_iff (startedStore_tracks 2 2 (by decide) (by decide))

/-- A thousand pages which need four attempts each, one page in a batch, do not
fit into the iterations. -/
theorem thousand_pages_fail :
    (documentWorkflow oneByOne default (fun _ => failing default .retryable) (.ok ()) .first
      ⟨startedStore 1000 4 (by decide) (by decide),0⟩).1 = .failed .iterationLimit :=
  fresh_workflow_fails (startedStore_tracks 1000 4 (by decide) (by decide)) (.ok ()) (by decide)

end Sample

end DocumentIntelligence.IterationBudget
