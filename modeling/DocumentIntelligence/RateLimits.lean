import DocumentIntelligence.IterationBudget

/-!
# Quota failures and the attempts of an activity

A pass which lost pages to the provider's quota fails its activity, although it
recorded the failures. The attempts of the page and those of the activity are
counted apart, so pages with attempts left can use up those of the activity and
end the workflow while its checkpoint runs. Here is exactly when they can.
-/

set_option autoImplicit false

namespace DocumentIntelligence.RateLimits
open Identifiers hiding Error
open Schema PageWorkflowStore PageRunner PageRounds PagePasses BatchRounds DurableWorkflow
open IterationBudget
open PageCheckpoint hiding Error

/-- A page has at most as many limited passes as attempts before its last. The
three attempts of an activity can be limited unless there are no such attempts,
or all limited passes are about one page, or about pages which started together. -/
def Tolerates (maxAttempts batchSize pageCount : ℕ) : Prop :=
  maxAttempts ≤ maximumAttempts ∧
    (maxAttempts = 1 ∨ batchSize = 1 ∨ pageCount+maxAttempts ≤ batchSize+maximumAttempts)

instance (maxAttempts batchSize pageCount : ℕ) :
    Decidable (Tolerates maxAttempts batchSize pageCount) :=
  inferInstanceAs (Decidable (_ ∧ _))

/-- The attempt under which a claim would hand the page out. -/
def nextAttempt (w : PageWorkflow) (i : ℕ) : Option ℕ :=
  w.pages[i]?.bind PageProgress.claimAttempt

section Attempts
variable {b : ℕ} {w w' : PageWorkflow} {xs : List (PageTask × PageOutcome)} {i attempt : ℕ}

theorem handedOut_iff :
    HandedOut b w i attempt ↔ nextAttempt w i = some attempt ∧ openBefore w.pages i < b := by
  unfold HandedOut nextAttempt
  rw [Option.bind_eq_some_iff]
  constructor
  · rintro ⟨p,hp,hlt,ha⟩
    exact ⟨⟨p,hp,ha⟩,hlt⟩
  · rintro ⟨⟨p,hp,ha⟩,hlt⟩
    exact ⟨p,hp,hlt,ha⟩

theorem nextAttempt_bounded (h : nextAttempt w i = some attempt) :
    1 ≤ attempt ∧ attempt ≤ w.maxAttempts ∧ i < w.pages.length := by
  obtain ⟨p,hp,ha⟩ := Option.bind_eq_some_iff.mp h
  have hvalid := PageProgress.claimAttempt_valid (valid_get hp) ha
  exact ⟨hvalid.1,hvalid.2,(List.getElem?_eq_some_iff.mp hp).1⟩

theorem openBefore_le (ps : List PageProgress) (i : ℕ) : openBefore ps i ≤ i :=
  List.countP_le_length.trans (List.length_take_le _ _)

theorem openBefore_succ {ps : List PageProgress} {p : PageProgress} (h : ps[i]? = some p) :
    openBefore ps (i+1) = openBefore ps i+if isOpen p then 1 else 0 := by
  unfold openBefore
  rw [List.take_add_one, h, List.countP_append]
  simp

/-- An open page is before every later one. -/
theorem openBefore_lt {ps : List PageProgress} {p : PageProgress} {j : ℕ} (h : ps[i]? = some p)
    (hopen : isOpen p = true) (hij : i < j) : openBefore ps i < openBefore ps j := by
  have hstep : openBefore ps (i+1) = openBefore ps i+1 := by rw [openBefore_succ h, if_pos hopen]
  have hmono : openBefore ps (i+1) ≤ openBefore ps j :=
    List.Sublist.countP_le (List.take_sublist_take_left hij)
  omega

/-- What a pass leaves of the attempts of a page. -/
theorem pass_next (h : Pass b w xs w') (hnext : nextAttempt w' i = some attempt) :
    (∃ before, HandedOut b w i before ∧ attempt = before+1 ∧ before < w.maxAttempts) ∨
      (∀ before, ¬HandedOut b w i before) ∧ nextAttempt w i = some attempt := by
  by_cases hout : ∃ before, HandedOut b w i before
  · left
    obtain ⟨before,hi⟩ := hout
    obtain ⟨outcome,_,hpage⟩ := h.served i before hi
    have hbounds := nextAttempt_bounded (handedOut_iff.mp hi).1
    have hmax := w.attempts_bounded.2
    refine ⟨before,hi,?_⟩
    rw [nextAttempt, hpage, Option.bind_some] at hnext
    cases hr : recordOf outcome with
    | success =>
      rw [hr] at hnext
      cases hnext
    | permanentFailure =>
      rw [hr] at hnext
      cases hnext
    | retryableFailure =>
      rw [hr, Record.progress] at hnext
      by_cases hlast : before = w.maxAttempts
      · rw [if_pos hlast] at hnext
        cases hnext
      · rw [if_neg hlast, PageProgress.claimAttempt, saturatingSucc, Option.some.injEq] at hnext
        unfold maximumPageAttempts at hmax
        omega
  · right
    push Not at hout
    rw [nextAttempt, h.kept i hout] at hnext
    exact ⟨hout,hnext⟩

/-- A limited pass has a page with attempts left, which stays open. -/
theorem limited_next (h : Limited b w w') : ∃ i attempt, HandedOut b w i attempt ∧
    attempt < w.maxAttempts ∧ w'.pages[i]? = some (.pending attempt) := by
  obtain ⟨xs,hperm,hpass,hlimited,_⟩ := h
  obtain ⟨x,hx,hl⟩ := List.any_eq_true.mp hlimited
  obtain ⟨i,attempt,hi,htask⟩ := outcomes_task hperm x hx
  have houtcome : x.2 = .error .rateLimited ∧ attempt < w.maxAttempts := by
    have hsame : x.1.attempt = attempt := by rw [htask]; rfl
    rw [← hsame]
    unfold limits at hl
    split at hl
    · rename_i heq
      exact ⟨heq,of_decide_eq_true hl⟩
    · cases hl
  obtain ⟨outcome,hm,hpage⟩ := hpass.served i attempt hi
  have hpages : x.1.page = (taskAt w i attempt,outcome).1.page := by rw [htask]
  have hx' : x = (taskAt w i attempt,outcome) :=
    List.inj_on_of_nodup_map (outcomes_nodup hperm) hx hm hpages
  have hlost : outcome = .error .rateLimited := by
    rw [hx'] at houtcome
    exact houtcome.1
  refine ⟨i,attempt,hi,houtcome.2,?_⟩
  rw [hpage, hlost, recordOf, Record.progress, if_neg (Nat.ne_of_lt houtcome.2)]

end Attempts

/-! ### The attempts of an activity are not all limited -/

section Sufficient
variable {b : ℕ} {w w₁ w₂ w₃ : PageWorkflow}

theorem limited_plan (h : Limited b w w₁) :
    w₁.maxAttempts = w.maxAttempts ∧ w₁.pages.length = w.pages.length :=
  ⟨(advances_plan h.advances).maxAttempts,(advances_plan h.advances).length⟩

theorem limited_bounded (h : Limited b w w₁) : 1 < w.maxAttempts := by
  obtain ⟨i,attempt,hi,hlt,_⟩ := limited_next h
  exact (nextAttempt_bounded (handedOut_iff.mp hi).1).1.trans_lt hlt

/-- A batch of one page is about the page of the batch before, if that stayed
open. -/
theorem single_next (h : Limited 1 w w₁) {i attempt : ℕ} (hi : HandedOut 1 w i attempt)
    (hopen : w₁.pages[i]? = some (.pending attempt)) (hlt : attempt < w.maxAttempts)
    {j next : ℕ} (hj : HandedOut 1 w₁ j next) : j = i ∧ next = attempt+1 := by
  have hsucc : nextAttempt w₁ i = some (attempt+1) := by
    have hmax := w.attempts_bounded.2
    unfold maximumPageAttempts at hmax
    rw [nextAttempt, hopen, Option.bind_some, PageProgress.claimAttempt, saturatingSucc]
    congr 1
    omega
  obtain ⟨hnext,hfirst⟩ := handedOut_iff.mp hj
  have hsame : j = i := by
    by_contra hne
    rcases Nat.lt_or_gt_of_ne hne with hji | hij
    · -- an open page before `i` would have been handed out instead of it
      obtain ⟨xs,_,hpass,_⟩ := h
      obtain ⟨hcurrent,hbefore⟩ := handedOut_iff.mp hi
      have hwas : ∃ a, nextAttempt w j = some a := by
        rcases pass_next hpass hnext with ⟨before,hout,_⟩ | ⟨_,hkept⟩
        · exact ⟨before,(handedOut_iff.mp hout).1⟩
        · exact ⟨next,hkept⟩
      obtain ⟨a,ha⟩ := hwas
      obtain ⟨p,hp,hclaim⟩ := Option.bind_eq_some_iff.mp ha
      have hless := openBefore_lt hp ((isOpen_iff p).mpr ⟨a,hclaim⟩) hji
      omega
    · have hless := openBefore_lt hopen rfl hij
      omega
  rw [hsame, hsucc, Option.some.injEq] at hnext
  exact ⟨hsame,hnext.symm⟩

theorem single_not_limited (hmax : w.maxAttempts ≤ 3) : ¬LimitedTimes 1 3 w w₃ := by
  rintro ⟨w₁,h₁,w₂,h₂,_,h₃,_⟩
  obtain ⟨i,a,hi,hlt,hopen⟩ := limited_next h₁
  obtain ⟨j,a',hj,hlt',hopen'⟩ := limited_next h₂
  obtain ⟨k,a'',hk,hlt'',_⟩ := limited_next h₃
  obtain ⟨_,hsecond⟩ := single_next h₁ hi hopen hlt hj
  obtain ⟨_,hthird⟩ := single_next h₂ hj hopen' hlt' hk
  have hpos := (nextAttempt_bounded (handedOut_iff.mp hi).1).1
  have hplan := (limited_plan h₁).1
  have hplan' := (limited_plan h₂).1
  omega

/-- Where a batch holds all pages, they make their attempts together. -/
theorem together_next {k : ℕ} (hb : w.pages.length ≤ b)
    (hw : ∀ i attempt, nextAttempt w i = some attempt → k ≤ attempt) (h : Limited b w w₁) :
    ∀ i attempt, nextAttempt w₁ i = some attempt → k+1 ≤ attempt := by
  obtain ⟨xs,_,hpass,_⟩ := h
  intro i attempt hnext
  rcases pass_next hpass hnext with ⟨before,hi,heq,_⟩ | ⟨hnone,hkept⟩
  · have hle := hw i before (handedOut_iff.mp hi).1
    omega
  · have hlength := (nextAttempt_bounded hkept).2.2
    have hless := openBefore_le w.pages i
    exact absurd (handedOut_iff.mpr ⟨hkept,by omega⟩) (hnone attempt)

theorem together_not_limited (hb : w.pages.length ≤ b) (hmax : w.maxAttempts ≤ 3) :
    ¬LimitedTimes b 3 w w₃ := by
  rintro ⟨w₁,h₁,w₂,h₂,_,h₃,_⟩
  have hplan := limited_plan h₁
  have hplan' := limited_plan h₂
  have hfirst := together_next hb (fun i attempt h => (nextAttempt_bounded h).1) h₁
  have hsecond := together_next (hplan.2.trans_le hb) hfirst h₂
  obtain ⟨i,attempt,hi,hlt,_⟩ := limited_next h₃
  have hle := hsecond i attempt (handedOut_iff.mp hi).1
  omega

/-- A page which still makes its first attempt was beyond the batch. -/
theorem first_attempt_kept (h : Limited b w w₁) {i : ℕ} (hnext : nextAttempt w₁ i = some 1) :
    b ≤ i ∧ nextAttempt w i = some 1 ∧ ∀ attempt, ¬HandedOut b w i attempt := by
  obtain ⟨xs,_,hpass,_⟩ := h
  rcases pass_next hpass hnext with ⟨before,hi,heq,_⟩ | ⟨hnone,hkept⟩
  · have hpos := (nextAttempt_bounded (handedOut_iff.mp hi).1).1
    omega
  · have hbeyond : ¬openBefore w.pages i < b := fun hlt => hnone 1 (handedOut_iff.mpr ⟨hkept,hlt⟩)
    have hless := openBefore_le w.pages i
    exact ⟨by omega,hkept,hnone⟩

/-- With two attempts a limited pass needs a first attempt, and beyond the first
batch there is one page only. -/
theorem twice_not_limited (hb : w.pages.length ≤ b+1) (hmax : w.maxAttempts = 2) :
    ¬LimitedTimes b 3 w w₃ := by
  rintro ⟨w₁,h₁,w₂,h₂,_,h₃,_⟩
  have hplan := limited_plan h₁
  have hplan' := limited_plan h₂
  obtain ⟨i,a,hi,hlt,_⟩ := limited_next h₂
  obtain ⟨j,a',hj,hlt',_⟩ := limited_next h₃
  have hpos := nextAttempt_bounded (handedOut_iff.mp hi).1
  have hpos' := nextAttempt_bounded (handedOut_iff.mp hj).1
  have ha : a = 1 := by omega
  have ha' : a' = 1 := by omega
  rw [ha] at hi
  rw [ha'] at hj
  obtain ⟨hbeyond,_,_⟩ := first_attempt_kept h₁ (handedOut_iff.mp hi).1
  obtain ⟨hbeyond',_,hnone⟩ := first_attempt_kept h₂ (handedOut_iff.mp hj).1
  have hsame : j = i := by omega
  exact hnone 1 (hsame ▸ hi)

theorem tolerated (h : Tolerates w.maxAttempts b w.pages.length) :
    ¬LimitedTimes b maximumAttempts w w₃ := by
  obtain ⟨hmax,hcase⟩ := h
  have hattempts : maximumAttempts = 3 := rfl
  rw [hattempts] at hmax hcase ⊢
  intro htimes
  have hmore : 1 < w.maxAttempts := by
    obtain ⟨w₁,h₁,_⟩ := htimes
    exact limited_bounded h₁
  by_cases hsingle : b = 1
  · subst hsingle
    exact single_not_limited hmax htimes
  · by_cases htwo : w.maxAttempts = 2
    · exact twice_not_limited (by omega) htwo htimes
    · exact together_not_limited (by omega) hmax htimes

end Sufficient

section Workflow
variable {jobId : JobId} {runner : CheckpointedPageRunner} {scope : Scope}
  {pageCount maxAttempts : ℕ}

theorem trans_plan {b : ℕ} {w w' : PageWorkflow} (h : Relation.TransGen (Advances b) w w') :
    SamePlan w w' := by
  induction h with
  | single h => exact advances_plan h
  | tail _ hlast ih => exact ih.trans (advances_plan hlast)

/-- With at most three attempts the iterations suffice as well. -/
theorem tolerated_load {b : ℕ} (hb : 1 ≤ b) (hp : 1 ≤ pageCount ∧ pageCount ≤ maximumPageCount)
    (hmax : maxAttempts ≤ maximumAttempts) :
    windows pageCount b*maxAttempts ≤ maxDurableRunnerIterations := by
  have hproduct : pageCount+b ≤ b*pageCount+1 := by nlinarith [hp.1]
  have hwindows : windows pageCount b ≤ pageCount := Nat.div_le_of_le_mul (by omega)
  calc windows pageCount b*maxAttempts ≤ 1000*3 := Nat.mul_le_mul (hwindows.trans hp.2) hmax
    _ = maxDurableRunnerIterations := rfl

/-- A running checkpoint whose activities cannot fail, with iterations left. -/
def Tolerating (runner : CheckpointedPageRunner) (scope : Scope) (jobId : JobId) (i : ℕ)
    (world : World) : Prop :=
  ∃ stored, Tracks world.store scope jobId stored ∧ stored.workflow.status = .running ∧
    Tolerates stored.workflow.maxAttempts runner.batchSize stored.workflow.pages.length ∧
    pageLoad runner.batchSize stored.workflow+i ≤ maxDurableRunnerIterations+1

/-- The stored checkpoint is completed, partial or cancelled. -/
def PagesEnded (scope : Scope) (jobId : JobId) (world : World) : Prop :=
  ∃ status, storedStatus scope jobId world = some status ∧ status ≠ .running

theorem tolerating_rule (processing : ℕ → Processing jobId)
    (finalization : Except FinalizationErrorKind Unit) :
    IterationRule runner scope processing finalization (Tolerating runner scope jobId)
      (fun _ => PagesEnded scope jobId) where
  failure := by
    rintro i world kind world' ⟨stored,htracks,hrun,htolerates,_⟩ _ hfail
    obtain ⟨stored',_,_,_,hcase⟩ :=
      activity_running runner processing (maximumAttempts-1) htracks hrun
    have hsame : executeActivity runner scope processing (maximumAttempts-1) world =
        (.error kind,world') := hfail
    rw [hsame] at hcase
    rcases hcase with hok | ⟨_,htimes⟩
    · cases hok
    · exact absurd htimes (tolerated htolerates)
  progress := by
    rintro i world world' ⟨stored,htracks,hrun,htolerates,hload⟩ _ hok
    obtain ⟨stored',world'',htrans,htracks',hcase⟩ :=
      activity_running runner processing (maximumAttempts-1) htracks hrun
    have hsame : executeActivity runner scope processing (maximumAttempts-1) world =
        (.ok .running,world') := hok
    rw [hsame] at hcase
    rcases hcase with heq | ⟨herror,_⟩
    · rw [Prod.mk.injEq, Except.ok.injEq] at heq
      have hlower := trans_load runner.batch_bounded.1 htrans hrun
      have hplan := trans_plan htrans
      rw [heq.2]
      refine ⟨stored',htracks',durableStatus_running.mp heq.1.symm,?_,by omega⟩
      rw [hplan.maxAttempts, hplan.length]
      exact htolerates
    · cases herror
  finish := by
    rintro i world status world' runs ⟨stored,htracks,hrun,_⟩ _ hok hstatus
    obtain ⟨stored',world'',_,htracks',hcase⟩ :=
      activity_running runner processing (maximumAttempts-1) htracks hrun
    have hsame : executeActivity runner scope processing (maximumAttempts-1) world =
        (.ok status,world') := hok
    rw [hsame] at hcase
    rcases hcase with heq | ⟨herror,_⟩
    · rw [Prod.mk.injEq, Except.ok.injEq] at heq
      rw [heq.2]
      refine ⟨_,storedStatus_tracks htracks',?_⟩
      intro hrunning
      exact hstatus (heq.1.trans (durableStatus_running.mpr hrunning))
    · cases herror
  limit := by
    rintro world ⟨stored,_,hrun,_,hload⟩
    have hpos := running_load runner.batch_bounded.1 hrun
    omega

end Workflow

/-! ### Where they are all limited -/

/-- Every page of every batch fails in the way given for its index. -/
def blaming (jobId : JobId) (e : ℕ → PageProcessError) : Processing jobId where
  outcomes tasks := tasks.map fun task => (task,.error (e (task.page-1)))
  perm tasks := by
    rw [List.map_map]
    exact List.Perm.of_eq (List.map_id tasks)
  written := by
    intro tasks x hx _ artifact hok
    obtain ⟨task,_,rfl⟩ := List.mem_map.mp hx
    cases hok

/-- The first `c` pages are closed, the others wait with their failures. -/
structure Stage (c : ℕ) (f : ℕ → ℕ) (w : PageWorkflow) : Prop where
  cancelled : w.cancelled = false
  closed : ∀ i < c, ∀ p, w.pages[i]? = some p → isOpen p = false
  pending : ∀ i, c ≤ i → i < w.pages.length → w.pages[i]? = some (.pending (f i))

section Stages
variable {b c : ℕ} {f : ℕ → ℕ} {w w' : PageWorkflow} {xs : List (PageTask × PageOutcome)}
  {e : ℕ → PageProcessError}

theorem stage_before (h : Stage c f w) {i : ℕ} (hi : i ≤ w.pages.length) :
    openBefore w.pages i = i-c := by
  induction i with
  | zero => rw [Nat.zero_sub]; rfl
  | succ i ih =>
    by_cases hc : i < c
    · have hp := List.getElem?_eq_getElem (l := w.pages) (show i < w.pages.length by omega)
      rw [openBefore_succ hp, ih (by omega), h.closed i hc _ hp]
      simp only [Bool.false_eq_true, if_false]
      omega
    · rw [openBefore_succ (h.pending i (by omega) (by omega)), ih (by omega)]
      simp only [isOpen, PageProgress.isTerminal, Bool.not_false, if_true]
      omega

theorem stage_handedOut (h : Stage c f w) {i attempt : ℕ} (hi : i < w.pages.length) :
    HandedOut b w i attempt ↔ c ≤ i ∧ i < c+b ∧ attempt = f i+1 := by
  rw [handedOut_iff, stage_before h hi.le, nextAttempt]
  by_cases hc : c ≤ i
  · have hp := h.pending i hc hi
    have hvalid := valid_get hp
    have hmax := w.attempts_bounded.2
    unfold maximumPageAttempts at hmax
    simp only [PageProgress.valid, decide_eq_true_eq] at hvalid
    rw [hp, Option.bind_some, PageProgress.claimAttempt, saturatingSucc, Option.some.injEq]
    omega
  · have hp := List.getElem?_eq_getElem hi
    have hclosed := h.closed i (by omega) _ hp
    have hnone : (w.pages[i]).claimAttempt = none := by
      rw [PageProgress.claimAttempt_eq_none]
      simpa [isOpen] using hclosed
    rw [hp, Option.bind_some, hnone]
    simp only [reduceCtorEq, false_and, false_iff]
    omega

/-- What a pass makes of a stage: the batch after the closed pages fails, and
nothing else changes. -/
theorem stage_pass (h : Stage c f w) (hpass : Pass b w xs w')
    (hxs : ∀ x ∈ xs, x.2 = .error (e (x.1.page-1))) {i : ℕ} (hi : i < w.pages.length) :
    w'.pages[i]? = if c ≤ i ∧ i < c+b then
      some ((recordOf (.error (e i))).progress w.maxAttempts (f i+1)) else w.pages[i]? := by
  by_cases hbatch : c ≤ i ∧ i < c+b
  · obtain ⟨outcome,hm,hpage⟩ := hpass.served i (f i+1)
      ((stage_handedOut h hi).mpr ⟨hbatch.1,hbatch.2,rfl⟩)
    have houtcome : outcome = .error (e i) := by
      have hsame := hxs _ hm
      rwa [taskAt, Nat.add_sub_cancel_left] at hsame
    rw [if_pos hbatch, hpage, houtcome]
  · rw [if_neg hbatch]
    exact hpass.kept i fun attempt hout =>
      hbatch ⟨((stage_handedOut h hi).mp hout).1,((stage_handedOut h hi).mp hout).2.1⟩

/-- The pass is limited if it blames the quota for a page with attempts left. -/
theorem stage_limited (h : Stage c f w) (hpass : Pass b w xs w')
    (hxs : ∀ x ∈ xs, x.2 = .error (e (x.1.page-1))) {i : ℕ}
    (hi : i < w.pages.length) (hbatch : c ≤ i ∧ i < c+b) (he : e i = .rateLimited)
    (hleft : f i+1 < w.maxAttempts) :
    xs.any (limits w.maxAttempts) = true ∧ w'.status = .running := by
  have hout : HandedOut b w i (f i+1) := (stage_handedOut h hi).mpr ⟨hbatch.1,hbatch.2,rfl⟩
  have hpage := stage_pass h hpass hxs hi
  rw [if_pos hbatch, he, recordOf, Record.progress, if_neg (Nat.ne_of_lt hleft)] at hpage
  constructor
  · obtain ⟨outcome,hm,_⟩ := hpass.served i (f i+1) hout
    have houtcome : outcome = .error .rateLimited := by
      have hsame := hxs _ hm
      rw [taskAt, Nat.add_sub_cancel_left] at hsame
      rwa [← he]
    rw [List.any_eq_true]
    refine ⟨_,hm,?_⟩
    simp only [limits, houtcome, taskAt]
    exact decide_eq_true hleft
  · rw [status_running_iff]
    exact ⟨hpass.plan.cancelled.trans h.cancelled,_,List.mem_of_getElem? hpage,rfl⟩

end Stages

section Necessary
variable {jobId : JobId} {runner : CheckpointedPageRunner} {scope : Scope}
  {pageCount maxAttempts : ℕ}

/-- After `k` attempts of activities the stored checkpoint is at this stage. -/
def At (scope : Scope) (jobId : JobId) (pageCount maxAttempts c : ℕ) (f : ℕ → ℕ) (k : ℕ)
    (world : World) : Prop :=
  ∃ stored, Tracks world.store scope jobId stored ∧ Stage c f stored.workflow ∧
    stored.workflow.pages.length = pageCount ∧ stored.workflow.maxAttempts = maxAttempts ∧
    world.attempts = k

/-- One limited attempt, from stage to stage. -/
theorem at_attempt {processing : ℕ → Processing jobId} {c c' : ℕ} {f f' : ℕ → ℕ} {k : ℕ}
    {world : World} {e : ℕ → PageProcessError} (h : At scope jobId pageCount maxAttempts c f k world)
    (he : processing k = blaming jobId e) {i : ℕ} (hi : i < pageCount)
    (hbatch : c ≤ i ∧ i < c+runner.batchSize) (hlimited : e i = .rateLimited)
    (hleft : f i+1 < maxAttempts) (hc : c ≤ c')
    (hclosed : ∀ j, c ≤ j → j < c' → j < c+runner.batchSize ∧
      isOpen ((recordOf (.error (e j))).progress maxAttempts (f j+1)) = false)
    (hpending : ∀ j, c' ≤ j → if j < c+runner.batchSize then
      (recordOf (.error (e j))).progress maxAttempts (f j+1) = .pending (f' j) else f' j = f j) :
    ∃ world', attempt runner scope processing world = (.error .providerRateLimited,world') ∧
      storedStatus scope jobId world' = some .running ∧
      At scope jobId pageCount maxAttempts c' f' (k+1) world' := by
  obtain ⟨stored,htracks,hstage,rfl,rfl,rfl⟩ := h
  have hrunning : stored.workflow.status = .running := by
    rw [status_running_iff]
    exact ⟨hstage.cancelled,_,List.mem_of_getElem? (hstage.pending i hbatch.1 hi),rfl⟩
  obtain ⟨w',world',hpass,htracks',hattempts,hattempt⟩ :=
    attempt_running runner processing htracks hrunning
  have hxs : ∀ x ∈ nextOutcomes runner processing world stored.workflow,
      x.2 = .error (e (x.1.page-1)) := by
    intro x hx
    rw [nextOutcomes, he] at hx
    obtain ⟨task,_,rfl⟩ := List.mem_map.mp hx
    rfl
  have hlim := stage_limited hstage hpass hxs hi hbatch hlimited hleft
  rw [if_pos hlim] at hattempt
  refine ⟨world',hattempt,?_,⟨w',_⟩,htracks',?_,hpass.plan.length,hpass.plan.maxAttempts,hattempts⟩
  · rw [storedStatus_tracks htracks', hlim.2]
  · refine ⟨hpass.plan.cancelled.trans hstage.cancelled,?_,?_⟩
    · intro j hj p hp
      have hlength := (List.getElem?_eq_some_iff.mp hp).1
      rw [hpass.plan.length] at hlength
      rw [stage_pass hstage hpass hxs hlength] at hp
      by_cases hcj : c ≤ j
      · obtain ⟨hin,hfinal⟩ := hclosed j hcj hj
        rw [if_pos ⟨hcj,hin⟩] at hp
        cases hp
        exact hfinal
      · rw [if_neg fun hbatch => hcj hbatch.1] at hp
        exact hstage.closed j (by omega) p hp
    · intro j hcj hj
      rw [hpass.plan.length] at hj
      rw [stage_pass hstage hpass hxs hj]
      have hnext := hpending j hcj
      by_cases hin : j < c+runner.batchSize
      · rw [if_pos hin] at hnext
        rw [if_pos ⟨hc.trans hcj,hin⟩, hnext]
      · rw [if_neg hin] at hnext
        rw [if_neg fun hbatch => hin hbatch.2, hstage.pending j (hc.trans hcj) hj, hnext]

/-- An activity whose three attempts are limited fails. -/
theorem activity_fails {processing : ℕ → Processing jobId} {world₀ world₁ world₂ world₃ : World}
    (h₁ : attempt runner scope processing world₀ = (.error .providerRateLimited,world₁))
    (h₂ : attempt runner scope processing world₁ = (.error .providerRateLimited,world₂))
    (h₃ : attempt runner scope processing world₂ = (.error .providerRateLimited,world₃)) :
    runCheckpointedPages runner scope processing world₀ = (.error .providerRateLimited,world₃) := by
  show executeActivity runner scope processing 2 world₀ = _
  simp only [executeActivity, h₁, h₂, h₃, DurableExecutionErrorKind.isRetryable, if_true]

/-- The workflow fails with its first activity. -/
theorem workflow_fails {processing : ℕ → Processing jobId} {world world' : World}
    (h : runCheckpointedPages runner scope processing world = (.error .providerRateLimited,world'))
    (finalization : Except FinalizationErrorKind Unit) :
    documentWorkflow runner scope processing finalization .first world =
      (.failed .providerRateLimited,world') := by
  have hrule : IterationRule runner scope processing finalization
      (fun i w => i = 1 ∧ w = world)
      (fun outcome w => outcome = .failed .providerRateLimited ∧ w = world') := by
    refine ⟨?_,?_,?_,?_⟩
    · rintro _ _ kind w ⟨_,rfl⟩ _ hfail
      rw [h] at hfail
      cases hfail
      exact ⟨rfl,rfl⟩
    · rintro _ _ w ⟨_,rfl⟩ _ hok
      rw [h] at hok
      cases hok
    · rintro _ _ status w runs ⟨_,rfl⟩ _ hok
      rw [h] at hok
      cases hok
    · rintro _ ⟨hlast,_⟩
      exact absurd hlast (by decide)
  have hend := documentWorkflow_rule hrule .first (by decide) ⟨rfl,rfl⟩
  exact Prod.ext hend.1 hend.2

/-- The first attempt of the first activity loses its first page for good, and
everything else is lost to the quota. -/
def firstRefused (k i : ℕ) : PageProcessError :=
  if k = 0 ∧ i = 0 then .permanent else .rateLimited

theorem rateLimited_progress {attempt : ℕ} :
    (recordOf (.error .rateLimited)).progress maxAttempts attempt =
      if attempt = maxAttempts then .exhausted attempt else .pending attempt := rfl

/-- Pages with more than three attempts are lost to the quota three times. -/
theorem patient_fails {world : World}
    (h : At scope jobId pageCount maxAttempts 0 (fun _ => 0) 0 world) (hp : 1 ≤ pageCount)
    (hmax : 4 ≤ maxAttempts) : ∃ world',
      runCheckpointedPages runner scope (fun _ => blaming jobId fun _ => .rateLimited) world =
        (.error .providerRateLimited,world') ∧
      storedStatus scope jobId world' = some .running := by
  have hb := runner.batch_bounded.1
  have hstep : ∀ {k : ℕ} {world : World}, k < 3 →
      At scope jobId pageCount maxAttempts 0 (fun j => if j < runner.batchSize then k else 0) k world →
      ∃ world', attempt runner scope (fun _ => blaming jobId fun _ => .rateLimited) world =
          (.error .providerRateLimited,world') ∧ storedStatus scope jobId world' = some .running ∧
        At scope jobId pageCount maxAttempts 0
          (fun j => if j < runner.batchSize then k+1 else 0) (k+1) world' := by
    intro k world hk h
    have hfirst : (if 0 < runner.batchSize then k else 0) = k := if_pos hb
    refine at_attempt h rfl hp ⟨le_rfl,by omega⟩ rfl (by show (if 0 < _ then k else 0)+1 < _; omega)
      le_rfl (fun j _ hj => absurd hj (Nat.not_lt_zero j)) ?_
    intro j _
    rw [Nat.zero_add]
    by_cases hj : j < runner.batchSize
    · simp only [if_pos hj, rateLimited_progress]
      exact if_neg (by omega)
    · simp only [if_neg hj]
  have hstart : At scope jobId pageCount maxAttempts 0
      (fun j => if j < runner.batchSize then 0 else 0) 0 world := by
    simpa only [ite_self] using h
  obtain ⟨world₁,h₁,_,hat₁⟩ := hstep (by omega) hstart
  obtain ⟨world₂,h₂,_,hat₂⟩ := hstep (by omega) hat₁
  obtain ⟨world₃,h₃,hrunning,_⟩ := hstep (by omega) hat₂
  exact ⟨world₃,activity_fails h₁ h₂ h₃,hrunning⟩

section Refused
variable {world : World}
  (h : At scope jobId pageCount maxAttempts 0 (fun _ => 0) 0 world) (hb : 2 ≤ runner.batchSize)
include h hb

/-- The first batch loses its first page, so the next one reaches a new page. -/
theorem refused_first (hp : runner.batchSize < pageCount) (hmax : 2 ≤ maxAttempts) :
    ∃ world', attempt runner scope (fun k => blaming jobId (firstRefused k)) world =
        (.error .providerRateLimited,world') ∧ storedStatus scope jobId world' = some .running ∧
      At scope jobId pageCount maxAttempts 1
        (fun j => if j < runner.batchSize then 1 else 0) 1 world' := by
  refine at_attempt h rfl (show 1 < pageCount by omega) ⟨Nat.zero_le 1,by omega⟩ rfl hmax
    (Nat.zero_le 1) ?_ ?_
  · intro j _ hj
    have hzero : j = 0 := by omega
    rw [hzero]
    exact ⟨by omega,rfl⟩
  · intro j hj
    have hlater : firstRefused 0 j = .rateLimited := if_neg (by omega)
    rw [Nat.zero_add]
    by_cases hin : j < runner.batchSize
    · simp only [if_pos hin, hlater, rateLimited_progress]
      exact if_neg (by omega)
    · simp only [if_neg hin]

theorem refused_three (hp : runner.batchSize < pageCount) (hmax : maxAttempts = 3) :
    ∃ world', runCheckpointedPages runner scope (fun k => blaming jobId (firstRefused k)) world =
        (.error .providerRateLimited,world') ∧
      storedStatus scope jobId world' = some .running := by
  subst hmax
  obtain ⟨world₁,h₁,_,hat₁⟩ := refused_first h hb hp (by omega)
  have hlast : ¬runner.batchSize < runner.batchSize := lt_irrefl _
  obtain ⟨world₂,h₂,_,hat₂⟩ : ∃ world',
      attempt runner scope (fun k => blaming jobId (firstRefused k)) world₁ =
        (.error .providerRateLimited,world') ∧ storedStatus scope jobId world' = some .running ∧
      At scope jobId pageCount 3 1 (fun j => if j < runner.batchSize then 2 else
        if j < runner.batchSize+1 then 1 else 0) 2 world' := by
    refine at_attempt hat₁ rfl hp ⟨by omega,by omega⟩ rfl (by simp only [if_neg hlast]; omega) le_rfl
      (fun j hlow hhigh => absurd hlow (by omega)) ?_
    intro j _
    have hlater : firstRefused 1 j = .rateLimited := rfl
    rw [Nat.add_comm 1]
    by_cases hin : j < runner.batchSize
    · have hnext : j < runner.batchSize+1 := by omega
      simp only [if_pos hin, if_pos hnext, hlater, rateLimited_progress]
      rfl
    · by_cases hnext : j < runner.batchSize+1
      · simp only [if_neg hin, if_pos hnext, hlater, rateLimited_progress]
        rfl
      · simp only [if_neg hin, if_neg hnext]
  obtain ⟨world₃,h₃,hrunning,_⟩ : ∃ world',
      attempt runner scope (fun k => blaming jobId (firstRefused k)) world₂ =
        (.error .providerRateLimited,world') ∧ storedStatus scope jobId world' = some .running ∧
      At scope jobId pageCount 3 runner.batchSize
        (fun j => if j < runner.batchSize+1 then 2 else 0) 3 world' := by
    refine at_attempt hat₂ rfl hp ⟨by omega,by omega⟩ rfl
      (by simp only [if_neg hlast, if_pos (Nat.lt_succ_self runner.batchSize)]; omega) (by omega) ?_ ?_
    · intro j _ hj
      have hlater : firstRefused 2 j = .rateLimited := rfl
      simp only [if_pos hj, hlater, rateLimited_progress]
      exact ⟨by omega,rfl⟩
    · intro j hj
      have hlater : firstRefused 2 j = .rateLimited := rfl
      have hin : ¬j < runner.batchSize := by omega
      rw [Nat.add_comm 1]
      by_cases hnext : j < runner.batchSize+1
      · simp only [if_neg hin, if_pos hnext, hlater, rateLimited_progress]
        rfl
      · simp only [if_neg hin, if_neg hnext]
  exact ⟨world₃,activity_fails h₁ h₂ h₃,hrunning⟩

theorem refused_two (hp : runner.batchSize+1 < pageCount) (hmax : maxAttempts = 2) :
    ∃ world', runCheckpointedPages runner scope (fun k => blaming jobId (firstRefused k)) world =
        (.error .providerRateLimited,world') ∧
      storedStatus scope jobId world' = some .running := by
  subst hmax
  obtain ⟨world₁,h₁,_,hat₁⟩ := refused_first h hb (by omega) le_rfl
  have hlast : ¬runner.batchSize < runner.batchSize := lt_irrefl _
  have hbeyond : ¬runner.batchSize+1 < runner.batchSize+1 := lt_irrefl _
  obtain ⟨world₂,h₂,_,hat₂⟩ : ∃ world',
      attempt runner scope (fun k => blaming jobId (firstRefused k)) world₁ =
        (.error .providerRateLimited,world') ∧ storedStatus scope jobId world' = some .running ∧
      At scope jobId pageCount 2 runner.batchSize
        (fun j => if j < runner.batchSize+1 then 1 else 0) 2 world' := by
    refine at_attempt hat₁ rfl (show runner.batchSize < pageCount by omega) ⟨by omega,by omega⟩ rfl
      (by simp only [if_neg hlast]; omega) (by omega) ?_ ?_
    · intro j _ hj
      have hlater : firstRefused 1 j = .rateLimited := rfl
      simp only [if_pos hj, hlater, rateLimited_progress]
      exact ⟨by omega,rfl⟩
    · intro j hj
      have hlater : firstRefused 1 j = .rateLimited := rfl
      have hin : ¬j < runner.batchSize := by omega
      rw [Nat.add_comm 1]
      by_cases hnext : j < runner.batchSize+1
      · simp only [if_neg hin, if_pos hnext, hlater, rateLimited_progress]
        rfl
      · simp only [if_neg hin, if_neg hnext]
  obtain ⟨world₃,h₃,hrunning,_⟩ : ∃ world',
      attempt runner scope (fun k => blaming jobId (firstRefused k)) world₂ =
        (.error .providerRateLimited,world') ∧ storedStatus scope jobId world' = some .running ∧
      At scope jobId pageCount 2 (runner.batchSize+1)
        (fun j => if j < runner.batchSize+runner.batchSize then 1 else 0) 3 world' := by
    refine at_attempt hat₂ rfl hp ⟨by omega,by omega⟩ rfl
      (by simp only [if_neg hbeyond]; omega) (by omega) ?_ ?_
    · intro j _ hj
      have hlater : firstRefused 2 j = .rateLimited := rfl
      simp only [if_pos hj, hlater, rateLimited_progress]
      exact ⟨by omega,rfl⟩
    · intro j hj
      have hlater : firstRefused 2 j = .rateLimited := rfl
      have hin : ¬j < runner.batchSize+1 := by omega
      by_cases hnext : j < runner.batchSize+runner.batchSize
      · simp only [if_neg hin, if_pos hnext, hlater, rateLimited_progress]
        rfl
      · simp only [if_neg hin, if_neg hnext]
  exact ⟨world₃,activity_fails h₁ h₂ h₃,hrunning⟩

end Refused

end Necessary

section Exact
variable {jobId : JobId} {runner : CheckpointedPageRunner} {scope : Scope} {s : Store} {revision : ℕ}
  {pageCount maxAttempts : ℕ} {hp : 1 ≤ pageCount ∧ pageCount ≤ maximumPageCount}
  {ha : 1 ≤ maxAttempts ∧ maxAttempts ≤ maximumPageAttempts}
  (h : Tracks s scope jobId ⟨PageWorkflow.fresh jobId pageCount maxAttempts hp ha,revision⟩)
include h

theorem fresh_at : At scope jobId pageCount maxAttempts 0 (fun _ => 0) 0 ⟨s,0⟩ := by
  refine ⟨_,h,⟨rfl,fun i hi => absurd hi (Nat.not_lt_zero i),?_⟩,List.length_replicate,rfl,rfl⟩
  intro i _ hi
  rw [PageWorkflow.fresh, List.length_replicate] at hi
  simp [PageWorkflow.fresh, hi]

theorem fresh_tolerating (htolerates : Tolerates maxAttempts runner.batchSize pageCount) :
    Tolerating runner scope jobId DurableWorkflowRunInput.first.nextIteration ⟨s,0⟩ := by
  have hlength : (PageWorkflow.fresh jobId pageCount maxAttempts hp ha).pages.length = pageCount :=
    List.length_replicate
  refine ⟨_,h,fresh_running jobId hp ha,?_,?_⟩
  · rw [hlength]
    exact htolerates
  · rw [fresh_load jobId hp ha runner.batch_bounded.1]
    exact Nat.add_le_add_right (tolerated_load runner.batch_bounded.1 hp htolerates.1) 1

theorem fresh_killed (hnot : ¬Tolerates maxAttempts runner.batchSize pageCount) :
    ∃ (processing : ℕ → Processing jobId) (world : World),
      runCheckpointedPages runner scope processing ⟨s,0⟩ = (.error .providerRateLimited,world) ∧
        storedStatus scope jobId world = some .running := by
  have hat := fresh_at h
  have hb := runner.batch_bounded.1
  have hattempts : maximumAttempts = 3 := rfl
  unfold Tolerates at hnot
  by_cases hpatient : 4 ≤ maxAttempts
  · obtain ⟨world,hfails,hrunning⟩ := patient_fails hat hp.1 hpatient
    exact ⟨_,world,hfails,hrunning⟩
  · have hbatch : 2 ≤ runner.batchSize := by omega
    by_cases hthree : maxAttempts = 3
    · obtain ⟨world,hfails,hrunning⟩ := refused_three hat hbatch (by omega) hthree
      exact ⟨_,world,hfails,hrunning⟩
    · obtain ⟨world,hfails,hrunning⟩ := refused_two hat hbatch (by omega) (by omega)
      exact ⟨_,world,hfails,hrunning⟩

/-- The workflow of a new checkpoint ends only after its pages, whatever becomes
of them, exactly when its limits tolerate quota failures. -/
theorem ends_after_pages_iff :
    (∀ (processing : ℕ → Processing jobId) (finalization : Except FinalizationErrorKind Unit),
      PagesEnded scope jobId
        (documentWorkflow runner scope processing finalization .first ⟨s,0⟩).2) ↔
      Tolerates maxAttempts runner.batchSize pageCount := by
  constructor
  · intro hall
    by_contra hnot
    obtain ⟨processing,world,hfails,hrunning⟩ := fresh_killed h hnot
    obtain ⟨status,hstatus,hended⟩ := hall processing (.ok ())
    rw [workflow_fails hfails, hrunning, Option.some.injEq] at hstatus
    exact hended hstatus.symm
  · intro htolerates processing finalization
    exact documentWorkflow_rule (tolerating_rule processing finalization) .first (by decide)
      (fresh_tolerating h htolerates)

end Exact

section Sample

def eightAtOnce : CheckpointedPageRunner := ⟨8,8,by decide,by decide⟩

/-- Nine pages with three attempts do not tolerate a batch of eight, eight do. -/
theorem nine_pages_ends_iff :
    (∀ (processing : ℕ → Processing default) (finalization : Except FinalizationErrorKind Unit),
      PagesEnded default default (documentWorkflow eightAtOnce default processing finalization .first
        ⟨startedStore 9 3 (by decide) (by decide),0⟩).2) ↔ Tolerates 3 8 9 :=
  ends_after_pages_iff (startedStore_tracks 9 3 (by decide) (by decide))

/-- A quota which one page meets three times ends the workflow while the page
has an attempt left. -/
theorem patient_page_killed : ∃ world,
    documentWorkflow oneByOne default (fun _ => blaming default fun _ => .rateLimited) (.ok ()) .first
      ⟨startedStore 1 4 (by decide) (by decide),0⟩ = (.failed .providerRateLimited,world) ∧
    storedStatus default default world = some .running := by
  obtain ⟨world,hfails,hrunning⟩ := patient_fails
    (fresh_at (startedStore_tracks 1 4 (by decide) (by decide))) le_rfl le_rfl
  exact ⟨world,workflow_fails hfails (.ok ()),hrunning⟩

end Sample

end DocumentIntelligence.RateLimits
