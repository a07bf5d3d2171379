import DocumentIntelligence.BatchRounds
import DocumentIntelligence.PageRunner

/-!
# Checkpoints as budgets

A page has the attempts which are left to it as its budget. A claim hands out
the first pages which have budget left, and recording an outcome lowers the
budget of the page, by exactly one if the failure was retryable.
-/

set_option autoImplicit false

namespace DocumentIntelligence.PageRounds
open Identifiers (JobId)
open Schema PageCheckpoint PageRunner BatchRounds

def isOpen (p : PageProgress) : Bool := !p.isTerminal

/-- What a claim writes to a page which it reaches. -/
def claim (p : PageProgress) : PageProgress := (p.claimAttempt.map PageProgress.running).getD p

/-- The pages before index `i` which a claim hands out first. -/
def openBefore (ps : List PageProgress) (i : ℕ) : ℕ := (ps.take i).countP isOpen

theorem openBefore_cons_zero (p : PageProgress) (ps : List PageProgress) :
    openBefore (p::ps) 0 = 0 := rfl

theorem openBefore_cons_succ (p : PageProgress) (ps : List PageProgress) (i : ℕ) :
    openBefore (p::ps) (i+1) = openBefore ps i+if isOpen p then 1 else 0 := by
  simp [openBefore, List.countP_cons]

theorem claimPages_get (jobId : JobId) (limit page : ℕ) (ps : List PageProgress) (i : ℕ) :
    (claimPages jobId limit page ps).1[i]? =
      ps[i]?.map fun p => if openBefore ps i < limit then claim p else p := by
  induction ps generalizing limit page i with
  | nil => cases limit <;> simp [claimPages]
  | cons p ps ih =>
    cases limit with
    | zero => simp [claimPages]
    | succ limit =>
      cases hp : p.claimAttempt with
      | none =>
        have hopen : isOpen p = false := by
          simp [isOpen, (PageProgress.claimAttempt_eq_none p).mp hp]
        cases i with
        | zero => simp [claimPages, hp, claim, openBefore_cons_zero]
        | succ i => simp [claimPages, hp, ih, openBefore_cons_succ, hopen]
      | some attempt =>
        have hopen : isOpen p = true := by
          cases ht : p.isTerminal with
          | false => simp [isOpen, ht]
          | true =>
            rw [(PageProgress.claimAttempt_eq_none p).mpr ht] at hp
            cases hp
        cases i with
        | zero => simp [claimPages, hp, claim, openBefore_cons_zero]
        | succ i => simp [claimPages, hp, ih, openBefore_cons_succ, hopen]

theorem mem_claimPages (jobId : JobId) {limit page : ℕ} {ps : List PageProgress} {t : PageTask} :
    t ∈ (claimPages jobId limit page ps).2 ↔ ∃ i p attempt, ps[i]? = some p ∧
      openBefore ps i < limit ∧ p.claimAttempt = some attempt ∧
      t = ⟨page+i,attempt,activityKey jobId (page+i) attempt⟩ := by
  induction ps generalizing limit page with
  | nil => cases limit <;> simp [claimPages]
  | cons p ps ih =>
    cases limit with
    | zero => simp [claimPages]
    | succ limit =>
      have hsplit : (∃ i q attempt, (p::ps)[i]? = some q ∧ openBefore (p::ps) i < limit+1 ∧
          q.claimAttempt = some attempt ∧ t = ⟨page+i,attempt,activityKey jobId (page+i) attempt⟩) ↔
          (∃ attempt, p.claimAttempt = some attempt ∧
            t = ⟨page,attempt,activityKey jobId page attempt⟩) ∨
          ∃ i q attempt, ps[i]? = some q ∧ openBefore ps i+(if isOpen p then 1 else 0) < limit+1 ∧
            q.claimAttempt = some attempt ∧
            t = ⟨page+1+i,attempt,activityKey jobId (page+1+i) attempt⟩ := by
        constructor
        · rintro ⟨i,q,attempt,hq,hlt,ha,ht⟩
          cases i with
          | zero =>
            left
            rw [List.getElem?_cons_zero, Option.some.injEq] at hq
            exact ⟨attempt,hq ▸ ha,ht⟩
          | succ i =>
            right
            rw [openBefore_cons_succ] at hlt
            exact ⟨i,q,attempt,hq,hlt,ha,by rw [ht, Nat.add_right_comm, Nat.add_assoc]⟩
        · rintro (⟨attempt,ha,ht⟩ | ⟨i,q,attempt,hq,hlt,ha,ht⟩)
          · exact ⟨0,p,attempt,rfl,Nat.succ_pos _,ha,ht⟩
          · refine ⟨i+1,q,attempt,hq,?_,ha,?_⟩
            · rwa [openBefore_cons_succ]
            · rw [ht, Nat.add_right_comm, Nat.add_assoc]
      rw [hsplit]
      cases hp : p.claimAttempt with
      | none =>
        have hopen : isOpen p = false := by
          simp [isOpen, (PageProgress.claimAttempt_eq_none p).mp hp]
        simp [claimPages, hp, ih, hopen]
      | some attempt =>
        have hopen : isOpen p = true := by
          cases ht : p.isTerminal with
          | false => simp [isOpen, ht]
          | true =>
            rw [(PageProgress.claimAttempt_eq_none p).mpr ht] at hp
            cases hp
        simp [claimPages, hp, ih, hopen]

/-- The workflow is otherwise the one it was. -/
structure SamePlan (w w' : PageWorkflow) : Prop where
  jobId : w'.jobId = w.jobId
  maxAttempts : w'.maxAttempts = w.maxAttempts
  cancelled : w'.cancelled = w.cancelled
  length : w'.pages.length = w.pages.length

theorem SamePlan.refl (w : PageWorkflow) : SamePlan w w := ⟨rfl,rfl,rfl,rfl⟩

theorem SamePlan.trans {w w' w'' : PageWorkflow} (h : SamePlan w w') (h' : SamePlan w' w'') :
    SamePlan w w'' :=
  ⟨h'.jobId.trans h.jobId,h'.maxAttempts.trans h.maxAttempts,h'.cancelled.trans h.cancelled,
    h'.length.trans h.length⟩

theorem record_ok {w : PageWorkflow} {task : PageTask} {i : ℕ} (r : Record)
    (h : w.activeProgress task = some i) : ∃ w', w.record task r = .ok w' ∧ SamePlan w w' ∧
      w'.pages = w.pages.set i (r.progress w.maxAttempts task.attempt) := by
  unfold PageWorkflow.record
  split
  · rename_i hnone
    rw [h] at hnone
    cases hnone
  · rename_i j hj
    rw [h, Option.some.injEq] at hj
    exact ⟨_,rfl,⟨rfl,rfl,rfl,List.length_set⟩,by rw [hj]⟩

/-- A task is active if it is the current attempt of its page. -/
theorem activeProgress_iff {w : PageWorkflow} {task : PageTask} :
    w.activeProgress task = some (task.page-1) ↔ w.cancelled = false ∧
      task.activityKey = activityKey w.jobId task.page task.attempt ∧ task.page ≠ 0 ∧
      w.pages[task.page-1]? = some (.running task.attempt) := by
  unfold PageWorkflow.activeProgress
  by_cases hguard : w.cancelled = true ∨
      task.activityKey ≠ activityKey w.jobId task.page task.attempt ∨ task.page = 0
  · rw [if_pos hguard]
    constructor
    · intro h
      cases h
    · rintro ⟨hc,hk,hp,_⟩
      rcases hguard with h | h | h
      · rw [hc] at h
        cases h
      · exact absurd hk h
      · exact absurd h hp
  · rw [if_neg hguard]
    push Not at hguard
    rw [ne_eq, Bool.not_eq_true] at hguard
    by_cases hr : w.pages[task.page-1]? = some (.running task.attempt)
    · rw [if_pos hr]
      exact iff_of_true rfl ⟨hguard.1,hguard.2.1,hguard.2.2,hr⟩
    · rw [if_neg hr]
      constructor
      · intro h
        cases h
      · exact fun h => absurd h.2.2.2 hr

/-- What recording a batch of outcomes does, in whatever order they arrive. -/
structure Outcomes (w : PageWorkflow) (xs : List (PageTask × PageOutcome)) (w' : PageWorkflow) :
    Prop where
  plan : SamePlan w w'
  recorded : ∀ x ∈ xs, w'.pages[x.1.page-1]? =
    some ((recordOf x.2).progress w.maxAttempts x.1.attempt)
  kept : ∀ i, (∀ x ∈ xs, x.1.page-1 ≠ i) → w'.pages[i]? = w.pages[i]?

theorem recordOutcomes_ok {xs : List (PageTask × PageOutcome)} :
    ∀ {w : PageWorkflow} (artifacts : List StoredPageArtifact) (rateLimited : Bool),
      (xs.map (·.1.page)).Nodup → (∀ x ∈ xs, w.activeProgress x.1 = some (x.1.page-1)) →
      ∃ w', recordOutcomes ⟨w,artifacts,rateLimited⟩ xs =
        .ok ⟨w',artifacts++xs.flatMap artifactOf,rateLimited || xs.any (limits w.maxAttempts)⟩ ∧
        Outcomes w xs w' := by
  induction xs with
  | nil =>
    intro w artifacts rateLimited _ _
    refine ⟨w,by simp [recordOutcomes]; rfl,SamePlan.refl w,?_,fun _ _ => rfl⟩
    exact fun _ h => absurd h List.not_mem_nil
  | cons x xs ih =>
    intro w artifacts rateLimited hnodup hactive
    rw [List.map_cons, List.nodup_cons] at hnodup
    have hx := hactive x List.mem_cons_self
    have hpos := (activeProgress_iff.mp hx).2.2.1
    obtain ⟨w₁,hrecord,hplan,hpages⟩ := record_ok (recordOf x.2) hx
    have hother : ∀ y ∈ xs, x.1.page-1 ≠ y.1.page-1 := by
      intro y hy heq
      have hy0 := (activeProgress_iff.mp (hactive y (List.mem_cons_of_mem x hy))).2.2.1
      apply hnodup.1
      rw [List.mem_map]
      exact ⟨y,hy,by omega⟩
    have hrest : ∀ y ∈ xs, w₁.activeProgress y.1 = some (y.1.page-1) := by
      intro y hy
      obtain ⟨hc,hk,hp,hr⟩ := activeProgress_iff.mp (hactive y (List.mem_cons_of_mem x hy))
      rw [activeProgress_iff, hplan.cancelled, hplan.jobId, hpages,
        List.getElem?_set_ne (hother y hy)]
      exact ⟨hc,hk,hp,hr⟩
    obtain ⟨w',hfold,hplan',hrecorded,hkept⟩ := ih (artifacts++artifactOf x)
      (rateLimited || limits w₁.maxAttempts x) hnodup.2 hrest
    refine ⟨w',?_,hplan.trans hplan',?_,?_⟩
    · rw [recordOutcomes, List.foldlM_cons, recordOutcome, hrecord]
      change recordOutcomes ⟨w₁,artifacts++artifactOf x,rateLimited || limits w₁.maxAttempts x⟩ xs = _
      rw [hfold, hplan.maxAttempts]
      simp [Bool.or_assoc]
    · intro y hy
      rcases List.mem_cons.mp hy with rfl | hm
      · rw [hkept _ fun z hz => (hother z hz).symm, hpages, List.getElem?_set_self]
        have hrunning := (activeProgress_iff.mp hx).2.2.2
        exact (List.getElem?_eq_some_iff.mp hrunning).1
      · rw [hrecorded y hm, hplan.maxAttempts]
    · intro i hi
      rw [hkept i fun z hz => hi z (List.mem_cons_of_mem x hz), hpages,
        List.getElem?_set_ne (hi x List.mem_cons_self)]

theorem claimPages_nodup (jobId : JobId) (limit page : ℕ) (ps : List PageProgress) :
    ((claimPages jobId limit page ps).2.map (·.page)).Nodup := by
  induction ps generalizing limit page with
  | nil => cases limit <;> simp [claimPages]
  | cons p ps ih =>
    cases limit with
    | zero => simp [claimPages]
    | succ limit =>
      cases hp : p.claimAttempt with
      | none => simpa [claimPages, hp] using ih (limit+1) (page+1)
      | some attempt =>
        simp only [claimPages, hp, List.map_cons, List.nodup_cons]
        refine ⟨?_,ih limit (page+1)⟩
        rw [List.mem_map]
        rintro ⟨t,ht,heq⟩
        obtain ⟨i,_,_,_,_,_,rfl⟩ := (mem_claimPages jobId).mp ht
        simp only at heq
        omega

theorem claimPages_empty_iff (jobId : JobId) {limit : ℕ} (hlimit : 1 ≤ limit) (page : ℕ)
    (ps : List PageProgress) :
    (claimPages jobId limit page ps).2 = [] ↔ ∀ p ∈ ps, isOpen p = false := by
  obtain ⟨limit,rfl⟩ := Nat.exists_eq_add_of_le' hlimit
  induction ps generalizing page with
  | nil => simp [claimPages]
  | cons p ps ih =>
    cases hp : p.claimAttempt with
    | none =>
      have hopen : isOpen p = false := by
        simp [isOpen, (PageProgress.claimAttempt_eq_none p).mp hp]
      simp [claimPages, hp, ih, hopen]
    | some attempt =>
      have hopen : isOpen p ≠ false := by
        intro h
        rw [isOpen, Bool.not_eq_false', ← PageProgress.claimAttempt_eq_none, hp] at h
        cases h
      simp [claimPages, hp, hopen]

theorem status_running_iff (w : PageWorkflow) :
    w.status = .running ↔ w.cancelled = false ∧ ∃ p ∈ w.pages, isOpen p = true := by
  have hopen : (∃ p ∈ w.pages, isOpen p = true) ↔ w.pages.all PageProgress.isTerminal = false := by
    simp [isOpen, List.all_eq_false]
  rw [hopen]
  unfold PageWorkflow.status
  cases w.cancelled with
  | true => simp
  | false =>
    cases hall : w.pages.all PageProgress.isTerminal with
    | true =>
      simp only [Bool.false_eq_true, if_false, if_true, Bool.true_eq_false, and_false, iff_false]
      split <;> decide
    | false =>
      have hsucceeded : w.pages.all PageProgress.isSucceeded = false := by
        by_contra h
        rw [Bool.not_eq_false, List.all_eq_true] at h
        rw [List.all_eq_false] at hall
        obtain ⟨p,hp,ht⟩ := hall
        exact ht (PageProgress.terminal_of_succeeded (h p hp))
      simp [hsucceeded]

/-- A claim hands out the page of index `i` under this attempt. -/
def HandedOut (b : ℕ) (w : PageWorkflow) (i attempt : ℕ) : Prop :=
  ∃ p, w.pages[i]? = some p ∧ openBefore w.pages i < b ∧ p.claimAttempt = some attempt

def taskAt (w : PageWorkflow) (i attempt : ℕ) : PageTask :=
  ⟨1+i,attempt,activityKey w.jobId (1+i) attempt⟩

def tasksOf (w : PageWorkflow) (b : ℕ) : List PageTask := (claimPages w.jobId b 1 w.pages).2

theorem mem_tasksOf {w : PageWorkflow} {b : ℕ} {t : PageTask} :
    t ∈ tasksOf w b ↔ ∃ i attempt, HandedOut b w i attempt ∧ t = taskAt w i attempt := by
  rw [tasksOf, mem_claimPages]
  constructor
  · rintro ⟨i,p,attempt,hp,hlt,ha,ht⟩
    exact ⟨i,attempt,⟨p,hp,hlt,ha⟩,ht⟩
  · rintro ⟨i,attempt,⟨p,hp,hlt,ha⟩,ht⟩
    exact ⟨i,p,attempt,hp,hlt,ha,ht⟩

/-- The claimed checkpoint of a workflow which was not cancelled. -/
theorem claimReady_ok {w : PageWorkflow} {b : ℕ} (hb : 1 ≤ b ∧ b ≤ 64) (hc : w.cancelled = false) :
    ∃ w₁, w.claimReady b = .ok (w₁,tasksOf w b) ∧ SamePlan w w₁ ∧
      w₁.pages = (claimPages w.jobId b 1 w.pages).1 := by
  have hlimit : ¬(b < 1 ∨ 64 < b) := by omega
  simp only [PageWorkflow.claimReady, if_neg hlimit, hc, Bool.false_eq_true, if_false]
  exact ⟨_,rfl,⟨rfl,rfl,hc.symm ▸ hc,claimPages_length _ _ _ _⟩,rfl⟩

/-- What one pass makes of the checkpoint. -/
structure Pass (b : ℕ) (w : PageWorkflow) (xs : List (PageTask × PageOutcome)) (w' : PageWorkflow) :
    Prop where
  plan : SamePlan w w'
  served : ∀ i attempt, HandedOut b w i attempt → ∃ outcome, (taskAt w i attempt,outcome) ∈ xs ∧
    w'.pages[i]? = some ((recordOf outcome).progress w.maxAttempts attempt)
  kept : ∀ i, (∀ attempt, ¬HandedOut b w i attempt) → w'.pages[i]? = w.pages[i]?

section Outcomes
variable {w w₁ : PageWorkflow} {b : ℕ} {xs : List (PageTask × PageOutcome)}

theorem outcomes_task (hperm : (xs.map (·.1)).Perm (tasksOf w b)) :
    ∀ x ∈ xs, ∃ i attempt, HandedOut b w i attempt ∧ x.1 = taskAt w i attempt :=
  fun _ hx => mem_tasksOf.mp (hperm.mem_iff.mp (List.mem_map_of_mem hx))

theorem outcomes_nodup (hperm : (xs.map (·.1)).Perm (tasksOf w b)) :
    (xs.map (·.1.page)).Nodup := by
  have hmap : xs.map (·.1.page) = (xs.map (·.1)).map (·.page) := by simp
  rw [hmap]
  exact (hperm.map (·.page)).nodup_iff.mpr (claimPages_nodup w.jobId b 1 w.pages)

theorem tasks_active (hc : w.cancelled = false) (hplan : SamePlan w w₁)
    (hpages : w₁.pages = (claimPages w.jobId b 1 w.pages).1) :
    ∀ task ∈ tasksOf w b, w₁.activeProgress task = some (task.page-1) := by
  intro task htask
  obtain ⟨i,attempt,⟨p,hp,hlt,ha⟩,heq⟩ := mem_tasksOf.mp htask
  rw [activeProgress_iff, heq]
  refine ⟨hplan.cancelled.trans hc,by rw [hplan.jobId, taskAt],?_,?_⟩
  · simp [taskAt]
  · rw [hpages, taskAt, Nat.add_sub_cancel_left, claimPages_get, hp, Option.map_some, if_pos hlt,
      claim, ha]
    rfl

theorem outcomes_active (hc : w.cancelled = false) (hplan : SamePlan w w₁)
    (hpages : w₁.pages = (claimPages w.jobId b 1 w.pages).1)
    (hperm : (xs.map (·.1)).Perm (tasksOf w b)) :
    ∀ x ∈ xs, w₁.activeProgress x.1 = some (x.1.page-1) := by
  intro x hx
  exact tasks_active hc hplan hpages x.1 (hperm.mem_iff.mp (List.mem_map_of_mem hx))

end Outcomes

theorem pass_ok {w w₁ : PageWorkflow} {b : ℕ} (hc : w.cancelled = false) (hplan : SamePlan w w₁)
    (hpages : w₁.pages = (claimPages w.jobId b 1 w.pages).1)
    {xs : List (PageTask × PageOutcome)} (hperm : (xs.map (·.1)).Perm (tasksOf w b)) :
    ∃ w', recordOutcomes ⟨w₁,[],false⟩ xs =
      .ok ⟨w',xs.flatMap artifactOf,xs.any (limits w.maxAttempts)⟩ ∧ Pass b w xs w' ∧
      Outcomes w₁ xs w' := by
  have htask := outcomes_task hperm
  have hnodup := outcomes_nodup hperm
  have hactive := outcomes_active hc hplan hpages hperm
  obtain ⟨w',hrecord,hout⟩ := recordOutcomes_ok [] false hnodup hactive
  rw [List.nil_append, Bool.false_or, hplan.maxAttempts] at hrecord
  refine ⟨w',hrecord,⟨hplan.trans hout.plan,?_,?_⟩,hout⟩
  · intro i attempt hi
    have hm : taskAt w i attempt ∈ xs.map (·.1) := hperm.mem_iff.mpr (mem_tasksOf.mpr ⟨i,attempt,hi,rfl⟩)
    obtain ⟨x,hx,heq⟩ := List.mem_map.mp hm
    have hrec := hout.recorded x hx
    rw [heq, taskAt, Nat.add_sub_cancel_left, hplan.maxAttempts] at hrec
    exact ⟨x.2,by rw [← heq]; exact hx,hrec⟩
  · intro i hi
    have hother : ∀ x ∈ xs, x.1.page-1 ≠ i := by
      intro x hx heq
      obtain ⟨j,attempt,hj,ht⟩ := htask x hx
      rw [ht, taskAt, Nat.add_sub_cancel_left] at heq
      exact hi attempt (heq ▸ hj)
    rw [hout.kept i hother, hpages, claimPages_get]
    cases hp : w.pages[i]? with
    | none => rfl
    | some p =>
      rw [Option.map_some]
      split
      · rename_i hlt
        cases ha : p.claimAttempt with
        | none => simp [claim, ha]
        | some attempt => exact absurd ⟨p,hp,hlt,ha⟩ (hi attempt)
      · rfl

/-- The attempts which are left to a page. -/
def budget (maxAttempts : ℕ) : PageProgress → ℕ
  | .pending failures => maxAttempts-failures
  | .running attempt => maxAttempts+1-attempt
  | _ => 0

def budgets (w : PageWorkflow) (i : ℕ) : ℕ := w.pages[i]?.elim 0 (budget w.maxAttempts)

theorem budget_pos_iff {maxAttempts : ℕ} {p : PageProgress} (h : p.valid maxAttempts = true) :
    0 < budget maxAttempts p ↔ isOpen p = true := by
  cases p <;> simp [PageProgress.valid, budget, isOpen, PageProgress.isTerminal] at * <;> omega

theorem valid_get {w : PageWorkflow} {i : ℕ} {p : PageProgress} (h : w.pages[i]? = some p) :
    p.valid w.maxAttempts = true :=
  List.all_eq_true.mp w.pages_valid p (List.mem_of_getElem? h)

theorem budgets_pos_iff {w : PageWorkflow} {i : ℕ} :
    0 < budgets w i ↔ ∃ p, w.pages[i]? = some p ∧ isOpen p = true := by
  unfold budgets
  cases hp : w.pages[i]? with
  | none => simp
  | some p => simp [budget_pos_iff (valid_get hp)]

theorem isOpen_iff (p : PageProgress) : isOpen p = true ↔ ∃ attempt, p.claimAttempt = some attempt := by
  rw [← Option.isSome_iff_exists, Option.isSome_iff_ne_none, ne_eq,
    PageProgress.claimAttempt_eq_none, isOpen, Bool.not_eq_true', Bool.not_eq_true]

theorem ahead_budgets (w : PageWorkflow) (i : ℕ) : ahead (budgets w) i = openBefore w.pages i := by
  induction i with
  | zero => rfl
  | succ i ih =>
    have hnext : ahead (budgets w) (i+1) = ahead (budgets w) i+if 0 < budgets w i then 1 else 0 := by
      unfold ahead
      rw [Finset.range_add_one, Finset.filter_insert]
      split <;> simp
    rw [hnext, ih, openBefore, openBefore, List.take_add_one, List.countP_append]
    congr 1
    cases hp : w.pages[i]? with
    | none => simp [budgets, hp]
    | some p =>
      have hpos : 0 < budgets w i ↔ isOpen p = true := by
        rw [budgets_pos_iff, hp]
        simp
      simp [hpos]

theorem served_iff {b : ℕ} {w : PageWorkflow} {i : ℕ} :
    Served w.pages.length b (budgets w) i ↔ ∃ attempt, HandedOut b w i attempt := by
  unfold Served HandedOut
  rw [ahead_budgets, budgets_pos_iff]
  constructor
  · rintro ⟨_,⟨p,hp,hopen⟩,hlt⟩
    obtain ⟨attempt,ha⟩ := (isOpen_iff p).mp hopen
    exact ⟨attempt,p,hp,hlt,ha⟩
  · rintro ⟨attempt,p,hp,hlt,ha⟩
    exact ⟨(List.getElem?_eq_some_iff.mp hp).1,⟨p,hp,(isOpen_iff p).mpr ⟨attempt,ha⟩⟩,hlt⟩

/-- An outcome costs its page at least one attempt, a retryable failure just one. -/
theorem budget_progress {maxAttempts attempt : ℕ} {p : PageProgress}
    (hp : p.valid maxAttempts = true) (hmax : maxAttempts ≤ 10)
    (ha : p.claimAttempt = some attempt) (r : Record) :
    budget maxAttempts (r.progress maxAttempts attempt) < budget maxAttempts p ∧
      (r = .retryableFailure →
        budget maxAttempts (r.progress maxAttempts attempt) = budget maxAttempts p-1) := by
  have hbudget : budget maxAttempts p = maxAttempts+1-attempt ∧ 1 ≤ attempt ∧ attempt ≤ maxAttempts := by
    cases p <;> simp [PageProgress.claimAttempt, saturatingSucc, PageProgress.valid, budget] at * <;>
      omega
  obtain ⟨heq,hlow,hhigh⟩ := hbudget
  rw [heq]
  cases r with
  | success =>
    simp only [Record.progress, budget]
    exact ⟨by omega,fun h => Record.noConfusion h⟩
  | permanentFailure =>
    simp only [Record.progress, budget]
    exact ⟨by omega,fun h => Record.noConfusion h⟩
  | retryableFailure =>
    simp only [Record.progress]
    split <;> simp only [budget] <;> omega

section Rounds
variable {b : ℕ} {w w' : PageWorkflow} {xs : List (PageTask × PageOutcome)} (h : Pass b w xs w')
include h

theorem pass_served {i attempt : ℕ} (hi : HandedOut b w i attempt) :
    ∃ outcome, (taskAt w i attempt,outcome) ∈ xs ∧ budgets w' i < budgets w i ∧
      (recordOf outcome = .retryableFailure → budgets w' i = budgets w i-1) := by
  obtain ⟨outcome,hm,hpage⟩ := h.served i attempt hi
  obtain ⟨p,hp,_,ha⟩ := hi
  have hcost := budget_progress (valid_get hp) w.attempts_bounded.2 ha (recordOf outcome)
  refine ⟨outcome,hm,?_⟩
  simp only [budgets, hpage, hp, h.plan.maxAttempts, Option.elim_some]
  exact hcost

theorem pass_kept {i : ℕ} (hi : ∀ attempt, ¬HandedOut b w i attempt) :
    budgets w' i = budgets w i := by
  simp only [budgets, h.kept i hi, h.plan.maxAttempts]

theorem pass_round : Round w.pages.length b (budgets w) (budgets w') where
  spent := by
    intro i hi
    obtain ⟨attempt,hi⟩ := served_iff.mp hi
    obtain ⟨_,_,hlt,_⟩ := pass_served h hi
    exact hlt
  kept := by
    intro i hi
    exact pass_kept h fun attempt ha => hi (served_iff.mpr ⟨attempt,ha⟩)

end Rounds

end DocumentIntelligence.PageRounds
