import DocumentIntelligence.PageRounds
import DocumentIntelligence.Transition

/-!
# Histories of a checkpoint

A history is a checkpoint with the trace of what was done to it, newest event
first: the tasks which were handed out and the outcomes which were accepted. The
progress of a page says exactly which of its outcomes were accepted, and this is
what every operation keeps.
-/

set_option autoImplicit false

namespace DocumentIntelligence.PageHistories
open Identifiers (JobId)
open PageCheckpoint PageRounds Transition

inductive Operation where
  | claimReady (limit : ℕ)
  | record (task : PageTask) (r : Record)
  | requestCancellation
  deriving DecidableEq, Repr

inductive Event where
  | handedOut (task : PageTask)
  | accepted (task : PageTask) (r : Record)
  deriving DecidableEq, Repr

structure History where
  workflow : PageWorkflow
  trace : List Event
  deriving DecidableEq, Repr

/-- A refused operation leaves the checkpoint as it is. -/
def step (h : History) : Operation → History
  | .claimReady limit => match h.workflow.claimReady limit with
    | .ok (workflow, tasks) => ⟨workflow,(tasks.map Event.handedOut).reverse++h.trace⟩
    | .error _ => h
  | .record task r => match h.workflow.record task r with
    | .ok workflow => ⟨workflow,.accepted task r::h.trace⟩
    | .error _ => h
  | .requestCancellation => { h with workflow := h.workflow.requestCancellation }

def Event.acceptedTask : Event → Option PageTask
  | .handedOut _ => none
  | .accepted task _ => some task

/-- The tasks of the accepted outcomes, newest first. -/
def acceptedTasks (trace : List Event) : List PageTask := trace.filterMap Event.acceptedTask

def pageTask (jobId : JobId) (i attempt : ℕ) : PageTask :=
  ⟨1+i,attempt,activityKey jobId (1+i) attempt⟩

theorem pageTask_inj {jobId : JobId} {i j a k : ℕ} (h : pageTask jobId i a = pageTask jobId j k) :
    i = j ∧ a = k := by
  simp only [pageTask, PageTask.mk.injEq] at h
  omega

/-- The outcomes which were accepted for a page with this progress. -/
def outcomeOf : PageProgress → ℕ → Record → Prop
  | .pending failures, a, r => 1 ≤ a ∧ a ≤ failures ∧ r = .retryableFailure
  | .running attempt, a, r => 1 ≤ a ∧ a < attempt ∧ r = .retryableFailure
  | .succeeded attempt, a, r =>
    1 ≤ a ∧ a < attempt ∧ r = .retryableFailure ∨ a = attempt ∧ r = .success
  | .exhausted attempts, a, r => 1 ≤ a ∧ a ≤ attempts ∧ r = .retryableFailure
  | .permanentlyFailed attempt, a, r =>
    1 ≤ a ∧ a < attempt ∧ r = .retryableFailure ∨ a = attempt ∧ r = .permanentFailure

section Progress
variable {maxAttempts : ℕ} {p : PageProgress}

theorem outcomeOf_bounded (hp : p.valid maxAttempts = true) {a : ℕ} {r : Record}
    (h : outcomeOf p a r) : 1 ≤ a ∧ a ≤ maxAttempts := by
  cases p <;> simp [PageProgress.valid, outcomeOf] at hp h <;> omega

/-- A claim accepts nothing. -/
theorem outcomeOf_claim (hp : p.valid maxAttempts = true) (hmax : maxAttempts ≤ 10) (a : ℕ)
    (r : Record) : outcomeOf (claim p) a r ↔ outcomeOf p a r := by
  cases p with
  | pending failures =>
    simp only [PageProgress.valid, decide_eq_true_eq] at hp
    have hsucc : saturatingSucc failures = failures+1 := by
      unfold saturatingSucc
      omega
    simp only [claim, PageProgress.claimAttempt, Option.map_some, Option.getD_some, outcomeOf, hsucc,
      Nat.lt_succ_iff]
  | _ => exact Iff.rfl

/-- The attempt of a claim follows the retryable failures of the page. -/
theorem claimAttempt_follows (hp : p.valid maxAttempts = true) (hmax : maxAttempts ≤ 10)
    {attempt : ℕ} (h : p.claimAttempt = some attempt) {k : ℕ} (hk : 1 ≤ k) :
    outcomeOf p k .retryableFailure ↔ k < attempt := by
  cases p with
  | pending failures =>
    simp only [PageProgress.valid, decide_eq_true_eq] at hp
    simp only [PageProgress.claimAttempt, saturatingSucc, Option.some.injEq] at h
    simp only [outcomeOf, and_true]
    omega
  | running attempt' =>
    simp only [PageProgress.claimAttempt, Option.some.injEq] at h
    simp only [outcomeOf, and_true, h]
    omega
  | _ => cases h

theorem outcomeOf_record {attempt : ℕ} (hattempt : 1 ≤ attempt) (r : Record) (a : ℕ) (r' : Record) :
    outcomeOf (r.progress maxAttempts attempt) a r' ↔
      outcomeOf (.running attempt) a r' ∨ a = attempt ∧ r' = r := by
  cases r with
  | success => simp only [Record.progress, outcomeOf]
  | permanentFailure => simp only [Record.progress, outcomeOf]
  | retryableFailure =>
    have hsplit : 1 ≤ a ∧ a ≤ attempt ∧ r' = .retryableFailure ↔
        1 ≤ a ∧ a < attempt ∧ r' = .retryableFailure ∨ a = attempt ∧ r' = .retryableFailure := by
      constructor
      · rintro ⟨hlow,hhigh,hr⟩
        by_cases heq : a = attempt
        · exact Or.inr ⟨heq,hr⟩
        · exact Or.inl ⟨hlow,by omega,hr⟩
      · rintro (⟨hlow,hlt,hr⟩ | ⟨heq,hr⟩)
        · exact ⟨hlow,by omega,hr⟩
        · exact ⟨by omega,by omega,hr⟩
    simp only [Record.progress]
    split <;> exact hsplit

end Progress

/-- What the progress of the pages says about the trace. -/
structure Story (h : History) : Prop where
  accepted : ∀ i p, h.workflow.pages[i]? = some p → ∀ a r,
    Event.accepted (pageTask h.workflow.jobId i a) r ∈ h.trace ↔ outcomeOf p a r
  tasks : ∀ task ∈ acceptedTasks h.trace, ∃ i a, i < h.workflow.pages.length ∧
    task = pageTask h.workflow.jobId i a
  once : (acceptedTasks h.trace).Nodup
  running : ∀ i a, h.workflow.pages[i]? = some (.running a) →
    Event.handedOut (pageTask h.workflow.jobId i a) ∈ h.trace
  answers : ∀ task r rest, (Event.accepted task r::rest) <:+ h.trace → Event.handedOut task ∈ rest
  claims : ∀ task rest, (Event.handedOut task::rest) <:+ h.trace → ∃ i,
    i < h.workflow.pages.length ∧ task = pageTask h.workflow.jobId i task.attempt ∧
      1 ≤ task.attempt ∧ task.attempt ≤ h.workflow.maxAttempts ∧
      ∀ k, 1 ≤ k → (Event.accepted (pageTask h.workflow.jobId i k) .retryableFailure ∈ rest ↔
        k < task.attempt)

theorem mem_acceptedTasks {trace : List Event} {task : PageTask} :
    task ∈ acceptedTasks trace ↔ ∃ r, Event.accepted task r ∈ trace := by
  unfold acceptedTasks
  rw [List.mem_filterMap]
  constructor
  · rintro ⟨e,he,htask⟩
    cases e with
    | handedOut t => cases htask
    | accepted t r =>
      cases htask
      exact ⟨r,he⟩
  · rintro ⟨r,he⟩
    exact ⟨_,he,rfl⟩

theorem acceptedTasks_handedOut (tasks : List PageTask) (trace : List Event) :
    acceptedTasks ((tasks.map Event.handedOut).reverse++trace) = acceptedTasks trace := by
  have hnil : (tasks.map Event.handedOut).reverse.filterMap Event.acceptedTask = [] := by
    rw [List.filterMap_eq_nil_iff]
    intro e he
    obtain ⟨t,_,rfl⟩ := List.mem_map.mp (List.mem_reverse.mp he)
    rfl
  rw [acceptedTasks, List.filterMap_append, hnil, List.nil_append]
  rfl

theorem accepted_handedOut {tasks : List PageTask} {trace : List Event} {task : PageTask}
    {r : Record} : Event.accepted task r ∈ (tasks.map Event.handedOut).reverse++trace ↔
      Event.accepted task r ∈ trace := by
  simp

/-- An event of a longer trace is an old one, or new with new events before it. -/
theorem suffix_append_cases {e : Event} {rest xs ys : List Event} (h : (e::rest) <:+ xs++ys) :
    (e::rest) <:+ ys ∨ e ∈ xs ∧ ∃ zs, zs <:+ xs ∧ rest = zs++ys := by
  induction xs with
  | nil => exact Or.inl h
  | cons x xs ih =>
    rw [List.cons_append, List.suffix_cons_iff] at h
    rcases h with h | h
    · rw [List.cons.injEq] at h
      exact Or.inr ⟨by rw [h.1]; exact List.mem_cons_self,xs,List.suffix_cons x xs,h.2⟩
    · rcases ih h with hold | ⟨hm,zs,hzs,hrest⟩
      · exact Or.inl hold
      · exact Or.inr ⟨List.mem_cons_of_mem x hm,zs,hzs.trans (List.suffix_cons x xs),hrest⟩

theorem story_fresh (jobId : JobId) {pageCount maxAttempts : ℕ}
    (hp : 1 ≤ pageCount ∧ pageCount ≤ maximumPageCount)
    (ha : 1 ≤ maxAttempts ∧ maxAttempts ≤ maximumPageAttempts) :
    Story ⟨PageWorkflow.fresh jobId pageCount maxAttempts hp ha,[]⟩ where
  accepted := by
    intro i p hget a r
    have hpending : p = .pending 0 := List.eq_of_mem_replicate (List.mem_of_getElem? hget)
    rw [hpending]
    simp only [List.not_mem_nil, outcomeOf, false_iff]
    omega
  tasks := by
    intro task hm
    cases hm
  once := List.nodup_nil
  running := by
    intro i a hget
    cases List.eq_of_mem_replicate (List.mem_of_getElem? hget)
  answers := by
    intro task r rest h
    cases List.suffix_nil.mp h
  claims := by
    intro task rest h
    cases List.suffix_nil.mp h

section Claim
variable {h : History} (hs : Story h)
include hs

theorem claim_story {limit : ℕ} {w : PageWorkflow} (hplan : SamePlan h.workflow w)
    (hpages : w.pages = (claimPages h.workflow.jobId limit 1 h.workflow.pages).1) :
    Story ⟨w,((tasksOf h.workflow limit).map Event.handedOut).reverse++h.trace⟩ where
  accepted := by
    intro i p hget a r
    have hold := hs.accepted i
    rw [hpages, claimPages_get] at hget
    obtain ⟨q,hq,rfl⟩ := Option.map_eq_some_iff.mp hget
    rw [accepted_handedOut, hplan.jobId, hold q hq]
    split
    · exact (outcomeOf_claim (valid_get hq) h.workflow.attempts_bounded.2 a r).symm
    · exact Iff.rfl
  tasks := by
    intro task hm
    rw [acceptedTasks_handedOut] at hm
    rw [hplan.length, hplan.jobId]
    exact hs.tasks task hm
  once := by
    rw [acceptedTasks_handedOut]
    exact hs.once
  running := by
    intro i a hget
    rw [hpages, claimPages_get] at hget
    obtain ⟨q,hq,hclaim⟩ := Option.map_eq_some_iff.mp hget
    rw [hplan.jobId, List.mem_append, List.mem_reverse]
    by_cases hbefore : openBefore h.workflow.pages i < limit
    · left
      rw [if_pos hbefore] at hclaim
      have hattempt : q.claimAttempt = some a := by
        cases q <;> simp [claim, PageProgress.claimAttempt] at hclaim ⊢ <;> exact hclaim
      exact List.mem_map_of_mem (mem_tasksOf.mpr ⟨i,a,⟨q,hq,hbefore,hattempt⟩,rfl⟩)
    · right
      rw [if_neg hbefore] at hclaim
      exact hs.running i a (hclaim ▸ hq)
  answers := by
    intro task r rest hsuffix
    rcases suffix_append_cases hsuffix with hold | ⟨hm,_⟩
    · exact hs.answers task r rest hold
    · rw [List.mem_reverse, List.mem_map] at hm
      obtain ⟨_,_,heq⟩ := hm
      cases heq
  claims := by
    intro task rest hsuffix
    rw [hplan.length, hplan.jobId, hplan.maxAttempts]
    rcases suffix_append_cases hsuffix with hold | ⟨hm,zs,hzs,rfl⟩
    · exact hs.claims task rest hold
    · rw [List.mem_reverse, List.mem_map] at hm
      obtain ⟨t,ht,heq⟩ := hm
      cases heq
      obtain ⟨i,attempt,⟨p,hp,_,hattempt⟩,rfl⟩ := mem_tasksOf.mp ht
      have hbound := PageProgress.claimAttempt_valid (valid_get hp) hattempt
      refine ⟨i,(List.getElem?_eq_some_iff.mp hp).1,rfl,hbound.1,hbound.2,?_⟩
      intro k hk
      have hold : Event.accepted (pageTask h.workflow.jobId i k) .retryableFailure ∈ zs++h.trace ↔
          Event.accepted (pageTask h.workflow.jobId i k) .retryableFailure ∈ h.trace := by
        rw [List.mem_append, or_iff_right]
        intro hzm
        have hnew := hzs.subset hzm
        rw [List.mem_reverse, List.mem_map] at hnew
        obtain ⟨_,_,heq⟩ := hnew
        cases heq
      rw [hold, hs.accepted i p hp]
      exact claimAttempt_follows (valid_get hp) h.workflow.attempts_bounded.2 hattempt hk

theorem record_story {task : PageTask} {r : Record} {w : PageWorkflow}
    (hactive : h.workflow.activeProgress task = some (task.page-1)) (hplan : SamePlan h.workflow w)
    (hpages : w.pages = h.workflow.pages.set (task.page-1)
      (r.progress h.workflow.maxAttempts task.attempt)) :
    Story ⟨w,.accepted task r::h.trace⟩ := by
  obtain ⟨_,hkey,hpos,hrunning⟩ := activeProgress_iff.mp hactive
  have htask : task = pageTask h.workflow.jobId (task.page-1) task.attempt := by
    have hpage : 1+(task.page-1) = task.page := by omega
    rw [pageTask, hpage, ← hkey]
  have hlength := (List.getElem?_eq_some_iff.mp hrunning).1
  have hattempt := PageWorkflow.activeProgress_attempt hactive
  have hold := hs.accepted (task.page-1) _ hrunning
  refine ⟨?_,?_,?_,?_,?_,?_⟩
  · intro i p hget a r'
    rw [hplan.jobId, List.mem_cons, Event.accepted.injEq]
    rw [hpages] at hget
    by_cases hi : task.page-1 = i
    · rw [← hi, List.getElem?_set_self hlength, Option.some.injEq] at hget
      have hsame : pageTask h.workflow.jobId i a = task ↔ a = task.attempt := by
        rw [htask, hi]
        exact ⟨fun heq => (pageTask_inj heq).2,fun heq => by rw [heq]; rfl⟩
      rw [hsame, ← hget, outcomeOf_record hattempt.1, ← hold, hi]
      exact or_comm
    · rw [List.getElem?_set_ne hi] at hget
      have hother : pageTask h.workflow.jobId i a ≠ task := by
        rw [htask]
        intro heq
        exact hi (pageTask_inj heq).1.symm
      rw [hs.accepted i p hget, or_iff_right]
      exact fun heq => hother heq.1
  · intro t ht
    rw [hplan.length, hplan.jobId]
    rw [acceptedTasks, List.filterMap_cons] at ht
    rcases List.mem_cons.mp ht with rfl | hm
    · exact ⟨_,_,hlength,htask⟩
    · exact hs.tasks t hm
  · show (task::acceptedTasks h.trace).Nodup
    rw [List.nodup_cons]
    refine ⟨?_,hs.once⟩
    intro hm
    obtain ⟨r',hr'⟩ := mem_acceptedTasks.mp hm
    rw [htask, hold] at hr'
    exact absurd hr'.2.1 (lt_irrefl _)
  · intro i a hget
    rw [hplan.jobId]
    rw [hpages] at hget
    by_cases hi : task.page-1 = i
    · rw [← hi, List.getElem?_set_self hlength, Option.some.injEq] at hget
      cases r with
      | retryableFailure =>
        simp only [Record.progress] at hget
        split at hget <;> cases hget
      | _ => cases hget
    · rw [List.getElem?_set_ne hi] at hget
      exact List.mem_cons_of_mem _ (hs.running i a hget)
  · intro t r' rest hsuffix
    rw [List.suffix_cons_iff] at hsuffix
    rcases hsuffix with heq | hrest
    · rw [List.cons.injEq, Event.accepted.injEq] at heq
      rw [heq.2, heq.1.1, htask]
      exact hs.running _ _ hrunning
    · exact hs.answers t r' rest hrest
  · intro t rest hsuffix
    rw [hplan.length, hplan.jobId, hplan.maxAttempts]
    rw [List.suffix_cons_iff] at hsuffix
    rcases hsuffix with heq | hrest
    · cases (List.cons.inj heq).1
    · exact hs.claims t rest hrest

end Claim

theorem record_ok_iff {w : PageWorkflow} {task : PageTask} {r : Record} :
    (∃ w', w.record task r = .ok w') ↔ w.activeProgress task = some (task.page-1) := by
  constructor
  · rintro ⟨w',hrecord⟩
    cases hactive : w.activeProgress task with
    | none =>
      unfold PageWorkflow.record at hrecord
      split at hrecord
      · cases hrecord
      · rename_i j hj
        rw [hactive] at hj
        cases hj
    | some i =>
      unfold PageWorkflow.activeProgress at hactive
      split at hactive
      · cases hactive
      · split at hactive
        · exact hactive.symm
        · cases hactive
  · intro hactive
    obtain ⟨w',hrecord,_⟩ := record_ok r hactive
    exact ⟨w',hrecord⟩

theorem record_error {w : PageWorkflow} {task : PageTask} {r : Record} {e : PageCheckpoint.Error}
    (h : w.record task r = .error e) : e = .stalePageTask := by
  unfold PageWorkflow.record at h
  split at h
  · cases h
    rfl
  · cases h

theorem step_cancelled {h : History} (hc : h.workflow.cancelled = true) (o : Operation) :
    step h o = h := by
  cases o with
  | claimReady limit =>
    simp only [step, PageWorkflow.claimReady, hc, if_true]
    split
    · rename_i heq
      split at heq
      · cases heq
      · cases heq
        rfl
    · rfl
  | record task r =>
    simp only [step]
    cases hrecord : h.workflow.record task r with
    | error e => rfl
    | ok w =>
      have hactive := (record_ok_iff (r := r)).mp ⟨w,hrecord⟩
      rw [activeProgress_iff, hc] at hactive
      cases hactive.1
  | requestCancellation =>
    obtain ⟨⟨jobId,maxAttempts,pages,cancelled,_,_,_⟩,trace⟩ := h
    cases hc
    rfl

/-- An operation which is not a cancellation keeps the plan. -/
theorem step_cases (h : History) (o : Operation) :
    step h o = h ∨ step h o = { h with workflow := h.workflow.requestCancellation } ∨
    (∃ limit w, 1 ≤ limit ∧ limit ≤ 64 ∧ h.workflow.cancelled = false ∧ SamePlan h.workflow w ∧
      w.pages = (claimPages h.workflow.jobId limit 1 h.workflow.pages).1 ∧
      step h o = ⟨w,((tasksOf h.workflow limit).map Event.handedOut).reverse++h.trace⟩) ∨
    ∃ task r w, h.workflow.activeProgress task = some (task.page-1) ∧ SamePlan h.workflow w ∧
      w.pages = h.workflow.pages.set (task.page-1)
        (r.progress h.workflow.maxAttempts task.attempt) ∧
      step h o = ⟨w,.accepted task r::h.trace⟩ := by
  by_cases hc : h.workflow.cancelled = true
  · exact Or.inl (step_cancelled hc o)
  · rw [Bool.not_eq_true] at hc
    cases o with
    | claimReady limit =>
      by_cases hlimit : 1 ≤ limit ∧ limit ≤ 64
      · obtain ⟨w,hclaim,hplan,hpages⟩ := claimReady_ok hlimit hc
        refine Or.inr (Or.inr (Or.inl ⟨limit,w,hlimit.1,hlimit.2,hc,hplan,hpages,?_⟩))
        simp only [step, hclaim]
      · have hrefused : limit < 1 ∨ 64 < limit := by omega
        left
        simp only [step, PageWorkflow.claimReady, if_pos hrefused]
    | record task r =>
      by_cases hactive : h.workflow.activeProgress task = some (task.page-1)
      · obtain ⟨w,hrecord,hplan,hpages⟩ := record_ok r hactive
        refine Or.inr (Or.inr (Or.inr ⟨task,r,w,hactive,hplan,hpages,?_⟩))
        simp only [step, hrecord]
      · left
        cases hrecord : h.workflow.record task r with
        | error e => simp only [step, hrecord]
        | ok w => exact absurd ((record_ok_iff (r := r)).mp ⟨w,hrecord⟩) hactive
    | requestCancellation => exact Or.inr (Or.inl rfl)

theorem step_story {h : History} (hs : Story h) (o : Operation) : Story (step h o) := by
  rcases step_cases h o with heq | heq | ⟨limit,w,_,_,_,hplan,hpages,heq⟩ |
    ⟨task,r,w,hactive,hplan,hpages,heq⟩
  · rwa [heq]
  · rw [heq]
    exact ⟨hs.accepted,hs.tasks,hs.once,hs.running,hs.answers,hs.claims⟩
  · rw [heq]
    exact claim_story hs hplan hpages
  · rw [heq]
    exact record_story hs hactive hplan hpages

/-- What stays the same through all operations. -/
theorem step_plan (h : History) (o : Operation) :
    (step h o).workflow.jobId = h.workflow.jobId ∧
      (step h o).workflow.maxAttempts = h.workflow.maxAttempts ∧
      (step h o).workflow.pages.length = h.workflow.pages.length := by
  rcases step_cases h o with heq | heq | ⟨_,w,_,_,_,hplan,_,heq⟩ | ⟨_,_,w,_,hplan,_,heq⟩
  · rw [heq]
    exact ⟨rfl,rfl,rfl⟩
  · rw [heq]
    exact ⟨rfl,rfl,rfl⟩
  · rw [heq]
    exact ⟨hplan.jobId,hplan.maxAttempts,hplan.length⟩
  · rw [heq]
    exact ⟨hplan.jobId,hplan.maxAttempts,hplan.length⟩

theorem step_terminal {h : History} {i : ℕ} {p : PageProgress} (hp : h.workflow.pages[i]? = some p)
    (ht : p.isTerminal = true) (o : Operation) : (step h o).workflow.pages[i]? = some p := by
  rcases step_cases h o with heq | heq | ⟨limit,w,_,_,_,_,hpages,heq⟩ |
    ⟨task,r,w,hactive,_,hpages,heq⟩
  · rwa [heq]
  · rwa [heq]
  · have hclaim : claim p = p := by
      rw [claim, (PageProgress.claimAttempt_eq_none p).mpr ht]
      rfl
    rw [heq, hpages, claimPages_get, hp, Option.map_some, hclaim, ite_self]
  · have hother : task.page-1 ≠ i := by
      intro hi
      have hrunning := (activeProgress_iff.mp hactive).2.2.2
      rw [hi, hp, Option.some.injEq] at hrunning
      rw [hrunning] at ht
      cases ht
    rw [heq, hpages, List.getElem?_set_ne hother, hp]

/-- At most one outcome for each attempt of each page. -/
theorem accepted_bounded {h : History} (hs : Story h) :
    (acceptedTasks h.trace).length ≤ h.workflow.pages.length*h.workflow.maxAttempts := by
  have hsub : (acceptedTasks h.trace).toFinset ⊆
      (Finset.range h.workflow.pages.length ×ˢ Finset.Icc 1 h.workflow.maxAttempts).image
        fun x => pageTask h.workflow.jobId x.1 x.2 := by
    intro task hm
    rw [List.mem_toFinset] at hm
    obtain ⟨i,a,hi,rfl⟩ := hs.tasks task hm
    obtain ⟨r,hr⟩ := mem_acceptedTasks.mp hm
    have hp := List.getElem?_eq_getElem hi
    rw [hs.accepted i _ hp] at hr
    have hbound := outcomeOf_bounded (valid_get hp) hr
    rw [Finset.mem_image]
    exact ⟨(i,a),Finset.mem_product.mpr
      ⟨Finset.mem_range.mpr hi,Finset.mem_Icc.mpr hbound⟩,rfl⟩
  calc (acceptedTasks h.trace).length
      = (acceptedTasks h.trace).toFinset.card := (List.toFinset_card_of_nodup hs.once).symm
    _ ≤ _ := Finset.card_le_card hsub
    _ ≤ (Finset.range h.workflow.pages.length ×ˢ Finset.Icc 1 h.workflow.maxAttempts).card :=
        Finset.card_image_le
    _ = h.workflow.pages.length*h.workflow.maxAttempts := by simp

theorem accepted_once {h : History} (hs : Story h) :
    ((acceptedTasks h.trace).map fun task => (task.page,task.attempt)).Nodup := by
  apply List.Nodup.map_on _ hs.once
  intro t ht t' ht' heq
  obtain ⟨i,a,_,rfl⟩ := hs.tasks t ht
  obtain ⟨j,k,_,rfl⟩ := hs.tasks t' ht'
  simp only [pageTask, Prod.mk.injEq] at heq
  rw [pageTask, pageTask, heq.1, heq.2]

/-- A task was handed out after all earlier attempts of its page were handed out
and failed retryably, and before any later one. -/
theorem handedOut_follows {h : History} (hs : Story h) {task : PageTask} {rest : List Event}
    (hsuffix : (Event.handedOut task::rest) <:+ h.trace) :
    ∃ i < h.workflow.pages.length, task = pageTask h.workflow.jobId i task.attempt ∧
      1 ≤ task.attempt ∧ task.attempt ≤ h.workflow.maxAttempts ∧ ∀ k, 1 ≤ k →
        (k < task.attempt ↔
          Event.accepted (pageTask h.workflow.jobId i k) .retryableFailure ∈ rest) ∧
        (k < task.attempt → Event.handedOut (pageTask h.workflow.jobId i k) ∈ rest) := by
  obtain ⟨i,hi,htask,hlow,hhigh,hclaims⟩ := hs.claims task rest hsuffix
  refine ⟨i,hi,htask,hlow,hhigh,?_⟩
  intro k hk
  refine ⟨(hclaims k hk).symm,?_⟩
  intro hlt
  obtain ⟨before,after,heq⟩ := List.append_of_mem ((hclaims k hk).mpr hlt)
  have hrest : after <:+ rest := ⟨before++[_],by rw [heq, List.append_assoc]; rfl⟩
  have hanswer : (Event.accepted (pageTask h.workflow.jobId i k) .retryableFailure::after) <:+
      h.trace := by
    refine List.IsSuffix.trans ⟨before,heq.symm⟩ ?_
    exact (List.suffix_cons (Event.handedOut task) rest).trans hsuffix
  exact hrest.subset (hs.answers _ _ _ hanswer)

theorem record_rejected_iff {w : PageWorkflow} {task : PageTask} {r : Record} :
    w.record task r = .error .stalePageTask ↔ ¬∃ i a, task = pageTask w.jobId i a ∧
      w.pages[i]? = some (.running a) ∧ w.cancelled = false := by
  have hactive : w.activeProgress task = some (task.page-1) ↔ ∃ i a,
      task = pageTask w.jobId i a ∧ w.pages[i]? = some (.running a) ∧ w.cancelled = false := by
    rw [activeProgress_iff]
    constructor
    · rintro ⟨hc,hkey,hpos,hrunning⟩
      have hpage : 1+(task.page-1) = task.page := by omega
      exact ⟨task.page-1,task.attempt,by rw [pageTask, hpage, ← hkey],hrunning,hc⟩
    · rintro ⟨i,a,rfl,hrunning,hc⟩
      have hpage : 1+i-1 = i := by omega
      have hpos : 1+i ≠ 0 := by omega
      simp only [pageTask, hpage]
      exact ⟨hc,trivial,hpos,hrunning⟩
  rw [← hactive, ← record_ok_iff (r := r)]
  cases hrecord : w.record task r with
  | error e => simp [record_error hrecord]
  | ok w' => simp

theorem open_iff (p : PageProgress) :
    isOpen p = true ↔ (∃ k, p = .pending k) ∨ ∃ k, p = .running k := by
  cases p <;> simp [isOpen, PageProgress.isTerminal]

theorem new_ok {jobId : JobId} {pageCount maxAttempts : ℕ} {workflow : PageWorkflow}
    (h : PageWorkflow.new jobId pageCount maxAttempts = .ok workflow) :
    ∃ hp ha, workflow = PageWorkflow.fresh jobId pageCount maxAttempts hp ha := by
  unfold PageWorkflow.new at h
  split at h
  · rename_i hbounds
    cases h
    exact ⟨hbounds.1,hbounds.2,rfl⟩
  · cases h

section Run
variable {jobId : JobId} {pageCount maxAttempts : ℕ} {workflow : PageWorkflow}
  (h : PageWorkflow.new jobId pageCount maxAttempts = .ok workflow)
include h

theorem run_plan (ops : List Operation) :
    (run step ⟨workflow,[]⟩ ops).workflow.jobId = jobId ∧
      (run step ⟨workflow,[]⟩ ops).workflow.maxAttempts = maxAttempts ∧
      (run step ⟨workflow,[]⟩ ops).workflow.pages.length = pageCount := by
  obtain ⟨hp,ha,rfl⟩ := new_ok h
  have hkept : ∀ x : History, ∀ o, x.workflow.jobId = jobId ∧ x.workflow.maxAttempts = maxAttempts ∧
      x.workflow.pages.length = pageCount → (step x o).workflow.jobId = jobId ∧
      (step x o).workflow.maxAttempts = maxAttempts ∧
      (step x o).workflow.pages.length = pageCount := by
    intro x o hx
    obtain ⟨hjob,hmax,hlength⟩ := step_plan x o
    exact ⟨hjob.trans hx.1,hmax.trans hx.2.1,hlength.trans hx.2.2⟩
  apply run_invariant hkept
  exact ⟨rfl,rfl,List.length_replicate⟩

theorem run_story (ops : List Operation) : Story (run step ⟨workflow,[]⟩ ops) := by
  obtain ⟨hp,ha,rfl⟩ := new_ok h
  have hkept : ∀ x o, Story x → Story (step x o) := fun _ o hs => step_story hs o
  exact run_invariant hkept (story_fresh jobId hp ha) ops

/-- A whole run of a checkpoint, under any sequence of operations. -/
theorem run_history (ops : List Operation) :
    let s := run step ⟨workflow,[]⟩ ops
    (∀ task rest, (Event.handedOut task::rest) <:+ s.trace → ∃ i < pageCount,
      task = pageTask jobId i task.attempt ∧ 1 ≤ task.attempt ∧ task.attempt ≤ maxAttempts ∧
      ∀ k, 1 ≤ k →
        (k < task.attempt ↔ Event.accepted (pageTask jobId i k) .retryableFailure ∈ rest) ∧
        (k < task.attempt → Event.handedOut (pageTask jobId i k) ∈ rest)) ∧
    ((acceptedTasks s.trace).map fun task => (task.page,task.attempt)).Nodup ∧
    (acceptedTasks s.trace).length ≤ pageCount*maxAttempts ∧
    (∀ (i : ℕ) (p : PageProgress), s.workflow.pages[i]? = some p → p.isTerminal = true →
      ∀ more, (run step s more).workflow.pages[i]? = some p) ∧
    (s.workflow.status = .running ↔ s.workflow.cancelled = false ∧
      ∃ p ∈ s.workflow.pages, (∃ k, p = .pending k) ∨ ∃ k, p = .running k) ∧
    (∀ task r, (s.workflow.record task r = .error .stalePageTask ↔
        ¬∃ i a : ℕ, task = pageTask jobId i a ∧ s.workflow.pages[i]? = some (.running a) ∧
          s.workflow.cancelled = false) ∧
      (s.workflow.record task r = .error .stalePageTask →
        step s (.record task r) = s)) ∧
    (s.workflow.cancelled = true → ∀ more, run step s more = s) := by
  intro s
  have hs : Story s := run_story h ops
  obtain ⟨hjob,hmax,hlength⟩ := run_plan h ops
  refine ⟨?_,accepted_once hs,?_,?_,?_,?_,?_⟩
  · intro task rest hsuffix
    have hfollows := handedOut_follows hs hsuffix
    rwa [hjob, hmax, hlength] at hfollows
  · have hbound := accepted_bounded hs
    rwa [hmax, hlength] at hbound
  · intro i p hp ht more
    have hkept : ∀ (x : History) o, x.workflow.pages[i]? = some p →
        (step x o).workflow.pages[i]? = some p := fun _ o hx => step_terminal hx ht o
    exact run_invariant hkept hp more
  · rw [status_running_iff]
    simp only [open_iff]
  · intro task r
    refine ⟨?_,fun hrejected => by simp only [step, hrejected]⟩
    rw [record_rejected_iff, hjob]
  · intro hc more
    induction more with
    | nil => rfl
    | cons o more ih => rw [run_cons, step_cancelled hc, ih]

end Run

/-- Two pages, one of which fails at first, and a record which comes too late. -/
theorem retried_page_history :
    (acceptedTasks (run step ⟨PageWorkflow.fresh default 2 2 (by decide) (by decide),[]⟩
      [.claimReady 2,.record (pageTask default 0 1) .retryableFailure,.claimReady 1,
        .record (pageTask default 0 1) .success,.record (pageTask default 0 2) .success,
        .requestCancellation]).trace).length ≤ 2*2 := by
  have hnew : PageWorkflow.new default 2 2 =
      .ok (PageWorkflow.fresh default 2 2 (by decide) (by decide)) := rfl
  exact (run_history hnew _).2.2.1

end DocumentIntelligence.PageHistories
