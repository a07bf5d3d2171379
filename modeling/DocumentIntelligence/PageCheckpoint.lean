import DocumentIntelligence.Identifiers

/-!
# The checkpointed page workflow

One progress value for each page of a job. The bounds which the validating
deserialization demands are fields of the workflow, so claiming and recording
prove that they keep them. Attempts are bytes in the source; every attempt
stays below the maximum of ten, where the saturating successor is exact.
-/

set_option autoImplicit false

namespace DocumentIntelligence.PageCheckpoint
open Identifiers (JobId)

def maximumPageCount : ℕ := 1000
def maximumPageAttempts : ℕ := 10

inductive Error where
  | invalidPageWorkflow
  | stalePageTask
  deriving DecidableEq, Repr

inductive PageWorkflowStatus where
  | running
  | completed
  | partialResult
  | cancelled
  deriving DecidableEq, Repr

@[ext]
structure PageTask where
  page : ℕ
  attempt : ℕ
  activityKey : String
  deriving DecidableEq, Repr

inductive PageProgress where
  | pending (failures : ℕ)
  | running (attempt : ℕ)
  | succeeded (attempt : ℕ)
  | exhausted (attempts : ℕ)
  | permanentlyFailed (attempt : ℕ)
  deriving DecidableEq, Repr

def saturatingSucc (n : ℕ) : ℕ := min (n+1) 255

namespace PageProgress

def valid (maxAttempts : ℕ) : PageProgress → Bool
  | .pending failures => decide (failures < maxAttempts)
  | .running attempt => attempt != 0 && decide (attempt ≤ maxAttempts)
  | .succeeded attempt => attempt != 0 && decide (attempt ≤ maxAttempts)
  | .exhausted attempts => attempts == maxAttempts
  | .permanentlyFailed attempt => attempt != 0 && decide (attempt ≤ maxAttempts)

def isSucceeded : PageProgress → Bool
  | .succeeded _ => true
  | _ => false

def isTerminal : PageProgress → Bool
  | .succeeded _ | .exhausted _ | .permanentlyFailed _ => true
  | _ => false

/-- The attempt under which `claim_ready` hands a page out, if it does. -/
def claimAttempt : PageProgress → Option ℕ
  | .running attempt => some attempt
  | .pending failures => some (saturatingSucc failures)
  | _ => none

theorem claimAttempt_eq_none (p : PageProgress) : p.claimAttempt = none ↔ p.isTerminal = true := by
  cases p <;> simp [claimAttempt, isTerminal]

theorem claimAttempt_valid {maxAttempts attempt : ℕ} {p : PageProgress}
    (hp : p.valid maxAttempts = true) (h : p.claimAttempt = some attempt) :
    1 ≤ attempt ∧ attempt ≤ maxAttempts := by
  cases p <;> simp [claimAttempt, valid, saturatingSucc] at h hp <;> omega

theorem terminal_of_succeeded {p : PageProgress} (h : p.isSucceeded = true) :
    p.isTerminal = true := by
  cases p <;> simp [isSucceeded, isTerminal] at *

end PageProgress

def activityKey (jobId : JobId) (page attempt : ℕ) : String :=
  "ocr-job-" ++ jobId.asStr ++ "-page-" ++ toString page ++ "-attempt-" ++ toString attempt

theorem toString_digits (n : ℕ) : ∀ c ∈ (toString n).toList, c.isDigit = true := by
  intro c hc
  rw [show toString n = Nat.repr n from rfl, Nat.toList_repr] at hc
  exact Nat.isDigit_of_mem_toDigits (by decide) (by decide) hc

/-- A number which other characters follow ends where its digits do. -/
theorem decimal_prefix {n k : ℕ} {r s : List Char} (hr : r.takeWhile Char.isDigit = [])
    (hs : s.takeWhile Char.isDigit = [])
    (h : (toString n).toList++r = (toString k).toList++s) : n = k := by
  have hdigits := congrArg (List.takeWhile Char.isDigit) h
  rw [List.takeWhile_append_of_pos (toString_digits n),
    List.takeWhile_append_of_pos (toString_digits k), hr, hs, List.append_nil, List.append_nil]
    at hdigits
  exact Nat.repr_injective (String.toList_inj.mp hdigits)

/-- The key of a page is not the key of another page of its job. -/
theorem activityKey_page {jobId : JobId} {page page' attempt attempt' : ℕ}
    (h : activityKey jobId page attempt = activityKey jobId page' attempt') : page = page' := by
  simp only [activityKey, String.append_assoc, String.append_right_inj] at h
  have hlist := congrArg String.toList h
  simp only [String.toList_append] at hlist
  exact decimal_prefix rfl rfl hlist

/-- The loop of `claim_ready`: `limit` tasks are still wanted and `page` is
the number of the first page of the list. -/
def claimPages (jobId : JobId) : ℕ → ℕ → List PageProgress → List PageProgress × List PageTask
  | 0, _, ps => (ps, [])
  | _+1, _, [] => ([], [])
  | limit+1, page, p::ps => match p.claimAttempt with
    | none =>
      let rest := claimPages jobId (limit+1) (page+1) ps
      (p::rest.1, rest.2)
    | some attempt =>
      let rest := claimPages jobId limit (page+1) ps
      (.running attempt::rest.1, ⟨page,attempt,activityKey jobId page attempt⟩::rest.2)

theorem claimPages_length (jobId : JobId) (limit page : ℕ) (ps : List PageProgress) :
    (claimPages jobId limit page ps).1.length = ps.length := by
  induction ps generalizing limit page with
  | nil => cases limit <;> rfl
  | cons p ps ih =>
    cases limit with
    | zero => rfl
    | succ limit =>
      simp only [claimPages]
      cases p.claimAttempt <;> simp [ih]

theorem claimPages_valid (jobId : JobId) {maxAttempts : ℕ} (limit page : ℕ) (ps : List PageProgress)
    (h : ps.all (PageProgress.valid maxAttempts) = true) :
    (claimPages jobId limit page ps).1.all (PageProgress.valid maxAttempts) = true := by
  induction ps generalizing limit page with
  | nil => cases limit <;> rfl
  | cons p ps ih =>
    simp only [List.all_cons, Bool.and_eq_true] at h
    cases limit with
    | zero => simpa [claimPages] using h
    | succ limit =>
      simp only [claimPages]
      cases hp : p.claimAttempt with
      | none => simpa [h.1] using ih (limit+1) (page+1) h.2
      | some attempt =>
        have ha := PageProgress.claimAttempt_valid h.1 hp
        have hr := ih limit (page+1) h.2
        simp only [List.all_cons, hr, Bool.and_true, PageProgress.valid, Bool.and_eq_true,
          bne_iff_ne, decide_eq_true_eq]
        omega

structure PageWorkflow where
  jobId : JobId
  maxAttempts : ℕ
  pages : List PageProgress
  cancelled : Bool
  attempts_bounded : 1 ≤ maxAttempts ∧ maxAttempts ≤ maximumPageAttempts
  pages_bounded : 1 ≤ pages.length ∧ pages.length ≤ maximumPageCount
  pages_valid : pages.all (PageProgress.valid maxAttempts) = true
  deriving DecidableEq, Repr

/-- What the serialized checkpoint carries, before validation. -/
structure RawPageWorkflow where
  jobId : JobId
  maxAttempts : ℕ
  pages : List PageProgress
  cancelled : Bool
  deriving DecidableEq, Repr

def RawPageWorkflow.tryInto (raw : RawPageWorkflow) : Except Error PageWorkflow :=
  if h : (1 ≤ raw.maxAttempts ∧ raw.maxAttempts ≤ maximumPageAttempts) ∧
      (1 ≤ raw.pages.length ∧ raw.pages.length ≤ maximumPageCount) ∧
      raw.pages.all (PageProgress.valid raw.maxAttempts) = true then
    .ok ⟨raw.jobId,raw.maxAttempts,raw.pages,raw.cancelled,h.1,h.2.1,h.2.2⟩
  else .error .invalidPageWorkflow

namespace PageWorkflow

def fresh (jobId : JobId) (pageCount maxAttempts : ℕ)
    (hp : 1 ≤ pageCount ∧ pageCount ≤ maximumPageCount)
    (ha : 1 ≤ maxAttempts ∧ maxAttempts ≤ maximumPageAttempts) : PageWorkflow where
  jobId := jobId
  maxAttempts := maxAttempts
  pages := List.replicate pageCount (.pending 0)
  cancelled := false
  attempts_bounded := ha
  pages_bounded := by simpa using hp
  pages_valid := by
    have := ha.1
    simp [PageProgress.valid]
    omega

def new (jobId : JobId) (pageCount maxAttempts : ℕ) : Except Error PageWorkflow :=
  if h : (1 ≤ pageCount ∧ pageCount ≤ maximumPageCount) ∧
      (1 ≤ maxAttempts ∧ maxAttempts ≤ maximumPageAttempts) then
    .ok (fresh jobId pageCount maxAttempts h.1 h.2)
  else .error .invalidPageWorkflow

def status (w : PageWorkflow) : PageWorkflowStatus :=
  if w.cancelled then .cancelled
  else if w.pages.all PageProgress.isSucceeded then .completed
  else if w.pages.all PageProgress.isTerminal then .partialResult
  else .running

theorem status_cancelled_iff (w : PageWorkflow) : w.status = .cancelled ↔ w.cancelled = true := by
  unfold status
  cases w.cancelled with
  | true => simp
  | false =>
    simp only [Bool.false_eq_true, if_false, iff_false]
    split
    · decide
    · split <;> decide

def successfulPageCount (w : PageWorkflow) : ℕ := (w.pages.filter PageProgress.isSucceeded).length

def claimReady (w : PageWorkflow) (limit : ℕ) : Except Error (PageWorkflow × List PageTask) :=
  if limit < 1 ∨ 64 < limit then .error .invalidPageWorkflow
  else if w.cancelled then .ok (w, [])
  else
    let claimed := claimPages w.jobId limit 1 w.pages
    .ok ({ w with
      pages := claimed.1
      pages_bounded := by rw [claimPages_length]; exact w.pages_bounded
      pages_valid := claimPages_valid w.jobId limit 1 w.pages w.pages_valid },
      claimed.2)

/-- The index of the page a task may still report on. -/
def activeProgress (w : PageWorkflow) (task : PageTask) : Option ℕ :=
  if w.cancelled ∨ task.activityKey ≠ activityKey w.jobId task.page task.attempt ∨
      task.page = 0 then none
  else if w.pages[task.page-1]? = some (.running task.attempt) then some (task.page-1)
  else none

end PageWorkflow

inductive Record where
  | success
  | retryableFailure
  | permanentFailure
  deriving DecidableEq, Repr

def Record.progress (maxAttempts attempt : ℕ) : Record → PageProgress
  | .success => .succeeded attempt
  | .retryableFailure => if attempt = maxAttempts then .exhausted attempt else .pending attempt
  | .permanentFailure => .permanentlyFailed attempt

theorem record_progress_valid {maxAttempts attempt : ℕ} (record : Record)
    (h : 1 ≤ attempt ∧ attempt ≤ maxAttempts) :
    (record.progress maxAttempts attempt).valid maxAttempts = true := by
  cases record with
  | success => simp [Record.progress, PageProgress.valid]; omega
  | retryableFailure =>
    simp only [Record.progress]
    split <;> simp [PageProgress.valid] <;> omega
  | permanentFailure => simp [Record.progress, PageProgress.valid]; omega

theorem all_set_of_valid {p : PageProgress → Bool} {ps : List PageProgress} {q : PageProgress}
    (i : ℕ) (h : ps.all p = true) (hq : p q = true) : (ps.set i q).all p = true := by
  rw [List.all_eq_true] at *
  intro x hx
  rcases List.mem_or_eq_of_mem_set hx with hx | rfl
  · exact h x hx
  · exact hq

namespace PageWorkflow

theorem activeProgress_running {w : PageWorkflow} {task : PageTask} {i : ℕ}
    (h : w.activeProgress task = some i) : w.pages[i]? = some (.running task.attempt) := by
  unfold activeProgress at h
  split at h
  · cases h
  · split at h
    · rename_i hr
      cases h
      exact hr
    · cases h

theorem activeProgress_attempt {w : PageWorkflow} {task : PageTask} {i : ℕ}
    (h : w.activeProgress task = some i) : 1 ≤ task.attempt ∧ task.attempt ≤ w.maxAttempts := by
  have hm := List.mem_of_getElem? (activeProgress_running h)
  have hv := List.all_eq_true.mp w.pages_valid _ hm
  simp [PageProgress.valid] at hv
  omega

/-- The shared body of the three `record_*` functions. -/
def record (w : PageWorkflow) (task : PageTask) (r : Record) : Except Error PageWorkflow :=
  match h : w.activeProgress task with
  | none => .error .stalePageTask
  | some i => .ok { w with
      pages := w.pages.set i (r.progress w.maxAttempts task.attempt)
      pages_bounded := by simpa using w.pages_bounded
      pages_valid := all_set_of_valid i w.pages_valid
        (record_progress_valid r (activeProgress_attempt h)) }

def recordSuccess (w : PageWorkflow) (task : PageTask) : Except Error PageWorkflow :=
  w.record task .success

def recordRetryableFailure (w : PageWorkflow) (task : PageTask) : Except Error PageWorkflow :=
  w.record task .retryableFailure

def recordPermanentFailure (w : PageWorkflow) (task : PageTask) : Except Error PageWorkflow :=
  w.record task .permanentFailure

def isSuccessfulTask (w : PageWorkflow) (task : PageTask) : Bool :=
  task.page != 0 && task.activityKey == activityKey w.jobId task.page task.attempt &&
    w.pages[task.page-1]? == some (.succeeded task.attempt)

def requestCancellation (w : PageWorkflow) : PageWorkflow := { w with cancelled := true }

end PageWorkflow
end DocumentIntelligence.PageCheckpoint
