import DocumentIntelligence.JobLifecycle

/-!
# The cache of job statuses

A request caches the status which it read before it responds. A write replaces
the entry whatever it holds, so a request which read the job before it became
terminal can replace a terminal entry afterwards, and a terminal status whose
write is lost leaves an older entry in place. Along the runs where neither
happens, a terminal status which was reported is never taken back.
-/

set_option autoImplicit false

namespace DocumentIntelligence.JobStatusCache
open Identifiers hiding Error
open Schema Jobs Outbox Commands Transition
open JobLifecycle (Lifecycle statusOf statusOf_of_mem settled finished committable step_kept step_status
  lifecycle_empty)
open OutboxExhaustion (Inv inv_empty)

/-- The statuses which the policy keeps under the terminal lifetime. -/
def isTerminal : JobState → Bool
  | .cancelled | .rejected | .partialResult | .reviewRequired | .completed => true
  | _ => false

structure CacheRecord where
  scope : Scope
  jobId : JobId
  status : JobState
  createdAt : ℤ
  deriving DecidableEq, Repr

def CacheRecord.new (scope : Scope) (job : StoredJob) : CacheRecord :=
  ⟨scope,job.jobId,job.state,job.createdAt⟩

def CacheRecord.matchesScope (scope : Scope) (jobId : JobId) (record : CacheRecord) : Bool :=
  record.scope == scope && record.jobId == jobId

/-- Where a request of the interface is; `late` marks a `get_job` which started
after a terminal status had been reported. -/
inductive Phase where
  | idle
  | getting (late : Bool)
  | missed (late : Bool)
  | caching (late : Bool) (job : StoredJob)
  | responding (late : Bool) (status : JobState)
  deriving DecidableEq, Repr

structure Response where
  status : JobState
  late : Bool
  deriving DecidableEq, Repr

/-- The store, the entry of the job and the requests about it. -/
structure System where
  store : Store
  cache : Option CacheRecord
  requests : ℕ → Phase
  responses : List Response

inductive Action where
  | other (a : OutboxExhaustion.Action)
  | startGet (i : ℕ)
  | readCache (i : ℕ) (fails : Bool)
  | loadJob (i : ℕ)
  | cancel (i : ℕ) (now : ℤ)
  | create (i : ℕ) (now : ℤ) (request : CreateJob)
  | putCache (i : ℕ) (lost : Bool)
  | respond (i : ℕ)
  | expire
  | drop (i : ℕ)

def find (s : Store) (scope : Scope) (jobId : JobId) : Option StoredJob :=
  (s.jobs.find? (isJob scope jobId)).map storedJob

/-- A failed or timed-out read is a miss, and so is an entry of another scope. -/
def readCachedJobStatus (scope : Scope) (jobId : JobId) (fails : Bool)
    (cache : Option CacheRecord) : Option CacheRecord :=
  if fails then none else cache.filter (CacheRecord.matchesScope scope jobId)

def System.enter (σ : System) (i : ℕ) (phase : Phase) : System :=
  { σ with requests := Function.update σ.requests i phase }

/-- A terminal status has been reported. -/
def reported (σ : System) : Bool := σ.responses.any fun r => isTerminal r.status

section
variable (scope : Scope) (jobId : JobId)

def step (σ : System) : Action → System
  | .other a => { σ with store := OutboxExhaustion.step σ.store a }
  | .startGet i => σ.enter i (.getting (reported σ))
  | .readCache i fails => match σ.requests i with
    | .getting late => match readCachedJobStatus scope jobId fails σ.cache with
      | some record => σ.enter i (.responding late record.status)
      | none => σ.enter i (.missed late)
    | _ => σ
  | .loadJob i => match σ.requests i with
    | .missed late => match find σ.store scope jobId with
      | some job => σ.enter i (.caching late job)
      | none => σ.enter i .idle
    | _ => σ
  | .cancel i now => match Jobs.cancel σ.store now scope jobId with
    | .ok (.requested job, s) | .ok (.existing job, s) =>
      { σ.enter i (.caching false job) with store := s }
    | .ok (_, s) => { σ.enter i .idle with store := s }
    | .error _ => σ.enter i .idle
  | .create i now request => match Jobs.create σ.store now request with
    | .ok (.created job, s) | .ok (.existing job, s) =>
      -- A creation of another job caches under another key.
      if request.scope = scope ∧ job.jobId = jobId then
        { σ.enter i (.caching false job) with store := s }
      else { σ.enter i .idle with store := s }
    | .error _ => σ.enter i .idle
  | .putCache i lost => match σ.requests i with
    | .caching late job =>
      { σ.enter i (.responding late job.state) with
        cache := if lost then σ.cache else some (CacheRecord.new scope job) }
    | _ => σ
  | .respond i => match σ.requests i with
    | .responding late status =>
      { σ.enter i .idle with responses := ⟨status,late⟩::σ.responses }
    | _ => σ
  | .expire => { σ with cache := none }
  | .drop i => σ.enter i .idle

def initial : System := ⟨empty,none,fun _ => .idle,[]⟩

/-- No `get_job` which started after a terminal status had been reported
reports another one. -/
def NeverUnseen (σ : System) : Prop := ∀ r ∈ σ.responses, r.late = true → isTerminal r.status = true

instance (σ : System) : Decidable (NeverUnseen σ) :=
  inferInstanceAs (Decidable (∀ r ∈ σ.responses, _))

/-- The stored job is terminal. -/
def storedTerminal (s : Store) : Bool := (statusOf s jobId).any isTerminal

/-- A status which is not terminal is not written once the stored job is, and
the write of a terminal status is not lost over an entry which is not. -/
def KeepsTerminal (σ : System) : Action → Prop
  | .putCache i lost => match σ.requests i with
    | .caching _ job =>
      if lost then isTerminal job.state = true → ∀ record ∈ σ.cache, isTerminal record.status = true
      else isTerminal job.state = false → storedTerminal jobId σ.store = false
    | _ => True
  | _ => True

instance (σ : System) (a : Action) : Decidable (KeepsTerminal jobId σ a) := by
  unfold KeepsTerminal
  split
  · split
    · split <;> infer_instance
    · infer_instance
  · infer_instance

end

section
variable {scope : Scope} {jobId : JobId}

theorem settled_of_terminal {status : JobState} (h : isTerminal status = true)
    (hcommittable : committable status = true) : settled status = true := by
  cases status <;> first | rfl | exact absurd h (by decide) | exact absurd hcommittable (by decide)

theorem storedTerminal_iff {s : Store} : storedTerminal jobId s = true ↔
    ∃ status, statusOf s jobId = some status ∧ isTerminal status = true := by
  rw [storedTerminal, Option.any_eq_true]

theorem storedTerminal_step {s : Store} (h : Inv s ∧ Lifecycle s) (a : OutboxExhaustion.Action)
    (hterminal : storedTerminal jobId s = true) :
    storedTerminal jobId (OutboxExhaustion.step s a) = true := by
  rw [storedTerminal_iff] at *
  obtain ⟨status,hstatus,hterminal⟩ := hterminal
  obtain ⟨job,hjob,_,hjobStatus⟩ := JobLifecycle.mem_of_statusOf hstatus
  have hsettled := settled_of_terminal hterminal (hjobStatus ▸ h.2.statuses job hjob)
  obtain ⟨new,hnew,_,hkept⟩ := step_status h a hstatus
  exact ⟨new,hnew,hkept hsettled ▸ hterminal⟩

/-- The status of a stored job is what `find` answers. -/
theorem stored_job {s : Store} (h : Lifecycle s) {job : JobRow} (hjob : job ∈ s.jobs)
    (hid : job.jobId = jobId) : storedTerminal jobId s = isTerminal job.status := by
  rw [storedTerminal, ← hid, statusOf_of_mem h hjob, Option.any_some]

theorem find_terminal {s : Store} (h : Lifecycle s) {job : StoredJob}
    (hfind : find s scope jobId = some job) : storedTerminal jobId s = isTerminal job.state := by
  obtain ⟨row,hrow,rfl⟩ := Option.map_eq_some_iff.mp hfind
  obtain ⟨hmem,hkey⟩ := Table.mem_of_find? hrow
  exact stored_job h hmem ((isJob_iff _ _ _).mp hkey).2

/-- The job which a cancellation answers is the stored one. -/
theorem cancel_terminal {s s' : Store} {now : ℤ} (h : Inv s ∧ Lifecycle s) {outcome : CancelOutcome}
    (hcancel : Jobs.cancel s now scope jobId = .ok (outcome,s')) :
    s' = OutboxExhaustion.step s (.command now (.cancel scope jobId)) ∧
      ∀ job, outcome = .requested job ∨ outcome = .existing job →
        storedTerminal jobId s' = isTerminal job.state := by
  have hstep : s' = OutboxExhaustion.step s (.command now (.cancel scope jobId)) := by
    simp only [OutboxExhaustion.step, execute, hcancel, commit_ok]
  have hlifecycle : Lifecycle s' := hstep ▸ (step_kept h (.command now (.cancel scope jobId))).2
  refine ⟨hstep,?_⟩
  simp only [Jobs.cancel] at hcancel
  split at hcancel
  · cases hcancel
    intro job hjob
    rcases hjob with hjob | hjob <;> cases hjob
  · rename_i row hfind
    obtain ⟨hrow,hkey⟩ := Table.mem_of_find? hfind
    have hid := ((isJob_iff _ _ _).mp hkey).2
    split at hcancel
    · cases hcancel
      intro job hjob
      have hcancelled : setStatus .cancelled row ∈ (cancelRow s now scope jobId).jobs :=
        Table.mem_update_changed hrow hkey
      rcases hjob with hjob | hjob
      · cases hjob
        exact stored_job hlifecycle hcancelled hid
      · cases hjob
    · split at hcancel
      · cases hcancel
        intro job hjob
        rcases hjob with hjob | hjob
        · cases hjob
        · cases hjob
          exact stored_job hlifecycle hrow hid
      · cases hcancel
        intro job hjob
        rcases hjob with hjob | hjob <;> cases hjob

variable (jobId) in
theorem create_terminal {s s' : Store} {now : ℤ} (h : Inv s ∧ Lifecycle s) {request : CreateJob}
    {outcome : CreateOutcome} (hcreate : Jobs.create s now request = .ok (outcome,s')) :
    s' = OutboxExhaustion.step s (.command now (.create request)) ∧
      ∀ job, outcome = .created job ∨ outcome = .existing job → job.jobId = jobId →
        storedTerminal jobId s' = isTerminal job.state := by
  have hstep : s' = OutboxExhaustion.step s (.command now (.create request)) := by
    simp only [OutboxExhaustion.step, execute, hcreate, commit_ok]
  have hlifecycle : Lifecycle s' := hstep ▸ (step_kept h (.command now (.create request))).2
  refine ⟨hstep,?_⟩
  simp only [Jobs.create] at hcreate
  split at hcreate
  · cases hcreate
  · split at hcreate
    · rename_i row hfind
      have hrow := (Table.mem_of_find? hfind).1
      split at hcreate
      · cases hcreate
      · cases hcreate
        intro job hjob hid
        rcases hjob with hjob | hjob
        · cases hjob
        · cases hjob
          exact stored_job hlifecycle hrow hid
    · split at hcreate
      · cases hcreate
      · split at hcreate
        · cases hcreate
        · cases hcreate
          intro job hjob hid
          have hcreated : request.row now ∈ (createRow s now request).jobs :=
            List.mem_append_right _ (List.mem_singleton.mpr rfl)
          rcases hjob with hjob | hjob
          · cases hjob
            exact stored_job hlifecycle hcreated hid
          · cases hjob

/-! ## The invariant -/

variable (jobId) in
/-- Whoever reads from now on reads a terminal status. -/
def Seen (σ : System) : Prop :=
  storedTerminal jobId σ.store = true ∧ ∀ record ∈ σ.cache, isTerminal record.status = true

variable (jobId) in
def PhaseOk (σ : System) : Phase → Prop
  | .idle => True
  | .getting late | .missed late => late = true → Seen jobId σ
  | .caching late job => (isTerminal job.state = true → storedTerminal jobId σ.store = true) ∧
      (late = true → isTerminal job.state = true ∧ Seen jobId σ)
  | .responding late status => (isTerminal status = true → Seen jobId σ) ∧
      (late = true → isTerminal status = true)

variable (jobId) in
structure Sound (σ : System) : Prop where
  store : Inv σ.store ∧ Lifecycle σ.store
  reported : reported σ = true → Seen jobId σ
  entry : ∀ record ∈ σ.cache, isTerminal record.status = true → storedTerminal jobId σ.store = true
  phases : ∀ i, PhaseOk jobId σ (σ.requests i)
  unseen : NeverUnseen σ

theorem sound_initial : Sound jobId initial where
  store := ⟨inv_empty,lifecycle_empty⟩
  reported := fun h => by cases h
  entry := fun _ h => by cases h
  phases := fun _ => trivial
  unseen := fun _ h => absurd h List.not_mem_nil

theorem phase_kept {σ σ' : System}
    (hstored : storedTerminal jobId σ.store = true → storedTerminal jobId σ'.store = true)
    (hseen : Seen jobId σ → Seen jobId σ') {phase : Phase} (h : PhaseOk jobId σ phase) :
    PhaseOk jobId σ' phase := by
  cases phase with
  | idle => trivial
  | getting late => exact fun hlate => hseen (h hlate)
  | missed late => exact fun hlate => hseen (h hlate)
  | caching late job =>
    exact ⟨fun hterminal => hstored (h.1 hterminal),fun hlate => (h.2 hlate).imp_right hseen⟩
  | responding late status => exact ⟨fun hterminal => hseen (h.1 hterminal),h.2⟩

/-- A step which reports nothing. -/
theorem sound_step {σ σ' : System} (h : Sound jobId σ)
    (hstore : Inv σ'.store ∧ Lifecycle σ'.store)
    (hstored : storedTerminal jobId σ.store = true → storedTerminal jobId σ'.store = true)
    (hseen : Seen jobId σ → Seen jobId σ')
    (hentry : ∀ record ∈ σ'.cache, isTerminal record.status = true →
      storedTerminal jobId σ'.store = true)
    (hphases : ∀ i, σ'.requests i = σ.requests i ∨ PhaseOk jobId σ' (σ'.requests i))
    (hresponses : σ'.responses = σ.responses) : Sound jobId σ' where
  store := hstore
  reported := by
    intro hreported
    apply hseen
    apply h.reported
    rw [JobStatusCache.reported, ← hresponses]
    exact hreported
  entry := hentry
  phases := by
    intro i
    rcases hphases i with hsame | hnew
    · rw [hsame]
      exact phase_kept hstored hseen (h.phases i)
    · exact hnew
  unseen := by
    rw [NeverUnseen, hresponses]
    exact h.unseen

theorem enter_phases {σ σ' : System} (i : ℕ) {phase : Phase}
    (hrequests : σ'.requests = Function.update σ.requests i phase)
    (hphase : PhaseOk jobId σ' phase) :
    ∀ j, σ'.requests j = σ.requests j ∨ PhaseOk jobId σ' (σ'.requests j) := by
  intro j
  rw [hrequests]
  by_cases hj : j = i
  · right
    rw [hj, Function.update_self]
    exact hphase
  · left
    rw [Function.update_of_ne hj]

theorem sound_enter {σ : System} (h : Sound jobId σ) (i : ℕ) {phase : Phase}
    (hphase : PhaseOk jobId σ phase) : Sound jobId (σ.enter i phase) :=
  sound_step h h.store id id h.entry (enter_phases i rfl hphase) rfl

/-- A transaction of the store, after which the request goes on. -/
theorem sound_transaction {σ : System} (h : Sound jobId σ) {s : Store}
    {a : OutboxExhaustion.Action} (hs : s = OutboxExhaustion.step σ.store a) (i : ℕ) {phase : Phase}
    (hphase : PhaseOk jobId { σ.enter i phase with store := s } phase) :
    Sound jobId { σ.enter i phase with store := s } := by
  have hstored : storedTerminal jobId σ.store = true → storedTerminal jobId s = true := by
    intro hterminal
    rw [hs]
    exact storedTerminal_step h.store a hterminal
  refine sound_step h (hs ▸ step_kept h.store a) hstored (fun hseen => ⟨hstored hseen.1,hseen.2⟩)
    (fun record hrecord hterminal => hstored (h.entry record hrecord hterminal))
    (enter_phases i rfl hphase) rfl

theorem caching_ok {σ : System} {job : StoredJob}
    (hjob : storedTerminal jobId σ.store = isTerminal job.state) :
    PhaseOk jobId σ (.caching false job) :=
  ⟨fun hterminal => hjob.trans hterminal,fun hlate => by cases hlate⟩

theorem putCache_sound {σ : System} (h : Sound jobId σ) (i : ℕ) (lost : Bool) {late : Bool}
    {job : StoredJob} (hphase : PhaseOk jobId σ (.caching late job))
    (hkeeps : if lost then isTerminal job.state = true → ∀ record ∈ σ.cache,
        isTerminal record.status = true
      else isTerminal job.state = false → storedTerminal jobId σ.store = false) :
    Sound jobId { σ.enter i (.responding late job.state) with
      cache := if lost then σ.cache else some (CacheRecord.new scope job) } := by
  cases lost with
  | true =>
    rw [if_pos rfl] at hkeeps
    refine sound_enter h i ⟨fun hterminal => ?_,fun hlate => (hphase.2 hlate).1⟩
    exact ⟨hphase.1 hterminal,hkeeps hterminal⟩
  | false =>
    rw [if_neg Bool.false_ne_true] at hkeeps
    have hrecord : ∀ {σ' : System}, σ'.cache = some (CacheRecord.new scope job) →
        ∀ record ∈ σ'.cache, record.status = job.state := by
      intro σ' hcache record hmem
      rw [hcache, Option.mem_some_iff] at hmem
      rw [← hmem]
      rfl
    have hseen : Seen jobId σ → ∀ record ∈ some (CacheRecord.new scope job),
        isTerminal record.status = true := by
      intro hseen record hmem
      rw [Option.mem_some_iff] at hmem
      rw [← hmem]
      by_contra hcontra
      rw [Bool.not_eq_true] at hcontra
      have hopen := hkeeps hcontra
      rw [hseen.1] at hopen
      cases hopen
    have hentry : ∀ record ∈ some (CacheRecord.new scope job), isTerminal record.status = true →
        storedTerminal jobId σ.store = true := by
      intro record hmem hterminal
      rw [Option.mem_some_iff] at hmem
      rw [← hmem] at hterminal
      exact hphase.1 hterminal
    refine sound_step h h.store id (fun hs => ⟨hs.1,hseen hs⟩) hentry (enter_phases i rfl ?_) rfl
    refine ⟨fun hterminal => ⟨hphase.1 hterminal,?_⟩,fun hlate => (hphase.2 hlate).1⟩
    intro record hmem
    rw [hrecord rfl record hmem]
    exact hterminal

theorem respond_sound {σ : System} (h : Sound jobId σ) (i : ℕ) {late : Bool} {status : JobState}
    (hphase : PhaseOk jobId σ (.responding late status)) :
    Sound jobId { σ.enter i .idle with responses := ⟨status,late⟩::σ.responses } where
  store := h.store
  reported := by
    intro hreported
    rw [reported, List.any_cons, Bool.or_eq_true] at hreported
    rcases hreported with hterminal | hbefore
    · exact hphase.1 hterminal
    · exact h.reported hbefore
  entry := h.entry
  phases := by
    intro j
    have hphases : ∀ j, (σ.enter i .idle).requests j = σ.requests j ∨
        PhaseOk jobId (σ.enter i .idle) ((σ.enter i .idle).requests j) :=
      enter_phases i rfl trivial
    rcases hphases j with hsame | hnew
    · show PhaseOk jobId σ ((σ.enter i .idle).requests j)
      rw [hsame]
      exact h.phases j
    · exact hnew
  unseen := by
    intro r hr hlate
    rcases List.mem_cons.mp hr with rfl | hm
    · exact hphase.2 hlate
    · exact h.unseen r hm hlate

theorem readCached_mem {fails : Bool} {cache : Option CacheRecord} {record : CacheRecord}
    (h : readCachedJobStatus scope jobId fails cache = some record) : record ∈ cache := by
  unfold readCachedJobStatus at h
  split at h
  · cases h
  · exact (Option.filter_eq_some_iff.mp h).1

theorem step_sound {σ : System} (h : Sound jobId σ) {a : Action} (hkeeps : KeepsTerminal jobId σ a) :
    Sound jobId (step scope jobId σ a) := by
  cases a with
  | other a =>
    have hstored : storedTerminal jobId σ.store = true →
        storedTerminal jobId (OutboxExhaustion.step σ.store a) = true :=
      storedTerminal_step h.store a
    exact sound_step h (step_kept h.store a) hstored (fun hseen => ⟨hstored hseen.1,hseen.2⟩)
      (fun record hrecord hterminal => hstored (h.entry record hrecord hterminal))
      (fun _ => Or.inl rfl) rfl
  | startGet i => exact sound_enter h i h.reported
  | readCache i fails =>
    have hphase := h.phases i
    simp only [step]
    split
    · rename_i late hrequest
      rw [hrequest] at hphase
      split
      · rename_i record hread
        have hmem := readCached_mem hread
        refine sound_enter h i ⟨fun hterminal => ?_,fun hlate => (hphase hlate).2 record hmem⟩
        refine ⟨h.entry record hmem hterminal,?_⟩
        intro x hx
        rw [Option.mem_unique hx hmem]
        exact hterminal
      · exact sound_enter h i hphase
    · exact h
  | loadJob i =>
    have hphase := h.phases i
    simp only [step]
    split
    · rename_i late hrequest
      rw [hrequest] at hphase
      split
      · rename_i job hfind
        have hjob := find_terminal h.store.2 hfind
        refine sound_enter h i ⟨fun hterminal => hjob.trans hterminal,fun hlate => ?_⟩
        exact ⟨hjob.symm.trans (hphase hlate).1,hphase hlate⟩
      · exact sound_enter h i trivial
    · exact h
  | cancel i now =>
    simp only [step]
    split
    · rename_i job s hcancel
      obtain ⟨hs,hjob⟩ := cancel_terminal h.store hcancel
      exact sound_transaction h hs i (caching_ok (hjob job (Or.inl rfl)))
    · rename_i job s hcancel
      obtain ⟨hs,hjob⟩ := cancel_terminal h.store hcancel
      exact sound_transaction h hs i (caching_ok (hjob job (Or.inr rfl)))
    · rename_i s _ _ hcancel
      exact sound_transaction h (cancel_terminal h.store hcancel).1 i trivial
    · exact sound_enter h i trivial
  | create i now request =>
    simp only [step]
    split
    · rename_i job s hcreate
      obtain ⟨hs,hjob⟩ := create_terminal jobId h.store hcreate
      split
      · rename_i hkey
        exact sound_transaction h hs i (caching_ok (hjob job (Or.inl rfl) hkey.2))
      · exact sound_transaction h hs i trivial
    · rename_i job s hcreate
      obtain ⟨hs,hjob⟩ := create_terminal jobId h.store hcreate
      split
      · rename_i hkey
        exact sound_transaction h hs i (caching_ok (hjob job (Or.inr rfl) hkey.2))
      · exact sound_transaction h hs i trivial
    · exact sound_enter h i trivial
  | putCache i lost =>
    have hphase := h.phases i
    simp only [step]
    split
    · rename_i late job hrequest
      rw [hrequest] at hphase
      simp only [KeepsTerminal, hrequest] at hkeeps
      exact putCache_sound h i lost hphase hkeeps
    · exact h
  | respond i =>
    have hphase := h.phases i
    simp only [step]
    split
    · rename_i late status hrequest
      rw [hrequest] at hphase
      exact respond_sound h i hphase
    · exact h
  | expire =>
    refine sound_step h h.store id (fun hseen => ⟨hseen.1,fun _ hmem => ?_⟩) (fun _ hmem => ?_)
      (fun _ => Or.inl rfl) rfl
    · cases hmem
    · cases hmem
  | drop i => exact sound_enter h i trivial

variable (scope) in
/-- Along the steps which keep terminal entries, no terminal status is unseen. -/
theorem run_never_unseen (as : List Action)
    (hkeeps : Along (step scope jobId) (KeepsTerminal jobId) initial as) :
    Always (step scope jobId) NeverUnseen initial as := by
  have hstep : ∀ σ a, Sound jobId σ → KeepsTerminal jobId σ a → Sound jobId (step scope jobId σ a) :=
    fun _ _ h hkeeps => step_sound h hkeeps
  have hsound : Always (step scope jobId) (Sound jobId) initial as :=
    always_of_along (I := fun _ => True) (fun _ _ _ => trivial)
      (fun σ a _ h hkeeps => hstep σ a h hkeeps) trivial sound_initial hkeeps
  exact always_mono (fun _ h => h.unseen) hsound

end

/-- The job is being processed. -/
def processingJob : List Action :=
  acceptedJob.map (fun c => .other (.command 3 c))++
    match PageCheckpoint.PageWorkflow.new default 1 1 with
    | .ok workflow => [.other (.command 4 (.createPageWorkflow default default workflow))]
    | .error _ => []

/-- A request misses the cache and loads the job. Meanwhile the job is cancelled,
which is cached and reported, and expires. Another request reads the job after
that and reports it cancelled as well. -/
def expiringRun : List Action :=
  processingJob++[.startGet 0,.readCache 0 false,.loadJob 0,.putCache 0 false,.cancel 1 5,
    .putCache 1 false,.respond 0,.respond 1,.expire,.startGet 2,.readCache 2 false,.loadJob 2,
    .putCache 2 false,.respond 2]

theorem expired_entry_not_unseen : Always (step default default) NeverUnseen initial expiringRun :=
  run_never_unseen default expiringRun (by decide +kernel)

/-- The request which loaded the job before its cancellation writes last. -/
def slowReaderRun : List Action :=
  processingJob++[.startGet 0,.readCache 0 false,.loadJob 0,.cancel 1 5,.putCache 1 false,.respond 1,
    .putCache 0 false,.startGet 2,.readCache 2 false,.respond 2]

/-- The last request reports the job as processing after it was reported cancelled. -/
theorem slow_reader_unsees : ¬Always (step default default) NeverUnseen initial slowReaderRun := by
  intro h
  have hlast : NeverUnseen (run (step default default) initial slowReaderRun) := always_run h
  revert hlast
  decide +kernel

end DocumentIntelligence.JobStatusCache
